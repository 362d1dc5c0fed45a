import ClusterScaler.Shell
import ClusterScaler.Table

/-!
# Quoted texts are read back

How a POSIX shell reads a simple command: blanks separate its words, quotes and backslashes are taken
away, and a semicolon or the end of the line ends it. The reader gives nothing where a word would be
expanded, where another operator stands, or where a quote is left open; so the words that it gives are
the ones that the command is run with.

A quoted text adds exactly itself to the word in which it stands (`command?_quote`). So every line that
is put together with quoted texts is read as it was meant.
-/

set_option autoImplicit false

namespace ClusterScaler

namespace Shell

/-- Where in a line the reader stands. -/
inductive Quoting where
  /-- Outside of quotes. -/
  | bare
  /-- After a backslash outside of quotes. -/
  | escaped
  /-- Between single quotes. -/
  | single
  /-- Between double quotes. -/
  | double
  /-- After a backslash between double quotes. -/
  | doubleEscaped
  deriving DecidableEq

/-- Whether a character separates words. -/
def isBlank (c : Char) : Bool := c == ' ' || c == '\t'

/-- What a character means where the reader stands. -/
inductive Meaning where
  /-- The word gains characters, or at least begins. -/
  | add (cs : List Char) (next : Quoting)
  /-- Nothing is added to the line. -/
  | skip (next : Quoting)
  /-- The word ends. -/
  | gap
  /-- The command ends. -/
  | stop
  /-- The reader does not read on. -/
  | refuse

/-- Whether a character outside of quotes belongs to an operator that ends no simple command, or
starts a comment or an expansion: of a parameter, a command, a number, a home directory or a file
name. -/
def isActive (c : Char) : Bool :=
  ['&', '|', '<', '>', '(', ')', '#', '$', '\x60', '~', '*', '?', '['].contains c

/-- Whether a character between double quotes starts an expansion. -/
def isActiveQuoted (c : Char) : Bool := ['$', '\x60'].contains c

/-- Whether a backslash between double quotes takes the meaning of a character away, rather than stand
for itself. -/
def isEscapable (c : Char) : Bool := ['$', '\x60', '"', '\\'].contains c

/-- The meaning of a character. A line has no NUL. -/
def Quoting.meaning (q : Quoting) (c : Char) : Meaning :=
  if c = '\x00' then .refuse
  else match q with
    | .bare =>
      if isBlank c then .gap
      else if c = ';' ∨ c = '\n' then .stop
      else if c = '\'' then .add [] .single
      else if c = '"' then .add [] .double
      else if c = '\\' then .skip .escaped
      else if isActive c then .refuse
      else .add [c] .bare
    | .escaped => if c = '\n' then .skip .bare else .add [c] .bare
    | .single => if c = '\'' then .add [] .bare else .add [c] .single
    | .double =>
      if c = '"' then .add [] .bare
      else if c = '\\' then .skip .doubleEscaped
      else if isActiveQuoted c then .refuse
      else .add [c] .double
    | .doubleEscaped =>
      if c = '\n' then .skip .double
      else if isEscapable c then .add [c] .double
      else .add ['\\', c] .double

/-- The word that was begun, if one was. -/
def begun (word : Option (List Char)) : List String := (word.map String.ofList).toList

/-- Read the rest of a simple command, of which the reader has begun a word. What comes out are the
words, and what stands behind the command if something ends it. -/
def command? (q : Quoting) (word : Option (List Char)) :
    List Char → Option (List String × Option (List Char))
  | [] => if q = .bare then some (begun word, none) else none
  | c :: rest =>
    match q.meaning c with
    | .add cs q' => command? q' (some (word.getD [] ++ cs)) rest
    | .skip q' => command? q' word rest
    | .gap => (command? .bare none rest).map (fun r => (begun word ++ r.1, r.2))
    | .stop => if c = ';' ∧ rest.head? = some ';' then none else some (begun word, some rest)
    | .refuse => none

/-- The first simple command of a line, and what stands behind it. -/
def firstCommand? (line : String) : Option (List String × Option (List Char)) :=
  command? .bare none line.toList

/-- The words of a line that is one simple command. -/
def words? (line : String) : Option (List String) :=
  match firstCommand? line with
  | some (words, none) => some words
  | _ => none

/-- A text that can stand in a line: it has no NUL. -/
def NulFree (s : String) : Prop := '\x00' ∉ s.toList

instance (s : String) : Decidable (NulFree s) := inferInstanceAs (Decidable (¬ _))

variable {q q' : Quoting} {word : Option (List Char)} {w cs rest : List Char} {c : Char}

theorem command?_add (h : q.meaning c = .add cs q') :
    command? q word (c :: rest) = command? q' (some (word.getD [] ++ cs)) rest := by
  rw [command?, h]

theorem command?_space :
    command? .bare (some w) (' ' :: rest) =
      (command? .bare none rest).map (fun r => (String.ofList w :: r.1, r.2)) := rfl

theorem command?_semicolon (h : rest.head? ≠ some ';') :
    command? .bare (some w) (';' :: rest) = some ([String.ofList w], some rest) := by
  have hmeaning : Quoting.bare.meaning ';' = .stop := rfl
  rw [command?, hmeaning]
  exact if_neg fun hdouble => h hdouble.2

/-- Characters that mean themselves are added to the word. -/
theorem command?_append (h : ∀ c ∈ cs, q.meaning c = .add [c] q) :
    command? q (some w) (cs ++ rest) = command? q (some (w ++ cs)) rest := by
  induction cs generalizing w with
  | nil => simp
  | cons c cs ih =>
    rw [List.cons_append, command?_add (h c List.mem_cons_self), Option.getD_some,
      ih fun c' hc' => h c' (List.mem_cons_of_mem _ hc'), List.append_assoc, List.singleton_append]

theorem meaning_of_isPlain (h : isPlain c = true) : Quoting.bare.meaning c = .add [c] .bare := by
  have hne : ∀ c', isPlain c' = false → c ≠ c' := by
    rintro c' hc' rfl
    rw [h] at hc'
    cases hc'
  have hactive : isActive c = false := by
    unfold isActive
    simp [hne '&' rfl, hne '|' rfl, hne '<' rfl, hne '>' rfl, hne '(' rfl, hne ')' rfl, hne '#' rfl,
      hne '$' rfl, hne '\x60' rfl, hne '~' rfl, hne '*' rfl, hne '?' rfl, hne '[' rfl]
  simp [Quoting.meaning, isBlank, hactive, hne '\x00' rfl, hne ' ' rfl, hne '\t' rfl, hne ';' rfl,
    hne '\n' rfl, hne '\'' rfl, hne '"' rfl, hne '\\' rfl]

/-- Plain characters add themselves to a word, which they begin where none was begun. -/
theorem command?_plain (hne : cs ≠ []) (h : cs.all isPlain = true) :
    command? .bare word (cs ++ rest) = command? .bare (some (word.getD [] ++ cs)) rest := by
  have hmeaning : ∀ c ∈ cs, Quoting.bare.meaning c = .add [c] .bare :=
    fun c hc => meaning_of_isPlain (List.all_eq_true.mp h c hc)
  cases cs with
  | nil => exact absurd rfl hne
  | cons c cs =>
    rw [List.cons_append, command?_add (hmeaning c List.mem_cons_self),
      command?_append fun c' hc' => hmeaning c' (List.mem_cons_of_mem _ hc'), List.append_assoc,
      List.singleton_append]

/-- Between single quotes every character means itself, if the quote is written as it is here. -/
theorem command?_quoteChar (hc : c ≠ '\x00') :
    command? .single (some w) (quoteChar c ++ rest) = command? .single (some (w ++ [c])) rest := by
  unfold quoteChar
  split
  · next h =>
    subst h
    -- the quote ends, another kind of quotes begins, holds the character and ends, and it goes on
    have hquotes : command? .single (some w) ('\'' :: '"' :: '\'' :: '"' :: '\'' :: rest) =
        command? .single (some (w ++ [] ++ [] ++ ['\''] ++ [] ++ [])) rest := rfl
    simpa using hquotes
  · next h => exact command?_add (by simp [Quoting.meaning, hc, h])

theorem command?_quoteChars (hcs : '\x00' ∉ cs) :
    command? .single (some w) (cs.flatMap quoteChar ++ rest) =
      command? .single (some (w ++ cs)) rest := by
  induction cs generalizing w with
  | nil => simp
  | cons c cs ih =>
    obtain ⟨hc, hcs⟩ := not_or.mp (mt List.mem_cons.mpr hcs)
    rw [List.flatMap_cons, List.append_assoc, command?_quoteChar (Ne.symm hc), ih hcs,
      List.append_assoc, List.singleton_append]

/-- A quoted text adds itself to the word, wherever in a line it stands. -/
theorem command?_quote {s : String} (hs : NulFree s) :
    command? .bare word ((quote s).toList ++ rest) =
      command? .bare (some (word.getD [] ++ s.toList)) rest := by
  unfold quote
  split
  · next hplain =>
    rw [Bool.and_eq_true, Bool.not_eq_true', String.isEmpty_eq_false_iff] at hplain
    exact command?_plain (mt String.toList_eq_nil_iff.mp hplain.1) hplain.2
  · rw [String.toList_ofList, List.cons_append, List.cons_append, List.append_assoc]
    have hopen : ∀ rest, command? .bare word ('\'' :: rest) =
        command? .single (some (word.getD [] ++ [])) rest := fun _ => rfl
    have hclose : ∀ w, command? .single (some w) (['\''] ++ rest) =
        command? .bare (some (w ++ [])) rest := fun _ => rfl
    rw [hopen, command?_quoteChars hs, hclose, List.append_nil, List.append_nil]

/-- A quoted text in front of a blank is a word. -/
theorem command?_quote_space {s : String} (hs : NulFree s) :
    command? .bare none ((quote s).toList ++ ' ' :: rest) =
      (command? .bare none rest).map (fun r => (s :: r.1, r.2)) := by
  rw [command?_quote hs, Option.getD_none, List.nil_append, command?_space, String.ofList_toList]

/-- Quoted texts with blanks between them are read as these texts. -/
theorem words?_intercalate {ws : List String} (hws : ∀ w ∈ ws, NulFree w) :
    words? (String.intercalate " " (ws.map quote)) = some ws := by
  have hcommand : command? .bare none (String.intercalate " " (ws.map quote)).toList =
      some (ws, none) := by
    induction ws with
    | nil => rfl
    | cons w ws ih =>
      have hw := hws w List.mem_cons_self
      cases ws with
      | nil =>
        have hlast : command? .bare none ((quote w).toList ++ []) =
            command? .bare (some ([] ++ w.toList)) [] := command?_quote hw
        simpa [command?, begun] using hlast
      | cons w' ws =>
        have hrest := ih fun v hv => hws v (List.mem_cons_of_mem _ hv)
        have htext : (String.intercalate " " ((w :: w' :: ws).map quote)).toList =
            (quote w).toList ++ ' ' :: (String.intercalate " " ((w' :: ws).map quote)).toList := by
          simp [String.toList_intercalate]
        rw [htext, command?_quote_space hw, hrest, Option.map_some]
  rw [words?, firstCommand?, hcommand]

/-- The variables that a program is started with. -/
abbrev Environment := Table String String

/-- A shell: its environment, and what it has yet to read. -/
structure State where
  environment : Environment
  script : List Char

/-- The variable and the value of an assignment. -/
def assignment? (word : String) : Option (String × String) :=
  match word.toList.dropWhile (· != '=') with
  | [] => none
  | _ :: value => some (String.ofList (word.toList.takeWhile (· != '=')), String.ofList value)

/-- The shell that reads on after one command. An export leaves a variable in the environment of the
shell itself. A shell inside a container gets the environment of the container, whatever the shell that
starts it has exported. -/
def State.next? (containers : String → Environment) (s : State) : Option State :=
  match command? .bare none s.script with
  | some (["export", word], some rest) =>
    (assignment? word).map (fun v => ⟨s.environment.insert v.1 v.2, rest⟩)
  | some (["docker", "exec", container, "/bin/sh", "-c", text], none) =>
    some ⟨containers container, text.toList⟩
  | _ => none

/-- A shell has come to a command, up to blanks in front of it. -/
def State.IsAt (s : State) (command : String) : Prop :=
  s.script.dropWhile isBlank = command.toList.dropWhile isBlank

/-- The shell that comes to read a command after a shell has begun to read a line. -/
inductive Reads (containers : String → Environment) (command : String) : State → State → Prop where
  | here {s : State} (h : s.IsAt command) : Reads containers command s s
  | next {s s' reader : State} (h : ¬ s.IsAt command) (hnext : s.next? containers = some s')
      (hreads : Reads containers command s' reader) : Reads containers command s reader

variable {containers : String → Environment} {command : String} {s s' reader : State}

theorem reads_iff_of_isAt (h : s.IsAt command) : Reads containers command s reader ↔ reader = s := by
  constructor
  · intro hreads
    cases hreads with
    | here => rfl
    | next hnot => exact absurd h hnot
  · rintro rfl
    exact .here h

theorem reads_iff_of_next (h : ¬ s.IsAt command) (hnext : s.next? containers = some s') :
    Reads containers command s reader ↔ Reads containers command s' reader := by
  constructor
  · intro hreads
    cases hreads with
    | here hat => exact absurd hat h
    | next _ hnext' hreads =>
      rw [hnext] at hnext'
      cases hnext'
      exact hreads
  · exact .next h hnext

/-- A shell has not come to a command that is shorter than what it has yet to read. -/
theorem not_isAt_of_length (h : command.toList.length < (s.script.dropWhile isBlank).length) :
    ¬ s.IsAt command := by
  intro hat
  have hle := (List.dropWhile_suffix (l := command.toList) isBlank).length_le
  rw [hat] at h
  omega

theorem length_le_length_quote (s : String) : s.toList.length ≤ (quote s).toList.length := by
  have hchars : ∀ cs : List Char, cs.length ≤ (cs.flatMap quoteChar).length := by
    intro cs
    induction cs with
    | nil => exact Nat.le_refl 0
    | cons c cs ih =>
      have hc : 1 ≤ (quoteChar c).length := by
        unfold quoteChar
        split <;> simp
      rw [List.flatMap_cons, List.length_append, List.length_cons]
      omega
  have hquoted := hchars s.toList
  unfold quote
  split
  · exact Nat.le_refl _
  · rw [String.toList_ofList, List.length_append, List.length_cons]
    omega

end Shell

end ClusterScaler
