import ClusterScaler.Files.Tree
import Mathlib.Data.String.Basic

/-!
# Files by their names

The pieces of a path are its characters between slashes. A path is followed from the working directory
or from the root. One that is just a name leads to what stands under the name in the working directory.
Where no link and no directory stands there, it can be written, and moved to another such name.
-/

set_option autoImplicit false

namespace ClusterScaler

namespace Path

/-- Behind `l`, the piece at hand starts with `m`, and `r` is still to be cut. -/
theorem splitOnAux_eq {l m r : List Char} {done : List String} :
    String.splitOnAux (String.ofList (l ++ m ++ r)) "/" ⟨String.utf8Len l⟩
      ⟨String.utf8Len (l ++ m)⟩ 0 done =
        done.reverse ++ (List.splitOnPPrepend (· == '/') r m.reverse).map String.ofList := by
  induction r generalizing l m done with
  | nil =>
    rw [String.splitOnAux, if_pos ((String.atEnd_of_valid _ _).mpr rfl), String.utf8Len_append,
      String.extract_of_valid, List.splitOnPPrepend_nil, List.reverse_reverse]
    exact List.reverse_cons
  | cons c r ih =>
    have hend : ¬ String.Pos.Raw.atEnd (String.ofList (l ++ m ++ c :: r))
        ⟨String.utf8Len (l ++ m)⟩ = true := by
      rw [String.atEnd_of_valid]
      exact List.cons_ne_nil c r
    have hnext : String.Pos.Raw.next (String.ofList (l ++ m ++ c :: r))
        ⟨String.utf8Len (l ++ m)⟩ = ⟨String.utf8Len (l ++ m ++ [c])⟩ := by
      rw [String.utf8Len_append (l ++ m), String.utf8Len_cons, String.utf8Len_nil, Nat.zero_add]
      exact String.next_of_valid (l ++ m) c r
    rw [String.splitOnAux, if_neg hend, String.get_of_valid, List.headD_cons,
      List.splitOnPPrepend_cons_eq_if]
    by_cases hslash : c = '/'
    · subst hslash
      have hpiece := String.extract_of_valid l m ('/' :: r)
      have hrest := @ih (l ++ m ++ ['/']) [] (String.ofList m :: done)
      have hstart : (⟨String.utf8Len (l ++ m ++ ['/'])⟩ : String.Pos.Raw).unoffsetBy
          (String.Pos.Raw.next "/" 0) = ⟨String.utf8Len l + String.utf8Len m⟩ := by
        rw [String.utf8Len_append, String.utf8Len_append]
        rfl
      rw [if_pos (by decide), if_pos (by decide), if_pos (by decide), hnext, hstart, hpiece]
      simpa using hrest
    · have hrest := @ih l (m ++ [c]) done
      have hsep : String.Pos.Raw.get "/" 0 = '/' := rfl
      have hstart : (⟨String.utf8Len (l ++ m)⟩ : String.Pos.Raw).unoffsetBy 0 =
          ⟨String.utf8Len (l ++ m)⟩ := rfl
      rw [if_neg (by simpa [hsep] using hslash), if_neg (by simpa using hslash), hstart, hnext]
      simpa using hrest

/-- The pieces of a path are those of its characters between slashes. -/
theorem pieces_eq (p : String) : pieces p = (p.toList.splitOn '/').map String.ofList := by
  unfold pieces String.splitOn
  rw [if_neg (by decide)]
  have hcut := @splitOnAux_eq [] [] p.toList []
  rw [List.nil_append, List.nil_append, String.ofList_toList] at hcut
  exact hcut

/-- A path without a slash is one piece. -/
theorem pieces_of_notMem {p : String} (h : '/' ∉ p.toList) : pieces p = [p] := by
  rw [pieces_eq, List.splitOn_eq_singleton h, List.map_singleton, String.ofList_toList]

/-- A path that is just the name of an entry of the working directory. -/
structure IsName (p : String) : Prop where
  nonempty : p.isEmpty = false
  noNul : p.toList.contains '\x00' = false
  relative : isAbsolute p = false
  noSlash : '/' ∉ p.toList
  unslashed : p.endsWith "/" = false
  notDots : p ≠ "." ∧ p ≠ ".."

end Path

namespace FileTree

variable {es : Entries} {name name' : String} {t : FileTree}

theorem child?_putEntry :
    child? (putEntry name t es) name' = if name' = name then some t else child? es name' := by
  induction es with
  | nil =>
    by_cases heq : name' = name
    · simp [child?, putEntry, heq]
    · simp [child?, putEntry, heq, Ne.symm heq]
  | cons e rest ih =>
    obtain ⟨n, u⟩ := e
    unfold putEntry
    split
    · by_cases heq : name' = name
      · simp [child?, heq]
      · simp [child?, heq, Ne.symm heq]
    · split
      · next hsame =>
        obtain rfl := beq_iff_eq.mp hsame
        by_cases heq : name' = name
        · simp [child?, heq]
        · simp [child?, heq, Ne.symm heq]
      · next hnot =>
        unfold child? at ih ⊢
        by_cases hn : n = name'
        · subst hn
          have hne : n ≠ name := by
            rintro rfl
            simp at hnot
          simp [hne]
        · simp [hn, ih]

theorem child?_removeAt :
    child? (removeAt [name] es) name' = if name' = name then none else child? es name' := by
  unfold removeAt child?
  rw [List.find?_filter]
  split
  · next heq =>
    subst heq
    simp
  · next hne =>
    congr 2
    funext e
    by_cases he : e.1 = name'
    · simp [he, hne]
    · simp [he]

end FileTree

namespace FileStore

variable {s : FileStore} {p q : String}

/-- Neither a link nor a directory has the name. -/
def Clear (s : FileStore) (p : String) : Prop :=
  ∀ t, FileTree.child? s.entries p = some t → ∃ content, t = .file content

/-- Under a clear name it does not matter what would be done about a directory. -/
theorem Clear.match_eq {α : Type} (hclear : s.Clear p) (onDir otherwise : α) :
    (match FileTree.child? s.entries p with
      | some (.dir _) => onDir
      | _ => otherwise) = otherwise := by
  split
  next entries hentry =>
    obtain ⟨content, heq⟩ := hclear _ hentry
    cases heq
  next => rfl

/-- From one of the directories above the working directory, the names lead on to this. -/
theorem names_framesFrom (es : FileTree.Entries) (name : String) (outer : List Frame)
    (below : List Ancestor) :
    ((framesFrom es name outer below).map (·.name)).reverse =
      (outer.map (·.name)).reverse ++ name :: below.map (·.name) := by
  induction below generalizing name outer with
  | nil => simp [framesFrom]
  | cons a below ih => simp [framesFrom, ih]

theorem head?_framesFrom (es : FileTree.Entries) (name : String) (outer : List Frame)
    (below : List Ancestor) :
    (framesFrom es name outer below).head?.map (·.entries) = some es := by
  induction below generalizing name outer with
  | nil => rfl
  | cons a below ih => exact ih ..

theorem getLast?_framesFrom (es : FileTree.Entries) (name : String) (outer : List Frame)
    (below : List Ancestor) :
    (framesFrom es name outer below).getLast? =
      some (outer.getLast?.getD ⟨name, entriesAt es below⟩) := by
  induction below generalizing name outer with
  | nil => cases outer <;> rfl
  | cons a below ih =>
    rw [framesFrom, ih]
    cases outer <;> rfl

theorem names_cursor (s : FileStore) : s.cursor.names = s.home := by
  have hnames := names_framesFrom s.entries "" [] s.above
  unfold Cursor.names cursor home
  rw [← List.tail_reverse, hnames]
  rfl

theorem entries_cursor (s : FileStore) : s.cursor.entries = s.entries := by
  unfold Cursor.entries cursor
  rw [head?_framesFrom]
  rfl

theorem top_cursor (s : FileStore) : s.cursor.top = ⟨[⟨"", s.root⟩]⟩ := by
  unfold Cursor.top cursor
  rw [getLast?_framesFrom]
  rfl

/-- What is changed below the working directory is changed there. -/
theorem change_home (f : List String → FileTree.Entries → FileTree.Entries) (names : List String)
    (s : FileStore) :
    s.change f (s.home ++ names) = { s with entries := f names s.entries } := by
  obtain ⟨entries, above⟩ := s
  change change.go f ⟨entries, above⟩ above (above.map (·.name) ++ names) = ⟨f names entries, above⟩
  suffices hgo : ∀ s : FileStore, change.go f s above (above.map (·.name) ++ names) =
      ⟨f names s.entries, above⟩ from hgo _
  intro s
  induction above with
  | nil => cases names <;> rfl
  | cons a below ih =>
    rw [List.map_cons, List.cons_append, change.go, if_pos rfl, ih]

/-- A relative path is followed from the working directory. -/
theorem locate_relative (hnonempty : p.isEmpty = false)
    (hnul : p.toList.contains '\x00' = false) (hrelative : Path.isAbsolute p = false)
    (follow : Bool) : s.locate follow p = walk follow maxLinks s.cursor (Path.pieces p) := by
  rw [locate, hnonempty, hnul, hrelative]
  rfl

/-- An absolute path is followed from the root. -/
theorem locate_absolute (hnonempty : p.isEmpty = false)
    (hnul : p.toList.contains '\x00' = false) (habsolute : Path.isAbsolute p = true)
    (follow : Bool) : s.locate follow p = walk follow maxLinks ⟨[⟨"", s.root⟩]⟩ (Path.pieces p) := by
  rw [locate, hnonempty, hnul, habsolute, ← top_cursor]
  rfl

theorem locate_name (hname : Path.IsName p) (hclear : s.Clear p) (follow : Bool) :
    s.locate follow p = .ok ⟨s.home ++ [p], FileTree.child? s.entries p⟩ := by
  have hdots : (p == ".") = false ∧ (p == "..") = false := by
    simp [hname.notDots.1, hname.notDots.2]
  rw [locate_relative hname.nonempty hname.noNul hname.relative,
    Path.pieces_of_notMem hname.noSlash, walk, hname.nonempty, hdots.1, hdots.2, entries_cursor,
    names_cursor]
  cases hentry : FileTree.child? s.entries p with
  | none => rfl
  | some t =>
    obtain ⟨content, rfl⟩ := hclear t hentry
    rfl

theorem exists_eq_false (hname : Path.IsName p) (hnone : FileTree.child? s.entries p = none) :
    s.exists p = false := by
  have hclear : s.Clear p := by
    intro t ht
    rw [hnone] at ht
    cases ht
  unfold FileStore.exists get
  rw [locate_name hname hclear, hnone]
  rfl

/-- A file can be written under a name that is clear. -/
theorem write_name (hname : Path.IsName p) (hclear : s.Clear p) (content : ByteArray) :
    s.write p content = .ok (s.put [p] (.file content)) := by
  have hput : s.change (FileTree.putAt (.file content)) (s.home ++ [p]) =
      s.put [p] (.file content) := change_home _ [p] s
  unfold write
  rw [locate_name hname hclear, ← hput]
  refine (hclear.match_eq _ _).trans ?_
  rw [hname.unslashed]
  rfl

theorem child?_put {t : FileTree} : FileTree.child? (s.put [p] t).entries q =
    if q = p then some t else FileTree.child? s.entries q :=
  FileTree.child?_putEntry

/-- A file can be moved from one name to another that is clear. -/
theorem rename_name {content : ByteArray} (hp : Path.IsName p) (hq : Path.IsName q) (hne : p ≠ q)
    (hfile : FileTree.child? s.entries p = some (.file content)) (hclear : s.Clear q) :
    s.rename p q =
      .ok (put { s with entries := FileTree.removeAt [p] s.entries } [q] (.file content)) := by
  have hsource : s.Clear p := by
    intro t ht
    exact ⟨content, Option.some.inj (ht.symm.trans hfile)⟩
  have hnames : (s.home ++ [p] == s.home ++ [q]) = false := by simp [hne]
  have hmoved : (s.change FileTree.removeAt (s.home ++ [p])).change
      (FileTree.putAt (.file content)) (s.home ++ [q]) =
        put { s with entries := FileTree.removeAt [p] s.entries } [q] (.file content) := by
    rw [change_home]
    exact change_home _ [q] { s with entries := FileTree.removeAt [p] s.entries }
  unfold rename
  rw [locate_name hp hsource, locate_name hq hclear, hfile, ← hmoved]
  refine (hclear.match_eq _ _).trans ?_
  rw [hq.unslashed]
  change (if (s.home ++ [p] == s.home ++ [q]) = true then _ else _) = _
  rw [hnames]
  rfl

theorem read_name {content : ByteArray} (hname : Path.IsName p)
    (hfile : FileTree.child? s.entries p = some (.file content)) : s.read p = .ok content := by
  have hclear : s.Clear p := by
    intro t ht
    exact ⟨content, Option.some.inj (ht.symm.trans hfile)⟩
  unfold read get
  rw [locate_name hname hclear, hfile]
  rfl

end FileStore

end ClusterScaler
