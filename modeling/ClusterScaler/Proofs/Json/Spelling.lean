import ClusterScaler.Proofs.Json.Tokens

/-!
# Spellings of JSON values

A text spells a value if it is the value in JSON, with any blanks between the tokens. There are as
many spellings as there are ways to lay a value out, and each of them reads as the value:
`Document.read_of_spells`. Numbers are naturals here, since nothing else is ever read back.
-/

set_option autoImplicit false

namespace ClusterScaler

namespace Document

mutual

/-- The document of a value. -/
def ofJson : Json → Document
  | .null => .null
  | .bool b => .bool b
  | .num n => .num n
  | .str s => .str s
  | .arr items => .arr (ofItems items) true
  | .obj members => .obj (ofMembers members) true

/-- The documents of items. -/
def ofItems : List Json → List Document
  | [] => []
  | j :: rest => ofJson j :: ofItems rest

/-- The documents of members. -/
def ofMembers : List (String × Json) → List (String × Document)
  | [] => []
  | (k, j) :: rest => (k, ofJson j) :: ofMembers rest

end

end Document

namespace Json

/-- The characters of a string literal. -/
def quotedChars (s : String) : List Char := '"' :: (s.toList.flatMap escapeChar ++ ['"'])

theorem toList_stringText (s : String) : (stringText s).toList = quotedChars s := by
  simp [stringText, quotedChars]

/-- Blanks between tokens. -/
def Gap (g : List Char) : Prop := ∀ c ∈ g, Document.isGap c = true

mutual

/-- A text spells a value, in which arrays and objects are nested at most so deep. -/
inductive Spells : Nat → Json → List Char → Prop where
  | null (d : Nat) : Spells d .null ['n', 'u', 'l', 'l']
  | bool (d : Nat) (b : Bool) : Spells d (.bool b) (if b then "true" else "false").toList
  | natural (d : Nat) {n : Nat} : n < Nat.pow 2 64 → Spells d (.nat n) (Decimal.digits n)
  | str (d : Nat) (s : String) : Spells d (.str s) (quotedChars s)
  | noItems {d : Nat} {g : List Char} : Gap g → Spells (d + 1) (.arr []) ('[' :: (g ++ [']']))
  | items {d : Nat} {js : List Json} {g cs : List Char} :
    Gap g → SpellsItems d js cs → Spells (d + 1) (.arr js) ('[' :: (g ++ cs))
  | noMembers {d : Nat} {g : List Char} :
    Gap g → Spells (d + 1) (.obj []) ('\x7b' :: (g ++ ['\x7d']))
  | members {d : Nat} {ms : List (String × Json)} {g cs : List Char} :
    Gap g → SpellsMembers d ms cs → Spells (d + 1) (.obj ms) ('\x7b' :: (g ++ cs))

/-- A text spells the items of an array up to its end. -/
inductive SpellsItems : Nat → List Json → List Char → Prop where
  | last {d : Nat} {j : Json} {cs g : List Char} :
    Spells d j cs → Gap g → SpellsItems d [j] (cs ++ (g ++ [']']))
  | more {d : Nat} {j : Json} {js : List Json} {cs g g' rest : List Char} :
    Spells d j cs → Gap g → Gap g' → SpellsItems d js rest →
      SpellsItems d (j :: js) (cs ++ (g ++ ',' :: (g' ++ rest)))

/-- A text spells the members of an object up to its end. -/
inductive SpellsMembers : Nat → List (String × Json) → List Char → Prop where
  | last {d : Nat} {k : String} {j : Json} {cs g₁ g₂ g₃ : List Char} :
    Spells d j cs → Gap g₁ → Gap g₂ → Gap g₃ →
      SpellsMembers d [(k, j)]
        (quotedChars k ++ (g₁ ++ ':' :: (g₂ ++ (cs ++ (g₃ ++ ['\x7d'])))))
  | more {d : Nat} {k : String} {j : Json} {ms : List (String × Json)}
      {cs g₁ g₂ g₃ g₄ rest : List Char} :
    Spells d j cs → Gap g₁ → Gap g₂ → Gap g₃ → Gap g₄ → SpellsMembers d ms rest →
      SpellsMembers d ((k, j) :: ms)
        (quotedChars k ++ (g₁ ++ ':' :: (g₂ ++ (cs ++ (g₃ ++ ',' :: (g₄ ++ rest))))))

end

end Json

namespace Document

open Json

theorem skip_append {g cs : List Char} (hg : Gap g) : skip (g ++ cs) = skip cs := by
  unfold skip
  rw [List.dropWhile_append_of_pos hg]

theorem skip_cons {c : Char} {cs : List Char} (hc : isGap c = false) :
    skip (c :: cs) = c :: cs := by
  unfold skip
  rw [List.dropWhile_cons_of_neg (by simp [hc])]

theorem quotedChars_append (s : String) (rest : List Char) :
    quotedChars s ++ rest = '"' :: (s.toList.flatMap escapeChar ++ '"' :: rest) := by
  simp [quotedChars]

/-- A text begins with a token that closes nothing. -/
def Opens (cs : List Char) : Prop :=
  ∃ c rest, cs = c :: rest ∧ isGap c = false ∧ c ≠ ']' ∧ c ≠ '\x7d'

theorem ne_of_isDigit {c : Char} (hc : c.isDigit = true) (c' : Char) (hc' : c'.isDigit = false) :
    c ≠ c' := by
  rintro rfl
  rw [hc] at hc'
  cases hc'

theorem isGap_of_isDigit {c : Char} (hc : c.isDigit = true) : isGap c = false := by
  unfold isGap
  simp [ne_of_isDigit hc ' ' rfl, ne_of_isDigit hc '\t' rfl, ne_of_isDigit hc '\n' rfl,
    ne_of_isDigit hc '\r' rfl]

theorem exists_digit (n : Nat) : ∃ c cs, Decimal.digits n = c :: cs ∧ c.isDigit = true := by
  cases hds : Decimal.digits n with
  | nil => exact absurd hds Nat.toDigits_ne_nil
  | cons c cs => exact ⟨c, cs, rfl, isDigit_digits (n := n) (hds ▸ List.mem_cons_self)⟩

theorem Opens.append {cs : List Char} (h : Opens cs) (more : List Char) : Opens (cs ++ more) := by
  obtain ⟨c, rest, rfl, hc⟩ := h
  exact ⟨c, rest ++ more, rfl, hc⟩

/-- What is spelled begins with a token that closes nothing. -/
theorem opens_quotedChars (s : String) (more : List Char) :
    Opens (quotedChars s ++ more) := by
  rw [quotedChars_append]
  exact ⟨_, _, rfl, by decide, by decide, by decide⟩

theorem opens_of_spells {d : Nat} {j : Json} {cs : List Char} (h : Spells d j cs) : Opens cs := by
  cases h with
  | @natural _ n hn =>
    obtain ⟨c, cs, hds, hc⟩ := exists_digit n
    exact ⟨c, cs, hds, isGap_of_isDigit hc, ne_of_isDigit hc _ rfl, ne_of_isDigit hc _ rfl⟩
  | bool _ b => cases b <;> exact ⟨_, _, rfl, by decide, by decide, by decide⟩
  | str _ s => simpa using opens_quotedChars s []
  | _ => exact ⟨_, _, rfl, by decide, by decide, by decide⟩

theorem opens_of_spellsItems {d : Nat} {js : List Json} {cs : List Char}
    (h : SpellsItems d js cs) : Opens cs := by
  cases h with
  | last hv => exact (opens_of_spells hv).append _
  | more hv => exact (opens_of_spells hv).append _

theorem opens_of_spellsMembers {d : Nat} {ms : List (String × Json)} {cs : List Char}
    (h : SpellsMembers d ms cs) : Opens cs := by
  cases h <;> exact opens_quotedChars _ _

/-- A text that begins with a token leaves fuel for its first step. -/
theorem Opens.fuel {cs : List Char} {fuel : Nat} (h : Opens cs)
    (hfuel : 2 * cs.length ≤ fuel + 1) : ∃ f, fuel = f + 1 := by
  obtain ⟨c, rest, rfl, -⟩ := h
  simp only [List.length_cons] at hfuel
  exact ⟨fuel - 1, by omega⟩

theorem numberEnd_gap {g rest : List Char} {c : Char} (hg : Gap g)
    (hc : c = ',' ∨ c = ']' ∨ c = '\x7d') : NumberEnd (g ++ c :: rest) := by
  cases g with
  | nil =>
    intro c' hc'
    cases hc'
    rcases hc with rfl | rfl | rfl <;> decide
  | cons b g =>
    intro c' hc'
    cases hc'
    have hb := hg b List.mem_cons_self
    unfold isGap at hb
    simp only [Bool.or_eq_true, beq_iff_eq] at hb
    rcases hb with ((rfl | rfl) | rfl) | rfl <;> decide

theorem value_skip {fuel d : Nat} {g cs : List Char} (hg : Gap g) :
    value fuel d (g ++ cs) = value fuel d cs := by
  cases fuel with
  | zero => rfl
  | succ fuel =>
    unfold value
    rw [skip_append hg]

theorem value_number {n fuel d : Nat} {rest : List Char} (hn : n < Nat.pow 2 64)
    (hend : NumberEnd rest) :
    value (fuel + 1) d (Decimal.digits n ++ rest) = (.num (.natural n), some rest) := by
  rw [← number_digits hn hend]
  obtain ⟨c, cs, hds, hc⟩ := exists_digit n
  rw [hds]
  unfold value
  rw [List.cons_append, skip_cons (isGap_of_isDigit hc)]
  split
  · next heq => exact absurd (List.cons.inj heq).1 (ne_of_isDigit hc _ rfl)
  · next heq => exact absurd (List.cons.inj heq).1 (ne_of_isDigit hc _ rfl)
  · next heq => exact absurd (List.cons.inj heq).1 (ne_of_isDigit hc _ rfl)
  · next heq => exact absurd (List.cons.inj heq).1 (ne_of_isDigit hc _ rfl)
  · next heq => exact absurd (List.cons.inj heq).1 (ne_of_isDigit hc _ rfl)
  · next heq => exact absurd (List.cons.inj heq).1 (ne_of_isDigit hc _ rfl)
  · next heq => exact absurd (List.cons.inj heq).1 (ne_of_isDigit hc _ rfl)
  · rfl

theorem value_str {fuel d : Nat} {s : String} {rest : List Char} :
    value (fuel + 1) d (quotedChars s ++ rest) = (.str s, some rest) := by
  have hvalue : ∀ cs, value (fuel + 1) d ('"' :: cs) = string cs := fun _ => rfl
  rw [quotedChars_append, hvalue]
  unfold string
  rw [stringBody_text]

/-- What stands behind the bracket that opens an array. -/
def afterBracket (fuel d : Nat) (cs : List Char) : Document × Option (List Char) :=
  match skip cs with
  | ']' :: rest => (.arr [] true, some rest)
  | rest =>
    (.arr (Document.items fuel d rest).1 (Document.items fuel d rest).2.isSome,
      (Document.items fuel d rest).2)

theorem value_bracket {fuel d : Nat} (cs : List Char) :
    value (fuel + 1) (d + 1) ('[' :: cs) = afterBracket fuel d cs := rfl

theorem value_noItems {fuel d : Nat} {g rest : List Char} (hg : Gap g) :
    value (fuel + 1) (d + 1) ('[' :: (g ++ [']']) ++ rest) = (.arr [] true, some rest) := by
  have htext : '[' :: (g ++ [']']) ++ rest = '[' :: (g ++ ']' :: rest) := by simp
  rw [htext, value_bracket, afterBracket, skip_append hg, skip_cons (by decide)]
  rfl

theorem value_items {fuel d : Nat} {g cs rest rest' : List Char} {js : List Document} (hg : Gap g)
    (hcs : Opens cs) (hitems : Document.items fuel d (cs ++ rest) = (js, some rest')) :
    value (fuel + 1) (d + 1) ('[' :: (g ++ cs) ++ rest) = (.arr js true, some rest') := by
  obtain ⟨c, cs, rfl, hc, hclose, -⟩ := hcs
  have htext : '[' :: (g ++ c :: cs) ++ rest = '[' :: (g ++ c :: (cs ++ rest)) := by simp
  rw [htext, value_bracket, afterBracket, skip_append hg, skip_cons hc]
  split
  · next heq => exact absurd (List.cons.inj heq).1 hclose
  · rw [List.cons_append] at hitems
    rw [hitems]
    rfl

/-- What stands behind the brace that opens an object. -/
def afterBrace (fuel d : Nat) (cs : List Char) : Document × Option (List Char) :=
  match skip cs with
  | '\x7d' :: rest => (.obj [] true, some rest)
  | rest =>
    (.obj (Document.members fuel d rest).1 (Document.members fuel d rest).2.isSome,
      (Document.members fuel d rest).2)

theorem value_brace {fuel d : Nat} (cs : List Char) :
    value (fuel + 1) (d + 1) ('\x7b' :: cs) = afterBrace fuel d cs := rfl

theorem value_noMembers {fuel d : Nat} {g rest : List Char} (hg : Gap g) :
    value (fuel + 1) (d + 1) ('\x7b' :: (g ++ ['\x7d']) ++ rest) = (.obj [] true, some rest) := by
  have htext : '\x7b' :: (g ++ ['\x7d']) ++ rest = '\x7b' :: (g ++ '\x7d' :: rest) := by simp
  rw [htext, value_brace, afterBrace, skip_append hg, skip_cons (by decide)]
  rfl

theorem value_members {fuel d : Nat} {g cs rest rest' : List Char}
    {ms : List (String × Document)} (hg : Gap g) (hcs : Opens cs)
    (hmembers : Document.members fuel d (cs ++ rest) = (ms, some rest')) :
    value (fuel + 1) (d + 1) ('\x7b' :: (g ++ cs) ++ rest) = (.obj ms true, some rest') := by
  obtain ⟨c, cs, rfl, hc, -, hclose⟩ := hcs
  have htext : '\x7b' :: (g ++ c :: cs) ++ rest = '\x7b' :: (g ++ c :: (cs ++ rest)) := by simp
  rw [htext, value_brace, afterBrace, skip_append hg, skip_cons hc]
  split
  · next heq => exact absurd (List.cons.inj heq).1 hclose
  · rw [List.cons_append] at hmembers
    rw [hmembers]
    rfl

theorem items_skip {fuel d : Nat} {g cs : List Char} (hg : Gap g) :
    Document.items fuel d (g ++ cs) = Document.items fuel d cs := by
  cases fuel with
  | zero => rfl
  | succ fuel =>
    unfold Document.items
    rw [value_skip hg]

theorem members_skip {fuel d : Nat} {g cs : List Char} (hg : Gap g) :
    Document.members fuel d (g ++ cs) = Document.members fuel d cs := by
  cases fuel with
  | zero => rfl
  | succ fuel =>
    unfold Document.members
    rw [skip_append hg]

theorem items_last {fuel d : Nat} {cs g rest : List Char} {v : Document} (hg : Gap g)
    (hvalue : value fuel d cs = (v, some (g ++ ']' :: rest))) :
    Document.items (fuel + 1) d cs = ([v], some rest) := by
  rw [Document.items.eq_def]
  dsimp only
  rw [hvalue]
  dsimp only
  rw [skip_append hg, skip_cons (by decide)]
  rfl

theorem items_more {fuel d : Nat} {cs g rest rest' : List Char} {v : Document}
    {vs : List Document} (hg : Gap g) (hvalue : value fuel d cs = (v, some (g ++ ',' :: rest)))
    (hitems : Document.items fuel d rest = (vs, some rest')) :
    Document.items (fuel + 1) d cs = (v :: vs, some rest') := by
  rw [Document.items.eq_def]
  dsimp only
  rw [hvalue]
  dsimp only
  rw [skip_append hg, skip_cons (by decide)]
  change (v :: (Document.items fuel d rest).1, (Document.items fuel d rest).2) = _
  rw [hitems]

/-- What stands behind the value of a member. -/
def afterMember (fuel d : Nat) (k : String) :
    Document × Option (List Char) → List (String × Document) × Option (List Char)
  | (v, none) => ([(k, v)], none)
  | (v, some rest) =>
    match skip rest with
    | ',' :: rest => ((k, v) :: (Document.members fuel d rest).1, (Document.members fuel d rest).2)
    | '\x7d' :: rest => ([(k, v)], some rest)
    | _ => ([(k, v)], none)

/-- What stands behind a key. -/
def afterKey (fuel d : Nat) (k : String) (cs : List Char) :
    List (String × Document) × Option (List Char) :=
  match skip cs with
  | ':' :: rest => afterMember fuel d k (value fuel d rest)
  | _ => ([(k, .broken)], none)

/-- What a key is followed by, once it could be read. -/
def afterQuote (fuel d : Nat) :
    Option (String × List Char) → List (String × Document) × Option (List Char)
  | none => ([], none)
  | some (k, rest) => afterKey fuel d k rest

theorem members_quote {fuel d : Nat} (cs : List Char) :
    Document.members (fuel + 1) d ('"' :: cs) = afterQuote fuel d (stringBody [] cs) := rfl

theorem members_key {fuel d : Nat} {k : String} {cs g₁ g₂ : List Char} (hg₁ : Gap g₁)
    (hg₂ : Gap g₂) :
    Document.members (fuel + 1) d (quotedChars k ++ (g₁ ++ ':' :: (g₂ ++ cs))) =
      afterMember fuel d k (value fuel d cs) := by
  rw [quotedChars_append, members_quote, stringBody_text, afterQuote, afterKey, skip_append hg₁,
    skip_cons (by decide)]
  change afterMember fuel d k (value fuel d (g₂ ++ cs)) = _
  rw [value_skip hg₂]

theorem members_last {fuel d : Nat} {k : String} {cs g₁ g₂ g₃ rest : List Char} {v : Document}
    (hg₁ : Gap g₁) (hg₂ : Gap g₂) (hg₃ : Gap g₃)
    (hvalue : value fuel d cs = (v, some (g₃ ++ '\x7d' :: rest))) :
    Document.members (fuel + 1) d (quotedChars k ++ (g₁ ++ ':' :: (g₂ ++ cs))) =
      ([(k, v)], some rest) := by
  rw [members_key hg₁ hg₂, hvalue, afterMember, skip_append hg₃, skip_cons (by decide)]
  rfl

theorem members_more {fuel d : Nat} {k : String} {cs g₁ g₂ g₃ rest rest' : List Char}
    {v : Document} {vs : List (String × Document)} (hg₁ : Gap g₁) (hg₂ : Gap g₂) (hg₃ : Gap g₃)
    (hvalue : value fuel d cs = (v, some (g₃ ++ ',' :: rest)))
    (hmembers : Document.members fuel d rest = (vs, some rest')) :
    Document.members (fuel + 1) d (quotedChars k ++ (g₁ ++ ':' :: (g₂ ++ cs))) =
      ((k, v) :: vs, some rest') := by
  rw [members_key hg₁ hg₂, hvalue, afterMember, skip_append hg₃, skip_cons (by decide)]
  change ((k, v) :: (Document.members fuel d rest).1, (Document.members fuel d rest).2) = _
  rw [hmembers]

mutual

/-- Reading a spelling gives the value and stops at its end. The fuel is spent on tokens, of which a
text has no more than characters. -/
theorem value_of_spells {d : Nat} {j : Json} {cs : List Char} (h : Spells d j cs)
    (rest : List Char) (fuel : Nat) (hend : NumberEnd rest) (hfuel : 2 * cs.length ≤ fuel) :
    value fuel d (cs ++ rest) = (ofJson j, some rest) := by
  obtain ⟨fuel, rfl⟩ := (opens_of_spells h).fuel (Nat.le_succ_of_le hfuel)
  match h with
  | .null d => rfl
  | .bool d b => cases b <;> rfl
  | .natural d hn => exact value_number hn hend
  | .str d s => exact value_str
  | .noItems hg => exact value_noItems hg
  | .items hg hitems =>
    simp only [List.length_cons, List.length_append] at hfuel
    exact value_items hg (opens_of_spellsItems hitems)
      (items_of_spells hitems rest fuel (by omega))
  | .noMembers hg => exact value_noMembers hg
  | .members hg hmembers =>
    simp only [List.length_cons, List.length_append] at hfuel
    exact value_members hg (opens_of_spellsMembers hmembers)
      (members_of_spells hmembers rest fuel (by omega))

theorem items_of_spells {d : Nat} {js : List Json} {cs : List Char} (h : SpellsItems d js cs)
    (rest : List Char) (fuel : Nat) (hfuel : 2 * cs.length ≤ fuel + 1) :
    Document.items fuel d (cs ++ rest) = (ofItems js, some rest) := by
  obtain ⟨fuel, rfl⟩ := (opens_of_spellsItems h).fuel hfuel
  match h with
  | @SpellsItems.last _ _ cs g hv hg =>
    simp only [List.length_append, List.length_singleton] at hfuel
    have hvalue := value_of_spells hv (g ++ ']' :: rest) fuel (numberEnd_gap hg (.inr (.inl rfl)))
      (by omega)
    have htext : cs ++ (g ++ [']']) ++ rest = cs ++ (g ++ ']' :: rest) := by simp
    rw [htext, items_last hg hvalue]
    rfl
  | @SpellsItems.more _ _ _ cs g g' cs' hv hg hg' hrest =>
    simp only [List.length_append, List.length_cons] at hfuel
    have hvalue := value_of_spells hv (g ++ ',' :: (g' ++ (cs' ++ rest))) fuel
      (numberEnd_gap hg (.inl rfl)) (by omega)
    have hitems := items_of_spells hrest rest fuel (by omega)
    rw [← items_skip hg'] at hitems
    have htext : cs ++ (g ++ ',' :: (g' ++ cs')) ++ rest =
        cs ++ (g ++ ',' :: (g' ++ (cs' ++ rest))) := by simp
    rw [htext, items_more hg hvalue hitems]
    rfl

theorem members_of_spells {d : Nat} {ms : List (String × Json)} {cs : List Char}
    (h : SpellsMembers d ms cs) (rest : List Char) (fuel : Nat)
    (hfuel : 2 * cs.length ≤ fuel + 1) :
    Document.members fuel d (cs ++ rest) = (ofMembers ms, some rest) := by
  obtain ⟨fuel, rfl⟩ := (opens_of_spellsMembers h).fuel hfuel
  match h with
  | @SpellsMembers.last _ k _ cs g₁ g₂ g₃ hv hg₁ hg₂ hg₃ =>
    simp only [List.length_append, List.length_cons, List.length_nil] at hfuel
    have hvalue := value_of_spells hv (g₃ ++ '\x7d' :: rest) fuel
      (numberEnd_gap hg₃ (.inr (.inr rfl))) (by omega)
    have htext : quotedChars k ++ (g₁ ++ ':' :: (g₂ ++ (cs ++ (g₃ ++ ['\x7d'])))) ++ rest =
        quotedChars k ++ (g₁ ++ ':' :: (g₂ ++ (cs ++ (g₃ ++ '\x7d' :: rest)))) := by simp
    rw [htext, members_last hg₁ hg₂ hg₃ hvalue]
    rfl
  | @SpellsMembers.more _ k _ _ cs g₁ g₂ g₃ g₄ cs' hv hg₁ hg₂ hg₃ hg₄ hrest =>
    simp only [List.length_append, List.length_cons] at hfuel
    have hvalue := value_of_spells hv (g₃ ++ ',' :: (g₄ ++ (cs' ++ rest))) fuel
      (numberEnd_gap hg₃ (.inl rfl)) (by omega)
    have hmembers := members_of_spells hrest rest fuel (by omega)
    rw [← members_skip hg₄] at hmembers
    have htext : quotedChars k ++
          (g₁ ++ ':' :: (g₂ ++ (cs ++ (g₃ ++ ',' :: (g₄ ++ cs'))))) ++ rest =
        quotedChars k ++
          (g₁ ++ ':' :: (g₂ ++ (cs ++ (g₃ ++ ',' :: (g₄ ++ (cs' ++ rest)))))) := by simp
    rw [htext, members_more hg₁ hg₂ hg₃ hvalue hmembers]
    rfl

end

/-- A text that spells a value reads as that value. -/
theorem read_of_spells {j : Json} {s : String} (h : Spells maxDepth j s.toList) :
    Document.read s = (ofJson j, true) := by
  have hvalue := value_of_spells h [] (2 * s.toList.length + 2) (fun _ hc => nomatch hc) (by omega)
  rw [List.append_nil] at hvalue
  unfold Document.read
  dsimp only
  rw [hvalue]
  rfl

end Document

end ClusterScaler
