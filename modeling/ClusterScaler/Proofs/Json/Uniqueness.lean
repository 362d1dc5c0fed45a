import ClusterScaler.Proofs.Json.Numbers
import ClusterScaler.Proofs.Json.Ordering
import ClusterScaler.Proofs.Json.Printing

/-!
# Compact texts are read in one way only

The first character of a compact text tells the kind of the value, and its parts end where a comma, a
bracket or a brace follows. So two values that are written alike, with whatever behind them, are the
same (`compact_append`), provided that their numbers are finite.
-/

set_option autoImplicit false

namespace ClusterScaler.Json

open Decimal

/-- All numbers of a value are finite. -/
inductive Finite : Json → Prop where
  | null : Finite .null
  | bool (b : Bool) : Finite (.bool b)
  | num {n : JsonNumber} (h : n.Finite) : Finite (.num n)
  | str (s : String) : Finite (.str s)
  | arr {items : List Json} (h : ∀ j ∈ items, Finite j) : Finite (.arr items)
  | obj {members : List (String × Json)} (h : ∀ m ∈ members, Finite m.2) : Finite (.obj members)

attribute [simp] Finite.null Finite.bool Finite.str

@[simp]
theorem finite_num {n : JsonNumber} : (num n).Finite ↔ n.Finite :=
  ⟨fun h => by cases h; assumption, .num⟩

@[simp]
theorem finite_arr {items : List Json} : (arr items).Finite ↔ ∀ j ∈ items, j.Finite :=
  ⟨fun h => by cases h; assumption, .arr⟩

@[simp]
theorem finite_obj {members : List (String × Json)} :
    (obj members).Finite ↔ ∀ m ∈ members, m.2.Finite :=
  ⟨fun h => by cases h; assumption, .obj⟩

variable {j j' : Json} {r r' : List Char}

theorem Finite.canonical (h : j.Finite) : j.canonical.Finite := by
  induction h with
  | null | bool | str => simp [Json.canonical]
  | num h => exact .num h
  | arr _ ih =>
    rw [canonical_arr, finite_arr]
    exact List.forall_mem_map.mpr ih
  | obj _ ih =>
    rw [canonical_obj, finite_obj]
    intro m hm
    obtain ⟨m', hm', rfl⟩ := List.mem_map.mp (Table.mem_of_mem_entries_ofList hm)
    exact ih m' hm'

/-- What follows a value does not go on with a number. -/
def Closes (r : List Char) : Prop := ∀ c ∈ r.head?, Numeral.isChar c = false

theorem closes_nil : Closes [] := fun _ h => nomatch h

theorem closes_cons {c : Char} (h : Numeral.isChar c = false) : Closes (c :: r) := by
  rintro _ ⟨⟩
  exact h

theorem isChar_of_mem_text {n : JsonNumber} (h : n.Finite) :
    ∀ c ∈ n.text.toList, Numeral.isChar c = true := by
  obtain ⟨negative, t, -, htext⟩ := JsonNumber.exists_written h
  rw [htext]
  unfold JsonNumber.signed
  split
  · exact List.forall_mem_cons.mpr ⟨rfl, fun _ => Numeral.isChar_of_mem⟩
  · exact fun _ => Numeral.isChar_of_mem

theorem number_append {n n' : JsonNumber} (hn : n.Finite) (hn' : n'.Finite) (hr : Closes r)
    (hr' : Closes r') (h : n.text.toList ++ r = n'.text.toList ++ r') : n = n' ∧ r = r' := by
  obtain ⟨htext, hrest⟩ :=
    eq_of_append_eq (isChar_of_mem_text hn) (isChar_of_mem_text hn') hr hr' h
  exact ⟨JsonNumber.eq_of_text_eq hn hn' (String.toList_inj.mp htext), hrest⟩

theorem quotedChars_append_inj {s s' : String} (h : quotedChars s ++ r = quotedChars s' ++ r') :
    s = s' ∧ r = r' := by
  rw [Document.quotedChars_append, Document.quotedChars_append] at h
  have hread := congrArg (Document.stringBody []) (List.cons.inj h).2
  rw [Document.stringBody_text, Document.stringBody_text] at hread
  exact Prod.mk.inj (Option.some.inj hread)

/-- The kinds of values. -/
inductive Kind where
  | null | bool | num | str | arr | obj
  deriving DecidableEq

/-- The kind of a value. -/
def kind : Json → Kind
  | .null => .null
  | .bool _ => .bool
  | .num _ => .num
  | .str _ => .str
  | .arr _ => .arr
  | .obj _ => .obj

/-- The kind of value that a first character announces. -/
def announced? (c : Char) : Option Kind :=
  if c = 'n' then some .null
  else if c = 't' ∨ c = 'f' then some .bool
  else if c = '"' then some .str
  else if c = '[' then some .arr
  else if c = '\x7b' then some .obj
  else if c.isDigit ∨ c = '-' then some .num
  else none

theorem announced?_of_isDigit {c : Char} (h : c.isDigit = true) : announced? c = some .num := by
  have hne := Document.ne_of_isDigit h
  unfold announced?
  simp [h, hne 'n' rfl, hne 't' rfl, hne 'f' rfl, hne '"' rfl, hne '[' rfl, hne '\x7b' rfl]

theorem exists_announced (h : j.Finite) :
    ∃ c cs, j.compact.toList = c :: cs ∧ announced? c = some j.kind := by
  cases h with
  | null => exact ⟨_, _, rfl, rfl⟩
  | bool b => cases b <;> exact ⟨_, _, rfl, rfl⟩
  | str s =>
    rw [compact, toList_stringText]
    exact ⟨_, _, rfl, rfl⟩
  | arr =>
    rw [toList_compact_arr]
    exact ⟨_, _, rfl, rfl⟩
  | obj =>
    rw [toList_compact_obj]
    exact ⟨_, _, rfl, rfl⟩
  | num hn =>
    obtain ⟨negative, t, -, htext⟩ := JsonNumber.exists_written hn
    rw [compact, htext]
    cases negative with
    | true => exact ⟨_, _, rfl, rfl⟩
    | false =>
      obtain ⟨c, cs, hcs, hc⟩ := t.exists_cons
      exact ⟨c, cs, hcs, announced?_of_isDigit hc⟩

/-- Texts that begin alike announce the same kind. -/
theorem kind_eq (hj : j.Finite) (hj' : j'.Finite)
    (h : j.compact.toList ++ r = j'.compact.toList ++ r') : j.kind = j'.kind := by
  obtain ⟨c, cs, htext, hc⟩ := exists_announced hj
  obtain ⟨c', cs', htext', hc'⟩ := exists_announced hj'
  rw [htext, htext'] at h
  rw [(List.cons.inj h).1, hc'] at hc
  exact (Option.some.inj hc).symm

section Lists

variable {α : Type} {text : α → List Char} {as as' : List α} {close : Char}

theorem intercalate_cons (a : α) (as : List α) :
    List.intercalate [','] ((a :: as).map text) =
      text a ++ as.flatMap (fun a => ',' :: text a) := by
  induction as generalizing a with
  | nil => simp
  | cons b as ih => simpa using ih b

/-- The parts of a text are unique with whatever closes them behind them. -/
def PartsUnique (text : α → List Char) (as as' : List α) : Prop :=
  ∀ a ∈ as, ∀ a' ∈ as', ∀ r r', Closes r → Closes r' → text a ++ r = text a' ++ r' → a = a' ∧ r = r'

theorem closes_flatMap (hclose : Numeral.isChar close = false) (as : List α) :
    Closes (as.flatMap (fun a => ',' :: text a) ++ close :: r) := by
  cases as with
  | nil => exact closes_cons hclose
  | cons a as => exact closes_cons rfl

theorem flatMap_append (hclose : Numeral.isChar close = false) (hcomma : close ≠ ',')
    (hparts : PartsUnique text as as')
    (h : as.flatMap (fun a => ',' :: text a) ++ close :: r =
      as'.flatMap (fun a => ',' :: text a) ++ close :: r') : as = as' ∧ r = r' := by
  induction as generalizing as' with
  | nil =>
    cases as' with
    | nil => exact ⟨rfl, (List.cons.inj h).2⟩
    | cons a' as' => exact absurd (List.cons.inj h).1 hcomma
  | cons a as ih =>
    cases as' with
    | nil => exact absurd (List.cons.inj h).1.symm hcomma
    | cons a' as' =>
      simp only [List.flatMap_cons, List.cons_append, List.append_assoc] at h
      obtain ⟨rfl, hrest⟩ := hparts a List.mem_cons_self a' List.mem_cons_self _ _
        (closes_flatMap hclose as) (closes_flatMap hclose as') (List.cons.inj h).2
      obtain ⟨rfl, hr⟩ := ih (fun b hb b' hb' => hparts b (List.mem_cons_of_mem _ hb) b'
        (List.mem_cons_of_mem _ hb')) hrest
      exact ⟨rfl, hr⟩

/-- Parts with commas between them are unique, because none of them begins as the list closes. -/
theorem intercalate_append (hclose : Numeral.isChar close = false) (hcomma : close ≠ ',')
    (hparts : PartsUnique text as as')
    (hbegin : ∀ a ∈ as ++ as', ∃ c cs, text a = c :: cs ∧ c ≠ close)
    (h : List.intercalate [','] (as.map text) ++ close :: r =
      List.intercalate [','] (as'.map text) ++ close :: r') : as = as' ∧ r = r' := by
  cases as with
  | nil =>
    cases as' with
    | nil => exact ⟨rfl, (List.cons.inj h).2⟩
    | cons a' as' =>
      obtain ⟨c, cs, htext, hc⟩ := hbegin a' (by simp)
      rw [intercalate_cons, htext] at h
      exact absurd (List.cons.inj h).1.symm hc
  | cons a as =>
    cases as' with
    | nil =>
      obtain ⟨c, cs, htext, hc⟩ := hbegin a (by simp)
      rw [intercalate_cons, htext] at h
      exact absurd (List.cons.inj h).1 hc
    | cons a' as' =>
      rw [intercalate_cons, intercalate_cons, List.append_assoc, List.append_assoc] at h
      obtain ⟨rfl, hrest⟩ := hparts a List.mem_cons_self a' List.mem_cons_self _ _
        (closes_flatMap hclose as) (closes_flatMap hclose as') h
      obtain ⟨rfl, hr⟩ := flatMap_append hclose hcomma (fun b hb b' hb' =>
        hparts b (List.mem_cons_of_mem _ hb) b' (List.mem_cons_of_mem _ hb')) hrest
      exact ⟨rfl, hr⟩

end Lists

theorem items_append {items items' : List Json} (hitems : ∀ j ∈ items, j.Finite)
    (hitems' : ∀ j ∈ items', j.Finite)
    (hparts : PartsUnique (fun j => j.compact.toList) items items')
    (h : (arr items).compact.toList ++ r = (arr items').compact.toList ++ r') :
    items = items' ∧ r = r' := by
  have hbegin : ∀ j ∈ items ++ items', ∃ c cs, j.compact.toList = c :: cs ∧ c ≠ ']' := by
    intro j hj
    obtain ⟨c, cs, htext, hc⟩ :=
      exists_announced (List.forall_mem_append.mpr ⟨hitems, hitems'⟩ j hj)
    refine ⟨c, cs, htext, ?_⟩
    rintro rfl
    cases hc
  rw [toList_compact_arr, toList_compact_arr] at h
  simp only [List.nil_append, List.cons_append, List.append_assoc] at h
  exact intercalate_append (by decide) (by decide) hparts hbegin (List.cons.inj h).2

/-- A member before its comma or its brace. -/
def memberText (m : String × Json) : List Char := quotedChars m.1 ++ ':' :: m.2.compact.toList

theorem members_append {members members' : List (String × Json)}
    (hvalues : ∀ m ∈ members, ∀ m' ∈ members', ∀ r r', Closes r → Closes r' →
      m.2.compact.toList ++ r = m'.2.compact.toList ++ r' → m.2 = m'.2 ∧ r = r')
    (h : (obj members).compact.toList ++ r = (obj members').compact.toList ++ r') :
    members = members' ∧ r = r' := by
  have hmembers : PartsUnique memberText members members' := by
    intro m hm m' hm' s s' hs hs' heq
    unfold memberText at heq
    rw [List.append_assoc, List.append_assoc] at heq
    obtain ⟨hkey, hrest⟩ := quotedChars_append_inj heq
    obtain ⟨hvalue, hrest⟩ := hvalues m hm m' hm' s s' hs hs' (List.cons.inj hrest).2
    exact ⟨Prod.ext hkey hvalue, hrest⟩
  have hbegin : ∀ m ∈ members ++ members', ∃ c cs, memberText m = c :: cs ∧ c ≠ '\x7d' :=
    fun m _ => ⟨_, _, rfl, by decide⟩
  rw [toList_compact_obj, toList_compact_obj] at h
  simp only [List.nil_append, List.cons_append, List.append_assoc] at h
  exact intercalate_append (by decide) (by decide) hmembers hbegin (List.cons.inj h).2

/-- A compact text is unique with whatever closes it behind it. -/
theorem compact_append (hj : j.Finite) (hj' : j'.Finite) (hr : Closes r) (hr' : Closes r')
    (h : j.compact.toList ++ r = j'.compact.toList ++ r') : j = j' ∧ r = r' := by
  have hkind := kind_eq hj hj' h
  induction j using induction generalizing j' r r' with
  | null =>
    cases j' with
    | null => exact ⟨rfl, List.append_cancel_left h⟩
    | _ => cases hkind
  | bool b =>
    cases j' with
    | bool b' =>
      cases b <;> cases b'
      · exact ⟨rfl, List.append_cancel_left h⟩
      · exact absurd (List.cons.inj h).1 (by decide)
      · exact absurd (List.cons.inj h).1 (by decide)
      · exact ⟨rfl, List.append_cancel_left h⟩
    | _ => cases hkind
  | num n =>
    cases j' with
    | num n' =>
      obtain ⟨rfl, hrest⟩ := number_append (finite_num.mp hj) (finite_num.mp hj') hr hr' h
      exact ⟨rfl, hrest⟩
    | _ => cases hkind
  | str s =>
    cases j' with
    | str s' =>
      rw [compact, compact, toList_stringText, toList_stringText] at h
      obtain ⟨rfl, hrest⟩ := quotedChars_append_inj h
      exact ⟨rfl, hrest⟩
    | _ => cases hkind
  | arr items ih =>
    cases j' with
    | arr items' =>
      rw [finite_arr] at hj hj'
      obtain ⟨rfl, hrest⟩ := items_append hj hj' (fun i hi i' hi' _ _ hs hs' heq =>
        ih i hi (hj i hi) (hj' i' hi') hs hs' heq (kind_eq (hj i hi) (hj' i' hi') heq)) h
      exact ⟨rfl, hrest⟩
    | _ => cases hkind
  | obj members ih =>
    cases j' with
    | obj members' =>
      rw [finite_obj] at hj hj'
      obtain ⟨rfl, hrest⟩ := members_append (fun m hm m' hm' _ _ hs hs' heq =>
        ih m hm (hj m hm) (hj' m' hm') hs hs' heq (kind_eq (hj m hm) (hj' m' hm') heq)) h
      exact ⟨rfl, hrest⟩
    | _ => cases hkind

/-- A value whose numbers are finite is known by its compact text. -/
theorem compact_injective (hj : j.Finite) (hj' : j'.Finite) (h : j.compact = j'.compact) : j = j' :=
  (compact_append hj hj' closes_nil closes_nil (congrArg (·.toList ++ []) h)).1

end ClusterScaler.Json
