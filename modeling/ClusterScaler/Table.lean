/-!
# Sorted tables

A table maps keys to values and lists its entries in strictly increasing key order. The order is
part of the type, so two tables with the same entries are the same value, and everything that
walks over a table walks in key order.
-/

set_option autoImplicit false

namespace ClusterScaler

/-- A key type with a decidable strict total order. -/
class KeyOrder (κ : Type) extends LT κ where
  decLt : DecidableLT κ
  lt_irrefl : ∀ a : κ, ¬ a < a
  lt_trans : ∀ {a b c : κ}, a < b → b < c → a < c
  eq_of_not_lt : ∀ {a b : κ}, ¬ a < b → ¬ b < a → a = b

instance KeyOrder.decidableLT {κ : Type} [KeyOrder κ] : DecidableLT κ := KeyOrder.decLt

/-- Strings are ordered by code points, which is also the order of their UTF-8 bytes. -/
instance : KeyOrder String where
  decLt := inferInstance
  lt_irrefl := String.lt_irrefl
  lt_trans := String.lt_trans
  eq_of_not_lt h₁ h₂ := String.le_antisymm (String.not_lt.mp h₂) (String.not_lt.mp h₁)

/-- A finite map with its entries in strictly increasing key order. -/
structure Table (κ α : Type) [KeyOrder κ] where
  entries : List (κ × α)
  sorted : entries.Pairwise (fun a b => a.1 < b.1)

namespace Table

variable {κ α β : Type} [KeyOrder κ]

/-- Two tables with the same entries are equal. -/
@[ext]
theorem ext {s t : Table κ α} (h : s.entries = t.entries) : s = t := by
  cases s; cases t; simp_all

instance [DecidableEq κ] [DecidableEq α] : DecidableEq (Table κ α) := fun s t =>
  if h : s.entries = t.entries then isTrue (ext h) else isFalse (fun e => h (e ▸ rfl))

instance [BEq κ] [BEq α] : BEq (Table κ α) := ⟨fun s t => s.entries == t.entries⟩

/-- The table without entries. -/
def empty : Table κ α := ⟨[], .nil⟩

instance : EmptyCollection (Table κ α) := ⟨empty⟩
instance : Inhabited (Table κ α) := ⟨empty⟩

/-- Whether the table has no entry. -/
def isEmpty (t : Table κ α) : Bool := t.entries.isEmpty

/-- The number of entries. -/
def size (t : Table κ α) : Nat := t.entries.length

/-- The keys, in increasing order. -/
def keys (t : Table κ α) : List κ := t.entries.map (·.1)

/-- The values, in the order of their keys. -/
def values (t : Table κ α) : List α := t.entries.map (·.2)

/-- The value of the first entry whose key is `k`. -/
def lookupIn (k : κ) : List (κ × α) → Option α
  | [] => none
  | (k', v) :: rest => if k < k' then none else if k' < k then lookupIn k rest else some v

/-- The value stored under `k`. -/
def get? (t : Table κ α) (k : κ) : Option α := lookupIn k t.entries

/-- Whether `k` has a value. -/
def contains (t : Table κ α) (k : κ) : Bool := (t.get? k).isSome

/-- Put `v` under `k` into an ordered entry list, replacing what was there. -/
def insertInto (k : κ) (v : α) : List (κ × α) → List (κ × α)
  | [] => [(k, v)]
  | (k', v') :: rest =>
    if k < k' then (k, v) :: (k', v') :: rest
    else if k' < k then (k', v') :: insertInto k v rest
    else (k, v) :: rest

/-- Every entry after an insertion was there before or is the new one. -/
theorem mem_insertInto {k : κ} {v : α} {e : κ × α} {l : List (κ × α)}
    (h : e ∈ insertInto k v l) : e = (k, v) ∨ e ∈ l := by
  induction l with
  | nil => simpa [insertInto] using h
  | cons hd tl ih =>
    obtain ⟨k', v'⟩ := hd
    simp only [insertInto] at h
    split at h
    · simpa using h
    · split at h
      · rcases List.mem_cons.mp h with rfl | h
        · simp
        · rcases ih h with h | h
          · exact .inl h
          · exact .inr (List.mem_cons_of_mem _ h)
      · rcases List.mem_cons.mp h with rfl | h
        · simp
        · exact .inr (List.mem_cons_of_mem _ h)

/-- An insertion keeps the order. -/
theorem sorted_insertInto {k : κ} {v : α} {l : List (κ × α)}
    (h : l.Pairwise (fun a b => a.1 < b.1)) :
    (insertInto k v l).Pairwise (fun a b => a.1 < b.1) := by
  induction l with
  | nil => simp [insertInto]
  | cons hd tl ih =>
    obtain ⟨k', v'⟩ := hd
    rw [List.pairwise_cons] at h
    simp only [insertInto]
    split
    · next hk =>
      refine .cons ?_ (.cons h.1 h.2)
      intro e he
      rcases List.mem_cons.mp he with rfl | he
      · exact hk
      · exact KeyOrder.lt_trans hk (h.1 e he)
    · split
      · next hk =>
        refine .cons ?_ (ih h.2)
        intro e he
        rcases mem_insertInto he with rfl | he
        · exact hk
        · exact h.1 e he
      · next h₁ h₂ =>
        obtain rfl := KeyOrder.eq_of_not_lt h₁ h₂
        exact .cons h.1 h.2

/-- Store `v` under `k`, replacing what was there. -/
def insert (t : Table κ α) (k : κ) (v : α) : Table κ α :=
  ⟨insertInto k v t.entries, sorted_insertInto t.sorted⟩

/-- The entries that `p` accepts. -/
def filter (p : κ → α → Bool) (t : Table κ α) : Table κ α :=
  ⟨t.entries.filter (fun e => p e.1 e.2), t.sorted.filter _⟩

/-- The table without an entry for `k`. -/
def erase (t : Table κ α) (k : κ) : Table κ α :=
  t.filter (fun k' _ => decide (k' < k) || decide (k < k'))

/-- Apply `f` to every value; the keys stay. -/
def mapValues (f : κ → α → β) (t : Table κ α) : Table κ β :=
  ⟨t.entries.map (fun e => (e.1, f e.1 e.2)), t.sorted.map _ (fun _ _ h => h)⟩

/-- Insert all of `es` in turn, so that of two entries with one key the later stays. -/
def insertAll (t : Table κ α) (es : List (κ × α)) : Table κ α :=
  es.foldl (fun t e => t.insert e.1 e.2) t

/-- The table of `es`; of two entries with one key the later stays. -/
def ofList (es : List (κ × α)) : Table κ α := (∅ : Table κ α).insertAll es

/-- Change the value under `k`, starting from `init` where there is none. -/
def upsert (t : Table κ α) (k : κ) (init : α) (f : α → α) : Table κ α :=
  t.insert k (f ((t.get? k).getD init))

/-- The entries of `t` overlaid by those of `top`. -/
def overlay (t top : Table κ α) : Table κ α := t.insertAll top.entries

end Table

end ClusterScaler
