import Mathlib.Data.List.Forall2

/-!
# Entries that are read in turn

A list is read in turn if each of its members is, and an entry is read by reading its value. Two
lists of entries with the same keys come out the same if under each key the same is read.
-/

set_option autoImplicit false

namespace ClusterScaler

variable {α β κ ε : Type}

theorem eq_ok_of_toOption {x : Except ε α} {a : α} (h : x.toOption = some a) : x = .ok a := by
  cases x with
  | error e => cases h
  | ok b => exact congrArg Except.ok (Option.some.inj h)

/-- A list is read as a whole if no member fails. -/
theorem mapM_eq_some_map {f? : α → Option β} {f : α → β} {as : List α}
    (h : ∀ a ∈ as, f? a = some (f a)) : as.mapM f? = some (as.map f) := by
  induction as with
  | nil => rfl
  | cons a as ih =>
    rw [List.mapM_cons, h a List.mem_cons_self, ih fun b hb => h b (List.mem_cons_of_mem _ hb)]
    rfl

theorem mapM_eq_ok_iff {f : α → Except ε β} {as : List α} {bs : List β} :
    as.mapM f = .ok bs ↔ List.Forall₂ (fun a b => f a = .ok b) as bs := by
  induction as generalizing bs with
  | nil =>
    rw [List.mapM_nil, List.forall₂_nil_left_iff]
    exact ⟨fun h => by cases h; rfl, fun h => by rw [h]; rfl⟩
  | cons a as ih =>
    rw [List.mapM_cons, List.forall₂_cons_left_iff]
    constructor
    · intro h
      cases ha : f a with
      | error e =>
        rw [ha] at h
        cases h
      | ok b =>
        cases hrest : as.mapM f with
        | error e =>
          rw [ha, hrest] at h
          cases h
        | ok rest =>
          rw [ha, hrest] at h
          cases h
          exact ⟨b, rest, rfl, ih.mp hrest, rfl⟩
    · rintro ⟨b, rest, ha, hrest, rfl⟩
      rw [ha, ih.mpr hrest]
      rfl

/-- Whatever comes out of a list that is read in turn was read from one of its members. -/
theorem exists_of_mem_mapM {f : α → Except ε β} {as : List α} {bs : List β} {b : β}
    (h : as.mapM f = .ok bs) (hb : b ∈ bs) : ∃ a ∈ as, f a = .ok b := by
  rw [mapM_eq_ok_iff] at h
  induction h with
  | nil => cases hb
  | cons ha _ ih =>
    rcases List.mem_cons.mp hb with rfl | hb
    · exact ⟨_, List.mem_cons_self, ha⟩
    · obtain ⟨a, hmem, ha⟩ := ih hb
      exact ⟨a, List.mem_cons_of_mem _ hmem, ha⟩

theorem keyed_eq_ok_iff {k : κ} {x : Except ε β} {e : κ × β} :
    (do return (k, ← x) : Except ε (κ × β)) = .ok e ↔ k = e.1 ∧ x = .ok e.2 := by
  obtain ⟨k', b'⟩ := e
  cases x with
  | error err =>
    constructor
    · intro h
      cases h
    · rintro ⟨-, h⟩
      cases h
  | ok b =>
    constructor
    · intro h
      cases h
      exact ⟨rfl, rfl⟩
    · rintro ⟨rfl, h⟩
      cases h
      rfl

/-- Entries keep their keys. -/
theorem mapM_keys {f : κ × α → Except ε β} {entries : List (κ × α)} {out : List (κ × β)}
    (h : entries.mapM (fun e => do return (e.1, ← f e)) = .ok out) :
    out.map (·.1) = entries.map (·.1) := by
  have hkeys : List.Forall₂ (fun e o => e.1 = o.1) entries out :=
    (mapM_eq_ok_iff.mp h).imp fun _ _ he => (keyed_eq_ok_iff.mp he).1
  rw [eq_comm, ← List.forall₂_eq_eq_eq, List.forall₂_map_left_iff, List.forall₂_map_right_iff]
  exact hkeys

/-- Entries with the same keys are read alike if the values under each key are. -/
theorem exists_mapM_eq_mapM {f f' : κ × α → Except ε β} {es es' : List (κ × α)}
    (hkeys : es.map (·.1) = es'.map (·.1))
    (h : ∀ e ∈ es, ∀ e' ∈ es', e.1 = e'.1 → ∃ b, f e = .ok b ∧ f' e' = .ok b) :
    ∃ out, es.mapM (fun e => do return (e.1, ← f e)) = .ok out ∧
      es'.mapM (fun e => do return (e.1, ← f' e)) = .ok out := by
  simp only [mapM_eq_ok_iff, keyed_eq_ok_iff]
  induction es generalizing es' with
  | nil =>
    obtain rfl := List.map_eq_nil_iff.mp hkeys.symm
    exact ⟨[], .nil, .nil⟩
  | cons e es ih =>
    obtain - | ⟨e', es'⟩ := es'
    · cases hkeys
    · obtain ⟨hkey, hrest⟩ := List.cons.inj hkeys
      obtain ⟨b, hb, hb'⟩ := h e List.mem_cons_self e' List.mem_cons_self hkey
      obtain ⟨out, hout, hout'⟩ := ih hrest fun d hd d' hd' =>
        h d (List.mem_cons_of_mem _ hd) d' (List.mem_cons_of_mem _ hd')
      exact ⟨(e.1, b) :: out, .cons ⟨rfl, hb⟩ hout, .cons ⟨hkey.symm, hb'⟩ hout'⟩

end ClusterScaler
