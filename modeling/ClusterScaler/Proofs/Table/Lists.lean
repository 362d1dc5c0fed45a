import ClusterScaler.Proofs.Table.Lookup

/-!
# Tables of lists

The table of a list whose keys are distinct holds exactly the entries of the list, so it does not
depend on their order.
-/

set_option autoImplicit false

namespace ClusterScaler.Table

variable {κ α : Type} [KeyOrder κ]

theorem insertInto_perm {k : κ} {v : α} {l : List (κ × α)} (h : k ∉ l.map (·.1)) :
    (insertInto k v l).Perm ((k, v) :: l) := by
  induction l with
  | nil => exact .refl _
  | cons e l ih =>
    rw [List.map_cons, List.mem_cons, not_or] at h
    unfold insertInto
    split
    · exact .refl _
    · next hnlt =>
      split
      · exact (List.Perm.cons e (ih h.2)).trans (.swap ..)
      · next hngt => exact absurd (KeyOrder.eq_of_not_lt hnlt hngt) h.1

theorem entries_insertAll_perm {t : Table κ α} {es : List (κ × α)}
    (h : ((t.entries ++ es).map (·.1)).Nodup) :
    (t.insertAll es).entries.Perm (t.entries ++ es) := by
  induction es generalizing t with
  | nil => simp [insertAll]
  | cons e es ih =>
    have hmoved : (t.entries ++ e :: es).Perm (e :: t.entries ++ es) := List.perm_middle
    have hnodup : ((e :: t.entries ++ es).map (·.1)).Nodup :=
      (hmoved.map (·.1)).nodup_iff.mp h
    have hnew : e.1 ∉ t.entries.map (·.1) := by
      rw [List.cons_append, List.map_cons, List.nodup_cons, List.map_append,
        List.mem_append] at hnodup
      exact fun hmem => hnodup.1 (.inl hmem)
    have hinsert : (t.insert e.1 e.2).entries.Perm (e :: t.entries) := insertInto_perm hnew
    have hboth := hinsert.append_right es
    have hrest := ih (t := t.insert e.1 e.2) ((hboth.map (·.1)).nodup_iff.mpr hnodup)
    exact hrest.trans (hboth.trans hmoved.symm)

theorem entries_ofList_perm {es : List (κ × α)} (h : (es.map (·.1)).Nodup) :
    (ofList es).entries.Perm es :=
  entries_insertAll_perm (t := ∅) h

/-- Whatever the table of a list holds is an entry of the list. -/
theorem mem_of_mem_entries_ofList {es : List (κ × α)} {e : κ × α}
    (h : e ∈ (ofList es).entries) : e ∈ es := by
  have hall : ∀ (es : List (κ × α)) (t : Table κ α), e ∈ (t.insertAll es).entries →
      e ∈ t.entries ∨ e ∈ es := by
    intro es
    induction es with
    | nil => exact fun t ht => .inl ht
    | cons e' es ih =>
      intro t ht
      rcases ih (t.insert e'.1 e'.2) ht with hinsert | hrest
      · rcases mem_insertInto hinsert with rfl | hold
        · exact .inr List.mem_cons_self
        · exact .inl hold
      · exact .inr (List.mem_cons_of_mem _ hrest)
  exact (hall es ∅ h).resolve_left List.not_mem_nil

/-- A list of distinct keys in increasing order is the only one of its entries. -/
theorem eq_of_perm_of_sorted {es es' : List (κ × α)} (h : es.Perm es')
    (hes : es.Pairwise (fun a b => a.1 < b.1)) (hes' : es'.Pairwise (fun a b => a.1 < b.1)) :
    es = es' := by
  refine h.eq_of_pairwise ?_ hes hes'
  intro a b _ _ hlt hgt
  exact absurd (KeyOrder.lt_trans hlt hgt) (KeyOrder.lt_irrefl _)

theorem ofList_eq_of_perm {es es' : List (κ × α)} (hperm : es.Perm es')
    (h : (es.map (·.1)).Nodup) : ofList es = ofList es' := by
  have h' : (es'.map (·.1)).Nodup := (hperm.map (·.1)).nodup_iff.mp h
  apply ext
  apply eq_of_perm_of_sorted _ (ofList es).sorted (ofList es').sorted
  exact (entries_ofList_perm h).trans (hperm.trans (entries_ofList_perm h').symm)

/-- The entries of a table are its list, brought into the order of the keys. -/
theorem entries_ofList_of_perm {es es' : List (κ × α)} (hperm : es.Perm es')
    (hsorted : (es'.map (·.1)).Pairwise (· < ·)) : (ofList es).entries = es' := by
  have hentries : es'.Pairwise (fun a b => a.1 < b.1) := List.pairwise_map.mp hsorted
  have hnodup : (es'.map (·.1)).Nodup := keys_nodup ⟨es', hentries⟩
  rw [← ofList_eq_of_perm hperm.symm hnodup, entries_ofList hentries]

end ClusterScaler.Table
