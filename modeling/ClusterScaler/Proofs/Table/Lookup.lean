import ClusterScaler.Table

/-!
# Looking up keys of tables

What a table holds under a key after each of its operations. With these lemmas a table is a
partial function, and nothing else has to look at the entry list.
-/

set_option autoImplicit false

namespace ClusterScaler.Table

variable {κ α β : Type} [KeyOrder κ]

/-- In an ordered entry list the lookup of a key finds exactly the entry with that key. -/
theorem lookupIn_eq_some_iff {k : κ} {v : α} {l : List (κ × α)}
    (h : l.Pairwise (fun a b => a.1 < b.1)) : lookupIn k l = some v ↔ (k, v) ∈ l := by
  induction l with
  | nil => simp [lookupIn]
  | cons e rest ih =>
    obtain ⟨k', v'⟩ := e
    rw [List.pairwise_cons] at h
    have hrest := ih h.2
    simp only [lookupIn, List.mem_cons, Prod.mk.injEq]
    split
    · next hlt =>
      -- every later key is larger still
      constructor
      · intro hnone
        cases hnone
      · rintro (⟨rfl, -⟩ | hmem)
        · exact absurd hlt (KeyOrder.lt_irrefl _)
        · exact absurd (KeyOrder.lt_trans hlt (h.1 _ hmem)) (KeyOrder.lt_irrefl _)
    · next hnlt =>
      split
      · next hgt =>
        rw [hrest]
        constructor
        · exact Or.inr
        · rintro (⟨rfl, -⟩ | hmem)
          · exact absurd hgt (KeyOrder.lt_irrefl _)
          · exact hmem
      · next hngt =>
        obtain rfl := KeyOrder.eq_of_not_lt hnlt hngt
        constructor
        · intro hsome
          cases hsome
          exact .inl ⟨rfl, rfl⟩
        · rintro (⟨-, rfl⟩ | hmem)
          · rfl
          · exact absurd (h.1 _ hmem) (KeyOrder.lt_irrefl _)

/-- An entry in front is the one that its key finds, and nothing behind it has its key. -/
theorem lookupIn_cons_self {e : κ × α} {l : List (κ × α)}
    (h : (e :: l).Pairwise (fun a b => a.1 < b.1)) :
    lookupIn e.1 (e :: l) = some e.2 ∧ lookupIn e.1 l = none := by
  refine ⟨(lookupIn_eq_some_iff h).mpr List.mem_cons_self, ?_⟩
  rw [List.pairwise_cons] at h
  rw [Option.eq_none_iff_forall_ne_some]
  intro v hv
  rw [lookupIn_eq_some_iff h.2] at hv
  exact KeyOrder.lt_irrefl _ (h.1 (e.1, v) hv)

theorem lookupIn_cons_of_ne {k : κ} {e : κ × α} {l : List (κ × α)}
    (h : (e :: l).Pairwise (fun a b => a.1 < b.1)) (hne : k ≠ e.1) :
    lookupIn k (e :: l) = lookupIn k l := by
  apply Option.ext
  intro v
  rw [lookupIn_eq_some_iff h, lookupIn_eq_some_iff (List.pairwise_cons.mp h).2, List.mem_cons]
  constructor
  · rintro (heq | hmem)
    · exact absurd (congrArg Prod.fst heq) hne
    · exact hmem
  · exact Or.inr

/-- A lookup finds exactly the entries of the table. -/
theorem get?_eq_some_iff {t : Table κ α} {k : κ} {v : α} :
    t.get? k = some v ↔ (k, v) ∈ t.entries :=
  lookupIn_eq_some_iff t.sorted

theorem get?_congr {t : Table κ α} {s : Table κ α} {k : κ}
    (h : ∀ v, (k, v) ∈ t.entries ↔ (k, v) ∈ s.entries) : t.get? k = s.get? k := by
  apply Option.ext
  intro v
  rw [get?_eq_some_iff, get?_eq_some_iff, h v]

@[simp]
theorem get?_empty {k : κ} : (∅ : Table κ α).get? k = none := rfl

/-- A key is a key of the table exactly if something is found under it. -/
theorem mem_keys_iff {t : Table κ α} {k : κ} : k ∈ t.keys ↔ (t.get? k).isSome := by
  rw [Option.isSome_iff_exists]
  unfold keys
  rw [List.mem_map]
  constructor
  · rintro ⟨⟨k', v⟩, hmem, rfl⟩
    exact ⟨v, get?_eq_some_iff.mpr hmem⟩
  · rintro ⟨v, hv⟩
    exact ⟨(k, v), get?_eq_some_iff.mp hv, rfl⟩

/-- A key has a value exactly if it is one of the keys. -/
theorem contains_eq_true_iff {t : Table κ α} {k : κ} : t.contains k = true ↔ k ∈ t.keys := by
  rw [mem_keys_iff]
  rfl

theorem keys_nodup (t : Table κ α) : t.keys.Nodup := by
  unfold keys
  rw [List.Nodup, List.pairwise_map]
  refine t.sorted.imp ?_
  intro a b hlt heq
  rw [heq] at hlt
  exact KeyOrder.lt_irrefl _ hlt

theorem nodup_entries (t : Table κ α) : t.entries.Nodup := by
  refine t.sorted.imp ?_
  rintro a b hlt rfl
  exact KeyOrder.lt_irrefl _ hlt

/-- A table is what it holds under its keys. -/
theorem ext_get? {s t : Table κ α} (h : ∀ k, s.get? k = t.get? k) : s = t := by
  have hmem : ∀ e, e ∈ s.entries ↔ e ∈ t.entries := by
    intro e
    rw [← get?_eq_some_iff (k := e.1) (v := e.2), h, get?_eq_some_iff]
  have hperm : s.entries.Perm t.entries :=
    (List.perm_ext_iff_of_nodup (nodup_entries s) (nodup_entries t)).mpr hmem
  refine ext (hperm.eq_of_pairwise ?_ s.sorted t.sorted)
  intro a b _ _ hlt hgt
  exact absurd (KeyOrder.lt_trans hlt hgt) (KeyOrder.lt_irrefl _)

theorem mem_insertInto_iff {k k' : κ} {v v' : α} {l : List (κ × α)}
    (h : l.Pairwise (fun a b => a.1 < b.1)) :
    (k', v') ∈ insertInto k v l ↔ (k' = k ∧ v' = v) ∨ (k' ≠ k ∧ (k', v') ∈ l) := by
  induction l with
  | nil => simp [insertInto]
  | cons e rest ih =>
    obtain ⟨k₀, v₀⟩ := e
    rw [List.pairwise_cons] at h
    have hrest := ih h.2
    have hlater : ∀ w, (k', w) ∈ rest → k₀ < k' := fun w hw => h.1 _ hw
    simp only [insertInto]
    split
    · next hlt =>
      have hne : k₀ ≠ k := by
        rintro rfl
        exact KeyOrder.lt_irrefl _ hlt
      simp only [List.mem_cons, Prod.mk.injEq]
      constructor
      · rintro (hnew | ⟨rfl, rfl⟩ | hmem)
        · exact .inl hnew
        · exact .inr ⟨hne, .inl ⟨rfl, rfl⟩⟩
        · refine .inr ⟨?_, .inr hmem⟩
          rintro rfl
          exact KeyOrder.lt_irrefl _ (KeyOrder.lt_trans hlt (hlater _ hmem))
      · rintro (hnew | ⟨-, hold⟩)
        · exact .inl hnew
        · exact .inr hold
    · next hnlt =>
      split
      · next hgt =>
        have hne : k₀ ≠ k := by
          rintro rfl
          exact KeyOrder.lt_irrefl _ hgt
        simp only [List.mem_cons, Prod.mk.injEq, hrest]
        constructor
        · rintro (⟨rfl, rfl⟩ | hnew | ⟨hk, hmem⟩)
          · exact .inr ⟨hne, .inl ⟨rfl, rfl⟩⟩
          · exact .inl hnew
          · exact .inr ⟨hk, .inr hmem⟩
        · rintro (hnew | ⟨hk, hhead | hmem⟩)
          · exact .inr (.inl hnew)
          · exact .inl hhead
          · exact .inr (.inr ⟨hk, hmem⟩)
      · next hngt =>
        obtain rfl := KeyOrder.eq_of_not_lt hnlt hngt
        simp only [List.mem_cons, Prod.mk.injEq]
        constructor
        · rintro (hnew | hmem)
          · exact .inl hnew
          · refine .inr ⟨?_, .inr hmem⟩
            rintro rfl
            exact KeyOrder.lt_irrefl _ (hlater _ hmem)
        · rintro (hnew | ⟨hk, ⟨hk', -⟩ | hmem⟩)
          · exact .inl hnew
          · exact absurd hk' hk
          · exact .inr hmem

theorem mem_entries_insert {t : Table κ α} {k k' : κ} {v v' : α} :
    (k', v') ∈ (t.insert k v).entries ↔ (k' = k ∧ v' = v) ∨ (k' ≠ k ∧ (k', v') ∈ t.entries) :=
  mem_insertInto_iff t.sorted

@[simp]
theorem get?_insert_self {t : Table κ α} {k : κ} {v : α} : (t.insert k v).get? k = some v := by
  rw [get?_eq_some_iff, mem_entries_insert]
  exact .inl ⟨rfl, rfl⟩

theorem get?_insert_of_ne {t : Table κ α} {k k' : κ} {v : α} (h : k' ≠ k) :
    (t.insert k v).get? k' = t.get? k' := by
  apply get?_congr
  intro w
  rw [mem_entries_insert]
  simp [h]

theorem get?_insert [DecidableEq κ] {t : Table κ α} {k k' : κ} {v : α} :
    (t.insert k v).get? k' = if k' = k then some v else t.get? k' := by
  split
  · next heq => rw [heq, get?_insert_self]
  · next hne => exact get?_insert_of_ne hne

theorem get?_filter {t : Table κ α} {p : κ → α → Bool} {k : κ} :
    (t.filter p).get? k = (t.get? k).filter (p k) := by
  apply Option.ext
  intro v
  rw [get?_eq_some_iff, Option.filter_eq_some_iff, get?_eq_some_iff]
  unfold filter
  simp

theorem get?_erase [DecidableEq κ] {t : Table κ α} {k k' : κ} :
    (t.erase k).get? k' = if k' = k then none else t.get? k' := by
  unfold erase
  rw [get?_filter]
  by_cases heq : k' = k
  · subst heq
    simp [KeyOrder.lt_irrefl]
  · rw [if_neg heq]
    have hkept : (decide (k' < k) || decide (k < k')) = true := by
      by_cases hlt : k' < k
      · simp [hlt]
      · by_cases hgt : k < k'
        · simp [hgt]
        · exact absurd (KeyOrder.eq_of_not_lt hlt hgt) heq
    cases t.get? k' with
    | none => rfl
    | some v => rw [Option.filter_some, if_pos hkept]

theorem get?_mapValues {t : Table κ α} {f : κ → α → β} {k : κ} :
    (t.mapValues f).get? k = (t.get? k).map (f k) := by
  apply Option.ext
  intro v
  rw [get?_eq_some_iff, Option.map_eq_some_iff]
  unfold mapValues
  simp only [List.mem_map, Prod.mk.injEq]
  constructor
  · rintro ⟨⟨k', w⟩, hmem, rfl, rfl⟩
    exact ⟨w, get?_eq_some_iff.mpr hmem, rfl⟩
  · rintro ⟨w, hw, rfl⟩
    exact ⟨(k, w), get?_eq_some_iff.mp hw, rfl, rfl⟩

@[simp]
theorem keys_mapValues {t : Table κ α} {f : κ → α → β} : (t.mapValues f).keys = t.keys := by
  unfold keys mapValues
  rw [List.map_map]
  rfl

theorem get?_upsert [DecidableEq κ] {t : Table κ α} {k k' : κ} {init : α} {f : α → α} :
    (t.upsert k init f).get? k' = if k' = k then some (f ((t.get? k).getD init)) else t.get? k' :=
  get?_insert

/-- Folding a table into another one changes what the first one names. -/
theorem get?_foldl_upsert [DecidableEq κ] (t : Table κ α) (changes : Table κ β) (init : α)
    (f : α → β → α) (k : κ) :
    (changes.entries.foldl (fun t e => t.upsert e.1 init (f · e.2)) t).get? k =
      match changes.get? k with
      | none => t.get? k
      | some v => some (f ((t.get? k).getD init) v) := by
  -- the entries are ordered, so a key met once does not come again
  have hfold : ∀ (es : List (κ × β)) (t : Table κ α), es.Pairwise (fun a b => a.1 < b.1) →
      (es.foldl (fun t e => t.upsert e.1 init (f · e.2)) t).get? k =
        match lookupIn k es with
        | none => t.get? k
        | some v => some (f ((t.get? k).getD init) v) := by
    intro es
    induction es with
    | nil => exact fun t _ => rfl
    | cons e rest ih =>
      intro t hsorted
      rw [List.foldl_cons, ih _ (List.pairwise_cons.mp hsorted).2, get?_upsert]
      by_cases hk : k = e.1
      · obtain ⟨hfound, hnone⟩ := lookupIn_cons_self hsorted
        rw [if_pos hk, hk, hfound, hnone]
      · rw [if_neg hk, lookupIn_cons_of_ne hsorted hk]
  exact hfold changes.entries t changes.sorted

theorem insertInto_of_lt {k : κ} {v : α} {l : List (κ × α)} (h : ∀ e ∈ l, e.1 < k) :
    insertInto k v l = l ++ [(k, v)] := by
  induction l with
  | nil => rfl
  | cons e l ih =>
    have hlt := h e List.mem_cons_self
    have hnlt : ¬ k < e.1 := fun hgt => KeyOrder.lt_irrefl _ (KeyOrder.lt_trans hlt hgt)
    rw [insertInto, if_neg hnlt, if_pos hlt, ih fun e' he' => h e' (List.mem_cons_of_mem _ he'),
      List.cons_append]

/-- Entries that follow in order are appended. -/
theorem entries_insertAll {t : Table κ α} {es : List (κ × α)}
    (h : (t.entries ++ es).Pairwise (fun a b => a.1 < b.1)) :
    (t.insertAll es).entries = t.entries ++ es := by
  induction es generalizing t with
  | nil => exact (List.append_nil _).symm
  | cons e es ih =>
    have hinsert : (t.insert e.1 e.2).entries = t.entries ++ [e] :=
      insertInto_of_lt fun e' he' => (List.pairwise_append.mp h).2.2 e' he' e List.mem_cons_self
    have htext : t.entries ++ e :: es = (t.insert e.1 e.2).entries ++ es := by
      rw [hinsert, List.append_assoc, List.singleton_append]
    rw [htext] at h ⊢
    exact ih h

theorem entries_ofList {es : List (κ × α)} (h : es.Pairwise (fun a b => a.1 < b.1)) :
    (ofList es).entries = es := entries_insertAll h

theorem ofList_entries (t : Table κ α) : ofList t.entries = t := ext (entries_ofList t.sorted)

theorem isSome_get?_insertAll [DecidableEq κ] {t : Table κ α} {es : List (κ × α)} {k : κ} :
    ((t.insertAll es).get? k).isSome ↔ (t.get? k).isSome ∨ k ∈ es.map (·.1) := by
  induction es generalizing t with
  | nil => simp [insertAll]
  | cons e rest ih =>
    have hstep : t.insertAll (e :: rest) = (t.insert e.1 e.2).insertAll rest := rfl
    rw [hstep, ih, get?_insert, List.map_cons, List.mem_cons]
    by_cases hk : k = e.1
    · simp [hk]
    · simp [hk]

/-- The keys of the table of some entries are those of the entries. -/
theorem isSome_get?_ofList [DecidableEq κ] {es : List (κ × α)} {k : κ} :
    ((ofList es).get? k).isSome ↔ k ∈ es.map (·.1) := by
  unfold ofList
  rw [isSome_get?_insertAll]
  simp

theorem size_eq_length_keys (t : Table κ α) : t.size = t.keys.length := by
  unfold size keys
  rw [List.length_map]

/-- A table has one entry more than another if it has one key more. -/
theorem size_eq_succ {s : Table κ α} {t : Table κ β} {k : κ} (hnone : t.get? k = none)
    (h : ∀ k', (s.get? k').isSome = true ↔ k' = k ∨ (t.get? k').isSome = true) :
    s.size = t.size + 1 := by
  have hnew : k ∉ t.keys := by simp [mem_keys_iff, hnone]
  have hperm : s.keys.Perm (k :: t.keys) := by
    have hnodup : (k :: t.keys).Nodup := List.nodup_cons.mpr ⟨hnew, keys_nodup t⟩
    refine (List.perm_ext_iff_of_nodup (keys_nodup s) hnodup).mpr fun k' => ?_
    rw [mem_keys_iff, h, List.mem_cons, mem_keys_iff]
  rw [size_eq_length_keys, size_eq_length_keys, hperm.length_eq, List.length_cons]

theorem size_insert_of_none [DecidableEq κ] {t : Table κ α} {k : κ} {v : α}
    (h : t.get? k = none) : (t.insert k v).size = t.size + 1 := by
  refine size_eq_succ h fun k' => ?_
  rw [get?_insert]
  split
  next heq => simp [heq]
  next hne => simp [hne]

theorem get?_erase_self [DecidableEq κ] {t : Table κ α} {k : κ} : (t.erase k).get? k = none := by
  rw [get?_erase, if_pos rfl]

theorem size_erase_of_some [DecidableEq κ] {t : Table κ α} {k : κ} {v : α}
    (h : t.get? k = some v) : t.size = (t.erase k).size + 1 := by
  refine size_eq_succ get?_erase_self fun k' => ?_
  rw [get?_erase]
  split
  next heq => simp [heq, h]
  next hne => simp [hne]

theorem size_insert_of_some [DecidableEq κ] {t : Table κ α} {k : κ} {v w : α}
    (h : t.get? k = some w) : (t.insert k v).size = t.size := by
  have hinsert : (t.insert k v).size = (t.erase k).size + 1 := by
    refine size_eq_succ get?_erase_self fun k' => ?_
    rw [get?_insert, get?_erase]
    split
    next heq => simp [heq]
    next hne => simp [hne]
  exact hinsert.trans (size_erase_of_some h).symm

end ClusterScaler.Table
