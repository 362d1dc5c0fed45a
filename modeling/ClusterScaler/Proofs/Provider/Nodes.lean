import ClusterScaler.Config.Error
import ClusterScaler.Provider.InMemory
import ClusterScaler.Proofs.Table.Lookup
import Mathlib.Data.List.Perm.Subperm

/-!
# The nodes of a provider

Nodes are numbered as they are made, so a new one never takes the place of another. What the
provider holds is counted by what a node must be like, and each operation is described by what
it does to a node and to such a count.
-/

set_option autoImplicit false

namespace ClusterScaler

theorem natText_injective {m n : Nat} (h : natText m = natText n) : m = n := by
  have hdigits : Nat.toDigits 10 m = Nat.toDigits 10 n := String.ofList_injective h
  rw [← Nat.ofDigitChars_ten_toDigits (n := m), hdigits, Nat.ofDigitChars_ten_toDigits]

namespace InMemory

variable {p p' : InMemory} {f : NodeId → Node → Bool}

theorem idOf_injective {m n : Nat} (h : idOf m = idOf n) : m = n := by
  have htext : "fake-" ++ natText m = "fake-" ++ natText n := congrArg NodeId.text h
  have hlist := congrArg String.toList htext
  rw [String.toList_append, String.toList_append, List.append_cancel_left_eq] at hlist
  exact natText_injective (String.toList_inj.mp hlist)

/-- Every node has the identifier of one of the numbers handed out. -/
def Numbered (p : InMemory) : Prop :=
  ∀ id n, p.nodes.get? id = some n → ∃ k, k ≤ p.made ∧ id = idOf k

theorem Numbered.fresh (h : p.Numbered) : p.nodes.get? (idOf (p.made + 1)) = none := by
  cases hfound : p.nodes.get? (idOf (p.made + 1)) with
  | none => rfl
  | some n =>
    obtain ⟨k, hk, hid⟩ := h _ n hfound
    have heq := idOf_injective hid
    omega

/-- The nodes that are as `f` asks. -/
def nodesWhere (p : InMemory) (f : NodeId → Node → Bool) : List NodeId :=
  (p.nodes.filter f).keys

/-- How many nodes are as `f` asks. -/
def holds (p : InMemory) (f : NodeId → Node → Bool) : Nat := (p.nodesWhere f).length

theorem mem_nodesWhere_iff {id : NodeId} :
    id ∈ p.nodesWhere f ↔ ∃ n, p.nodes.get? id = some n ∧ f id n = true := by
  unfold nodesWhere
  rw [Table.mem_keys_iff, Table.get?_filter, Option.isSome_iff_exists]
  simp only [Option.filter_eq_some_iff]

theorem nodup_nodesWhere : (p.nodesWhere f).Nodup := Table.keys_nodup _

/-- A list of distinct nodes has as many as the provider holds if it has the same ones. -/
theorem holds_eq_length {ids : List NodeId} (hnodup : ids.Nodup)
    (h : ∀ id, id ∈ ids ↔ ∃ n, p.nodes.get? id = some n ∧ f id n = true) :
    p.holds f = ids.length := by
  refine ((List.perm_ext_iff_of_nodup nodup_nodesWhere hnodup).mpr ?_).length_eq
  intro id
  rw [mem_nodesWhere_iff, h]

theorem holds_le_length {ids : List NodeId}
    (h : ∀ id n, p.nodes.get? id = some n → f id n = true → id ∈ ids) : p.holds f ≤ ids.length := by
  apply nodup_nodesWhere.length_le_of_subset
  intro id hid
  obtain ⟨n, hn, hf⟩ := mem_nodesWhere_iff.mp hid
  exact h id n hn hf

theorem holds_le_holds {f' : NodeId → Node → Bool}
    (h : ∀ id n, p.nodes.get? id = some n → f id n = true →
      ∃ n', p'.nodes.get? id = some n' ∧ f' id n' = true) : p.holds f ≤ p'.holds f' :=
  holds_le_length (fun id n hn hf => mem_nodesWhere_iff.mpr (h id n hn hf))

theorem get?_addNode (p : InMemory) (tags : Tags) (phase : Phase) (id : NodeId) :
    (p.addNode tags phase).nodes.get? id =
      if id = idOf (p.made + 1) then some ⟨phase, tags, addressOf (p.made + 1)⟩
      else p.nodes.get? id :=
  Table.get?_insert

theorem Numbered.addNode (h : p.Numbered) (tags : Tags) (phase : Phase) :
    (p.addNode tags phase).Numbered := by
  intro id n hn
  rw [get?_addNode] at hn
  split at hn
  · next hid => exact ⟨p.made + 1, Nat.le_refl _, hid⟩
  · obtain ⟨k, hk, hid⟩ := h id n hn
    exact ⟨k, Nat.le_succ_of_le hk, hid⟩

/-- A new node counts if it is as `f` asks; no other does not count any longer. -/
theorem holds_addNode (h : p.Numbered) (tags : Tags) (phase : Phase) {new : Bool}
    (hnew : ∀ id address, f id ⟨phase, tags, address⟩ = new) :
    (p.addNode tags phase).holds f = p.holds f + if new then 1 else 0 := by
  have hold : idOf (p.made + 1) ∉ p.nodesWhere f := by
    rw [mem_nodesWhere_iff, h.fresh]
    rintro ⟨n, hn, -⟩
    cases hn
  cases new with
  | true =>
    refine (holds_eq_length (List.nodup_cons.mpr ⟨hold, nodup_nodesWhere⟩) ?_).trans rfl
    intro id
    rw [List.mem_cons, mem_nodesWhere_iff, get?_addNode]
    split
    · next hid => simp [hid, hnew]
    · next hid => simp [hid]
  | false =>
    refine holds_eq_length nodup_nodesWhere ?_
    intro id
    rw [mem_nodesWhere_iff, get?_addNode]
    split
    · next hid =>
      rw [hid, h.fresh]
      simp [hnew]
    · rfl

theorem Numbered.addNodes (h : p.Numbered) (tags : Tags) (phase : Phase) (count : Nat) :
    (p.addNodes tags phase count).Numbered := by
  induction count generalizing p with
  | zero => exact h
  | succ count ih => exact ih (h.addNode tags phase)

theorem made_le_addNodes (p : InMemory) (tags : Tags) (phase : Phase) (count : Nat) :
    p.made ≤ (p.addNodes tags phase count).made := by
  induction count generalizing p with
  | zero => exact Nat.le_refl _
  | succ count ih => exact Nat.le_trans (Nat.le_succ p.made) (ih (p.addNode tags phase))

theorem holds_addNodes (h : p.Numbered) (tags : Tags) (phase : Phase) {new : Bool}
    (hnew : ∀ id address, f id ⟨phase, tags, address⟩ = new) (count : Nat) :
    (p.addNodes tags phase count).holds f = p.holds f + if new then count else 0 := by
  induction count generalizing p with
  | zero => cases new <;> rfl
  | succ count ih =>
    unfold InMemory.addNodes
    rw [ih (h.addNode tags phase), holds_addNode h tags phase hnew]
    cases new with
    | true =>
      simp only [if_true]
      omega
    | false => rfl

/-- Adding nodes leaves the ones that are there. -/
theorem get?_addNodes (h : p.Numbered) (tags : Tags) (phase : Phase) (count : Nat) {id : NodeId}
    {n : Node} (hn : p.nodes.get? id = some n) :
    (p.addNodes tags phase count).nodes.get? id = some n := by
  induction count generalizing p with
  | zero => exact hn
  | succ count ih =>
    refine ih (h.addNode tags phase) ?_
    rw [get?_addNode, if_neg]
    · exact hn
    · rintro rfl
      rw [h.fresh] at hn
      cases hn

/-- A node was there before nodes were added, or has their tags. -/
theorem get?_of_addNodes {tags : Tags} {phase : Phase} {count : Nat} {id : NodeId} {n : Node}
    (hn : (p.addNodes tags phase count).nodes.get? id = some n) :
    p.nodes.get? id = some n ∨ n.tags = tags := by
  induction count generalizing p with
  | zero => exact .inl hn
  | succ count ih =>
    rcases ih hn with hold | htags
    · rw [get?_addNode] at hold
      split at hold
      · cases hold
        exact .inr rfl
      · exact .inl hold
    · exact .inr htags

/-- A termination sets the phase of the nodes that it names. -/
theorem get?_foldl_terminateLive (ids : List NodeId) (p : InMemory) (id : NodeId) :
    (ids.foldl terminateLive p).nodes.get? id =
      if id ∈ ids then (p.nodes.get? id).map (fun n => { n with phase := .terminated })
      else p.nodes.get? id := by
  induction ids generalizing p with
  | nil => rfl
  | cons gone rest ih =>
    have hone : (p.terminateLive gone).nodes.get? id =
        if id = gone then (p.nodes.get? id).map (fun n => { n with phase := .terminated })
        else p.nodes.get? id := by
      unfold terminateLive
      cases hgone : p.nodes.get? gone with
      | none =>
        dsimp only
        split
        · next hid =>
          rw [hid, hgone]
          rfl
        · rfl
      | some n =>
        dsimp only
        split
        · next hphase =>
          split
          · next hid =>
            rw [hid, hgone, ← hphase]
            rfl
          · rfl
        · rw [Table.get?_insert]
          split
          · next hid =>
            rw [hid, hgone]
            rfl
          · rfl
    rw [List.foldl_cons, ih, hone]
    by_cases hrest : id ∈ rest
    · rw [if_pos hrest, if_pos (List.mem_cons_of_mem _ hrest)]
      split
      · cases p.nodes.get? id <;> rfl
      · rfl
    · rw [if_neg hrest]
      by_cases hid : id = gone
      · rw [if_pos hid, if_pos (hid ▸ List.mem_cons_self)]
      · rw [if_neg hid, if_neg]
        rintro (_ | ⟨_, hmem⟩)
        · exact hid rfl
        · exact hrest hmem

theorem made_foldl_terminateLive (ids : List NodeId) (p : InMemory) :
    (ids.foldl terminateLive p).made = p.made := by
  induction ids generalizing p with
  | nil => rfl
  | cons gone rest ih =>
    rw [List.foldl_cons, ih]
    unfold terminateLive
    cases p.nodes.get? gone with
    | none => rfl
    | some n =>
      dsimp only
      split <;> rfl

end InMemory

end ClusterScaler
