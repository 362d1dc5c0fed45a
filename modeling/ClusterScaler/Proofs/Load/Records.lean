import ClusterScaler.Load
import ClusterScaler.Proofs.Table.Lookup

/-!
# The record of a node

What a load store holds of one node after each of its operations. With these lemmas a store is a
partial function from nodes to records, and a node is stale by its own record.
-/

set_option autoImplicit false

namespace ClusterScaler

namespace LoadStore

variable {α : Type} {s : LoadStore α} {id node : NodeId} {now : Nat}

/-- The heartbeat clock of a node is started once, and no other record is touched. -/
theorem get?_markActive :
    (s.markActive node now).get? id =
      if id = node then some ((s.get? id).getD (NodeLoad.seeded now)) else s.get? id := by
  unfold markActive
  split
  · next hnone =>
    have hinsert : ({ s with records := s.records.insert node (NodeLoad.seeded now) } :
        LoadStore α).get? id = if id = node then some (NodeLoad.seeded now) else s.get? id :=
      Table.get?_insert
    rw [hinsert]
    split
    · next heq => rw [heq, hnone, Option.getD_none]
    · rfl
  · next load hload =>
    split
    · next heq => rw [heq, hload, Option.getD_some]
    · rfl

/-- Exactly the records of the nodes that are not live are dropped. -/
theorem get?_prune {live : List NodeId} :
    (s.prune live).1.get? id = if id ∈ live then s.get? id else none := by
  have hfilter : (s.prune live).1.get? id = (s.get? id).filter (fun _ => live.contains id) :=
    Table.get?_filter
  rw [hfilter]
  split
  · next hlive => cases s.get? id <;> simp [hlive]
  · next hgone => cases s.get? id <;> simp [hgone]

theorem get?_remove : (s.remove node).get? id = if id = node then none else s.get? id :=
  Table.get?_erase

/-- Exactly the records of the removed nodes are dropped. -/
theorem get?_foldl_remove {nodes : List NodeId} :
    (nodes.foldl remove s).get? id = if id ∈ nodes then none else s.get? id := by
  induction nodes generalizing s with
  | nil => simp
  | cons node rest ih =>
    rw [List.foldl_cons, ih, get?_remove]
    by_cases heq : id = node
    · simp [heq]
    · simp [heq]

theorem isStale_eq_true_iff :
    s.isStale id now = true ↔
      ∃ l, s.get? id = some l ∧ s.heartbeatTimeout < now - l.lastHeartbeat := by
  unfold isStale
  cases h : s.get? id with
  | none => simp
  | some l => simp

variable [Amount α] {used available : Resources α}

/-- A report is dropped exactly if a later one was recorded. -/
theorem recordHeartbeat_eq_false_iff :
    (s.recordHeartbeat id used available now).2 = false ↔
      ∃ l, s.get? id = some l ∧ now < l.lastHeartbeat := by
  unfold recordHeartbeat
  cases s.get? id with
  | none => simp
  | some l =>
    dsimp only
    split
    · next hlt => simp [hlt]
    · next hle => simp [hle]

/-- A report that is dropped changes nothing. -/
theorem recordHeartbeat_of_dropped (h : (s.recordHeartbeat id used available now).2 = false) :
    (s.recordHeartbeat id used available now).1 = s := by
  obtain ⟨l, hl, hlt⟩ := recordHeartbeat_eq_false_iff.mp h
  unfold recordHeartbeat
  rw [hl]
  dsimp only
  rw [if_pos hlt]

/-- A report that is accepted is no older than what was recorded. -/
theorem le_of_recordHeartbeat {l : NodeLoad α}
    (h : (s.recordHeartbeat id used available now).2 = true) (hl : s.get? id = some l) :
    l.lastHeartbeat ≤ now := by
  refine Nat.not_lt.mp fun hlt => ?_
  rw [recordHeartbeat_eq_false_iff.mpr ⟨l, hl, hlt⟩] at h
  cases h

/-- A report leaves the records of all other nodes alone. -/
theorem get?_recordHeartbeat_of_ne (hne : id ≠ node) :
    (s.recordHeartbeat node used available now).1.get? id = s.get? id := by
  have hinsert : ∀ l, ({ s with records := s.records.insert node l } : LoadStore α).get? id =
      s.get? id := fun _ => Table.get?_insert_of_ne hne
  unfold recordHeartbeat
  split
  · exact hinsert _
  split
  · rfl
  · exact hinsert _

/-- The first report of a node is its use as well. -/
theorem get?_recordHeartbeat_of_none (h : s.get? id = none) :
    (s.recordHeartbeat id used available now).1.get? id = some ⟨used, available, now, now⟩ := by
  unfold recordHeartbeat
  rw [h]
  exact Table.get?_insert_self

/-- A later report replaces what is recorded, but is a use only if it tells of one. -/
theorem get?_recordHeartbeat_of_some {l : NodeLoad α} (h : s.get? id = some l)
    (hle : l.lastHeartbeat ≤ now) :
    (s.recordHeartbeat id used available now).1.get? id =
      some ⟨used, available, now, if used.isZero then l.lastUsed else now⟩ := by
  unfold recordHeartbeat
  rw [h]
  dsimp only
  rw [if_neg (Nat.not_lt.mpr hle)]
  exact Table.get?_insert_self

end LoadStore

end ClusterScaler
