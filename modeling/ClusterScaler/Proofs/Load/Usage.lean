import ClusterScaler.Proofs.Demand.Exact
import ClusterScaler.Proofs.Load.Records
import Mathlib.Algebra.Order.BigOperators.Group.List

/-!
# The usage of a cluster

The records of a store fall into those of the nodes that are listed as stale and those that are counted.
In exact amounts the count is a sum over the latter, resource by resource, so it does not depend on the
order in which the records are met (`usage_partitions`).
-/

set_option autoImplicit false

namespace ClusterScaler

namespace Resources

variable {r d : Resources ℚ} {ds ds' : List (Resources ℚ)} {name : String} {amount : ℚ}

theorem get?_add (r d : Resources ℚ) (name : String) :
    (r.add d).amounts.get? name =
      match d.amounts.get? name with
      | none => r.amounts.get? name
      | some amount => some (r.get name + amount) := by
  unfold add combine toList
  rw [Table.get?_foldl_upsert]
  cases d.amounts.get? name <;> rfl

/-- What is added comes on top, name by name. -/
theorem get_add (r d : Resources ℚ) (name : String) :
    (r.add d).get name = r.get name + d.get name := by
  have hget := get?_add r d name
  unfold get at hget ⊢
  rw [hget]
  cases d.amounts.get? name with
  | none => exact (add_zero _).symm
  | some amount => rfl

/-- A sum names what its parts name. -/
theorem mem_keys_add : name ∈ (r.add d).amounts.keys ↔
    name ∈ r.amounts.keys ∨ name ∈ d.amounts.keys := by
  rw [Table.mem_keys_iff, Table.mem_keys_iff, Table.mem_keys_iff, get?_add]
  cases d.amounts.get? name <;> simp

theorem get_foldl_add (r : Resources ℚ) (ds : List (Resources ℚ)) (name : String) :
    (ds.foldl add r).get name = r.get name + (ds.map (·.get name)).sum := by
  induction ds generalizing r with
  | nil => exact (add_zero _).symm
  | cons d ds ih => rw [List.foldl_cons, ih, get_add, List.map_cons, List.sum_cons, add_assoc]

theorem mem_keys_foldl_add : name ∈ (ds.foldl add r).amounts.keys ↔
    name ∈ r.amounts.keys ∨ ∃ d ∈ ds, name ∈ d.amounts.keys := by
  induction ds generalizing r with
  | nil => simp
  | cons d ds ih => rw [List.foldl_cons, ih, mem_keys_add, List.exists_mem_cons_iff, or_assoc]

theorem mem_toList_iff : (name, amount) ∈ r.toList ↔
    name ∈ r.amounts.keys ∧ amount = r.get name := by
  unfold toList
  rw [← Table.get?_eq_some_iff, Table.mem_keys_iff, get]
  cases r.amounts.get? name with
  | none => simp
  | some x => simp [eq_comm]

/-- The sum of vectors names what one of them names, with the sum of its amounts in all. -/
theorem mem_foldl_add_iff : (name, amount) ∈ (ds.foldl add ∅).toList ↔
    (∃ d ∈ ds, name ∈ d.amounts.keys) ∧ amount = (ds.map (·.get name)).sum := by
  have hzero : (∅ : Resources ℚ).get name = 0 := rfl
  have hnone : name ∉ (∅ : Resources ℚ).amounts.keys := List.not_mem_nil
  rw [mem_toList_iff, mem_keys_foldl_add, get_foldl_add, hzero, zero_add, or_iff_right hnone]

/-- Vectors have one sum in whatever order they are added. -/
theorem foldl_add_eq_of_perm (h : ds.Perm ds') : ds.foldl add ∅ = ds'.foldl add ∅ := by
  have hamounts : (ds.foldl add ∅).amounts = (ds'.foldl add ∅).amounts := by
    refine Table.ext_get? fun name => Table.get?_congr fun amount => ?_
    have hmem : (name, amount) ∈ (ds.foldl add ∅).toList ↔ _ := mem_foldl_add_iff
    rw [(h.map _).sum_eq, exists_congr fun d => and_congr_left' h.mem_iff] at hmem
    exact hmem.trans mem_foldl_add_iff.symm
  exact congrArg Resources.mk hamounts

theorem clampUnit_mem (x : ℚ) : 0 ≤ Amount.clampUnit x ∧ Amount.clampUnit x ≤ 1 := by
  have hclamp : Amount.clampUnit x = if x < 0 then 0 else if 1 < x then 1 else x := by
    simp only [Amount.clampUnit, Amount.lt, Amount.zero, Amount.one, decide_eq_true_eq]
  rw [hclamp]
  split
  · exact ⟨le_refl 0, zero_le_one⟩
  · split
    · exact ⟨zero_le_one, le_refl 1⟩
    · next hnonneg hle => exact ⟨not_lt.mp hnonneg, not_lt.mp hle⟩

/-- A fraction lies between zero and one, whatever the amounts are. -/
theorem maxFractionOf_mem (used total : Resources ℚ) :
    0 ≤ used.maxFractionOf total ∧ used.maxFractionOf total ≤ 1 := by
  unfold maxFractionOf
  apply List.foldlRecOn (motive := fun best : ℚ => 0 ≤ best ∧ best ≤ 1)
  · exact ⟨le_refl 0, zero_le_one⟩
  · intro best hbest e _
    unfold Amount.max
    split
    · exact clampUnit_mem _
    · exact hbest

end Resources

namespace LoadStore

section Records

variable {α : Type} [Amount α]

/-- The records of the nodes that are not listed as stale. -/
def freshLoads (s : LoadStore α) (now : Nat) : List (NodeLoad α) :=
  (s.records.entries.filter fun e => e.1 ∉ s.staleNodes now).map (·.2)

/-- The usage, counted in some order of the records. -/
def usageIn (s : LoadStore α) (now : Nat) (order : List (NodeId × NodeLoad α)) : ResourceUsage α :=
  let fresh := order.filter (fun e => !s.isStale e.1 now)
  let u := fresh.foldl (fun u e => addUsage u e.2) noUsage
  if 0 < u.nodeCount then
    { u with utilizationFraction := u.nodesUsed / Amount.ofNat u.nodeCount }
  else u

/-- The sums over some records. -/
def counted (loads : List (NodeLoad α)) : ResourceUsage α := loads.foldl addUsage noUsage

variable {s : LoadStore α} {id : NodeId} {now : Nat}

omit [Amount α] in
/-- A node is listed as stale exactly if it is: to be silent for longer than the timeout is to be last
heard before the time that lies the timeout back. -/
theorem mem_staleNodes_iff : id ∈ s.staleNodes now ↔ s.isStale id now = true := by
  unfold staleNodes lastHeardBefore
  rw [Table.mem_keys_iff, Table.get?_filter, isStale_eq_true_iff]
  change ((s.get? id).filter _).isSome = true ↔ _
  cases s.get? id with
  | none => simp
  | some l =>
    have hboundary : l.lastHeartbeat < now - s.heartbeatTimeout ↔
        s.heartbeatTimeout < now - l.lastHeartbeat := by omega
    rw [Option.isSome_filter]
    simp [hboundary]

theorem nodeCount_counted (loads : List (NodeLoad α)) :
    (counted loads).nodeCount = loads.length := by
  have hfold : ∀ u : ResourceUsage α, (loads.foldl addUsage u).nodeCount =
      u.nodeCount + loads.length := by
    induction loads with
    | nil => exact fun u => rfl
    | cons l loads ih =>
      intro u
      have hone : (addUsage u l).nodeCount = u.nodeCount + 1 := rfl
      rw [List.foldl_cons, ih, List.length_cons, hone]
      omega
  exact (hfold noUsage).trans (Nat.zero_add _)

theorem usedByResource_counted (loads : List (NodeLoad α)) :
    (counted loads).usedByResource = (loads.map (·.used)).foldl Resources.add ∅ := by
  rw [List.foldl_map]
  exact (List.foldl_hom ResourceUsage.usedByResource fun _ _ => rfl).symm

theorem availableByResource_counted (loads : List (NodeLoad α)) :
    (counted loads).availableByResource = (loads.map (·.available)).foldl Resources.add ∅ := by
  rw [List.foldl_map]
  exact (List.foldl_hom ResourceUsage.availableByResource fun _ _ => rfl).symm

omit [Amount α] in
/-- Every record counts or is that of a node listed as stale. -/
theorem length_freshLoads_add (s : LoadStore α) (now : Nat) :
    (s.freshLoads now).length + (s.staleNodes now).length = s.size := by
  have hlisted : ∀ e ∈ s.records.entries, decide (e.1 ∈ s.staleNodes now) =
      decide (e.2.lastHeartbeat < now - s.heartbeatTimeout) := by
    intro e he
    have hget : s.get? e.1 = some e.2 := Table.get?_eq_some_iff.mpr he
    rw [decide_eq_decide, mem_staleNodes_iff, isStale_eq_true_iff, hget]
    simp only [Option.some.injEq, exists_eq_left']
    omega
  have hstale : (s.staleNodes now).length =
      (s.records.entries.filter fun e => e.1 ∈ s.staleNodes now).length := by
    rw [List.filter_congr hlisted]
    exact List.length_map _
  have hsplit := List.length_eq_length_filter_add (l := s.records.entries)
    fun e => decide (e.1 ∈ s.staleNodes now)
  unfold freshLoads size Table.size
  rw [List.length_map, hstale, hsplit, Nat.add_comm]
  simp only [decide_not]

omit [Amount α] in
/-- The nodes that are counted are those that are not listed. -/
theorem freshLoads_eq (s : LoadStore α) (now : Nat) :
    s.freshLoads now = (s.records.entries.filter fun e => !s.isStale e.1 now).map (·.2) := by
  have hfresh : ∀ e : NodeId × NodeLoad α, decide (e.1 ∉ s.staleNodes now) = !s.isStale e.1 now := by
    intro e
    rw [decide_not, Bool.not_inj_iff, Bool.eq_iff_iff, decide_eq_true_iff]
    exact mem_staleNodes_iff
  unfold freshLoads
  simp only [hfresh]

/-- The usage is that of the records which count, in their order. -/
theorem usageIn_eq {order : List (NodeId × NodeLoad α)} {loads : List (NodeLoad α)}
    (h : (order.filter (fun e => !s.isStale e.1 now)).map (·.2) = loads) :
    s.usageIn now order =
      if 0 < loads.length then
        { counted loads with
          utilizationFraction := (counted loads).nodesUsed / Amount.ofNat loads.length }
      else counted loads := by
  have hcounted : counted loads = (order.filter (fun e => !s.isStale e.1 now)).foldl
      (fun u e => addUsage u e.2) noUsage := by
    rw [← h, counted, List.foldl_map]
  unfold usageIn
  dsimp only
  rw [← hcounted, nodeCount_counted]

theorem usageIn_entries (s : LoadStore α) (now : Nat) :
    s.usageIn now s.records.entries = s.usage now := rfl

/-- All but the fraction is summed up over the records that count. -/
theorem usage_eq_counted (s : LoadStore α) (now : Nat) :
    { s.usage now with
      utilizationFraction := (counted (s.freshLoads now)).utilizationFraction } =
        counted (s.freshLoads now) := by
  rw [← usageIn_entries, usageIn_eq (s.freshLoads_eq now).symm]
  split <;> rfl

theorem nodeCount_usage (s : LoadStore α) (now : Nat) :
    (s.usage now).nodeCount = (s.freshLoads now).length := by
  rw [← nodeCount_counted, ← usage_eq_counted]

end Records

section Exact

variable {s : LoadStore ℚ} {now : Nat} {loads loads' : List (NodeLoad ℚ)}

theorem nodesUsed_counted (loads : List (NodeLoad ℚ)) :
    (counted loads).nodesUsed = (loads.map NodeLoad.utilization).sum := by
  have hfold : (counted loads).nodesUsed = (loads.map NodeLoad.utilization).foldl (· + ·) 0 := by
    rw [List.foldl_map]
    exact (List.foldl_hom ResourceUsage.nodesUsed fun _ _ => rfl).symm
  rw [hfold, List.sum_eq_foldl]

theorem utilizationFraction_counted (loads : List (NodeLoad ℚ)) :
    (counted loads).utilizationFraction = 0 :=
  List.foldlRecOn loads addUsage (motive := fun u : ResourceUsage ℚ => u.utilizationFraction = 0)
    rfl fun _ hu _ _ => hu

/-- Records have one sum in whatever order they are counted. -/
theorem counted_eq_of_perm (h : loads.Perm loads') : counted loads = counted loads' := by
  have hused := Resources.foldl_add_eq_of_perm (h.map (·.used))
  have havailable := Resources.foldl_add_eq_of_perm (h.map (·.available))
  have hnodes := (h.map NodeLoad.utilization).sum_eq
  rw [← usedByResource_counted, ← usedByResource_counted] at hused
  rw [← availableByResource_counted, ← availableByResource_counted] at havailable
  rw [← nodesUsed_counted, ← nodesUsed_counted] at hnodes
  have hcount : (counted loads).nodeCount = (counted loads').nodeCount := by
    rw [nodeCount_counted, nodeCount_counted, h.length_eq]
  calc counted loads
      = ⟨(counted loads).utilizationFraction, (counted loads).nodesUsed, (counted loads).nodeCount,
          (counted loads).usedByResource, (counted loads).availableByResource⟩ := rfl
    _ = counted loads' := by
        rw [hused, havailable, hnodes, hcount, utilizationFraction_counted,
          ← utilizationFraction_counted loads']

/-- Of so many nodes no more are used. -/
theorem nodesUsed_counted_mem (loads : List (NodeLoad ℚ)) :
    0 ≤ (counted loads).nodesUsed ∧ (counted loads).nodesUsed ≤ loads.length := by
  have hunit : ∀ x ∈ loads.map NodeLoad.utilization, 0 ≤ x ∧ x ≤ 1 := by
    intro x hx
    obtain ⟨l, -, rfl⟩ := List.mem_map.mp hx
    exact Resources.maxFractionOf_mem _ _
  rw [nodesUsed_counted]
  refine ⟨List.sum_nonneg fun x hx => (hunit x hx).1, ?_⟩
  have hle := List.sum_le_card_nsmul _ 1 fun x hx => (hunit x hx).2
  rwa [List.length_map, nsmul_one] at hle

/-- The fraction is that of the counted nodes which are used. -/
theorem utilizationFraction_usage_mem (s : LoadStore ℚ) (now : Nat) :
    0 ≤ (s.usage now).utilizationFraction ∧ (s.usage now).utilizationFraction ≤ 1 := by
  obtain ⟨hnonneg, hle⟩ := nodesUsed_counted_mem (s.freshLoads now)
  rw [← usageIn_entries, usageIn_eq (s.freshLoads_eq now).symm]
  split
  · exact ⟨div_nonneg hnonneg (Nat.cast_nonneg _), div_le_one_of_le₀ hle (Nat.cast_nonneg _)⟩
  · rw [utilizationFraction_counted]
    exact ⟨le_refl 0, zero_le_one⟩

end Exact

/-- A node is listed as stale exactly if it is, and the count is that of the records less that of the
stale nodes. In exact amounts the sums are those over the other nodes, resource by resource, and the
same in whatever order the records are met; no more nodes are used than are counted, and the fraction
of them lies between zero and one. -/
theorem usage_partitions {α : Type} [Amount α] (s : LoadStore α) (q : LoadStore ℚ) (now : Nat) :
    (∀ id, id ∈ s.staleNodes now ↔ s.isStale id now = true) ∧
    (s.usage now).nodeCount + (s.staleNodes now).length = s.size ∧
    (∀ order, order.Perm q.records.entries → q.usageIn now order = q.usage now) ∧
    (∀ name amount, (name, amount) ∈ (q.usage now).usedByResource.toList ↔
      (∃ l ∈ q.freshLoads now, name ∈ l.used.amounts.keys) ∧
        amount = ((q.freshLoads now).map fun l => l.used.get name).sum) ∧
    (∀ name amount, (name, amount) ∈ (q.usage now).availableByResource.toList ↔
      (∃ l ∈ q.freshLoads now, name ∈ l.available.amounts.keys) ∧
        amount = ((q.freshLoads now).map fun l => l.available.get name).sum) ∧
    0 ≤ (q.usage now).nodesUsed ∧ (q.usage now).nodesUsed ≤ (q.usage now).nodeCount ∧
    0 ≤ (q.usage now).utilizationFraction ∧ (q.usage now).utilizationFraction ≤ 1 := by
  have hcounted := q.usage_eq_counted now
  have hused : (q.usage now).usedByResource =
      ((q.freshLoads now).map (·.used)).foldl Resources.add ∅ := by
    rw [← usedByResource_counted, ← hcounted]
  have havailable : (q.usage now).availableByResource =
      ((q.freshLoads now).map (·.available)).foldl Resources.add ∅ := by
    rw [← availableByResource_counted, ← hcounted]
  have hnodes : (q.usage now).nodesUsed = (counted (q.freshLoads now)).nodesUsed := by
    rw [← hcounted]
  refine ⟨fun id => mem_staleNodes_iff, ?_, fun order horder => ?_, fun name amount => ?_,
    fun name amount => ?_, ?_, ?_, q.utilizationFraction_usage_mem now⟩
  · rw [nodeCount_usage, length_freshLoads_add]
  · have hloads := (horder.filter fun e => !q.isStale e.1 now).map (·.2)
    rw [← usageIn_entries, usageIn_eq rfl, usageIn_eq rfl, counted_eq_of_perm hloads,
      hloads.length_eq]
  · rw [hused, Resources.mem_foldl_add_iff, List.map_map]
    simp only [List.mem_map, exists_exists_and_eq_and, Function.comp_def]
  · rw [havailable, Resources.mem_foldl_add_iff, List.map_map]
    simp only [List.mem_map, exists_exists_and_eq_and, Function.comp_def]
  · rw [hnodes]
    exact (nodesUsed_counted_mem _).1
  · rw [hnodes, nodeCount_usage]
    exact (nodesUsed_counted_mem _).2

/-- Three nodes, the second of which has been silent for too long at 100. The third one's clock is
ahead. -/
def oneSilent : LoadStore ℚ where
  heartbeatTimeout := 30
  records := .ofList
    [(⟨"a"⟩, ⟨.ofList [("CPU", 1)], .ofList [("CPU", 3)], 70, 70⟩),
      (⟨"b"⟩, ⟨.ofList [("CPU", 2)], .ofList [("CPU", 2)], 69, 69⟩),
      (⟨"c"⟩, ⟨.ofList [("CPU", 1), ("GPU", 1)], .ofList [("GPU", 1)], 120, 120⟩)]

/-- Two nodes are counted, met from the last one to the first as well, and two CPUs in use. -/
theorem usage_partitions_oneSilent :
    oneSilent.records.entries.reverse.Perm oneSilent.records.entries ∧
    oneSilent.usageIn 100 oneSilent.records.entries.reverse = oneSilent.usage 100 ∧
    (⟨"b"⟩ : NodeId) ∈ oneSilent.staleNodes 100 ∧ (oneSilent.usage 100).nodeCount = 2 ∧
    ("CPU", 2) ∈ (oneSilent.usage 100).usedByResource.toList ∧
    (oneSilent.usage 100).utilizationFraction ≤ 1 := by
  have hperm := List.reverse_perm oneSilent.records.entries
  obtain ⟨hstale, hcount, horder, hused, -, -, -, -, hfraction⟩ :=
    usage_partitions oneSilent oneSilent 100
  have hsilent : (oneSilent.staleNodes 100).length = 1 ∧ oneSilent.size = 3 := by decide +kernel
  refine ⟨hperm, horder _ hperm, (hstale _).mpr (by decide +kernel), ?_, ?_, hfraction⟩
  · omega
  · exact (hused "CPU" 2).mpr (by decide +kernel)

end LoadStore

end ClusterScaler
