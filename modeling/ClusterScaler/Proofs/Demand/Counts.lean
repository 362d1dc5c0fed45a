import ClusterScaler.Demand.Targets
import ClusterScaler.Proofs.Table.Lookup

/-!
# The counts behind a target

A packing neither adds nor loses a bin, so the busy nodes of a type are among those that it needs.
Added nodes stay within the maximum of their type. From these counts the target of a type is
compared with its live, planned and added nodes.
-/

set_option autoImplicit false

namespace ClusterScaler

variable {α : Type} [Amount α]

theorem placeFirst?_length {bundle : Resources α} {bins bins' : List (Bin α)}
    (h : placeFirst? bundle bins = some bins') : bins'.length = bins.length := by
  induction bins generalizing bins' with
  | nil => cases h
  | cons b rest ih =>
    unfold placeFirst? at h
    split at h
    · cases h
      rfl
    · rw [Option.map_eq_some_iff] at h
      obtain ⟨rest', hrest, rfl⟩ := h
      have hlen := ih hrest
      simp only [List.length_cons]
      omega

/-- A packing has as many bins as it started with. -/
theorem packInto_bins_length (bins : List (Bin α)) (demands : List (Resources α)) :
    (packInto bins demands).bins.length = bins.length := by
  induction demands generalizing bins with
  | nil => rfl
  | cons bundle rest ih =>
    unfold packInto
    split
    · next bins' hplaced =>
      have hlen := placeFirst?_length hplaced
      have hrest := ih bins'
      omega
    · exact ih bins

theorem pack_used_length (capacities demands : List (Resources α)) :
    (pack capacities demands).used.length = capacities.length := by
  unfold pack Packing.used
  rw [List.length_map, packInto_bins_length, List.length_map]

omit [Amount α] in
theorem packingOrder_perm (nodes : List (NodeCapacity α)) :
    (packingOrder nodes).Perm nodes := by
  have h := List.filter_append_perm (fun n : NodeCapacity α => !n.idle) nodes
  simp only [Bool.not_not] at h
  exact h

theorem planDemand_absorbed_fst (types : Table String (TypeLimits α))
    (nodes : List (NodeCapacity α)) (demand : Demand α) :
    (planDemand types nodes demand).absorbed.map (·.1) = packingOrder nodes := by
  unfold planDemand
  dsimp only
  rw [List.map_fst_zip]
  rw [pack_used_length, List.length_append, List.length_map]
  omega

variable {types : Table String (TypeLimits α)} {nodes : List (NodeCapacity α)}
  {demand : Demand α} {name : String} {limits : TypeLimits α}

theorem countP_busy_le_needed :
    nodes.countP (fun n => n.nodeType == name && !n.idle) ≤
      (planDemand types nodes demand).needed name := by
  rw [← (packingOrder_perm nodes).countP_eq,
    ← planDemand_absorbed_fst types nodes demand, List.countP_map]
  unfold DemandPlan.needed
  apply List.countP_mono_left
  rintro ⟨n, took⟩ - hbusy
  simp only [Function.comp_apply, Bool.and_eq_true] at hbusy
  simp [hbusy.1, hbusy.2]

omit [Amount α] in
theorem countOf_upsert {t : Table String Nat} {key : String} {f : Nat → Nat} :
    countOf (t.upsert key 0 f) name =
      if name = key then f (countOf t key) else countOf t name := by
  unfold countOf
  rw [Table.get?_upsert]
  split <;> rfl

omit [Amount α] in
theorem countOf_liveCounts (h : types.get? name = some limits) :
    countOf (liveCounts types nodes) name = nodes.countP (·.nodeType == name) := by
  have hfold : ∀ (rest : List (NodeCapacity α)) (t : Table String Nat),
      countOf (rest.foldl (fun t n =>
          if types.contains n.nodeType then t.upsert n.nodeType 0 (· + 1) else t) t) name =
        countOf t name + rest.countP (·.nodeType == name) := by
    intro rest
    induction rest with
    | nil => exact fun t => rfl
    | cons n rest ih =>
      intro t
      rw [List.foldl_cons, ih, List.countP_cons]
      by_cases hn : n.nodeType = name
      · subst hn
        have hconfigured : types.contains n.nodeType = true := by
          unfold Table.contains
          rw [h]
          rfl
        rw [if_pos hconfigured, countOf_upsert, if_pos rfl]
        simp only [beq_self_eq_true, if_true]
        omega
      · have hother : (if types.contains n.nodeType then t.upsert n.nodeType 0 (· + 1) else t).get?
            name = t.get? name := by
          split
          · rw [Table.get?_upsert, if_neg (fun heq => hn heq.symm)]
          · rfl
        have hcount : countOf (if types.contains n.nodeType then t.upsert n.nodeType 0 (· + 1)
            else t) name = countOf t name := by
          unfold countOf
          rw [hother]
        rw [hcount]
        simp [hn]
  have hempty : countOf ∅ name = 0 := rfl
  unfold liveCounts
  rw [hfold, hempty, Nat.zero_add]

omit [Amount α] in
/-- The planned nodes of a configured type are those that it lacks to its minimum. -/
theorem countOf_plannedCounts (h : types.get? name = some limits) (counts : Table String Nat) :
    countOf (plannedCounts types counts) name = limits.minWorkers - countOf counts name := by
  unfold plannedCounts
  rw [countOf, Table.get?_filter, Table.get?_mapValues, h]
  by_cases hlacks : 0 < limits.minWorkers - countOf counts name
  · simp [Option.filter, hlacks]
  · simp [Option.filter, hlacks]
    omega

omit [Amount α] in
/-- Adding a table of counts to another one adds the counts of every key. -/
theorem countOf_foldl_upsert (planned counts : Table String Nat) :
    countOf (planned.entries.foldl (fun t e => t.upsert e.1 0 (· + e.2)) counts) name =
      countOf counts name + countOf planned name := by
  unfold countOf
  rw [Table.get?_foldl_upsert]
  cases planned.get? name with
  | none => rfl
  | some n => rfl

theorem bestCandidate_mem {cs : List (String × TypeLimits α × Score α)}
    {best : String × TypeLimits α × Score α} (h : bestCandidate cs = some best) : best ∈ cs := by
  cases cs with
  | nil => cases h
  | cons c rest =>
    have hfold : ∀ (rest : List (String × TypeLimits α × Score α))
        (first : String × TypeLimits α × Score α),
        rest.foldl (fun best c => if c.2.2.beats best.2.2 then c else best) first ∈
          first :: rest := by
      intro rest
      induction rest with
      | nil => exact fun first => List.mem_cons_self
      | cons d rest ih =>
        intro first
        rw [List.foldl_cons]
        have hmem := ih (if d.2.2.beats first.2.2 then d else first)
        rw [List.mem_cons] at hmem
        rcases hmem with heq | hrest
        · rw [heq]
          split
          · exact List.mem_cons_of_mem _ List.mem_cons_self
          · exact List.mem_cons_self
        · exact List.mem_cons_of_mem _ (List.mem_cons_of_mem _ hrest)
    have hbest : rest.foldl (fun best c => if c.2.2.beats best.2.2 then c else best) c = best :=
      Option.some.inj h
    rw [← hbest]
    exact hfold rest c

/-- A candidate is a configured type below its maximum. -/
theorem mem_growthCandidates {existing added : Table String Nat}
    {residual : List (Resources α)} {c : String × TypeLimits α × Score α}
    (h : c ∈ growthCandidates types existing added residual) :
    types.get? c.1 = some c.2.1 ∧
      countOf existing c.1 + countOf added c.1 < c.2.1.maxWorkers := by
  unfold growthCandidates at h
  rw [List.mem_filterMap] at h
  obtain ⟨⟨name, limits⟩, hmem, hscored⟩ := h
  dsimp only at hscored
  split at hscored
  · cases hscored
  · next hroom =>
    rw [Option.map_eq_some_iff] at hscored
    obtain ⟨score, -, rfl⟩ := hscored
    exact ⟨Table.get?_eq_some_iff.mpr hmem, Nat.lt_of_not_le hroom⟩

/-- Growing leaves the count of a type as it is, or within the maximum of the type. -/
theorem countOf_grow (types : Table String (TypeLimits α)) (existing added : Table String Nat)
    (residual : List (Resources α)) (name : String) :
    countOf (grow types existing added residual) name = countOf added name ∨
      ∃ limits, types.get? name = some limits ∧
        countOf existing name + countOf (grow types existing added residual) name ≤
          limits.maxWorkers := by
  -- one more node of the chosen type
  have hround : ∀ {added : Table String Nat} {residual : List (Resources α)} {chosen : String}
      {limits : TypeLimits α} {score : Score α},
      bestCandidate (growthCandidates types existing added residual) =
        some (chosen, limits, score) →
      countOf (added.upsert chosen 0 (· + 1)) name = countOf added name ∨
        ∃ limits, types.get? name = some limits ∧
          countOf existing name + countOf (added.upsert chosen 0 (· + 1)) name ≤
            limits.maxWorkers := by
    intro added residual chosen limits score hbest
    obtain ⟨hconfigured, hroom⟩ := mem_growthCandidates (bestCandidate_mem hbest)
    rw [countOf_upsert]
    split
    · next heq =>
      subst heq
      exact .inr ⟨limits, hconfigured, hroom⟩
    · exact .inl rfl
  fun_induction grow types existing added residual with
  | case1 added residual hempty => exact .inl rfl
  | case2 added residual hempty hnone => exact .inl rfl
  | case3 added residual hempty chosen limits score hbest added' rest hshorter ih =>
    rcases ih with heq | hbound
    · rw [heq]
      exact hround hbest
    · exact .inr hbound
  | case4 added residual hempty chosen limits score hbest added' rest hshorter =>
    exact hround hbest

/-- Added nodes stay within the maximum of their type. -/
theorem countOf_newInstances (h : types.get? name = some limits) (existing : Table String Nat)
    (demands : List (Resources α)) :
    countOf (newInstances types existing demands) name = 0 ∨
      countOf existing name + countOf (newInstances types existing demands) name ≤
        limits.maxWorkers := by
  unfold newInstances
  rcases countOf_grow types existing ∅
    (demands.filter (fun bundle => types.values.any (fun t => t.resources.fits bundle))) name with
    heq | ⟨limits', hlimits, hbound⟩
  · exact .inl heq
  · rw [h] at hlimits
    cases hlimits
    exact .inr hbound

theorem countOf_planned (h : types.get? name = some limits) :
    countOf (planDemand types nodes demand).planned name =
      limits.minWorkers - nodes.countP (·.nodeType == name) := by
  have hplanned := countOf_plannedCounts h (liveCounts types nodes)
  rw [countOf_liveCounts h] at hplanned
  exact hplanned

/-- With the added nodes the live and planned ones of a type stay within its maximum. -/
theorem countOf_additions (h : types.get? name = some limits) :
    countOf (planDemand types nodes demand).additions name = 0 ∨
      nodes.countP (·.nodeType == name) + countOf (planDemand types nodes demand).planned name +
          countOf (planDemand types nodes demand).additions name ≤ limits.maxWorkers := by
  unfold planDemand
  dsimp only
  rw [← countOf_liveCounts h, ← countOf_foldl_upsert]
  exact countOf_newInstances h _ _

theorem computeTargets_get? (h : types.get? name = some limits) (fraction : α) :
    (computeTargets types nodes demand fraction).get? name =
      some ((planDemand types nodes demand).target nodes fraction name limits) := by
  unfold computeTargets
  rw [Table.get?_mapValues, h]
  rfl

/-- The target of a type leaves room for its busy nodes, as far as its maximum does. -/
theorem busy_le_target (types : Table String (TypeLimits α)) (nodes : List (NodeCapacity α))
    (demand : Demand α) (fraction : α) (name : String) (limits : TypeLimits α) :
    min (nodes.countP (fun n => n.nodeType == name && !n.idle)) limits.maxWorkers ≤
      (planDemand types nodes demand).target nodes fraction name limits := by
  have hneeded : nodes.countP (fun n => n.nodeType == name && !n.idle) ≤
      (planDemand types nodes demand).needed name := countP_busy_le_needed
  unfold DemandPlan.target
  dsimp only
  omega

theorem DemandPlan.minWorkers_le_target (p : DemandPlan α) (fraction : α) (name : String)
    (hlimits : limits.minWorkers ≤ limits.maxWorkers) :
    limits.minWorkers ≤ p.target nodes fraction name limits := by
  unfold target
  dsimp only
  omega

/-- If the minimum of a type is met, `live` nodes reach its target exactly if they reach its maximum,
or cover what the demand and the utilization call for. -/
theorem target_le_iff (h : types.get? name = some limits) (fraction : α) {live : Nat}
    (hmin : limits.minWorkers ≤ live) (hlive : live ≤ nodes.countP (·.nodeType == name)) :
    (planDemand types nodes demand).target nodes fraction name limits ≤ live ↔
      limits.maxWorkers ≤ live ∨
        (planDemand types nodes demand).needed name +
            countOf (planDemand types nodes demand).additions name ≤ live ∧
          idealCount nodes fraction name ≤ live := by
  have hplanned : countOf (planDemand types nodes demand).planned name =
      limits.minWorkers - nodes.countP (·.nodeType == name) := countOf_planned h
  unfold DemandPlan.target
  dsimp only
  omega

/-- With `live` nodes of a type at hand, its target asks for all planned and added ones on top unless
some are added, some live ones are not needed, and neither the utilization nor the minimum calls for
as many. -/
theorem le_target_sub_iff (h : types.get? name = some limits)
    (hlimits : limits.minWorkers ≤ limits.maxWorkers) (fraction : α) {live : Nat}
    (hlive : live ≤ nodes.countP (·.nodeType == name)) :
    countOf (planDemand types nodes demand).planned name +
          countOf (planDemand types nodes demand).additions name ≤
        (planDemand types nodes demand).target nodes fraction name limits - live ↔
      countOf (planDemand types nodes demand).additions name = 0 ∨
        live ≤ (planDemand types nodes demand).needed name ∨
          live + countOf (planDemand types nodes demand).planned name +
              countOf (planDemand types nodes demand).additions name ≤
            max (idealCount nodes fraction name) limits.minWorkers := by
  have hplanned : countOf (planDemand types nodes demand).planned name =
      limits.minWorkers - nodes.countP (·.nodeType == name) := countOf_planned h
  have hadditions : countOf (planDemand types nodes demand).additions name = 0 ∨
      nodes.countP (·.nodeType == name) + countOf (planDemand types nodes demand).planned name +
        countOf (planDemand types nodes demand).additions name ≤ limits.maxWorkers :=
    countOf_additions h
  unfold DemandPlan.target
  dsimp only
  omega

end ClusterScaler
