import ClusterScaler.Proofs.Demand.Rounds
import ClusterScaler.Proofs.Table.Reading

/-!
# Counting in 32 bits

The counts behind a target are 32-bit numbers. Here planning is repeated with additions that fail
where the sum is no 32-bit number, each at the place where planning adds. No addition fails: the live
nodes of a type are counted one by one, its planned nodes fill them up to the minimum at most, and a
node is added only below the maximum. So the checked planning finds the targets that planning finds.
-/

set_option autoImplicit false

namespace ClusterScaler

/-- The sum of two counts, `none` where it does not fit 32 bits. -/
def addCounts? (a b : Nat) : Option Nat := if a + b ≤ maxCount then some (a + b) else none

/-- Add to a count of a table. -/
def addTo? (t : Table String Nat) (name : String) (n : Nat) : Option (Table String Nat) :=
  (addCounts? (countOf t name) n).map (t.insert name)

section Checked

variable {α : Type} [Amount α]

/-- `liveCounts` with checked additions. -/
def liveCounts? (types : Table String (TypeLimits α)) (nodes : List (NodeCapacity α)) :
    Option (Table String Nat) :=
  nodes.foldlM (fun t n => if types.contains n.nodeType then addTo? t n.nodeType 1 else some t) ∅

/-- Planned nodes on top of the live ones, with checked additions. -/
def addAll? (planned counts : Table String Nat) : Option (Table String Nat) :=
  planned.entries.foldlM (fun t e => addTo? t e.1 e.2) counts

/-- `growthCandidates` with checked additions, one for every type. -/
def growthCandidates? (types : Table String (TypeLimits α)) (existing added : Table String Nat)
    (residual : List (Resources α)) : Option (List (String × TypeLimits α × Score α)) := do
  let candidates ← types.entries.mapM (fun (name, limits) =>
    (addCounts? (countOf existing name) (countOf added name)).map (fun count =>
      if limits.maxWorkers ≤ count then none
      else (utilizationScore limits.resources residual).map (fun s => (name, limits, s))))
  return candidates.filterMap id

/-- `grow` with checked additions. -/
def grow? (types : Table String (TypeLimits α)) (existing added : Table String Nat)
    (residual : List (Resources α)) : Option (Table String Nat) :=
  if residual.isEmpty then some added
  else
    match growthCandidates? types existing added residual with
    | none => none
    | some candidates =>
      match bestCandidate candidates with
      | none => some added
      | some (name, limits, _) =>
        match addTo? added name 1 with
        | none => none
        | some added =>
          let rest := (pack [limits.resources] residual).residual
          if rest.length < residual.length then grow? types existing added rest else some added
termination_by residual.length

/-- `newInstances` with checked additions. -/
def newInstances? (types : Table String (TypeLimits α)) (existing : Table String Nat)
    (demands : List (Resources α)) : Option (Table String Nat) :=
  grow? types existing ∅
    (demands.filter (fun bundle => types.values.any (fun t => t.resources.fits bundle)))

/-- `planDemand` with checked additions. -/
def planDemand? (types : Table String (TypeLimits α)) (nodes : List (NodeCapacity α))
    (demand : Demand α) : Option (DemandPlan α) := do
  let counts ← liveCounts? types nodes
  let planned := plannedCounts types counts
  let ordered := packingOrder nodes
  let packing := pack (ordered.map (·.available) ++ plannedCapacities types planned)
    (demand.filter (fun b => !b.isZero))
  let known ← addAll? planned counts
  let additions ← newInstances? types known packing.residual
  return { planned, additions, absorbed := ordered.zip packing.used }

/-- `DemandPlan.needed` with checked additions. -/
def DemandPlan.needed? (p : DemandPlan α) (name : String) : Option Nat :=
  p.absorbed.foldlM (fun needed (n, took) =>
    if n.nodeType == name && (!n.idle || took) then addCounts? needed 1 else some needed) 0

/-- `DemandPlan.target` with checked additions. -/
def DemandPlan.target? (p : DemandPlan α) (nodes : List (NodeCapacity α)) (fraction : α)
    (name : String) (limits : TypeLimits α) : Option Nat := do
  let needed ← p.needed? name
  let withPlanned ← addCounts? needed (countOf p.planned name)
  let wanted ← addCounts? withPlanned (countOf p.additions name)
  return min (max (max wanted (idealCount nodes fraction name)) limits.minWorkers)
    limits.maxWorkers

/-- `computeTargets` with checked additions. -/
def computeTargets? (types : Table String (TypeLimits α)) (nodes : List (NodeCapacity α))
    (demand : Demand α) (fraction : α) : Option (Table String Nat) := do
  let plan ← planDemand? types nodes demand
  let targets ← types.entries.mapM (fun e =>
    (plan.target? nodes fraction e.1 e.2).map (fun target => (e.1, target)))
  return .ofList targets

end Checked

section Lists

variable {σ ι : Type}

/-- A checked fold is the fold if an invariant keeps every step from failing. -/
theorem foldlM_eq_some_foldl {step? : σ → ι → Option σ} {step : σ → ι → σ}
    (Inv : σ → List ι → Prop)
    (hstep : ∀ s x rest, Inv s (x :: rest) →
      step? s x = some (step s x) ∧ Inv (step s x) rest)
    (items : List ι) (s : σ) (h : Inv s items) :
    items.foldlM step? s = some (items.foldl step s) := by
  induction items generalizing s with
  | nil => rfl
  | cons x rest ih =>
    obtain ⟨hx, hrest⟩ := hstep s x rest h
    rw [List.foldlM_cons, hx, List.foldl_cons]
    exact ih _ hrest

end Lists

theorem addCounts?_eq_some {a b : Nat} (h : a + b ≤ maxCount) :
    addCounts? a b = some (a + b) := if_pos h

theorem addTo?_eq_some {t : Table String Nat} {name : String} {n : Nat}
    (h : countOf t name + n ≤ maxCount) : addTo? t name n = some (t.upsert name 0 (· + n)) := by
  rw [addTo?, addCounts?_eq_some h]
  rfl

variable {α : Type} [Amount α] {types : Table String (TypeLimits α)}
  {nodes : List (NodeCapacity α)} {demand : Demand α}

omit [Amount α] in
/-- Counting up to as many nodes as a 32-bit number counts does not fail. -/
theorem liveCounts?_eq_some (types : Table String (TypeLimits α))
    (h : nodes.length ≤ maxCount) : liveCounts? types nodes = some (liveCounts types nodes) := by
  refine foldlM_eq_some_foldl
    (fun t rest => ∀ name, countOf t name + rest.length ≤ maxCount) ?_ nodes ∅ fun name => ?_
  · intro t n rest hroom
    simp only [List.length_cons] at hroom
    by_cases hconfigured : types.contains n.nodeType = true
    · have hn := hroom n.nodeType
      rw [if_pos hconfigured, if_pos hconfigured, addTo?_eq_some (by omega)]
      refine ⟨rfl, fun name => ?_⟩
      have hname := hroom name
      rw [countOf_upsert]
      split
      · omega
      · omega
    · rw [if_neg hconfigured, if_neg hconfigured]
      refine ⟨rfl, fun name => ?_⟩
      have hname := hroom name
      omega
  · have hempty : countOf ∅ name = 0 := rfl
    omega

/-- Counts are added up without a failure if the two counts of each key have a 32-bit sum. -/
theorem addAll?_eq_some {planned counts : Table String Nat}
    (h : ∀ e ∈ planned.entries, countOf counts e.1 + e.2 ≤ maxCount) :
    addAll? planned counts =
      some (planned.entries.foldl (fun t e => t.upsert e.1 0 (· + e.2)) counts) := by
  refine foldlM_eq_some_foldl
    (fun t rest => rest.Pairwise (fun a b => a.1 < b.1) ∧
      ∀ e ∈ rest, countOf t e.1 + e.2 ≤ maxCount) ?_ planned.entries counts ⟨planned.sorted, h⟩
  rintro t e rest ⟨hsorted, hroom⟩
  rw [List.pairwise_cons] at hsorted
  refine ⟨addTo?_eq_some (hroom e List.mem_cons_self), hsorted.2, fun e' he' => ?_⟩
  -- the keys are in order, so this key does not come again
  have hne : e'.1 ≠ e.1 := by
    intro heq
    have hlt := hsorted.1 e' he'
    rw [heq] at hlt
    exact KeyOrder.lt_irrefl _ hlt
  rw [countOf_upsert, if_neg hne]
  exact hroom e' (List.mem_cons_of_mem _ he')

/-- Whether the live or planned nodes of every type, with the added ones, are a 32-bit count. -/
def CountsFit (types : Table String (TypeLimits α)) (existing added : Table String Nat) : Prop :=
  ∀ name limits, types.get? name = some limits →
    limits.maxWorkers ≤ maxCount ∧ countOf existing name + countOf added name ≤ maxCount

theorem growthCandidates?_eq_some {existing added : Table String Nat}
    (h : CountsFit types existing added) (residual : List (Resources α)) :
    growthCandidates? types existing added residual =
      some (growthCandidates types existing added residual) := by
  have hscores : types.entries.mapM (fun (name, limits) =>
        (addCounts? (countOf existing name) (countOf added name)).map (fun count =>
          if limits.maxWorkers ≤ count then none
          else (utilizationScore limits.resources residual).map (fun s => (name, limits, s)))) =
      some (types.entries.map (fun (name, limits) =>
        if limits.maxWorkers ≤ countOf existing name + countOf added name then none
        else (utilizationScore limits.resources residual).map
          (fun s => (name, limits, s)))) := by
    apply mapM_eq_some_map
    rintro ⟨name, limits⟩ hmem
    have hfits := (h name limits (Table.get?_eq_some_iff.mpr hmem)).2
    dsimp only
    rw [addCounts?_eq_some hfits, Option.map_some]
  rw [growthCandidates?, hscores]
  simp only [Option.bind_eq_bind, Option.bind_some, List.filterMap_map, Function.id_comp]
  rfl

/-- A round keeps the counts within 32 bits. -/
theorem CountsFit.upsert {existing added : Table String Nat} {residual : List (Resources α)}
    {name : String} {limits : TypeLimits α} {score : Score α}
    (h : CountsFit types existing added)
    (hbest : bestCandidate (growthCandidates types existing added residual) =
      some (name, limits, score)) :
    CountsFit types existing (added.upsert name 0 (· + 1)) := by
  obtain ⟨hconfigured, hroom⟩ := mem_growthCandidates (bestCandidate_mem hbest)
  dsimp only at hconfigured hroom
  intro other limits' hother
  obtain ⟨hmax, hfits⟩ := h other limits' hother
  refine ⟨hmax, ?_⟩
  rw [countOf_upsert]
  split
  · next heq =>
    rw [heq] at hother ⊢
    rw [hconfigured] at hother
    cases hother
    omega
  · exact hfits

theorem grow?_eq_some {existing : Table String Nat} (added : Table String Nat)
    (residual : List (Resources α)) (h : CountsFit types existing added) :
    grow? types existing added residual = some (grow types existing added residual) := by
  fun_induction grow types existing added residual with
  | case1 added residual hempty => rw [grow?, if_pos hempty]
  | case2 added residual hempty hnone =>
    rw [grow?, if_neg hempty, growthCandidates?_eq_some h]
    simp only [hnone]
  | case3 added residual hempty chosen limits score hbest added' rest hshorter ih =>
    obtain ⟨hconfigured, hroom⟩ := mem_growthCandidates (bestCandidate_mem hbest)
    have hmax := (h chosen limits hconfigured).1
    rw [grow?, if_neg hempty, growthCandidates?_eq_some h]
    simp only [hbest]
    rw [addTo?_eq_some (by dsimp only at hroom; omega)]
    dsimp only
    rw [if_pos hshorter]
    exact ih (h.upsert hbest)
  | case4 added residual hempty chosen limits score hbest added' rest hshorter =>
    exact absurd (residual_shorter_of_bestCandidate hbest) hshorter

/-- Every type has its minimum within its maximum, and its maximum is a 32-bit count. -/
def LimitsFit (types : Table String (TypeLimits α)) : Prop :=
  ∀ name limits, types.get? name = some limits →
    limits.minWorkers ≤ limits.maxWorkers ∧ limits.maxWorkers ≤ maxCount

omit [Amount α] in
/-- The live and the planned nodes of a type are within 32 bits. -/
theorem live_add_planned_le (htypes : LimitsFit types) (hnodes : nodes.length ≤ maxCount)
    {name : String} {limits : TypeLimits α} (h : types.get? name = some limits) :
    countOf (liveCounts types nodes) name +
        countOf (plannedCounts types (liveCounts types nodes)) name ≤ maxCount := by
  obtain ⟨hmin, hmax⟩ := htypes name limits h
  have hlive : nodes.countP (·.nodeType == name) ≤ nodes.length := List.countP_le_length
  rw [countOf_plannedCounts h, countOf_liveCounts h]
  omega

theorem planDemand?_eq_some (htypes : LimitsFit types) (hnodes : nodes.length ≤ maxCount)
    (demand : Demand α) :
    planDemand? types nodes demand = some (planDemand types nodes demand) := by
  have hknown : addAll? (plannedCounts types (liveCounts types nodes)) (liveCounts types nodes) =
      some (knownCounts types nodes) := by
    refine addAll?_eq_some fun e he => ?_
    have hplanned := Table.get?_eq_some_iff.mpr he
    obtain ⟨limits, hlimits⟩ : ∃ limits, types.get? e.1 = some limits := by
      unfold plannedCounts at hplanned
      rw [Table.get?_filter, Table.get?_mapValues] at hplanned
      obtain ⟨hmapped, -⟩ := Option.filter_eq_some_iff.mp hplanned
      obtain ⟨limits, hlimits, -⟩ := Option.map_eq_some_iff.mp hmapped
      exact ⟨limits, hlimits⟩
    have hsum := live_add_planned_le htypes hnodes hlimits
    have hcount : countOf (plannedCounts types (liveCounts types nodes)) e.1 = e.2 := by
      rw [countOf, hplanned]
      rfl
    rwa [hcount] at hsum
  have hfits : CountsFit types (knownCounts types nodes) ∅ := by
    intro name limits hlimits
    refine ⟨(htypes name limits hlimits).2, ?_⟩
    unfold knownCounts
    rw [countOf_foldl_upsert]
    exact live_add_planned_le htypes hnodes hlimits
  have hadditions : ∀ demands, newInstances? types (knownCounts types nodes) demands =
      some (newInstances types (knownCounts types nodes) demands) :=
    fun demands => grow?_eq_some ∅ _ hfits
  rw [planDemand?, liveCounts?_eq_some types hnodes]
  simp only [Option.bind_eq_bind, Option.bind_some, hknown, hadditions]
  rfl

omit [Amount α] in
/-- The nodes that a plan needs are counted without a failure. -/
theorem needed?_eq_some {p : DemandPlan α} (h : p.absorbed.length ≤ maxCount) (name : String) :
    p.needed? name = some (p.needed name) := by
  have hcount : ∀ (items : List (NodeCapacity α × Bool)) (needed : Nat),
      items.foldl (fun needed (n, took) =>
          if n.nodeType == name && (!n.idle || took) then needed + 1 else needed) needed =
        needed + items.countP (fun (n, took) => n.nodeType == name && (!n.idle || took)) := by
    intro items
    induction items with
    | nil => exact fun needed => rfl
    | cons item items ih =>
      intro needed
      rw [List.foldl_cons, ih, List.countP_cons]
      by_cases hitem : (item.1.nodeType == name && (!item.1.idle || item.2)) = true
      · simp only [hitem, if_true]
        omega
      · simp only [hitem, Bool.false_eq_true, if_false]
        omega
  unfold DemandPlan.needed? DemandPlan.needed
  rw [foldlM_eq_some_foldl (fun needed rest => needed + rest.length ≤ maxCount) ?_ p.absorbed 0
    (by omega), hcount, Nat.zero_add]
  rintro needed ⟨n, took⟩ rest hroom
  simp only [List.length_cons] at hroom
  dsimp only
  split
  · exact ⟨addCounts?_eq_some (by omega), by omega⟩
  · exact ⟨rfl, by omega⟩

/-- What a type is given stays within its live nodes or its maximum, whichever is more. -/
theorem needed_add_planned_add_additions_le (nodes : List (NodeCapacity α)) (demand : Demand α)
    {name : String} {limits : TypeLimits α} (h : types.get? name = some limits)
    (hmin : limits.minWorkers ≤ limits.maxWorkers) :
    (planDemand types nodes demand).needed name +
          countOf (planDemand types nodes demand).planned name +
        countOf (planDemand types nodes demand).additions name ≤
      max (nodes.countP (·.nodeType == name)) limits.maxWorkers := by
  have hneeded : (planDemand types nodes demand).needed name ≤
      nodes.countP (·.nodeType == name) := needed_le_live
  have hplanned : countOf (planDemand types nodes demand).planned name =
      limits.minWorkers - nodes.countP (·.nodeType == name) := countOf_planned h
  have hroom : countOf (planDemand types nodes demand).additions name = 0 ∨
      nodes.countP (·.nodeType == name) + countOf (planDemand types nodes demand).planned name +
        countOf (planDemand types nodes demand).additions name ≤ limits.maxWorkers :=
    countOf_additions h
  omega

theorem target?_eq_some (htypes : LimitsFit types) (hnodes : nodes.length ≤ maxCount)
    (fraction : α) {name : String} {limits : TypeLimits α} (h : types.get? name = some limits) :
    (planDemand types nodes demand).target? nodes fraction name limits =
      some ((planDemand types nodes demand).target nodes fraction name limits) := by
  obtain ⟨hmin, hmax⟩ := htypes name limits h
  have hlength : (planDemand types nodes demand).absorbed.length ≤ maxCount := by
    have hnames := congrArg List.length (planDemand_absorbed_fst types nodes demand)
    rw [List.length_map, (packingOrder_perm nodes).length_eq] at hnames
    omega
  have hsum := needed_add_planned_add_additions_le nodes demand h hmin
  have hlive : nodes.countP (·.nodeType == name) ≤ nodes.length := List.countP_le_length
  rw [DemandPlan.target?, needed?_eq_some hlength]
  simp only [Option.bind_eq_bind, Option.bind_some]
  rw [addCounts?_eq_some (by omega)]
  simp only [Option.bind_some]
  rw [addCounts?_eq_some (by omega)]
  rfl

/-- With limits that are in order and up to as many nodes as a 32-bit number counts, no addition
behind the targets overflows. Every configured type and no other has a target, within its limits and
no less than its nodes that are busy or took in demand, as far as the maximum allows. -/
theorem computeTargets_checked (types : Table String (TypeLimits α)) (nodes : List (NodeCapacity α))
    (demand : Demand α) (fraction : α)
    (hlimits : ∀ name limits, types.get? name = some limits →
      limits.minWorkers ≤ limits.maxWorkers ∧ limits.maxWorkers < 2 ^ 32)
    (hnodes : nodes.length < 2 ^ 32) :
    computeTargets? types nodes demand fraction =
        some (computeTargets types nodes demand fraction) ∧
      (computeTargets types nodes demand fraction).keys = types.keys ∧
      ∀ name limits, types.get? name = some limits →
        ∃ target, (computeTargets types nodes demand fraction).get? name = some target ∧
          limits.minWorkers ≤ target ∧ target ≤ limits.maxWorkers ∧
          min limits.maxWorkers ((planDemand types nodes demand).needed name) ≤ target ∧
          (planDemand types nodes demand).needed name +
              countOf (planDemand types nodes demand).planned name +
                countOf (planDemand types nodes demand).additions name ≤
            max (nodes.countP (·.nodeType == name)) limits.maxWorkers := by
  have hmaxCount : maxCount + 1 = 2 ^ 32 := rfl
  have htypes : LimitsFit types := by
    intro name limits h
    obtain ⟨hmin, hmax⟩ := hlimits name limits h
    exact ⟨hmin, by omega⟩
  have hnodes' : nodes.length ≤ maxCount := by omega
  refine ⟨?_, Table.keys_mapValues, fun name limits h => ?_⟩
  · have htargets : types.entries.mapM (fun e =>
          ((planDemand types nodes demand).target? nodes fraction e.1 e.2).map
            (fun target => (e.1, target))) =
        some (computeTargets types nodes demand fraction).entries := by
      apply mapM_eq_some_map
      intro e he
      rw [target?_eq_some htypes hnodes' fraction (Table.get?_eq_some_iff.mpr he)]
      rfl
    rw [computeTargets?, planDemand?_eq_some htypes hnodes']
    simp only [Option.bind_eq_bind, Option.bind_some, htargets]
    exact congrArg some (Table.ofList_entries _)
  · obtain ⟨hmin, -⟩ := htypes name limits h
    refine ⟨_, computeTargets_get? h fraction, ?_, ?_, ?_,
      needed_add_planned_add_additions_le nodes demand h hmin⟩
    · exact DemandPlan.minWorkers_le_target _ fraction name hmin
    · exact Nat.min_le_right _ _
    · unfold DemandPlan.target
      dsimp only
      omega

/-- With a fraction of zero the utilization of the big nodes calls for infinitely many, and that of
the small ones is not a number. -/
theorem computeTargets_checked_twoSizes :
    (∀ name limits, ClusterConfig.twoSizes.limits.get? name = some limits →
        limits.minWorkers ≤ limits.maxWorkers ∧ limits.maxWorkers < 2 ^ 32) ∧
      [NodeCapacity.fullBig].length < 2 ^ 32 ∧
      computeTargets? ClusterConfig.twoSizes.limits [.fullBig] [.oneCpu] 0 =
        some (.ofList [("big", 2), ("small", 1)]) := by
  have hlimits : ∀ name limits, ClusterConfig.twoSizes.limits.get? name = some limits →
      limits.minWorkers ≤ limits.maxWorkers ∧ limits.maxWorkers < 2 ^ 32 := by
    intro name limits h
    have hmem := Table.get?_eq_some_iff.mp h
    have hentries : ClusterConfig.twoSizes.limits.entries =
        [("big", ⟨0, 2, .ofList [("CPU", 2)]⟩), ("small", ⟨0, 1, .oneCpu⟩)] := rfl
    rw [hentries] at hmem
    simp only [List.mem_cons, Prod.mk.injEq, List.not_mem_nil, or_false] at hmem
    rcases hmem with ⟨-, rfl⟩ | ⟨-, rfl⟩
    · exact ⟨by decide, by decide⟩
    · exact ⟨by decide, by decide⟩
  have htargets : computeTargets ClusterConfig.twoSizes.limits [.fullBig] [.oneCpu] 0 =
      .ofList [("big", 2), ("small", 1)] := by
    decide +kernel
  have hchecked := (computeTargets_checked ClusterConfig.twoSizes.limits [.fullBig] [.oneCpu] 0
    hlimits (by decide)).1
  exact ⟨hlimits, by decide, hchecked.trans (congrArg some htargets)⟩

end ClusterScaler
