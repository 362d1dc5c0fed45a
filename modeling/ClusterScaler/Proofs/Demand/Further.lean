import ClusterScaler.Config.Validation
import ClusterScaler.ControlLoop.Plan
import ClusterScaler.Proofs.Demand.Counts

/-!
# What further demand does to the targets

Bundles at the end of a demand are packed after all others, so every node that took in demand still
does, and what found no room still finds none. What they can change is the growth: its rounds choose
the type that scores best on all open bundles. The rounds agree up to the first one that chooses
another type, and a target falls only by what its type loses from there on. `target_append_lt_iff`
says when that happens.
-/

set_option autoImplicit false

namespace ClusterScaler

variable {α : Type} [Amount α]

section Packing

variable {bundle : Resources α} {bins bins' : List (Bin α)}

theorem packInto_cons_of_some (rest : List (Resources α))
    (h : placeFirst? bundle bins = some bins') :
    packInto bins (bundle :: rest) = packInto bins' rest := by
  rw [packInto, h]

theorem packInto_cons_of_none (rest : List (Resources α)) (h : placeFirst? bundle bins = none) :
    packInto bins (bundle :: rest) =
      ⟨(packInto bins rest).bins, bundle :: (packInto bins rest).residual⟩ := by
  rw [packInto, h]

/-- A packing goes on with further bundles where it stopped. -/
theorem packInto_append (bins : List (Bin α)) (demands further : List (Resources α)) :
    packInto bins (demands ++ further) =
      ⟨(packInto (packInto bins demands).bins further).bins,
        (packInto bins demands).residual ++
          (packInto (packInto bins demands).bins further).residual⟩ := by
  induction demands generalizing bins with
  | nil => rfl
  | cons bundle rest ih =>
    rw [List.cons_append]
    cases hplace : placeFirst? bundle bins with
    | some bins' => rw [packInto_cons_of_some _ hplace, packInto_cons_of_some _ hplace, ih]
    | none =>
      rw [packInto_cons_of_none _ hplace, packInto_cons_of_none _ hplace, ih, List.cons_append]

theorem packInto_residual_length_le (bins : List (Bin α)) (demands : List (Resources α)) :
    (packInto bins demands).residual.length ≤ demands.length := by
  induction demands generalizing bins with
  | nil => exact Nat.le_refl 0
  | cons bundle rest ih =>
    cases hplace : placeFirst? bundle bins with
    | some bins' =>
      rw [packInto_cons_of_some _ hplace, List.length_cons]
      have := ih bins'
      omega
    | none =>
      rw [packInto_cons_of_none _ hplace, List.length_cons, List.length_cons]
      have := ih bins
      omega

variable {β : Type} {p : β × Bool → Bool}

/-- Placing a bundle loses none of those that are counted, if what is counted without a bundle is
counted with one. -/
theorem countP_zip_placeFirst? (hp : ∀ b, p (b, false) = true → p (b, true) = true) (bs : List β)
    (h : placeFirst? bundle bins = some bins') :
    (bs.zip (bins.map (·.used))).countP p ≤ (bs.zip (bins'.map (·.used))).countP p := by
  induction bins generalizing bs bins' with
  | nil => cases h
  | cons bin rest ih =>
    cases bs with
    | nil => exact Nat.le_refl 0
    | cons b bs =>
      unfold placeFirst? at h
      split at h
      · cases h
        have hfirst : p (b, bin.used) = true → p (b, true) = true := by
          cases bin.used with
          | true => exact id
          | false => exact hp b
        simp only [List.map_cons, List.zip_cons_cons, List.countP_cons]
        split
        · next hcounted =>
          simp [hfirst hcounted]
        · split <;> omega
      · rw [Option.map_eq_some_iff] at h
        obtain ⟨rest', hrest, rfl⟩ := h
        simp only [List.map_cons, List.zip_cons_cons, List.countP_cons]
        exact Nat.add_le_add_right (ih bs hrest) _

/-- A packing loses none of those that are counted. -/
theorem countP_zip_packInto (hp : ∀ b, p (b, false) = true → p (b, true) = true) (bs : List β)
    (bins : List (Bin α)) (demands : List (Resources α)) :
    (bs.zip (bins.map (·.used))).countP p ≤
      (bs.zip ((packInto bins demands).bins.map (·.used))).countP p := by
  induction demands generalizing bins with
  | nil => exact Nat.le_refl _
  | cons bundle rest ih =>
    cases hplace : placeFirst? bundle bins with
    | some bins' =>
      rw [packInto_cons_of_some _ hplace]
      exact Nat.le_trans (countP_zip_placeFirst? hp bs hplace) (ih bins')
    | none =>
      rw [packInto_cons_of_none _ hplace]
      exact ih bins

end Packing

section Growth

variable {types : Table String (TypeLimits α)} {existing : Table String Nat}

theorem le_fill_snd_append (node : Resources α) (demands further : List (Resources α)) :
    (fill node demands).2 ≤ (fill node (demands ++ further)).2 := by
  unfold fill
  rw [List.foldl_append]
  -- no further bundle takes back what the node has taken
  generalize demands.foldl _ (node, 0) = filled
  refine List.foldlRecOn (motive := fun state : Resources α × Nat => filled.2 ≤ state.2) further _
    (Nat.le_refl _) ?_
  intro state htaken bundle _
  dsimp only
  split
  · exact Nat.le_succ_of_le htaken
  · exact htaken

theorem isSome_utilizationScore_iff {node : Resources α} {demands : List (Resources α)} :
    (utilizationScore node demands).isSome = true ↔ 0 < (fill node demands).2 := by
  rw [Nat.pos_iff_ne_zero]
  unfold utilizationScore
  dsimp only
  split
  · next hnone => exact ⟨fun h => (nomatch h), fun h => absurd (beq_iff_eq.mp hnone) h⟩
  · next hsome =>
    refine ⟨fun _ h => hsome (beq_iff_eq.mpr h), fun _ => ?_⟩
    split
    · rfl
    · rfl

/-- A type that may grow for some bundles may also grow if there are more of them. -/
theorem growthCandidates_append_ne_nil {added : Table String Nat}
    {residual : List (Resources α)} (further : List (Resources α))
    (h : growthCandidates types existing added residual ≠ []) :
    growthCandidates types existing added (residual ++ further) ≠ [] := by
  obtain ⟨c, hc⟩ := List.exists_mem_of_ne_nil _ h
  unfold growthCandidates at hc
  rw [List.mem_filterMap] at hc
  obtain ⟨⟨name, limits⟩, hmem, hscored⟩ := hc
  dsimp only at hscored
  split at hscored
  · cases hscored
  · next hroom =>
    obtain ⟨score, hscore, -⟩ := Option.map_eq_some_iff.mp hscored
    have htaken : 0 < (fill limits.resources residual).2 :=
      isSome_utilizationScore_iff.mp (Option.isSome_of_mem hscore)
    have hmore := isSome_utilizationScore_iff.mpr
      (Nat.lt_of_lt_of_le htaken (le_fill_snd_append limits.resources residual further))
    obtain ⟨score', hscore'⟩ := Option.isSome_iff_exists.mp hmore
    have hcandidate : (name, limits, score') ∈
        growthCandidates types existing added (residual ++ further) := by
      refine List.mem_filterMap.mpr ⟨(name, limits), hmem, ?_⟩
      dsimp only
      rw [if_neg hroom, hscore']
      rfl
    exact List.ne_nil_of_mem hcandidate

theorem bestCandidate_eq_none_iff {cs : List (String × TypeLimits α × Score α)} :
    bestCandidate cs = none ↔ cs = [] := by
  cases cs with
  | nil => exact ⟨fun _ => rfl, fun _ => rfl⟩
  | cons c rest =>
    constructor
    · intro h
      cases h
    · intro h
      cases h

/-- The types that grow, round by round. -/
def growthRounds (types : Table String (TypeLimits α)) (existing added : Table String Nat)
    (residual : List (Resources α)) : List String :=
  if residual.isEmpty then []
  else
    match bestCandidate (growthCandidates types existing added residual) with
    | none => []
    | some (name, limits, _) =>
      let rest := (pack [limits.resources] residual).residual
      if rest.length < residual.length then
        name :: growthRounds types existing (added.upsert name 0 (· + 1)) rest
      else [name]
termination_by residual.length

/-- Every round adds one node of its type. -/
theorem countOf_grow_eq (types : Table String (TypeLimits α)) (existing added : Table String Nat)
    (residual : List (Resources α)) (name : String) :
    countOf (grow types existing added residual) name =
      countOf added name + (growthRounds types existing added residual).count name := by
  have hadds : ∀ (added : Table String Nat) (chosen : String) (rounds : List String),
      countOf (added.upsert chosen 0 (· + 1)) name + rounds.count name =
        countOf added name + (chosen :: rounds).count name := by
    intro added chosen rounds
    rw [countOf_upsert, List.count_cons]
    by_cases hchosen : name = chosen
    · subst hchosen
      simp only [if_true, beq_self_eq_true]
      omega
    · rw [if_neg hchosen, if_neg (by simpa using fun h => hchosen h.symm), Nat.add_zero]
  fun_induction grow types existing added residual with
  | case1 added residual hempty =>
    rw [growthRounds, if_pos hempty]
    rfl
  | case2 added residual hempty hnone =>
    rw [growthRounds, if_neg hempty, hnone]
    rfl
  | case3 added residual hempty chosen limits score hbest added' rest hshorter ih =>
    rw [growthRounds, if_neg hempty, hbest]
    dsimp only
    rw [if_pos hshorter, ih, ← hadds]
  | case4 added residual hempty chosen limits score hbest added' rest hshorter =>
    rw [growthRounds, if_neg hempty, hbest]
    dsimp only
    rw [if_neg hshorter, ← hadds]
    rfl

theorem growthRounds_eq_cons {added : Table String Nat} {residual : List (Resources α)}
    {name : String} {limits : TypeLimits α} {score : Score α} (hopen : ¬ residual.isEmpty = true)
    (hbest : bestCandidate (growthCandidates types existing added residual) =
      some (name, limits, score)) :
    growthRounds types existing added residual =
      name :: if (pack [limits.resources] residual).residual.length < residual.length then
        growthRounds types existing (added.upsert name 0 (· + 1))
          (pack [limits.resources] residual).residual
      else [] := by
  rw [growthRounds, if_neg hopen, hbest]
  dsimp only
  split <;> rfl

/-- Two lists of rounds agree up to a round in which they choose differently. -/
def Parts (rounds rounds' : List String) : Prop :=
  ∃ agreed chosen other rest rest', chosen ≠ other ∧
    rounds = agreed ++ chosen :: rest ∧ rounds' = agreed ++ other :: rest'

/-- One more round on which two lists agree. -/
theorem prefix_or_parts_cons {rounds rounds' : List String} (chosen : String)
    (h : rounds <+: rounds' ∨ Parts rounds rounds') :
    chosen :: rounds <+: chosen :: rounds' ∨ Parts (chosen :: rounds) (chosen :: rounds') := by
  obtain hmore | ⟨agreed, chosen', other, rest, rest', hne, rfl, rfl⟩ := h
  · exact .inl (List.cons_prefix_cons.mpr ⟨rfl, hmore⟩)
  · exact .inr ⟨chosen :: agreed, chosen', other, rest, rest', hne, rfl, rfl⟩

/-- Where a type grows for some bundles, one grows if there are more of them, and it has the same
limits if it is the same. -/
theorem exists_bestCandidate_append {added : Table String Nat} {residual : List (Resources α)}
    {name : String} {limits : TypeLimits α} {score : Score α}
    (hbest : bestCandidate (growthCandidates types existing added residual) =
      some (name, limits, score)) (further : List (Resources α)) :
    ∃ other limits' score',
      bestCandidate (growthCandidates types existing added (residual ++ further)) =
        some (other, limits', score') ∧ (name = other → limits = limits') := by
  have hcandidates : growthCandidates types existing added residual ≠ [] := by
    intro hnone
    rw [bestCandidate_eq_none_iff.mpr hnone] at hbest
    cases hbest
  cases hbest' : bestCandidate (growthCandidates types existing added (residual ++ further)) with
  | none =>
    exact absurd (bestCandidate_eq_none_iff.mp hbest')
      (growthCandidates_append_ne_nil further hcandidates)
  | some best' =>
    obtain ⟨other, limits', score'⟩ := best'
    refine ⟨other, limits', score', rfl, fun hsame => ?_⟩
    obtain ⟨hlimits, -⟩ := mem_growthCandidates (bestCandidate_mem hbest)
    obtain ⟨hlimits', -⟩ := mem_growthCandidates (bestCandidate_mem hbest')
    rw [hsame, hlimits'] at hlimits
    exact (Option.some.inj hlimits).symm

/-- With further bundles the rounds are the same, and there may be more of them, or they are the same
up to one that chooses another type. -/
theorem growthRounds_append (types : Table String (TypeLimits α)) (existing added : Table String Nat)
    (residual further : List (Resources α)) :
    growthRounds types existing added residual <+:
        growthRounds types existing added (residual ++ further) ∨
      Parts (growthRounds types existing added residual)
        (growthRounds types existing added (residual ++ further)) := by
  induction hlength : residual.length using Nat.strongRecOn generalizing added residual further with
  | ind n ih =>
    by_cases hopen : residual.isEmpty = true
    · rw [growthRounds, if_pos hopen]
      exact .inl List.nil_prefix
    have hopen' : ¬ (residual ++ further).isEmpty = true := by
      rw [List.isEmpty_iff, List.append_eq_nil_iff]
      exact fun h => hopen (List.isEmpty_iff.mpr h.1)
    cases hbest : bestCandidate (growthCandidates types existing added residual) with
    | none =>
      rw [growthRounds, if_neg hopen, hbest]
      exact .inl List.nil_prefix
    | some best =>
      obtain ⟨chosen, limits, score⟩ := best
      obtain ⟨other, limits', score', hbest', hlimits⟩ := exists_bestCandidate_append hbest further
      rw [growthRounds_eq_cons hopen hbest, growthRounds_eq_cons hopen' hbest']
      by_cases hsame : chosen = other
      · subst hsame
        obtain rfl := hlimits rfl
        refine prefix_or_parts_cons chosen ?_
        unfold pack
        rw [packInto_append]
        split
        · next hshorter =>
          have hfewer := packInto_residual_length_le
            (packInto ([limits.resources].map (⟨·, false⟩)) residual).bins further
          rw [if_pos (by simp only [List.length_append]; omega)]
          exact ih _ (hlength ▸ hshorter) _ _ _ rfl
        · exact .inl List.nil_prefix
      · exact .inr ⟨[], chosen, other, _, _, hsame, rfl, rfl⟩

end Growth

section Targets

variable (types : Table String (TypeLimits α)) (nodes : List (NodeCapacity α)) (demand : Demand α)

/-- The live and the planned nodes of every type. -/
def knownCounts : Table String Nat :=
  (plannedCounts types (liveCounts types nodes)).entries.foldl (fun t e => t.upsert e.1 0 (· + e.2))
    (liveCounts types nodes)

/-- How a demand is packed onto the live and the planned nodes. -/
def demandPacking : Packing α :=
  pack ((packingOrder nodes).map (·.available) ++
      plannedCapacities types (plannedCounts types (liveCounts types nodes)))
    (demand.filter (fun b => !b.isZero))

/-- The types that grow for a demand, round by round. -/
def demandRounds : List String :=
  growthRounds types (knownCounts types nodes) ∅
    ((demandPacking types nodes demand).residual.filter
      (fun bundle => types.values.any (fun t => t.resources.fits bundle)))

variable {types nodes demand} {further : Demand α} {name : String} {limits : TypeLimits α}

/-- The nodes that are added for a demand are those of its rounds. -/
theorem countOf_additions_eq :
    countOf (planDemand types nodes demand).additions name =
      (demandRounds types nodes demand).count name := by
  have hempty : countOf ∅ name = 0 := rfl
  have hrounds := countOf_grow_eq types (knownCounts types nodes) ∅
    ((demandPacking types nodes demand).residual.filter
      (fun bundle => types.values.any (fun t => t.resources.fits bundle))) name
  rw [hempty, Nat.zero_add] at hrounds
  exact hrounds

theorem demandPacking_append :
    demandPacking types nodes (demand ++ further) =
      ⟨(packInto (demandPacking types nodes demand).bins
          (further.filter (fun b => !b.isZero))).bins,
        (demandPacking types nodes demand).residual ++
          (packInto (demandPacking types nodes demand).bins
            (further.filter (fun b => !b.isZero))).residual⟩ := by
  unfold demandPacking pack
  rw [List.filter_append, packInto_append]

/-- What a demand needs is needed with further bundles too. -/
theorem needed_le_needed_append :
    (planDemand types nodes demand).needed name ≤
      (planDemand types nodes (demand ++ further)).needed name := by
  have hkept := countP_zip_packInto
    (p := fun e : NodeCapacity α × Bool => e.1.nodeType == name && (!e.1.idle || e.2))
    (fun n hn => by simp_all) (packingOrder nodes) (demandPacking types nodes demand).bins
    (further.filter (fun b => !b.isZero))
  have hlonger : (planDemand types nodes (demand ++ further)).absorbed =
      (packingOrder nodes).zip (demandPacking types nodes (demand ++ further)).used := rfl
  unfold DemandPlan.needed
  rw [hlonger, demandPacking_append]
  exact hkept

/-- With further bundles the rounds of a demand are the same, and there may be more of them, or they
are the same up to one that chooses another type. -/
theorem demandRounds_append (types : Table String (TypeLimits α)) (nodes : List (NodeCapacity α))
    (demand further : Demand α) :
    demandRounds types nodes demand <+: demandRounds types nodes (demand ++ further) ∨
      Parts (demandRounds types nodes demand) (demandRounds types nodes (demand ++ further)) := by
  unfold demandRounds
  rw [demandPacking_append, List.filter_append]
  exact growthRounds_append _ _ _ _ _

/-- The nodes of a type that are needed are live ones. -/
theorem needed_le_live :
    (planDemand types nodes demand).needed name ≤ nodes.countP (·.nodeType == name) := by
  rw [← (packingOrder_perm nodes).countP_eq,
    ← planDemand_absorbed_fst types nodes demand, List.countP_map]
  unfold DemandPlan.needed
  apply List.countP_mono_left
  rintro ⟨n, took⟩ - hneeded
  exact (Bool.and_eq_true_iff.mp hneeded).1

theorem countOf_computeTargets (h : types.get? name = some limits) (fraction : α) :
    countOf (computeTargets types nodes demand fraction) name =
      (planDemand types nodes demand).target nodes fraction name limits := by
  unfold countOf
  rw [computeTargets_get? h]
  rfl

/-- Further bundles lower the target of a type exactly if a round of the growth chooses another type
because of them, the type then gets fewer nodes from that round on, those apart that the further
bundles make needed, and neither the utilization nor the minimum of the type makes up for it. -/
theorem target_append_lt_iff (h : types.get? name = some limits) (fraction : α) :
    countOf (computeTargets types nodes (demand ++ further) fraction) name <
        countOf (computeTargets types nodes demand fraction) name ↔
      ∃ agreed chosen other rest rest', chosen ≠ other ∧
        demandRounds types nodes demand = agreed ++ chosen :: rest ∧
          demandRounds types nodes (demand ++ further) = agreed ++ other :: rest' ∧
            (planDemand types nodes (demand ++ further)).needed name + (other :: rest').count name <
                (planDemand types nodes demand).needed name + (chosen :: rest).count name ∧
              max (idealCount nodes fraction name) limits.minWorkers <
                (planDemand types nodes demand).needed name +
                  countOf (planDemand types nodes demand).planned name +
                    (agreed ++ chosen :: rest).count name := by
  have hneeded : (planDemand types nodes demand).needed name ≤
      (planDemand types nodes (demand ++ further)).needed name := needed_le_needed_append
  have hlive : (planDemand types nodes demand).needed name ≤ nodes.countP (·.nodeType == name) :=
    needed_le_live
  have hroom : countOf (planDemand types nodes demand).additions name = 0 ∨
      nodes.countP (·.nodeType == name) + countOf (planDemand types nodes demand).planned name +
        countOf (planDemand types nodes demand).additions name ≤ limits.maxWorkers :=
    countOf_additions h
  have hplanned : (planDemand types nodes (demand ++ further)).planned =
      (planDemand types nodes demand).planned := rfl
  rw [countOf_computeTargets h, countOf_computeTargets h]
  unfold DemandPlan.target
  dsimp only
  rw [hplanned, countOf_additions_eq, countOf_additions_eq]
  rw [countOf_additions_eq] at hroom
  constructor
  · intro hfalls
    rcases demandRounds_append types nodes demand further with ⟨more, hmore⟩ |
      ⟨agreed, chosen, other, rest, rest', hne, hrounds, hrounds'⟩
    · rw [← hmore, List.count_append] at hfalls
      omega
    · refine ⟨agreed, chosen, other, rest, rest', hne, hrounds, hrounds', ?_⟩
      rw [hrounds, hrounds', List.count_append, List.count_append] at hfalls
      rw [List.count_append]
      omega
  · rintro ⟨agreed, chosen, other, rest, rest', -, hrounds, hrounds', hfewer, hfloor⟩
    rw [List.count_append] at hfloor
    rw [hrounds, List.count_append] at hroom ⊢
    rw [hrounds', List.count_append]
    omega

end Targets

/-- A configuration with nodes of two sizes. -/
def ClusterConfig.twoSizes : ClusterConfig where
  clusterName := "demo"
  headNodeType := "big"
  tunables := { targetUtilization := 0.5 }
  provider := .inMemory false
  nodeTypes := .ofList
    [("big", { maxWorkers := 2, resources := .ofList [("CPU", 2)] }),
      ("small", { maxWorkers := 1, resources := .ofList [("CPU", 1)] })]

/-- One big node, all of which is in use. -/
def NodeCapacity.fullBig : NodeCapacity Float :=
  ⟨"big", .ofList [("CPU", 0)], some 1, false⟩

/-- A bundle that a small node has just room for. -/
def Resources.oneCpu : Resources Float := .ofList [("CPU", 1)]

/-- A small node is the best choice for one bundle, and a big one for two. -/
theorem target_append_lt_iff_twoSizes :
    ∃ limits, ClusterConfig.twoSizes.limits.get? "small" = some limits ∧
      countOf (computeTargets ClusterConfig.twoSizes.limits [.fullBig] ([.oneCpu] ++ [.oneCpu]) 0.5)
          "small" <
        countOf (computeTargets ClusterConfig.twoSizes.limits [.fullBig] [.oneCpu] 0.5) "small" := by
  have hlimits : ClusterConfig.twoSizes.limits.get? "small" = some ⟨0, 1, .oneCpu⟩ := rfl
  have hrounds : demandRounds ClusterConfig.twoSizes.limits [.fullBig] [.oneCpu] = ["small"] := by
    decide +kernel
  have hrounds' : demandRounds ClusterConfig.twoSizes.limits [.fullBig] ([.oneCpu] ++ [.oneCpu]) =
      ["big"] := by
    decide +kernel
  refine ⟨_, hlimits, (target_append_lt_iff hlimits 0.5).mpr
    ⟨[], "small", "big", [], [], by decide, hrounds, hrounds', ?_, ?_⟩⟩
  · decide +kernel
  · decide +kernel

/-- With a second bundle the target of the small nodes falls from one to none. -/
theorem target_falls_twoSizes :
    ClusterConfig.twoSizes.validate .empty = .ok () ∧
      (∀ b ∈ [Resources.oneCpu, .oneCpu], ∀ e ∈ b.toList, 0 ≤ e.2) ∧
        countOf (computeTargets ClusterConfig.twoSizes.limits [.fullBig] [.oneCpu]
          ClusterConfig.twoSizes.tunables.targetUtilization) "small" = 1 ∧
        countOf (computeTargets ClusterConfig.twoSizes.limits [.fullBig] ([.oneCpu] ++ [.oneCpu])
          ClusterConfig.twoSizes.tunables.targetUtilization) "small" = 0 :=
  ⟨rfl, by decide +kernel, by decide +kernel, by decide +kernel⟩

end ClusterScaler
