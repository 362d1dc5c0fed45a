import ClusterScaler.Proofs.Demand.Further
import Mathlib.Algebra.GroupWithZero.Nat
import Mathlib.Logic.Relation

/-!
# The rounds in which nodes are added

A fresh node is scored by filling it and packed by first fit, and the two place the same bundles. So
a node with a score takes in at least one bundle, every round leaves fewer bundles than it found, and
the guard against a round that places nothing never fires. What a round keeps is kept to the end: the
types stay within their maxima, and no more nodes are added than bundles are placed. Where the rounds
stop, no type that may still grow has room for an open bundle.
-/

set_option autoImplicit false

namespace ClusterScaler

/-- A value that is stored takes the place of the one before in the sum of the values. -/
theorem Table.sum_values_insert {κ : Type} [KeyOrder κ] (t : Table κ Nat) (k : κ) (v : Nat) :
    (t.insert k v).values.sum + (t.get? k).getD 0 = t.values.sum + v := by
  have hentries : ∀ l : List (κ × Nat),
      ((insertInto k v l).map (·.2)).sum + (lookupIn k l).getD 0 = (l.map (·.2)).sum + v := by
    intro l
    induction l with
    | nil => simp [insertInto, lookupIn]
    | cons e rest ih =>
      obtain ⟨k', v'⟩ := e
      simp only [insertInto, lookupIn]
      split
      · simp; omega
      · split
        · simp only [List.map_cons, List.sum_cons]
          omega
        · simp; omega
  exact hentries t.entries

variable {α : Type} [Amount α]

section OneNode

/-- The bundles that a fresh node takes, and those that are left when it is packed, are all. -/
theorem pack_residual_length_add_fill (node : Resources α) (demands : List (Resources α)) :
    (pack [node] demands).residual.length + (fill node demands).2 = demands.length := by
  -- the node may have been packed before, and have taken bundles
  have hgoing : ∀ (demands : List (Resources α)) (filled : Resources α × Nat) (used : Bool),
      (packInto [⟨filled.1, used⟩] demands).residual.length +
          (demands.foldl (fun filled bundle =>
            if filled.1.fits bundle then (filled.1.subtract bundle, filled.2 + 1) else filled)
              filled).2 =
        demands.length + filled.2 := by
    intro demands
    induction demands with
    | nil => exact fun filled used => rfl
    | cons bundle rest ih =>
      intro filled used
      rw [List.foldl_cons]
      by_cases hfits : filled.1.fits bundle = true
      · have hplace : placeFirst? bundle [⟨filled.1, used⟩] =
            some [⟨filled.1.subtract bundle, true⟩] := by
          simp [placeFirst?, hfits]
        have hrest := ih (filled.1.subtract bundle, filled.2 + 1) true
        rw [packInto_cons_of_some _ hplace]
        simp only [hfits, if_true, List.length_cons] at hrest ⊢
        omega
      · have hplace : placeFirst? bundle [⟨filled.1, used⟩] = none := by
          simp [placeFirst?, hfits]
        have hrest := ih filled used
        rw [packInto_cons_of_none _ hplace]
        simp only [hfits, Bool.false_eq_true, if_false, List.length_cons] at hrest ⊢
        omega
  exact hgoing demands (node, 0) false

/-- A node has a score exactly if packing it leaves fewer bundles. -/
theorem isSome_utilizationScore_iff_shorter (node : Resources α) (demands : List (Resources α)) :
    (utilizationScore node demands).isSome = true ↔
      (pack [node] demands).residual.length < demands.length := by
  have hall := pack_residual_length_add_fill node demands
  rw [isSome_utilizationScore_iff]
  omega

/-- A node has a score exactly if one of the bundles fits it while it is fresh. -/
theorem isSome_utilizationScore_iff_fits (node : Resources α) (demands : List (Resources α)) :
    (utilizationScore node demands).isSome = true ↔
      ∃ bundle ∈ demands, node.fits bundle = true := by
  rw [isSome_utilizationScore_iff]
  induction demands with
  | nil => simp [fill]
  | cons bundle rest ih =>
    by_cases hfits : node.fits bundle = true
    · have hfirst : (fill node [bundle]).2 = 1 := by
        simp [fill, hfits]
      have htaken := le_fill_snd_append node [bundle] rest
      rw [List.singleton_append] at htaken
      exact iff_of_true (by omega) ⟨bundle, List.mem_cons_self, hfits⟩
    · have hpassed : fill node (bundle :: rest) = fill node rest := by
        simp [fill, hfits]
      rw [hpassed, ih]
      simp [hfits]

/-- What a packing leaves is what it was given, in order, without the bundles that found a place. -/
theorem packInto_residual_sublist (bins : List (Bin α)) (demands : List (Resources α)) :
    (packInto bins demands).residual.Sublist demands := by
  induction demands generalizing bins with
  | nil => exact List.Sublist.refl _
  | cons bundle rest ih =>
    cases hplace : placeFirst? bundle bins with
    | some bins' =>
      rw [packInto_cons_of_some _ hplace]
      exact (ih bins').cons bundle
    | none =>
      rw [packInto_cons_of_none _ hplace]
      exact (ih bins).cons_cons bundle

end OneNode

/-- How far the growth has come: the nodes added, and the bundles that are still open. -/
structure Growing (α : Type) where
  added : Table String Nat
  left : List (Resources α)

variable {types : Table String (TypeLimits α)} {existing : Table String Nat}

/-- One round: the best of the candidates gets a node, and the open bundles are packed onto it. -/
inductive GrowthRound (types : Table String (TypeLimits α)) (existing : Table String Nat) :
    Growing α → Growing α → Prop
  | mk {g : Growing α} {name : String} {limits : TypeLimits α} {score : Score α}
      (hbest : bestCandidate (growthCandidates types existing g.added g.left) =
        some (name, limits, score)) :
      GrowthRound types existing g
        ⟨g.added.upsert name 0 (· + 1), (pack [limits.resources] g.left).residual⟩

/-- The growth is over when no bundle is open, or when no type that may still grow takes one. -/
def Growing.Over (types : Table String (TypeLimits α)) (existing : Table String Nat)
    (g : Growing α) : Prop :=
  g.left = [] ∨ bestCandidate (growthCandidates types existing g.added g.left) = none

theorem utilizationScore_of_mem_growthCandidates {added : Table String Nat}
    {residual : List (Resources α)} {c : String × TypeLimits α × Score α}
    (h : c ∈ growthCandidates types existing added residual) :
    utilizationScore c.2.1.resources residual = some c.2.2 := by
  unfold growthCandidates at h
  obtain ⟨⟨name, limits⟩, -, hscored⟩ := List.mem_filterMap.mp h
  dsimp only at hscored
  split at hscored
  · cases hscored
  · obtain ⟨score, hscore, rfl⟩ := Option.map_eq_some_iff.mp hscored
    exact hscore

/-- The best candidate takes in a bundle. -/
theorem residual_shorter_of_bestCandidate {added : Table String Nat}
    {residual : List (Resources α)} {name : String} {limits : TypeLimits α} {score : Score α}
    (hbest : bestCandidate (growthCandidates types existing added residual) =
      some (name, limits, score)) :
    (pack [limits.resources] residual).residual.length < residual.length := by
  have hscore := utilizationScore_of_mem_growthCandidates (bestCandidate_mem hbest)
  rw [← isSome_utilizationScore_iff_shorter, hscore]
  rfl

/-- The growth is a run of rounds up to where it is over. -/
theorem exists_rounds_grow (types : Table String (TypeLimits α))
    (existing added : Table String Nat) (residual : List (Resources α)) :
    ∃ left, Relation.ReflTransGen (GrowthRound types existing) ⟨added, residual⟩
        ⟨grow types existing added residual, left⟩ ∧
      Growing.Over types existing ⟨grow types existing added residual, left⟩ := by
  fun_induction grow types existing added residual with
  | case1 added residual hempty =>
    exact ⟨residual, .refl, .inl (List.isEmpty_iff.mp hempty)⟩
  | case2 added residual hempty hnone => exact ⟨residual, .refl, .inr hnone⟩
  | case3 added residual hempty chosen limits score hbest added' rest hshorter ih =>
    obtain ⟨left, hrounds, hover⟩ := ih
    exact ⟨left, hrounds.head (.mk hbest), hover⟩
  | case4 added residual hempty chosen limits score hbest added' rest hshorter =>
    exact absurd (residual_shorter_of_bestCandidate hbest) hshorter

/-- What holds of the growth of some open bundles at every round. -/
structure Growing.Sound (types : Table String (TypeLimits α)) (existing : Table String Nat)
    (bundles : List (Resources α)) (g : Growing α) : Prop where
  within : ∀ name n, g.added.get? name = some n →
    0 < n ∧ ∃ limits, types.get? name = some limits ∧ countOf existing name + n ≤ limits.maxWorkers
  few : g.added.values.sum + g.left.length ≤ bundles.length
  kept : g.left.Sublist bundles

theorem Growing.Sound.round {bundles : List (Resources α)} {g g' : Growing α}
    (h : g.Sound types existing bundles) (hround : GrowthRound types existing g g') :
    g'.Sound types existing bundles := by
  obtain @⟨chosen, limits, score, hbest⟩ := hround
  obtain ⟨hconfigured, hroom⟩ := mem_growthCandidates (bestCandidate_mem hbest)
  have hshorter := residual_shorter_of_bestCandidate hbest
  have hsum := Table.sum_values_insert g.added chosen ((g.added.get? chosen).getD 0 + 1)
  refine ⟨fun name n hn => ?_, ?_, (packInto_residual_sublist _ _).trans h.kept⟩
  · rw [Table.get?_upsert] at hn
    split at hn
    · next heq =>
      obtain rfl := Option.some.inj hn
      rw [heq]
      exact ⟨Nat.succ_pos _, limits, hconfigured, hroom⟩
    · exact h.within name n hn
  · have hfew := h.few
    simp only [Table.upsert]
    omega

/-- Where the growth is over, an open bundle fits only types that have reached their maximum. -/
theorem Growing.Over.le_of_fits {g : Growing α} (h : g.Over types existing)
    {bundle : Resources α} (hopen : bundle ∈ g.left) {name : String} {limits : TypeLimits α}
    (hconfigured : types.get? name = some limits) (hfits : limits.resources.fits bundle = true) :
    limits.maxWorkers ≤ countOf existing name + countOf g.added name := by
  rcases h with hnone | hnone
  · simp [hnone] at hopen
  · rw [bestCandidate_eq_none_iff] at hnone
    refine Nat.le_of_not_lt fun hroom => ?_
    -- with room in its maximum the type would be a candidate
    obtain ⟨score, hscore⟩ := Option.isSome_iff_exists.mp
      ((isSome_utilizationScore_iff_fits limits.resources g.left).mpr ⟨bundle, hopen, hfits⟩)
    have hcandidate : (name, limits, score) ∈
        growthCandidates types existing g.added g.left := by
      refine List.mem_filterMap.mpr ⟨(name, limits), Table.get?_eq_some_iff.mp hconfigured, ?_⟩
      simp [Nat.not_le.mpr hroom, hscore]
    simp [hnone] at hcandidate

/-- A node has a score exactly if it shortens what is open, so the nodes to add are the outcome of
rounds that each shorten it, up to where no bundle is open or no candidate is left. They stay within
the maxima of their types and are no more than the bundles they take in, and a bundle that is open at
the end and fits a type finds the type at its maximum. -/
theorem newInstances_rounds (types : Table String (TypeLimits α)) (existing : Table String Nat)
    (demands : List (Resources α)) :
    (∀ (node : Resources α) (bundles : List (Resources α)),
        (utilizationScore node bundles).isSome = true ↔
          (pack [node] bundles).residual.length < bundles.length) ∧
      (∀ g g', GrowthRound types existing g g' → g'.left.length < g.left.length) ∧
      (∀ name n, (newInstances types existing demands).get? name = some n →
        0 < n ∧ ∃ limits, types.get? name = some limits ∧
          countOf existing name + n ≤ limits.maxWorkers) ∧
      ∃ left : List (Resources α),
        Relation.ReflTransGen (GrowthRound types existing)
            ⟨∅, demands.filter (fun b => types.values.any (fun t => t.resources.fits b))⟩
            ⟨newInstances types existing demands, left⟩ ∧
          Growing.Over types existing ⟨newInstances types existing demands, left⟩ ∧
          left.Sublist demands ∧
          (newInstances types existing demands).values.sum + left.length ≤ demands.length ∧
          ∀ bundle ∈ left, ∀ name limits, types.get? name = some limits →
            limits.resources.fits bundle = true →
              limits.maxWorkers ≤
                countOf existing name + countOf (newInstances types existing demands) name := by
  obtain ⟨left, hrounds, hover⟩ := exists_rounds_grow types existing ∅
    (demands.filter (fun b => types.values.any (fun t => t.resources.fits b)))
  have hsound : Growing.Sound types existing
      (demands.filter (fun b => types.values.any (fun t => t.resources.fits b)))
      ⟨newInstances types existing demands, left⟩ := by
    refine hrounds.recOn ⟨fun name n hn => ?_, ?_, List.Sublist.refl _⟩
      fun _ hround hbefore => hbefore.round hround
    · simp at hn
    · exact Nat.le_of_eq (Nat.zero_add _)
  have hfewer : (demands.filter
      (fun b => types.values.any (fun t => t.resources.fits b))).length ≤ demands.length :=
    List.length_filter_le _ _
  refine ⟨isSome_utilizationScore_iff_shorter, ?_, hsound.within, left, hrounds, hover,
    hsound.kept.trans List.filter_sublist, Nat.le_trans hsound.few hfewer, ?_⟩
  · rintro g g' ⟨hbest⟩
    exact residual_shorter_of_bestCandidate hbest
  · exact fun bundle hopen name limits => hover.le_of_fits hopen

end ClusterScaler
