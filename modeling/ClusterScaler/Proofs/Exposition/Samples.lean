import ClusterScaler.Proofs.Decimal.Numerals
import ClusterScaler.Proofs.Exposition.Scraping
import ClusterScaler.Proofs.Table.Lookup
import Mathlib.Data.List.TakeWhile

/-!
# The samples of a cluster

The exposition of a cluster is read back as one sample for each count, target, scalar and resource
amount, whatever characters its names hold. No two of them have the same name and the same labels
(`scrape_ofCluster`).
-/

set_option autoImplicit false

namespace ClusterScaler.Exposition

open Decimal

section Values

variable {cs ds : List Char}

theorem isDecimal_digits (hds : AllDigits ds) (hne : ds ≠ []) : isDecimal ds = true := by
  unfold isDecimal
  rw [List.takeWhile_eq_self_iff.mpr hds, List.dropWhile_eq_nil_iff.mpr hds]
  simpa using hne

theorem isDecimal_pointed (hcs : AllDigits cs) (hne : cs ≠ []) (hds : AllDigits ds)
    (hne' : ds ≠ []) : isDecimal (cs ++ '.' :: ds) = true := by
  have hpoint : ¬ ('.' : Char).isDigit = true := by decide
  unfold isDecimal
  rw [List.takeWhile_append_of_pos hcs, List.dropWhile_append_of_pos hcs,
    List.takeWhile_cons_of_neg hpoint, List.dropWhile_cons_of_neg hpoint, List.append_nil]
  have hall : ds.all Char.isDigit = true := List.all_eq_true.mpr hds
  simp [hne, hne', hall]

theorem isNumber_of_isDecimal (h : isDecimal cs = true) : isNumber cs = true := by
  unfold isNumber
  split
  · exact absurd h Bool.false_ne_true
  · rw [h, Bool.true_or, Bool.true_or]

theorem isNumber_neg (h : isDecimal cs = true) : isNumber ('-' :: cs) = true := by
  rw [isNumber, h, Bool.true_or]

theorem isNumber_count (n : Nat) : isNumber (count n).toList = true := by
  unfold count
  rw [String.toList_ofList]
  exact isNumber_of_isDecimal (isDecimal_digits (allDigits_digits n) (digits_ne_nil n))

theorem isDecimal_fixedText {places : Nat} (h : 0 < places) (units : Nat) :
    isDecimal (fixedText places units) = true := by
  let padded := List.replicate (places + 1 - (digits units).length) '0' ++ digits units
  have hdigits : AllDigits padded := (allDigits_zeros _).append (allDigits_digits units)
  have hlength : places + 1 ≤ padded.length := by
    simp only [padded, List.length_append, List.length_replicate]
    omega
  have htext : fixedText places units =
      padded.take (padded.length - places) ++ '.' :: padded.drop (padded.length - places) := by
    unfold fixedText
    exact if_neg (by simpa using Nat.ne_of_gt h)
  rw [htext]
  refine isDecimal_pointed (fun c hc => hdigits c (List.mem_of_mem_take hc)) ?_
    (fun c hc => hdigits c (List.mem_of_mem_drop hc)) ?_
  · rw [← List.length_pos_iff, List.length_take]
    omega
  · rw [← List.length_pos_iff, List.length_drop]
    omega

/-- Every double is written as a number. -/
theorem isNumber_fixed {places : Nat} (h : 0 < places) (x : Float) :
    isNumber (fixed places x).toList = true := by
  have hwords : isNumber "inf".toList = true ∧ isNumber "-inf".toList = true ∧
      isNumber "NaN".toList = true := by decide
  unfold fixed
  cases classify x with
  | finite v =>
    dsimp only
    rw [String.toList_ofList]
    split
    · exact isNumber_neg (isDecimal_fixedText h _)
    · exact isNumber_of_isDecimal (isDecimal_fixedText h _)
  | infinite negative =>
    cases negative with
    | false => exact hwords.1
    | true => exact hwords.2.1
  | nan => exact hwords.2.2

end Values

/-- The samples that a cluster is measured by: one for each node type that is counted, each target of the
last tick, each number of the whole cluster, and each resource in use or available. -/
def measured (status : ClusterStatus) (usage : ResourceUsage Float) : List Reading :=
  let whole (metric value : String) : Reading := ⟨metric, [("cluster", status.clusterName)], value⟩
  let part (metric label key value : String) : Reading :=
    ⟨metric, [("cluster", status.clusterName), (label, key)], value⟩
  status.nodesByType.entries.map (fun e => part "fleetscale_nodes" "node_type" e.1 (count e.2)) ++
  ((status.lastTick.map (·.targets.entries)).getD []).map
    (fun e => part "fleetscale_target_nodes" "node_type" e.1 (count e.2)) ++
  [whole "fleetscale_ticks_total" (count status.ticks),
    whole "fleetscale_nodes_launched_total" (count status.launchedTotal),
    whole "fleetscale_nodes_terminated_total" (count status.terminatedTotal),
    whole "fleetscale_update_failures_total" (count status.updateFailuresTotal),
    whole "fleetscale_provider_failures_total" (count status.breaker.totalFailures),
    whole "fleetscale_updaters_in_flight" (fixed 4 status.updatersInFlight.toFloat),
    whole "fleetscale_breaker_tripped" (if status.breaker.tripped then "1.0000" else "0.0000"),
    whole "fleetscale_breaker_failures_in_window" (fixed 4 status.breaker.failuresInWindow.toFloat),
    whole "fleetscale_utilization_fraction" (fixed 4 usage.utilizationFraction)] ++
  usage.usedByResource.toList.map
    (fun e => part "fleetscale_resource_used" "resource" e.1 (fixed 2 e.2)) ++
  usage.availableByResource.toList.map
    (fun e => part "fleetscale_resource_available" "resource" e.1 (fixed 2 e.2))

/-- Two readings are told apart by their names or by their sets of labels. -/
def Reading.Apart (r r' : Reading) : Prop :=
  r.metric = r'.metric → ¬ ∀ l, l ∈ r.labels ↔ l ∈ r'.labels

/-- A family has well-formed parts, and its readings are told apart. -/
structure Family.Sound (f : Family) : Prop where
  wellFormed : f.WellFormed
  apart : f.readings.Pairwise Reading.Apart

section Families

variable {cluster name help label value : String} {kind : Kind} {α : Type} {text : α → String}
  {t : List (String × α)}

theorem isName_cluster : isName "cluster".toList = true := by decide

theorem sound_single (hname : isName name.toList = true) (hhelp : '\n' ∉ help.toList)
    (hvalue : isNumber value.toList = true) : (single cluster name help kind value).Sound where
  wellFormed := by
    refine ⟨hname, hhelp, fun s hs => ?_, fun s hs => ?_⟩
    · obtain rfl := List.mem_singleton.mp hs
      refine ⟨List.cons_ne_nil _ _, fun l hl => ?_⟩
      obtain rfl := List.mem_singleton.mp hl
      exact isName_cluster
    · obtain rfl := List.mem_singleton.mp hs
      exact hvalue
  apart := List.pairwise_singleton _ _

/-- Readings whose keys differ are told apart. -/
theorem apart_of_ne {metric key key' value' : String} (hlabel : label ≠ "cluster")
    (hne : key ≠ key') :
    Reading.Apart ⟨metric, [("cluster", cluster), (label, key)], value⟩
      ⟨metric, [("cluster", cluster), (label, key')], value'⟩ := by
  intro _ hsame
  have hmem := (hsame (label, key)).mp (by simp)
  simp [hlabel, hne] at hmem

theorem sound_keyed (hname : isName name.toList = true) (hhelp : '\n' ∉ help.toList)
    (hlabel : isName label.toList = true ∧ label ≠ "cluster")
    (hvalue : ∀ e ∈ t, isNumber (text e.2).toList = true) (hkeys : (t.map (·.1)).Nodup) :
    (keyed cluster name help label text t).Sound where
  wellFormed := by
    refine ⟨hname, hhelp, fun s hs => ?_, fun s hs => ?_⟩
    · obtain ⟨e, -, rfl⟩ := List.mem_map.mp hs
      refine ⟨List.cons_ne_nil _ _, fun l hl => ?_⟩
      rcases List.mem_cons.mp hl with rfl | hl
      · exact isName_cluster
      · obtain rfl := List.mem_singleton.mp hl
        exact hlabel.1
    · obtain ⟨e, he, rfl⟩ := List.mem_map.mp hs
      exact hvalue e he
  apart := by
    unfold Family.readings keyed
    rw [List.map_map, List.pairwise_map]
    exact (List.pairwise_map.mp hkeys).imp fun hne => apart_of_ne hlabel.2 hne

end Families

variable (status : ClusterStatus) (usage : ResourceUsage Float)

theorem sound_families : ∀ f ∈ families status usage, f.Sound := by
  have htargets : (((status.lastTick.map (·.targets.entries)).getD []).map (·.1)).Nodup := by
    cases status.lastTick with
    | none => exact List.nodup_nil
    | some tick => exact tick.targets.keys_nodup
  have htype : isName "node_type".toList = true ∧ "node_type" ≠ "cluster" := by decide
  have hresource : isName "resource".toList = true ∧ "resource" ≠ "cluster" := by decide
  unfold families
  simp only [List.forall_mem_cons]
  refine ⟨?_, ?_, ?_, ?_, ?_, ?_, ?_, ?_, ?_, ?_, ?_, ?_, ?_, fun _ h => nomatch h⟩
  · exact sound_keyed (by decide) (by decide) htype (fun _ _ => isNumber_count _)
      status.nodesByType.keys_nodup
  · exact sound_keyed (by decide) (by decide) htype (fun _ _ => isNumber_count _) htargets
  iterate 5 exact sound_single (by decide) (by decide) (isNumber_count _)
  iterate 4 exact sound_single (by decide) (by decide) (isNumber_fixed (by decide) _)
  · exact sound_keyed (by decide) (by decide) hresource (fun _ _ => isNumber_fixed (by decide) _)
      usage.usedByResource.amounts.keys_nodup
  · exact sound_keyed (by decide) (by decide) hresource (fun _ _ => isNumber_fixed (by decide) _)
      usage.availableByResource.amounts.keys_nodup

theorem readings_keyed {α : Type} (cluster name help label : String) (text : α → String)
    (t : List (String × α)) : (keyed cluster name help label text t).readings =
      t.map fun e => ⟨name, [("cluster", cluster), (label, e.1)], text e.2⟩ := by
  unfold Family.readings keyed
  rw [List.map_map]
  rfl

theorem readings_single (cluster name help : String) (kind : Kind) (value : String) :
    (single cluster name help kind value).readings = [⟨name, [("cluster", cluster)], value⟩] := rfl

theorem readings_families : (families status usage).flatMap Family.readings =
    measured status usage := by
  have htripped : fixed 4 (if status.breaker.tripped then 1.0 else 0.0) =
      if status.breaker.tripped then "1.0000" else "0.0000" := by
    have htexts : fixed 4 1.0 = "1.0000" ∧ fixed 4 0.0 = "0.0000" := by decide +kernel
    split
    · exact htexts.1
    · exact htexts.2
  unfold families measured
  dsimp only
  simp only [List.flatMap_cons, List.flatMap_nil, readings_keyed, readings_single, htripped,
    List.append_assoc, List.cons_append, List.nil_append, List.append_nil]

theorem names_families_nodup : ((families status usage).map (·.name)).Nodup := by
  have hnames : (families status usage).map (·.name) =
      ["fleetscale_nodes", "fleetscale_target_nodes", "fleetscale_ticks_total",
        "fleetscale_nodes_launched_total", "fleetscale_nodes_terminated_total",
        "fleetscale_update_failures_total", "fleetscale_provider_failures_total",
        "fleetscale_updaters_in_flight", "fleetscale_breaker_tripped",
        "fleetscale_breaker_failures_in_window", "fleetscale_utilization_fraction",
        "fleetscale_resource_used", "fleetscale_resource_available"] := rfl
  rw [hnames]
  decide

theorem apart_measured : (measured status usage).Pairwise Reading.Apart := by
  rw [← readings_families, List.pairwise_flatMap]
  refine ⟨fun f hf => (sound_families status usage f hf).apart, ?_⟩
  refine (List.pairwise_map.mp (names_families_nodup status usage)).imp fun {f g} hne => ?_
  -- readings of different families differ in their names
  intro r hr r' hr' hsame
  obtain ⟨s, -, rfl⟩ := List.mem_map.mp hr
  obtain ⟨s', -, rfl⟩ := List.mem_map.mp hr'
  exact absurd hsame hne

/-- The exposition of a cluster can be read line by line. It has exactly the samples that the cluster is
measured by, with the labels as they were and the values as printed, and no two of them have the same
name and the same set of labels. -/
theorem scrape_ofCluster : ∃ lines, scrape (ofCluster status usage) = some lines ∧
    lines.filterMap Line.reading? = measured status usage ∧
    (measured status usage).Pairwise fun r r' =>
      r.metric = r'.metric → ¬ ∀ l, l ∈ r.labels ↔ l ∈ r'.labels := by
  refine ⟨(families status usage).flatMap Family.readLines, ?_, ?_, apart_measured status usage⟩
  · exact Family.scrape_render fun f hf => (sound_families status usage f hf).wellFormed
  · rw [Family.filterMap_readLines, readings_families]

end ClusterScaler.Exposition
