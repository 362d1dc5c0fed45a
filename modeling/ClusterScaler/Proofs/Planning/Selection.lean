import ClusterScaler.Proofs.Planning.Excess
import ClusterScaler.Proofs.Tick.Plan

/-!
# Which nodes of a type are given up

Of a type with more healthy nodes than its target, as many are given up as there are above the target,
but none with an updater in flight. Those are counted and left out only then, so where there are many
of them fewer nodes are given up. The others go in their turn: idle ones first, then the less
utilized. `selects_planExcess` says all of this for any nodes.
-/

set_option autoImplicit false

namespace ClusterScaler.ControlLoop

variable {l : ControlLoop} {healthy : List (NodeRecord × NodeCapacity Float)}
  {nodeType : String} {target : Nat} {a b : NodeRecord × NodeCapacity Float}

/-- What is given up of a type are healthy nodes of that type. -/
theorem exists_of_mem_excessOf {id : NodeId} (h : id ∈ l.excessOf healthy nodeType target) :
    ∃ e ∈ healthy, e.1.id = id ∧ e.1.nodeType? = some nodeType := by
  unfold excessOf at h
  obtain ⟨c, hc, rfl⟩ := List.mem_map.mp h
  have hsorted := (sortCandidates_perm _).mem_iff.mp (List.mem_of_mem_take hc)
  obtain ⟨e, he, htype, rfl⟩ := mem_candidatesOf_iff.mp (List.mem_of_mem_filter hsorted)
  exact ⟨e, he, rfl, htype⟩

/-- No node is given up twice: it has one type, and within that it is one candidate. -/
theorem nodup_planExcess (hdistinct : (healthy.map (·.1.id)).Nodup) (targets : Table String Nat) :
    (l.planExcess healthy targets).Nodup := by
  unfold planExcess
  rw [List.nodup_flatMap]
  refine ⟨fun e _ => nodup_excessOf hdistinct e.1 e.2, ?_⟩
  refine (List.pairwise_map.mp targets.keys_nodup).imp fun {e e'} hne id hid hid' => hne ?_
  obtain ⟨n, hn, rfl, htype⟩ := exists_of_mem_excessOf hid
  obtain ⟨n', hn', hsame, htype'⟩ := exists_of_mem_excessOf hid'
  obtain rfl := List.inj_on_of_nodup_map hdistinct hn' hn hsame
  exact Option.some.inj (htype.symm.trans htype')

/-- A node that is given up of a type has its turn before those that are kept without an updater. -/
theorem turn_le_of_mem_excessOf (hdistinct : (healthy.map (·.1.id)).Nodup) (ha : a ∈ healthy)
    (hb : b ∈ healthy) (htype : b.1.nodeType? = some nodeType)
    (hgiven : a.1.id ∈ l.excessOf healthy nodeType target)
    (hkept : b.1.id ∉ l.excessOf healthy nodeType target) (hfree : l.isUpdating b.1.id = false) :
    Candidate.turn ⟨a.2.idle, a.2.utilization.getD 1.0, a.1.id⟩ ≤
      Candidate.turn ⟨b.2.idle, b.2.utilization.getD 1.0, b.1.id⟩ := by
  have hdistinct' : ((⟨[], healthy, ∅, []⟩ : TickPlan).healthy.map (·.1.id)).Nodup := hdistinct
  refine (sortCandidates_inTurn _).turn_le_of_mem_take ((mem_excessOf_iff hdistinct' ha).mp hgiven).2
    ?_ (fun hmem => hkept ((mem_excessOf_iff hdistinct' hb).mpr ⟨htype, hmem⟩))
  rw [(sortCandidates_perm _).mem_iff, List.mem_filter, mem_candidatesOf_iff]
  exact ⟨⟨b, hb, htype, rfl⟩, by simp [hfree]⟩

/-- The nodes of a list are those to give up: of each type as many as there are above its target, as
far as they have no updater in flight, and those of them whose turn comes first. -/
structure Selects (l : ControlLoop) (healthy : List (NodeRecord × NodeCapacity Float))
    (targets : Table String Nat) (ids : List NodeId) : Prop where
  nodup : ids.Nodup
  free : ∀ id ∈ ids, l.isUpdating id = false
  known : ∀ id ∈ ids, ∃ e ∈ healthy, e.1.id = id ∧
    ∃ nodeType ∈ targets.keys, e.1.nodeType? = some nodeType
  count : ∀ nodeType target, targets.get? nodeType = some target →
    let live := healthy.countP (fun e => e.1.nodeType? = some nodeType)
    let held := healthy.countP (fun e => e.1.nodeType? = some nodeType ∧ l.isUpdating e.1.id)
    healthy.countP (fun e => e.1.nodeType? = some nodeType ∧ e.1.id ∈ ids) =
      if target < live then min (live - target) (live - held) else 0
  turn : ∀ a ∈ healthy, ∀ b ∈ healthy, a.1.nodeType? = b.1.nodeType? → a.1.id ∈ ids →
    b.1.id ∉ ids → l.isUpdating b.1.id = false →
      (a.2.idle = true ∧ b.2.idle = false) ∨
        (a.2.idle = b.2.idle ∧ a.2.utilization.getD 1.0 ≤ b.2.utilization.getD 1.0)

/-- For any healthy nodes whose utilizations are finite, the nodes to give up are selected. -/
theorem selects_planExcess (l : ControlLoop) (targets : Table String Nat)
    (hdistinct : (healthy.map (·.1.id)).Nodup)
    (hfinite : ∀ e ∈ healthy, ∀ u, e.2.utilization = some u → u.isFinite = true) :
    l.Selects healthy targets (l.planExcess healthy targets) where
  nodup := nodup_planExcess hdistinct targets
  free id hid := by
    obtain ⟨e, -, hid⟩ := List.mem_flatMap.mp hid
    exact isUpdating_of_mem_excessOf hid
  known id hid := by
    obtain ⟨entry, hentry, hid⟩ := List.mem_flatMap.mp hid
    obtain ⟨e, he, heq, htype⟩ := exists_of_mem_excessOf hid
    exact ⟨e, he, heq, entry.1, List.mem_map_of_mem hentry, htype⟩
  count nodeType target htarget := by
    have hcount := countP_excess (l := l) (p := ⟨[], healthy, targets, []⟩) hdistinct htarget
    dsimp only at hcount ⊢
    rw [hcount]
    split
    · rfl
    · next hle =>
      rw [TickPlan.live, Nat.sub_eq_zero_of_le (not_lt.mp hle), Nat.zero_min]
  turn a ha b hb hsame hgiven hkept hfree := by
    obtain ⟨⟨nodeType, target⟩, hentry, hgiven⟩ := List.mem_flatMap.mp hgiven
    obtain ⟨e, he, heq, htype⟩ := exists_of_mem_excessOf hgiven
    obtain rfl := List.inj_on_of_nodup_map hdistinct he ha heq
    have hturn := turn_le_of_mem_excessOf hdistinct he hb (hsame.symm.trans htype) hgiven
      (fun hmem => hkept (List.mem_flatMap.mpr ⟨_, hentry, hmem⟩)) hfree
    have hnumber : (b.2.utilization.getD 1.0).isNaN = false := by
      apply isNaN_eq_false_of_isFinite
      cases hu : b.2.utilization with
      | none => decide +kernel
      | some u => exact hfinite b hb u hu
    rw [← Candidate.precedes_iff, Candidate.precedes] at hturn
    dsimp only at hturn
    split at hturn
    · next hidle => exact .inr ⟨beq_iff_eq.mp hidle, float_le_of_totalLe hnumber hturn⟩
    · next hidle =>
      refine .inl ⟨hturn, ?_⟩
      simpa [hturn] using hidle

/-- Of four nodes of the head type: an idle one with an updater, an idle one, a busy one and one that
has reported nothing. -/
def fourOfHeadType : List (NodeRecord × NodeCapacity Float) :=
  [(.ofHeadType "a", ⟨"head", ∅, some 0, true⟩), (.ofHeadType "b", ⟨"head", ∅, none, false⟩),
    (.ofHeadType "c", ⟨"head", ∅, some 0.5, false⟩), (.ofHeadType "d", ⟨"head", ∅, some 0.75, true⟩)]

/-- The idle node without an updater goes first, then the busy one. -/
theorem selects_planExcess_fourOfHeadType :
    (fourOfHeadType.map (·.1.id)).Nodup ∧
      (∀ e ∈ fourOfHeadType, ∀ u, e.2.utilization = some u → u.isFinite = true) ∧
        holdingIdle.planExcess fourOfHeadType (.ofList [("head", 2)]) = [⟨"d"⟩, ⟨"c"⟩] ∧
          holdingIdle.Selects fourOfHeadType (.ofList [("head", 2)])
            (holdingIdle.planExcess fourOfHeadType (.ofList [("head", 2)])) := by
  have hdistinct : (fourOfHeadType.map (·.1.id)).Nodup := by decide +kernel
  have hfinite : ∀ e ∈ fourOfHeadType, ∀ u, e.2.utilization = some u → u.isFinite = true := by
    simp only [fourOfHeadType, List.forall_mem_cons, Option.some.injEq, forall_eq']
    exact ⟨by decide +kernel, fun u hu => (nomatch hu), by decide +kernel, by decide +kernel,
      List.forall_mem_nil _⟩
  exact ⟨hdistinct, hfinite, by decide +kernel, selects_planExcess holdingIdle _ hdistinct hfinite⟩

end ClusterScaler.ControlLoop
