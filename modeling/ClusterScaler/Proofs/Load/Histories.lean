import ClusterScaler.Proofs.Load.Records
import Mathlib.Data.List.Infix

/-!
# The history of a load record

A record is created by the first report of a node or by starting its clock, lives through further
reports, and is dropped with its node. What it holds is a matter of its life alone: the latest report
that was accepted since it was created, and the latest one that told of a usage. `get?_history` says
so for every history of calls, with times in any order.
-/

set_option autoImplicit false

namespace ClusterScaler

namespace LoadStore

/-- What a load store is asked to do. -/
inductive Call (α : Type) where
  | report (node : NodeId) (used available : Resources α) (time : Nat)
  | activate (node : NodeId) (time : Nat)
  | findSilent (before : Nat)
  | prune (live : List NodeId)
  | remove (node : NodeId)
  | setTimeout (timeout : Nat)

/-- What a node reported, and when. -/
structure Report (α : Type) where
  used : Resources α
  available : Resources α
  time : Nat

/-- All that a store has been asked to do, the latest call first. -/
abbrev History (α : Type) := List (Call α)

/-- The node whose clock a call can start, and the time it starts at. -/
def Call.clock? {α : Type} : Call α → Option (NodeId × Nat)
  | report node _ _ time | activate node time => some (node, time)
  | findSilent _ | prune _ | remove _ | setTimeout _ => none

variable {α : Type} [Amount α]

/-- Whether a report tells of a usage. -/
def Report.busy (r : Report α) : Bool := !r.used.isZero

/-- The store once a call is answered. To look for silent nodes changes nothing. -/
def serve (s : LoadStore α) : Call α → LoadStore α
  | .report node used available time => (s.recordHeartbeat node used available time).1
  | .activate node time => s.markActive node time
  | .findSilent _ => s
  | .prune live => (s.prune live).1
  | .remove node => s.remove node
  | .setTimeout timeout => s.setHeartbeatTimeout timeout

/-- The report of a node that a call brings, if the store accepts it. -/
def accepted? (s : LoadStore α) (id : NodeId) : Call α → Option (Report α)
  | .report node used available time =>
    if node = id ∧ (s.recordHeartbeat node used available time).2 = true then
      some ⟨used, available, time⟩
    else none
  | _ => none

/-- The store that began without records after a history. -/
def after (timeout : Nat) : History α → LoadStore α
  | [] => new timeout
  | call :: before => (after timeout before).serve call

/-- The reports of a node that were accepted after an earlier history, the latest first. -/
def acceptedSince (timeout : Nat) (id : NodeId) (before : History α) : History α → List (Report α)
  | [] => []
  | call :: rest =>
    ((after timeout (rest ++ before)).accepted? id call).toList ++ acceptedSince timeout id before rest

/-- A record of a node was created by a call at a time, after an earlier history without one, and
has been there ever since. -/
structure Life (timeout : Nat) (id : NodeId) (h since : History α) (creation : Call α)
    (created : Nat) (before : History α) : Prop where
  split : h = since ++ creation :: before
  absent : (after timeout before).get? id = none
  clock : creation.clock? = some (id, created)
  lasts : ∀ part, part <:+ since →
    ((after timeout (part ++ creation :: before)).get? id).isSome = true

/-- A record that was created at a time holds what the reports since then say, the latest first. -/
structure Remembers (reports : List (Report α)) (created : Nat) (load : NodeLoad α) : Prop where
  used : load.used = (reports.head?.map (·.used)).getD ∅
  available : load.available = (reports.head?.map (·.available)).getD ∅
  lastHeartbeat : load.lastHeartbeat = (reports.head?.map (·.time)).getD created
  lastUsed : load.lastUsed = ((reports.find? Report.busy).map (·.time)).getD created

/-- All that a call can do to the record of a node. -/
inductive Change (s : LoadStore α) (id : NodeId) (call : Call α) : Option (NodeLoad α) → Prop where
  /-- The record, or that there is none, stays as it is. -/
  | kept (hquiet : s.accepted? id call = none) : Change s id call (s.get? id)
  /-- The record is dropped. -/
  | dropped : Change s id call none
  /-- The clock of the node is started without a report. -/
  | seeded {time : Nat} (hnone : s.get? id = none) (hclock : call.clock? = some (id, time))
    (hquiet : s.accepted? id call = none) : Change s id call (some (NodeLoad.seeded time))
  /-- The first report creates the record. -/
  | first {r : Report α} (hnone : s.get? id = none) (hclock : call.clock? = some (id, r.time))
    (haccepted : s.accepted? id call = some r) :
    Change s id call (some ⟨r.used, r.available, r.time, r.time⟩)
  /-- A report that is not older than the record renews it. -/
  | renewed {l : NodeLoad α} {r : Report α} (hsome : s.get? id = some l)
    (hle : l.lastHeartbeat ≤ r.time) (haccepted : s.accepted? id call = some r) :
    Change s id call (some ⟨r.used, r.available, r.time, if r.busy then r.time else l.lastUsed⟩)

variable {s : LoadStore α} {id : NodeId} {timeout : Nat}

theorem accepted?_report {used available : Resources α} {time : Nat}
    (h : (s.recordHeartbeat id used available time).2 = true) :
    s.accepted? id (.report id used available time) = some ⟨used, available, time⟩ :=
  if_pos ⟨rfl, h⟩

theorem change_report (s : LoadStore α) (id node : NodeId) (used available : Resources α)
    (time : Nat) :
    Change s id (.report node used available time)
      ((s.recordHeartbeat node used available time).1.get? id) := by
  by_cases hnode : node = id
  · subst hnode
    cases haccepted : (s.recordHeartbeat node used available time).2 with
    | false =>
      rw [recordHeartbeat_of_dropped haccepted]
      exact .kept (if_neg (by simp [haccepted]))
    | true =>
      cases hget : s.get? node with
      | none =>
        rw [get?_recordHeartbeat_of_none hget]
        exact .first hget rfl (accepted?_report haccepted)
      | some l =>
        have hle : l.lastHeartbeat ≤ time := le_of_recordHeartbeat haccepted hget
        have hused : (if used.isZero = true then l.lastUsed else time) =
            if (Report.mk used available time).busy = true then time else l.lastUsed := by
          unfold Report.busy
          cases used.isZero <;> rfl
        rw [get?_recordHeartbeat_of_some hget hle, hused]
        exact .renewed hget hle (accepted?_report haccepted)
  · rw [get?_recordHeartbeat_of_ne (Ne.symm hnode)]
    exact .kept (if_neg fun h => hnode h.1)

theorem change_activate (s : LoadStore α) (id node : NodeId) (time : Nat) :
    Change s id (.activate node time) ((s.markActive node time).get? id) := by
  rw [get?_markActive]
  split
  · next heq =>
    subst heq
    cases hget : s.get? id with
    | none => exact .seeded hget rfl rfl
    | some l =>
      rw [Option.getD_some, ← hget]
      exact .kept rfl
  · exact .kept rfl

/-- A call does nothing else to the record of a node. -/
theorem change_serve (s : LoadStore α) (id : NodeId) (call : Call α) :
    Change s id call ((s.serve call).get? id) := by
  cases call with
  | report node used available time => exact change_report s id node used available time
  | activate node time => exact change_activate s id node time
  | findSilent _ => exact .kept rfl
  | prune live =>
    unfold serve
    rw [get?_prune]
    split
    · exact .kept rfl
    · exact .dropped
  | remove node =>
    unfold serve
    rw [get?_remove]
    split
    · exact .dropped
    · exact .kept rfl
  | setTimeout timeout => exact .kept rfl

section Change

variable {call : Call α} {load : NodeLoad α}

/-- A call leaves a node used no later than heard. -/
theorem Change.lastUsed_le (h : Change s id call (some load))
    (hs : ∀ l, s.get? id = some l → l.lastUsed ≤ l.lastHeartbeat) :
    load.lastUsed ≤ load.lastHeartbeat := by
  generalize hafter : some load = after at h
  cases h with
  | kept _ => exact hs load hafter.symm
  | dropped => cases hafter
  | seeded _ _ _ | first _ _ _ =>
    cases hafter
    exact Nat.le_refl _
  | @renewed l r hsome hle _ =>
    cases hafter
    dsimp only
    split
    · exact Nat.le_refl _
    · exact Nat.le_trans (hs l hsome) hle

/-- A call never sets the heartbeat of a record back. -/
theorem Change.lastHeartbeat_le {l : NodeLoad α} (h : Change s id call (some load))
    (hl : s.get? id = some l) : l.lastHeartbeat ≤ load.lastHeartbeat := by
  generalize hafter : some load = after at h
  cases h with
  | kept _ =>
    cases hl.symm.trans hafter.symm
    exact Nat.le_refl _
  | dropped => cases hafter
  | seeded hnone _ _ | first hnone _ _ => cases hnone.symm.trans hl
  | renewed hsome hle _ =>
    cases hafter
    cases hsome.symm.trans hl
    exact hle

/-- A record that a call creates holds what the call says. -/
theorem Change.remembers_created {created : Nat} (h : Change s id call (some load))
    (hnone : s.get? id = none) (hclock : call.clock? = some (id, created)) :
    Remembers (s.accepted? id call).toList created load := by
  generalize hafter : some load = after at h
  cases h with
  | kept _ => cases hnone.symm.trans hafter.symm
  | dropped => cases hafter
  | @seeded time _ htime hquiet =>
    cases hafter
    cases hclock.symm.trans htime
    rw [hquiet]
    exact ⟨rfl, rfl, rfl, rfl⟩
  | @first r _ htime haccepted =>
    cases hafter
    cases hclock.symm.trans htime
    rw [haccepted]
    refine ⟨rfl, rfl, rfl, ?_⟩
    rw [Option.toList_some, List.find?_singleton]
    split <;> rfl
  | renewed hsome _ _ => cases hnone.symm.trans hsome

/-- A record that a call leaves in place remembers one report more if the call brings one. -/
theorem Change.remembers {l : NodeLoad α} {reports : List (Report α)} {created : Nat}
    (h : Change s id call (some load)) (hl : s.get? id = some l)
    (hremembers : Remembers reports created l) :
    Remembers ((s.accepted? id call).toList ++ reports) created load := by
  generalize hafter : some load = after at h
  cases h with
  | kept hquiet =>
    cases hl.symm.trans hafter.symm
    rw [hquiet]
    exact hremembers
  | dropped => cases hafter
  | seeded hnone _ _ | first hnone _ _ => cases hnone.symm.trans hl
  | @renewed l' r hsome _ haccepted =>
    cases hafter
    cases hsome.symm.trans hl
    rw [haccepted]
    refine ⟨rfl, rfl, rfl, ?_⟩
    rw [Option.toList_some, List.singleton_append, List.find?_cons]
    cases r.busy
    · exact hremembers.lastUsed
    · rfl

/-- Where a call leaves a record that was not there, it started the clock of the node. -/
theorem Change.exists_clock (h : Change s id call (some load)) (hnone : s.get? id = none) :
    ∃ created, call.clock? = some (id, created) := by
  generalize hafter : some load = after at h
  cases h with
  | kept _ => cases hnone.symm.trans hafter.symm
  | dropped => cases hafter
  | seeded _ hclock _ | first _ hclock _ => exact ⟨_, hclock⟩
  | renewed hsome _ _ => cases hnone.symm.trans hsome

end Change

section History

variable {h since before : History α} {creation : Call α} {created : Nat} {load : NodeLoad α}

theorem change_after {call : Call α}
    (hload : (after timeout (call :: h)).get? id = some load) :
    Change (after timeout h) id call (some load) := by
  rw [← hload]
  exact change_serve (after timeout h) id call

theorem lastUsed_le_after (hload : (after timeout h).get? id = some load) :
    load.lastUsed ≤ load.lastHeartbeat := by
  induction h generalizing load with
  | nil => cases hload
  | cons call before ih => exact (change_after hload).lastUsed_le fun _ => ih

/-- As long as a record lasts, its heartbeat is not set back. -/
theorem lastHeartbeat_le_after {more : History α} {later : NodeLoad α}
    (hload : (after timeout h).get? id = some load)
    (hlasts : ∀ part, part <:+ more → ((after timeout (part ++ h)).get? id).isSome = true)
    (hlater : (after timeout (more ++ h)).get? id = some later) :
    load.lastHeartbeat ≤ later.lastHeartbeat := by
  induction more generalizing later with
  | nil =>
    cases hload.symm.trans hlater
    exact Nat.le_refl _
  | cons call more ih =>
    obtain ⟨l, hl⟩ := Option.isSome_iff_exists.mp (hlasts more (List.suffix_cons call more))
    have hearlier := ih (fun part hpart =>
      hlasts part (hpart.trans (List.suffix_cons call more))) hl
    exact Nat.le_trans hearlier ((change_after hlater).lastHeartbeat_le hl)

/-- A call more that leaves the record in place prolongs its life. -/
theorem Life.prolonged {call : Call α} (hlife : Life timeout id h since creation created before)
    (hsome : ((after timeout (call :: h)).get? id).isSome = true) :
    Life timeout id (call :: h) (call :: since) creation created before where
  split := by rw [hlife.split, List.cons_append]
  absent := hlife.absent
  clock := hlife.clock
  lasts part hpart := by
    rcases List.suffix_cons_iff.mp hpart with rfl | hpart
    · rw [List.cons_append, ← hlife.split]
      exact hsome
    · exact hlife.lasts part hpart

/-- Every record has a life. -/
theorem exists_life (hload : (after timeout h).get? id = some load) :
    ∃ since creation created before, Life timeout id h since creation created before := by
  induction h generalizing load with
  | nil => cases hload
  | cons call h ih =>
    cases hbefore : (after timeout h).get? id with
    | some l =>
      obtain ⟨since, creation, created, before, hlife⟩ := ih hbefore
      exact ⟨call :: since, creation, created, before,
        hlife.prolonged (Option.isSome_iff_exists.mpr ⟨load, hload⟩)⟩
    | none =>
      obtain ⟨created, hclock⟩ := (change_after hload).exists_clock hbefore
      refine ⟨[], call, created, h, rfl, hbefore, hclock, fun part hpart => ?_⟩
      obtain rfl := List.suffix_nil.mp hpart
      exact Option.isSome_iff_exists.mpr ⟨load, hload⟩

/-- A record holds what the reports of its life say. -/
theorem remembers_of_lasts (habsent : (after timeout before).get? id = none)
    (hclock : creation.clock? = some (id, created))
    (hlasts : ∀ part, part <:+ since →
      ((after timeout (part ++ creation :: before)).get? id).isSome = true)
    (hload : (after timeout (since ++ creation :: before)).get? id = some load) :
    Remembers (acceptedSince timeout id before (since ++ [creation])) created load := by
  induction since generalizing load with
  | nil =>
    have hreports : acceptedSince timeout id before [creation] =
        ((after timeout before).accepted? id creation).toList := List.append_nil _
    rw [List.nil_append, hreports]
    exact (change_after hload).remembers_created habsent hclock
  | cons call since ih =>
    obtain ⟨l, hl⟩ := Option.isSome_iff_exists.mp (hlasts since (List.suffix_cons call since))
    have hearlier := ih (fun part hpart =>
      hlasts part (hpart.trans (List.suffix_cons call since))) hl
    rw [List.cons_append, acceptedSince, List.append_assoc, List.singleton_append]
    exact (change_after hload).remembers hl hearlier

end History

/-- After every history of calls a node has at most one record. A report is dropped exactly if a later
one was recorded, and then nothing changes. A record exists exactly if some call created it and it has
been there ever since; it holds what the reports accepted since then say, its use is never later than
its heartbeat, and while it lasts the heartbeat is not set back. -/
theorem get?_history (timeout : Nat) (h : History α) (id : NodeId) :
    (after timeout h).records.keys.count id ≤ 1 ∧
    (∀ used available time,
      (((after timeout h).recordHeartbeat id used available time).2 = false ↔
        ∃ load, (after timeout h).get? id = some load ∧ time < load.lastHeartbeat) ∧
      (((after timeout h).recordHeartbeat id used available time).2 = false →
        ((after timeout h).recordHeartbeat id used available time).1 = after timeout h)) ∧
    (((after timeout h).get? id).isSome = true ↔
      ∃ since creation created before, Life timeout id h since creation created before) ∧
    ∀ load, (after timeout h).get? id = some load →
      load.lastUsed ≤ load.lastHeartbeat ∧
      (∀ since creation created before, Life timeout id h since creation created before →
        Remembers (acceptedSince timeout id before (since ++ [creation])) created load) ∧
      ∀ more later,
        (∀ part, part <:+ more → ((after timeout (part ++ h)).get? id).isSome = true) →
        (after timeout (more ++ h)).get? id = some later →
        load.lastHeartbeat ≤ later.lastHeartbeat := by
  refine ⟨List.nodup_iff_count.mp (Table.keys_nodup _) id, fun used available time => ?_, ?_,
    fun load hload => ⟨lastUsed_le_after hload, ?_, ?_⟩⟩
  · exact ⟨recordHeartbeat_eq_false_iff, recordHeartbeat_of_dropped⟩
  · constructor
    · intro hsome
      obtain ⟨load, hload⟩ := Option.isSome_iff_exists.mp hsome
      exact exists_life hload
    · rintro ⟨since, creation, created, before, hlife⟩
      rw [hlife.split]
      exact hlife.lasts since (List.suffix_refl since)
  · intro since creation created before hlife
    rw [hlife.split] at hload
    exact remembers_of_lasts hlife.absent hlife.clock hlife.lasts hload
  · exact fun more later hlasts hlater => lastHeartbeat_le_after hload hlasts hlater

/-- A node. -/
def someNode : NodeId := ⟨"fake-1"⟩

/-- The node was used and dropped, and its clock was started anew. -/
def startedAnew : History Float :=
  [.remove someNode, .report someNode (.ofList [("CPU", 2)]) ∅ 100]

/-- Of three reports since then the first came late, and the last one told of no usage. -/
def reportedThrice : History Float :=
  [.report someNode ∅ (.ofList [("CPU", 2)]) 220,
    .report someNode (.ofList [("CPU", 1)]) (.ofList [("CPU", 1)]) 160,
    .report someNode ∅ (.ofList [("CPU", 3)]) 130]

/-- All of this, with the clock started at 140. -/
def seededHistory : History Float := reportedThrice ++ .activate someNode 140 :: startedAnew

/-- The record goes back to the start of the clock: the node was used at 160 and heard at 220, and a
report from 200 is dropped. -/
theorem get?_history_seeded :
    Life 30 someNode seededHistory reportedThrice (.activate someNode 140) 140 startedAnew ∧
    ((after 30 seededHistory).recordHeartbeat someNode ∅ ∅ 200).1 = after 30 seededHistory ∧
    ∃ load later, (after 30 seededHistory).get? someNode = some load ∧
      load.used = ∅ ∧ load.available = .ofList [("CPU", 2)] ∧
      load.lastHeartbeat = 220 ∧ load.lastUsed = 160 ∧
      (after 30 (.report someNode ∅ ∅ 230 :: seededHistory)).get? someNode = some later ∧
      load.lastHeartbeat ≤ later.lastHeartbeat := by
  have hlasts : ∀ part ∈ reportedThrice.tails,
      ((after 30 (part ++ .activate someNode 140 :: startedAnew)).get? someNode).isSome = true := by
    decide +kernel
  have hlonger : ∀ part ∈ [Call.report someNode ∅ ∅ 230].tails,
      ((after 30 (part ++ seededHistory)).get? someNode).isSome = true := by
    decide +kernel
  have habsent : ((after 30 startedAnew).get? someNode).isNone = true := by
    decide +kernel
  have hlife : Life 30 someNode seededHistory reportedThrice (.activate someNode 140) 140
      startedAnew :=
    ⟨rfl, Option.isNone_iff_eq_none.mp habsent, rfl,
      fun part hpart => hlasts part ((List.mem_tails _ _).mpr hpart)⟩
  obtain ⟨-, hreport, hexists, hrecord⟩ := get?_history 30 seededHistory someNode
  obtain ⟨load, hload⟩ := Option.isSome_iff_exists.mp (hexists.mpr ⟨_, _, _, _, hlife⟩)
  obtain ⟨later, hlater⟩ := Option.isSome_iff_exists.mp (hlonger _ List.mem_cons_self)
  obtain ⟨-, hlives, hkept⟩ := hrecord load hload
  have hremembers := hlives _ _ _ _ hlife
  refine ⟨hlife, (hreport ∅ ∅ 200).2 (by decide +kernel), load, later, hload,
    hremembers.used.trans rfl, hremembers.available.trans rfl,
    hremembers.lastHeartbeat.trans (by decide +kernel),
    hremembers.lastUsed.trans (by decide +kernel), hlater, ?_⟩
  exact hkept [.report someNode ∅ ∅ 230] later
    (fun part hpart => hlonger part ((List.mem_tails _ _).mpr hpart)) hlater

end LoadStore

end ClusterScaler
