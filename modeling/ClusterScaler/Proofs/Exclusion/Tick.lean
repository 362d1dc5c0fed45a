import ClusterScaler.Proofs.Exclusion.Watch
import ClusterScaler.Proofs.Tick.Begin

/-!
# Every tick keeps the exclusion

The parts of a tick in turn: reading and launching terminate nothing, the one termination names
only doomed nodes, and updaters go to nodes that are not doomed.
-/

set_option autoImplicit false

namespace ClusterScaler.Watch

variable {doomed : List NodeId} {l : ControlLoop} {w : Watch}

theorem Sparing.readNode (h : Sparing doomed l w) (id : NodeId) :
    (Tick.readNode id).Meets protocol (fun _ l' w' => Sparing doomed l' w') l w := by
  unfold Tick.readNode
  rw [TickM.meets_bind]
  refine (h.retrying (fun _ _ h =>
    h.request (r := .nodeTags id) (fun _ hn => absurd hn List.not_mem_nil))).mono ?_
  intro tags l' w' h'
  cases tags with
  | error e => exact h'
  | ok tags =>
    dsimp only
    rw [TickM.meets_bind]
    refine (h'.retrying (fun _ _ h =>
      h.request (r := .isRunning id) (fun _ hn => absurd hn List.not_mem_nil))).mono ?_
    intro running l'' w'' h''
    cases running with
    | error e => exact h''
    | ok running => exact h''

theorem Sparing.readNodes (ids seen : List NodeId) (h : Sparing doomed l w) :
    (Tick.readNodes seen ids).Meets protocol (fun _ l' w' => Sparing doomed l' w') l w := by
  induction ids generalizing seen l w with
  | nil => exact h
  | cons id rest ih =>
    unfold Tick.readNodes
    split
    · exact h
    · rw [TickM.meets_bind]
      refine (h.readNode id).mono ?_
      intro node l' w' h'
      rw [TickM.meets_bind]
      refine (ih (id :: seen) h').mono ?_
      intro nodes l'' w'' h''
      cases nodes with
      | error e => exact h''
      | ok nodes => exact h''

theorem Sparing.reconcile (h : Sparing doomed l w) :
    Tick.reconcile.Meets protocol (fun _ l' w' => Sparing doomed l' w') l w := by
  unfold Tick.reconcile
  rw [TickM.meets_bind, TickM.meets_get, TickM.meets_bind]
  refine (h.retrying (fun _ _ h =>
    h.request (r := .listNodes _) (fun _ hn => absurd hn List.not_mem_nil))).mono ?_
  intro ids l' w' h'
  cases ids with
  | error e => exact h'
  | ok ids => exact h'.readNodes ids []

/-- The termination of a tick names the doomed nodes. -/
theorem Sparing.terminate (h : Sparing doomed l w) (s : TickSummary) :
    (Tick.terminate doomed s).Meets protocol (fun _ l' w' => Sparing doomed l' w') l w := by
  unfold Tick.terminate
  split
  · exact h
  · rw [TickM.meets_bind, TickM.meets_modify, TickM.meets_bind]
    have hmarked : Sparing doomed (l.markAll .terminating doomed) w := h.congr rfl
    refine (hmarked.retrying (fun _ _ h =>
      h.request (r := .terminateNodes doomed) (fun _ hn => hn))).mono ?_
    intro result l' w' h'
    cases result with
    | ok _ => exact h'.congr rfl
    | error e => exact h'.congr rfl

theorem Sparing.startLaunches (orders : List LaunchOrder) (h : Sparing doomed l w) :
    (Tick.startLaunches orders).Meets protocol (fun _ l' w' => Sparing doomed l' w') l w := by
  induction orders generalizing w with
  | nil => exact h
  | cons order rest ih =>
    unfold Tick.startLaunches
    rw [TickM.meets_bind]
    refine (TickM.meets_ask (q := .launch order)).mpr
      ⟨⟨h.tracks, fun n hn => absurd hn List.not_mem_nil, fun u hu => nomatch hu⟩, ?_⟩
    rintro r w' ⟨hmoves, hasked⟩
    apply ih
    refine ⟨?_, h.free, ?_, ?_⟩
    · have hsame : w'.flights = w.flights := hmoves
      rw [hsame]
      exact h.tracks
    · intro n hn
      rcases (mem_terminated_append hasked).mp hn with hold | hnew
      · exact h.asked n hold
      · cases hnew
    · rw [dispatched_append hasked, h.quiet]
      rfl

theorem Sparing.awaitLaunches (count : Nat) (s : TickSummary) (h : Sparing doomed l w) :
    (Tick.awaitLaunches count s).Meets protocol (fun _ l' w' => Sparing doomed l' w') l w := by
  induction count generalizing s l w with
  | zero => exact h
  | succ count ih =>
    unfold Tick.awaitLaunches
    rw [TickM.meets_bind]
    refine (TickM.meets_ask (q := .awaitLaunch)).mpr
      ⟨⟨h.tracks, fun n hn => absurd hn List.not_mem_nil, fun u hu => nomatch hu⟩, ?_⟩
    rintro d w' ⟨hmoves, hasked⟩
    have hnoted : Sparing doomed (l.complete d.ended) w' := by
      refine ⟨h.tracks.completeAll hmoves, ?_, ?_, ?_⟩
      · intro n hn
        have hsame : (l.complete d.ended).updaters.isUpdating n = l.updaters.isUpdating n :=
          UpdaterPool.isUpdating_completeAll
        rw [hsame]
        exact h.free n hn
      · intro n hn
        rcases (mem_terminated_append hasked).mp hn with hold | hnew
        · exact h.asked n hold
        · cases hnew
      · rw [dispatched_append hasked, h.quiet]
        rfl
    have hmerged : Sparing doomed (ControlLoop.mergeLaunch (s, l.complete d.ended) d.answer).2 w' := by
      apply hnoted.congr
      cases d.answer with
      | panicked => rfl
      | reported r =>
        unfold ControlLoop.mergeLaunch ControlLoop.countLaunched
        dsimp only
        split <;> split <;> rfl
    exact ih _ hmerged

theorem Sparing.launchUnlessTripped (deficits : List (String × Nat)) (s : TickSummary)
    (h : Sparing doomed l w) :
    (Tick.launchUnlessTripped deficits s).Meets protocol
      (fun _ l' w' => Sparing doomed l' w') l w := by
  unfold Tick.launchUnlessTripped
  split
  · exact h
  · rw [TickM.meets_bind, TickM.meets_get]
    split
    · exact h
    · unfold Tick.launch
      rw [TickM.meets_bind, TickM.meets_get, TickM.meets_bind]
      refine (h.startLaunches _).mono ?_
      intro _ l' w' h'
      exact h'.awaitLaunches _ s

theorem Sending.headAddress (nodes : List NodeRecord) (h : Sending doomed l w) :
    (Tick.headAddress nodes).Meets protocol (fun _ l' w' => Sending doomed l' w') l w := by
  unfold Tick.headAddress
  rw [TickM.meets_bind, TickM.meets_get]
  dsimp only
  split
  · split <;> exact h
  · rw [TickM.meets_bind]
    refine (h.retrying (fun _ _ h => h.request (r := .internalIp _) rfl)).mono ?_
    intro address l' w' h'
    cases address with
    | error e => exact h'
    | ok address => exact h'

theorem Sending.knownHead (nodes : List NodeRecord) (head : Option HeadAddress)
    (h : Sending doomed l w) :
    (Tick.knownHead nodes head).Meets protocol (fun _ l' w' => Sending doomed l' w') l w := by
  cases head with
  | some head => exact h
  | none => exact h.headAddress nodes

theorem Sending.dispatch {n : NodeRecord} (hn : n.id ∉ doomed) (time : Duration)
    (nodeType : String) (hashes : NodeTypeHashes) (head : Option String) (s : TickSummary)
    (h : Sending doomed l w) :
    (Tick.dispatch time n nodeType hashes head s).Meets protocol
      (fun _ l' w' => Sending doomed l' w') l w := by
  unfold Tick.dispatch
  rw [TickM.meets_bind, TickM.meets_get]
  dsimp only
  split
  · exact h
  · next updaters hdispatch =>
    obtain ⟨hfree, hslot, -⟩ := UpdaterPool.dispatch?_eq_some hdispatch
    have hzero := h.tracks.eq_zero hfree
    have htracks := h.tracks.dispatch hdispatch
    rw [TickM.meets_bind, TickM.meets_set, TickM.meets_bind]
    refine (TickM.meets_ask (q := .dispatch _)).mpr
      ⟨⟨htracks, fun n hn => absurd hn List.not_mem_nil, ?_⟩, ?_⟩
    · intro u hu
      cases hu
      exact ⟨hzero, fun hmem => hn (h.asked _ hmem), hslot⟩
    · rintro r w' ⟨hmoves, hasked⟩
      have hflights : w'.flights = w.flights.start n.id := hmoves
      refine ⟨?_, ?_⟩
      · rw [hflights]
        exact htracks.start hzero hslot
      · intro n hn
        rcases (mem_terminated_append hasked).mp hn with hold | hnew
        · exact h.asked n hold
        · cases hnew

/-- Updaters may be sent to any nodes that are not doomed. -/
theorem Sending.dispatchAll (time : Duration) (all nodes : List NodeRecord)
    (head : Option HeadAddress) (s : TickSummary) (hnodes : ∀ n ∈ nodes, n.id ∉ doomed)
    (h : Sending doomed l w) :
    (Tick.dispatchAll time all head nodes s).Meets protocol
      (fun _ l' w' => Sending doomed l' w') l w := by
  induction nodes generalizing head s l w with
  | nil => exact h
  | cons n rest ih =>
    have hn : n.id ∉ doomed := hnodes n List.mem_cons_self
    have hrest : ∀ n ∈ rest, n.id ∉ doomed := fun m hm => hnodes m (List.mem_cons_of_mem _ hm)
    unfold Tick.dispatchAll
    rw [TickM.meets_bind, TickM.meets_get]
    split
    · exact ih head s hrest h
    · next nodeType hashes _ =>
      split
      · rw [TickM.meets_bind]
        refine (h.dispatch hn time nodeType hashes none s).mono ?_
        intro s' l' w' h'
        exact ih head s' hrest h'
      · rw [TickM.meets_bind]
        refine (h.knownHead all head).mono ?_
        intro head' l' w' h'
        cases head' with
        | known address =>
          dsimp only
          rw [TickM.meets_bind]
          refine (h'.dispatch hn time nodeType hashes (some address) s).mono ?_
          intro s' l'' w'' h''
          exact ih _ s' hrest h''
        | pending => exact ih _ s hrest h'
        | absent =>
          dsimp only
          rw [TickM.meets_bind]
          refine (h'.dispatch hn time nodeType hashes none s).mono ?_
          intro s' l'' w'' h''
          exact ih _ s' hrest h''

/-- Carrying a plan out keeps terminations and updaters apart. -/
theorem Sparing.carryOut {planned : ControlLoop} {p : TickPlan} (now : Nat) (time : Duration)
    (nodes : List NodeRecord) (s : TickSummary) (h : Sparing p.doomed l w) :
    (Tick.carryOut planned now time nodes p s).Meets protocol
      (fun _ l' w' => l'.updaters.Tracks w'.flights) l w := by
  unfold Tick.carryOut
  rw [TickM.meets_bind]
  refine (h.terminate s).mono ?_
  rintro ⟨removed, s'⟩ l' w' h'
  dsimp only
  rw [TickM.meets_bind]
  refine (h'.launchUnlessTripped _ s').mono ?_
  intro s'' l'' w'' h''
  rw [TickM.meets_bind]
  have hnodes : ∀ n ∈ (nodes.filter (!removed.contains ·.id)).filter (!p.doomed.contains ·.id),
      n.id ∉ p.doomed := by
    intro n hn
    simpa using (List.mem_filter.mp hn).2
  refine (h''.sending.dispatchAll time _ _ none s'' hnodes).mono ?_
  intro _ _ _ hsent
  exact hsent.tracks

/-- Every tick that starts from a pool that tracks the updaters keeps terminations and updaters
apart, and its pool tracks the updaters to the end. -/
theorem tick_meets_watch (files : FileStore) (now : Nat) (time : Duration) {f : Flights}
    (h : l.updaters.Tracks f) :
    (tick files now time).Meets protocol (fun _ l' w' => l'.updaters.Tracks w'.flights) l ⟨f, []⟩ := by
  unfold tick
  rw [TickM.meets_bind, TickM.meets_modify, TickM.meets_bind, TickM.meets_get]
  dsimp only
  rw [TickM.meets_bind, ControlLoop.updaters_beginTick]
  have hbegun : (l.beginTick files).updaters.Tracks f := by
    rw [ControlLoop.updaters_beginTick]
    exact h
  refine (TickM.meets_ask (q := .abandon _)).mpr
    ⟨⟨hbegun, fun n hn => absurd hn List.not_mem_nil, fun u hu => nomatch hu⟩, ?_⟩
  rintro r w ⟨hmoves, hasked⟩
  have hflights : w.flights = f.stop (l.updaters.overdue time) := hmoves
  rw [TickM.meets_bind, TickM.meets_get, TickM.meets_bind, TickM.meets_get, TickM.meets_bind,
    TickM.meets_set, TickM.meets_bind]
  have hstart : Sparing []
      ((l.beginTick files).mergeUpdates now time
        (TickSummary.start (l.beginTick files).ticks now)).2 w := by
    refine ⟨?_, fun n hn => absurd hn List.not_mem_nil, ?_, ?_⟩
    · obtain ⟨_, _, _, _, hmerged⟩ := (l.beginTick files).mergeUpdates_eq now time
        (TickSummary.start (l.beginTick files).ticks now)
      rw [hmerged, ControlLoop.updaters_beginTick, hflights]
      exact h.collect
    · intro n hn
      rcases (mem_terminated_append hasked).mp hn with hold | hnew
      · exact hold
      · cases hnew
    · rw [dispatched_append hasked]
      rfl
  refine hstart.reconcile.mono ?_
  intro nodes l' w' h'
  cases nodes with
  | error e => exact h'.tracks
  | ok nodes =>
    dsimp only
    rw [TickM.meets_bind, Tick.afterReconcile_eq, TickM.meets_bind, TickM.meets_modify,
      TickM.meets_bind, TickM.meets_get]
    have hplan : Sparing ((l'.takeIn nodes now).planTick now nodes).doomed
        (l'.takeIn nodes now) w' := by
      refine ⟨h'.tracks, fun n hn => ControlLoop.isUpdating_of_mem_doomed hn, ?_, h'.quiet⟩
      intro n hn
      exact absurd (h'.asked n hn) List.not_mem_nil
    exact (hplan.carryOut now time nodes _).mono (fun _ _ _ htracks => htracks)

end ClusterScaler.Watch
