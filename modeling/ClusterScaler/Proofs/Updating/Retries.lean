import ClusterScaler.Proofs.Updating.Rounds
import ClusterScaler.Proofs.Updating.Turns

/-!
# Updates are neither retried nor repeated

Over a whole course, a node whose update failed is out: the tick that merges the failure and all later
ones give it up, that is, they send no updater to it, and plan to terminate it if they find it listed.
And a node that was brought up to date is sent another updater only to bring it another files hash.
-/

set_option autoImplicit false

namespace ClusterScaler

open Program

namespace Turn

variable {c : Course}

/-- The service once a turn has stopped the updaters that are overdue. -/
def opened (t : Turn c) : Service :=
  c.service.drop ((c.loop.beginTick t.files).updaters.overdue t.time)

theorem follows_opened (t : Turn c) {rest : List TickExchange} {m : Service}
    (h : Follows (Service.protocol LeavesTags) c.service
      (c.loop.firstExchange t.files t.time :: rest) m) :
    Follows (Service.protocol LeavesTags) t.opened rest m := by
  cases h with
  | cons hstep hrest =>
    cases hstep
    exact hrest

end Turn

namespace Course.Kept

variable {c c' : Course} {node : NodeId} {out : Prop}

theorem weaken {out' : Prop} (h : c.Kept node out) (himp : out' → out) : c.Kept node out' := by
  obtain ⟨tainted, gone, hout, hw⟩ := h
  refine ⟨tainted ∧ out', gone ∧ out', ?_, { hw with
    idle := fun hclaim => hw.idle (hclaim.imp And.left And.left)
    owned := fun hclaim => hw.owned (hclaim.imp_right fun hrest => hrest.imp_right fun hrest =>
      hrest.imp_left And.left)
    tainted := fun ht => hw.tainted ht.1
    gone := fun hg => hw.gone hg.1 }⟩
  constructor
  · intro hclaim
    exact (hout.mp (himp hclaim)).imp (⟨·, hclaim⟩) (⟨·, hclaim⟩)
  · rintro (h | h) <;> exact h.2

theorem of_initial (h : c.Initial) (node : NodeId) : c.Kept node False := by
  have hnone : ∀ n, c.service.flights n = 0 := by
    intro n
    unfold Service.flights Flights.ends
    rw [h.updaters, h.ends]
    rfl
  have hidle : c.loop.isUpdating node = false := by
    rw [ControlLoop.isUpdating, UpdaterPool.isUpdating_eq_false_iff, h.slots]
    rfl
  refine ⟨False, False, by tauto, ⟨h.numbered, ?_, ?_⟩,
    UpdaterPool.tracks_of_forall_eq_zero hnone, ?_, rfl, fun _ _ _ => hidle, fun _ => hidle, ?_,
    False.elim, False.elim, False.elim, fun n hn => by cases hn⟩
  · intro x hx
    rw [h.updaters] at hx
    cases hx
  · intro rest hrest
    rw [h.launches] at hrest
    cases hrest
  · intro n hash hlatest
    unfold Service.latest at hlatest
    rw [h.successes] at hlatest
    cases hlatest
  · rintro (hbusy | ⟨o, ho, -⟩ | hfalse | hfalse)
    · rw [hidle] at hbusy
      cases hbusy
    · rw [h.finished] at ho
      cases ho
    · exact hfalse.elim
    · exact hfalse.elim

/-- When a turn goes to the provider, the failures that it merged are known. -/
theorem opened (h : c.Kept node out) (t : Turn c) :
    ∃ w : NodeWatch, w.node = node ∧ w.merged ∧
      (out ∨ t.MergesFailure node ↔ w.tainted ∨ w.gone) ∧
        w.Holds (c.loop.begun t.files t.now t.time).2 t.opened := by
  obtain ⟨tainted, gone, hout, hw⟩ := h
  have hfailed : t.MergesFailure node → _ := And.right
  refine ⟨_, rfl, trivial, ?_, hw.begun hfailed⟩
  rw [hout]
  tauto

/-- While a turn reads the nodes, things are in order. -/
theorem reading_meets (h : c.Kept node out) (t : Turn c) :
    Tick.reconcile.Meets (retrials node (out ∨ t.MergesFailure node))
      (fun _ l' s' => Course.Kept node (out ∨ t.MergesFailure node) ⟨l', s'⟩)
      (c.loop.begun t.files t.now t.time).2 t.opened := by
  obtain ⟨w, rfl, -, hout, hw⟩ := h.opened t
  exact (Tick.frame_reconcile (NodeWatch.looksKept hout) hw).mono (fun _ _ _ h => h.kept hout)

/-- After a turn has read the nodes, things stay in order. -/
theorem passing_meets (h : c.Kept node out) (t : Turn c) (hread : t.CanRead node)
    {r : Reading t.files t.now t.time c.loop} (hr : t.Reads r) {m : Service}
    (hfollows : Follows (Service.protocol LeavesTags) t.opened r.trace m) (sum : TickSummary) :
    (Tick.afterReconcile t.now t.time r.nodes sum).Meets
      (retrials node (out ∨ t.MergesFailure node))
      (fun _ l' s' => Course.Kept node (out ∨ t.MergesFailure node) ⟨l', s'⟩) r.loop m := by
  obtain ⟨w, rfl, hmerged, hout, hw⟩ := h.opened t
  exact hw.afterReconcile hout hmerged r (hread r hr) hfollows sum

/-- Between ticks, things stay in order while the service goes on without an updater being sent out. -/
theorem later {l l' : ControlLoop} {s s' : Service} (h : Course.Kept node out ⟨l, s⟩)
    (hsince : s.Since s') (htracks : l.updaters.Tracks s.flights → l'.updaters.Tracks s'.flights)
    (hlike : NodeWatch.Like node l l') (htainted : l'.tainted = l.tainted) :
    Course.Kept node out ⟨l', s'⟩ := by
  obtain ⟨tainted, gone, hout, hw⟩ := h
  exact ⟨tainted, gone, hout, hw.later hsince (htracks hw.tracks) hlike
    (fun ht => ⟨ht, htainted.symm ▸ hw.tainted ht⟩) rfl⟩

end Course.Kept

namespace Turn

variable {c : Course} {node : NodeId} {out : Prop}

/-- After a turn that could read the node, things are in order, and a node whose failure was merged
is out. -/
theorem kept (t : Turn c) (h : c.Kept node out) (hread : t.CanRead node) :
    t.after.Kept node (out ∨ t.MergesFailure node) := by
  have hleft : Course.Kept node (out ∨ t.MergesFailure node) ⟨Tick.standing t.left, t.answered⟩ := by
    have hfollows := t.follows
    rcases Tick.begins_reading t.begins with ⟨htrace, hstanding⟩ |
      ⟨rest, left', htrace, hbegins, hstanding⟩ | ⟨r, rest, left', htrace, hbegins, hstanding⟩
    · -- nothing was merged yet, but commands may have been applied
      rw [htrace] at hfollows
      rw [hstanding]
      generalize t.answered = s at hfollows
      cases hfollows
      obtain ⟨hname, hupdaters, hfinished, htainted⟩ := c.loop.beginTick_same t.files
      have hbegun : Course.Kept node out ⟨c.loop.beginTick t.files, c.service⟩ := by
        obtain ⟨tainted, gone, hout, hw⟩ := h
        refine Course.Kept.later ⟨tainted, gone, hout, hw⟩ (.refl hw.sound)
          (fun htracks => hupdaters.symm ▸ htracks) ⟨hname, ?_, hfinished⟩ htainted
        exact congrArg (fun p : UpdaterPool => p.isUpdating node) hupdaters
      exact hbegun.weaken fun hclaim => hclaim.resolve_right fun hfailed => hfailed.1 htrace
    · rw [htrace] at hfollows
      rw [hstanding]
      exact Tick.kept_standing ((h.reading_meets t).left hbegins
        ((t.follows_opened hfollows).mono fun _ _ _ _ hserved => hserved))
    · rw [htrace] at hfollows
      obtain ⟨m, hfirst, hlast⟩ := follows_append.mp (t.follows_opened hfollows)
      rw [hstanding]
      exact Tick.kept_standing ((h.passing_meets t hread ⟨rest, htrace⟩ hfirst _).left hbegins
        (hlast.mono fun _ _ _ _ hserved => hserved))
  obtain ⟨tainted, gone, hout, hw⟩ := hleft
  have hwent := Service.wentOn_steps hw.sound t.beside
  have hdropped : Service.Sound { t.service with launches := [] } :=
    ⟨hwent.sound.numbered, hwent.sound.updaters, fun rest hrest => by cases hrest⟩
  exact Course.Kept.later ⟨tainted, gone, hout, hw⟩ (hwent.since hdropped rfl (.of_nodes rfl))
    (fun htracks => hwent.flights.symm ▸ htracks) ⟨rfl, rfl, rfl⟩ rfl

/-- An updater that a turn sends to the node is due, and the node is not out. -/
theorem dispatched (t : Turn c) (h : c.Kept node out) (hread : t.CanRead node)
    {before rest : List TickExchange} {x : TickExchange} {u : Update} {m : Service}
    (htrace : t.trace = before ++ x :: rest) (hu : x.op.question = .dispatch u)
    (hnode : u.request.node = node)
    (hfollows : Follows (Service.protocol LeavesTags) c.service before m) :
    ¬ (out ∨ t.MergesFailure node) ∧ u.IsDue x.op.loop.hashes m := by
  suffices hpermits : (retrials node (out ∨ t.MergesFailure node)).permits m x.op from
    hpermits.2 u hu hnode
  cases before with
  | nil =>
    -- the first question of a tick sends no updater out
    rcases Tick.begins_reading t.begins with ⟨hnone, -⟩ | ⟨_, _, hfirst, -⟩ | ⟨_, _, _, hfirst, -⟩
    · rw [hnone] at htrace
      cases htrace
    · rw [hfirst] at htrace
      cases htrace
      cases hu
    · rw [hfirst] at htrace
      cases htrace
      cases hu
  | cons first before =>
    rcases Tick.begins_reading t.begins with ⟨hnone, -⟩ | ⟨others, left', hfirst, hbegins, -⟩ |
      ⟨r, others, left', hfirst, hbegins, -⟩
    · rw [hnone] at htrace
      cases htrace
    · rw [hfirst] at htrace
      obtain ⟨rfl, rfl⟩ := List.cons.inj htrace
      exact (h.reading_meets t).permits hbegins
        ((t.follows_opened hfollows).mono fun _ _ _ _ hserved => hserved)
    · have hreads : t.Reads r := ⟨others, hfirst⟩
      rw [hfirst] at htrace
      obtain ⟨rfl, hsplit⟩ := List.cons.inj htrace
      have hopened := t.follows_opened hfollows
      have hpassing : ∀ passed, before = r.trace ++ passed → others = passed ++ x :: rest →
          (retrials node (out ∨ t.MergesFailure node)).permits m x.op := by
        rintro passed rfl rfl
        obtain ⟨m', hlooked, hpassed⟩ := follows_append.mp hopened
        exact (h.passing_meets t hread hreads hlooked _).permits hbegins
          (hpassed.mono fun _ _ _ _ hserved => hserved)
      rcases List.append_eq_append_iff.mp hsplit with ⟨passed, hbefore, hothers⟩ | ⟨read, htrace, hx⟩
      · exact hpassing passed hbefore hothers
      · cases read with
        | nil => exact hpassing [] (by simpa using htrace.symm) hx.symm
        | cons y read =>
          obtain ⟨rfl, -⟩ := List.cons.inj hx
          have hreading := r.runs.begins
          rw [htrace] at hreading
          exact (h.reading_meets t).permits hreading
            (hopened.mono fun _ _ _ _ hserved => hserved)

/-- A turn sends no updater to a node, and plans to terminate it if it finds it listed. -/
structure GivesUp (t : Turn c) (node : NodeId) : Prop where
  unsent : ∀ x ∈ t.trace, ∀ u, x.op.question = .dispatch u → u.request.node ≠ node
  doomed : ∀ r, t.Reads r → r.Lists node → node ∈ r.plan.doomed

/-- A turn that finds a node listed which is out plans to terminate it. -/
theorem dooms (t : Turn c) (h : c.Kept node out) (hread : t.CanRead node)
    (hout : out ∨ t.MergesFailure node) {r : Reading t.files t.now t.time c.loop} (hr : t.Reads r)
    (hlists : r.Lists node) : node ∈ r.plan.doomed := by
  obtain ⟨rest, htrace⟩ := hr
  have hfollows := t.follows
  rw [htrace] at hfollows
  obtain ⟨m, hfirst, -⟩ := follows_append.mp (t.follows_opened hfollows)
  obtain ⟨w, rfl, -, hclaims, hw⟩ := h.opened t
  obtain ⟨_, _, _, -, -, hdoomed, -⟩ := hw.planning hclaims r (hread r ⟨rest, htrace⟩) hfirst
  exact hdoomed hout (hread r ⟨rest, htrace⟩ hlists)

/-- A turn gives up a node that is out. -/
theorem givesUp (t : Turn c) (h : c.Kept node out) (hread : t.CanRead node)
    (hout : out ∨ t.MergesFailure node) : t.GivesUp node := by
  refine ⟨fun x hx u hu hnode => ?_, fun r hr hlists => t.dooms h hread hout hr hlists⟩
  obtain ⟨before, rest, htrace⟩ := List.append_of_mem hx
  have hfollows := t.follows
  rw [htrace] at hfollows
  obtain ⟨m, hbefore, -⟩ := follows_append.mp hfollows
  exact (t.dispatched h hread htrace hu hnode hbefore).1 hout

end Turn

namespace Course

variable {c c' : Course} {node : NodeId} {out : Prop}

/-- However a course goes on, things stay in order. -/
theorem Kept.step (h : c.Kept node out) (hstep : Step node c c') : c'.Kept node out := by
  cases hstep with
  | beside hsteps =>
    obtain ⟨tainted, gone, hout, hw⟩ := h
    have hwent := Service.wentOn_steps hw.sound hsteps
    exact Kept.later ⟨tainted, gone, hout, hw⟩ (hwent.since hwent.sound rfl (.of_nodes rfl))
      (fun htracks => hwent.flights.symm ▸ htracks) ⟨rfl, rfl, rfl⟩ rfl
  | turn t hread => exact (t.kept h hread).weaken .inl
  | noteEnds l s =>
    obtain ⟨tainted, gone, hout, hw⟩ := h
    have hsound : Service.Sound { s with ends := [] } :=
      ⟨hw.sound.numbered, hw.sound.updaters, hw.sound.launches⟩
    exact Kept.later ⟨tainted, gone, hout, hw⟩ ⟨hsound, .of_nodes rfl, fun h => h⟩
      (fun htracks => htracks.completeAll fun _ => rfl)
      ⟨rfl, UpdaterPool.isUpdating_completeAll, rfl⟩ rfl
  | feeds l s feeds =>
    obtain ⟨tainted, gone, hout, hw⟩ := h
    exact Kept.later ⟨tainted, gone, hout, hw⟩ (.refl hw.sound) (fun htracks => htracks)
      ⟨rfl, rfl, rfl⟩ rfl
  | obey l s files command =>
    obtain ⟨tainted, gone, hout, hw⟩ := h
    obtain ⟨hname, hupdaters, hfinished, htainted⟩ := ControlLoop.obey_same files l command
    exact Kept.later ⟨tainted, gone, hout, hw⟩ (.refl hw.sound)
      (fun htracks => hupdaters.symm ▸ htracks)
      ⟨hname, congrArg (fun p : UpdaterPool => p.isUpdating node) hupdaters, hfinished⟩ htainted
  | @drain l time s hnone =>
    obtain ⟨tainted, gone, hout, hw⟩ := h
    refine ⟨tainted, gone, hout, hw.settled (.refl hw.sound) hnone rfl rfl rfl rfl ?_
      ⟨rfl, fun hfalse => hfalse⟩⟩
    intro o ho
    exact (List.mem_append.mp ho).imp_right UpdaterPool.isUpdating_of_mem_drain
  | stop l s =>
    obtain ⟨tainted, gone, hout, hw⟩ := h
    have hserved : (Question.abandon l.updaters.slots.keys).ServedBy LeavesTags () s
        (s.drop l.updaters.slots.keys) := rfl
    obtain ⟨hsince, -⟩ := Question.ServedBy.since (q := .abandon _) hw.sound trivial hserved
    refine ⟨tainted, gone, hout, hw.settled hsince ?_ rfl rfl rfl rfl (fun _ ho => .inl ho)
      ⟨rfl, fun hfalse => hfalse⟩⟩
    intro n
    rw [Service.flights_drop]
    exact hw.tracks.stop_keys n

theorem Kept.steps (h : c.Kept node out) (hsteps : Steps node c c') : c'.Kept node out := by
  induction hsteps with
  | refl => exact h
  | tail _ hstep ih => exact ih.step hstep

end Course

/-- A tick that merges that an update of a node failed, timed out, broke down or was abandoned gives the
node up, and so does every later tick: none sends an updater to the node, and each that finds it listed
plans to terminate it. And an updater that a tick sends to the node brings the files hash of the node's
type, which is not the one that its last successful update brought. -/
theorem updates_neither_retried_nor_repeated {node : NodeId} {start c : Course}
    (hstart : start.Initial) (hsteps : Course.Steps node start c) (t : Turn c)
    (hread : t.CanRead node) :
    (t.MergesFailure node → t.GivesUp node ∧
      ∀ (c' : Course) (t' : Turn c'), Course.Steps node t.after c' → t'.CanRead node →
        t'.GivesUp node) ∧
      ∀ before x rest u m, t.trace = before ++ x :: rest → x.op.question = .dispatch u →
        u.request.node = node → Follows (Service.protocol LeavesTags) c.service before m →
          u.IsDue x.op.loop.hashes m := by
  have hkept : c.Kept node False := (Course.Kept.of_initial hstart node).steps hsteps
  refine ⟨fun hfailed => ⟨t.givesUp hkept hread (.inr hfailed), fun c' t' hlater hread' => ?_⟩,
    fun before x rest u m htrace hu hnode hfollows =>
      (t.dispatched hkept hread htrace hu hnode hfollows).2⟩
  have hout : c'.Kept node (False ∨ t.MergesFailure node) := (t.kept hkept hread).steps hlater
  exact t'.givesUp hout hread' (.inl (.inr hfailed))

/-- Whether a tick sends an updater to a node to bring it a files hash that an earlier update of the
node brought already. -/
def Course.repeats (c : Course) (trace : List TickExchange) : Bool :=
  c.service.successes.any fun e => trace.any fun x =>
    match x.op.question with
    | .dispatch u => u.request.node = e.1 &&
        (x.op.loop.hashes.get? u.request.nodeType).any (·.files = e.2)
    | _ => false

/-- An operator changes what sets the nodes up, and changes it back. -/
theorem Course.repeats_ofSetup :
    (do
      let start ← ofConfig? (.ofSetup []) []
      let c ← start.round? (.ofSetup ["true"])
      let c ← c.round? (.ofSetup [])
      let (_, trace) ← c.turn?
      return c.repeats trace) = some true := by
  decide +kernel

/-- After two changes of what sets the nodes up, the second of which takes the first one back, the node
is brought the files hash again that its first update brought. -/
theorem update_repeated_ofSetup :
    ∃ (node : NodeId) (hash : ConfigHash) (start c : Course) (t : Turn c), start.Initial ∧
      Course.Steps node start c ∧ t.CanRead node ∧ (node, hash) ∈ c.service.successes ∧
        ∃ x ∈ t.trace, ∃ u type, x.op.question = .dispatch u ∧ u.request.node = node ∧
          x.op.loop.hashes.get? u.request.nodeType = some type ∧ type.files = hash := by
  obtain ⟨start, hstart, h⟩ := Option.bind_eq_some_iff.mp Course.repeats_ofSetup
  obtain ⟨c₁, hfirst, h⟩ := Option.bind_eq_some_iff.mp h
  obtain ⟨c₂, hsecond, h⟩ := Option.bind_eq_some_iff.mp h
  obtain ⟨⟨c₃, trace⟩, hturn, h⟩ := Option.bind_eq_some_iff.mp h
  have hrepeats : c₂.repeats trace = true := Option.some.inj h
  obtain ⟨⟨node, hash⟩, hsuccess, hasks⟩ := List.any_eq_true.mp hrepeats
  obtain ⟨x, hx, hdispatch⟩ := List.any_eq_true.mp hasks
  obtain ⟨t, hread, -, rfl, -⟩ := Course.exists_turn hturn node
  refine ⟨node, hash, start, c₂, t, Course.initial_ofConfig? hstart,
    (Course.steps_round? hfirst).trans (Course.steps_round? hsecond), hread, hsuccess, x, hx, ?_⟩
  split at hdispatch
  · next u hu =>
    rw [Bool.and_eq_true, decide_eq_true_eq, Option.any_eq_true] at hdispatch
    obtain ⟨hnode, type, htype, hfiles⟩ := hdispatch
    exact ⟨u, type, hu, hnode, htype, by simpa using hfiles⟩
  · cases hdispatch

/-- The setup of the node fails, and the next tick merges that. -/
theorem Course.fails_ofSetup :
    (do
      let start ← ofConfig? (.ofSetup ["false"]) [("false", 1)]
      let (c, _) ← start.turn?
      let c ← c.finish?
      let (_, trace) ← c.turn?
      return !trace.isEmpty && (c.loop.updaters.collect ⟨0⟩).1.any fun o =>
        o.node = InMemory.idOf 1 && !o.result.isOk) = some true := by
  decide +kernel

/-- That tick and all later ones give the node up. -/
theorem updates_neither_retried_nor_repeated_ofSetup :
    ∃ (start c : Course) (t : Turn c), start.Initial ∧ Course.Steps (InMemory.idOf 1) start c ∧
      t.CanRead (InMemory.idOf 1) ∧ t.MergesFailure (InMemory.idOf 1) ∧
        t.GivesUp (InMemory.idOf 1) ∧
          ∀ (c' : Course) (t' : Turn c'), Course.Steps (InMemory.idOf 1) t.after c' →
            t'.CanRead (InMemory.idOf 1) → t'.GivesUp (InMemory.idOf 1) := by
  obtain ⟨start, hstart, h⟩ := Option.bind_eq_some_iff.mp Course.fails_ofSetup
  obtain ⟨⟨c₁, trace₁⟩, hfirst, h⟩ := Option.bind_eq_some_iff.mp h
  obtain ⟨c₂, hfinish, h⟩ := Option.bind_eq_some_iff.mp h
  obtain ⟨⟨c₃, trace⟩, hturn, h⟩ := Option.bind_eq_some_iff.mp h
  have hmerges := Option.some.inj h
  rw [Bool.and_eq_true, List.any_eq_true] at hmerges
  obtain ⟨hasked, o, ho, hfailed⟩ := hmerges
  obtain ⟨t₁, hread₁, rfl, -, -⟩ := Course.exists_turn hfirst (InMemory.idOf 1)
  obtain ⟨t, hread, -, rfl, htime⟩ := Course.exists_turn hturn (InMemory.idOf 1)
  have hinitial := Course.initial_ofConfig? hstart
  have hsteps : Course.Steps (InMemory.idOf 1) start c₂ :=
    (Relation.ReflTransGen.single (.turn t₁ hread₁)).trans (Course.steps_finish? hfinish)
  have hmergesFailure : t.MergesFailure (InMemory.idOf 1) := by
    refine ⟨by simpa using hasked, o, List.mem_append_right _ (htime ▸ ho), ?_⟩
    simpa using hfailed
  exact ⟨start, c₂, t, hinitial, hsteps, hread, hmergesFailure,
    (updates_neither_retried_nor_repeated hinitial hsteps t hread).1 hmergesFailure⟩

end ClusterScaler
