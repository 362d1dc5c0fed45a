import ClusterScaler.Proofs.Capacity.Counts
import ClusterScaler.Proofs.Clocks.Turns
import ClusterScaler.Proofs.Service.Jobs

/-!
# Sessions play courses

A session runs a loop on the clock of a simulation. Over nodes in memory each of its ticks is a
turn, whether it comes to its end or is cut short, and what else it does are steps of a course. So
what holds of every course holds of the sessions, as long as faults let nodes be read.
-/

set_option autoImplicit false

namespace ClusterScaler

open Program

theorem LeavesTags.of_recounted (p q : InMemory) (h : p.Recounted q) : LeavesTags p q := by
  obtain ⟨_, _, _, rfl⟩ := h
  exact ⟨fun _ n hn => ⟨n, hn, .refl n, rfl⟩, id⟩

namespace Simulation.Plays

variable {s : Simulation} {v : Service}

/-- The service has as many updaters of each node under way as the simulation. -/
theorem flights_eq (h : s.Plays v) : v.flights = s.flights := by
  obtain ⟨left, -, hv⟩ := h.work
  funext n
  unfold Service.flights Simulation.flights updaterJobs Flights.ends
  have hupdaters : v.updaters.Perm s.updaters := hv.updaters
  have hends : v.ends = s.takeEnds.1 := hv.ends
  rw [hupdaters.countP_eq, hends]
  unfold updaters Simulation.takeEnds
  rw [List.countP_filterMap, List.countP_map]
  congr 1
  refine List.countP_congr fun j _ => ?_
  cases j.work <;> simp [Work.updater?, Work.updaterOf?]

end Simulation.Plays

/-- An answer tells of a node what the nodes are like. -/
def Question.Told (p : InMemory) : (q : Question) → q.Reply → Prop
  | .request r, d => r.Told p d.answer
  | .dispatch _, _ | .abandon _, _ | .launch _, _ | .awaitLaunch, _ => True

/-- The answers of a tick are those of a service whose nodes can be read. -/
def Service.readable (outside : InMemory → InMemory → Prop) :
    Protocol TickAsk TickAsk.Reply Service where
  permits _ _ := True
  follows v a r v' := a.question.ServedBy outside r v v' ∧ a.question.Told v'.provider r

namespace Simulation

variable {outside : InMemory → InMemory → Prop} {α : Type} {s : Simulation} {v : Service}

/-- A tick comes to this end as the service may answer it. -/
def Comes (outside : InMemory → InMemory → Prop) (v : Service)
    (rest : Program TickAsk TickAsk.Reply α) : TickEnd α × Simulation → Prop
  | (.ended a, s) => ∃ trace v', Runs rest trace a ∧
    Follows (Service.readable outside) v trace v' ∧ s.Plays v'
  | (.cut l, s) => ∃ trace a next m v', Begins rest trace (.ask a next) ∧ a.loop = l ∧
    Follows (Service.readable outside) v trace m ∧ Service.Steps outside m v' ∧
      s.Plays { v' with launches := [] }
  | (.panicked, _) => True

/-- A tick that is answered comes to the end that it comes to from there. -/
theorem Comes.ask {a : TickAsk} {next : a.Reply → Program TickAsk TickAsk.Reply α}
    (reply : a.Reply) (v' : Service) {r : TickEnd α × Simulation}
    (hstep : (Service.readable outside).follows v a reply v')
    (h : Comes outside v' (next reply) r) :
    Comes outside v (.ask a next) r := by
  obtain ⟨ended, s⟩ := r
  cases ended with
  | ended a =>
    obtain ⟨trace, v'', hruns, hfollows, hplays⟩ := h
    exact ⟨_, v'', .ask hruns, .cons hstep hfollows, hplays⟩
  | cut l =>
    obtain ⟨trace, b, left, m, v'', hbegins, hloop, hfollows, hsteps, hplays⟩ := h
    exact ⟨_, b, left, m, v'', .ask hbegins, hloop, .cons hstep hfollows, hsteps, hplays⟩
  | panicked => trivial

variable (houtside : ∀ p q : InMemory, p.Recounted q → outside p q)
include houtside

theorem comes_cutShort {m : Service} {a : TickAsk}
    (next : a.Reply → Program TickAsk TickAsk.Reply α) (hsteps : Service.Steps outside v m)
    (h : s.Plays m) (deadline : Nat) :
    Comes outside v (.ask a next) (s.cutShort deadline a.loop) := by
  obtain ⟨m', hpassed, hplays⟩ := h.passTo houtside deadline
  exact ⟨[], a, next, v, m', .here _, rfl, .nil v, hsteps.trans hpassed, hplays.dropLaunches⟩

/-- A tick in the foreground comes to its end as the service may answer it. -/
theorem comes_runTick (deadline : Option Nat) (rest : Program TickAsk TickAsk.Reply α)
    (h : s.Plays v) : Comes outside v rest (s.runTick deadline rest) := by
  induction rest generalizing s v with
  | done a => exact ⟨[], v, .done a, .nil v, h⟩
  | ask a next ih =>
    obtain ⟨l, q⟩ := a
    cases q with
    | request r =>
      -- the nodes answer, now or once it is due, and the answer is delivered
      have hanswered : ∀ {s' : Simulation} {m : Service} {scene : Scene} {q p' : InMemory}
          {reply : r.Reply}, Service.Steps outside v m → s'.Plays m → m.provider.Recounted q →
            q.Replies r reply p' → r.Told p' reply → scene.Over p' →
              Comes outside v (.ask ⟨l, .request r⟩ next)
                ((({ s' with toScene := scene } : Simulation).deliver reply).2.runTick deadline
                  (next (({ s' with toScene := scene } : Simulation).deliver reply).1)) := by
        intro s' m scene q p' reply hsteps hplays hq hreplies htold hover
        obtain ⟨hended, hdelivered⟩ := (hplays.onScene hover).takeEnds
        refine .ask (a := ⟨l, .request r⟩) ⟨reply, _⟩ _ ⟨⟨{ m with provider := q }, p',
          hsteps.tail (.outside (houtside _ _ hq)), hreplies, hended.symm, rfl⟩, htold⟩ ?_
        exact ih _ hdelivered
      have hlater : ∀ {s' : Simulation} (due : Nat), s'.Plays v →
          Comes outside v (.ask ⟨l, .request r⟩ next)
            (({ s'.passTo due with toScene := ((s'.passTo due).answer r).2 }.deliver
              ((s'.passTo due).answer r).1).2.runTick deadline
                (next ({ s'.passTo due with toScene := ((s'.passTo due).answer r).2 }.deliver
                  ((s'.passTo due).answer r).1).1)) := by
        intro s' due hplays
        obtain ⟨m, hsteps, hpassed⟩ := hplays.passTo houtside due
        obtain ⟨q, p', hq, hreplies, htold, hover⟩ := hpassed.scene.answer r
        exact hanswered hsteps hpassed hq hreplies htold hover
      have hmake := h.scene.make r
      unfold runTick
      split
      · trivial
      · next reply scene heq =>
        rw [heq] at hmake
        obtain ⟨q, p', hq, hreplies, htold, hover⟩ := hmake
        exact hanswered .refl h hq hreplies htold hover
      · next due scene heq =>
        rw [heq] at hmake
        have hwaits : ({ s with toScene := scene } : Simulation).Plays v := h.onScene hmake
        dsimp only
        split
        · next d =>
          split
          · obtain ⟨trace, b, left, m, v', hbegins, hloop, hfollows, hsteps, hplays⟩ :=
              comes_cutShort (a := ⟨l, .request r⟩) houtside next .refl hwaits d
            exact ⟨trace, b, left, m, v', hbegins, hloop, hfollows, hsteps,
              hplays.onScene (hplays.scene.leave r)⟩
          · exact hlater due hwaits
        · exact hlater due hwaits
    | dispatch u =>
      unfold runTick
      split
      · trivial
      · obtain ⟨left, hends, hv⟩ := h.work
        refine .ask (a := ⟨l, .dispatch u⟩) ()
          { v with updaters := ⟨u, u.routine⟩ :: v.updaters } ⟨rfl, trivial⟩ (ih () ?_)
        exact .add left h.scene hends
          ⟨rfl, hv.launches, hv.updaters.cons ⟨u, u.routine⟩, hv.ends⟩
    | abandon nodes =>
      exact .ask (a := ⟨l, .abandon nodes⟩) () _ ⟨rfl, trivial⟩
        (ih () (h.dropUpdaters nodes))
    | launch order =>
      obtain ⟨left, hends, hv⟩ := h.work
      refine .ask (a := ⟨l, .launch order⟩) ()
        { v with launches := order.routine :: v.launches } ⟨rfl, trivial⟩ (ih () ?_)
      exact .add left h.scene hends
        ⟨rfl, hv.launches.cons order.routine, hv.updaters, hv.ends⟩
    | awaitLaunch =>
      obtain ⟨m, hsteps, hplays⟩ := h.awaitLaunch houtside deadline
      unfold runTick
      dsimp only
      split
      · next ended launchEnds heq =>
        obtain ⟨left, hends, hm⟩ := hplays.work
        rw [heq] at hends
        cases hends with
        | @cons _ rest _ others hof hothers =>
          have hwaited : ({ s.awaitLaunch deadline with launchEnds } : Simulation).Plays
              { m with launches := (s.awaitLaunch deadline).orders ++ others } :=
            .of_like others hplays.scene hothers ⟨rfl, .refl _, hm.updaters, hm.ends⟩
          obtain ⟨hended, hdelivered⟩ := hwaited.takeEnds
          refine .ask (a := ⟨l, .awaitLaunch⟩) _ _ ⟨⟨m, rest, _, hsteps,
            hm.launches.trans List.perm_middle, hof, hended.symm, rfl⟩, trivial⟩ (ih _ hdelivered)
      · split
        · next d _ =>
          exact comes_cutShort (a := ⟨l, .awaitLaunch⟩) houtside next hsteps hplays d
        · trivial

end Simulation

/-- The service keeps to its work, and these nodes are known. -/
structure Service.Knows (ids : List NodeId) (v : Service) : Prop where
  sound : v.Sound
  known : ∀ id ∈ ids, ∃ x, v.provider.nodes.get? id = some x

namespace Tick

open TickM

variable {ids : List NodeId} {l : ControlLoop} {v : Service}

/-- A look at the nodes leaves them known, and tells of one node what it is like. -/
theorem request_knows {r : Request} (hr : r.looks = true) (h : v.Knows ids) :
    (request r).Meets (Service.readable LeavesTags) (fun a _ v' => v'.Knows ids ∧
      r.Told v'.provider a ∧
        ∃ p : InMemory, p.nodes = v'.provider.nodes ∧ p.Replies r a v'.provider) l v := by
  rw [meets_request]
  refine ⟨trivial, ?_⟩
  rintro d v' ⟨hserved, htold⟩
  have hplain : (Question.request r).Plain := .inl hr
  obtain ⟨hsince, -⟩ := hserved.since h.sound hplain
  refine ⟨⟨hsince.sound, fun id hid => ?_⟩, htold, ?_⟩
  · obtain ⟨x, hx⟩ := h.known id hid
    obtain ⟨x', hx', -⟩ := hsince.onward id x hx
    exact ⟨x', hx'⟩
  · obtain ⟨m, p, -, hreplies, -, rfl⟩ := hserved
    obtain ⟨-, hcreates, hterminates, htags⟩ := Request.of_looks hr
    exact ⟨m.provider, (hreplies.nodes hcreates hterminates htags).1.symm, hreplies⟩

theorem retrying_knows {α : Type} {call : TickM (ProviderResult α)}
    (accepts : ProviderResult α → Service → Prop)
    (hcall : ∀ l v, v.Knows ids → call.Meets (Service.readable LeavesTags)
      (fun r _ v' => v'.Knows ids ∧ accepts r v') l v)
    (h : v.Knows ids) : (retrying call).Meets (Service.readable LeavesTags)
      (fun r _ v' => v'.Knows ids ∧ accepts r v') l v := by
  have hattempt : ∀ l v, v.Knows ids → call.Meets (Service.readable LeavesTags)
      (fun r _ v' => (v'.Knows ids ∧ accepts r v') ∧ (r.isOk = false → v'.Knows ids)) l v :=
    fun l v h => (hcall l v h).mono (fun _ _ _ hr => ⟨hr, fun _ => hr.1⟩)
  exact meets_retrying hattempt
    (fun d _ _ h => (request_knows (r := .pause d) rfl h).mono fun _ _ _ hr => hr.1) h

/-- A node that is known is read. -/
theorem readNode_knows {id : NodeId} (hid : id ∈ ids) (h : v.Knows ids) :
    (readNode id).Meets (Service.readable LeavesTags)
      (fun node _ v' => v'.Knows ids ∧ ∃ n, node = some n ∧ n.id = id) l v := by
  unfold readNode
  rw [TickM.meets_bind]
  refine (retrying_knows (fun tags _ => tags.isOk = true) (fun _ _ h =>
    (request_knows (r := .nodeTags id) rfl h).mono fun _ _ _ hr =>
      ⟨hr.1, hr.2.1 (hr.1.known id hid)⟩) h).mono ?_
  rintro tags l' v' ⟨hknows, htags⟩
  cases tags with
  | error e => cases htags
  | ok tags =>
    dsimp only
    rw [TickM.meets_bind]
    refine (retrying_knows (fun running _ => running.isOk = true) (fun _ _ h =>
      (request_knows (r := .isRunning id) rfl h).mono fun _ _ _ hr =>
        ⟨hr.1, hr.2.1⟩) hknows).mono ?_
    rintro running l'' v'' ⟨hknows', hrunning⟩
    cases running with
    | error e => cases hrunning
    | ok running => exact ⟨hknows', _, rfl, rfl⟩

/-- Nodes that are known are all read. -/
theorem readNodes_knows {rest : List NodeId} (seen : List NodeId) (hrest : rest ⊆ ids)
    (h : v.Knows ids) :
    (readNodes seen rest).Meets (Service.readable LeavesTags)
      (fun result _ _ => ∀ nodes, result = .ok nodes →
        ∀ id ∈ rest, id ∈ nodes.map (·.id)) l v := by
  induction rest generalizing seen l v with
  | nil => exact fun _ _ id hid => absurd hid List.not_mem_nil
  | cons id rest ih =>
    obtain ⟨hid, hothers⟩ := List.cons_subset.mp hrest
    unfold readNodes
    split
    · exact fun nodes hnodes => by cases hnodes
    · rw [TickM.meets_bind]
      refine (readNode_knows hid h).mono ?_
      rintro _ l' v' ⟨hknows, n, rfl, rfl⟩
      rw [TickM.meets_bind]
      refine (ih (n.id :: seen) hothers hknows).mono ?_
      rintro result l'' v'' hresult
      cases result with
      | error e => exact fun nodes hnodes => by cases hnodes
      | ok others =>
        rintro nodes hnodes
        cases hnodes
        intro id hid
        rcases List.mem_cons.mp hid with rfl | hid
        · exact List.mem_cons_self
        · exact List.mem_cons_of_mem _ (hresult others rfl id hid)

/-- Nodes that are listed are known. -/
theorem listing_knows (h : v.Sound) :
    listing.Meets (Service.readable LeavesTags)
      (fun result _ v' => ∀ ids, result = .ok ids → v'.Knows ids) l v := by
  unfold listing
  rw [TickM.meets_bind, meets_get]
  have hnone : v.Knows [] := ⟨h, fun _ hid => absurd hid List.not_mem_nil⟩
  refine (retrying_knows (fun result v' => ∀ ids, result = .ok ids → v'.Knows ids)
    (fun _ _ h => (request_knows (r := .listNodes (.ofCluster l.config.clusterName)) rfl h).mono
      ?_) hnone).mono fun _ _ _ hr => hr.2
  rintro result l' v' ⟨hsound, -, p, hnodes, hreplies⟩
  refine ⟨hsound, ?_⟩
  rintro ids rfl
  refine ⟨hsound.sound, fun id hid => ?_⟩
  rw [hreplies.listNodes, InMemory.mem_listNodes_iff, hnodes] at hid
  obtain ⟨x, hx, -⟩ := hid
  exact ⟨x, hx⟩

end Tick

/-- A turn of a service whose nodes can be read could read every node. -/
theorem Turn.canRead {c : Course} (t : Turn c) (h : c.service.Sound)
    (hreadable : Follows (Service.readable LeavesTags) c.service t.trace t.answered)
    (node : NodeId) : t.CanRead node := by
  rintro r ⟨rest, htrace⟩ ⟨ids, loop, first, read, hsplit, hlisting, hread, hmem⟩
  rw [htrace, hsplit, List.append_assoc] at hreadable
  cases hreadable with
  | cons hopened hrest =>
    obtain ⟨hserved, -⟩ := hopened
    obtain rfl := hserved
    obtain ⟨m, hlisted, hrest⟩ := follows_append.mp hrest
    obtain ⟨m', hreads, -⟩ := follows_append.mp hrest
    have hdropped : (c.service.drop ((c.loop.beginTick t.files).updaters.overdue t.time)).Sound :=
      ⟨h.numbered, fun x hx => h.updaters x (List.mem_of_mem_filter hx), h.launches⟩
    have hknows := (Tick.listing_knows hdropped).result hlisting hlisted ids rfl
    exact (Tick.readNodes_knows [] (List.Subset.refl ids) hknows).result hread hreads r.nodes rfl
      node hmem

/-- A session over nodes in memory plays a course. -/
structure Session.Plays (s : Session) (c : Course) : Prop where
  simulation : s.simulation.Plays c.service
  loop : c.loop = s.loop
  sound : c.service.Sound
  launches : c.service.launches = []

/-- Whatever course one session plays goes on to one that the other plays. -/
def Session.Leads (node : NodeId) (s s' : Session) : Prop :=
  ∀ c : Course, s.Plays c → ∃ c', Course.Steps node c c' ∧ s'.Plays c'

namespace Session

variable {node : NodeId} {s s' s'' : Session}

theorem Leads.refl (s : Session) : Leads node s s := fun c h => ⟨c, .refl, h⟩

theorem Leads.trans (h : Leads node s s') (h' : Leads node s' s'') : Leads node s s'' := by
  intro c hplays
  obtain ⟨c₁, hfirst, hplays⟩ := h c hplays
  obtain ⟨c₂, hrest, hplays⟩ := h' c₁ hplays
  exact ⟨c₂, hfirst.trans hrest, hplays⟩

/-- What goes on in the background goes on beside the loop. -/
theorem leads_background {simulation : Simulation}
    (hgoes : ∀ v, s.simulation.Plays v →
      ∃ v', Service.Steps LeavesTags v v' ∧ simulation.Plays v') :
    Leads node s { s with simulation } := by
  intro c h
  obtain ⟨v, hsteps, hplays⟩ := hgoes c.service h.simulation
  refine ⟨⟨c.loop, v⟩, .single (.beside hsteps), hplays, h.loop,
    (Service.wentOn_steps h.sound hsteps).sound, ?_⟩
  have hlength := Service.length_launches_steps hsteps
  rw [h.launches] at hlength
  exact List.length_eq_zero_iff.mp hlength

theorem leads_takeEnds (s : Session) : Leads node s s.takeEnds := by
  intro c h
  obtain ⟨hends, hplays⟩ := h.simulation.takeEnds
  refine ⟨_, .single (.noteEnds c.loop c.service), hplays, ?_,
    ⟨h.sound.numbered, h.sound.updaters, h.sound.launches⟩, h.launches⟩
  change c.loop.complete c.service.ends = s.loop.complete s.simulation.takeEnds.1
  rw [h.loop, hends]

theorem leads_runBefore (s : Session) (limit : Nat) :
    Leads node s { s with simulation := s.simulation.runBefore limit } :=
  leads_background fun _ h => h.runJobs LeavesTags.of_recounted _ _ _

theorem leads_settle (s : Session) : Leads node s s.settle :=
  (s.leads_runBefore _).trans (leads_takeEnds _)

theorem leads_pass (s : Session) (time : Nat) :
    Leads node s ({ s with simulation := s.simulation.passTo time } : Session).takeEnds :=
  (leads_background fun _ h => h.passTo LeavesTags.of_recounted time).trans
    (leads_takeEnds _)

/-- Time that passes in a session passes in its course. -/
theorem leads_sleep (s : Session) (millis : Nat) : Leads node s (s.sleep millis) :=
  (s.leads_pass _).trans (leads_settle _)

/-- A tick that has come to its end, or was cut short, is a turn. -/
theorem leads_turn {simulation : Simulation} {loop : ControlLoop}
    (hturn : ∀ c : Course, s.Plays c → ∃ t : Turn c,
      Follows (Service.readable LeavesTags) c.service t.trace t.answered ∧
        t.after.loop = loop ∧ simulation.Plays t.after.service) :
    Leads node s { s with simulation, loop } := by
  intro c h
  obtain ⟨t, hreadable, hloop, hplays⟩ := hturn c h
  obtain ⟨hsound, -⟩ :=
    t.onward_between h.sound (List.append_nil _).symm t.follows (.nil _)
  have hbeside := (Service.wentOn_steps hsound t.beside).sound
  exact ⟨t.after, .single (.turn t (t.canRead h.sound hreadable node)), hplays, hloop,
    ⟨hbeside.numbered, hbeside.updaters, fun _ hrest => absurd hrest List.not_mem_nil⟩, rfl⟩

/-- A tick of a session is a turn of its course. -/
theorem leads_tickUntil {deadline : Option Nat} {now : Nat}
    {result : Except LoopError TickSummary} (h : s.tickUntil deadline now = some (result, s')) :
    Leads node s s' := by
  have hserved : ∀ {v v' : Service} {trace : List TickExchange},
      Follows (Service.readable LeavesTags) v trace v' →
        Follows (Service.protocol LeavesTags) v trace v' :=
    fun hfollows => hfollows.mono fun _ _ _ _ hstep => hstep.1
  have hcomes : ∀ c : Course, s.Plays c → Simulation.Comes LeavesTags c.service
      ((ClusterScaler.tick s.simulation.world.files now s.time).run c.loop)
      (s.simulation.runTick deadline
        ((ClusterScaler.tick s.simulation.world.files now s.time).run s.loop)) := by
    intro c hplays
    rw [hplays.loop]
    exact Simulation.comes_runTick LeavesTags.of_recounted deadline _
      hplays.simulation
  unfold tickUntil at h
  dsimp only at h
  split at h
  · next ended loop simulation hrun =>
    cases h
    refine Leads.trans (leads_turn fun c hplays => ?_) (leads_takeEnds { s with simulation, loop })
    have hcome := hcomes c hplays
    rw [hrun] at hcome
    obtain ⟨trace, v, hruns, hfollows, hafter⟩ := hcome
    have hover := Tick.launches_over hruns (hserved hfollows) hplays.launches
    refine ⟨⟨_, now, s.time, trace, _, v, v, hruns.begins, hserved hfollows, .refl⟩, hfollows, rfl,
      ?_⟩
    have hsame : { v with launches := [] } = v := by rw [← hover]
    change simulation.Plays { v with launches := [] }
    rw [hsame]
    exact hafter
  · next loop simulation hrun =>
    cases h
    refine Leads.trans (leads_turn fun c hplays => ?_) (leads_takeEnds { s with simulation, loop })
    have hcome := hcomes c hplays
    rw [hrun] at hcome
    obtain ⟨trace, a, next, m, v, hbegins, hloop, hfollows, hsteps, hafter⟩ := hcome
    exact ⟨⟨_, now, s.time, trace, _, m, v, hbegins, hserved hfollows, hsteps⟩, hfollows, hloop,
      hafter⟩
  · cases h

/-- A tick without a deadline is a turn, after which the background goes on. -/
theorem leads_tick {now : Nat} {result : Except LoopError TickSummary}
    (h : s.tick now = some (result, s')) : Leads node s s' := by
  unfold tick at h
  rw [Option.map_eq_some_iff] at h
  obtain ⟨⟨result', ticked⟩, hticked, heq⟩ := h
  cases heq
  exact (leads_tickUntil hticked).trans (leads_settle ticked)

theorem leads_publishError (s : Session) (e : LoopError) :
    Leads node s { s with loop := s.loop.publishError e } := by
  intro c h
  refine ⟨_, .single (.feeds c.loop c.service (c.loop.publishError e).toFeeds), h.simulation, ?_,
    h.sound, h.launches⟩
  change c.loop.publishError e = s.loop.publishError e
  rw [h.loop]

theorem leads_boundedTick {now : Nat} (h : s.boundedTick now = some s') : Leads node s s' := by
  unfold boundedTick at h
  dsimp only at h
  obtain ⟨⟨result, ticked⟩, hticked, hpublished⟩ := Option.bind_eq_some_iff.mp h
  have hleads : Leads node s ticked := leads_tickUntil hticked
  dsimp only at hpublished
  split at hpublished
  · cases hpublished
    exact hleads
  · cases hpublished
    exact hleads.trans (ticked.leads_publishError _)
  · cases hpublished
    exact hleads.trans (ticked.leads_publishError _)

/-- Ticks in an interval are turns of a course. -/
theorem leads_runTicks {now stop fuel due : Nat} (h : s.runTicks now stop fuel due = some s') :
    Leads node s s' := by
  induction fuel generalizing due s with
  | zero =>
    cases h
    exact .refl _
  | succ fuel ih =>
    unfold runTicks at h
    split at h
    · cases h
      exact .refl _
    · dsimp only at h
      obtain ⟨ticked, hticked, hrest⟩ := Option.bind_eq_some_iff.mp h
      have hleads : Leads node s ticked := (s.leads_pass due).trans (leads_boundedTick hticked)
      split at hrest
      · exact hleads.trans (ih hrest)
      · split at hrest
        · cases hrest
        · exact hleads.trans (ih hrest)

theorem leads_stopUpdaters (s : Session) : Leads node s s.stopUpdaters := by
  intro c h
  refine ⟨_, .single (.stop c.loop c.service), ?_, ?_, ?_, h.launches⟩
  · rw [h.loop]
    exact h.simulation.dropUpdaters _
  · rw [h.loop]
    rfl
  · exact ⟨h.sound.numbered, fun x hx => h.sound.updaters x (List.mem_of_mem_filter hx),
      h.sound.launches⟩

/-- A loop that runs for a time and is then stopped runs through a course. -/
theorem leads_runFor {now millis : Nat} (h : s.runFor now millis = some s') : Leads node s s' := by
  unfold runFor at h
  split at h
  · cases h
  · dsimp only at h
    obtain ⟨ticked, hticked, hstopped⟩ := Option.bind_eq_some_iff.mp h
    cases hstopped
    have hpassed : Leads node s _ :=
      (leads_runTicks hticked).trans (ticked.leads_pass (s.simulation.clock + millis))
    exact (hpassed.trans (leads_stopUpdaters _)).trans (leads_settle _)

/-- Waiting for the updaters is a step of a course, if it lasts until all have ended. -/
theorem leads_awaitUpdaters (s : Session)
    (hended : ∀ n, s.simulation.runAll.takeEnds.2.flights n = 0) :
    Leads node s s.awaitUpdaters.2 := by
  have hnoted : Leads node s _ :=
    (s.leads_runBefore (s.simulation.horizon + 1)).trans (leads_takeEnds _)
  refine (hnoted.trans fun c h => ?_).trans (leads_settle _)
  refine ⟨_, .single (.drain c.loop s.time fun n => ?_), h.simulation, ?_, h.sound, h.launches⟩
  · rw [h.simulation.flights_eq]
    exact hended n
  · rw [h.loop]
    rfl

/-- A session begins over nodes in memory, with an idle loop and nothing at work. -/
structure Begins (s : Session) (p : InMemory) : Prop where
  scene : s.simulation.toScene.Over p
  numbered : p.Numbered
  jobs : s.simulation.jobs = []
  updaterEnds : s.simulation.updaterEnds = []
  launchEnds : s.simulation.launchEnds = []
  slots : s.loop.updaters.slots = ∅
  finished : s.loop.finished = []

/-- A session that begins plays a course that begins. -/
theorem Begins.plays {p : InMemory} (h : s.Begins p) : s.Plays ⟨s.loop, { provider := p }⟩ := by
  refine ⟨⟨h.scene, [], ?_, rfl, ?_, ?_, ?_⟩, rfl, ⟨h.numbered, ?_, ?_⟩, rfl⟩
  · rw [h.launchEnds]
    exact .nil
  · unfold Simulation.service Simulation.orders
    rw [h.jobs]
    exact .refl _
  · unfold Simulation.service Simulation.updaters
    rw [h.jobs]
    exact .refl _
  · unfold Simulation.service Simulation.takeEnds
    rw [h.updaterEnds]
    rfl
  · exact fun x hx => absurd hx List.not_mem_nil
  · exact fun x hx => absurd hx List.not_mem_nil

/-- A session that has begun and run for a time plays a course that began with its loop. -/
theorem Begins.course_runFor {p : InMemory} {now millis : Nat} (h : s.Begins p)
    (hrun : s.runFor now millis = some s') :
    ∃ start c : Course, start.Initial ∧ start.loop = s.loop ∧ Course.Steps node start c ∧
      s'.Plays c := by
  obtain ⟨c, hsteps, hplays⟩ := leads_runFor hrun _ h.plays
  exact ⟨_, c, ⟨h.numbered, rfl, rfl, rfl, rfl, h.slots, h.finished⟩, rfl, hsteps, hplays⟩

end Session

end ClusterScaler
