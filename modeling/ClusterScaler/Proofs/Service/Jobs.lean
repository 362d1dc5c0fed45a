import ClusterScaler.Proofs.Exclusion.Sessions
import ClusterScaler.Proofs.Service.Steps
import Mathlib.Data.List.Forall2

/-!
# Simulations play services

A simulation over nodes in memory has jobs in its background, which go on when they are due. It
plays a service: the updaters and the launch orders that are at work in the service are its jobs and
the ends that nobody has taken note of. Whatever a job does in one step, the service may do in
several, one for each answer. Faults may strike the calls, as long as they make up no nodes.
-/

set_option autoImplicit false

namespace ClusterScaler

open Program

/-- Nothing but the counts of creations has changed. A creation is counted when it is asked for, and
when it is given up, whether or not it is answered. -/
def InMemory.Recounted (p q : InMemory) : Prop :=
  ∃ createCalls creating peakCreating, q = { p with createCalls, creating, peakCreating }

namespace InMemory.Recounted

theorem refl (p : InMemory) : p.Recounted p := ⟨_, _, _, rfl⟩

theorem trans {p q q' : InMemory} (h : p.Recounted q) (h' : q.Recounted q') : p.Recounted q' := by
  obtain ⟨_, _, _, rfl⟩ := h
  obtain ⟨_, _, _, rfl⟩ := h'
  exact ⟨_, _, _, rfl⟩

end InMemory.Recounted

/-- Faults that let nodes be read, and make up none. -/
def Faults.Fair (fs : Faults) : Prop :=
  ∀ f ∈ fs, f.1 ≠ .nodeTags ∧ f.1 ≠ .isRunning ∧ f.2 ≠ .duplicate ∧ f.2 ≠ .ghost

namespace Faults

theorem take_subset (m : Method) (fs : Faults) : (fs.take m).2 ⊆ fs := by
  induction fs with
  | nil => exact List.nil_subset _
  | cons f rest ih =>
    obtain ⟨m', f⟩ := f
    unfold take
    split
    · exact List.subset_cons_self _ _
    · exact List.cons_subset_cons _ ih

/-- The fault that is taken out was queued for the method. -/
theorem mem_of_take {m : Method} {fs : Faults} {f : Fault} (h : (fs.take m).1 = some f) :
    (m, f) ∈ fs := by
  induction fs with
  | nil => cases h
  | cons g rest ih =>
    obtain ⟨m', g⟩ := g
    unfold take at h
    split at h
    · next hm =>
      cases h
      exact hm ▸ List.mem_cons_self
    · exact List.mem_cons_of_mem _ (ih h)

theorem next_subset (fs : Faults) (r : Request) : (fs.next r).2 ⊆ fs := by
  unfold next
  split
  · exact take_subset _ fs
  · exact List.Subset.refl _

theorem mem_of_next {fs : Faults} {r : Request} {f : Fault} (h : (fs.next r).1 = some f) :
    ∃ m, r.method? = some m ∧ (m, f) ∈ fs := by
  unfold next at h
  split at h
  · next m hm => exact ⟨m, hm, mem_of_take h⟩
  · cases h

end Faults

/-- An answer is as it was unless a fault changes what is listed. -/
theorem Fault.tamper_eq {f : Fault} (h : f ≠ .duplicate ∧ f ≠ .ghost) (r : Request)
    (reply : r.Reply) : f.tamper r reply = reply := by
  unfold tamper
  split
  · cases f with
    | duplicate => exact absurd rfl h.1
    | ghost => exact absurd rfl h.2
    | _ => rfl
  · rfl

/-- A world of nodes in memory answers as these do. -/
theorem World.replies_answer {w : World} {p : InMemory} (h : w.backend = .inMemory p)
    (r : Request) :
    ∃ p', (w.answer r).2.backend = .inMemory p' ∧ p.Replies r (w.answer r).1 p' := by
  obtain ⟨backend, files, programs⟩ := w
  obtain rfl : backend = .inMemory p := h
  have hstays : ∃ p', (World.answer ⟨.inMemory p, files, programs⟩ r).2.backend =
      .inMemory p' := by
    cases r with
    | run runner command => cases runner <;> exact ⟨_, rfl⟩
    | sync runner source target => cases runner <;> exact ⟨_, rfl⟩
    | _ => exact ⟨_, rfl⟩
  obtain ⟨p', hp'⟩ := hstays
  exact ⟨p', hp', .answers files programs _ rfl hp'⟩

theorem World.recounted_enter {w : World} {p : InMemory} (h : w.backend = .inMemory p)
    (r : Request) : ∃ q, (w.enter r).backend = .inMemory q ∧ p.Recounted q := by
  unfold enter
  rw [h]
  split
  · next heq =>
    cases heq
    exact ⟨_, rfl, _, _, _, rfl⟩
  · exact ⟨p, h, .refl p⟩

theorem World.recounted_leave {w : World} {p : InMemory} (h : w.backend = .inMemory p)
    (r : Request) : ∃ q, (w.leave r).backend = .inMemory q ∧ p.Recounted q := by
  unfold leave
  rw [h]
  split
  · next heq =>
    cases heq
    exact ⟨_, rfl, p.createCalls, p.creating - 1, p.peakCreating, rfl⟩
  · exact ⟨p, h, .refl p⟩

/-- A look at one node fails only if there is no such node. -/
def Request.Told (p : InMemory) : (r : Request) → r.Reply → Prop
  | .nodeTags node, reply => (∃ x, p.nodes.get? node = some x) → reply.isOk = true
  | .isRunning _, reply => reply.isOk = true
  | _, _ => True

theorem World.told_answer {w : World} {p p' : InMemory} (h : w.backend = .inMemory p)
    (r : Request) (hp' : (w.answer r).2.backend = .inMemory p') : r.Told p' (w.answer r).1 := by
  obtain ⟨backend, files, programs⟩ := w
  obtain rfl : backend = .inMemory p := h
  cases r with
  | nodeTags node =>
    cases hp'
    rintro ⟨x, hx⟩
    change ((p.find node).map (·.tags)).isOk = true
    unfold InMemory.find
    rw [hx]
    rfl
  | isRunning node => rfl
  | _ => trivial

/-- A scene stands over nodes in memory, but for the counts of creations. -/
structure Scene.Over (s : Scene) (p : InMemory) : Prop where
  backend : ∃ q, p.Recounted q ∧ s.world.backend = .inMemory q
  fair : s.faults.Fair

/-- What becomes of a request that is made of nodes in memory. -/
def Arrival.Fits {r : Request} (p : InMemory) : Arrival r → Scene → Prop
  | .answered reply, s =>
    ∃ q p', p.Recounted q ∧ q.Replies r reply p' ∧ r.Told p' reply ∧ s.Over p'
  | .later _, s | .panicked, s => s.Over p

namespace Scene.Over

variable {s : Scene} {p : InMemory}

/-- A request that is due is answered by the nodes. -/
theorem answer (h : s.Over p) (r : Request) :
    ∃ q p', p.Recounted q ∧ q.Replies r (s.answer r).1 p' ∧ r.Told p' (s.answer r).1 ∧
      (s.answer r).2.Over p' := by
  obtain ⟨q, hq, hbackend⟩ := h.backend
  obtain ⟨p', hp', hreplies⟩ := World.replies_answer hbackend r
  exact ⟨q, p', hq, hreplies, World.told_answer hbackend r hp', ⟨p', .refl p', hp'⟩, h.fair⟩

theorem leave (h : s.Over p) (r : Request) : (s.leave r).Over p := by
  obtain ⟨q, hq, hbackend⟩ := h.backend
  obtain ⟨q', hq', hrecounted⟩ := World.recounted_leave hbackend r
  exact ⟨⟨q', hq.trans hrecounted, hq'⟩, h.fair⟩

theorem leaveAll (h : s.Over p) (requests : List Request) :
    (requests.foldl Scene.leave s).Over p := by
  induction requests generalizing s with
  | nil => exact h
  | cons r rest ih => exact ih (h.leave r)

/-- A request that reaches the nodes is answered now, or later. -/
theorem reach (h : s.Over p) (r : Request) {f : Fault} (hf : f ≠ .duplicate ∧ f ≠ .ghost) :
    (s.reach r f).1.Fits p (s.reach r f).2 := by
  obtain ⟨q, hq, hbackend⟩ := h.backend
  obtain ⟨q', hq', hrecounted⟩ := World.recounted_enter hbackend r
  have hentered : Scene.Over { s with world := s.world.enter r } p :=
    ⟨⟨q', hq.trans hrecounted, hq'⟩, h.fair⟩
  have hreach : s.reach r f =
      if ((s.world.enter r).latency r).timerMillis = 0 then
        (.answered (f.tamper r (Scene.answer { s with world := s.world.enter r } r).1),
          (Scene.answer { s with world := s.world.enter r } r).2)
      else (.later (s.clock + ((s.world.enter r).latency r).timerMillis),
        { s with world := s.world.enter r }) := rfl
  rw [hreach]
  split
  · rw [Fault.tamper_eq hf]
    exact hentered.answer r
  · exact hentered

/-- Whatever a request meets when it is made, the nodes answer it or it fails before it reaches
them. -/
theorem make (h : s.Over p) (r : Request) : (s.make true r).1.Fits p (s.make true r).2 := by
  have hstruck : Scene.Over { s with faults := (s.faults.next r).2 } p :=
    ⟨h.backend, fun f hf => h.fair f (s.faults.next_subset r hf)⟩
  have hmet : ∀ f, (s.faults.next r).1 = some f →
      ∃ m, r.method? = some m ∧ m ≠ .nodeTags ∧ m ≠ .isRunning ∧ f ≠ .duplicate ∧ f ≠ .ghost := by
    intro f hf
    obtain ⟨m, hm, hqueued⟩ := Faults.mem_of_next hf
    exact ⟨m, hm, h.fair _ hqueued⟩
  unfold Scene.make
  simp only [if_true]
  split
  · exact hstruck.reach r (by decide)
  · exact hstruck
  · next e he =>
    split
    · next reply hfailed =>
      obtain ⟨m, hm, htags, hrunning, -⟩ := hmet _ he
      refine ⟨p, p, .refl p, .fails e hfailed rfl, ?_, hstruck⟩
      cases r with
      | nodeTags node => exact absurd (Option.some.inj hm).symm htags
      | isRunning node => exact absurd (Option.some.inj hm).symm hrunning
      | _ => trivial
    · exact hstruck.reach r (by decide)
  · next f hf =>
    obtain ⟨-, -, -, -, hhonest⟩ := hmet _ hf
    exact hstruck.reach r hhonest

end Scene.Over

/-- A place in a service where a routine works on the nodes. -/
structure Service.Place (outside : InMemory → InMemory → Prop) (α : Type) where
  /-- So much is left of the routine. -/
  At : InMemory → Routine α → Service → Prop
  recount {p q : InMemory} {rest : Routine α} {v : Service} : At p rest v → p.Recounted q →
    ∃ v', Step outside v v' ∧ At q rest v'
  answer {p q : InMemory} {r : Request} {next : r.Reply → Routine α} {reply : r.Reply}
    {v : Service} : At p (.ask r next) v → p.Replies r reply q →
      ∃ v', Step outside v v' ∧ At q (next reply) v'

/-- What a moment of a program leaves of the program that goes on with its result. -/
def Moment.Leaves {α β : Type} (f : α → Routine β) : Moment α → Routine β → Prop
  | .ended a, rest => rest = f a
  | .panicked, rest => ∃ r next, rest = .ask r next
  | .waiting w, rest => rest = .ask w.request (fun reply => (w.next reply).bind f)

theorem Moment.Leaves.waiting_done {α : Type} {w : Waiting α} {rest : Routine α}
    (h : (Moment.waiting w).Leaves Program.done rest) : rest = .ask w.request w.next :=
  h.trans (congrArg (Program.ask w.request) (funext fun reply => Program.bind_pure (w.next reply)))

namespace Service.Place

variable {outside : InMemory → InMemory → Prop} {α β : Type} (P : Place outside β)
  (f : α → Routine β)

/-- From its place a program has come to a moment. -/
def Comes (p : InMemory) (rest : Routine β) (r : Moment α × Scene) : Prop :=
  ∀ v, P.At p rest v → ∃ q left v', Steps outside v v' ∧ P.At q left v' ∧ r.2.Over q ∧
    r.1.Leaves f left

variable {P f} {p : InMemory} {s : Scene}

/-- A program that is answered has come to what it comes to from there. -/
theorem Comes.answered {r : Request} (next : r.Reply → Routine α) {reply : r.Reply}
    {q p' : InMemory} {m : Moment α × Scene} (hq : p.Recounted q) (hreplies : q.Replies r reply p')
    (h : P.Comes f p' ((next reply).bind f) m) : P.Comes f p ((Program.ask r next).bind f) m := by
  intro v hv
  obtain ⟨v₁, hstep₁, hv₁⟩ := P.recount hv hq
  obtain ⟨v₂, hstep₂, hv₂⟩ := P.answer hv₁ hreplies
  obtain ⟨p'', left, v', hsteps, hrest⟩ := h v₂ hv₂
  exact ⟨p'', left, v', .head hstep₁ (.head hstep₂ hsteps), hrest⟩

/-- A program goes on at its place as far as it can. -/
theorem comes_proceed (h : s.Over p) (routine : Routine α) :
    P.Comes f p (routine.bind f) (s.proceed true routine) := by
  induction routine generalizing s p with
  | done a => exact fun v hv => ⟨p, _, v, .refl, hv, h, rfl⟩
  | ask r next ih =>
    have hmake := h.make r
    unfold Scene.proceed
    split
    · next reply s' heq =>
      rw [heq] at hmake
      obtain ⟨q, p', hq, hreplies, -, hover⟩ := hmake
      exact .answered next hq hreplies (ih reply hover)
    · next due s' heq =>
      rw [heq] at hmake
      exact fun v hv => ⟨p, _, v, .refl, hv, hmake, rfl⟩
    · next s' heq =>
      rw [heq] at hmake
      exact fun v hv => ⟨p, _, v, .refl, hv, hmake, r, _, rfl⟩

/-- A program that waits goes on at its place with the answer. -/
theorem comes_resume (h : s.Over p) (w : Waiting α) :
    P.Comes f p (.ask w.request fun reply => (w.next reply).bind f) (s.resume true w) := by
  obtain ⟨q, p', hq, hreplies, -, hover⟩ := h.answer w.request
  exact .answered w.next hq hreplies (comes_proceed hover _)

end Service.Place

/-- Two services have the same nodes and the same at work, in whatever order. -/
structure Service.Like (v w : Service) : Prop where
  provider : v.provider = w.provider
  launches : v.launches.Perm w.launches
  updaters : v.updaters.Perm w.updaters
  ends : v.ends = w.ends

namespace Service

variable {outside : InMemory → InMemory → Prop} {v o : Service} {u : Update}

theorem like_goOn (hlaunches : v.launches.Perm o.launches) (hends : v.ends = o.ends)
    (p : InMemory) (rest : Routine UpdateResult) :
    (goOn { v with provider := p } u o.updaters rest).Like
      (goOn { o with provider := p } u o.updaters rest) := by
  cases rest with
  | done result => exact ⟨rfl, hlaunches, .refl _, congrArg (· ++ _) hends⟩
  | ask r next => exact ⟨rfl, hlaunches, .refl _, hends⟩

variable (houtside : ∀ p q : InMemory, p.Recounted q → outside p q)
include houtside

/-- The place of an updater beside what else is at work. -/
def Place.ofUpdate (o : Service) (u : Update) : Place outside UpdateResult where
  At p rest v := v.Like (goOn { o with provider := p } u o.updaters rest)
  recount {p q rest v} hv hq := by
    refine ⟨{ v with provider := q }, ?_⟩
    cases rest with
    | done result =>
      exact ⟨.outside (hv.provider ▸ houtside p q hq), rfl, hv.launches, hv.updaters, hv.ends⟩
    | ask r next =>
      exact ⟨.outside (hv.provider ▸ houtside p q hq), rfl, hv.launches, hv.updaters, hv.ends⟩
  answer {p _ _ _ _ v} hv hreplies := by
    have hprovider : v.provider = p := hv.provider
    exact ⟨_, .update hv.updaters (hprovider ▸ hreplies),
      like_goOn (o := o) hv.launches hv.ends _ _⟩

/-- The place of a launch order beside what else is at work. -/
def Place.ofLaunch (o : Service) : Place outside LaunchReport where
  At p rest v := v.Like { o with provider := p, launches := rest :: o.launches }
  recount {p q _ v} hv hq :=
    ⟨{ v with provider := q }, .outside (hv.provider ▸ houtside p q hq), rfl, hv.launches,
      hv.updaters, hv.ends⟩
  answer hv hreplies :=
    ⟨_, .launch hv.launches (hv.provider ▸ hreplies), rfl, .refl _, hv.updaters, hv.ends⟩

end Service

namespace Work

/-- The updater that a job is. -/
def updater? : Work → Option Updater
  | startUpdate u => some ⟨u, u.routine⟩
  | applying u _ w => some ⟨u, .ask w.request (fun reply => (w.next reply).bind u.conclude)⟩
  | concluding u w => some ⟨u, .ask w.request w.next⟩
  | startLaunch _ | launching .. => none

/-- What is left of the launch order that a job is. -/
def order? : Work → Option (Routine LaunchReport)
  | startLaunch o => some o.routine
  | launching _ w => some (.ask w.request w.next)
  | startUpdate _ | applying .. | concluding .. => none

end Work

/-- The nodes and the job at work beside what else is at work. -/
def Work.joined (work : Work) (p : InMemory) (o : Service) : Service :=
  { o with
    provider := p
    launches := work.order?.toList ++ o.launches
    updaters := work.updater?.toList ++ o.updaters }

/-- What a service comes to with a step of a job, beside what else is at work. -/
def WorkStep.Brings (p : InMemory) (o : Service) : WorkStep → Service → Prop
  | .still work, v => v.Like (work.joined p o)
  | .updater node ended, v => v.Like { o with provider := p, ends := o.ends ++ [(node, ended)] }
  | .launch ended, v =>
    ∃ rest, ended.Of rest ∧ v.Like { o with provider := p, launches := rest :: o.launches }

/-- An update starts with a request. -/
theorem Update.exists_ask_routine (u : Update) : ∃ r next, u.routine = .ask r next := by
  have hstart : ∃ r next, (Routine.retrying u.retry (Request.make (.setNodeTags u.request.node
      (Table.ofList [(Tags.nodeStatus, BootstrapStatus.waitingForNode.text)])))) = .ask r next := by
    unfold Routine.retrying RetryPolicy.withRetries
    cases u.retry.maxRetries <;> exact ⟨_, _, rfl⟩
  obtain ⟨r, next, hstart⟩ := hstart
  unfold routine apply andThen writeStatus writeTags calling
  rw [hstart]
  exact ⟨_, _, rfl⟩

namespace Work

open Service

variable {outside : InMemory → InMemory → Prop} {p : InMemory} {s : Scene} {v o : Service}
  {u : Update}

/-- What a service may come to as a job comes to a step, beside what else is at work. -/
def Goes (outside : InMemory → InMemory → Prop) (o v : Service) (r : WorkStep × Scene) : Prop :=
  ∃ q v', Steps outside v v' ∧ r.2.Over q ∧ r.1.Brings q o v'

theorem Goes.head {v' : Service} {r : WorkStep × Scene} (hsteps : Steps outside v v')
    (h : Goes outside o v' r) : Goes outside o v r := by
  obtain ⟨q, v'', hrest, hbrings⟩ := h
  exact ⟨q, v'', hsteps.trans hrest, hbrings⟩

/-- An updater that breaks down leaves its end. -/
theorem goes_panic {rest : Routine UpdateResult} (hs : s.Over p)
    (hv : v.Like { o with provider := p, updaters := ⟨u, rest⟩ :: o.updaters }) :
    Goes outside o v (.updater u.request.node .panicked, s) :=
  ⟨p, _, .single (.panic hv.updaters), hs, hv.provider, hv.launches, .refl _,
    congrArg (· ++ _) hv.ends⟩

variable (houtside : ∀ p q : InMemory, p.Recounted q → outside p q)
include houtside

/-- A moment of what concludes an update. -/
theorem goes_afterConclude {rest : Routine UpdateResult} {m : Moment UpdateResult × Scene}
    (hm : (Place.ofUpdate houtside o u).Comes Program.done p rest m)
    (hv : v.Like (goOn { o with provider := p } u o.updaters rest)) :
    Goes outside o v (afterConclude u m.1, m.2) := by
  obtain ⟨q, left, v', hsteps, hleft, hover, hleaves⟩ := hm v hv
  obtain ⟨m, s⟩ := m
  refine Goes.head hsteps ?_
  cases m with
  | ended result =>
    obtain rfl : left = .done result := hleaves
    exact ⟨q, v', .refl, hover, hleft.provider, hleft.launches, hleft.updaters, hleft.ends⟩
  | panicked =>
    obtain ⟨r, next, rfl⟩ := hleaves
    exact goes_panic hover hleft
  | waiting w =>
    obtain rfl := hleaves.waiting_done
    exact ⟨q, v', .refl, hover, hleft⟩

theorem goes_conclude {result : UpdateResult} (hs : s.Over p)
    (hv : v.Like (goOn { o with provider := p } u o.updaters (u.conclude result))) :
    Goes outside o v (conclude u result s) := by
  have hcomes := Place.comes_proceed (P := Place.ofUpdate houtside o u)
    (f := Program.done) hs (u.conclude result)
  rw [bind_pure] at hcomes
  exact goes_afterConclude houtside hcomes hv

/-- An updater that is cut off at its timeout is concluded. -/
theorem goes_timeout {rest : Routine UpdateResult} (hs : s.Over p)
    (hv : v.Like { o with provider := p, updaters := ⟨u, rest⟩ :: o.updaters }) :
    Goes outside o v (conclude u (.error (.timeout u.timeout)) s) := by
  obtain rfl : v.provider = p := hv.provider
  have hcut := like_goOn (o := o) (u := u) hv.launches hv.ends v.provider
    (u.conclude (.error (.timeout u.timeout)))
  exact .head (.single (.timeout hv.updaters)) (goes_conclude houtside hs hcut)

/-- A moment of an update that is under way. -/
theorem goes_afterApply {rest : Routine UpdateResult} {m : Moment UpdateResult × Scene}
    (deadline : Nat)
    (hm : (Place.ofUpdate houtside o u).Comes u.conclude p rest m)
    (hv : v.Like (goOn { o with provider := p } u o.updaters rest)) :
    Goes outside o v (afterApply u deadline m.1 m.2) := by
  obtain ⟨q, left, v', hsteps, hleft, hover, hleaves⟩ := hm v hv
  obtain ⟨m, s⟩ := m
  refine Goes.head hsteps ?_
  cases m with
  | ended result =>
    obtain rfl : left = u.conclude result := hleaves
    exact goes_conclude houtside hover hleft
  | panicked =>
    obtain ⟨r, next, rfl⟩ := hleaves
    exact goes_panic hover hleft
  | waiting w =>
    obtain rfl := hleaves
    unfold afterApply
    dsimp only
    split
    · exact goes_timeout houtside (hover.leave w.request) hleft
    · exact ⟨q, v', .refl, hover, hleft⟩

/-- A moment of a launch order. -/
theorem goes_afterLaunch {order : LaunchOrder} {rest : Routine LaunchReport}
    {m : Moment LaunchReport × Scene}
    (hm : (Place.ofLaunch houtside o).Comes Program.done p rest m)
    (hv : v.Like { o with provider := p, launches := rest :: o.launches }) :
    Goes outside o v (afterLaunch order m.1, m.2) := by
  obtain ⟨q, left, v', hsteps, hleft, hover, hleaves⟩ := hm v hv
  obtain ⟨m, s⟩ := m
  refine ⟨q, v', hsteps, hover, ?_⟩
  cases m with
  | ended report => exact ⟨left, hleaves, hleft⟩
  | panicked => exact ⟨left, trivial, hleft⟩
  | waiting w =>
    obtain rfl := hleaves.waiting_done
    exact hleft

/-- Whatever a job does in one step, the service may do. -/
theorem goes_step (work : Work) (hs : s.Over p)
    (hv : v.Like (work.joined p o)) :
    Goes outside o v (work.step s) := by
  cases work with
  | startUpdate u =>
    have hstart : v.Like (goOn { o with provider := p } u o.updaters u.routine) := by
      obtain ⟨r, next, hasks⟩ := u.exists_ask_routine
      have hupdater :
          v.Like { o with provider := p, updaters := ⟨u, u.routine⟩ :: o.updaters } := hv
      rw [hasks] at hupdater ⊢
      exact hupdater
    exact goes_afterApply houtside _ (Place.comes_proceed hs u.apply) hstart
  | applying u deadline w =>
    unfold step
    dsimp only
    split
    · exact goes_afterApply houtside _ (Place.comes_resume hs w) hv
    · exact goes_timeout houtside (hs.leave w.request) hv
  | concluding u w =>
    have hcomes := Place.comes_resume (P := Place.ofUpdate houtside o u)
      (f := Program.done) hs w
    simp only [bind_pure] at hcomes
    exact goes_afterConclude houtside hcomes hv
  | startLaunch order =>
    have hcomes := Place.comes_proceed (P := Place.ofLaunch houtside o) (f := Program.done) hs
      order.routine
    rw [bind_pure] at hcomes
    exact goes_afterLaunch houtside hcomes hv
  | launching order w =>
    have hcomes := Place.comes_resume (P := Place.ofLaunch houtside o)
      (f := Program.done) hs w
    simp only [bind_pure] at hcomes
    exact goes_afterLaunch houtside hcomes hv

end Work

namespace Simulation

/-- The updaters among the jobs. -/
def updaters (s : Simulation) : List Updater := s.jobs.filterMap (·.work.updater?)

/-- What is left of the launch orders among the jobs. -/
def orders (s : Simulation) : List (Routine LaunchReport) := s.jobs.filterMap (·.work.order?)

/-- The service whose work is what the jobs have to do and their ends. The launch orders that have
ended stand as they were left. -/
def service (s : Simulation) (p : InMemory) (left : List (Routine LaunchReport)) : Service :=
  { provider := p, launches := s.orders ++ left, updaters := s.updaters, ends := s.takeEnds.1 }

/-- A simulation over nodes in memory plays a service: what this has at work are its jobs, and their
ends. -/
structure Plays (s : Simulation) (v : Service) : Prop where
  scene : s.toScene.Over v.provider
  work : ∃ left, List.Forall₂ LaunchEnd.Of s.launchEnds left ∧ v.Like (s.service v.provider left)

namespace Plays

variable {outside : InMemory → InMemory → Prop} {s : Simulation} {v : Service} {p : InMemory}
  (left : List (Routine LaunchReport))

theorem of_like (hover : s.toScene.Over p) (hends : List.Forall₂ LaunchEnd.Of s.launchEnds left)
    (h : v.Like (s.service p left)) : s.Plays v := by
  obtain rfl : v.provider = p := h.provider
  exact ⟨hover, left, hends, h⟩

/-- With another job a simulation plays a service that has this to do. -/
theorem add {work : Work} (hover : s.toScene.Over p)
    (hends : List.Forall₂ LaunchEnd.Of s.launchEnds left)
    (h : v.Like (work.joined p (s.service p left))) : (s.add work).Plays v := by
  have horders : (s.add work).orders = s.orders ++ work.order?.toList := by
    unfold orders Simulation.add
    rw [List.filterMap_append]
    cases work <;> rfl
  have hupdaters : (s.add work).updaters = s.updaters ++ work.updater?.toList := by
    unfold updaters Simulation.add
    rw [List.filterMap_append]
    cases work <;> rfl
  refine of_like (p := p) left hover hends ⟨h.provider, h.launches.trans ?_,
    h.updaters.trans ?_, h.ends⟩
  · unfold service
    rw [horders, List.append_assoc]
    exact List.perm_append_comm_assoc _ _ _
  · unfold service
    rw [hupdaters]
    exact List.perm_append_comm

theorem settleStep {r : WorkStep} (hover : s.toScene.Over p)
    (hends : List.Forall₂ LaunchEnd.Of s.launchEnds left)
    (h : r.Brings p (s.service p left) v) : (s.settleStep r).Plays v := by
  cases r with
  | still work => exact add left hover hends h
  | updater node ended =>
    refine of_like (p := p) left hover hends
      ⟨h.provider, h.launches, h.updaters, h.ends.trans ?_⟩
    unfold service takeEnds Simulation.settleStep
    rw [List.map_append]
    rfl
  | launch ended =>
    obtain ⟨rest, hof, h⟩ := h
    refine of_like (p := p) (left ++ [rest]) hover
      (List.rel_append hends (.cons hof .nil)) ⟨h.provider, h.launches.trans ?_, h.updaters, h.ends⟩
    unfold service
    rw [← List.append_assoc]
    exact (List.perm_append_singleton rest _).symm

/-- The ends that are taken note of are those of the service. -/
theorem takeEnds (h : s.Plays v) :
    v.ends = s.takeEnds.1 ∧ s.takeEnds.2.Plays { v with ends := [] } := by
  obtain ⟨left, hends, hv⟩ := h.work
  exact ⟨hv.ends, of_like left h.scene hends ⟨rfl, hv.launches, hv.updaters, rfl⟩⟩

section Background

variable (houtside : ∀ p q : InMemory, p.Recounted q → outside p q)
include houtside

/-- A step of a job is a number of steps of the service. -/
theorem runJob {job : Job} {others : List Job} (h : s.Plays v)
    (hperm : s.jobs.Perm (job :: others)) :
    ∃ v', Service.Steps outside v v' ∧ (s.runJob job others).Plays v' := by
  obtain ⟨left, hends, hv⟩ := h.work
  have hjob : ∀ {γ : Type} (f : Work → Option γ), (s.jobs.filterMap (f ·.work)).Perm
      ((f job.work).toList ++ others.filterMap (f ·.work)) := by
    intro γ f
    refine (hperm.filterMap _).trans ?_
    rw [List.filterMap_cons]
    cases f job.work <;> exact .refl _
  have hclock : Scene.Over { s.toScene with clock := max s.clock job.due } v.provider :=
    ⟨h.scene.backend, h.scene.fair⟩
  have hwork : v.Like (job.work.joined v.provider
      (({ s with jobs := others } : Simulation).service v.provider left)) := by
    refine ⟨rfl, hv.launches.trans ?_, hv.updaters.trans (hjob Work.updater?), hv.ends⟩
    unfold Work.joined service
    rw [← List.append_assoc]
    exact (hjob Work.order?).append_right left
  obtain ⟨q, v', hsteps, hover, hbrings⟩ := job.work.goes_step houtside hclock hwork
  exact ⟨v', hsteps, settleStep (s := { s with
    toScene := (job.work.step { s.toScene with clock := max s.clock job.due }).2
    jobs := others }) left hover hends hbrings⟩

theorem runJobs (h : s.Plays v) (stop : Simulation → Bool) (limit fuel : Nat) :
    ∃ v', Service.Steps outside v v' ∧ (s.runJobs stop limit fuel).Plays v' := by
  induction fuel generalizing s v with
  | zero => exact ⟨v, .refl, h⟩
  | succ fuel ih =>
    unfold Simulation.runJobs
    split
    · exact ⟨v, .refl, h⟩
    · split
      · exact ⟨v, .refl, h⟩
      · next job others hnext =>
        split
        · obtain ⟨v₁, hfirst, hplays⟩ := h.runJob houtside (Job.next?_perm hnext)
          obtain ⟨v₂, hrest, hplays⟩ := ih hplays
          exact ⟨v₂, hfirst.trans hrest, hplays⟩
        · exact ⟨v, .refl, h⟩

theorem passTo (h : s.Plays v) (time : Nat) :
    ∃ v', Service.Steps outside v v' ∧ (s.passTo time).Plays v' := by
  obtain ⟨v', hsteps, hplays⟩ := h.runJobs houtside (fun _ => false) time (s.stepsBefore time)
  exact ⟨v', hsteps, ⟨hplays.scene.backend, hplays.scene.fair⟩, hplays.work⟩

theorem awaitLaunch (h : s.Plays v) (deadline : Option Nat) :
    ∃ v', Service.Steps outside v v' ∧ (s.awaitLaunch deadline).Plays v' := by
  obtain ⟨v₁, hfirst, hplays⟩ := h.runJobs houtside (fun s => !s.launchEnds.isEmpty)
    (deadline.getD (s.horizon + 1)) (s.stepsBefore (deadline.getD (s.horizon + 1)))
  unfold Simulation.awaitLaunch
  dsimp only
  split
  · exact ⟨v₁, hfirst, hplays⟩
  · obtain ⟨v₂, hrest, hplays⟩ := hplays.runJobs houtside (fun _ => false) _ _
    exact ⟨v₂, hfirst.trans hrest, hplays⟩

end Background

theorem dropLaunches (h : s.Plays v) : s.dropLaunches.Plays { v with launches := [] } := by
  obtain ⟨left, hends, hv⟩ := h.work
  have horders : s.dropLaunches.orders = [] := by
    unfold orders Simulation.dropLaunches Simulation.dropJobs
    rw [List.filterMap_eq_nil_iff]
    intro j hj
    have hkept := (List.mem_filter.mp hj).2
    cases hwork : j.work <;> simp [hwork, Work.order?, Work.updaterOf?] at hkept ⊢
  have hupdaters : s.dropLaunches.updaters = s.updaters := by
    unfold updaters Simulation.dropLaunches Simulation.dropJobs
    rw [List.filterMap_filter]
    refine List.filterMap_congr fun j _ => ?_
    cases j.work <;> rfl
  refine of_like [] (h.scene.leaveAll _) .nil ⟨rfl, ?_, ?_, hv.ends⟩
  · unfold service
    rw [horders]
    exact .refl _
  · unfold service
    rw [hupdaters]
    exact hv.updaters

theorem dropUpdaters (h : s.Plays v) (nodes : List NodeId) :
    (s.dropUpdaters nodes).Plays (v.drop nodes) := by
  obtain ⟨left, hends, hv⟩ := h.work
  have horders : (s.dropUpdaters nodes).orders = s.orders := by
    unfold orders Simulation.dropUpdaters Simulation.dropJobs
    rw [List.filterMap_filter]
    refine List.filterMap_congr fun j _ => ?_
    cases j.work <;> simp [Work.order?, Work.updaterOf?]
  have hupdaters : (s.dropUpdaters nodes).updaters =
      s.updaters.filter (fun x => !nodes.contains x.update.request.node) := by
    unfold updaters Simulation.dropUpdaters Simulation.dropJobs
    rw [List.filterMap_filter, List.filter_filterMap]
    refine List.filterMap_congr fun j _ => ?_
    cases j.work <;> simp [Work.updater?, Work.updaterOf?, Option.filter]
  refine of_like left (h.scene.leaveAll _) hends ⟨rfl, ?_, ?_, ?_⟩
  · unfold service
    rw [horders]
    exact hv.launches
  · unfold service
    rw [hupdaters]
    exact hv.updaters.filter _
  · have hdropped : (s.dropUpdaters nodes).takeEnds.1 =
        s.takeEnds.1.filter (fun e => !nodes.contains e.1) := by
      unfold Simulation.takeEnds Simulation.dropUpdaters Simulation.dropJobs
      dsimp only
      rw [List.filter_map]
      rfl
    exact (congrArg _ hv.ends).trans hdropped.symm

/-- What happens to the scene happens to the provider. -/
theorem onScene (h : s.Plays v) {scene : Scene} (hover : scene.Over p) :
    ({ s with toScene := scene } : Simulation).Plays { v with provider := p } := by
  obtain ⟨left, hends, hv⟩ := h.work
  exact of_like left hover hends ⟨rfl, hv.launches, hv.updaters, hv.ends⟩

end Plays

end Simulation

end ClusterScaler
