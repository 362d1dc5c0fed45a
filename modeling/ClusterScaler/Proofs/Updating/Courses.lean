import ClusterScaler.Proofs.Tick.Midway
import ClusterScaler.Proofs.Tick.Success
import ClusterScaler.Proofs.Updating.Stamps

/-!
# Courses

A course is a loop with the service that works for it. It goes on by ticks, each run to its end or
cut short, and by what happens between them. What is held to be true of one node is kept in a
`NodeWatch`: whether it is tainted, gone or known to be of the cluster, and what a tick read of it.
Whatever writes no tags keeps that true.
-/

set_option autoImplicit false

namespace ClusterScaler

open Program InMemory

/-- The loop as it stands in what is left of a part of a tick. -/
def Tick.standing {α : Type} : Program TickAsk TickAsk.Reply (α × ControlLoop) → ControlLoop
  | .done r => r.2
  | .ask a _ => a.loop

/-- List the nodes of the cluster. -/
def Tick.listing : TickM (ProviderResult (List NodeId)) := do
  let filter := Table.ofList [(Tags.clusterName, (← get).config.clusterName)]
  TickM.retrying (TickM.request (.listNodes filter))

/-- Read the nodes that were listed. -/
def Tick.readListed : ProviderResult (List NodeId) → TickM (Except LoopError (List NodeRecord))
  | .error e => return .error (.provider e)
  | .ok ids => readNodes [] ids

/-- What is read first in a tick is the list of the nodes. -/
theorem Tick.reconcile_eq : reconcile = listing >>= readListed := rfl

/-- The listing with which a reading began told of a node. -/
def Reading.Lists {files : FileStore} {now : Nat} {time : Duration} {before : ControlLoop}
    (r : Reading files now time before) (node : NodeId) : Prop :=
  ∃ ids loop first rest, r.trace = first ++ rest ∧
    Runs (Tick.listing.run (before.begun files now time).2) first (.ok ids, loop) ∧
      Runs ((Tick.readNodes [] ids).run loop) rest (.ok r.nodes, r.loop) ∧ node ∈ ids

/-- A reading begins with a list of nodes, and reads these. -/
theorem Reading.exists_listing {files : FileStore} {now : Nat} {time : Duration}
    {before : ControlLoop} (r : Reading files now time before) :
    ∃ ids loop first rest, r.trace = first ++ rest ∧
      Runs (Tick.listing.run (before.begun files now time).2) first (.ok ids, loop) ∧
        Runs ((Tick.readNodes [] ids).run loop) rest (.ok r.nodes, r.loop) := by
  have hruns : Runs ((Tick.listing >>= Tick.readListed).run (before.begun files now time).2) r.trace
      (.ok r.nodes, r.loop) := Tick.reconcile_eq ▸ r.runs
  obtain ⟨first, ⟨listed, loop⟩, rest, hsplit, hlisting, hrest⟩ := runs_bind_iff.mp hruns
  cases listed with
  | error e => cases hrest
  | ok ids => exact ⟨ids, loop, first, rest, hsplit, hlisting, hrest⟩

/-- If every call of a reading succeeds, the nodes that were listed have been read. -/
theorem Reading.Succeeds.reads {files : FileStore} {now : Nat} {time : Duration}
    {before : ControlLoop} {r : Reading files now time before} (h : r.Succeeds) {node : NodeId}
    (hlists : r.Lists node) : node ∈ r.nodes.map (·.id) := by
  obtain ⟨ids, loop, first, rest, htrace, -, hread, hnode⟩ := hlists
  have hrest : ∀ x ∈ rest, Succeeded x := fun x hx =>
    h x (htrace ▸ List.mem_append_right _ hx)
  exact (Tick.readNodes_succeeding ids []).result hread (follows_succeeding [] hrest) r.nodes rfl
    node hnode

/-- What a tick has had so far ends before its reading, in it, or after it. -/
theorem Tick.begins_reading {files : FileStore} {now : Nat} {time : Duration}
    {before : ControlLoop} {trace : List TickExchange}
    {left : Program TickAsk TickAsk.Reply (Except LoopError TickSummary × ControlLoop)}
    (h : Begins ((tick files now time).run before) trace left) :
    (trace = [] ∧ standing left = before.beginTick files) ∨
      (∃ rest left', trace = before.firstExchange files time :: rest ∧
        Begins (reconcile.run (before.begun files now time).2) rest left' ∧
          standing left = standing left') ∨
        ∃ (r : Reading files now time before) (rest : List TickExchange)
            (left' : Program TickAsk TickAsk.Reply (TickSummary × ControlLoop)),
          trace = before.firstExchange files time :: (r.trace ++ rest) ∧
            Begins ((afterReconcile now time r.nodes (before.begun files now time).1).run r.loop)
              rest left' ∧ standing left = standing left' := by
  have hwhole : Begins (.ask ⟨before.beginTick files,
      .abandon ((before.beginTick files).updaters.overdue time)⟩ (fun _ =>
        (reconcile.run (before.begun files now time).2).bind (fun r =>
          (proceed now time (before.begun files now time).1 r.1).run r.2))) trace left := h
  cases hwhole with
  | here => exact .inl ⟨rfl, rfl⟩
  | ask hrest =>
    right
    rcases hrest.bind_cases with
      ⟨op, next, hreading, rfl⟩ | ⟨read, ⟨result, loop⟩, rest, rfl, hread, hrest⟩
    · exact .inl ⟨_, _, rfl, hreading, rfl⟩
    · cases result with
      | error e =>
        cases hrest
        rw [List.append_nil]
        exact .inl ⟨_, _, rfl, hread.begins, rfl⟩
      | ok nodes =>
        right
        have hpassing : Begins (((afterReconcile now time nodes
            (before.begun files now time).1).run loop).bind (fun r =>
              .done (Except.ok (ε := LoopError) r.1, r.2))) rest left := hrest
        rcases hpassing.bind_cases with
          ⟨op, next, hwaiting, rfl⟩ | ⟨passed, r, done, rfl, hpassed, hdone⟩
        · exact ⟨⟨nodes, loop, read, hread⟩, rest, _, rfl, hwaiting, rfl⟩
        · cases hdone
          rw [List.append_nil]
          exact ⟨⟨nodes, loop, read, hread⟩, passed, _, rfl, hpassed.begins, rfl⟩

/-- What a tick has had so far begins with this reading. -/
def Reading.Precedes {files : FileStore} {now : Nat} {time : Duration}
    {before : ControlLoop} (r : Reading files now time before)
    (trace : List TickExchange) : Prop :=
  ∃ rest, trace = before.firstExchange files time :: (r.trace ++ rest)

/-- What a tick has had so far tells which reading it begins with. -/
theorem Reading.Precedes.unique {files : FileStore} {now : Nat} {time : Duration}
    {before : ControlLoop} {r r' : Reading files now time before} {trace : List TickExchange}
    (h : r.Precedes trace) (h' : r'.Precedes trace) : r = r' := by
  obtain ⟨rest, rfl⟩ := h
  obtain ⟨rest', hsplit⟩ := h'
  obtain ⟨htrace, hresult⟩ := r.runs.unique r'.runs (List.cons.inj hsplit).2
  obtain ⟨nodes, loop, trace, runs⟩ := r
  cases htrace
  cases hresult
  rfl

/-- A tick that has read its nodes has this before it. -/
theorem Reading.begins_rest {files : FileStore} {now : Nat} {time : Duration}
    {before : ControlLoop} (r : Reading files now time before)
    {rest : List TickExchange}
    {left : Program TickAsk TickAsk.Reply (Except LoopError TickSummary × ControlLoop)}
    (h : Begins ((tick files now time).run before)
      (before.firstExchange files time :: (r.trace ++ rest)) left) :
    Begins (((Tick.afterReconcile now time r.nodes (before.begun files now time).1).run
      r.loop).bind (fun r => .done (Except.ok (ε := LoopError) r.1, r.2))) rest left := by
  have hwhole : Begins (.ask ⟨before.beginTick files,
      .abandon ((before.beginTick files).updaters.overdue time)⟩ (fun _ =>
        (Tick.reconcile.run (before.begun files now time).2).bind (fun r =>
          (Tick.proceed now time (before.begun files now time).1 r.1).run r.2)))
      (before.firstExchange files time :: (r.trace ++ rest)) left := h
  cases hwhole with
  | ask hread => exact hread.of_bind r.runs

/-- A tick that has read its nodes goes on from there. -/
theorem Reading.begins_passing {files : FileStore} {now : Nat} {time : Duration}
    {before : ControlLoop} (r : Reading files now time before)
    {rest : List TickExchange}
    {left : Program TickAsk TickAsk.Reply (Except LoopError TickSummary × ControlLoop)}
    (h : Begins ((tick files now time).run before)
      (before.firstExchange files time :: (r.trace ++ rest)) left) :
    ∃ left', Begins ((Tick.afterReconcile now time r.nodes (before.begun files now time).1).run
        r.loop) rest left' ∧ Tick.standing left = Tick.standing left' := by
  rcases (r.begins_rest h).bind_cases with
    ⟨op, next, hwaiting, rfl⟩ | ⟨passed, r', done, rfl, hpassed, hdone⟩
  · exact ⟨_, hwaiting, rfl⟩
  · cases hdone
    rw [List.append_nil]
    exact ⟨_, hpassed.begins, rfl⟩

/-- Until it has read its nodes, a tick only stops updaters and looks at nodes. -/
theorem Tick.exists_precedes {files : FileStore} {now : Nat} {time : Duration}
    {before : ControlLoop} {asked rest : List TickExchange} {x : TickExchange}
    {left : Program TickAsk TickAsk.Reply (Except LoopError TickSummary × ControlLoop)}
    (h : Begins ((tick files now time).run before) (asked ++ x :: rest) left)
    (hlooks : ∀ r, x.op.question = .request r → r.looks = false)
    (hends : ∀ nodes, x.op.question ≠ .abandon nodes) :
    ∃ r : Reading files now time before, r.Precedes asked := by
  have hreading : ∀ l, reconcile.Meets
      (asking fun a => ∃ r : Request, a.question = .request r ∧ r.looks = true)
      (fun _ _ _ => True) l () := fun l =>
    @frame_reconcile _ _ (fun _ _ => True) l ()
      (fun r hr _ _ _ => ⟨⟨r, rfl, hr⟩, fun _ _ _ => trivial⟩) trivial
  have hother : ¬ ∃ r : Request, x.op.question = .request r ∧ r.looks = true := by
    rintro ⟨r, hquestion, hr⟩
    rw [hlooks r hquestion] at hr
    cases hr
  rcases begins_reading h with ⟨hnone, -⟩ | ⟨others, left', htrace, hbegins, -⟩ |
    ⟨r, others, left', htrace, -, -⟩
  · exact absurd hnone (by simp)
  · -- the tick is still reading, where it only looks at nodes
    cases asked with
    | nil =>
      obtain ⟨rfl, -⟩ := List.cons.inj htrace
      exact absurd rfl (hends _)
    | cons first asked =>
      obtain ⟨rfl, rfl⟩ := List.cons.inj htrace
      exact absurd ((hreading _).permits hbegins (follows_asking asked)) hother
  · cases asked with
    | nil =>
      obtain ⟨rfl, -⟩ := List.cons.inj htrace
      exact absurd rfl (hends _)
    | cons first asked =>
      obtain ⟨rfl, hsplit⟩ := List.cons.inj htrace
      rcases List.append_eq_append_iff.mp hsplit with ⟨read, hread, hx⟩ | ⟨passed, hasked, -⟩
      · cases read with
        | nil => exact ⟨r, [], by simpa using hread.symm⟩
        | cons y read =>
          obtain ⟨rfl, -⟩ := List.cons.inj hx
          have hbegins := r.runs.begins
          rw [hread] at hbegins
          exact absurd ((hreading _).permits hbegins (follows_asking asked)) hother
      · exact ⟨r, passed, by rw [hasked]⟩

/-- A tick sends updaters out only once it has read its nodes. -/
theorem Tick.exists_precedes_of_dispatch {files : FileStore} {now : Nat} {time : Duration}
    {before : ControlLoop} {asked rest : List TickExchange} {x : TickExchange} {u : Update}
    {left : Program TickAsk TickAsk.Reply (Except LoopError TickSummary × ControlLoop)}
    (h : Begins ((tick files now time).run before) (asked ++ x :: rest) left)
    (hu : x.op.question = .dispatch u) : ∃ r : Reading files now time before, r.Precedes asked := by
  refine exists_precedes h ?_ ?_
  · intro r hr
    rw [hu] at hr
    cases hr
  · intro nodes hnodes
    rw [hu] at hnodes
    cases hnodes

/-- A loop together with the service that works for it. -/
structure Course where
  loop : ControlLoop
  service : Service

/-- A tick of a course, run to its end or cut short. After its last answer the launch orders and the
updaters may go on until it is cut short. -/
structure Turn (c : Course) where
  files : FileStore
  now : Nat
  time : Duration
  trace : List TickExchange
  left : Program TickAsk TickAsk.Reply (Except LoopError TickSummary × ControlLoop)
  answered : Service
  service : Service
  begins : Begins ((tick files now time).run c.loop) trace left
  follows : Follows (Service.protocol LeavesTags) c.service trace answered
  beside : Service.Steps LeavesTags answered service

namespace Turn

variable {c : Course}

/-- The course after a turn. What is left of its launch orders is dropped. -/
def after (t : Turn c) : Course := ⟨Tick.standing t.left, { t.service with launches := [] }⟩

/-- A turn that has read the nodes. -/
def Reads (t : Turn c) (r : Reading t.files t.now t.time c.loop) : Prop :=
  ∃ rest, t.trace = c.loop.firstExchange t.files t.time :: (r.trace ++ rest)

/-- A turn that has read the nodes could read this one if it is listed. -/
def CanRead (t : Turn c) (node : NodeId) : Prop :=
  ∀ r, t.Reads r → r.Lists node → node ∈ r.nodes.map (·.id)

/-- A turn merges that an update of a node failed, timed out, broke down or was abandoned. -/
def MergesFailure (t : Turn c) (node : NodeId) : Prop :=
  t.trace ≠ [] ∧ ∃ o ∈ c.loop.finished ++ (c.loop.updaters.collect t.time).1,
    o.node = node ∧ o.result.isOk = false

end Turn

namespace Course

/-- How a course may go on, if one node can be read whenever it is listed. -/
inductive Step (node : NodeId) : Course → Course → Prop where
  | beside {l : ControlLoop} {s s' : Service} :
    Service.Steps LeavesTags s s' → Step node ⟨l, s⟩ ⟨l, s'⟩
  | turn {c : Course} (t : Turn c) : t.CanRead node → Step node c t.after
  | noteEnds (l : ControlLoop) (s : Service) :
    Step node ⟨l, s⟩ ⟨l.complete s.ends, { s with ends := [] }⟩
  /-- Heartbeats, demand or commands come in, or a status is published. -/
  | feeds (l : ControlLoop) (s : Service) (feeds : Feeds) :
    Step node ⟨l, s⟩ ⟨{ l with toFeeds := feeds }, s⟩
  | obey (l : ControlLoop) (s : Service) (files : FileStore) (command : ControlCommand) :
    Step node ⟨l, s⟩ ⟨l.obey files command, s⟩
  /-- All updaters have been waited for. -/
  | drain (l : ControlLoop) (time : Duration) {s : Service} : (∀ n, s.flights n = 0) →
    Step node ⟨l, s⟩
      ⟨{ l with
        updaters := (l.updaters.drain time).2
        finished := l.finished ++ (l.updaters.drain time).1 }, s⟩
  /-- The loop is shut down. -/
  | stop (l : ControlLoop) (s : Service) :
    Step node ⟨l, s⟩
      ⟨{ l with updaters := l.updaters.abortAll }, s.drop l.updaters.slots.keys⟩

/-- Any number of steps. -/
abbrev Steps (node : NodeId) : Course → Course → Prop := Relation.ReflTransGen (Step node)

/-- No updater and no launch order has been sent out yet. -/
structure Initial (c : Course) : Prop where
  numbered : c.service.provider.Numbered
  launches : c.service.launches = []
  updaters : c.service.updaters = []
  ends : c.service.ends = []
  successes : c.service.successes = []
  slots : c.loop.updaters.slots = ∅
  finished : c.loop.finished = []

end Course

/-- A node is known to the provider and tagged for the cluster of the loop. -/
def Service.Owns (s : Service) (l : ControlLoop) (node : NodeId) : Prop :=
  ∃ x, s.provider.nodes.get? node = some x ∧
    x.tags.get? Tags.clusterName = some l.config.clusterName

theorem Service.Owns.onward {s s' : Service} {l l' : ControlLoop} {node : NodeId}
    (h : s.Owns l node) (honward : s.provider.Onward s'.provider)
    (hcluster : l'.config.clusterName = l.config.clusterName) : s'.Owns l' node := by
  obtain ⟨x, hx, htag⟩ := h
  obtain ⟨x', hx', hbecomes⟩ := honward node x hx
  refine ⟨x', hx', ?_⟩
  rw [hbecomes.tags _ (by decide), htag, hcluster]

/-- A record has the tags of its node, but for those of progress while an updater is at work. -/
def NodeRecord.Current (n : NodeRecord) (l : ControlLoop) (s : Service) : Prop :=
  ∃ x, s.provider.nodes.get? n.id = some x ∧
    (∀ key, ¬ Tags.IsProgress key → n.tags.get? key = x.tags.get? key) ∧
      (l.isUpdating n.id = false → n.tags.get? Tags.fileSync = x.tags.get? Tags.fileSync)

/-- What is held to be true of a node. -/
structure NodeWatch where
  node : NodeId
  hashes : Table String NodeTypeHashes
  /-- The loop counts it as tainted. -/
  tainted : Prop
  /-- It is terminated. -/
  gone : Prop
  /-- All outcomes of updaters have been merged. -/
  merged : Prop := False
  /-- It was listed among the nodes of the cluster. -/
  listed : Prop := False
  /-- What was read of nodes. -/
  records : List NodeRecord := []

namespace NodeWatch

/-- What is held to be true of a node is true, and the loop keeps track of its updaters. -/
structure Holds (w : NodeWatch) (l : ControlLoop) (s : Service) : Prop where
  sound : s.Sound
  tracks : l.updaters.Tracks s.flights
  stamped : s.Stamped
  hashes : l.hashes = w.hashes
  single : ∀ o ∈ l.finished, o.node = w.node → l.isUpdating w.node = false
  idle : w.tainted ∨ w.gone → l.isUpdating w.node = false
  owned : l.isUpdating w.node = true ∨ (∃ o ∈ l.finished, o.node = w.node) ∨ w.tainted ∨ w.listed →
    s.Owns l w.node
  tainted : w.tainted → w.node ∈ l.tainted
  gone : w.gone → ∃ x, s.provider.nodes.get? w.node = some x ∧ x.phase = .terminated
  merged : w.merged → l.finished = []
  current : ∀ n ∈ w.records, n.id = w.node → n.Current l s

/-- Nothing changed in the loop that matters to what is held true of a node, but for the hashes and
what is tainted. -/
structure Like (node : NodeId) (l l' : ControlLoop) : Prop where
  cluster : l'.config.clusterName = l.config.clusterName
  updating : l'.isUpdating node = l.isUpdating node
  finished : l'.finished = l.finished

variable {w : NodeWatch} {l l' : ControlLoop} {s s' : Service}

/-- What is true of a node stays true as time goes on, as far as the node stays tainted. -/
theorem Holds.later {tainted : Prop} {hashes : Table String NodeTypeHashes} (h : w.Holds l s)
    (hsince : s.Since s') (htracks : l'.updaters.Tracks s'.flights) (hlike : Like w.node l l')
    (htainted : tainted → w.tainted ∧ w.node ∈ l'.tainted) (hhashes : l'.hashes = hashes) :
    { w with tainted, hashes }.Holds l' s' where
  sound := hsince.sound
  tracks := htracks
  stamped := hsince.stamped h.stamped
  hashes := hhashes
  single o ho hnode := by
    rw [hlike.finished] at ho
    exact hlike.updating.trans (h.single o ho hnode)
  idle hout := hlike.updating.trans (h.idle (hout.imp_left fun ht => (htainted ht).1))
  owned hclaim := by
    refine (h.owned ?_).onward hsince.onward hlike.cluster
    rw [← hlike.updating, ← hlike.finished]
    exact hclaim.imp_right fun hrest => hrest.imp_right fun hrest =>
      hrest.imp_left fun ht => (htainted ht).1
  tainted ht := (htainted ht).2
  gone hg := by
    obtain ⟨x, hx, hphase⟩ := h.gone hg
    obtain ⟨x', hx', hbecomes, -⟩ := hsince.nodes w.node x hx
    exact ⟨x', hx', hbecomes.terminated hphase⟩
  merged hm := hlike.finished.trans (h.merged hm)
  current n hn hid := by
    obtain ⟨x, hx, htags, hfiles⟩ := h.current n hn hid
    obtain ⟨x', hx', hbecomes, hstamp⟩ := hsince.nodes n.id x hx
    refine ⟨x', hx', fun key hkey => (htags key hkey).trans (hbecomes.tags key hkey).symm, ?_⟩
    intro hidle
    have hbefore : l.isUpdating n.id = false := by
      rw [hid] at hidle ⊢
      exact hlike.updating.symm.trans hidle
    -- no updater is under way for a node without a slot
    have hzero : s.flights n.id = 0 := h.tracks.eq_zero hbefore
    exact (hfiles hbefore).trans (hstamp fun hbusy => hbusy hzero).symm

/-- Whatever the loop does that does not matter leaves true what was. -/
theorem Holds.like (h : w.Holds l s) (hlike : Like w.node l l') (hpool : l'.updaters = l.updaters)
    (htainted : l'.tainted = l.tainted) (hhashes : l'.hashes = l.hashes) : w.Holds l' s :=
  h.later (.refl h.sound) (hpool ▸ h.tracks) hlike
    (fun ht => ⟨ht, htainted.symm ▸ h.tainted ht⟩) (hhashes.trans h.hashes)

/-- What a plain question brings that does not concern updaters leaves true what was. -/
theorem Holds.asked {q : Question} {reply : q.Reply} (h : w.Holds l s) (hq : q.Plain)
    (hsent : ∀ u, q ≠ .dispatch u) (hstopped : ∀ nodes, q ≠ .abandon nodes)
    (hserved : q.ServedBy LeavesTags reply s s') : w.Holds (l.hear q reply) s' := by
  obtain ⟨hsince, hmoves⟩ := hserved.since h.sound hq
  have hcompletes : ∀ ended, (∀ n, s'.flights n + Flights.ends ended n = s.flights n) →
      w.Holds (l.complete ended) s' := fun ended hends =>
    h.later hsince (h.tracks.completeAll hends) ⟨rfl, UpdaterPool.isUpdating_completeAll, rfl⟩
      (fun ht => ⟨ht, h.tainted ht⟩) h.hashes
  cases q with
  | request r => exact hcompletes _ hmoves
  | awaitLaunch => exact hcompletes _ hmoves
  | launch o =>
    have hflights : s'.flights = s.flights := hmoves
    exact h.later hsince (hflights ▸ h.tracks) ⟨rfl, rfl, rfl⟩
      (fun ht => ⟨ht, h.tainted ht⟩) h.hashes
  | dispatch u => exact absurd rfl (hsent u)
  | abandon nodes => exact absurd rfl (hstopped nodes)

/-- An updater may be sent to any other node, and to this one if it is of the cluster, neither
tainted nor gone, and all outcomes have been merged. -/
theorem Holds.sent {u : Update} {updaters : UpdaterPool} {time : Duration} (h : w.Holds l s)
    (hdispatch : l.updaters.dispatch? u time = some updaters)
    (hnode : u.request.node = w.node → ¬ (w.tainted ∨ w.gone) ∧ w.listed ∧ w.merged) :
    w.Holds (l.sent u updaters) s := by
  obtain ⟨hfree, -, hothers⟩ := UpdaterPool.dispatch?_eq_some hdispatch
  have htracks := h.tracks.dispatch hdispatch
  by_cases hid : u.request.node = w.node
  · obtain ⟨hnot, hlisted, hmerged⟩ := hnode hid
    have hfinished : (l.sent u updaters).finished = [] := h.merged hmerged
    have htaken : (l.sent u updaters).isUpdating w.node = true := by
      rw [← hid]
      exact (UpdaterPool.isUpdating_dispatch hdispatch _).trans (by simp)
    refine ⟨h.sound, htracks, h.stamped, h.hashes, ?_, fun hout => absurd hout hnot,
      fun _ => h.owned (.inr (.inr (.inr hlisted))), fun ht => absurd (.inl ht) hnot, h.gone,
      fun _ => hfinished, ?_⟩
    · intro o ho
      rw [hfinished] at ho
      cases ho
    · intro n hn hnid
      obtain ⟨x, hx, htags, -⟩ := h.current n hn hnid
      refine ⟨x, hx, htags, fun hidle => ?_⟩
      rw [hnid, htaken] at hidle
      cases hidle
  · have hsame : (l.sent u updaters).isUpdating w.node = l.isUpdating w.node :=
      (UpdaterPool.isUpdating_dispatch hdispatch _).trans (by simp [Ne.symm hid]; rfl)
    exact h.later (.refl h.sound) htracks ⟨rfl, hsame, rfl⟩ (fun ht => ⟨ht, h.tainted ht⟩) h.hashes

/-- Once an updater that was accepted has started, what was true still is. -/
theorem Holds.started {u : Update} {updaters : UpdaterPool} {time : Duration} {r : Unit}
    (h : w.Holds (l.sent u updaters) s) (htracks : l.updaters.Tracks s.flights)
    (hdispatch : l.updaters.dispatch? u time = some updaters)
    (hserved : (Question.dispatch u).ServedBy LeavesTags r s s') :
    w.Holds (l.sent u updaters) s' := by
  obtain ⟨hfree, hslot, -⟩ := UpdaterPool.dispatch?_eq_some hdispatch
  obtain ⟨hsince, hmoves⟩ := Question.ServedBy.since (q := .dispatch u) h.sound trivial hserved
  have hflights : s'.flights = s.flights.start u.request.node := hmoves
  have hstarted : updaters.Tracks s'.flights := by
    rw [hflights]
    exact h.tracks.start (htracks.eq_zero hfree) hslot
  exact h.later hsince hstarted ⟨rfl, rfl, rfl⟩ (fun ht => ⟨ht, h.tainted ht⟩) h.hashes

/-- Once every updater has ended and every slot is empty, what was true of a node still is, if only
outcomes of updaters are added to those that wait. -/
theorem Holds.settled (h : w.Holds l s) (hsince : s.Since s') (hnone : ∀ n, s'.flights n = 0)
    (hslots : l'.updaters.slots = ∅) (hcluster : l'.config.clusterName = l.config.clusterName)
    (hhashes : l'.hashes = l.hashes) (htainted : l'.tainted = l.tainted)
    (hfinished : ∀ o ∈ l'.finished, o ∈ l.finished ∨ l.isUpdating o.node = true)
    (hbare : w.records = [] ∧ ¬ w.merged) : w.Holds l' s' := by
  have hidle : l'.isUpdating w.node = false := by
    rw [ControlLoop.isUpdating, UpdaterPool.isUpdating_eq_false_iff, hslots]
    rfl
  refine ⟨hsince.sound, UpdaterPool.tracks_of_forall_eq_zero hnone, hsince.stamped h.stamped,
    hhashes.trans h.hashes, fun _ _ _ => hidle, fun _ => hidle, fun hclaim => ?_,
    fun ht => htainted.symm ▸ h.tainted ht, fun hg => ?_, fun hm => absurd hm hbare.2, ?_⟩
  · refine (h.owned ?_).onward hsince.onward hcluster
    rcases hclaim with hbusy | ⟨o, ho, hnode⟩ | hrest
    · rw [hidle] at hbusy
      cases hbusy
    · rcases hfinished o ho with hold | hslot
      · exact .inr (.inl ⟨o, hold, hnode⟩)
      · exact .inl (hnode ▸ hslot)
    · exact .inr (.inr hrest)
  · obtain ⟨x, hx, hphase⟩ := h.gone hg
    obtain ⟨x', hx', hbecomes, -⟩ := hsince.nodes w.node x hx
    exact ⟨x', hx', hbecomes.terminated hphase⟩
  · intro n hn
    rw [hbare.1] at hn
    cases hn

end NodeWatch

end ClusterScaler
