import ClusterScaler.Proofs.Exclusion.Pool
import ClusterScaler.Proofs.Provider.Answers
import ClusterScaler.Proofs.Tick.Passage

/-!
# Ticks in which every call succeeds

If every call of a tick succeeds, the tick terminates all doomed nodes, starts the launch orders
for what its plan lacks unless the breaker has tripped, and otherwise keeps what the next tick
plans with. `Passage.Succeeds.carried` puts this together. Nodes are asked for by launch orders
only.
-/

set_option autoImplicit false

namespace ClusterScaler

open Program

namespace Question

/-- The launch order that a question starts. -/
def order? : Question → Option LaunchOrder
  | .launch order => some order
  | _ => none

/-- The request that a question makes. -/
def request? : Question → Option Request
  | .request r => some r
  | _ => none

/-- The update that a question sends out. -/
def update? : Question → Option Update
  | .dispatch u => some u
  | _ => none

theorem order?_eq_some_iff {q : Question} {o : LaunchOrder} :
    q.order? = some o ↔ q = .launch o := by
  cases q <;> simp [order?]

theorem update?_eq_some_iff {q : Question} {u : Update} :
    q.update? = some u ↔ q = .dispatch u := by
  cases q <;> simp [update?]

end Question

/-- The launch orders among what was asked. -/
def ordersOf (trace : List TickExchange) : List LaunchOrder :=
  trace.filterMap (·.op.question.order?)

/-- Answers without any failure; what is watched are the launch orders. A tick asks for nodes in no
other way. -/
def succeeding : Protocol TickAsk TickAsk.Reply (List LaunchOrder) where
  permits _ a := ∀ r ∈ a.question.request?, r.createsNodes = false
  follows orders a r orders' :=
    a.question.Succeeded r ∧ orders' = orders ++ a.question.order?.toList

theorem follows_succeeding {trace : List TickExchange} (orders : List LaunchOrder)
    (h : ∀ x ∈ trace, Succeeded x) :
    Follows succeeding orders trace (orders ++ ordersOf trace) := by
  induction trace generalizing orders with
  | nil =>
    have hnone : orders ++ ordersOf [] = orders := List.append_nil orders
    rw [hnone]
    exact .nil orders
  | cons x rest ih =>
    have hx : Succeeded x := h x List.mem_cons_self
    have hrest := ih (orders ++ x.op.question.order?.toList)
      (fun y hy => h y (List.mem_cons_of_mem _ hy))
    have hsplit : orders ++ ordersOf (x :: rest) =
        orders ++ x.op.question.order?.toList ++ ordersOf rest := by
      unfold ordersOf
      rw [List.append_assoc, List.filterMap_cons]
      cases x.op.question.order? <;> rfl
    rw [hsplit]
    exact .cons ⟨hx, rfl⟩ hrest

/-- What a loop plans with is the same in another one, but for updaters that were sent out since. -/
structure ControlLoop.Keeps (l l' : ControlLoop) : Prop where
  config : l'.config = l.config
  hashes : l'.hashes = l.hashes
  loads : l'.loads = l.loads
  demand : l'.demand = l.demand
  commands : l'.commands = l.commands
  finished : l'.finished = l.finished
  tainted : l'.tainted = l.tainted
  tripped : l'.breaker.tripped = l.breaker.tripped
  updating : ∀ id, l.isUpdating id = true → l'.isUpdating id = true

namespace ControlLoop

theorem Keeps.refl (l : ControlLoop) : l.Keeps l :=
  ⟨rfl, rfl, rfl, rfl, rfl, rfl, rfl, rfl, fun _ h => h⟩

theorem Keeps.trans {l l' l'' : ControlLoop} (h : l.Keeps l') (h' : l'.Keeps l'') :
    l.Keeps l'' :=
  ⟨h'.config.trans h.config, h'.hashes.trans h.hashes, h'.loads.trans h.loads,
    h'.demand.trans h.demand, h'.commands.trans h.commands, h'.finished.trans h.finished,
    h'.tainted.trans h.tainted, h'.tripped.trans h.tripped,
    fun id hid => h'.updating id (h.updating id hid)⟩

theorem Keeps.complete (l : ControlLoop) (ended : List (NodeId × UpdaterEnd)) :
    l.Keeps (l.complete ended) := by
  refine ⟨rfl, rfl, rfl, rfl, rfl, rfl, rfl, rfl, fun id hid => ?_⟩
  have hsame : (l.complete ended).updaters.isUpdating id = l.updaters.isUpdating id :=
    UpdaterPool.isUpdating_completeAll
  exact hsame.trans hid

/-- A launch order without failures leaves the breaker as it was. -/
theorem Keeps.mergeLaunch (l : ControlLoop) (s : TickSummary) {report : LaunchReport}
    (h : report.error = none) :
    l.Keeps (ControlLoop.mergeLaunch (s, l) (.reported report)).2 := by
  have hmerge : ControlLoop.mergeLaunch (s, l) (.reported report) =
      countLaunched report.launched (s, l) := by
    unfold ControlLoop.mergeLaunch
    dsimp only
    rw [h]
    rfl
  rw [hmerge]
  unfold countLaunched
  dsimp only
  split
  · exact Keeps.refl l
  · refine ⟨rfl, rfl, rfl, rfl, rfl, rfl, rfl, ?_, fun _ hid => hid⟩
    change l.breaker.recordSuccess.tripped = l.breaker.tripped
    unfold Breaker.recordSuccess
    split <;> rfl

theorem Keeps.markAll (l : ControlLoop) (state : NodeState) (nodes : List NodeId) :
    l.Keeps (l.markAll state nodes) :=
  ⟨rfl, rfl, rfl, rfl, rfl, rfl, rfl, rfl, fun _ h => h⟩

theorem Keeps.removeAll {l l' : ControlLoop} (h : l.Keeps l') (nodes : List NodeId) :
    (l.removeAll nodes).Keeps (l'.removeAll nodes) := by
  refine ⟨h.config, h.hashes, ?_, h.demand, h.commands, h.finished, ?_, h.tripped, h.updating⟩
  · change nodes.foldl LoadStore.remove l'.loads = nodes.foldl LoadStore.remove l.loads
    rw [h.loads]
  · change l'.tainted.filter _ = l.tainted.filter _
    rw [h.tainted]

theorem Keeps.launchOrder? {l l' : ControlLoop} (h : l.Keeps l') :
    l'.launchOrder? = l.launchOrder? := by
  funext nodeType count
  unfold ControlLoop.launchOrder? launchTags
  rw [h.config, h.hashes]

/-- The launch orders for missing nodes. -/
def ordersFor (l : ControlLoop) (deficits : List (String × Nat)) : List LaunchOrder :=
  deficits.filterMap (fun (nodeType, n) => l.launchOrder? nodeType n)

theorem keeps_removeAll_nil (l : ControlLoop) : (l.removeAll []).Keeps l := by
  refine ⟨rfl, rfl, rfl, rfl, rfl, rfl, ?_, rfl, fun _ h => h⟩
  have hall : l.tainted.filter (fun id => !([] : List NodeId).contains id) = l.tainted := by
    simp
  exact hall.symm

end ControlLoop

namespace TickM

variable {l : ControlLoop} {orders : List LaunchOrder} {α : Type}

/-- A request that succeeds changes nothing that a tick plans with. -/
theorem keeps_request (r : Request) (hr : r.createsNodes = false) :
    (request r).Meets succeeding
      (fun a l' orders' => r.Succeeded a ∧ l.Keeps l' ∧ orders' = orders) l orders := by
  rw [meets_request]
  refine ⟨fun r' hr' => (Option.some.inj hr') ▸ hr, ?_⟩
  rintro d orders' ⟨hsucceeded, horders⟩
  exact ⟨hsucceeded, .complete l d.ended, horders.trans (List.append_nil orders)⟩

theorem keeps_retrying {call : TickM (ProviderResult α)}
    (h : call.Meets succeeding
      (fun a l' orders' => a.isOk = true ∧ l.Keeps l' ∧ orders' = orders) l orders) :
    (retrying call).Meets succeeding
      (fun a l' orders' => a.isOk = true ∧ l.Keeps l' ∧ orders' = orders) l orders := by
  unfold retrying RetryPolicy.withRetries
  rw [meets_bind, meets_get]
  cases l.retry.maxRetries with
  | zero => exact h
  | succ left =>
    unfold RetryPolicy.attempts
    rw [meets_bind]
    refine h.mono ?_
    rintro a l' orders' ⟨hok, hkeeps⟩
    cases a with
    | ok a => exact ⟨rfl, hkeeps⟩
    | error e => cases hok

end TickM

namespace Tick

variable {l : ControlLoop} {orders : List LaunchOrder}

theorem keeps_readNode (id : NodeId) :
    (readNode id).Meets succeeding (fun _ l' orders' => l.Keeps l' ∧ orders' = orders) l orders := by
  unfold readNode
  rw [TickM.meets_bind]
  refine (TickM.keeps_retrying (TickM.keeps_request (.nodeTags id) rfl)).mono ?_
  rintro tags l' orders' ⟨-, hkeeps, rfl⟩
  cases tags with
  | error e => exact ⟨hkeeps, rfl⟩
  | ok tags =>
    dsimp only
    rw [TickM.meets_bind]
    refine (TickM.keeps_retrying (TickM.keeps_request (.isRunning id) rfl)).mono ?_
    rintro running l'' orders'' ⟨-, hkeeps', rfl⟩
    cases running with
    | error e => exact ⟨hkeeps.trans hkeeps', rfl⟩
    | ok running => exact ⟨hkeeps.trans hkeeps', rfl⟩

theorem keeps_readNodes (ids seen : List NodeId) :
    (readNodes seen ids).Meets succeeding
      (fun _ l' orders' => l.Keeps l' ∧ orders' = orders) l orders := by
  induction ids generalizing seen l orders with
  | nil => exact ⟨.refl l, rfl⟩
  | cons id rest ih =>
    unfold readNodes
    split
    · exact ⟨.refl l, rfl⟩
    · rw [TickM.meets_bind]
      refine (keeps_readNode id).mono ?_
      rintro node l' orders' ⟨hkeeps, rfl⟩
      rw [TickM.meets_bind]
      refine (ih (id :: seen)).mono ?_
      rintro nodes l'' orders'' ⟨hkeeps', rfl⟩
      cases nodes with
      | error e => exact ⟨hkeeps.trans hkeeps', rfl⟩
      | ok nodes => exact ⟨hkeeps.trans hkeeps', rfl⟩

theorem readNode_succeeding (id : NodeId) :
    (readNode id).Meets succeeding (fun node _ _ => ∃ n, node = some n ∧ n.id = id) l orders := by
  unfold readNode
  rw [TickM.meets_bind]
  refine (TickM.keeps_retrying (TickM.keeps_request (.nodeTags id) rfl)).mono ?_
  rintro tags l' orders' ⟨htags, -⟩
  cases tags with
  | error e => cases htags
  | ok tags =>
    dsimp only
    rw [TickM.meets_bind]
    refine (TickM.keeps_retrying (TickM.keeps_request (.isRunning id) rfl)).mono ?_
    rintro running l'' orders'' ⟨hrunning, -⟩
    cases running with
    | error e => cases hrunning
    | ok running => exact ⟨_, rfl, rfl⟩

/-- If every call succeeds, every node that was listed is read. -/
theorem readNodes_succeeding (ids seen : List NodeId) :
    (readNodes seen ids).Meets succeeding (fun result _ _ => ∀ nodes, result = .ok nodes →
      ∀ id ∈ ids, id ∈ nodes.map (·.id)) l orders := by
  induction ids generalizing seen l orders with
  | nil => exact fun nodes _ id hid => absurd hid List.not_mem_nil
  | cons id rest ih =>
    unfold readNodes
    split
    · exact fun nodes hnodes => by cases hnodes
    · rw [TickM.meets_bind]
      refine (readNode_succeeding id).mono ?_
      rintro _ l' orders' ⟨n, rfl, hid⟩
      rw [TickM.meets_bind]
      refine (ih (id :: seen)).mono ?_
      intro result l'' orders'' hothers
      cases result with
      | error e => exact fun nodes hnodes => by cases hnodes
      | ok others =>
        rintro nodes hnodes id' hid'
        cases hnodes
        rcases List.mem_cons.mp hid' with rfl | hid'
        · exact List.mem_cons.mpr (.inl hid.symm)
        · exact List.mem_cons_of_mem _ (hothers others rfl id' hid')

theorem keeps_reconcile :
    reconcile.Meets succeeding (fun _ l' orders' => l.Keeps l' ∧ orders' = orders) l orders := by
  unfold reconcile
  rw [TickM.meets_bind, TickM.meets_get, TickM.meets_bind]
  refine (TickM.keeps_retrying (TickM.keeps_request (.listNodes _) rfl)).mono ?_
  rintro ids l' orders' ⟨-, hkeeps, rfl⟩
  cases ids with
  | error e => exact ⟨hkeeps, rfl⟩
  | ok ids =>
    refine (keeps_readNodes ids []).mono ?_
    rintro nodes l'' orders'' ⟨hkeeps', rfl⟩
    exact ⟨hkeeps.trans hkeeps', rfl⟩

theorem keeps_terminate (doomed : List NodeId) (s : TickSummary) :
    (terminate doomed s).Meets succeeding
      (fun r l' orders' => r.1 = doomed ∧ (l.removeAll doomed).Keeps l' ∧ orders' = orders)
      l orders := by
  unfold terminate
  split
  · next hempty =>
    rw [List.isEmpty_iff] at hempty
    subst hempty
    exact ⟨rfl, l.keeps_removeAll_nil, rfl⟩
  · rw [TickM.meets_bind, TickM.meets_modify, TickM.meets_bind]
    refine (TickM.keeps_retrying (TickM.keeps_request (.terminateNodes doomed) rfl)).mono ?_
    rintro result l' orders' ⟨hok, hkeeps, rfl⟩
    cases result with
    | error e => cases hok
    | ok _ =>
      have hmarked : l.Keeps l' := (ControlLoop.Keeps.markAll l .terminating doomed).trans hkeeps
      exact ⟨rfl, hmarked.removeAll doomed, rfl⟩

theorem keeps_startLaunches (started : List LaunchOrder) :
    (startLaunches started).Meets succeeding
      (fun _ l' orders' => l.Keeps l' ∧ orders' = orders ++ started) l orders := by
  induction started generalizing orders with
  | nil => exact ⟨.refl l, (List.append_nil orders).symm⟩
  | cons order rest ih =>
    unfold startLaunches
    rw [TickM.meets_bind]
    refine (TickM.meets_ask (q := .launch order)).mpr ⟨fun _ hr => (nomatch hr), ?_⟩
    rintro r orders' ⟨-, horders⟩
    refine ih.mono ?_
    rintro _ l' orders'' ⟨hkeeps, rfl⟩
    refine ⟨hkeeps, ?_⟩
    rw [horders, List.append_assoc]
    rfl

theorem keeps_awaitLaunches (count : Nat) (s : TickSummary) :
    (awaitLaunches count s).Meets succeeding
      (fun _ l' orders' => l.Keeps l' ∧ orders' = orders) l orders := by
  induction count generalizing s l with
  | zero => exact ⟨.refl l, rfl⟩
  | succ count ih =>
    unfold awaitLaunches
    rw [TickM.meets_bind]
    refine (TickM.meets_ask (q := .awaitLaunch)).mpr ⟨fun _ hr => (nomatch hr), ?_⟩
    rintro d orders' ⟨⟨report, hreport, herror⟩, horders⟩
    have hcomplete : l.Keeps (l.complete d.ended) := .complete l d.ended
    have hmerged : (l.complete d.ended).Keeps
        (ControlLoop.mergeLaunch (s, l.complete d.ended) d.answer).2 := by
      rw [hreport]
      exact .mergeLaunch _ s herror
    have hnone : orders' = orders := horders.trans (List.append_nil orders)
    subst hnone
    have hrest : (awaitLaunches count
        (ControlLoop.mergeLaunch (s, l.complete d.ended) d.answer).1).Meets succeeding
          (fun _ l' orders'' => l.Keeps l' ∧ orders'' = orders')
          (ControlLoop.mergeLaunch (s, l.complete d.ended) d.answer).2 orders' := by
      refine (ih _).mono ?_
      rintro _ l' orders'' ⟨hkeeps, rfl⟩
      exact ⟨hcomplete.trans (hmerged.trans hkeeps), rfl⟩
    exact hrest

/-- Unless the breaker has tripped, missing nodes are ordered. -/
theorem keeps_launchUnlessTripped (deficits : List (String × Nat)) (s : TickSummary)
    (htripped : l.breaker.tripped = false) :
    (launchUnlessTripped deficits s).Meets succeeding
      (fun _ l' orders' => l.Keeps l' ∧ orders' = orders ++ l.ordersFor deficits) l orders := by
  unfold launchUnlessTripped
  split
  · next hempty =>
    rw [List.isEmpty_iff] at hempty
    subst hempty
    exact ⟨.refl l, (List.append_nil orders).symm⟩
  · rw [TickM.meets_bind, TickM.meets_get, if_neg (by simp [htripped])]
    unfold launch
    rw [TickM.meets_bind, TickM.meets_get, TickM.meets_bind]
    refine (keeps_startLaunches (l.ordersFor deficits)).mono ?_
    rintro _ l' orders' ⟨hkeeps, rfl⟩
    refine (keeps_awaitLaunches _ s).mono ?_
    rintro _ l'' orders'' ⟨hkeeps', rfl⟩
    exact ⟨hkeeps.trans hkeeps', rfl⟩

theorem keeps_headAddress (nodes : List NodeRecord) :
    (headAddress nodes).Meets succeeding
      (fun _ l' orders' => l.Keeps l' ∧ orders' = orders) l orders := by
  unfold headAddress
  rw [TickM.meets_bind, TickM.meets_get]
  dsimp only
  split
  · split <;> exact ⟨.refl l, rfl⟩
  · rw [TickM.meets_bind]
    refine (TickM.keeps_retrying (TickM.keeps_request (.internalIp _) rfl)).mono ?_
    rintro address l' orders' ⟨-, hkeeps, rfl⟩
    cases address with
    | error e => exact ⟨hkeeps, rfl⟩
    | ok address => exact ⟨hkeeps, rfl⟩

theorem keeps_knownHead (nodes : List NodeRecord) (head : Option HeadAddress) :
    (knownHead nodes head).Meets succeeding
      (fun _ l' orders' => l.Keeps l' ∧ orders' = orders) l orders := by
  cases head with
  | some head => exact ⟨.refl l, rfl⟩
  | none => exact keeps_headAddress nodes

theorem keeps_dispatch (time : Duration) (n : NodeRecord) (nodeType : String)
    (hashes : NodeTypeHashes) (head : Option String) (s : TickSummary) :
    (dispatch time n nodeType hashes head s).Meets succeeding
      (fun _ l' orders' => l.Keeps l' ∧ orders' = orders) l orders := by
  unfold dispatch
  rw [TickM.meets_bind, TickM.meets_get]
  dsimp only
  split
  · exact ⟨.refl l, rfl⟩
  · next updaters hdispatch =>
    rw [TickM.meets_bind, TickM.meets_set, TickM.meets_bind]
    refine (TickM.meets_ask (q := .dispatch _)).mpr ⟨fun _ hr => (nomatch hr), ?_⟩
    rintro r orders' ⟨-, horders⟩
    exact ⟨⟨rfl, rfl, rfl, rfl, rfl, rfl, rfl, rfl,
      fun _ hid => UpdaterPool.isUpdating_of_dispatch hdispatch hid⟩,
      horders.trans (List.append_nil orders)⟩

theorem keeps_dispatchAll (time : Duration) (all nodes : List NodeRecord)
    (head : Option HeadAddress) (s : TickSummary) :
    (dispatchAll time all head nodes s).Meets succeeding
      (fun _ l' orders' => l.Keeps l' ∧ orders' = orders) l orders := by
  induction nodes generalizing head s l orders with
  | nil => exact ⟨.refl l, rfl⟩
  | cons n rest ih =>
    unfold dispatchAll
    rw [TickM.meets_bind, TickM.meets_get]
    -- the rest is alike wherever the address of the head node comes from
    have hsend : ∀ (nodeType : String) (hashes : NodeTypeHashes) (address : Option String)
        (head' : Option HeadAddress) (l₀ : ControlLoop), l.Keeps l₀ →
        (do
          let s ← dispatch time n nodeType hashes address s
          dispatchAll time all head' rest s).Meets succeeding
            (fun _ l' orders' => l.Keeps l' ∧ orders' = orders) l₀ orders := by
      intro nodeType hashes address head' l₀ hbefore
      rw [TickM.meets_bind]
      refine (keeps_dispatch time n nodeType hashes address s).mono ?_
      rintro s' l' orders' ⟨hkeeps, rfl⟩
      refine (ih head' s').mono ?_
      rintro _ l'' orders'' ⟨hkeeps', rfl⟩
      exact ⟨hbefore.trans (hkeeps.trans hkeeps'), rfl⟩
    split
    · exact ih head s
    · next nodeType hashes _ =>
      split
      · exact hsend nodeType hashes none head l (.refl l)
      · rw [TickM.meets_bind]
        refine (keeps_knownHead all head).mono ?_
        rintro head' l' orders' ⟨hkeeps, rfl⟩
        cases head' with
        | known address => exact hsend nodeType hashes (some address) _ l' hkeeps
        | pending =>
          refine (ih (some .pending) s).mono ?_
          rintro _ l'' orders'' ⟨hkeeps', rfl⟩
          exact ⟨hkeeps.trans hkeeps', rfl⟩
        | absent => exact hsend nodeType hashes none _ l' hkeeps

/-- Carrying a plan out terminates what is doomed and orders what is missing. -/
theorem keeps_carryOut (now : Nat) (time : Duration) (nodes : List NodeRecord) (p : TickPlan)
    (s : TickSummary) (htripped : l.breaker.tripped = false) :
    (carryOut l now time nodes p s).Meets succeeding
      (fun _ l' orders' => (l.removeAll p.doomed).Keeps l' ∧
        orders' = orders ++ l.ordersFor (l.planLaunches p.remaining p.targets)) l orders := by
  unfold carryOut
  rw [TickM.meets_bind]
  refine (keeps_terminate p.doomed s).mono ?_
  rintro ⟨removed, s'⟩ l' orders' ⟨-, hkeeps, rfl⟩
  dsimp only
  rw [TickM.meets_bind]
  refine (keeps_launchUnlessTripped _ s' (hkeeps.tripped.trans htripped)).mono ?_
  rintro s'' l'' orders'' ⟨hkeeps', rfl⟩
  rw [TickM.meets_bind]
  refine (keeps_dispatchAll time _ _ none s'').mono ?_
  rintro s''' l''' orders''' ⟨hkeeps'', rfl⟩
  have horders : l'.ordersFor = l.ordersFor := by
    funext deficits
    unfold ControlLoop.ordersFor
    rw [hkeeps.launchOrder?]
    rfl
  rw [TickM.meets_bind, TickM.meets_modify, horders]
  have hall := hkeeps.trans (hkeeps'.trans hkeeps'')
  exact ⟨⟨hall.config, hall.hashes, hall.loads, hall.demand, hall.commands, hall.finished,
    hall.tainted, hall.tripped, hall.updating⟩, rfl⟩

end Tick

variable {files : FileStore} {now : Nat} {time : Duration} {before : ControlLoop}

namespace Reading

/-- Reading the nodes keeps what the tick plans with, and launches nothing. -/
theorem Succeeds.keeps {r : Reading files now time before} (h : r.Succeeds) :
    (before.begun files now time).2.Keeps r.loop ∧ ordersOf r.trace = [] :=
  Tick.keeps_reconcile.result r.runs (follows_succeeding [] h)

end Reading

namespace Passage

variable {p : Passage files now time before}

/-- The launch orders of the tick. -/
def orders (p : Passage files now time before) : List LaunchOrder := ordersOf (p.trace ++ p.rest)

/-- The requests that the tick makes itself. -/
def requests (p : Passage files now time before) : List Request :=
  (p.trace ++ p.rest).filterMap (·.op.question.request?)

/-- What comes after the nodes have been read terminates what is doomed and orders what the plan
lacks. -/
theorem meets_succeeding (p : Passage files now time before)
    (htripped : p.planner.breaker.tripped = false) :
    (Tick.afterReconcile now time p.nodes (before.begun files now time).1).Meets
      succeeding (fun _ l' orders' => (p.planner.removeAll p.plan.doomed).Keeps l' ∧
        orders' = [] ++ p.planner.ordersFor
          (p.planner.planLaunches p.plan.remaining p.plan.targets)) p.loop [] := by
  rw [Tick.afterReconcile_eq, TickM.meets_bind, TickM.meets_modify, TickM.meets_bind,
    TickM.meets_get]
  exact Tick.keeps_carryOut now time p.nodes p.plan _ htripped

/-- A tick without failures orders what its plan lacks, unless the breaker has tripped, and leaves
its loop with the terminated nodes removed. -/
theorem Succeeds.carried (h : p.Succeeds) (htripped : p.planner.breaker.tripped = false) :
    (p.planner.removeAll p.plan.doomed).Keeps p.after ∧
      p.orders = p.planner.ordersFor (p.planner.planLaunches p.plan.remaining p.plan.targets) := by
  obtain ⟨hkeeps, horders⟩ := (p.meets_succeeding htripped).result p.passes
    (follows_succeeding [] (fun x hx => h x (List.mem_append_right _ hx)))
  have hread := h.reading.keeps.2
  refine ⟨hkeeps, ?_⟩
  unfold orders
  have hsplit : ordersOf (p.trace ++ p.rest) = ordersOf p.trace ++ ordersOf p.rest :=
    List.filterMap_append
  rw [hsplit, hread]
  exact horders

/-- A tick without failures does not ask for nodes itself. -/
theorem Succeeds.requests_create_nothing (h : p.Succeeds)
    (htripped : p.planner.breaker.tripped = false) : ∀ r ∈ p.requests, r.createsNodes = false := by
  have hread : ∀ x ∈ p.trace, ∃ s, succeeding.permits s x.op :=
    Tick.keeps_reconcile.permitted p.runs (follows_succeeding [] h.reading)
  have hpass : ∀ x ∈ p.rest, ∃ s, succeeding.permits s x.op :=
    (p.meets_succeeding htripped).permitted p.passes
      (follows_succeeding [] (fun x hx => h x (List.mem_append_right _ hx)))
  intro r hr
  obtain ⟨x, hx, hask⟩ := List.mem_filterMap.mp hr
  rcases List.mem_append.mp hx with hx | hx
  · obtain ⟨_, hpermits⟩ := hread x hx
    exact hpermits r hask
  · obtain ⟨_, hpermits⟩ := hpass x hx
    exact hpermits r hask

end Passage

end ClusterScaler
