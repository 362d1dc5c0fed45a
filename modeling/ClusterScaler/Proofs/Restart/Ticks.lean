import ClusterScaler.Proofs.Breaker.Alongside
import ClusterScaler.Proofs.Restart.Renewal

/-!
# A tick of a loop with another past

The parts of a tick in turn, each abreast of the same part of a tick whose loop has another past.
Up to where the tick takes note of the nodes, the states that the loops remember may differ; from
there on they are the same.
-/

set_option autoImplicit false

namespace ClusterScaler

open TickM

namespace Tick

variable {observed : Prop} {l l' : ControlLoop} {s s' : TickSummary} {t t' : Nat} {α : Type}

/-- Two parts of ticks come to the same result, and to loops that differ in their past. -/
abbrev Renewed (observed : Prop) (a : α) (l : ControlLoop) (a' : α) (l' : ControlLoop) : Prop :=
  a = a' ∧ l.Renews observed l'

/-- Two parts of ticks come to summaries that differ in the tick, and to loops that differ in their
past. -/
abbrev RenewedBut (t t' : Nat) (s : TickSummary) (l : ControlLoop) (s' : TickSummary)
    (l' : ControlLoop) : Prop :=
  s.SameBut t t' s' ∧ l.Renews True l'

theorem together_request (r : Request) (h : l.Renews observed l') :
    Together (Renewed observed) (request r) l (request r) l' :=
  together_ask_bind (q := .request r) (fun d d' hd => .done ⟨hd, h.complete d.ended d'.ended⟩)

theorem together_retrying {call : TickM (ProviderResult α)}
    (hcall : ∀ l l' : ControlLoop, l.Renews observed l' →
      Together (Renewed observed) call l call l') (h : l.Renews observed l') :
    Together (Renewed observed) (retrying call) l (retrying call) l' := by
  have hattempts : ∀ (policy : RetryPolicy) (left : Nat) (l l' : ControlLoop),
      l.Renews observed l' → Together (Renewed observed) (policy.attempts pause call left) l
        (policy.attempts pause call left) l' := by
    intro policy left
    induction left with
    | zero => exact hcall
    | succ left ih =>
      intro l l' h
      unfold RetryPolicy.attempts
      refine together_bind (hcall l l' h) ?_
      rintro result m _ m' ⟨rfl, hm⟩
      cases result with
      | ok a => exact together_pure ⟨rfl, hm⟩
      | error e =>
        dsimp only
        split
        · refine together_bind (together_request (.pause _) hm) ?_
          rintro _ m _ m' ⟨-, hm⟩
          exact ih m m' hm
        · exact together_pure ⟨rfl, hm⟩
  have hretry : l'.retry = l.retry := h.twin.retry
  unfold retrying
  rw [together_get_bind, hretry]
  exact hattempts l.retry _ l l' h

theorem together_readNode (id : NodeId) (h : l.Renews observed l') :
    Together (Renewed observed) (readNode id) l (readNode id) l' := by
  unfold readNode
  refine together_bind (together_retrying (fun _ _ h => together_request (.nodeTags id) h) h) ?_
  rintro tags m _ m' ⟨rfl, hm⟩
  cases tags with
  | error e => exact together_pure ⟨rfl, hm⟩
  | ok tags =>
    refine together_bind
      (together_retrying (fun _ _ h => together_request (.isRunning id) h) hm) ?_
    rintro running m _ m' ⟨rfl, hm⟩
    cases running with
    | error e => exact together_pure ⟨rfl, hm⟩
    | ok running => exact together_pure ⟨rfl, hm⟩

theorem together_readNodes (ids seen : List NodeId) (h : l.Renews observed l') :
    Together (Renewed observed) (readNodes seen ids) l (readNodes seen ids) l' := by
  induction ids generalizing seen l l' with
  | nil => exact together_pure ⟨rfl, h⟩
  | cons id rest ih =>
    unfold readNodes
    split
    · exact together_pure ⟨rfl, h⟩
    · refine together_bind (together_readNode id h) ?_
      rintro node m _ m' ⟨rfl, hm⟩
      refine together_bind (ih (id :: seen) hm) ?_
      rintro nodes m _ m' ⟨rfl, hm⟩
      cases nodes with
      | error e => exact together_pure ⟨rfl, hm⟩
      | ok nodes => exact together_pure ⟨rfl, hm⟩

theorem together_reconcile (h : l.Renews observed l') :
    Together (Renewed observed) reconcile l reconcile l' := by
  have hconfig : l'.config = l.config := h.twin.config
  unfold reconcile
  rw [together_get_bind, hconfig]
  refine together_bind (together_retrying (fun _ _ h => together_request (.listNodes _) h) h) ?_
  rintro ids m _ m' ⟨rfl, hm⟩
  cases ids with
  | error e => exact together_pure ⟨rfl, hm⟩
  | ok ids => exact together_readNodes ids [] hm

theorem together_terminate (doomed : List NodeId) (hs : s.SameBut t t' s') (h : l.Renews True l') :
    Together (fun r l r' l' => r.1 = r'.1 ∧ RenewedBut t t' r.2 l r'.2 l') (terminate doomed s) l
      (terminate doomed s') l' := by
  unfold terminate
  split
  · exact together_pure ⟨rfl, hs, h⟩
  · rw [together_modify_bind]
    have hmarked : (l.markAll .terminating doomed).Renews True (l'.markAll .terminating doomed) := by
      refine .of_twin { h.decides with states := ?_ } h.breaker
      unfold ControlLoop.markAll
      rw [h.decides.states]
    refine together_bind (together_retrying
      (fun _ _ h => together_request (.terminateNodes doomed) h) hmarked) ?_
    rintro result m _ m' ⟨rfl, hm⟩
    cases result with
    | ok _ =>
      obtain ⟨htick, rfl⟩ := hs
      refine together_modify_bind.mpr (together_pure ⟨rfl, ⟨htick, rfl⟩, ?_⟩)
      refine .of_twin { hm.decides with loads := ?_, tainted := ?_, states := ?_ } hm.breaker
      · exact congrArg (doomed.foldl LoadStore.remove) hm.decides.loads
      · exact congrArg (List.filter _) hm.decides.tainted
      · exact congrArg (doomed.foldl (fun t id => t.insert id NodeState.removed)) hm.decides.states
    | error e =>
      exact together_get_bind.mpr (together_set_bind.mpr
        (together_pure ⟨rfl, hm.countFailure hs⟩))

theorem together_startLaunches (orders : List LaunchOrder) (h : l.Renews observed l') :
    Together (Renewed observed) (startLaunches orders) l (startLaunches orders) l' := by
  induction orders generalizing l l' with
  | nil => exact together_pure ⟨rfl, h⟩
  | cons order rest ih =>
    unfold startLaunches
    exact together_ask_bind (q := .launch order) fun _ _ _ => ih h

theorem together_awaitLaunches (count : Nat) (hs : s.SameBut t t' s') (h : l.Renews True l') :
    Together (RenewedBut t t') (awaitLaunches count s) l (awaitLaunches count s') l' := by
  induction count generalizing s s' l l' with
  | zero => exact together_pure ⟨hs, h⟩
  | succ count ih =>
    unfold awaitLaunches
    refine together_ask_bind (q := .awaitLaunch) ?_
    rintro ⟨came, ended⟩ ⟨came', ended'⟩ hsame
    obtain rfl : came = came' := hsame
    obtain ⟨hs, h⟩ := (h.complete ended ended').mergeLaunch came hs
    exact ih hs h

theorem together_launchUnlessTripped (deficits : List (String × Nat)) (hs : s.SameBut t t' s')
    (h : l.Renews True l') :
    Together (RenewedBut t t') (launchUnlessTripped deficits s) l (launchUnlessTripped deficits s') l' := by
  unfold launchUnlessTripped
  split
  · exact together_pure ⟨hs, h⟩
  · rw [together_get_bind, h.breaker.tripped]
    split
    · obtain ⟨htick, rfl⟩ := hs
      exact together_pure ⟨⟨htick, rfl⟩, h⟩
    · unfold launch
      rw [together_get_bind, h.launchOrder?]
      refine together_bind (together_startLaunches _ h) ?_
      rintro _ m _ m' ⟨-, hm⟩
      exact together_awaitLaunches _ hs hm

theorem together_knownHead (nodes : List NodeRecord) (head : Option HeadAddress)
    (h : l.Renews observed l') :
    Together (Renewed observed) (knownHead nodes head) l (knownHead nodes head) l' := by
  have hconfig : l'.config = l.config := h.twin.config
  cases head with
  | some head => exact together_pure ⟨rfl, h⟩
  | none =>
    unfold knownHead headAddress
    rw [together_get_bind, hconfig]
    dsimp only
    split
    · split <;> exact together_pure ⟨rfl, h⟩
    · refine together_bind (together_retrying (fun _ _ h => together_request (.internalIp _) h) h) ?_
      rintro address m _ m' ⟨rfl, hm⟩
      cases address with
      | error e => exact together_pure ⟨rfl, hm⟩
      | ok address => exact together_pure ⟨rfl, hm⟩

theorem together_dispatch (time : Duration) (n : NodeRecord) (nodeType : String)
    (hashes : NodeTypeHashes) (head : Option String) (hs : s.SameBut t t' s') (h : l.Renews True l') :
    Together (RenewedBut t t') (dispatch time n nodeType hashes head s) l
      (dispatch time n nodeType hashes head s') l' := by
  have htwin := h.decides
  unfold dispatch
  rw [together_get_bind, htwin.updateFor]
  dsimp only
  have hnone : l'.updaters.dispatch? (l.updateFor n.id nodeType hashes head) time = none ↔
      l.updaters.dispatch? (l.updateFor n.id nodeType hashes head) time = none := by
    rw [UpdaterPool.dispatch?_eq_none_iff, UpdaterPool.dispatch?_eq_none_iff]
    exact Bool.eq_iff_iff.mp (htwin.updating n.id)
  cases hsent : l.updaters.dispatch? (l.updateFor n.id nodeType hashes head) time with
  | none =>
    rw [hnone.mpr hsent]
    exact together_pure ⟨hs, h⟩
  | some updaters =>
    cases hsent' : l'.updaters.dispatch? (l.updateFor n.id nodeType hashes head) time with
    | none => exact absurd (hnone.mp hsent') (by rw [hsent]; exact Option.some_ne_none updaters)
    | some updaters' =>
      obtain ⟨htick, rfl⟩ := hs
      refine together_set_bind.mpr (together_ask_bind (q := .dispatch _) fun _ _ _ =>
        together_pure ⟨⟨htick, rfl⟩, .of_twin ?_ h.breaker⟩)
      refine { htwin with states := ?_, updating := fun id => ?_ }
      · exact congrArg (·.insert n.id NodeState.updating) htwin.states
      · have hupdating := UpdaterPool.isUpdating_dispatch hsent id
        have hupdating' := UpdaterPool.isUpdating_dispatch hsent' id
        have hbefore : l'.updaters.isUpdating id = l.updaters.isUpdating id := htwin.updating id
        exact hupdating'.trans ((congrArg _ hbefore).trans hupdating.symm)

theorem together_dispatchAll (time : Duration) (all nodes : List NodeRecord)
    (head : Option HeadAddress) (hs : s.SameBut t t' s') (h : l.Renews True l') :
    Together (RenewedBut t t') (dispatchAll time all head nodes s) l
      (dispatchAll time all head nodes s') l' := by
  induction nodes generalizing head s s' l l' with
  | nil => exact together_pure ⟨hs, h⟩
  | cons n rest ih =>
    unfold dispatchAll
    rw [together_get_bind, h.decides.behind?, h.decides.config]
    -- the rest is the same wherever the address of the head node comes from
    have hgo : ∀ (nodeType : String) (hashes : NodeTypeHashes) (address : Option String)
        (head' : Option HeadAddress) (m m' : ControlLoop), m.Renews True m' →
        Together (RenewedBut t t')
          (do
            let s ← dispatch time n nodeType hashes address s
            dispatchAll time all head' rest s) m
          (do
            let s' ← dispatch time n nodeType hashes address s'
            dispatchAll time all head' rest s') m' := by
      intro nodeType hashes address head' m m' hm
      refine together_bind (together_dispatch time n nodeType hashes address hs hm) ?_
      rintro s m s' m' ⟨hs, hm⟩
      exact ih head' hs hm
    split
    · exact ih head hs h
    · next nodeType hashes _ =>
      split
      · exact hgo nodeType hashes none head l l' h
      · refine together_bind (together_knownHead all head h) ?_
        rintro head' m _ m' ⟨rfl, hm⟩
        cases head' with
        | known address => exact hgo nodeType hashes (some address) _ m m' hm
        | pending => exact ih _ hs hm
        | absent => exact hgo nodeType hashes none _ m m' hm

/-- The same is in hand in the middle of both ticks. -/
structure Midway.Renewed (t t' : Nat) (m m' : Midway) : Prop extends m.Same m' where
  planner : m.planner.Renews True m'.planner
  summary : m.summary.SameBut t t' m'.summary

theorem together_fromLaunches (now : Nat) (time : Duration) {m m' : Midway} (hm : m.Renewed t t' m')
    (h : l.Renews True l') :
    Together (RenewedBut t t') (fromLaunches now time m) l (fromLaunches now time m') l' := by
  have hlaunches : m'.planner.planLaunches = m.planner.planLaunches := by
    funext nodes targets
    unfold ControlLoop.planLaunches ControlLoop.lacking
    rw [hm.planner.decides.config]
  unfold fromLaunches
  rw [hm.nodes, hm.plan, hm.removed, hlaunches]
  refine together_bind (together_launchUnlessTripped _ hm.summary h) ?_
  rintro s l s' l' ⟨hs, h⟩
  refine together_bind (together_dispatchAll time _ _ none hs h) ?_
  rintro s l s' l' ⟨⟨htick, rfl⟩, h⟩
  refine together_modify_bind.mpr (together_pure ⟨⟨htick, rfl⟩, ?_⟩)
  exact .of_twin { h.decides with } h.breaker

theorem together_toLaunches (files : FileStore) (now : Nat) (time : Duration)
    (hoverdue : (l'.beginTick files).updaters.overdue time =
      (l.beginTick files).updaters.overdue time)
    (hs : (l.begun files now time).1.SameBut t t' (l'.begun files now time).1)
    (h : (l.begun files now time).2.Renews False (l'.begun files now time).2) :
    Together (fun result l result' l' => Agree (Midway.Renewed t t') result result' ∧
        (result.isOk = true → l.Renews True l')) (toLaunches files now time) l
      (toLaunches files now time) l' := by
  unfold toLaunches
  rw [together_modify_bind, together_get_bind, hoverdue]
  refine together_ask_bind (q := .abandon ((l.beginTick files).updaters.overdue time)) ?_
  intro _ _ _
  rw [together_get_bind, together_get_bind, together_set_bind]
  refine together_bind (together_reconcile h) ?_
  rintro result l₁ _ l₁' ⟨rfl, h⟩
  cases result with
  | error e => exact together_pure ⟨rfl, fun hok => nomatch hok⟩
  | ok nodes =>
    have htaken := h.takeIn nodes now
    dsimp only
    rw [together_modify_bind, together_get_bind, htaken.decides.planTick]
    refine together_bind (together_terminate _ hs htaken) ?_
    rintro r l₂ r' l₂' ⟨hremoved, hs, h⟩
    exact together_pure ⟨⟨⟨rfl, rfl, hremoved.symm⟩, htaken, hs⟩, fun _ => h⟩

/-- A tick goes abreast of the tick of a loop that has another past once both have begun. They come
to the same error, or to summaries that differ in the tick and to the same states of nodes. -/
theorem together_tick (files : FileStore) (now : Nat) (time : Duration)
    (hoverdue : (l'.beginTick files).updaters.overdue time =
      (l.beginTick files).updaters.overdue time)
    (hs : (l.begun files now time).1.SameBut t t' (l'.begun files now time).1)
    (h : (l.begun files now time).2.Renews False (l'.begun files now time).2) :
    Together (fun result l result' l' => Agree (TickSummary.SameBut t t') result result' ∧
        (result.isOk = true → l'.states = l.states)) (tick files now time) l
      (tick files now time) l' := by
  rw [toLaunches_pass]
  refine together_bind (together_toLaunches files now time hoverdue hs h) ?_
  rintro result l result' l' ⟨hagree, h⟩
  cases result with
  | error e =>
    cases result' with
    | error e' => exact together_pure ⟨hagree, fun hok => nomatch hok⟩
    | ok m' => exact hagree.elim
  | ok m =>
    cases result' with
    | error e' => exact hagree.elim
    | ok m' =>
      refine together_bind (together_fromLaunches now time hagree (h rfl)) ?_
      rintro s l s' l' ⟨hs, h⟩
      exact together_pure ⟨hs, fun _ => h.states trivial⟩

end Tick

end ClusterScaler
