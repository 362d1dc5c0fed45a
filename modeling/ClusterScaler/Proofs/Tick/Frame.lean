import ClusterScaler.Proofs.Tick.Plan
import ClusterScaler.Proofs.Tick.Steps

/-!
# Invariants of a tick

What holds of the loop and of the state of a protocol before a part of a tick holds after it, if
every question that the part may ask keeps it and so does what the part does between its
questions. Each part is walked through once, here, for every protocol and invariant.
-/

set_option autoImplicit false

namespace ClusterScaler

open Program TickM

/-- The loop once it has taken an answer in. -/
def ControlLoop.hear (l : ControlLoop) : (q : Question) → q.Reply → ControlLoop
  | .request _, d => l.complete d.ended
  | .awaitLaunch, d => l.complete d.ended
  | .dispatch _, _ | .abandon _, _ | .launch _, _ => l

/-- Whether a request is one of those by which a tick looks at nodes or waits before it looks
again. -/
def Request.looks : Request → Bool
  | .listNodes _ | .isRunning _ | .nodeTags _ | .internalIp _ | .pause _ => true
  | _ => false

variable {σ α : Type} {P : Protocol TickAsk TickAsk.Reply σ} {inv : ControlLoop → σ → Prop}

/-- A question is permitted wherever an invariant holds, and its answer keeps the invariant. -/
def Question.Kept (q : Question) (P : Protocol TickAsk TickAsk.Reply σ)
    (inv : ControlLoop → σ → Prop) : Prop :=
  ∀ l s, inv l s → P.permits s ⟨l, q⟩ ∧ ∀ r s', P.follows s ⟨l, q⟩ r s' → inv (l.hear q r) s'

/-- All looks at nodes keep an invariant. -/
def LooksKept (P : Protocol TickAsk TickAsk.Reply σ) (inv : ControlLoop → σ → Prop) : Prop :=
  ∀ r : Request, r.looks = true → (Question.request r).Kept P inv

/-- From a loop for which an invariant holds, a launch order may be started, and the invariant holds
again. -/
def StartKept (P : Protocol TickAsk TickAsk.Reply σ) (inv : ControlLoop → σ → Prop)
    (l : ControlLoop) (o : LaunchOrder) : Prop :=
  ∀ s, inv l s → P.permits s ⟨l, .launch o⟩ ∧ ∀ r s', P.follows s ⟨l, .launch o⟩ r s' → inv l s'

/-- The loop once it has sent an updater out. -/
def ControlLoop.sent (l : ControlLoop) (u : Update) (updaters : UpdaterPool) : ControlLoop :=
  { l with updaters, states := l.states.insert u.request.node .updating }

/-- Wherever an invariant holds, an updater that the pool accepts may be sent to a node, and the
invariant holds again. -/
def SendingKept (P : Protocol TickAsk TickAsk.Reply σ) (inv : ControlLoop → σ → Prop)
    (n : NodeRecord) (nodeType : String) (hashes : NodeTypeHashes) : Prop :=
  ∀ l s time head updaters, inv l s →
    l.updaters.dispatch? (l.updateFor n.id nodeType hashes head) time = some updaters →
      let u := l.updateFor n.id nodeType hashes head
      P.permits s ⟨l.sent u updaters, .dispatch u⟩ ∧
        ∀ r s', P.follows s ⟨l.sent u updaters, .dispatch u⟩ r s' → inv (l.sent u updaters) s'

namespace Tick

variable {l : ControlLoop} {s : σ}

theorem frame_request {r : Request} (hr : (Question.request r).Kept P inv) (h : inv l s) :
    (request r).Meets P (fun _ l' s' => inv l' s') l s := by
  rw [meets_request]
  exact hr l s h

theorem frame_retrying {call : TickM (ProviderResult α)} (hlooks : LooksKept P inv)
    (hcall : ∀ l s, inv l s → call.Meets P (fun _ l' s' => inv l' s') l s) (h : inv l s) :
    (retrying call).Meets P (fun _ l' s' => inv l' s') l s := by
  refine meets_retrying (fun l s h => ?_) (fun d l s h => ?_) h
  · exact (hcall l s h).mono (fun _ _ _ h' => ⟨h', fun _ => h'⟩)
  · exact frame_request (hlooks (.pause d) rfl) h

theorem frame_readNode (hlooks : LooksKept P inv) (id : NodeId) (h : inv l s) :
    (readNode id).Meets P (fun _ l' s' => inv l' s') l s := by
  unfold readNode
  rw [TickM.meets_bind]
  refine (frame_retrying hlooks
    (fun _ _ h => frame_request (hlooks (.nodeTags id) rfl) h) h).mono ?_
  intro tags l' s' h'
  cases tags with
  | error e => exact h'
  | ok tags =>
    dsimp only
    rw [TickM.meets_bind]
    refine (frame_retrying hlooks
      (fun _ _ h => frame_request (hlooks (.isRunning id) rfl) h) h').mono ?_
    intro running l'' s'' h''
    cases running with
    | error e => exact h''
    | ok running => exact h''

theorem frame_readNodes (hlooks : LooksKept P inv) (ids seen : List NodeId) (h : inv l s) :
    (readNodes seen ids).Meets P (fun _ l' s' => inv l' s') l s := by
  induction ids generalizing seen l s with
  | nil => exact h
  | cons id rest ih =>
    unfold readNodes
    split
    · exact h
    · rw [TickM.meets_bind]
      refine (frame_readNode hlooks id h).mono ?_
      intro node l' s' h'
      rw [TickM.meets_bind]
      refine (ih (id :: seen) h').mono ?_
      intro nodes l'' s'' h''
      cases nodes with
      | error e => exact h''
      | ok nodes => exact h''

theorem frame_reconcile (hlooks : LooksKept P inv) (h : inv l s) :
    reconcile.Meets P (fun _ l' s' => inv l' s') l s := by
  unfold reconcile
  rw [TickM.meets_bind, meets_get, TickM.meets_bind]
  refine (frame_retrying hlooks
    (fun _ _ h => frame_request (hlooks (.listNodes _) rfl) h) h).mono ?_
  intro ids l' s' h'
  cases ids with
  | error e => exact h'
  | ok ids => exact frame_readNodes hlooks ids [] h'

/-- A termination ends without effect on the nodes or with all of them removed, and by then it is known
what its success tells. -/
theorem frame_terminating {doomed : List NodeId} {sum : TickSummary}
    (told : ControlLoop → σ → Prop) (hlooks : LooksKept P inv)
    (hterminate : ∀ l s, inv l s → (request (.terminateNodes doomed)).Meets P
      (fun r l' s' => inv l' s' ∧ (r.isOk = true → told l' s')) l s)
    (hmark : ∀ l s, inv l s → inv (l.markAll .terminating doomed) s)
    (hremove : ∀ l s, inv l s → told l s → inv (l.removeAll doomed) s)
    (hfail : ∀ l s sum, inv l s → inv (ControlLoop.countFailure (sum, l)).2 s) (h : inv l s) :
    (terminate doomed sum).Meets P
      (fun r l' s' => (r.1 = [] ∨ r.1 = doomed) ∧ inv l' s') l s := by
  unfold terminate
  split
  · exact ⟨.inl rfl, h⟩
  · rw [TickM.meets_bind, meets_modify, TickM.meets_bind]
    have hcall : (retrying (request (.terminateNodes doomed))).Meets P
        (fun r l' s' => inv l' s' ∧ (r.isOk = true → told l' s'))
        (l.markAll .terminating doomed) s :=
      meets_retrying (fun l s h => (hterminate l s h).mono fun _ _ _ h' => ⟨h', fun _ => h'.1⟩)
        (fun d _ _ h => frame_request (hlooks (.pause d) rfl) h) (hmark l s h)
    refine hcall.mono ?_
    rintro result l' s' ⟨h', htold⟩
    cases result with
    | ok _ => exact ⟨.inr rfl, hremove l' s' h' (htold rfl)⟩
    | error e => exact ⟨.inl rfl, hfail l' s' sum h'⟩

/-- A termination ends without effect on the nodes or with all of them removed. -/
theorem frame_terminate {doomed : List NodeId} {sum : TickSummary} (hlooks : LooksKept P inv)
    (hterminate : (Question.request (.terminateNodes doomed)).Kept P inv)
    (hmark : ∀ l s, inv l s → inv (l.markAll .terminating doomed) s)
    (hremove : ∀ l s, inv l s → inv (l.removeAll doomed) s)
    (hfail : ∀ l s sum, inv l s → inv (ControlLoop.countFailure (sum, l)).2 s) (h : inv l s) :
    (terminate doomed sum).Meets P
      (fun r l' s' => (r.1 = [] ∨ r.1 = doomed) ∧ inv l' s') l s :=
  frame_terminating (fun _ _ => True) hlooks
    (fun _ _ h => (frame_request hterminate h).mono fun _ _ _ h' => ⟨h', fun _ => trivial⟩) hmark
    (fun l s h _ => hremove l s h) hfail h

theorem frame_startLaunches {orders : List LaunchOrder}
    (horders : ∀ o ∈ orders, StartKept P inv l o) (h : inv l s) :
    (startLaunches orders).Meets P (fun _ l' s' => inv l' s') l s := by
  induction orders generalizing s with
  | nil => exact h
  | cons order rest ih =>
    unfold startLaunches
    rw [TickM.meets_bind]
    obtain ⟨hpermits, hfollows⟩ := horders order List.mem_cons_self s h
    refine (meets_ask (q := .launch order)).mpr ⟨hpermits, ?_⟩
    intro r s' hr
    exact ih (fun o ho => horders o (List.mem_cons_of_mem _ ho)) (hfollows r s' hr)

/-- Waiting for launch orders keeps an invariant that also speaks of the summary. -/
theorem counting_awaitLaunches {inv : TickSummary → ControlLoop → σ → Prop}
    (hawait : ∀ sum, Question.awaitLaunch.Kept P (inv sum))
    (hmerge : ∀ l s sum ended, inv sum l s →
      inv (ControlLoop.mergeLaunch (sum, l) ended).1 (ControlLoop.mergeLaunch (sum, l) ended).2 s)
    (count : Nat) (sum : TickSummary) (h : inv sum l s) :
    (awaitLaunches count sum).Meets P inv l s := by
  induction count generalizing sum l s with
  | zero => exact h
  | succ count ih =>
    unfold awaitLaunches
    rw [TickM.meets_bind]
    obtain ⟨hpermits, hfollows⟩ := hawait sum l s h
    refine (meets_ask (q := .awaitLaunch)).mpr ⟨hpermits, ?_⟩
    intro d s' hd
    exact ih _ (hmerge _ s' sum d.answer (hfollows d s' hd))

/-- Orders are started only where the breaker has not tripped, and an invariant that also speaks of the
summary is kept. -/
theorem counting_launchUnlessTripped {inv : TickSummary → ControlLoop → σ → Prop}
    {deficits : List (String × Nat)} {sum : TickSummary}
    (horders : l.breaker.tripped = false →
      ∀ o ∈ deficits.filterMap (fun d => l.launchOrder? d.1 d.2), StartKept P (inv sum) l o)
    (hawait : ∀ sum, Question.awaitLaunch.Kept P (inv sum))
    (hmerge : ∀ l s sum ended, inv sum l s →
      inv (ControlLoop.mergeLaunch (sum, l) ended).1 (ControlLoop.mergeLaunch (sum, l) ended).2 s)
    (hblocked : ∀ l s sum, inv sum l s → inv { sum with launchesBlocked := true } l s)
    (h : inv sum l s) : (launchUnlessTripped deficits sum).Meets P inv l s := by
  unfold launchUnlessTripped
  split
  · exact h
  · rw [TickM.meets_bind, meets_get]
    split
    · exact hblocked l s sum h
    · next huntripped =>
      unfold launch
      rw [TickM.meets_bind, meets_get, TickM.meets_bind]
      refine (frame_startLaunches (horders (by simpa using huntripped)) h).mono ?_
      intro _ l' s' h'
      exact counting_awaitLaunches hawait hmerge _ sum h'

/-- Orders are started only where the breaker has not tripped. -/
theorem frame_launchUnlessTripped {deficits : List (String × Nat)}
    (horders : l.breaker.tripped = false →
      ∀ o ∈ deficits.filterMap (fun d => l.launchOrder? d.1 d.2), StartKept P inv l o)
    (hawait : Question.awaitLaunch.Kept P inv)
    (hmerge : ∀ l s sum ended, inv l s → inv (ControlLoop.mergeLaunch (sum, l) ended).2 s)
    (sum : TickSummary) (h : inv l s) :
    (launchUnlessTripped deficits sum).Meets P (fun _ l' s' => inv l' s') l s :=
  counting_launchUnlessTripped horders (fun _ => hawait) hmerge (fun _ _ _ h => h) h

theorem frame_knownHead (hlooks : LooksKept P inv) (nodes : List NodeRecord)
    (head : Option HeadAddress) (h : inv l s) :
    (knownHead nodes head).Meets P (fun _ l' s' => inv l' s') l s := by
  unfold knownHead
  split
  · exact h
  · unfold headAddress
    rw [TickM.meets_bind, meets_get]
    dsimp only
    split
    · split <;> exact h
    · rw [TickM.meets_bind]
      refine (frame_retrying hlooks
        (fun _ _ h => frame_request (hlooks (.internalIp _) rfl) h) h).mono ?_
      intro address l' s' h'
      cases address with
      | error e => exact h'
      | ok address => exact h'

/-- Sending an updater out keeps an invariant that also speaks of the summary. -/
theorem counting_dispatch {inv : TickSummary → ControlLoop → σ → Prop} {n : NodeRecord}
    {nodeType : String} {hashes : NodeTypeHashes}
    (hsend : ∀ sum, SendingKept P (inv sum) n nodeType hashes)
    (hsent : ∀ l s sum, inv sum l s →
      inv { sum with updatersDispatched := sum.updatersDispatched + 1 } l s)
    (time : Duration) (head : Option String) (sum : TickSummary) (h : inv sum l s) :
    (dispatch time n nodeType hashes head sum).Meets P inv l s := by
  unfold dispatch
  rw [TickM.meets_bind, meets_get]
  dsimp only
  split
  · exact h
  · next updaters hdispatch =>
    obtain ⟨hpermits, hfollows⟩ := hsend sum l s time head updaters h hdispatch
    rw [TickM.meets_bind, meets_set, TickM.meets_bind]
    refine (meets_ask (q := .dispatch _)).mpr ⟨hpermits, ?_⟩
    intro r s' hr
    exact hsent _ s' sum (hfollows r s' hr)

/-- Sending updaters out keeps what sending one to each node that is behind keeps, also of the
summary. -/
theorem counting_dispatchAll {inv : TickSummary → ControlLoop → σ → Prop} {nodes : List NodeRecord}
    (hlooks : ∀ sum, LooksKept P (inv sum))
    (hsend : ∀ n ∈ nodes, ∀ l s sum nodeType hashes, inv sum l s →
      l.behind? n = some (nodeType, hashes) → ∀ sum, SendingKept P (inv sum) n nodeType hashes)
    (hsent : ∀ l s sum, inv sum l s →
      inv { sum with updatersDispatched := sum.updatersDispatched + 1 } l s)
    (time : Duration) (all : List NodeRecord) (head : Option HeadAddress) (sum : TickSummary)
    (h : inv sum l s) : (dispatchAll time all head nodes sum).Meets P inv l s := by
  induction nodes generalizing head sum l s with
  | nil => exact h
  | cons n rest ih =>
    have hrest := fun m hm => hsend m (List.mem_cons_of_mem _ hm)
    unfold dispatchAll
    rw [TickM.meets_bind, meets_get]
    split
    · exact ih hrest head sum h
    · next nodeType hashes hbehind =>
      -- the rest is alike wherever the address of the head node comes from
      have hgo : ∀ (address : Option String) (head' : Option HeadAddress) (l' : ControlLoop)
          (s' : σ), inv sum l' s' → (do
            let sum ← dispatch time n nodeType hashes address sum
            dispatchAll time all head' rest sum).Meets P inv l' s' := by
        intro address head' l' s' h'
        rw [TickM.meets_bind]
        have hn := hsend n List.mem_cons_self l s sum nodeType hashes h hbehind
        refine (counting_dispatch hn hsent time address sum h').mono ?_
        intro sum' l'' s'' h''
        exact ih hrest head' sum' h''
      split
      · exact hgo none head l s h
      · rw [TickM.meets_bind]
        refine (frame_knownHead (hlooks sum) all head h).mono ?_
        intro head' l' s' h'
        cases head' with
        | known address => exact hgo (some address) _ l' s' h'
        | pending => exact ih hrest _ sum h'
        | absent => exact hgo none _ l' s' h'

/-- Sending updaters out keeps what sending one to each node that is behind keeps. -/
theorem frame_dispatchAll {nodes : List NodeRecord} (hlooks : LooksKept P inv)
    (hsend : ∀ n ∈ nodes, ∀ l s nodeType hashes, inv l s →
      l.behind? n = some (nodeType, hashes) → SendingKept P inv n nodeType hashes)
    (time : Duration) (all : List NodeRecord) (head : Option HeadAddress) (sum : TickSummary)
    (h : inv l s) :
    (dispatchAll time all head nodes sum).Meets P (fun _ l' s' => inv l' s') l s :=
  counting_dispatchAll (fun _ => hlooks)
    (fun n hn l s _ nodeType hashes h hbehind _ => hsend n hn l s nodeType hashes h hbehind)
    (fun _ _ _ h => h) time all head sum h

end Tick

/-- Everything that a tick does after it has planned keeps an invariant. -/
structure PlanKept (P : Protocol TickAsk TickAsk.Reply σ) (inv : ControlLoop → σ → Prop)
    (nodes : List NodeRecord) (p : TickPlan) : Prop where
  looks : LooksKept P inv
  terminate : (Question.request (.terminateNodes p.doomed)).Kept P inv
  mark : ∀ l s, inv l s → inv (l.markAll .terminating p.doomed) s
  remove : ∀ l s, inv l s → inv (l.removeAll p.doomed) s
  fail : ∀ l s sum, inv l s → inv (ControlLoop.countFailure (sum, l)).2 s
  launch : ∀ l s nodeType n o, inv l s → l.breaker.tripped = false →
    l.launchOrder? nodeType n = some o → StartKept P inv l o
  await : Question.awaitLaunch.Kept P inv
  merge : ∀ l s sum ended, inv l s → inv (ControlLoop.mergeLaunch (sum, l) ended).2 s
  send : ∀ n ∈ nodes, n.id ∉ p.doomed → ∀ l s nodeType hashes, inv l s →
    l.behind? n = some (nodeType, hashes) → SendingKept P inv n nodeType hashes
  publish : ∀ l s survivors departed loads now sum, inv l s →
    inv (l.publish survivors departed loads now sum) s

theorem Tick.frame_carryOut {nodes : List NodeRecord} {p : TickPlan} (hkept : PlanKept P inv nodes p)
    (planner : ControlLoop) (now : Nat) (time : Duration) (sum : TickSummary) {l : ControlLoop}
    {s : σ} (h : inv l s) :
    (carryOut planner now time nodes p sum).Meets P (fun _ l' s' => inv l' s') l s := by
  unfold carryOut
  rw [TickM.meets_bind]
  refine (frame_terminate hkept.looks hkept.terminate hkept.mark hkept.remove hkept.fail h).mono ?_
  rintro ⟨removed, sum'⟩ l' s' ⟨-, h'⟩
  dsimp only
  rw [TickM.meets_bind]
  refine (frame_launchUnlessTripped ?_ hkept.await hkept.merge sum' h').mono ?_
  · intro huntripped o ho
    obtain ⟨d, -, hd⟩ := List.mem_filterMap.mp ho
    exact hkept.launch l' s' d.1 d.2 o h' huntripped hd
  intro sum'' l'' s'' h''
  rw [TickM.meets_bind]
  refine (frame_dispatchAll hkept.looks ?_ time _ none sum'' h'').mono ?_
  · intro n hn
    obtain ⟨hsurvives, hspared⟩ := List.mem_filter.mp hn
    exact hkept.send n (List.mem_filter.mp hsurvives).1 (by simpa using hspared)
  intro sum''' l''' s''' h'''
  exact hkept.publish _ _ _ _ _ _ _ h'''

end ClusterScaler
