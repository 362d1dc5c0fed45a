import ClusterScaler.Proofs.Tick.Begin
import ClusterScaler.Proofs.Tick.Midway

/-!
# What no tick takes away

Once a tick has begun, the configuration, its hashes and the count of ticks stay as they are, and
the breaker only counts failures and successes. So what rests on these alone stands through the
tick, at every question and at its end, and with it what follows for the orders and updates that
the tick sends out.
-/

set_option autoImplicit false

namespace ClusterScaler

open Program TickM

/-- What holds of loops rests on the configuration, its hashes, the count of ticks and the breaker,
and failures and successes leave it. Whatever is asked from such loops is as it should be. -/
structure Standing (inv : ControlLoop → Prop) (proper : Question → Prop) : Prop where
  congr : ∀ {l l' : ControlLoop}, inv l → l'.config = l.config → l'.hashes = l.hashes →
    l'.ticks = l.ticks → l'.breaker = l.breaker → inv l'
  failure : ∀ {l : ControlLoop}, inv l →
    inv { l with breaker := (l.breaker.recordFailure l.ticks).1 }
  success : ∀ {l : ControlLoop}, inv l → inv { l with breaker := l.breaker.recordSuccess }
  order : ∀ {l : ControlLoop} {nodeType : String} {n : Nat} {o : LaunchOrder}, inv l →
    l.launchOrder? nodeType n = some o → proper (.launch o)
  update : ∀ {l l' : ControlLoop} {n : NodeRecord} {nodeType : String} {hashes : NodeTypeHashes}
    (head : Option String), inv l → l.behind? n = some (nodeType, hashes) → inv l' →
      proper (.dispatch (l'.updateFor n.id nodeType hashes head))
  looks : ∀ {r : Request}, r.looks = true → proper (.request r)
  terminate : ∀ nodes, proper (.request (.terminateNodes nodes))
  abandon : ∀ nodes, proper (.abandon nodes)
  await : proper .awaitLaunch

namespace Standing

variable {inv : ControlLoop → Prop} {proper : Question → Prop}

/-- The protocol that permits only proper questions, from loops of which something holds. -/
abbrev protocol (inv : ControlLoop → Prop) (proper : Question → Prop) :
    Protocol TickAsk TickAsk.Reply Unit :=
  asking fun a => inv a.loop ∧ proper a.question

theorem mergeLaunch (h : Standing inv proper) {l : ControlLoop} (s : TickSummary)
    (ended : LaunchEnd) (hl : inv l) : inv (ControlLoop.mergeLaunch (s, l) ended).2 := by
  cases ended with
  | panicked => exact h.failure hl
  | reported report =>
    have hlaunched : inv (ControlLoop.countLaunched report.launched (s, l)).2 := by
      unfold ControlLoop.countLaunched
      dsimp only
      split
      · exact hl
      · exact h.congr (h.success hl) rfl rfl rfl rfl
    unfold ControlLoop.mergeLaunch
    dsimp only
    split
    · exact h.failure hlaunched
    · exact hlaunched

theorem hear (h : Standing inv proper) {l : ControlLoop} (q : Question) (r : q.Reply)
    (hl : inv l) : inv (l.hear q r) := by
  cases q <;> exact h.congr hl rfl rfl rfl rfl

theorem kept (h : Standing inv proper) {q : Question} (hq : proper q) :
    q.Kept (protocol inv proper) (fun l _ => inv l) :=
  fun _ _ hl => ⟨⟨hl, hq⟩, fun r _ _ => h.hear q r hl⟩

theorem looksKept (h : Standing inv proper) :
    LooksKept (protocol inv proper) (fun l _ => inv l) :=
  fun _ hr => h.kept (h.looks hr)

theorem toLaunches (h : Standing inv proper) (files : FileStore) (now : Nat) (time : Duration)
    {l : ControlLoop} (hl : inv (l.beginTick files)) :
    (Tick.toLaunches files now time).Meets (protocol inv proper) (fun _ l' _ => inv l') l () := by
  refine Tick.frame_toLaunches h.looksKept (fun doomed => h.kept (h.terminate doomed))
    (fun l s nodes hl => h.congr hl rfl rfl rfl rfl) (fun l s doomed hl => h.congr hl rfl rfl rfl rfl)
    (fun l s doomed hl => h.congr hl rfl rfl rfl rfl) (fun l s sum hl => h.failure hl)
    ⟨hl, h.abandon _⟩ ?_
  intro r s' _
  obtain ⟨_, _, _, _, hbegun⟩ := l.begun_eq files now time
  rw [hbegun]
  exact h.congr hl rfl rfl rfl rfl

theorem fromLaunches (h : Standing inv proper) (now : Nat) (time : Duration) (m : Tick.Midway)
    {l : ControlLoop} (hl : inv l) :
    (Tick.fromLaunches now time m).Meets (protocol inv proper) (fun _ l' _ => inv l') l () := by
  have hlaunches : ∀ deficits, (Tick.launchUnlessTripped deficits m.summary).Meets
      (protocol inv proper) (fun _ l' _ => inv l') l () := by
    intro deficits
    refine Tick.frame_launchUnlessTripped ?_ (h.kept h.await)
      (fun l s sum ended hl => h.mergeLaunch sum ended hl) m.summary hl
    intro _ o ho s hl
    obtain ⟨d, -, hd⟩ := List.mem_filterMap.mp ho
    exact ⟨⟨hl, h.order hl hd⟩, fun _ _ _ => hl⟩
  have hdispatches : ∀ nodes sum l, inv l → (Tick.dispatchAll time nodes none nodes sum).Meets
      (protocol inv proper) (fun _ l' _ => inv l') l () := by
    intro nodes sum l hl
    refine Tick.frame_dispatchAll h.looksKept ?_ time nodes none sum hl
    intro n _ l s nodeType hashes hl hbehind l' s' time head updaters hl' _
    have hsent : inv (l'.sent (l'.updateFor n.id nodeType hashes head) updaters) :=
      h.congr hl' rfl rfl rfl rfl
    exact ⟨⟨hsent, h.update head hl hbehind hl'⟩, fun _ _ _ => hsent⟩
  unfold Tick.fromLaunches
  rw [TickM.meets_bind]
  refine (hlaunches _).mono ?_
  intro sum l' _ hl'
  rw [TickM.meets_bind]
  refine (hdispatches _ sum l' hl').mono ?_
  intro sum' l'' _ hl''
  exact h.congr hl'' rfl rfl rfl rfl

/-- What holds of a loop once a tick of it has begun holds at every question of the tick and at its
end, and every question is proper. -/
theorem tick (h : Standing inv proper) (files : FileStore) (now : Nat) (time : Duration)
    {l : ControlLoop} (hl : inv (l.beginTick files)) :
    (ClusterScaler.tick files now time).Meets (protocol inv proper) (fun _ l' _ => inv l') l () := by
  rw [Tick.toLaunches_pass, TickM.meets_bind]
  refine (h.toLaunches files now time hl).mono ?_
  intro result l' _ hl'
  cases result with
  | error e => exact hl'
  | ok m =>
    unfold Tick.pass
    rw [TickM.meets_bind]
    exact (h.fromLaunches now time m hl').mono fun _ _ _ hl'' => hl''

/-- The configuration and its hashes stay as they are, whatever is asked. -/
theorem configured (config : ClusterConfig) (hashes : Table String NodeTypeHashes) :
    Standing (fun l => l.config = config ∧ l.hashes = hashes) fun _ => True where
  congr hl hconfig hhashes _ _ := ⟨hconfig.trans hl.1, hhashes.trans hl.2⟩
  failure hl := hl
  success hl := hl
  order _ _ := trivial
  update _ _ _ _ := trivial
  looks _ := trivial
  terminate _ := trivial
  abandon _ := trivial
  await := trivial

end Standing

end ClusterScaler
