import ClusterScaler.Proofs.Breaker.Alongside
import ClusterScaler.Proofs.Breaker.Gate
import ClusterScaler.Proofs.Exclusion.Instants

/-!
# The breaker through runs

Every tick meets the gate, so through a whole run a breaker that has tripped stays tripped until a
reset is applied, and nothing is launched meanwhile. What else a tick does is what it would have
done with another breaker.
-/

set_option autoImplicit false

namespace ClusterScaler

open Program

namespace Tick

variable {l : ControlLoop} {tripped : Bool}

theorem pass_gate (now : Nat) (time : Duration) (result : Except LoopError Midway)
    (h : StaysTripped l tripped) :
    (pass now time result).Meets (gate true) (fun _ l' t => StaysTripped l' t) l tripped := by
  cases result with
  | error e => exact h
  | ok m =>
    unfold pass
    rw [TickM.meets_bind]
    exact (fromLaunches_gate now time m h).mono (fun _ _ _ h' => h')

theorem tick_gate (files : FileStore) (now : Nat) (time : Duration)
    (h : StaysTripped (l.beginTick files) tripped) :
    (tick files now time).Meets (gate true) (fun _ l' t => StaysTripped l' t) l tripped := by
  rw [toLaunches_pass, TickM.meets_bind]
  exact (toLaunches_gate files now time h).mono (fun result _ _ h' => pass_gate now time result h')

end Tick

namespace Instant

/-- The breaker as it stands. -/
def breaker : Instant → Breaker
  | ⟨.resting l, _⟩ => l.breaker
  | ⟨.ticking _ (.ask a _), _⟩ => a.loop.breaker
  | ⟨.ticking _ (.done r), _⟩ => r.2.breaker

/-- An operator's reset of the breaker is applied: at once, or by a tick that finds it waiting. -/
inductive Resets : Instant → Instant → Prop where
  | atOnce (l : ControlLoop) (s : Simulation) : Resets ⟨.resting l, s⟩ ⟨.resting l.resetBreaker, s⟩
  | waiting (l : ControlLoop) (s : Simulation) (files : FileStore) (now : Nat) (time : Duration) :
      .resetBreaker ∈ l.commands →
        Resets ⟨.resting l, s⟩ ⟨.ticking [] ((tick files now time).run l), s⟩

/-- A tick that begins applies the resets that wait and no others. -/
theorem Resets.waits {l : ControlLoop} {s s' : Simulation} {answered : List Question}
    {rest : TickRest} (h : Resets ⟨.resting l, s⟩ ⟨.ticking answered rest, s'⟩) :
    .resetBreaker ∈ l.commands := by
  cases h with
  | waiting _ _ _ _ _ hreset => exact hreset

/-- The tick under way meets the gate. -/
def Gated : Instant → Prop
  | ⟨.resting _, _⟩ => True
  | ⟨.ticking _ rest, _⟩ =>
    ∃ tripped, rest.Meets (gate true) (fun r t => Tick.StaysTripped r.2 t) tripped

theorem tripped_of_meets {rest : TickRest} {answered : List Question} {s : Simulation}
    (h : rest.Meets (gate true) (fun r t => Tick.StaysTripped r.2 t) true) :
    (breaker ⟨.ticking answered rest, s⟩).tripped = true := by
  cases rest with
  | done r => exact h rfl
  | ask a next => exact h.1.1 rfl

/-- The answer to a question leaves the rest of the tick at the gate, and a tripped breaker tripped. -/
theorem Gated.answer {answered answered' : List Question} {a : TickAsk} {next : a.Reply → TickRest}
    {s s' : Simulation} {reply : a.Reply} (h : Gated ⟨.ticking answered (.ask a next), s⟩) :
    Gated ⟨.ticking answered' (next reply), s'⟩ ∧
      (a.loop.breaker.tripped = true →
        (breaker ⟨.ticking answered' (next reply), s'⟩).tripped = true) := by
  obtain ⟨tripped, -, hnext⟩ := h
  have hrest := hnext reply _ rfl
  refine ⟨⟨_, hrest⟩, ?_⟩
  intro htripped
  rw [htripped] at hrest
  exact tripped_of_meets hrest

/-- What happens next leaves a tick at the gate, and a tripped breaker tripped unless it is a
reset. -/
theorem Gated.step {i j : Instant} (h : Gated i) (hstep : Step i j) :
    Gated j ∧ (¬ Resets i j → i.breaker.tripped = true → j.breaker.tripped = true) := by
  cases hstep with
  | scene a s scene =>
    cases a with
    | resting l => exact ⟨trivial, fun _ htripped => htripped⟩
    | ticking answered rest => cases rest <;> exact ⟨h, fun _ htripped => htripped⟩
  | @job a s job others hperm =>
    cases a with
    | resting l => exact ⟨trivial, fun _ htripped => htripped⟩
    | ticking answered rest => cases rest <;> exact ⟨h, fun _ htripped => htripped⟩
  | tickBegins l s files now time =>
    refine ⟨⟨(l.beginTick files).breaker.tripped, Tick.tick_gate files now time id⟩, ?_⟩
    intro hkept htripped
    exact ControlLoop.tripped_beginTick files
      (fun hreset => hkept (.waiting l s files now time hreset)) htripped
  | answer answered l r next s reply => exact h.answer.imp_right fun hnext _ => hnext
  | dispatch answered l u next s => exact h.answer.imp_right fun hnext _ => hnext
  | abandon answered l nodes next s => exact h.answer.imp_right fun hnext _ => hnext
  | launch answered l order next s => exact h.answer.imp_right fun hnext _ => hnext
  | launchEnds answered l next s ended launchEnds =>
    exact h.answer.imp_right fun hnext _ => hnext
  | tickEnds answered result l s => exact ⟨trivial, fun _ htripped => htripped⟩
  | cut answered a next s => exact ⟨trivial, fun _ htripped => htripped⟩
  | noteEnds l s => exact ⟨trivial, fun _ htripped => htripped⟩
  | feeds l s feeds => exact ⟨trivial, fun _ htripped => htripped⟩
  | obey l s files command =>
    refine ⟨trivial, fun hkept htripped => ControlLoop.tripped_obey files ?_ htripped⟩
    rintro rfl
    exact hkept (.atOnce l s)
  | drain l time hnone => exact ⟨trivial, fun _ htripped => htripped⟩
  | stop l s => exact ⟨trivial, fun _ htripped => htripped⟩

/-- At every instant of a run the tick under way meets the gate. -/
theorem Reachable.gated {i : Instant} (h : Reachable i) : Gated i := by
  obtain ⟨⟨activity, s⟩, ⟨l, rfl, -⟩, hsteps⟩ := h
  induction hsteps with
  | refl => trivial
  | tail _ hstep ih => exact (ih.step hstep).1

/-- New nodes are asked for only while the breaker has not tripped. -/
theorem Gated.untripped {i : Instant} (h : Gated i) {q : Question} (hq : q ∈ i.activity.pending)
    (hlaunches : q.launches = true) : i.breaker.tripped = false := by
  obtain ⟨activity, s⟩ := i
  cases activity with
  | resting l => cases hq
  | ticking answered rest =>
    cases rest with
    | done result => cases hq
    | ask a next =>
      obtain ⟨tripped, hpermits, -⟩ := h
      obtain rfl := List.mem_singleton.mp hq
      exact (hpermits.2 hlaunches).2

end Instant

theorem follows_gate {launching tripped : Bool}
    (trace : List (Exchange TickAsk TickAsk.Reply)) :
    ∃ tripped', Follows (gate launching) tripped trace tripped' := by
  induction trace generalizing tripped with
  | nil => exact ⟨tripped, .nil tripped⟩
  | cons x rest ih =>
    obtain ⟨tripped', hrest⟩ := @ih x.op.loop.breaker.tripped
    exact ⟨tripped', .cons rfl hrest⟩

/-- A tick that comes to its launches with a tripped breaker asks for no nodes, neither before nor
after. -/
theorem Tick.launches_nothing {files : FileStore} {now : Nat} {time : Duration}
    {before l : ControlLoop} {m : Midway} {first rest : List (Exchange TickAsk TickAsk.Reply)}
    {left : TickRest} (hfirst : Runs ((toLaunches files now time).run before) first (.ok m, l))
    (htripped : l.breaker.tripped = true)
    (hbegins : Begins ((tick files now time).run before) (first ++ rest) left) :
    ∀ x ∈ first ++ rest, x.op.question.launches = false := by
  intro x hx
  rcases List.mem_append.mp hx with hx | hx
  · obtain ⟨tripped', hfollows⟩ := follows_gate first
    have hmeets : (toLaunches files now time).Meets (gate false) (fun _ l' t => StaysTripped l' t)
        before (before.beginTick files).breaker.tripped := toLaunches_gate files now time id
    obtain ⟨_, hpermits⟩ := hmeets.permitted hfirst hfollows x hx
    cases hlaunches : x.op.question.launches with
    | false => rfl
    | true => exact absurd (hpermits.2 hlaunches).1 (by decide)
  · rw [toLaunches_pass] at hbegins
    have hrest : Begins ((pass now time (.ok m)).run l) rest left := hbegins.of_bind hfirst
    obtain ⟨tripped', hfollows⟩ := follows_gate rest
    have hmeets : (pass now time (.ok m)).Meets (gate true) (fun _ l' t => StaysTripped l' t)
        l true := pass_gate now time _ (fun _ => htripped)
    -- from here on the gate is shut, whatever is answered
    have hshut : ∀ t a (r : a.Reply) t', t = true → (gate true).permits t a →
        (gate true).follows t a r t' → t' = true :=
      fun t a r t' ht hpermits hstep => hstep.trans (hpermits.1 ht)
    obtain ⟨_, rfl, hpermits⟩ := (hmeets.asked hshut rfl hrest hfollows).2 x hx
    cases hlaunches : x.op.question.launches with
    | false => rfl
    | true => exact absurd ((hpermits.1 rfl).symm.trans (hpermits.2 hlaunches).2) (by decide)

/-- The breaker gates launches. In every run a breaker that has tripped stays tripped until a reset
is applied, and new nodes are asked for only while it has not tripped; a tick that comes to its
launches with a tripped breaker asks for none at all; and a tick makes the same calls, sends the
same updaters and comes to the same targets as it does with any other breaker, as long as its calls
are answered alike. -/
theorem breaker_gates_launches :
    (∀ i j, Instant.Reachable i →
      Relation.ReflTransGen (fun i j => Instant.Step i j ∧ ¬ Instant.Resets i j) i j →
        i.breaker.tripped = true → j.breaker.tripped = true) ∧
    (∀ i, Instant.Reachable i → ∀ q ∈ i.activity.pending, q.launches = true →
      i.breaker.tripped = false) ∧
    (∀ files now time before first (m : Tick.Midway) l rest left,
      Runs ((Tick.toLaunches files now time).run before) first (.ok m, l) →
        l.breaker.tripped = true →
          Begins ((tick files now time).run before) (first ++ rest) left →
            ∀ x ∈ first ++ rest, x.op.question.launches = false) ∧
    (∀ files now time (before : ControlLoop) breaker trace trace' result result' after after',
      Runs ((tick files now time).run before) trace (result, after) →
        Runs ((tick files now time).run { before with breaker }) trace' (result', after') →
          AnsweredAlike trace trace' →
            callsOf trace = callsOf trace' ∧ updatesOf trace = updatesOf trace' ∧
              Tick.Agree (·.targets = ·.targets) result result') := by
  refine ⟨?_, ?_, ?_, ?_⟩
  · intro i j hreachable hsteps htripped
    have hgated : Instant.Gated j ∧ j.breaker.tripped = true := by
      induction hsteps with
      | refl => exact ⟨hreachable.gated, htripped⟩
      | tail _ hstep ih =>
        obtain ⟨hgated, hstays⟩ := ih.1.step hstep.1
        exact ⟨hgated, hstays hstep.2 ih.2⟩
    exact hgated.2
  · intro i hreachable q hq hlaunches
    exact hreachable.gated.untripped hq hlaunches
  · intro files now time before first m l rest left hfirst htripped hbegins
    exact Tick.launches_nothing hfirst htripped hbegins
  · intro files now time before breaker trace trace' result result' after after' hrun hrun' halike
    exact (Tick.alike_tick files now time before breaker).runs hrun hrun' halike

/-- Where every question has its one answer, calls are answered alike. -/
theorem answeredAlike_of_answers (answer : (q : Question) → q.Reply)
    {trace trace' : List (Exchange TickAsk TickAsk.Reply)}
    (h : ∀ x ∈ trace, x.reply = answer x.op.question)
    (h' : ∀ x ∈ trace', x.reply = answer x.op.question) : AnsweredAlike trace trace' := by
  have hanswer : ∀ {trace : List (Exchange TickAsk TickAsk.Reply)},
      (∀ x ∈ trace, x.reply = answer x.op.question) → ∀ (before : List Call) (r : Request) a,
        before ++ [⟨r, a⟩] <+: callsOf trace → a = (answer (.request r)).answer := by
    intro trace h before r a hprefix
    have hmem : (⟨r, a⟩ : Call) ∈ callsOf trace := hprefix.subset (by simp)
    obtain ⟨⟨⟨l, q⟩, reply⟩, hx, hcall⟩ := List.mem_filterMap.mp hmem
    have hreply : reply = answer q := h _ hx
    cases q with
    | request r' =>
      cases hcall
      rw [hreply]
    | dispatch u => cases hcall
    | abandon nodes => cases hcall
    | launch order => cases hcall
    | awaitLaunch => cases hcall
  intro before r a a' hprefix hprefix'
  rw [hanswer h before r a hprefix, hanswer h' before r a' hprefix']

/-- A loop that lacks its one node and whose breaker has tripped. -/
def ControlLoop.halted : ControlLoop :=
  { ofHeadType { minWorkers := 1, maxWorkers := 1 } with
    breaker := { Breaker.new 5 60 with tripped := true } }

/-- The halted loop launches nothing in a tick in which the same loop with a fresh breaker launches a
node; the calls are the same, and the breaker is still tripped once the tick has begun. -/
theorem breaker_gates_launches_halted :
    ∃ trace trace' result result' i j,
      Runs ((tick .empty 0 ⟨0⟩).run .halted) trace result ∧
        Runs ((tick .empty 0 ⟨0⟩).run { ControlLoop.halted with breaker := .new 5 60 }) trace'
          result' ∧
        (∀ x ∈ trace, x.op.question.launches = false) ∧ (ordersOf trace').length = 1 ∧
          callsOf trace = callsOf trace' ∧ Instant.Reachable i ∧ Instant.Step i j ∧
            j.breaker.tripped = true := by
  obtain ⟨hstays, -, hnothing, hsame⟩ := breaker_gates_launches
  -- every call succeeds, and lists no nodes
  obtain ⟨hto, htoanswers⟩ := runs_replay (fun a : TickAsk => a.question.succeed)
    ((Tick.toLaunches .empty 0 ⟨0⟩).run .halted)
  obtain ⟨hother, hotheranswers⟩ := runs_replay (fun a : TickAsk => a.question.succeed)
    ((tick .empty 0 ⟨0⟩).run { ControlLoop.halted with breaker := .new 5 60 })
  have hlaunched : (ordersOf (((tick .empty 0 ⟨0⟩).run
      { ControlLoop.halted with breaker := .new 5 60 }).replay (·.question.succeed)).1).length = 1 := by
    decide +kernel
  have hok : (((Tick.toLaunches .empty 0 ⟨0⟩).run .halted).replay
      (·.question.succeed)).2.1.isOk = true := by decide +kernel
  have htripped : (((Tick.toLaunches .empty 0 ⟨0⟩).run .halted).replay
      (·.question.succeed)).2.2.breaker.tripped = true := by decide +kernel
  generalize ((Tick.toLaunches .empty 0 ⟨0⟩).run ControlLoop.halted).replay
    (·.question.succeed) = reached at hto htoanswers hok htripped
  obtain ⟨first, result, l⟩ := reached
  cases result with
  | error e => cases hok
  | ok m =>
    obtain ⟨hpass, hpassanswers⟩ := runs_replay (fun a : TickAsk => a.question.succeed)
      ((Tick.pass 0 ⟨0⟩ (.ok m)).run l)
    have hwhole := (runs_bind_iff (f := fun r => (Tick.pass 0 ⟨0⟩ r.1).run r.2)).mpr
      ⟨_, _, _, rfl, hto, hpass⟩
    change Runs ((Tick.toLaunches .empty 0 ⟨0⟩ >>= Tick.pass 0 ⟨0⟩).run .halted) _ _ at hwhole
    rw [← Tick.toLaunches_pass] at hwhole
    have halike := answeredAlike_of_answers Question.succeed
      (fun x hx => (List.mem_append.mp hx).elim (htoanswers x) (hpassanswers x)) hotheranswers
    have hstart : Instant.Reachable ⟨.resting .halted, { world := ⟨.inMemory {}, .empty, {}⟩ }⟩ :=
      ⟨_, ⟨_, rfl, fun _ => rfl⟩, .refl⟩
    have hbegun := Instant.Step.tickBegins .halted { world := ⟨.inMemory {}, .empty, {}⟩ }
      .empty 0 ⟨0⟩
    refine ⟨_, _, _, _, _, _, hwhole, hother, ?_, hlaunched, ?_, hstart, hbegun, ?_⟩
    · exact hnothing .empty 0 ⟨0⟩ .halted first m l _ _ hto htripped hwhole.begins
    · exact (hsame .empty 0 ⟨0⟩ .halted _ _ _ _ _ _ _ hwhole hother halike).1
    · refine hstays _ _ hstart (.single ⟨hbegun, ?_⟩) rfl
      exact fun hreset => absurd hreset.waits List.not_mem_nil

end ClusterScaler
