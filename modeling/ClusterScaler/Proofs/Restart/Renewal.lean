import ClusterScaler.Proofs.Breaker.Gate
import ClusterScaler.Proofs.Breaker.Twins
import ClusterScaler.Proofs.Restart.Abreast

/-!
# Loops with another past

Two loops that hold the same, but have counted different ticks and remember different states of
nodes. Their breakers count the failures of the tick under way and no others, so they trip
together; and what a loop remembers about nodes is overwritten when it takes note of the nodes
that were read. So whatever a tick decides, it decides the same from both.
-/

set_option autoImplicit false

namespace ClusterScaler

namespace Breaker

/-- So many failures of the current tick are in the window, and no older ones. -/
structure Counts (b : Breaker) (tick n : Nat) : Prop where
  window : 0 < b.windowTicks
  current : b.currentTick = tick
  begun : 0 < tick
  failures : b.failures = List.replicate n tick

variable {b b' : Breaker} {tick tick' n : Nat}

theorem Counts.advance_eq (h : b.Counts tick n) : b.advance tick = b := by
  obtain ⟨hwindow, rfl, hbegun, hfailures⟩ := h
  have hkept : b.failures.dropWhile (· ≤ b.currentTick - b.windowTicks) = b.failures := by
    rw [hfailures]
    cases n with
    | zero => rfl
    | succ n =>
      rw [List.replicate_succ, List.dropWhile_cons_of_neg]
      simp only [decide_eq_true_eq]
      omega
  unfold advance
  rw [Nat.max_self]
  dsimp only
  rw [hkept]

theorem Counts.recordFailure (h : b.Counts tick n) : (b.recordFailure tick).1.Counts tick (n + 1) := by
  unfold Breaker.recordFailure
  rw [h.advance_eq]
  refine ⟨h.window, h.current, h.begun, ?_⟩
  change b.failures ++ [tick] = _
  rw [h.failures, ← List.replicate_succ']

theorem Counts.recordSuccess (h : b.Counts tick n) :
    b.recordSuccess.Counts tick (if b.tripped then n else 0) := by
  unfold Breaker.recordSuccess
  cases b.tripped with
  | true => exact h
  | false => exact ⟨h.window, h.current, h.begun, rfl⟩

/-- A success leaves the limits of a breaker and its tick. -/
theorem recordSuccess_same (b : Breaker) :
    b.recordSuccess.maxFailures = b.maxFailures ∧ b.recordSuccess.windowTicks = b.windowTicks ∧
      b.recordSuccess.currentTick = b.currentTick := by
  unfold Breaker.recordSuccess
  split <;> exact ⟨rfl, rfl, rfl⟩

/-- Two breakers, each at its own tick, stand equally far from tripping: they are the same, or have
nothing but as many failures of the current tick in their windows. -/
inductive Level (b : Breaker) (tick : Nat) : Breaker → Nat → Prop where
  | same : Level b tick b tick
  | counting {b' : Breaker} {tick' n : Nat} : b'.maxFailures = b.maxFailures →
      b'.tripped = b.tripped → b.Counts tick n → b'.Counts tick' n → Level b tick b' tick'

theorem Level.tripped (h : b.Level tick b' tick') : b'.tripped = b.tripped := by
  cases h with
  | same => rfl
  | counting _ htripped _ _ => exact htripped

theorem Level.recordFailure (h : b.Level tick b' tick') :
    (b.recordFailure tick).1.Level tick (b'.recordFailure tick').1 tick' := by
  cases h with
  | same => exact .same
  | counting hlimit htripped hcounts hcounts' =>
    have hlength : b'.failures.length = b.failures.length := by
      rw [hcounts.failures, hcounts'.failures, List.length_replicate, List.length_replicate]
    refine .counting hlimit ?_ hcounts.recordFailure hcounts'.recordFailure
    unfold Breaker.recordFailure
    rw [hcounts.advance_eq, hcounts'.advance_eq]
    dsimp only
    rw [List.length_append, List.length_append, hlength, htripped, hlimit]
    rfl

theorem Level.recordSuccess (h : b.Level tick b' tick') :
    b.recordSuccess.Level tick b'.recordSuccess tick' := by
  cases h with
  | same => exact .same
  | counting hlimit htripped hcounts hcounts' =>
    have hsuccess' := hcounts'.recordSuccess
    rw [htripped] at hsuccess'
    refine .counting ?_ ?_ hcounts.recordSuccess hsuccess'
    · exact b'.recordSuccess_same.1.trans (hlimit.trans b.recordSuccess_same.1.symm)
    · exact tripped_recordSuccess.trans (htripped.trans tripped_recordSuccess.symm)

end Breaker

/-- Two summaries say the same, but each counts its own tick. -/
def TickSummary.SameBut (tick tick' : Nat) (s s' : TickSummary) : Prop :=
  s.tick = tick ∧ s' = { s with tick := tick' }

namespace ControlLoop

/-- What a loop keeps of the states of nodes that are still there is overwritten, and the rest is
forgotten. -/
theorem get?_foldl_states {f : NodeRecord → NodeState} {id : NodeId} {nodes : List NodeRecord}
    {t t' : Table NodeId NodeState} (h : id ∉ nodes.map (·.id) → t.get? id = t'.get? id) :
    (nodes.foldl (fun t n => t.insert n.id (f n)) t).get? id =
      (nodes.foldl (fun t n => t.insert n.id (f n)) t').get? id := by
  induction nodes generalizing t t' with
  | nil => exact h List.not_mem_nil
  | cons n rest ih =>
    refine ih fun hrest => ?_
    by_cases heq : id = n.id
    · rw [heq, Table.get?_insert_self, Table.get?_insert_self]
    · rw [Table.get?_insert_of_ne heq, Table.get?_insert_of_ne heq]
      refine h fun hmem => ?_
      rcases List.mem_cons.mp hmem with hid | hid
      · exact heq hid
      · exact hrest hid

/-- Once it has taken note of the nodes that were read, a loop is what it would be with any other
states remembered. -/
theorem takeIn_states (l : ControlLoop) (states : Table NodeId NodeState) (nodes : List NodeRecord)
    (now : Nat) : ({ l with states } : ControlLoop).takeIn nodes now = l.takeIn nodes now := by
  have hstates : (({ l with states } : ControlLoop).observe nodes).states =
      (l.observe nodes).states := by
    refine Table.ext_get? fun id => get?_foldl_states fun hgone => ?_
    have hdropped : ∀ t : Table NodeId NodeState,
        (t.filter (fun id _ => (nodes.map (·.id)).contains id)).get? id = none := by
      intro t
      rw [Table.get?_filter, Option.filter_eq_none_iff]
      intro state _
      simpa using hgone
    exact (hdropped states).trans (hdropped l.states).symm
  have hobserve : ({ l with states } : ControlLoop).observe nodes = l.observe nodes := by
    change { l.observe nodes with
      states := (({ l with states } : ControlLoop).observe nodes).states } = l.observe nodes
    rw [hstates]
  unfold takeIn
  rw [hobserve]

/-- Two loops hold the same but for what they have counted and published, and but for the states that
they remember, unless these are `observed`. -/
structure Renews (observed : Prop) (l l' : ControlLoop) : Prop where
  twin : l.Twin { l' with states := l.states }
  states : observed → l'.states = l.states
  breaker : l.breaker.Level l.ticks l'.breaker l'.ticks

variable {observed : Prop} {l l' : ControlLoop} {tick tick' : Nat} {s s' : TickSummary}

namespace Renews

/-- Loops whose states are observed decide alike. -/
theorem decides (h : Renews True l l') : l.Twin l' := by
  have htwin := h.twin
  rw [← h.states trivial] at htwin
  exact htwin

theorem of_twin (h : l.Twin l') (hbreaker : l.breaker.Level l.ticks l'.breaker l'.ticks) :
    Renews True l l' := by
  have hstates := h.states
  exact ⟨{ h with states := rfl }, fun _ => hstates, hbreaker⟩

theorem complete (h : Renews observed l l') (ended ended' : List (NodeId × UpdaterEnd)) :
    Renews observed (l.complete ended) (l'.complete ended') :=
  ⟨h.twin.complete ended ended', h.states, h.breaker⟩

/-- To take note of the nodes that were read settles all that was remembered. -/
theorem takeIn (h : Renews False l l') (nodes : List NodeRecord) (now : Nat) :
    Renews True (l.takeIn nodes now) (l'.takeIn nodes now) := by
  have htwin := h.twin.takeIn nodes now
  rw [takeIn_states l'] at htwin
  exact of_twin htwin h.breaker

/-- A failure that both count. -/
theorem countFailure (h : Renews True l l') (hs : s.SameBut tick tick' s') :
    (ControlLoop.countFailure (s, l)).1.SameBut tick tick' (ControlLoop.countFailure (s', l')).1 ∧
      Renews True (ControlLoop.countFailure (s, l)).2 (ControlLoop.countFailure (s', l')).2 := by
  obtain ⟨htick, rfl⟩ := hs
  exact ⟨⟨htick, rfl⟩, of_twin { h.decides with } h.breaker.recordFailure⟩

theorem countLaunched (n : Nat) (h : Renews True l l') (hs : s.SameBut tick tick' s') :
    (ControlLoop.countLaunched n (s, l)).1.SameBut tick tick'
        (ControlLoop.countLaunched n (s', l')).1 ∧
      Renews True (ControlLoop.countLaunched n (s, l)).2 (ControlLoop.countLaunched n (s', l')).2 := by
  obtain ⟨htick, rfl⟩ := hs
  unfold ControlLoop.countLaunched
  dsimp only
  split
  · exact ⟨⟨htick, rfl⟩, h⟩
  · exact ⟨⟨htick, rfl⟩, of_twin { h.decides with } h.breaker.recordSuccess⟩

theorem mergeLaunch (ended : LaunchEnd) (h : Renews True l l') (hs : s.SameBut tick tick' s') :
    (ControlLoop.mergeLaunch (s, l) ended).1.SameBut tick tick'
        (ControlLoop.mergeLaunch (s', l') ended).1 ∧
      Renews True (ControlLoop.mergeLaunch (s, l) ended).2
        (ControlLoop.mergeLaunch (s', l') ended).2 := by
  cases ended with
  | panicked => exact h.countFailure hs
  | reported report =>
    have hlaunched := h.countLaunched report.launched hs
    unfold ControlLoop.mergeLaunch
    dsimp only
    split
    · exact hlaunched.2.countFailure hlaunched.1
    · exact hlaunched

/-- Both order the same of every type. -/
theorem launchOrder? (h : Renews True l l') : l'.launchOrder? = l.launchOrder? := by
  funext nodeType count
  unfold ControlLoop.launchOrder? launchTags
  rw [h.decides.config, h.decides.hashes]

end Renews

end ControlLoop

end ClusterScaler
