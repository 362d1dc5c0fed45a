import ClusterScaler.Proofs.Api.Feeding
import ClusterScaler.Proofs.Tick.Unread

/-!
# How ticks tend to the feeds

A tick takes all commands when it begins. From then on it drops the records of nodes that are gone,
starts records for nodes that are ready, and at its end publishes a status; the demand is only read.
So wherever a tick stands, it has tended to the feeds that it began with, and a history of the feeds
goes on through it.
-/

set_option autoImplicit false

namespace ClusterScaler

open Program TickM

namespace LoadStore.Tended

variable {s s' s'' : LoadStore Float}

theorem refl (s : LoadStore Float) : s.Tended s := fun _ _ => .inl

theorem trans (h : s.Tended s') (h' : s'.Tended s'') : s.Tended s'' := by
  intro node load hget
  obtain hold | hfresh := h' node load hget
  · exact h node load hold
  · exact .inr hfresh

/-- A record whose clock was started if there was none is an old one or has no usage. -/
theorem seeded {node : NodeId} {load : NodeLoad Float} {now : Nat}
    (h : some ((s.get? node).getD (NodeLoad.seeded now)) = some load) :
    s.get? node = some load ∨ load.used = ∅ ∧ load.available = ∅ := by
  cases hold : s.get? node with
  | none =>
    rw [hold] at h
    cases h
    exact .inr ⟨rfl, rfl⟩
  | some old =>
    rw [hold] at h
    exact .inl h

theorem markActive (s : LoadStore Float) (id : NodeId) (now : Nat) :
    s.Tended (s.markActive id now) := by
  intro node load hget
  rw [get?_markActive] at hget
  split at hget
  · exact seeded hget
  · exact .inl hget

theorem of_imp (h : ∀ node load, s'.get? node = some load → s.get? node = some load) :
    s.Tended s' :=
  fun node load hget => .inl (h node load hget)

theorem foldl {α : Type} {f : LoadStore Float → α → LoadStore Float}
    (hf : ∀ (s : LoadStore Float) (a : α), s.Tended (f s a)) (xs : List α) (s : LoadStore Float) :
    s.Tended (xs.foldl f s) := by
  induction xs generalizing s with
  | nil => exact refl s
  | cons a rest ih => exact (hf s a).trans (ih _)

theorem takeIn (l : ControlLoop) (nodes : List NodeRecord) (now : Nat) :
    l.loads.Tended (l.takeIn nodes now).loads := by
  have hpruned : l.loads.Tended (l.loads.prune (nodes.map (·.id))).1 := by
    refine of_imp fun node load hget => ?_
    rw [get?_prune] at hget
    split at hget
    · exact hget
    · cases hget
  refine hpruned.trans (foldl ?_ nodes _)
  intro s n
  split
  · exact markActive s _ _
  · exact refl s

theorem removeAll (l : ControlLoop) (gone : List NodeId) :
    l.loads.Tended (l.removeAll gone).loads := by
  refine of_imp fun node load hget => ?_
  have hget : (gone.foldl LoadStore.remove l.loads).get? node = some load := hget
  rw [get?_foldl_remove] at hget
  split at hget
  · cases hget
  · exact hget

theorem mergeUpdates (l : ControlLoop) (now : Nat) (time : Duration) (sum : TickSummary) :
    l.loads.Tended (l.mergeUpdates now time sum).2.loads := by
  intro node load hget
  obtain ⟨hsuccess, hnone⟩ := ControlLoop.get?_loads_mergeUpdates l sum
  by_cases hmerges : l.MergesSuccess time node
  · rw [hsuccess hmerges] at hget
    exact seeded hget
  · rw [hnone hmerges] at hget
    exact .inl hget

end LoadStore.Tended

namespace Feeds.Tended

variable {n : Nat} {f : Feeds} {l l' : ControlLoop}

/-- What is tended to further stays so. -/
theorem next (h : f.Tended n l.toFeeds) (hdemand : l'.demand = l.demand)
    (hcommands : l'.commands = l.commands) (hloads : l.loads.Tended l'.loads) :
    f.Tended n l'.toFeeds where
  demand := hdemand.trans h.demand
  commands := hcommands.trans h.commands
  loads := h.loads.trans hloads

theorem beginTick (l : ControlLoop) (files : FileStore) :
    l.toFeeds.Tended l.commands.length (l.beginTick files).toFeeds where
  demand := by
    refine l.beginTick_induct files (motive := fun l' => l'.demand = l.demand) rfl ?_
    intro l' h c _
    refine Eq.trans ?_ h
    rcases l'.obey_cases files c with heq | ⟨-, heq⟩ | ⟨_, _, -, -, -, heq⟩
    · rw [heq]
    · rw [heq]
      rfl
    · rw [heq]
  commands := (l.commands_beginTick files).trans List.drop_length.symm
  loads := .of_imp fun _ _ hget => (ControlLoop.get?_loads_beginTick l files).symm.trans hget

theorem begun (l : ControlLoop) (files : FileStore) (now : Nat) (time : Duration) :
    l.toFeeds.Tended l.commands.length (l.begun files now time).2.toFeeds := by
  obtain ⟨_, _, _, _, heq⟩ := l.begun_eq files now time
  refine (beginTick l files).next ?_ ?_ (.mergeUpdates _ now time _)
  · rw [heq]
  · rw [heq]

/-- What the ends of launches change are no feeds. -/
theorem mergeLaunch (h : f.Tended n l.toFeeds) (sum : TickSummary) (ended : LaunchEnd) :
    f.Tended n (ControlLoop.mergeLaunch (sum, l) ended).2.toFeeds := by
  obtain ⟨launched, breaker, hmerged⟩ := ControlLoop.mergeLaunch_eq sum l ended
  rw [hmerged]
  exact h

/-- No answer that a loop takes in changes its feeds. -/
theorem kept (f : Feeds) (n : Nat) (q : Question) :
    q.Kept (asking fun a => f.Tended n a.loop.toFeeds) (fun l _ => f.Tended n l.toFeeds) :=
  @Tick.kept_asking (fun l => f.Tended n l.toFeeds) (fun _ _ h => h) q

theorem toLaunches (l : ControlLoop) (files : FileStore) (now : Nat) (time : Duration) :
    (Tick.toLaunches files now time).Meets
      (asking fun a => l.toFeeds.Tended l.commands.length a.loop.toFeeds)
      (fun _ l' _ => l.toFeeds.Tended l.commands.length l'.toFeeds) l () :=
  Tick.frame_toLaunches (fun _ _ => kept _ _ _) (fun _ => kept _ _ _)
    (fun l' _ nodes h => h.next rfl rfl (.takeIn l' nodes now)) (fun _ _ _ h => h)
    (fun l' _ doomed h => h.next rfl rfl (.removeAll l' doomed)) (fun _ _ _ h => h)
    (beginTick l files) (fun _ _ _ => begun l files now time)

theorem fromLaunches (h : f.Tended n l.toFeeds) (now : Nat) (time : Duration) (m : Tick.Midway) :
    (Tick.fromLaunches now time m).Meets (asking fun a => f.Tended n a.loop.toFeeds)
      (fun _ l' _ => f.Tended n l'.toFeeds) l () := by
  unfold Tick.fromLaunches
  rw [TickM.meets_bind]
  refine (Tick.frame_launchUnlessTripped (fun _ _ _ _ h => ⟨h, fun _ _ _ => h⟩) (kept _ _ _)
    (fun _ _ sum ended h => h.mergeLaunch sum ended) m.summary h).mono ?_
  intro sum l' _ h'
  rw [TickM.meets_bind]
  refine (Tick.frame_dispatchAll (fun _ _ => kept _ _ _) ?_ time _ none sum h').mono ?_
  · intro _ _ _ _ _ _ _ _ _ _ _ _ _ h _
    exact ⟨h, fun _ _ _ => h⟩
  · intro sum' l'' _ h''
    dsimp only
    rw [TickM.meets_bind, TickM.meets_modify]
    exact h''.next rfl rfl (.refl _)

/-- Wherever a tick stands, it has tended to the feeds that it began with. -/
theorem tick (l : ControlLoop) (files : FileStore) (now : Nat) (time : Duration) :
    (ClusterScaler.tick files now time).Meets
      (asking fun a => l.toFeeds.Tended l.commands.length a.loop.toFeeds)
      (fun _ l' _ => l.toFeeds.Tended l.commands.length l'.toFeeds) l () := by
  rw [Tick.toLaunches_pass, TickM.meets_bind]
  refine (toLaunches l files now time).mono ?_
  intro result l' _ h
  cases result with
  | error e => exact h
  | ok m =>
    unfold Tick.pass
    rw [TickM.meets_bind]
    exact (h.fromLaunches now time m).mono fun _ _ _ h' => h'

end Feeds.Tended

namespace Api

/-- A history of the feeds goes on through a tick, however far the tick has come: it has taken all
commands that waited. -/
theorem Feeding.tick {served : List Served} {taken : List ControlCommand} {l : ControlLoop}
    (h : Feeding served taken l.toFeeds) {files : FileStore} {now : Nat} {time : Duration}
    {trace : List TickExchange}
    {left : Program TickAsk TickAsk.Reply (Except LoopError TickSummary × ControlLoop)}
    (hbegins : Begins ((ClusterScaler.tick files now time).run l) trace left) :
    Feeding served (taken ++ l.commands) (Tick.standing left).toFeeds := by
  have htended : l.toFeeds.Tended l.commands.length (Tick.standing left).toFeeds :=
    @Tick.holds_standing _ (fun l' => l.toFeeds.Tended l.commands.length l'.toFeeds) _ _ _ _
      (Feeds.Tended.tick l files now time) hbegins
  have hhistory := h.tend htended
  rwa [List.take_length] at hhistory

end Api

end ClusterScaler
