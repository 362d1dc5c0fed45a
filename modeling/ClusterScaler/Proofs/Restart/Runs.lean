import ClusterScaler.Proofs.Exclusion.Instants
import ClusterScaler.Proofs.Hashing.Separation
import ClusterScaler.Proofs.Restart.Settled

/-!
# Restarts

In every run the breaker has the limits of the configuration, so a loop that comes to rest with
nothing in hand ticks like a new one. Only the hashes are not derived again from tick to tick. They
are those of the mounts when the configuration was taken over.
-/

set_option autoImplicit false

namespace ClusterScaler

open Program

namespace Instant

/-- A new loop rests before its first tick, and no updater has been sent out yet. -/
def Founded (i : Instant) : Prop :=
  ∃ files config l, ControlLoop.Fresh files config l ∧ i.activity = .resting l ∧
    ∀ n, i.simulation.flights n = 0

/-- An instant that a run from a new loop can come to. -/
def Arises (i : Instant) : Prop := ∃ start, Founded start ∧ Steps start i

theorem Arises.tail {i j : Instant} (h : Arises i) (hstep : Step i j) : Arises j := by
  obtain ⟨start, hstart, hsteps⟩ := h
  exact ⟨start, hstart, hsteps.tail hstep⟩

/-- The loop is tuned to its configuration, at rest or all through the tick under way. -/
def Tuned : Instant → Prop
  | ⟨.resting l, _⟩ => l.Tuned
  | ⟨.ticking _ rest, _⟩ =>
    rest.Meets (Standing.protocol ControlLoop.Tuned fun _ => True) (fun r _ => r.2.Tuned) ()

theorem Tuned.step {i j : Instant} (h : Tuned i) (hstep : Step i j) : Tuned j := by
  cases hstep with
  | scene a s scene => cases a <;> exact h
  | @job a s job others hperm => cases a <;> exact h
  | tickBegins l s files now time =>
    exact ControlLoop.standing_tuned.tick files now time (ControlLoop.Tuned.beginTick h files)
  | answer answered l r next s reply => exact h.2 _ () trivial
  | dispatch answered l u next s => exact h.2 _ () trivial
  | abandon answered l nodes next s => exact h.2 _ () trivial
  | launch answered l order next s => exact h.2 _ () trivial
  | launchEnds answered l next s ended launchEnds => exact h.2 _ () trivial
  | tickEnds answered result l s => exact h
  | cut answered a next s => exact h.1.1
  | noteEnds l s => exact ⟨h.limit, h.window, h.current⟩
  | feeds l s feeds => exact ⟨h.limit, h.window, h.current⟩
  | obey l s files command => exact ControlLoop.Tuned.obey h files command
  | drain l time hnone => exact ⟨h.limit, h.window, h.current⟩
  | stop l s => exact ⟨h.limit, h.window, h.current⟩

theorem Founded.tuned {i : Instant} (h : Founded i) : Tuned i := by
  obtain ⟨activity, s⟩ := i
  obtain ⟨files, config, _, ⟨l, retry, pollInterval, grace, hnew, rfl⟩, rfl, -⟩ := h
  obtain ⟨-, rfl, hbreaker, -⟩ := ControlLoop.new_eq_ok hnew
  have htuned : l.Tuned := by
    refine ⟨?_, ?_, ?_⟩
    · rw [hbreaker]
      rfl
    · rw [hbreaker]
      exact Nat.lt_of_lt_of_le Nat.zero_lt_one (Nat.le_max_right _ 1)
    · rw [hbreaker]
      exact Nat.zero_le _
  exact ⟨htuned.limit, htuned.window, htuned.current⟩

theorem Founded.of_new {files : FileStore} {config : ClusterConfig} {l : ControlLoop}
    {s : Simulation} (hnew : ControlLoop.new files config = .ok l) (hnone : ∀ n, s.flights n = 0) :
    Founded ⟨.resting l, s⟩ :=
  ⟨files, config, l, ControlLoop.fresh_of_new hnew, rfl, hnone⟩

theorem Arises.tuned {i : Instant} (h : Arises i) : Tuned i := by
  obtain ⟨start, hstart, hsteps⟩ := h
  induction hsteps with
  | refl => exact hstart.tuned
  | tail _ hstep ih => exact ih.step hstep

end Instant

/-- Restarts go unnoticed. In every run a settled loop that has the hashes of its mounts ticks like
the loop that is new with its configuration and settings: they ask the same, come to the same result
but for the number of the tick, and to the same states of nodes if they succeed, as long as the same
is answered. And whatever states of nodes a loop remembers, it ticks like the same loop with
others. -/
theorem restarts_unnoticed :
    (∀ (l : ControlLoop) s files, Instant.Arises ⟨.resting l, s⟩ → l.Settled →
      hashesFor files l.config = .ok l.hashes →
        ∃ fresh, ControlLoop.new files l.config = .ok fresh ∧
          ∀ now time trace trace' result result' after after',
            Runs ((tick files now time).run l) trace (result, after) →
              Runs ((tick files now time).run (fresh.equippedLike l)) trace' (result', after') →
                AnsweredTheSame trace trace' →
                  dialogueOf trace = dialogueOf trace' ∧
                    Tick.Agree (fun s s' => s' = { s with tick := s'.tick }) result result' ∧
                      (result.isOk = true → after'.states = after.states)) ∧
    (∀ (l : ControlLoop) states files now time trace trace' result result' after after',
      Runs ((tick files now time).run l) trace (result, after) →
        Runs ((tick files now time).run { l with states }) trace' (result', after') →
          AnsweredTheSame trace trace' →
            dialogueOf trace = dialogueOf trace' ∧ Tick.Agree (· = ·) result result' ∧
              (result.isOk = true → after'.states = after.states)) := by
  constructor
  · intro l s files harises hsettled hhashes
    obtain ⟨fresh, hnew, hfresh, hrenews⟩ := hsettled.renews harises.tuned hhashes
    refine ⟨fresh, hnew, ?_⟩
    intro now time trace trace' result result' after after' hrun hrun' hsame
    exact Tick.settled_like_new hsettled hfresh (hrenews now time) hrun hrun' hsame
  · intro l states files now time trace trace' result result' after after' hrun hrun' hsame
    exact Tick.states_unheeded hrun hrun' hsame

/-- Where every question has its one answer, the same is answered. -/
theorem answeredTheSame_of_answers (answers : (q : Question) → q.Reply)
    {trace trace' : List TickExchange} (h : ∀ x ∈ trace, x.reply = answers x.op.question)
    (h' : ∀ x ∈ trace', x.reply = answers x.op.question) : AnsweredTheSame trace trace' := by
  have hanswer : ∀ {trace : List TickExchange}, (∀ x ∈ trace, x.reply = answers x.op.question) →
      ∀ (before : List Said) (q : Question) a, before ++ [⟨q, a⟩] <+: dialogueOf trace →
        a = q.answer (answers q) := by
    intro trace h before q a hprefix
    have hmem : (⟨q, a⟩ : Said) ∈ dialogueOf trace := hprefix.subset (by simp)
    obtain ⟨⟨⟨l, q'⟩, reply⟩, hx, hsaid⟩ := List.mem_map.mp hmem
    have hreply : reply = answers q' := h _ hx
    cases hsaid
    rw [hreply]
  intro before q a a' hprefix hprefix'
  rw [hanswer h before q a hprefix, hanswer h' before q a' hprefix']

theorem exists_runs_answers (answers : (q : Question) → q.Reply) (rest : TickRest) :
    ∃ trace result after, Runs rest trace (result, after) ∧
      ∀ x ∈ trace, x.reply = answers x.op.question := by
  obtain ⟨hrun, hanswers⟩ := runs_replay (fun a : TickAsk => answers a.question) rest
  exact ⟨_, _, _, hrun, hanswers⟩

/-- With an answer for every question, and no updater that ends meanwhile, a tick can go on to its
end. -/
theorem Instant.exists_steps_replay (answers : (q : Question) → q.Reply)
    (hrequest : ∀ r, (answers (.request r)).ended = []) (hawait : (answers .awaitLaunch).ended = [])
    (rest : TickRest) (answered : List Question) {s : Simulation} (hends : s.updaterEnds = []) :
    ∃ s', Steps ⟨.ticking answered rest, s⟩
      ⟨.resting (rest.replay (fun a : TickAsk => answers a.question)).2.2, s'⟩ := by
  induction rest generalizing answered s with
  | done r => exact ⟨s, .single (.tickEnds answered r.1 r.2 s)⟩
  | ask a next ih =>
    obtain ⟨l, q⟩ := a
    cases q with
    | request r =>
      have hreply : (s.deliver (answers (.request r)).answer).1 = answers (.request r) := by
        unfold Simulation.deliver Simulation.takeEnds
        rw [hends, List.map_nil, ← hrequest r]
      have hstep := Step.answer answered l r next s (answers (.request r)).answer
      rw [hreply] at hstep
      have hkept : (s.deliver (answers (.request r)).answer).2.updaterEnds = [] := rfl
      obtain ⟨s', hsteps⟩ := ih (answers (.request r)) (answered ++ [.request r]) hkept
      exact ⟨s', .head hstep hsteps⟩
    | dispatch u =>
      have hkept : (s.add (.startUpdate u)).updaterEnds = [] := hends
      obtain ⟨s', hsteps⟩ := ih (answers (.dispatch u)) (answered ++ [.dispatch u]) hkept
      exact ⟨s', .head (.dispatch answered l u next s) hsteps⟩
    | abandon nodes =>
      have hkept : (s.dropUpdaters nodes).updaterEnds = [] := by
        change List.filter _ s.updaterEnds = []
        rw [hends]
        rfl
      obtain ⟨s', hsteps⟩ := ih (answers (.abandon nodes)) (answered ++ [.abandon nodes]) hkept
      exact ⟨s', .head (.abandon answered l nodes next s) hsteps⟩
    | launch order =>
      have hkept : (s.add (.startLaunch order)).updaterEnds = [] := hends
      obtain ⟨s', hsteps⟩ := ih (answers (.launch order)) (answered ++ [.launch order]) hkept
      exact ⟨s', .head (.launch answered l order next s) hsteps⟩
    | awaitLaunch =>
      have hreply : (({ s with launchEnds := [] } : Simulation).deliver
          (answers .awaitLaunch).answer).1 = answers .awaitLaunch := by
        unfold Simulation.deliver Simulation.takeEnds
        dsimp only
        rw [hends, List.map_nil, ← hawait]
      have hstep := Step.launchEnds answered l next s (answers .awaitLaunch).answer []
      rw [hreply] at hstep
      have hkept : (({ s with launchEnds := [] } : Simulation).deliver
          (answers .awaitLaunch).answer).2.updaterEnds = [] := rfl
      obtain ⟨s', hsteps⟩ := ih (answers .awaitLaunch) (answered ++ [.awaitLaunch]) hkept
      exact ⟨s', .head hstep hsteps⟩

/-- The answers of a provider that has one running node with these tags. -/
def Question.ofNode (tags : Tags) : (q : Question) → q.Reply
  | .request (.listNodes _) => ⟨.ok [⟨"a"⟩], []⟩
  | .request (.nodeTags _) => ⟨.ok tags, []⟩
  | q => q.succeed

theorem Question.ended_ofNode (tags : Tags) (r : Request) :
    (Question.ofNode tags (.request r)).ended = [] := by
  cases r <;> rfl

/-- A tick in which the provider has one running node with these tags. -/
def ControlLoop.tickWithNode (l : ControlLoop) (files : FileStore) (tags : Tags) :
    List TickExchange × Except LoopError TickSummary × ControlLoop :=
  ((tick files 0 ⟨0⟩).run l).replay (fun a : TickAsk => a.question.ofNode tags)

/-- The loop after a tick in which the provider has one running node without tags. -/
def ControlLoop.afterUntagged (l : ControlLoop) : ControlLoop := (l.tickWithNode .empty ∅).2.2

/-- A loop that remembers a node that it removed ticks like a new one, and like the same loop without
memories. -/
theorem restarts_unnoticed_removed :
    ∃ (l fresh : ControlLoop) (s : Simulation) (trace trace' trace'' : List TickExchange),
      Instant.Arises ⟨.resting l, s⟩ ∧ l.Settled ∧ hashesFor .empty l.config = .ok l.hashes ∧
        l.states.get? ⟨"a"⟩ = some .removed ∧ ControlLoop.new .empty l.config = .ok fresh ∧
          (∃ r, Runs ((tick .empty 0 ⟨0⟩).run l) trace r) ∧
            (∃ r, Runs ((tick .empty 0 ⟨0⟩).run (fresh.equippedLike l)) trace' r) ∧
              (∃ r, Runs ((tick .empty 0 ⟨0⟩).run { l with states := ∅ }) trace'' r) ∧
                AnsweredTheSame trace trace' ∧ AnsweredTheSame trace trace'' ∧
                  dialogueOf trace = dialogueOf trace' ∧ dialogueOf trace = dialogueOf trace'' := by
  have hlast : ((ControlLoop.new .empty (ControlLoop.ofHeadType { maxWorkers := 1 }).config).toOption.map
      fun l => decide (l.Settled ∧ (l.afterUntagged).Settled ∧
        (l.afterUntagged).states.get? ⟨"a"⟩ = some .removed)) = some true := by
    decide +kernel
  cases hnew : ControlLoop.new .empty (ControlLoop.ofHeadType { maxWorkers := 1 }).config with
  | error e =>
    rw [hnew] at hlast
    cases hlast
  | ok first =>
    rw [hnew] at hlast
    obtain ⟨hfirst, hsettled, hstates⟩ := of_decide_eq_true (Option.some.inj hlast)
    obtain ⟨hrestarts, hmemories⟩ := restarts_unnoticed
    -- the first tick removes the node, which has no tags
    obtain ⟨s, hsteps⟩ := Instant.exists_steps_replay (Question.ofNode ∅) (Question.ended_ofNode ∅) rfl
      ((tick .empty 0 ⟨0⟩).run first) [] (s := { world := ⟨.inMemory {}, .empty, {}⟩ }) rfl
    have harises : Instant.Arises ⟨.resting (first.afterUntagged), s⟩ :=
      ⟨_, .of_new hnew (fun _ => rfl), .head (.tickBegins first _ .empty 0 ⟨0⟩) hsteps⟩
    obtain ⟨hconfig, hhashes⟩ := Tick.configured_of_runs hfirst
      (runs_replay (fun a : TickAsk => a.question.ofNode ∅) ((tick .empty 0 ⟨0⟩).run first)).1
    change (first.afterUntagged).config = first.config at hconfig
    change (first.afterUntagged).hashes = first.hashes at hhashes
    obtain ⟨hfirsthashes, hfirstconfig, -, -⟩ := ControlLoop.new_eq_ok hnew
    rw [← hfirstconfig, ← hconfig, ← hhashes] at hfirsthashes
    obtain ⟨fresh, hfresh, hticks⟩ :=
      hrestarts (first.afterUntagged) s .empty harises hsettled hfirsthashes
    -- in the second one every call succeeds, and lists no nodes
    obtain ⟨trace, result, after, hrun, hanswers⟩ := exists_runs_answers Question.succeed
      ((tick .empty 0 ⟨0⟩).run (first.afterUntagged))
    obtain ⟨trace', result', after', hrun', hanswers'⟩ := exists_runs_answers Question.succeed
      ((tick .empty 0 ⟨0⟩).run (fresh.equippedLike (first.afterUntagged)))
    obtain ⟨trace'', result'', after'', hrun'', hanswers''⟩ := exists_runs_answers Question.succeed
      ((tick .empty 0 ⟨0⟩).run { first.afterUntagged with states := ∅ })
    have hsame := answeredTheSame_of_answers Question.succeed hanswers hanswers'
    have hsame' := answeredTheSame_of_answers Question.succeed hanswers hanswers''
    refine ⟨first.afterUntagged, fresh, s, trace, trace', trace'', harises, hsettled, hfirsthashes,
      hstates, hfresh, ⟨_, hrun⟩, ⟨_, hrun'⟩, ⟨_, hrun''⟩, hsame, hsame', ?_, ?_⟩
    · exact (hticks 0 ⟨0⟩ trace trace' result result' after after' hrun hrun' hsame).1
    · exact (hmemories _ ∅ .empty 0 ⟨0⟩ trace trace'' result result'' after after'' hrun hrun''
        hsame').1

/-- Files with one of this content. -/
def FileStore.holding (content : String) : FileStore := .ofEntries [("app", .file content.toUTF8)]

/-- A cluster with a head type only, and that file mounted. -/
def ClusterConfig.mounting : ClusterConfig :=
  { (ControlLoop.ofHeadType { maxWorkers := 1 }).config with
    fileMounts := FilesHash.oneMount "app" }

/-- The new loop of that cluster while the file has this content. -/
def ControlLoop.ofContent (content : String) : ControlLoop :=
  { ControlLoop.ofHeadType { maxWorkers := 1 } with
    config := .mounting
    hashes := Table.ofList [("head",
      ⟨(LaunchConfig.mk "head" [] ∅ ClusterConfig.mounting.auth).hash,
        ⟨Sha256.hex (FilesHash.digested [("/srv/app", .file content.toUTF8)] [])⟩⟩)]
    retry := { maxRetries := ClusterConfig.mounting.tunables.providerMaxRetries } }

theorem FilesHash.sources_holding (content : String) :
    sources (.holding content) (oneMount "app") =
      .ok [("/srv/app", .file content.toUTF8)] := by
  cbv

theorem ControlLoop.new_mounting (content : String) :
    ControlLoop.new (.holding content) .mounting = .ok (.ofContent content) := by
  have hcompute : FilesHash.compute (.holding content)
      (ClusterConfig.mounting.fileMountsFor "head") (Bootstrap.recipe .mounting "head") = _ :=
    FilesHash.compute_eq (FilesHash.sources_holding content) []
  have hhashes : hashesFor (.holding content) .mounting =
      .ok (ControlLoop.ofContent content).hashes := by
    unfold hashesFor
    change (do
      let es ← List.mapM _ [("head", ({ maxWorkers := 1 } : NodeTypeConfig))]
      return Table.ofList es) = _
    rw [List.mapM_cons, List.mapM_nil]
    unfold hashesOf
    dsimp only
    rw [hcompute]
    rfl
  unfold ControlLoop.new
  rw [hhashes]
  rfl

/-- The tags of a head node that has both hashes of a loop. -/
def ControlLoop.headTags (l : ControlLoop) : Tags :=
  match l.hashes.get? "head" with
  | some h =>
    Table.ofList [(Tags.nodeType, "head"), (Tags.launchConfig, h.launch.hex),
      (Tags.fileSync, h.files.hex)]
  | none => ∅

/-- Once the mounted file has changed, a restart is noticed: the loop that has rested since takes its
node to be up to date, and the new one sends an updater to it. -/
theorem restart_noticed_remounted :
    ∃ (l fresh : ControlLoop) (s : Simulation) (trace trace' : List TickExchange),
      Instant.Arises ⟨.resting l, s⟩ ∧ l.Settled ∧
        ControlLoop.new (.holding "2") l.config = .ok fresh ∧
          (∃ r, Runs ((tick (.holding "2") 0 ⟨0⟩).run l) trace r) ∧
            (∃ r, Runs ((tick (.holding "2") 0 ⟨0⟩).run (fresh.equippedLike l)) trace' r) ∧
              AnsweredTheSame trace trace' ∧ (updatesOf trace).length = 0 ∧
                (updatesOf trace').length = 1 := by
  have hupdates :
      (updatesOf ((ControlLoop.ofContent "1").tickWithNode (.holding "2")
        (ControlLoop.ofContent "1").headTags).1).length = 0 ∧
      (updatesOf (((ControlLoop.ofContent "2").equippedLike (.ofContent "1")).tickWithNode
        (.holding "2") (ControlLoop.ofContent "1").headTags).1).length = 1 := by
    decide +kernel
  obtain ⟨hrun, hanswers⟩ := runs_replay
    (fun a : TickAsk => a.question.ofNode (ControlLoop.ofContent "1").headTags)
    ((tick (.holding "2") 0 ⟨0⟩).run (.ofContent "1"))
  obtain ⟨hrun', hanswers'⟩ := runs_replay
    (fun a : TickAsk => a.question.ofNode (ControlLoop.ofContent "1").headTags)
    ((tick (.holding "2") 0 ⟨0⟩).run ((ControlLoop.ofContent "2").equippedLike (.ofContent "1")))
  refine ⟨.ofContent "1", .ofContent "2", { world := ⟨.inMemory {}, .empty, {}⟩ }, _, _, ?_, ?_,
    ControlLoop.new_mounting "2", ⟨_, hrun⟩, ⟨_, hrun'⟩, ?_, hupdates.1, hupdates.2⟩
  · exact ⟨_, .of_new (ControlLoop.new_mounting "1") (fun _ => rfl), .refl⟩
  · exact ⟨rfl, rfl, rfl, rfl, rfl, rfl⟩
  · exact answeredTheSame_of_answers (Question.ofNode (ControlLoop.ofContent "1").headTags)
      hanswers hanswers'

end ClusterScaler
