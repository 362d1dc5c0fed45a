import ClusterScaler.Proofs.Service.Steps

/-!
# What an update asks for

An update asks for nothing that makes or terminates nodes, and writes tags of its own node only:
the status as it goes on, and the files hash at its very end. Once the files hash is written, the
update has succeeded, and it succeeds in no other way.
-/

set_option autoImplicit false

namespace ClusterScaler

open Program

/-- A request with which an update lets time pass or waits for its node to run. -/
def Request.waits : Request → Bool
  | .isRunning _ | .isTerminated _ | .pause _ => true
  | _ => false

/-- The mounts that a request copies, from a local path to a remote one. -/
def Request.copied : Request → List (String × String)
  | .sync _ source target => [(target, source)]
  | _ => []

namespace Protocol

variable {σ α : Type}

/-- Wherever something holds, a protocol permits a request, and it holds after every answer. -/
def Keeps (P : Protocol Request Request.Reply σ) (I : σ → Prop) (r : Request) : Prop :=
  ∀ s, I s → P.permits s r ∧ ∀ reply s', P.follows s r reply s' → I s'

/-- Wherever something holds, a protocol permits all requests of a step, and it holds throughout. -/
def Stays (P : Protocol Request Request.Reply σ) (I : σ → Prop) (step : Routine α) : Prop :=
  ∀ s, I s → step.Meets P (fun _ s' => I s') s

end Protocol

namespace Update

variable (u : Update)

/-- The tags of a node that was brought up to date. -/
def finalTags : Tags :=
  .ofList [(Tags.fileSync, u.request.targetHash.hex),
    (Tags.nodeStatus, BootstrapStatus.upToDate.text)]

/-- A request on the way: it leaves the nodes and the files hash alone. -/
structure Minor (r : Request) : Prop where
  creates : r.createsNodes = false
  terminates : r.terminates = false
  tags : ∀ node tags, r = .setNodeTags node tags →
    node = u.request.node ∧ ∀ key, key ≠ Tags.nodeStatus → tags.get? key = none

/-- Whether an answer says that the final tags have been written. -/
def completes : (r : Request) → r.Reply → Bool
  | .setNodeTags _ tags, .ok () => decide (tags = u.finalTags)
  | _, _ => false

/-- What an update may ask for; what is watched is whether the final tags have been written. -/
def upkeep : Protocol Request Request.Reply Bool where
  permits written r := written = false ∧ (u.Minor r ∨ r = .setNodeTags u.request.node u.finalTags)
  follows _ r reply written' := written' = u.completes r reply

/-- An update that is on its way and has not written the final tags; it will succeed exactly if it
comes to write them. -/
def OnItsWay (rest : Routine UpdateResult) : Prop :=
  rest.Meets u.upkeep (fun result written => result.isOk = written) false

variable {u : Update}

theorem finalTags_get?_fileSync : u.finalTags.get? Tags.fileSync = some u.request.targetHash.hex := by
  have hne : Tags.fileSync ≠ Tags.nodeStatus := by decide
  exact (Table.get?_insert_of_ne hne).trans Table.get?_insert_self

theorem finalTags_get?_of_not_progress {key : String} (h : ¬ Tags.IsProgress key) :
    u.finalTags.get? key = none := by
  have hstatus : key ≠ Tags.nodeStatus := fun heq => h (.inl heq)
  have hfiles : key ≠ Tags.fileSync := fun heq => h (.inr heq)
  exact (Table.get?_insert_of_ne hstatus).trans (Table.get?_insert_of_ne hfiles)

/-- A request on the way does not complete the update. -/
theorem Minor.completes {r : Request} (h : u.Minor r) (reply : r.Reply) :
    u.completes r reply = false := by
  cases r with
  | setNodeTags node tags =>
    cases reply with
    | error e => rfl
    | ok _ =>
      have hfiles := (h.tags node tags rfl).2 Tags.fileSync (by decide)
      have hne : tags ≠ u.finalTags := by
        rintro rfl
        rw [finalTags_get?_fileSync] at hfiles
        cases hfiles
      simp [Update.completes, hne]
  | _ => rfl

theorem minor_of_no_tags {r : Request} (hcreates : r.createsNodes = false)
    (hterminates : r.terminates = false) (htags : ∀ node tags, r ≠ .setNodeTags node tags) :
    u.Minor r :=
  ⟨hcreates, hterminates, fun node tags heq => absurd heq (htags node tags)⟩

theorem minor_of_waits {r : Request} (h : r.waits = true) : u.Minor r := by
  cases r with
  | isRunning | isTerminated | pause =>
    exact minor_of_no_tags rfl rfl (fun _ _ heq => nomatch heq)
  | _ => cases h

section Steps

variable {σ α β : Type} {P : Protocol Request Request.Reply σ} {I : σ → Prop}

theorem stays_make {r : Request} (h : P.Keeps I r) : P.Stays I (Request.make r) := h

theorem stays_pure (a : α) : P.Stays I (.done a) := fun _ hs => hs

theorem stays_bind {step : Routine α} {next : α → Routine β} (h : P.Stays I step)
    (hnext : ∀ a, P.Stays I (next a)) : P.Stays I (step.bind next) :=
  fun s hs => meets_bind.mpr ((h s hs).mono fun a s' hs' => hnext a s' hs')

/-- A step, and then the next one unless it failed. -/
theorem meets_andThen {step : Routine (Except UpdateError α)}
    {next : α → Routine (Except UpdateError β)} {reached : Except UpdateError α → σ → Prop}
    {accepts : Except UpdateError β → σ → Prop} {s : σ} (h : step.Meets P reached s)
    (herror : ∀ e s, reached (.error e) s → accepts (.error e) s)
    (hnext : ∀ a s, reached (.ok a) s → (next a).Meets P accepts s) :
    (andThen step next).Meets P accepts s := by
  refine meets_bind.mpr (h.mono ?_)
  intro r s' hs'
  cases r with
  | error e => exact herror e s' hs'
  | ok a => exact hnext a s' hs'

theorem stays_andThen {step : Routine (Except UpdateError α)}
    {next : α → Routine (Except UpdateError β)} (h : P.Stays I step)
    (hnext : ∀ a, P.Stays I (next a)) : P.Stays I (andThen step next) :=
  fun s hs => meets_andThen (h s hs) (fun _ _ hs => hs) hnext

theorem stays_commandRunner {auth : AuthConfig}
    (hrunner : P.Keeps I (.commandRunner u.request.node auth)) : P.Stays I (do
      return ofProvider (← Request.make (.commandRunner u.request.node auth))) :=
  stays_bind (stays_make hrunner) (fun _ => stays_pure _)

theorem stays_syncMounts {runner : Runner}
    (hsync : ∀ source target, P.Keeps I (.sync runner source target))
    (mounts : List (String × String)) : P.Stays I (syncMounts runner mounts) := by
  induction mounts with
  | nil => exact stays_pure _
  | cons mount rest ih =>
    refine stays_bind (stays_make (hsync mount.2 mount.1)) (fun r => ?_)
    cases r with
    | error e => exact stays_pure _
    | ok _ => exact ih

theorem stays_runCommands {runner : Runner} (hrun : ∀ command, P.Keeps I (.run runner command))
    (commands : List String) : P.Stays I (runCommands runner commands) := by
  induction commands with
  | nil => exact stays_pure _
  | cons command rest ih =>
    refine stays_bind (stays_make (hrun command)) (fun r => ?_)
    cases r with
    | error e => exact stays_pure _
    | ok output =>
      dsimp only
      split
      · exact ih
      · exact stays_pure _

section Repeated

variable (hpause : ∀ d, P.Keeps I (.pause d))
include hpause

theorem stays_pause (d : Duration) : P.Stays I (Routine.pause d) := stays_make (hpause d)

/-- A step that is repeated meets a protocol if each try does and leaves an invariant behind when it
fails. -/
theorem meets_attempts {call : Routine (ProviderResult α)}
    {accepts : ProviderResult α → σ → Prop} {s : σ} (policy : RetryPolicy)
    (hcall : ∀ s, I s → call.Meets P (fun r s' => accepts r s' ∧ (r.isOk = false → I s')) s)
    (left : Nat) (hs : I s) : (policy.attempts Routine.pause call left).Meets P accepts s := by
  induction left generalizing s with
  | zero => exact (hcall s hs).mono (fun _ _ h => h.1)
  | succ left ih =>
    unfold RetryPolicy.attempts
    refine meets_bind.mpr ((hcall s hs).mono ?_)
    rintro r s' ⟨haccepts, hfails⟩
    cases r with
    | ok a => exact haccepts
    | error e =>
      dsimp only
      split
      · exact meets_bind.mpr ((stays_pause hpause _ s' (hfails rfl)).mono fun _ _ hs'' => ih hs'')
      · exact haccepts

theorem meets_calling {call : Routine (ProviderResult α)}
    {accepts : Except UpdateError α → σ → Prop} {s : σ}
    (hcall : ∀ s, I s → call.Meets P (fun r s' =>
      accepts (ofProvider r) s' ∧ (r.isOk = false → I s')) s) (hs : I s) :
    (u.calling call).Meets P accepts s :=
  meets_bind.mpr ((meets_attempts hpause u.retry hcall _ hs).mono (fun _ _ h => h))

theorem stays_calling {call : Routine (ProviderResult α)} (h : P.Stays I call) :
    P.Stays I (u.calling call) :=
  fun _ hs => meets_calling hpause
    (fun s hs => (h s hs).mono (fun _ _ hs' => ⟨hs', fun _ => hs'⟩)) hs

end Repeated

section Waiting

variable (hwaits : ∀ r : Request, r.waits = true → P.Keeps I r)
include hwaits

theorem stays_awaitRunning (looks : Nat) : P.Stays I (u.awaitRunning looks) := by
  induction looks with
  | zero => exact stays_pure _
  | succ looks ih =>
    have hpause : ∀ d, P.Keeps I (.pause d) := fun _ => hwaits _ rfl
    refine stays_andThen (stays_calling hpause (stays_make (hwaits _ rfl))) (fun terminated => ?_)
    split
    · exact stays_pure _
    · refine stays_andThen (stays_calling hpause (stays_make (hwaits _ rfl))) (fun running => ?_)
      split
      · exact stays_pure _
      · exact stays_bind (stays_pause hpause _) (fun _ => ih)

theorem stays_awaitShell {runner : Runner} (hcheck : P.Keeps I (.run runner readyCheck))
    (looks : Nat) : P.Stays I (u.awaitShell runner looks) := by
  induction looks with
  | zero => exact stays_pure _
  | succ looks ih =>
    refine stays_bind (stays_make hcheck) (fun output => ?_)
    have hagain : P.Stays I (do
        Routine.pause u.pollInterval
        u.awaitShell runner looks) := stays_bind (stays_pause (fun _ => hwaits _ rfl) _) (fun _ => ih)
    cases output with
    | error e => exact hagain
    | ok output =>
      dsimp only
      split
      · exact stays_pure _
      · exact hagain

end Waiting

end Steps

/-- A request on the way completes nothing, so it goes unnoticed. -/
theorem keeps_of_minor {r : Request} (h : u.Minor r) : u.upkeep.Keeps (· = false) r := by
  rintro _ rfl
  refine ⟨⟨rfl, .inl h⟩, ?_⟩
  rintro reply written rfl
  exact h.completes reply

theorem minor_writeStatus (status : BootstrapStatus) :
    u.Minor (.setNodeTags u.request.node (.ofList [(Tags.nodeStatus, status.text)])) := by
  refine ⟨rfl, rfl, ?_⟩
  intro node tags heq
  cases heq
  exact ⟨rfl, fun key hkey => Table.get?_insert_of_ne hkey⟩

/-- Writing a status goes unnoticed. -/
theorem upkeep_writeStatus (status : BootstrapStatus) :
    u.upkeep.Stays (· = false) (u.writeStatus status) :=
  stays_calling (fun _ => keeps_of_minor (minor_of_waits rfl))
    (stays_make (keeps_of_minor (minor_writeStatus status)))

/-- Writing the final tags succeeds exactly if they get written. -/
theorem onItsWay_final : u.OnItsWay (u.writeTags [(Tags.fileSync, u.request.targetHash.hex),
    (Tags.nodeStatus, BootstrapStatus.upToDate.text)]) := by
  refine meets_calling (I := (· = false)) (fun _ => keeps_of_minor (minor_of_waits rfl)) ?_ rfl
  rintro _ rfl
  refine ⟨⟨rfl, .inr rfl⟩, ?_⟩
  rintro reply written rfl
  cases reply with
  | error e => exact ⟨rfl, fun _ => rfl⟩
  | ok _ =>
    have hwritten : u.completes (.setNodeTags u.request.node u.finalTags) (.ok ()) = true := by
      simp [completes]
    exact ⟨hwritten.symm, fun hok => nomatch hok⟩

theorem onItsWay_apply : u.OnItsWay u.apply := by
  have hwaits : ∀ r : Request, r.waits = true → u.upkeep.Keeps (· = false) r :=
    fun _ hr => keeps_of_minor (minor_of_waits hr)
  have hplain : ∀ r : Request, r.createsNodes = false → r.terminates = false →
      (∀ node tags, r ≠ .setNodeTags node tags) → u.upkeep.Keeps (· = false) r :=
    fun _ hcreates hterminates htags => keeps_of_minor (minor_of_no_tags hcreates hterminates htags)
  have hfailed : ∀ (e : UpdateError) written, written = false →
      (Except.error e : UpdateResult).isOk = written := fun _ _ h => h.symm
  unfold apply
  refine meets_andThen (upkeep_writeStatus _ _ rfl) hfailed fun _ _ hs => ?_
  refine meets_andThen (stays_awaitRunning hwaits _ _ hs) hfailed fun _ _ hs => ?_
  refine meets_andThen (stays_commandRunner (hplain _ rfl rfl (fun _ _ heq => nomatch heq)) _ hs)
    hfailed fun runner _ hs => ?_
  refine meets_andThen
    (stays_awaitShell hwaits (hplain _ rfl rfl (fun _ _ heq => nomatch heq)) _ _ hs)
    hfailed fun _ _ hs => ?_
  refine meets_andThen (upkeep_writeStatus _ _ hs) hfailed fun _ _ hs => ?_
  refine meets_andThen
    (stays_syncMounts (fun _ _ => hplain _ rfl rfl (fun _ _ heq => nomatch heq)) _ _ hs)
    hfailed fun _ _ hs => ?_
  refine meets_andThen (upkeep_writeStatus _ _ hs) hfailed fun _ _ hs => ?_
  refine meets_andThen
    (stays_runCommands (fun _ => hplain _ rfl rfl (fun _ _ heq => nomatch heq)) _ _ hs)
    hfailed fun _ _ hs => ?_
  obtain rfl := hs
  exact onItsWay_final

/-- Concluding an update that failed does not make it succeed. -/
theorem onItsWay_conclude (e : UpdateError) : u.OnItsWay (u.conclude (.error e)) := by
  refine meets_bind.mpr ((upkeep_writeStatus _ _ rfl).mono ?_)
  rintro _ _ rfl
  rfl

/-- An update is on its way from its start. -/
theorem onItsWay_routine : u.OnItsWay u.routine := by
  refine meets_bind.mpr (onItsWay_apply.mono ?_)
  rintro result written hwritten
  cases result with
  | ok _ => exact hwritten
  | error e =>
    have hnone : written = false := hwritten.symm
    rw [hnone]
    exact onItsWay_conclude e

/-- An answer on the way: the final tags are written and the update has succeeded, or it goes on and
has not. -/
theorem OnItsWay.answered {r : Request} {next : r.Reply → Routine UpdateResult}
    (h : u.OnItsWay (.ask r next)) (reply : r.Reply) :
    (u.Minor r ∨ r = .setNodeTags u.request.node u.finalTags) ∧
      ((u.completes r reply = true ∧ next reply = .done (.ok ())) ∨
        (u.completes r reply = false ∧ u.OnItsWay (next reply))) := by
  obtain ⟨⟨-, hpermits⟩, hnext⟩ := h
  refine ⟨hpermits, ?_⟩
  have hrest := hnext reply _ rfl
  cases hcompletes : u.completes r reply with
  | false =>
    rw [hcompletes] at hrest
    exact .inr ⟨rfl, hrest⟩
  | true =>
    rw [hcompletes] at hrest
    left
    refine ⟨rfl, ?_⟩
    cases hdone : next reply with
    | ask r' next' =>
      rw [hdone] at hrest
      exact absurd hrest.1.1 (by decide)
    | done result =>
      rw [hdone] at hrest
      cases result with
      | ok _ => rfl
      | error e => cases hrest

end Update

end ClusterScaler
