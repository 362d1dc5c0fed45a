import ClusterScaler.Proofs.Program.Protocol
import ClusterScaler.Proofs.Service.Updates

/-!
# The order of an update

What an update attempts comes in a fixed order, whatever the answers are and wherever it is cut off:
it marks its node with one status after the other, works on the node only between the second mark
and the last, and writes the files hash only after all the work has been done. An onlooker takes an
account of the attempts. The account at each stage of an update is a `Stage`, and what is true of
all of them is that the account is `Orderly`.
-/

set_option autoImplicit false

namespace ClusterScaler

open Program

/-- Whether an answer says that a file was copied, or that a command ended with exit code zero. -/
def Request.succeeds : (r : Request) → r.Reply → Bool
  | .sync .., .ok _ => true
  | .run .., .ok output => output.success
  | _, _ => false

/-- A request as an update made it. -/
abbrev RequestAttempt := Attempt Request Request.Reply

/-- Whether something was copied or run with success. -/
def RequestAttempt.succeeded (x : RequestAttempt) : Bool := x.reply?.any x.op.succeeds

/-- What an onlooker notes of an update. -/
structure Account where
  /-- The write that was tried last, as long as it has not succeeded and only pauses came since. -/
  last : Option (NodeId × Tags) := none
  /-- The writes of tags that were tried; the immediate retries of one count once. -/
  writes : List (NodeId × Tags) := []
  /-- The node for which a runner was handed out last, and the runner. -/
  handed : Option (NodeId × Runner) := none
  /-- What was copied and run before anything was marked as syncing files. -/
  checks : List RequestAttempt := []
  /-- What was copied and run since. -/
  performed : List RequestAttempt := []

namespace Account

/-- Whether it has been tried to mark a node as syncing files. -/
def syncing (a : Account) : Bool :=
  a.writes.any (fun w => w.2.get? Tags.nodeStatus == some BootstrapStatus.syncingFiles.text)

/-- Note that a write was tried. -/
def write (a : Account) (w : NodeId × Tags) (succeeded : Bool) : Account :=
  { a with
    last := if succeeded then none else some w
    writes := if a.last = some w then a.writes else a.writes ++ [w] }

/-- Note that something was copied or run. -/
def perform (a : Account) (x : RequestAttempt) : Account :=
  if a.syncing then { a with last := none, performed := a.performed ++ [x] }
  else { a with last := none, checks := a.checks ++ [x] }

/-- Take note of an attempt. -/
def note (a : Account) : RequestAttempt → Account
  | ⟨.pause _, _⟩ => a
  | ⟨.setNodeTags node tags, reply⟩ => a.write (node, tags) (reply.any (·.isOk))
  | ⟨.commandRunner node _, some (.ok runner)⟩ =>
    { a with last := none, handed := some (node, runner) }
  | ⟨.run runner command, reply⟩ => a.perform ⟨.run runner command, reply⟩
  | ⟨.sync runner source target, reply⟩ => a.perform ⟨.sync runner source target, reply⟩
  | _ => { a with last := none }

/-- The account of attempts. -/
def of (attempts : List RequestAttempt) : Account := attempts.foldl note {}

end Account

namespace Update

variable (u : Update)

/-- What an update writes to mark its node with a status. The files hash comes with the last one. -/
def mark : BootstrapStatus → NodeId × Tags
  | .upToDate => (u.request.node, u.finalTags)
  | status => (u.request.node, .ofList [(Tags.nodeStatus, status.text)])

/-- The marks of an update that goes well. -/
def marks : List BootstrapStatus := [.waitingForNode, .syncingFiles, .settingUp, .upToDate]

/-- The copies of all mounts, in the order of their remote paths. -/
def copies (runner : Runner) : List Request :=
  u.request.mounts.entries.map (fun m => .sync runner m.2 m.1)

/-- What an update does on its node: the copies, and then the commands. -/
def work (runner : Runner) : List Request := u.copies runner ++ u.request.commands.map (.run runner)

/-- So much has been done on the node, by the runner that was handed out for it, and has succeeded. -/
structure HasDone (runner : Runner) (done : List Request) (a : Account) : Prop where
  handed : a.handed = some (u.request.node, runner)
  performed : a.performed.map (·.op) = done
  succeeded : ∀ x ∈ a.performed, x.succeeded = true

/-- Some first part of the work has been attempted on the node, and has succeeded but for the last
attempt. -/
def HasBegun (a : Account) : Prop :=
  a.performed = [] ∨ ∃ runner, a.handed = some (u.request.node, runner) ∧
    a.performed.map (·.op) <+: u.work runner ∧ ∀ x ∈ a.performed.dropLast, x.succeeded = true

/-- All the work has been done. -/
def HasFinished (a : Account) : Prop := ∃ runner, u.HasDone runner (u.work runner) a

/-- What the account of an update is like at any time. -/
structure Orderly (a : Account) : Prop where
  writes : ∃ n, ∃ failing : Bool,
    a.writes = (marks.take n ++ if failing then [BootstrapStatus.updateFailed] else []).map u.mark
  checks : ∀ x ∈ a.checks, ∃ runner, x.op = .run runner readyCheck
  begun : u.HasBegun a
  finished : u.mark .upToDate ∈ a.writes → u.HasFinished a

/-- The account of an update that has tried to write some marks and done some of the work, with the
runner that it has. -/
structure Stage (statuses : List BootstrapStatus) (runner? : Option Runner) (done : List Request)
    (a : Account) : Prop where
  writes : a.writes = statuses.map u.mark
  last : ∀ w, a.last = some w → a.writes.getLast? = some w
  checks : ∀ x ∈ a.checks, ∃ runner, x.op = .run runner readyCheck
  handed : ∀ runner, runner? = some runner → a.handed = some (u.request.node, runner)
  performed : a.performed.map (·.op) = done
  succeeded : ∀ x ∈ a.performed, x.succeeded = true

/-- The stages that an update goes through. -/
structure Fits (statuses : List BootstrapStatus) (runner? : Option Runner) (done : List Request) :
    Prop where
  marked : ∃ n, statuses = marks.take n
  begun : done = [] ∨ ∃ runner, runner? = some runner ∧ done <+: u.work runner
  finished : BootstrapStatus.upToDate ∈ statuses → ∃ runner, runner? = some runner ∧ done = u.work runner

variable {u : Update} {statuses : List BootstrapStatus} {status : BootstrapStatus}
  {runner? : Option Runner} {runner : Runner} {done : List Request} {a : Account}

theorem get?_mark_nodeStatus (status : BootstrapStatus) :
    (u.mark status).2.get? Tags.nodeStatus = some status.text := by
  cases status <;> exact Table.get?_insert_self

theorem get?_mark_fileSync (h : status ≠ .upToDate) :
    (u.mark status).2.get? Tags.fileSync = none := by
  have hne : Tags.fileSync ≠ Tags.nodeStatus := by decide
  cases status <;> first
    | exact absurd rfl h
    | exact Table.get?_insert_of_ne hne

theorem mark_injective {status status' : BootstrapStatus} (h : u.mark status = u.mark status') :
    status = status' := by
  have htext : status.text = status'.text := by
    rw [← Option.some.injEq, ← get?_mark_nodeStatus (u := u), ← get?_mark_nodeStatus (u := u), h]
  revert htext
  cases status <;> cases status' <;> decide

namespace Stage

/-- The account is orderly at each stage of an update. -/
theorem orderly (h : u.Stage statuses runner? done a) (hfits : u.Fits statuses runner? done) :
    u.Orderly a := by
  obtain ⟨n, hn⟩ := hfits.marked
  refine ⟨⟨n, false, ?_⟩, h.checks, ?_, ?_⟩
  · rw [h.writes, hn]
    exact congrArg (List.map u.mark) (List.append_nil _).symm
  · rcases hfits.begun with hnil | ⟨runner, hrunner, hdone⟩
    · exact .inl (List.map_eq_nil_iff.mp (h.performed.trans hnil))
    · refine .inr ⟨runner, h.handed runner hrunner, h.performed ▸ hdone, fun x hx => ?_⟩
      exact h.succeeded x (List.dropLast_subset _ hx)
  · intro hmark
    rw [h.writes] at hmark
    obtain ⟨status, hstatus, heq⟩ := List.mem_map.mp hmark
    obtain ⟨runner, hrunner, hdone⟩ := hfits.finished (mark_injective heq ▸ hstatus)
    exact ⟨runner, h.handed runner hrunner, h.performed.trans hdone, h.succeeded⟩

/-- A stage does not depend on whether the last write can still be retried. -/
theorem forget (h : u.Stage statuses runner? done a) :
    u.Stage statuses runner? done { a with last := none } :=
  ⟨h.writes, fun _ hnone => (nomatch hnone), h.checks, h.handed, h.performed, h.succeeded⟩

theorem note_of_waits {r : Request} (hr : r.waits = true) (reply : Option r.Reply)
    (h : u.Stage statuses runner? done a) : u.Stage statuses runner? done (a.note ⟨r, reply⟩) := by
  cases r with
  | pause => exact h
  | isRunning | isTerminated => exact h.forget
  | _ => cases hr

/-- The first try of a write. -/
theorem write_new (h : u.Stage statuses runner? done a) (hnew : statuses.getLast? ≠ some status)
    (succeeded : Bool) :
    u.Stage (statuses ++ [status]) runner? done (a.write (u.mark status) succeeded) := by
  have hlast : a.last ≠ some (u.mark status) := by
    intro hlast
    have hwritten := h.last _ hlast
    rw [h.writes, List.getLast?_map, Option.map_eq_some_iff] at hwritten
    obtain ⟨status', hstatus', heq⟩ := hwritten
    exact hnew (mark_injective heq ▸ hstatus')
  have hwrites : (a.write (u.mark status) succeeded).writes = a.writes ++ [u.mark status] :=
    if_neg hlast
  refine ⟨?_, ?_, h.checks, h.handed, h.performed, h.succeeded⟩
  · rw [hwrites, h.writes, List.map_append]
    rfl
  · intro w hw
    rw [hwrites, List.getLast?_concat]
    cases succeeded with
    | true => cases hw
    | false => exact hw

/-- A write that is tried again. -/
theorem write_again (h : u.Stage statuses runner? done a) (hlast : a.last = some (u.mark status))
    (succeeded : Bool) : u.Stage statuses runner? done (a.write (u.mark status) succeeded) := by
  have hwrites : (a.write (u.mark status) succeeded).writes = a.writes := if_pos hlast
  refine ⟨hwrites.trans h.writes, ?_, h.checks, h.handed, h.performed, h.succeeded⟩
  intro w hw
  rw [hwrites]
  cases succeeded with
  | true => cases hw
  | false => exact h.last w (hlast.trans hw)

/-- An update that has marked its node as syncing files works on it, and before that it checks. -/
theorem syncing_iff (h : u.Stage statuses runner? done a) :
    a.syncing = true ↔ BootstrapStatus.syncingFiles ∈ statuses := by
  unfold Account.syncing
  rw [h.writes, List.any_map, List.any_eq_true]
  constructor
  · rintro ⟨status, hstatus, heq⟩
    rw [Function.comp_apply, get?_mark_nodeStatus] at heq
    have hsame : status = .syncingFiles := by
      revert heq
      cases status <;> decide
    exact hsame ▸ hstatus
  · intro hstatus
    refine ⟨_, hstatus, ?_⟩
    rw [Function.comp_apply, get?_mark_nodeStatus]
    exact beq_self_eq_true _

/-- A check of the shell, before anything is marked as syncing files. -/
theorem check (h : u.Stage statuses runner? done a)
    (hsyncing : BootstrapStatus.syncingFiles ∉ statuses)
    (reply : Option (Request.run runner readyCheck).Reply) :
    u.Stage statuses runner? done (a.note ⟨.run runner readyCheck, reply⟩) := by
  have hnote : a.note ⟨.run runner readyCheck, reply⟩ =
      { a with last := none, checks := a.checks ++ [⟨.run runner readyCheck, reply⟩] } :=
    if_neg (mt h.syncing_iff.mp hsyncing)
  rw [hnote]
  refine ⟨h.writes, fun _ hnone => (nomatch hnone), ?_, h.handed, h.performed, h.succeeded⟩
  intro x hx
  rcases List.mem_append.mp hx with hx | hx
  · exact h.checks x hx
  · obtain rfl := List.mem_singleton.mp hx
    exact ⟨runner, rfl⟩

theorem perform_eq (h : u.Stage statuses runner? done a)
    (hsyncing : BootstrapStatus.syncingFiles ∈ statuses) (x : RequestAttempt) :
    a.perform x = { a with last := none, performed := a.performed ++ [x] } :=
  if_pos (h.syncing_iff.mpr hsyncing)

/-- A piece of work that succeeds. -/
theorem perform (h : u.Stage statuses runner? done a)
    (hsyncing : BootstrapStatus.syncingFiles ∈ statuses) {x : RequestAttempt}
    (hx : x.succeeded = true) : u.Stage statuses runner? (done ++ [x.op]) (a.perform x) := by
  rw [h.perform_eq hsyncing]
  refine ⟨h.writes, fun _ hnone => (nomatch hnone), h.checks, h.handed, ?_, ?_⟩
  · rw [List.map_append, h.performed]
    rfl
  · intro y hy
    rcases List.mem_append.mp hy with hy | hy
    · exact h.succeeded y hy
    · exact List.mem_singleton.mp hy ▸ hx

end Stage

variable (u) in
/-- The account of an update that has tried to write its first marks and tries no further ones. -/
structure Halted (n : Nat) (a : Account) : Prop where
  writes : a.writes = (marks.take n).map u.mark
  last : ∀ w, a.last = some w → a.writes.getLast? = some w
  orderly : u.Orderly a

theorem Stage.halted {n : Nat} (h : u.Stage (marks.take n) runner? done a)
    (hfits : u.Fits (marks.take n) runner? done) : u.Halted n a :=
  ⟨h.writes, h.last, h.orderly hfits⟩

theorem Stage.exists_halted (h : u.Stage statuses runner? done a)
    (hfits : u.Fits statuses runner? done) : ∃ n, u.Halted n a := by
  obtain ⟨n, rfl⟩ := hfits.marked
  exact ⟨n, h.halted hfits⟩

/-- A piece of work that is attempted, whatever comes of it. -/
theorem Stage.halted_perform {n : Nat} (h : u.Stage (marks.take n) (some runner) done a)
    (hsyncing : BootstrapStatus.syncingFiles ∈ marks.take n)
    (hopen : BootstrapStatus.upToDate ∉ marks.take n) {x : RequestAttempt}
    (hwork : done ++ [x.op] <+: u.work runner) : u.Halted n (a.perform x) := by
  rw [h.perform_eq hsyncing]
  refine ⟨h.writes, fun _ hnone => (nomatch hnone), ⟨n, false, ?_⟩, h.checks, ?_, ?_⟩
  · exact h.writes.trans (congrArg (List.map u.mark) (List.append_nil _).symm)
  · refine .inr ⟨runner, h.handed runner rfl, ?_, ?_⟩
    · rw [List.map_append, h.performed]
      exact hwork
    · rw [List.dropLast_concat]
      exact h.succeeded
  · intro hmark
    rw [h.writes] at hmark
    obtain ⟨status, hstatus, heq⟩ := List.mem_map.mp hmark
    exact absurd (mark_injective heq ▸ hstatus) hopen

/-- The account of an update that has tried to write its first marks, and then that it failed. -/
structure Failed (u : Update) (n : Nat) (a : Account) : Prop where
  writes : a.writes = (marks.take n ++ [BootstrapStatus.updateFailed]).map u.mark
  orderly : u.Orderly a

/-- The first try to mark an update as failed. -/
theorem Halted.write_failed {n : Nat} (h : u.Halted n a) (succeeded : Bool) :
    u.Failed n (a.write (u.mark .updateFailed) succeeded) := by
  have hnew : BootstrapStatus.updateFailed ∉ marks.take n :=
    fun hmem => absurd (List.mem_of_mem_take hmem) (by decide)
  have hlast : a.last ≠ some (u.mark .updateFailed) := by
    intro hlast
    have hwritten := List.mem_of_getLast? (h.last _ hlast)
    rw [h.writes] at hwritten
    obtain ⟨status, hstatus, heq⟩ := List.mem_map.mp hwritten
    exact hnew (mark_injective heq ▸ hstatus)
  have hwrites : (a.write (u.mark .updateFailed) succeeded).writes =
      a.writes ++ [u.mark .updateFailed] := if_neg hlast
  have hmarks : (a.write (u.mark .updateFailed) succeeded).writes =
      (marks.take n ++ [BootstrapStatus.updateFailed]).map u.mark := by
    rw [hwrites, h.writes, List.map_append]
    rfl
  refine ⟨hmarks, ⟨n, true, hmarks⟩, h.orderly.checks, h.orderly.begun, ?_⟩
  intro hmark
  rw [hwrites] at hmark
  rcases List.mem_append.mp hmark with hmark | hmark
  · obtain ⟨runner, hdone⟩ := h.orderly.finished hmark
    exact ⟨runner, hdone.handed, hdone.performed, hdone.succeeded⟩
  · cases mark_injective (List.mem_singleton.mp hmark)

/-- A further try to mark an update as failed. -/
theorem Failed.write_again {n : Nat} (h : u.Failed n a)
    (hlast : a.last = some (u.mark .updateFailed)) (succeeded : Bool) :
    u.Failed n (a.write (u.mark .updateFailed) succeeded) := by
  have hwrites : (a.write (u.mark .updateFailed) succeeded).writes = a.writes := if_pos hlast
  refine ⟨hwrites.trans h.writes, ?_, h.orderly.checks, h.orderly.begun, ?_⟩
  · rw [hwrites]
    exact h.orderly.writes
  · intro hmark
    rw [hwrites] at hmark
    obtain ⟨runner, hdone⟩ := h.orderly.finished hmark
    exact ⟨runner, hdone.handed, hdone.performed, hdone.succeeded⟩

variable (u) in
/-- What an onlooker who takes an account expects of an update that is being applied. -/
abbrev conduct : Protocol Request Request.Reply Account :=
  noting Account.note (fun a => ∃ n, u.Halted n a)

theorem fits_take {n : Nat} (hn : n < 4)
    (hbegun : done = [] ∨ ∃ runner, runner? = some runner ∧ done <+: u.work runner) :
    u.Fits (marks.take n) runner? done := by
  have hopen : ∀ n < 4, BootstrapStatus.upToDate ∉ marks.take n := by decide
  exact ⟨⟨n, rfl⟩, hbegun, fun hmem => absurd hmem (hopen n hn)⟩

theorem fits_idle {n : Nat} (hn : n < 4) : u.Fits (marks.take n) runner? [] :=
  fits_take hn (.inl rfl)

theorem fits_copies {n : Nat} (hn : n < 4) : u.Fits (marks.take n) (some runner) (u.copies runner) :=
  fits_take hn (.inr ⟨runner, rfl, List.prefix_append _ _⟩)

theorem fits_work {n : Nat} : u.Fits (marks.take n) (some runner) (u.work runner) :=
  ⟨⟨n, rfl⟩, .inr ⟨runner, rfl, List.prefix_rfl⟩, fun _ => ⟨runner, rfl, rfl⟩⟩

theorem keeps_of_waits (hfits : u.Fits statuses runner? done) {r : Request}
    (hr : r.waits = true) : u.conduct.Keeps (u.Stage statuses runner? done) r := by
  intro a h
  refine ⟨(h.note_of_waits hr none).exists_halted hfits, ?_⟩
  rintro reply _ rfl
  exact h.note_of_waits hr (some reply)

/-- A write, with its retries. -/
theorem meets_write {w : NodeId × Tags} {sound before after : Account → Prop}
    (hfirst : ∀ a succeeded, before a → after (a.write w succeeded))
    (hagain : ∀ a succeeded, after a → a.last = some w → after (a.write w succeeded))
    (hbefore : ∀ a, before a → sound a) (hafter : ∀ a, after a → sound a) (h : before a) :
    (u.calling (Request.make (.setNodeTags w.1 w.2))).Meets (noting Account.note sound)
      (fun _ a => after a) a := by
  have hpause : ∀ d, (noting Account.note sound).Keeps
      (fun a => before a ∨ after a ∧ a.last = some w) (.pause d) := by
    intro d a ha
    refine ⟨ha.elim (hbefore a) (fun h => hafter a h.1), ?_⟩
    rintro reply _ rfl
    exact ha
  refine meets_calling hpause ?_ (.inl h)
  intro a ha
  have hnote : ∀ succeeded, after (a.write w succeeded) := by
    rcases ha with ha | ⟨ha, hlast⟩
    · exact fun _ => hfirst a _ ha
    · exact fun _ => hagain a _ ha hlast
  refine ⟨hafter _ (hnote _), ?_⟩
  rintro reply _ rfl
  refine ⟨hnote _, fun hfailed => .inr ⟨hnote _, ?_⟩⟩
  -- a write that failed is the last one
  cases reply with
  | ok _ => cases hfailed
  | error e => rfl

/-- The write of the next mark, with its retries. -/
theorem meets_mark {n : Nat} (status : BootstrapStatus)
    (hnext : marks.take (n + 1) = marks.take n ++ [status])
    (hnew : (marks.take n).getLast? ≠ some status) (hfits : u.Fits (marks.take n) runner? done)
    (hfits' : u.Fits (marks.take (n + 1)) runner? done)
    (h : u.Stage (marks.take n) runner? done a) :
    (u.calling (Request.make (.setNodeTags (u.mark status).1 (u.mark status).2))).Meets u.conduct
      (fun _ a => u.Stage (marks.take (n + 1)) runner? done a) a := by
  refine meets_write (fun a succeeded h => ?_) (fun a succeeded h hlast => ?_)
    (fun a h => h.exists_halted hfits) (fun a h => h.exists_halted hfits') h
  · rw [hnext]
    exact h.write_new hnew succeeded
  · exact h.write_again hlast succeeded

/-- After some work has been attempted: all of it is done, or the update halts. -/
def Worked (u : Update) (n : Nat) (runner : Runner) (done : List Request) (result : UpdateResult)
    (a : Account) : Prop :=
  match result with
  | .ok _ => u.Stage (marks.take n) (some runner) done a
  | .error _ => u.Halted n a

/-- A piece of work, and then the next ones if it succeeds. -/
theorem meets_work {n : Nat} (hsyncing : BootstrapStatus.syncingFiles ∈ marks.take n)
    (hopen : BootstrapStatus.upToDate ∉ marks.take n) {r : Request} {rest : List Request}
    {next : r.Reply → Routine UpdateResult}
    (hnote : ∀ (a : Account) reply, a.note ⟨r, reply⟩ = a.perform ⟨r, reply⟩)
    (h : u.Stage (marks.take n) (some runner) done a)
    (hwork : done ++ r :: rest <+: u.work runner)
    (hfails : ∀ reply, r.succeeds reply = false →
      ∃ e, next reply = .done (.error e))
    (hgoesOn : ∀ reply a, r.succeeds reply = true →
      u.Stage (marks.take n) (some runner) (done ++ [r]) a →
        (next reply).Meets u.conduct (u.Worked n runner (done ++ r :: rest)) a) :
    (Program.ask r next).Meets u.conduct (u.Worked n runner (done ++ r :: rest)) a := by
  have hfirst : done ++ [r] <+: u.work runner := by
    rw [List.append_cons] at hwork
    exact (List.prefix_append _ _).trans hwork
  have hhalted : ∀ reply, u.Halted n (a.note ⟨r, reply⟩) := fun reply =>
    hnote a reply ▸ h.halted_perform hsyncing hopen hfirst
  refine ⟨⟨n, hhalted none⟩, ?_⟩
  rintro reply _ rfl
  cases hsucceeded : r.succeeds reply with
  | false =>
    obtain ⟨e, hnext⟩ := hfails reply hsucceeded
    rw [hnext]
    exact hhalted (some reply)
  | true =>
    refine hgoesOn reply _ hsucceeded ?_
    rw [hnote]
    exact h.perform (x := ⟨r, some reply⟩) hsyncing hsucceeded

theorem meets_syncMounts {n : Nat} (hsyncing : BootstrapStatus.syncingFiles ∈ marks.take n)
    (hopen : BootstrapStatus.upToDate ∉ marks.take n) {mounts : List (String × String)}
    (h : u.Stage (marks.take n) (some runner) done a)
    (hwork : done ++ mounts.map (fun m => .sync runner m.2 m.1) <+: u.work runner) :
    (syncMounts runner mounts).Meets u.conduct
      (u.Worked n runner (done ++ mounts.map (fun m => .sync runner m.2 m.1))) a := by
  induction mounts generalizing done a with
  | nil => exact (List.append_nil done).symm ▸ h
  | cons mount rest ih =>
    rw [List.map_cons] at hwork ⊢
    refine meets_work hsyncing hopen (fun _ _ => rfl) h hwork ?_ ?_
    · intro reply hfailed
      cases reply with
      | ok _ => cases hfailed
      | error e => exact ⟨_, rfl⟩
    · intro reply a hsucceeded h
      rw [List.append_cons] at hwork ⊢
      cases reply with
      | ok _ => exact ih h hwork
      | error e => cases hsucceeded

theorem meets_runCommands {n : Nat} (hsyncing : BootstrapStatus.syncingFiles ∈ marks.take n)
    (hopen : BootstrapStatus.upToDate ∉ marks.take n) {commands : List String}
    (h : u.Stage (marks.take n) (some runner) done a)
    (hwork : done ++ commands.map (.run runner) <+: u.work runner) :
    (runCommands runner commands).Meets u.conduct
      (u.Worked n runner (done ++ commands.map (.run runner))) a := by
  induction commands generalizing done a with
  | nil => exact (List.append_nil done).symm ▸ h
  | cons command rest ih =>
    rw [List.map_cons] at hwork ⊢
    refine meets_work hsyncing hopen (fun _ _ => rfl) h hwork ?_ ?_
    · intro reply hfailed
      cases reply with
      | ok output => exact ⟨_, if_neg (Bool.eq_false_iff.mp hfailed)⟩
      | error e => exact ⟨_, rfl⟩
    · intro reply a hsucceeded h
      rw [List.append_cons] at hwork ⊢
      cases reply with
      | ok output =>
        have hsuccess : output.success = true := hsucceeded
        show Meets u.conduct _ (if output.success then _ else _) a
        rw [if_pos hsuccess]
        exact ih h hwork
      | error e => cases hsucceeded

/-- The runner of the node is handed out, or not. -/
theorem meets_commandRunner (h : u.Stage (marks.take 1) none [] a) :
    (do return ofProvider (← Request.make (.commandRunner u.request.node u.auth)) :
      Routine (Except UpdateError Runner)).Meets u.conduct
      (fun r a => u.Stage (marks.take 1) r.toOption [] a) a := by
  refine ⟨h.forget.exists_halted (fits_idle (by decide)), ?_⟩
  rintro reply _ rfl
  cases reply with
  | error e => exact h.forget
  | ok runner =>
    refine ⟨h.writes, fun _ hnone => (nomatch hnone), h.checks, ?_, h.performed, h.succeeded⟩
    intro runner' heq
    cases heq
    rfl

theorem keeps_check : u.conduct.Keeps (u.Stage (marks.take 1) (some runner) [])
    (.run runner readyCheck) := by
  have hsyncing : BootstrapStatus.syncingFiles ∉ marks.take 1 := by decide
  intro a h
  refine ⟨(h.check hsyncing none).exists_halted (fits_idle (by decide)), ?_⟩
  rintro reply _ rfl
  exact h.check hsyncing (some reply)

/-- An update that was not cut off has written all marks or halts, and then it has failed. -/
def Applied (u : Update) (result : UpdateResult) (a : Account) : Prop :=
  ∃ n, u.Halted n a ∧ (result.isOk = true → n = 4)

theorem applied_error {n : Nat} (e : UpdateError) (h : u.Halted n a) : u.Applied (.error e) a :=
  ⟨n, h, fun hok => nomatch hok⟩

theorem meets_apply : u.apply.Meets u.conduct u.Applied {} := by
  have hstart : u.Stage (marks.take 0) none [] {} :=
    ⟨rfl, fun _ h => (nomatch h), fun _ h => (nomatch h), fun _ h => (nomatch h), rfl,
      fun _ h => (nomatch h)⟩
  have hwaits : ∀ {runner?} (r : Request), r.waits = true →
      u.conduct.Keeps (u.Stage (marks.take 1) runner? []) r :=
    fun _ hr => keeps_of_waits (fits_idle (by decide)) hr
  have hfails : ∀ {runner?} (e : UpdateError) a, u.Stage (marks.take 1) runner? [] a →
      u.Applied (.error e) a := fun e _ h => applied_error e (h.halted (fits_idle (by decide)))
  unfold apply
  refine meets_andThen (meets_mark .waitingForNode rfl (by decide)
    (fits_idle (by decide)) (fits_idle (by decide)) hstart) hfails fun _ a h => ?_
  refine meets_andThen (stays_awaitRunning hwaits _ a h) hfails fun _ a h => ?_
  refine meets_andThen (meets_commandRunner h) hfails fun runner a h => ?_
  refine meets_andThen (stays_awaitShell hwaits keeps_check _ a h) hfails fun _ a h => ?_
  -- the node is ready, and the work on it begins
  have hopen : ∀ n < 4, BootstrapStatus.upToDate ∉ marks.take n := by decide
  refine meets_andThen (meets_mark .syncingFiles rfl (by decide)
    (fits_idle (by decide)) (fits_idle (by decide)) h)
    (fun e a h => applied_error e (h.halted (fits_idle (by decide)))) fun _ a h => ?_
  refine meets_andThen (meets_syncMounts (by decide) (hopen 2 (by decide)) h
    (List.prefix_append _ _)) (fun e a h => applied_error e h) fun _ a h => ?_
  refine meets_andThen (meets_mark .settingUp rfl (by decide)
    (fits_copies (by decide)) (fits_copies (by decide)) h)
    (fun e a h => applied_error e (h.halted (fits_copies (by decide)))) fun _ a h => ?_
  refine meets_andThen (meets_runCommands (by decide) (hopen 3 (by decide)) h List.prefix_rfl)
    (fun e a h => applied_error e h) fun _ a h => ?_
  -- the last mark is written in whatever way the last write ends
  refine (meets_mark .upToDate rfl (by decide) fits_work fits_work h).mono ?_
  exact fun result a h => ⟨4, h.halted fits_work, fun _ => rfl⟩

/-- The account of an update that has returned its result: it has marked its node as failed exactly
if it has failed, and otherwise has written all marks. -/
structure Concluded (u : Update) (result : UpdateResult) (a : Account) : Prop where
  writes : ∃ n, a.writes = (marks.take n ++
    if result.isOk then [] else [BootstrapStatus.updateFailed]).map u.mark ∧
      (result.isOk = true → n = 4)
  orderly : u.Orderly a

theorem meets_conclude_error {n : Nat} (e : UpdateError) (h : u.Halted n a) :
    (u.conclude (.error e)).Meets (noting Account.note u.Orderly) u.Concluded a := by
  have hwrite := meets_write (u := u)
    (fun a succeeded (h : u.Halted n a) => h.write_failed succeeded)
    (fun a succeeded h hlast => h.write_again hlast succeeded) (fun a h => h.orderly)
    (fun a h => h.orderly) h
  refine meets_bind.mpr (hwrite.mono ?_)
  intro _ a h
  exact ⟨⟨n, h.writes, fun hok => nomatch hok⟩, h.orderly⟩

theorem meets_conclude {result : UpdateResult} (h : u.Applied result a) :
    (u.conclude result).Meets (noting Account.note u.Orderly) u.Concluded a := by
  obtain ⟨n, hhalted, hok⟩ := h
  cases result with
  | error e => exact meets_conclude_error e hhalted
  | ok _ =>
    have hmarks := hhalted.writes.trans (congrArg (List.map u.mark) (List.append_nil _).symm)
    exact ⟨⟨n, hmarks, hok⟩, hhalted.orderly⟩

/-- A course that an update may take: its attempts, and its result if it has returned one. Wherever
it waits it may be cut off at its timeout, and wherever it waits it may be stopped altogether. -/
inductive Course (u : Update) : List RequestAttempt → Option UpdateResult → Prop where
  | applying {attempts : List RequestAttempt} : Tries u.apply attempts none → Course u attempts none
  | ended {first rest : List RequestAttempt} {result : UpdateResult}
      {result? : Option UpdateResult} :
    Tries u.apply first (some result) → Tries (u.conclude result) rest result? →
      Course u (first ++ rest) result?
  | cut {first rest : List RequestAttempt} {result? : Option UpdateResult} :
    Tries u.apply first none → Tries (u.conclude (.error (.timeout u.timeout))) rest result? →
      Course u (first ++ rest) result?

namespace Course

variable {attempts : List RequestAttempt} {result? : Option UpdateResult} {result : UpdateResult}

theorem account_append (first rest : List RequestAttempt) :
    Account.of (first ++ rest) = rest.foldl Account.note (Account.of first) := List.foldl_append

/-- What an update attempts in concluding keeps its account orderly. -/
theorem orderly_conclude {first rest : List RequestAttempt}
    (h : u.Applied result (Account.of first)) (htries : Tries (u.conclude result) rest result?) :
    u.Orderly (Account.of (first ++ rest)) ∧
      ∀ r, result? = some r → u.Concluded r (Account.of (first ++ rest)) := by
  rw [account_append]
  cases result? with
  | none => exact ⟨(meets_conclude h).sound_of_waits htries, fun r heq => nomatch heq⟩
  | some r =>
    have hconcluded := (meets_conclude h).accepts_of_done htries
    refine ⟨hconcluded.orderly, fun r' heq => ?_⟩
    cases heq
    exact hconcluded

/-- The account of an update is orderly at any time, and in the end accounts for the result. -/
theorem orderly (h : u.Course attempts result?) : u.Orderly (Account.of attempts) ∧
    ∀ r, result? = some r → u.Concluded r (Account.of attempts) := by
  cases h with
  | applying htries =>
    obtain ⟨n, hhalted⟩ := meets_apply.sound_of_waits htries
    exact ⟨hhalted.orderly, fun r heq => nomatch heq⟩
  | ended hfirst hrest => exact orderly_conclude (meets_apply.accepts_of_done hfirst) hrest
  | cut hfirst hrest =>
    obtain ⟨n, hhalted⟩ := meets_apply.sound_of_waits hfirst
    exact orderly_conclude (applied_error _ hhalted) hrest

/-- An update whose attempts stand in two parts has once waited for the answer to each of them. -/
theorem upTo_append {p q : Routine UpdateResult} {first rest before after : List RequestAttempt}
    {x : RequestAttempt} {p? : Option UpdateResult} (hfirst : Tries p first p?)
    (hrest : Tries q rest result?) (hsplit : first ++ rest = before ++ x :: after) :
    Tries p (before ++ [⟨x.op, none⟩]) none ∨
      ∃ others, before = first ++ others ∧ Tries q (others ++ [⟨x.op, none⟩]) none := by
  rcases List.append_eq_append_iff.mp hsplit with ⟨others, rfl, rfl⟩ | ⟨others, rfl, hothers⟩
  · exact .inr ⟨others, rfl, hrest.upTo⟩
  · cases others with
    | nil =>
      obtain rfl : rest = x :: after := hothers.symm
      have hnext : Tries q ([] ++ [⟨x.op, none⟩]) none := Tries.upTo hrest
      exact .inr ⟨[], by simp, hnext⟩
    | cons y others =>
      obtain ⟨rfl, -⟩ := List.cons.inj hothers
      exact .inl hfirst.upTo

/-- An update has once waited for the answer to each of its attempts. -/
theorem upTo {before after : List RequestAttempt} {x : RequestAttempt}
    (h : u.Course attempts result?) (hsplit : attempts = before ++ x :: after) :
    u.Course (before ++ [⟨x.op, none⟩]) none := by
  cases h with
  | applying htries =>
    subst hsplit
    exact .applying htries.upTo
  | ended hfirst hrest =>
    rcases upTo_append hfirst hrest hsplit with htries | ⟨others, rfl, hothers⟩
    · exact .applying htries
    · rw [List.append_assoc]
      exact .ended hfirst hothers
  | cut hfirst hrest =>
    rcases upTo_append hfirst hrest hsplit with htries | ⟨others, rfl, hothers⟩
    · exact .applying htries
    · rw [List.append_assoc]
      exact .cut hfirst hothers

end Course

end Update

namespace Account

theorem last_mem_note {a : Account} (h : ∀ w, a.last = some w → w ∈ a.writes) (x : RequestAttempt) :
    ∀ w, (a.note x).last = some w → w ∈ (a.note x).writes := by
  have hperform : ∀ x, (a.perform x).last = none := by
    intro x
    unfold perform
    split <;> rfl
  have hwrite : ∀ w, w ∈ (a.write w false).writes := by
    intro w
    unfold write
    dsimp only
    split
    next hlast => exact h w hlast
    next => exact List.mem_append_right _ List.mem_cons_self
  intro w hw
  obtain ⟨op, reply⟩ := x
  cases op with
  | pause d => exact h w hw
  | setNodeTags node tags =>
    cases reply with
    | none =>
      cases hw
      exact hwrite (node, tags)
    | some reply =>
      cases reply with
      | ok _ => cases hw
      | error e =>
        cases hw
        exact hwrite (node, tags)
  | run runner command => exact nomatch (hperform _).symm.trans hw
  | sync runner source target => exact nomatch (hperform _).symm.trans hw
  | commandRunner node auth =>
    cases reply with
    | none => cases hw
    | some reply => cases reply <;> cases hw
  | _ => cases hw

theorem last_mem_foldl {a : Account} (h : ∀ w, a.last = some w → w ∈ a.writes)
    (attempts : List RequestAttempt) :
    ∀ w, (attempts.foldl note a).last = some w → w ∈ (attempts.foldl note a).writes := by
  induction attempts generalizing a with
  | nil => exact h
  | cons x rest ih => exact ih (last_mem_note h x)

/-- A write that is waited for is accounted for, and was tried after what had been done before. -/
theorem of_write (before : List RequestAttempt) (node : NodeId) (tags : Tags) :
    let after := of (before ++ [⟨.setNodeTags node tags, none⟩])
    (node, tags) ∈ after.writes ∧ after.handed = (of before).handed ∧
      after.performed = (of before).performed := by
  have hlast : ∀ w, (of before).last = some w → w ∈ (of before).writes :=
    last_mem_foldl (fun w hw => by cases hw) before
  have hnote : of (before ++ [⟨.setNodeTags node tags, none⟩]) =
      (of before).write (node, tags) false := List.foldl_append
  dsimp only
  rw [hnote]
  refine ⟨?_, rfl, rfl⟩
  unfold write
  dsimp only
  split
  next hsame => exact hlast _ hsame
  next => exact List.mem_append_right _ List.mem_cons_self

end Account

namespace Update

variable {u : Update} {attempts : List RequestAttempt} {result? : Option UpdateResult}

/-- The attempts of an update come in order, up to its result if it has returned one. -/
structure InOrder (u : Update) (attempts : List RequestAttempt) (result? : Option UpdateResult) :
    Prop where
  /-- The marks are tried in their order. The mark of a failure comes last, and by the time an
  update returns exactly if it returns an error. -/
  marks : ∃ n, ∃ failing : Bool, (Account.of attempts).writes =
      (marks.take n ++ if failing then [BootstrapStatus.updateFailed] else []).map u.mark ∧
    ∀ result, result? = some result →
      (failing = true ↔ result.isOk = false) ∧ (result.isOk = true → n = 4)
  /-- Before the node is marked as syncing files, nothing but its shell is tried. -/
  checks : ∀ x ∈ (Account.of attempts).checks, ∃ runner, x.op = .run runner readyCheck
  /-- From then on the mounts are copied and the commands run, up to the first failure. -/
  work : u.HasBegun (Account.of attempts)
  /-- A files hash is written when all that has succeeded, and with the last mark. -/
  stamp : ∀ before x after node tags, attempts = before ++ x :: after →
    x.op = .setNodeTags node tags → (tags.get? Tags.fileSync).isSome = true →
      (node, tags) = u.mark .upToDate ∧ u.HasFinished (Account.of before)

/-- Whatever it is answered and wherever it is cut off or stopped, an update attempts everything in
order. -/
theorem Course.in_order (h : u.Course attempts result?) : u.InOrder attempts result? := by
  have horderly := h.orderly
  refine ⟨?_, horderly.1.checks, horderly.1.begun, ?_⟩
  · cases result? with
    | none =>
      obtain ⟨n, failing, hwrites⟩ := horderly.1.writes
      exact ⟨n, failing, hwrites, fun result heq => nomatch heq⟩
    | some result =>
      obtain ⟨n, hwrites, hok⟩ := (horderly.2 result rfl).writes
      refine ⟨n, !result.isOk, ?_, ?_⟩
      · rw [hwrites]
        cases result <;> rfl
      · intro result' heq
        cases heq
        exact ⟨by rw [Bool.not_eq_true'], hok⟩
  · intro before x after node tags hsplit hop hfiles
    -- the update once waited for this write, and its account was orderly then
    have hwaits := (h.upTo hsplit).orderly.1
    rw [hop] at hwaits
    obtain ⟨hmem, hhanded, hperformed⟩ := Account.of_write before node tags
    obtain ⟨n, failing, hmarks⟩ := hwaits.writes
    obtain ⟨status, -, hmark⟩ := List.mem_map.mp (hmarks ▸ hmem)
    have hlast : status = BootstrapStatus.upToDate := by
      by_contra hne
      have hnone := get?_mark_fileSync (u := u) hne
      rw [hmark] at hnone
      rw [hnone] at hfiles
      cases hfiles
    subst hlast
    obtain ⟨runner, hdone⟩ := hwaits.finished (hmark ▸ hmem)
    exact ⟨hmark.symm, runner, hhanded ▸ hdone.handed, hperformed ▸ hdone.performed,
      hperformed ▸ hdone.succeeded⟩

/-- The attempts and the result of an update whose requests are answered in a fixed way. -/
def replayed (u : Update) (answer : (r : Request) → r.Reply) :
    List RequestAttempt × UpdateResult :=
  let (first, applied) := u.apply.replay answer
  let (rest, result) := (u.conclude applied).replay answer
  ((first ++ rest).map (fun x => ⟨x.op, some x.reply⟩), result)

theorem course_replayed (u : Update) (answer : (r : Request) → r.Reply) :
    u.Course (u.replayed answer).1 (some (u.replayed answer).2) := by
  have hfirst := (runs_replay answer u.apply).1.begins.tries (.done _)
  have hrest := (runs_replay answer (u.conclude (u.apply.replay answer).2)).1.begins.tries (.done _)
  rw [List.append_nil] at hfirst hrest
  have hcourse := Course.ended hfirst hrest
  rw [← List.map_append] at hcourse
  exact hcourse

/-- An update of one mount and three commands. -/
def ofCommands : Update where
  request :=
    { node := ⟨"node-1"⟩
      nodeType := "worker"
      mounts := .ofList [("/etc/app", "app.toml")]
      commands := ["true", "false", "reboot"]
      targetHash := ⟨"a1"⟩ }
  timeout := .ofMillis 1

/-- A node that runs, and a shell in which one command fails. -/
def failCommand : (r : Request) → r.Reply
  | .listNodes _ => .ok []
  | .isRunning _ => .ok true
  | .isTerminated _ => .ok false
  | .nodeTags _ => .ok ∅
  | .internalIp _ | .externalIp _ => .ok ""
  | .setNodeTags .. | .createNodes .. | .terminateNode _ | .terminateNodes _ => .ok ()
  | .commandRunner node _ => .ok (.recording (some node))
  | .run _ command => .ok { exitCode := some (if command = "false" then 1 else 0) }
  | .sync .. => .ok ()
  | .pause _ => ()

/-- The second command fails, so the third one is not run, and the node is marked as failed. -/
theorem Course.in_order_ofCommands :
    (ofCommands.replayed failCommand).2 = .error (.commandFailed "false" (some 1) "") ∧
      ofCommands.InOrder (ofCommands.replayed failCommand).1
        (some (ofCommands.replayed failCommand).2) :=
  ⟨by decide +kernel, Course.in_order (course_replayed ofCommands failCommand)⟩

end Update

end ClusterScaler
