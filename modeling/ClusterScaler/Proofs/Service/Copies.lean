import ClusterScaler.Proofs.Planning.Orders
import ClusterScaler.Proofs.Service.Updates

/-!
# What an update copies

An update copies its mounts in order and nothing else. One that succeeds has copied all of them.
-/

set_option autoImplicit false

namespace ClusterScaler

open Program

/-- The mounts that some requests copied, in order. -/
def copiedIn (trace : List RequestExchange) : List (String × String) :=
  trace.flatMap (·.op.copied)

/-- The protocol that keeps what was copied. -/
def copying : Protocol Request Request.Reply (List (String × String)) where
  permits _ _ := True
  follows done r _ done' := done' = done ++ r.copied

theorem follows_copying (done : List (String × String)) (trace : List RequestExchange) :
    Follows copying done trace (done ++ copiedIn trace) := by
  induction trace generalizing done with
  | nil =>
    unfold copiedIn
    rw [List.flatMap_nil, List.append_nil]
    exact .nil done
  | cons x rest ih =>
    unfold copiedIn
    rw [List.flatMap_cons, ← List.append_assoc]
    exact .cons rfl (ih _)

/-- So much was copied of some mounts, and all of them if that was a success. -/
def UpdateResult.Copies (mounts : List (String × String)) (result : UpdateResult)
    (done : List (String × String)) : Prop :=
  done <+: mounts ∧ (result.isOk = true → done = mounts)

namespace Update

variable {u : Update}

theorem keeps_copying {done : List (String × String)} {r : Request} (h : r.copied = []) :
    copying.Keeps (· = done) r := by
  rintro _ rfl
  refine ⟨trivial, ?_⟩
  rintro reply _ rfl
  rw [h, List.append_nil]

theorem keeps_copying_of_waits {done : List (String × String)} {r : Request}
    (h : r.waits = true) : copying.Keeps (· = done) r := by
  cases r with
  | isRunning | isTerminated | pause => exact keeps_copying rfl
  | _ => cases h

theorem copying_writeTags {done : List (String × String)} (tags : List (String × String)) :
    copying.Stays (· = done) (u.writeTags tags) :=
  stays_calling (fun _ => keeps_copying rfl) (stays_make (keeps_copying rfl))

/-- Before and after the mounts are copied, an update copies nothing. -/
theorem copies_andThen {α : Type} {mounts done : List (String × String)}
    {step : Routine (Except UpdateError α)} {next : α → Routine UpdateResult}
    (hdone : done <+: mounts) (hstep : copying.Stays (· = done) step)
    (hnext : ∀ a, (next a).Meets copying (UpdateResult.Copies mounts) done) :
    (andThen step next).Meets copying (UpdateResult.Copies mounts) done := by
  refine meets_andThen (hstep done rfl) ?_ ?_
  · rintro e _ rfl
    exact ⟨hdone, fun hok => nomatch hok⟩
  · rintro a _ rfl
    exact hnext a

theorem copies_syncMounts (runner : Runner) (done mounts : List (String × String)) :
    (syncMounts runner mounts).Meets copying (UpdateResult.Copies (done ++ mounts)) done := by
  induction mounts generalizing done with
  | nil =>
    rw [List.append_nil]
    exact ⟨List.prefix_rfl, fun _ => rfl⟩
  | cons mount rest ih =>
    refine ⟨trivial, ?_⟩
    rintro reply _ rfl
    have hsplit : done ++ mount :: rest = (done ++ [mount]) ++ rest := by simp
    cases reply with
    | error e => exact ⟨⟨rest, hsplit.symm⟩, fun hok => nomatch hok⟩
    | ok _ =>
      rw [hsplit]
      exact ih (done ++ [mount])

theorem copies_apply :
    u.apply.Meets copying (UpdateResult.Copies u.request.mounts.entries) [] := by
  unfold apply
  refine copies_andThen List.nil_prefix (copying_writeTags _) fun _ => ?_
  refine copies_andThen List.nil_prefix
    (stays_awaitRunning (fun _ hr => keeps_copying_of_waits hr) _) fun _ => ?_
  refine copies_andThen List.nil_prefix (stays_commandRunner (keeps_copying rfl)) fun runner => ?_
  refine copies_andThen List.nil_prefix
    (stays_awaitShell (fun _ hr => keeps_copying_of_waits hr) (keeps_copying rfl) _) fun _ => ?_
  refine copies_andThen List.nil_prefix (copying_writeTags _) fun _ => ?_
  -- once the mounts have been copied, nothing more is
  refine meets_bind.mpr ((copies_syncMounts runner [] _).mono ?_)
  rintro (e | _) done ⟨hdone, hall⟩
  · exact ⟨hdone, fun hok => nomatch hok⟩
  obtain rfl := hall rfl
  refine copies_andThen List.prefix_rfl (copying_writeTags _) fun _ => ?_
  refine copies_andThen List.prefix_rfl (stays_runCommands (fun _ => keeps_copying rfl) _)
    fun _ => ?_
  refine (copying_writeTags _ _ rfl).mono ?_
  rintro result _ rfl
  exact ⟨List.prefix_rfl, fun _ => rfl⟩

/-- In every run an update copies its mounts in order, and all of them if it succeeds. -/
theorem copies_of_runs {trace : List RequestExchange} {result : UpdateResult}
    (hrun : Runs u.routine trace result) :
    result.Copies u.request.mounts.entries (copiedIn trace) := by
  have hroutine : u.routine.Meets copying (UpdateResult.Copies u.request.mounts.entries) [] := by
    refine meets_bind.mpr (copies_apply.mono ?_)
    rintro (e | _) done hcopies
    · refine meets_bind.mpr ((copying_writeTags _ _ rfl).mono ?_)
      rintro _ _ rfl
      exact ⟨hcopies.1, fun hok => nomatch hok⟩
    · exact hcopies
  exact hroutine.result hrun (follows_copying [] trace)

end Update

end ClusterScaler
