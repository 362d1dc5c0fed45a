import ClusterScaler.Proofs.Pool.Changes

/-!
# Which changes of a pool are transactions

A change would be a transaction if after a success the saved text were that of the hosts, and if
after a failure both were what they were before. But a change that could not be written stays in
memory, and a change that finds nothing to do succeeds over a text that was never brought up to
date.
-/

set_option autoImplicit false

namespace ClusterScaler

variable {σ : Type} {saver : Saver σ} {content : σ → String}

/-- A write replaces the text by that of the hosts, or it fails and leaves the text as it was. -/
structure Saver.Replaces (saver : Saver σ) (content : σ → String) : Prop where
  replaced : ∀ hosts store, (saver.save hosts store).1.isOk = true →
    content (saver.save hosts store).2 = hosts.encode
  kept : ∀ hosts store, (saver.save hosts store).1.isOk = false →
    content (saver.save hosts store).2 = content store

/-- A pool in use, what it is saved in, and the hosts that were last written there. -/
structure PoolSession (σ : Type) where
  pool : HostPool
  store : σ
  written : HostTable

namespace PoolSession

/-- A pool that has just been saved. -/
def start (p : HostPool) (store : σ) : PoolSession σ := ⟨p, store, p.hosts⟩

/-- Carry a change out. -/
def change (saver : Saver σ) (s : PoolSession σ) (c : PoolChange) :
    ProviderResult Unit × PoolSession σ :=
  let (result, pool, store) := c.run saver s.pool s.store
  (result, ⟨pool, store, if c.writes s.pool && result.isOk then pool.hosts else s.written⟩)

/-- Carry changes out in turn, whether or not they succeed. -/
def after (saver : Saver σ) (s : PoolSession σ) (cs : List PoolChange) : PoolSession σ :=
  cs.foldl (fun s c => (s.change saver c).2) s

/-- A change is a transaction: after a success the text is that of the hosts, and after a failure
hosts and text are the same as before. -/
def Transacts (saver : Saver σ) (content : σ → String) (s : PoolSession σ) (c : PoolChange) :
    Prop :=
  ((s.change saver c).1.isOk = true →
    HostTable.decode? (content (s.change saver c).2.store) =
      some (s.change saver c).2.pool.hosts) ∧
    ((s.change saver c).1.isOk = false → (s.change saver c).2.pool.hosts = s.pool.hosts ∧
      content (s.change saver c).2.store = content s.store)

theorem change_of_writes {s : PoolSession σ} {c : PoolChange} (h : c.writes s.pool = true) :
    s.change saver c = ((saver.save (c.applied s.pool).hosts s.store).1,
      ⟨c.applied s.pool, (saver.save (c.applied s.pool).hosts s.store).2,
        if (saver.save (c.applied s.pool).hosts s.store).1.isOk then (c.applied s.pool).hosts
        else s.written⟩) := by
  unfold change
  rw [PoolChange.run_of_writes h, h]
  rfl

theorem change_of_not_writes {s : PoolSession σ} {c : PoolChange} (h : c.writes s.pool = false) :
    s.change saver c = ((c.outcome s.pool).1, s) := by
  unfold change
  rw [PoolChange.run_of_not_writes h, h]
  rfl

theorem pool_change (s : PoolSession σ) (c : PoolChange) :
    (s.change saver c).2.pool = c.applied s.pool :=
  PoolChange.pool_run saver s.pool s.store c

/-- The pool after changes does not depend on which of them could be saved. -/
theorem pool_after (s : PoolSession σ) (cs : List PoolChange) :
    (s.after saver cs).pool = cs.foldl PoolChange.applied s.pool := by
  induction cs generalizing s with
  | nil => rfl
  | cons c cs ih =>
    have hrest := ih (s.change saver c).2
    rw [pool_change] at hrest
    exact hrest

theorem grows_foldl (p : HostPool) (cs : List PoolChange) :
    p.hosts.Grows (cs.foldl PoolChange.applied p).hosts := by
  induction cs generalizing p with
  | nil => exact .refl _
  | cons c cs ih => exact (c.grows_applied p).trans (ih _)

/-- The text stays that of the hosts that were last written, over one change. -/
theorem decode?_change (hsaver : saver.Replaces content) {s : PoolSession σ} {c : PoolChange}
    (hfits : (c.applied s.pool).hosts.Fits)
    (h : HostTable.decode? (content s.store) = some s.written) :
    HostTable.decode? (content (s.change saver c).2.store) =
      some (s.change saver c).2.written := by
  cases hwrites : c.writes s.pool with
  | false =>
    rw [change_of_not_writes hwrites]
    exact h
  | true =>
    rw [change_of_writes hwrites]
    dsimp only
    cases hsaved : (saver.save (c.applied s.pool).hosts s.store).1.isOk with
    | true => rw [hsaver.replaced _ _ hsaved, HostTable.decode?_encode hfits, if_pos rfl]
    | false => rw [hsaver.kept _ _ hsaved, h, if_neg Bool.false_ne_true]

/-- The text stays that of the hosts that were last written. -/
theorem decode?_after (hsaver : saver.Replaces content) {s : PoolSession σ} {cs : List PoolChange}
    (hfits : (cs.foldl PoolChange.applied s.pool).hosts.Fits)
    (h : HostTable.decode? (content s.store) = some s.written) :
    HostTable.decode? (content (s.after saver cs).store) = some (s.after saver cs).written := by
  induction cs generalizing s with
  | nil => exact h
  | cons c cs ih =>
    have hnext : (c.applied s.pool).hosts.Fits := hfits.of_grows (grows_foldl _ cs)
    refine ih ?_ (decode?_change hsaver hnext h)
    rw [pool_change]
    exact hfits

/-- A change is a transaction unless it could not be written and has changed something, or has
succeeded without a write although an earlier one is missing. -/
theorem transacts_iff_of_decode? (hsaver : saver.Replaces content) {s : PoolSession σ}
    {c : PoolChange} (hfits : (c.applied s.pool).hosts.Fits)
    (h : HostTable.decode? (content s.store) = some s.written) :
    s.Transacts saver content c ↔
      if c.writes s.pool then
        (s.change saver c).1.isOk = true ∨ (c.applied s.pool).hosts = s.pool.hosts
      else (s.change saver c).1.isOk = true → s.written = s.pool.hosts := by
  unfold Transacts
  cases hwrites : c.writes s.pool with
  | false =>
    rw [change_of_not_writes hwrites, if_neg Bool.false_ne_true, h]
    simp
  | true =>
    rw [change_of_writes hwrites, if_pos rfl]
    dsimp only
    cases hsaved : (saver.save (c.applied s.pool).hosts s.store).1.isOk with
    | true => simp [hsaver.replaced _ _ hsaved, HostTable.decode?_encode hfits]
    | false => simp [hsaver.kept _ _ hsaved]

/-- Over all changes and all failures of writes, the pool is what the changes make of it, the text
is that of the hosts that were last written, and a change is a transaction exactly if its write
succeeds or has nothing new to write, or if it has nothing to do and does not report success over an
outdated text. -/
theorem transacts_iff (hsaver : saver.Replaces content) {p : HostPool} {store : σ}
    (hstart : HostTable.decode? (content store) = some p.hosts) (cs : List PoolChange)
    (c : PoolChange) (hfits : ((cs ++ [c]).foldl PoolChange.applied p).hosts.Fits) :
    ((start p store).after saver cs).pool = cs.foldl PoolChange.applied p ∧
      HostTable.decode? (content ((start p store).after saver cs).store) =
        some ((start p store).after saver cs).written ∧
      (((start p store).after saver cs).Transacts saver content c ↔
        if c.writes (cs.foldl PoolChange.applied p) then
          (((start p store).after saver cs).change saver c).1.isOk = true ∨
            (c.applied (cs.foldl PoolChange.applied p)).hosts =
              (cs.foldl PoolChange.applied p).hosts
        else
          (((start p store).after saver cs).change saver c).1.isOk = true →
            ((start p store).after saver cs).written =
              (cs.foldl PoolChange.applied p).hosts) := by
  have hpool : ((start p store).after saver cs).pool = cs.foldl PoolChange.applied p :=
    pool_after _ cs
  rw [List.foldl_append] at hfits
  have hcurrent : (cs.foldl PoolChange.applied p).hosts.Fits :=
    hfits.of_grows (PoolChange.grows_applied _ c)
  have hdecodes := decode?_after hsaver (s := start p store) hcurrent hstart
  refine ⟨hpool, hdecodes, ?_⟩
  rw [transacts_iff_of_decode? hsaver (by rw [hpool]; exact hfits) hdecodes, hpool]

/-- A file whose next writes fail where the list says so. -/
def foretold : Saver (List Bool × String) :=
  ⟨fun hosts (failures, text) =>
    if failures.head? = some true then (.error (.transient "no space left"), failures.tail, text)
    else (.ok (), failures.tail, hosts.encode)⟩

theorem foretold_replaces : foretold.Replaces (·.2) := by
  constructor
  all_goals
    rintro hosts ⟨failures, text⟩ hresult
    unfold foretold at hresult ⊢
    dsimp only at hresult ⊢
    split at hresult
  · cases hresult
  · next hgoes => rw [if_neg hgoes]
  · next hfails => rw [if_pos hfails]
  · cases hresult

/-- A pool of one free host. -/
def singleHost : HostPool := ⟨Table.ofList [("a", .fresh "head")], ∅, some "state.json"⟩

/-- The host is claimed though the claim could not be written. The next write brings the text up to
date: to tag the node is a transaction. -/
theorem transacts_iff_singleHost :
    HostTable.decode? singleHost.hosts.encode = some singleHost.hosts ∧
      ([PoolChange.create "head" ∅ 1, .setTags ⟨"a#1"⟩ (Table.ofList [("k", "v")])].foldl
        PoolChange.applied singleHost).hosts.Fits ∧
      ((start singleHost ([true], singleHost.hosts.encode)).after foretold
        [.create "head" ∅ 1]).Transacts foretold (·.2)
          (.setTags ⟨"a#1"⟩ (Table.ofList [("k", "v")])) := by
  have hstart : HostTable.decode? singleHost.hosts.encode = some singleHost.hosts := by
    decide +kernel
  have hfits : ([PoolChange.create "head" ∅ 1, .setTags ⟨"a#1"⟩ (Table.ofList [("k", "v")])].foldl
      PoolChange.applied singleHost).hosts.Fits := by
    unfold HostTable.Fits
    decide +kernel
  have htransacts := @transacts_iff _ foretold (·.2) foretold_replaces singleHost
    ([true], singleHost.hosts.encode) hstart [.create "head" ∅ 1]
    (.setTags ⟨"a#1"⟩ (Table.ofList [("k", "v")])) hfits
  exact ⟨hstart, hfits, htransacts.2.2.mpr (by decide +kernel)⟩

/-- A claim that is reported as failed has claimed the host all the same. And once the release of a
node could not be written, to release it again succeeds while the text still has it running. -/
theorem not_transacts_singleHost :
    ¬ (start singleHost ([true], singleHost.hosts.encode)).Transacts foretold (·.2)
        (.create "head" ∅ 1) ∧
      ¬ ((start singleHost ([false, true], singleHost.hosts.encode)).after foretold
        [.create "head" ∅ 1, .terminate ⟨"a#1"⟩]).Transacts foretold (·.2)
          (.terminate ⟨"a#1"⟩) := by
  unfold Transacts
  decide +kernel

end PoolSession

end ClusterScaler
