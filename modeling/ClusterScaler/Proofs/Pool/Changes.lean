import ClusterScaler.Proofs.Pool.Encoding

/-!
# What a change does to a pool of hosts

Nodes are made, given up and tagged. What such a change does to the hosts, and whether they are
written, is decided by the hosts alone. The pool keeps the change whether or not the write succeeds.
-/

set_option autoImplicit false

namespace ClusterScaler

/-- A change of a pool. -/
inductive PoolChange where
  | create (nodeType : String) (tags : Tags) (count : Nat)
  | terminate (node : NodeId)
  | setTags (node : NodeId) (tags : Tags)

namespace HostTable

/-- Every host is still there, under no lower generation. -/
def Grows (hosts hosts' : HostTable) : Prop := ∀ address r, hosts.get? address = some r →
  ∃ r', hosts'.get? address = some r' ∧ r.generation ≤ r'.generation

theorem Grows.refl (hosts : HostTable) : hosts.Grows hosts :=
  fun _ r h => ⟨r, h, Nat.le_refl _⟩

theorem Grows.trans {hosts hosts' hosts'' : HostTable} (h : hosts.Grows hosts')
    (h' : hosts'.Grows hosts'') : hosts.Grows hosts'' := by
  intro address r hr
  obtain ⟨r', hr', hle⟩ := h address r hr
  obtain ⟨r'', hr'', hle'⟩ := h' address r' hr'
  exact ⟨r'', hr'', Nat.le_trans hle hle'⟩

theorem Grows.insert {hosts : HostTable} {address : String} {r r' : HostRecord}
    (hr : hosts.get? address = some r) (hle : r.generation ≤ r'.generation) :
    hosts.Grows (hosts.insert address r') := by
  intro a s hs
  by_cases ha : a = address
  · subst ha
    obtain rfl : r = s := Option.some.inj (hr.symm.trans hs)
    exact ⟨r', Table.get?_insert_self, hle⟩
  · exact ⟨s, by rw [Table.get?_insert_of_ne ha, hs], Nat.le_refl _⟩

theorem Fits.of_grows {hosts hosts' : HostTable} (h : hosts'.Fits) (hgrows : hosts.Grows hosts') :
    hosts.Fits := by
  rintro ⟨address, r⟩ he
  obtain ⟨r', hr', hle⟩ := hgrows address r (Table.get?_eq_some_iff.mpr he)
  exact Nat.lt_of_le_of_lt hle (h _ (Table.get?_eq_some_iff.mp hr'))

end HostTable

namespace HostPool

theorem grows_update {f : HostRecord → HostRecord} (hf : ∀ r, r.generation ≤ (f r).generation)
    (p : HostPool) (addresses : List String) : p.hosts.Grows (p.update f addresses).hosts := by
  apply List.foldlRecOn (motive := fun hosts : HostTable => p.hosts.Grows hosts) addresses
  · exact .refl _
  · intro hosts hgrows address _
    split
    · next r hr => exact hgrows.trans (.insert hr (hf r))
    · exact hgrows

end HostPool

namespace PoolChange

variable {σ : Type}

/-- Carry a change out. -/
def run (saver : Saver σ) (p : HostPool) (store : σ) :
    PoolChange → ProviderResult Unit × HostPool × σ
  | create nodeType tags count => p.createNodes saver store nodeType tags count
  | terminate node => p.terminateNode saver store node
  | setTags node tags => p.setNodeTags saver store node tags

/-- What a change does where every write succeeds: its result, the pool after it, and whether the
pool is written at all. -/
def outcome (p : HostPool) (c : PoolChange) : ProviderResult Unit × HostPool × Bool :=
  c.run ⟨fun _ _ => (.ok (), true)⟩ p false

/-- The pool after a change. -/
def applied (p : HostPool) (c : PoolChange) : HostPool := (c.outcome p).2.1

/-- Whether a change is one that is written. -/
def writes (p : HostPool) (c : PoolChange) : Bool := (c.outcome p).2.2

/-- The saver decides neither what a change does to the pool nor whether the pool is written. -/
theorem run_eq (saver : Saver σ) (p : HostPool) (store : σ) (c : PoolChange) :
    c.run saver p store =
      if c.writes p then HostPool.persist saver (c.applied p) store
      else ((c.outcome p).1, p, store) := by
  cases c with
  | create nodeType tags count =>
    simp only [writes, applied, outcome, run, HostPool.createNodes]
    split <;> rfl
  | terminate node =>
    cases hfound : p.lookup node with
    | error e => simp only [writes, applied, outcome, run, HostPool.terminateNode, hfound]; rfl
    | ok found =>
      simp only [writes, applied, outcome, run, HostPool.terminateNode, hfound]
      split <;> rfl
  | setTags node tags =>
    cases hfound : p.live node <;>
      simp only [writes, applied, outcome, run, HostPool.setNodeTags, hfound] <;> rfl

/-- What is not written is not changed. -/
theorem applied_eq {p : HostPool} {c : PoolChange} (h : c.writes p = false) : c.applied p = p := by
  have hrun := c.run_eq ⟨fun _ _ => (.ok (), true)⟩ p false
  rw [h, if_neg Bool.false_ne_true] at hrun
  unfold applied outcome
  rw [hrun]

theorem run_of_writes {saver : Saver σ} {p : HostPool} {store : σ} {c : PoolChange}
    (h : c.writes p = true) : c.run saver p store =
      ((saver.save (c.applied p).hosts store).1, c.applied p,
        (saver.save (c.applied p).hosts store).2) := by
  rw [run_eq, h, if_pos rfl]
  rfl

theorem run_of_not_writes {saver : Saver σ} {p : HostPool} {store : σ} {c : PoolChange}
    (h : c.writes p = false) : c.run saver p store = ((c.outcome p).1, p, store) := by
  rw [run_eq, h, if_neg Bool.false_ne_true]

/-- The pool after a change does not depend on whether it could be saved. -/
theorem pool_run (saver : Saver σ) (p : HostPool) (store : σ) (c : PoolChange) :
    (c.run saver p store).2.1 = c.applied p := by
  cases h : c.writes p with
  | true => rw [run_of_writes h]
  | false => rw [run_of_not_writes h, applied_eq h]

theorem grows_applied (p : HostPool) (c : PoolChange) : p.hosts.Grows (c.applied p).hosts := by
  unfold applied outcome run
  cases c with
  | create nodeType tags count =>
    dsimp only
    unfold HostPool.createNodes
    dsimp only
    split
    · exact .refl _
    · exact p.grows_update (fun _ => Nat.le_succ _) _
  | terminate node =>
    dsimp only
    unfold HostPool.terminateNode
    cases p.lookup node with
    | error e => exact .refl _
    | ok found =>
      obtain ⟨address, r, generation⟩ := found
      dsimp only
      split
      · exact p.grows_update (f := HostRecord.released) (fun _ => Nat.le_refl _) _
      · exact .refl _
  | setTags node tags =>
    dsimp only
    unfold HostPool.setNodeTags
    cases p.live node with
    | error e => exact .refl _
    | ok found =>
      exact p.grows_update (f := fun r => { r with tags := r.tags.overlay tags })
        (fun _ => Nat.le_refl _) _

end PoolChange

end ClusterScaler
