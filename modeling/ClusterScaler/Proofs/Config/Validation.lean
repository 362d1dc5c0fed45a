import ClusterScaler.Config.Validation
import ClusterScaler.Proofs.Table.Lookup

/-!
# What an accepted configuration promises

The checks run one after the other, so an accepted configuration has passed each of them.
-/

set_option autoImplicit false

namespace ClusterScaler

/-- Two steps succeed together exactly if each does. -/
theorem except_bind_eq_ok_iff {ε α β : Type} {x : Except ε α} {f : α → Except ε β} {b : β} :
    (x >>= f) = .ok b ↔ ∃ a, x = .ok a ∧ f a = .ok b := by
  cases x with
  | error e =>
    constructor
    · intro h
      cases h
    · rintro ⟨a, ha, -⟩
      cases ha
  | ok a =>
    constructor
    · intro h
      exact ⟨a, rfl, h⟩
    · rintro ⟨a', ha, h⟩
      cases ha
      exact h

theorem require_eq_ok_iff {kept : Bool} {fault : ConfigFault} {u : Unit} :
    require kept fault = .ok u ↔ kept = true := by
  unfold require
  cases kept <;> simp

theorem forM_eq_ok {ε α : Type} {f : α → Except ε Unit} {xs : List α} {u : Unit}
    (h : xs.forM f = .ok u) : ∀ x ∈ xs, f x = .ok () := by
  induction xs with
  | nil => exact fun x hx => absurd hx List.not_mem_nil
  | cons x rest ih =>
    have hcons : (f x >>= fun _ => rest.forM f) = .ok u := h
    rw [except_bind_eq_ok_iff] at hcons
    obtain ⟨_, hx, hrest⟩ := hcons
    intro y hy
    rcases List.mem_cons.mp hy with rfl | hy
    · exact hx
    · exact ih hrest y hy

namespace ClusterConfig

variable {c : ClusterConfig} {files : FileStore}

/-- The head type of an accepted configuration is configured, and all its types pass their
checks. -/
theorem types_of_validate (h : c.validate files = .ok ()) :
    c.nodeTypes.contains c.headNodeType = true ∧
      ∀ e ∈ c.nodeTypes.entries, e.2.check e.1 = .ok () := by
  unfold validate at h
  rw [except_bind_eq_ok_iff] at h
  obtain ⟨_, -, h⟩ := h
  rw [except_bind_eq_ok_iff] at h
  obtain ⟨_, -, h⟩ := h
  rw [except_bind_eq_ok_iff] at h
  obtain ⟨_, hhead, h⟩ := h
  rw [except_bind_eq_ok_iff] at h
  obtain ⟨_, htypes, -⟩ := h
  exact ⟨require_eq_ok_iff.mp hhead, forM_eq_ok htypes⟩

theorem minWorkers_le_maxWorkers (h : c.validate files = .ok ()) {name : String}
    {t : NodeTypeConfig} (ht : c.nodeTypes.get? name = some t) : t.minWorkers ≤ t.maxWorkers := by
  have hcheck := (types_of_validate h).2 (name, t) (Table.get?_eq_some_iff.mp ht)
  unfold NodeTypeConfig.check at hcheck
  rw [except_bind_eq_ok_iff] at hcheck
  obtain ⟨_, hlimits, -⟩ := hcheck
  simpa using require_eq_ok_iff.mp hlimits

/-- In an accepted configuration a fixed pool lists as many hosts for a type as the type may use. -/
theorem maxWorkers_le_listed (h : c.validate files = .ok ()) {statePath : Option String}
    {hosts : Table String (List String)} {externalIps : Table String String}
    (hprovider : c.provider = .pool statePath hosts externalIps) {name : String}
    {t : NodeTypeConfig} (ht : c.nodeTypes.get? name = some t) :
    t.maxWorkers ≤ ((hosts.get? name).map List.length).getD 0 := by
  unfold validate at h
  iterate 5
    rw [except_bind_eq_ok_iff] at h
    obtain ⟨_, -, h⟩ := h
  rw [hprovider] at h
  dsimp only at h
  rw [except_bind_eq_ok_iff] at h
  obtain ⟨_, hhosts, -⟩ := h
  unfold checkHosts at hhosts
  rw [except_bind_eq_ok_iff] at hhosts
  obtain ⟨_, -, hcounts⟩ := hhosts
  have hcount := forM_eq_ok hcounts (name, t) (Table.get?_eq_some_iff.mp ht)
  simpa using require_eq_ok_iff.mp hcount

/-- In an accepted configuration the order of types lists each configured type once. -/
theorem nodeTypeOrder_perm (h : c.validate files = .ok ()) :
    c.nodeTypeOrder.Perm c.nodeTypes.keys := by
  have hhead : c.headNodeType ∈ c.nodeTypes.keys :=
    Table.contains_eq_true_iff.mp (types_of_validate h).1
  unfold nodeTypeOrder
  rw [← c.nodeTypes.keys_nodup.erase_eq_filter]
  exact (List.perm_cons_erase hhead).symm

end ClusterConfig

end ClusterScaler
