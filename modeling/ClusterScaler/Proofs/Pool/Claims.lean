import ClusterScaler.Proofs.Pool.Identity
import ClusterScaler.Proofs.Pool.Transactions

/-!
# Which identifiers a pool hands out

A change moves a host at most once: a free one is claimed, a running one is released or tagged. A
claim raises the generation and nothing lowers it, so a node that is no longer live never is again,
and what is listed after a change but was not before are the nodes of the hosts it claimed.
-/

set_option autoImplicit false

namespace ClusterScaler

variable {p : HostPool} {address : String} {r r' : HostRecord} {id : NodeId}

/-- A host under one change of the pool. -/
inductive HostRecord.Moves : HostRecord → HostRecord → Prop where
  | stays (r : HostRecord) : Moves r r
  | claimed (r : HostRecord) (tags : Tags) (free : r.state = .free) : Moves r (r.claimed tags)
  | released (r : HostRecord) (running : r.state = .running) : Moves r r.released
  | tagged (r : HostRecord) (tags : Tags) (running : r.state = .running) : Moves r { r with tags }

namespace HostRecord

theorem Moves.generation_le (h : r.Moves r') : r.generation ≤ r'.generation := by
  cases h with
  | stays => exact Nat.le_refl _
  | claimed tags hfree => exact Nat.le_succ _
  | released hrunning => exact Nat.le_refl _
  | tagged tags hrunning => exact Nat.le_refl _

/-- A node that was handed out and is not live is not live after a change either. -/
theorem Moves.not_live (h : r.Moves r') {generation : Nat} (hle : generation ≤ r.generation)
    (hnot : HostPool.isLive r generation = false) : HostPool.isLive r' generation = false := by
  rw [← Bool.not_eq_true, HostPool.isLive_iff] at hnot ⊢
  cases h with
  | stays => exact hnot
  | claimed tags hfree =>
    rintro ⟨-, hgeneration⟩
    have hsucc : generation = r.generation + 1 := hgeneration
    omega
  | released hrunning =>
    rintro ⟨hstate, -⟩
    cases hstate
  | tagged tags hrunning => exact hnot

end HostRecord

/-- The table with the host of an address changed, if there is one. -/
def HostTable.alter (f : HostRecord → HostRecord) (hosts : HostTable) (address : String) :
    HostTable :=
  match hosts.get? address with
  | some r => hosts.insert address (f r)
  | none => hosts

theorem HostTable.get?_alter {f : HostRecord → HostRecord} {hosts : HostTable} {a : String} :
    (hosts.alter f a).get? address =
      if address = a then (hosts.get? address).map f else hosts.get? address := by
  unfold alter
  split
  · next r hr =>
    rw [Table.get?_insert]
    split
    · next heq =>
      rw [heq, hr]
      rfl
    · rfl
  · next hnone =>
    split
    · next heq =>
      rw [heq, hnone]
      rfl
    · rfl

namespace HostPool

theorem get?_update {f : HostRecord → HostRecord} {addresses : List String}
    (hnodup : addresses.Nodup) : (p.update f addresses).hosts.get? address =
      if address ∈ addresses then (p.hosts.get? address).map f else p.hosts.get? address := by
  change (addresses.foldl (HostTable.alter f) p.hosts).get? address = _
  generalize p.hosts = hosts
  induction addresses generalizing hosts with
  | nil => rfl
  | cons a rest ih =>
    rw [List.nodup_cons] at hnodup
    rw [List.foldl_cons, ih hnodup.2, HostTable.get?_alter]
    by_cases heq : address = a
    · subst heq
      rw [if_neg hnodup.1, if_pos rfl, if_pos List.mem_cons_self]
    · rw [if_neg heq]
      simp [heq]

theorem mem_freeHosts_iff {nodeType : String} : address ∈ p.freeHosts nodeType ↔
    ∃ r, p.hosts.get? address = some r ∧ r.nodeType = nodeType ∧ r.state = .free := by
  unfold freeHosts
  rw [Table.mem_keys_iff, Table.get?_filter, Option.isSome_iff_exists]
  simp only [Option.filter_eq_some_iff, Bool.and_eq_true, decide_eq_true_eq]

theorem nodup_freeHosts (nodeType : String) : (p.freeHosts nodeType).Nodup := Table.keys_nodup _

theorem live_eq_ok {found : String × HostRecord} (h : p.live id = .ok found) :
    p.hosts.get? found.1 = some found.2 ∧ found.2.state = .running := by
  unfold live at h
  cases hlookup : p.lookup id with
  | error e =>
    rw [hlookup] at h
    cases h
  | ok looked =>
    obtain ⟨a, s, generation⟩ := looked
    rw [hlookup] at h
    change (if isLive s generation = true then Except.ok (a, s) else _) = _ at h
    split at h
    · next hlive =>
      cases h
      exact ⟨(lookup_eq_ok_iff.mp hlookup).2, (isLive_iff.mp hlive).1⟩
    · cases h

end HostPool

namespace PoolChange

/-- A change leaves the pool alone, or it moves each of some hosts. -/
theorem applied_cases (p : HostPool) (c : PoolChange) : c.applied p = p ∨
    ∃ f addresses, c.applied p = p.update f addresses ∧ addresses.Nodup ∧
      ∀ address ∈ addresses, ∀ r, p.hosts.get? address = some r → r.Moves (f r) := by
  unfold applied outcome run
  cases c with
  | create nodeType tags count =>
    dsimp only
    unfold HostPool.createNodes
    dsimp only
    split
    · exact .inl rfl
    · refine .inr ⟨(·.claimed tags), _, rfl, (HostPool.nodup_freeHosts _).sublist
        (List.take_sublist _ _), ?_⟩
      intro address hmem r hr
      obtain ⟨s, hs, -, hfree⟩ := HostPool.mem_freeHosts_iff.mp (List.mem_of_mem_take hmem)
      obtain rfl : s = r := Option.some.inj (hs.symm.trans hr)
      exact .claimed s tags hfree
  | terminate node =>
    dsimp only
    unfold HostPool.terminateNode
    cases hlookup : p.lookup node with
    | error e => exact .inl rfl
    | ok found =>
      obtain ⟨address, s, generation⟩ := found
      dsimp only
      split
      · next hlive =>
        refine .inr ⟨HostRecord.released, [address], rfl, List.pairwise_singleton _ _, ?_⟩
        intro a hmem r hr
        obtain rfl := List.mem_singleton.mp hmem
        obtain rfl : s = r :=
          Option.some.inj ((HostPool.lookup_eq_ok_iff.mp hlookup).2.symm.trans hr)
        exact .released s (HostPool.isLive_iff.mp hlive).1
      · exact .inl rfl
  | setTags node tags =>
    dsimp only
    unfold HostPool.setNodeTags
    cases hlive : p.live node with
    | error e => exact .inl rfl
    | ok found =>
      refine .inr ⟨fun r => { r with tags := r.tags.overlay tags }, [found.1], rfl,
        List.pairwise_singleton _ _, ?_⟩
      intro a hmem r hr
      obtain rfl := List.mem_singleton.mp hmem
      obtain ⟨hfound, hrunning⟩ := HostPool.live_eq_ok hlive
      obtain rfl : found.2 = r := Option.some.inj (hfound.symm.trans hr)
      exact .tagged found.2 _ hrunning

/-- The hosts stay the same ones, and each moves at most once. -/
theorem moves_applied (p : HostPool) (c : PoolChange) (address : String) :
    Option.Rel HostRecord.Moves (p.hosts.get? address) ((c.applied p).hosts.get? address) := by
  have hsame : ∀ o : Option HostRecord, Option.Rel HostRecord.Moves o o := by
    intro o
    cases o with
    | none => exact .none
    | some r => exact .some (.stays r)
  obtain heq | ⟨f, addresses, heq, hnodup, hmoves⟩ := applied_cases p c
  · rw [heq]
    exact hsame _
  · rw [heq, HostPool.get?_update hnodup]
    split
    · next hmem =>
      cases hr : p.hosts.get? address with
      | none => exact .none
      | some r => exact .some (hmoves address hmem r hr)
    · exact hsame _

theorem statePath_applied (p : HostPool) (c : PoolChange) :
    (c.applied p).statePath = p.statePath := by
  obtain heq | ⟨f, addresses, heq, -⟩ := applied_cases p c
  · rw [heq]
  · rw [heq]
    rfl

/-- Where a host is after a change, it was before. -/
theorem moves_from {c : PoolChange} (hr' : (c.applied p).hosts.get? address = some r') :
    ∃ r, p.hosts.get? address = some r ∧ r.Moves r' := by
  have hmoves := moves_applied p c address
  rw [hr'] at hmoves
  cases hr : p.hosts.get? address with
  | none =>
    rw [hr] at hmoves
    cases hmoves
  | some r =>
    rw [hr] at hmoves
    cases hmoves with
    | some hmoves => exact ⟨r, rfl, hmoves⟩

/-- Where a host is before a change, it is after it. -/
theorem moves_to {c : PoolChange} (hr : p.hosts.get? address = some r) :
    ∃ r', (c.applied p).hosts.get? address = some r' ∧ r.Moves r' := by
  have hmoves := moves_applied p c address
  rw [hr] at hmoves
  cases hr' : (c.applied p).hosts.get? address with
  | none =>
    rw [hr'] at hmoves
    cases hmoves
  | some r' =>
    rw [hr'] at hmoves
    cases hmoves with
    | some hmoves => exact ⟨r', rfl, hmoves⟩

end PoolChange

/-- The nodes that are listed of the second pool but not of the first. -/
def HostPool.newlyListed (p p' : HostPool) : List NodeId :=
  (p'.listNodes ∅).filter (fun id => id ∉ p.listNodes ∅)

theorem HostPool.mem_newlyListed_iff {p' : HostPool} :
    id ∈ p.newlyListed p' ↔ id ∈ p'.listNodes ∅ ∧ id ∉ p.listNodes ∅ := by
  simp [newlyListed]

theorem HostPool.nodup_newlyListed (p p' : HostPool) : (p.newlyListed p').Nodup :=
  (nodup_listNodes p' ∅).filter _

/-- What a change hands out are the nodes of the hosts it claims. -/
theorem PoolChange.mem_newlyListed_applied_iff {c : PoolChange} :
    id ∈ p.newlyListed (c.applied p) ↔ ∃ address r tags, p.hosts.get? address = some r ∧
      r.state = .free ∧ (c.applied p).hosts.get? address = some (r.claimed tags) ∧
      id = (r.claimed tags).nodeId address := by
  rw [HostPool.mem_newlyListed_iff, HostPool.mem_listNodes_iff, HostPool.mem_listNodes_iff]
  constructor
  · rintro ⟨⟨address, r', hr', hrunning, -, rfl⟩, hnew⟩
    obtain ⟨r, hr, hmoves⟩ := moves_from hr'
    cases hmoves with
    | stays => exact absurd ⟨address, _, hr, hrunning, rfl, rfl⟩ hnew
    | claimed tags hfree => exact ⟨address, r, tags, hr, hfree, hr', rfl⟩
    | released => cases hrunning
    | tagged tags hbefore => exact absurd ⟨address, r, hr, hbefore, rfl, rfl⟩ hnew
  · rintro ⟨address, r, tags, hr, hfree, hr', rfl⟩
    refine ⟨⟨address, r.claimed tags, hr', rfl, rfl, rfl⟩, ?_⟩
    rintro ⟨a, s, hs, -, -, hid⟩
    obtain ⟨rfl, hgeneration⟩ := HostRecord.nodeId_inj.mp hid
    obtain rfl : r = s := Option.some.inj (hr.symm.trans hs)
    exact Nat.succ_ne_self _ hgeneration

end ClusterScaler
