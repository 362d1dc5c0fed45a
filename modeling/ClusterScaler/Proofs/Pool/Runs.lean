import ClusterScaler.Proofs.Pool.Lives
import Mathlib.Data.List.Nodup

/-!
# The nodes of a pool over its changes

A pool that was opened without anything saved hands out each identifier once. What it answers about
a node follows the claims of its host: a node that is given up stays so, and a request for nodes
gets as many as it asks for, on free hosts, or changes nothing.
-/

set_option autoImplicit false

namespace ClusterScaler

variable {σ : Type} {p p' : HostPool} {address nodeType : String} {r : HostRecord} {id : NodeId}
  {tags : Tags} {count : Nat}

namespace HostPool

/-- A pool has new nodes of a type: so many, each on a host of the type that was free, with just
these tags. No node is gone, and no other host has changed. -/
structure Enlarged (p p' : HostPool) (nodeType : String) (tags : Tags) (count : Nat) : Prop where
  many : (p.newlyListed p').length = count
  listed : (p'.listNodes ∅).Perm (p.listNodes ∅ ++ p.newlyListed p')
  placed : ∀ id ∈ p.newlyListed p', ∃ address r, p.hosts.get? address = some r ∧
    r.nodeType = nodeType ∧ r.state = .free ∧ id = (r.claimed tags).nodeId address ∧
    p'.hosts.get? address = some (r.claimed tags)
  tagged : ∀ id ∈ p.newlyListed p', p'.nodeTags id = .ok tags
  others : ∀ address, p'.hosts.get? address ≠ p.hosts.get? address →
    ∃ r : HostRecord, r.nodeId address ∈ p.newlyListed p'

/-- The host of a node that was handed out is there, and its generation is no lower since. -/
def Past (p : HostPool) (address : String) (generation : Nat) : Prop :=
  ∃ r, p.hosts.get? address = some r ∧ generation ≤ r.generation

theorem splitId_of_past (hfits : p.hosts.Fits) (h : p.Past address r.generation) :
    splitId (r.nodeId address) = some (address, r.generation) := by
  obtain ⟨s, hs, hle⟩ := h
  exact HostRecord.splitId_nodeId (Nat.lt_of_le_of_lt hle (hfits _ (Table.get?_eq_some_iff.mp hs)))

/-- The host is there, and the generation was given up: it is over, or the host is free. -/
def GivenUp (p : HostPool) (address : String) (generation : Nat) : Prop :=
  ∃ r, p.hosts.get? address = some r ∧ generation ≤ r.generation ∧ isLive r generation = false

theorem Past.givenUp (h : p.Past address r.generation)
    (hnot : r.nodeId address ∉ p.listNodes ∅) : p.GivenUp address r.generation := by
  obtain ⟨s, hs, hle⟩ := h
  refine ⟨s, hs, hle, ?_⟩
  rw [← Bool.not_eq_true, isLive_iff]
  rintro ⟨hrunning, hgeneration⟩
  exact hnot (mem_listNodes_iff.mpr
    ⟨address, s, hs, hrunning, rfl, HostRecord.nodeId_inj.mpr ⟨rfl, hgeneration⟩⟩)

theorem GivenUp.applied (h : p.GivenUp address r.generation) (c : PoolChange) :
    (c.applied p).GivenUp address r.generation := by
  obtain ⟨s, hs, hle, hnot⟩ := h
  obtain ⟨s', hs', hmoves⟩ := PoolChange.moves_to (c := c) hs
  exact ⟨s', hs', Nat.le_trans hle hmoves.generation_le, hmoves.not_live hle hnot⟩

theorem GivenUp.foldl (h : p.GivenUp address r.generation) (cs : List PoolChange) :
    (cs.foldl PoolChange.applied p).GivenUp address r.generation := by
  induction cs generalizing p with
  | nil => exact h
  | cons c cs ih => exact ih (h.applied c)

/-- A node that was given up is not listed. -/
theorem GivenUp.notMem_listNodes (h : p.GivenUp address r.generation) (filter : Tags) :
    r.nodeId address ∉ p.listNodes filter := by
  obtain ⟨s, hs, -, hnot⟩ := h
  rw [mem_listNodes_iff]
  rintro ⟨a, s', hs', hrunning, -, hid⟩
  obtain ⟨rfl, hgeneration⟩ := HostRecord.nodeId_inj.mp hid
  obtain rfl : s = s' := Option.some.inj (hs.symm.trans hs')
  rw [← Bool.not_eq_true, isLive_iff] at hnot
  exact hnot ⟨hrunning, hgeneration⟩

/-- A node that was given up does not run and is terminated. -/
theorem GivenUp.answers (hfits : p.hosts.Fits) (h : p.GivenUp address r.generation) :
    p.isRunning (r.nodeId address) = .ok false ∧
      p.isTerminated (r.nodeId address) = .ok true := by
  obtain ⟨s, hs, hle, hnot⟩ := h
  have hid := splitId_of_past hfits ⟨s, hs, hle⟩
  rw [isRunning_of_splitId hid hs, isTerminated_of_splitId hid hs, hnot]
  exact ⟨rfl, rfl⟩

/-- A pool that is opened has the configured hosts, merged with those that were saved. -/
theorem open_eq_ok {hosts : Table String (List String)} {externalIps : Table String String}
    {statePath : Option String} {files files' : FileStore}
    (hopen : HostPool.open hosts externalIps statePath files = (.ok p, files')) :
    ∃ saved, (∀ path ∈ statePath, load files path = .ok saved) ∧
      (statePath = none → saved = ∅) ∧
      p = ⟨merge saved (configuredHosts hosts), externalIps, statePath⟩ ∧
      (Saver.ofPath? statePath).save p.hosts files = (.ok (), files') := by
  unfold HostPool.open at hopen
  dsimp only at hopen
  split at hopen
  · cases hopen
  · next saved hsaved =>
    split at hopen
    · next saveResult hsave =>
      cases hopen
      refine ⟨saved, ?_, ?_, rfl, hsave⟩
      · rintro path hpath
        obtain rfl := Option.mem_def.mp hpath
        exact hsaved
      · rintro rfl
        exact (Except.ok.inj hsaved).symm
    · cases hopen

/-- A pool that is opened without anything saved has the configured hosts, none of them claimed. -/
theorem open_unsaved {hosts : Table String (List String)} {externalIps : Table String String}
    {statePath : Option String} {files files' : FileStore}
    (hopen : HostPool.open hosts externalIps statePath files = (.ok p, files'))
    (hunsaved : ∀ path ∈ statePath, files.exists path = false) :
    p.hosts = merge ∅ (configuredHosts hosts) := by
  obtain ⟨saved, hload, hnone, rfl, -⟩ := open_eq_ok hopen
  have hsaved : saved = ∅ := by
    cases statePath with
    | none => exact hnone rfl
    | some path =>
      have hloaded := hload path rfl
      unfold load at hloaded
      rw [hunsaved path rfl] at hloaded
      exact (Except.ok.inj hloaded).symm
  rw [hsaved]

/-- In a pool that was opened without anything saved every listed host is there, and free. -/
theorem get?_merge_empty (hosts : Table String (List String)) :
    (merge ∅ (configuredHosts hosts)).get? address =
      (listings (configuredHosts hosts) address).getLast?.map .fresh := by
  refine get?_merge_of_not_keeps ?_
  rintro ⟨r, hr, -⟩
  cases hr

theorem isSome_get?_merge_empty {hosts : Table String (List String)}
    (h : address ∈ (configuredHosts hosts).map (·.2)) :
    ∃ r, (merge ∅ (configuredHosts hosts)).get? address = some r := by
  rw [get?_merge_empty]
  obtain ⟨listed, hmem, rfl⟩ := List.mem_map.mp h
  have hlisted : listed.1 ∈ listings (configuredHosts hosts) listed.2 :=
    List.mem_map.mpr ⟨listed, List.mem_filter.mpr ⟨hmem, by simp⟩, rfl⟩
  rw [List.getLast?_eq_some_getLast (List.ne_nil_of_mem hlisted)]
  exact ⟨_, rfl⟩

/-- A node that is listed is found. -/
theorem lookup_of_mem_listNodes {filter : Tags} (hfits : p.hosts.Fits)
    (h : id ∈ p.listNodes filter) : ∃ address r, r.state = .running ∧
      p.hosts.get? address = some r ∧ p.lookup id = .ok (address, r, r.generation) := by
  obtain ⟨address, r, hr, hrunning, -, rfl⟩ := mem_listNodes_iff.mp h
  have hid := splitId_of_past hfits ⟨r, hr, Nat.le_refl _⟩
  exact ⟨address, r, hrunning, hr, lookup_eq_ok_iff.mpr ⟨hid, hr⟩⟩

/-- A node that was released is not listed. -/
theorem notMem_listNodes_terminate (id : NodeId)
    (hfits : ((PoolChange.terminate id).applied p).hosts.Fits) :
    id ∉ ((PoolChange.terminate id).applied p).listNodes ∅ := by
  intro hlisted
  obtain ⟨a, s, hrunning, hs, hfound⟩ := lookup_of_mem_listNodes hfits hlisted
  have hid := (lookup_eq_ok_iff.mp hfound).1
  unfold PoolChange.applied PoolChange.outcome PoolChange.run terminateNode at hs
  dsimp only at hs
  cases hlookup : p.lookup id with
  | error e =>
    rw [hlookup] at hs
    rw [lookup_eq_ok_iff.mpr ⟨hid, hs⟩] at hlookup
    cases hlookup
  | ok found =>
    obtain ⟨address, r, generation⟩ := found
    obtain ⟨hid', hr⟩ := lookup_eq_ok_iff.mp hlookup
    obtain ⟨rfl, rfl⟩ := Prod.mk.inj (Option.some.inj (hid'.symm.trans hid))
    rw [hlookup] at hs
    dsimp only at hs
    split at hs
    · change (p.update (·.released) [address]).hosts.get? address = some s at hs
      rw [get?_update (List.pairwise_singleton _ _), if_pos List.mem_cons_self, hr] at hs
      cases hs
      cases hrunning
    · next hnot =>
      obtain rfl : r = s := Option.some.inj (hr.symm.trans hs)
      exact hnot (isLive_iff.mpr ⟨hrunning, rfl⟩)

/-- The nodes that changes hand out are of hosts that are there. -/
theorem past_of_mem_handedOut {cs : List PoolChange}
    (h : id ∈ PoolStep.handedOut p (cs.map .change)) : ∃ address, ∃ r : HostRecord,
      id = r.nodeId address ∧ (cs.foldl PoolChange.applied p).Past address r.generation := by
  induction cs generalizing p with
  | nil => cases h
  | cons c cs ih =>
    rcases PoolStep.mem_handedOut_cons_iff.mp h with hnow | hlater
    · obtain ⟨address, r, tags, -, -, hr', rfl⟩ := PoolChange.mem_newlyListed_applied_iff.mp hnow
      exact ⟨address, r.claimed tags, rfl, PoolSession.grows_foldl _ cs address _ hr'⟩
    · exact ih hlater

/-- With enough free hosts of a type, the first ones by address are claimed. -/
theorem applied_create (h : count ≤ (p.freeHosts nodeType).length) :
    (PoolChange.create nodeType tags count).applied p =
      p.update (·.claimed tags) ((p.freeHosts nodeType).take count) := by
  have henough : ¬ ((p.freeHosts nodeType).take count).length < count := by
    rw [List.length_take]
    omega
  unfold PoolChange.applied PoolChange.outcome PoolChange.run createNodes
  dsimp only
  rw [if_neg henough]
  rfl

/-- The node that a host carries after a claim. -/
def nextNode (p : HostPool) (tags : Tags) (address : String) : NodeId :=
  match p.hosts.get? address with
  | some r => (r.claimed tags).nodeId address
  | none => ⟨address⟩

/-- The nodes of the claimed hosts are those that are new. -/
theorem newlyListed_create_perm (h : count ≤ (p.freeHosts nodeType).length) :
    (p.newlyListed ((PoolChange.create nodeType tags count).applied p)).Perm
      (((p.freeHosts nodeType).take count).map (p.nextNode tags)) := by
  have hnodup : ((p.freeHosts nodeType).take count).Nodup :=
    (nodup_freeHosts nodeType).sublist (List.take_sublist _ _)
  have hfree : ∀ address ∈ (p.freeHosts nodeType).take count, ∃ r,
      p.hosts.get? address = some r ∧ r.nodeType = nodeType ∧ r.state = .free := fun _ hmem =>
    mem_freeHosts_iff.mp (List.mem_of_mem_take hmem)
  refine (List.perm_ext_iff_of_nodup (nodup_newlyListed _ _) ?_).mpr ?_
  · refine List.Nodup.map_on ?_ hnodup
    intro address hmem address' hmem' hsame
    obtain ⟨r, hr, -⟩ := hfree address hmem
    obtain ⟨r', hr', -⟩ := hfree address' hmem'
    unfold nextNode at hsame
    rw [hr, hr'] at hsame
    exact (HostRecord.nodeId_inj.mp hsame).1
  · intro id
    rw [PoolChange.mem_newlyListed_applied_iff, applied_create h, List.mem_map]
    constructor
    · rintro ⟨address, r, tags', hr, -, hr', rfl⟩
      rw [get?_update hnodup, hr] at hr'
      split at hr'
      · next hmem =>
        refine ⟨address, hmem, ?_⟩
        unfold nextNode
        rw [hr]
        exact congrArg (HostRecord.nodeId · address) (Option.some.inj hr')
      · have hgeneration := congrArg HostRecord.generation (Option.some.inj hr')
        exact absurd hgeneration.symm (Nat.succ_ne_self _)
    · rintro ⟨address, hmem, rfl⟩
      obtain ⟨r, hr, -, hstate⟩ := hfree address hmem
      refine ⟨address, r, tags, hr, hstate, ?_, ?_⟩
      · rw [get?_update hnodup, if_pos hmem, hr]
        rfl
      · unfold nextNode
        rw [hr]

/-- A request that finds enough free hosts enlarges the pool by what it asks for. -/
theorem enlarged_create (h : count ≤ (p.freeHosts nodeType).length)
    (hfits : ((PoolChange.create nodeType tags count).applied p).hosts.Fits) :
    p.Enlarged ((PoolChange.create nodeType tags count).applied p) nodeType tags count := by
  have hnodup : ((p.freeHosts nodeType).take count).Nodup :=
    (nodup_freeHosts nodeType).sublist (List.take_sublist _ _)
  have hperm : (p.newlyListed ((PoolChange.create nodeType tags count).applied p)).Perm
      (((p.freeHosts nodeType).take count).map (p.nextNode tags)) := newlyListed_create_perm h
  have hplaced : ∀ id ∈ p.newlyListed ((PoolChange.create nodeType tags count).applied p),
      ∃ address r, p.hosts.get? address = some r ∧ r.nodeType = nodeType ∧ r.state = .free ∧
        id = (r.claimed tags).nodeId address ∧
        ((PoolChange.create nodeType tags count).applied p).hosts.get? address =
          some (r.claimed tags) := by
    intro id hid
    obtain ⟨address, hmem, rfl⟩ := List.mem_map.mp (hperm.mem_iff.mp hid)
    obtain ⟨r, hr, htype, hstate⟩ := mem_freeHosts_iff.mp (List.mem_of_mem_take hmem)
    refine ⟨address, r, hr, htype, hstate, ?_, ?_⟩
    · unfold nextNode
      rw [hr]
    · rw [applied_create h, get?_update hnodup, if_pos hmem, hr]
      rfl
  constructor
  case many => rw [hperm.length_eq, List.length_map, List.length_take, Nat.min_eq_left h]
  case placed => exact hplaced
  case listed =>
    have hdisjoint : (p.listNodes ∅ ++
        p.newlyListed ((PoolChange.create nodeType tags count).applied p)).Nodup := by
      refine List.nodup_append.mpr ⟨nodup_listNodes _ _, nodup_newlyListed _ _, ?_⟩
      rintro id hold _ hnew rfl
      exact (mem_newlyListed_iff.mp hnew).2 hold
    refine (List.perm_ext_iff_of_nodup (nodup_listNodes _ _) hdisjoint).mpr ?_
    intro id
    rw [List.mem_append, mem_newlyListed_iff]
    constructor
    · intro hid
      by_cases hold : id ∈ p.listNodes ∅
      · exact .inl hold
      · exact .inr ⟨hid, hold⟩
    · rintro (hold | ⟨hid, -⟩)
      · -- the host of a node that is listed is not free, so it is not among the claimed ones
        obtain ⟨address, r, hr, hrunning, -, rfl⟩ := mem_listNodes_iff.mp hold
        have hnot : address ∉ (p.freeHosts nodeType).take count := by
          intro hmem
          obtain ⟨s, hs, -, hfree⟩ := mem_freeHosts_iff.mp (List.mem_of_mem_take hmem)
          obtain rfl : r = s := Option.some.inj (hr.symm.trans hs)
          rw [hrunning] at hfree
          cases hfree
        refine mem_listNodes_iff.mpr ⟨address, r, ?_, hrunning, rfl, rfl⟩
        rw [applied_create h, get?_update hnodup, if_neg hnot, hr]
      · exact hid
  case tagged =>
    intro id hid
    obtain ⟨address, r, -, -, -, rfl, hr'⟩ := hplaced id hid
    have hsplit := splitId_of_past hfits ⟨r.claimed tags, hr', Nat.le_refl _⟩
    exact nodeTags_of_splitId hsplit hr' (isLive_iff.mpr ⟨rfl, rfl⟩)
  case others =>
    intro address hchanged
    rw [applied_create h, get?_update hnodup] at hchanged
    split at hchanged
    · next hmem =>
      obtain ⟨r, hr, -⟩ := mem_freeHosts_iff.mp (List.mem_of_mem_take hmem)
      refine ⟨r.claimed tags, hperm.mem_iff.mpr (List.mem_map.mpr ⟨address, hmem, ?_⟩)⟩
      unfold nextNode
      rw [hr]
    · exact absurd rfl hchanged

end HostPool

namespace PoolSession

/-- A request for more nodes than there are free hosts fails and changes nothing. -/
theorem change_create_of_lt {saver : Saver σ} {s : PoolSession σ}
    (h : (s.pool.freeHosts nodeType).length < count) :
    (s.change saver (.create nodeType tags count)).1.isOk = false ∧
      (s.change saver (.create nodeType tags count)).2 = s := by
  have hfew : ((s.pool.freeHosts nodeType).take count).length < count := by
    rw [List.length_take]
    omega
  have houtcome : ∃ e, (PoolChange.create nodeType tags count).outcome s.pool =
      (.error e, s.pool, false) := by
    unfold PoolChange.outcome PoolChange.run HostPool.createNodes
    dsimp only
    rw [if_pos hfew]
    exact ⟨_, rfl⟩
  obtain ⟨e, he⟩ := houtcome
  have hwrites : (PoolChange.create nodeType tags count).writes s.pool = false := by
    unfold PoolChange.writes
    rw [he]
  rw [change_of_not_writes hwrites, he]
  exact ⟨rfl, rfl⟩

/-- Of a pool that was opened without anything saved, over all changes: no identifier is handed out
twice. A node that was handed out and is no longer listed, as after its release, is never listed or
running again, and is terminated. Of an identifier that names a configured host, to run and to be
terminated are answered opposite ways. A request for nodes that succeeds enlarges the pool by just
the nodes it asks for, and one that finds too few free hosts changes nothing. -/
theorem claims_stay_apart {hosts : Table String (List String)}
    {externalIps : Table String String} {statePath : Option String} {files files' : FileStore}
    (hopen : HostPool.open hosts externalIps statePath files = (.ok p, files'))
    (hunsaved : ∀ path ∈ statePath, files.exists path = false)
    (saver : Saver σ) (store : σ) (cs : List PoolChange)
    (hfits : ((start p store).after saver cs).pool.hosts.Fits) :
    (PoolStep.handedOut p (cs.map .change)).Nodup ∧
      (∀ before rest id, cs = before ++ rest →
        id ∈ PoolStep.handedOut p (before.map .change) →
        id ∉ ((start p store).after saver before).pool.listNodes ∅ →
        (∀ filter, id ∉ ((start p store).after saver cs).pool.listNodes filter) ∧
          ((start p store).after saver cs).pool.isRunning id = .ok false ∧
          ((start p store).after saver cs).pool.isTerminated id = .ok true) ∧
      (∀ before id rest, cs = before ++ .terminate id :: rest →
        id ∉ ((start p store).after saver (before ++ [.terminate id])).pool.listNodes ∅) ∧
      (∀ address generation id, address ∈ (HostPool.configuredHosts hosts).map (·.2) →
        HostPool.splitId id = some (address, generation) →
        ∃ b, ((start p store).after saver cs).pool.isRunning id = .ok b ∧
          ((start p store).after saver cs).pool.isTerminated id = .ok !b) ∧
      ∀ before nodeType tags count rest, cs = before ++ .create nodeType tags count :: rest →
        let s := (start p store).after saver before
        let c := PoolChange.create nodeType tags count
        ((s.change saver c).1.isOk = true →
          s.pool.Enlarged (s.change saver c).2.pool nodeType tags count) ∧
        ((s.pool.freeHosts nodeType).length < count →
          (s.change saver c).1.isOk = false ∧ (s.change saver c).2 = s) := by
  have hafter : ∀ before, ((start p store).after saver before).pool =
      before.foldl PoolChange.applied p := fun before => pool_after _ before
  rw [hafter] at hfits ⊢
  refine ⟨?_, ?_, ?_, ?_, ?_⟩
  · refine PoolStep.nodup_handedOut ?_
    -- nothing but changes: the pool is never opened anew
    rintro address ⟨before, rest, hsplit, -, between, hosts, externalIps, later, rfl, -⟩
    have hmem : PoolStep.reopen hosts externalIps ∈ cs.map PoolStep.change := by
      rw [hsplit]
      simp
    obtain ⟨c, -, hc⟩ := List.mem_map.mp hmem
    cases hc
  · rintro before rest id rfl hmem hnot
    rw [hafter] at hnot
    obtain ⟨address, r, rfl, hpast⟩ := HostPool.past_of_mem_handedOut hmem
    have hover := (hpast.givenUp hnot).foldl rest
    rw [← List.foldl_append] at hover
    exact ⟨hover.notMem_listNodes, hover.answers hfits⟩
  · rintro before id rest rfl
    rw [hafter, List.foldl_append]
    refine HostPool.notMem_listNodes_terminate id ?_
    rw [← List.singleton_append, List.foldl_append, List.foldl_append] at hfits
    exact hfits.of_grows (grows_foldl _ rest)
  · intro address generation id hlisted hid
    obtain ⟨r, hr⟩ := HostPool.isSome_get?_merge_empty hlisted
    rw [← HostPool.open_unsaved hopen hunsaved] at hr
    obtain ⟨r', hr', -⟩ := grows_foldl p cs address r hr
    exact ⟨HostPool.isLive r' generation, HostPool.isRunning_of_splitId hid hr',
      HostPool.isTerminated_of_splitId hid hr'⟩
  · rintro before nodeType tags count rest rfl
    refine ⟨?_, change_create_of_lt⟩
    intro hok
    have henough : ¬ (((start p store).after saver before).pool.freeHosts nodeType).length <
        count := by
      intro hfew
      rw [(change_create_of_lt hfew).1] at hok
      cases hok
    rw [pool_change]
    refine HostPool.enlarged_create (Nat.not_lt.mp henough) ?_
    rw [hafter]
    rw [← List.singleton_append, List.foldl_append, List.foldl_append] at hfits
    exact hfits.of_grows (grows_foldl _ rest)

/-- Two hosts of a type. -/
def twoHosts : Table String (List String) := Table.ofList [("head", ["a", "b"])]

/-- The pool of the two hosts, both free. -/
def twoFree : HostPool := ⟨HostPool.merge ∅ (HostPool.configuredHosts twoHosts), ∅, none⟩

/-- A host is claimed, released and claimed again together with the other one, which exhausts the
pool: the next claim fails. -/
def claimedTwice : List PoolChange :=
  [.create "head" (Table.ofList [("k", "v")]) 1, .terminate ⟨"a#1"⟩, .create "head" ∅ 2,
    .create "head" ∅ 1]

/-- The host answers to its second identifier and not to the first any more. -/
theorem claims_stay_apart_twoHosts :
    HostPool.open twoHosts ∅ none FileStore.empty = (.ok twoFree, FileStore.empty) ∧
      (∀ path ∈ (none : Option String), FileStore.empty.exists path = false) ∧
      ((start twoFree ()).after (.none Unit) claimedTwice).pool.hosts.Fits ∧
      PoolStep.handedOut twoFree (claimedTwice.map .change) = [⟨"a#1"⟩, ⟨"a#2"⟩, ⟨"b#1"⟩] ∧
      ((start twoFree ()).after (.none Unit) claimedTwice).pool.isRunning ⟨"a#1"⟩ = .ok false ∧
      ((start twoFree ()).after (.none Unit) claimedTwice).pool.isRunning ⟨"a#2"⟩ = .ok true := by
  have hopen : HostPool.open twoHosts ∅ none FileStore.empty = (.ok twoFree, FileStore.empty) := rfl
  have hunsaved : ∀ path ∈ (none : Option String), FileStore.empty.exists path = false := by
    rintro path ⟨⟩
  have hfits : ((start twoFree ()).after (.none Unit) claimedTwice).pool.hosts.Fits := by
    unfold HostTable.Fits
    decide +kernel
  have hhanded : PoolStep.handedOut twoFree (claimedTwice.map .change) =
      [⟨"a#1"⟩, ⟨"a#2"⟩, ⟨"b#1"⟩] := by
    decide +kernel
  obtain ⟨-, hover, -⟩ := claims_stay_apart hopen hunsaved (.none Unit) () claimedTwice hfits
  have hreleased := hover [.create "head" (Table.ofList [("k", "v")]) 1, .terminate ⟨"a#1"⟩]
    [.create "head" ∅ 2, .create "head" ∅ 1] ⟨"a#1"⟩ rfl (by decide +kernel) (by decide +kernel)
  exact ⟨hopen, hunsaved, hfits, hhanded, hreleased.2.1, by decide +kernel⟩

end PoolSession

end ClusterScaler
