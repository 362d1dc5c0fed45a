import ClusterScaler.Proofs.Config.Validation
import ClusterScaler.Proofs.Pool.Runs
import Mathlib.Algebra.GroupWithZero.Nat
import Mathlib.Data.List.Dedup

/-!
# Filling a pool

A request for nodes succeeds exactly if so many hosts of the type are free and the pool can be saved.
It takes just as many of them, so requests in a row succeed exactly if for every type they ask for no
more than there was to begin with, in whatever order and portions they come.

A pool that is opened has the distinct addresses for its hosts, each for the type of its last listing,
while an accepted configuration has only been checked for the length of its lists. The two agree where
no address is listed twice.
-/

set_option autoImplicit false

namespace ClusterScaler

variable {σ : Type} {p : HostPool} {nodeType other : String} {tags : Tags} {count : Nat}

/-- A request for nodes of a type. -/
structure NodeRequest where
  nodeType : String
  tags : Tags
  count : Nat

namespace NodeRequest

/-- A request as a change of a pool. -/
def change (r : NodeRequest) : PoolChange := .create r.nodeType r.tags r.count

/-- How many nodes of a type some requests ask for. -/
def asked (requests : List NodeRequest) (nodeType : String) : Nat :=
  ((requests.filter (·.nodeType = nodeType)).map (·.count)).sum

theorem asked_cons (r : NodeRequest) (requests : List NodeRequest) (nodeType : String) :
    asked (r :: requests) nodeType =
      (if r.nodeType = nodeType then r.count else 0) + asked requests nodeType := by
  unfold asked
  by_cases htype : r.nodeType = nodeType
  · simp [htype]
  · simp [htype]

/-- Requests fill a pool up if they ask for the maximum of every configured type, and for no other
types. -/
structure FillUp (types : Table String NodeTypeConfig) (requests : List NodeRequest) : Prop where
  full : ∀ name t, types.get? name = some t → asked requests name = t.maxWorkers
  configured : ∀ r ∈ requests, types.contains r.nodeType = true

theorem asked_eq_zero {requests : List NodeRequest}
    (h : ∀ r ∈ requests, r.nodeType ≠ nodeType) : asked requests nodeType = 0 := by
  have hnone : requests.filter (·.nodeType = nodeType) = [] := by
    rw [List.filter_eq_nil_iff]
    intro r hr
    simpa using h r hr
  simp [asked, hnone]

end NodeRequest

namespace HostPool

theorem mem_freeHosts_create_iff (h : count ≤ (p.freeHosts nodeType).length) {address : String} :
    address ∈ ((PoolChange.create nodeType tags count).applied p).freeHosts other ↔
      address ∈ p.freeHosts other ∧ address ∉ (p.freeHosts nodeType).take count := by
  have hnodup : ((p.freeHosts nodeType).take count).Nodup :=
    (nodup_freeHosts nodeType).sublist (List.take_sublist _ _)
  rw [mem_freeHosts_iff, mem_freeHosts_iff, applied_create h, get?_update hnodup]
  by_cases htaken : address ∈ (p.freeHosts nodeType).take count
  · -- a host that was taken is running
    simp [htaken, HostRecord.claimed]
  · simp [htaken]

/-- A request takes as many of the free hosts of its type as it asks for, and none of another. -/
theorem length_freeHosts_create (h : count ≤ (p.freeHosts nodeType).length) (tags : Tags)
    (other : String) :
    (((PoolChange.create nodeType tags count).applied p).freeHosts other).length +
        (if nodeType = other then count else 0) = (p.freeHosts other).length := by
  by_cases htype : nodeType = other
  · subst htype
    have hsplit : (p.freeHosts nodeType).take count ++ (p.freeHosts nodeType).drop count =
        p.freeHosts nodeType := List.take_append_drop _ _
    have hdisjoint : ((p.freeHosts nodeType).take count ++
        (p.freeHosts nodeType).drop count).Nodup := by
      rw [hsplit]
      exact nodup_freeHosts nodeType
    obtain ⟨-, hdrop, hapart⟩ := List.nodup_append.mp hdisjoint
    have hleft : (((PoolChange.create nodeType tags count).applied p).freeHosts nodeType).Perm
        ((p.freeHosts nodeType).drop count) := by
      refine (List.perm_ext_iff_of_nodup (nodup_freeHosts _) hdrop).mpr fun address => ?_
      rw [mem_freeHosts_create_iff h]
      constructor
      · rintro ⟨hfree, hnot⟩
        rw [← hsplit, List.mem_append] at hfree
        exact hfree.resolve_left hnot
      · intro hmem
        exact ⟨List.mem_of_mem_drop hmem, fun htaken => hapart _ htaken _ hmem rfl⟩
    rw [hleft.length_eq, List.length_drop, if_pos rfl]
    omega
  · have hsame : (((PoolChange.create nodeType tags count).applied p).freeHosts other).Perm
        (p.freeHosts other) := by
      refine (List.perm_ext_iff_of_nodup (nodup_freeHosts _) (nodup_freeHosts _)).mpr
        fun address => ?_
      rw [mem_freeHosts_create_iff h]
      refine and_iff_left_of_imp fun hfree htaken => htype ?_
      obtain ⟨r, hr, hof, -⟩ := mem_freeHosts_iff.mp hfree
      obtain ⟨r', hr', hof', -⟩ := mem_freeHosts_iff.mp (List.mem_of_mem_take htaken)
      obtain rfl : r = r' := Option.some.inj (hr.symm.trans hr')
      exact hof'.symm.trans hof
    rw [hsame.length_eq, if_neg htype, Nat.add_zero]

/-- The hosts of a type: the addresses whose last listing is for it, each once. -/
def hostsOf (hosts : Table String (List String)) (nodeType : String) : List String :=
  ((configuredHosts hosts).map (·.2)).dedup.filter
    (fun address => (listings (configuredHosts hosts) address).getLast? = some nodeType)

theorem mem_listings_iff {configured : List (String × String)} {address : String} :
    nodeType ∈ listings configured address ↔ (nodeType, address) ∈ configured := by
  unfold listings
  simp

/-- In a pool that was opened without anything saved all hosts are free. -/
theorem length_freeHosts_unsaved {hosts : Table String (List String)}
    (h : p.hosts = merge ∅ (configuredHosts hosts)) (nodeType : String) :
    (p.freeHosts nodeType).length = (hostsOf hosts nodeType).length := by
  refine List.Perm.length_eq ?_
  refine (List.perm_ext_iff_of_nodup (nodup_freeHosts _)
    ((List.nodup_dedup _).filter _)).mpr fun address => ?_
  rw [mem_freeHosts_iff, h, get?_merge_empty]
  simp only [List.mem_filter, List.mem_dedup, decide_eq_true_eq]
  constructor
  · rintro ⟨r, hr, rfl, -⟩
    obtain ⟨listed, hlast, rfl⟩ := Option.map_eq_some_iff.mp hr
    have hlisted := mem_listings_iff.mp (List.mem_of_getLast? hlast)
    exact ⟨List.mem_map.mpr ⟨_, hlisted, rfl⟩, hlast⟩
  · rintro ⟨-, hlast⟩
    exact ⟨.fresh nodeType, by rw [hlast]; rfl, rfl, rfl⟩

/-- Where no address is listed twice, a type has all the hosts that are listed for it. -/
theorem listed_le_hostsOf {hosts : Table String (List String)}
    (h : ((configuredHosts hosts).map (·.2)).Nodup) (nodeType : String) :
    ((hosts.get? nodeType).map List.length).getD 0 ≤ (hostsOf hosts nodeType).length := by
  cases hget : hosts.get? nodeType with
  | none => exact Nat.zero_le _
  | some addresses =>
    have hlisted : ∀ address ∈ addresses, (nodeType, address) ∈ configuredHosts hosts := by
      intro address hmem
      exact List.mem_flatMap.mpr ⟨(nodeType, addresses), Table.get?_eq_some_iff.mp hget,
        List.mem_map.mpr ⟨address, hmem, rfl⟩⟩
    have honce : ∀ address ∈ addresses, ∀ listed ∈ listings (configuredHosts hosts) address,
        listed = nodeType := by
      intro address hmem listed hlast
      have hsame := List.inj_on_of_nodup_map h (mem_listings_iff.mp hlast)
        (hlisted address hmem) rfl
      exact congrArg Prod.fst hsame
    have hsublist : (addresses.map (nodeType, ·)).Sublist (configuredHosts hosts) :=
      List.sublist_flatten_of_mem
        (List.mem_map.mpr ⟨(nodeType, addresses), Table.get?_eq_some_iff.mp hget, rfl⟩)
    have hnodup : addresses.Nodup := by
      have hmapped := h.sublist (hsublist.map (·.2))
      simpa [Function.comp_def] using hmapped
    refine (hnodup.subperm fun address hmem => ?_).length_le
    have hfirst := mem_listings_iff.mpr (hlisted address hmem)
    simp only [hostsOf, List.mem_filter, List.mem_dedup, decide_eq_true_eq]
    refine ⟨List.mem_map.mpr ⟨_, hlisted address hmem, rfl⟩, ?_⟩
    rw [List.getLast?_eq_some_getLast (List.ne_nil_of_mem hfirst)]
    exact congrArg some (honce address hmem _ (List.getLast_mem _))

end HostPool

namespace PoolSession

/-- Changes that are made in turn all succeed. -/
def Succeeds (saver : Saver σ) : PoolSession σ → List PoolChange → Prop
  | _, [] => True
  | s, c :: cs => (s.change saver c).1.isOk = true ∧ Succeeds saver (s.change saver c).2 cs

/-- While changes are made in turn, the hosts they lead to can all be saved. -/
def Saves (saver : Saver σ) : PoolSession σ → List PoolChange → Prop
  | _, [] => True
  | s, c :: cs => (saver.save (c.applied s.pool).hosts s.store).1.isOk = true ∧
      Saves saver (s.change saver c).2 cs

/-- A request succeeds exactly if it finds enough free hosts and they can be saved. -/
theorem change_create_isOk_iff (saver : Saver σ) (s : PoolSession σ) :
    (s.change saver (.create nodeType tags count)).1.isOk = true ↔
      count ≤ (s.pool.freeHosts nodeType).length ∧
        (saver.save ((PoolChange.create nodeType tags count).applied s.pool).hosts
          s.store).1.isOk = true := by
  by_cases henough : count ≤ (s.pool.freeHosts nodeType).length
  · have hwrites : (PoolChange.create nodeType tags count).writes s.pool = true := by
      have hmany : ¬ ((s.pool.freeHosts nodeType).take count).length < count := by
        rw [List.length_take]
        omega
      unfold PoolChange.writes PoolChange.outcome PoolChange.run HostPool.createNodes
      dsimp only
      rw [if_neg hmany]
      rfl
    rw [change_of_writes hwrites]
    exact (and_iff_right henough).symm
  · rw [(change_create_of_lt (Nat.lt_of_not_le henough)).1]
    simp [henough]

/-- Requests in a row succeed exactly if they ask for no more nodes of a type than there are free
hosts of it, and the pool can be saved after each. -/
theorem succeeds_requests_iff (saver : Saver σ) (s : PoolSession σ) (requests : List NodeRequest) :
    s.Succeeds saver (requests.map NodeRequest.change) ↔
      (∀ nodeType, NodeRequest.asked requests nodeType ≤ (s.pool.freeHosts nodeType).length) ∧
        s.Saves saver (requests.map NodeRequest.change) := by
  induction requests generalizing s with
  | nil => simp [Succeeds, Saves, NodeRequest.asked]
  | cons r requests ih =>
    have hasked := NodeRequest.asked_cons r requests
    simp only [List.map_cons, Succeeds, Saves, ih]
    unfold NodeRequest.change
    rw [change_create_isOk_iff, pool_change]
    constructor
    · rintro ⟨⟨henough, hsaved⟩, hrest, hsaves⟩
      refine ⟨fun nodeType => ?_, hsaved, hsaves⟩
      have htaken := HostPool.length_freeHosts_create henough r.tags nodeType
      have hmore := hrest nodeType
      have hall := hasked nodeType
      omega
    · rintro ⟨hrest, hsaved, hsaves⟩
      have henough : r.count ≤ (s.pool.freeHosts r.nodeType).length := by
        have hfirst := hrest r.nodeType
        rw [hasked, if_pos rfl] at hfirst
        omega
      refine ⟨⟨henough, hsaved⟩, fun nodeType => ?_, hsaves⟩
      have htaken := HostPool.length_freeHosts_create henough r.tags nodeType
      have hmore := hrest nodeType
      have hall := hasked nodeType
      omega

/-- Let an accepted configuration have a fixed pool, opened without anything saved. Requests for the
maximum of every type, in any order and any portions, all succeed exactly if every type has as many
hosts as it may use and the pool can be saved after each. Where no address is listed twice every type
does. -/
theorem fillUp_succeeds_iff {c : ClusterConfig} {sources files files' : FileStore}
    (hvalid : c.validate sources = .ok ()) {statePath : Option String}
    {hosts : Table String (List String)} {externalIps : Table String String}
    (hprovider : c.provider = .pool statePath hosts externalIps)
    (hopen : HostPool.open hosts externalIps statePath files = (.ok p, files'))
    (hunsaved : ∀ path ∈ statePath, files.exists path = false)
    (saver : Saver σ) (store : σ) {requests : List NodeRequest}
    (hfill : NodeRequest.FillUp c.nodeTypes requests) :
    ((start p store).Succeeds saver (requests.map NodeRequest.change) ↔
        (∀ name t, c.nodeTypes.get? name = some t →
          t.maxWorkers ≤ (HostPool.hostsOf hosts name).length) ∧
        (start p store).Saves saver (requests.map NodeRequest.change)) ∧
      (((HostPool.configuredHosts hosts).map (·.2)).Nodup →
        ∀ name t, c.nodeTypes.get? name = some t →
          t.maxWorkers ≤ (HostPool.hostsOf hosts name).length) := by
  have hfree : ∀ nodeType, ((start p store).pool.freeHosts nodeType).length =
      (HostPool.hostsOf hosts nodeType).length :=
    HostPool.length_freeHosts_unsaved (HostPool.open_unsaved hopen hunsaved)
  have hasked : (∀ nodeType,
        NodeRequest.asked requests nodeType ≤ (HostPool.hostsOf hosts nodeType).length) ↔
      ∀ name t, c.nodeTypes.get? name = some t →
        t.maxWorkers ≤ (HostPool.hostsOf hosts name).length := by
    constructor
    · intro henough name t ht
      rw [← hfill.full name t ht]
      exact henough name
    · intro henough nodeType
      cases ht : c.nodeTypes.get? nodeType with
      | some t =>
        rw [hfill.full nodeType t ht]
        exact henough nodeType t ht
      | none =>
        rw [NodeRequest.asked_eq_zero]
        · exact Nat.zero_le _
        · rintro r hr rfl
          have hconfigured := hfill.configured r hr
          simp [Table.contains, ht] at hconfigured
  refine ⟨?_, fun honce name t ht => ?_⟩
  · rw [succeeds_requests_iff]
    simp only [hfree, hasked]
  · exact Nat.le_trans (c.maxWorkers_le_listed hvalid hprovider ht)
      (HostPool.listed_le_hostsOf honce name)

end PoolSession

/-- A cluster with up to two heads and one worker on the hosts that are listed for them. -/
def ClusterConfig.twoHeads (heads workers : List String) : ClusterConfig where
  clusterName := "it"
  headNodeType := "head"
  provider := .pool none (Table.ofList [("head", heads), ("worker", workers)]) ∅
  nodeTypes := Table.ofList [("head", { maxWorkers := 2 }), ("worker", { maxWorkers := 1 })]

namespace PoolSession

/-- The pool of a cluster with up to two heads and one worker, all hosts free. -/
def ofTwoHeads (heads workers : List String) : HostPool :=
  ⟨HostPool.merge ∅ (HostPool.configuredHosts
    (Table.ofList [("head", heads), ("worker", workers)])), ∅, none⟩

/-- A head, the worker, and the other head. -/
def headByHead : List NodeRequest :=
  [⟨"head", ∅, 1⟩, ⟨"worker", ∅, 1⟩, ⟨"head", ∅, 1⟩]

theorem fillUp_headByHead (heads workers : List String) :
    NodeRequest.FillUp (ClusterConfig.twoHeads heads workers).nodeTypes headByHead := by
  have hentries : (ClusterConfig.twoHeads heads workers).nodeTypes.entries =
      [("head", { maxWorkers := 2 }), ("worker", { maxWorkers := 1 })] := rfl
  constructor
  case full =>
    intro name t ht
    rw [Table.get?_eq_some_iff, hentries] at ht
    simp only [List.mem_cons, Prod.mk.injEq, List.not_mem_nil, or_false] at ht
    rcases ht with ⟨rfl, rfl⟩ | ⟨rfl, rfl⟩
    · rfl
    · rfl
  case configured =>
    intro r hr
    simp only [headByHead, List.mem_cons, List.not_mem_nil, or_false] at hr
    rcases hr with rfl | rfl | rfl
    all_goals rfl

theorem fillUp_succeeds_iff_twoHeads :
    (ClusterConfig.twoHeads ["a", "b"] ["c"]).validate .empty = .ok () ∧
      HostPool.open (Table.ofList [("head", ["a", "b"]), ("worker", ["c"])]) ∅ none .empty =
        (.ok (ofTwoHeads ["a", "b"] ["c"]), .empty) ∧
      NodeRequest.FillUp (ClusterConfig.twoHeads ["a", "b"] ["c"]).nodeTypes headByHead ∧
      (start (ofTwoHeads ["a", "b"] ["c"]) ()).Succeeds (.none Unit)
        (headByHead.map NodeRequest.change) := by
  have hvalid : (ClusterConfig.twoHeads ["a", "b"] ["c"]).validate .empty = .ok () := rfl
  have hopen : HostPool.open (Table.ofList [("head", ["a", "b"]), ("worker", ["c"])]) ∅ none .empty =
      (.ok (ofTwoHeads ["a", "b"] ["c"]), .empty) := rfl
  have hunsaved : ∀ path ∈ (none : Option String), FileStore.empty.exists path = false := by
    rintro path ⟨⟩
  obtain ⟨hiff, honce⟩ := fillUp_succeeds_iff hvalid rfl hopen hunsaved (.none Unit) ()
    (fillUp_headByHead ["a", "b"] ["c"])
  exact ⟨hvalid, hopen, fillUp_headByHead _ _,
    hiff.mpr ⟨honce (by decide +kernel), rfl, rfl, rfl, trivial⟩⟩

/-- A host that is listed twice, for one type or for two, is counted twice by the check and is there
once: the maximum is accepted, and the last of the requests fails. -/
theorem fillUp_fails_listedTwice :
    (ClusterConfig.twoHeads ["a", "a"] ["c"]).validate .empty = .ok () ∧
      HostPool.open (Table.ofList [("head", ["a", "a"]), ("worker", ["c"])]) ∅ none .empty =
        (.ok (ofTwoHeads ["a", "a"] ["c"]), .empty) ∧
      NodeRequest.FillUp (ClusterConfig.twoHeads ["a", "a"] ["c"]).nodeTypes headByHead ∧
      ¬ (start (ofTwoHeads ["a", "a"] ["c"]) ()).Succeeds (.none Unit)
        (headByHead.map NodeRequest.change) ∧
      (ClusterConfig.twoHeads ["a", "b"] ["b"]).validate .empty = .ok () ∧
      HostPool.open (Table.ofList [("head", ["a", "b"]), ("worker", ["b"])]) ∅ none .empty =
        (.ok (ofTwoHeads ["a", "b"] ["b"]), .empty) ∧
      NodeRequest.FillUp (ClusterConfig.twoHeads ["a", "b"] ["b"]).nodeTypes headByHead ∧
      ¬ (start (ofTwoHeads ["a", "b"] ["b"]) ()).Succeeds (.none Unit)
        (headByHead.map NodeRequest.change) := by
  have hfails : ∀ heads workers,
      ((ofTwoHeads heads workers).freeHosts "head").length < 2 →
        ¬ (start (ofTwoHeads heads workers) ()).Succeeds (.none Unit)
          (headByHead.map NodeRequest.change) := by
    intro heads workers hfew hall
    have hasked := ((succeeds_requests_iff _ _ _).mp hall).1 "head"
    have htwo : NodeRequest.asked headByHead "head" = 2 := rfl
    have hpool : (start (ofTwoHeads heads workers) ()).pool = ofTwoHeads heads workers := rfl
    rw [htwo, hpool] at hasked
    omega
  exact ⟨rfl, rfl, fillUp_headByHead _ _, hfails _ _ (by decide +kernel), rfl, rfl,
    fillUp_headByHead _ _, hfails _ _ (by decide +kernel)⟩

end PoolSession

end ClusterScaler
