import ClusterScaler.Proofs.Pool.Claims

/-!
# A pool that is opened anew

A pool is changed, closed, and opened anew with what was saved of it, under the hosts that are
configured by then. A host keeps its record exactly if it is listed once, and for its type. Any
other host starts over: it is free, and its next claim has the first generation again.

So an identifier is handed out a second time exactly if a host was claimed, did not keep its record
when the pool was opened anew, and has been claimed again since.
-/

set_option autoImplicit false

namespace ClusterScaler

variable {p : HostPool} {address : String} {r : HostRecord} {id : NodeId}

namespace HostPool

/-- The types for which an address is listed. -/
def listings (configured : List (String × String)) (address : String) : List String :=
  (configured.filter (·.2 = address)).map (·.1)

/-- The record that the first listing of an address finds. -/
def restored (saved : Option HostRecord) (nodeType : String) : HostRecord :=
  match saved with
  | some r => if r.nodeType = nodeType then r else .fresh nodeType
  | none => .fresh nodeType

/-- One listing: the saved record is used up, and the host is listed with what was found. -/
def relist (tables : HostTable × HostTable) (listed : String × String) : HostTable × HostTable :=
  (tables.1.erase listed.2,
    tables.2.insert listed.2 (restored (tables.1.get? listed.2) listed.1))

theorem get?_foldl_relist (configured : List (String × String)) (tables : HostTable × HostTable) :
    (configured.foldl relist tables).2.get? address =
      match listings configured address with
      | [] => tables.2.get? address
      | nodeType :: others =>
        some ((others.getLast?.map HostRecord.fresh).getD
          (restored (tables.1.get? address) nodeType)) := by
  induction configured generalizing tables with
  | nil => rfl
  | cons listed rest ih =>
    rw [List.foldl_cons, ih]
    by_cases heq : listed.2 = address
    · have hlistings : listings (listed :: rest) address = listed.1 :: listings rest address := by
        simp [listings, heq]
      rw [hlistings]
      unfold relist
      rw [heq, Table.get?_insert_self, Table.get?_erase, if_pos rfl]
      -- what is saved is gone, so a later listing finds nothing
      cases listings rest address with
      | nil => rfl
      | cons nodeType others => cases others <;> rfl
    · have hlistings : listings (listed :: rest) address = listings rest address := by
        simp [listings, heq]
      rw [hlistings]
      unfold relist
      rw [Table.get?_insert_of_ne (Ne.symm heq), Table.get?_erase, if_neg (Ne.symm heq)]

/-- Every listing after the first one puts a fresh record in place of what was there. -/
theorem get?_merge (saved : HostTable) (configured : List (String × String)) :
    (merge saved configured).get? address =
      match listings configured address with
      | [] => none
      | nodeType :: others =>
        some ((others.getLast?.map HostRecord.fresh).getD
          (restored (saved.get? address) nodeType)) :=
  get?_foldl_relist configured (saved, ∅)

/-- A saved host keeps its record under a configuration: it is listed once, and for its type. -/
def Keeps (saved : HostTable) (hosts : Table String (List String)) (address : String) : Prop :=
  ∃ r, saved.get? address = some r ∧ listings (configuredHosts hosts) address = [r.nodeType]

variable {saved : HostTable} {hosts : Table String (List String)}

theorem get?_merge_of_keeps (h : Keeps saved hosts address) :
    (merge saved (configuredHosts hosts)).get? address = saved.get? address := by
  obtain ⟨r, hr, hlisted⟩ := h
  rw [get?_merge, hlisted, hr]
  simp [restored]

/-- A host that does not keep its record starts over, with the type of its last listing. -/
theorem get?_merge_of_not_keeps (h : ¬ Keeps saved hosts address) :
    (merge saved (configuredHosts hosts)).get? address =
      (listings (configuredHosts hosts) address).getLast?.map .fresh := by
  rw [get?_merge]
  cases hlisted : listings (configuredHosts hosts) address with
  | nil => rfl
  | cons nodeType others =>
    cases others with
    | cons second others => rfl
    | nil =>
      have hrestored : restored (saved.get? address) nodeType = .fresh nodeType := by
        unfold restored
        split
        · next r hr =>
          refine if_neg ?_
          rintro rfl
          exact h ⟨r, hr, hlisted⟩
        · rfl
      exact congrArg some hrestored

theorem eq_fresh_of_not_keeps (h : ¬ Keeps saved hosts address)
    (hr : (merge saved (configuredHosts hosts)).get? address = some r) :
    r = .fresh r.nodeType := by
  rw [get?_merge_of_not_keeps h] at hr
  obtain ⟨nodeType, -, rfl⟩ := Option.map_eq_some_iff.mp hr
  rfl

/-- A host that is claimed keeps its claim exactly if it is listed once, and for its type. -/
theorem get?_merge_eq_some_iff (hr : saved.get? address = some r) (hclaimed : r.state = .running) :
    (merge saved (configuredHosts hosts)).get? address = some r ↔
      listings (configuredHosts hosts) address = [r.nodeType] := by
  constructor
  · intro hsame
    by_contra hlisted
    have hnot : ¬ Keeps saved hosts address := by
      rintro ⟨s, hs, hkept⟩
      obtain rfl : r = s := Option.some.inj (hr.symm.trans hs)
      exact hlisted hkept
    rw [eq_fresh_of_not_keeps hnot hsame] at hclaimed
    cases hclaimed
  · intro hlisted
    rw [get?_merge_of_keeps ⟨r, hr, hlisted⟩, hr]

end HostPool

/-- A step in the life of a pool: it is changed, or opened anew. -/
inductive PoolStep where
  | change (c : PoolChange)
  | reopen (hosts : Table String (List String)) (externalIps : Table String String)

namespace PoolStep

/-- The pool after a step. -/
def applied (p : HostPool) : PoolStep → HostPool
  | change c => c.applied p
  | reopen hosts externalIps =>
    ⟨HostPool.merge p.hosts (HostPool.configuredHosts hosts), externalIps, p.statePath⟩

/-- The nodes that are handed out over steps. -/
def handedOut (p : HostPool) : List PoolStep → List NodeId
  | [] => []
  | step :: rest => p.newlyListed (step.applied p) ++ handedOut (step.applied p) rest

/-- A node of the host is handed out. -/
def Claims (p : HostPool) (steps : List PoolStep) (address : String) : Prop :=
  ∃ r : HostRecord, r.nodeId address ∈ handedOut p steps

/-- The host does not keep its record when the pool is opened anew, and is claimed after that. -/
def ClaimedAnew (p : HostPool) (steps : List PoolStep) (address : String) : Prop :=
  ∃ before hosts externalIps rest, steps = before ++ .reopen hosts externalIps :: rest ∧
    ¬ HostPool.Keeps (before.foldl applied p).hosts hosts address ∧
    Claims ((before ++ [.reopen hosts externalIps]).foldl applied p) rest address

/-- The host is claimed, and later it is claimed anew. -/
def StartsOver (p : HostPool) (steps : List PoolStep) (address : String) : Prop :=
  ∃ before rest, steps = before ++ rest ∧ Claims p before address ∧
    ClaimedAnew (before.foldl applied p) rest address

theorem handedOut_append (p : HostPool) (steps rest : List PoolStep) :
    handedOut p (steps ++ rest) = handedOut p steps ++ handedOut (steps.foldl applied p) rest := by
  induction steps generalizing p with
  | nil => rfl
  | cons step steps ih =>
    change _ ++ handedOut (step.applied p) (steps ++ rest) = _
    rw [ih, ← List.append_assoc]
    rfl

theorem mem_handedOut_cons_iff {step : PoolStep} {rest : List PoolStep} :
    id ∈ handedOut p (step :: rest) ↔
      id ∈ p.newlyListed (step.applied p) ∨ id ∈ handedOut (step.applied p) rest :=
  List.mem_append

theorem newlyListed_reopen (p : HostPool) (hosts : Table String (List String))
    (externalIps : Table String String) :
    p.newlyListed ((reopen hosts externalIps).applied p) = [] := by
  rw [List.eq_nil_iff_forall_not_mem]
  intro id hid
  rw [HostPool.mem_newlyListed_iff, HostPool.mem_listNodes_iff, HostPool.mem_listNodes_iff] at hid
  obtain ⟨⟨address, r, hr, hrunning, -, rfl⟩, hnew⟩ := hid
  change (HostPool.merge p.hosts (HostPool.configuredHosts hosts)).get? address = some r at hr
  by_cases hkeeps : HostPool.Keeps p.hosts hosts address
  · rw [HostPool.get?_merge_of_keeps hkeeps] at hr
    exact hnew ⟨address, r, hr, hrunning, rfl, rfl⟩
  · rw [HostPool.eq_fresh_of_not_keeps hkeeps hr] at hrunning
    cases hrunning

/-- A host that is there or comes in without having been claimed is claimed under the first
generation before any other. -/
theorem Claims.first {steps : List PoolStep} (h : Claims p steps address)
    (hfresh : ∀ r, p.hosts.get? address = some r → r.generation = 0) :
    ∃ r : HostRecord, r.generation = 1 ∧ r.nodeId address ∈ handedOut p steps := by
  induction steps generalizing p with
  | nil =>
    obtain ⟨s, hs⟩ := h
    cases hs
  | cons step rest ih =>
    obtain ⟨s, hs⟩ := h
    have hrest : (∀ r, (step.applied p).hosts.get? address = some r → r.generation = 0) →
        s.nodeId address ∈ handedOut (step.applied p) rest →
        ∃ r : HostRecord, r.generation = 1 ∧ r.nodeId address ∈ handedOut p (step :: rest) := by
      intro hfresh' hs'
      obtain ⟨r, hr, hmem⟩ := ih ⟨s, hs'⟩ hfresh'
      exact ⟨r, hr, mem_handedOut_cons_iff.mpr (.inr hmem)⟩
    -- unless the step claims the host, it leaves it without a claim
    cases step with
    | reopen hosts externalIps =>
      rw [mem_handedOut_cons_iff, newlyListed_reopen] at hs
      refine hrest ?_ (hs.resolve_left List.not_mem_nil)
      intro r hr
      change (HostPool.merge p.hosts (HostPool.configuredHosts hosts)).get? address = some r at hr
      by_cases hkeeps : HostPool.Keeps p.hosts hosts address
      · rw [HostPool.get?_merge_of_keeps hkeeps] at hr
        exact hfresh r hr
      · rw [HostPool.eq_fresh_of_not_keeps hkeeps hr]
        rfl
    | change c =>
      by_cases hclaimed : ∃ r tags, p.hosts.get? address = some r ∧ r.state = .free ∧
          (c.applied p).hosts.get? address = some (r.claimed tags)
      · obtain ⟨r, tags, hr, hfree, hr'⟩ := hclaimed
        have hgeneration : (r.claimed tags).generation = 1 := congrArg (· + 1) (hfresh r hr)
        exact ⟨r.claimed tags, hgeneration, mem_handedOut_cons_iff.mpr (.inl
          (PoolChange.mem_newlyListed_applied_iff.mpr ⟨address, r, tags, hr, hfree, hr', rfl⟩))⟩
      · rw [mem_handedOut_cons_iff] at hs
        refine hrest ?_ (hs.resolve_left ?_)
        · intro r' hr'
          obtain ⟨r, hr, hmoves⟩ := PoolChange.moves_from hr'
          cases hmoves with
          | stays => exact hfresh _ hr
          | claimed tags hfree => exact absurd ⟨r, tags, hr, hfree, hr'⟩ hclaimed
          | released => exact hfresh r hr
          | tagged => exact hfresh r hr
        · intro hmem
          obtain ⟨a, r, tags, hr, hfree, hr', hid⟩ :=
            PoolChange.mem_newlyListed_applied_iff.mp hmem
          obtain rfl := (HostRecord.nodeId_inj.mp hid).1
          exact hclaimed ⟨r, tags, hr, hfree, hr'⟩

theorem ClaimedAnew.cons {step : PoolStep} {rest : List PoolStep}
    (h : ClaimedAnew (step.applied p) rest address) : ClaimedAnew p (step :: rest) address := by
  obtain ⟨before, hosts, externalIps, after, rfl, hnot, hclaims⟩ := h
  exact ⟨step :: before, hosts, externalIps, after, rfl, hnot, hclaims⟩

theorem StartsOver.cons {step : PoolStep} {rest : List PoolStep}
    (h : StartsOver (step.applied p) rest address) : StartsOver p (step :: rest) address := by
  obtain ⟨before, after, rfl, ⟨r, hr⟩, hanew⟩ := h
  exact ⟨step :: before, after, rfl, ⟨r, mem_handedOut_cons_iff.mpr (.inr hr)⟩, hanew⟩

/-- What is handed out later has a higher generation than its host has now, unless the host starts
over in between. -/
theorem lt_generation_or_claimedAnew {steps : List PoolStep}
    (h : r.nodeId address ∈ handedOut p steps) :
    (∃ s, p.hosts.get? address = some s ∧ s.generation < r.generation) ∨
      ClaimedAnew p steps address := by
  induction steps generalizing p with
  | nil => cases h
  | cons step rest ih =>
    rw [mem_handedOut_cons_iff] at h
    cases step with
    | reopen hosts externalIps =>
      rw [newlyListed_reopen] at h
      have hrest := h.resolve_left List.not_mem_nil
      -- a record that is kept keeps its generation; any other host starts over right here
      by_cases hkeeps : HostPool.Keeps p.hosts hosts address
      · refine (ih hrest).imp ?_ ClaimedAnew.cons
        rintro ⟨s, hs, hlt⟩
        rw [← HostPool.get?_merge_of_keeps hkeeps]
        exact ⟨s, hs, hlt⟩
      · exact .inr ⟨[], hosts, externalIps, rest, rfl, hkeeps, r, hrest⟩
    | change c =>
      rcases h with hnow | hlater
      · obtain ⟨a, s, tags, hs, -, -, hid⟩ := PoolChange.mem_newlyListed_applied_iff.mp hnow
        obtain ⟨rfl, hgeneration⟩ := HostRecord.nodeId_inj.mp hid
        rw [hgeneration]
        exact .inl ⟨s, hs, Nat.lt_succ_self _⟩
      · refine (ih hlater).imp ?_ ClaimedAnew.cons
        rintro ⟨s', hs', hlt⟩
        obtain ⟨s, hs, hmoves⟩ := PoolChange.moves_from hs'
        exact ⟨s, hs, Nat.lt_of_le_of_lt hmoves.generation_le hlt⟩

/-- As long as no host starts over, no identifier is handed out twice. -/
theorem nodup_handedOut {steps : List PoolStep} (h : ∀ address, ¬ StartsOver p steps address) :
    (handedOut p steps).Nodup := by
  induction steps generalizing p with
  | nil => exact List.nodup_nil
  | cons step rest ih =>
    refine List.nodup_append.mpr ⟨HostPool.nodup_newlyListed _ _,
      ih fun address hover => h address hover.cons, ?_⟩
    rintro id hnow _ hlater rfl
    -- what is handed out now has the generation of its host, and later ones are higher
    cases step with
    | reopen hosts externalIps =>
      rw [newlyListed_reopen] at hnow
      cases hnow
    | change c =>
      obtain ⟨address, r, tags, hr, hfree, hr', rfl⟩ :=
        PoolChange.mem_newlyListed_applied_iff.mp hnow
      rcases lt_generation_or_claimedAnew hlater with ⟨s, hs, hlt⟩ | hanew
      · obtain rfl : r.claimed tags = s := Option.some.inj (hr'.symm.trans hs)
        exact Nat.lt_irrefl _ hlt
      · exact h address ⟨[.change c], rest, rfl,
          ⟨r.claimed tags, List.mem_append_left _ hnow⟩, hanew⟩

/-- From a pool without a claim: no identifier is handed out twice exactly if no host starts
over. -/
theorem nodup_handedOut_iff {steps : List PoolStep}
    (hfresh : ∀ address r, p.hosts.get? address = some r → r.generation = 0) :
    (handedOut p steps).Nodup ↔ ∀ address, ¬ StartsOver p steps address := by
  refine ⟨?_, nodup_handedOut⟩
  rintro hnodup address ⟨before, rest, rfl, hclaims, hanew⟩
  -- both before and after it starts over, the host is first claimed under the first generation
  obtain ⟨r, hr, hearly⟩ := hclaims.first (hfresh address)
  obtain ⟨between, hosts, externalIps, after, rfl, hnot, hclaims'⟩ := hanew
  have hreset : ∀ r, ((between ++ [reopen hosts externalIps]).foldl applied
      (before.foldl applied p)).hosts.get? address = some r → r.generation = 0 := by
    intro r hr
    rw [List.foldl_append] at hr
    rw [HostPool.eq_fresh_of_not_keeps hnot hr]
    rfl
  obtain ⟨r', hr', hlate⟩ := hclaims'.first hreset
  have hsame : r'.nodeId address = r.nodeId address :=
    HostRecord.nodeId_inj.mpr ⟨rfl, hr'.trans hr.symm⟩
  rw [hsame] at hlate
  rw [handedOut_append, ← List.singleton_append, ← List.append_assoc, handedOut_append] at hnodup
  exact (List.nodup_append.mp hnodup).2.2 _ hearly _ (List.mem_append_right _ hlate) rfl

end PoolStep

end ClusterScaler
