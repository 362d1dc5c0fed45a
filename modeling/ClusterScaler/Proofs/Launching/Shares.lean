import ClusterScaler.Proofs.Planning.Repeat

/-!
# How a budget is shared among types

A budget of new nodes is shared in order: each type gets what it lacks as long as the budget lasts,
and so a type that gets less has used it up. `shares_grant` says this of any budget, and
`shares_planLaunches` of the one that a tick has.
-/

set_option autoImplicit false

namespace ClusterScaler

/-- How many nodes are granted to some types together. -/
def grantedTo (granted : List (String × Nat)) (types : List String) : Nat :=
  ((granted.filter (·.1 ∈ types)).map (·.2)).sum

/-- A budget is shared among types in order, each of which lacks so many nodes. -/
structure Shares (order : List String) (lack : String → Nat) (budget : Nat)
    (granted : List (String × Nat)) : Prop where
  inOrder : (granted.map (·.1)).Sublist order
  pos : ∀ d ∈ granted, 0 < d.2
  share : ∀ before nodeType after, order = before ++ nodeType :: after →
    grantedTo granted [nodeType] ≤ lack nodeType ∧
      (grantedTo granted [nodeType] < lack nodeType →
        grantedTo granted (before ++ [nodeType]) = budget)
  within : (granted.map (·.2)).sum ≤ budget

section

variable {granted : List (String × Nat)} {types : List String}

theorem grantedTo_append (granted granted' : List (String × Nat)) (types : List String) :
    grantedTo (granted ++ granted') types = grantedTo granted types + grantedTo granted' types := by
  unfold grantedTo
  rw [List.filter_append, List.map_append, List.sum_append]

theorem grantedTo_of_forall_mem (h : ∀ d ∈ granted, d.1 ∈ types) :
    grantedTo granted types = (granted.map (·.2)).sum := by
  unfold grantedTo
  rw [List.filter_eq_self.mpr (fun d hd => decide_eq_true (h d hd))]

theorem grantedTo_of_forall_notMem (h : ∀ d ∈ granted, d.1 ∉ types) : grantedTo granted types = 0 := by
  unfold grantedTo
  rw [List.filter_eq_nil_iff.mpr (fun d hd => by simpa using h d hd)]
  rfl

end

namespace ControlLoop

variable {order : List String} {lack : String → Nat}

/-- Types share what those before them have left of the budget. -/
theorem grant_append (lacking others : List (String × Nat)) (budget : Nat) :
    grant (lacking ++ others) budget =
      grant lacking budget ++ grant others (budget - (lacking.map (·.2)).sum) := by
  induction lacking generalizing budget with
  | nil => rfl
  | cons d rest ih =>
    rw [List.cons_append, List.map_cons, List.sum_cons, grant_cons, grant_cons]
    split
    · have hleft : budget - (d.2 + (rest.map (·.2)).sum) = budget - (rest.map (·.2)).sum := by omega
      rw [ih, hleft]
    · have hleft : budget - (d.2 + (rest.map (·.2)).sum) =
          budget - min d.2 budget - (rest.map (·.2)).sum := by omega
      rw [ih, hleft, List.cons_append]

/-- Only types that lack something are granted anything. -/
theorem mem_of_mem_grant {budget : Nat} {d : String × Nat}
    (h : d ∈ grant (order.map (fun t => (t, lack t))) budget) : d.1 ∈ order := by
  have hmem := (grant_fst_sublist _ _).subset (List.mem_map_of_mem (f := (·.1)) h)
  simpa using hmem

theorem grantedTo_grant_of_subset {types : List String} (h : ∀ t ∈ order, t ∈ types) (budget : Nat) :
    grantedTo (grant (order.map (fun t => (t, lack t))) budget) types =
      min (order.map lack).sum budget := by
  rw [grantedTo_of_forall_mem fun d hd => h d.1 (mem_of_mem_grant hd), sum_grant, List.map_map]
  rfl

theorem grantedTo_grant_of_disjoint {types : List String} (h : ∀ t ∈ order, t ∉ types)
    (budget : Nat) : grantedTo (grant (order.map (fun t => (t, lack t))) budget) types = 0 :=
  grantedTo_of_forall_notMem fun d hd => h d.1 (mem_of_mem_grant hd)

/-- A budget is shared among distinct types. -/
theorem shares_grant (hnodup : order.Nodup) (budget : Nat) :
    Shares order lack budget (grant (order.map (fun t => (t, lack t))) budget) where
  inOrder := by
    have hsublist := grant_fst_sublist (order.map (fun t => (t, lack t))) budget
    rw [List.map_map] at hsublist
    simpa [Function.comp_def] using hsublist
  pos d hd := pos_of_mem_grant hd
  within := sum_grant_le _ _
  share := by
    rintro before nodeType after rfl
    have hbefore : ∀ t ∈ before, t ∉ [nodeType] := by grind
    have hafter : ∀ t ∈ after, t ∉ before ++ [nodeType] := by grind
    let lacking (types : List String) := types.map (fun t => (t, lack t))
    let rest := budget - ((lacking (before ++ [nodeType])).map (·.2)).sum
    -- the type comes behind those before it, and those after it come last
    have hparts : grant (lacking (before ++ nodeType :: after)) budget =
        grant (lacking (before ++ [nodeType])) budget ++ grant (lacking after) rest := by
      rw [List.append_cons, ← grant_append]
      exact congrArg (grant · budget) List.map_append
    have hown : grant (lacking (before ++ [nodeType])) budget =
        grant (lacking before) budget ++
          grant (lacking [nodeType]) (budget - ((lacking before).map (·.2)).sum) := by
      rw [← grant_append]
      exact congrArg (grant · budget) List.map_append
    have hsofar : grantedTo (grant (lacking (before ++ nodeType :: after)) budget)
        (before ++ [nodeType]) = min ((before.map lack).sum + lack nodeType) budget := by
      rw [hparts, grantedTo_append, grantedTo_grant_of_subset fun _ ht => ht,
        grantedTo_grant_of_disjoint hafter, Nat.add_zero]
      simp
    have hshare : grantedTo (grant (lacking (before ++ nodeType :: after)) budget) [nodeType] =
        min (lack nodeType) (budget - (before.map lack).sum) := by
      rw [hparts, hown, grantedTo_append, grantedTo_append, grantedTo_grant_of_disjoint hbefore,
        grantedTo_grant_of_subset fun _ ht => ht, grantedTo_grant_of_disjoint fun t ht hmem =>
          hafter t ht (List.mem_append_right before hmem)]
      simp [lacking, Function.comp_def]
    rw [hsofar, hshare]
    omega

/-- What a tick orders is a share of what its limit leaves room for. -/
theorem shares_planLaunches (l : ControlLoop) (nodes : List NodeRecord)
    (targets : Table String Nat) :
    Shares (l.config.headNodeType :: l.config.nodeTypes.keys.filter (· != l.config.headNodeType))
      (fun nodeType => countOf targets nodeType - nodes.countP (·.nodeType? = some nodeType))
      (l.config.tunables.maxConcurrentLaunches - nodes.countP (fun n => !n.running))
      (l.planLaunches nodes targets) := by
  refine shares_grant ?_ _
  rw [List.nodup_cons]
  exact ⟨by simp, l.config.nodeTypes.keys_nodup.filter _⟩

end ControlLoop

end ClusterScaler
