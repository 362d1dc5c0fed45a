import ClusterScaler.Demand.Score

/-!
# Nodes to add for a demand

Nodes are added one at a time. Each round takes the type whose fresh node scores best on the open
bundles, among the types that still may grow, and packs the open bundles onto that one node. A
round that places nothing ends the search, so every round shortens the residual.
-/

set_option autoImplicit false

namespace ClusterScaler

variable {α : Type} [Amount α]

/-- What planning knows of a node type. -/
structure TypeLimits (α : Type) where
  minWorkers : Nat
  maxWorkers : Nat
  resources : Resources α

/-- A count from a table, zero where the key is missing. -/
def countOf (t : Table String Nat) (name : String) : Nat := (t.get? name).getD 0

/-- The types that may still grow and take in a bundle, with the score of a fresh node. -/
def growthCandidates (types : Table String (TypeLimits α)) (existing added : Table String Nat)
    (residual : List (Resources α)) : List (String × TypeLimits α × Score α) :=
  types.entries.filterMap (fun (name, limits) =>
    if limits.maxWorkers ≤ countOf existing name + countOf added name then none
    else (utilizationScore limits.resources residual).map (fun s => (name, limits, s)))

/-- The best of the candidates by score, the first of equals. -/
def bestCandidate : List (String × TypeLimits α × Score α) →
    Option (String × TypeLimits α × Score α)
  | [] => none
  | c :: rest => some (rest.foldl (fun best c => if c.2.2.beats best.2.2 then c else best) c)

/-- Add nodes round by round for the open bundles. -/
def grow (types : Table String (TypeLimits α)) (existing added : Table String Nat)
    (residual : List (Resources α)) : Table String Nat :=
  if residual.isEmpty then added
  else
    match bestCandidate (growthCandidates types existing added residual) with
    | none => added
    | some (name, limits, _) =>
      let added := added.upsert name 0 (· + 1)
      let rest := (pack [limits.resources] residual).residual
      if rest.length < residual.length then grow types existing added rest else added
termination_by residual.length

/-- The nodes to add per type so that the demand fits. `existing` counts the nodes that are live or
planned; no type grows past its maximum, and bundles that fit no type are left out. -/
def newInstances (types : Table String (TypeLimits α)) (existing : Table String Nat)
    (demands : List (Resources α)) : Table String Nat :=
  grow types existing ∅
    (demands.filter (fun bundle => types.values.any (fun t => t.resources.fits bundle)))

end ClusterScaler
