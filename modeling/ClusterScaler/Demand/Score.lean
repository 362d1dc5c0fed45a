import ClusterScaler.Demand.Packing

/-!
# How well a fresh node would be used

A fresh node is filled first-fit from the open bundles. Each of its resources scores its amount
times the cube of the used fraction; the node scores the least and the mean of these, compared in
that order. So a type that fills every resource beats one that fills a single one, and a snug fit
beats a huge node.
-/

set_option autoImplicit false

namespace ClusterScaler

variable {α : Type} [Amount α]

/-- The least and the mean score of a node's resources. -/
structure Score (α : Type) where
  least : α
  mean : α

/-- Whether `a` is the better score: by its least part, then by its mean. -/
def Score.beats (a b : Score α) : Bool :=
  Amount.lt b.least a.least
    || (Amount.le a.least b.least && Amount.le b.least a.least && Amount.lt b.mean a.mean)

/-- Fill one node; what is left of it, and how many bundles it took. -/
def fill (node : Resources α) (demands : List (Resources α)) : Resources α × Nat :=
  demands.foldl
    (fun (left, n) bundle => if left.fits bundle then (left.subtract bundle, n + 1) else (left, n))
    (node, 0)

/-- The score of one resource with its amount and what is left of it. -/
def resourceScore (amount left : α) : α :=
  let used := (amount - left) / amount
  amount * (used * (used * used))

/-- The score of a fresh node for the open bundles, `none` if it takes none of them. -/
def utilizationScore (node : Resources α) (demands : List (Resources α)) : Option (Score α) :=
  let (left, taken) := fill node demands
  if taken == 0 then none
  else
    let scores := (node.toList.filter (fun e => Amount.lt Amount.zero e.2)).map
      (fun e => resourceScore e.2 (left.get e.1))
    if scores.isEmpty then some ⟨Amount.zero, Amount.zero⟩
    else some ⟨Amount.least scores, Amount.sum scores / Amount.ofNat scores.length⟩

end ClusterScaler
