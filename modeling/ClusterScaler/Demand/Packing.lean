import ClusterScaler.Resources

/-!
# First-fit packing

Bundles are placed in order, each on the first node with room for it. What finds no room is the
residual, still in order.
-/

set_option autoImplicit false

namespace ClusterScaler

variable {α : Type} [Amount α]

/-- A node that is being packed: what is left of it, and whether it took in any bundle. -/
structure Bin (α : Type) where
  left : Resources α
  used : Bool

/-- Place a bundle into the first bin with room; `none` if no bin has room. -/
def placeFirst? (bundle : Resources α) : List (Bin α) → Option (List (Bin α))
  | [] => none
  | b :: rest =>
    if b.left.fits bundle then some (⟨b.left.subtract bundle, true⟩ :: rest)
    else (placeFirst? bundle rest).map (b :: ·)

/-- The outcome of a packing: the bins, and the bundles without a place. -/
structure Packing (α : Type) where
  bins : List (Bin α)
  residual : List (Resources α)

/-- Pack bundles into bins in order, first fit. -/
def packInto (bins : List (Bin α)) : List (Resources α) → Packing α
  | [] => ⟨bins, []⟩
  | bundle :: rest =>
    match placeFirst? bundle bins with
    | some bins => packInto bins rest
    | none =>
      let p := packInto bins rest
      { p with residual := bundle :: p.residual }

/-- Pack bundles onto nodes with the given capacities. -/
def pack (capacities demands : List (Resources α)) : Packing α :=
  packInto (capacities.map (⟨·, false⟩)) demands

/-- Per bin, whether it took in any bundle. -/
def Packing.used (p : Packing α) : List Bool := p.bins.map (·.used)

end ClusterScaler
