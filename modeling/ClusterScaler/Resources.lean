import ClusterScaler.Amount
import ClusterScaler.Table

/-!
# Resource vectors

A resource vector names amounts, such as `CPU: 4, GPU: 1`. A name that is missing reads as zero,
and the amounts of a vector are walked over in the order of their names.
-/

set_option autoImplicit false

namespace ClusterScaler

/-- A resource vector. -/
structure Resources (α : Type) where
  amounts : Table String α

namespace Resources

variable {α : Type}

instance : EmptyCollection (Resources α) := ⟨⟨∅⟩⟩
instance : Inhabited (Resources α) := ⟨∅⟩
instance [BEq α] : BEq (Resources α) := ⟨fun a b => a.amounts == b.amounts⟩

/-- The named amounts in order of their names. -/
def toList (r : Resources α) : List (String × α) := r.amounts.entries

/-- The vector of a list of amounts; of two with one name the later stays. -/
def ofList (xs : List (String × α)) : Resources α := ⟨Table.ofList xs⟩

/-- Whether the vector names nothing. -/
def isEmpty (r : Resources α) : Bool := r.amounts.isEmpty

/-- Name an amount, replacing what the name stood for. -/
def set (r : Resources α) (name : String) (amount : α) : Resources α :=
  ⟨r.amounts.insert name amount⟩

variable [Amount α]

/-- The amount of a name, zero where it is missing. -/
def get (r : Resources α) (name : String) : α := (r.amounts.get? name).getD Amount.zero

/-- Whether every amount is zero up to the slack. -/
def isZero (r : Resources α) : Bool := r.toList.all (fun e => Amount.isNegligible e.2)

/-- Whether `demand` fits into `r`: no amount it names exceeds that of `r` by more than the
slack. -/
def fits (r demand : Resources α) : Bool :=
  demand.toList.all (fun e => Amount.le e.2 (r.get e.1 + Amount.slack))

/-- Combine the amounts of `r` with those that `other` names. -/
def combine (f : α → α → α) (r other : Resources α) : Resources α :=
  ⟨other.toList.foldl (fun t e => t.upsert e.1 Amount.zero (f · e.2)) r.amounts⟩

/-- Take the amounts of `other` away. -/
def subtract (r other : Resources α) : Resources α := r.combine (· - ·) other

/-- Add the amounts of `other`. -/
def add (r other : Resources α) : Resources α := r.combine (· + ·) other

/-- The largest fraction that `used` makes of a positive amount of `total`, between zero and one. -/
def maxFractionOf (used total : Resources α) : α :=
  (total.toList.filter (fun e => Amount.lt Amount.slack e.2)).foldl
    (fun best e => Amount.max best (Amount.clampUnit (used.get e.1 / e.2))) Amount.zero

end Resources

/-- The demand of a scheduler: the bundles that found no place yet, in order. -/
abbrev Demand (α : Type) := List (Resources α)

end ClusterScaler
