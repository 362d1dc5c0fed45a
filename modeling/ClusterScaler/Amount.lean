import ClusterScaler.Decimal.Shortest

/-!
# Amounts

The arithmetic that planning needs of resource amounts. Planning is written over any type with
these operations: the program runs it on doubles, and exact rationals fit the same interface.
-/

set_option autoImplicit false

namespace ClusterScaler

/-- A type of resource amounts. -/
class Amount (α : Type) extends Add α, Sub α, Mul α, Div α where
  zero : α
  one : α
  /-- The slack when fractional amounts are compared. -/
  slack : α
  lt : α → α → Bool
  le : α → α → Bool
  ofNat : Nat → α
  /-- The least of a list, on an empty list anything. -/
  least : List α → α
  /-- The least natural number that is not smaller, at most `2 ^ 32 - 1`. -/
  ceil : α → Nat

namespace Amount

variable {α : Type} [Amount α]

/-- The larger of two amounts; the first where they cannot be compared. -/
def max (a b : α) : α := if lt a b then b else a

/-- An amount moved into the range from zero to one. -/
def clampUnit (a : α) : α := if lt a zero then zero else if lt one a then one else a

/-- The sum of a list, from its first item on. -/
def sum : List α → α
  | [] => zero
  | x :: rest => rest.foldl (· + ·) x

/-- Whether an amount is zero up to the slack. -/
def isNegligible (a : α) : Bool := lt (zero - slack) a && lt a slack

end Amount

/-- The largest 32-bit natural number. -/
def maxCount : Nat := Nat.pow 2 32 - 1

/-- The least natural number that is not below a double, at most `maxCount`; zero for what is not
a number. -/
def ceilCount (x : Float) : Nat :=
  match Decimal.classify x with
  | .nan => 0
  | .infinite negative => if negative then 0 else maxCount
  | .finite v =>
    if v.negative then 0
    else
      let (num, den) := Decimal.scaled v.significand v.exponent
      min ((num + den - 1) / den) maxCount

/-- Whether a double has a minus sign, as one of the zeros has. -/
def hasMinus (x : Float) : Bool :=
  match Decimal.classify x with
  | .finite v => v.negative
  | .infinite negative => negative
  | .nan => false

/-- The total order of the doubles: the zero with a minus sign is before the other one, and what is
not a number comes last. -/
def totalLe (x y : Float) : Bool := y.isNaN || x < y || (x ≤ y && (hasMinus x || !hasMinus y))

instance : Amount Float where
  zero := 0.0
  one := 1.0
  slack := 1e-9
  lt a b := decide (a < b)
  le a b := decide (a ≤ b)
  ofNat n := n.toFloat
  least xs := xs.foldl (fun m x => if x < m then x else m) (1.0 / 0.0)
  ceil := ceilCount

end ClusterScaler
