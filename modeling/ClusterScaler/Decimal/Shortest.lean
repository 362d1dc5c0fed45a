/-!
# Shortest decimals

The decimal with the fewest digits that reads back to a given double, and of those the one nearest
to it. A double is taken apart into `m · 2 ^ q`; every step is exact arithmetic on naturals.

For one digit, two digits and so on up to seventeen, the two neighbours of the value on that
decimal grid are tested against the interval of reals that round to the value. The first grid
with a hit wins, so no shorter decimal reads back.
-/

set_option autoImplicit false

namespace ClusterScaler.Decimal

/-- A finite double as `significand * 2 ^ exponent`, with its sign. -/
structure Binary where
  negative : Bool
  significand : Nat
  exponent : Int
  deriving DecidableEq, Repr

/-- What a double is: a finite value, an infinity, or not a number. -/
inductive Class where
  | finite (value : Binary)
  | infinite (negative : Bool)
  | nan
  deriving DecidableEq, Repr

/-- Take a double apart along its sign, exponent and fraction bits. -/
def classify (x : Float) : Class :=
  let bits : Nat := x.toBits.toNat
  let negative := bits / Nat.pow 2 63 == 1
  let biased : Nat := bits / Nat.pow 2 52 % 2048
  let fraction : Nat := bits % Nat.pow 2 52
  if biased == 2047 then
    if fraction == 0 then .infinite negative else .nan
  else if biased == 0 then .finite ⟨negative, fraction, -1074⟩
  else .finite ⟨negative, Nat.pow 2 52 + fraction, (biased : Int) - 1075⟩

/-- A decimal `coefficient * 10 ^ exponent`. -/
structure Digits where
  coefficient : Nat
  exponent : Int
  deriving DecidableEq, Repr

/-- `a * 2 ^ q` as a fraction of naturals. -/
def scaled (a : Nat) (q : Int) : Nat × Nat :=
  if q < 0 then (a, Nat.pow 2 q.natAbs) else (a * Nat.pow 2 q.natAbs, 1)

/-- The largest `e` with `10 ^ e ≤ num / den`, searched for near the guess. -/
def decimalExponent (num den : Nat) (guess : Int) : Int :=
  let reaches (e : Int) : Bool :=
    if e < 0 then den ≤ num * Nat.pow 10 e.natAbs else den * Nat.pow 10 e.natAbs ≤ num
  if reaches (guess + 1) then guess + 1 else if reaches guess then guess else guess - 1

/-- The reals that round to a double, in quarters of its last binary place; the ends belong to the
interval when `closed`. -/
structure Rounding where
  low : Nat
  value : Nat
  high : Nat
  closed : Bool

/-- The interval of a significand. Below a power of two the next smaller double is only half as
far away. -/
def Rounding.of (m : Nat) (q : Int) : Rounding :=
  { low := if m == Nat.pow 2 52 && q > -1074 then 4 * m - 1 else 4 * m - 2
    value := 4 * m
    high := 4 * m + 2
    closed := m % 2 == 0 }

/-- The neighbour of the value on the grid `10 ^ k` that rounds to it, the nearer of two. -/
def Rounding.hit? (r : Rounding) (q k : Int) : Option Nat :=
  let (unit, den) := scaled 1 (q - 2)
  let grid := if k < 0 then den else den * Nat.pow 10 k.natAbs
  let zoom := if k < 0 then unit * Nat.pow 10 k.natAbs else unit
  let value := r.value * zoom
  let inside (c : Nat) : Bool :=
    if r.closed then r.low * zoom ≤ c * grid && c * grid ≤ r.high * zoom
    else r.low * zoom < c * grid && c * grid < r.high * zoom
  let below := value / grid
  let above := below + 1
  match decide (0 < below) && inside below, inside above with
  | true, true =>
    let down := value - below * grid
    let up := above * grid - value
    some (if down < up then below else if up < down then above
      else if below % 2 == 0 then below else above)
  | true, false => some below
  | false, true => some above
  | false, false => none

/-- Try the grids from `digits` digits on, at most `tries` of them. -/
def Rounding.search (r : Rounding) (q top : Int) (digits : Nat) : Nat → Digits
  | 0 => ⟨r.value, q⟩
  | tries + 1 =>
    let k := top - digits + 1
    match r.hit? q k with
    | some c => ⟨c, k⟩
    | none => r.search q top (digits + 1) tries

/-- Drop the zeros at the end of a coefficient, at most `tries` of them. -/
def Digits.trim (d : Digits) : Nat → Digits
  | 0 => d
  | tries + 1 =>
    if d.coefficient != 0 && d.coefficient % 10 == 0 then
      Digits.trim ⟨d.coefficient / 10, d.exponent + 1⟩ tries
    else d

/-- The shortest decimal that reads back to `m * 2 ^ q`. -/
def shortest (m : Nat) (q : Int) : Digits :=
  if m == 0 then ⟨0, 0⟩ else
  let (num, den) := scaled m q
  let top := decimalExponent num den (((m.log2 : Int) + q) * 30103 / 100000)
  ((Rounding.of m q).search q top 1 17).trim 20

end ClusterScaler.Decimal
