import ClusterScaler.Decimal.Shortest

/-!
# Decimal notation

How digits become text. `Layout` holds the choices of a notation; `plain` and `exchange` are the
two this library writes. `fixed` writes a number with a given count of places.
-/

set_option autoImplicit false

namespace ClusterScaler.Decimal

/-- The choices of a decimal notation. Exponents are those of the first digit. -/
structure Layout where
  /-- Exponents below this one use the exponent form. -/
  low : Option Int
  /-- Exponents from this one on use the exponent form. -/
  high : Option Int
  /-- Whole numbers end in `.0`. -/
  keepPoint : Bool

/-- Whether a number whose first digit has exponent `e` is written without an exponent. -/
def Layout.positional (l : Layout) (e : Int) : Bool :=
  l.low.all (· ≤ e) && l.high.all (e < ·)

/-- The notation inside messages: never an exponent, no point in whole numbers. -/
def plain : Layout := ⟨none, none, false⟩

/-- The notation of data files: sixteen digits before the point and five places after it at most,
and always a sign of being fractional. -/
def exchange : Layout := ⟨some (-5), some 16, true⟩

/-- The decimal digits of a natural number. -/
def digits (n : Nat) : List Char := Nat.toDigits 10 n

/-- `ds` with a decimal point such that the first digit has exponent `e`. -/
def positionalText (keepPoint : Bool) (ds : List Char) (e : Int) : List Char :=
  if e < 0 then ['0', '.'] ++ List.replicate (e.natAbs - 1) '0' ++ ds
  else
    let whole := e.toNat + 1
    let front := ds.take whole ++ List.replicate (whole - ds.length) '0'
    let rest := ds.drop whole
    if rest.isEmpty then (if keepPoint then front ++ ['.', '0'] else front)
    else front ++ '.' :: rest

/-- `ds` with one digit before the point and the exponent `e` after it, the sign always shown. -/
def exponentText (ds : List Char) (e : Int) : List Char :=
  let mantissa := match ds with
    | [] => []
    | [d] => [d]
    | d :: rest => d :: '.' :: rest
  mantissa ++ 'e' :: (if e < 0 then '-' else '+') :: digits e.natAbs

/-- A decimal in the given notation, without its sign. -/
def Layout.text (l : Layout) (d : Digits) : List Char :=
  let ds := digits d.coefficient
  let e := d.exponent + (ds.length - 1 : Nat)
  if l.positional e then positionalText l.keepPoint ds e else exponentText ds e

/-- A double in the given notation, `none` where it is not finite. -/
def Layout.render? (l : Layout) (x : Float) : Option String :=
  match classify x with
  | .finite v =>
    let body := l.text (shortest v.significand v.exponent)
    some (String.ofList (if v.negative then '-' :: body else body))
  | _ => none

/-- A double in the given notation; the others are `inf`, `-inf` and `NaN`. -/
def Layout.render (l : Layout) (x : Float) : String :=
  match classify x with
  | .finite _ => (l.render? x).getD ""
  | .infinite negative => if negative then "-inf" else "inf"
  | .nan => "NaN"

/-- `num / den` rounded to a whole number, a half to the even neighbour. -/
def roundDiv (num den : Nat) : Nat :=
  let q := num / den
  let r := num % den
  if 2 * r < den then q else if den < 2 * r then q + 1 else if q % 2 == 0 then q else q + 1

/-- The digits of a number of units of `10 ^ -places`, with its point. -/
def fixedText (places units : Nat) : List Char :=
  let ds := digits units
  let padded := List.replicate (places + 1 - ds.length) '0' ++ ds
  let whole := padded.take (padded.length - places)
  let rest := padded.drop (padded.length - places)
  if places == 0 then whole else whole ++ '.' :: rest

/-- A double with exactly `places` digits after the point, rounded from its exact value, a half to
the even neighbour. -/
def fixed (places : Nat) (x : Float) : String :=
  match classify x with
  | .finite v =>
    let (num, den) := scaled v.significand v.exponent
    let body := fixedText places (roundDiv (num * Nat.pow 10 places) den)
    String.ofList (if v.negative then '-' :: body else body)
  | .infinite negative => if negative then "-inf" else "inf"
  | .nan => "NaN"

end ClusterScaler.Decimal
