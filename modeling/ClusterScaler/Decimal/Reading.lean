/-!
# Reading decimals

The double nearest to a decimal number. Decimals far outside the range of doubles are answered
without computing their powers of ten.
-/

set_option autoImplicit false

namespace ClusterScaler.Decimal

/-- The number that a list of decimal digits denotes. -/
def ofDigits (ds : List Char) : Nat := ds.foldl (fun n c => n * 10 + (c.toNat - 48)) 0

/-- The double nearest to `coefficient * 10 ^ exponent`. -/
def toFloat (coefficient : Nat) (exponent : Int) : Float :=
  if coefficient == 0 then 0.0
  else
    let top : Int := exponent + (Nat.toDigits 10 coefficient).length
    if 310 < top then 1.0 / 0.0
    else if top < -330 then 0.0
    else if exponent < 0 then Float.ofScientific coefficient true exponent.natAbs
    else Float.ofScientific coefficient false exponent.natAbs

end ClusterScaler.Decimal
