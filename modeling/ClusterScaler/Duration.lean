import ClusterScaler.Decimal.Layout

/-!
# Durations

Lengths of time in whole nanoseconds, never longer than `Duration.maximum`.
-/

set_option autoImplicit false

namespace ClusterScaler

/-- A length of time. -/
structure Duration where
  nanos : Nat
  deriving DecidableEq, Repr, Inhabited

namespace Duration

/-- Nanoseconds of a second. -/
def nanosPerSecond : Nat := 1000000000

/-- The longest representable time: the largest 64-bit number of seconds and nearly one more. -/
def maximum : Duration := ⟨Nat.pow 2 64 * nanosPerSecond - 1⟩

/-- `n` seconds. -/
def ofSeconds (n : Nat) : Duration := ⟨n * nanosPerSecond⟩

/-- `n` milliseconds. -/
def ofMillis (n : Nat) : Duration := ⟨n * 1000000⟩

/-- The whole seconds of a duration. -/
def seconds (d : Duration) : Nat := d.nanos / nanosPerSecond

/-- The nanoseconds past the whole seconds. -/
def subsecNanos (d : Duration) : Nat := d.nanos % nanosPerSecond

/-- The whole milliseconds of a duration. -/
def millis (d : Duration) : Nat := d.nanos / 1000000

/-- The least number of whole milliseconds that is not shorter: what a timer waits. -/
def timerMillis (d : Duration) : Nat := (d.nanos + 999999) / 1000000

/-- The shorter of two durations. -/
def min (a b : Duration) : Duration := if a.nanos ≤ b.nanos then a else b

/-- A fraction of `unit` (a power of ten) after a whole part, without zeros at the end. -/
def fractionText (rest unit : Nat) : List Char :=
  if rest == 0 then []
  else
    let places := (Decimal.digits unit).length - 1
    let ds := Decimal.digits rest
    let padded := List.replicate (places - ds.length) '0' ++ ds
    '.' :: (padded.reverse.dropWhile (· == '0')).reverse

/-- The duration in the largest unit that makes its whole part positive. -/
def text (d : Duration) : String :=
  let (unit, suffix) :=
    if nanosPerSecond ≤ d.nanos then (nanosPerSecond, "s")
    else if 1000000 ≤ d.nanos then (1000000, "ms")
    else if 1000 ≤ d.nanos then (1000, "µs")
    else (1, "ns")
  String.ofList (Decimal.digits (d.nanos / unit) ++ fractionText (d.nanos % unit) unit) ++ suffix

end Duration

end ClusterScaler
