/-!
# Durations

A time span is shown in the largest of seconds, milliseconds, microseconds and nanoseconds that it
fills at least once, with every digit after the point but no zeros at the end.
-/

namespace Pseudolang

/-- A time span in nanoseconds. -/
structure Duration where
  nanoseconds : Nat
  deriving DecidableEq

namespace Duration

/-- The decimal digits of `n`, with zeros in front to make up `width` of them. -/
def paddedDigits (width n : Nat) : List Char :=
  let digits := Nat.toDigits 10 n
  List.replicate (width - digits.length) '0' ++ digits

/-- The point and the digits after it, for `part` counted in steps of which `10 ^ places` make one
unit.  A whole number has no point. -/
def fraction (places part : Nat) : List Char :=
  match ((paddedDigits places part).reverse.dropWhile (· = '0')).reverse with
  | [] => []
  | digits => '.' :: digits

/-- The time span in units of `10 ^ places` nanoseconds. -/
def inUnits (places : Nat) (d : Duration) (unit : String) : String :=
  Nat.repr (d.nanoseconds / Nat.pow 10 places) ++
    String.ofList (fraction places (d.nanoseconds % Nat.pow 10 places)) ++ unit

/-- The time span in the largest unit that it fills. -/
def text (d : Duration) : String :=
  if 1000000000 ≤ d.nanoseconds then d.inUnits 9 "s"
  else if 1000000 ≤ d.nanoseconds then d.inUnits 6 "ms"
  else if 1000 ≤ d.nanoseconds then d.inUnits 3 "µs"
  else d.inUnits 0 "ns"

end Duration

end Pseudolang
