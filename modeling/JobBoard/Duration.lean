/-!
# Durations

Durations are whole numbers of nanoseconds. Their text is in the largest unit of which there is a
whole one, with the fraction cut after its last digit that is not zero.
-/
namespace JobBoard

structure Duration where
  ofNanos ::
  nanos : Nat
  deriving DecidableEq

namespace Duration

/-- So many milliseconds. -/
def mk (millis : Nat) : Duration :=
  .ofNanos (millis * 1000000)

def ofSeconds (n : Nat) : Duration :=
  .mk (n * 1000)

/-- The whole milliseconds. -/
def millis (d : Duration) : Nat :=
  d.nanos / 1000000

/-- The digits behind the point for `n` parts of a unit, without the zeros at the end. The unit has
`size` parts, a power of ten, so that the sum of the two has a one in front of all digits of `n`. -/
def fraction (size n : Nat) : List Char :=
  ((Nat.toDigits 10 (size + n)).tail.reverse.dropWhile (· = '0')).reverse

/-- A number of nanoseconds in a unit of `size` of them. -/
def inUnit (size : Nat) (unit : String) (nanos : Nat) : String :=
  let digits := fraction size (nanos % size)
  let rest := if digits.isEmpty then "" else "." ++ String.ofList digits
  toString (nanos / size) ++ rest ++ unit

def text (d : Duration) : String :=
  if d.nanos < 1000 then inUnit 1 "ns" d.nanos
  else if d.nanos < 1000000 then inUnit 1000 "µs" d.nanos
  else if d.nanos < 1000000000 then inUnit 1000000 "ms" d.nanos
  else inUnit 1000000000 "s" d.nanos

end Duration

end JobBoard
