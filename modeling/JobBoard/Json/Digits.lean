import JobBoard.Json.Fault
import JobBoard.Json.Value

/-!
# JSON numbers

A number without a point or an exponent is read exactly as long as it fits into 64 bits. Any other
is read as a double: the digits that fit into 64 bits, scaled by a power of ten in one rounding
step (or in several, for powers beyond the largest that a double holds).
-/
namespace JobBoard.Json

/-- What reading a part of a text yields: the part and the rest of the text. -/
abbrev Reading (α : Type) := Except Stop (α × Bytes)

def isDigit (b : UInt8) : Bool :=
  0x30 ≤ b && b ≤ 0x39

def digit (b : UInt8) : Nat :=
  b.toNat - 0x30

/-- Whether the text goes on with a digit. -/
def startsWithDigit (bytes : Bytes) : Bool :=
  bytes.head?.any isDigit

/-- Appends digits to a number as long as it stays below `limit`; also counts them. -/
def appendDigits (limit : Nat) : Nat → Nat → Bytes → Nat × Nat × Bytes
  | n, count, [] => (n, count, [])
  | n, count, b :: rest =>
    if isDigit b ∧ n * 10 + digit b < limit then
      appendDigits limit (n * 10 + digit b) (count + 1) rest
    else (n, count, b :: rest)

/-- The doubles of the powers of ten up to the largest finite one. -/
def powerOfTen (n : Nat) : Float :=
  Float.ofScientific 1 false n

/-- Divides by the largest power of ten until the exponent is in reach of a single division. -/
def scaleDown : Nat → Float → Nat → Float
  | 0, f, _ => f
  | fuel + 1, f, n =>
    if n ≤ 308 then f / powerOfTen n
    else if f == 0 then f
    else scaleDown fuel (f / powerOfTen 308) (n - 308)

/-- The double for `significand * 10 ^ exponent`, or nothing if it is out of range. -/
def scaled (significand : Nat) (exponent : Int) : Option Float :=
  let f := significand.toUInt64.toFloat
  if exponent < 0 then some (scaleDown (exponent.natAbs / 308 + 1) f exponent.natAbs)
  else if exponent ≤ 308 then
    let g := f * powerOfTen exponent.natAbs
    if g.isInf then none else some g
  else if f == 0 then some f
  else none

/-- A double with its sign, by its bits. -/
def signed (positive : Bool) (f : Float) : Number :=
  .double (if positive then f else -f).toBits

/-- The double for a significand and an exponent, at the end of its text. -/
def readScaled (positive : Bool) (significand : Nat) (exponent : Int) (rest : Bytes) :
    Reading Number :=
  match scaled significand exponent with
  | some f => .ok (signed positive f, rest)
  | none => .error (.before .numberOutOfRange rest)

/-- Exponents are kept within 32 bits. -/
def clampExponent (e : Int) : Int :=
  max (-0x80000000) (min 0x7FFFFFFF e)

/-- The exponent part, from the byte after its letter. -/
def readExponent (positive : Bool) (significand : Nat) (start : Int) (bytes : Bytes) :
    Reading Number :=
  let (negative, bytes) := match bytes with
    | 0x2B :: rest => (false, rest)
    | 0x2D :: rest => (true, rest)
    | _ => (false, bytes)
  match bytes with
  | [] => .error (.before .endInValue [])
  | b :: rest =>
    if isDigit b then
      let (e, _, rest) := appendDigits (Nat.pow 2 31) (digit b) 0 rest
      if startsWithDigit rest then
        if significand ≠ 0 ∧ !negative then
          .error (.before .numberOutOfRange rest.tail)
        else .ok (signed positive 0, rest.dropWhile isDigit)
      else
        readScaled positive significand
          (clampExponent (if negative then start - e else start + e)) rest
    else .error (.before .invalidNumber rest)

/-- What follows the digits of a double: an exponent part or nothing. -/
def readScale (positive : Bool) (significand : Nat) (exponent : Int) (bytes : Bytes) :
    Reading Number :=
  match bytes with
  | 0x65 :: rest => readExponent positive significand exponent rest
  | 0x45 :: rest => readExponent positive significand exponent rest
  | _ => readScaled positive significand exponent bytes

/-- The fraction, from the byte after the point. Digits that no longer fit are skipped. -/
def readFraction (positive : Bool) (significand : Nat) (exponent : Int) (bytes : Bytes) :
    Reading Number :=
  let (n, count, rest) := appendDigits (Nat.pow 2 64) significand 0 bytes
  if startsWithDigit rest then
    readScale positive n (exponent - count) (rest.dropWhile isDigit)
  else if count = 0 then
    match rest with
    | [] => .error (.at .endInValue [])
    | _ => .error (.at .invalidNumber rest)
  else readScale positive n (exponent - count) rest

/-- What follows the whole part of a number. -/
def readTail (positive : Bool) (significand : Nat) (exponent : Nat) (bytes : Bytes) :
    Reading Number :=
  match bytes with
  | 0x2E :: rest => readFraction positive significand exponent rest
  | _ => readScale positive significand exponent bytes

/-- A number that ends after its whole part. Minus zero and what is below -2^63 are doubles. -/
def wholeNumber (positive : Bool) (n : Nat) : Number :=
  if positive then .natural n
  else if n = 0 ∨ Nat.pow 2 63 < n then signed false n.toUInt64.toFloat
  else .negative n

/-- A number, from the byte after its sign. -/
def readNumber (positive : Bool) (bytes : Bytes) : Reading Number :=
  match bytes with
  | [] => .error (.before .endInValue [])
  | b :: rest =>
    if !isDigit b then .error (.before .invalidNumber rest)
    else if b = 0x30 ∧ startsWithDigit rest then .error (.at .invalidNumber rest)
    else
      let (n, _, rest) := appendDigits (Nat.pow 2 64) (digit b) 0 rest
      if startsWithDigit rest then
        let skipped := rest.takeWhile isDigit
        readTail positive n skipped.length (rest.dropWhile isDigit)
      else match rest with
        | 0x2E :: _ => readTail positive n 0 rest
        | 0x65 :: _ => readTail positive n 0 rest
        | 0x45 :: _ => readTail positive n 0 rest
        | _ => .ok (wholeNumber positive n, rest)

end JobBoard.Json
