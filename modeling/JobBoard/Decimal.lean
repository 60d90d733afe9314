/-!
# The shortest decimal form of a double

A finite double stands for every real number that rounds to it. Its text has the fewest digits of
all decimals in that interval, and of those the nearest to the double itself. Numbers from 0.00001
up to 10^16 are written out with a point; beyond, an exponent follows the digits.
-/
namespace JobBoard.Decimal

/-- A positive double, as `mantissa * 2 ^ exponent`. -/
structure Binary where
  mantissa : Nat
  exponent : Int

/-- The magnitude that the bits of a finite double spell. -/
def Binary.ofBits (bits : UInt64) : Binary :=
  let fraction : Nat := bits.toNat % Nat.pow 2 52
  let biased : Nat := bits.toNat / Nat.pow 2 52 % Nat.pow 2 11
  if biased = 0 then ⟨fraction, -1074⟩ else ⟨fraction + Nat.pow 2 52, (biased : Int) - 1075⟩

/-- A fraction `num / den`, ends and middle of the interval that rounds to a double, over one
denominator. -/
structure Interval where
  low : Nat
  middle : Nat
  high : Nat
  den : Nat
  /-- Whether the ends themselves round to the double. -/
  closed : Bool

/-- The neighbours below are half as far away when the mantissa is the least of its exponent. -/
def Binary.interval (b : Binary) : Interval :=
  let e := b.exponent - 2
  let up := Nat.pow 2 e.toNat
  let below := if b.mantissa = Nat.pow 2 52 ∧ -1074 < b.exponent then 1 else 2
  { low := (4 * b.mantissa - below) * up
    middle := 4 * b.mantissa * up
    high := (4 * b.mantissa + 2) * up
    den := Nat.pow 2 (-e).toNat
    closed := b.mantissa % 2 == 0 }

/-- `digits * 10 ^ exponent`. -/
structure Form where
  digits : Nat
  exponent : Int
  deriving DecidableEq

/-- Whether a decimal rounds to the double of the interval. -/
def Interval.holds (i : Interval) (f : Form) : Bool :=
  let value := f.digits * Nat.pow 10 f.exponent.toNat * i.den
  let scale := Nat.pow 10 (-f.exponent).toNat
  if i.closed then i.low * scale ≤ value && value ≤ i.high * scale
  else i.low * scale < value && value < i.high * scale

/-- The decimal exponent of the leading digit of `num / den`, for a quotient of at least one. -/
def leadingExponent (num den : Nat) : Int :=
  if den ≤ num then ((Nat.toDigits 10 (num / den)).length : Int) - 1
  else
    -- 10 ^ k * num reaches den within one step of the difference in digit counts
    let k := (Nat.toDigits 10 den).length - (Nat.toDigits 10 num).length
    if den ≤ num * Nat.pow 10 k then -(k : Int) else -(k : Int) - 1

/-- The two decimals next to the double among those with `count` digits, the nearer one first when
both are as good; an exact tie goes to the even digit. -/
def Interval.candidates (i : Interval) (count : Nat) : List Form :=
  let e := leadingExponent i.middle i.den + 1 - count
  let num := i.middle * Nat.pow 10 (-e).toNat
  let den := i.den * Nat.pow 10 e.toNat
  let q := num / den
  let r := num % den
  let down : Form := ⟨q, e⟩
  let upper : Form := ⟨q + 1, e⟩
  if 2 * r < den ∨ (2 * r = den ∧ q % 2 = 0) then [down, upper] else [upper, down]

/-- The fewest digits that round to the double, and of those the nearest. Seventeen always do. -/
def Interval.shortest (i : Interval) : Form :=
  ((List.range' 1 17).findSome? fun count => (i.candidates count).find? i.holds).getD ⟨0, 0⟩

/-- A decimal without trailing zeros: at most `fuel` of them are taken off. -/
def Form.stripped : Nat → Form → Form
  | 0, f => f
  | fuel + 1, f =>
    if f.digits ≠ 0 ∧ f.digits % 10 = 0 then stripped fuel ⟨f.digits / 10, f.exponent + 1⟩ else f

def Form.text (f : Form) : String :=
  let digits := Nat.toDigits 10 f.digits
  let point : Int := digits.length + f.exponent
  if 0 ≤ f.exponent ∧ point ≤ 16 then
    String.ofList (digits ++ List.replicate f.exponent.toNat '0') ++ ".0"
  else if 0 < point ∧ point ≤ 16 then
    String.ofList (digits.take point.toNat ++ '.' :: digits.drop point.toNat)
  else if -5 < point ∧ point ≤ 0 then
    "0." ++ String.ofList (List.replicate (-point).toNat '0' ++ digits)
  else
    let fraction := if digits.length = 1 then [] else '.' :: digits.drop 1
    let power := point - 1
    let sign := if power < 0 then "-" else "+"
    String.ofList (digits.take 1 ++ fraction) ++ "e" ++ sign ++ toString power.natAbs

/-- The text of a finite double, given by its bits. -/
def text (bits : UInt64) : String :=
  let sign := if bits.toNat / Nat.pow 2 63 = 1 then "-" else ""
  let b := Binary.ofBits bits
  if b.mantissa = 0 then sign ++ "0.0"
  else sign ++ (b.interval.shortest.stripped 20).text

end JobBoard.Decimal
