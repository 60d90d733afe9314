import JobBoard.Text.Hex
import JobBoard.Text.Utf8

/-!
# Percent and form encoding

Characters that may not stand in a part of a URL are written byte by byte as a percent sign and two
hexadecimal digits. Each part has its own set of such characters below U+0080; all others are
always written that way. In form encoding everything but letters, digits and four marks is written
so, and a space becomes a plus sign.
-/
namespace JobBoard.Url

def upperHexDigit (n : Nat) : Char :=
  (Nat.digitChar n).toUpper

def percentByte (b : UInt8) : List Char :=
  ['%', upperHexDigit (b.toNat / 16), upperHexDigit (b.toNat % 16)]

/-- Percent encoding of the characters in `set` and of all beyond ASCII. -/
def percentEncode (set : Char → Bool) (cs : List Char) : List Char :=
  cs.flatMap fun c =>
    if 0x80 ≤ c.toNat || set c then (String.utf8EncodeChar c).flatMap percentByte else [c]

/-- Controls of ASCII. -/
def controlSet (c : Char) : Bool :=
  c.toNat < 0x20 || c.toNat == 0x7F

def fragmentSet (c : Char) : Bool :=
  controlSet c || [' ', '"', '<', '>', '\x60'].contains c

def pathSet (c : Char) : Bool :=
  fragmentSet c || ['#', '?', '\x7b', '\x7d'].contains c

def userinfoSet (c : Char) : Bool :=
  pathSet c || ['/', ':', ';', '=', '@', '[', '\\', ']', '^', '|'].contains c

def querySet (c : Char) : Bool :=
  controlSet c || [' ', '"', '#', '<', '>'].contains c

def specialQuerySet (c : Char) : Bool :=
  querySet c || c == '\''

/-- The value of a byte that is a hexadecimal digit. -/
def hexDigit? (b : UInt8) : Option Nat :=
  Text.hexValue? (Char.ofNat b.toNat)

/-- Reads percent escapes; a percent sign without two digits stays. -/
def percentDecode : Bytes → Bytes
  | 0x25 :: a :: b :: rest =>
    match hexDigit? a, hexDigit? b with
    | some x, some y => UInt8.ofNat (x * 16 + y) :: percentDecode rest
    | _, _ => 0x25 :: percentDecode (a :: b :: rest)
  | b :: rest => b :: percentDecode rest
  | [] => []

/-- The bytes that form encoding leaves as they are. -/
def formPlain (b : UInt8) : Bool :=
  (0x30 ≤ b && b ≤ 0x39) || (0x41 ≤ b && b ≤ 0x5A) || (0x61 ≤ b && b ≤ 0x7A) || b == 0x2A ||
    b == 0x2D || b == 0x2E || b == 0x5F

def formByte (b : UInt8) : List Char :=
  if formPlain b then [Char.ofNat b.toNat] else if b = 0x20 then ['+'] else percentByte b

def formEncode (s : String) : List Char :=
  (Text.Utf8.bytes s).flatMap formByte

/-- A query of named texts. -/
def formQuery (pairs : List (String × String)) : List Char :=
  List.intercalate ['&'] (pairs.map fun p => formEncode p.1 ++ '=' :: formEncode p.2)

end JobBoard.Url
