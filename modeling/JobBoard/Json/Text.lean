import JobBoard.Json.Digits
import JobBoard.Text.Hex
import JobBoard.Text.Utf8

/-!
# JSON strings

Reading and writing the inside of a string. A string may hold any character; the quote, the
backslash and the controls below U+0020 only as escapes, and a character beyond U+FFFF as an escape
only by the pair of its surrogates.
-/
namespace JobBoard.Json

open Text (Utf8.front Utf8.front_length)

/-- The value of a byte that is a hexadecimal digit. -/
def hexDigit? (b : UInt8) : Option Nat :=
  Text.hexValue? (Char.ofNat b.toNat)

/-- The four hexadecimal digits of an escape, and what follows them. -/
def readHex (bytes : Bytes) : Except Stop Nat × Bytes :=
  match bytes with
  | a :: b :: c :: d :: rest =>
    match hexDigit? a, hexDigit? b, hexDigit? c, hexDigit? d with
    | some a, some b, some c, some d => (.ok (((a * 16 + b) * 16 + c) * 16 + d), rest)
    | _, _, _, _ => (.error (.before .invalidEscape rest), rest)
  | _ => (.error (.before .endInString []), [])

theorem readHex_length (bytes : Bytes) : (readHex bytes).2.length ≤ bytes.length := by
  unfold readHex
  repeat' split
  all_goals simp
  all_goals omega

/-- The second half of a character beyond U+FFFF, after the escape of its first half. -/
def readTrail (lead : Nat) (bytes : Bytes) : Except Stop Char × Bytes :=
  match bytes with
  | [] => (.error (.before .endInString []), [])
  | 0x5C :: [] => (.error (.before .endInString []), [])
  | 0x5C :: 0x75 :: rest =>
    match readHex rest with
    | (.ok trail, r) =>
      if 0xDC00 ≤ trail ∧ trail ≤ 0xDFFF then
        (.ok (Char.ofNat (0x10000 + (lead - 0xD800) * 0x400 + (trail - 0xDC00))), r)
      else (.error (.before .loneSurrogate r), r)
    | (.error stop, r) => (.error stop, r)
  | 0x5C :: _ :: rest => (.error (.before .endOfHexEscape rest), rest)
  | _ :: rest => (.error (.before .endOfHexEscape rest), rest)

theorem readTrail_length (lead : Nat) (bytes : Bytes) :
    (readTrail lead bytes).2.length ≤ bytes.length := by
  unfold readTrail
  split
  · simp
  · simp
  · rename_i rest
    have := readHex_length rest
    split
    · rename_i h
      rw [h] at this
      split <;> simp at this ⊢ <;> omega
    · rename_i h
      rw [h] at this
      simp at this ⊢
      omega
  · simp; omega
  · simp

/-- The character that an escape of one letter stands for. -/
def letterEscape? (b : UInt8) : Option Char :=
  if b = 0x22 then some '"'
  else if b = 0x5C then some '\\'
  else if b = 0x2F then some '/'
  else if b = 0x62 then some '\x08'
  else if b = 0x66 then some '\x0C'
  else if b = 0x6E then some '\n'
  else if b = 0x72 then some '\r'
  else if b = 0x74 then some '\t'
  else none

/-- The character of an escape by number, from the first of its digits. -/
def readNumberEscape (bytes : Bytes) : Except Stop Char × Bytes :=
  match readHex bytes with
  | (.ok n, r) =>
    if 0xDC00 ≤ n ∧ n ≤ 0xDFFF then (.error (.before .loneSurrogate r), r)
    else if 0xD800 ≤ n ∧ n ≤ 0xDBFF then readTrail n r
    else (.ok (Char.ofNat n), r)
  | (.error stop, r) => (.error stop, r)

theorem readNumberEscape_length (bytes : Bytes) :
    (readNumberEscape bytes).2.length ≤ bytes.length := by
  have hx := readHex_length bytes
  unfold readNumberEscape
  split
  · rename_i n r h
    rw [h] at hx
    split
    · exact hx
    · split
      · exact Nat.le_trans (readTrail_length n r) hx
      · exact hx
  · rename_i h
    rw [h] at hx
    exact hx

/-- The character of an escape, from the byte after the backslash. -/
def readEscape (bytes : Bytes) : Except Stop Char × Bytes :=
  match bytes with
  | [] => (.error (.before .endInString []), [])
  | b :: rest =>
    match letterEscape? b with
    | some c => (.ok c, rest)
    | none =>
      if b = 0x75 then readNumberEscape rest else (.error (.before .invalidEscape rest), rest)

theorem readEscape_length (bytes : Bytes) :
    (readEscape bytes).2.length ≤ bytes.length := by
  unfold readEscape
  split
  · exact Nat.le_refl _
  · rename_i b rest
    have hrest : rest.length ≤ (b :: rest).length := Nat.le_succ _
    split
    · exact hrest
    · split
      · exact Nat.le_trans (readNumberEscape_length rest) hrest
      · exact hrest

/-- The rest of a string after the characters `read`, last first. Bytes that are no character are a
fault only once the closing quote is reached; `ill` tells how many bytes lie beyond the first. -/
def readRest (read : List Char) (ill : Option Nat) : Bytes → Reading String
  | [] => .error (.before .endInString [])
  | b :: rest =>
    if b = 0x22 then
      match ill with
      | none => .ok (String.ofList read.reverse, rest)
      | some beyond => .error ⟨.invalidCodePoint, beyond⟩
    else if b = 0x5C then
      have := readEscape_length rest
      match (readEscape rest).1 with
      | .ok c => readRest (c :: read) ill (readEscape rest).2
      | .error stop => .error stop
    else if b < 0x20 then .error (.before .controlCharacter rest)
    else
      have := Utf8.front_length b rest
      match (Utf8.front b rest).1 with
      | some c => readRest (c :: read) ill (Utf8.front b rest).2
      | none => readRest read (ill.or (some rest.length)) (Utf8.front b rest).2
termination_by bytes => bytes.length
decreasing_by all_goals (simp only [List.length_cons]; omega)

/-- A string, from the byte after its opening quote. -/
def readString (bytes : Bytes) : Reading String :=
  readRest [] none bytes

/-- One character as it is written inside a string. -/
def writeChar (c : Char) : List Char :=
  if c = '"' then ['\\', '"']
  else if c = '\\' then ['\\', '\\']
  else if c = '\x08' then ['\\', 'b']
  else if c = '\x0C' then ['\\', 'f']
  else if c = '\n' then ['\\', 'n']
  else if c = '\r' then ['\\', 'r']
  else if c = '\t' then ['\\', 't']
  else if c.toNat < 0x20 then
    ['\\', 'u', '0', '0', Nat.digitChar (c.toNat / 16), Nat.digitChar (c.toNat % 16)]
  else [c]

def writeString (s : String) : String :=
  String.ofList ('"' :: s.toList.flatMap writeChar ++ ['"'])

/-- An object of texts, its members in the order given. -/
def writeTexts (members : List (String × String)) : String :=
  let one := fun m : String × String => writeString m.1 ++ ":" ++ writeString m.2
  "\x7b" ++ String.intercalate "," (members.map one) ++ "\x7d"

end JobBoard.Json
