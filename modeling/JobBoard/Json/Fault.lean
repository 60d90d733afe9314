import JobBoard.Text.Utf8

/-!
# Faults in JSON text

What can be wrong with a text, the words for it, and where it stands.
-/
namespace JobBoard.Json

inductive Fault where
  | endInList
  | endInObject
  | endInString
  | endInValue
  | expectedColon
  | expectedListEnd
  | expectedObjectEnd
  | expectedWord
  | expectedValue
  | invalidEscape
  | invalidNumber
  | numberOutOfRange
  | invalidCodePoint
  | controlCharacter
  | keyNotString
  | loneSurrogate
  | trailingComma
  | trailingCharacters
  | endOfHexEscape
  | nestingTooDeep
  deriving DecidableEq

def Fault.message : Fault → String
  | .endInList => "EOF while parsing a list"
  | .endInObject => "EOF while parsing an object"
  | .endInString => "EOF while parsing a string"
  | .endInValue => "EOF while parsing a value"
  | .expectedColon => "expected \x60:\x60"
  | .expectedListEnd => "expected \x60,\x60 or \x60]\x60"
  | .expectedObjectEnd => "expected \x60,\x60 or \x60\x7d\x60"
  | .expectedWord => "expected ident"
  | .expectedValue => "expected value"
  | .invalidEscape => "invalid escape"
  | .invalidNumber => "invalid number"
  | .numberOutOfRange => "number out of range"
  | .invalidCodePoint => "invalid unicode code point"
  | .controlCharacter => "control character (\\u0000-\\u001F) found while parsing a string"
  | .keyNotString => "key must be a string"
  | .loneSurrogate => "lone leading surrogate in hex escape"
  | .trailingComma => "trailing comma"
  | .trailingCharacters => "trailing characters"
  | .endOfHexEscape => "unexpected end of hex escape"
  | .nestingTooDeep => "recursion limit exceeded"

/-- A fault, and how many bytes of the text lie beyond it. -/
structure Stop where
  fault : Fault
  beyond : Nat
  deriving DecidableEq

/-- A fault in the byte before `rest`. -/
def Stop.before (fault : Fault) (rest : Bytes) : Stop :=
  ⟨fault, rest.length⟩

/-- A fault in the first byte of `rest`, or at the end of the text if nothing is left. -/
def Stop.at (fault : Fault) (rest : Bytes) : Stop :=
  ⟨fault, rest.length - 1⟩

/-- Lines are counted from one, columns in bytes from the start of the line. -/
structure Position where
  line : Nat
  column : Nat
  deriving DecidableEq

/-- The position behind the first `count` bytes of a text. -/
def Position.after (text : Bytes) (count : Nat) : Position :=
  let read := text.take count
  { line := read.count 0x0A + 1
    column := (read.reverse.takeWhile (· ≠ 0x0A)).length }

def Position.text (p : Position) : String :=
  "line " ++ toString p.line ++ " column " ++ toString p.column

/-- The full message of a fault in a text. -/
def Stop.message (s : Stop) (text : Bytes) : String :=
  s.fault.message ++ " at " ++ (Position.after text (text.length - s.beyond)).text

end JobBoard.Json
