import JobBoard.Text.Hex
import JobBoard.Text.Unshown

/-!
# Quoted texts

A text between double quotes, with the quote, the backslash and everything that would not be seen
written as an escape.
-/
namespace JobBoard.Text

/-- A character by its number. -/
def numberEscape (c : Char) : String :=
  "\\u\x7b" ++ String.ofList (hex c.toNat) ++ "\x7d"

/-- One character of a quoted text. -/
def escaped (c : Char) : String :=
  if c = '\x00' then "\\0"
  else if c = '\t' then "\\t"
  else if c = '\r' then "\\r"
  else if c = '\n' then "\\n"
  else if c = '"' then "\\\""
  else if c = '\\' then "\\\\"
  else if c.toNat < 0x20 ∨ c.toNat = 0x7F then numberEscape c
  else if c.toNat < 0x80 then String.singleton c
  else if isUnshown c.toNat then numberEscape c
  else String.singleton c

def quoted (s : String) : String :=
  "\"" ++ String.join (s.toList.map escaped) ++ "\""

end JobBoard.Text
