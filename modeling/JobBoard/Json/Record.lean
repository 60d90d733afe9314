import JobBoard.Json.Value
import JobBoard.Text.Quoted

/-!
# Records in JSON values

A record is an object whose members are fields, or an array of the fields in their order. Fields
may be missing, members of other names do not count, an array may not have more elements than the
record has fields. A mismatch is told in the words of the value that was found.
-/
namespace JobBoard.Json

/-- A value in words. -/
def Value.inWords : Value → String
  | .null => "null"
  | .bool true => "boolean \x60true\x60"
  | .bool false => "boolean \x60false\x60"
  | .number (.natural n) => "integer \x60" ++ toString n ++ "\x60"
  | .number (.negative n) => "integer \x60-" ++ toString n ++ "\x60"
  | .number (.double bits) => "floating point \x60" ++ Decimal.text bits ++ "\x60"
  | .string s => "string " ++ Text.quoted s
  | .array _ => "sequence"
  | .object _ => "map"

inductive Mismatch where
  /-- A value of another kind than expected. -/
  | kind (found : Value) (expected : String)
  /-- An array of more elements than the record has fields. -/
  | surplus (count : Nat)

def Mismatch.message : Mismatch → String
  | .kind found expected => "invalid type: " ++ found.inWords ++ ", expected " ++ expected
  | .surplus count =>
    "invalid length " ++ toString count ++ ", expected fewer elements in array"

/-- A field of a record, by its name in an object or its place in an array; a missing field is
null. -/
def Value.field (v : Value) (name : String) (place : Nat) : Value :=
  match v with
  | .object members => (member? name members).getD .null
  | .array items => items[place]?.getD .null
  | _ => .null

/-- Refuses what is neither an object nor an array. -/
def checkRecord (name : String) : Value → Except Mismatch Unit
  | .object _ => .ok ()
  | .array _ => .ok ()
  | v => .error (.kind v ("struct " ++ name))

/-- Refuses an array of more elements than the record has fields. -/
def checkSurplus (count : Nat) : Value → Except Mismatch Unit
  | .array items => if count < items.length then .error (.surplus items.length) else .ok ()
  | _ => .ok ()

/-- A field of text; null reads as the empty text. -/
def textField : Value → Except Mismatch String
  | .null => .ok ""
  | .string s => .ok s
  | v => .error (.kind v "a string")

end JobBoard.Json
