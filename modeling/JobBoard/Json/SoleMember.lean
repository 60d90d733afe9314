import JobBoard.Json.Skip

/-!
# Answers with one member

Small answers are read straight from their bytes: an object whose one member of interest may be
missing but not doubled, or an array that holds that member's value alone.
-/
namespace JobBoard.Json

/-- Text or null. -/
def readTextOrNull (bytes : Bytes) : Option (Option String × Bytes) :=
  match skipSpace bytes with
  | 0x6E :: rest => (readWord [0x75, 0x6C, 0x6C] rest).toOption.map fun r => (none, r)
  | 0x22 :: rest => (readString rest).toOption.map fun (s, r) => (some s, r)
  | _ => none

def readBool (bytes : Bytes) : Option (Bool × Bytes) :=
  match skipSpace bytes with
  | 0x74 :: rest => (readWord [0x72, 0x75, 0x65] rest).toOption.map fun r => (true, r)
  | 0x66 :: rest => (readWord [0x61, 0x6C, 0x73, 0x65] rest).toOption.map fun r => (false, r)
  | _ => none

/-- The members of an object up to and including its closing brace. Of the member `name` the value
is read, of any other the grammar checked. -/
def readSoleIn {α : Type} (name : String) (item : Bytes → Option (α × Bytes)) :
    (fuel : Nat) → (first : Bool) → Option α → Bytes → Option (Option α × Bytes)
  | 0, _, _, _ => none
  | fuel + 1, first, found, bytes => do
    let (next, rest) ← (nextMember first bytes).toOption
    match next with
    | none => return (found, rest)
    | some start =>
      let (key, rest) ← (readString start).toOption
      let rest ← (readColon rest).toOption
      if key = name then
        match found with
        | some _ => none
        | none =>
          let (a, rest) ← item rest
          readSoleIn name item fuel false (some a) rest
      else
        readSoleIn name item fuel false found (← skipValue rest)

/-- The value of the sole member, `some none` if it is missing, nothing if the text is not of this
shape. -/
def readSole {α : Type} (name : String) (item : Bytes → Option (α × Bytes)) (text : Bytes) :
    Option (Option α) := do
  let (found, rest) ← match skipSpace text with
    | 0x7B :: rest => readSoleIn name item (rest.length + 1) true none rest
    | 0x5B :: rest =>
      match skipSpace rest with
      | 0x5D :: after => some (none, after)
      | inner => do
        let (a, after) ← item inner
        match skipSpace after with
        | 0x5D :: after => some (some a, after)
        | _ => none
    | _ => none
  if (skipSpace rest).isEmpty then return found else none

end JobBoard.Json
