import JobBoard.Json.Text

/-!
# Reading JSON values

Arrays and objects may be nested 127 levels deep. The depth that is left bounds the recursion into
elements, the length of the text the number of elements at one level.
-/
namespace JobBoard.Json

/-- Space, line feed, carriage return and tab. -/
def isSpace (b : UInt8) : Bool :=
  b == 0x20 || b == 0x0A || b == 0x0D || b == 0x09

def skipSpace (bytes : Bytes) : Bytes :=
  bytes.dropWhile isSpace

/-- The letters of a literal name after its first. -/
def readWord (expected : Bytes) (bytes : Bytes) : Except Stop Bytes :=
  match expected, bytes with
  | [], _ => .ok bytes
  | _ :: _, [] => .error (.before .endInValue [])
  | e :: es, b :: rest => if b = e then readWord es rest else .error (.before .expectedWord rest)

/-- The elements of an array up to and including its closing bracket; `first` before the first. -/
def readItems (item : Bytes → Reading Value) :
    (fuel : Nat) → (first : Bool) → Bytes → Except Stop (List Value × Bytes)
  | 0, _, bytes => .error (.at .endInList bytes)
  | fuel + 1, first, bytes =>
    let one : Bytes → Except Stop (List Value × Bytes) := fun bytes => do
      let (v, rest) ← item bytes
      let (vs, rest) ← readItems item fuel false rest
      return (v :: vs, rest)
    match skipSpace bytes with
    | [] => .error (.at .endInList [])
    | b :: rest =>
      if b = 0x5D then .ok ([], rest)
      else if first then one (b :: rest)
      else if b = 0x2C then
        match skipSpace rest with
        | [] => .error (.at .endInValue [])
        | c :: after =>
          if c = 0x5D then .error (.at .trailingComma (c :: after)) else one (c :: after)
      else .error (.at .expectedListEnd (b :: rest))

/-- The colon between the name of a member and its value. -/
def readColon (bytes : Bytes) : Except Stop Bytes :=
  match skipSpace bytes with
  | [] => .error (.at .endInObject [])
  | b :: rest => if b = 0x3A then .ok rest else .error (.at .expectedColon (b :: rest))

/-- Where the next member of an object stands: nothing after the closing brace, else the text from
the byte after the opening quote of its name. -/
def nextMember (first : Bool) (bytes : Bytes) : Except Stop (Option Bytes × Bytes) :=
  match skipSpace bytes with
  | [] => .error (.at .endInObject [])
  | b :: rest =>
    if b = 0x7D then .ok (none, rest)
    else if first then
      if b = 0x22 then .ok (some rest, rest) else .error (.at .keyNotString (b :: rest))
    else if b = 0x2C then
      match skipSpace rest with
      | [] => .error (.at .endInValue [])
      | c :: after =>
        if c = 0x22 then .ok (some after, after)
        else if c = 0x7D then .error (.at .trailingComma (c :: after))
        else .error (.at .keyNotString (c :: after))
    else .error (.at .expectedObjectEnd (b :: rest))

/-- The members of an object up to and including its closing brace, added to those in front. -/
def readMembers (item : Bytes → Reading Value) :
    (fuel : Nat) → (first : Bool) → List (String × Value) → Bytes →
      Except Stop (List (String × Value) × Bytes)
  | 0, _, _, bytes => .error (.at .endInObject bytes)
  | fuel + 1, first, members, bytes => do
    let (next, rest) ← nextMember first bytes
    match next with
    | none => return (members, rest)
    | some start =>
      let (name, rest) ← readString start
      let rest ← readColon rest
      let (v, rest) ← item rest
      readMembers item fuel false (insertMember name v members) rest

/-- A value whose arrays and objects nest at most `depth` deep. -/
def readValue : (depth : Nat) → Bytes → Except Stop (Value × Bytes)
  | depth, bytes =>
    match skipSpace bytes with
    | [] => .error (.at .endInValue [])
    | b :: rest =>
      if b = 0x6E then do
        return (.null, ← readWord [0x75, 0x6C, 0x6C] rest)
      else if b = 0x74 then do
        return (.bool true, ← readWord [0x72, 0x75, 0x65] rest)
      else if b = 0x66 then do
        return (.bool false, ← readWord [0x61, 0x6C, 0x73, 0x65] rest)
      else if b = 0x2D then do
        let (n, rest) ← readNumber false rest
        return (.number n, rest)
      else if isDigit b then do
        let (n, rest) ← readNumber true (b :: rest)
        return (.number n, rest)
      else if b = 0x22 then do
        let (s, rest) ← readString rest
        return (.string s, rest)
      else if b = 0x5B then
        match depth with
        | 0 => .error (.at .nestingTooDeep (b :: rest))
        | depth + 1 => do
          let (items, rest) ← readItems (readValue depth) (rest.length + 1) true rest
          return (.array items, rest)
      else if b = 0x7B then
        match depth with
        | 0 => .error (.at .nestingTooDeep (b :: rest))
        | depth + 1 => do
          let (members, rest) ← readMembers (readValue depth) (rest.length + 1) true [] rest
          return (.object members, rest)
      else .error (.at .expectedValue (b :: rest))

/-- The deepest nesting of arrays and objects that is read. -/
def maxDepth : Nat := 127

/-- Nothing but white space may follow a value. -/
def finish {α : Type} (r : Reading α) : Except Stop α := do
  let (a, rest) ← r
  match skipSpace rest with
  | [] => return a
  | b :: after => throw (.at .trailingCharacters (b :: after))

def parse (text : Bytes) : Except Stop Value :=
  finish (readValue maxDepth text)

end JobBoard.Json
