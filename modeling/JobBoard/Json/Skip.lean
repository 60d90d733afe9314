import JobBoard.Json.Reader

/-!
# Passing over JSON values

A value that nobody asks for is only checked for its grammar: it may nest to any depth, its numbers
may be of any size, and its strings may hold any bytes and lone surrogates.
-/
namespace JobBoard.Json

/-- What follows an exponent's letter. -/
def skipExponent (bytes : Bytes) : Option Bytes :=
  let digits := match bytes with
    | 0x2B :: rest => rest
    | 0x2D :: rest => rest
    | _ => bytes
  if startsWithDigit digits then some (digits.dropWhile isDigit) else none

def skipScale (bytes : Bytes) : Option Bytes :=
  match bytes with
  | 0x65 :: rest => skipExponent rest
  | 0x45 :: rest => skipExponent rest
  | _ => some bytes

/-- A number, from the byte after its sign. -/
def skipNumber (bytes : Bytes) : Option Bytes :=
  match bytes with
  | [] => none
  | b :: rest =>
    if !isDigit b ∨ (b = 0x30 ∧ startsWithDigit rest) then none
    else match rest.dropWhile isDigit with
      | 0x2E :: after =>
        if startsWithDigit after then skipScale (after.dropWhile isDigit) else none
      | after => skipScale after

/-- The bytes that may follow a backslash, the letter u apart. -/
def isShortEscape (b : UInt8) : Bool :=
  b == 0x22 || b == 0x5C || b == 0x2F || b == 0x62 || b == 0x66 || b == 0x6E || b == 0x72 ||
    b == 0x74

/-- A string, from the byte after its opening quote. -/
def skipString : Bytes → Option Bytes
  | [] => none
  | 0x22 :: rest => some rest
  | 0x5C :: 0x75 :: a :: b :: c :: d :: rest =>
    if [a, b, c, d].all fun x => (hexDigit? x).isSome then skipString rest else none
  | 0x5C :: b :: rest => if isShortEscape b then skipString rest else none
  | b :: rest => if b < 0x20 ∨ b = 0x5C then none else skipString rest

/-- A value that is neither an array nor an object. -/
def skipScalar (bytes : Bytes) : Option Bytes :=
  match bytes with
  | 0x6E :: rest => (readWord [0x75, 0x6C, 0x6C] rest).toOption
  | 0x74 :: rest => (readWord [0x72, 0x75, 0x65] rest).toOption
  | 0x66 :: rest => (readWord [0x61, 0x6C, 0x73, 0x65] rest).toOption
  | 0x2D :: rest => skipNumber rest
  | 0x22 :: rest => skipString rest
  | _ => skipNumber bytes

/-- What is open around a value. -/
inductive Bracket where
  | list
  | object

/-- What the text goes on with: a value, the name of a member, or the end of a value. -/
inductive Turn where
  | value
  | name
  | done

/-- Passes over the rest of a value, inside the brackets that are open. -/
def skipFrom : (fuel : Nat) → Turn → List Bracket → Bytes → Option Bytes
  | 0, _, _, _ => none
  | fuel + 1, .value, inside, bytes =>
    match skipSpace bytes with
    | 0x5B :: rest =>
      match skipSpace rest with
      | 0x5D :: after => skipFrom fuel .done inside after
      | after => skipFrom fuel .value (.list :: inside) after
    | 0x7B :: rest =>
      match skipSpace rest with
      | 0x7D :: after => skipFrom fuel .done inside after
      | after => skipFrom fuel .name (.object :: inside) after
    | scalar => do skipFrom fuel .done inside (← skipScalar scalar)
  | fuel + 1, .name, inside, bytes =>
    match skipSpace bytes with
    | 0x22 :: rest => do
      match skipSpace (← skipString rest) with
      | 0x3A :: after => skipFrom fuel .value inside after
      | _ => none
    | _ => none
  | _ + 1, .done, [], bytes => some bytes
  | fuel + 1, .done, .list :: inside, bytes =>
    match skipSpace bytes with
    | 0x2C :: rest => skipFrom fuel .value (.list :: inside) rest
    | 0x5D :: rest => skipFrom fuel .done inside rest
    | _ => none
  | fuel + 1, .done, .object :: inside, bytes =>
    match skipSpace bytes with
    | 0x2C :: rest => skipFrom fuel .name (.object :: inside) rest
    | 0x7D :: rest => skipFrom fuel .done inside rest
    | _ => none

/-- What follows a value. Every turn but the last reads at least one byte. -/
def skipValue (bytes : Bytes) : Option Bytes :=
  skipFrom (bytes.length + 2) .value [] bytes

end JobBoard.Json
