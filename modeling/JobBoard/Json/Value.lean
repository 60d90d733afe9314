import JobBoard.Decimal
import JobBoard.Text.Collation

/-!
# JSON values

A number is a whole number of 64 bits where it can be, a double otherwise. The members of an object
are kept in the order of their names, each name once.
-/
namespace JobBoard.Json

inductive Number where
  /-- A whole number from 0 to 2^64 - 1. -/
  | natural (n : Nat)
  /-- The whole number `-n`, for `n` from 1 to 2^63. -/
  | negative (n : Nat)
  /-- A double, by its bits. -/
  | double (bits : UInt64)
  deriving DecidableEq

inductive Value where
  | null
  | bool (b : Bool)
  | number (n : Number)
  | string (s : String)
  | array (items : List Value)
  | object (members : List (String × Value))

namespace Value

mutual

def decEq : (v w : Value) → Decidable (v = w)
  | .null, .null => isTrue rfl
  | .bool a, .bool b => decidable_of_decidable_of_eq (bool.injEq a b).symm
  | .number a, .number b => decidable_of_decidable_of_eq (number.injEq a b).symm
  | .string a, .string b => decidable_of_decidable_of_eq (string.injEq a b).symm
  | .array vs, .array ws =>
    have := decEqItems vs ws
    decidable_of_decidable_of_eq (array.injEq vs ws).symm
  | .object ms, .object ns =>
    have := decEqMembers ms ns
    decidable_of_decidable_of_eq (object.injEq ms ns).symm
  | .null, .bool _ | .null, .number _ | .null, .string _ | .null, .array _ | .null, .object _
  | .bool _, .null | .bool _, .number _ | .bool _, .string _ | .bool _, .array _
  | .bool _, .object _ | .number _, .null | .number _, .bool _ | .number _, .string _
  | .number _, .array _ | .number _, .object _ | .string _, .null | .string _, .bool _
  | .string _, .number _ | .string _, .array _ | .string _, .object _ | .array _, .null
  | .array _, .bool _ | .array _, .number _ | .array _, .string _ | .array _, .object _
  | .object _, .null | .object _, .bool _ | .object _, .number _ | .object _, .string _
  | .object _, .array _ => isFalse nofun

def decEqItems : (vs ws : List Value) → Decidable (vs = ws)
  | [], [] => isTrue rfl
  | v :: vs, w :: ws =>
    have := decEq v w
    have := decEqItems vs ws
    decidable_of_decidable_of_eq (List.cons.injEq v vs w ws).symm
  | [], _ :: _ | _ :: _, [] => isFalse nofun

def decEqMembers : (ms ns : List (String × Value)) → Decidable (ms = ns)
  | [], [] => isTrue rfl
  | (m, v) :: ms, (n, w) :: ns =>
    have := decEq v w
    have := decEqMembers ms ns
    have : Decidable ((m, v) = (n, w)) :=
      decidable_of_decidable_of_eq (Prod.mk.injEq m v n w).symm
    decidable_of_decidable_of_eq (List.cons.injEq (m, v) ms (n, w) ns).symm
  | [], _ :: _ | _ :: _, [] => isFalse nofun

end

instance : DecidableEq Value :=
  decEq

end Value

/-- The members of an object with one more; a member of the same name is replaced. -/
def insertMember (name : String) (v : Value) :
    List (String × Value) → List (String × Value)
  | [] => [(name, v)]
  | m :: ms =>
    if name = m.1 then (name, v) :: ms
    else match Text.compareCodePoints name.toList m.1.toList with
      | .lt => (name, v) :: m :: ms
      | _ => m :: insertMember name v ms

/-- The value of the member of a name. -/
def member? (name : String) (members : List (String × Value)) : Option Value :=
  members.lookup name

end JobBoard.Json
