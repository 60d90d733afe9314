/-!
# UTF-8

Reading characters from bytes. An ill-formed part is the longest start of a well-formed sequence
that the next byte does not continue, or a single byte that starts none. `decode` refuses the first
ill-formed part, `decodeLossy` puts U+FFFD in place of each.
-/
namespace JobBoard

abbrev Bytes := List UInt8

namespace Text.Utf8

/-- A byte that may continue a sequence, carrying its six low bits. -/
def isTail (b : UInt8) : Bool :=
  0x80 ≤ b && b ≤ 0xBF

/-- The bytes that may follow a lead byte of a sequence of three or four: all continuation bytes
but those that would spell an overlong form, a surrogate or a number beyond U+10FFFF. -/
def secondRange (lead : UInt8) : UInt8 × UInt8 :=
  if lead = 0xE0 then (0xA0, 0xBF)
  else if lead = 0xED then (0x80, 0x9F)
  else if lead = 0xF0 then (0x90, 0xBF)
  else if lead = 0xF4 then (0x80, 0x8F)
  else (0x80, 0xBF)

/-- The number that a lead byte's `keep` low bits and the continuation bytes spell. -/
def scalar (keep : Nat) (lead : UInt8) (tails : List UInt8) : Char :=
  Char.ofNat (tails.foldl (fun n b => n * 0x40 + b.toNat % 0x40) (lead.toNat % Nat.pow 2 keep))

/-- The first character of `lead :: rest` and what follows it, or nothing and what follows the
ill-formed part. -/
def front (lead : UInt8) (rest : Bytes) : Option Char × Bytes :=
  if lead < 0x80 then (some (Char.ofNat lead.toNat), rest)
  else if 0xC2 ≤ lead && lead ≤ 0xDF then
    match rest with
    | b :: r => if isTail b then (some (scalar 5 lead [b]), r) else (none, rest)
    | [] => (none, [])
  else if 0xE0 ≤ lead && lead ≤ 0xF4 then
    match rest with
    | b :: r =>
      if (secondRange lead).1 ≤ b && b ≤ (secondRange lead).2 then
        match r with
        | c :: r' =>
          if isTail c then
            if lead < 0xF0 then (some (scalar 4 lead [b, c]), r')
            else match r' with
              | d :: r'' => if isTail d then (some (scalar 3 lead [b, c, d]), r'') else (none, r')
              | [] => (none, [])
          else (none, r)
        | [] => (none, [])
      else (none, rest)
    | [] => (none, [])
  else (none, rest)

theorem front_length (lead : UInt8) (rest : Bytes) :
    (front lead rest).2.length ≤ rest.length := by
  unfold front
  repeat' split
  all_goals simp
  all_goals omega

/-- The characters of a well-formed byte sequence; otherwise the number of bytes from the first
ill-formed part on. -/
def decode : Bytes → Except Nat (List Char)
  | [] => .ok []
  | b :: rest =>
    have := front_length b rest
    match (front b rest).1 with
    | some c => (decode (front b rest).2).map (c :: ·)
    | none => .error (rest.length + 1)
termination_by bytes => bytes.length
decreasing_by simp only [List.length_cons]; omega

/-- The characters of a byte sequence, each ill-formed part read as U+FFFD. -/
def decodeLossy : Bytes → List Char
  | [] => []
  | b :: rest =>
    have := front_length b rest
    (front b rest).1.getD (Char.ofNat 0xFFFD) :: decodeLossy (front b rest).2
termination_by bytes => bytes.length
decreasing_by simp only [List.length_cons]; omega

def encode (cs : List Char) : Bytes :=
  cs.flatMap String.utf8EncodeChar

def bytes (s : String) : Bytes :=
  encode s.toList

end Text.Utf8

end JobBoard
