import JobBoard.Text.Cut
import JobBoard.Url.Encoding

/-!
# Hosts

A host is a domain, an IPv4 address or an IPv6 address. Under the special schemes a host text whose
last label is a number has to be an IPv4 address, and domains are in their ASCII form; under all
other schemes any text without separators is a domain. IPv6 addresses stand in brackets.
-/
namespace JobBoard

inductive Host where
  | domain (name : List Char)
  | ipv4 (address : Nat)
  /-- Eight pieces of 16 bits. -/
  | ipv6 (pieces : List Nat)
  deriving DecidableEq

namespace Url

/-- What can be wrong with a URL. -/
inductive Fault where
  | noScheme
  | emptyHost
  | invalidPort
  | invalidIpv4
  | invalidIpv6
  | invalidDomain
  | invalidDomainCharacter
  deriving DecidableEq

def Fault.message : Fault → String
  | .noScheme => "relative URL without a base"
  | .emptyHost => "empty host"
  | .invalidPort => "invalid port number"
  | .invalidIpv4 => "invalid IPv4 address"
  | .invalidIpv6 => "invalid IPv6 address"
  | .invalidDomain => "invalid international domain name"
  | .invalidDomainCharacter => "invalid domain character"

/-- A number of an IPv4 address: hexadecimal after 0x, octal after a zero, else decimal. -/
def ipv4Number : List Char → Option Nat
  | [] => none
  | '0' :: 'x' :: digits => Text.digitsValue 16 digits
  | '0' :: 'X' :: digits => Text.digitsValue 16 digits
  | '0' :: d :: digits => Text.digitsValue 8 (d :: digits)
  | digits => Text.digitsValue 10 digits

/-- Labels without the empty one behind a final point. -/
def properLabels (labels : List (List Char)) : List (List Char) :=
  if labels.getLast? = some [] then labels.dropLast else labels

/-- Whether a domain has to be an IPv4 address. -/
def endsInNumber (labels : List (List Char)) : Bool :=
  (properLabels labels).getLast?.any fun last =>
    (!last.isEmpty && last.all Char.isDigit) || (ipv4Number last).isSome

/-- The address that up to four numbers spell. All but the last are one byte each, the last fills
the remaining bytes. -/
def ipv4Address? (labels : List (List Char)) : Option Nat := do
  let numbers ← (properLabels labels).mapM ipv4Number
  let last ← numbers.getLast?
  let leading := numbers.dropLast
  if leading.length ≤ 3 ∧ (∀ n ∈ leading, n < 256) ∧ last < Nat.pow 256 (4 - leading.length) then
    some (leading.foldl (fun n byte => n * 256 + byte) 0 * Nat.pow 256 (4 - leading.length) + last)
  else none

/-- One piece of an IPv6 address: one to four hexadecimal digits. -/
def ipv6Piece (cs : List Char) : Option Nat :=
  if cs.isEmpty ∨ 4 < cs.length then none else Text.digitsValue 16 cs

/-- A byte of an IPv4 address at the end of an IPv6 address: decimal, without leading zeros. -/
def ipv4Byte (cs : List Char) : Option Nat :=
  if cs.isEmpty ∨ (cs.head? = some '0' ∧ cs ≠ ['0']) then none
  else (Text.digitsValue 10 cs).filter (· < 256)

/-- The last pieces of an IPv6 address: two of them if they are written as an IPv4 address. -/
def ipv6Tail (cs : List Char) : Option (List Nat) :=
  if cs.contains '.' then
    match (Text.cut (· = '.') cs).mapM ipv4Byte with
    | some [a, b, c, d] => some [a * 256 + b, c * 256 + d]
    | _ => none
  else (ipv6Piece cs).map fun piece => [piece]

/-- Pieces between colons; the empty text has none. -/
def ipv6Pieces (cs : List Char) : Option (List Nat) :=
  if cs.isEmpty then some []
  else do
    let parts := Text.cut (· = ':') cs
    let leading ← parts.dropLast.mapM ipv6Piece
    let last ← parts.getLast?
    return leading ++ (← ipv6Tail last)

/-- What stands before and after the first double colon. -/
def splitGap : List Char → Option (List Char × List Char)
  | [] => none
  | ':' :: ':' :: rest => some ([], rest)
  | c :: rest => (splitGap rest).map fun (front, back) => (c :: front, back)

/-- Reads an IPv6 address; a double colon stands for one or more pieces of zero. -/
def ipv6Address? (cs : List Char) : Option (List Nat) :=
  match splitGap cs with
  | some (front, back) => do
    if front.contains '.' then none
    let leading ← ipv6Pieces front
    let trailing ← ipv6Pieces back
    let given := leading.length + trailing.length
    if given ≤ 7 then some (leading ++ List.replicate (8 - given) 0 ++ trailing) else none
  | none => (ipv6Pieces cs).filter (·.length = 8)

def bracketed (cs : List Char) : Except Fault Host :=
  if cs.getLast? = some ']' then
    match ipv6Address? (cs.tail.dropLast) with
    | some pieces => .ok (.ipv6 pieces)
    | none => .error .invalidIpv6
  else .error .invalidIpv6

/-- Characters that no domain may hold, whatever the scheme. -/
def separatesHosts (c : Char) : Bool :=
  ['\x00', '\t', '\n', '\r', ' ', '#', '/', ':', '<', '>', '?', '@', '[', '\\', ']', '^',
    '|'].contains c

/-- Characters that no domain under a special scheme holds once it is in ASCII. -/
def forbiddenInDomain (c : Char) : Bool :=
  separatesHosts c || controlSet c || c == '%' || 0x80 ≤ c.toNat

/-- A mapping of international domain names to ASCII. It rests on tables of Unicode that are no part
of the library, so it is given from outside. -/
structure Idna where
  toAscii? : List Char → Option (List Char)
  /-- A name whose ASCII form could not stand in a URL is not mapped. -/
  allowed : ∀ name mapped, toAscii? name = some mapped → mapped.any forbiddenInDomain = false

def Idna.absent : Idna where
  toAscii? _ := none
  allowed := nofun

/-- A label that stands for one beyond ASCII. -/
def isEncodedLabel (label : List Char) : Bool :=
  (label.take 4).map Char.toLower = "xn--".toList

/-- Whether lower case is all that the ASCII form of a name takes. -/
def isPlainName (name : List Char) : Bool :=
  name.all (·.toNat < 0x80) && !(Text.cut (· = '.') name).any isEncodedLabel

def domainToAscii? (idna : Idna) (name : List Char) : Option (List Char) :=
  if isPlainName name then
    if name.any forbiddenInDomain then none else some (name.map Char.toLower)
  else idna.toAscii? name

/-- The domain that a text spells under a special scheme. -/
def readDomain (idna : Idna) (cs : List Char) : Except Fault (List Char) :=
  match Text.Utf8.decode (percentDecode (Text.Utf8.encode cs)) with
  | .ok name =>
    match domainToAscii? idna name with
    | some mapped => .ok mapped
    | none => .error .invalidDomain
  | .error _ => .error .invalidDomain

/-- The host that a text spells under a special scheme. -/
def readHost (idna : Idna) (cs : List Char) : Except Fault Host :=
  if cs.head? = some '[' then bracketed cs
  else do
    let name ← readDomain idna cs
    if name.isEmpty then throw .emptyHost
    let labels := Text.cut (· = '.') name
    if endsInNumber labels then
      match ipv4Address? labels with
      | some address => return .ipv4 address
      | none => throw .invalidIpv4
    else return .domain name

/-- The host that a text spells under any other scheme. -/
def readPlainHost (cs : List Char) : Except Fault Host :=
  if cs.head? = some '[' then bracketed cs
  else if cs.any separatesHosts then .error .invalidDomainCharacter
  else .ok (.domain (percentEncode controlSet cs))

end Url

namespace Host

def decimal (n : Nat) : List Char :=
  Nat.toDigits 10 n

def ipv4Text (address : Nat) : List Char :=
  let bytes :=
    [address / Nat.pow 256 3, address / Nat.pow 256 2 % 256, address / 256 % 256, address % 256]
  List.intercalate ['.'] (bytes.map decimal)

/-- How many pieces from a place on are zero. -/
def zeros (pieces : List Nat) (start : Nat) : Nat :=
  ((pieces.drop start).takeWhile (· = 0)).length

/-- Where the longest run of zeros starts, the first of several. -/
def longestZeros (pieces : List Nat) : Nat :=
  (List.range pieces.length).foldl
    (fun best i => if zeros pieces best < zeros pieces i then i else best) 0

def ipv6Join (pieces : List Nat) : List Char :=
  List.intercalate [':'] (pieces.map Text.hex)

/-- The longest run of two zeros or more is left out. -/
def ipv6Text (pieces : List Nat) : List Char :=
  let start := longestZeros pieces
  let count := zeros pieces start
  if count < 2 then ipv6Join pieces
  else ipv6Join (pieces.take start) ++ [':', ':'] ++ ipv6Join (pieces.drop (start + count))

def text : Host → List Char
  | .domain name => name
  | .ipv4 address => ipv4Text address
  | .ipv6 pieces => '[' :: ipv6Text pieces ++ [']']

end Host

end JobBoard
