import JobBoard.Url.Walk

/-!
# Reading URLs

The text of a URL is read from its scheme on. Controls and spaces at both ends do not count, nor do
tabs and line ends anywhere. Parts are written in their encoded form, domains in their common
spelling, ports only if they are not the usual ones.
-/
namespace JobBoard.Url

variable (idna : Idna)

/-- What counts of a text. -/
def cleaned (cs : List Char) : List Char :=
  let outer := fun c : Char => c.toNat ≤ 0x20
  let inner := ((cs.dropWhile outer).reverse.dropWhile outer).reverse
  inner.filter fun c => c != '\t' && c != '\n' && c != '\r'

def isSchemeChar (c : Char) : Bool :=
  c.isAlphanum || c == '+' || c == '-' || c == '.'

/-- The scheme in front of the first colon, in lower case, and what follows the colon. -/
def readScheme (cs : List Char) : Option (List Char × List Char) :=
  match cs.dropWhile isSchemeChar with
  | ':' :: rest =>
    if cs.head?.any Char.isAlpha then some ((cs.takeWhile isSchemeChar).map Char.toLower, rest)
    else none
  | _ => none

def endsAuthority (kind : Kind) (c : Char) : Bool :=
  c == '/' || c == '?' || c == '#' || (kind.isSpecial && c == '\\')

/-- What stands before and after the last at sign. -/
def splitLastAt (cs : List Char) : Option (List Char × List Char) :=
  match cs.reverse.dropWhile (· ≠ '@') with
  | [] => none
  | _ :: before => some (before.reverse, (cs.reverse.takeWhile (· ≠ '@')).reverse)

/-- User name and password; an empty password is none. -/
def readUserinfo (cs : List Char) : List Char × Option (List Char) :=
  let encoded := percentEncode userinfoSet
  match cs.dropWhile (· ≠ ':') with
  | _ :: password =>
    (encoded (cs.takeWhile (· ≠ ':')),
      if password.isEmpty then none else some (encoded password))
  | [] => (encoded cs, none)

/-- Cuts the host from what follows it: it goes up to the first colon outside brackets. -/
def spanHost : (inside : Bool) → List Char → List Char × List Char
  | _, [] => ([], [])
  | inside, c :: cs =>
    if c = ':' ∧ !inside then ([], c :: cs)
    else
      let inside := if c = '[' then true else if c = ']' then false else inside
      let (host, rest) := spanHost inside cs
      (c :: host, rest)

/-- The port in front of a text that may start with a backslash. -/
def readPort (scheme cs : List Char) : Except Fault (Option Nat × List Char) :=
  let digits := cs.takeWhile Char.isDigit
  let rest := cs.dropWhile Char.isDigit
  let port := (Text.digitsValue 10 digits).getD 0
  if 0xFFFF < port ∨ rest.head?.any (· ≠ '\\') then .error .invalidPort
  else
    .ok (if digits.isEmpty ∨ usualPort? scheme = some port then none else some port, rest)

/-- The host in front of an optional port. -/
def readAuthorityHost (kind : Kind) (cs : List Char) : Except Fault (Option Host) := do
  if kind.isSpecial then
    if cs.isEmpty then throw .emptyHost
    return some (← readHost idna cs)
  else
    match ← readPlainHost cs with
    | .domain [] => return none
    | host => return some host

/-- The authority in front of a text, and what follows it. -/
def readAuthority (kind : Kind) (scheme cs : List Char) :
    Except Fault (Authority × List Char) := do
  let span := cs.takeWhile (!endsAuthority kind ·)
  let after := cs.dropWhile (!endsAuthority kind ·)
  let ((username, password), place) ← match splitLastAt span with
    | none => pure (([], none), span)
    | some ([], place) =>
      if place.isEmpty ∧ !after.isEmpty then throw .emptyHost else pure (([], none), place)
    | some (info, place) => pure (readUserinfo info, place)
  let (hostText, portText) := spanHost false place
  let host ← readAuthorityHost idna kind hostText
  let (port, rest) ← match portText with
    | [] => pure (none, [])
    | _ :: digits => if host.isNone then throw .emptyHost else readPort scheme digits
  if host.isNone ∧ (!username.isEmpty ∨ password.isSome) then throw .emptyHost
  return ({ username, password, host, port }, rest ++ after)

/-- The host of a file URL in front of a text, and what follows it. A drive letter is no host, and
the local host is not written. -/
def readFileHost (cs : List Char) : Except Fault (Option Host × List Char) := do
  let hostText := cs.takeWhile (!endsAuthority .file ·)
  let rest := cs.dropWhile (!endsAuthority .file ·)
  if isDriveLike hostText then return (none, cs)
  if hostText.isEmpty then return (none, rest)
  let host ← readHost idna hostText
  return (if host = .domain "localhost".toList then none else some host, rest)

/-- A text up to the first of some marks, and what follows from the mark on. -/
def upTo (marks : List Char) (cs : List Char) : List Char × List Char :=
  (cs.takeWhile (!marks.contains ·), cs.dropWhile (!marks.contains ·))

/-- Query and fragment from the mark in front of them on. -/
def readEnding (kind : Kind) (cs : List Char) : Option (List Char) × Option (List Char) :=
  let (query, rest) := match cs with
    | '?' :: rest =>
      let (query, rest) := upTo ['#'] rest
      let set := if kind.isSpecial then specialQuerySet else querySet
      (some (percentEncode set query), rest)
    | _ => (none, cs)
  match rest with
  | '#' :: fragment => (query, some (percentEncode fragmentSet fragment))
  | _ => (query, none)

/-- A URL from its scheme, its authority, its path, and the text from the query on. -/
def assemble (scheme : List Char) (authority : Option Authority) (path : Path)
    (ending : List Char) : Url :=
  let (query, fragment) := readEnding (kindOf scheme) ending
  { scheme, authority, path, query, fragment }

/-- What follows the two slashes in front of an authority. -/
def readPlace (scheme cs : List Char) : Except Fault Url := do
  let kind := kindOf scheme
  let (authority, rest) ← readAuthority idna kind scheme cs
  let (path, ending) := upTo ['?', '#'] rest
  return assemble scheme (some authority) (.segments (readSegments kind path)) ending

def readNetwork (scheme cs : List Char) : Except Fault Url :=
  readPlace idna scheme (cs.dropWhile fun c => c = '/' || c = '\\')

def readFile (scheme cs : List Char) : Except Fault Url := do
  let slash := fun c : Char => c = '/' || c = '\\'
  let (host, rest) ←
    if (cs.head?.any slash) && (cs.tail.head?.any slash) then readFileHost idna (cs.drop 2)
    else pure (none, cs)
  let (path, ending) := upTo ['?', '#'] rest
  let walked := readFilePath path
  let host := if walked.drive then none else host
  return assemble scheme (some { host }) (.segments walked.segments) ending

def readGeneral (scheme : List Char) : List Char → Except Fault Url
  | '/' :: '/' :: cs => readPlace idna scheme cs
  | cs =>
    let (path, ending) := upTo ['?', '#'] cs
    match path with
    | '/' :: _ =>
      .ok (assemble scheme none (.segments (readSegments .general path)) ending)
    | _ => .ok (assemble scheme none (.bare (percentEncode controlSet path)) ending)

def parseChars (cs : List Char) : Except Fault Url :=
  match readScheme (cleaned cs) with
  | none => .error .noScheme
  | some (scheme, rest) =>
    match kindOf scheme with
    | .network => readNetwork idna scheme rest
    | .file => readFile idna scheme rest
    | .general => readGeneral idna scheme rest

end JobBoard.Url
