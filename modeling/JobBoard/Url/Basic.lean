import JobBoard.Url.Host

/-!
# URLs

The parts of a URL, each as it stands in the text. A hierarchical path is a list of segments, with
a slash in front of each; a bare path is a text without structure, and nothing lies below it.
-/
namespace JobBoard

namespace Url

abbrev Segment := List Char

inductive Path where
  | bare (text : List Char)
  | segments (list : List Segment)
  deriving DecidableEq

/-- Who is asked, and where. -/
structure Authority where
  username : List Char := []
  password : Option (List Char) := none
  host : Option Host := none
  port : Option Nat := none
  deriving DecidableEq

/-- Kinds of schemes, which differ in how the text after the colon is read. -/
inductive Kind where
  /-- Schemes that always have a host. -/
  | network
  | file
  | general
  deriving DecidableEq

/-- Whether a backslash counts as a slash. -/
def Kind.isSpecial (k : Kind) : Bool :=
  k ≠ .general

/-- The network schemes and their usual ports. -/
def usualPorts : List (List Char × Nat) :=
  [("http".toList, 80), ("https".toList, 443), ("ws".toList, 80), ("wss".toList, 443),
    ("ftp".toList, 21)]

def usualPort? (scheme : List Char) : Option Nat :=
  usualPorts.lookup scheme

def kindOf (scheme : List Char) : Kind :=
  if scheme = "file".toList then .file
  else if (usualPort? scheme).isSome then .network
  else .general

/-- A letter and a colon. -/
def isDrive : Segment → Bool
  | [letter, ':'] => letter.isAlpha
  | _ => false

end Url

structure Url where
  scheme : List Char
  authority : Option Url.Authority
  path : Url.Path
  query : Option (List Char)
  fragment : Option (List Char)
  deriving DecidableEq

namespace Url

def Authority.userinfo (a : Authority) : List Char :=
  let password := match a.password with
    | some password => ':' :: password
    | none => []
  if a.username.isEmpty ∧ a.password.isNone then [] else a.username ++ password ++ ['@']

def Authority.text (a : Authority) : List Char :=
  let host := match a.host with
    | some host => host.text
    | none => []
  let port := match a.port with
    | some port => ':' :: Nat.toDigits 10 port
    | none => []
  "//".toList ++ a.userinfo ++ host ++ port

def segmentsText (list : List Segment) : List Char :=
  list.flatMap ('/' :: ·)

def Path.text : Path → List Char
  | .bare text => text
  | .segments list => segmentsText list

/-- Keeps a path that starts with two slashes from being read as an authority. -/
def pathGuard : Option Authority → Path → List Char
  | none, .segments ([] :: _ :: _) => "/.".toList
  | _, _ => []

/-- The text after a mark, or nothing. -/
def marked (mark : Char) : Option (List Char) → List Char
  | some text => mark :: text
  | none => []

def chars (u : Url) : List Char :=
  let authority := match u.authority with
    | some a => a.text
    | none => []
  u.scheme ++ ':' :: authority ++ pathGuard u.authority u.path ++ u.path.text
    ++ marked '?' u.query ++ marked '#' u.fragment

def text (u : Url) : String :=
  String.ofList u.chars

/-- The segments of a place in a directory: the last segment of the directory's path gives way to
the place. A drive letter at the end of a file path is never dropped. -/
def placeIn (kind : Kind) (directory place : List Segment) : List Segment :=
  match directory.getLast?, place with
  | some last, first :: rest =>
    if kind = .file ∧ isDrive last then
      if directory.length = 1 then directory ++ place
      else directory.dropLast ++ (last ++ first) :: rest
    else directory.dropLast ++ place
  | _, _ => directory.dropLast ++ place

/-- The URL of a place below this one, without query and fragment. A URL with a bare path has
nothing below it. -/
def below (u : Url) (place : List Segment) : Url :=
  match u.path with
  | .bare _ => u
  | .segments directory =>
    { u with
      path := .segments (placeIn (kindOf u.scheme) directory place)
      query := none
      fragment := none }

/-- Whether an encoded text stands for characters. -/
def decodes (text : List Char) : Bool :=
  (Text.Utf8.decode (percentDecode (Text.Utf8.encode text))).toOption.isSome

/-- Whether user name and password can be taken as credentials. -/
def Authority.hasCredentials (a : Authority) : Bool :=
  decodes a.username && (!a.username.isEmpty || a.password.any decodes)

/-- The URL without its credentials. -/
def withoutCredentials (u : Url) : Url :=
  { u with
    authority := u.authority.map fun a =>
      if a.hasCredentials then { a with username := [], password := none } else a }

/-- The URL with a query of named texts. -/
def withQuery (u : Url) (pairs : List (String × String)) : Url :=
  if pairs.isEmpty then u else { u with query := some (formQuery pairs) }

end Url

end JobBoard
