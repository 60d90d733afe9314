import JobBoard.Url.Basic

/-!
# Walking a path

A path text is cut at its slashes, and the pieces are walked in order: one dot stays, two dots go
up, any other piece goes down. A path that ends in dots ends in an empty segment. A file path may
start with a drive letter, which is a segment of its own and which no dots leave.
-/
namespace JobBoard.Url

def isDot (piece : List Char) : Bool :=
  [".", "%2e"].contains (String.ofList (piece.map Char.toLower))

def isDoubleDot (piece : List Char) : Bool :=
  ["..", ".%2e", "%2e.", "%2e%2e"].contains (String.ofList (piece.map Char.toLower))

/-- A letter and a colon or a bar. -/
def isDriveLike : List Char → Bool
  | [letter, mark] => letter.isAlpha && (mark == ':' || mark == '|')
  | _ => false

def up (path : List Segment) : List Segment :=
  if path.getLast?.any isDriveLike then path else path.dropLast

/-- The path after one piece more; `final` if the path text ends with it. -/
def go (final : Bool) (path : List Segment) (piece : List Char) : List Segment :=
  let ending := if final then [[]] else []
  if isDoubleDot piece then up path ++ ending
  else if isDot piece then path ++ ending
  else path ++ [percentEncode pathSet piece]

/-- Goes through the pieces, the last of which is final. -/
def walk {α : Type} (step : Bool → α → List Char → α) : α → List (List Char) → α
  | start, [] => start
  | start, [piece] => step true start piece
  | start, piece :: pieces => walk step (step false start piece) pieces

/-- A file path, and whether a drive letter stands in front of it. -/
structure FilePath where
  path : List Segment := []
  drive : Bool := false

/-- The file path after one piece more. -/
def FilePath.go (final : Bool) (p : FilePath) (piece : List Char) : FilePath :=
  match p.path, piece with
  | [], [letter, mark] =>
    if isDriveLike [letter, mark] then { path := [[letter, ':']], drive := true }
    else { p with path := Url.go final [] piece }
  | [], letter :: ':' :: rest =>
    if letter.isAlpha then { p with path := Url.go final [[letter, ':']] rest }
    else { p with path := Url.go final [] piece }
  | path, _ => { p with path := Url.go final path piece }

/-- A path without empty segments in front. -/
def FilePath.segments (p : FilePath) : List Segment :=
  match p.path.dropWhile (·.isEmpty) with
  | [] => [[]]
  | list => list

def pieces (kind : Kind) (text : List Char) : List (List Char) :=
  Text.cut (fun c => c = '/' || (kind.isSpecial && c = '\\')) text

/-- The path text without the slash in front. -/
def unslashed (kind : Kind) : List Char → List Char
  | c :: rest => if c = '/' || (kind.isSpecial && c = '\\') then rest else c :: rest
  | [] => []

/-- The segments of a path text. Only under general schemes a path may have none. -/
def readSegments (kind : Kind) (text : List Char) : List Segment :=
  if text.isEmpty ∧ kind = .general then []
  else walk go [] (pieces kind (unslashed kind text))

def readFilePath (text : List Char) : FilePath :=
  walk FilePath.go {} (pieces .file (unslashed .file text))

end JobBoard.Url
