import JobBoard.Dashboard.State
import JobBoard.Text.Blank
import JobBoard.Text.Hex
import JobBoard.Text.Quoted

/-!
# Settings

Settings are read from the variables of the environment. A variable that is not set or blank leaves
its default; blanks around a value do not count. Of several variables that cannot be read the first
one is reported.
-/
namespace JobBoard

/-- Where the log is written. -/
inductive LogDestination where
  | file
  /-- The error output of the terminal. -/
  | terminal
  | both
  deriving DecidableEq

namespace LogDestination

/-- The destination that a text names, up to blanks around it and ASCII case. -/
def parse (raw : String) : Option LogDestination :=
  match Text.asciiLower (Text.trim raw) with
  | "file" => some .file
  | "terminal" => some .terminal
  | "both" => some .both
  | _ => none

def usesFile (d : LogDestination) : Bool :=
  d ≠ .terminal

def usesTerminal (d : LogDestination) : Bool :=
  d ≠ .file

end LogDestination

structure Settings where
  baseUrl : String := "http://localhost:8081"
  poll : Duration := .ofSeconds 30
  connectTimeout : Duration := .ofSeconds 10
  log : LogDestination := .file
  deriving DecidableEq

namespace Settings

inductive Fault where
  | seconds (variableName value : String)
  | destination (variableName value : String)
  deriving DecidableEq

def Fault.message : Fault → String
  | .seconds name value =>
    name ++ " must be a positive number of seconds, got " ++ Text.quoted value
  | .destination name value =>
    name ++ " must be one of file, terminal, both; got " ++ Text.quoted value

/-- The names of the variables. -/
def baseUrlVariable : String := "DASHBOARD_BASE_URL"

def pollVariable : String := "DASHBOARD_POLL_INTERVAL_SECS"

def connectTimeoutVariable : String := "DASHBOARD_CONNECT_TIMEOUT_SECS"

def logVariable : String := "DASHBOARD_LOG"

def unsigned : List Char → List Char
  | '+' :: digits => digits
  | digits => digits

/-- The positive number of 64 bits that a text spells. -/
def positive? (s : String) : Option Nat :=
  let digits := unsigned s.toList
  if digits.isEmpty then none
  else (Text.digitsValue 10 digits).filter fun n => 0 < n && n < Nat.pow 2 64

/-- The trimmed value of a variable, unless it is blank. -/
def value? (environment : String → Option String) (name : String) : Option String :=
  ((environment name).map Text.trim).filter (!·.isEmpty)

/-- The seconds in a variable, or the default. -/
def readSeconds (environment : String → Option String) (name : String) (default : Duration) :
    Except Fault Duration :=
  match value? environment name with
  | none => .ok default
  | some value =>
    match positive? value with
    | some n => .ok (.ofSeconds n)
    | none => .error (.seconds name value)

def readDestination (environment : String → Option String) (name : String)
    (default : LogDestination) : Except Fault LogDestination :=
  match value? environment name with
  | none => .ok default
  | some value =>
    match LogDestination.parse value with
    | some destination => .ok destination
    | none => .error (.destination name value)

def read (environment : String → Option String) : Except Fault Settings := do
  let defaults : Settings := {}
  let poll ← readSeconds environment pollVariable defaults.poll
  let connectTimeout ← readSeconds environment connectTimeoutVariable defaults.connectTimeout
  let log ← readDestination environment logVariable defaults.log
  let baseUrl := (value? environment baseUrlVariable).getD defaults.baseUrl
  return { baseUrl, poll, connectTimeout, log }

/-- How long questions wait for their answers. -/
def readTimeout : Duration := .ofSeconds 20

def timings (s : Settings) : Timings :=
  { poll := s.poll }

end Settings

end JobBoard
