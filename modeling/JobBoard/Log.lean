/-!
# The log

An entry has a level and a text. When it is written, the number of the poll cycle it belongs to
goes in front, so that a log can be read one cycle at a time.
-/
namespace JobBoard.Log

inductive Level where
  | trace
  | debug
  | info
  | warn
  | error
  deriving DecidableEq

def Level.label : Level → String
  | .trace => "TRACE"
  | .debug => "DEBUG"
  | .info => "INFO"
  | .warn => "WARN"
  | .error => "ERROR"

structure Entry where
  level : Level
  text : String
  deriving DecidableEq

/-- An entry and the poll cycle that it belongs to. -/
structure Line where
  cycle : Nat
  entry : Entry
  deriving DecidableEq

def Line.text (l : Line) : String :=
  l.entry.level.label ++ " [cycle " ++ toString l.cycle ++ "] " ++ l.entry.text

def lines (cycle : Nat) (log : List Entry) : List Line :=
  log.map (Line.mk cycle)

/-- Whether entries of a level are written to the log of the program. -/
def Level.isKept : Level → Bool
  | .trace => false
  | .debug => false
  | _ => true

end JobBoard.Log
