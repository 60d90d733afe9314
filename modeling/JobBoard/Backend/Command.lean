import JobBoard.Backend.Failure
import JobBoard.Backend.Record
import JobBoard.Duration
import JobBoard.Text.Quoted

/-!
# Commands and events

A command is work for the engine: a request to the backend, or a timer. The engine answers each
with one event, which names what the command was about.
-/
namespace JobBoard.Backend

inductive Command where
  | fetchJobs
  | fetchDiscoveryStatus (job : JobKey) (seq : Nat)
  | checkHealth
  | startDiscovery (job : JobKey)
  | triggerRenovate (job : JobKey) (project : String)
  /-- Fires the timer of a token after a delay. -/
  | schedule (token : Nat) (delay : Duration)
  deriving DecidableEq

/-- How the backend took a request for an action. -/
inductive Response where
  | accepted
  /-- It declined, with whatever it explained. -/
  | rejected (status : Nat) (message : String)
  /-- No status came. -/
  | transport (message : String)
  deriving DecidableEq

inductive Event where
  | jobsFetched (result : Except Failure (List JobRecord))
  | discoveryStatus (job : JobKey) (seq : Nat) (running : Bool)
  | health (healthy : Bool)
  | discoveryStarted (job : JobKey) (response : Response)
  | renovateTriggered (job : JobKey) (project : String) (response : Response)
  | timerFired (token : Nat)

/-- A token as it stands in log texts. -/
def tokenText (token : Nat) : String :=
  "TimerToken(" ++ toString token ++ ")"

/-- A name and its fields in braces, as they stand in log texts. -/
def fieldsText (name : String) (fields : List (String × String)) : String :=
  name ++ " \x7b " ++ String.intercalate ", " (fields.map fun f => f.1 ++ ": " ++ f.2) ++ " \x7d"

def jobText (job : JobKey) : String :=
  fieldsText "JobRef" [("name", Text.quoted job.name), ("namespace", Text.quoted job.ns)]

def Command.text : Command → String
  | .fetchJobs => "FetchJobs"
  | .fetchDiscoveryStatus job seq =>
    fieldsText "FetchDiscoveryStatus" [("job", jobText job), ("seq", toString seq)]
  | .checkHealth => "CheckHealth"
  | .startDiscovery job => fieldsText "StartDiscovery" [("job", jobText job)]
  | .triggerRenovate job project =>
    fieldsText "TriggerRenovate" [("job", jobText job), ("project", Text.quoted project)]
  | .schedule token delay =>
    fieldsText "Schedule" [("token", tokenText token), ("delay", delay.text)]

end JobBoard.Backend
