import JobBoard.Action
import JobBoard.Board
import JobBoard.Duration

/-!
# Messages and effects

A message tells the dashboard that something happened; an effect is work that it asks for.
-/
namespace JobBoard

inductive Message where
  /-- The poll interval passed, or a poll was asked for. -/
  | pollRequested
  /-- The listing arrived, or a readable reason why it did not. -/
  | jobsFetched (result : Except String (List Job))
  /-- The answer to a discovery request. -/
  | discoveryStatusFetched (key : JobKey) (seq : Nat) (running : Bool)
  | healthChecked (healthy : Bool)
  | discoveryClicked (key : JobKey)
  | discoveryStartFinished (key : JobKey) (outcome : Outcome)
  | triggerClicked (key : JobKey) (project : String)
  | triggerFinished (key : JobKey) (project : String) (outcome : Outcome)
  | actionResetElapsed (target : Target) (generation : Nat)
  | toastHideElapsed (id : Nat)
  | toastRemovalElapsed (id : Nat)

inductive Alarm where
  /-- One poll more, apart from the regular ones. -/
  | poll
  | actionReset (target : Target) (generation : Nat)
  | toastHide (id : Nat)
  | toastRemoval (id : Nat)
  deriving DecidableEq

def Alarm.message : Alarm → Message
  | .poll => .pollRequested
  | .actionReset target generation => .actionResetElapsed target generation
  | .toastHide id => .toastHideElapsed id
  | .toastRemoval id => .toastRemovalElapsed id

inductive Effect where
  | fetchJobs
  | fetchDiscoveryStatus (key : JobKey) (seq : Nat)
  | checkHealth
  | startDiscovery (key : JobKey)
  | triggerRenovate (key : JobKey) (project : String)
  | schedule (alarm : Alarm) (after : Duration)
  deriving DecidableEq

end JobBoard
