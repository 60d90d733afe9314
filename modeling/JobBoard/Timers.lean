import JobBoard.Backend.Command
import JobBoard.Dashboard.Message
import JobBoard.Log

/-!
# Timers, commands for effects, messages for events

The dashboard speaks of effects and messages, the engine of commands and events. An effect becomes
one command; an event becomes a message. A timer is set under a token of its own, the alarm waits
here until the engine reports the token, and then it is gone.
-/
namespace JobBoard

open Backend (Command Event Response)

structure Timers where
  /-- The alarms that wait, by their tokens. -/
  pending : List (Nat × Alarm) := []
  /-- The last token. -/
  issued : Nat := 0
  deriving DecidableEq

def Backend.Response.outcome : Response → Outcome
  | .accepted => .accepted
  | .rejected _ message => .rejected message
  | .transport message => .transport message

def Backend.Response.log : Response → List Log.Entry
  | .rejected status _ => [⟨.debug, "Action rejected with status " ++ toString status⟩]
  | _ => []

namespace Timers

def alarm? (t : Timers) (token : Nat) : Option Alarm :=
  t.pending.lookup token

/-- Sets a timer; also gives the command for it. -/
def schedule (t : Timers) (alarm : Alarm) (after : Duration) : Timers × Command :=
  let token := t.issued + 1
  ({ pending := t.pending ++ [(token, alarm)], issued := token }, .schedule token after)

/-- Takes the alarm of a token; refused if none waits. -/
def fire? (t : Timers) (token : Nat) : Option (Timers × Alarm) :=
  (t.alarm? token).map fun alarm =>
    ({ t with pending := t.pending.filter (·.1 ≠ token) }, alarm)

def command (t : Timers) : Effect → Timers × Command
  | .fetchJobs => (t, .fetchJobs)
  | .fetchDiscoveryStatus key seq => (t, .fetchDiscoveryStatus key seq)
  | .checkHealth => (t, .checkHealth)
  | .startDiscovery key => (t, .startDiscovery key)
  | .triggerRenovate key project => (t, .triggerRenovate key project)
  | .schedule alarm after => t.schedule alarm after

structure Incoming where
  timers : Timers
  message : Option Message
  log : List Log.Entry := []

/-- The message for an event. Only the report of a token that no alarm waits for has none. -/
def message (t : Timers) : Event → Incoming
  | .jobsFetched result =>
    { timers := t
      message := some (.jobsFetched
        ((result.map fun jobs => jobs.map Backend.JobRecord.job).mapError Backend.Failure.text)) }
  | .discoveryStatus job seq running =>
    { timers := t, message := some (.discoveryStatusFetched job seq running) }
  | .health healthy => { timers := t, message := some (.healthChecked healthy) }
  | .discoveryStarted job response =>
    { timers := t
      message := some (.discoveryStartFinished job response.outcome)
      log := response.log }
  | .renovateTriggered job project response =>
    { timers := t
      message := some (.triggerFinished job project response.outcome)
      log := response.log }
  | .timerFired token =>
    match t.fire? token with
    | some (rest, alarm) => { timers := rest, message := some alarm.message }
    | none =>
      { timers := t
        message := none
        log := [⟨.warn, "Timer " ++ Backend.tokenText token
          ++ " fired with no pending message"⟩] }

/-- The commands for effects in order, each with the number of alarms that wait behind it. -/
def commands : Timers → List Effect → Timers × List (Command × Nat)
  | t, [] => (t, [])
  | t, effect :: effects =>
    let (t, cmd) := t.command effect
    let (final, cmds) := t.commands effects
    (final, (cmd, t.pending.length) :: cmds)

end Timers

end JobBoard
