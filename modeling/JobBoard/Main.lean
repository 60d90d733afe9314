import JobBoard.Backend.Exchange
import JobBoard.Terminal.DateTime
import JobBoard.Terminal.Launch
import Std.Time.Format

/-!
# The program

The dashboard on a terminal: settings from the environment, instructions from standard input,
pictures on standard output, the log where the settings want it. The program has no transport and no
mapping of international domain names of its own, so every request ends as if the backend were
unreachable, and a base URL with such a name is refused.
-/
namespace JobBoard.Main

open Terminal

/-- The moment that a picture is drawn. -/
def now : IO String := do
  let t ← Std.Time.PlainDateTime.now
  let moment : DateTime :=
    ⟨t.year.toInt, t.month.val.toNat, t.day.val.toNat, t.hour.val.toNat, t.minute.val.toNat,
      t.second.val.toNat⟩
  return moment.text

/-- Where the program writes. -/
structure Output where
  ansi : Bool
  file : Option IO.FS.Handle
  onTerminal : Bool

def Output.log (o : Output) (line : Log.Line) : IO Unit := do
  if line.entry.level.isKept then
    if o.onTerminal then IO.eprintln line.text
    if let some handle := o.file then
      handle.putStrLn line.text
      handle.flush

def Output.draw (o : Output) (p : Picture) : IO Unit := do
  let out ← IO.getStdout
  out.putStr (p.text (← now) o.ansi)
  out.flush

/-- The log file, unless it cannot be created. -/
def createLogFile : IO (Option IO.FS.Handle) := do
  try
    return some (← IO.FS.Handle.mk "./dashboard.log" .write)
  catch err =>
    IO.eprintln ("Warning: Could not create log file: " ++ toString err)
    return none

def Output.create (destination : Option LogDestination) : IO Output := do
  let file ← if destination.any LogDestination.usesFile then createLogFile else pure none
  return {
    ansi := ← (← IO.getStdout).isTty
    file
    onTerminal := destination.any LogDestination.usesTerminal }

/-- What the loop waits for. -/
inductive Source where
  | keyboard
  | interval
  | engine
  deriving DecidableEq

/-- Something that came in, under the number of the task that brought it. -/
structure Arrival where
  task : Nat
  source : Source
  inputs : List Input
  /-- Whether the source may bring more. -/
  more : Bool

/-- Waits in short naps, so that a task that is cancelled ends soon. -/
partial def pause (millis : Nat) : BaseIO Unit := do
  if millis > 0 && !(← IO.checkCanceled) then
    let nap := min millis 50
    IO.sleep nap.toUInt32
    pause (millis - nap)

def readLine : IO String := do
  (← IO.getStdin).getLine

/-- The next line of standard input; a line that cannot be read ends it. -/
def readKeyboard (task : Nat) : BaseIO Arrival := do
  match ← readLine.toBaseIO with
  | .ok line =>
    return ⟨task, .keyboard, Input.ofBytes (Text.Utf8.bytes line), !line.isEmpty⟩
  | .error _ => return ⟨task, .keyboard, [], false⟩

def awaitInterval (delay : Duration) (task : Nat) : BaseIO Arrival := do
  pause delay.millis
  return ⟨task, .interval, [.message .pollRequested], true⟩

def awaitEngine (engine : Backend.Engine) (cmd : Backend.Command) (task : Nat) :
    BaseIO Arrival := do
  if let .schedule _ delay := cmd then pause delay.millis
  return ⟨task, .engine, (engine.perform cmd .unreachable).2.toList.map .event, false⟩

/-- The tasks that the loop waits for. -/
structure Waiting where
  tasks : List (Nat × Task Arrival) := []
  issued : Nat := 0

def Waiting.spawn (w : Waiting) (act : Nat → BaseIO Arrival) : BaseIO Waiting := do
  let number := w.issued + 1
  let task ← BaseIO.asTask (act number) .dedicated
  return { tasks := (number, task) :: w.tasks, issued := number }

/-- Handles what comes in until the user quits. -/
partial def serve (o : Output) (engine : Backend.Engine) (poll : Duration) (c : Console)
    (w : Waiting) : IO Unit := do
  match w.tasks.map Prod.snd with
  | [] => return
  | first :: others =>
    let arrival ← IO.waitAny (first :: others)
    let w := { w with tasks := w.tasks.filter (·.1 ≠ arrival.task) }
    let run := c.run arrival.inputs
    run.log.forM o.log
    run.pictures.forM o.draw
    if run.ended then
      o.log run.console.farewell
      w.tasks.forM fun t => IO.cancel t.2
    else
      let w ← run.commands.foldlM (fun w cmd => w.spawn (awaitEngine engine cmd)) w
      let w ← match arrival.source, arrival.more with
        | .keyboard, true => w.spawn readKeyboard
        | .interval, _ => w.spawn (awaitInterval poll)
        | _, _ => pure w
      serve o engine poll run.console w

/-- The environment, as far as it has settings. -/
def environment : IO (String → Option String) := do
  let names := [Settings.baseUrlVariable, Settings.pollVariable,
    Settings.connectTimeoutVariable, Settings.logVariable]
  let values ← names.mapM fun name => return (name, ← IO.getEnv name)
  return fun name => (values.lookup name).join

/-- Starts the dashboard, or tells why not. -/
def run : IO UInt32 := do
  let launched := launch (← environment)
  let output ← Output.create launched.destination
  launched.log.forM output.log
  match launched.console with
  | .error fault =>
    IO.eprintln ("dashboard_app: " ++ fault.message)
    return 1
  | .ok console =>
    let engine : Backend.Engine := { client := ⟨console.base, some Settings.readTimeout⟩ }
    output.draw console.picture
    let waiting ← ({} : Waiting).spawn (awaitInterval (.mk 0))
    let waiting ← waiting.spawn readKeyboard
    serve output engine console.dashboard.timings.poll console waiting
    return 0

end JobBoard.Main

def main : IO UInt32 :=
  JobBoard.Main.run
