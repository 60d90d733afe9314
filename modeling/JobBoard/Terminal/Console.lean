import JobBoard.Backend.BaseUrl
import JobBoard.Dashboard.Update
import JobBoard.Terminal.Picture
import JobBoard.Text.Cut
import JobBoard.Text.Utf8
import JobBoard.Timers

/-!
# The console

The loop between the user, the dashboard and the engine: one input at a time, from the lines that
are typed, from the engine, or from the poll interval. An input that changes something visible
draws a new picture; effects are submitted to the engine as commands.
-/
namespace JobBoard.Terminal

open Backend (BaseUrl Command Event)

inductive Input where
  | event (event : Event)
  | message (message : Message)
  | instruction (instruction : Instruction)
  /-- A text to show under the dashboard. -/
  | notice (text : String)
  | quit

/-- The lines in a sequence of bytes. A line ends with a line feed, and a carriage return before it
does not count; the last line may lack both. -/
def lineBytes (bytes : Bytes) : List Bytes :=
  let parts := Text.cut (· = 0x0A) bytes
  let ended := parts.dropLast.map fun line =>
    if line.getLast? = some 0x0D then line.dropLast else line
  match parts.getLast? with
  | some (b :: rest) => ended ++ [b :: rest]
  | _ => ended

/-- The texts of lines up to the first that is not well-formed. -/
def readableLines : List Bytes → List String
  | [] => []
  | line :: lines =>
    match Text.Utf8.decode line with
    | .ok cs => String.ofList cs :: readableLines lines
    | .error _ => []

/-- The input that a line gives; blank lines give none. -/
def Input.ofLine (line : String) : Option Input :=
  match Instruction.parse line with
  | .ok .quit => some .quit
  | .ok typed => some (.instruction typed)
  | .error .empty => none
  | .error fault => some (.notice fault.message)

/-- The inputs in what was typed. -/
def Input.ofBytes (bytes : Bytes) : List Input :=
  (readableLines (lineBytes bytes)).filterMap Input.ofLine

structure Console where
  dashboard : Dashboard
  timers : Timers := {}
  /-- Only for links to logs. -/
  base : BaseUrl
  notice : Option String := none

structure Handled where
  console : Console
  /-- Whether a new picture is drawn. -/
  redraw : Bool
  commands : List Command := []
  log : List Log.Entry := []

/-- The entry for a command and the number of alarms that wait. -/
def submittedEntry (cmd : Command) (waiting : Nat) : Log.Entry :=
  ⟨.debug, "Submitting " ++ cmd.text ++ " (" ++ toString waiting ++ " timers pending)"⟩

def shutdownEntry : Log.Entry :=
  ⟨.info, "Dashboard shutting down"⟩

namespace Console

def start (timings : Timings) (base : BaseUrl) : Console where
  dashboard := .start timings
  base := base

def picture (c : Console) : Picture where
  view := c.dashboard.view
  notice := c.notice

/-- The number of the poll cycle that log entries belong to. -/
def cycle (c : Console) : Nat :=
  c.dashboard.pollCount

/-- Updates the dashboard by a message and submits the effects. -/
def dispatch (c : Console) (m : Message) : Handled :=
  let step := c.dashboard.update m
  let (dashboard, dirty) := step.state.consumeDirty
  let (timers, submitted) := c.timers.commands step.effects
  { console := { c with dashboard, timers }
    redraw := dirty
    commands := submitted.map Prod.fst
    log := step.log ++ submitted.map fun s => submittedEntry s.1 s.2 }

def showNotice (c : Console) (text : String) : Handled where
  console := { c with notice := some text }
  redraw := true

def carryOut (c : Console) : Instruction → Handled
  | .refresh => c.dispatch .pollRequested
  | .discover job => c.dispatch (.discoveryClicked job)
  | .trigger job project => c.dispatch (.triggerClicked job project)
  | .logs job project => c.showNotice (c.base.logs job project).text
  | .help => c.showNotice usageLine
  | .quit => { console := c, redraw := false }

/-- Turns an event into its message and dispatches that, if there is one. -/
def receive (c : Console) (event : Event) : Handled :=
  let incoming := c.timers.message event
  let c := { c with timers := incoming.timers }
  match incoming.message with
  | none => { console := c, redraw := false, log := incoming.log }
  | some m =>
    let handled := c.dispatch m
    { handled with log := incoming.log ++ handled.log }

/-- Handles an input; nothing comes of the wish to quit, which ends the loop. -/
def handle (c : Console) : Input → Handled
  | .event event => c.receive event
  | .message m => c.dispatch m
  | .instruction instruction => c.carryOut instruction
  | .notice text => c.showNotice text
  | .quit => { console := c, redraw := false }

structure Run where
  console : Console
  pictures : List Picture := []
  commands : List Command := []
  log : List Log.Line := []
  /-- Whether the run was ended by the wish to quit. -/
  ended : Bool := false

/-- Handles inputs in order, up to the wish to quit. -/
def run (c : Console) : List Input → Run
  | [] => { console := c }
  | .quit :: _ => { console := c, ended := true }
  | input :: inputs =>
    let handled := c.handle input
    let after := handled.console.run inputs
    { after with
      pictures := (if handled.redraw then [handled.console.picture] else []) ++ after.pictures
      commands := handled.commands ++ after.commands
      log := Log.lines handled.console.cycle handled.log ++ after.log }

/-- The last line of the log. -/
def farewell (c : Console) : Log.Line :=
  ⟨c.cycle, shutdownEntry⟩

end Console

end JobBoard.Terminal
