import JobBoard.Dashboard.View
import JobBoard.Terminal.Instruction

/-!
# Pictures

What stands on the terminal: a title, the counters, a table for every section, the toasts that are
visible, the last notice and the verbs. A picture is a list of lines, a line a list of spans, each
in one tone. Tones become colours only when the terminal understands escape sequences, and the text
is the same either way.
-/
namespace JobBoard.Terminal

/-- A text in one tone. -/
structure Span where
  text : String
  tone : Tone := .neutral
  deriving DecidableEq

abbrev Line := List Span

def plainLine (text : String) : Line :=
  [{ text }]

def colour? : Tone → Option String
  | .neutral => none
  | .active => some "34"
  | .success => some "32"
  | .danger => some "31"

/-- An escape sequence of the terminal. -/
def escapeSequence (parameter : String) (action : Char) : String :=
  "\x1b[" ++ parameter ++ String.singleton action

def Span.write (ansi : Bool) (s : Span) : String :=
  match colour? s.tone with
  | some colour =>
    if ansi then escapeSequence colour 'm' ++ s.text ++ escapeSequence "0" 'm' else s.text
  | none => s.text

def writeLine (ansi : Bool) (line : Line) : String :=
  String.join (line.map (Span.write ansi)) ++ "\n"

/-- Empties the screen and goes to its top. -/
def clearScreen : String :=
  escapeSequence "2" 'J' ++ escapeSequence "" 'H'

def writeLines (ansi : Bool) (lines : List Line) : String :=
  (if ansi then clearScreen else "") ++ String.join (lines.map (writeLine ansi))

/-- A text filled up with spaces on the right. -/
def pad (width : Nat) (s : String) : String :=
  s ++ String.ofList (List.replicate (width - s.length) ' ')

/-- An enabled button stands in brackets, a disabled one in parentheses. -/
def buttonSpan (b : Button) : Span :=
  { text := if b.enabled then "[" ++ b.label ++ "]" else "(" ++ b.label ++ ")"
    tone := b.tone }

def rowName : RowView → String
  | .project name _ _ _ => orDash name
  | .placeholder job => job.name

def rowStatus : RowView → String
  | .project _ _ label _ => label
  | .placeholder job => job.ns

def rowButton : RowView → Span
  | .project _ _ _ trigger => buttonSpan trigger
  | .placeholder _ => { text := emptyCell ++ " " ++ emptyCell }

def minNameWidth : Nat := 24

def statusWidth : Nat := 12

/-- The width of the first column: that of the longest name. -/
def nameWidth (rows : List RowView) : Nat :=
  (rows.map fun row => (rowName row).length).foldl max minNameWidth

def rowLine (width : Nat) (row : RowView) : Line :=
  [{ text := "  " ++ pad width (rowName row) ++ " " ++ pad statusWidth (rowStatus row) ++ " " },
    rowButton row]

def sectionLines (s : SectionView) : List Line :=
  [{ text := s.caption ++ "  " }, buttonSpan s.discovery] ::
    s.rows.map (rowLine (nameWidth s.rows))

def healthLabel : Health → String
  | .unknown => "unknown"
  | .healthy => "healthy"
  | .unhealthy => "unhealthy"

def statsText (s : Stats) : String :=
  "Scheduled " ++ toString s.scheduled ++ " | Running " ++ toString s.running
    ++ " | Completed " ++ toString s.completed ++ " | Failed " ++ toString s.failed
    ++ " | Total " ++ toString s.total

def toastTag : ToastKind → String
  | .success => "ok"
  | .error => "error"
  | .info => "info"

def toastTone : ToastKind → Tone
  | .success => .success
  | .error => .danger
  | .info => .neutral

def toastLine (t : Toast) : Line :=
  let head := "[" ++ toastTag t.kind ++ "] " ++ t.title
  [{ text := if t.message.isEmpty then head else head ++ ": " ++ t.message
     tone := toastTone t.kind }]

/-- What a terminal is to show: a view, and the output of the last instruction. -/
structure Picture where
  view : View
  notice : Option String := none
  deriving DecidableEq

namespace Picture

def titleText (p : Picture) (updated : String) : String :=
  "Renovate Jobs Dashboard | backend: " ++ healthLabel p.view.health ++ " | poll #"
    ++ toString p.view.pollCount ++ " | updated " ++ updated

def errorLines (p : Picture) : List Line :=
  p.view.lastError.toList.map fun error => [{ text := "Error: " ++ error, tone := .danger }]

/-- Sections with an empty line before each, or that there are none. -/
def tableLines (p : Picture) : List Line :=
  if p.view.sections.isEmpty then [plainLine "", plainLine "No renovate jobs."]
  else p.view.sections.flatMap fun s => plainLine "" :: sectionLines s

def toastLines (p : Picture) : List Line :=
  let visible := p.view.toasts.filter Toast.visible
  if visible.isEmpty then [] else plainLine "" :: visible.map toastLine

def noticeLines (p : Picture) : List Line :=
  p.notice.toList.map fun notice => plainLine ("> " ++ notice)

/-- The lines of a picture; `updated` is the time in its title. -/
def lines (p : Picture) (updated : String) : List Line :=
  [plainLine (p.titleText updated), plainLine (statsText p.view.stats)] ++ p.errorLines
    ++ p.tableLines ++ p.toastLines ++ [plainLine ""] ++ p.noticeLines ++ [plainLine usageLine]

/-- The picture as it is written to the terminal. -/
def text (p : Picture) (updated : String) (ansi : Bool) : String :=
  writeLines ansi (p.lines updated)

end Picture

end JobBoard.Terminal
