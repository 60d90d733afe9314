import JobBoard.Dashboard.State

/-!
# The view

What the screen shows of a state: sections with their rows and buttons, counters, toasts, the last
error, and the health of the backend.
-/
namespace JobBoard

inductive Tone where
  | neutral
  /-- Work that the backend reports. -/
  | active
  | success
  | danger
  deriving DecidableEq

structure Button where
  label : String
  enabled : Bool
  tone : Tone
  deriving DecidableEq

def discoveryButton : Phase → Discovery → Button
  | .busy, _ => ⟨"Running...", false, .neutral⟩
  | .settled .succeeded, _ => ⟨"Discovery Started!", false, .success⟩
  | .settled .failed, _ => ⟨"Failed", false, .danger⟩
  | .settled .errored, _ => ⟨"Error", false, .danger⟩
  | .idle, .running => ⟨"Discovery Running...", false, .active⟩
  | .idle, _ => ⟨"Run Discovery", true, .neutral⟩

def triggerButton : Phase → Button
  | .idle => ⟨"Trigger", true, .neutral⟩
  | .busy => ⟨"Triggering...", false, .neutral⟩
  | .settled .succeeded => ⟨"Triggered!", false, .success⟩
  | .settled .failed => ⟨"Failed", false, .danger⟩
  | .settled .errored => ⟨"Error", false, .danger⟩

/-- Stands in a cell that would be blank. -/
def emptyCell : String := "-"

/-- A text, or a dash in place of a blank one. -/
def orDash (s : String) : String :=
  if Text.blank s then emptyCell else s

inductive RowView where
  | project (name : String) (status : ProjectStatus) (statusLabel : String) (trigger : Button)
  | placeholder (job : JobKey)
  deriving DecidableEq

structure SectionView where
  key : JobKey
  caption : String
  discovery : Button
  rows : List RowView
  deriving DecidableEq

structure View where
  sections : List SectionView := []
  stats : Stats := {}
  toasts : List Toast := []
  lastError : Option String := none
  health : Health := .unknown
  pollCount : Nat := 0
  deriving DecidableEq

namespace Dashboard

def rowView (d : Dashboard) (key : JobKey) : Row → RowView
  | .project name status =>
    .project name status (orDash status.text) (triggerButton (d.phase (.renovate key name)))
  | .placeholder job => .placeholder job

def sectionView (d : Dashboard) (s : Section) : SectionView where
  key := s.key
  caption := s.caption
  discovery := discoveryButton (d.phase (.discovery s.key)) s.discovery
  rows := s.rows.map (d.rowView s.key)

def view (d : Dashboard) : View where
  sections := d.board.sections.map d.sectionView
  stats := d.stats
  toasts := d.queue.toasts
  lastError := d.lastError
  health := d.health
  pollCount := d.pollCount

end Dashboard

end JobBoard
