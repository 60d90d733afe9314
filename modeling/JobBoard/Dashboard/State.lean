import JobBoard.Dashboard.Message
import JobBoard.Toast

/-!
# The state of the dashboard

Everything that is known between two messages, and the changes that messages make to it. A change
that can be seen marks the state dirty, so that the screen is drawn again.
-/
namespace JobBoard

structure Timings where
  poll : Duration := .ofSeconds 30
  /-- From a successful action to the extra poll. -/
  followUp : Duration := .mk 500
  /-- How long the result of an action is shown. -/
  actionReset : Duration := .mk 2000
  toastVisible : Duration := .mk 3000
  toastFade : Duration := .mk 300
  deriving DecidableEq

inductive Health where
  | unknown
  | healthy
  | unhealthy
  deriving DecidableEq

def Health.ofBool (healthy : Bool) : Health :=
  if healthy then .healthy else .unhealthy

structure Dashboard where
  timings : Timings := {}
  board : Board := {}
  slots : Slots := {}
  queue : ToastQueue := {}
  stats : Stats := {}
  /-- Why the last listing did not arrive; cleared by the next that does. -/
  lastError : Option String := none
  health : Health := .unknown
  pollCount : Nat := 0
  /-- Whether something visible changed since the screen was drawn. -/
  dirty : Bool := false
  deriving DecidableEq

namespace Dashboard

def start (timings : Timings) : Dashboard :=
  { timings }

def section? (d : Dashboard) (key : JobKey) : Option Section :=
  d.board.section? key

def phase (d : Dashboard) (t : Target) : Phase :=
  d.slots.phase t

/-- Tells whether the state is dirty and marks it clean. -/
def consumeDirty (d : Dashboard) : Dashboard × Bool :=
  ({ d with dirty := false }, d.dirty)

def applySnapshot (d : Dashboard) (jobs : List Job) : Dashboard × Report :=
  let (board, report) := d.board.reconcile jobs
  ({ d with board, stats := report.stats, lastError := none, dirty := true }, report)

def applyDiscovery (d : Dashboard) (key : JobKey) (seq : Nat) (running : Bool) :
    Except Board.Dropped Dashboard :=
  (d.board.answer key seq running).map fun (board, changed) =>
    { d with board, dirty := d.dirty || changed }

def setHealth (d : Dashboard) (healthy : Bool) : Dashboard :=
  { d with
    health := .ofBool healthy
    dirty := d.dirty || d.health != .ofBool healthy }

/-- Starts an action from idle only: a result that is still shown keeps the control disabled. -/
def beginAction? (d : Dashboard) (t : Target) : Option Dashboard :=
  if d.phase t = .idle then
    (d.slots.begin? t).map fun slots => { d with slots, dirty := true }
  else none

/-- Settles an action that is out; also gives the effect that resets it. -/
def settleAction? (d : Dashboard) (t : Target) (o : Outcome) : Option (Dashboard × Effect) :=
  (d.slots.settle? t o).map fun (slots, generation) =>
    ({ d with slots, dirty := true },
      .schedule (.actionReset t generation) d.timings.actionReset)

def resetAction (d : Dashboard) (t : Target) (generation : Nat) : Dashboard :=
  match d.slots.reset? t generation with
  | some slots => { d with slots, dirty := true }
  | none => d

/-- Shows a toast; also gives the effect that hides it. -/
def notify (d : Dashboard) (kind : ToastKind) (title message : String) : Dashboard × Effect :=
  let (queue, id) := d.queue.enqueue kind title (some message)
  ({ d with queue, dirty := true }, .schedule (.toastHide id) d.timings.toastVisible)

/-- Hides a toast that is visible; also gives the effect that removes it. -/
def hideToast? (d : Dashboard) (id : Nat) : Option (Dashboard × Effect) :=
  (d.queue.hide? id).map fun queue =>
    ({ d with queue, dirty := true }, .schedule (.toastRemoval id) d.timings.toastFade)

def removeToast (d : Dashboard) (id : Nat) : Dashboard :=
  match d.queue.remove? id with
  | some queue => { d with queue, dirty := true }
  | none => d

end Dashboard

end JobBoard
