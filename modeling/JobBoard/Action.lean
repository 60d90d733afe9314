import JobBoard.Snapshot

/-!
# Actions

An action is a request that changes something at the backend. Each target has a slot of its own:
it is busy while its request is out, then shows the result until it is reset. Every attempt has a
number, the generation, so that the reset of an earlier attempt cannot end a later one.
-/
namespace JobBoard

/-- What an action acts on. -/
inductive Target where
  | discovery (job : JobKey)
  | renovate (job : JobKey) (project : String)
  deriving DecidableEq

inductive Outcome where
  | accepted
  /-- The backend declined, with whatever it explained. -/
  | rejected (message : String)
  /-- No response came. -/
  | transport (message : String)
  deriving DecidableEq

inductive Settlement where
  | succeeded
  | failed
  | errored
  deriving DecidableEq

def Outcome.settlement : Outcome → Settlement
  | .accepted => .succeeded
  | .rejected _ => .failed
  | .transport _ => .errored

inductive Phase where
  | idle
  | busy
  | settled (result : Settlement)
  deriving DecidableEq

/-- A slot that is in use: busy until it has a result. -/
structure Slot where
  result : Option Settlement
  generation : Nat
  deriving DecidableEq

def Slot.phase (s : Slot) : Phase :=
  match s.result with
  | none => .busy
  | some result => .settled result

/-- The slots in use, at most one for a target. -/
structure Slots where
  used : List (Target × Slot) := []
  /-- Generation of the last attempt of all. -/
  generations : Nat := 0
  deriving DecidableEq

namespace Slots

def slot? (s : Slots) (t : Target) : Option Slot :=
  s.used.lookup t

def phase (s : Slots) (t : Target) : Phase :=
  ((s.slot? t).map Slot.phase).getD .idle

def isBusy (s : Slots) (t : Target) : Bool :=
  s.phase t = .busy

def free (s : Slots) (t : Target) : List (Target × Slot) :=
  s.used.filter (·.1 ≠ t)

/-- Starts an attempt; refused while one is out. -/
def begin? (s : Slots) (t : Target) : Option Slots :=
  if s.isBusy t then none
  else some
    { used := (t, ⟨none, s.generations + 1⟩) :: s.free t
      generations := s.generations + 1 }

/-- Records how the attempt ended and tells its generation; refused if none is out. -/
def settle? (s : Slots) (t : Target) (o : Outcome) : Option (Slots × Nat) :=
  match s.slot? t with
  | some ⟨none, generation⟩ =>
    some ({ s with used := (t, ⟨some o.settlement, generation⟩) :: s.free t }, generation)
  | _ => none

/-- Makes the target idle again; refused unless this very attempt has settled. -/
def reset? (s : Slots) (t : Target) (generation : Nat) : Option Slots :=
  match s.slot? t with
  | some ⟨some _, g⟩ => if g = generation then some { s with used := s.free t } else none
  | _ => none

/-- The number of attempts that are out. -/
def inFlight (s : Slots) : Nat :=
  s.used.countP (·.2.result.isNone)

end Slots

end JobBoard
