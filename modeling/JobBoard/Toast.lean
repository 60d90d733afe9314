/-!
# Toasts

A toast is a short message that is shown for a while, then hidden, then removed. The queue keeps
toasts in the order they came. Identifiers ascend and are never given twice, so timers may hide and
remove toasts in any order.
-/
namespace JobBoard

inductive ToastKind where
  | success
  | error
  | info
  deriving DecidableEq

structure Toast where
  id : Nat
  kind : ToastKind
  title : String
  message : String
  visible : Bool
  deriving DecidableEq

structure ToastQueue where
  toasts : List Toast := []
  /-- Identifier of the last toast enqueued. -/
  issued : Nat := 0
  deriving DecidableEq

namespace ToastQueue

def get? (q : ToastQueue) (id : Nat) : Option Toast :=
  q.toasts.find? (·.id = id)

/-- Adds a visible toast; also gives its identifier. -/
def enqueue (q : ToastQueue) (kind : ToastKind) (title : String) (message : Option String) :
    ToastQueue × Nat :=
  let id := q.issued + 1
  let toast : Toast := ⟨id, kind, title, message.getD "", true⟩
  (⟨q.toasts ++ [toast], id⟩, id)

/-- Hides a toast; refused if it is gone or hidden already. -/
def hide? (q : ToastQueue) (id : Nat) : Option ToastQueue :=
  match q.get? id with
  | some toast =>
    if toast.visible then
      some { q with
        toasts := q.toasts.map fun t => if t.id = id then { t with visible := false } else t }
    else none
  | none => none

/-- Removes a toast; refused if it is gone already. -/
def remove? (q : ToastQueue) (id : Nat) : Option ToastQueue :=
  if (q.get? id).isSome then some { q with toasts := q.toasts.filter (·.id ≠ id) } else none

end ToastQueue

end JobBoard
