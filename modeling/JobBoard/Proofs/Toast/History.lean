import JobBoard.Proofs.Toast.Stages
import Mathlib.Data.List.Induction

/-!
# The history of a queue of toasts

A queue is called in any order and with any identifiers, also such as were never given. What it
holds can be told from the calls alone: each toast enqueued, unless it was removed since, and hidden
if it was hidden since. Main statement: `toasts_follow_history`.
-/
namespace JobBoard.ToastQueue

inductive Call where
  | enqueue (kind : ToastKind) (title : String) (message : Option String)
  | hide (id : Nat)
  | remove (id : Nat)
  deriving DecidableEq

def accept? (q : ToastQueue) : Call → Option ToastQueue
  | .enqueue kind title message => some (q.enqueue kind title message).1
  | .hide id => q.hide? id
  | .remove id => q.remove? id

/-- The queue after a call, accepted or not. -/
def take (q : ToastQueue) (c : Call) : ToastQueue :=
  (q.accept? c).getD q

def after (calls : List Call) : ToastQueue :=
  calls.foldl take {}

/-- The toast that a call enqueues, under the identifier that the call returns. -/
def toast? (q : ToastQueue) : Call → Option Toast
  | .enqueue kind title message =>
    some ⟨(q.enqueue kind title message).2, kind, title, message.getD "", true⟩
  | _ => none

/-- A toast as it was enqueued, and the calls since. -/
structure Entry where
  toast : Toast
  since : List Call

/-- What is left of a toast after the calls since it was enqueued. -/
def Entry.left? (e : Entry) : Option Toast :=
  if .remove e.toast.id ∈ e.since then none
  else some { e.toast with visible := decide (.hide e.toast.id ∉ e.since) }

def enqueued (q : ToastQueue) : List Call → List Entry
  | [] => []
  | c :: since => ((q.toast? c).map (Entry.mk · since)).toList ++ (q.take c).enqueued since

def Entry.later (c : Call) (e : Entry) : Entry :=
  { e with since := e.since ++ [c] }

def Call.act : Call → Toast → Option Toast
  | .enqueue _ _ _, toast => some toast
  | .hide id, toast => some (hideAt id toast)
  | .remove id, toast => if toast.id = id then none else some toast

theorem after_append_singleton (calls : List Call) (c : Call) :
    after (calls ++ [c]) = (after calls).take c := by
  simp [after]

theorem enqueued_append_singleton (q : ToastQueue) (calls : List Call) (c : Call) :
    q.enqueued (calls ++ [c]) =
      (q.enqueued calls).map (Entry.later c) ++
        (((calls.foldl take q).toast? c).map (Entry.mk · [])).toList := by
  induction calls generalizing q with
  | nil => simp [enqueued]
  | cons d calls ih =>
    rw [List.cons_append, enqueued, ih, enqueued, List.map_append, List.append_assoc,
      List.foldl_cons]
    cases q.toast? d <;> rfl

theorem left?_later (e : Entry) (c : Call) : (e.later c).left? = e.left?.bind c.act := by
  obtain ⟨toast, since⟩ := e
  by_cases hremoved : .remove toast.id ∈ since
  · simp [Entry.later, Entry.left?, hremoved]
  · cases c with
    | enqueue kind title message => simp [Entry.later, Entry.left?, Call.act, hremoved]
    | hide id =>
      by_cases hid : toast.id = id
      · subst hid
        simp [Entry.later, Entry.left?, Call.act, hideAt, hremoved]
      · simp [Entry.later, Entry.left?, Call.act, hideAt, hremoved, hid]
    | remove id =>
      by_cases hid : toast.id = id
      · subst hid
        simp [Entry.later, Entry.left?, Call.act, hremoved]
      · simp [Entry.later, Entry.left?, Call.act, hremoved, hid]

variable {q : ToastQueue}

theorem isSome_hide? (hq : q.Numbered) {id : Nat} :
    (q.hide? id).isSome ↔ ∃ toast ∈ q.toasts, toast.id = id ∧ toast.visible = true := by
  constructor
  · intro h
    obtain ⟨hidden, hhide⟩ := Option.isSome_iff_exists.mp h
    exact (eq_of_hide? hhide).1
  · rintro ⟨toast, hmem, rfl, hvisible⟩
    obtain ⟨hidden, -, hhide, -⟩ := hide?_of_visible hq hmem hvisible
    rw [hhide]
    rfl

theorem isSome_remove? {id : Nat} :
    (q.remove? id).isSome ↔ ∃ toast ∈ q.toasts, toast.id = id := by
  unfold remove?
  split
  next h => simpa [get?] using h
  next h => simpa [get?] using h

theorem toasts_take_hide (hq : q.Numbered) (id : Nat) :
    (q.take (.hide id)).toasts = q.toasts.map (hideAt id) := by
  rw [take, accept?]
  cases h : q.hide? id with
  | none =>
    symm
    refine (List.map_congr_left ?_).trans (List.map_id _)
    intro toast htoast
    -- A refusal says that no toast with the identifier is visible.
    by_cases hid : toast.id = id
    · have hhidden : toast.visible = false := by
        rw [Bool.eq_false_iff]
        intro hvisible
        have hsome := (isSome_hide? hq).mpr ⟨toast, htoast, hid, hvisible⟩
        rw [h] at hsome
        cases hsome
      rw [hideAt, if_pos hid, ← hhidden]
      rfl
    · exact if_neg hid
  | some hidden => rw [Option.getD_some, (eq_of_hide? h).2]

theorem toasts_take_remove (q : ToastQueue) (id : Nat) :
    (q.take (.remove id)).toasts = q.toasts.filter (·.id ≠ id) := by
  rw [take, accept?]
  cases h : q.remove? id with
  | none =>
    -- A refusal says that no toast has the identifier, so nothing is filtered out.
    symm
    rw [Option.getD_none, List.filter_eq_self]
    intro toast htoast
    refine decide_eq_true ?_
    intro hid
    have hsome := isSome_remove?.mpr ⟨toast, htoast, hid⟩
    rw [h] at hsome
    cases hsome
  | some removed => rw [Option.getD_some, eq_of_remove? h]

/-- Each call acts on every toast in the queue by itself, and an enqueued toast comes last. -/
theorem toasts_take (hq : q.Numbered) (c : Call) :
    (q.take c).toasts = q.toasts.filterMap c.act ++ (q.toast? c).toList := by
  cases c with
  | enqueue kind title message =>
    have hact : (Call.enqueue kind title message).act = some := rfl
    rw [hact, List.filterMap_some]
    rfl
  | hide id =>
    have hact : (Call.hide id).act = some ∘ hideAt id := rfl
    rw [toasts_take_hide hq, hact, List.filterMap_eq_map]
    exact (List.append_nil _).symm
  | remove id =>
    have hact : (Call.remove id).act = Option.guard (·.id ≠ id) := by
      funext toast
      by_cases hid : toast.id = id <;> simp [Call.act, Option.guard, hid]
    rw [toasts_take_remove, hact, List.filterMap_eq_filter]
    exact (List.append_nil _).symm

theorem numbered_take (hq : q.Numbered) (c : Call) : (q.take c).Numbered := by
  cases c with
  | enqueue kind title message => exact numbered_enqueue hq kind title message
  | hide id =>
    rw [take, accept?]
    cases h : q.hide? id with
    | none => exact hq
    | some hidden =>
      obtain ⟨⟨toast, hmem, rfl, hvisible⟩, -⟩ := eq_of_hide? h
      obtain ⟨next, -, hhide, hnext, -⟩ := hide?_of_visible hq hmem hvisible
      rw [h] at hhide
      cases hhide
      exact hnext
  | remove id =>
    have hissued : (q.take (.remove id)).issued = q.issued := by
      rw [take, accept?, remove?]
      split <;> rfl
    constructor
    · rw [toasts_take_remove]
      exact hq.nodup.sublist (List.filter_sublist.map Toast.id)
    · rw [toasts_take_remove, hissued]
      intro toast htoast
      exact hq.given toast (List.mem_filter.mp htoast).1

/-- No identifier is given below one given before. -/
theorem issued_take (q : ToastQueue) (c : Call) :
    q.issued ≤ (q.take c).issued ∧ ∀ toast, q.toast? c = some toast →
      toast.id = (q.take c).issued := by
  cases c with
  | enqueue kind title message =>
    refine ⟨Nat.le_succ q.issued, ?_⟩
    rintro toast ⟨⟩
    rfl
  | hide id =>
    refine ⟨?_, nofun⟩
    rw [take, accept?]
    cases h : q.hide? id with
    | none => exact Nat.le_refl _
    | some hidden =>
      rw [Option.getD_some, (eq_of_hide? h).2]
  | remove id =>
    refine ⟨?_, nofun⟩
    rw [take, accept?, remove?]
    split <;> exact Nat.le_refl _

structure Recalls (q : ToastQueue) (calls : List Call) : Prop where
  numbered : q.Numbered
  toasts : q.toasts = (enqueued {} calls).filterMap Entry.left?
  le_issued : ∀ entry ∈ enqueued {} calls, entry.toast.id ≤ q.issued

theorem Recalls.take {calls : List Call} (h : (after calls).Recalls calls) (c : Call) :
    (after (calls ++ [c])).Recalls (calls ++ [c]) := by
  rw [after_append_singleton]
  refine ⟨numbered_take h.numbered c, ?_, ?_⟩
  · have hlater : Entry.left? ∘ Entry.later c = fun e => e.left?.bind c.act := by
      funext e
      exact left?_later e c
    have hnew : (((after calls).toast? c).map (Entry.mk · [])).toList.filterMap Entry.left? =
        ((after calls).toast? c).toList := by
      cases c <;> rfl
    rw [toasts_take h.numbered, h.toasts, enqueued_append_singleton, ← after, List.filterMap_append,
      List.filterMap_map, hlater, hnew, List.filterMap_filterMap]
  · obtain ⟨hle, hgiven⟩ := (after calls).issued_take c
    rw [enqueued_append_singleton, ← after]
    intro entry hentry
    rcases List.mem_append.mp hentry with hearlier | hnew
    · obtain ⟨before, hbefore, rfl⟩ := List.mem_map.mp hearlier
      exact (h.le_issued before hbefore).trans hle
    · obtain ⟨toast, htoast, rfl⟩ := Option.map_eq_some_iff.mp (Option.mem_toList.mp hnew)
      exact Nat.le_of_eq (hgiven toast htoast)

theorem recalls_after (calls : List Call) : (after calls).Recalls calls := by
  induction calls using List.reverseRecOn with
  | nil => exact ⟨numbered_nil, rfl, nofun⟩
  | append_singleton calls c ih => exact ih.take c

/-- After any calls, the queue holds what is left of the toasts enqueued, in the order they came. A
new toast gets an identifier above all that were given before. Hiding is accepted exactly if there
is a visible toast with the identifier, removing exactly if there is one at all, and a refused call
changes nothing. -/
theorem toasts_follow_history (calls : List Call) :
    (after calls).toasts = (enqueued {} calls).filterMap Entry.left? ∧
      (∀ kind title message, ∀ entry ∈ enqueued {} calls,
        entry.toast.id < ((after calls).enqueue kind title message).2) ∧
      (∀ id, ((after calls).hide? id).isSome ↔
        ∃ toast ∈ (after calls).toasts, toast.id = id ∧ toast.visible = true) ∧
      (∀ id, ((after calls).remove? id).isSome ↔
        ∃ toast ∈ (after calls).toasts, toast.id = id) ∧
      ∀ c, (after calls).accept? c = none → after (calls ++ [c]) = after calls := by
  have h := recalls_after calls
  refine ⟨h.toasts, ?_, fun id => isSome_hide? h.numbered, fun id => isSome_remove?, ?_⟩
  · intro kind title message entry hentry
    exact Nat.lt_succ_of_le (h.le_issued entry hentry)
  · intro c hrefused
    rw [after_append_singleton, take, hrefused, Option.getD_none]

end JobBoard.ToastQueue
