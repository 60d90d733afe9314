import JobBoard.Proofs.Lists
import JobBoard.Toast
import Mathlib.Data.List.Destutter

/-!
# The stages of a toast

An identifier lies ahead until a toast gets it, the toast is visible, then hidden, then gone, and
the identifier is never given again. Each operation of the queue moves one identifier on, and where
every move is to the next stage, the stages are gone through in order and each just once.
-/
namespace JobBoard

/-- How far an identifier of toasts has come. -/
inductive ToastStage where
  | ahead
  | visible
  | hidden
  | gone
  deriving DecidableEq

namespace ToastStage

def next : ToastStage → ToastStage
  | ahead => visible
  | visible => hidden
  | hidden => gone
  | gone => gone

/-- A stage that stays or moves to the next. -/
def Advances (s t : ToastStage) : Prop :=
  t = s ∨ t = s.next

/-- The stages from one on, in order. -/
def onwards : ToastStage → List ToastStage
  | ahead => [ahead, visible, hidden, gone]
  | visible => [visible, hidden, gone]
  | hidden => [hidden, gone]
  | gone => [gone]

theorem onwards_of_next_ne {s : ToastStage} (h : s ≠ s.next) :
    s.onwards = s :: s.next.onwards := by
  cases s with
  | gone => exact absurd rfl h
  | _ => rfl

theorem singleton_prefix_onwards (s : ToastStage) : [s] <+: s.onwards := by
  cases s <;> exact ⟨_, rfl⟩

/-- Stages that only advance are, repetitions apart, the stages in order. -/
theorem destutter_prefix_onwards {s : ToastStage} {stages : List ToastStage}
    (h : (s :: stages).IsChain Advances) : (s :: stages).destutter (· ≠ ·) <+: s.onwards := by
  rw [List.destutter_cons']
  induction stages generalizing s with
  | nil => exact s.singleton_prefix_onwards
  | cons t stages ih =>
    obtain ⟨hst, hrest⟩ := List.isChain_cons_cons.mp h
    by_cases hne : s ≠ t
    · have hnext : t = s.next := hst.resolve_left (Ne.symm hne)
      subst hnext
      rw [List.destutter'_cons_pos _ hne, onwards_of_next_ne hne, List.cons_prefix_cons]
      exact ⟨rfl, ih hrest⟩
    · rw [List.destutter'_cons_neg _ hne]
      obtain rfl : s = t := not_not.mp hne
      exact ih hrest

theorem mem_destutter {s : ToastStage} {stages : List ToastStage} (h : s ∈ stages) :
    s ∈ stages.destutter (· ≠ ·) := by
  cases stages with
  | nil => exact h
  | cons t stages =>
    rw [List.destutter_cons']
    induction stages generalizing t with
    | nil => exact h
    | cons u stages ih =>
      by_cases hne : t ≠ u
      · rw [List.destutter'_cons_pos _ hne]
        rcases List.mem_cons.mp h with rfl | h
        · exact List.mem_cons_self
        · exact List.mem_cons_of_mem _ (ih u h)
      · rw [List.destutter'_cons_neg _ hne]
        obtain rfl : t = u := not_not.mp hne
        exact ih t ((List.mem_cons.mp h).elim (· ▸ List.mem_cons_self) id)

theorem destutter_eq_onwards {stages : List ToastStage} (h : (ahead :: stages).IsChain Advances)
    (hgone : gone ∈ stages) :
    (ahead :: stages).destutter (· ≠ ·) = [ahead, visible, hidden, gone] := by
  obtain ⟨rest, hrest⟩ := destutter_prefix_onwards h
  -- Nothing can follow, since `gone` ends the stages in order and has come already.
  rcases List.eq_nil_or_concat rest with rfl | ⟨init, last, rfl⟩
  · rwa [List.append_nil] at hrest
  · rw [List.concat_eq_append] at hrest
    have hlast : last = gone := by simpa [onwards] using congrArg List.getLast? hrest
    have hnodup : ((ahead :: stages).destutter (· ≠ ·) ++ (init ++ [last])).Nodup := by
      rw [hrest]
      decide
    have hmem := mem_destutter (List.mem_cons_of_mem ahead hgone)
    have hlater : gone ∈ init ++ [last] := by simp [hlast]
    exact absurd hlater (List.disjoint_of_nodup_append hnodup hmem)

end ToastStage

namespace ToastQueue

def stage (q : ToastQueue) (id : Nat) : ToastStage :=
  match q.get? id with
  | some toast => if toast.visible then .visible else .hidden
  | none => if 1 ≤ id ∧ id ≤ q.issued then .gone else .ahead

/-- No two toasts have the same identifier, and every identifier was given. -/
structure Numbered (q : ToastQueue) : Prop where
  nodup : (q.toasts.map Toast.id).Nodup
  given : ∀ toast ∈ q.toasts, 1 ≤ toast.id ∧ toast.id ≤ q.issued

theorem numbered_nil : (⟨[], 0⟩ : ToastQueue).Numbered :=
  ⟨List.nodup_nil, fun _ h => absurd h List.not_mem_nil⟩

theorem mem_of_get? {q : ToastQueue} {id : Nat} {toast : Toast} (h : q.get? id = some toast) :
    toast ∈ q.toasts ∧ toast.id = id := by
  unfold get? at h
  exact ⟨List.mem_of_find?_eq_some h, by simpa using List.find?_some h⟩

theorem get?_of_mem {q : ToastQueue} (hq : q.Numbered) {toast : Toast} (h : toast ∈ q.toasts) :
    q.get? toast.id = some toast := by
  have hsome : (q.get? toast.id).isSome := List.find?_isSome.mpr ⟨toast, h, decide_eq_true rfl⟩
  obtain ⟨found, hfound⟩ := Option.isSome_iff_exists.mp hsome
  obtain ⟨hmem, hid⟩ := mem_of_get? hfound
  rw [hfound, List.inj_on_of_nodup_map hq.nodup hmem h hid]

theorem get?_eq_none {q : ToastQueue} {id : Nat} :
    q.get? id = none ↔ ∀ toast ∈ q.toasts, toast.id ≠ id := by
  unfold get?
  simp

theorem get?_of_issued_lt {q : ToastQueue} (hq : q.Numbered) {id : Nat} (h : q.issued < id) :
    q.get? id = none := by
  rw [get?_eq_none]
  intro toast htoast
  have := (hq.given toast htoast).2
  omega

theorem numbered_enqueue {q : ToastQueue} (hq : q.Numbered) (kind : ToastKind) (title : String)
    (message : Option String) : (q.enqueue kind title message).1.Numbered := by
  have hnew : q.issued + 1 ∉ q.toasts.map Toast.id := by
    intro hmem
    obtain ⟨toast, htoast, hid⟩ := List.mem_map.mp hmem
    exact get?_eq_none.mp (get?_of_issued_lt hq (Nat.lt_succ_self _)) toast htoast hid
  constructor
  · rw [enqueue, List.map_append]
    exact hq.nodup.append (List.nodup_singleton _) (by simpa using hnew)
  · intro toast htoast
    change 1 ≤ toast.id ∧ toast.id ≤ q.issued + 1
    rcases List.mem_append.mp htoast with htoast | htoast
    · have := hq.given toast htoast
      omega
    · rw [List.mem_singleton.mp htoast]
      exact ⟨Nat.succ_pos _, Nat.le_refl _⟩

theorem get?_enqueue {q : ToastQueue} (hq : q.Numbered) (kind : ToastKind) (title : String)
    (message : Option String) (id : Nat) :
    (q.enqueue kind title message).1.get? id =
      if id = q.issued + 1 then some ⟨q.issued + 1, kind, title, message.getD "", true⟩
      else q.get? id := by
  rw [get?, enqueue, List.find?_append, List.find?_singleton, ← get?]
  by_cases hid : id = q.issued + 1
  · subst hid
    rw [get?_of_issued_lt hq (Nat.lt_succ_self _), if_pos rfl, if_pos (decide_eq_true rfl),
      Option.none_or]
  · rw [if_neg hid, if_neg (by simpa using Ne.symm hid), Option.or_none]

theorem advances_enqueue {q : ToastQueue} (hq : q.Numbered) (kind : ToastKind) (title : String)
    (message : Option String) (id : Nat) :
    (q.stage id).Advances ((q.enqueue kind title message).1.stage id) := by
  unfold stage
  rw [get?_enqueue hq]
  by_cases hid : id = q.issued + 1
  · subst hid
    have hahead : ¬(1 ≤ q.issued + 1 ∧ q.issued + 1 ≤ q.issued) := by omega
    rw [if_pos rfl, get?_of_issued_lt hq (Nat.lt_succ_self _)]
    simp only [if_neg hahead]
    exact Or.inr rfl
  · have hissued : id ≤ q.issued + 1 ↔ id ≤ q.issued := by omega
    rw [if_neg hid]
    simp only [enqueue, hissued]
    exact Or.inl rfl

def hideAt (id : Nat) (toast : Toast) : Toast :=
  if toast.id = id then { toast with visible := false } else toast

theorem id_hideAt (id : Nat) (toast : Toast) : (hideAt id toast).id = toast.id := by
  unfold hideAt
  split <;> rfl

theorem get?_map_hideAt (q : ToastQueue) (hidden id : Nat) :
    { q with toasts := q.toasts.map (hideAt hidden) }.get? id =
      (q.get? id).map (hideAt hidden) := by
  unfold get?
  rw [List.find?_map]
  simp only [Function.comp_def, id_hideAt]

theorem get?_filter_ne (q : ToastQueue) (removed id : Nat) :
    { q with toasts := q.toasts.filter (·.id ≠ removed) }.get? id =
      if id = removed then none else q.get? id := by
  by_cases hid : id = removed
  · rw [if_pos hid, get?_eq_none, hid]
    intro toast htoast
    exact of_decide_eq_true (List.mem_filter.mp htoast).2
  · rw [if_neg hid, get?, get?, List.find?_filter]
    congr 1
    funext toast
    by_cases htoast : toast.id = id <;> simp [htoast, hid]

theorem eq_of_hide? {q hidden : ToastQueue} {id : Nat} (h : q.hide? id = some hidden) :
    (∃ toast ∈ q.toasts, toast.id = id ∧ toast.visible = true) ∧
      hidden = { q with toasts := q.toasts.map (hideAt id) } := by
  unfold hide? at h
  split at h
  next toast htoast =>
    split at h
    next hvisible =>
      obtain ⟨hmem, hid⟩ := mem_of_get? htoast
      exact ⟨⟨toast, hmem, hid, hvisible⟩, (Option.some.inj h).symm⟩
    next => cases h
  next => cases h

theorem eq_of_remove? {q removed : ToastQueue} {id : Nat} (h : q.remove? id = some removed) :
    removed = { q with toasts := q.toasts.filter (·.id ≠ id) } := by
  unfold remove? at h
  split at h
  · exact (Option.some.inj h).symm
  · cases h

/-- Hiding a visible toast changes this toast alone. -/
theorem hide?_of_visible {q : ToastQueue} (hq : q.Numbered) {toast : Toast}
    (h : toast ∈ q.toasts) (hvisible : toast.visible = true) :
    ∃ hidden rest, q.hide? toast.id = some hidden ∧ hidden.Numbered ∧
      q.toasts.Perm (toast :: rest) ∧
      hidden.toasts.Perm ({ toast with visible := false } :: rest) ∧
      ∀ id, (q.stage id).Advances (hidden.stage id) := by
  have hperm := Lists.perm_cons_filter hq.nodup h
  refine ⟨{ q with toasts := q.toasts.map (hideAt toast.id) }, _, ?_, ⟨?_, ?_⟩, hperm, ?_, ?_⟩
  · rw [hide?, get?_of_mem hq h]
    exact if_pos hvisible
  · rw [List.map_map]
    simpa only [Function.comp_def, id_hideAt] using hq.nodup
  · intro t ht
    obtain ⟨old, hold, rfl⟩ := List.mem_map.mp ht
    rw [id_hideAt]
    exact hq.given old hold
  · have hrest : (q.toasts.filter (·.id ≠ toast.id)).map (hideAt toast.id) =
        q.toasts.filter (·.id ≠ toast.id) := by
      refine (List.map_congr_left ?_).trans (List.map_id _)
      intro t ht
      exact if_neg (of_decide_eq_true (List.mem_filter.mp ht).2)
    have hmapped := hperm.map (hideAt toast.id)
    rw [List.map_cons, hrest, hideAt, if_pos rfl] at hmapped
    exact hmapped
  · intro id
    unfold stage
    rw [get?_map_hideAt]
    cases hold : q.get? id with
    | none => exact Or.inl rfl
    | some old =>
      obtain ⟨hmem, rfl⟩ := mem_of_get? hold
      rw [Option.map_some, hideAt]
      by_cases hid : old.id = toast.id
      · rw [hid, get?_of_mem hq h, Option.some.injEq] at hold
        subst hold
        simp only [if_pos hvisible]
        exact Or.inr rfl
      · rw [if_neg hid]
        exact Or.inl rfl

theorem remove?_of_hidden {q : ToastQueue} (hq : q.Numbered) {toast : Toast}
    (h : toast ∈ q.toasts) (hhidden : toast.visible = false) :
    ∃ removed, q.remove? toast.id = some removed ∧ removed.Numbered ∧
      q.toasts.Perm (toast :: removed.toasts) ∧
      ∀ id, (q.stage id).Advances (removed.stage id) := by
  refine ⟨{ q with toasts := q.toasts.filter (·.id ≠ toast.id) }, ?_, ⟨?_, ?_⟩,
    Lists.perm_cons_filter hq.nodup h, ?_⟩
  · rw [remove?, get?_of_mem hq h]
    rfl
  · exact hq.nodup.sublist (List.filter_sublist.map Toast.id)
  · intro t ht
    exact hq.given t (List.mem_filter.mp ht).1
  · intro id
    unfold stage
    rw [get?_filter_ne]
    by_cases hid : id = toast.id
    · subst hid
      rw [if_pos rfl, get?_of_mem hq h]
      simp only [hhidden, if_pos (hq.given toast h)]
      exact Or.inr rfl
    · rw [if_neg hid]
      exact Or.inl rfl

end ToastQueue

end JobBoard
