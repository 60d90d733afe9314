import JobBoard.Proofs.Dashboard.Run
import JobBoard.Proofs.Toast.Stages

/-!
# What toasts wait for

Every toast waits for one timer: to be hidden while it is visible, to be removed once it is hidden.
The update function keeps the account: what the toasts wait for after a message is what they waited
for, less what the message brought, with the timers that its effects set.
-/
namespace JobBoard

/-- The alarm, if it is for a toast. -/
def Alarm.toast? : Alarm → Option Alarm
  | .toastHide id => some (.toastHide id)
  | .toastRemoval id => some (.toastRemoval id)
  | _ => none

def Message.toast? : Message → Option Alarm
  | .toastHideElapsed id => some (.toastHide id)
  | .toastRemovalElapsed id => some (.toastRemoval id)
  | _ => none

theorem Alarm.toast?_message (alarm : Alarm) : alarm.message.toast? = alarm.toast? := by
  cases alarm <;> rfl

def Effect.toast? : Effect → Option Alarm
  | .schedule alarm _ => alarm.toast?
  | _ => none

theorem Target.toast?_request (t : Target) : t.request.toast? = none := by
  cases t <;> rfl

/-- The alarm that a toast waits for. -/
def Toast.alarm (t : Toast) : Alarm :=
  if t.visible then .toastHide t.id else .toastRemoval t.id

theorem Toast.alarm_eq_toastHide {t : Toast} {id : Nat} :
    t.alarm = .toastHide id ↔ t.id = id ∧ t.visible = true := by
  unfold alarm
  by_cases h : t.visible = true <;> simp [h]

theorem Toast.alarm_eq_toastRemoval {t : Toast} {id : Nat} :
    t.alarm = .toastRemoval id ↔ t.id = id ∧ t.visible = false := by
  unfold alarm
  by_cases h : t.visible = true <;> simp [h]

/-- What the toasts of a queue wait for. -/
def ToastQueue.alarms (q : ToastQueue) : List Alarm :=
  q.toasts.map Toast.alarm

namespace ToastQueue

theorem mem_alarms_toastHide {q : ToastQueue} {id : Nat} :
    .toastHide id ∈ q.alarms ↔ ∃ toast ∈ q.toasts, toast.id = id ∧ toast.visible = true := by
  simp only [alarms, List.mem_map, Toast.alarm_eq_toastHide]

theorem mem_alarms_toastRemoval {q : ToastQueue} {id : Nat} :
    .toastRemoval id ∈ q.alarms ↔ ∃ toast ∈ q.toasts, toast.id = id ∧ toast.visible = false := by
  simp only [alarms, List.mem_map, Toast.alarm_eq_toastRemoval]

theorem alarms_cases {q : ToastQueue} (hq : q.Numbered) (id : Nat) :
    ((∀ toast ∈ q.toasts, toast.id ≠ id) ↔
        .toastHide id ∉ q.alarms ∧ .toastRemoval id ∉ q.alarms) ∧
      ¬(.toastHide id ∈ q.alarms ∧ .toastRemoval id ∈ q.alarms) := by
  rw [mem_alarms_toastHide, mem_alarms_toastRemoval]
  constructor
  · constructor
    · intro hnone
      constructor <;> rintro ⟨toast, htoast, hid, -⟩ <;> exact hnone toast htoast hid
    · rintro ⟨hvisible, hhidden⟩ toast htoast hid
      cases h : toast.visible with
      | true => exact hvisible ⟨toast, htoast, hid, h⟩
      | false => exact hhidden ⟨toast, htoast, hid, h⟩
  · rintro ⟨⟨s, hs, hsid, hvisible⟩, t, ht, htid, hhidden⟩
    have hst : s = t := List.inj_on_of_nodup_map hq.nodup hs ht (hsid.trans htid.symm)
    rw [hst, hhidden] at hvisible
    cases hvisible

theorem nodup_alarms {q : ToastQueue} (hq : q.Numbered) : q.alarms.Nodup := by
  refine List.Nodup.map_on ?_ hq.nodup.of_map
  intro s hs t ht halarm
  have hid : s.id = t.id := by
    cases hvisible : t.visible with
    | true =>
      rw [Toast.alarm_eq_toastHide.mpr ⟨rfl, hvisible⟩] at halarm
      exact (Toast.alarm_eq_toastHide.mp halarm).1
    | false =>
      rw [Toast.alarm_eq_toastRemoval.mpr ⟨rfl, hvisible⟩] at halarm
      exact (Toast.alarm_eq_toastRemoval.mp halarm).1
  exact List.inj_on_of_nodup_map hq.nodup hs ht hid

end ToastQueue

namespace Dashboard

/-- The account of the toasts, with what came in; and no identifier skips a stage. -/
structure Tended (d : Dashboard) (came : List Alarm) (step : Step) : Prop where
  numbered : step.state.queue.Numbered
  account : (came ++ step.state.queue.alarms).Perm
    (d.queue.alarms ++ step.effects.filterMap Effect.toast?)
  advances : ∀ id, (d.queue.stage id).Advances (step.state.queue.stage id)

variable {d : Dashboard}

theorem tended_of_queue (hq : d.queue.Numbered) {step : Step} (hqueue : step.state.queue = d.queue)
    (heffects : step.effects.filterMap Effect.toast? = []) : d.Tended [] step where
  numbered := hqueue ▸ hq
  account := by
    rw [hqueue, heffects, List.append_nil]
    exact List.Perm.refl _
  advances id := Or.inl (by rw [hqueue])

theorem tended_of_enqueue (hq : d.queue.Numbered) {kind : ToastKind} {title message : String}
    {step : Step} (hqueue : step.state.queue = (d.queue.enqueue kind title (some message)).1)
    (heffects : step.effects.filterMap Effect.toast? = [.toastHide (d.queue.issued + 1)]) :
    d.Tended [] step where
  numbered := hqueue ▸ ToastQueue.numbered_enqueue hq kind title (some message)
  account := by
    rw [hqueue, heffects, ToastQueue.alarms, ToastQueue.enqueue, List.map_append]
    exact List.Perm.refl _
  advances id := hqueue ▸ ToastQueue.advances_enqueue hq kind title (some message) id

theorem tended_click (hq : d.queue.Numbered) (t : Target) : d.Tended [] (d.update t.click) := by
  rcases d.click_cases t with ⟨-, hstate, heffects⟩ | ⟨-, -, slots, -, hstate, heffects⟩
  · exact tended_of_queue hq (congrArg queue hstate) (by rw [heffects]; rfl)
  · refine tended_of_queue hq (by rw [hstate]) ?_
    rw [heffects, List.filterMap_cons, t.toast?_request]
    rfl

theorem tended_finish (hq : d.queue.Numbered) (t : Target) (f : Feedback) (o : Outcome) :
    d.Tended [] (d.finish t f o) := by
  rcases d.finish_cases t f o with ⟨-, h⟩ |
    ⟨slots, generation, kind, title, message, poll, -, hstate, heffects, hpoll⟩
  · rw [h]
    exact tended_of_queue hq rfl rfl
  · refine tended_of_enqueue hq (by rw [hstate]) ?_
    rw [heffects]
    rcases hpoll with rfl | rfl <;> rfl

/-- The timer that a visible toast waits for hides it, and the timer for its removal is set. -/
theorem tended_hide (hq : d.queue.Numbered) {id : Nat} (h : .toastHide id ∈ d.queue.alarms) :
    d.Tended [.toastHide id] (d.update (.toastHideElapsed id)) := by
  obtain ⟨toast, htoast, rfl, hvisible⟩ := ToastQueue.mem_alarms_toastHide.mp h
  have halarm : toast.alarm = .toastHide toast.id :=
    Toast.alarm_eq_toastHide.mpr ⟨rfl, hvisible⟩
  obtain ⟨hidden, rest, hhide, hnumbered, hbefore, hafter, hadvances⟩ :=
    ToastQueue.hide?_of_visible hq htoast hvisible
  have hstep : d.update (.toastHideElapsed toast.id) =
      { state := { d with queue := hidden, dirty := true }
        effects := [.schedule (.toastRemoval toast.id) d.timings.toastFade] } := by
    rw [update, hideToast?, hhide]
    rfl
  rw [hstep]
  refine ⟨hnumbered, ?_, hadvances⟩
  have hbefore : d.queue.alarms.Perm (.toastHide toast.id :: rest.map Toast.alarm) :=
    halarm ▸ hbefore.map Toast.alarm
  have hafter : hidden.alarms.Perm (.toastRemoval toast.id :: rest.map Toast.alarm) :=
    hafter.map Toast.alarm
  calc [Alarm.toastHide toast.id] ++ hidden.alarms
    _ |>.Perm (.toastHide toast.id :: .toastRemoval toast.id :: rest.map Toast.alarm) :=
      hafter.cons _
    _ |>.Perm (.toastHide toast.id :: (rest.map Toast.alarm ++ [.toastRemoval toast.id])) :=
      (List.perm_append_singleton _ _).symm.cons _
    _ |>.Perm (d.queue.alarms ++ [.toastRemoval toast.id]) := hbefore.symm.append_right _

theorem tended_removal (hq : d.queue.Numbered) {id : Nat} (h : .toastRemoval id ∈ d.queue.alarms) :
    d.Tended [.toastRemoval id] (d.update (.toastRemovalElapsed id)) := by
  obtain ⟨toast, htoast, rfl, hhidden⟩ := ToastQueue.mem_alarms_toastRemoval.mp h
  have halarm : toast.alarm = .toastRemoval toast.id :=
    Toast.alarm_eq_toastRemoval.mpr ⟨rfl, hhidden⟩
  obtain ⟨removed, hremove, hnumbered, hperm, hadvances⟩ :=
    ToastQueue.remove?_of_hidden hq htoast hhidden
  have hstep : d.update (.toastRemovalElapsed toast.id) =
      { state := { d with queue := removed, dirty := true } } := by
    rw [update, removeToast, hremove]
  have hperm : d.queue.alarms.Perm (.toastRemoval toast.id :: removed.alarms) :=
    halarm ▸ hperm.map Toast.alarm
  rw [hstep]
  refine ⟨hnumbered, ?_, hadvances⟩
  rw [List.filterMap_nil, List.append_nil]
  exact hperm.symm

/-- The toasts are tended by every message that brings them nothing, or what one of them waits for.
-/
theorem tended_update (hq : d.queue.Numbered) {message : Message}
    (h : ∀ alarm, message.toast? = some alarm → alarm ∈ d.queue.alarms) :
    d.Tended message.toast?.toList (d.update message) := by
  cases message with
  | pollRequested => exact tended_of_queue hq rfl rfl
  | jobsFetched result =>
    cases result with
    | ok jobs =>
      refine tended_of_queue hq rfl (List.filterMap_eq_nil_iff.mpr ?_)
      intro effect heffect
      obtain ⟨request, -, rfl⟩ := List.mem_map.mp heffect
      rfl
    | error message => exact tended_of_enqueue hq rfl rfl
  | discoveryStatusFetched key seq running =>
    obtain ⟨dirty, hstate, heffects⟩ := d.update_discoveryStatusFetched key seq running
    exact tended_of_queue hq (by rw [hstate]) (by rw [heffects]; rfl)
  | healthChecked healthy => exact tended_of_queue hq rfl rfl
  | discoveryClicked key => exact tended_click hq (.discovery key)
  | discoveryStartFinished key outcome => exact tended_finish hq _ _ outcome
  | triggerClicked key project => exact tended_click hq (.renovate key project)
  | triggerFinished key project outcome => exact tended_finish hq _ _ outcome
  | actionResetElapsed target generation =>
    rcases d.resetAction_cases target generation with ⟨-, h⟩ | ⟨slots, -, h⟩ <;> rw [update, h] <;>
      exact tended_of_queue hq rfl rfl
  | toastHideElapsed id => exact tended_hide hq (h _ rfl)
  | toastRemovalElapsed id => exact tended_removal hq (h _ rfl)

end Dashboard

end JobBoard
