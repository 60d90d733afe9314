import JobBoard.Proofs.Action.Due
import JobBoard.Proofs.Dashboard.Run

/-!
# What messages bring and effects ask for

A message may bring what is due for a target, and an effect makes something due. The update function
keeps the account: what is due after a message is what was due, less what the message brought, with
what the effects ask for.
-/
namespace JobBoard

/-- The answer or the reset that a message brings. -/
def Message.due? : Message → Option Due
  | .discoveryStartFinished key _ => some (.answer (.discovery key))
  | .triggerFinished key project _ => some (.answer (.renovate key project))
  | .actionResetElapsed target generation => some (.reset target generation)
  | _ => none

def Alarm.due? : Alarm → Option Due
  | .actionReset target generation => some (.reset target generation)
  | _ => none

theorem Alarm.due?_message (alarm : Alarm) : alarm.message.due? = alarm.due? := by
  cases alarm <;> rfl

def Effect.due? : Effect → Option Due
  | .startDiscovery key => some (.answer (.discovery key))
  | .triggerRenovate key project => some (.answer (.renovate key project))
  | .schedule alarm _ => alarm.due?
  | _ => none

theorem Target.due?_request (t : Target) : t.request.due? = some (.answer t) := by
  cases t <;> rfl

namespace Dashboard

/-- What is due before and after a message, against what came in with it and what its effects ask
for. -/
def Balanced (d : Dashboard) (came : List Due) (step : Step) : Prop :=
  ∀ x, step.state.slots.dues x + came.count x =
    d.slots.dues x + (step.effects.filterMap Effect.due?).count x

variable {d : Dashboard}

theorem balanced_of_slots {step : Step} (hslots : step.state.slots = d.slots)
    (heffects : step.effects.filterMap Effect.due? = []) : d.Balanced [] step := by
  intro x
  rw [hslots, heffects]

theorem balanced_click (d : Dashboard) (t : Target) : d.Balanced [] (d.update t.click) := by
  rcases d.click_cases t with ⟨-, hstate, heffects⟩ | ⟨-, hidle, slots, hslots, hstate, heffects⟩
  · exact balanced_of_slots (congrArg Dashboard.slots hstate) (by rw [heffects]; rfl)
  · have hwent : (d.update t.click).effects.filterMap Effect.due? = [.answer t] := by
      rw [heffects, List.filterMap_cons, t.due?_request]
      rfl
    intro x
    rw [hstate, hwent]
    refine Slots.dues_of_target t ?_ (by simp) (by simp [Due.target]) ?_ x
    · intro u hu
      rw [Slots.slot?_begin? hslots, if_neg hu]
    · have hbefore : d.slots.due? t = none := Slots.due?_eq_none.mpr hidle
      have hafter : slots.due? t = some (.answer t) := by
        rw [Slots.due?, Slots.slot?_begin? hslots, if_pos rfl]
        rfl
      rw [hbefore, hafter]
      exact List.Perm.refl _

theorem balanced_finish {t : Target} (h : d.slots.due? t = some (.answer t)) (f : Feedback)
    (o : Outcome) : d.Balanced [.answer t] (d.finish t f o) := by
  rcases d.finish_cases t f o with ⟨hnone, -⟩ |
    ⟨slots, generation, _, _, _, poll, hslots, hstate, heffects, hpoll⟩
  · exact absurd (Slots.due?_eq_answer.mp h) (Slots.settle?_eq_none.mp hnone)
  · have hwent : (d.finish t f o).effects.filterMap Effect.due? = [.reset t generation] := by
      rw [heffects]
      rcases hpoll with rfl | rfl <;> rfl
    obtain ⟨-, hslot⟩ := Slots.slot?_settle? hslots
    intro x
    rw [hstate, hwent]
    refine Slots.dues_of_target t ?_ (by simp [Due.target]) (by simp [Due.target]) ?_ x
    · intro u hu
      rw [hslot, if_neg hu]
    · have hafter : slots.due? t = some (.reset t generation) := by
        rw [Slots.due?, hslot, if_pos rfl]
        rfl
      rw [h, hafter]
      exact List.Perm.swap _ _ _

theorem balanced_reset {t : Target} {generation : Nat}
    (h : d.slots.due? t = some (.reset t generation)) :
    d.Balanced [.reset t generation] { state := d.resetAction t generation } := by
  rcases d.resetAction_cases t generation with ⟨hnone, -⟩ | ⟨slots, hslots, hstate⟩
  · obtain ⟨result, hslot⟩ := Slots.due?_eq_reset.mp h
    have hsome := Slots.reset?_of_settled hslot
    rw [hnone] at hsome
    cases hsome
  · obtain ⟨-, hslot⟩ := Slots.slot?_reset? hslots
    intro x
    rw [hstate]
    refine Slots.dues_of_target t ?_ (by simp [Due.target]) (by simp) ?_ x
    · intro u hu
      rw [hslot, if_neg hu]
    · have hafter : slots.due? t = none := by
        rw [Slots.due?, hslot, if_pos rfl]
        rfl
      rw [h, hafter]
      exact List.Perm.refl _

/-- The account balances for every message that brings nothing, or what is due. -/
theorem balanced_update {message : Message}
    (h : ∀ x, message.due? = some x → d.slots.due? x.target = some x) :
    d.Balanced message.due?.toList (d.update message) := by
  cases message with
  | pollRequested => exact balanced_of_slots rfl rfl
  | jobsFetched result =>
    cases result with
    | ok jobs =>
      refine balanced_of_slots rfl (List.filterMap_eq_nil_iff.mpr ?_)
      intro effect heffect
      obtain ⟨request, -, rfl⟩ := List.mem_map.mp heffect
      rfl
    | error message => exact balanced_of_slots rfl rfl
  | discoveryStatusFetched key seq running =>
    obtain ⟨dirty, hstate, heffects⟩ := d.update_discoveryStatusFetched key seq running
    exact balanced_of_slots (by rw [hstate]) (by rw [heffects]; rfl)
  | healthChecked healthy => exact balanced_of_slots rfl rfl
  | discoveryClicked key => exact d.balanced_click (.discovery key)
  | discoveryStartFinished key outcome => exact balanced_finish (h _ rfl) _ outcome
  | triggerClicked key project => exact d.balanced_click (.renovate key project)
  | triggerFinished key project outcome => exact balanced_finish (h _ rfl) _ outcome
  | actionResetElapsed target generation => exact balanced_reset (h _ rfl)
  | toastHideElapsed id =>
    rcases d.hideToast?_cases id with h | ⟨queue, -, h⟩ <;> rw [update, h] <;>
      exact balanced_of_slots rfl rfl
  | toastRemovalElapsed id =>
    rcases d.removeToast_cases id with h | ⟨queue, -, h⟩ <;> rw [update, h] <;>
      exact balanced_of_slots rfl rfl

end Dashboard

end JobBoard
