import JobBoard.Dashboard.Update
import JobBoard.Proofs.Action.Slots

/-!
# What a message can do

One inversion lemma for each message that has a choice: which parts of the state it changes, and
which effects it asks for. Proofs about runs cite these and never open the update function itself.
-/
namespace JobBoard

/-- The message of a click on the control of a target. -/
def Target.click : Target → Message
  | .discovery key => .discoveryClicked key
  | .renovate key project => .triggerClicked key project

/-- The effect that requests the action. -/
def Target.request : Target → Effect
  | .discovery key => .startDiscovery key
  | .renovate key project => .triggerRenovate key project

namespace Dashboard

theorem beginAction?_eq_some {d begun : Dashboard} {t : Target}
    (h : d.beginAction? t = some begun) :
    d.phase t = .idle ∧
      ∃ slots, d.slots.begin? t = some slots ∧ begun = { d with slots, dirty := true } := by
  unfold beginAction? at h
  split at h
  next hidle =>
    obtain ⟨slots, hslots, rfl⟩ := Option.map_eq_some_iff.mp h
    exact ⟨hidle, slots, hslots, rfl⟩
  next => cases h

theorem beginAction?_eq_none {d : Dashboard} {t : Target} :
    d.beginAction? t = none ↔ d.phase t ≠ .idle := by
  unfold beginAction?
  split
  next hidle =>
    have hbusy : d.slots.phase t ≠ .busy := by
      intro hbusy
      rw [phase, hbusy] at hidle
      cases hidle
    obtain ⟨slots, hslots⟩ := Option.isSome_iff_exists.mp (Slots.isSome_begin? hbusy)
    simp [hslots, hidle]
  next hidle => simp [hidle]

/-- The board has what the action acts on, and its discovery does not run yet. -/
def CanStart (d : Dashboard) : Target → Prop
  | .discovery key => ∃ s, d.section? key = some s ∧ s.discovery ≠ .running
  | .renovate key project => ∃ s, d.section? key = some s ∧ s.hasProject project = true

theorem clickDiscovery_cases (d : Dashboard) (key : JobKey) :
    (¬(d.CanStart (.discovery key) ∧ d.phase (.discovery key) = .idle) ∧
      (d.clickDiscovery key).state = d ∧ (d.clickDiscovery key).effects = []) ∨
    (d.CanStart (.discovery key) ∧ d.phase (.discovery key) = .idle ∧
      ∃ slots, d.slots.begin? (.discovery key) = some slots ∧
        (d.clickDiscovery key).state = { d with slots, dirty := true } ∧
        (d.clickDiscovery key).effects = [.startDiscovery key]) := by
  rw [clickDiscovery, CanStart]
  cases hs : d.section? key with
  | none => exact Or.inl ⟨by simp, rfl, rfl⟩
  | some s =>
    by_cases hrunning : s.discovery = .running
    · simp only [if_pos hrunning]
      exact Or.inl ⟨by simp [hrunning], trivial, trivial⟩
    · simp only [if_neg hrunning]
      cases hbegin : d.beginAction? (.discovery key) with
      | none => exact Or.inl ⟨fun h => beginAction?_eq_none.mp hbegin h.2, rfl, rfl⟩
      | some begun =>
        obtain ⟨hidle, slots, hslots, rfl⟩ := beginAction?_eq_some hbegin
        exact Or.inr ⟨⟨s, rfl, hrunning⟩, hidle, slots, hslots, rfl, rfl⟩

theorem clickTrigger_cases (d : Dashboard) (key : JobKey) (project : String) :
    (¬(d.CanStart (.renovate key project) ∧ d.phase (.renovate key project) = .idle) ∧
      (d.clickTrigger key project).state = d ∧ (d.clickTrigger key project).effects = []) ∨
    (d.CanStart (.renovate key project) ∧ d.phase (.renovate key project) = .idle ∧
      ∃ slots, d.slots.begin? (.renovate key project) = some slots ∧
        (d.clickTrigger key project).state = { d with slots, dirty := true } ∧
        (d.clickTrigger key project).effects = [.triggerRenovate key project]) := by
  unfold clickTrigger
  have hcan : (d.section? key).any (·.hasProject project) = true ↔
      d.CanStart (.renovate key project) :=
    Option.any_eq_true _ _
  by_cases hknown : (d.section? key).any (·.hasProject project) = true
  · simp only [if_pos hknown]
    cases hbegin : d.beginAction? (.renovate key project) with
    | none => exact Or.inl ⟨fun h => beginAction?_eq_none.mp hbegin h.2, rfl, rfl⟩
    | some begun =>
      obtain ⟨hidle, slots, hslots, rfl⟩ := beginAction?_eq_some hbegin
      exact Or.inr ⟨hcan.mp hknown, hidle, slots, hslots, rfl, rfl⟩
  · simp only [if_neg hknown]
    exact Or.inl ⟨fun h => hknown (hcan.mpr h.1), trivial, trivial⟩

/-- A click is dropped, or starts an action from idle. -/
theorem click_cases (d : Dashboard) (t : Target) :
    (¬(d.CanStart t ∧ d.phase t = .idle) ∧
      (d.update t.click).state = d ∧ (d.update t.click).effects = []) ∨
    (d.CanStart t ∧ d.phase t = .idle ∧ ∃ slots, d.slots.begin? t = some slots ∧
      (d.update t.click).state = { d with slots, dirty := true } ∧
      (d.update t.click).effects = [t.request]) := by
  cases t with
  | discovery key => exact d.clickDiscovery_cases key
  | renovate key project => exact d.clickTrigger_cases key project

theorem report_cases (d : Dashboard) (f : Feedback) (o : Outcome) :
    ∃ kind title message poll, (d.report f o).state =
        { d with queue := (d.queue.enqueue kind title (some message)).1, dirty := true } ∧
      (d.report f o).effects =
        .schedule (.toastHide (d.queue.issued + 1)) d.timings.toastVisible :: poll ∧
      (poll = [] ∨ poll = [.schedule .poll d.timings.followUp]) := by
  cases o with
  | accepted => exact ⟨_, _, _, _, rfl, rfl, Or.inr rfl⟩
  | rejected message => exact ⟨_, _, _, _, rfl, rfl, Or.inl rfl⟩
  | transport message => exact ⟨_, _, _, _, rfl, rfl, Or.inl rfl⟩

/-- The end of an action finds no attempt that is out, or settles it and tells the user. -/
theorem finish_cases (d : Dashboard) (t : Target) (f : Feedback) (o : Outcome) :
    (d.slots.settle? t o = none ∧ d.finish t f o = { state := d }) ∨
    ∃ slots generation kind title message poll,
      d.slots.settle? t o = some (slots, generation) ∧
      (d.finish t f o).state =
        { d with
          slots, queue := (d.queue.enqueue kind title (some message)).1, dirty := true } ∧
      (d.finish t f o).effects =
        .schedule (.actionReset t generation) d.timings.actionReset ::
          .schedule (.toastHide (d.queue.issued + 1)) d.timings.toastVisible :: poll ∧
      (poll = [] ∨ poll = [.schedule .poll d.timings.followUp]) := by
  unfold finish settleAction?
  cases hsettle : d.slots.settle? t o with
  | none => exact Or.inl ⟨rfl, rfl⟩
  | some settled =>
    obtain ⟨slots, generation⟩ := settled
    obtain ⟨kind, title, message, poll, hstate, heffects, hpoll⟩ :=
      { d with slots, dirty := true }.report_cases f o
    refine Or.inr ⟨slots, generation, kind, title, message, poll, rfl, hstate, ?_, hpoll⟩
    exact congrArg (_ :: ·) heffects

theorem resetAction_cases (d : Dashboard) (t : Target) (generation : Nat) :
    (d.slots.reset? t generation = none ∧ d.resetAction t generation = d) ∨
      ∃ slots, d.slots.reset? t generation = some slots ∧
        d.resetAction t generation = { d with slots, dirty := true } := by
  unfold resetAction
  cases h : d.slots.reset? t generation with
  | none => exact Or.inl ⟨rfl, rfl⟩
  | some slots => exact Or.inr ⟨slots, rfl, rfl⟩

theorem hideToast?_cases (d : Dashboard) (id : Nat) :
    d.hideToast? id = none ∨ ∃ queue, d.queue.hide? id = some queue ∧
      d.hideToast? id =
        some ({ d with queue, dirty := true },
          .schedule (.toastRemoval id) d.timings.toastFade) := by
  unfold hideToast?
  cases h : d.queue.hide? id with
  | none => exact Or.inl rfl
  | some queue => exact Or.inr ⟨queue, rfl, rfl⟩

theorem removeToast_cases (d : Dashboard) (id : Nat) :
    d.removeToast id = d ∨ ∃ queue, d.queue.remove? id = some queue ∧
      d.removeToast id = { d with queue, dirty := true } := by
  unfold removeToast
  cases h : d.queue.remove? id with
  | none => exact Or.inl rfl
  | some queue => exact Or.inr ⟨queue, rfl, rfl⟩

end Dashboard

end JobBoard
