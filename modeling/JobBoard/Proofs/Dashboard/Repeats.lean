import JobBoard.Proofs.Dashboard.Run
import JobBoard.Proofs.Toast.Stages

/-!
# Messages that come twice

A message that was handled leaves nothing to do when it comes again: a click finds its target busy,
the end of an action finds no attempt that is out, an answer is no newer than the last, a timer
finds its toast hidden or gone. Polls and listings are the exception, since every one of them
counts. Main statement: `second_delivery_changes_nothing`.
-/
namespace JobBoard

namespace Board

/-- An answer that was applied is stale from then on. -/
theorem answer_hear {b next : Board} {key : JobKey} {seq : Nat} {running changed : Bool}
    (h : b.answer key seq running = .ok (next, changed)) :
    ∃ dropped, next.answer key seq running = .error dropped := by
  have hnext : b.hear key seq running = next := by rw [hear, h]
  cases hs : b.section? key with
  | none =>
    rw [answer, hs] at h
    cases h
  | some s =>
    have hstale : seq ≤ (s.hear seq running).applied := by
      rw [Section.hear]
      split
      next hstale => exact hstale
      next => exact Nat.le_refl seq
    refine ⟨.stale key seq (s.hear seq running).applied, ?_⟩
    rw [← hnext, answer, section?_hear, hs]
    simp only [Option.map_some, if_true, if_pos hstale]

end Board

namespace ToastQueue

theorem hide?_hide? {q hidden : ToastQueue} {id : Nat} (h : q.hide? id = some hidden) :
    hidden.hide? id = none := by
  obtain ⟨-, rfl⟩ := eq_of_hide? h
  rw [hide?, get?_map_hideAt]
  cases htoast : q.get? id with
  | none => rfl
  | some toast => simp [hideAt, (mem_of_get? htoast).2]

theorem remove?_remove? {q removed : ToastQueue} {id : Nat} (h : q.remove? id = some removed) :
    removed.remove? id = none := by
  rw [eq_of_remove? h, remove?, get?_filter_ne, if_pos rfl]
  rfl

end ToastQueue

namespace Dashboard

/-- A message makes no difference: nothing changes, and nothing is asked for. -/
def Ignores (d : Dashboard) (message : Message) : Prop :=
  (d.update message).state = d ∧ (d.update message).effects = []

variable {d : Dashboard}

theorem Ignores.again {message : Message} (h : d.Ignores message) :
    (d.update message).state.Ignores message := by
  rw [h.1]
  exact h

theorem ignores_click (d : Dashboard) (t : Target) : (d.update t.click).state.Ignores t.click := by
  rcases d.click_cases t with ⟨-, hstate, heffects⟩ | ⟨-, -, slots, hslots, hstate, -⟩
  · exact Ignores.again ⟨hstate, heffects⟩
  · have hbusy : slots.phase t = .busy :=
      Slots.phase_eq_busy.mpr ⟨_, (Slots.slot?_begin? hslots t).trans (if_pos rfl)⟩
    rw [hstate]
    rcases click_cases { d with slots, dirty := true } t with ⟨-, hsame⟩ | ⟨-, hidle, -⟩
    · exact hsame
    · rw [phase, hbusy] at hidle
      cases hidle

theorem finish_finish (d : Dashboard) (t : Target) (f : Feedback) (o : Outcome) :
    ((d.finish t f o).state.finish t f o).state = (d.finish t f o).state ∧
      ((d.finish t f o).state.finish t f o).effects = [] := by
  rcases d.finish_cases t f o with
    ⟨hrefused, hstep⟩ | ⟨slots, generation, _, _, _, _, hsettle, hstate, -⟩
  · rw [hstep, hstep]
    exact ⟨rfl, rfl⟩
  · have hslot := (Slots.slot?_settle? hsettle).2 t
    rw [if_pos rfl] at hslot
    rcases finish_cases (d.finish t f o).state t f o with
      ⟨-, hstep⟩ | ⟨again, _, _, _, _, _, hagain, -⟩
    · rw [hstep]
      exact ⟨rfl, rfl⟩
    · -- A second result would need an attempt that is out, and this one has settled.
      have hout := (Slots.slot?_settle? hagain).1
      rw [hstate, hslot] at hout
      cases hout

theorem resetAction_resetAction (d : Dashboard) (t : Target) (generation : Nat) :
    (d.resetAction t generation).resetAction t generation = d.resetAction t generation := by
  rcases d.resetAction_cases t generation with ⟨-, hsame⟩ | ⟨slots, hreset, hstate⟩
  · rw [hsame, hsame]
  · rw [hstate]
    rcases resetAction_cases { d with slots, dirty := true } t generation with
      ⟨-, hsame⟩ | ⟨again, hagain, -⟩
    · exact hsame
    · obtain ⟨⟨result, hslot⟩, -⟩ := Slots.slot?_reset? hagain
      rw [(Slots.slot?_reset? hreset).2, if_pos rfl] at hslot
      cases hslot

theorem ignores_of_dropped {key : JobKey} {seq : Nat} {running : Bool} {dropped : Board.Dropped}
    (h : d.board.answer key seq running = .error dropped) :
    d.Ignores (.discoveryStatusFetched key seq running) := by
  rw [Ignores, update, applyDiscovery, h]
  exact ⟨rfl, rfl⟩

theorem ignores_discoveryStatusFetched (d : Dashboard) (key : JobKey) (seq : Nat) (running : Bool) :
    (d.update (.discoveryStatusFetched key seq running)).state.Ignores
      (.discoveryStatusFetched key seq running) := by
  cases h : d.board.answer key seq running with
  | error dropped => exact (ignores_of_dropped h).again
  | ok result =>
    obtain ⟨next, changed⟩ := result
    obtain ⟨dropped, hdropped⟩ := Board.answer_hear h
    have hagain : (d.update (.discoveryStatusFetched key seq running)).state.board.answer key seq
        running = .error dropped := by
      rw [update, applyDiscovery, h]
      exact hdropped
    exact ignores_of_dropped hagain

theorem setHealth_setHealth (d : Dashboard) (healthy : Bool) :
    (d.setHealth healthy).setHealth healthy = d.setHealth healthy := by
  simp [setHealth]

theorem ignores_of_hide? {id : Nat} (h : d.queue.hide? id = none) :
    d.Ignores (.toastHideElapsed id) := by
  rw [Ignores, update, hideToast?, h]
  exact ⟨rfl, rfl⟩

theorem ignores_toastHideElapsed (d : Dashboard) (id : Nat) :
    (d.update (.toastHideElapsed id)).state.Ignores (.toastHideElapsed id) := by
  cases h : d.queue.hide? id with
  | none => exact (ignores_of_hide? h).again
  | some hidden =>
    refine ignores_of_hide? ?_
    rw [update, hideToast?, h]
    exact ToastQueue.hide?_hide? h

theorem removeToast_removeToast (d : Dashboard) (id : Nat) :
    (d.removeToast id).removeToast id = d.removeToast id := by
  rcases d.removeToast_cases id with hsame | ⟨queue, hremove, hstate⟩
  · rw [hsame, hsame]
  · rw [hstate, removeToast, ToastQueue.remove?_remove? hremove]

/-- Whatever the state, any message but a poll and a listing does nothing when it is delivered once
more: the state stays as the first delivery left it, and no effects follow. -/
theorem second_delivery_changes_nothing (d : Dashboard) {message : Message}
    (hpoll : message ≠ .pollRequested) (hjobs : ∀ result, message ≠ .jobsFetched result) :
    ((d.update message).state.update message).state = (d.update message).state ∧
      ((d.update message).state.update message).effects = [] := by
  cases message with
  | pollRequested => exact absurd rfl hpoll
  | jobsFetched result => exact absurd rfl (hjobs result)
  | discoveryStatusFetched key seq running => exact d.ignores_discoveryStatusFetched key seq running
  | healthChecked healthy => exact ⟨d.setHealth_setHealth healthy, rfl⟩
  | discoveryClicked key => exact d.ignores_click (.discovery key)
  | discoveryStartFinished key outcome => exact d.finish_finish _ _ outcome
  | triggerClicked key project => exact d.ignores_click (.renovate key project)
  | triggerFinished key project outcome => exact d.finish_finish _ _ outcome
  | actionResetElapsed target generation =>
    exact ⟨d.resetAction_resetAction target generation, rfl⟩
  | toastHideElapsed id => exact d.ignores_toastHideElapsed id
  | toastRemovalElapsed id => exact ⟨d.removeToast_removeToast id, rfl⟩

/-- A project whose run was triggered, with the request still out. -/
def triggered : Dashboard :=
  (start {}).run
    [.jobsFetched (.ok [⟨⟨"api", "ops"⟩, [⟨"group/app", .running⟩]⟩]),
      .triggerClicked ⟨"api", "ops"⟩ "group/app"]

/-- The first delivery of a result shows a toast and sets two timers. -/
theorem second_result_changes_nothing :
    let result : Message := .triggerFinished ⟨"api", "ops"⟩ "group/app" (.rejected "quota")
    result ≠ .pollRequested ∧ (∀ listing, result ≠ .jobsFetched listing) ∧
      (triggered.update result).state.queue.toasts =
        [⟨1, .error, "Trigger failed", "quota", true⟩] ∧
      (triggered.update result).effects.length = 2 ∧
      ((triggered.update result).state.update result).state = (triggered.update result).state ∧
      ((triggered.update result).state.update result).effects = [] :=
  ⟨nofun, nofun, by decide +kernel, by decide +kernel,
    second_delivery_changes_nothing triggered nofun nofun⟩

end Dashboard

end JobBoard
