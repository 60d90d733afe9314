import JobBoard.Proofs.Board.Answers
import JobBoard.Proofs.Dashboard.Steps

/-!
# Runs of the dashboard

A run takes messages in order. Its board hears of listings and discovery answers only, so it goes
through a run of its own; the counters change with a listing only.
-/
namespace JobBoard

def Message.news? : Message → Option Board.News
  | .jobsFetched (.ok jobs) => some (.snapshot jobs)
  | .discoveryStatusFetched key seq running => some (.answer key seq running)
  | _ => none

/-- Whether a message comes from the user, from an action or from a timer, and brings nothing that
is known of the backend. -/
def Message.isLocal : Message → Bool
  | .pollRequested | .jobsFetched _ | .discoveryStatusFetched _ _ _ | .healthChecked _ => false
  | _ => true

namespace Dashboard

/-- The state after messages in order. -/
def run (d : Dashboard) (messages : List Message) : Dashboard :=
  messages.foldl (fun d message => (d.update message).state) d

@[simp] theorem run_append_singleton (d : Dashboard) (messages : List Message) (last : Message) :
    d.run (messages ++ [last]) = ((d.run messages).update last).state := by
  simp [run]

theorem run_cons (d : Dashboard) (message : Message) (messages : List Message) :
    d.run (message :: messages) = (d.update message).state.run messages :=
  rfl

/-- Clicks, ends of actions and elapsed timers touch the slots, the toasts and the dirty mark only.
-/
theorem update_of_isLocal (d : Dashboard) {message : Message} (h : message.isLocal = true) :
    ∃ slots queue dirty, (d.update message).state = { d with slots, queue, dirty } := by
  have hfinish (t : Target) (f : Feedback) (o : Outcome) :
      ∃ slots queue dirty, (d.finish t f o).state = { d with slots, queue, dirty } := by
    rcases d.finish_cases t f o with ⟨-, h⟩ | ⟨_, _, _, _, _, _, -, h, -⟩ <;> rw [h] <;>
      exact ⟨_, _, _, rfl⟩
  have hclick (t : Target) :
      ∃ slots queue dirty, (d.update t.click).state = { d with slots, queue, dirty } := by
    rcases d.click_cases t with ⟨-, h, -⟩ | ⟨-, -, _, -, h, -⟩ <;> rw [h] <;>
      exact ⟨_, _, _, rfl⟩
  cases message with
  | pollRequested => cases h
  | jobsFetched result => cases h
  | discoveryStatusFetched key seq running => cases h
  | healthChecked healthy => cases h
  | discoveryClicked key => exact hclick (.discovery key)
  | discoveryStartFinished key outcome => exact hfinish _ _ _
  | triggerClicked key project => exact hclick (.renovate key project)
  | triggerFinished key project outcome => exact hfinish _ _ _
  | actionResetElapsed target generation =>
    rcases d.resetAction_cases target generation with ⟨-, h⟩ | ⟨_, -, h⟩ <;>
      rw [update, h] <;> exact ⟨_, _, _, rfl⟩
  | toastHideElapsed id =>
    rcases d.hideToast?_cases id with h | ⟨_, -, h⟩ <;> rw [update, h] <;> exact ⟨_, _, _, rfl⟩
  | toastRemovalElapsed id =>
    rcases d.removeToast_cases id with h | ⟨_, -, h⟩ <;> rw [update, h] <;> exact ⟨_, _, _, rfl⟩

theorem update_of_news?_eq_none (d : Dashboard) {message : Message} (h : message.news? = none) :
    (d.update message).state.board = d.board ∧ (d.update message).state.stats = d.stats := by
  cases hlocal : message.isLocal with
  | true =>
    obtain ⟨slots, queue, dirty, hstate⟩ := d.update_of_isLocal hlocal
    rw [hstate]
    exact ⟨rfl, rfl⟩
  | false =>
    cases message with
    | pollRequested => exact ⟨rfl, rfl⟩
    | jobsFetched result =>
      cases result with
      | ok jobs => cases h
      | error message => exact ⟨rfl, rfl⟩
    | discoveryStatusFetched key seq running => cases h
    | healthChecked healthy => exact ⟨rfl, rfl⟩
    | _ => cases hlocal

theorem update_discoveryStatusFetched (d : Dashboard) (key : JobKey) (seq : Nat) (running : Bool) :
    ∃ dirty, (d.update (.discoveryStatusFetched key seq running)).state =
        { d with board := d.board.hear key seq running, dirty } ∧
      (d.update (.discoveryStatusFetched key seq running)).effects = [] := by
  rw [update, applyDiscovery, Board.hear]
  cases d.board.answer key seq running with
  | ok result => exact ⟨_, rfl, rfl⟩
  | error dropped => exact ⟨_, rfl, rfl⟩

theorem board_update (d : Dashboard) (message : Message) :
    (d.update message).state.board = message.news?.elim d.board d.board.tell := by
  cases hnews : message.news? with
  | none => exact (d.update_of_news?_eq_none hnews).1
  | some news =>
    cases message with
    | jobsFetched result =>
      cases result with
      | ok jobs =>
        cases hnews
        rfl
      | error message => cases hnews
    | discoveryStatusFetched key seq running =>
      cases hnews
      obtain ⟨dirty, hstate, -⟩ := d.update_discoveryStatusFetched key seq running
      rw [hstate]
      rfl
    | _ => cases hnews

/-- From the start the board hears the news among the messages. -/
theorem board_run_start (timings : Timings) (messages : List Message) :
    ((start timings).run messages).board = Board.run (messages.filterMap Message.news?) := by
  induction messages using List.reverseRecOn with
  | nil => rfl
  | append_singleton messages last ih =>
    rw [run_append_singleton, board_update, ih, List.filterMap_append]
    cases hnews : last.news? with
    | none => simp [hnews]
    | some news => simp [hnews]

/-- In every state that a run reaches, no two sections have the same key. -/
theorem nodup_keys_run_start (timings : Timings) (messages : List Message) :
    ((start timings).run messages).board.keys.Nodup := by
  rw [board_run_start]
  exact Board.nodup_keys_run _

end Dashboard

end JobBoard
