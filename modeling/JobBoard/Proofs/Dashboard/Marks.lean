import JobBoard.Dashboard.View
import JobBoard.Proofs.Dashboard.Run

/-!
# The dirty mark

A message that changes what can be seen marks the state. The number of polls is the one thing that
is shown and changes without a mark. An answer about discovery that says what is displayed already
leaves no mark either; all it changes is a number that nobody sees.
-/
namespace JobBoard

def Section.unnumbered (s : Section) : Section :=
  { s with applied := 0 }

/-- An answer that does not change the display changes the number of one section only. -/
theorem Board.unnumbered_answer {b next : Board} (hb : b.keys.Nodup) {key : JobKey} {seq : Nat}
    {running : Bool} (h : b.answer key seq running = .ok (next, false)) :
    next.sections.map Section.unnumbered = b.sections.map Section.unnumbered := by
  unfold answer at h
  split at h
  next => cases h
  next s hs =>
    split at h
    next => cases h
    next =>
      simp only [Except.ok.injEq, Prod.mk.injEq] at h
      obtain ⟨rfl, hsame⟩ := h
      have hdiscovery : s.discovery = answered running := by simpa using hsame
      rw [List.map_map]
      apply List.map_congr_left
      intro t ht
      by_cases hkey : t.key = key
      · have hst : some t = some s := by
          rw [← section?_of_mem hb ht, hkey, hs]
        cases hst
        simp [Section.unnumbered, hkey, hdiscovery]
      · simp [hkey]

namespace Dashboard

theorem sections_view (d : Dashboard) :
    d.view.sections = (d.board.sections.map Section.unnumbered).map d.sectionView := by
  rw [List.map_map]
  rfl

/-- A click, the end of an action or an elapsed timer leaves the state as it is or marks it. -/
theorem update_eq_or_dirty (d : Dashboard) {message : Message} (h : message.isLocal = true) :
    (d.update message).state = d ∨ (d.update message).state.dirty = true := by
  have hfinish (t : Target) (f : Feedback) (o : Outcome) :
      (d.finish t f o).state = d ∨ (d.finish t f o).state.dirty = true := by
    rcases d.finish_cases t f o with ⟨-, h⟩ | ⟨_, _, _, _, _, _, -, h, -⟩
    · exact Or.inl (by rw [h])
    · exact Or.inr (by rw [h])
  have hclick (t : Target) :
      (d.update t.click).state = d ∨ (d.update t.click).state.dirty = true := by
    rcases d.click_cases t with ⟨-, h, -⟩ | ⟨-, -, _, -, h, -⟩
    · exact Or.inl h
    · exact Or.inr (by rw [h])
  cases message with
  | pollRequested => cases h
  | jobsFetched result => cases h
  | discoveryStatusFetched key seq running => cases h
  | healthChecked healthy => cases h
  | discoveryClicked key => exact hclick (.discovery key)
  | discoveryStartFinished key outcome => exact hfinish _ _ _
  | triggerClicked key project => exact hclick (.renovate key project)
  | triggerFinished key project outcome => exact hfinish _ _ _
  | actionResetElapsed target generation =>
    rw [update]
    rcases d.resetAction_cases target generation with ⟨-, h⟩ | ⟨_, -, h⟩
    · exact Or.inl h
    · exact Or.inr (by rw [h])
  | toastHideElapsed id =>
    rw [update]
    rcases d.hideToast?_cases id with h | ⟨_, -, h⟩
    · exact Or.inl (by rw [h])
    · exact Or.inr (by rw [h])
  | toastRemovalElapsed id =>
    rw [update]
    rcases d.removeToast_cases id with h | ⟨_, -, h⟩
    · exact Or.inl h
    · exact Or.inr (by rw [h])

theorem view_discoveryStatusFetched {d : Dashboard} (hd : d.board.keys.Nodup) {key : JobKey}
    {seq : Nat} {running : Bool}
    (h : (d.update (.discoveryStatusFetched key seq running)).state.dirty = false) :
    (d.update (.discoveryStatusFetched key seq running)).state.view = d.view := by
  rw [update, applyDiscovery] at h ⊢
  cases hanswer : d.board.answer key seq running with
  | error dropped => rfl
  | ok result =>
    obtain ⟨next, changed⟩ := result
    rw [hanswer] at h
    have hchanged : changed = false := (Bool.or_eq_false_iff.mp h).2
    subst changed
    have hsections : { d with board := next, dirty := d.dirty || false }.view.sections =
        d.view.sections := by
      rw [sections_view, sections_view, Board.unnumbered_answer hd hanswer]
      rfl
    exact congrArg (fun sections => { d.view with sections }) hsections

/-- A message that leaves no mark leaves all that can be seen but the number of polls. -/
theorem view_update_of_clean {d : Dashboard} (hd : d.board.keys.Nodup) {message : Message}
    (h : (d.update message).state.dirty = false) :
    (d.update message).state.view =
      { d.view with pollCount := (d.update message).state.pollCount } := by
  cases hlocal : message.isLocal with
  | true =>
    rcases d.update_eq_or_dirty hlocal with hsame | hdirty
    · rw [hsame]
      rfl
    · rw [hdirty] at h
      cases h
  | false =>
    cases message with
    | pollRequested => rfl
    | jobsFetched result => cases result <;> cases h
    | discoveryStatusFetched key seq running =>
      obtain ⟨dirty, hstate, -⟩ := d.update_discoveryStatusFetched key seq running
      rw [view_discoveryStatusFetched hd h, hstate]
      rfl
    | healthChecked healthy =>
      have hhealth : d.health = .ofBool healthy := by
        simpa using (Bool.or_eq_false_iff.mp h).2
      rw [update, setHealth, ← hhealth]
      rfl
    | _ => cases hlocal

theorem pollCount_le_update (d : Dashboard) (message : Message) :
    d.pollCount ≤ (d.update message).state.pollCount := by
  cases hlocal : message.isLocal with
  | true =>
    obtain ⟨slots, queue, dirty, hstate⟩ := d.update_of_isLocal hlocal
    exact Nat.le_of_eq (congrArg Dashboard.pollCount hstate).symm
  | false =>
    cases message with
    | pollRequested => exact Nat.le_succ d.pollCount
    | jobsFetched result => cases result <;> exact Nat.le_refl d.pollCount
    | discoveryStatusFetched key seq running =>
      obtain ⟨dirty, hstate, -⟩ := d.update_discoveryStatusFetched key seq running
      exact Nat.le_of_eq (congrArg Dashboard.pollCount hstate).symm
    | healthChecked healthy => exact Nat.le_refl d.pollCount
    | _ => cases hlocal

theorem nodup_keys_update {d : Dashboard} (hd : d.board.keys.Nodup) (message : Message) :
    (d.update message).state.board.keys.Nodup := by
  rw [board_update]
  cases message.news? with
  | none => exact hd
  | some news => exact Board.nodup_keys_tell hd news

end Dashboard

end JobBoard
