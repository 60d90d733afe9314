import JobBoard.Proofs.Dashboard.Toasts

/-!
# A listing that does not arrive

A failed fetch is told by a toast and remembered as the last error, and nothing else ever depends on
either. So a run and the same run without its failed fetches agree in everything but toasts, the
last error and the dirty mark.
-/
namespace JobBoard

def Message.fetched? : Message → Option (Except String (List Job))
  | .jobsFetched result => some result
  | _ => none

def fetchError? : Except String (List Job) → Option String
  | .ok _ => none
  | .error reason => some reason

theorem fetchError?_eq_some {result : Except String (List Job)} {reason : String} :
    fetchError? result = some reason ↔ result = .error reason := by
  cases result <;> simp [fetchError?]

def Message.isFailedFetch : Message → Bool
  | .jobsFetched (.error _) => true
  | _ => false

/-- The effects that are not timers of toasts. -/
def Effect.besidesToasts (effects : List Effect) : List Effect :=
  effects.filter (·.toast?.isNone)

namespace Dashboard

/-- The state without its toasts, the last error and the dirty mark. -/
def muted (d : Dashboard) : Dashboard :=
  { d with queue := {}, lastError := none, dirty := false }

/-- Two steps that differ in toasts, the last error and the dirty mark only. -/
structure Alike (s t : Step) : Prop where
  state : s.state.muted = t.state.muted
  effects : Effect.besidesToasts s.effects = Effect.besidesToasts t.effects

theorem Alike.symm {s t : Step} (h : Alike s t) : Alike t s :=
  ⟨h.state.symm, h.effects.symm⟩

theorem Alike.trans {s t u : Step} (hst : Alike s t) (htu : Alike t u) : Alike s u :=
  ⟨hst.state.trans htu.state, hst.effects.trans htu.effects⟩

theorem alike_click (d : Dashboard) (t : Target) :
    Alike (d.update t.click) (d.muted.update t.click) := by
  have hcan : d.muted.CanStart t ↔ d.CanStart t := by
    cases t <;> rfl
  -- What decides about a click is not muted, so both are refused or both start the action.
  rcases d.click_cases t with ⟨hrefused, hstate, heffects⟩ |
    ⟨hstart, hidle, slots, hslots, hstate, heffects⟩ <;>
  rcases d.muted.click_cases t with ⟨hrefused', hstate', heffects'⟩ |
    ⟨hstart', hidle', slots', hslots', hstate', heffects'⟩
  · exact ⟨by rw [hstate, hstate']; rfl, by rw [heffects, heffects']⟩
  · exact absurd ⟨hcan.mp hstart', hidle'⟩ hrefused
  · exact absurd ⟨hcan.mpr hstart, hidle⟩ hrefused'
  · have hsame : slots = slots' := Option.some.inj (hslots.symm.trans hslots')
    exact ⟨by rw [hstate, hstate', hsame]; rfl, by rw [heffects, heffects']⟩

theorem alike_report (d : Dashboard) (f : Feedback) (o : Outcome) :
    Alike (d.report f o) (d.muted.report f o) := by
  cases o <;> exact ⟨rfl, rfl⟩

theorem alike_finish (d : Dashboard) (t : Target) (f : Feedback) (o : Outcome) :
    Alike (d.finish t f o) (d.muted.finish t f o) := by
  unfold finish settleAction?
  rw [show d.muted.slots = d.slots from rfl]
  cases d.slots.settle? t o with
  | none => exact ⟨rfl, rfl⟩
  | some settled =>
    obtain ⟨slots, generation⟩ := settled
    have htold := ({ d with slots, dirty := true } : Dashboard).alike_report f o
    have hmuted := ({ d.muted with slots, dirty := true } : Dashboard).alike_report f o
    have halike := htold.trans hmuted.symm
    exact ⟨halike.state, congrArg (_ :: ·) halike.effects⟩

/-- No message leads to anything else where the toasts, the last error or the dirty mark are others.
-/
theorem alike_update (d : Dashboard) (message : Message) :
    Alike (d.update message) (d.muted.update message) := by
  cases message with
  | pollRequested => exact ⟨rfl, rfl⟩
  | jobsFetched result => cases result <;> exact ⟨rfl, rfl⟩
  | discoveryStatusFetched key seq running =>
    obtain ⟨dirty, hstate, heffects⟩ := d.update_discoveryStatusFetched key seq running
    obtain ⟨dirty', hstate', heffects'⟩ := d.muted.update_discoveryStatusFetched key seq running
    exact ⟨by rw [hstate, hstate']; rfl, by rw [heffects, heffects']⟩
  | healthChecked healthy => exact ⟨rfl, rfl⟩
  | discoveryClicked key => exact d.alike_click (.discovery key)
  | discoveryStartFinished key outcome => exact d.alike_finish _ _ outcome
  | triggerClicked key project => exact d.alike_click (.renovate key project)
  | triggerFinished key project outcome => exact d.alike_finish _ _ outcome
  | actionResetElapsed target generation =>
    rw [update, update, resetAction, resetAction, show d.muted.slots = d.slots from rfl]
    cases d.slots.reset? target generation <;> exact ⟨rfl, rfl⟩
  | toastHideElapsed id =>
    rcases d.hideToast?_cases id with h | ⟨queue, -, h⟩ <;> rw [update, update, h] <;>
      exact ⟨rfl, rfl⟩
  | toastRemovalElapsed id =>
    rcases d.removeToast_cases id with h | ⟨queue, -, h⟩ <;> rw [update, update, h] <;>
      exact ⟨rfl, rfl⟩

theorem alike_of_muted_eq {d e : Dashboard} (h : d.muted = e.muted) (message : Message) :
    Alike (d.update message) (e.update message) :=
  (d.alike_update message).trans (h ▸ (e.alike_update message).symm)

/-- What a failed fetch does can only be seen in the toasts, the last error and the dirty mark. -/
theorem muted_update_of_isFailedFetch (d : Dashboard) {message : Message}
    (h : message.isFailedFetch = true) : (d.update message).state.muted = d.muted := by
  cases message with
  | jobsFetched result =>
    cases result with
    | ok jobs => cases h
    | error message => rfl
  | _ => cases h

/-- The messages of a run, each with the effects it leads to. -/
def trace (d : Dashboard) : List Message → List (Message × List Effect)
  | [] => []
  | message :: messages =>
    (message, (d.update message).effects) :: (d.update message).state.trace messages

/-- What happens at the messages other than failed fetches, apart from the timers of toasts. -/
def heard (steps : List (Message × List Effect)) : List (Message × List Effect) :=
  (steps.filter (!·.1.isFailedFetch)).map fun step => (step.1, Effect.besidesToasts step.2)

/-- From states that differ in toasts, the last error and the dirty mark only, a run and the same
run without failed fetches lead to such states again, and to the same effects. -/
theorem run_filter_isFailedFetch {d e : Dashboard} (h : d.muted = e.muted)
    (messages : List Message) :
    (d.run messages).muted = (e.run (messages.filter (!·.isFailedFetch))).muted ∧
      heard (d.trace messages) = heard (e.trace (messages.filter (!·.isFailedFetch))) := by
  induction messages generalizing d e with
  | nil => exact ⟨h, rfl⟩
  | cons message messages ih =>
    cases hfailed : message.isFailedFetch with
    | true =>
      -- Only the run with the failed fetch moves, and what it changes is muted.
      have hmuted := (d.muted_update_of_isFailedFetch hfailed).trans h
      obtain ⟨hrun, htrace⟩ := ih hmuted
      rw [List.filter_cons_of_neg (by simp [hfailed]), run_cons, trace, heard,
        List.filter_cons_of_neg (by simp [hfailed])]
      exact ⟨hrun, htrace⟩
    | false =>
      have halike := alike_of_muted_eq h message
      obtain ⟨hrun, htrace⟩ := ih halike.state
      rw [List.filter_cons_of_pos (by simp [hfailed]), run_cons, run_cons, trace, trace, heard,
        heard, List.filter_cons_of_pos (by simp [hfailed]),
        List.filter_cons_of_pos (by simp [hfailed]), List.map_cons, List.map_cons, halike.effects]
      exact ⟨hrun, congrArg (_ :: ·) htrace⟩

theorem lastError_update (d : Dashboard) (message : Message) :
    (d.update message).state.lastError = message.fetched?.elim d.lastError fetchError? := by
  cases hlocal : message.isLocal with
  | true =>
    obtain ⟨slots, queue, dirty, hstate⟩ := d.update_of_isLocal hlocal
    rw [hstate]
    cases message with
    | jobsFetched result => cases hlocal
    | _ => rfl
  | false =>
    cases message with
    | pollRequested => rfl
    | jobsFetched result => cases result <;> rfl
    | discoveryStatusFetched key seq running =>
      obtain ⟨dirty, hstate, -⟩ := d.update_discoveryStatusFetched key seq running
      rw [hstate]
      rfl
    | healthChecked healthy => rfl
    | _ => cases hlocal

/-- The last fetch of a run decides the last error. -/
theorem lastError_run (d : Dashboard) (messages : List Message) :
    (d.run messages).lastError =
      (messages.filterMap Message.fetched?).getLast?.elim d.lastError fetchError? := by
  induction messages using List.reverseRecOn with
  | nil => rfl
  | append_singleton messages last ih =>
    rw [run_append_singleton, lastError_update, ih, Lists.filterMap_append_singleton]
    cases last.fetched? with
    | none => simp
    | some result => simp

/-- Failed fetches are isolated: without them a run ends with the same sections, statistics, slots,
health and number of polls, and has the same effects at all other messages, timers of toasts apart.
Each failed fetch adds one toast that tells of it and has one effect, the timer that hides the
toast. The last fetch decides whether an error is remembered. -/
theorem failed_fetches_are_isolated (d : Dashboard) (messages : List Message) :
    let full := d.run messages
    let erased := d.run (messages.filter (!·.isFailedFetch))
    full.board.sections = erased.board.sections ∧ full.stats = erased.stats ∧
      full.slots = erased.slots ∧ full.health = erased.health ∧
      full.pollCount = erased.pollCount ∧
      heard (d.trace messages) = heard (d.trace (messages.filter (!·.isFailedFetch))) ∧
      (∀ before reason after, messages = before ++ .jobsFetched (.error reason) :: after →
        let reached := d.run before
        let step := reached.update (.jobsFetched (.error reason))
        ∃ toast : Toast, step.state.queue.toasts = reached.queue.toasts ++ [toast] ∧
          toast.visible = true ∧ toast.kind = .error ∧ toast.message = reason ∧
          step.effects = [.schedule (.toastHide toast.id) reached.timings.toastVisible]) ∧
      (messages.filterMap Message.fetched? = [] → full.lastError = d.lastError) ∧
      ∀ result, (messages.filterMap Message.fetched?).getLast? = some result →
        ∀ reason, full.lastError = some reason ↔ result = .error reason := by
  intro full erased
  obtain ⟨hmuted, htrace⟩ := run_filter_isFailedFetch (rfl : d.muted = d.muted) messages
  refine ⟨congrArg (·.board.sections) hmuted, congrArg (·.stats) hmuted,
    congrArg (·.slots) hmuted, congrArg (·.health) hmuted, congrArg (·.pollCount) hmuted, htrace,
    ?_, ?_, ?_⟩
  · intro before reason after _
    exact ⟨_, rfl, rfl, rfl, rfl, rfl⟩
  · intro hnone
    rw [lastError_run, hnone]
    rfl
  · intro result hlast reason
    rw [lastError_run, hlast]
    exact fetchError?_eq_some

end Dashboard

end JobBoard
