import JobBoard.Proofs.Dashboard.Marks
import JobBoard.Terminal.Console

/-!
# What is on the screen

The console draws a picture when it starts and whenever an input leaves the state marked, and every
input that changes something visible leaves such a mark. So the last picture drawn is always the
picture of the present state, up to a number of polls that may have grown since. Main statement:
`screen_is_never_stale`.
-/
namespace JobBoard.Terminal

open Backend (BaseUrl Event)

/-- An input that only shows a text under the dashboard. -/
def Input.OnlyTells : Input → Prop
  | .notice _ => True
  | .instruction .help => True
  | .instruction (.logs _ _) => True
  | _ => False

/-- The last picture once an input is handled, `p` being the last before. -/
def Handled.lastPicture (h : Handled) (p : Picture) : Picture :=
  if h.redraw then h.console.picture else p

def Console.Run.lastPicture (r : Console.Run) (p : Picture) : Picture :=
  r.pictures.getLast?.getD p

namespace Console

/-- A picture shows the console as it is, but for polls that were counted since. -/
structure IsShownBy (c : Console) (p : Picture) : Prop where
  notice : p.notice = c.notice
  view : p.view = { c.dashboard.view with pollCount := p.view.pollCount }
  pollCount_le : p.view.pollCount ≤ c.dashboard.pollCount

theorem isShownBy_picture (c : Console) : c.IsShownBy c.picture where
  notice := rfl
  view := rfl
  pollCount_le := Nat.le_refl _

variable {c : Console} {p : Picture}

/-- An input shows nothing new, shows a text under the dashboard, or updates the dashboard by a
message. -/
theorem handle_cases (c : Console) (input : Input) :
    ((c.handle input).console.dashboard = c.dashboard ∧
      (c.handle input).console.notice = c.notice ∧ (c.handle input).redraw = false) ∨
    ((c.handle input).console.dashboard = c.dashboard ∧ (c.handle input).redraw = true) ∨
    ∃ message, (c.handle input).console.dashboard =
        { (c.dashboard.update message).state with dirty := false } ∧
      (c.handle input).console.notice = c.notice ∧
      (c.handle input).redraw = (c.dashboard.update message).state.dirty := by
  cases input with
  | event event =>
    simp only [handle, receive]
    cases (c.timers.message event).message with
    | none => exact Or.inl ⟨rfl, rfl, rfl⟩
    | some message => exact Or.inr (Or.inr ⟨message, rfl, rfl, rfl⟩)
  | message message => exact Or.inr (Or.inr ⟨message, rfl, rfl, rfl⟩)
  | instruction instruction =>
    cases instruction with
    | refresh => exact Or.inr (Or.inr ⟨.pollRequested, rfl, rfl, rfl⟩)
    | discover job => exact Or.inr (Or.inr ⟨.discoveryClicked job, rfl, rfl, rfl⟩)
    | trigger job project => exact Or.inr (Or.inr ⟨.triggerClicked job project, rfl, rfl, rfl⟩)
    | logs job project => exact Or.inr (Or.inl ⟨rfl, rfl⟩)
    | help => exact Or.inr (Or.inl ⟨rfl, rfl⟩)
    | quit => exact Or.inl ⟨rfl, rfl, rfl⟩
  | notice text => exact Or.inr (Or.inl ⟨rfl, rfl⟩)
  | quit => exact Or.inl ⟨rfl, rfl, rfl⟩

theorem nodup_keys_handle (hc : c.dashboard.board.keys.Nodup) (input : Input) :
    (c.handle input).console.dashboard.board.keys.Nodup := by
  rcases c.handle_cases input with ⟨hsame, -, -⟩ | ⟨hsame, -⟩ | ⟨message, hupdated, -, -⟩
  · rw [hsame]
    exact hc
  · rw [hsame]
    exact hc
  · rw [hupdated]
    exact Dashboard.nodup_keys_update hc message

/-- If the last picture shows the console, it does so again after an input. -/
theorem isShownBy_handle (hc : c.dashboard.board.keys.Nodup) (h : c.IsShownBy p)
    (input : Input) : (c.handle input).console.IsShownBy ((c.handle input).lastPicture p) := by
  unfold Handled.lastPicture
  cases hredraw : (c.handle input).redraw with
  | true => exact isShownBy_picture _
  | false =>
    rcases c.handle_cases input with ⟨hsame, hnotice, -⟩ | ⟨-, htrue⟩ |
      ⟨message, hupdated, hnotice, hdirty⟩
    · exact ⟨hnotice ▸ h.notice, hsame ▸ h.view, hsame ▸ h.pollCount_le⟩
    · rw [hredraw] at htrue
      cases htrue
    · -- No mark was left, so the view is the one that `p` shows, with perhaps more polls.
      rw [hredraw] at hdirty
      have hview := Dashboard.view_update_of_clean hc hdirty.symm
      constructor
      · exact h.notice.trans hnotice.symm
      · rw [hupdated]
        change p.view = { (c.dashboard.update message).state.view with
          pollCount := p.view.pollCount }
        rw [hview]
        exact h.view
      · rw [hupdated]
        exact Nat.le_trans h.pollCount_le (c.dashboard.pollCount_le_update message)

theorem run_cons (c : Console) {input : Input} (h : input ≠ .quit) (inputs : List Input) :
    c.run (input :: inputs) =
      let handled := c.handle input
      let after := handled.console.run inputs
      { after with
        pictures := (if handled.redraw then [handled.console.picture] else []) ++ after.pictures
        commands := handled.commands ++ after.commands
        log := Log.lines handled.console.cycle handled.log ++ after.log } := by
  cases input with
  | quit => exact absurd rfl h
  | _ => rfl

theorem isShownBy_run (hc : c.dashboard.board.keys.Nodup) (h : c.IsShownBy p)
    (inputs : List Input) :
    (c.run inputs).console.IsShownBy ((c.run inputs).lastPicture p) := by
  induction inputs generalizing c p with
  | nil => exact h
  | cons input inputs ih =>
    by_cases hquit : input = .quit
    · subst input
      exact h
    · have hnext := ih (nodup_keys_handle hc input) (isShownBy_handle hc h input)
      rw [c.run_cons hquit]
      simp only [Run.lastPicture, Handled.lastPicture, List.getLast?_append] at hnext ⊢
      cases hredraw : (c.handle input).redraw with
      | true => simpa [hredraw] using hnext
      | false => simpa [hredraw] using hnext

theorem handle_of_onlyTells (c : Console) {input : Input} (h : input.OnlyTells) :
    ∃ text, c.handle input = { console := { c with notice := some text }, redraw := true } := by
  cases input with
  | notice text => exact ⟨text, rfl⟩
  | instruction instruction =>
    cases instruction with
    | logs job project => exact ⟨(c.base.logs job project).text, rfl⟩
    | help => exact ⟨usageLine, rfl⟩
    | _ => exact h.elim
  | _ => exact h.elim

/-- Whatever inputs are handled from the start, the last picture drawn shows the view and the notice
as they are, but for polls that were counted since. For in every state that a run of messages
reaches, marked or not, a message that leaves no mark changes nothing in the view but the number of
polls. Inputs that only tell something leave the dashboard and the timers as they are and submit no
command. -/
theorem screen_is_never_stale (timings : Timings) (base : BaseUrl) :
    (∀ inputs, let first := start timings base
      (first.run inputs).console.IsShownBy ((first.run inputs).lastPicture first.picture)) ∧
    (∀ messages dirty message,
      let d := { (Dashboard.start timings).run messages with dirty }
      let after := (d.update message).state
      after.dirty = false → after.view = { d.view with pollCount := after.pollCount }) ∧
    ∀ (c : Console) (input : Input), input.OnlyTells →
      (c.handle input).console.dashboard = c.dashboard ∧
        (c.handle input).console.timers = c.timers ∧ (c.handle input).commands = [] := by
  refine ⟨?_, ?_, ?_⟩
  · intro inputs first
    have hfirst : first.dashboard.board.keys.Nodup := List.nodup_nil
    exact isShownBy_run hfirst first.isShownBy_picture inputs
  · intro messages dirty message d after hclean
    have hd : d.board.keys.Nodup := Dashboard.nodup_keys_run_start timings messages
    exact Dashboard.view_update_of_clean hd hclean
  · intro c input hinput
    obtain ⟨text, hhandled⟩ := c.handle_of_onlyTells hinput
    rw [hhandled]
    exact ⟨rfl, rfl, rfl⟩

/-- Between two polls a listing arrives, then a notice, and twice the health of the backend. -/
def watched : List Input :=
  [.message .pollRequested, .event (.jobsFetched (.ok [⟨⟨"api", "ops"⟩, []⟩])), .notice "Connected",
    .event (.health true), .event (.health true), .message .pollRequested]

def localBase : BaseUrl :=
  ⟨⟨"http".toList, some { host := some (.domain "localhost".toList), port := some 8080 },
    .segments [], none, none⟩, [], rfl⟩

theorem watched_screen_is_never_stale :
    let first := start {} localBase
    let last := (first.run watched).lastPicture first.picture
    (first.run watched).pictures.length = 3 ∧
      last.notice = some "Connected" ∧ last.view.health = .healthy ∧
      last.view.sections.map SectionView.key = [⟨"api", "ops"⟩] ∧
      last.view.pollCount = 1 ∧ (first.run watched).console.dashboard.pollCount = 2 ∧
      (first.run watched).console.IsShownBy last := by
  intro first last
  have hshown : (first.run watched).console.IsShownBy last :=
    (screen_is_never_stale {} localBase).1 watched
  refine ⟨?_, ?_, ?_, ?_, ?_, ?_, hshown⟩ <;> decide +kernel

end Console

end JobBoard.Terminal
