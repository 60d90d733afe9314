import JobBoard.Dashboard.View
import JobBoard.Proofs.Dashboard.Run

/-!
# Clicks and buttons

What a click does is decided by the board and the slots; whether its button is enabled is decided
again by the view. In every state that a run reaches the two agree.
-/
namespace JobBoard

/-- The view has a control for a target, with this button. -/
def View.Shows (v : View) : Target → Button → Prop
  | .discovery key, b => ∃ s ∈ v.sections, s.key = key ∧ s.discovery = b
  | .renovate key project, b =>
    ∃ s ∈ v.sections, s.key = key ∧ ∃ status label, .project project status label b ∈ s.rows

def View.Offers (v : View) (t : Target) : Prop :=
  ∃ b, v.Shows t b ∧ b.enabled = true

theorem enabled_discoveryButton (p : Phase) (display : Discovery) :
    (discoveryButton p display).enabled = true ↔ display ≠ .running ∧ p = .idle := by
  cases p with
  | idle => cases display <;> simp [discoveryButton]
  | busy => simp [discoveryButton]
  | settled result => cases result <;> simp [discoveryButton]

theorem enabled_triggerButton (p : Phase) : (triggerButton p).enabled = true ↔ p = .idle := by
  cases p with
  | idle => simp [triggerButton]
  | busy => simp [triggerButton]
  | settled result => cases result <;> simp [triggerButton]

theorem Section.hasProject_iff {s : Section} {project : String} :
    s.hasProject project = true ↔ ∃ status, .project project status ∈ s.rows := by
  unfold hasProject
  rw [List.any_eq_true]
  constructor
  · rintro ⟨row, hrow, hname⟩
    cases row with
    | project name status =>
      rw [← of_decide_eq_true hname]
      exact ⟨status, hrow⟩
    | placeholder job => cases hname
  · rintro ⟨status, hrow⟩
    exact ⟨_, hrow, decide_eq_true rfl⟩

namespace Dashboard

def button? (d : Dashboard) : Target → Option Button
  | .discovery key =>
    (d.section? key).map fun s => discoveryButton (d.phase (.discovery key)) s.discovery
  | .renovate key project =>
    if (d.section? key).any (·.hasProject project) then
      some (triggerButton (d.phase (.renovate key project)))
    else none

variable {d : Dashboard}

theorem keys_view (d : Dashboard) : d.view.sections.map SectionView.key = d.board.keys := by
  unfold view Board.keys
  rw [List.map_map]
  rfl

theorem mem_rows_sectionView {s : Section} {project : String} {b : Button} :
    (∃ status label, .project project status label b ∈ (d.sectionView s).rows) ↔
      s.hasProject project = true ∧ b = triggerButton (d.phase (.renovate s.key project)) := by
  rw [Section.hasProject_iff]
  constructor
  · rintro ⟨status, label, hrow⟩
    obtain ⟨row, hmem, hview⟩ := List.mem_map.mp hrow
    cases row with
    | project name status' =>
      simp only [rowView, RowView.project.injEq] at hview
      obtain ⟨rfl, rfl, -, rfl⟩ := hview
      exact ⟨⟨status', hmem⟩, rfl⟩
    | placeholder job => cases hview
  · rintro ⟨⟨status, hmem⟩, rfl⟩
    exact ⟨status, _, List.mem_map_of_mem hmem⟩

theorem exists_sectionView (hd : d.board.keys.Nodup) {key : JobKey} {p : SectionView → Prop} :
    (∃ v ∈ d.view.sections, v.key = key ∧ p v) ↔
      ∃ s, d.section? key = some s ∧ p (d.sectionView s) := by
  constructor
  · rintro ⟨v, hv, hkey, hp⟩
    obtain ⟨s, hs, rfl⟩ := List.mem_map.mp hv
    subst hkey
    exact ⟨s, Board.section?_of_mem hd hs, hp⟩
  · rintro ⟨s, hs, hp⟩
    exact ⟨d.sectionView s, List.mem_map_of_mem (Board.mem_of_section? hs),
      Board.key_of_section? hs, hp⟩

theorem shows_iff (hd : d.board.keys.Nodup) {t : Target} {b : Button} :
    d.view.Shows t b ↔ d.button? t = some b := by
  cases t with
  | discovery key =>
    rw [View.Shows, exists_sectionView hd, button?, Option.map_eq_some_iff]
    constructor
    · rintro ⟨s, hs, hb⟩
      have hkey := Board.key_of_section? hs
      subst hkey
      exact ⟨s, hs, hb⟩
    · rintro ⟨s, hs, hb⟩
      have hkey := Board.key_of_section? hs
      subst hkey
      exact ⟨s, hs, hb⟩
  | renovate key project =>
    rw [View.Shows, exists_sectionView hd, button?, Option.ite_none_right_eq_some,
      Option.any_eq_true, Option.some.injEq]
    constructor
    · rintro ⟨s, hs, hrow⟩
      have hkey := Board.key_of_section? hs
      subst hkey
      obtain ⟨hproject, hb⟩ := mem_rows_sectionView.mp hrow
      exact ⟨⟨s, hs, hproject⟩, hb.symm⟩
    · rintro ⟨⟨s, hs, hproject⟩, hb⟩
      have hkey := Board.key_of_section? hs
      subst hkey
      exact ⟨s, hs, mem_rows_sectionView.mpr ⟨hproject, hb.symm⟩⟩

theorem isSome_button? {t : Target} (h : d.CanStart t) : ∃ b, d.button? t = some b := by
  cases t with
  | discovery key =>
    obtain ⟨s, hs, -⟩ := h
    exact ⟨_, by rw [button?, hs, Option.map_some]⟩
  | renovate key project => exact ⟨_, if_pos ((Option.any_eq_true _ _).mpr h)⟩

/-- A button is enabled where the guards of a click let it pass. -/
theorem enabled_button? {t : Target} {b : Button} (h : d.button? t = some b) :
    b.enabled = true ↔ d.CanStart t ∧ d.phase t = .idle := by
  cases t with
  | discovery key =>
    obtain ⟨s, hs, rfl⟩ := Option.map_eq_some_iff.mp h
    rw [enabled_discoveryButton, CanStart, hs]
    simp
  | renovate key project =>
    obtain ⟨hproject, hb⟩ := Option.ite_none_right_eq_some.mp h
    rw [← Option.some.inj hb, enabled_triggerButton]
    exact (and_iff_right ((Option.any_eq_true _ _).mp hproject)).symm

theorem disabled_of_shows (hd : d.board.keys.Nodup) {t : Target} {b : Button}
    (hb : d.view.Shows t b) (ht : d.phase t ≠ .idle) : b.enabled = false := by
  rw [Bool.eq_false_iff, ne_eq, enabled_button? ((shows_iff hd).mp hb)]
  exact fun h => ht h.2

theorem offers_iff (hd : d.board.keys.Nodup) {t : Target} :
    d.view.Offers t ↔ d.CanStart t ∧ d.phase t = .idle := by
  constructor
  · rintro ⟨b, hshows, henabled⟩
    exact (enabled_button? ((shows_iff hd).mp hshows)).mp henabled
  · intro h
    obtain ⟨b, hb⟩ := isSome_button? h.1
    exact ⟨b, (shows_iff hd).mpr hb, (enabled_button? hb).mpr h⟩

/-- After any run, a click starts the action of its target if the view offers it, and does nothing
otherwise. All buttons that the view has for one target are the same, and a click that starts an
action leaves them disabled. -/
theorem click_starts_iff_offered (timings : Timings) (messages : List Message) (t : Target) :
    let d := (start timings).run messages
    (d.view.sections.map SectionView.key).Nodup ∧
      (∀ b c, d.view.Shows t b → d.view.Shows t c → b = c) ∧
      (d.view.Offers t → (d.update t.click).effects = [t.request] ∧
        (∃ b, (d.update t.click).state.view.Shows t b) ∧
        ∀ b, (d.update t.click).state.view.Shows t b → b.enabled = false) ∧
      (¬d.view.Offers t → (d.update t.click).effects = [] ∧ (d.update t.click).state = d) := by
  intro d
  have hd : d.board.keys.Nodup := nodup_keys_run_start timings messages
  refine ⟨d.keys_view ▸ hd, ?_, ?_, ?_⟩
  · intro b c hb hc
    rw [shows_iff hd] at hb hc
    exact Option.some.inj (hb.symm.trans hc)
  · intro hoffers
    rcases d.click_cases t with ⟨hno, -, -⟩ | ⟨hcan, -, slots, hslots, hstate, heffects⟩
    · exact absurd ((offers_iff hd).mp hoffers) hno
    · -- A click touches the slots alone, so the control is still there.
      have hclicked : (d.update t.click).state.board.keys.Nodup := hstate ▸ hd
      have hcan : (d.update t.click).state.CanStart t := hstate ▸ hcan
      have hbusy : slots.phase t = .busy :=
        Slots.phase_eq_busy.mpr ⟨_, by rw [Slots.slot?_begin? hslots, if_pos rfl]⟩
      refine ⟨heffects, ?_, ?_⟩
      · obtain ⟨b, hb⟩ := isSome_button? hcan
        exact ⟨b, (shows_iff hclicked).mpr hb⟩
      · intro b hb
        apply disabled_of_shows hclicked hb
        rw [phase, hstate, hbusy]
        exact Phase.noConfusion
  · intro hoffers
    rcases d.click_cases t with ⟨-, hstate, heffects⟩ | ⟨hcan, hidle, -⟩
    · exact ⟨heffects, hstate⟩
    · exact absurd ((offers_iff hd).mpr ⟨hcan, hidle⟩) hoffers

/-- Two jobs are listed, and the discovery of the second is found to run. -/
def twoJobs : List Message :=
  [.jobsFetched (.ok [⟨⟨"api", "ops"⟩, [⟨"core", .running⟩]⟩, ⟨⟨"web", "ops"⟩, []⟩]),
    .discoveryStatusFetched ⟨"web", "ops"⟩ 2 true]

theorem section?_run_twoJobs :
    ((start {}).run twoJobs).section? ⟨"api", "ops"⟩ =
        some ⟨⟨"api", "ops"⟩, "api - ops", [.project "core" .running], .unknown, 0⟩ ∧
      ((start {}).run twoJobs).section? ⟨"web", "ops"⟩ =
        some ⟨⟨"web", "ops"⟩, "web - ops", [.placeholder ⟨"web", "ops"⟩], .running, 2⟩ := by
  rw [section?, section?, board_run_start]
  simp only [twoJobs, List.filterMap_cons, List.filterMap_nil, Message.news?, Board.run,
    List.foldl_cons, List.foldl_nil, Board.tell, Board.section?_hear, Board.section?_reconcile]
  decide +kernel

theorem phase_run_twoJobs (t : Target) : ((start {}).run twoJobs).phase t = .idle := by
  obtain ⟨dirty, hstate, -⟩ :=
    ((start {}).run twoJobs.dropLast).update_discoveryStatusFetched ⟨"web", "ops"⟩ 2 true
  change ((((start {}).run twoJobs.dropLast).update _).state).phase t = .idle
  rw [hstate]
  rfl

theorem listed_job_starts_when_clicked :
    let d := (start {}).run twoJobs
    (∀ t ∈ [Target.discovery ⟨"api", "ops"⟩, .renovate ⟨"api", "ops"⟩ "core"],
      d.view.Offers t ∧ (d.update t.click).effects = [t.request] ∧
        ∃ b, (d.update t.click).state.view.Shows t b ∧ b.enabled = false) ∧
    ∀ t ∈ [Target.discovery ⟨"web", "ops"⟩, .renovate ⟨"web", "ops"⟩ "core"],
      ¬d.view.Offers t ∧ (d.update t.click).effects = [] ∧ (d.update t.click).state = d := by
  intro d
  have hd : d.board.keys.Nodup := nodup_keys_run_start {} twoJobs
  obtain ⟨hapi, hweb⟩ := section?_run_twoJobs
  constructor
  · intro t ht
    have hcan : d.CanStart t := by
      rcases List.mem_pair.mp ht with rfl | rfl
      · exact ⟨_, hapi, Discovery.noConfusion⟩
      · exact ⟨_, hapi, rfl⟩
    have hoffers : d.view.Offers t := (offers_iff hd).mpr ⟨hcan, phase_run_twoJobs t⟩
    obtain ⟨-, -, hstarts, -⟩ := click_starts_iff_offered {} twoJobs t
    obtain ⟨heffects, ⟨b, hshows⟩, hdisabled⟩ := hstarts hoffers
    exact ⟨hoffers, heffects, b, hshows, hdisabled b hshows⟩
  · intro t ht
    have hoffers : ¬d.view.Offers t := by
      intro h
      obtain ⟨hcan, -⟩ := (offers_iff hd).mp h
      rcases List.mem_pair.mp ht with rfl | rfl
      · obtain ⟨s, hs, hrunning⟩ := hcan
        rw [hweb] at hs
        cases hs
        exact hrunning rfl
      · obtain ⟨s, hs, hproject⟩ := hcan
        rw [hweb] at hs
        cases hs
        cases hproject
    obtain ⟨-, -, -, hstays⟩ := click_starts_iff_offered {} twoJobs t
    exact ⟨hoffers, hstays hoffers⟩

end Dashboard

end JobBoard
