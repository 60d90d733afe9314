import JobBoard.Backend.Record
import JobBoard.Dashboard.View
import JobBoard.Proofs.Dashboard.Render
import JobBoard.Proofs.Snapshot.Status
import JobBoard.Timers
import Mathlib.Data.List.Perm.Basic

/-!
# Statuses on the screen

What a status is called on the screen, where its row stands and where it is counted agree. A counter
counts the rows labelled with its word, and these are the rows of the projects whose statuses were
listed under that word. Main statement: `statuses_agree`.
-/
namespace JobBoard

open Backend (JobRecord ProjectRecord)
open ProjectStatus (known words)

def RowView.cell? : RowView → Option (String × String)
  | .project name _ label _ => some (name, label)
  | .placeholder _ => none

/-- Names and labels of the project rows of a section, from top to bottom. -/
def SectionView.cells (s : SectionView) : List (String × String) :=
  s.rows.filterMap RowView.cell?

def Stats.counters (s : Stats) : List (String × Nat) :=
  [("scheduled", s.scheduled), ("running", s.running), ("failed", s.failed),
    ("completed", s.completed)]

/-- The projects of the last record that is listed with a key. -/
def displayedOf (records : List JobRecord) (key : JobKey) : List ProjectRecord :=
  (records.reverse.find? (·.key = key)).elim [] JobRecord.projects

/-- What a view of listed records shows of their statuses. -/
structure View.Agrees (v : View) (records : List JobRecord) : Prop where
  /-- A counter counts the rows labelled with its word, -/
  labelled : ∀ c ∈ v.stats.counters,
    c.2 = (v.sections.flatMap SectionView.cells).countP (·.2 = c.1)
  /-- and so it counts the displayed projects whose statuses name the word. -/
  named : ∀ c ∈ v.stats.counters,
    c.2 = (v.sections.flatMap fun s => displayedOf records s.key).countP
      fun p => Text.Names p.status c.1
  /-- No row labelled otherwise stands before a row labelled with one of the words. -/
  ahead : ∀ s ∈ v.sections, s.cells.Pairwise fun a b => b.2 ∈ words → a.2 ∈ words
  keys : (v.sections.map SectionView.key).Nodup ∧
    ∀ key, key ∈ v.sections.map SectionView.key ↔ key ∈ records.map JobRecord.key
  /-- Each displayed project has its row, and a label that no counter counts exactly if its status
  names none of the words. -/
  rows : ∀ s ∈ v.sections, ∃ label : ProjectRecord → String,
    s.cells.Perm ((displayedOf records s.key).map fun p => (p.name, label p)) ∧
      ∀ p ∈ displayedOf records s.key,
        label p ∉ words ↔ ∀ word ∈ words, ¬Text.Names p.status word

section Labels

def ProjectStatus.label (status : ProjectStatus) : String :=
  orDash status.text

theorem orDash_eq_iff {s t : String} (ht : t ≠ emptyCell) (hblank : Text.blank t = false) :
    orDash s = t ↔ s = t := by
  unfold orDash
  split
  next hs =>
    refine iff_of_false ht.symm ?_
    rintro rfl
    rw [hblank] at hs
    cases hs
  next => rfl

/-- Among the statuses that are read, only a known one has its word for a label. -/
theorem label_parse_eq_iff {raw : String} {status : ProjectStatus} (h : status ∈ known) :
    (ProjectStatus.parse raw).label = status.text ↔ ProjectStatus.parse raw = status := by
  have htext : status.text ≠ emptyCell ∧ Text.blank status.text = false := by
    revert status
    decide +kernel
  rw [ProjectStatus.label, orDash_eq_iff htext.1 htext.2]
  constructor
  · intro hraw
    rw [← ProjectStatus.parse_text_parse, hraw, ProjectStatus.parse_text h]
  · intro hraw
    rw [hraw]

theorem label_parse_mem_words {raw : String} :
    (ProjectStatus.parse raw).label ∈ words ↔ ProjectStatus.parse raw ∈ known := by
  rw [ProjectStatus.mem_words]
  constructor
  · rintro ⟨status, hknown, hlabel⟩
    rwa [(label_parse_eq_iff hknown).mp hlabel.symm]
  · intro hknown
    exact ⟨_, hknown, ((label_parse_eq_iff hknown).mpr rfl).symm⟩

end Labels

section Listing

def Project.cell (p : Project) : String × String :=
  (p.name, p.status.label)

def Row.cell? : Row → Option (String × String)
  | .project name status => some (name, status.label)
  | .placeholder _ => none

theorem Dashboard.cell?_rowView (d : Dashboard) (key : JobKey) (row : Row) :
    (d.rowView key row).cell? = row.cell? := by
  cases row <;> rfl

theorem Job.cells_rows (job : Job) :
    job.rows.filterMap Row.cell? = (sortProjects job.projects).map Project.cell := by
  unfold rows
  split
  next h =>
    rw [List.isEmpty_iff.mp h, sortProjects, List.mergeSort_nil]
    rfl
  next =>
    rw [List.filterMap_map]
    exact congrFun (List.filterMap_eq_map (f := Project.cell)) _

theorem Dashboard.cells_sectionView (d : Dashboard) (s : Section) :
    (d.sectionView s).cells = s.face.rows.filterMap Row.cell? := by
  rw [SectionView.cells, sectionView, List.filterMap_map]
  exact List.filterMap_congr fun row _ => d.cell?_rowView s.key row

theorem Dashboard.sections_view_listing (d : Dashboard) (jobs : List Job) :
    ((d.update (.jobsFetched (.ok jobs))).state.view.sections.map fun s => (s.key, s.cells)) =
      (shownJobs jobs).map fun job => (job.key, (sortProjects job.projects).map Project.cell) := by
  set after := (d.update (.jobsFetched (.ok jobs))).state with hafter
  have hfaces : after.board.sections.map Section.face = (shownJobs jobs).map Job.face :=
    congrArg Listed.faces (d.listed_update (.jobsFetched (.ok jobs)))
  calc after.view.sections.map (fun s => (s.key, s.cells))
    _ = (after.board.sections.map Section.face).map
          fun f => (f.key, f.rows.filterMap Row.cell?) := by
      rw [view, List.map_map, List.map_map]
      exact List.map_congr_left fun s _ => Prod.ext rfl (after.cells_sectionView s)
    _ = (shownJobs jobs).map
          fun job => (job.key, (sortProjects job.projects).map Project.cell) := by
      rw [hfaces, List.map_map]
      exact List.map_congr_left fun job _ => Prod.ext rfl job.cells_rows

theorem Dashboard.stats_view_listing (d : Dashboard) (jobs : List Job) :
    (d.update (.jobsFetched (.ok jobs))).state.view.stats = Stats.ofJobs (shownJobs jobs) :=
  congrArg Listed.stats (d.listed_update (.jobsFetched (.ok jobs)))

end Listing

section Records

variable {records : List JobRecord}

theorem status_project (p : ProjectRecord) : p.project.status = .parse p.status := by
  rw [ProjectRecord.project]

theorem cell_project (p : ProjectRecord) :
    (Project.cell ∘ ProjectRecord.project) p =
      (p.name, (ProjectStatus.parse p.status).label) := by
  rw [Function.comp_apply, Project.cell, status_project, ProjectRecord.project]

theorem projects_of_shown {job : Job} (h : job ∈ shownJobs (records.map JobRecord.job)) :
    job.projects = (displayedOf records job.key).map ProjectRecord.project := by
  have hlast := mem_shownJobs.mp h
  rw [lastWith?, ← List.map_reverse, List.find?_map, Option.map_eq_some_iff] at hlast
  obtain ⟨record, hrecord, hjob⟩ := hlast
  have hdisplayed : displayedOf records job.key = record.projects := by
    have hfind : records.reverse.find? (·.key = job.key) = some record := hrecord
    rw [displayedOf, hfind]
    rfl
  rw [hdisplayed, ← hjob]
  rfl

theorem mem_counters {jobs : List Job} {c : String × Nat}
    (h : c ∈ (Stats.ofJobs jobs).counters) :
    ∃ status ∈ known,
      c = (status.text, (jobs.flatMap Job.projects).countP (·.status = status)) := by
  simp only [Stats.counters, List.mem_cons, List.not_mem_nil, or_false] at h
  rcases h with rfl | rfl | rfl | rfl
  · exact ⟨.scheduled, by decide, rfl⟩
  · exact ⟨.running, by decide, rfl⟩
  · exact ⟨.failed, by decide, rfl⟩
  · exact ⟨.completed, by decide, rfl⟩

/-- Counting projects by status counts the records whose texts name its word. -/
theorem countP_names (ps : List ProjectRecord) {status : ProjectStatus} (h : status ∈ known) :
    (ps.map ProjectRecord.project).countP (·.status = status) =
      ps.countP fun p => Text.Names p.status status.text := by
  rw [List.countP_map]
  refine List.countP_congr fun p _ => ?_
  rw [Function.comp_apply, decide_eq_true_eq, decide_eq_true_eq, status_project,
    ProjectStatus.parse_eq_iff h]

theorem countP_labels (ps : List ProjectRecord) {status : ProjectStatus} (h : status ∈ known) :
    (ps.map ProjectRecord.project).countP (·.status = status) =
      ((ps.map ProjectRecord.project).map Project.cell).countP (·.2 = status.text) := by
  rw [List.countP_map, List.countP_map, List.countP_map]
  refine List.countP_congr fun p _ => ?_
  rw [Function.comp_apply, Function.comp_apply, Function.comp_apply, decide_eq_true_eq,
    decide_eq_true_eq, Project.cell, status_project, label_parse_eq_iff h]

/-- Sorted projects with known statuses stand before all others. -/
theorem pairwise_cells (ps : List ProjectRecord) :
    ((sortProjects (ps.map ProjectRecord.project)).map Project.cell).Pairwise
      fun a b => b.2 ∈ words → a.2 ∈ words := by
  rw [List.pairwise_map]
  refine (pairwise_sortProjects _).imp_of_mem ?_
  intro a b ha hb hle hword
  have hread : ∀ p ∈ sortProjects (ps.map ProjectRecord.project),
      p.status.label ∈ words ↔ p.status ∈ known := by
    intro p hp
    obtain ⟨record, -, rfl⟩ := List.mem_map.mp ((sortProjects_perm _).mem_iff.mp hp)
    rw [status_project, label_parse_mem_words]
  have hrank := rank_le_of_isLE hle
  exact (hread a ha).mpr (ProjectStatus.mem_known_of_rank_le hrank ((hread b hb).mp hword))

section Views

variable {v : View}
  (hsections : (v.sections.map fun s => (s.key, s.cells)) =
    (shownJobs (records.map JobRecord.job)).map fun job =>
      (job.key, (sortProjects job.projects).map Project.cell))

include hsections

theorem keys_of_sections :
    v.sections.map SectionView.key = (shownJobs (records.map JobRecord.job)).map Job.key := by
  have hkeys := congrArg (List.map Prod.fst) hsections
  rw [List.map_map, List.map_map] at hkeys
  exact hkeys

theorem projects_of_sections :
    (shownJobs (records.map JobRecord.job)).flatMap Job.projects =
      (v.sections.flatMap fun s => displayedOf records s.key).map ProjectRecord.project := by
  have hdisplayed : (v.sections.flatMap fun s => displayedOf records s.key) =
      (v.sections.map SectionView.key).flatMap (displayedOf records) := by
    rw [List.flatMap_map]
  rw [hdisplayed, keys_of_sections hsections, List.flatMap_map, List.map_flatMap]
  exact List.flatMap_congr fun job hjob => projects_of_shown hjob

theorem cells_of_mem {s : SectionView} (hs : s ∈ v.sections) :
    s.cells = (sortProjects ((displayedOf records s.key).map ProjectRecord.project)).map
      Project.cell := by
  have hmem : (s.key, s.cells) ∈ v.sections.map fun s => (s.key, s.cells) :=
    List.mem_map_of_mem hs
  rw [hsections] at hmem
  obtain ⟨job, hjob, hpair⟩ := List.mem_map.mp hmem
  obtain ⟨hkey, hcells⟩ := Prod.mk.inj hpair
  rw [← hcells, ← hkey, projects_of_shown hjob]

theorem perm_cells {s : SectionView} (hs : s ∈ v.sections) :
    s.cells.Perm (((displayedOf records s.key).map ProjectRecord.project).map Project.cell) := by
  rw [cells_of_mem hsections hs]
  exact (sortProjects_perm _).map _

/-- The cells of all sections are those of all displayed projects. -/
theorem perm_all_cells :
    (v.sections.flatMap SectionView.cells).Perm
      (((v.sections.flatMap fun s => displayedOf records s.key).map ProjectRecord.project).map
        Project.cell) := by
  rw [List.map_flatMap, List.map_flatMap]
  exact List.Perm.flatMap_left _ fun s hs => perm_cells hsections hs

theorem agrees_of_sections
    (hstats : v.stats = Stats.ofJobs (shownJobs (records.map JobRecord.job))) :
    v.Agrees records where
  labelled c hc := by
    rw [hstats] at hc
    obtain ⟨status, hknown, rfl⟩ := mem_counters hc
    rw [(perm_all_cells hsections).countP_eq, ← countP_labels _ hknown,
      ← projects_of_sections hsections]
  named c hc := by
    rw [hstats] at hc
    obtain ⟨status, hknown, rfl⟩ := mem_counters hc
    rw [projects_of_sections hsections, countP_names _ hknown]
  ahead s hs := by
    rw [cells_of_mem hsections hs]
    exact pairwise_cells _
  keys := by
    rw [keys_of_sections hsections]
    refine ⟨nodup_keys_shownJobs _, ?_⟩
    intro key
    rw [mem_keys_shownJobs, List.map_map]
    rfl
  rows s hs := by
    refine ⟨fun p => (ProjectStatus.parse p.status).label, ?_, ?_⟩
    · have hperm := perm_cells hsections hs
      rw [List.map_map, funext cell_project] at hperm
      exact hperm
    · intro p _
      rw [label_parse_mem_words, ProjectStatus.parse_not_mem_known]

end Views

end Records

/-- Reading the text of a status that was read gives that status again. So labels, counters and the
order of rows agree in the view after any listing. -/
theorem statuses_agree :
    (∀ raw, ProjectStatus.parse (ProjectStatus.parse raw).text = ProjectStatus.parse raw) ∧
      ∀ (t : Timers) (d : Dashboard) (records : List JobRecord), ∃ m,
        (t.message (.jobsFetched (.ok records))).message = some m ∧
          (d.update m).state.view.Agrees records := by
  refine ⟨ProjectStatus.parse_text_parse, ?_⟩
  intro t d records
  exact ⟨_, rfl, agrees_of_sections (d.sections_view_listing _) (d.stats_view_listing _)⟩

end JobBoard
