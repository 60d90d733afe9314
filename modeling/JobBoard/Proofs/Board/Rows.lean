import JobBoard.Proofs.Board.Sections

/-!
# Rows

What a section shows of its job: the projects in the order of rows, or a placeholder. Counting rows
by status gives the counters, although these are taken from the projects as they were listed.
-/
namespace JobBoard

def Job.face (job : Job) : Face :=
  ⟨job.key, job.key.label, job.rows⟩

def Project.row (p : Project) : Row :=
  .project p.name p.status

/-- These rows show the projects of a job, sorted, level ones in the order they are listed in; a job
without projects has a placeholder. -/
structure Job.ShownBy (job : Job) (rows : List Row) : Prop where
  placeholder : job.projects = [] → rows = [.placeholder job.key]
  sorted : job.projects ≠ [] → ∃ projects : List Project,
    rows = projects.map Project.row ∧ projects.Perm job.projects ∧
      projects.Pairwise (fun p q => (compareProjects p q).isLE) ∧
      ∀ p, projects.filter (compareProjects p · = .eq) =
        job.projects.filter (compareProjects p · = .eq)

theorem Job.shownBy_rows (job : Job) : job.ShownBy job.rows := by
  unfold rows
  constructor
  · intro hnil
    simp [hnil]
  · intro hsome
    have hempty : job.projects.isEmpty = false := by simpa using hsome
    refine ⟨sortProjects job.projects, ?_, sortProjects_perm _, pairwise_sortProjects _,
      fun p => filter_sortProjects p _⟩
    rw [hempty]
    rfl

def Row.hasStatus (status : ProjectStatus) : Row → Bool
  | .project _ s => s = status
  | .placeholder _ => false

def Stats.ofRows (rows : List Row) : Stats where
  scheduled := rows.countP (Row.hasStatus .scheduled)
  running := rows.countP (Row.hasStatus .running)
  completed := rows.countP (Row.hasStatus .completed)
  failed := rows.countP (Row.hasStatus .failed)

theorem countP_rows (job : Job) (status : ProjectStatus) :
    job.rows.countP (Row.hasStatus status) = job.projects.countP (·.status = status) := by
  unfold Job.rows
  cases hprojects : job.projects with
  | nil => rfl
  | cons p projects =>
    rw [← hprojects, (sortProjects_perm job.projects).symm.countP_eq, List.isEmpty_eq_false_iff.mpr]
    · rw [if_neg Bool.false_ne_true, List.countP_map]
      rfl
    · rw [hprojects]
      exact List.cons_ne_nil p projects

theorem countP_flatMap_rows (jobs : List Job) (status : ProjectStatus) :
    (jobs.flatMap Job.rows).countP (Row.hasStatus status) =
      (jobs.flatMap Job.projects).countP (·.status = status) := by
  induction jobs with
  | nil => rfl
  | cons job jobs ih =>
    rw [List.flatMap_cons, List.flatMap_cons, List.countP_append, List.countP_append, countP_rows,
      ih]

/-- The counters of jobs count their rows. -/
theorem ofRows_flatMap_rows (jobs : List Job) :
    Stats.ofRows (jobs.flatMap Job.rows) = Stats.ofJobs jobs := by
  unfold Stats.ofRows
  simp only [countP_flatMap_rows]
  rfl

end JobBoard
