import JobBoard.Proofs.Board.Rows

/-!
# Listings in another order

A backend may list jobs and their projects in any order, and a job more than once. What a snapshot
does to a board and what is reported of it are decided by the faces of the jobs that it shows, and
these stay the same when the same is listed in another order. Main statement:
`reconcile_eq_of_relists`.
-/
namespace JobBoard

open Std

/-- No two projects have the same name and the same rank but different statuses. -/
def Unambiguous (projects : List Project) : Prop :=
  ∀ p ∈ projects, ∀ q ∈ projects,
    p.name = q.name → p.status.rank = q.status.rank → p.status = q.status

instance (projects : List Project) : Decidable (Unambiguous projects) :=
  inferInstanceAs (Decidable (∀ p ∈ projects, ∀ q ∈ projects,
    p.name = q.name → p.status.rank = q.status.rank → p.status = q.status))

/-- Two snapshots list the same: they have the same keys, and of each key the last jobs have the
same projects, in whatever order. -/
structure Relists (jobs others : List Job) : Prop where
  keys : ∀ key, key ∈ jobs.map Job.key ↔ key ∈ others.map Job.key
  projects : ∀ key job other, lastWith? jobs key = some job → lastWith? others key = some other →
    job.projects.Perm other.projects
  unambiguous : ∀ key job, lastWith? jobs key = some job → Unambiguous job.projects

theorem sortProjects_eq_of_perm {ps qs : List Project} (h : ps.Perm qs) (hps : Unambiguous ps) :
    sortProjects ps = sortProjects qs := by
  have hperm : (sortProjects ps).Perm (sortProjects qs) :=
    (sortProjects_perm ps).trans (h.trans (sortProjects_perm qs).symm)
  apply hperm.eq_of_pairwise ?_ (pairwise_sortProjects ps) (pairwise_sortProjects qs)
  intro p q hp hq hpq hqp
  have hp : p ∈ ps := (sortProjects_perm ps).mem_iff.mp hp
  have hq : q ∈ ps := h.mem_iff.mpr ((sortProjects_perm qs).mem_iff.mp hq)
  have hlevel : compareProjects p q = .eq := OrientedCmp.isLE_antisymm hpq hqp
  obtain ⟨hrank, hname⟩ := compareProjects_eq_eq.mp hlevel
  rw [Project.mk.injEq]
  exact ⟨hname, hps p hp q hq hname hrank⟩

theorem face_eq_of_perm {job other : Job} (hkey : job.key = other.key)
    (h : job.projects.Perm other.projects) (hjob : Unambiguous job.projects) :
    job.face = other.face := by
  unfold Job.face Job.rows
  rw [hkey, sortProjects_eq_of_perm h hjob, h.isEmpty_eq]

def shownFaces (snapshot : List Job) : List Face :=
  (shownJobs snapshot).map Job.face

theorem mem_shownFaces {snapshot : List Job} {f : Face} :
    f ∈ shownFaces snapshot ↔ (lastWith? snapshot f.key).map Job.face = some f := by
  unfold shownFaces
  rw [List.mem_map, Option.map_eq_some_iff]
  constructor
  · rintro ⟨job, hjob, rfl⟩
    exact ⟨job, mem_shownJobs.mp hjob, rfl⟩
  · rintro ⟨job, hjob, rfl⟩
    exact ⟨job, mem_shownJobs.mpr hjob, rfl⟩

theorem pairwise_shownFaces (snapshot : List Job) :
    (shownFaces snapshot).Pairwise fun f g => compareKeys f.key g.key = .lt := by
  have hkeys := pairwise_keys_shownJobs snapshot
  unfold shownFaces
  rw [List.pairwise_map] at hkeys ⊢
  exact hkeys

namespace Relists

variable {jobs others : List Job}

/-- It is enough to look at the jobs that the snapshots show. -/
theorem iff_lastOfEachKey : Relists jobs others ↔
    (∀ key ∈ jobs.map Job.key, key ∈ others.map Job.key) ∧
      (∀ key ∈ others.map Job.key, key ∈ jobs.map Job.key) ∧
      (∀ job ∈ lastOfEachKey jobs, ∀ other ∈ lastOfEachKey others,
        job.key = other.key → job.projects.Perm other.projects) ∧
      ∀ job ∈ lastOfEachKey jobs, Unambiguous job.projects := by
  constructor
  · intro h
    refine ⟨fun key => (h.keys key).mp, fun key => (h.keys key).mpr, ?_, ?_⟩
    · intro job hjob other hother hkey
      rw [mem_lastOfEachKey] at hjob hother
      exact h.projects job.key job other hjob (hkey ▸ hother)
    · intro job hjob
      exact h.unambiguous job.key job (mem_lastOfEachKey.mp hjob)
  · rintro ⟨hkeys, hkeys', hprojects, hjobs⟩
    refine ⟨fun key => ⟨hkeys key, hkeys' key⟩, ?_, ?_⟩
    · intro key job other hjob hother
      have hkey := key_of_lastWith? hjob
      have hkey' := key_of_lastWith? hother
      apply hprojects job (mem_lastOfEachKey.mpr ?_) other (mem_lastOfEachKey.mpr ?_)
      · rw [hkey, hkey']
      · rw [hkey, hjob]
      · rw [hkey', hother]
    · intro key job hjob
      have hkey := key_of_lastWith? hjob
      exact hjobs job (mem_lastOfEachKey.mpr (hkey ▸ hjob))

instance : Decidable (Relists jobs others) :=
  decidable_of_iff _ iff_lastOfEachKey.symm

theorem lastWith?_face_eq (h : Relists jobs others) (key : JobKey) :
    (lastWith? jobs key).map Job.face = (lastWith? others key).map Job.face := by
  have hsome : (lastWith? jobs key).isSome ↔ (lastWith? others key).isSome := by
    rw [isSome_lastWith?, isSome_lastWith?]
    exact h.keys key
  cases hjob : lastWith? jobs key with
  | none =>
    cases hother : lastWith? others key with
    | none => rfl
    | some other => simp [hjob, hother] at hsome
  | some job =>
    cases hother : lastWith? others key with
    | none => simp [hjob, hother] at hsome
    | some other =>
      have hkey : job.key = other.key :=
        (key_of_lastWith? hjob).trans (key_of_lastWith? hother).symm
      have hperm := h.projects key job other hjob hother
      exact congrArg some (face_eq_of_perm hkey hperm (h.unambiguous key job hjob))

theorem shownFaces_eq (h : Relists jobs others) : shownFaces jobs = shownFaces others := by
  have hcmp := Text.transCmp_comap compareKeys Face.key
  apply eq_of_pairwise_lt (fun f g : Face => compareKeys f.key g.key) (pairwise_shownFaces jobs)
    (pairwise_shownFaces others)
  intro f
  rw [mem_shownFaces, mem_shownFaces, h.lastWith?_face_eq]

end Relists

namespace Board

/-- The section of a face's key after a snapshot that shows the face. -/
def refreshedAs (b : Board) (f : Face) : Section :=
  { (b.section? f.key).getD (Section.fresh f.key) with
    caption := f.caption
    rows := f.rows }

/-- A snapshot acts on a board through the faces of the jobs that it shows. -/
theorem reconcile_eq_shownFaces (b : Board) (snapshot : List Job) :
    b.reconcile snapshot =
      let keys := (shownFaces snapshot).map Face.key
      ( { sections := (shownFaces snapshot).map b.refreshedAs
          issued := b.issued + (shownFaces snapshot).length },
        { created := keys.filter fun key => (b.section? key).isNone
          updated := keys.filterMap b.update?
          removed := (b.keys.filter (!keys.contains ·)).mergeSort fun a b => (a.compare b).isLE
          requests := requestsFrom b.issued keys
          stats := Stats.ofRows ((shownFaces snapshot).flatMap Face.rows) } ) := by
  have hkeys : (shownFaces snapshot).map Face.key = (shownJobs snapshot).map Job.key := by
    unfold shownFaces
    rw [List.map_map]
    rfl
  have hsections :
      (shownFaces snapshot).map b.refreshedAs = (shownJobs snapshot).map b.refreshed := by
    unfold shownFaces
    rw [List.map_map]
    rfl
  have hstats : Stats.ofRows ((shownFaces snapshot).flatMap Face.rows) =
      Stats.ofJobs (shownJobs snapshot) := by
    unfold shownFaces
    rw [List.flatMap_map, ← ofRows_flatMap_rows]
    rfl
  have hlength : (shownFaces snapshot).length = (shownJobs snapshot).length := List.length_map _
  simp only [hkeys, hsections, hstats, hlength]
  rfl

/-- What a snapshot does to a board and what is reported of it do not depend on the order in which
jobs and projects are listed, nor on what is listed of a job before its last entry. -/
theorem reconcile_eq_of_relists (b : Board) {jobs others : List Job} (h : Relists jobs others) :
    b.reconcile jobs = b.reconcile others := by
  rw [reconcile_eq_shownFaces, reconcile_eq_shownFaces, h.shownFaces_eq]

/-- A board that has one of the jobs listed below and one that is gone. -/
def halfListed : Board where
  sections := [⟨⟨"api", "ops"⟩, "api - ops", [.placeholder ⟨"api", "ops"⟩], .running, 3⟩,
    ⟨⟨"old", "ops"⟩, "old - ops", [.placeholder ⟨"old", "ops"⟩], .idle, 4⟩]
  issued := 5

/-- One job comes twice, and one of its projects too. -/
def listing : List Job :=
  [⟨⟨"api", "ops"⟩, [⟨"c", .failed⟩]⟩, ⟨⟨"web", "ops"⟩, []⟩,
    ⟨⟨"api", "ops"⟩, [⟨"a", .running⟩, ⟨"b", .other "paused"⟩, ⟨"a", .running⟩]⟩]

def relisting : List Job :=
  [⟨⟨"api", "ops"⟩, [⟨"b", .other "paused"⟩, ⟨"a", .running⟩, ⟨"a", .running⟩]⟩,
    ⟨⟨"web", "ops"⟩, []⟩]

theorem relists_relisting : Relists listing relisting := by
  decide

theorem reconcile_relisting :
    Relists listing relisting ∧ halfListed.reconcile listing = halfListed.reconcile relisting :=
  ⟨relists_relisting, halfListed.reconcile_eq_of_relists relists_relisting⟩

end Board

end JobBoard
