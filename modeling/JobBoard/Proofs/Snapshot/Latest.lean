import JobBoard.Proofs.Snapshot.Order

/-!
# The jobs that a snapshot shows

Of the jobs with one key the last of a snapshot counts, and what counts is shown in the order of
jobs: each key once, in strictly ascending order.
-/
namespace JobBoard

def lastWith? (jobs : List Job) (key : JobKey) : Option Job :=
  jobs.reverse.find? (·.key = key)

theorem lastWith?_cons (job : Job) (jobs : List Job) (key : JobKey) :
    lastWith? (job :: jobs) key =
      (lastWith? jobs key).or (if job.key = key then some job else none) := by
  unfold lastWith?
  rw [List.reverse_cons, List.find?_append]
  by_cases h : job.key = key <;> simp [h]

theorem key_of_lastWith? {jobs : List Job} {key : JobKey} {job : Job}
    (h : lastWith? jobs key = some job) : job.key = key := by
  unfold lastWith? at h
  simpa using List.find?_some h

theorem isSome_lastWith? {jobs : List Job} {key : JobKey} :
    (lastWith? jobs key).isSome ↔ key ∈ jobs.map Job.key := by
  unfold lastWith?
  simp [List.find?_isSome]

theorem mem_lastOfEachKey {jobs : List Job} {job : Job} :
    job ∈ lastOfEachKey jobs ↔ lastWith? jobs job.key = some job := by
  induction jobs with
  | nil => simp [lastOfEachKey, lastWith?]
  | cons first jobs ih =>
    have hany : (jobs.any fun later => later.key = first.key) =
        (lastWith? jobs first.key).isSome := by
      rw [lastWith?, List.isSome_find?, List.any_reverse]
    rw [lastOfEachKey, hany, lastWith?_cons]
    cases hlast : lastWith? jobs first.key with
    | none =>
      rw [Option.isSome_none, if_neg Bool.false_ne_true, List.mem_cons, ih]
      constructor
      · rintro (rfl | hjob)
        · simp [hlast]
        · simp [hjob]
      · intro hjob
        by_cases hkey : first.key = job.key
        · rw [← hkey, hlast] at hjob
          simp at hjob
          exact Or.inl hjob.symm
        · rw [if_neg hkey, Option.or_none] at hjob
          exact Or.inr hjob
    | some last =>
      rw [Option.isSome_some, if_pos rfl, ih]
      by_cases hkey : first.key = job.key
      · rw [← hkey, hlast, Option.some_or]
      · rw [if_neg hkey, Option.or_none]

theorem nodup_keys_lastOfEachKey (jobs : List Job) : ((lastOfEachKey jobs).map Job.key).Nodup := by
  induction jobs with
  | nil => simp [lastOfEachKey]
  | cons first jobs ih =>
    rw [lastOfEachKey]
    split
    next => exact ih
    next hnone =>
      rw [List.map_cons, List.nodup_cons]
      refine ⟨?_, ih⟩
      intro hmem
      obtain ⟨job, hjob, hkey⟩ := List.mem_map.mp hmem
      have hlast := mem_lastOfEachKey.mp hjob
      apply hnone
      rw [List.any_eq_true]
      exact ⟨job, List.mem_reverse.mp (List.mem_of_find?_eq_some hlast), decide_eq_true hkey⟩

/-- The jobs that a snapshot shows, in the order of their sections. -/
def shownJobs (snapshot : List Job) : List Job :=
  sortJobs (lastOfEachKey snapshot)

theorem mem_shownJobs {snapshot : List Job} {job : Job} :
    job ∈ shownJobs snapshot ↔ lastWith? snapshot job.key = some job :=
  (sortJobs_perm _).mem_iff.trans mem_lastOfEachKey

theorem mem_keys_shownJobs {snapshot : List Job} {key : JobKey} :
    key ∈ (shownJobs snapshot).map Job.key ↔ key ∈ snapshot.map Job.key := by
  constructor
  · intro hkey
    obtain ⟨job, hjob, rfl⟩ := List.mem_map.mp hkey
    exact isSome_lastWith?.mp (Option.isSome_of_eq_some (mem_shownJobs.mp hjob))
  · intro hkey
    obtain ⟨job, hjob⟩ := Option.isSome_iff_exists.mp (isSome_lastWith?.mpr hkey)
    have hsame := key_of_lastWith? hjob
    subst hsame
    exact List.mem_map_of_mem (mem_shownJobs.mpr hjob)

theorem pairwise_keys_shownJobs (snapshot : List Job) :
    ((shownJobs snapshot).map Job.key).Pairwise fun a b => compareKeys a b = .lt :=
  pairwise_keys_sortJobs (nodup_keys_lastOfEachKey snapshot)

theorem nodup_keys_shownJobs (snapshot : List Job) : ((shownJobs snapshot).map Job.key).Nodup :=
  ((sortJobs_perm _).map Job.key).nodup_iff.mpr (nodup_keys_lastOfEachKey snapshot)

end JobBoard
