import JobBoard.Proofs.Board.Rows
import JobBoard.Proofs.Dashboard.Run

/-!
# What is rendered

Keys, captions, rows and counters are decided by the last listing that arrived, whatever else
happened before and since.
-/
namespace JobBoard

def Message.listing? : Message → Option (List Job)
  | .jobsFetched (.ok jobs) => some jobs
  | _ => none

/-- The last listing of a run. -/
def lastListing? (messages : List Message) : Option (List Job) :=
  (messages.filterMap Message.listing?).getLast?

theorem lastListing?_append_singleton (messages : List Message) (last : Message) :
    lastListing? (messages ++ [last]) = last.listing?.or (lastListing? messages) := by
  unfold lastListing?
  rw [List.filterMap_append, List.getLast?_append]
  cases h : last.listing? <;> simp [h]

theorem lastListing?_eq_none {messages : List Message} (h : ∀ m ∈ messages, m.listing? = none) :
    lastListing? messages = none := by
  unfold lastListing?
  rw [List.filterMap_eq_nil_iff.mpr h]
  rfl

/-- The part of the state that a listing decides. -/
structure Listed where
  faces : List Face := []
  stats : Stats := {}

namespace Listed

def ofSnapshot (jobs : List Job) : Listed where
  faces := (shownJobs jobs).map Job.face
  stats := Stats.ofJobs (shownJobs jobs)

def keys (l : Listed) : List JobKey :=
  l.faces.map Face.key

/-- One section for each key of a listing, in ascending order, with the rows of the last job of the
key; the counters count rows. -/
structure Renders (l : Listed) (jobs : List Job) : Prop where
  mem_keys : ∀ key, key ∈ l.keys ↔ key ∈ jobs.map Job.key
  nodup_keys : l.keys.Nodup
  ascending : l.keys.Pairwise fun a b => compareKeys a b = .lt
  caption : ∀ f ∈ l.faces, f.caption = f.key.label
  rows : ∀ f ∈ l.faces, ∃ job, lastWith? jobs f.key = some job ∧ job.ShownBy f.rows
  stats : l.stats = Stats.ofRows (l.faces.flatMap Face.rows)

theorem keys_ofSnapshot (jobs : List Job) :
    (ofSnapshot jobs).keys = (shownJobs jobs).map Job.key := by
  unfold keys ofSnapshot
  rw [List.map_map]
  rfl

theorem renders_ofSnapshot (jobs : List Job) : (ofSnapshot jobs).Renders jobs where
  mem_keys key := by
    rw [keys_ofSnapshot]
    exact mem_keys_shownJobs
  nodup_keys := by
    rw [keys_ofSnapshot]
    exact nodup_keys_shownJobs jobs
  ascending := by
    rw [keys_ofSnapshot]
    exact pairwise_keys_shownJobs jobs
  caption f hf := by
    obtain ⟨job, -, rfl⟩ := List.mem_map.mp hf
    rfl
  rows f hf := by
    obtain ⟨job, hjob, rfl⟩ := List.mem_map.mp hf
    exact ⟨job, mem_shownJobs.mp hjob, job.shownBy_rows⟩
  stats := by
    change Stats.ofJobs (shownJobs jobs) = _
    rw [← ofRows_flatMap_rows, ofSnapshot, List.flatMap_map]
    rfl

end Listed

namespace Dashboard

def listed (d : Dashboard) : Listed where
  faces := d.board.sections.map Section.face
  stats := d.stats

theorem face_refreshed (b : Board) (job : Job) : (b.refreshed job).face = job.face := by
  change Face.mk (b.refreshed job).key job.key.label job.rows = job.face
  rw [b.key_refreshed]
  rfl

/-- A listing decides what is rendered, every other message leaves it. -/
theorem listed_update (d : Dashboard) (message : Message) :
    (d.update message).state.listed = message.listing?.elim d.listed Listed.ofSnapshot := by
  have hframe (h : message.news? = none) : (d.update message).state.listed = d.listed := by
    obtain ⟨hboard, hstats⟩ := d.update_of_news?_eq_none h
    rw [listed, listed, hboard, hstats]
  cases message with
  | jobsFetched result =>
    cases result with
    | ok jobs =>
      have hfaces : (d.board.reconcile jobs).1.sections.map Section.face =
          (shownJobs jobs).map Job.face := by
        rw [Board.sections_reconcile, List.map_map]
        exact List.map_congr_left fun job _ => face_refreshed d.board job
      change Listed.mk ((d.board.reconcile jobs).1.sections.map Section.face) _ = _
      rw [hfaces]
      rfl
    | error message => exact hframe rfl
  | discoveryStatusFetched key seq running =>
    obtain ⟨dirty, hstate, -⟩ := d.update_discoveryStatusFetched key seq running
    rw [hstate]
    change Listed.mk ((d.board.hear key seq running).sections.map Section.face) d.stats = d.listed
    rw [Board.faces_hear]
    rfl
  | _ => exact hframe rfl

theorem listed_run (d : Dashboard) (messages : List Message) :
    (d.run messages).listed = (lastListing? messages).elim d.listed Listed.ofSnapshot := by
  induction messages using List.reverseRecOn with
  | nil => rfl
  | append_singleton messages last ih =>
    rw [run_append_singleton, listed_update, lastListing?_append_singleton, ih]
    cases last.listing? <;> rfl

/-- What is rendered after a run is a function of its last listing. Before the first listing there
are no sections and all counters are zero, and messages that bring no listing leave what is
rendered as it is. -/
theorem run_renders_last_listing (timings : Timings) (messages : List Message) :
    (lastListing? messages = none →
      ((start timings).run messages).board.sections = [] ∧
        ((start timings).run messages).stats = ⟨0, 0, 0, 0⟩) ∧
      (∀ jobs, lastListing? messages = some jobs →
        ((start timings).run messages).listed.Renders jobs) ∧
      ∀ d : Dashboard, (∀ message ∈ messages, message.listing? = none) →
        (d.run messages).listed = d.listed := by
  have hrun := (start timings).listed_run messages
  refine ⟨?_, ?_, ?_⟩
  · intro hnone
    rw [hnone] at hrun
    obtain ⟨hfaces, hstats⟩ := (Listed.mk.injEq _ _ _ _).mp hrun
    exact ⟨List.map_eq_nil_iff.mp hfaces, hstats⟩
  · intro jobs hjobs
    rw [hjobs] at hrun
    rw [hrun]
    exact Listed.renders_ofSnapshot jobs
  · intro d hmessages
    rw [d.listed_run, lastListing?_eq_none hmessages]
    rfl

end Dashboard

end JobBoard
