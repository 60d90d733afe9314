import JobBoard.Proofs.Board.Answers

/-!
# The report of a snapshot

On a board that a run leads to, the report of a snapshot is the difference between the sections
before and after it. The requests of a run are numbered without a gap, so each snapshot asks under
numbers greater than all before, and the same snapshot once more changes no section.
-/
namespace JobBoard

/-- A report tells exactly what happened to the sections of a board. -/
structure Report.Tells (r : Report) (before after : Board) : Prop where
  created : r.created = after.keys.filter (· ∉ before.keys)
  updated : r.updated = (after.keys.filter (· ∈ before.keys)).map fun key => ⟨key, false⟩
  mem_removed : ∀ key, key ∈ r.removed ↔ key ∈ before.keys ∧ key ∉ after.keys
  ascending : r.removed.Pairwise fun a b => a.compare b = .lt
  nodup : r.created.Nodup ∧ r.updated.Nodup ∧ r.removed.Nodup
  /-- One request for each section, numbered on from the last request. -/
  requests : r.requests.map DiscoveryRequest.key = after.keys ∧
    r.requests.map DiscoveryRequest.seq = List.range' (before.issued + 1) after.keys.length
  kept : ∀ s ∈ before.sections, ∀ t ∈ after.sections, t.key = s.key →
    t.discovery = s.discovery ∧ t.applied = s.applied
  fresh : ∀ t ∈ after.sections, t.key ∉ before.keys → t.discovery = .unknown ∧ t.applied = 0

namespace Board

theorem keys_requestsFrom (seq : Nat) (keys : List JobKey) :
    (requestsFrom seq keys).map DiscoveryRequest.key = keys := by
  induction keys generalizing seq with
  | nil => rfl
  | cons key keys ih => exact congrArg (key :: ·) (ih (seq + 1))

theorem seqs_requestsFrom (seq : Nat) (keys : List JobKey) :
    (requestsFrom seq keys).map DiscoveryRequest.seq = List.range' (seq + 1) keys.length := by
  induction keys generalizing seq with
  | nil => rfl
  | cons key keys ih => exact congrArg ((seq + 1) :: ·) (ih (seq + 1))

theorem length_requestsFrom (seq : Nat) (keys : List JobKey) :
    (requestsFrom seq keys).length = keys.length := by
  rw [← List.length_map DiscoveryRequest.key, keys_requestsFrom]

/-- Every section is captioned by its key. -/
def Captioned (b : Board) : Prop :=
  ∀ face ∈ b.sections.map Section.face, face.caption = face.key.label

theorem captioned_tell {b : Board} (hb : b.Captioned) (news : News) :
    (b.tell news).Captioned := by
  cases news with
  | snapshot jobs =>
    intro face hface
    rw [tell, sections_reconcile, List.map_map] at hface
    obtain ⟨job, -, rfl⟩ := List.mem_map.mp hface
    exact congrArg JobKey.label (b.key_refreshed job).symm
  | answer key seq running =>
    rw [Captioned, tell, faces_hear]
    exact hb

theorem captioned_run (news : List News) : (run news).Captioned := by
  induction news using List.reverseRecOn with
  | nil => exact fun face hface => absurd hface List.not_mem_nil
  | append_singleton news last ih =>
    rw [run_append_singleton]
    exact captioned_tell ih last

theorem update?_eq_ite {b : Board} (hb : b.Captioned) (key : JobKey) :
    b.update? key = if key ∈ b.keys then some ⟨key, false⟩ else none := by
  rw [update?]
  cases hs : b.section? key with
  | none =>
    rw [if_neg (section?_eq_none.mp hs), Option.map_none]
  | some s =>
    have hkept : key ∈ b.keys := isSome_section?.mp (Option.isSome_of_eq_some hs)
    have hcaption : s.caption = s.key.label :=
      hb s.face (List.mem_map_of_mem (mem_of_section? hs))
    rw [key_of_section? hs] at hcaption
    rw [if_pos hkept, Option.map_some, hcaption, bne_self_eq_false]

theorem created_reconcile (b : Board) (snapshot : List Job) :
    (b.reconcile snapshot).2.created =
      (b.reconcile snapshot).1.keys.filter (· ∉ b.keys) := by
  rw [keys_reconcile]
  refine List.filter_congr ?_
  intro key _
  rw [Bool.eq_iff_iff, Option.isNone_iff_eq_none, section?_eq_none, decide_eq_true_iff]

theorem updated_reconcile {b : Board} (hb : b.Captioned) (snapshot : List Job) :
    (b.reconcile snapshot).2.updated =
      ((b.reconcile snapshot).1.keys.filter (· ∈ b.keys)).map fun key => ⟨key, false⟩ := by
  rw [keys_reconcile, ← List.filterMap_eq_map, List.filterMap_filter]
  refine List.filterMap_congr ?_
  intro key _
  rw [update?_eq_ite hb]
  simp

theorem removed_reconcile_perm (b : Board) (snapshot : List Job) :
    (b.reconcile snapshot).2.removed.Perm
      (b.keys.filter (· ∉ (b.reconcile snapshot).1.keys)) := by
  have hgone : b.keys.filter (· ∉ (b.reconcile snapshot).1.keys) =
      b.keys.filter (!((shownJobs snapshot).map Job.key).contains ·) := by
    simp only [keys_reconcile, List.contains_eq_mem, decide_not]
  rw [hgone]
  exact List.mergeSort_perm _ _

theorem pairwise_removed_reconcile {b : Board} (hb : b.keys.Nodup) (snapshot : List Job) :
    (b.reconcile snapshot).2.removed.Pairwise fun a b => a.compare b = .lt :=
  pairwise_mergeSort_lt JobKey.compare (hb.filter _)

theorem discovery_of_mem_reconcile {b : Board} {snapshot : List Job} {t : Section}
    (h : t ∈ (b.reconcile snapshot).1.sections) :
    t.discovery = (b.section? t.key).elim .unknown Section.discovery ∧
      t.applied = (b.section? t.key).elim 0 Section.applied := by
  rw [sections_reconcile] at h
  obtain ⟨job, -, rfl⟩ := List.mem_map.mp h
  rw [key_refreshed]
  exact b.discovery_refreshed job

theorem nodup_reconcile {b : Board} (hnodup : b.keys.Nodup) (hb : b.Captioned)
    (snapshot : List Job) :
    (b.reconcile snapshot).2.created.Nodup ∧ (b.reconcile snapshot).2.updated.Nodup ∧
      (b.reconcile snapshot).2.removed.Nodup := by
  have hafter : (b.reconcile snapshot).1.keys.Nodup :=
    b.keys_reconcile snapshot ▸ nodup_keys_shownJobs snapshot
  rw [created_reconcile, updated_reconcile hb, (b.removed_reconcile_perm snapshot).nodup_iff]
  refine ⟨hafter.filter _, (hafter.filter _).map ?_, hnodup.filter _⟩
  intro key other heq
  exact congrArg SectionUpdate.key heq

/-- The report of a snapshot tells what it does to a board whose sections are captioned by their
keys, no two of them with the same. -/
theorem tells_reconcile {b : Board} (hnodup : b.keys.Nodup) (hb : b.Captioned)
    (snapshot : List Job) :
    (b.reconcile snapshot).2.Tells b (b.reconcile snapshot).1 where
  created := b.created_reconcile snapshot
  updated := updated_reconcile hb snapshot
  mem_removed key := by
    rw [(b.removed_reconcile_perm snapshot).mem_iff, List.mem_filter, decide_eq_true_iff]
  ascending := pairwise_removed_reconcile hnodup snapshot
  nodup := nodup_reconcile hnodup hb snapshot
  requests := by
    rw [keys_reconcile]
    exact ⟨keys_requestsFrom b.issued _, seqs_requestsFrom b.issued _⟩
  kept s hs t ht hkey := by
    have hkept := discovery_of_mem_reconcile ht
    rw [hkey, section?_of_mem hnodup hs] at hkept
    exact hkept
  fresh t ht hnew := by
    have hfresh := discovery_of_mem_reconcile ht
    rw [section?_eq_none.mpr hnew] at hfresh
    exact hfresh

/-- The same snapshot once more leaves every section as it is. -/
theorem sections_reconcile_reconcile (b : Board) (snapshot : List Job) :
    ((b.reconcile snapshot).1.reconcile snapshot).1.sections =
      (b.reconcile snapshot).1.sections := by
  rw [sections_reconcile, sections_reconcile]
  refine List.map_congr_left ?_
  intro job hjob
  have hsection : (b.reconcile snapshot).1.section? job.key = some (b.refreshed job) := by
    rw [section?_reconcile, mem_shownJobs.mp hjob, Option.map_some]
  rw [refreshed, hsection]
  rfl

def requestsFor (b : Board) : News → List DiscoveryRequest
  | .snapshot jobs => (b.reconcile jobs).2.requests
  | .answer _ _ _ => []

/-- The requests that a board makes while it is told news in order. -/
def requested (b : Board) : List News → List DiscoveryRequest
  | [] => []
  | first :: news => b.requestsFor first ++ (b.tell first).requested news

/-- Requests are numbered on from the last one, and their last number is kept. -/
theorem seqs_requestsFor (b : Board) (news : News) :
    (b.requestsFor news).map DiscoveryRequest.seq =
        List.range' (b.issued + 1) (b.requestsFor news).length ∧
      (b.tell news).issued = b.issued + (b.requestsFor news).length := by
  cases news with
  | snapshot jobs =>
    have hlength : (b.requestsFor (.snapshot jobs)).length =
        ((shownJobs jobs).map Job.key).length :=
      length_requestsFrom _ _
    rw [hlength]
    exact ⟨seqs_requestsFrom _ _, congrArg (b.issued + ·) (List.length_map _).symm⟩
  | answer key seq running => exact ⟨rfl, b.issued_hear key seq running⟩

/-- Requests are numbered on without a gap. -/
theorem seqs_requested (b : Board) (news : List News) :
    (b.requested news).map DiscoveryRequest.seq =
        List.range' (b.issued + 1) (b.requested news).length ∧
      (news.foldl tell b).issued = b.issued + (b.requested news).length := by
  induction news generalizing b with
  | nil => exact ⟨rfl, rfl⟩
  | cons first news ih =>
    obtain ⟨hfirst, hissued⟩ := b.seqs_requestsFor first
    obtain ⟨hrest, hlast⟩ := ih (b.tell first)
    rw [hissued] at hrest hlast
    rw [requested, List.map_append, List.length_append, hfirst, hrest, List.foldl_cons, hlast]
    refine ⟨?_, Nat.add_assoc _ _ _⟩
    rw [← List.range'_append_1]
    congr 2
    omega

theorem seqs_requested_run (news : List News) :
    (requested {} news).map DiscoveryRequest.seq = List.range' 1 (run news).issued := by
  obtain ⟨hseqs, hissued⟩ := seqs_requested {} news
  have hlength : (run news).issued = (requested {} news).length :=
    hissued.trans (Nat.zero_add _)
  rw [hlength]
  exact hseqs

/-- On every board that a run leads to, the report of a snapshot tells exactly what the snapshot did
to the sections. Its requests have greater numbers than all requests before. The same snapshot once
more creates and removes nothing and leaves all sections as they are. -/
theorem report_tells_the_difference (news : List News) (snapshot : List Job) :
    let before := run news
    let after := (before.reconcile snapshot).1
    let report := (before.reconcile snapshot).2
    let again := after.reconcile snapshot
    report.Tells before after ∧
      (∀ earlier ∈ requested {} news, ∀ request ∈ report.requests, earlier.seq < request.seq) ∧
      again.2.created = [] ∧ again.2.removed = [] ∧ again.1.sections = after.sections := by
  intro before after report again
  -- Captions are kept by snapshots and answers, so none is ever reported as changed.
  have htells := tells_reconcile (nodup_keys_run news) (captioned_run news) snapshot
  have hagain : again.2.Tells after again.1 :=
    tells_reconcile (nodup_keys_tell (nodup_keys_run news) (.snapshot snapshot))
      (captioned_tell (captioned_run news) (.snapshot snapshot)) snapshot
  have hsections : again.1.sections = after.sections := before.sections_reconcile_reconcile snapshot
  have hkeys : again.1.keys = after.keys := congrArg (List.map Section.key) hsections
  refine ⟨htells, ?_, ?_, ?_, hsections⟩
  · intro earlier hearlier request hrequest
    have hbefore := seqs_requested_run news ▸ List.mem_map_of_mem hearlier
    have hafter := htells.requests.2 ▸ List.mem_map_of_mem hrequest
    rw [List.mem_range'_1] at hbefore hafter
    omega
  · rw [hagain.created, hkeys]
    simp
  · rw [List.eq_nil_iff_forall_not_mem]
    intro key hkey
    obtain ⟨hkept, hgone⟩ := (hagain.mem_removed key).mp hkey
    exact hgone (hkeys ▸ hkept)

def unshifted : List Job :=
  [⟨⟨"api", "ops"⟩, []⟩, ⟨⟨"old", "ops"⟩, []⟩]

def shifted : List Job :=
  [⟨⟨"api", "ops"⟩, [⟨"core", .running⟩]⟩, ⟨⟨"web", "ops"⟩, []⟩]

/-- Two jobs are listed, and the discovery of the first is found to run. -/
def beforeShift : List News :=
  [.snapshot unshifted, .answer ⟨"api", "ops"⟩ 1 true]

def afterShift : Board where
  sections := [⟨⟨"api", "ops"⟩, "api - ops", [.project "core" .running], .running, 1⟩,
    ⟨⟨"web", "ops"⟩, "web - ops", [.placeholder ⟨"web", "ops"⟩], .unknown, 0⟩]
  issued := 4

def shiftReport : Report where
  created := [⟨"web", "ops"⟩]
  updated := [⟨⟨"api", "ops"⟩, false⟩]
  removed := [⟨"old", "ops"⟩]
  requests := [⟨⟨"api", "ops"⟩, 3⟩, ⟨⟨"web", "ops"⟩, 4⟩]
  stats := { running := 1 }

theorem reconcile_shifted : (run beforeShift).reconcile shifted = (afterShift, shiftReport) := by
  have hunshifted : sortJobs (lastOfEachKey unshifted) = unshifted :=
    List.mergeSort_of_pairwise (by decide +kernel)
  have hshifted : sortJobs (lastOfEachKey shifted) = shifted :=
    List.mergeSort_of_pairwise (by decide +kernel)
  simp only [beforeShift, run, List.foldl_cons, List.foldl_nil, tell, reconcile, hunshifted,
    hshifted]
  decide +kernel

theorem report_tells_the_shift :
    (run beforeShift).reconcile shifted = (afterShift, shiftReport) ∧
      shiftReport.Tells (run beforeShift) afterShift ∧
      (∀ earlier ∈ requested {} beforeShift, ∀ request ∈ shiftReport.requests,
        earlier.seq < request.seq) ∧
      (afterShift.reconcile shifted).2.created = [] ∧
      (afterShift.reconcile shifted).2.removed = [] ∧
      (afterShift.reconcile shifted).1.sections = afterShift.sections := by
  have htells := report_tells_the_difference beforeShift shifted
  simp only [reconcile_shifted] at htells
  exact ⟨reconcile_shifted, htells⟩

end Board

end JobBoard
