import JobBoard.Proofs.Board.Sections
import Mathlib.Data.List.Induction
import Mathlib.Data.List.Nodup

/-!
# Answers out of order

A run tells a board snapshots and answers in any order. A section remembers the greatest number it
heard since it was created, and with it the answer of that number, so in the end it shows the newest
of these answers however late the others came. Main statement:
`run_shows_newest_answer`.
-/
namespace JobBoard

/-- A section shows the newest of some answers, numbers with flags; if there is none it shows
nothing. -/
structure Section.Shows (s : Section) (answers : List (Nat × Bool)) : Prop where
  unknown : answers = [] → s.discovery = .unknown ∧ s.applied = 0
  newest : answers ≠ [] →
    ∃ running, (s.applied, running) ∈ answers ∧ s.discovery = Board.answered running
  le_applied : ∀ a ∈ answers, a.1 ≤ s.applied

theorem Section.Shows.hear {s : Section} {answers : List (Nat × Bool)} (h : s.Shows answers)
    {seq : Nat} (hseq : 1 ≤ seq) (running : Bool) :
    (s.hear seq running).Shows (answers ++ [(seq, running)]) := by
  unfold Section.hear
  split
  next hstale =>
    have hsome : answers ≠ [] := by
      intro hnil
      have := (h.unknown hnil).2
      omega
    obtain ⟨flag, hmem, hflag⟩ := h.newest hsome
    refine ⟨by simp, fun _ => ⟨flag, List.mem_append_left _ hmem, hflag⟩, ?_⟩
    intro a ha
    rcases List.mem_append.mp ha with ha | ha
    · exact h.le_applied a ha
    · rw [List.mem_singleton.mp ha]
      exact hstale
  next hfresh =>
    refine ⟨by simp, fun _ => ⟨running, by simp, rfl⟩, ?_⟩
    intro a ha
    rcases List.mem_append.mp ha with ha | ha
    · have := h.le_applied a ha
      change a.1 ≤ seq
      omega
    · obtain rfl := List.mem_singleton.mp ha
      exact Nat.le_refl seq

theorem Section.Shows.congr {s t : Section} {answers : List (Nat × Bool)} (h : s.Shows answers)
    (hdiscovery : t.discovery = s.discovery) (happlied : t.applied = s.applied) :
    t.Shows answers := by
  constructor
  · rw [hdiscovery, happlied]
    exact h.unknown
  · rw [hdiscovery, happlied]
    exact h.newest
  · rw [happlied]
    exact h.le_applied

namespace Board

inductive News where
  | snapshot (jobs : List Job)
  | answer (key : JobKey) (seq : Nat) (running : Bool)

def tell (b : Board) : News → Board
  | .snapshot jobs => (b.reconcile jobs).1
  | .answer key seq running => b.hear key seq running

def run (news : List News) : Board :=
  news.foldl tell {}

@[simp] theorem run_append_singleton (news : List News) (last : News) :
    run (news ++ [last]) = (run news).tell last := by
  simp [run]

theorem nodup_keys_tell {b : Board} (hb : b.keys.Nodup) (news : News) :
    (b.tell news).keys.Nodup := by
  cases news with
  | snapshot jobs =>
    rw [tell, keys_reconcile]
    exact nodup_keys_shownJobs jobs
  | answer key seq running =>
    rw [tell, keys_hear]
    exact hb

theorem nodup_keys_run (news : List News) : (run news).keys.Nodup := by
  induction news using List.reverseRecOn with
  | nil => exact List.nodup_nil
  | append_singleton news last ih =>
    rw [run_append_singleton]
    exact nodup_keys_tell ih last

def News.answerFor? (key : JobKey) : News → Option (Nat × Bool)
  | .snapshot _ => none
  | .answer k seq running => if k = key then some (seq, running) else none

/-- The answers for a key, in the order they came. -/
def answersFor (key : JobKey) (news : List News) : List (Nat × Bool) :=
  news.filterMap (News.answerFor? key)

theorem answersFor_append (key : JobKey) (news more : List News) :
    answersFor key (news ++ more) = answersFor key news ++ answersFor key more :=
  List.filterMap_append

theorem answersFor_snapshot (key : JobKey) (jobs : List Job) :
    answersFor key [.snapshot jobs] = [] :=
  rfl

theorem answersFor_answer (key k : JobKey) (seq : Nat) (running : Bool) :
    answersFor key [.answer k seq running] = if k = key then [(seq, running)] else [] := by
  by_cases hk : k = key <;> simp [answersFor, News.answerFor?, hk]

def News.number? : News → Option (JobKey × Nat)
  | .snapshot _ => none
  | .answer key seq _ => some (key, seq)

def numbers (news : List News) : List (JobKey × Nat) :=
  news.filterMap News.number?

theorem numbers_answersFor_sublist (key : JobKey) (news : List News) :
    ((answersFor key news).map fun a => (key, a.1)).Sublist (numbers news) := by
  induction news with
  | nil => exact List.Sublist.refl _
  | cons first news ih =>
    cases first with
    | snapshot jobs => exact ih
    | answer k seq running =>
      by_cases hk : k = key
      · subst k
        simpa [answersFor, numbers, News.answerFor?, News.number?] using ih
      · simpa [answersFor, numbers, News.answerFor?, News.number?, hk] using ih.cons (k, seq)

/-- `after` is what a board heard since it last created the section of a key, a section that it has
had ever since. -/
def SinceCreation (key : JobKey) (news after : List News) : Prop :=
  ∃ before jobs, news = before ++ .snapshot jobs :: after ∧ key ∉ (run before).keys ∧
    ∀ heard, heard <+: after → key ∈ (run (before ++ .snapshot jobs :: heard)).keys

theorem SinceCreation.append_singleton {key : JobKey} {news after : List News}
    (h : SinceCreation key news after) {last : News} (hlast : key ∈ (run (news ++ [last])).keys) :
    SinceCreation key (news ++ [last]) (after ++ [last]) := by
  obtain ⟨before, jobs, rfl, hnew, hkept⟩ := h
  refine ⟨before, jobs, by simp, hnew, ?_⟩
  intro heard hheard
  rcases List.prefix_concat_iff.mp hheard with rfl | hheard
  · simpa using hlast
  · exact hkept heard hheard

theorem sinceCreation_created {key : JobKey} {news : List News} {jobs : List Job}
    (hnew : key ∉ (run news).keys) (hlast : key ∈ (run (news ++ [.snapshot jobs])).keys) :
    SinceCreation key (news ++ [.snapshot jobs]) [] := by
  refine ⟨news, jobs, rfl, hnew, ?_⟩
  intro heard hheard
  rw [List.prefix_nil.mp hheard]
  exact hlast

/-- A section that was kept since one snapshot was not created by a later one. -/
theorem eq_of_kept_of_new {key : JobKey} {before more after after' : List News} {x y : News}
    (heq : x :: after = more ++ y :: after') (hnew : key ∉ (run (before ++ more)).keys)
    (hkept : ∀ heard, heard <+: after → key ∈ (run (before ++ x :: heard)).keys) :
    after = after' := by
  cases more with
  | nil =>
    cases heq
    rfl
  | cons z more =>
    rw [List.cons_append, List.cons.injEq] at heq
    obtain ⟨rfl, rfl⟩ := heq
    exact absurd (hkept more (List.prefix_append more _)) hnew

/-- A section was last created at one point only. -/
theorem SinceCreation.unique {key : JobKey} {news after after' : List News}
    (h : SinceCreation key news after) (h' : SinceCreation key news after') : after = after' := by
  obtain ⟨before, jobs, rfl, hnew, hkept⟩ := h
  obtain ⟨before', jobs', heq, hnew', hkept'⟩ := h'
  rcases List.append_eq_append_iff.mp heq with ⟨more, rfl, hrest⟩ | ⟨more, rfl, hrest⟩
  · exact eq_of_kept_of_new hrest hnew' hkept
  · exact (eq_of_kept_of_new hrest hnew hkept').symm

/-- Every section shows the newest of the answers since its creation. -/
theorem exists_sinceCreation_shows {news : List News}
    (hpos : ∀ number ∈ numbers news, 1 ≤ number.2) {key : JobKey} {s : Section}
    (hs : (run news).section? key = some s) :
    ∃ after, SinceCreation key news after ∧ s.Shows (answersFor key after) := by
  induction news using List.reverseRecOn generalizing s with
  | nil => cases hs
  | append_singleton news last ih =>
    have hmem : key ∈ (run (news ++ [last])).keys :=
      isSome_section?.mp (Option.isSome_of_eq_some hs)
    have ih := @ih fun number hnumber => hpos number (by
      rw [numbers, List.filterMap_append]
      exact List.mem_append_left _ hnumber)
    rw [run_append_singleton] at hs
    cases last with
    | snapshot jobs =>
      rw [tell, section?_reconcile, Option.map_eq_some_iff] at hs
      obtain ⟨job, hjob, rfl⟩ := hs
      have hkey := key_of_lastWith? hjob
      subst hkey
      have hkept := (run news).discovery_refreshed job
      cases hold : (run news).section? job.key with
      | none =>
        -- The section is created here, so nothing counts that was heard before.
        rw [hold] at hkept
        refine ⟨[], sinceCreation_created (section?_eq_none.mp hold) hmem, ?_⟩
        exact ⟨fun _ => hkept, fun h => absurd rfl h, by simp [answersFor]⟩
      | some old =>
        -- The section is kept, and its discovery with it.
        rw [hold] at hkept
        obtain ⟨after, hafter, hshows⟩ := ih hold
        refine ⟨after ++ [.snapshot jobs], hafter.append_singleton hmem, ?_⟩
        rw [answersFor_append, answersFor_snapshot, List.append_nil]
        exact hshows.congr hkept.1 hkept.2
    | answer k seq running =>
      rw [tell, section?_hear, Option.map_eq_some_iff] at hs
      obtain ⟨old, hold, rfl⟩ := hs
      obtain ⟨after, hafter, hshows⟩ := ih hold
      refine ⟨after ++ [.answer k seq running], hafter.append_singleton hmem, ?_⟩
      rw [answersFor_append, answersFor_answer]
      by_cases hk : key = k
      · subst k
        have hseq : 1 ≤ seq := hpos (key, seq) (by simp [numbers, News.number?])
        simpa using hshows.hear hseq running
      · simpa [hk, Ne.symm hk] using hshows

/-- Every section present after a run, in which numbers are at least one and none comes twice for
one key, was last created at one point of the run. If no answer for its key came since, its
discovery is unknown; otherwise it is what the answer with the greatest number says. -/
theorem run_shows_newest_answer {news : List News}
    (hpos : ∀ number ∈ numbers news, 1 ≤ number.2) (honce : (numbers news).Nodup)
    {s : Section} (hs : s ∈ (run news).sections) :
    ∃ after, SinceCreation s.key news after ∧
      (∀ other, SinceCreation s.key news other → other = after) ∧
      (answersFor s.key after = [] → s.discovery = .unknown) ∧
      (answersFor s.key after ≠ [] → ∃ a ∈ answersFor s.key after,
        (∀ other ∈ answersFor s.key after, other ≠ a → other.1 < a.1) ∧
          s.discovery = answered a.2) := by
  obtain ⟨after, hafter, hshows⟩ :=
    exists_sinceCreation_shows hpos (section?_of_mem (nodup_keys_run news) hs)
  refine ⟨after, hafter, fun other hother => hother.unique hafter,
    fun hnil => (hshows.unknown hnil).1, ?_⟩
  intro hsome
  obtain ⟨running, hmem, hflag⟩ := hshows.newest hsome
  refine ⟨(s.applied, running), hmem, ?_, hflag⟩
  intro other hother hne
  have hle := hshows.le_applied other hother
  obtain ⟨before, jobs, rfl, -, -⟩ := hafter
  have hnodup : ((answersFor s.key after).map fun a => (s.key, a.1)).Nodup := by
    apply (numbers_answersFor_sublist s.key after).nodup
    rw [numbers, List.filterMap_append] at honce
    exact honce.of_append_right
  have hseq : other.1 ≠ s.applied := fun heq =>
    hne (List.inj_on_of_nodup_map hnodup hother hmem (congrArg (Prod.mk s.key) heq))
  change other.1 < s.applied
  omega

/-- A job that goes and comes back; of the two answers after that, the older one comes last. -/
def comeback : List News :=
  [.snapshot [⟨⟨"api", "ops"⟩, []⟩], .answer ⟨"api", "ops"⟩ 9 false, .snapshot [],
    .snapshot [⟨⟨"api", "ops"⟩, []⟩, ⟨⟨"web", "ops"⟩, []⟩], .answer ⟨"api", "ops"⟩ 5 true,
    .answer ⟨"web", "ops"⟩ 6 false, .answer ⟨"api", "ops"⟩ 4 false]

def comebackSection : Section :=
  ⟨⟨"api", "ops"⟩, "api - ops", [.placeholder ⟨"api", "ops"⟩], .running, 5⟩

theorem run_comeback_shows_newest_answer :
    (∀ number ∈ numbers comeback, 1 ≤ number.2) ∧ (numbers comeback).Nodup ∧
      comebackSection ∈ (run comeback).sections ∧
      ∃ after, SinceCreation comebackSection.key comeback after ∧
        (∀ other, SinceCreation comebackSection.key comeback other → other = after) ∧
        (answersFor comebackSection.key after = [] → comebackSection.discovery = .unknown) ∧
        (answersFor comebackSection.key after ≠ [] →
          ∃ a ∈ answersFor comebackSection.key after,
            (∀ other ∈ answersFor comebackSection.key after, other ≠ a → other.1 < a.1) ∧
              comebackSection.discovery = answered a.2) := by
  have hpos : ∀ number ∈ numbers comeback, 1 ≤ number.2 := by decide
  have honce : (numbers comeback).Nodup := by decide
  have hsection : (run comeback).section? ⟨"api", "ops"⟩ = some comebackSection := by
    simp only [comeback, run, List.foldl_cons, List.foldl_nil, tell,
      Board.section?_hear, Board.section?_reconcile]
    decide +kernel
  have hs : comebackSection ∈ (run comeback).sections := mem_of_section? hsection
  exact ⟨hpos, honce, hs, run_shows_newest_answer hpos honce hs⟩

end Board

end JobBoard
