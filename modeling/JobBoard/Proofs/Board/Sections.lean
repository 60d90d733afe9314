import JobBoard.Board
import JobBoard.Proofs.Snapshot.Latest
import Mathlib.Data.List.Nodup

/-!
# Looking up sections

What a snapshot and an answer do to the section of a key. A snapshot decides by itself which keys
have sections, and a section it finds keeps its discovery; an answer never changes keys, captions or
rows, and touches the section of its own key only.
-/
namespace JobBoard

/-- The part of a section that a snapshot decides. -/
structure Face where
  key : JobKey
  caption : String
  rows : List Row

def Section.face (s : Section) : Face :=
  ⟨s.key, s.caption, s.rows⟩

/-- The section after an answer for its key: an answer no newer than the last changes nothing. -/
def Section.hear (s : Section) (seq : Nat) (running : Bool) : Section :=
  if seq ≤ s.applied then s else { s with applied := seq, discovery := Board.answered running }

namespace Board

theorem key_of_section? {b : Board} {key : JobKey} {s : Section} (h : b.section? key = some s) :
    s.key = key := by
  unfold section? at h
  simpa using List.find?_some h

theorem mem_of_section? {b : Board} {key : JobKey} {s : Section} (h : b.section? key = some s) :
    s ∈ b.sections :=
  List.mem_of_find?_eq_some h

theorem isSome_section? {b : Board} {key : JobKey} : (b.section? key).isSome ↔ key ∈ b.keys := by
  simp [section?, keys]

theorem section?_eq_none {b : Board} {key : JobKey} : b.section? key = none ↔ key ∉ b.keys := by
  rw [← isSome_section?, Option.not_isSome_iff_eq_none]

theorem section?_of_mem {b : Board} (hb : b.keys.Nodup) {s : Section} (hs : s ∈ b.sections) :
    b.section? s.key = some s := by
  obtain ⟨t, ht⟩ := Option.isSome_iff_exists.mp (isSome_section?.mpr (List.mem_map_of_mem hs))
  have hst : t = s :=
    List.inj_on_of_nodup_map hb (mem_of_section? ht) hs (key_of_section? ht)
  rw [ht, hst]

theorem sections_reconcile (b : Board) (snapshot : List Job) :
    (b.reconcile snapshot).1.sections = (shownJobs snapshot).map b.refreshed :=
  rfl

theorem key_refreshed (b : Board) (job : Job) : (b.refreshed job).key = job.key := by
  change ((b.section? job.key).getD (Section.fresh job.key)).key = job.key
  cases h : b.section? job.key with
  | none => rfl
  | some s => exact key_of_section? h

theorem keys_reconcile (b : Board) (snapshot : List Job) :
    (b.reconcile snapshot).1.keys = (shownJobs snapshot).map Job.key := by
  unfold keys
  rw [sections_reconcile, List.map_map]
  exact List.map_congr_left fun job _ => b.key_refreshed job

theorem section?_reconcile (b : Board) (snapshot : List Job) (key : JobKey) :
    (b.reconcile snapshot).1.section? key = (lastWith? snapshot key).map b.refreshed := by
  have hkeys : (b.reconcile snapshot).1.keys.Nodup :=
    b.keys_reconcile snapshot ▸ nodup_keys_shownJobs snapshot
  cases hlast : lastWith? snapshot key with
  | none =>
    rw [Option.map_none, section?_eq_none, keys_reconcile, mem_keys_shownJobs, ← isSome_lastWith?,
      hlast]
    exact Bool.false_ne_true
  | some job =>
    have hkey := key_of_lastWith? hlast
    subst hkey
    have hmem : b.refreshed job ∈ (b.reconcile snapshot).1.sections :=
      List.mem_map_of_mem (mem_shownJobs.mpr hlast)
    rw [Option.map_some, ← b.key_refreshed job]
    exact section?_of_mem hkeys hmem

theorem discovery_refreshed (b : Board) (job : Job) :
    (b.refreshed job).discovery = ((b.section? job.key).elim .unknown Section.discovery) ∧
      (b.refreshed job).applied = ((b.section? job.key).elim 0 Section.applied) := by
  unfold refreshed
  cases b.section? job.key <;> exact ⟨rfl, rfl⟩

/-- The board after an answer; an answer that is dropped leaves it as it is. -/
def hear (b : Board) (key : JobKey) (seq : Nat) (running : Bool) : Board :=
  match b.answer key seq running with
  | .ok (b, _) => b
  | .error _ => b

theorem section?_map {f : Section → Section} (hf : ∀ s, (f s).key = s.key) (b : Board)
    (key : JobKey) :
    { b with sections := b.sections.map f }.section? key = (b.section? key).map f := by
  unfold section?
  rw [List.find?_map]
  simp only [Function.comp_def, hf]

theorem section?_hear (b : Board) (key : JobKey) (seq : Nat) (running : Bool) (k : JobKey) :
    (b.hear key seq running).section? k =
      (b.section? k).map fun s => if k = key then s.hear seq running else s := by
  unfold hear answer
  cases hkey : b.section? key with
  | none =>
    by_cases hk : k = key
    · subst k
      simp [hkey]
    · simp [hk]
  | some s =>
    by_cases hstale : seq ≤ s.applied
    · by_cases hk : k = key
      · subst k
        simp [hkey, hstale, Section.hear]
      · simp [hstale, hk]
    · simp only [if_neg hstale]
      rw [section?_map fun t => by split <;> rfl]
      cases ht : b.section? k with
      | none => rfl
      | some t =>
        have htk := key_of_section? ht
        by_cases hk : k = key
        · rw [hk, hkey] at ht
          cases ht
          simp [htk, hk, hstale, Section.hear]
        · simp [htk, hk]

theorem faces_hear (b : Board) (key : JobKey) (seq : Nat) (running : Bool) :
    (b.hear key seq running).sections.map Section.face = b.sections.map Section.face := by
  unfold hear answer
  cases b.section? key with
  | none => rfl
  | some s =>
    by_cases hstale : seq ≤ s.applied
    · simp only [if_pos hstale]
    · simp only [if_neg hstale, List.map_map]
      apply List.map_congr_left
      intro t _
      by_cases ht : t.key = key <;> simp [ht, Section.face]

theorem keys_eq_of_faces (b : Board) : b.keys = (b.sections.map Section.face).map Face.key := by
  rw [List.map_map]
  rfl

theorem keys_hear (b : Board) (key : JobKey) (seq : Nat) (running : Bool) :
    (b.hear key seq running).keys = b.keys := by
  rw [keys_eq_of_faces, faces_hear, ← keys_eq_of_faces]

theorem issued_hear (b : Board) (key : JobKey) (seq : Nat) (running : Bool) :
    (b.hear key seq running).issued = b.issued := by
  unfold hear answer
  cases b.section? key with
  | none => rfl
  | some s => by_cases hstale : seq ≤ s.applied <;> simp [hstale]

end Board

end JobBoard
