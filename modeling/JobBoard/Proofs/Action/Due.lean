import JobBoard.Proofs.Action.Slots

/-!
# What is due

A slot in use waits for one thing: the answer to its request, or the reset of its result. What is
due says everything about a target that the rest of the system can see.
-/
namespace JobBoard

inductive Due where
  | answer (t : Target)
  | reset (t : Target) (generation : Nat)
  deriving DecidableEq

namespace Due

def target : Due → Target
  | answer t => t
  | reset t _ => t

end Due

def Slot.due (t : Target) (s : Slot) : Due :=
  match s.result with
  | none => .answer t
  | some _ => .reset t s.generation

namespace Slots

def due? (s : Slots) (t : Target) : Option Due :=
  (s.slot? t).map (Slot.due t)

theorem due?_eq_none {s : Slots} {t : Target} : s.due? t = none ↔ s.phase t = .idle := by
  rw [phase_eq_idle, due?, Option.map_eq_none_iff]

theorem due?_eq_answer {s : Slots} {t : Target} :
    s.due? t = some (.answer t) ↔ s.phase t = .busy := by
  rw [phase_eq_busy, due?, Option.map_eq_some_iff]
  constructor
  · rintro ⟨⟨result, generation⟩, hslot, hdue⟩
    cases result with
    | none => exact ⟨generation, hslot⟩
    | some result => cases hdue
  · rintro ⟨generation, hslot⟩
    exact ⟨_, hslot, rfl⟩

theorem due?_eq_reset {s : Slots} {t : Target} {generation : Nat} :
    s.due? t = some (.reset t generation) ↔
      ∃ result, s.slot? t = some ⟨some result, generation⟩ := by
  rw [due?, Option.map_eq_some_iff]
  constructor
  · rintro ⟨⟨result, g⟩, hslot, hdue⟩
    cases result with
    | none => cases hdue
    | some result =>
      cases hdue
      exact ⟨result, hslot⟩
  · rintro ⟨result, hslot⟩
    exact ⟨_, hslot, rfl⟩

def dues (s : Slots) (x : Due) : Nat :=
  (s.due? x.target).toList.count x

theorem dues_pos {s : Slots} {x : Due} (h : 0 < s.dues x) : s.due? x.target = some x := by
  have hmem := List.count_pos_iff.mp h
  rwa [Option.mem_toList] at hmem

/-- A change to the slot of one target: if what is due there is what was due, less what came in and
with what went out, then the same holds of everything. -/
theorem dues_of_target {s changed : Slots} (t : Target) {came went : List Due}
    (hframe : ∀ u, u ≠ t → changed.slot? u = s.slot? u)
    (hcame : ∀ x ∈ came, x.target = t) (hwent : ∀ x ∈ went, x.target = t)
    (ht : ((changed.due? t).toList ++ came).Perm ((s.due? t).toList ++ went)) (x : Due) :
    changed.dues x + came.count x = s.dues x + went.count x := by
  unfold dues
  by_cases hx : x.target = t
  · rw [hx, ← List.count_append, ← List.count_append]
    exact ht.count_eq x
  · rw [List.count_eq_zero_of_not_mem fun h => hx (hcame x h),
      List.count_eq_zero_of_not_mem fun h => hx (hwent x h), due?, due?, hframe _ hx]

end Slots

end JobBoard
