import JobBoard.Action
import JobBoard.Proofs.Lists

/-!
# What the operations do to slots

Each operation acts on the slot of its own target and leaves every other slot as it is. An operation
that is accepted says which slot it found.
-/
namespace JobBoard.Slots

theorem lookup_cons_free (s : Slots) (t : Target) (slot : Slot) (u : Target) :
    ((t, slot) :: s.free t).lookup u = if u = t then some slot else s.slot? u := by
  rw [Lists.lookup_cons_eq, free, Lists.lookup_filter_ne]
  by_cases hu : u = t <;> simp [hu, slot?]

theorem phase_cases (s : Slots) (t : Target) :
    (s.slot? t = none ∧ s.phase t = .idle) ∨
    (∃ generation, s.slot? t = some ⟨none, generation⟩ ∧ s.phase t = .busy) ∨
    ∃ result generation, s.slot? t = some ⟨some result, generation⟩ ∧
      s.phase t = .settled result := by
  unfold phase
  cases s.slot? t with
  | none => exact Or.inl ⟨rfl, rfl⟩
  | some slot =>
    obtain ⟨result, generation⟩ := slot
    cases result with
    | none => exact Or.inr (Or.inl ⟨generation, rfl, rfl⟩)
    | some result => exact Or.inr (Or.inr ⟨result, generation, rfl, rfl⟩)

theorem phase_eq_idle {s : Slots} {t : Target} : s.phase t = .idle ↔ s.slot? t = none := by
  rcases s.phase_cases t with ⟨hslot, hphase⟩ | ⟨_, hslot, hphase⟩ | ⟨_, _, hslot, hphase⟩ <;>
    simp [hslot, hphase]

theorem phase_eq_busy {s : Slots} {t : Target} :
    s.phase t = .busy ↔ ∃ generation, s.slot? t = some ⟨none, generation⟩ := by
  rcases s.phase_cases t with ⟨hslot, hphase⟩ | ⟨_, hslot, hphase⟩ | ⟨_, _, hslot, hphase⟩ <;>
    simp [hslot, hphase]

theorem slot?_begin? {s begun : Slots} {t : Target} (h : s.begin? t = some begun) (u : Target) :
    begun.slot? u = if u = t then some ⟨none, s.generations + 1⟩ else s.slot? u := by
  unfold begin? at h
  split at h
  · cases h
  · cases h
    exact s.lookup_cons_free t _ u

theorem isSome_begin? {s : Slots} {t : Target} (h : s.phase t ≠ .busy) : (s.begin? t).isSome := by
  simp [begin?, isBusy, h]

theorem slot?_settle? {s settled : Slots} {t : Target} {o : Outcome} {generation : Nat}
    (h : s.settle? t o = some (settled, generation)) :
    s.slot? t = some ⟨none, generation⟩ ∧
      ∀ u, settled.slot? u = if u = t then some ⟨some o.settlement, generation⟩ else s.slot? u := by
  unfold settle? at h
  split at h
  next g hslot =>
    cases h
    exact ⟨hslot, s.lookup_cons_free t _⟩
  next => cases h

theorem settle?_eq_none {s : Slots} {t : Target} {o : Outcome} :
    s.settle? t o = none ↔ s.phase t ≠ .busy := by
  unfold settle?
  rcases s.phase_cases t with ⟨hslot, hphase⟩ | ⟨_, hslot, hphase⟩ | ⟨_, _, hslot, hphase⟩ <;>
    simp [hslot, hphase]

theorem slot?_reset? {s idle : Slots} {t : Target} {generation : Nat}
    (h : s.reset? t generation = some idle) :
    (∃ result, s.slot? t = some ⟨some result, generation⟩) ∧
      ∀ u, idle.slot? u = if u = t then none else s.slot? u := by
  unfold reset? at h
  split at h
  next result g hslot =>
    split at h
    next hg =>
      cases h
      subst g
      exact ⟨⟨result, hslot⟩, fun u => Lists.lookup_filter_ne s.used t u⟩
    next => cases h
  next => cases h

theorem reset?_of_settled {s : Slots} {t : Target} {result : Settlement} {generation : Nat}
    (h : s.slot? t = some ⟨some result, generation⟩) : (s.reset? t generation).isSome := by
  simp [reset?, h]

end JobBoard.Slots
