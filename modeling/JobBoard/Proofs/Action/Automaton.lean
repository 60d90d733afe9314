import JobBoard.Proofs.Action.Slots
import Mathlib.Data.List.Induction
import Mathlib.Data.Set.Card

/-!
# The automaton of one target

The slots are called for all targets in any order, with any outcomes and generations. Seen from one
target they are a small automaton that hears of the calls for its own target only, and all that it
needs to know of the others is the number that its next attempt would be given. Main statement:
`slots_follow_automata`.
-/
namespace JobBoard.Slots

inductive Call where
  | begin (t : Target)
  | settle (t : Target) (outcome : Outcome)
  | reset (t : Target) (generation : Nat)

def Call.target : Call → Target
  | .begin t => t
  | .settle t _ => t
  | .reset t _ => t

def accept? (s : Slots) : Call → Option Slots
  | .begin t => s.begin? t
  | .settle t outcome => (s.settle? t outcome).map Prod.fst
  | .reset t generation => s.reset? t generation

/-- The slots after a call, accepted or not. -/
def take (s : Slots) (c : Call) : Slots :=
  (s.accept? c).getD s

def after (calls : List Call) : Slots :=
  calls.foldl take {}

/-- The calls in order, each with the number of the attempt that it would begin. -/
def stamped (s : Slots) : List Call → List (Call × Nat)
  | [] => []
  | c :: calls => (c, s.generations + 1) :: (s.take c).stamped calls

/-- The attempt that a call begins: its target, and the generation that the slot then has. -/
def attempt? (s : Slots) : Call → Option (Target × Nat)
  | .begin t => (s.begin? t).bind fun begun => (begun.slot? t).map fun slot => (t, slot.generation)
  | _ => none

/-- The attempts that calls begin, in order. -/
def attempts (s : Slots) : List Call → List (Target × Nat)
  | [] => []
  | c :: calls => (s.attempt? c).toList ++ (s.take c).attempts calls

def latest? (calls : List Call) (t : Target) : Option Nat :=
  (((attempts {} calls).filter (·.1 = t)).map Prod.snd).getLast?

end Slots

/-- One target by itself. -/
structure Automaton where
  phase : Phase := .idle
  /-- Generation of its latest attempt. -/
  latest : Option Nat := none

namespace Automaton

open Slots (Call)

def move? (a : Automaton) : Call × Nat → Option Automaton
  | (.begin _, number) => if a.phase = .busy then none else some ⟨.busy, some number⟩
  | (.settle _ outcome, _) =>
    if a.phase = .busy then some { a with phase := .settled outcome.settlement } else none
  | (.reset _ generation, _) =>
    match a.phase with
    | .settled _ => if a.latest = some generation then some { a with phase := .idle } else none
    | _ => none

def hear (a : Automaton) (c : Call × Nat) : Automaton :=
  (a.move? c).getD a

/-- The automaton of a target after the calls for this target among all. -/
def after (calls : List Call) (t : Target) : Automaton :=
  ((Slots.stamped {} calls).filter (·.1.target = t)).foldl hear {}

end Automaton

namespace Slots

theorem after_append_singleton (calls : List Call) (c : Call) :
    after (calls ++ [c]) = (after calls).take c := by
  simp [after]

theorem stamped_append_singleton (s : Slots) (calls : List Call) (c : Call) :
    s.stamped (calls ++ [c]) = s.stamped calls ++ [(c, (calls.foldl take s).generations + 1)] := by
  induction calls generalizing s with
  | nil => rfl
  | cons d calls ih =>
    rw [List.cons_append, stamped, ih, stamped, List.cons_append, List.foldl_cons]

theorem attempts_append_singleton (s : Slots) (calls : List Call) (c : Call) :
    s.attempts (calls ++ [c]) = s.attempts calls ++ ((calls.foldl take s).attempt? c).toList := by
  induction calls generalizing s with
  | nil => simp [attempts]
  | cons d calls ih =>
    rw [List.cons_append, attempts, ih, attempts, List.append_assoc, List.foldl_cons]

theorem automaton_append_singleton (calls : List Call) (c : Call) (t : Target) :
    Automaton.after (calls ++ [c]) t =
      if c.target = t then (Automaton.after calls t).hear (c, (after calls).generations + 1)
      else Automaton.after calls t := by
  unfold Automaton.after
  rw [stamped_append_singleton, List.filter_append, List.foldl_append]
  by_cases hc : c.target = t
  · rw [if_pos hc, List.filter_cons_of_pos (by simpa using hc)]
    rfl
  · rw [if_neg hc, List.filter_cons_of_neg (by simpa using hc)]
    rfl

theorem begin?_eq_none {s : Slots} {t : Target} : s.begin? t = none ↔ s.phase t = .busy := by
  simp [begin?, isBusy]

theorem reset?_eq_none {s : Slots} {t : Target} {generation : Nat} :
    s.reset? t generation = none ↔ ∀ result, s.slot? t ≠ some ⟨some result, generation⟩ := by
  constructor
  · intro h result hslot
    have hsome := reset?_of_settled hslot
    rw [h] at hsome
    cases hsome
  · intro h
    cases hreset : s.reset? t generation with
    | none => rfl
    | some idle =>
      obtain ⟨⟨result, hslot⟩, -⟩ := slot?_reset? hreset
      exact absurd hslot (h result)

theorem slot?_accept?_of_ne {s next : Slots} {c : Call} (h : s.accept? c = some next) {u : Target}
    (hu : u ≠ c.target) : next.slot? u = s.slot? u := by
  cases c with
  | begin t =>
    rw [slot?_begin? h]
    exact if_neg hu
  | settle t outcome =>
    obtain ⟨⟨settled, generation⟩, hsettle, rfl⟩ := Option.map_eq_some_iff.mp h
    rw [(slot?_settle? hsettle).2]
    exact if_neg hu
  | reset t generation =>
    rw [(slot?_reset? h).2]
    exact if_neg hu

theorem slot?_take_of_ne (s : Slots) {c : Call} {u : Target} (hu : u ≠ c.target) :
    (s.take c).slot? u = s.slot? u := by
  unfold take
  cases h : s.accept? c with
  | none => rfl
  | some next => exact slot?_accept?_of_ne h hu

section Generations

theorem attempt?_begin (s : Slots) (t : Target) :
    s.attempt? (.begin t) = if s.phase t = .busy then none else some (t, s.generations + 1) := by
  rw [attempt?]
  by_cases hbusy : s.phase t = .busy
  · rw [begin?_eq_none.mpr hbusy, if_pos hbusy]
    rfl
  · obtain ⟨begun, hbegun⟩ := Option.isSome_iff_exists.mp (isSome_begin? hbusy)
    rw [hbegun, if_neg hbusy, Option.bind_some, slot?_begin? hbegun, if_pos rfl]
    rfl

/-- Each attempt has the next number, and nothing but an attempt takes one. -/
theorem generations_take (s : Slots) (c : Call) :
    (s.attempt? c = none ∧ (s.take c).generations = s.generations) ∨
      ∃ t, c = .begin t ∧ s.attempt? c = some (t, s.generations + 1) ∧
        (s.take c).generations = s.generations + 1 := by
  cases c with
  | begin t =>
    rw [attempt?_begin, take, accept?]
    by_cases hbusy : s.phase t = .busy
    · rw [begin?_eq_none.mpr hbusy]
      exact Or.inl ⟨if_pos hbusy, rfl⟩
    · refine Or.inr ⟨t, rfl, if_neg hbusy, ?_⟩
      rw [begin?, isBusy, decide_eq_false hbusy]
      rfl
  | settle t outcome =>
    refine Or.inl ⟨rfl, ?_⟩
    rw [take, accept?, settle?]
    split <;> rfl
  | reset t generation =>
    refine Or.inl ⟨rfl, ?_⟩
    rw [take, accept?, reset?]
    split
    · split <;> rfl
    · rfl

/-- The attempts are numbered from one in the order they begin. -/
theorem generations_attempts (calls : List Call) :
    (attempts {} calls).map Prod.snd = List.range' 1 (after calls).generations := by
  induction calls using List.reverseRecOn with
  | nil => rfl
  | append_singleton calls c ih =>
    rw [attempts_append_singleton, ← after, after_append_singleton, List.map_append, ih]
    rcases (after calls).generations_take c with ⟨hnone, hsame⟩ | ⟨t, -, hsome, hnext⟩
    · rw [hnone, hsame]
      simp
    · rw [hsome, hnext, List.range'_1_concat, Nat.add_comm 1]
      rfl

theorem nodup_generations (calls : List Call) : ((attempts {} calls).map Prod.snd).Nodup := by
  rw [generations_attempts]
  exact List.nodup_range'

theorem latest?_append_singleton (calls : List Call) (c : Call) (t : Target) :
    latest? (calls ++ [c]) t =
      ((((after calls).attempt? c).filter (·.1 = t)).map Prod.snd).or (latest? calls t) := by
  unfold latest?
  rw [attempts_append_singleton, ← after, List.filter_append, List.map_append, List.getLast?_append]
  cases (after calls).attempt? c with
  | none => rfl
  | some attempt =>
    by_cases ht : attempt.1 = t <;> simp [ht, Option.filter]

theorem mem_attempts_of_latest? {calls : List Call} {t : Target} {generation : Nat}
    (h : latest? calls t = some generation) : (t, generation) ∈ attempts {} calls := by
  obtain ⟨⟨u, g⟩, hentry, rfl⟩ := List.mem_map.mp (List.mem_of_getLast? h)
  obtain ⟨hmem, hu⟩ := List.mem_filter.mp hentry
  exact of_decide_eq_true hu ▸ hmem

/-- The latest attempt for a target has its generation for itself, and no attempt for the target
comes after it. -/
theorem eq_of_latest? {calls : List Call} {t u : Target} {generation : Nat}
    (h : latest? calls u = some generation) {earlier since : List (Target × Nat)}
    (hattempts : attempts {} calls = earlier ++ (t, generation) :: since) :
    u = t ∧ t ∉ since.map Prod.fst := by
  have hnodup := nodup_generations calls
  have hmem : (t, generation) ∈ attempts {} calls := by simp [hattempts]
  have hut : (u, generation) = (t, generation) :=
    List.inj_on_of_nodup_map hnodup (mem_attempts_of_latest? h) hmem rfl
  obtain rfl : u = t := congrArg Prod.fst hut
  refine ⟨rfl, ?_⟩
  intro hsince
  obtain ⟨entry, hentry, hu⟩ := List.mem_map.mp hsince
  let later := (since.filter (·.1 = u)).map Prod.snd
  have hlater : later ≠ [] :=
    List.ne_nil_of_mem (List.mem_map_of_mem (List.mem_filter.mpr ⟨hentry, decide_eq_true hu⟩))
  -- The last attempt for the target stands in `since`, and its generation once more before.
  rw [latest?, hattempts, List.filter_append, List.filter_cons_of_pos (by simp), List.map_append,
    List.map_cons, List.getLast?_append_cons, List.getLast?_cons_of_ne_nil hlater] at h
  have hagain : generation ∈ since.map Prod.snd :=
    List.map_subset Prod.snd (List.filter_subset_self since) (List.mem_of_getLast? h)
  rw [hattempts, List.map_append, List.map_cons] at hnodup
  exact (List.nodup_cons.mp hnodup.of_append_right).1 hagain

end Generations

structure Agrees (s : Slots) (t : Target) (a : Automaton) : Prop where
  phase : s.phase t = a.phase
  latest : ∀ slot, s.slot? t = some slot → a.latest = some slot.generation

theorem Agrees.settled {s : Slots} {t : Target} {a : Automaton} (h : s.Agrees t a)
    {result : Settlement} (hsettled : a.phase = .settled result) :
    ∃ generation, s.slot? t = some ⟨some result, generation⟩ ∧ a.latest = some generation := by
  rcases s.phase_cases t with ⟨-, hphase⟩ | ⟨_, -, hphase⟩ | ⟨_, generation, hslot, hphase⟩ <;>
    rw [h.phase, hsettled] at hphase <;> cases hphase
  exact ⟨generation, hslot, h.latest _ hslot⟩

theorem agrees_of_slot? {s : Slots} {t : Target} {a : Automaton} {slot : Slot}
    (hslot : s.slot? t = some slot) (hphase : a.phase = slot.phase)
    (hlatest : a.latest = some slot.generation) : s.Agrees t a where
  phase := by rw [Slots.phase, hslot, hphase]; rfl
  latest other hother := by
    rw [hslot] at hother
    cases hother
    exact hlatest

/-- A call is refused by both, or accepted by both and they agree again. -/
theorem Agrees.call {s : Slots} {a : Automaton} {c : Call} (h : s.Agrees c.target a) :
    (s.accept? c = none ∧ a.move? (c, s.generations + 1) = none) ∨
      ∃ next moved, s.accept? c = some next ∧ a.move? (c, s.generations + 1) = some moved ∧
        next.Agrees c.target moved := by
  cases c with
  | begin t =>
    by_cases hbusy : a.phase = .busy
    · exact Or.inl ⟨begin?_eq_none.mpr (h.phase.trans hbusy), if_pos hbusy⟩
    · obtain ⟨begun, hbegun⟩ := Option.isSome_iff_exists.mp (isSome_begin? (h.phase ▸ hbusy))
      refine Or.inr ⟨begun, _, hbegun, if_neg hbusy, ?_⟩
      exact agrees_of_slot? ((slot?_begin? hbegun t).trans (if_pos rfl)) rfl rfl
  | settle t outcome =>
    cases hsettle : s.settle? t outcome with
    | none =>
      have hbusy : a.phase ≠ .busy := h.phase ▸ settle?_eq_none.mp hsettle
      exact Or.inl ⟨by rw [accept?, hsettle]; rfl, if_neg hbusy⟩
    | some settled =>
      obtain ⟨settled, generation⟩ := settled
      obtain ⟨hslot, hsettled⟩ := slot?_settle? hsettle
      have hbusy : a.phase = .busy := h.phase ▸ phase_eq_busy.mpr ⟨generation, hslot⟩
      refine Or.inr ⟨settled, _, by rw [accept?, hsettle]; rfl, if_pos hbusy, ?_⟩
      exact agrees_of_slot? ((hsettled t).trans (if_pos rfl)) rfl
        (h.latest ⟨none, generation⟩ hslot)
  | reset t generation =>
    cases hreset : s.reset? t generation with
    | none =>
      refine Or.inl ⟨hreset, ?_⟩
      rw [Automaton.move?]
      split
      next result hsettled =>
        obtain ⟨other, hslot, hlatest⟩ := h.settled hsettled
        refine if_neg ?_
        intro hsame
        rw [hlatest, Option.some.injEq] at hsame
        exact reset?_eq_none.mp hreset result (hsame ▸ hslot)
      next => rfl
    | some idle =>
      obtain ⟨⟨result, hslot⟩, hidle⟩ := slot?_reset? hreset
      have hfree : idle.slot? t = none := (hidle t).trans (if_pos rfl)
      have hsettled : a.phase = .settled result := by
        rw [← h.phase, Slots.phase, Call.target, hslot]
        rfl
      refine Or.inr ⟨idle, { a with phase := .idle }, hreset, ?_, ?_, ?_⟩
      · rw [Automaton.move?]
        simp only [hsettled]
        exact if_pos (h.latest _ hslot)
      · exact phase_eq_idle.mpr hfree
      · intro slot hsome
        rw [Call.target, hfree] at hsome
        cases hsome

theorem Agrees.take {s : Slots} {t : Target} {a : Automaton} (h : s.Agrees t a) (c : Call) :
    (s.take c).Agrees t (if c.target = t then a.hear (c, s.generations + 1) else a) := by
  by_cases hc : c.target = t
  · subst hc
    rw [if_pos rfl, Slots.take, Automaton.hear]
    rcases h.call with ⟨hrefused, hstays⟩ | ⟨next, moved, haccepted, hmoves, hnext⟩
    · rw [hrefused, hstays]
      exact h
    · rw [haccepted, hmoves]
      exact hnext
  · have hslot := s.slot?_take_of_ne (Ne.symm hc)
    rw [if_neg hc]
    constructor
    · rw [Slots.phase, hslot]
      exact h.phase
    · rw [hslot]
      exact h.latest

theorem agrees_after (calls : List Call) (t : Target) :
    (after calls).Agrees t (Automaton.after calls t) := by
  induction calls using List.reverseRecOn with
  | nil => exact ⟨rfl, nofun⟩
  | append_singleton calls c ih =>
    rw [automaton_append_singleton, after_append_singleton]
    exact ih.take c

/-- What the automaton takes for the latest attempt of its target is the latest among all. -/
theorem latest_after (calls : List Call) (t : Target) :
    (Automaton.after calls t).latest = latest? calls t := by
  induction calls using List.reverseRecOn with
  | nil => rfl
  | append_singleton calls c ih =>
    rw [automaton_append_singleton, latest?_append_singleton, ← ih]
    cases c with
    | begin u =>
      rw [attempt?_begin, Call.target]
      by_cases hu : u = t
      · subst hu
        rw [if_pos rfl, (agrees_after calls u).phase, Automaton.hear, Automaton.move?]
        by_cases hbusy : (Automaton.after calls u).phase = .busy
        · rw [if_pos hbusy, if_pos hbusy]
          rfl
        · rw [if_neg hbusy, if_neg hbusy]
          simp [Option.filter]
      · rw [if_neg hu]
        split <;> simp [Option.filter, hu]
    | settle u outcome =>
      rw [Automaton.hear, Automaton.move?]
      split
      · split <;> rfl
      · rfl
    | reset u generation =>
      rw [Automaton.hear, Automaton.move?]
      split
      · split
        · split <;> rfl
        · rfl
      · rfl

section InFlight

/-- No target has two slots. -/
def Single (s : Slots) : Prop :=
  (s.used.map Prod.fst).Nodup

theorem Single.free {s : Slots} (h : s.Single) (t : Target) : ((s.free t).map Prod.fst).Nodup :=
  h.sublist (List.filter_sublist.map Prod.fst)

theorem Single.set {s : Slots} (h : s.Single) (t : Target) (slot : Slot) :
    (((t, slot) :: s.free t).map Prod.fst).Nodup := by
  rw [List.map_cons, List.nodup_cons]
  refine ⟨?_, h.free t⟩
  intro hmem
  obtain ⟨entry, hentry, ht⟩ := List.mem_map.mp hmem
  exact of_decide_eq_true (List.mem_filter.mp hentry).2 ht

theorem Single.take {s : Slots} (h : s.Single) (c : Call) : (s.take c).Single := by
  unfold Slots.take
  cases c with
  | begin t =>
    rw [accept?, begin?]
    split
    · exact h
    · exact h.set t _
  | settle t outcome =>
    rw [accept?, settle?]
    split
    · exact h.set t _
    · exact h
  | reset t generation =>
    rw [accept?, reset?]
    split
    · split
      · exact h.free t
      · exact h
    · exact h

theorem single_after (calls : List Call) : (after calls).Single := by
  induction calls using List.reverseRecOn with
  | nil => exact List.nodup_nil
  | append_singleton calls c ih =>
    rw [after_append_singleton]
    exact ih.take c

theorem encard_busy {s : Slots} (h : s.Single) : {t | s.phase t = .busy}.encard = s.inFlight := by
  let busy := (s.used.filter (·.2.result.isNone)).map Prod.fst
  have hnodup : busy.Nodup := h.sublist (List.filter_sublist.map Prod.fst)
  have hbusy : {t | s.phase t = .busy} = {t | t ∈ busy} := by
    ext t
    change s.phase t = .busy ↔ t ∈ busy
    rw [phase_eq_busy, List.mem_map]
    constructor
    · rintro ⟨generation, hslot⟩
      exact ⟨_, List.mem_filter.mpr ⟨Lists.mem_of_lookup hslot, rfl⟩, rfl⟩
    · rintro ⟨⟨u, ⟨result, generation⟩⟩, hentry, rfl⟩
      obtain ⟨hused, hnone⟩ := List.mem_filter.mp hentry
      obtain rfl : result = none := Option.isNone_iff_eq_none.mp hnone
      exact ⟨generation, Lists.lookup_of_mem h hused⟩
  rw [hbusy, ← List.coe_toFinset, Set.encard_coe_eq_coe_finsetCard,
    List.toFinset_card_of_nodup hnodup, List.length_map, inFlight, List.countP_eq_length_filter]

end InFlight

/-- After any calls, and for every target: its phase is that of its automaton, which knows the
latest attempt for the target. A call is accepted exactly if the automaton of its target accepts it,
a settle tells the generation of the latest attempt, and a refused call changes nothing. No two
attempts have the same generation, so a reset is refused if its generation is that of an attempt for
another target, or of one that another attempt for the target came after. As many attempts are out
as targets are busy. -/
theorem slots_follow_automata (calls : List Call) :
    (∀ t, (after calls).phase t = (Automaton.after calls t).phase ∧
      (Automaton.after calls t).latest = latest? calls t) ∧
      (∀ c, ((after calls).accept? c).isSome =
        ((Automaton.after calls c.target).move? (c, (after calls).generations + 1)).isSome) ∧
      (∀ t outcome, ((after calls).settle? t outcome).map Prod.snd =
        if (after calls).phase t = .busy then latest? calls t else none) ∧
      (∀ c, (after calls).accept? c = none → after (calls ++ [c]) = after calls) ∧
      ((attempts {} calls).map Prod.snd).Nodup ∧
      (∀ t generation earlier since,
        attempts {} calls = earlier ++ (t, generation) :: since →
          ∀ u, ((after calls).reset? u generation).isSome → u = t ∧ t ∉ since.map Prod.fst) ∧
      {t | (after calls).phase t = .busy}.encard = (after calls).inFlight := by
  refine ⟨?_, ?_, ?_, ?_, nodup_generations calls, ?_, encard_busy (single_after calls)⟩
  · intro t
    exact ⟨(agrees_after calls t).phase, latest_after calls t⟩
  · intro c
    rcases (agrees_after calls c.target).call with ⟨hs, ha⟩ | ⟨next, moved, hs, ha, -⟩ <;>
      rw [hs, ha] <;> rfl
  · intro t outcome
    rw [← latest_after]
    cases h : (after calls).settle? t outcome with
    | none => rw [if_neg (settle?_eq_none.mp h), Option.map_none]
    | some settled =>
      obtain ⟨settled, generation⟩ := settled
      have hslot := (slot?_settle? h).1
      rw [if_pos (phase_eq_busy.mpr ⟨generation, hslot⟩), (agrees_after calls t).latest _ hslot,
        Option.map_some]
  · intro c hrefused
    rw [after_append_singleton, take, hrefused, Option.getD_none]
  · intro t generation earlier since hattempts u hreset
    obtain ⟨idle, hidle⟩ := Option.isSome_iff_exists.mp hreset
    obtain ⟨⟨result, hslot⟩, -⟩ := slot?_reset? hidle
    have hlatest := (agrees_after calls u).latest _ hslot
    rw [latest_after] at hlatest
    exact eq_of_latest? hlatest hattempts

end Slots

end JobBoard
