import JobBoard.Proofs.Terminal.Loop
import Mathlib.Data.List.Induction

/-!
# Tokens of timers

The timers are used by effects that become commands and by events that become messages, in any
order and with any tokens. A token stands for the alarm that it was given for until it is reported,
and for nothing before and after. Main statement: `tokens_stand_for_alarms`.
-/
namespace JobBoard

open Backend (Event)
open Terminal (Loop)

namespace Timers

inductive Use where
  | effect (effect : Effect)
  | event (event : Event)

namespace Use

def sets : Use → Bool
  | .effect (.schedule _ _) => true
  | _ => false

/-- The event is the report of a token, and there is a message for it. -/
def rings (t : Timers) : Use → Bool
  | .event (.timerFired token) => (t.message (.timerFired token)).message.isSome
  | _ => false

end Use

def use (t : Timers) : Use → Timers
  | .effect effect => (t.command effect).1
  | .event event => (t.message event).timers

def after (uses : List Use) : Timers :=
  uses.foldl use {}

def ringCount (t : Timers) : List Use → Nat
  | [] => 0
  | u :: uses => (u.rings t).toNat + (t.use u).ringCount uses

/-- Among the uses is a timer effect for the alarm, its command has the token, and the uses `since`
come after it. -/
def Given (uses : List Use) (token : Nat) (alarm : Alarm) (since : List Use) : Prop :=
  ∃ before delay, uses = before ++ .effect (.schedule alarm delay) :: since ∧
    ((after before).command (.schedule alarm delay)).2 = .schedule token delay

/-- The token was given for the alarm and has not been reported since. -/
def StandsFor (uses : List Use) (token : Nat) (alarm : Alarm) : Prop :=
  ∃ since, Given uses token alarm since ∧ .event (.timerFired token) ∉ since

section Uses

variable {uses since : List Use} {u : Use} {token : Nat} {alarm : Alarm}

@[simp] theorem after_append_singleton (uses : List Use) (u : Use) :
    after (uses ++ [u]) = (after uses).use u := by
  simp [after]

theorem given_append_singleton :
    Given (uses ++ [u]) token alarm since ↔
      (since = [] ∧ token = (after uses).issued + 1 ∧
        ∃ delay, u = .effect (.schedule alarm delay)) ∨
      ∃ earlier, since = earlier ++ [u] ∧ Given uses token alarm earlier := by
  constructor
  · rintro ⟨before, delay, huses, htoken⟩
    rcases Lists.append_singleton_eq_append_cons.mp huses with
      ⟨rfl, hu, hsince⟩ | ⟨earlier, hsince, h⟩
    · cases htoken
      exact Or.inl ⟨hsince, rfl, delay, hu⟩
    · exact Or.inr ⟨earlier, hsince, before, delay, h, htoken⟩
  · rintro (⟨hsince, rfl, delay, hu⟩ | ⟨earlier, hsince, before, delay, h, htoken⟩)
    · exact ⟨uses, delay,
        Lists.append_singleton_eq_append_cons.mpr (Or.inl ⟨rfl, hu, hsince⟩), rfl⟩
    · exact ⟨before, delay,
        Lists.append_singleton_eq_append_cons.mpr (Or.inr ⟨earlier, hsince, h⟩), htoken⟩

theorem standsFor_append_singleton :
    StandsFor (uses ++ [u]) token alarm ↔
      (token = (after uses).issued + 1 ∧ ∃ delay, u = .effect (.schedule alarm delay)) ∨
      (StandsFor uses token alarm ∧ u ≠ .event (.timerFired token)) := by
  constructor
  · rintro ⟨since, hgiven, hsince⟩
    rcases given_append_singleton.mp hgiven with ⟨-, htoken, hu⟩ | ⟨earlier, rfl, hearlier⟩
    · exact Or.inl ⟨htoken, hu⟩
    · rw [List.mem_append, List.mem_singleton, not_or] at hsince
      exact Or.inr ⟨⟨earlier, hearlier, hsince.1⟩, Ne.symm hsince.2⟩
  · rintro (⟨htoken, hu⟩ | ⟨⟨earlier, hgiven, hearlier⟩, hu⟩)
    · exact ⟨[], given_append_singleton.mpr (Or.inl ⟨rfl, htoken, hu⟩), List.not_mem_nil⟩
    · refine ⟨earlier ++ [u], given_append_singleton.mpr (Or.inr ⟨earlier, rfl, hgiven⟩), ?_⟩
      rw [List.mem_append, List.mem_singleton, not_or]
      exact ⟨hearlier, Ne.symm hu⟩

end Uses

theorem message_timerFired (t : Timers) (token : Nat) :
    (t.message (.timerFired token)).message = (t.alarm? token).map Alarm.message ∧
      (t.alarm? token = none → (t.message (.timerFired token)).timers = t) := by
  rw [message, fire?]
  cases t.alarm? token <;> simp

/-- A use sets a timer, takes the alarm of a token, or leaves the timers as they are. -/
theorem use_cases (t : Timers) (u : Use) :
    (∃ alarm delay, u = .effect (.schedule alarm delay) ∧
      t.use u = ⟨t.pending ++ [(t.issued + 1, alarm)], t.issued + 1⟩) ∨
    (∃ token alarm, u = .event (.timerFired token) ∧ t.alarm? token = some alarm ∧
      t.use u = { t with pending := t.pending.filter (·.1 ≠ token) }) ∨
    (u.sets = false ∧ (∀ token, u = .event (.timerFired token) → t.alarm? token = none) ∧
      t.use u = t) := by
  cases u with
  | effect effect =>
    cases effect with
    | schedule alarm delay => exact Or.inl ⟨alarm, delay, rfl, rfl⟩
    | _ =>
      refine Or.inr (Or.inr ⟨rfl, ?_, rfl⟩)
      rintro _ ⟨⟩
  | event event =>
    cases event with
    | timerFired token =>
      cases h : t.alarm? token with
      | none =>
        refine Or.inr (Or.inr ⟨rfl, ?_, (t.message_timerFired token).2 h⟩)
        rintro _ ⟨⟩
        exact h
      | some alarm =>
        refine Or.inr (Or.inl ⟨token, alarm, rfl, h, ?_⟩)
        rw [use, message, fire?, h]
        rfl
    | _ =>
      refine Or.inr (Or.inr ⟨rfl, ?_, rfl⟩)
      rintro _ ⟨⟩

theorem rings_timerFired {t : Timers} {token : Nat} :
    (Use.event (.timerFired token)).rings t = (t.alarm? token).isSome := by
  rw [Use.rings, (t.message_timerFired token).1, Option.isSome_map]

theorem ringCount_append_singleton (t : Timers) (uses : List Use) (u : Use) :
    t.ringCount (uses ++ [u]) = t.ringCount uses + (u.rings (uses.foldl use t)).toNat := by
  induction uses generalizing t with
  | nil => simp [ringCount]
  | cons v uses ih => simp only [List.cons_append, ringCount, ih, List.foldl_cons, Nat.add_assoc]

structure Recalls (t : Timers) (uses : List Use) : Prop where
  nodup : (t.pending.map Prod.fst).Nodup
  le_issued : ∀ {token alarm since}, Given uses token alarm since → token ≤ t.issued
  mem_pending : ∀ {token alarm}, (token, alarm) ∈ t.pending ↔ StandsFor uses token alarm
  length_pending : t.pending.length + ringCount {} uses = uses.countP Use.sets

section Recalls

variable {uses : List Use}

theorem recalls_sets (h : (after uses).Recalls uses) (alarm : Alarm) (delay : Duration) :
    ((after uses).use (.effect (.schedule alarm delay))).Recalls
      (uses ++ [.effect (.schedule alarm delay)]) := by
  have hnew : (after uses).issued + 1 ∉ (after uses).pending.map Prod.fst := by
    intro hmem
    obtain ⟨⟨token, earlier⟩, hpending, rfl⟩ := List.mem_map.mp hmem
    obtain ⟨since, hgiven, -⟩ := h.mem_pending.mp hpending
    have := h.le_issued hgiven
    omega
  change Recalls ⟨(after uses).pending ++ [((after uses).issued + 1, alarm)],
    (after uses).issued + 1⟩ _
  constructor
  · rw [List.map_append]
    exact h.nodup.append (List.nodup_singleton _) (by simpa using hnew)
  · intro token earlier since hgiven
    rcases given_append_singleton.mp hgiven with ⟨-, htoken, -⟩ | ⟨_, -, hgiven⟩
    · exact Nat.le_of_eq htoken
    · exact Nat.le_succ_of_le (h.le_issued hgiven)
  · intro token other
    rw [standsFor_append_singleton, List.mem_append, h.mem_pending, List.mem_singleton]
    constructor
    · rintro (hearlier | heq)
      · exact Or.inr ⟨hearlier, nofun⟩
      · cases heq
        exact Or.inl ⟨rfl, delay, rfl⟩
    · rintro (⟨rfl, _, heq⟩ | ⟨hearlier, -⟩)
      · cases heq
        exact Or.inr rfl
      · exact Or.inl hearlier
  · have hlength := h.length_pending
    rw [ringCount_append_singleton, List.countP_append]
    simp [Use.rings, Use.sets]
    omega

theorem recalls_rings (h : (after uses).Recalls uses) {token : Nat} {alarm : Alarm}
    (halarm : (after uses).alarm? token = some alarm) :
    Recalls { after uses with pending := (after uses).pending.filter (·.1 ≠ token) }
      (uses ++ [.event (.timerFired token)]) := by
  constructor
  · exact h.nodup.sublist (List.filter_sublist.map Prod.fst)
  · intro other earlier since hgiven
    rcases given_append_singleton.mp hgiven with ⟨-, -, _, hu⟩ | ⟨_, -, hgiven⟩
    · cases hu
    · exact h.le_issued hgiven
  · intro other earlier
    -- A token stands for its alarm until its own report, so only this one is dropped.
    have hother : other ≠ token ↔
        Use.event (.timerFired token) ≠ .event (.timerFired other) := by
      simp [eq_comm]
    rw [standsFor_append_singleton, List.mem_filter, h.mem_pending, decide_eq_true_iff, hother]
    simp
  · have hlength := h.length_pending
    have hpending := (Lists.perm_cons_filter h.nodup (Lists.mem_of_lookup halarm)).length_eq
    have hrings : (Use.event (.timerFired token)).rings (after uses) = true := by
      rw [rings_timerFired, halarm]
      rfl
    rw [ringCount_append_singleton, List.countP_append, ← after, hrings]
    simp [Use.sets] at hpending ⊢
    omega

theorem recalls_quiet (h : (after uses).Recalls uses) {u : Use} (hsets : u.sets = false)
    (hrings : ∀ token, u = .event (.timerFired token) → (after uses).alarm? token = none) :
    (after uses).Recalls (uses ++ [u]) := by
  have hu (alarm : Alarm) (delay : Duration) : u ≠ .effect (.schedule alarm delay) := by
    rintro rfl
    cases hsets
  constructor
  · exact h.nodup
  · intro token alarm since hgiven
    rcases given_append_singleton.mp hgiven with ⟨-, -, delay, heq⟩ | ⟨_, -, hgiven⟩
    · exact absurd heq (hu alarm delay)
    · exact h.le_issued hgiven
  · intro token alarm
    rw [standsFor_append_singleton, ← h.mem_pending]
    constructor
    · intro hpending
      refine Or.inr ⟨hpending, ?_⟩
      -- The report of a token that waits would ring.
      intro heq
      have hsome : (after uses).alarm? token = some alarm :=
        Lists.lookup_of_mem h.nodup hpending
      rw [hrings token heq] at hsome
      cases hsome
    · rintro (⟨-, delay, heq⟩ | ⟨hpending, -⟩)
      · exact absurd heq (hu alarm delay)
      · exact hpending
  · have hlength := h.length_pending
    have hquiet : u.rings (after uses) = false := by
      cases u with
      | effect effect => rfl
      | event event =>
        cases event with
        | timerFired token =>
          rw [rings_timerFired, hrings token rfl]
          rfl
        | _ => rfl
    rw [ringCount_append_singleton, List.countP_append, ← after, hquiet]
    simpa [hsets] using hlength

theorem Recalls.use (h : (after uses).Recalls uses) (u : Use) :
    (after (uses ++ [u])).Recalls (uses ++ [u]) := by
  rw [after_append_singleton]
  rcases (after uses).use_cases u with
    ⟨alarm, delay, rfl, -⟩ | ⟨token, alarm, rfl, halarm, huse⟩ | ⟨hsets, hrings, huse⟩
  · exact recalls_sets h alarm delay
  · rw [huse]
    exact recalls_rings h halarm
  · rw [huse]
    exact recalls_quiet h hsets hrings

theorem recalls_after (uses : List Use) : (after uses).Recalls uses := by
  induction uses using List.reverseRecOn with
  | nil =>
    have hnone {token alarm since} : ¬Given [] token alarm since := by
      rintro ⟨before, delay, huses, -⟩
      simp at huses
    refine ⟨List.nodup_nil, fun hgiven => absurd hgiven hnone, ?_, rfl⟩
    intro token alarm
    constructor
    · intro hpending
      cases hpending
    · rintro ⟨since, hgiven, -⟩
      exact absurd hgiven hnone
  | append_singleton uses u ih => exact ih.use u

end Recalls

/-- A token stands for an alarm exactly while the alarm waits under it. -/
theorem alarm?_after (uses : List Use) (token : Nat) (alarm : Alarm) :
    (after uses).alarm? token = some alarm ↔ StandsFor uses token alarm := by
  have h := recalls_after uses
  rw [← h.mem_pending]
  exact ⟨Lists.mem_of_lookup, Lists.lookup_of_mem h.nodup⟩

/-- After any uses, a timer effect is given a token that none had before, with its own delay. The
report of a token brings the message of the alarm that the token stands for; without one it brings
nothing and the timers stay as they are, as they do for all other effects and events. As many alarms
wait as were set, less those that rang. In the closed loop every timer in flight has its message. -/
theorem tokens_stand_for_alarms (uses : List Use) :
    (∀ alarm delay, ∃ token,
      ((after uses).command (.schedule alarm delay)).2 = .schedule token delay ∧
        ∀ earlier since, ¬Given uses token earlier since) ∧
      (∀ token message, ((after uses).message (.timerFired token)).message = some message ↔
        ∃ alarm, StandsFor uses token alarm ∧ alarm.message = message) ∧
      (∀ token, ((after uses).message (.timerFired token)).message = none →
        ((after uses).message (.timerFired token)).timers = after uses) ∧
      (after uses).pending.length + ringCount {} uses = uses.countP Use.sets ∧
      (∀ effect, (∀ alarm delay, effect ≠ .schedule alarm delay) →
        ((after uses).command effect).1 = after uses) ∧
      (∀ event, (∀ token, event ≠ .timerFired token) →
        ((after uses).message event).timers = after uses) ∧
      ∀ timings base loop, Relation.ReflTransGen Loop.Step (Loop.start timings base) loop →
        ∀ token delay, .schedule token delay ∈ loop.flying →
          ∃ message, (loop.console.timers.message (.timerFired token)).message = some message := by
  have h := recalls_after uses
  refine ⟨?_, ?_, ?_, h.length_pending, ?_, ?_, ?_⟩
  · intro alarm delay
    refine ⟨(after uses).issued + 1, rfl, ?_⟩
    intro earlier since hgiven
    have := h.le_issued hgiven
    omega
  · intro token message
    rw [(message_timerFired _ token).1, Option.map_eq_some_iff]
    simp only [alarm?_after]
  · intro token hnone
    rw [(message_timerFired _ token).1, Option.map_eq_none_iff] at hnone
    exact (message_timerFired _ token).2 hnone
  · intro effect heffect
    cases effect with
    | schedule alarm delay => exact absurd rfl (heffect alarm delay)
    | _ => rfl
  · intro event hevent
    cases event with
    | timerFired token => exact absurd rfl (hevent token)
    | _ => rfl
  · intro timings base loop hrun token delay hflying
    have hsound := (Loop.sound_start timings base).run hrun
    obtain ⟨alarm, halarm⟩ := alarm?_of_matches hsound.timers hflying
    exact ⟨alarm.message, by rw [(message_timerFired _ token).1, halarm]; rfl⟩

end Timers

end JobBoard
