import JobBoard.Proofs.Timers.InFlight
import JobBoard.Terminal.Console
import Mathlib.Logic.Relation

/-!
# The closed loop

The console with the commands that the engine has not answered yet. Clicks, polls and answers may
come in any order, and the engine may answer any command first. The invariant is an account: what
the commands in flight and the waiting alarms will bring is just what the slots wait for.
-/
namespace JobBoard.Terminal

open Backend (Answers BaseUrl Command Event)

structure Loop where
  console : Console
  flying : List Command := []

namespace Loop

def start (timings : Timings) (base : BaseUrl) : Loop where
  console := .start timings base

/-- The loop after an input, with its commands submitted. -/
def feed (l : Loop) (input : Input) : Loop where
  console := (l.console.handle input).console
  flying := l.flying ++ (l.console.handle input).commands

/-- The loop after the answer to a command, which is in flight no more. -/
def answer (l : Loop) (cmd : Command) (event : Event) : Loop :=
  { l with flying := l.flying.erase cmd }.feed (.event event)

/-- A poll, a click on any control, or the answer to any command in flight. -/
inductive Step (l : Loop) : Loop → Prop
  | poll : Step l (l.feed (.message .pollRequested))
  | click (t : Target) : Step l (l.feed (.message t.click))
  | answer {cmd : Command} {event : Event} (hcmd : cmd ∈ l.flying) (hanswer : Answers cmd event) :
    Step l (l.answer cmd event)

/-- Every alarm has its timer in flight, and what is in flight or waits brings just what is due. -/
structure Sound (l : Loop) : Prop where
  timers : l.console.timers.Matches l.flying
  dues : ∀ x, (l.console.timers.dues l.flying).count x = l.console.dashboard.slots.dues x

theorem sound_start (timings : Timings) (base : BaseUrl) : (start timings base).Sound where
  timers := ⟨List.Perm.refl _, List.nodup_nil, by intro token htoken; cases htoken⟩
  dues _ := rfl

/-- What the message brings is gone from the timers and from flight, but still due. -/
theorem sound_dispatch {c : Console} {flying : List Command} {message : Message}
    (hmatches : c.timers.Matches flying)
    (hdues : ∀ x, message.due?.toList.count x + (c.timers.dues flying).count x =
      c.dashboard.slots.dues x) :
    Sound ⟨(c.dispatch message).console, flying ++ (c.dispatch message).commands⟩ := by
  -- What the message brings is counted on the left, so the slots wait for it.
  have hdue : ∀ x, message.due? = some x → c.dashboard.slots.due? x.target = some x := by
    intro x hx
    have hcount := hdues x
    rw [hx, Option.toList_some, List.count_singleton_self] at hcount
    exact Slots.dues_pos (by omega)
  refine ⟨Timers.matches_commands hmatches _, ?_⟩
  intro x
  have hbalanced := Dashboard.balanced_update hdue x
  have hcommands := c.timers.count_dues_commands flying (c.dashboard.update message).effects x
  have hbefore := hdues x
  change ((c.timers.commands (c.dashboard.update message).effects).1.dues
    (flying ++ (c.timers.commands (c.dashboard.update message).effects).2.map Prod.fst)).count x =
      (c.dashboard.update message).state.slots.dues x
  omega

theorem sound_feed {l : Loop} (h : l.Sound) {message : Message} (hmessage : message.due? = none) :
    (l.feed (.message message)).Sound := by
  refine sound_dispatch h.timers ?_
  intro x
  rw [hmessage, h.dues]
  exact Nat.zero_add _

theorem answer_eq_dispatch {l : Loop} {cmd : Command} {event : Event} {message : Message}
    (h : (l.console.timers.message event).message = some message) :
    let c := { l.console with timers := (l.console.timers.message event).timers }
    l.answer cmd event =
      ⟨(c.dispatch message).console, l.flying.erase cmd ++ (c.dispatch message).commands⟩ := by
  unfold answer feed Console.handle Console.receive
  simp only [h]

theorem sound_answer {l : Loop} (h : l.Sound) {cmd : Command} {event : Event}
    (hcmd : cmd ∈ l.flying) (hanswer : Answers cmd event) : (l.answer cmd event).Sound := by
  obtain ⟨message, hmessage, hmatches, hdues⟩ := Timers.message_of_answers h.timers hcmd hanswer
  rw [answer_eq_dispatch hmessage]
  refine sound_dispatch hmatches ?_
  intro x
  rw [← List.count_append, ← hdues.count_eq]
  exact h.dues x

theorem due?_click (t : Target) : t.click.due? = none := by
  cases t <;> rfl

theorem Sound.step {l next : Loop} (h : l.Sound) (hstep : Step l next) : next.Sound := by
  cases hstep with
  | poll => exact sound_feed h rfl
  | click t => exact sound_feed h (due?_click t)
  | answer hcmd hanswer => exact sound_answer h hcmd hanswer

theorem Sound.run {l last : Loop} (h : l.Sound) (hrun : Relation.ReflTransGen Step l last) :
    last.Sound := by
  induction hrun with
  | refl => exact h
  | tail _ hstep ih => exact ih.step hstep

end Loop

end JobBoard.Terminal
