import JobBoard.Backend.Exchange
import JobBoard.Proofs.Dashboard.Dues
import JobBoard.Timers

/-!
# Timers and commands in flight

The engine holds the commands that it has not answered yet. Every alarm that waits has its timer
there, under a token of its own, and each answer takes away what it brings.
-/
namespace JobBoard

open Backend (Command Event Response)

namespace Backend

def Command.token? : Command → Option Nat
  | .schedule token _ => some token
  | _ => none

/-- What the answer to a command brings, apart from what a timer was set for. -/
def Command.due? : Command → Option Due
  | .startDiscovery key => some (.answer (.discovery key))
  | .triggerRenovate key project => some (.answer (.renovate key project))
  | _ => none

/-- The events that a command may be answered with. -/
inductive Answers : Command → Event → Prop
  | jobs (result : Except Failure (List JobRecord)) : Answers .fetchJobs (.jobsFetched result)
  | discoveryStatus (job : JobKey) (seq : Nat) (running : Bool) :
    Answers (.fetchDiscoveryStatus job seq) (.discoveryStatus job seq running)
  | health (healthy : Bool) : Answers .checkHealth (.health healthy)
  | discoveryStarted (job : JobKey) (response : Response) :
    Answers (.startDiscovery job) (.discoveryStarted job response)
  | renovateTriggered (job : JobKey) (project : String) (response : Response) :
    Answers (.triggerRenovate job project) (.renovateTriggered job project response)
  | timerFired (token : Nat) (delay : Duration) :
    Answers (.schedule token delay) (.timerFired token)

/-- Whatever becomes of its request, the engine answers a command with such an event. -/
theorem answers_perform {e : Engine} {cmd : Command} {d : Delivery} {event : Event}
    (h : (e.perform cmd d).2 = some event) : Answers cmd event := by
  unfold Engine.perform at h
  split at h
  · cases h
  · cases h
    cases cmd <;> constructor

end Backend

namespace Timers

/-- The alarms that wait are those whose timers are in flight, and no two have the same token. -/
structure Matches (t : Timers) (flying : List Command) : Prop where
  perm : (flying.filterMap Command.token?).Perm (t.pending.map Prod.fst)
  nodup : (t.pending.map Prod.fst).Nodup
  le_issued : ∀ token ∈ t.pending.map Prod.fst, token ≤ t.issued

/-- What the answers to the commands in flight will bring. -/
def dues (t : Timers) (flying : List Command) : List Due :=
  flying.filterMap Command.due? ++ t.pending.filterMap (·.2.due?)

theorem matches_command {t : Timers} {flying : List Command} (h : t.Matches flying)
    (effect : Effect) : (t.command effect).1.Matches (flying ++ [(t.command effect).2]) := by
  cases effect with
  | schedule alarm after =>
    change Matches ⟨t.pending ++ [(t.issued + 1, alarm)], t.issued + 1⟩
      (flying ++ [.schedule (t.issued + 1) after])
    have hnew : t.issued + 1 ∉ t.pending.map Prod.fst := by
      intro hmem
      have := h.le_issued _ hmem
      omega
    constructor
    · rw [List.filterMap_append, List.map_append]
      exact h.perm.append_right [t.issued + 1]
    · rw [List.map_append]
      exact h.nodup.append (List.nodup_singleton _) (by simpa using hnew)
    · intro token htoken
      rw [List.map_append, List.mem_append] at htoken
      rcases htoken with htoken | htoken
      · exact Nat.le_succ_of_le (h.le_issued token htoken)
      · exact Nat.le_of_eq (List.mem_singleton.mp htoken)
  | _ =>
    refine ⟨?_, h.nodup, h.le_issued⟩
    rw [Lists.filterMap_append_singleton]
    exact (List.append_nil _).symm ▸ h.perm

theorem count_dues_command (t : Timers) (flying : List Command) (effect : Effect) (x : Due) :
    ((t.command effect).1.dues (flying ++ [(t.command effect).2])).count x =
      (t.dues flying).count x + effect.due?.toList.count x := by
  cases effect with
  | schedule alarm after =>
    change ((flying ++ [Command.schedule (t.issued + 1) after]).filterMap Command.due? ++
      (t.pending ++ [(t.issued + 1, alarm)]).filterMap (·.2.due?)).count x = _
    rw [Lists.filterMap_append_singleton, Lists.filterMap_append_singleton, dues]
    simp only [List.count_append, Nat.add_assoc]
    exact congrArg _ (Nat.zero_add _)
  | _ =>
    rw [dues, dues, Lists.filterMap_append_singleton]
    simp only [List.count_append]
    exact Nat.add_right_comm _ _ _

theorem map_commands_cons (t : Timers) (effect : Effect) (effects : List Effect) :
    (t.commands (effect :: effects)).2.map Prod.fst =
      (t.command effect).2 :: ((t.command effect).1.commands effects).2.map Prod.fst :=
  rfl

theorem matches_commands {t : Timers} {flying : List Command} (h : t.Matches flying)
    (effects : List Effect) :
    (t.commands effects).1.Matches (flying ++ (t.commands effects).2.map Prod.fst) := by
  induction effects generalizing t flying with
  | nil => simpa [commands] using h
  | cons effect effects ih =>
    rw [map_commands_cons, List.append_cons]
    exact ih (matches_command h effect)

theorem count_dues_commands (t : Timers) (flying : List Command) (effects : List Effect) (x : Due) :
    ((t.commands effects).1.dues (flying ++ (t.commands effects).2.map Prod.fst)).count x =
      (t.dues flying).count x + (effects.filterMap Effect.due?).count x := by
  induction effects generalizing t flying with
  | nil => simp [commands]
  | cons effect effects ih =>
    have hhead := count_dues_command t flying effect x
    have htail := ih (t.command effect).1 (flying ++ [(t.command effect).2])
    rw [map_commands_cons, List.append_cons, Lists.filterMap_cons_toList, List.count_append]
    change ((t.command effect).1.commands effects |>.1.dues _).count x = _
    omega

theorem dues_erase (t : Timers) {flying : List Command} {cmd : Command} (hcmd : cmd ∈ flying) :
    (t.dues flying).Perm (cmd.due?.toList ++ t.dues (flying.erase cmd)) := by
  unfold dues
  rw [← List.append_assoc]
  exact (Lists.filterMap_perm_erase hcmd).append_right _

theorem matches_erase {t : Timers} {flying : List Command} (h : t.Matches flying) {cmd : Command}
    (hcmd : cmd ∈ flying) (htoken : cmd.token? = none) : t.Matches (flying.erase cmd) := by
  have hperm := Lists.filterMap_perm_erase (f := Command.token?) hcmd
  rw [htoken] at hperm
  exact ⟨hperm.symm.trans h.perm, h.nodup, h.le_issued⟩

theorem alarm?_of_matches {t : Timers} {flying : List Command} (h : t.Matches flying) {token : Nat}
    {delay : Duration} (hcmd : .schedule token delay ∈ flying) :
    ∃ alarm, t.alarm? token = some alarm := by
  have hmem : token ∈ t.pending.map Prod.fst :=
    h.perm.subset (List.mem_filterMap.mpr ⟨_, hcmd, rfl⟩)
  obtain ⟨p, hp, htoken⟩ := List.mem_map.mp hmem
  refine Option.isSome_iff_exists.mp (List.lookup_isSome_iff.mpr ⟨p, hp, ?_⟩)
  rw [htoken]
  exact beq_self_eq_true token

theorem fire?_of_matches {t : Timers} {flying : List Command} (h : t.Matches flying) {token : Nat}
    {delay : Duration} (hcmd : .schedule token delay ∈ flying) :
    ∃ rest alarm, t.fire? token = some (rest, alarm) ∧
      rest.Matches (flying.erase (.schedule token delay)) ∧
      t.pending.Perm ((token, alarm) :: rest.pending) := by
  obtain ⟨alarm, halarm⟩ := alarm?_of_matches h hcmd
  have hpending : t.pending.Perm ((token, alarm) :: t.pending.filter (·.1 ≠ token)) :=
    Lists.perm_cons_filter h.nodup (Lists.mem_of_lookup halarm)
  refine ⟨{ t with pending := t.pending.filter (·.1 ≠ token) }, alarm, ?_, ⟨?_, ?_, ?_⟩, hpending⟩
  · rw [fire?, halarm]
    rfl
  · have hflying := (Lists.filterMap_perm_erase (f := Command.token?) hcmd).symm.trans h.perm
    exact (hflying.trans (hpending.map Prod.fst)).cons_inv
  · exact h.nodup.sublist (List.filter_sublist.map Prod.fst)
  · intro other hother
    exact h.le_issued other ((List.filter_sublist.map Prod.fst).subset hother)

/-- An answer has a message, and the message brings what the answer takes away. -/
theorem message_of_answers {t : Timers} {flying : List Command} (h : t.Matches flying)
    {cmd : Command} {event : Event} (hcmd : cmd ∈ flying) (hanswer : Backend.Answers cmd event) :
    ∃ message, (t.message event).message = some message ∧
      (t.message event).timers.Matches (flying.erase cmd) ∧
      (t.dues flying).Perm
        (message.due?.toList ++ (t.message event).timers.dues (flying.erase cmd)) := by
  cases hanswer with
  | timerFired token delay =>
    obtain ⟨rest, alarm, hfire, hrest, hpending⟩ := fire?_of_matches h hcmd
    have hdues := hpending.filterMap (·.2.due?)
    rw [Lists.filterMap_cons_toList, ← alarm.due?_message] at hdues
    rw [message, hfire]
    refine ⟨alarm.message, rfl, hrest, (t.dues_erase hcmd).trans ?_⟩
    exact (hdues.append_left _).trans (List.perm_append_comm_assoc _ _ _)
  | _ => exact ⟨_, rfl, matches_erase h hcmd rfl, t.dues_erase hcmd⟩

end Timers

end JobBoard
