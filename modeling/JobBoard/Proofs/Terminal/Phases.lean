import JobBoard.Proofs.Terminal.Loop

/-!
# What is out for a target

In every state that the closed loop reaches, the phase of a target tells what is out for it: one
request in flight if it is busy, one reset that waits if it has settled, neither if it is idle.
-/
namespace JobBoard

open Backend (BaseUrl Command)

def Target.command : Target → Command
  | .discovery key => .startDiscovery key
  | .renovate key project => .triggerRenovate key project

theorem Backend.Command.due?_eq_answer {cmd : Command} {t : Target} :
    cmd.due? = some (.answer t) ↔ cmd = t.command := by
  cases cmd <;> cases t <;> simp [Command.due?, Target.command]

namespace Timers

def reset? (t : Target) : Nat × Alarm → Option (Nat × Nat)
  | (token, .actionReset u generation) => if u = t then some (token, generation) else none
  | _ => none

/-- The resets of a target that wait. -/
def resets (s : Timers) (t : Target) : List (Nat × Nat) :=
  s.pending.filterMap (reset? t)

theorem mem_resets {s : Timers} {t : Target} {token generation : Nat} :
    (token, generation) ∈ s.resets t ↔ (token, .actionReset t generation) ∈ s.pending := by
  unfold resets
  rw [List.mem_filterMap]
  constructor
  · rintro ⟨⟨k, alarm⟩, hmem, halarm⟩
    cases alarm with
    | actionReset u g =>
      obtain ⟨rfl, heq⟩ := Option.ite_none_right_eq_some.mp halarm
      cases heq
      exact hmem
    | _ => cases halarm
  · intro hmem
    exact ⟨_, hmem, if_pos rfl⟩

theorem count_generations (s : Timers) (t : Target) (generation : Nat) :
    ((s.resets t).map Prod.snd).count generation =
      (s.pending.filterMap (·.2.due?)).count (.reset t generation) := by
  unfold resets
  rw [List.map_filterMap, List.count_filterMap, List.count_filterMap]
  apply List.countP_congr
  rintro ⟨token, alarm⟩ -
  cases alarm with
  | actionReset u g => by_cases hu : u = t <;> simp [reset?, Alarm.due?, hu]
  | _ => simp [reset?, Alarm.due?]

theorem count_dues_answer (s : Timers) (flying : List Command) (t : Target) :
    (s.dues flying).count (.answer t) = flying.count t.command := by
  have halarms : (s.pending.filterMap (·.2.due?)).count (.answer t) = 0 := by
    rw [List.count_eq_zero, List.mem_filterMap]
    rintro ⟨⟨token, alarm⟩, -, halarm⟩
    cases alarm <;> cases halarm
  rw [dues, List.count_append, halarms, List.count_filterMap, Nat.add_zero, List.count]
  apply List.countP_congr
  intro cmd _
  simp [Command.due?_eq_answer]

theorem count_dues_reset (s : Timers) (flying : List Command) (t : Target) (generation : Nat) :
    (s.dues flying).count (.reset t generation) =
      ((s.resets t).map Prod.snd).count generation := by
  have hflying : (flying.filterMap Command.due?).count (.reset t generation) = 0 := by
    rw [List.count_eq_zero, List.mem_filterMap]
    rintro ⟨cmd, -, hcmd⟩
    cases cmd <;> cases hcmd
  rw [dues, List.count_append, hflying, Nat.zero_add, count_generations]

theorem Matches.count_token {s : Timers} {flying : List Command} (h : s.Matches flying)
    {token : Nat} {alarm : Alarm} (hmem : (token, alarm) ∈ s.pending) :
    flying.countP (·.token? == some token) = 1 := by
  have hnodup : (flying.filterMap Command.token?).Nodup := h.perm.nodup_iff.mpr h.nodup
  have htoken : token ∈ flying.filterMap Command.token? :=
    h.perm.symm.subset (List.mem_map_of_mem hmem)
  rw [← List.count_filterMap]
  exact List.count_eq_one_of_mem hnodup htoken

end Timers

namespace Terminal.Loop

/-- One case for each phase. -/
theorem Sound.cases {l : Loop} (h : l.Sound) (t : Target) :
    (l.console.dashboard.slots.slot? t = none ∧ l.flying.count t.command = 0 ∧
      l.console.timers.resets t = []) ∨
    (∃ generation, l.console.dashboard.slots.slot? t = some ⟨none, generation⟩ ∧
      l.flying.count t.command = 1 ∧ l.console.timers.resets t = []) ∨
    ∃ result generation token,
      l.console.dashboard.slots.slot? t = some ⟨some result, generation⟩ ∧
        l.flying.count t.command = 0 ∧ l.console.timers.resets t = [(token, generation)] := by
  have hanswer := h.dues (.answer t)
  have hreset generation := h.dues (.reset t generation)
  simp only [Timers.count_dues_answer, Timers.count_dues_reset, Slots.dues, Slots.due?,
    Due.target] at hanswer hreset
  have hnone (hzero : ∀ generation,
      ((l.console.timers.resets t).map Prod.snd).count generation = 0) :
      l.console.timers.resets t = [] := by
    rw [← List.map_eq_nil_iff (f := Prod.snd), List.eq_nil_iff_forall_not_mem]
    intro generation
    exact List.count_eq_zero.mp (hzero generation)
  cases hslot : l.console.dashboard.slots.slot? t with
  | none =>
    rw [hslot] at hanswer
    simp only [hslot] at hreset
    exact Or.inl ⟨rfl, hanswer, hnone hreset⟩
  | some slot =>
    obtain ⟨result, generation⟩ := slot
    rw [hslot] at hanswer
    simp only [hslot] at hreset
    cases result with
    | none =>
      refine Or.inr (Or.inl ⟨generation, rfl, ?_, hnone ?_⟩)
      · simpa [Slot.due] using hanswer
      · intro g
        simpa [Slot.due] using hreset g
    | some result =>
      have hperm : ((l.console.timers.resets t).map Prod.snd).Perm [generation] := by
        rw [List.perm_iff_count]
        intro g
        rw [hreset g]
        by_cases hg : generation = g <;> simp [Slot.due, hg]
      obtain ⟨⟨token, g⟩, hresets, hg⟩ := List.map_eq_singleton_iff.mp hperm.eq_singleton
      subst hg
      refine Or.inr (Or.inr ⟨result, g, token, rfl, ?_, hresets⟩)
      simpa [Slot.due] using hanswer

/-- In every state that the loop reaches, a target is busy if and only if its request is in flight,
once; it has settled if and only if a reset of it waits, one alone, which is of the generation of
its slot and has its timer in flight; and it is idle if and only if neither is out. -/
theorem phase_tells_what_is_out {timings : Timings} {base : BaseUrl} {l : Loop}
    (hrun : Relation.ReflTransGen Step (start timings base) l) (t : Target) :
    (l.console.dashboard.phase t = .busy ↔ l.flying.count t.command = 1) ∧
      l.flying.count t.command ≤ 1 ∧
      ((∃ result, l.console.dashboard.phase t = .settled result) ↔
        (l.console.timers.resets t).length = 1) ∧
      (l.console.timers.resets t).length ≤ 1 ∧
      (∀ token generation, (token, generation) ∈ l.console.timers.resets t →
        (∃ result, l.console.dashboard.slots.slot? t = some ⟨some result, generation⟩) ∧
          l.flying.countP (·.token? == some token) = 1) ∧
      (l.console.dashboard.phase t = .idle ↔
        l.flying.count t.command = 0 ∧ l.console.timers.resets t = []) := by
  have h := (sound_start timings base).run hrun
  have htimer : ∀ token generation, (token, generation) ∈ l.console.timers.resets t →
      l.flying.countP (·.token? == some token) = 1 :=
    fun token generation hmem => h.timers.count_token (Timers.mem_resets.mp hmem)
  simp only [Dashboard.phase, Slots.phase]
  rcases h.cases t with ⟨hslot, hcount, hresets⟩ | ⟨generation, hslot, hcount, hresets⟩ |
    ⟨result, generation, token, hslot, hcount, hresets⟩
  · simp [hslot, hcount, hresets]
  · simp [hslot, hcount, hresets, Slot.phase]
  · have htoken := htimer token generation (by simp [hresets])
    simp [hslot, hcount, hresets, htoken, Slot.phase]

def plainBase : BaseUrl :=
  ⟨⟨"http".toList, none, .segments [], none, none⟩, [], rfl⟩

/-- A job is listed and a click starts its discovery. -/
def clicked : Loop :=
  (((start {} plainBase).feed (.message .pollRequested)).answer .fetchJobs
    (.jobsFetched (.ok [⟨⟨"api", "ops"⟩, []⟩]))).feed (.message (.discoveryClicked ⟨"api", "ops"⟩))

/-- The start is answered, and its result is shown. -/
def settled : Loop :=
  clicked.answer (.startDiscovery ⟨"api", "ops"⟩) (.discoveryStarted ⟨"api", "ops"⟩ .accepted)

theorem reaches_settled : Relation.ReflTransGen Step (start {} plainBase) settled := by
  have hpolled : Command.fetchJobs ∈
      ((start {} plainBase).feed (.message .pollRequested)).flying := by decide
  have hclicked : Command.startDiscovery ⟨"api", "ops"⟩ ∈ clicked.flying := by
    have hflying : clicked.flying = [.checkHealth, .fetchDiscoveryStatus ⟨"api", "ops"⟩ 1,
      .startDiscovery ⟨"api", "ops"⟩] := by decide +kernel
    rw [hflying]
    simp
  exact (((Relation.ReflTransGen.single .poll).tail (.answer hpolled (.jobs _))).tail
    (.click (.discovery ⟨"api", "ops"⟩))).tail
      (.answer hclicked (.discoveryStarted ⟨"api", "ops"⟩ .accepted))

theorem settled_phase_tells_what_is_out :
    Relation.ReflTransGen Step (start {} plainBase) settled ∧
      settled.console.timers.resets (.discovery ⟨"api", "ops"⟩) = [(1, 1)] ∧
      (∃ result, settled.console.dashboard.phase (.discovery ⟨"api", "ops"⟩) = .settled result) ∧
      settled.flying.countP (·.token? == some 1) = 1 := by
  have hresets : settled.console.timers.resets (.discovery ⟨"api", "ops"⟩) = [(1, 1)] := by decide +kernel
  obtain ⟨-, -, hsettled, -, hreset, -⟩ :=
    phase_tells_what_is_out reaches_settled (.discovery ⟨"api", "ops"⟩)
  refine ⟨reaches_settled, hresets, hsettled.mpr (by rw [hresets, List.length_singleton]), ?_⟩
  exact (hreset 1 1 (by rw [hresets, List.mem_singleton])).2

end Terminal.Loop

end JobBoard
