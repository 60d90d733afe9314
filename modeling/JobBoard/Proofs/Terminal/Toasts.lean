import JobBoard.Proofs.Dashboard.Toasts
import JobBoard.Proofs.Terminal.Phases

/-!
# Toasts and their timers

In every state that the closed loop reaches, each toast has the one timer that it waits for, and no
other timer of a toast waits. So every toast goes through its stages in order, each of them once,
and when nothing is in flight nothing is left over.
-/
namespace JobBoard

open Backend (BaseUrl Command Event)

namespace Timers

def toasts (t : Timers) : List Alarm :=
  t.pending.filterMap (·.2.toast?)

def waiting (t : Timers) (alarm : Alarm) : Nat :=
  t.pending.countP (·.2 = alarm)

theorem count_toasts {t : Timers} {alarm : Alarm} (h : alarm.toast? = some alarm) :
    t.toasts.count alarm = t.waiting alarm := by
  unfold toasts waiting
  rw [List.count_filterMap]
  apply List.countP_congr
  rintro ⟨token, other⟩ -
  cases other <;> cases alarm <;> simp [Alarm.toast?] at h ⊢

theorem toasts_command (t : Timers) (effect : Effect) :
    (t.command effect).1.toasts = t.toasts ++ effect.toast?.toList := by
  cases effect with
  | schedule alarm after => exact Lists.filterMap_append_singleton _ t.pending (t.issued + 1, alarm)
  | _ => exact (List.append_nil _).symm

theorem toasts_commands (t : Timers) (effects : List Effect) :
    (t.commands effects).1.toasts = t.toasts ++ effects.filterMap Effect.toast? := by
  induction effects generalizing t with
  | nil => exact (List.append_nil _).symm
  | cons effect effects ih =>
    rw [Lists.filterMap_cons_toList, ← List.append_assoc, ← toasts_command]
    exact ih _

/-- What an answer brings for a toast is gone from the timers. -/
theorem toasts_of_answers {t : Timers} {flying : List Command} (h : t.Matches flying)
    {cmd : Command} {event : Event} (hcmd : cmd ∈ flying) (hanswer : Backend.Answers cmd event)
    {message : Message} (hmessage : (t.message event).message = some message) :
    t.toasts.Perm (message.toast?.toList ++ (t.message event).timers.toasts) := by
  cases hanswer with
  | timerFired token delay =>
    obtain ⟨rest, alarm, hfire, -, hpending⟩ := fire?_of_matches h hcmd
    rw [Timers.message, hfire] at hmessage ⊢
    cases hmessage
    have htoasts := hpending.filterMap (·.2.toast?)
    rw [Lists.filterMap_cons_toList, ← alarm.toast?_message] at htoasts
    exact htoasts
  | _ =>
    cases hmessage
    exact List.Perm.refl _

/-- Where the timers of toasts are those that the toasts wait for, an identifier has no timer but
the one that its toast waits for. -/
theorem waiting_iff {t : Timers} {q : ToastQueue} (hq : q.Numbered) (h : t.toasts.Perm q.alarms)
    (id : Nat) :
    ((∃ toast ∈ q.toasts, toast.id = id ∧ toast.visible = true) ↔
        t.waiting (.toastHide id) = 1) ∧
      ((∃ toast ∈ q.toasts, toast.id = id ∧ toast.visible = false) ↔
        t.waiting (.toastRemoval id) = 1) ∧
      ((∀ toast ∈ q.toasts, toast.id ≠ id) ↔
        t.waiting (.toastHide id) = 0 ∧ t.waiting (.toastRemoval id) = 0) ∧
      t.waiting (.toastHide id) + t.waiting (.toastRemoval id) ≤ 1 := by
  have hcount {alarm : Alarm} (halarm : alarm.toast? = some alarm) :
      t.waiting alarm = if alarm ∈ q.alarms then 1 else 0 := by
    rw [← count_toasts halarm, h.count_eq]
    exact (ToastQueue.nodup_alarms hq).count
  obtain ⟨hnone, hone⟩ := ToastQueue.alarms_cases hq id
  rw [← ToastQueue.mem_alarms_toastHide, ← ToastQueue.mem_alarms_toastRemoval, hnone, hcount rfl,
    hcount rfl]
  by_cases hvisible : .toastHide id ∈ q.alarms
  · have hhidden : .toastRemoval id ∉ q.alarms := fun h => hone ⟨hvisible, h⟩
    simp [hvisible, hhidden]
  · by_cases hhidden : .toastRemoval id ∈ q.alarms <;> simp [hvisible, hhidden]

end Timers

namespace Terminal

def Loop.stage (l : Loop) (id : Nat) : ToastStage :=
  l.console.dashboard.queue.stage id

namespace Loop

/-- The timers that wait for toasts are those that the toasts wait for. -/
structure Tended (l : Loop) : Prop where
  numbered : l.console.dashboard.queue.Numbered
  account : l.console.timers.toasts.Perm l.console.dashboard.queue.alarms

theorem tended_start (timings : Timings) (base : BaseUrl) : (start timings base).Tended where
  numbered := ToastQueue.numbered_nil
  account := List.Perm.refl _

/-- What the message brings is gone from the timers, but a toast still waits for it. -/
theorem tended_dispatch {c : Console} {message : Message} (flying : List Command)
    (hq : c.dashboard.queue.Numbered)
    (haccount : (message.toast?.toList ++ c.timers.toasts).Perm c.dashboard.queue.alarms) :
    Tended ⟨(c.dispatch message).console, flying⟩ ∧
      ∀ id, (c.dashboard.queue.stage id).Advances
        ((c.dispatch message).console.dashboard.queue.stage id) := by
  have hwaits : ∀ alarm, message.toast? = some alarm → alarm ∈ c.dashboard.queue.alarms := by
    intro alarm halarm
    refine haccount.subset (List.mem_append_left _ ?_)
    rw [halarm]
    exact List.mem_singleton_self alarm
  have htended := Dashboard.tended_update hq hwaits
  refine ⟨⟨htended.numbered, ?_⟩, htended.advances⟩
  change (c.timers.commands (c.dashboard.update message).effects).1.toasts.Perm
    (c.dashboard.update message).state.queue.alarms
  rw [Timers.toasts_commands, ← List.perm_append_left_iff message.toast?.toList,
    ← List.append_assoc]
  exact (haccount.append_right _).trans htended.account.symm

theorem toast?_click (t : Target) : t.click.toast? = none := by
  cases t <;> rfl

/-- Each toast still has the timer that it waits for, and no identifier skips a stage. -/
theorem Tended.step {l next : Loop} (hl : l.Tended) (h : l.Sound) (hstep : Step l next) :
    next.Tended ∧ ∀ id, (l.stage id).Advances (next.stage id) := by
  have hfeed {message : Message} (hmessage : message.toast? = none) :
      (l.feed (.message message)).Tended ∧
        ∀ id, (l.stage id).Advances ((l.feed (.message message)).stage id) := by
    refine tended_dispatch _ hl.numbered ?_
    rw [hmessage]
    exact hl.account
  cases hstep with
  | poll => exact hfeed rfl
  | click t => exact hfeed (toast?_click t)
  | @answer cmd event hcmd hanswer =>
    obtain ⟨message, hmessage, -⟩ := Timers.message_of_answers h.timers hcmd hanswer
    have haccount := Timers.toasts_of_answers h.timers hcmd hanswer hmessage
    rw [answer_eq_dispatch hmessage]
    exact tended_dispatch _ hl.numbered (haccount.symm.trans hl.account)

theorem sound_tended_of_run {timings : Timings} {base : BaseUrl} {l : Loop}
    (hrun : Relation.ReflTransGen Step (start timings base) l) : l.Sound ∧ l.Tended := by
  -- Which alarm an answer takes is known only where alarms match what is in flight.
  induction hrun with
  | refl => exact ⟨sound_start timings base, tended_start timings base⟩
  | tail _ hstep ih => exact ⟨ih.1.step hstep, (ih.2.step ih.1 hstep).1⟩

/-- Along a path no identifier skips a stage. -/
theorem advances_of_chain {l : Loop} (h : l.Sound) (hl : l.Tended) {path : List Loop}
    (hpath : (l :: path).IsChain Step) (id : Nat) :
    ((l :: path).map (·.stage id)).IsChain ToastStage.Advances := by
  induction path generalizing l with
  | nil => exact List.isChain_singleton _
  | cons next path ih =>
    obtain ⟨hstep, hpath⟩ := List.isChain_cons_cons.mp hpath
    obtain ⟨hnext, hadvances⟩ := hl.step h hstep
    exact List.isChain_cons_cons.mpr ⟨hadvances id, ih (h.step hstep) hnext hpath⟩

/-- On the way to a state an identifier goes through its stages in order, and through all of them if
it is gone in the end. -/
theorem stages_of_chain {timings : Timings} {base : BaseUrl} {path : List Loop} {l : Loop}
    (hpath : (start timings base :: path).IsChain Step)
    (hlast : (start timings base :: path).getLast? = some l) (id : Nat) :
    let stages := ((start timings base :: path).map (·.stage id)).destutter (· ≠ ·)
    stages <+: [.ahead, .visible, .hidden, .gone] ∧
      (l.stage id = .gone → stages = [.ahead, .visible, .hidden, .gone]) := by
  intro stages
  have hahead : (start timings base).stage id = .ahead := by
    have hnot : ¬(1 ≤ id ∧ id ≤ 0) := by omega
    exact if_neg hnot
  have hadvances :=
    advances_of_chain (sound_start timings base) (tended_start timings base) hpath id
  have hstages : stages = (.ahead :: path.map (·.stage id)).destutter (· ≠ ·) := by
    rw [← hahead]
    rfl
  rw [List.map_cons, hahead] at hadvances
  rw [hstages]
  refine ⟨ToastStage.destutter_prefix_onwards hadvances, ?_⟩
  intro hgone
  refine ToastStage.destutter_eq_onwards hadvances ?_
  cases path with
  | nil =>
    rw [List.getLast?_singleton, Option.some.injEq] at hlast
    rw [← hlast, hahead] at hgone
    cases hgone
  | cons next path =>
    rw [List.getLast?_cons_cons] at hlast
    exact hgone ▸ List.mem_map_of_mem (List.mem_of_getLast? hlast)

/-- With nothing in flight no timer waits, so there are no toasts and nothing is due. -/
theorem nothing_left {l : Loop} (h : l.Sound) (hl : l.Tended) (hflying : l.flying = []) :
    l.console.dashboard.queue.toasts = [] ∧ ∀ t, l.console.dashboard.phase t = .idle := by
  have hpending : l.console.timers.pending = [] := by
    have hperm := h.timers.perm
    rw [hflying] at hperm
    exact List.map_eq_nil_iff.mp hperm.symm.eq_nil
  constructor
  · have haccount := hl.account
    rw [Timers.toasts, hpending] at haccount
    exact List.map_eq_nil_iff.mp haccount.symm.eq_nil
  · intro t
    rw [Dashboard.phase, Slots.phase_eq_idle]
    rcases h.cases t with ⟨hslot, -, -⟩ | ⟨_, -, hcount, -⟩ | ⟨_, _, _, -, -, hresets⟩
    · exact hslot
    · rw [hflying] at hcount
      cases hcount
    · rw [Timers.resets, hpending] at hresets
      cases hresets

/-- In every state that the loop reaches, a toast is visible exactly when one timer waits that hides
it and hidden exactly when one waits that removes it, never both, and no timer waits for an
identifier without a toast; the timers are in flight, each once. On every way to the state the
identifier goes through its stages in order, each of them once. Once nothing is in flight it has
gone through all of them if it was given, no toast is left, and every target is idle. -/
theorem toasts_wait_for_their_timers {timings : Timings} {base : BaseUrl} {l : Loop}
    (hrun : Relation.ReflTransGen Step (start timings base) l) (id : Nat) :
    let queue := l.console.dashboard.queue
    let timers := l.console.timers
    ((∃ toast ∈ queue.toasts, toast.id = id ∧ toast.visible = true) ↔
        timers.waiting (.toastHide id) = 1) ∧
      ((∃ toast ∈ queue.toasts, toast.id = id ∧ toast.visible = false) ↔
        timers.waiting (.toastRemoval id) = 1) ∧
      ((∀ toast ∈ queue.toasts, toast.id ≠ id) ↔
        timers.waiting (.toastHide id) = 0 ∧ timers.waiting (.toastRemoval id) = 0) ∧
      timers.waiting (.toastHide id) + timers.waiting (.toastRemoval id) ≤ 1 ∧
      (queue.toasts.map Toast.id).Nodup ∧
      (∀ timer ∈ timers.pending, l.flying.countP (·.token? == some timer.1) = 1) ∧
      (∀ path, (start timings base :: path).IsChain Step →
        (start timings base :: path).getLast? = some l →
          let stages := ((start timings base :: path).map (·.stage id)).destutter (· ≠ ·)
          stages <+: [.ahead, .visible, .hidden, .gone] ∧
            (l.flying = [] → 1 ≤ id → id ≤ queue.issued →
              stages = [.ahead, .visible, .hidden, .gone])) ∧
      (l.flying = [] → queue.toasts = [] ∧ ∀ t, l.console.dashboard.phase t = .idle) := by
  intro queue timers
  obtain ⟨h, hl⟩ := sound_tended_of_run hrun
  obtain ⟨hvisible, hhidden, hnone, hone⟩ := Timers.waiting_iff hl.numbered hl.account id
  refine ⟨hvisible, hhidden, hnone, hone, hl.numbered.nodup, ?_, ?_, nothing_left h hl⟩
  · rintro ⟨token, alarm⟩ htimer
    exact h.timers.count_token htimer
  · intro path hpath hlast
    obtain ⟨hordered, hall⟩ := stages_of_chain hpath hlast id
    refine ⟨hordered, ?_⟩
    intro hflying hpos hissued
    refine hall ?_
    have hget : queue.get? id = none := by
      rw [ToastQueue.get?_eq_none, (nothing_left h hl hflying).1]
      exact fun toast htoast => absurd htoast List.not_mem_nil
    rw [stage, ToastQueue.stage, hget]
    exact if_pos ⟨hpos, hissued⟩

/-- A poll whose listing does not arrive, which is told by a toast. -/
def failed : Loop :=
  ((start {} plainBase).feed (.message .pollRequested)).answer .fetchJobs
    (.jobsFetched (.error ⟨.network, "connection refused"⟩))

/-- The toast is hidden in time. -/
def faded : Loop :=
  failed.answer (.schedule 1 (.mk 3000)) (.timerFired 1)

/-- The toast is removed, and the health arrives last of all. -/
def cleared : Loop :=
  (faded.answer (.schedule 2 (.mk 300)) (.timerFired 2)).answer .checkHealth (.health true)

def wayToCleared : List Loop :=
  [(start {} plainBase).feed (.message .pollRequested), failed, faded,
    faded.answer (.schedule 2 (.mk 300)) (.timerFired 2), cleared]

theorem isChain_wayToCleared : (start {} plainBase :: wayToCleared).IsChain Step := by
  have hpolled : Command.fetchJobs ∈
      ((start {} plainBase).feed (.message .pollRequested)).flying := by decide
  have hfailed : failed.flying = [.checkHealth, .schedule 1 (.mk 3000)] := rfl
  have hfaded : faded.flying = [.checkHealth, .schedule 2 (.mk 300)] := rfl
  have hremoved :
      (faded.answer (.schedule 2 (.mk 300)) (.timerFired 2)).flying = [.checkHealth] := rfl
  refine .cons_cons .poll (.cons_cons (.answer hpolled (.jobs _)) (.cons_cons
    (.answer ?_ (.timerFired 1 _)) (.cons_cons (.answer ?_ (.timerFired 2 _)) (.cons_cons
      (.answer ?_ (.health true)) (.singleton _)))))
  · rw [hfailed]
    simp
  · rw [hfaded]
    simp
  · rw [hremoved]
    simp

theorem cleared_toast_waited_for_its_timers :
    Relation.ReflTransGen Step (start {} plainBase) faded ∧
      faded.console.timers.waiting (.toastRemoval 1) = 1 ∧
      Relation.ReflTransGen Step (start {} plainBase) cleared ∧ cleared.flying = [] ∧
      ((start {} plainBase :: wayToCleared).map (·.stage 1)).destutter (· ≠ ·) =
        [.ahead, .visible, .hidden, .gone] ∧
      cleared.console.dashboard.queue.toasts = [] := by
  have hway := isChain_wayToCleared
  have hfaded : Relation.ReflTransGen Step (start {} plainBase) faded :=
    List.relationReflTransGen_of_exists_isChain_cons (wayToCleared.take 3)
      (hway.take 4) rfl
  have hcleared : Relation.ReflTransGen Step (start {} plainBase) cleared :=
    List.relationReflTransGen_of_exists_isChain_cons wayToCleared hway rfl
  obtain ⟨-, hwaits, -⟩ := toasts_wait_for_their_timers hfaded 1
  obtain ⟨-, -, -, -, -, -, hstages, hleft⟩ := toasts_wait_for_their_timers hcleared 1
  have hhidden : ∃ toast ∈ faded.console.dashboard.queue.toasts,
      toast.id = 1 ∧ toast.visible = false :=
    ⟨_, List.mem_singleton_self _, rfl, rfl⟩
  exact ⟨hfaded, hwaits.mp hhidden, hcleared, rfl,
    (hstages wayToCleared hway rfl).2 rfl (Nat.le_refl 1) (Nat.le_refl 1), (hleft rfl).1⟩

end Loop

end Terminal

end JobBoard
