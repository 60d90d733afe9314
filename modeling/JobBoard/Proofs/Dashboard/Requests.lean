import JobBoard.Proofs.Dashboard.Run

/-!
# Requests and late answers

Every listing asks for the discovery of its jobs under new numbers, and the answers may come late
and in any order. While listings go on to list a job, the numbers of the answers applied for it
ascend. The memory of them goes with the section, though: for a job that was gone and came back an
answer may be applied that is older than one applied before it went.
-/
namespace JobBoard

def Message.answered? : Message → Option DiscoveryRequest
  | .discoveryStatusFetched key seq _ => some ⟨key, seq⟩
  | _ => none

def Effect.request? : Effect → Option DiscoveryRequest
  | .fetchDiscoveryStatus key seq => some ⟨key, seq⟩
  | _ => none

theorem Message.news?_eq_snapshot {message : Message} {jobs : List Job} :
    message.news? = some (.snapshot jobs) ↔ message = .jobsFetched (.ok jobs) := by
  constructor
  · intro h
    cases message with
    | jobsFetched result =>
      cases result with
      | ok listed =>
        cases h
        rfl
      | error message => cases h
    | _ => cases h
  · rintro rfl
    rfl

namespace Board

/-- The number of an answer for a key, if the board applies it. -/
def applied? (b : Board) (key : JobKey) : News → Option Nat
  | .snapshot _ => none
  | .answer k seq running =>
    if k = key then (b.answer k seq running).toOption.map fun _ => seq else none

/-- An answer is applied if its number is greater than the last that the section heard. -/
theorem applied?_eq_some {b : Board} {key : JobKey} {news : News} {n : Nat} :
    b.applied? key news = some n ↔
      ∃ running s, news = .answer key n running ∧ b.section? key = some s ∧ s.applied < n := by
  cases news with
  | snapshot jobs => simp [applied?]
  | answer k seq running =>
    rw [applied?, Option.ite_none_right_eq_some, answer]
    constructor
    · rintro ⟨rfl, h⟩
      cases hs : b.section? k with
      | none =>
        rw [hs] at h
        cases h
      | some s =>
        simp only [hs] at h
        by_cases hstale : seq ≤ s.applied
        · rw [if_pos hstale] at h
          cases h
        · rw [if_neg hstale] at h
          cases h
          exact ⟨running, s, rfl, rfl, Nat.lt_of_not_le hstale⟩
    · rintro ⟨_, s, heq, hs, hnew⟩
      cases heq
      simp [hs, Nat.not_le.mpr hnew, Except.toOption]

/-- While a job is listed its section stays, and its number never falls. An answer that is applied
has a greater number, and leaves the section with it. -/
theorem section?_tell {b : Board} {key : JobKey} {s : Section} (hs : b.section? key = some s)
    {news : News} (hlisted : ∀ jobs, news = .snapshot jobs → key ∈ jobs.map Job.key) :
    ∃ t, (b.tell news).section? key = some t ∧
      (b.applied? key news = none ∧ t.applied = s.applied ∨
        b.applied? key news = some t.applied ∧ s.applied < t.applied) := by
  cases news with
  | snapshot jobs =>
    obtain ⟨job, hjob⟩ := Option.isSome_iff_exists.mp (isSome_lastWith?.mpr (hlisted jobs rfl))
    have hkey := key_of_lastWith? hjob
    subst hkey
    have hkept := (b.discovery_refreshed job).2
    rw [hs] at hkept
    refine ⟨b.refreshed job, ?_, Or.inl ⟨rfl, hkept⟩⟩
    rw [tell, section?_reconcile, hjob, Option.map_some]
  | answer k seq running =>
    refine ⟨if key = k then s.hear seq running else s, ?_, ?_⟩
    · rw [tell, section?_hear, hs, Option.map_some]
    · by_cases hk : key = k
      · subst k
        rw [if_pos rfl, Section.hear]
        split
        next hstale =>
          refine Or.inl ⟨?_, rfl⟩
          rw [Option.eq_none_iff_forall_ne_some]
          intro n hn
          obtain ⟨_, t, heq, ht, hnew⟩ := applied?_eq_some.mp hn
          cases heq
          rw [hs] at ht
          cases ht
          omega
        next hfresh =>
          have hnew : s.applied < seq := Nat.lt_of_not_le hfresh
          exact Or.inr ⟨applied?_eq_some.mpr ⟨running, s, rfl, hs, hnew⟩, hnew⟩
      · rw [if_neg hk, applied?, if_neg (Ne.symm hk)]
        exact Or.inl ⟨rfl, rfl⟩

end Board

namespace Dashboard

/-- The numbers of the answers for a key that a run applies, in the order they come. -/
def appliedNumbers (key : JobKey) (d : Dashboard) : List Message → List Nat
  | [] => []
  | message :: messages =>
    (message.news?.bind (d.board.applied? key)).toList ++
      (d.update message).state.appliedNumbers key messages

/-- While a job is listed, the numbers of the answers applied for it ascend from the number that its
section remembers. -/
theorem pairwise_appliedNumbers {key : JobKey} {messages : List Message}
    (hlisted : ∀ jobs, .jobsFetched (.ok jobs) ∈ messages → key ∈ jobs.map Job.key)
    (d : Dashboard) :
    (d.appliedNumbers key messages).Pairwise (· < ·) ∧
      ∀ s, d.section? key = some s → ∀ n ∈ d.appliedNumbers key messages, s.applied < n := by
  induction messages generalizing d with
  | nil => exact ⟨List.Pairwise.nil, fun s _ n hn => absurd hn List.not_mem_nil⟩
  | cons message messages ih =>
    obtain ⟨hrest, hlast⟩ := ih (fun jobs hjobs => hlisted jobs (List.mem_cons_of_mem _ hjobs))
      (d.update message).state
    rw [section?, board_update] at hlast
    rw [appliedNumbers]
    cases hnews : message.news? with
    | none =>
      rw [hnews] at hlast
      exact ⟨hrest, hlast⟩
    | some news =>
      rw [hnews] at hlast
      simp only [Option.elim_some, Option.bind_some] at hlast ⊢
      have hlisted : ∀ jobs, news = .snapshot jobs → key ∈ jobs.map Job.key := by
        rintro jobs rfl
        exact hlisted jobs (Message.news?_eq_snapshot.mp hnews ▸ List.mem_cons_self)
      cases happlied : d.board.applied? key news with
      | none =>
        refine ⟨hrest, ?_⟩
        intro s hs n hn
        obtain ⟨t, ht, ⟨-, heq⟩ | ⟨hsome, -⟩⟩ := Board.section?_tell hs hlisted
        · exact heq ▸ hlast t ht n hn
        · rw [happlied] at hsome
          cases hsome
      | some m =>
        obtain ⟨_, s, -, hs, -⟩ := Board.applied?_eq_some.mp happlied
        obtain ⟨t, ht, ⟨hnone, -⟩ | ⟨hsome, hlt⟩⟩ := Board.section?_tell hs hlisted
        · rw [happlied] at hnone
          cases hnone
        · rw [happlied] at hsome
          cases hsome
          -- The section now remembers the number applied, so the rest is above it.
          have hlast := hlast t ht
          refine ⟨List.pairwise_cons.mpr ⟨hlast, hrest⟩, ?_⟩
          intro s' hs' n hn
          have hss : s = s' := Option.some.inj (hs.symm.trans hs')
          subst s'
          rcases List.mem_cons.mp hn with rfl | hn
          · exact hlt
          · exact Nat.lt_trans hlt (hlast n hn)

/-- In every part of a run whose listings all list a job, the numbers of the answers applied for it
ascend strictly, whatever came before: an answer no newer than one applied is dropped. -/
theorem applied_numbers_ascend_while_listed {key : JobKey} {messages : List Message}
    (hlisted : ∀ jobs, .jobsFetched (.ok jobs) ∈ messages → key ∈ jobs.map Job.key)
    (d : Dashboard) : (d.appliedNumbers key messages).Pairwise (· < ·) :=
  (pairwise_appliedNumbers hlisted d).1

/-- A job that stays listed; of three answers the second comes too late. -/
def overtaken : List Message :=
  [.jobsFetched (.ok [⟨⟨"api", "ops"⟩, []⟩]), .jobsFetched (.ok [⟨⟨"api", "ops"⟩, []⟩]),
    .discoveryStatusFetched ⟨"api", "ops"⟩ 2 false, .discoveryStatusFetched ⟨"api", "ops"⟩ 1 true,
    .jobsFetched (.ok [⟨⟨"web", "ops"⟩, []⟩, ⟨⟨"api", "ops"⟩, []⟩]),
    .discoveryStatusFetched ⟨"api", "ops"⟩ 3 true]

theorem overtaken_numbers_ascend :
    (∀ jobs, .jobsFetched (.ok jobs) ∈ overtaken →
      (⟨"api", "ops"⟩ : JobKey) ∈ jobs.map Job.key) ∧
      (start {}).appliedNumbers ⟨"api", "ops"⟩ overtaken = [2, 3] ∧
      ((start {}).appliedNumbers ⟨"api", "ops"⟩ overtaken).Pairwise (· < ·) := by
  have hlisted : ∀ jobs, .jobsFetched (.ok jobs) ∈ overtaken →
      (⟨"api", "ops"⟩ : JobKey) ∈ jobs.map Job.key := by
    intro jobs hjobs
    simp only [overtaken, List.mem_cons, Message.jobsFetched.injEq, Except.ok.injEq, reduceCtorEq,
      List.not_mem_nil, or_self, or_false, false_or, or_self_left] at hjobs
    rcases hjobs with rfl | rfl <;> simp
  refine ⟨hlisted, ?_, applied_numbers_ascend_while_listed hlisted (start {})⟩
  simp only [overtaken, appliedNumbers, board_update, Message.news?, Option.elim_some,
    Option.bind_some, Board.tell, Board.applied?, Board.answer, Board.section?_hear,
    Board.section?_reconcile]
  decide +kernel

/-- Whether each answer in a run answers a request that waits: one that the run made before and did
not answer yet. -/
def answersRequests (d : Dashboard) (waiting : List DiscoveryRequest) : List Message → Bool
  | [] => true
  | message :: messages =>
    message.answered?.all (· ∈ waiting) &&
      (d.update message).state.answersRequests
        (message.answered?.elim waiting waiting.erase ++
          (d.update message).effects.filterMap Effect.request?) messages

/-- A job that goes and comes back; the first request is answered last. -/
def returned : List Message :=
  [.jobsFetched (.ok [⟨⟨"api", "ops"⟩, []⟩]), .jobsFetched (.ok [⟨⟨"api", "ops"⟩, []⟩]),
    .discoveryStatusFetched ⟨"api", "ops"⟩ 2 false, .jobsFetched (.ok []),
    .jobsFetched (.ok [⟨⟨"api", "ops"⟩, []⟩]), .discoveryStatusFetched ⟨"api", "ops"⟩ 1 true]

/-- Although each answer answers a request, the older one is applied after the newer one and decides
the display. -/
theorem returned_shows_older_answer :
    (start {}).answersRequests [] returned = true ∧
      (start {}).appliedNumbers ⟨"api", "ops"⟩ returned = [2, 1] ∧
      ¬((start {}).appliedNumbers ⟨"api", "ops"⟩ returned).Pairwise (· < ·) ∧
      ((start {}).run returned).board.sections.map Section.discovery = [.running] := by
  have hnumbers : (start {}).appliedNumbers ⟨"api", "ops"⟩ returned = [2, 1] := by
    decide +kernel
  refine ⟨by decide +kernel, hnumbers, ?_, by decide +kernel⟩
  rw [hnumbers]
  decide

end Dashboard

end JobBoard
