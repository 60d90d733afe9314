import JobBoard.Proofs.Json.SoleMember
import JobBoard.Proofs.Timers.InFlight

/-!
# Outcomes of commands

The event that answers a command tells what came of the command's request. For an action the status
decides, whatever becomes of the body; a question is only answered by a body that arrives whole and
can be read. Main statement: `event_tells_what_came`.
-/
namespace JobBoard.Backend

/-- What arrives of an answer: its status, and its body unless that is cut short. -/
structure Arrival where
  status : Nat
  body : Option Bytes
  deriving DecidableEq

namespace Arrival

def Succeeds (a : Arrival) : Prop :=
  200 ≤ a.status ∧ a.status < 300

/-- The body as text. A body cut short counts as empty. -/
def text (a : Arrival) : String :=
  (a.body.map fun body => String.ofList (Text.Utf8.decodeLossy body)).getD ""

theorem succeeds_iff {a : Arrival} : a.Succeeds ↔ isSuccess a.status = true := by
  simp [Succeeds, isSuccess]

theorem explanation_text (status : Nat) (body : Bytes) (complete : Bool) :
    explanation (text ⟨status, if complete then some body else none⟩) =
      replyExplanation body complete := by
  cases complete <;> rfl

end Arrival

def Delivery.arrival? : Delivery → Option Arrival
  | .stall status => some ⟨status, none⟩
  | .reply status body complete => some ⟨status, if complete then some body else none⟩
  | _ => none

def Brings (arrival : Option Arrival) (body : Bytes) : Prop :=
  ∃ a, arrival = some a ∧ a.Succeeds ∧ a.body = some body

/-- Nothing has arrived, or a status of success without its body. -/
def Lost (arrival : Option Arrival) : Prop :=
  ∀ a, arrival = some a → a.Succeeds ∧ a.body = none

def FailsAs {α : Type} (result : Except Failure α) (kind : FailureKind) : Prop :=
  ∃ message, result = .error ⟨kind, message⟩

section FailsAs

variable {α : Type} {kind : FailureKind}

@[simp]
theorem not_failsAs_ok {a : α} : ¬FailsAs (.ok a) kind := by
  rintro ⟨message, h⟩
  cases h

@[simp]
theorem failsAs_error {f : Failure} :
    FailsAs (.error f : Except Failure α) kind ↔ f.kind = kind := by
  constructor
  · rintro ⟨message, h⟩
    cases h
    rfl
  · rintro rfl
    exact ⟨f.message, rfl⟩

end FailsAs

section Lost

variable {arrival : Option Arrival}

theorem Lost.nothing (h : Lost arrival) :
    (∀ body, ¬Brings arrival body) ∧ ∀ a, arrival = some a → a.Succeeds := by
  refine ⟨?_, fun a ha => (h a ha).1⟩
  rintro body ⟨a, ha, -, hbody⟩
  rw [(h a ha).2] at hbody
  cases hbody

theorem not_lost_of_declined {a : Arrival} (ha : arrival = some a) (hstatus : ¬a.Succeeds) :
    ¬Lost arrival :=
  fun h => hstatus (h.nothing.2 a ha)

theorem Brings.not_lost {body : Bytes} (h : Brings arrival body) : ¬Lost arrival :=
  fun hlost => hlost.nothing.1 body h

end Lost

namespace Client

/-- What arrives for a command, once its request is sent. -/
def arrival? (c : Client) (cmd : Command) (d : Delivery) : Option Arrival :=
  (c.request? cmd d).bind fun _ => d.arrival?

/-- The URL of a command is one that requests can be sent to. -/
def Asks (c : Client) (cmd : Command) : Prop :=
  ∃ u, c.url? cmd = some u ∧ canBeAsked u = true

/-- What a question waits for, the connection, the answer or its body, does not come in time. -/
def TimesOut (c : Client) : Delivery → Prop
  | .unconnected => True
  | .hang => c.readTimeout.isSome
  | .stall status => Arrival.Succeeds ⟨status, none⟩ ∧ c.readTimeout.isSome
  | _ => False

end Client

/-- A response tells what arrived for a request for an action. -/
structure TellsOfAction (arrival : Option Arrival) (response : Response) : Prop where
  accepted : response = .accepted ↔ ∃ a, arrival = some a ∧ a.Succeeds
  rejected : ∀ status message, response = .rejected status message ↔
    ∃ a, arrival = some a ∧ ¬a.Succeeds ∧ a.status = status ∧ explanation a.text = message
  transport : (∃ message, response = .transport message) ↔ arrival = none

/-- A result tells what arrived for the question for the listing. -/
structure TellsOfListing (c : Client) (d : Delivery) (result : Except Failure (List JobRecord)) :
    Prop where
  ok : ∀ jobs, result = .ok jobs ↔
    ∃ body, Brings (c.arrival? .fetchJobs d) body ∧ (readListing body).1 = .ok jobs
  httpStatus : ∀ status message, result = .error ⟨.httpStatus status, message⟩ ↔
    ∃ a, c.arrival? .fetchJobs d = some a ∧ ¬a.Succeeds ∧ a.status = status ∧
      explanation a.text = message
  malformed : FailsAs result .malformedResponse ↔
    ∃ body, Brings (c.arrival? .fetchJobs d) body ∧ ∀ jobs, (readListing body).1 ≠ .ok jobs
  invalidUrl : FailsAs result .invalidUrl ↔ ¬c.Asks .fetchJobs
  timeout : FailsAs result .timeout ↔ c.Asks .fetchJobs ∧ c.TimesOut d
  network : FailsAs result .network ↔
    c.Asks .fetchJobs ∧ Lost (c.arrival? .fetchJobs d) ∧ ¬c.TimesOut d

/-- What an event says about the request of its command is what came of it. -/
def Tells (c : Client) (cmd : Command) (d : Delivery) : Event → Prop
  | .jobsFetched result => TellsOfListing c d result
  | .discoveryStatus _ _ running =>
    running = true ↔ ∃ body, Brings (c.arrival? cmd d) body ∧
      Json.Says "status" Json.SpellsText body (some (some "running"))
  | .health healthy =>
    healthy = true ↔ ∃ body, Brings (c.arrival? cmd d) body ∧
      Json.Says "healthy" Json.SpellsBool body (some true)
  | .discoveryStarted _ response => TellsOfAction (c.arrival? cmd d) response
  | .renovateTriggered _ _ response => TellsOfAction (c.arrival? cmd d) response
  | .timerFired _ => True

/-- A listing that cannot be read is malformed, whatever is wrong with it. -/
theorem kind_of_readListing {body : Bytes} {f : Failure} (h : (readListing body).1 = .error f) :
    f.kind = .malformedResponse := by
  unfold readListing at h
  split at h
  · cases h
    rfl
  · next items _ =>
    change ((readJobs items).1.mapError fun m => malformed m.message) = .error f at h
    cases hjobs : (readJobs items).1 with
    | error m =>
      rw [hjobs] at h
      cases h
      rfl
    | ok jobs =>
      rw [hjobs] at h
      cases h
  · cases h
    rfl

section Bodies

variable {body : Bytes}

theorem saysRunning_iff : saysRunning body = true ↔
    Json.Says "status" Json.SpellsText body (some (some "running")) := by
  rw [saysRunning, beq_iff_eq, Json.readSole_iff Json.reads_textOrNull]

theorem saysHealthy_iff : saysHealthy body = true ↔
    Json.Says "healthy" Json.SpellsBool body (some true) := by
  rw [saysHealthy, beq_iff_eq, Json.readSole_iff Json.reads_bool]

end Bodies

namespace Client

variable {c : Client} {cmd : Command} {u : Url} {d : Delivery}

theorem asks_iff (hu : c.url? cmd = some u) : c.Asks cmd ↔ canBeAsked u = true := by
  unfold Asks
  simp [hu]

theorem arrival?_of_asked (hu : c.url? cmd = some u) (hask : canBeAsked u = true) :
    c.arrival? cmd d = d.arrival? := by
  unfold arrival? request?
  rw [hu]
  cases d <;> simp [hask, Delivery.connects, Delivery.arrival?]

theorem arrival?_of_not_asked (hu : c.url? cmd = some u) (hask : ¬canBeAsked u = true) :
    c.arrival? cmd d = none := by
  unfold arrival? request?
  simp [hu, hask]

theorem asks_of_arrival {a : Arrival} (h : c.arrival? cmd d = some a) : c.Asks cmd := by
  cases hu : c.url? cmd with
  | none => simp [arrival?, request?, hu] at h
  | some u =>
    refine ⟨u, hu, ?_⟩
    by_contra hask
    rw [arrival?_of_not_asked hu hask] at h
    cases h

theorem lost_of_timesOut (h : c.TimesOut d) : Lost (c.arrival? cmd d) := by
  intro a ha
  obtain ⟨r, -, ha⟩ := Option.bind_eq_some_iff.mp ha
  cases d with
  | unconnected => cases ha
  | hang => cases ha
  | stall status =>
    cases ha
    exact ⟨h.1, rfl⟩
  | _ => cases h

/-- How a question can end, and the result that says so. -/
inductive Ends (c : Client) (cmd : Command) (d : Delivery) : Except Failure Bytes → Prop
  /-- It is never sent. -/
  | refused (message : String) (hasks : ¬c.Asks cmd) (harrival : c.arrival? cmd d = none) :
    Ends c cmd d (.error ⟨.invalidUrl, message⟩)
  | late (hasks : c.Asks cmd) (hlost : Lost (c.arrival? cmd d)) (htime : c.TimesOut d) :
    Ends c cmd d (.error ⟨.timeout, ""⟩)
  | lost (hasks : c.Asks cmd) (hlost : Lost (c.arrival? cmd d)) (htime : ¬c.TimesOut d) :
    Ends c cmd d (.error ⟨.network, ""⟩)
  | declined (a : Arrival) (harrival : c.arrival? cmd d = some a) (hstatus : ¬a.Succeeds) :
    Ends c cmd d (.error ⟨.httpStatus a.status, explanation a.text⟩)
  | brought (body : Bytes) (h : Brings (c.arrival? cmd d) body) : Ends c cmd d (.ok body)

theorem ends_silence (hasks : c.Asks cmd) (hlost : Lost (c.arrival? cmd d))
    (htime : c.TimesOut d ↔ c.readTimeout.isSome = true) : Ends c cmd d (.error c.silence) := by
  unfold silence
  by_cases hread : c.readTimeout.isSome = true
  · simpa [hread] using Ends.late hasks hlost (htime.mpr hread)
  · simpa [hread] using Ends.lost hasks hlost (mt htime.mp hread)

theorem ends_fetch (hu : c.url? cmd = some u) : Ends c cmd d (c.fetch u d) := by
  unfold fetch
  by_cases hask : canBeAsked u = true
  · have hasks := (asks_iff hu).mpr hask
    have harrival := arrival?_of_asked (d := d) hu hask
    have hlost (h : d.arrival? = none) : Lost (c.arrival? cmd d) := by
      rw [harrival, h]
      rintro _ ⟨⟩
    rw [hask]
    cases d with
    | unreachable => exact .lost hasks (hlost rfl) id
    | unconnected => exact .late hasks (hlost rfl) trivial
    | closed => exact .lost hasks (hlost rfl) id
    | hang => exact ends_silence hasks (hlost rfl) Iff.rfl
    | stall status =>
      have hsuccess := Arrival.succeeds_iff (a := ⟨status, none⟩)
      by_cases hstatus : isSuccess status = true
      · have hlost : Lost (c.arrival? cmd (.stall status)) := by
          rw [harrival]
          rintro _ ⟨⟩
          exact ⟨hsuccess.mpr hstatus, rfl⟩
        have hends := ends_silence hasks hlost (and_iff_right (hsuccess.mpr hstatus))
        simpa [hstatus] using hends
      · have hdeclined := Ends.declined _ harrival (mt hsuccess.mp hstatus)
        simpa [hstatus, ← Arrival.explanation_text status] using hdeclined
    | reply status body complete =>
      by_cases hstatus : isSuccess status = true
      · have hsuccess := fun body => Arrival.succeeds_iff (a := ⟨status, body⟩).mpr hstatus
        cases complete with
        | true => simpa [hstatus] using Ends.brought body ⟨_, harrival, hsuccess _, rfl⟩
        | false =>
          have hlost : Lost (c.arrival? cmd (.reply status body false)) := by
            rw [harrival]
            rintro _ ⟨⟩
            exact ⟨hsuccess _, rfl⟩
          simpa [hstatus] using Ends.lost hasks hlost id
      · have hdeclined := Ends.declined _ harrival (mt Arrival.succeeds_iff.mp hstatus)
        rw [Arrival.explanation_text] at hdeclined
        simpa [hstatus] using hdeclined
  · -- Without a request nothing arrives, whatever the backend would have done.
    have harrival := arrival?_of_not_asked (d := d) hu hask
    rw [Bool.not_eq_true] at hask
    rw [hask]
    exact .refused _ (by simp [asks_iff hu, hask]) harrival

theorem confirms_iff (yes : Bytes → Bool) {result : Except Failure Bytes}
    (h : Ends c cmd d result) :
    confirms yes result = true ↔ ∃ body, Brings (c.arrival? cmd d) body ∧ yes body = true := by
  cases h with
  | refused message hasks harrival => simp [confirms, Brings, harrival]
  | late hasks hlost htime => simp [confirms, hlost.nothing.1]
  | lost hasks hlost htime => simp [confirms, hlost.nothing.1]
  | declined a harrival hstatus => simp [confirms, Brings, harrival, hstatus]
  | brought body h =>
    obtain ⟨a, harrival, hstatus, hbody⟩ := h
    simp [confirms, Brings, harrival, hstatus, hbody]

theorem tellsOfListing_of_ends {result : Except Failure Bytes} (h : Ends c .fetchJobs d result) :
    TellsOfListing c d (result.bind fun body => (readListing body).1) := by
  cases h with
  | refused message hasks harrival =>
    constructor <;> simp [Except.bind, Brings, harrival, hasks]
  | late hasks hlost htime =>
    obtain ⟨hbrings, hsucceeds⟩ := hlost.nothing
    constructor <;> simp +contextual [Except.bind, hbrings, hsucceeds, hasks, htime]
  | lost hasks hlost htime =>
    obtain ⟨hbrings, hsucceeds⟩ := hlost.nothing
    constructor <;> simp +contextual [Except.bind, hbrings, hsucceeds, hasks, hlost, htime]
  | declined a harrival hstatus =>
    have hlost := not_lost_of_declined harrival hstatus
    have htime : ¬c.TimesOut d := mt lost_of_timesOut hlost
    have hasks := asks_of_arrival harrival
    rw [harrival] at hlost
    constructor <;> simp [Except.bind, Brings, harrival, hstatus, hasks, hlost, htime]
  | brought body h =>
    have hlost := h.not_lost
    have htime : ¬c.TimesOut d := mt lost_of_timesOut hlost
    obtain ⟨a, harrival, hstatus, hbody⟩ := h
    have hasks := asks_of_arrival harrival
    rw [harrival] at hlost
    cases hread : (readListing body).1 with
    | ok jobs =>
      constructor <;>
        simp [Except.bind, Brings, harrival, hstatus, hbody, hasks, hlost, htime, hread]
    | error f =>
      -- The listing is read only here, so no other end of the question is malformed.
      have hkind := kind_of_readListing hread
      obtain ⟨kind, message⟩ := f
      cases hkind
      constructor <;>
        simp [Except.bind, Brings, harrival, hstatus, hbody, hasks, hlost, htime, hread]

theorem tellsOfAction_of_arrival (a : Arrival) :
    TellsOfAction (some a)
      (if isSuccess a.status then .accepted else .rejected a.status (explanation a.text)) := by
  have hsuccess := a.succeeds_iff
  by_cases hstatus : isSuccess a.status = true
  · constructor <;> simp [hsuccess, hstatus]
  · constructor <;> simp [hsuccess, hstatus]

theorem tellsOfAction_act (hu : c.url? cmd = some u) :
    TellsOfAction (c.arrival? cmd d) (act u d) := by
  unfold act
  by_cases hask : canBeAsked u = true
  · rw [arrival?_of_asked hu hask, hask]
    cases d with
    | stall status =>
      have htells := tellsOfAction_of_arrival ⟨status, none⟩
      simpa [Delivery.arrival?, ← Arrival.explanation_text status] using htells
    | reply status body complete =>
      have htells := tellsOfAction_of_arrival ⟨status, if complete then some body else none⟩
      rw [Arrival.explanation_text] at htells
      simpa [Delivery.arrival?] using htells
    | _ => constructor <;> simp [Delivery.arrival?]
  · rw [arrival?_of_not_asked hu hask]
    rw [Bool.not_eq_true] at hask
    constructor <;> simp [hask]

end Client

/-- The engine answers each command with one event of the command's kind, about what the command was
about, and what the event says is what came of the request: whatever the backend does, and whether
or not its URL can be asked. -/
theorem event_tells_what_came (c : Client) (cmd : Command) (d : Delivery) :
    ∃ event, (Engine.perform { client := c } cmd d).2 = some event ∧ Answers cmd event ∧
      Tells c cmd d event := by
  have hevent : (Engine.perform { client := c } cmd d).2 = some (c.answer d cmd) := rfl
  refine ⟨c.answer d cmd, hevent, answers_perform hevent, ?_⟩
  cases cmd with
  | fetchJobs => exact Client.tellsOfListing_of_ends (Client.ends_fetch rfl)
  | fetchDiscoveryStatus job seq =>
    have hends :
        c.Ends (.fetchDiscoveryStatus job seq) d (c.fetch (c.base.discoveryStatus job) d) :=
      Client.ends_fetch rfl
    have hruns := Client.confirms_iff saysRunning hends
    simp only [saysRunning_iff] at hruns
    exact hruns
  | checkHealth =>
    have hends : c.Ends .checkHealth d (c.fetch c.base.health d) := Client.ends_fetch rfl
    have hhealthy := Client.confirms_iff saysHealthy hends
    simp only [saysHealthy_iff] at hhealthy
    exact hhealthy
  | startDiscovery job => exact Client.tellsOfAction_act rfl
  | triggerRenovate job project => exact Client.tellsOfAction_act rfl
  | schedule token delay => trivial

end JobBoard.Backend
