import JobBoard.Proofs.Backend.Explanations
import JobBoard.Proofs.Backend.Outcomes
import JobBoard.Proofs.Terminal.Phases

/-!
# Declined actions

The way of a declined request from the answer of the backend to the toast: the engine reads the
explanation out of the body, the event becomes the message that the action ended, and the update
function tells the user. Main statement: `decline_tells_why`.
-/
namespace JobBoard

open Backend

namespace Target

def feedback : Target → Dashboard.Feedback
  | .discovery key => Dashboard.discoveryFeedback key
  | .renovate key project => Dashboard.triggerFeedback key project

def ended (o : Outcome) : Target → Message
  | .discovery key => .discoveryStartFinished key o
  | .renovate key project => .triggerFinished key project o

theorem neat_generic (t : Target) : Text.Neat t.feedback.generic := by
  cases t with
  | discovery key =>
    exact Text.neat_trim (s := "Failed to start discovery") (by decide +kernel)
  | renovate key project =>
    exact Text.neat_trim (s := "Failed to trigger renovate") (by decide +kernel)

end Target

/-- The characters of a body, ill-formed parts replaced. -/
abbrev bodyText (body : Bytes) : String :=
  String.ofList (Text.Utf8.decodeLossy body)

/-- What the user is told about a declined request is what the body explains, and the generic text
only if the body has nothing but blanks. -/
structure TellsWhy (generic : String) (body : Bytes) (message : String) : Prop where
  explained : (∃ c ∈ Text.Utf8.decodeLossy body, Text.isBlank c = false) →
    Explains (Text.trim (bodyText body)) message
  generic : (∀ c ∈ Text.Utf8.decodeLossy body, Text.isBlank c = true) → message = generic
  neat : Text.Neat message

theorem blank_bodyText {body : Bytes} :
    Text.blank (bodyText body) = true ↔
      ∀ c ∈ Text.Utf8.decodeLossy body, Text.isBlank c = true := by
  rw [Text.blank, String.toList_ofList, List.all_eq_true]

/-- The engine and the dashboard agree on which explanations are blank. -/
theorem tellsWhy_explain (t : Target) (body : Bytes) :
    TellsWhy t.feedback.generic body (t.feedback.explain (explanation (bodyText body))) := by
  have hexplains := explains_explanation (bodyText body)
  cases hbody : Text.blank (bodyText body) with
  | true =>
    have hgeneric : t.feedback.explain (explanation (bodyText body)) = t.feedback.generic := by
      rw [explanation_of_blank hbody, Dashboard.Feedback.explain]
      exact if_pos rfl
    rw [hgeneric]
    refine ⟨?_, fun _ => rfl, t.neat_generic⟩
    rintro ⟨c, hc, hnot⟩
    rw [blank_bodyText.mp hbody c hc] at hnot
    cases hnot
  | false =>
    have hneat := hexplains.neat hbody
    have hsaid : t.feedback.explain (explanation (bodyText body)) =
        explanation (bodyText body) := by
      rw [Dashboard.Feedback.explain, if_neg (by simp [hneat.not_blank])]
    rw [hsaid]
    refine ⟨fun _ => hexplains, ?_, hneat⟩
    intro hblank
    rw [blank_bodyText.mpr hblank] at hbody
    cases hbody

/-- A step settles a target that failed, asks for no poll and adds one toast, which is an error and
tells why. -/
structure Declines (d : Dashboard) (t : Target) (body : Bytes) (step : Step) : Prop where
  settled : step.state.phase t = .settled .failed
  no_poll : ∀ delay, .schedule .poll delay ∉ step.effects
  toast : ∃ toast, step.state.queue.toasts = d.queue.toasts ++ [toast] ∧ toast.kind = .error ∧
    TellsWhy t.feedback.generic body toast.message

namespace Dashboard

theorem update_ended (d : Dashboard) (t : Target) (o : Outcome) :
    d.update (t.ended o) = d.finish t t.feedback o := by
  cases t <;> rfl

theorem finish_rejected {d : Dashboard} {t : Target} (hbusy : d.phase t = .busy) (f : Feedback)
    (message : String) :
    ∃ generation, d.slots.settle? t (.rejected message) =
        some ((d.finish t f (.rejected message)).state.slots, generation) ∧
      (d.finish t f (.rejected message)).effects =
        [.schedule (.actionReset t generation) d.timings.actionReset,
          .schedule (.toastHide (d.queue.issued + 1)) d.timings.toastVisible] ∧
      (d.finish t f (.rejected message)).state.queue.toasts = d.queue.toasts ++
        [⟨d.queue.issued + 1, .error, f.failureTitle, f.explain message, true⟩] := by
  unfold finish settleAction?
  cases hsettle : d.slots.settle? t (.rejected message) with
  | none => exact absurd hbusy (Slots.settle?_eq_none.mp hsettle)
  | some settled => exact ⟨settled.2, rfl, rfl, rfl⟩

theorem declines_rejected {d : Dashboard} {t : Target} (hbusy : d.phase t = .busy) (body : Bytes) :
    Declines d t body (d.update (t.ended (.rejected (explanation (bodyText body))))) := by
  rw [update_ended]
  obtain ⟨generation, hsettle, heffects, htoasts⟩ :=
    finish_rejected hbusy t.feedback (explanation (bodyText body))
  refine ⟨?_, ?_, _, htoasts, rfl, ?_⟩
  · have hslot := (Slots.slot?_settle? hsettle).2 t
    rw [if_pos rfl] at hslot
    rw [phase, Slots.phase, hslot]
    rfl
  · intro delay hmem
    simp [heffects] at hmem
  · dsimp only
    exact tellsWhy_explain t body

end Dashboard

/-- The engine answers the request for an action with the end of the action, and the timers pass it
on. -/
theorem message_of_response (c : Client) (t : Target) (delivery : Delivery) (timers : Timers) :
    ∃ event response, (Engine.perform { client := c } t.command delivery).2 = some event ∧
      TellsOfAction (c.arrival? t.command delivery) response ∧
      (timers.message event).message = some (t.ended response.outcome) := by
  cases t with
  | discovery key => exact ⟨_, _, rfl, Client.tellsOfAction_act rfl, rfl⟩
  | renovate key project => exact ⟨_, _, rfl, Client.tellsOfAction_act rfl, rfl⟩

/-- Whatever the backend answers to the request of a busy target with a status that is no success,
if the body arrives whole then the message of the event settles the target as failed, polls nothing,
and tells the user why in one error toast. -/
theorem decline_tells_why {c : Client} {t : Target} {delivery : Delivery} {status : Nat}
    {body : Bytes} (hreply : c.arrival? t.command delivery = some ⟨status, some body⟩)
    (hstatus : ¬Arrival.Succeeds ⟨status, some body⟩) (timers : Timers) {d : Dashboard}
    (hbusy : d.phase t = .busy) :
    ∃ event message, (Engine.perform { client := c } t.command delivery).2 = some event ∧
      (timers.message event).message = some message ∧ Declines d t body (d.update message) := by
  obtain ⟨event, response, hevent, htells, hmessage⟩ := message_of_response c t delivery timers
  have hresponse : response = .rejected status (explanation (bodyText body)) :=
    (htells.rejected status _).mpr ⟨_, hreply, hstatus, rfl, rfl⟩
  rw [hresponse] at hmessage
  exact ⟨event, _, hevent, hmessage, d.declines_rejected hbusy body⟩

/-- A backend with a host, so that it can be asked. -/
def namedBase : BaseUrl :=
  ⟨⟨"http".toList, some { host := some (.domain "backend".toList) }, .segments [], none, none⟩, [],
    rfl⟩

def discovering : Dashboard :=
  { slots := { used := [(.discovery ⟨"api", "ops"⟩, ⟨none, 1⟩)], generations := 1 } }

/-- The first of the members says nothing, the second does. -/
def declinedBody : Bytes :=
  Text.Utf8.bytes "\x7b\"Message\":\" \",\"message\":\" already running \"\x7d"

theorem declined_discovery_tells_why :
    discovering.phase (.discovery ⟨"api", "ops"⟩) = .busy ∧
      ∃ event message,
        (Engine.perform { client := ⟨namedBase, none⟩ } (.startDiscovery ⟨"api", "ops"⟩)
          (.reply 409 declinedBody true)).2 = some event ∧
        (Timers.message {} event).message = some message ∧
        Declines discovering (.discovery ⟨"api", "ops"⟩) declinedBody
          (discovering.update message) := by
  have hbusy : discovering.phase (.discovery ⟨"api", "ops"⟩) = .busy := by decide
  have hreply : Client.arrival? ⟨namedBase, none⟩ (Target.discovery ⟨"api", "ops"⟩).command
      (.reply 409 declinedBody true) = some ⟨409, some declinedBody⟩ := by
    have hasked : canBeAsked namedBase.discoveryStart = true := by decide +kernel
    exact Client.arrival?_of_asked rfl hasked
  have hstatus : ¬Arrival.Succeeds ⟨409, some declinedBody⟩ := by simp [Arrival.Succeeds]
  exact ⟨hbusy, decline_tells_why hreply hstatus {} hbusy⟩

end JobBoard
