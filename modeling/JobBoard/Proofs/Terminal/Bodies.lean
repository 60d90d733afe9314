import JobBoard.Proofs.Json.Written
import JobBoard.Proofs.Terminal.Rejections

/-!
# What a request for an action names

The body of a request for an action names its target: it is read as the object of exactly the names
of the job, and of the project if there is one, whatever characters they hold. The message that ends
the action names the same target again.
-/
namespace JobBoard

open Backend

/-- What the body of the request for an action has to say: its members in the order of their
names. -/
def Target.members : Target → List (String × Json.Value)
  | .discovery key => [("namespace", .string key.ns), ("renovateJob", .string key.name)]
  | .renovate key project =>
    [("namespace", .string key.ns), ("project", .string project), ("renovateJob", .string key.name)]

theorem Target.members_injective {t t' : Target} (h : t.members = t'.members) : t = t' := by
  rcases t with ⟨name, ns⟩ | ⟨⟨name, ns⟩, project⟩
  · rcases t' with ⟨name', ns'⟩ | ⟨⟨name', ns'⟩, project'⟩
    · simp_all [members]
    · simp [members] at h
  · rcases t' with ⟨name', ns'⟩ | ⟨⟨name', ns'⟩, project'⟩
    · simp [members] at h
    · simp_all [members]

def Target.body : Target → String
  | .discovery key => discoveryBody key
  | .renovate key project => renovateBody key project

theorem parse_body (t : Target) :
    Json.parse (Text.Utf8.bytes t.body) = .ok (.object t.members) := by
  have hdiscovery (key : JobKey) : Json.insertMember "namespace" (.string key.ns)
      [("renovateJob", .string key.name)] = (Target.discovery key).members :=
    Json.insertMember_of_lt (by decide) (by decide)
  cases t with
  | discovery key =>
    refine (Json.parse_writeTexts _).trans ?_
    rw [← hdiscovery]
    rfl
  | renovate key project =>
    refine (Json.parse_writeTexts _).trans ?_
    have hproject : Json.insertMember "project" (.string project)
        (Target.discovery key).members = (Target.renovate key project).members := by
      rw [Target.members, Json.insertMember_of_gt (by decide) (by decide),
        Json.insertMember_of_lt (by decide) (by decide)]
      rfl
    rw [← hproject, ← hdiscovery]
    rfl

theorem Target.body_injective {t t' : Target} (h : t.body = t'.body) : t = t' := by
  have hparse := parse_body t
  rw [h, parse_body t'] at hparse
  exact Target.members_injective (Json.Value.object.inj (Except.ok.inj hparse)).symm

theorem Target.body?_command (t : Target) : Client.body? t.command = some t.body := by
  cases t <;> rfl

/-- Whatever a request is for, it is sent with the body of its command. -/
theorem body_of_request? {c : Client} {cmd : Command} {d : Delivery} {r : Request}
    (h : c.request? cmd d = some r) : r.body = Client.body? cmd := by
  unfold Client.request? at h
  split at h
  · cases h
  · split at h
    · cases h
      rfl
    · cases h

/-- Whatever the names of a job and a project hold, the body of the request for an action on them is
read as the object of exactly these names, so no other target has this body; and from the effect
that asks for the action to the message that ends it the target stays the same. -/
theorem bodies_name_targets :
    (∀ t : Target, ∃ body, Client.body? t.command = some body ∧
      Json.parse (Text.Utf8.bytes body) = .ok (.object t.members) ∧
      ∀ (c : Client) (d : Delivery) (r : Request),
        c.request? t.command d = some r → r.body = some body) ∧
    (∀ t t' : Target, Client.body? t.command = Client.body? t'.command → t = t') ∧
    ∀ (t : Target) (c : Client) (d : Delivery) (timers later : Timers),
      timers.command t.request = (timers, t.command) ∧
      ∃ event outcome, (Engine.perform { client := c } t.command d).2 = some event ∧
        (later.message event).message = some (t.ended outcome) := by
  refine ⟨?_, ?_, ?_⟩
  · intro t
    refine ⟨t.body, t.body?_command, parse_body t, ?_⟩
    intro c d r hr
    rw [body_of_request? hr, t.body?_command]
  · intro t t' hbody
    rw [t.body?_command, t'.body?_command] at hbody
    exact Target.body_injective (Option.some.inj hbody)
  · intro t c d timers later
    obtain ⟨event, response, hevent, -, hmessage⟩ := message_of_response c t d later
    refine ⟨?_, event, response.outcome, hevent, hmessage⟩
    cases t <;> rfl

/-- Names with a quote, a backslash and a control. -/
def oddTarget : Target :=
  .renovate ⟨"a\"b", "C:\\ops"⟩ "tab\tend\x01é"

def oddRequest : Request where
  target := "/api/v1/renovate"
  body := some ("\x7b\"renovateJob\":\"a\\\"b\",\"namespace\":\"C:\\\\ops\"," ++
    "\"project\":\"tab\\tend\\u0001é\"\x7d")

theorem odd_body_names_target :
    Client.request? ⟨namedBase, none⟩ oddTarget.command .hang = some oddRequest ∧
      ∃ body, oddRequest.body = some body ∧
        Json.parse (Text.Utf8.bytes body) = .ok (.object [("namespace", .string "C:\\ops"),
          ("project", .string "tab\tend\x01é"), ("renovateJob", .string "a\"b")]) := by
  have hrequest : Client.request? ⟨namedBase, none⟩ oddTarget.command .hang = some oddRequest := by
    decide +kernel
  obtain ⟨body, -, hparse, hsent⟩ := bodies_name_targets.1 oddTarget
  exact ⟨hrequest, body, hsent _ _ _ hrequest, hparse⟩

end JobBoard
