import JobBoard.Backend.BaseUrl
import JobBoard.Backend.Command
import JobBoard.Backend.Explanation
import JobBoard.Backend.Listing
import JobBoard.Json.SoleMember

/-!
# Exchanges with the backend

What is asked of the backend for a command, and what is made of whatever comes back. Questions wait
for their answer as long as the read timeout says, requests for actions without end. An answer that
cannot be read counts as no for the questions of discovery and health.
-/
namespace JobBoard.Backend

/-- What becomes of a request. -/
inductive Delivery where
  /-- There is no connection, so no request is sent. -/
  | unreachable
  /-- No connection comes about before the connect timeout. -/
  | unconnected
  /-- The connection is closed without an answer. -/
  | closed
  /-- No answer comes before the timeout, and the connection is closed in the end. -/
  | hang
  /-- An answer whose body does not end before the timeout; the connection is closed in the end. -/
  | stall (status : Nat)
  /-- An answer; the body may be cut short. -/
  | reply (status : Nat) (body : Bytes) (complete : Bool)
  deriving DecidableEq

/-- A request as it is sent: with a body of JSON to ask for an action, without one else. -/
structure Request where
  target : String
  body : Option String
  deriving DecidableEq

structure Client where
  base : BaseUrl
  readTimeout : Option Duration

def isSuccess (status : Nat) : Bool :=
  200 ≤ status && status < 300

/-- The explanation in the body of an answer; a body cut short counts as empty. -/
def replyExplanation (body : Bytes) (complete : Bool) : String :=
  explanation (if complete then String.ofList (Text.Utf8.decodeLossy body) else "")

/-- Whether there is a connection, over which a request is sent. -/
def Delivery.connects (d : Delivery) : Bool :=
  d ≠ .unreachable ∧ d ≠ .unconnected

/-- The longest URL in a request, in bytes. -/
def maxUrlSize : Nat := 65534

/-- Whether a host can stand in a request. -/
def fitsRequest (h : Host) : Bool :=
  !h.text.any ['"', '\x60', '\x7b', '\x7d'].contains

/-- Whether requests can be sent to a URL. -/
def canBeAsked (u : Url) : Bool :=
  (u.scheme = "http".toList ∨ u.scheme = "https".toList) ∧
    (u.authority.bind (·.host)).any fitsRequest ∧
    (Text.Utf8.encode u.withoutCredentials.chars).length ≤ maxUrlSize

/-- Why no request is sent to a URL that cannot be asked. -/
def refusal (u : Url) : Failure :=
  ⟨.invalidUrl, "builder error for url (" ++ u.withoutCredentials.text ++ ")"⟩

/-- Path and query of a URL. -/
def target (u : Url) : String :=
  String.ofList (u.path.text ++ Url.marked '?' u.query)

def discoveryBody (job : JobKey) : String :=
  Json.writeTexts [("renovateJob", job.name), ("namespace", job.ns)]

def renovateBody (job : JobKey) (project : String) : String :=
  Json.writeTexts [("renovateJob", job.name), ("namespace", job.ns), ("project", project)]

/-- Whether the body of a discovery status tells that discovery runs. -/
def saysRunning (body : Bytes) : Bool :=
  Json.readSole "status" Json.readTextOrNull body == some (some (some "running"))

def saysHealthy (body : Bytes) : Bool :=
  Json.readSole "healthy" Json.readBool body == some (some true)

namespace Client

def url? (c : Client) : Command → Option Url
  | .fetchJobs => some c.base.jobs
  | .fetchDiscoveryStatus job _ => some (c.base.discoveryStatus job)
  | .checkHealth => some c.base.health
  | .startDiscovery _ => some c.base.discoveryStart
  | .triggerRenovate _ _ => some c.base.renovate
  | .schedule _ _ => none

def body? : Command → Option String
  | .startDiscovery job => some (discoveryBody job)
  | .triggerRenovate job project => some (renovateBody job project)
  | _ => none

def request? (c : Client) (cmd : Command) (d : Delivery) : Option Request :=
  match c.url? cmd with
  | none => none
  | some u =>
    if canBeAsked u ∧ d.connects then some ⟨target u, body? cmd⟩ else none

/-- What becomes of waiting for what does not come before the read timeout. -/
def silence (c : Client) : Failure :=
  ⟨if c.readTimeout.isSome then .timeout else .network, ""⟩

/-- The body that comes back on a question. -/
def fetch (c : Client) (u : Url) (d : Delivery) : Except Failure Bytes :=
  if !canBeAsked u then .error (refusal u)
  else match d with
    | .unreachable => .error ⟨.network, ""⟩
    | .unconnected => .error ⟨.timeout, ""⟩
    | .closed => .error ⟨.network, ""⟩
    | .hang => .error c.silence
    | .stall status =>
      .error (if isSuccess status then c.silence
        else ⟨.httpStatus status, replyExplanation [] false⟩)
    | .reply status body complete =>
      if !isSuccess status then
        .error ⟨.httpStatus status, replyExplanation body complete⟩
      else if complete then .ok body
      else .error ⟨.network, ""⟩

/-- What comes back on a request for an action. -/
def act (u : Url) (d : Delivery) : Response :=
  if !canBeAsked u then .transport (refusal u).text
  else match d with
    | .unconnected => .transport (Failure.mk .timeout "").text
    | .stall status =>
      if isSuccess status then .accepted else .rejected status (replyExplanation [] false)
    | .reply status body complete =>
      if isSuccess status then .accepted
      else .rejected status (replyExplanation body complete)
    | _ => .transport (Failure.mk .network "").text

/-- Whether a question got a body that says yes. -/
def confirms (yes : Bytes → Bool) : Except Failure Bytes → Bool
  | .ok body => yes body
  | .error _ => false

def answer (c : Client) (d : Delivery) : Command → Event
  | .fetchJobs => .jobsFetched ((c.fetch c.base.jobs d).bind fun body => (readListing body).1)
  | .fetchDiscoveryStatus job seq =>
    .discoveryStatus job seq (confirms saysRunning (c.fetch (c.base.discoveryStatus job) d))
  | .checkHealth => .health (confirms saysHealthy (c.fetch c.base.health d))
  | .startDiscovery job => .discoveryStarted job (act c.base.discoveryStart d)
  | .triggerRenovate job project => .renovateTriggered job project (act c.base.renovate d)
  | .schedule token _ => .timerFired token

end Client

/-- Answers commands until it is shut down. -/
structure Engine where
  client : Client
  stopped : Bool := false

namespace Engine

def shutdown (e : Engine) : Engine :=
  { e with stopped := true }

/-- What a command sends and the event it ends in; after the shutdown neither. -/
def perform (e : Engine) (cmd : Command) (d : Delivery) : Option Request × Option Event :=
  if e.stopped then (none, none) else (e.client.request? cmd d, some (e.client.answer d cmd))

end Engine

end JobBoard.Backend
