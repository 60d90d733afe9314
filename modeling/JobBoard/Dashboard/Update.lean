import JobBoard.Dashboard.State

/-!
# The update function

One message at a time: the state after it, the effects it asks for, and what is logged about it.
-/
namespace JobBoard

structure Step where
  state : Dashboard
  effects : List Effect := []
  log : List Log.Entry := []

namespace Dashboard

/-- The texts that tell the user about one kind of action. -/
structure Feedback where
  /-- What was acted on, as it stands in log texts. -/
  subject : String
  successTitle : String
  successMessage : String
  failureTitle : String
  errorTitle : String
  /-- Stands for an explanation that is blank. -/
  generic : String

def discoveryFeedback (key : JobKey) : Feedback where
  subject := "Discovery for " ++ key.path
  successTitle := "Discovery started"
  successMessage := "Discovery started for " ++ key.label
  failureTitle := "Discovery failed"
  errorTitle := "Discovery error"
  generic := "Failed to start discovery"

def triggerFeedback (key : JobKey) (project : String) : Feedback where
  subject := "Trigger for " ++ project ++ " in " ++ key.path
  successTitle := "Renovate triggered"
  successMessage := "Renovate scheduled for " ++ project ++ " (" ++ key.label ++ ")"
  failureTitle := "Trigger failed"
  errorTitle := "Trigger error"
  generic := "Failed to trigger renovate"

/-- An explanation, or the generic text in place of a blank one. -/
def Feedback.explain (f : Feedback) (message : String) : String :=
  if Text.blank message then f.generic else message

/-- Tells the user how an action ended; a success polls once more. -/
def report (d : Dashboard) (f : Feedback) : Outcome → Step
  | .accepted =>
    let (d, hide) := d.notify .success f.successTitle f.successMessage
    { state := d, effects := [hide, .schedule .poll d.timings.followUp] }
  | .rejected message =>
    let (d, hide) := d.notify .error f.failureTitle (f.explain message)
    { state := d, effects := [hide], log := [⟨.warn, f.subject ++ " rejected: " ++ message⟩] }
  | .transport message =>
    let (d, hide) := d.notify .error f.errorTitle (f.explain message)
    { state := d, effects := [hide], log := [⟨.warn, f.subject ++ " errored: " ++ message⟩] }

/-- Settles an action that is out and tells the user; nothing happens if none is out. -/
def finish (d : Dashboard) (t : Target) (f : Feedback) (o : Outcome) : Step :=
  match d.settleAction? t o with
  | none => { state := d }
  | some (d, reset) =>
    let told := d.report f o
    { told with effects := reset :: told.effects }

def clickDiscovery (d : Dashboard) (key : JobKey) : Step :=
  match d.section? key with
  | none =>
    { state := d, log := [⟨.warn, "Discovery requested for unknown job " ++ key.path⟩] }
  | some s =>
    if s.discovery = .running then
      { state := d
        log := [⟨.debug, "Discovery for " ++ key.path
          ++ " is already running on the backend"⟩] }
    else match d.beginAction? (.discovery key) with
      | none =>
        { state := d
          log := [⟨.debug, "Discovery for " ++ key.path ++ " is in flight or settling"⟩] }
      | some begun =>
        { state := begun
          effects := [.startDiscovery key]
          log := [⟨.info, "Starting discovery for " ++ key.path⟩] }

def clickTrigger (d : Dashboard) (key : JobKey) (project : String) : Step :=
  if (d.section? key).any (·.hasProject project) then
    match d.beginAction? (.renovate key project) with
    | none =>
      { state := d
        log := [⟨.debug, "Trigger for " ++ project ++ " in " ++ key.path
          ++ " is in flight or settling"⟩] }
    | some begun =>
      { state := begun
        effects := [.triggerRenovate key project]
        log := [⟨.info, "Triggering renovate for " ++ project ++ " in " ++ key.path⟩] }
  else
    { state := d
      log := [⟨.warn, "Trigger requested for unknown project " ++ project ++ " in "
        ++ key.path⟩] }

/-- A listing that did not arrive leaves the board as it is and is told. -/
def fetchFailed (d : Dashboard) (message : String) : Step :=
  let (d, hide) :=
    { d with lastError := some message }.notify .error "Failed to load renovate jobs" message
  { state := d
    effects := [hide]
    log := [⟨.warn, "Fetching renovate jobs failed: " ++ message⟩] }

def update (d : Dashboard) : Message → Step
  | .pollRequested =>
    { state := { d with pollCount := d.pollCount + 1 }, effects := [.fetchJobs, .checkHealth] }
  | .jobsFetched (.ok jobs) =>
    let (d, report) := d.applySnapshot jobs
    { state := d
      effects := report.requests.map fun r => .fetchDiscoveryStatus r.key r.seq
      log := [report.entry] }
  | .jobsFetched (.error message) => d.fetchFailed message
  | .discoveryStatusFetched key seq running =>
    match d.applyDiscovery key seq running with
    | .ok d => { state := d }
    | .error dropped => { state := d, log := [dropped.entry] }
  | .healthChecked healthy => { state := d.setHealth healthy }
  | .discoveryClicked key => d.clickDiscovery key
  | .discoveryStartFinished key outcome =>
    d.finish (.discovery key) (discoveryFeedback key) outcome
  | .triggerClicked key project => d.clickTrigger key project
  | .triggerFinished key project outcome =>
    d.finish (.renovate key project) (triggerFeedback key project) outcome
  | .actionResetElapsed target generation => { state := d.resetAction target generation }
  | .toastHideElapsed id =>
    match d.hideToast? id with
    | some (d, removal) => { state := d, effects := [removal] }
    | none => { state := d }
  | .toastRemovalElapsed id => { state := d.removeToast id }

end Dashboard

end JobBoard
