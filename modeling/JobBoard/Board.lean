import JobBoard.Log
import JobBoard.Snapshot

/-!
# The board

The board holds one section per job. A snapshot replaces the sections: a job that stays keeps what
is known of its discovery and gets new rows, a job that went loses its section. Every section of
the new board asks for its discovery status once, under a number greater than any before, and an
answer counts only if its number is greater than that of the last answer applied.
-/
namespace JobBoard

/-- What is known of a job's discovery. -/
inductive Discovery where
  | unknown
  | idle
  | running
  deriving DecidableEq

inductive Row where
  | project (name : String) (status : ProjectStatus)
  /-- Stands for a job without projects. -/
  | placeholder (job : JobKey)
  deriving DecidableEq

def Job.rows (job : Job) : List Row :=
  if job.projects.isEmpty then [.placeholder job.key]
  else (sortProjects job.projects).map fun p => .project p.name p.status

structure Section where
  key : JobKey
  caption : String
  rows : List Row
  discovery : Discovery
  /-- Number of the last discovery answer applied. -/
  applied : Nat
  deriving DecidableEq

namespace Section

def fresh (key : JobKey) : Section where
  key := key
  caption := key.label
  rows := []
  discovery := .unknown
  applied := 0

def hasProject (s : Section) (project : String) : Bool :=
  s.rows.any fun
    | .project name _ => name = project
    | .placeholder _ => false

end Section

/-- A section that a snapshot found on the board. -/
structure SectionUpdate where
  key : JobKey
  captionChanged : Bool
  deriving DecidableEq

/-- A question for the discovery status of a job. -/
structure DiscoveryRequest where
  key : JobKey
  seq : Nat
  deriving DecidableEq

structure Report where
  created : List JobKey
  updated : List SectionUpdate
  removed : List JobKey
  requests : List DiscoveryRequest
  stats : Stats
  deriving DecidableEq

def Report.entry (r : Report) : Log.Entry where
  level := .info
  text := "Reconciled " ++ toString r.requests.length ++ " jobs: created="
    ++ toString r.created.length ++ " updated=" ++ toString r.updated.length ++ " removed="
    ++ toString r.removed.length

structure Board where
  sections : List Section := []
  /-- Number of the last discovery request. -/
  issued : Nat := 0
  deriving DecidableEq

namespace Board

def keys (b : Board) : List JobKey :=
  b.sections.map Section.key

def section? (b : Board) (key : JobKey) : Option Section :=
  b.sections.find? (·.key = key)

/-- The section of a job after a snapshot. -/
def refreshed (b : Board) (job : Job) : Section :=
  { (b.section? job.key).getD (Section.fresh job.key) with
    caption := job.key.label
    rows := job.rows }

/-- The section's place in the report, if it was on the board. -/
def update? (b : Board) (key : JobKey) : Option SectionUpdate :=
  (b.section? key).map fun s => ⟨key, s.caption != key.label⟩

/-- Requests for the keys in order, numbered from `seq + 1`. -/
def requestsFrom (seq : Nat) : List JobKey → List DiscoveryRequest
  | [] => []
  | key :: keys => ⟨key, seq + 1⟩ :: requestsFrom (seq + 1) keys

/-- The board after a snapshot, and what the snapshot did. -/
def reconcile (b : Board) (snapshot : List Job) : Board × Report :=
  let jobs := sortJobs (lastOfEachKey snapshot)
  let keys := jobs.map Job.key
  let gone := b.keys.filter (!keys.contains ·)
  ( { sections := jobs.map b.refreshed
      issued := b.issued + jobs.length },
    { created := keys.filter fun key => (b.section? key).isNone
      updated := keys.filterMap b.update?
      removed := gone.mergeSort fun a b => (a.compare b).isLE
      requests := requestsFrom b.issued keys
      stats := Stats.ofJobs jobs } )

/-- Why an answer to a discovery request is dropped. -/
inductive Dropped where
  /-- The job has no section. -/
  | unknownJob (key : JobKey)
  /-- An answer at least as new was applied before. -/
  | stale (key : JobKey) (seq applied : Nat)
  deriving DecidableEq

def Dropped.entry : Dropped → Log.Entry
  | .unknownJob key =>
    ⟨.debug, "Discovery status for unknown section " ++ key.path ++ " dropped"⟩
  | .stale key seq applied =>
    ⟨.debug, "Stale discovery status for " ++ key.path ++ " dropped (seq " ++ toString seq
      ++ " <= " ++ toString applied ++ ")"⟩

/-- The display that an answer asks for. -/
def answered (running : Bool) : Discovery :=
  if running then .running else .idle

/-- Applies the answer to a discovery request: the new board, and whether the display changed. -/
def answer (b : Board) (key : JobKey) (seq : Nat) (running : Bool) :
    Except Dropped (Board × Bool) :=
  match b.section? key with
  | none => .error (.unknownJob key)
  | some s =>
    if seq ≤ s.applied then .error (.stale key seq s.applied)
    else
      let sections := b.sections.map fun t =>
        if t.key = key then { t with applied := seq, discovery := answered running } else t
      .ok ({ b with sections }, s.discovery != answered running)

end Board

end JobBoard
