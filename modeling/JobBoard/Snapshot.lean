import JobBoard.Text.Blank
import JobBoard.Text.Collation

/-!
# Snapshots

What the backend lists: jobs, each with its projects and their statuses, and the order in which
they are shown.
-/
namespace JobBoard

/-- Identity of a job: its name and the namespace it lives in. -/
structure JobKey where
  name : String
  ns : String
  deriving DecidableEq

namespace JobKey

def label (k : JobKey) : String :=
  k.name ++ " - " ++ k.ns

/-- The key as it stands in log texts. -/
def path (k : JobKey) : String :=
  k.ns ++ "/" ++ k.name

/-- Code point order of the names, then of the namespaces. -/
def compare (a b : JobKey) : Ordering :=
  (Text.compareCodePoints a.name.toList b.name.toList).then
    (Text.compareCodePoints a.ns.toList b.ns.toList)

end JobKey

inductive ProjectStatus where
  | scheduled
  | running
  | failed
  | completed
  /-- A text that names no known status, as it was given. -/
  | other (raw : String)
  deriving DecidableEq

namespace ProjectStatus

/-- The status that a text names, up to blanks around it and ASCII case. -/
def parse (raw : String) : ProjectStatus :=
  match Text.asciiLower (Text.trim raw) with
  | "scheduled" => .scheduled
  | "running" => .running
  | "failed" => .failed
  | "completed" => .completed
  | _ => .other raw

def text : ProjectStatus → String
  | .scheduled => "scheduled"
  | .running => "running"
  | .failed => "failed"
  | .completed => "completed"
  | .other raw => raw

/-- Place in the order of rows: what runs comes first, what is unknown last. -/
def rank : ProjectStatus → Nat
  | .running => 0
  | .scheduled => 1
  | .failed => 2
  | .completed => 3
  | .other _ => 99

end ProjectStatus

structure Project where
  name : String
  status : ProjectStatus
  deriving DecidableEq

structure Job where
  key : JobKey
  projects : List Project
  deriving DecidableEq

def compareKeys (a b : JobKey) : Ordering :=
  (Text.collate a.name b.name).then (Text.collate a.ns b.ns)

def compareJobs (a b : Job) : Ordering :=
  compareKeys a.key b.key

def compareProjects (a b : Project) : Ordering :=
  (compare a.status.rank b.status.rank).then (Text.collate a.name b.name)

/-- Jobs in the order of their sections; level ones keep their places. -/
def sortJobs (jobs : List Job) : List Job :=
  jobs.mergeSort fun a b => (compareJobs a b).isLE

/-- Projects in the order of their rows; level ones keep their places. -/
def sortProjects (projects : List Project) : List Project :=
  projects.mergeSort fun a b => (compareProjects a b).isLE

/-- The last job of each key. -/
def lastOfEachKey : List Job → List Job
  | [] => []
  | job :: jobs =>
    if jobs.any fun later => later.key = job.key then lastOfEachKey jobs
    else job :: lastOfEachKey jobs

/-- How many projects have each of the known statuses. -/
structure Stats where
  scheduled : Nat := 0
  running : Nat := 0
  completed : Nat := 0
  failed : Nat := 0
  deriving DecidableEq

namespace Stats

def ofProjects (projects : List Project) : Stats where
  scheduled := projects.countP (·.status = .scheduled)
  running := projects.countP (·.status = .running)
  completed := projects.countP (·.status = .completed)
  failed := projects.countP (·.status = .failed)

def ofJobs (jobs : List Job) : Stats :=
  ofProjects (jobs.flatMap Job.projects)

def total (s : Stats) : Nat :=
  s.scheduled + s.running + s.completed + s.failed

end Stats

end JobBoard
