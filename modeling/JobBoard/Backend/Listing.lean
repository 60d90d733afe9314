import JobBoard.Backend.Failure
import JobBoard.Backend.Record
import JobBoard.Json.Reader
import JobBoard.Json.Record
import JobBoard.Log

/-!
# The listing of jobs

The body of a listing is a JSON array of jobs. Reading is lenient where something sensible can
still be shown: names may be missing, projects that cannot be read are skipped one by one, and
projects that are no array count as none. A job that cannot be read fails the whole listing.
-/
namespace JobBoard.Backend

/-- What was read, and what is logged about it. -/
abbrev Logged (α : Type) := α × List Log.Entry

def readProject (v : Json.Value) : Except Json.Mismatch ProjectRecord := do
  Json.checkRecord "WireProject" v
  let name ← Json.textField (v.field "name" 0)
  let status ← Json.textField (v.field "status" 1)
  Json.checkSurplus 2 v
  return ⟨name, status⟩

/-- The entry for a project of a job that cannot be read. -/
def skippedEntry (job : String) (m : Json.Mismatch) : Log.Entry :=
  ⟨.warn, "Skipping unreadable project entry in " ++ job ++ ": " ++ m.message⟩

/-- The projects of a job that can be read, with an entry for each that cannot. -/
def readProjects (job : String) : List Json.Value → Logged (List ProjectRecord)
  | [] => ([], [])
  | v :: vs =>
    let (projects, log) := readProjects job vs
    match readProject v with
    | .ok project => (project :: projects, log)
    | .error m => (projects, skippedEntry job m :: log)

def readJob (v : Json.Value) : Except Json.Mismatch (Logged JobRecord) := do
  Json.checkRecord "WireJob" v
  let name ← Json.textField (v.field "name" 0)
  let ns ← Json.textField (v.field "namespace" 1)
  Json.checkSurplus 3 v
  let (projects, log) := match v.field "projects" 2 with
    | .array items => readProjects name items
    | _ => ([], [])
  return (⟨⟨name, ns⟩, projects⟩, log)

/-- Reads jobs up to the first that cannot be read. -/
def readJobs : List Json.Value → Logged (Except Json.Mismatch (List JobRecord))
  | [] => (.ok [], [])
  | v :: vs =>
    match readJob v with
    | .error m => (.error m, [])
    | .ok (job, log) =>
      let (jobs, more) := readJobs vs
      (jobs.map (job :: ·), log ++ more)

def malformed (message : String) : Failure :=
  ⟨.malformedResponse, message⟩

def readListing (body : Bytes) : Logged (Except Failure (List JobRecord)) :=
  match Json.parse body with
  | .error stop => (.error (malformed (stop.message body)), [])
  | .ok (.array items) =>
    let (jobs, log) := readJobs items
    (jobs.mapError fun m => malformed m.message, log)
  | .ok _ => (.error (malformed "expected a JSON array of renovate jobs"), [])

end JobBoard.Backend
