import JobBoard.Snapshot
import JobBoard.Url.Reader

/-!
# The base URL

The URL that all endpoints of the backend lie below. A slash is added to its text if there is none
at the end, so that the last segment of its path stays in front of the endpoints.
-/
namespace JobBoard.Backend

/-- Why a text is no base URL. -/
inductive BaseUrlFault where
  | unreadable (fault : Url.Fault)
  /-- The path has no segments. -/
  | notHierarchical
  deriving DecidableEq

def BaseUrlFault.message : BaseUrlFault → String
  | .unreadable fault => fault.message
  | .notHierarchical => "not a hierarchical url"

def BaseUrlFault.report (f : BaseUrlFault) (raw : String) : String :=
  "invalid base url " ++ raw ++ ": " ++ f.message

structure BaseUrl where
  url : Url
  /-- The segments of its path. -/
  directory : List Url.Segment
  path_eq : url.path = .segments directory
  deriving DecidableEq

namespace BaseUrl

/-- The text with a slash at the end. -/
def closed (cs : List Char) : List Char :=
  if cs.getLast? = some '/' then cs else cs ++ ['/']

def parse (raw : String) (idna : Url.Idna := .absent) : Except BaseUrlFault BaseUrl :=
  match Url.parseChars idna (closed (Text.trimmed raw.toList)) with
  | .error fault => .error (.unreadable fault)
  | .ok url =>
    match h : url.path with
    | .segments directory => .ok ⟨url, directory, h⟩
    | .bare _ => .error .notHierarchical

/-- The URL of a place below, its segments in order, with a query of named texts. -/
def endpoint (b : BaseUrl) (place : List String) (query : List (String × String)) : Url :=
  (b.url.below (place.map String.toList)).withQuery query

/-- The texts that name a job in a query. -/
def jobQuery (job : JobKey) : List (String × String) :=
  [("renovate", job.name), ("namespace", job.ns)]

def jobs (b : BaseUrl) : Url :=
  b.endpoint ["api", "v1", "renovatejobs"] []

def discoveryStatus (b : BaseUrl) (job : JobKey) : Url :=
  b.endpoint ["api", "v1", "discovery", "status"] (jobQuery job)

def discoveryStart (b : BaseUrl) : Url :=
  b.endpoint ["api", "v1", "discovery", "start"] []

def renovate (b : BaseUrl) : Url :=
  b.endpoint ["api", "v1", "renovate"] []

def logs (b : BaseUrl) (job : JobKey) (project : String) : Url :=
  b.endpoint ["api", "v1", "logs"] (jobQuery job ++ [("project", project)])

def health (b : BaseUrl) : Url :=
  b.endpoint ["health"] []

end BaseUrl

end JobBoard.Backend
