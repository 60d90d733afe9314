import JobBoard.Snapshot

/-!
# Records

Jobs and projects as the backend lists them, with the statuses as they were written.
-/
namespace JobBoard.Backend

structure ProjectRecord where
  name : String
  status : String
  deriving DecidableEq

structure JobRecord where
  key : JobKey
  projects : List ProjectRecord
  deriving DecidableEq

def ProjectRecord.project (p : ProjectRecord) : Project :=
  ⟨p.name, .parse p.status⟩

def JobRecord.job (j : JobRecord) : Job :=
  ⟨j.key, j.projects.map ProjectRecord.project⟩

end JobBoard.Backend
