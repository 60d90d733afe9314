/-!
# Failures of fetching

Why a listing did not arrive.
-/
namespace JobBoard.Backend

inductive FailureKind where
  /-- No request can be sent to the URL. -/
  | invalidUrl
  /-- An answer came with a status that is no success. -/
  | httpStatus (status : Nat)
  /-- No answer came in time. -/
  | timeout
  | network
  /-- The body is not what was promised. -/
  | malformedResponse
  deriving DecidableEq

def FailureKind.text : FailureKind → String
  | .invalidUrl => "invalid url"
  | .httpStatus status => "http status " ++ toString status
  | .timeout => "timeout"
  | .network => "network error"
  | .malformedResponse => "malformed response"

structure Failure where
  kind : FailureKind
  /-- More about it, possibly nothing. -/
  message : String
  deriving DecidableEq

def Failure.text (f : Failure) : String :=
  if f.message.isEmpty then f.kind.text else f.kind.text ++ ": " ++ f.message

end JobBoard.Backend
