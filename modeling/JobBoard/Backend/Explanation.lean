import JobBoard.Json.Reader
import JobBoard.Text.Blank

/-!
# Explanations

What the backend says about a request that it declined. An object may hold the explanation in one
of three members; any other body is the explanation itself.
-/
namespace JobBoard.Backend

/-- The members that may explain, the one that counts first in front. -/
def explainingMembers : List String :=
  ["Message", "message", "error"]

/-- The text of a member, unless it is blank. -/
def spoken : Json.Value → Option String
  | .string s => if Text.blank s then none else some (Text.trim s)
  | _ => none

def explanation (body : String) : String :=
  let whole := Text.trim body
  match Json.parse (Text.Utf8.bytes whole) with
  | .ok (.object members) =>
    (explainingMembers.findSome? fun name => (Json.member? name members).bind spoken).getD whole
  | _ => whole

end JobBoard.Backend
