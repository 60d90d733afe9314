import JobBoard.Snapshot
import JobBoard.Text.Quoted

/-!
# Instructions

What the user types: one instruction a line, its words between blanks. The first word is a verb, up
to ASCII case, and has to be followed by exactly the words that the verb takes.
-/
namespace JobBoard.Terminal

inductive Instruction where
  | refresh
  | discover (job : JobKey)
  | trigger (job : JobKey) (project : String)
  | logs (job : JobKey) (project : String)
  | help
  | quit
  deriving DecidableEq

inductive Verb where
  | refresh
  | discover
  | trigger
  | logs
  | help
  | quit
  deriving DecidableEq

namespace Verb

/-- The verb of a word in lower case. -/
def named? : String → Option Verb
  | "refresh" => some .refresh
  | "r" => some .refresh
  | "discover" => some .discover
  | "trigger" => some .trigger
  | "logs" => some .logs
  | "help" => some .help
  | "?" => some .help
  | "quit" => some .quit
  | "q" => some .quit
  | "exit" => some .quit
  | _ => none

/-- The verb and the words that it takes. -/
def usage : Verb → String
  | .refresh => "refresh"
  | .discover => "discover <job> <namespace>"
  | .trigger => "trigger <job> <namespace> <project>"
  | .logs => "logs <job> <namespace> <project>"
  | .help => "help"
  | .quit => "quit"

def all : List Verb :=
  [.refresh, .discover, .trigger, .logs, .help, .quit]

/-- The instruction of a verb with the words behind it, if they are as many as it takes. -/
def instruction? : Verb → List String → Option Instruction
  | .refresh, [] => some .refresh
  | .help, [] => some .help
  | .quit, [] => some .quit
  | .discover, [name, ns] => some (.discover ⟨name, ns⟩)
  | .trigger, [name, ns, project] => some (.trigger ⟨name, ns⟩ project)
  | .logs, [name, ns, project] => some (.logs ⟨name, ns⟩ project)
  | _, _ => none

end Verb

def usageLine : String :=
  "commands: " ++ String.intercalate " | " (Verb.all.map Verb.usage)

namespace Instruction

/-- Why a line is no instruction. -/
inductive Fault where
  | empty
  | unknown (word : String)
  | misused (verb : Verb)
  deriving DecidableEq

def Fault.message : Fault → String
  | .empty => "empty command"
  | .unknown word => "unknown command " ++ Text.quoted word ++ "; type help"
  | .misused verb => "usage: " ++ verb.usage

def parse (line : String) : Except Fault Instruction :=
  match Text.words line with
  | [] => .error .empty
  | word :: rest =>
    match Verb.named? (Text.asciiLower word) with
    | none => .error (.unknown word)
    | some verb =>
      match verb.instruction? rest with
      | some instruction => .ok instruction
      | none => .error (.misused verb)

end Instruction

end JobBoard.Terminal
