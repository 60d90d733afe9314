import JobBoard.Settings
import JobBoard.Terminal.Console

/-!
# Launching

From the environment to a console that is ready for its first input.
-/
namespace JobBoard.Terminal

/-- Why the dashboard does not start. -/
inductive LaunchFault where
  | settings (fault : Settings.Fault)
  | baseUrl (raw : String) (fault : Backend.BaseUrlFault)
  deriving DecidableEq

def LaunchFault.message : LaunchFault → String
  | .settings fault => fault.message
  | .baseUrl raw fault => fault.report raw

/-- The first entry of the log. -/
def startEntry (s : Settings) : Log.Entry :=
  ⟨.info, "Starting dashboard against " ++ s.baseUrl ++ " (poll every " ++ s.poll.text ++ ")"⟩

/-- What comes of an environment. Logging starts as soon as the settings are read. -/
structure Launch where
  log : List Log.Line := []
  /-- Where the log goes, once that is known. -/
  destination : Option LogDestination := none
  console : Except LaunchFault Console

def openConsole (s : Settings) (idna : Url.Idna) : Except LaunchFault Console :=
  match Backend.BaseUrl.parse s.baseUrl idna with
  | .ok base => .ok (.start s.timings base)
  | .error fault => .error (.baseUrl s.baseUrl fault)

def launch (environment : String → Option String) (idna : Url.Idna := .absent) : Launch :=
  match Settings.read environment with
  | .error fault => { console := .error (.settings fault) }
  | .ok settings =>
    { log := [⟨0, startEntry settings⟩]
      destination := some settings.log
      console := openConsole settings idna }

end JobBoard.Terminal
