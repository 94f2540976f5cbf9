import TreeKinds.CommandLine.Reading
import TreeKinds.Definitions.File
import TreeKinds.Description.Load

/-! A run of the program: settings, description and definitions in this order, and the first that
fails ends the run. What happens is logged on the way, and a report of the failure stands behind. -/
namespace TreeKinds.Run

open CommandLine (Options Refusal)

/-- Why a run did not get through. -/
inductive Failure where
  | config (path : String) (e : Settings.ConfigError)
  | load (path : String) (e : Description.LoadError)
  | write (path : String) (e : Files.WriteFailure)
  deriving DecidableEq, Repr

namespace Failure

def exitCode : Failure → Nat
  | config _ _ => 5
  | load _ (.unopened _) => 2
  | load _ _ => 3
  | write _ _ => 4

/-- `toml` words why a text is no document. -/
def message (toml : String → String) : Failure → String
  | config path e => e.message toml path
  | load path e => e.message path
  | write path e => Definitions.failureMessage path e

/-- A description that cannot be opened may be a mistake on the command line. -/
def hint : Failure → String
  | load _ (.unopened _) => "Usage: " ++ CommandLine.usage ++ "\n"
  | _ => ""

def report (toml : String → String) (f : Failure) : String :=
  "Error: " ++ f.message toml ++ "\n" ++ f.hint

end Failure

/-- The command line goes before the configuration. -/
def effective (c : Settings.Config) (o : Options) : Settings.Output where
  path := o.output.getD c.outputSettings.path
  removeOnFailure := c.outputSettings.removeOnFailure && !o.keepPartial

variable {m : Type → Type} [Monad m]

def configure (host : Host m) (o : Options) : m (Except Failure Settings.Config) :=
  match o.config with
  | none => return .ok .empty
  | some path => do return (← Settings.Config.loadFile host path).mapError (.config path)

def perform (host : Host m) (o : Options) : m (Except Failure Unit) := do
  match ← configure host o with
  | .error f => return .error f
  | .ok c =>
    let output := effective c o
    host.log (.begun o.description output.path)
    match ← Description.loadFile host o.description with
    | .error e => return .error (.load o.description e)
    | .ok kinds =>
      return (← Definitions.writeFile host kinds output).mapError (.write output.path)

/-- What a run says to its caller. Definitions that go to a standard stream under the path of a file
are not counted. -/
structure Outcome where
  exitCode : Nat
  stdout : String
  stderr : String
  deriving DecidableEq, Repr

namespace Outcome

/-- The outcome of a command line that asks for no definitions. -/
def ofStop : CommandLine.Stop → Outcome
  | .refused r => ⟨1, "", r.message⟩
  | .help => ⟨0, CommandLine.help, ""⟩
  | .version => ⟨0, CommandLine.version, ""⟩

/-- The log stands before the report. -/
def ofResult (toml : String → String) (log : String) : Except Failure Unit → Outcome
  | .ok () => ⟨0, "", log⟩
  | .error f => ⟨f.exitCode, "", log ++ f.report toml⟩

end Outcome

/-- Runs a command line; `logging` is the setting of the log filter. -/
def run (host : Host m) (toml : String → String) (logging : Option String) (words : List String) :
    m Outcome :=
  match CommandLine.read words with
  | .error stop => return .ofStop stop
  | .ok o => do
    let (result, log) ← (perform (host.logged (.ofSetting logging)) o).run ""
    return .ofResult toml log result

end TreeKinds.Run
