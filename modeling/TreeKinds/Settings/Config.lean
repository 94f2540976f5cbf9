import TreeKinds.Files.Path
import TreeKinds.Log.Filter
import TreeKinds.Toml.Document

/-! Settings: where the definitions are written, and what becomes of a file that could not be
finished. A configuration file may set both, each at most once, and nothing else. It replaces
earlier settings as a whole, and one that cannot be read changes nothing. -/
namespace TreeKinds.Settings

/-! ### Outputs -/

structure Output where
  path : String
  removeOnFailure : Bool
  deriving DecidableEq, Repr

namespace Output

def default : Output := ⟨"tree.def", true⟩

/-- Two outputs agree when they treat unfinished files alike and name the same path. -/
def agrees (a b : Output) : Bool :=
  a.removeOnFailure = b.removeOnFailure && Files.Shape.ofPath a.path = Files.Shape.ofPath b.path

def isDefault (o : Output) : Bool := o.agrees default

end Output

/-! ### Configurations -/

structure Config where
  output : Option String
  removePartialOutput : Option Bool
  deriving DecidableEq, Repr

/-- Why a document is no configuration. -/
inductive Misfit where
  | unknownField (name : String)
  | wrongType (found : Toml.Value) (expected : String)
  deriving DecidableEq, Repr

def Misfit.message : Misfit → String
  | unknownField name =>
    "unknown field `" ++ name ++ "`, expected `output` or `remove_partial_output`"
  | wrongType found expected => "invalid type: " ++ found.describe ++ ", expected " ++ expected

/-- Why a text is no configuration; a misfit is marked in the text. -/
inductive ConfigFault where
  | notToml
  | misfit (cause : Misfit) (mark : Toml.Mark)
  deriving DecidableEq, Repr

namespace Config

def empty : Config := ⟨none, none⟩

/-- The configuration with the field of one entry set. -/
def setEntry (c : Config) (e : Toml.Entry) : Except ConfigFault Config :=
  if e.key.name = "output" then
    match e.value with
    | .string path => .ok { c with output := some path }
    | v => .error (.misfit (.wrongType v "path string") e.mark)
  else if e.key.name = "remove_partial_output" then
    match e.value with
    | .boolean b => .ok { c with removePartialOutput := some b }
    | v => .error (.misfit (.wrongType v "a boolean") e.mark)
  else .error (.misfit (.unknownField e.key.name) e.key.mark)

/-- Sets the fields in the order of the document, up to the first entry that does not fit. -/
def ofDocument (d : Toml.Document) : Except ConfigFault Config := d.foldlM setEntry empty

def ofText (text : String) : Except ConfigFault Config :=
  match Toml.Document.read text with
  | none => .error .notToml
  | some d => ofDocument d

/-- What a configuration leaves open is as by default. -/
def outputSettings (c : Config) : Output where
  path := c.output.getD Output.default.path
  removeOnFailure := c.removePartialOutput.getD Output.default.removeOnFailure

end Config

/-! ### Files -/

/-- Why no configuration came of a file; a fault is in the text that was read. -/
inductive ConfigError where
  | unread (cause : Files.Failure)
  | faulty (text : String) (fault : ConfigFault)
  deriving DecidableEq, Repr

namespace ConfigError

/-- A fault as it is shown. A misfit is shown with its place in the text; `toml` words why a text is
no document. -/
def report (toml : String → String) (text : String) : ConfigFault → String
  | .notToml => toml text
  | .misfit cause mark => Toml.report text mark cause.message

def message (toml : String → String) (path : String) : ConfigError → String
  | unread cause => "could not read config file " ++ path ++ ": " ++ cause.message
  | faulty text fault => "invalid config file " ++ path ++ ": " ++ report toml text fault

end ConfigError

namespace Config

/-- Whether a file fails to open or to be read makes no difference. -/
def ofReading : Except Files.ReadFailure Bytes → Except ConfigError Config
  | .error (.unopened cause) => .error (.unread cause)
  | .error (.unread cause) => .error (.unread cause)
  | .ok bytes =>
    match Utf8.text? bytes with
    | none => .error (.unread .notUtf8)
    | some text => (ofText text).mapError (.faulty text)

theorem ofReading_eq_ok_iff {r : Except Files.ReadFailure Bytes} {c : Config} :
    ofReading r = .ok c ↔
      ∃ bytes text, r = .ok bytes ∧ Utf8.text? bytes = some text ∧ ofText text = .ok c := by
  cases r with
  | error f => cases f <;> simp [ofReading]
  | ok bytes =>
    cases ht : Utf8.text? bytes with
    | none => simp [ofReading, ht]
    | some text => simp [ofReading, Files.mapError_eq_ok_iff, ht]

def loadFile {m : Type → Type} [Monad m] (host : Host m) (path : String) :
    m (Except ConfigError Config) := do
  return ofReading (← host.read path)

end Config

/-! ### Changes -/

inductive Change where
  | path (value : String)
  | removeOnFailure (value : Bool)
  | reset
  | config (text : String)
  deriving DecidableEq, Repr

/-- The settings after a change, or why it was refused. -/
def Change.apply (o : Output) : Change → Except ConfigFault Output
  | path value => .ok { o with path := value }
  | removeOnFailure value => .ok { o with removeOnFailure := value }
  | reset => .ok .default
  | config text => (Config.ofText text).map Config.outputSettings

/-- The settings that stand after an attempt at a change. -/
def settled (o : Output) (r : Except ConfigFault Output) : Output :=
  match r with
  | .ok o' => o'
  | .error _ => o

def Change.run (o : Output) (change : Change) : Output := settled o (change.apply o)

/-- The settings after all the changes. -/
def run (o : Output) (changes : List Change) : Output := changes.foldl Change.run o

@[simp] theorem run_nil (o : Output) : run o [] = o := rfl

@[simp] theorem run_cons (o : Output) (change : Change) (changes : List Change) :
    run o (change :: changes) = run (change.run o) changes := rfl

theorem run_append (o : Output) (a b : List Change) : run o (a ++ b) = run (run o a) b :=
  List.foldl_append

/-- What each of the changes comes to. -/
def outcomes (o : Output) : List Change → List (Except ConfigFault Output)
  | [] => []
  | change :: changes => change.apply o :: outcomes (change.run o) changes

end TreeKinds.Settings
