import TreeKinds.Description.Declaration
import TreeKinds.Log.Filter
import TreeKinds.Text.Utf8

/-! A description as a registry. Lines are read from top to bottom, and the first line that is at
fault or declares a known name ends the reading. A description comes as a text, as bytes that must
be the encoding of one, in chunks whose sizes make no difference, or in a file. -/
namespace TreeKinds.Description

/-! ### Texts -/

/-- Reads the lines that follow the declarations in `known`; `line` is the number of the first. -/
def readLines (known : Registry) (line : Nat) : List (List Char) → Except Rejection Registry
  | [] => .ok known
  | l :: ls =>
    match Declaration.read l with
    | .error fault => .error ⟨line, fault⟩
    | .ok none => readLines known (line + 1) ls
    | .ok (some d) =>
      match known.named? d.name with
      | some k => .error ⟨line, .duplicateName d.name k.line⟩
      | none => readLines (known ++ [⟨d.name, d.friendlyName, line⟩]) (line + 1) ls

def load (text : String) : Except Rejection Registry :=
  readLines [] 1 (Text.lines (Text.dropByteOrderMark text.toList))

/-! ### Bytes -/

open Files (Failure)

/-- Why no registry came of a description. -/
inductive LoadError where
  | unopened (cause : Failure)
  | unread (cause : Failure)
  | rejected (r : Rejection)
  deriving DecidableEq, Repr

/-- The wording of a failed load; `label` is the name under which the description goes. -/
def LoadError.message (label : String) : LoadError → String
  | unopened cause => "could not open language file " ++ label ++ ": " ++ cause.message
  | unread cause => "could not read language file " ++ label ++ ": " ++ cause.message
  | rejected r => r.message label

/-- Bytes that encode no text are refused at the line of the first byte that is out of place. -/
def loadBytes (bytes : Bytes) : Except Rejection Registry :=
  match Utf8.decode bytes with
  | (s, []) => load (String.ofList s)
  | (s, _ :: _) => .error ⟨s.count '\n' + 1, .invalidUtf8⟩

/-- One answer of a source to a request for bytes. No bytes mean the end. -/
inductive Step where
  | chunk (bytes : Bytes)
  | interrupted
  | failure (cause : Failure)
  deriving DecidableEq, Repr

/-- All bytes up to the end. An interrupted request is made again, and a failure loses what came
before it. -/
def readAll : List Step → Except Failure Bytes
  | [] => .ok []
  | .chunk [] :: _ => .ok []
  | .chunk bytes :: steps => (readAll steps).map (bytes ++ ·)
  | .interrupted :: steps => readAll steps
  | .failure cause :: _ => .error cause

def loadSteps (steps : List Step) : Except LoadError Registry :=
  match readAll steps with
  | .error cause => .error (.unread cause)
  | .ok bytes => (loadBytes bytes).mapError .rejected

/-! ### Files -/

/-- Loads the bytes that were read, if they were. -/
def ofReading : Except Files.ReadFailure Bytes → Except LoadError Registry
  | .error (.unopened cause) => .error (.unopened cause)
  | .error (.unread cause) => .error (.unread cause)
  | .ok bytes => (loadBytes bytes).mapError .rejected

theorem ofReading_eq_ok_iff {r : Except Files.ReadFailure Bytes} {kinds : Registry} :
    ofReading r = .ok kinds ↔ ∃ bytes, r = .ok bytes ∧ loadBytes bytes = .ok kinds := by
  cases r with
  | error f => cases f <;> simp [ofReading]
  | ok bytes => simp [ofReading, Files.mapError_eq_ok_iff]

def loadFile {m : Type → Type} [Monad m] (host : Host m) (path : String) :
    m (Except LoadError Registry) := do
  match ofReading (← host.read path) with
  | .error e => return .error e
  | .ok kinds =>
    host.log (.loaded path kinds.length)
    return .ok kinds

end TreeKinds.Description
