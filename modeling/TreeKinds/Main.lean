import TreeKinds.Run

/-! The command line on the real file system. -/
namespace TreeKinds.Main

open Files (Failure ReadFailure WriteFailure Removal)

/-- The number under which the operating system reports a failure. -/
def systemNumber? : IO.Error → Option UInt32
  | .noFileOrDirectory _ number _ => some number
  | .permissionDenied _ number _ => some number
  | .inappropriateType _ number _ => some number
  | .invalidArgument _ number _ => some number
  | .resourceExhausted _ number _ => some number
  | .otherError number _ => some number
  | _ => none

/-- The number of an error, which some reports give with its sign turned. -/
def plainNumber (n : UInt32) : Nat := min n.toNat (-n).toNat

def known : List Failure :=
  [.notPermitted, .notFound, .notADirectory, .isADirectory, .invalidArgument, .fileTooLarge,
    .noSpaceLeft, .nameTooLong, .tooManyLinks]

/-- The failure behind an error, or its own words if it is none of those that are told apart. -/
def failure (e : IO.Error) : Failure :=
  let number := (systemNumber? e).map plainNumber
  (known.find? fun f => f.system?.map Prod.fst = number).getD (.other (toString e))

def attempt {α : Type} (action : IO α) : IO (Except Failure α) := do
  return (← action.toBaseIO).mapError failure

def openFile (path : String) (mode : IO.FS.Mode) : IO (Except Failure IO.FS.Handle) :=
  if path.toList.contains '\x00' then return .error .nulInName
  else attempt (IO.FS.Handle.mk path mode)

def read (path : String) : IO (Except ReadFailure Bytes) := do
  match ← openFile path .read with
  | .error f => return .error (.unopened f)
  | .ok handle => return ((← attempt handle.readBinToEnd).map (·.toList)).mapError .unread

def write (path : String) (blocks : List Bytes) : IO (Except WriteFailure Unit) := do
  match ← openFile path .write with
  | .error f => return .error (.uncreated f)
  | .ok handle =>
    let writeAll := do
      blocks.forM fun block => handle.write ⟨block.toArray⟩
      handle.flush
    return (← attempt writeAll).mapError .unwritten

def remove (path : String) : IO Removal := do
  match ← attempt (IO.FS.DirEntry.mk path "").root.symlinkMetadata with
  | .error f => return .notInspected f
  | .ok metadata =>
    if metadata.type matches .file then
      match ← attempt (IO.FS.removeFile path) with
      | .error f => return .notRemoved f
      | .ok () => return .removed
    else return .notRegular

def host : Host IO := ⟨read, write, remove, fun _ => pure ()⟩

/-- Stands in for the words of a reader of configuration documents. -/
def notToml (_ : String) : String := "TOML parse error\n"

end TreeKinds.Main

def main (words : List String) : IO UInt32 := do
  let outcome ← TreeKinds.Run.run TreeKinds.Main.host TreeKinds.Main.notToml
    (← IO.getEnv "RUST_LOG") words
  IO.print outcome.stdout
  IO.eprint outcome.stderr
  return UInt32.ofNat outcome.exitCode
