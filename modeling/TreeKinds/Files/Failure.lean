import TreeKinds.Text.Utf8

/-! The ways in which a file operation fails, and how the system words them. -/
namespace TreeKinds.Files

inductive Failure where
  | notPermitted
  | notFound
  | notADirectory
  | isADirectory
  | invalidArgument
  | fileTooLarge
  | noSpaceLeft
  | nameTooLong
  | tooManyLinks
  | nulInName
  | notUtf8
  | other (text : String)
  deriving DecidableEq, Repr

namespace Failure

/-- The number and the wording of a failure that the operating system reports. -/
def system? : Failure → Option (Nat × String)
  | notPermitted => some (1, "Operation not permitted")
  | notFound => some (2, "No such file or directory")
  | notADirectory => some (20, "Not a directory")
  | isADirectory => some (21, "Is a directory")
  | invalidArgument => some (22, "Invalid argument")
  | fileTooLarge => some (27, "File too large")
  | noSpaceLeft => some (28, "No space left on device")
  | nameTooLong => some (36, "File name too long")
  | tooManyLinks => some (40, "Too many levels of symbolic links")
  | _ => none

def message (f : Failure) : String :=
  match f.system? with
  | some (number, wording) => wording ++ " (os error " ++ toString number ++ ")"
  | none =>
    match f with
    | nulInName => "file name contained an unexpected NUL byte"
    | notUtf8 => "stream did not contain valid UTF-8"
    | other text => text
    | _ => ""

end Failure

inductive ReadFailure where
  | unopened (cause : Failure)
  | unread (cause : Failure)
  deriving DecidableEq, Repr

inductive WriteFailure where
  | uncreated (cause : Failure)
  | unwritten (cause : Failure)
  deriving DecidableEq, Repr

/-- What became of an attempt to remove a file. Only regular files are removed. -/
inductive Removal where
  | removed
  | notRegular
  | notRemoved (cause : Failure)
  | notInspected (cause : Failure)
  deriving DecidableEq, Repr

/-- Failures are passed on with more about them. That makes no success of them. -/
theorem mapError_eq_ok_iff {α ε ε' : Type} {x : Except ε α} {f : ε → ε'} {a : α} :
    x.mapError f = .ok a ↔ x = .ok a := by
  cases x with
  | error e => exact iff_of_false nofun nofun
  | ok b =>
    constructor
    · rintro ⟨⟩
      rfl
    · rintro ⟨⟩
      rfl

end TreeKinds.Files
