import TreeKinds.Definitions.Sink
import TreeKinds.Log.Filter
import TreeKinds.Settings.Config

/-! Definitions written to a file. Pieces are gathered into blocks: one is handed on when the next
piece would not fit into it any more, and a piece that is larger than a block goes alone. A file
that was created and then could not be written is removed if the settings say so; one that could not
be created is left alone. -/
namespace TreeKinds.Definitions

/-! ### Blocks -/

/-- Fills the room that is left in a block, and then further blocks. -/
def gather (capacity : Nat) : (room : Nat) → List Bytes → Bytes × List Bytes
  | _, [] => ([], [])
  | room, piece :: pieces =>
    if piece.length ≤ room then
      let (block, blocks) := gather capacity (room - piece.length) pieces
      (piece ++ block, blocks)
    else
      let (block, blocks) := gather capacity (capacity - piece.length) pieces
      ([], (piece ++ block) :: blocks)

def blockSize : Nat := 8192

def blocks (kinds : Registry) : List Bytes :=
  let (block, blocks) := gather blockSize blockSize (bytePieces kinds)
  block :: blocks

theorem gather_flatten (capacity room : Nat) (pieces : List Bytes) :
    (gather capacity room pieces).1 ++ (gather capacity room pieces).2.flatten =
      pieces.flatten := by
  induction pieces generalizing room with
  | nil => rfl
  | cons piece pieces ih =>
    rw [gather]
    split <;> simp [ih]

/-- No byte is lost or moved. -/
theorem blocks_flatten (kinds : Registry) : (blocks kinds).flatten = bytes kinds := by
  rw [blocks, List.flatten_cons, gather_flatten, bytes]

/-! ### Files -/

open Files (WriteFailure Removal)

def failureMessage (path : String) : WriteFailure → String
  | .uncreated cause => "could not create " ++ path ++ ": " ++ cause.message
  | .unwritten cause => "could not write " ++ path ++ ": " ++ cause.message

def removalEvent (path : String) : Removal → Log.Event
  | .removed => .removed path
  | .notRegular => .leftInPlace path
  | .notRemoved cause => .notRemoved path cause
  | .notInspected cause => .notInspected path cause

def writeFile {m : Type → Type} [Monad m] (host : Host m) (kinds : Registry) (o : Settings.Output) :
    m (Except WriteFailure Unit) := do
  match ← host.write o.path (blocks kinds) with
  | .ok () =>
    host.log (.written o.path kinds.length)
    return .ok ()
  | .error (.uncreated cause) => return .error (.uncreated cause)
  | .error (.unwritten cause) =>
    if o.removeOnFailure then
      host.log (removalEvent o.path (← host.remove o.path))
    return .error (.unwritten cause)

end TreeKinds.Definitions
