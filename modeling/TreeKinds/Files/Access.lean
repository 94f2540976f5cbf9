import TreeKinds.Definitions.Sink
import TreeKinds.Files.Resolution
import TreeKinds.Log.Filter

/-! Reading, writing and removing files by path. A limit on the size of regular files cuts off what
is written behind it. -/
namespace TreeKinds.Files

namespace FileTree

def read (t : FileTree) (path : String) : Except ReadFailure Bytes :=
  match t.resolve .reach path with
  | .error f => .error (.unopened f)
  | .ok p =>
    if t.form? p = some .directory then .error (.unread .isADirectory)
    else
      match t.special? p, t.node? p with
      | some s, _ => s.read
      | none, some (.file bytes) => .ok bytes
      | none, _ => .error (.unopened .notFound)

/-- What a file with a limited size takes of the blocks. -/
def fill (limit : Option Nat) (blocks : List Bytes) : Definitions.Delivery :=
  (Definitions.Sink.mk limit .refuses).deliver blocks

/-- Whether all of the blocks were taken. -/
def outcome (d : Definitions.Delivery) : Except WriteFailure Unit :=
  if d.failure.isNone then .ok () else .error (.unwritten .fileTooLarge)

/-- Writes to a file of at most `limit` bytes, whose former content is lost. -/
def write (t : FileTree) (limit : Option Nat) (path : String) (blocks : List Bytes) :
    Except WriteFailure Unit × FileTree :=
  match t.resolve .create path with
  | .error f => (.error (.uncreated f), t)
  | .ok p =>
    if t.form? p = some .directory then (.error (.uncreated .isADirectory), t)
    else
      match t.special? p with
      | some s => (s.write blocks, t)
      | none =>
        let d := fill limit blocks
        (outcome d, t.put p (.file d.taken))

/-- Removes the file under a path, if it is a regular one; a link is none. -/
def remove (t : FileTree) (path : String) : Removal × FileTree :=
  match t.resolve .inspect path with
  | .error f => (.notInspected f, t)
  | .ok p =>
    if t.form? p = some .directory then (.notRegular, t)
    else
      match t.special? p, t.node? p with
      | some s, _ => (s.remove, t)
      | none, none => (.notInspected .notFound, t)
      | none, some (.file _) => (.removed, t.erase p)
      | none, some _ => (.notRegular, t)

/-- The tree as the state of a host that keeps no log. -/
def disk (limit : Option Nat) : Host (StateM FileTree) where
  read path := fun t => (t.read path, t)
  write path blocks := fun t => t.write limit path blocks
  remove path := fun t => t.remove path
  log _ := pure ()

end FileTree

/-! ### Usual surroundings -/

namespace Special

/-- Takes everything and gives nothing. -/
def null : Special := ⟨true, .ok [], fun _ => .ok (), .notRegular⟩

/-- Never has room. -/
def full : Special where
  visible := true
  read := .error (.unread .invalidArgument)
  write blocks := if blocks.flatten = [] then .ok () else .error (.unwritten .noSpaceLeft)
  remove := .notRegular

/-- A regular file that takes numbers only and stays where it is. -/
def setting : Special where
  visible := true
  read := .ok (Utf8.encode ['0', '\n'])
  write blocks := if blocks.flatten = [] then .ok () else .error (.unwritten .invalidArgument)
  remove := .notRemoved .notPermitted

/-- A name under which no file can be made. -/
def barred : Special where
  visible := false
  read := .error (.unopened .notFound)
  write _ := .error (.uncreated .notFound)
  remove := .notInspected .notFound

end Special

/-- A tree that is made for a while, in a system with nothing on its standard input. -/
def Surroundings.usual : Surroundings where
  home := ["tmp", "tree"]
  special? l :=
    match l with
    | ["dev", "null"] | ["dev", "stdin"] | ["dev", "stdout"] | ["dev", "stderr"] => some .null
    | ["dev", "full"] => some .full
    | ["proc"] | ["proc", "self"] => none
    | ["proc", "self", "oom_score_adj"] => some .setting
    | "proc" :: _ => some .barred
    | _ => none

namespace FileTree

/-- A tree with nothing in it. -/
def empty : FileTree :=
  let directories : List Location := [["dev"], ["proc"], ["proc", "self"]]
  directories.foldl (fun t l => t.put (.outside l) .directory) ⟨.usual, ∅, ∅⟩

/-- The directories that a location lies in, below the root. -/
def ancestors (l : Location) : List Location :=
  ((List.range l.length).map l.take).filter (· ≠ [])

/-- Adds a node, and the directories on the way to it that are missing. -/
def grow (t : FileTree) (l : Location) (n : Node) : FileTree :=
  let addDirectory (t : FileTree) (a : Location) : FileTree :=
    if (t.node? (.inside a)).isNone then t.put (.inside a) .directory else t
  ((ancestors l).foldl addDirectory t).put (.inside l) n

def ofList (nodes : List (Location × Node)) : FileTree :=
  nodes.foldl (fun t (l, n) => t.grow l n) empty

end FileTree
end TreeKinds.Files
