import Std.Data.ExtTreeMap
import TreeKinds.Files.Failure

/-! A tree of files and what it lies in. Directories, regular files and symbolic links are told by
entries, for the tree itself and for what is outside it; its root and the directories that it lies
in are always there, and special files outside are given with it. -/
namespace TreeKinds.Files

/-- The names from a root down. -/
abbrev Location := List String

/-- A place that a path may lead to: in the tree, told from its root, or outside, told from the root
of all files. -/
inductive Place where
  | inside (l : Location)
  | outside (l : Location)
  deriving DecidableEq, Repr

inductive Node where
  | directory
  | file (bytes : Bytes)
  | link (target : String)
  deriving DecidableEq, Repr

/-- How a path goes on from a place. -/
inductive Form where
  | directory
  | leaf
  | link (target : String)
  deriving DecidableEq, Repr

def Node.form : Node → Form
  | directory => .directory
  | file _ => .leaf
  | link target => .link target

/-- A file that answers in its own way and does not keep what is written to it, such as a device. -/
structure Special where
  /-- A name that is not seen may still stand for a file that cannot be made. -/
  visible : Bool
  read : Except ReadFailure Bytes
  write : List Bytes → Except WriteFailure Unit
  remove : Removal

/-- What a tree lies in. -/
structure Surroundings where
  /-- The names from the root of all files down to the root of the tree. -/
  home : Location
  special? : Location → Option Special

namespace Surroundings

/-- The names from the root of all files down. -/
def absolute (s : Surroundings) : Place → Location
  | .inside l => s.home ++ l
  | .outside l => l

def place (s : Surroundings) (l : Location) : Place :=
  if s.home <+: l then .inside (l.drop s.home.length) else .outside l

end Surroundings

@[ext] structure FileTree where
  surroundings : Surroundings
  /-- What stands in the tree below its root. -/
  entries : Std.ExtTreeMap Location Node compare
  /-- What stands outside. -/
  beyond : Std.ExtTreeMap Location Node compare

namespace FileTree

def node? (t : FileTree) : Place → Option Node
  | .inside l => t.entries[l]?
  | .outside l => t.beyond[l]?

def put (t : FileTree) (p : Place) (n : Node) : FileTree :=
  match p with
  | .inside l => { t with entries := t.entries.insert l n }
  | .outside l => { t with beyond := t.beyond.insert l n }

def erase (t : FileTree) (p : Place) : FileTree :=
  match p with
  | .inside l => { t with entries := t.entries.erase l }
  | .outside l => { t with beyond := t.beyond.erase l }

def toList (t : FileTree) : List (Location × Node) := t.entries.toList

@[simp] theorem node?_put (t : FileTree) (p q : Place) (n : Node) :
    (t.put p n).node? q = if p = q then some n else t.node? q := by
  cases p <;> cases q <;> simp [node?, put, Std.ExtTreeMap.getElem?_insert]

@[simp] theorem node?_erase (t : FileTree) (p q : Place) :
    (t.erase p).node? q = if p = q then none else t.node? q := by
  cases p <;> cases q <;> simp [node?, erase, Std.ExtTreeMap.getElem?_erase]

@[simp] theorem surroundings_put (t : FileTree) (p : Place) (n : Node) :
    (t.put p n).surroundings = t.surroundings := by
  cases p <;> rfl

@[simp] theorem surroundings_erase (t : FileTree) (p : Place) :
    (t.erase p).surroundings = t.surroundings := by
  cases p <;> rfl

/-- Trees that lie in the same and have the same nodes are the same. -/
theorem ext_node? {t u : FileTree} (hs : t.surroundings = u.surroundings)
    (h : ∀ p, t.node? p = u.node? p) : t = u :=
  FileTree.ext hs (Std.ExtTreeMap.ext_getElem? fun {l} => h (.inside l))
    (Std.ExtTreeMap.ext_getElem? fun {l} => h (.outside l))

/-! ### What stands at a place -/

/-- The root of the tree and the directories that it lies in. -/
def isAbove (t : FileTree) : Place → Bool
  | .inside l => l = []
  | .outside l => l <+: t.surroundings.home

def special? (t : FileTree) : Place → Option Special
  | .inside _ => none
  | .outside l => t.surroundings.special? l

def form? (t : FileTree) (p : Place) : Option Form :=
  if t.isAbove p then some .directory
  else
    match t.special? p with
    | some s => if s.visible then some .leaf else none
    | none => (t.node? p).map Node.form

/-- The place under a name in a directory. -/
def enter (t : FileTree) (p : Place) (name : String) : Place :=
  let l := t.surroundings.absolute p
  if name = "." then p
  else if name = ".." then t.surroundings.place l.dropLast
  else t.surroundings.place (l ++ [name])

end FileTree
end TreeKinds.Files
