import TreeKinds.Files.Path
import TreeKinds.Files.Tree

/-! From a path to the place that it names. All names but the last must lead through directories,
and links are followed, in all at most forty. -/
namespace TreeKinds.Files

/-- Where a walk along names halts. -/
inductive Halt where
  | at (p : Place)
  /-- At a link: its place and target, the directory that holds it, and the names after it. -/
  | link (p : Place) (target : String) (directory : Place) (rest : List String)
  deriving DecidableEq, Repr

def nameLimit : Nat := 255

def pathLimit : Nat := 4095

def linkLimit : Nat := 40

namespace FileTree

/-- Walks along names from a directory, up to the first link. -/
def walk (t : FileTree) : Place → List String → Except Failure Halt
  | p, [] => .ok (.at p)
  | p, name :: rest =>
    if t.form? p ≠ some .directory then .error .notADirectory
    else if nameLimit < name.utf8ByteSize then .error .nameTooLong
    else
      let next := t.enter p name
      match t.form? next with
      | none => if rest = [] then .ok (.at next) else .error .notFound
      | some (.link target) => .ok (.link next target p rest)
      | some _ => t.walk next rest

/-- The place to begin at for a path that is met in a directory. -/
def origin (t : FileTree) (directory : Place) (r : Route) : Place :=
  if r.absolute then t.surroundings.place [] else directory

/-- Walks along names and follows links, at most `links` of them. -/
def follow (t : FileTree) (purpose : Purpose) :
    (links : Nat) → Place → List String → Except Failure Place
  | links, p, names =>
    match t.walk p names with
    | .error f => .error f
    | .ok (.at p) => .ok p
    | .ok (.link p target directory rest) =>
      if purpose = .inspect ∧ rest = [] then .ok p
      else
        match links with
        | 0 => .error .tooManyLinks
        | links + 1 =>
          let r := Route.ofPath target
          let names := if rest = [] then r.steps purpose else r.steps .reach ++ rest
          t.follow purpose links (t.origin directory r) names

/-- The place that a path names from the root of the tree. There may be nothing there if its
directory is. -/
def resolve (t : FileTree) (purpose : Purpose) (path : String) : Except Failure Place :=
  if path.toList.contains '\x00' then .error .nulInName
  else if path.isEmpty then .error .notFound
  else if pathLimit < path.utf8ByteSize then .error .nameTooLong
  else
    let r := Route.ofPath path
    t.follow purpose linkLimit (t.origin (.inside []) r) (r.steps purpose)

end FileTree
end TreeKinds.Files
