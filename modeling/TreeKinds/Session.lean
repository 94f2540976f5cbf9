import TreeKinds.Definitions.File
import TreeKinds.Description.Load
import TreeKinds.Files.Access
import TreeKinds.Settings.Config

/-! Sessions: a registry and output settings that are loaded, changed and written in any order, on a
tree of files. What fails leaves things as they were, writing to files apart. -/
namespace TreeKinds

structure Session where
  kinds : Registry
  output : Settings.Output
  tree : Files.FileTree

namespace Session

inductive Action where
  | load (path : String)
  | config (path : String)
  | setPath (value : String)
  | setRemoveOnFailure (value : Bool)
  /-- No file may grow beyond the limit while the definitions are written. -/
  | write (limit : Option Nat)
  deriving DecidableEq, Repr

/-- What an action comes to; a reply to writing shows the tree. -/
inductive Reply where
  | loaded (path : String) (result : Except Description.LoadError Registry)
  | configured (path : String) (result : Except Settings.ConfigError Settings.Config)
  | set (output : Settings.Output)
  | written (path : String) (result : Except Files.WriteFailure Unit) (tree : Files.FileTree)

def start (tree : Files.FileTree) : Session := ⟨[], .default, tree⟩

/-- A computation on the tree of a session. -/
def onTree {α : Type} (s : Session) (limit : Option Nat)
    (f : Host (StateM Files.FileTree) → StateM Files.FileTree α) : α × Files.FileTree :=
  (f (Files.FileTree.disk limit)).run s.tree

def act (s : Session) : Action → Reply × Session
  | .load path =>
    let (result, tree) := s.onTree none fun host => Description.loadFile host path
    (.loaded path result, { s with kinds := result.toOption.getD s.kinds, tree })
  | .config path =>
    let (result, tree) := s.onTree none fun host => Settings.Config.loadFile host path
    let output := (result.toOption.map Settings.Config.outputSettings).getD s.output
    (.configured path result, { s with output, tree })
  | .setPath value =>
    let output := { s.output with path := value }
    (.set output, { s with output })
  | .setRemoveOnFailure value =>
    let output := { s.output with removeOnFailure := value }
    (.set output, { s with output })
  | .write limit =>
    let (result, tree) := s.onTree limit fun host => Definitions.writeFile host s.kinds s.output
    (.written s.output.path result tree, { s with tree })

/-- The replies to a series of actions. -/
def replies (s : Session) : List Action → List Reply
  | [] => []
  | action :: actions =>
    let (reply, s) := s.act action
    reply :: s.replies actions

end Session
end TreeKinds
