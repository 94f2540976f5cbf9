/-! Paths as texts. Slashes separate names; how many stand together and whether one ends the path
makes no difference to which names there are. A path is resolved for a purpose, which decides how
its end is taken. -/
namespace TreeKinds.Files

/-- Cuts at every slash. -/
def cutAtSlash : List Char → List (List Char)
  | [] => [[]]
  | c :: s =>
    if c = '/' then [] :: cutAtSlash s
    else
      match cutAtSlash s with
      | [] => [[c]]
      | name :: names => (c :: name) :: names

/-- A path taken apart. The names are never empty, and those with a special meaning are kept. -/
structure Route where
  absolute : Bool
  names : List String
  /-- A slash at the end asks for a directory. -/
  asDirectory : Bool
  deriving DecidableEq, Repr

def Route.ofPath (path : String) : Route where
  absolute := path.toList.head? = some '/'
  names := ((cutAtSlash path.toList).filter (· ≠ [])).map String.ofList
  asDirectory := path.toList.getLast? = some '/'

/-- What a path is resolved for. -/
inductive Purpose where
  /-- To reach what is there. -/
  | reach
  /-- To create a file, or to reach the one that is there. -/
  | create
  /-- To see what is there, be it a link. -/
  | inspect
  deriving DecidableEq, Repr

/-- The names to walk. A slash at the end stands for the directory itself, and where a file is to be
created it turns the last name into a directory's, whatever is there. -/
def Route.steps (r : Route) : Purpose → List String
  | .create => if r.asDirectory then r.names.dropLast ++ ["."] else r.names
  | _ => if r.asDirectory then r.names ++ ["."] else r.names

/-- What two texts must share to be the same path. A point for the directory itself counts only
where the path begins with it. -/
structure Shape where
  absolute : Bool
  fromHere : Bool
  names : List String
  deriving DecidableEq, Repr

def Shape.ofPath (path : String) : Shape :=
  let route := Route.ofPath path
  { absolute := route.absolute
    fromHere := !route.absolute && route.names.head? = some "."
    names := route.names.filter (· ≠ ".") }

end TreeKinds.Files
