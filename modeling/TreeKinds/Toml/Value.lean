import TreeKinds.Decimal.Shortest
import TreeKinds.Text.Quoted

/-! Values of a configuration document, and messages that point into it. Lists, tables and points in
time are kept as kinds only: their contents are checked while they are read, and no setting uses
them. A message shows the line and the column of a mark, the line itself with the marked part
underlined, and the wording below. -/
namespace TreeKinds.Toml

/-! ### Values -/

inductive Value where
  | string (text : String)
  | integer (n : Int)
  | float (x : Decimal.Binary64)
  | boolean (b : Bool)
  | moment
  | list
  | table
  deriving DecidableEq, Repr

/-- What a message calls the value. Points in time go as tables. -/
def Value.describe : Value → String
  | string text => "string " ++ Text.quoted text
  | integer n => "integer `" ++ toString n ++ "`"
  | float x => "floating point `" ++ x.render ++ "`"
  | boolean b => "boolean `" ++ (if b then "true" else "false") ++ "`"
  | moment => "map"
  | list => "sequence"
  | table => "map"

/-- A stretch of the document: its text from `start` on, less what follows from `stop` on. -/
structure Mark where
  start : List Char
  stop : List Char
  deriving DecidableEq, Repr

structure Key where
  name : String
  mark : Mark
  deriving DecidableEq, Repr

/-- The ways to read a value off the front of a text, with the rest. -/
abbrev Reader (α : Type) := List Char → Option (α × List Char)

/-! ### Messages -/

/-- What stands before the mark. -/
def Mark.before (text : List Char) (mark : Mark) : List Char :=
  text.take (text.length - mark.start.length)

def utf8Length (s : List Char) : Nat := (String.ofList s).utf8ByteSize

/-- Counts lines and columns from nought; a column is a number of characters. -/
structure Position where
  line : Nat
  column : Nat
  deriving DecidableEq, Repr

def Position.after (before : List Char) : Position where
  line := before.count '\n'
  column := (before.reverse.takeWhile (· != '\n')).length

/-- The line in which a text begins that comes after `before`. -/
def wholeLine (before rest : List Char) : List Char :=
  (before.reverse.takeWhile (· != '\n')).reverse ++ rest.takeWhile (· != '\n')

/-- The length of the underline: that of the marked text in bytes, but within the line and at least
one. -/
def underline (line marked : List Char) (column : Nat) : Nat :=
  max 1 (min (utf8Length marked) (utf8Length line - column))

/-- A misfit in `text` at `mark`, as it is shown. -/
def report (text : String) (mark : Mark) (message : String) : String :=
  let before := mark.before text.toList
  let position := Position.after before
  let line := wholeLine before mark.start
  let marked := mark.start.take (mark.start.length - mark.stop.length)
  let number := toString (position.line + 1)
  let gutter := String.ofList (List.replicate (number.length + 1) ' ')
  "TOML parse error at line " ++ number ++ ", column " ++ toString (position.column + 1) ++ "\n" ++
    gutter ++ "|\n" ++
    number ++ " | " ++ String.ofList line ++ "\n" ++
    gutter ++ "|" ++ String.ofList (List.replicate (position.column + 1) ' ') ++
    String.ofList (List.replicate (underline line marked position.column) '^') ++ "\n" ++
    message ++ "\n"

end TreeKinds.Toml
