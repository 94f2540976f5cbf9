import TreeKinds.Kind
import TreeKinds.Literal
import TreeKinds.Text.Lines
import TreeKinds.Text.Quoted

/-! One line of a description. It is empty, a comment, or a name and a quoted friendly name with an
optional comment after them; the parts are separated by gaps. Any other line is at fault, and a
message says why. -/
namespace TreeKinds.Description

/-! ### Faults -/

inductive Fault where
  | invalidName (found : String)
  | missingFriendlyName (name : String)
  | expectedString (found : String)
  | unterminatedString
  | invalidEscape (c : Char)
  | trailingInput (found : String)
  | invalidUtf8
  | duplicateName (name : String) (firstLine : Nat)
  deriving DecidableEq, Repr

def Fault.message : Fault → String
  | invalidName found =>
    "invalid type name " ++ Text.quoted found ++ " (expected letters, digits and underscores)"
  | missingFriendlyName name => "missing friendly name for type '" ++ name ++ "'"
  | expectedString found => "expected a quoted friendly name, found " ++ Text.quoted found
  | unterminatedString => "unterminated string"
  | invalidEscape c => "invalid escape sequence '\\" ++ c.toString ++ "'"
  | trailingInput found => "unexpected input after friendly name: " ++ Text.quoted found
  | invalidUtf8 => "invalid UTF-8"
  | duplicateName name firstLine =>
    "duplicate type name '" ++ name ++ "' (first declared on line " ++ toString firstLine ++ ")"

/-- A refused description: the first line at fault, counted from one. -/
structure Rejection where
  line : Nat
  fault : Fault
  deriving DecidableEq, Repr

def Rejection.message (label : String) (r : Rejection) : String :=
  label ++ ":" ++ toString r.line ++ ": " ++ r.fault.message

/-! ### Declarations -/

structure Declaration where
  name : String
  friendlyName : String
  deriving DecidableEq, Repr

/-- Nothing but a gap and a comment is left. -/
def isVoid (s : List Char) : Bool :=
  match Text.skipGap s with
  | [] => true
  | c :: _ => c == '#'

/-- What a message quotes of `s`: its first word, or all of it when it begins with a blank. -/
def offending (s : List Char) : String :=
  String.ofList (if (Text.word s).isEmpty then s else Text.word s)

def Fault.ofLiteral : Literal.Fault → Fault
  | .unterminated => .unterminatedString
  | .badEscape c => .invalidEscape c

namespace Declaration

/-- Reads the friendly name of `name` and the rest of the line, from the first quote on. -/
def readFriendlyName (name : List Char) (s : List Char) : Except Fault Declaration :=
  match Literal.read s with
  | .error e => .error (.ofLiteral e)
  | .ok (friendlyName, rest) =>
    if isVoid rest then .ok ⟨String.ofList name, String.ofList friendlyName⟩
    else .error (.trailingInput (String.ofList (Text.skipGap rest)))

/-- Reads what stands after the name. -/
def readAfterName (name : List Char) (s : List Char) : Except Fault Declaration :=
  match s with
  | [] => .error (.missingFriendlyName (String.ofList name))
  | c :: _ =>
    if c = '#' then .error (.missingFriendlyName (String.ofList name))
    else if c = '"' then readFriendlyName name s
    else .error (.expectedString (offending s))

/-- The declaration on a line, if the line has one. -/
def read (line : List Char) : Except Fault (Option Declaration) :=
  if isVoid line then .ok none
  else
    let s := Text.skipGap line
    let name := Text.word s
    if isName name then
      (readAfterName name (Text.skipGap (Text.afterWord s))).map some
    else .error (.invalidName (offending s))

end Declaration
end TreeKinds.Description
