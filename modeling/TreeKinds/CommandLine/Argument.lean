/-! The arguments that the command line knows: the description, two options that take a value, and
three flags. -/
namespace TreeKinds.CommandLine

inductive Argument where
  | output
  | config
  | keepPartial
  | description
  | help
  | version
  deriving DecidableEq, Repr

namespace Argument

/-- All arguments that have a name to be given by. -/
def named : List Argument := [output, config, keepPartial, help, version]

def long : Argument → String
  | output => "output"
  | config => "config"
  | keepPartial => "keep-partial"
  | help => "help"
  | version => "version"
  | description => ""

def short? : Argument → Option Char
  | output => some 'o'
  | config => some 'c'
  | help => some 'h'
  | version => some 'V'
  | keepPartial => none
  | description => none

/-- What a value of the argument is called, where it takes one. -/
def valueName? : Argument → Option String
  | output => some "OUTPUT"
  | config => some "CONFIG"
  | description => some "LANG_DESC_FILE"
  | keepPartial => none
  | help => none
  | version => none

def takesValue (a : Argument) : Bool := a.valueName?.isSome

/-- The argument as it is written in messages. -/
def shown (a : Argument) : String :=
  let value := (a.valueName?.map fun v => "<" ++ v ++ ">").getD ""
  match a with
  | description => value
  | _ => "--" ++ a.long ++ (if a.takesValue then " " else "") ++ value

def ofLong? (name : String) : Option Argument := named.find? fun a => a.long = name

def ofShort? (c : Char) : Option Argument := named.find? fun a => a.short? = some c

end Argument

/-- One word of the command line by its form. -/
inductive Word where
  /-- Two hyphens and no more: all further words are plain. -/
  | divider
  | long (name : String) (value : Option String)
  /-- One hyphen with letters behind it; the hyphen alone is plain. -/
  | short (letters : List Char)
  | plain (text : String)
  deriving DecidableEq, Repr

/-- The name of a long option, and what stands behind the equals sign if there is one. -/
def Word.ofLong (s : List Char) : Word :=
  let name := String.ofList (s.takeWhile (· ≠ '='))
  match s.dropWhile (· ≠ '=') with
  | [] => long name none
  | _ :: value => long name (some (String.ofList value))

def Word.ofText (text : String) : Word :=
  match text.toList with
  | '-' :: '-' :: [] => divider
  | '-' :: '-' :: s => .ofLong s
  | '-' :: c :: s => short (c :: s)
  | _ => plain text

end TreeKinds.CommandLine
