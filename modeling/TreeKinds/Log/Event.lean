import TreeKinds.Files.Failure

/-! What happens during a run that is worth a line in the log. -/
namespace TreeKinds.Log

inductive Level where
  | error
  | warn
  | info
  | debug
  | trace
  deriving DecidableEq, Repr

namespace Level

/-- The number that a filter must reach to let lines of the level through. -/
def rank : Level → Nat
  | error => 1
  | warn => 2
  | info => 3
  | debug => 4
  | trace => 5

def name : Level → String
  | error => "ERROR"
  | warn => "WARN"
  | info => "INFO"
  | debug => "DEBUG"
  | trace => "TRACE"

end Level

/-- An activity during which events happen, with the path that it is about. -/
structure Span where
  name : String
  path : String
  deriving DecidableEq, Repr

inductive Event where
  | begun (input output : String)
  | loaded (path : String) (count : Nat)
  | written (path : String) (count : Nat)
  | removed (path : String)
  | leftInPlace (path : String)
  | notRemoved (path : String) (cause : Files.Failure)
  | notInspected (path : String) (cause : Files.Failure)
  deriving DecidableEq, Repr

namespace Event

def level : Event → Level
  | begun .. | loaded .. | removed .. => .debug
  | written .. => .info
  | leftInPlace .. | notRemoved .. | notInspected .. => .warn

/-- The part of the program that an event is reported by. -/
def target : Event → String
  | begun .. => "gendef"
  | loaded .. => "gendef_lang::parser"
  | written .. | removed .. | leftInPlace .. | notRemoved .. | notInspected .. =>
    "gendef_lang::generator"

/-- All activities are reported at the level `info`, by the same part of the program. -/
def span? : Event → Option Span
  | begun .. => none
  | loaded path _ => some ⟨"parse_str", path⟩
  | written path _ | removed path | leftInPlace path | notRemoved path _ | notInspected path _ =>
    some ⟨"write_definitions", path⟩

def text : Event → String
  | begun input output => "generating definitions input=" ++ input ++ " output=" ++ output
  | loaded _ count => "loaded language description count=" ++ toString count
  | written _ count => "wrote definitions count=" ++ toString count
  | removed _ => "removed partial output"
  | leftInPlace _ => "output is not a regular file, leaving it in place"
  | notRemoved _ cause => "could not remove partial output: " ++ cause.message
  | notInspected _ cause => "could not inspect partial output: " ++ cause.message

/-- The line of an event, with or without the activity that it belongs to. -/
def line (showSpan : Bool) (e : Event) : String :=
  let activity :=
    match if showSpan then e.span? else none with
    | some s => s.name ++ "\x7bpath=" ++ s.path ++ "\x7d: "
    | none => ""
  e.level.name ++ " " ++ activity ++ e.target ++ ": " ++ e.text ++ "\n"

end Event
end TreeKinds.Log
