import TreeKinds.Log.Event
import TreeKinds.Text.Lines

/-! Which events are logged. A filter is a list of directives, each with a threshold for a part of
the program or for an activity; the most specific directive decides. The host of the program takes
events besides serving files: where it keeps a log, an event adds its line as soon as it happens. -/
namespace TreeKinds.Log

structure Directive where
  /-- Which targets it is about: those that begin with this text. -/
  target : Option String
  /-- The activity it is about, if it is not about all of them. -/
  span : Option String
  threshold : Nat
  deriving DecidableEq, Repr

abbrev Filter := List Directive

/-! ### Reading -/

/-- The number in decimal digits, perhaps with a plus in front. -/
def decimal? (s : List Char) : Option Nat :=
  let digits := if s.head? = some '+' then s.tail else s
  if digits ≠ [] ∧ digits.all Char.isDigit then
    some (digits.foldl (fun n c => n * 10 + (c.toNat - '0'.toNat)) 0)
  else none

def thresholds : List (String × Nat) :=
  [("off", 0), ("error", 1), ("warn", 2), ("info", 3), ("debug", 4), ("trace", 5)]

/-- A threshold is a level's name in any case, or its number; `off` and nought let nothing pass. -/
def threshold? (s : List Char) : Option Nat :=
  match decimal? s with
  | some n => if n ≤ 5 then some n else none
  | none => thresholds.lookup (String.ofList (s.map Char.toLower))

/-- Everything passes where no threshold is given. -/
def thresholdOrAll? (s : List Char) : Option Nat := if s = [] then some 5 else threshold? s

namespace Directive

/-- A threshold for all targets, or a target whose events all pass. -/
def ofWord (s : List Char) : Directive :=
  match threshold? s with
  | some n => ⟨none, none, n⟩
  | none => ⟨some (String.ofList s), none, 5⟩

/-- Reads on from after the bracket that opens the name of an activity. -/
def readSpan (target : Option String) (s : List Char) : Option Directive :=
  let name := s.takeWhile (· ≠ ']')
  if name.contains '\x7b' then none
  else
    match s.dropWhile (· ≠ ']') with
    | ']' :: [] => some ⟨target, some (String.ofList name), 5⟩
    | ']' :: '=' :: rest =>
      (thresholdOrAll? rest).map fun n => ⟨target, some (String.ofList name), n⟩
    | _ => none

def isStart (c : Char) : Bool := c.isAlphanum || c == '-' || c == ':' || c == '_' || c == '['

/-- Reads one item of a filter: `threshold`, `target`, `target=threshold`, or one of these with the
name of an activity in brackets. Blanks do not hide a bad beginning, but they are not skipped. -/
def read (item : List Char) : Option Directive :=
  let core := item.dropWhile Text.isBlank
  match core.head? with
  | none => none
  | some c =>
    if !isStart c then none
    else
      let target := core.takeWhile fun c => c ≠ '=' && c ≠ '['
      match core.dropWhile fun c => c ≠ '=' && c ≠ '[' with
      | '=' :: _ =>
        (thresholdOrAll? (item.drop (target.length + 1))).map fun n =>
          ⟨some (String.ofList (item.take target.length)), none, n⟩
      | '[' :: rest => readSpan (if target = [] then none else some (String.ofList target)) rest
      | _ => some (ofWord item)

end Directive

/-- Cuts at every comma. -/
def items : List Char → List (List Char)
  | [] => [[]]
  | c :: s =>
    if c = ',' then [] :: items s
    else
      match items s with
      | [] => [[c]]
      | item :: rest => (c :: item) :: rest

namespace Filter

/-- Warnings and errors. -/
def default : Filter := [⟨none, none, 2⟩]

/-- A filter without any item lets errors through. -/
def read (s : List Char) : Option Filter :=
  match (items s).filter (· ≠ []) with
  | [] => some [⟨none, none, 1⟩]
  | given => given.mapM Directive.read

/-- The filter that a setting asks for; without one, or if it cannot be read, the default. -/
def ofSetting (setting : Option String) : Filter :=
  (setting.bind fun s => read s.toList).getD default

end Filter

/-! ### Deciding -/

def Directive.concerns (d : Directive) (target : String) : Bool :=
  match d.target with
  | none => true
  | some t => t.toList.isPrefixOf target.toList

/-- Zero without a target, and more the longer the target is. -/
def Directive.specificity (d : Directive) : Nat :=
  match d.target with
  | none => 0
  | some t => t.utf8ByteSize + 1

/-- The later of two equally specific directives replaces the earlier one. -/
def Directive.prefer (best : Option Directive) (d : Directive) : Option Directive :=
  match best with
  | none => some d
  | some b => if b.specificity ≤ d.specificity then some d else some b

namespace Filter

/-- The threshold for a target, whatever the activity. -/
def threshold (f : Filter) (target : String) : Nat :=
  let best := (f.filter fun d => d.span.isNone && d.concerns target).foldl Directive.prefer none
  (best.map Directive.threshold).getD 0

/-- The directives about the activity of an event. A filter that nowhere reaches the level of
activities does not see them. -/
def aboutSpan (f : Filter) (e : Event) : List Directive :=
  match e.span? with
  | none => []
  | some s =>
    if f.any fun d => Level.info.rank ≤ d.threshold then
      f.filter fun d => d.span = some s.name && d.concerns e.target
    else []

def passes (f : Filter) (e : Event) : Bool :=
  e.level.rank ≤ f.threshold e.target || (f.aboutSpan e).any fun d => e.level.rank ≤ d.threshold

def showsSpan (f : Filter) (e : Event) : Bool :=
  Level.info.rank ≤ f.threshold e.target || !(f.aboutSpan e).isEmpty

/-- What an event adds to the log: its line, if it passes. -/
def entry (f : Filter) (e : Event) : String := if f.passes e then e.line (f.showsSpan e) else ""

end Filter
end TreeKinds.Log

/-! ### The host -/

namespace TreeKinds

open Files (ReadFailure WriteFailure Removal)

/-- What the program asks of the system that it runs on: files by path, and a log. -/
structure Host (m : Type → Type) where
  read : String → m (Except ReadFailure Bytes)
  /-- Creates the file or empties it, and then writes one block after the other. -/
  write : String → List Bytes → m (Except WriteFailure Unit)
  remove : String → m Removal
  log : Log.Event → m Unit

/-- The same files, with a log that is kept. -/
def Host.logged {m : Type → Type} [Monad m] (host : Host m) (filter : Log.Filter) :
    Host (StateT String m) where
  read path := StateT.lift (host.read path)
  write path blocks := StateT.lift (host.write path blocks)
  remove path := StateT.lift (host.remove path)
  log e := modify (· ++ filter.entry e)

end TreeKinds
