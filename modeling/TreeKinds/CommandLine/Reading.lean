import TreeKinds.CommandLine.Refusal
import TreeKinds.CommandLine.Similarity

/-! Reading a command line word by word. An argument that takes a value waits until the next
argument is met or the words end; then it is settled, and a fault of it shows. -/
namespace TreeKinds.CommandLine

/-- A command line that asks for definitions. -/
structure Options where
  description : String
  output : Option String
  config : Option String
  keepPartial : Bool
  deriving DecidableEq, Repr

/-- Why reading stops before the words end. -/
inductive Stop where
  | refused (r : Refusal)
  | help
  | version
  deriving DecidableEq, Repr

/-- An argument that is not settled, with its value if it has been met. -/
structure Waiting where
  argument : Argument
  value : Option String
  deriving DecidableEq, Repr

structure State where
  /-- The settled arguments in the order of their settlement; flags have the empty value. -/
  given : List (Argument × String)
  waiting : Option Waiting
  /-- After the divider all words are plain. -/
  plainOnly : Bool
  deriving DecidableEq, Repr

namespace State

def start : State := ⟨[], none, false⟩

def has (s : State) (a : Argument) : Bool := s.given.any fun (b, _) => a = b

def value? (s : State) (a : Argument) : Option String := s.given.lookup a

/-- The settled arguments apart from the description, which is part of every usage anyway. -/
def options (s : State) : List Argument := (s.given.map Prod.fst).filter (· ≠ .description)

/-- The options for a usage that is to show `a` too. -/
def optionsWith (s : State) (a : Argument) : List Argument :=
  if s.has a then s.options else s.options ++ [a]

/-- Settles an argument with its value, which must be the first one and not empty. -/
def take (s : State) (a : Argument) (value : Option String) : State × Option Refusal :=
  match value with
  | none => (s, some (.valueRequired a))
  | some v =>
    if s.has a then (s, some (.repeated a))
    else
      ({ s with given := s.given ++ [(a, v)] },
        if a.takesValue && v.isEmpty then some (.valueRequired a) else none)

/-- Settles the argument that waits, if there is one. -/
def settle (s : State) : State × Option Refusal :=
  match s.waiting with
  | none => (s, none)
  | some w => { s with waiting := none }.take w.argument w.value

def checked (r : State × Option Refusal) : Except Stop State :=
  match r with
  | (s, none) => .ok s
  | (_, some refusal) => .error (.refused refusal)

def settled (s : State) : Except Stop State := checked s.settle

/-- A flag is settled at once; help and version stop the reading. -/
def raise (s : State) (a : Argument) : Except Stop State := do
  let s ← s.settled
  match a with
  | .help => .error .help
  | .version => .error .version
  | _ => checked (s.take a (some ""))

/-- An option with its value attached is settled at once, others wait for the next word. -/
def await (s : State) (a : Argument) (attached : Option String) : Except Stop State := do
  let s ← s.settled
  match attached with
  | some v => checked (s.take a (some v))
  | none => .ok { s with waiting := some ⟨a, none⟩ }

def readLong (s : State) (name : String) (value : Option String) : Except Stop State :=
  match Argument.ofLong? name with
  | some a =>
    if a.takesValue then s.await a value
    else
      match value with
      | none => s.raise a
      | some v => .error (.refused (.unneededValue v a (s.optionsWith a)))
  | none =>
    let s := s.settle.1
    let word := "--" ++ name
    match (mostSimilar? name (Argument.named.map Argument.long)).bind Argument.ofLong? with
    | some a => .error (.refused (.unexpected word (some (.similar a)) (s.optionsWith a)))
    | none => .error (.refused (.unexpected word (some .asValue) s.options))

/-- Reads letters behind one hyphen. What follows the letter of an option is its value. -/
def readShort (s : State) : List Char → Except Stop State
  | [] => .ok s
  | c :: rest =>
    match Argument.ofShort? c with
    | none => .error (.refused (.unexpected (String.ofList ['-', c]) (some .asValue) []))
    | some a =>
      if a.takesValue then
        match rest with
        | [] => s.await a none
        | '=' :: v => s.await a (some (String.ofList v))
        | v => s.await a (some (String.ofList v))
      else do (← s.raise a).readShort rest

/-- A plain word is the value that an option waits for, or else the description. -/
def readPlain (s : State) (text : String) : Except Stop State :=
  match s.waiting, s.plainOnly with
  | some ⟨a, none⟩, false => .ok { s with waiting := some ⟨a, some text⟩ }
  | _, _ =>
    let (s, refusal) := s.settle
    if s.has .description then .error (.refused (.unexpected text none []))
    else
      match refusal with
      | some r => .error (.refused r)
      | none => .ok { s with waiting := some ⟨.description, some text⟩ }

def read (s : State) (text : String) : Except Stop State :=
  if s.plainOnly then s.readPlain text
  else
    match Word.ofText text with
    | .divider => .ok { s with plainOnly := true }
    | .long name value => s.readLong name value
    | .short letters => s.readShort letters
    | .plain text => s.readPlain text

/-- What is asked for once all words are read. -/
def finish (s : State) : Except Stop Options := do
  let s ← s.settled
  match s.value? .description with
  | none => .error (.refused (.missingDescription s.options))
  | some description =>
    .ok { description
          output := s.value? .output
          config := s.value? .config
          keepPartial := s.has .keepPartial }

end State

def read (words : List String) : Except Stop Options := do
  (← words.foldlM State.read .start).finish

end TreeKinds.CommandLine
