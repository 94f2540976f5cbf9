import TreeKinds.Toml.Number

/-! Keys, values and the pairs that they make. A value may hold others down to a fixed depth; inside
an inline table no key may be given twice. -/
namespace TreeKinds.Toml

/-- The greatest number of lists and tables around a value, and of parts of a dotted key. -/
def depthLimit : Nat := 79

def isBareKeyChar (c : Char) : Bool := c.isAlphanum || c == '-' || c == '_'

def readKeyName (fuel : Nat) (s : List Char) : Option (String × List Char) :=
  match readShortString fuel s with
  | some r => some r
  | none =>
    match s.span isBareKeyChar with
    | ([], _) => none
    | (name, rest) => some (String.ofList name, rest)

def readKey (fuel : Nat) : Reader Key := fun s =>
  (readKeyName fuel s).map fun (name, rest) => (⟨name, ⟨s, rest⟩⟩, rest)

/-- A dotted key: the keys on the way, and the last one. -/
structure Path where
  stem : List Key
  last : Key
  deriving DecidableEq, Repr

/-- Reads at most `parts` keys with points between them, and the gaps around them. -/
def readPath (fuel : Nat) : (parts : Nat) → Reader Path
  | 0, _ => none
  | parts + 1, s =>
    match readKey fuel (Text.skipGap s) with
    | none => none
    | some (key, rest) =>
      match Text.skipGap rest with
      | '.' :: rest =>
        (readPath fuel parts rest).map fun (p, rest) => (⟨key :: p.stem, p.last⟩, rest)
      | rest => some (⟨[], key⟩, rest)

structure Pair where
  path : Path
  value : Value
  mark : Mark
  deriving DecidableEq, Repr

/-- Reads a key, the equals sign, and a value. -/
def readPair (fuel : Nat) (readValue : Reader Value) : Reader Pair := fun s =>
  match readPath fuel depthLimit s with
  | some (path, '=' :: rest) =>
    let start := Text.skipGap rest
    (readValue start).map fun (value, stop) => (⟨path, value, ⟨start, stop⟩⟩, stop)
  | _ => none

/-! ### Tables in the making -/

/-- How a table came to be: written out, or on the way to another one. -/
inductive Origin where
  | written
  | impliedByHeader
  | impliedByKey
  deriving DecidableEq, Repr

/-- A value in place, a table with its entries, or the tables under one repeated header. -/
inductive Node where
  | leaf (value : Value) (mark : Mark)
  | table (origin : Origin) (mark : Option Mark) (entries : List (Key × Node))
  | series (mark : Option Mark) (tables : List Node)

abbrev Entries := List (Key × Node)

namespace Entries

def get? (entries : Entries) (name : String) : Option Node :=
  (entries.find? (·.1.name == name)).map (·.2)

/-- Puts `node` under `key`: in the place of the node with that name, or at the end. -/
def put (entries : Entries) (key : Key) (node : Node) : Entries :=
  match entries with
  | [] => [(key, node)]
  | (k, n) :: rest => if k.name = key.name then (k, node) :: rest else (k, n) :: put rest key node

def erase (entries : Entries) (name : String) : Entries := entries.filter (·.1.name != name)

/-- Changes the table at the end of `stem`, and makes the tables on the way that are missing. In a
repeated table the last one is meant. Dotted keys do not reach into tables that are written out. -/
def change (byKey : Bool) (f : Origin → Entries → Option Entries) :
    List Key → Origin → Entries → Option Entries
  | [], origin, entries => f origin entries
  | key :: stem, _, entries =>
    match entries.get? key.name with
    | none =>
      let origin := if byKey then .impliedByKey else .impliedByHeader
      (change byKey f stem origin []).map fun sub => entries.put key (.table origin none sub)
    | some (.leaf _ _) => none
    | some (.table origin mark sub) =>
      if byKey && origin = .written then none
      else (change byKey f stem origin sub).map fun sub => entries.put key (.table origin mark sub)
    | some (.series mark tables) =>
      match tables.getLast? with
      | some (.table origin m sub) =>
        (change byKey f stem origin sub).map fun sub =>
          entries.put key (.series mark (tables.dropLast ++ [.table origin m sub]))
      | _ => none

/-- Adds a pair. Its key must be new, and all tables on the way must come of dotted keys. -/
def addPair (entries : Entries) (p : Pair) : Option Entries :=
  entries.change true
    (fun origin sub =>
      if p.path.stem ≠ [] && origin ≠ .impliedByKey then none
      else if (sub.get? p.path.last.name).isSome then none
      else some (sub.put p.path.last (.leaf p.value p.mark)))
    p.path.stem .written

def addPairs (entries : Entries) (pairs : List Pair) : Option Entries :=
  pairs.foldlM addPair entries

end Entries

/-! ### Values -/

/-- Reads the items of a list from after its opening bracket or a comma, a bounded number of them.
-/
def readItems (fuel : Nat) (readValue : Reader Value) : Nat → List Char → Option (List Char)
  | 0, _ => none
  | n + 1, s =>
    match skipFiller fuel s with
    | ']' :: rest => some rest
    | s =>
      match readValue s with
      | none => none
      | some (_, rest) =>
        match skipFiller fuel rest with
        | ',' :: rest => readItems fuel readValue n rest
        | ']' :: rest => some rest
        | _ => none

/-- Reads the pairs of an inline table from its first key on. -/
def readPairs (fuel : Nat) (readValue : Reader Value) : Nat → Reader (List Pair)
  | 0, _ => none
  | n + 1, s =>
    match readPair fuel readValue s with
    | none => none
    | some (pair, rest) =>
      match Text.skipGap rest with
      | ',' :: rest =>
        (readPairs fuel readValue n rest).map fun (pairs, rest) => (pair :: pairs, rest)
      | '}' :: rest => some ([pair], rest)
      | _ => none

def readInlineTable (fuel : Nat) (readValue : Reader Value) : Reader Value := fun s =>
  match Text.skipGap s with
  | '}' :: rest => some (.table, rest)
  | s => do
    let (pairs, rest) ← readPairs fuel readValue fuel s
    let _ ← Entries.addPairs [] pairs
    return (.table, rest)

/-- Drops a word from the front of a text. -/
def skipWord? (word s : List Char) : Option (List Char) :=
  if word.isPrefixOf s then some (s.drop word.length) else none

def readTruth (s : List Char) : Option (Value × List Char) :=
  match skipWord? ['t', 'r', 'u', 'e'] s with
  | some rest => some (.boolean true, rest)
  | none => (skipWord? ['f', 'a', 'l', 's', 'e'] s).map fun rest => (.boolean false, rest)

/-- Reads a value with at most `depth` lists and tables around its innermost parts. -/
def readValue (fuel : Nat) : (depth : Nat) → Reader Value
  | _, '"' :: s => (readString fuel ('"' :: s)).map fun (t, rest) => (.string t, rest)
  | _, '\'' :: s => (readString fuel ('\'' :: s)).map fun (t, rest) => (.string t, rest)
  | depth + 1, '[' :: s =>
    (readItems fuel (readValue fuel depth) fuel s).map fun rest => (.list, rest)
  | depth + 1, '{' :: s => readInlineTable fuel (readValue fuel depth) s
  | _, s => readTruth s <|> readNumber s

end TreeKinds.Toml
