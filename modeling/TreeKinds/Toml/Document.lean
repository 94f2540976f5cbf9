import TreeKinds.Text.Lines
import TreeKinds.Toml.Nesting

/-! Documents: pairs, and headers that open a table or one more of a list of tables. What a document
says is the list of its top-level keys with their values, in order, each key once. -/
namespace TreeKinds.Toml

/-- One line, or several when a value runs over them. -/
inductive Line where
  | void
  | pair (p : Pair)
  | header (path : Path) (repeated : Bool) (mark : Mark)
  deriving DecidableEq, Repr

/-- A header from its first bracket through its last. -/
def readHeader (fuel : Nat) : Reader Line := fun s =>
  match s with
  | '[' :: '[' :: rest =>
    match readPath fuel depthLimit rest with
    | some (path, ']' :: ']' :: rest) => some (.header path true ⟨s, rest⟩, rest)
    | _ => none
  | '[' :: rest =>
    match readPath fuel depthLimit rest with
    | some (path, ']' :: rest) => some (.header path false ⟨s, rest⟩, rest)
    | _ => none
  | _ => none

def readLine (fuel : Nat) (s : List Char) : Option (Line × List Char) :=
  match Text.skipGap s with
  | [] => some (.void, [])
  | c :: rest =>
    let line :=
      if c = '#' || c = '\n' || c = '\r' then some (.void, c :: rest)
      else if c = '[' then readHeader fuel (c :: rest)
      else
        (readPair fuel (readValue fuel depthLimit) (c :: rest)).map fun (p, rest) => (.pair p, rest)
    line.bind fun (line, rest) => (finishLine? rest).map fun rest => (line, rest)

def readLines (fuel : Nat) : Nat → List Char → Option (List Line)
  | _, [] => some []
  | 0, _ :: _ => none
  | n + 1, s =>
    match readLine fuel s with
    | none => none
    | some (line, rest) => (readLines fuel n rest).map (line :: ·)

/-! ### Tables -/

/-- A header with the pairs below it. -/
structure Section where
  path : Path
  repeated : Bool
  mark : Mark
  pairs : List Pair
  deriving DecidableEq, Repr

/-- The mark of a whole section: from its header through its last value. -/
def Section.extent (s : Section) : Mark :=
  match s.pairs.getLast? with
  | some p => ⟨s.mark.start, p.mark.stop⟩
  | none => s.mark

/-- The pairs above the first header, and the sections. -/
def sections : List Line → List Pair × List Section
  | [] => ([], [])
  | .void :: lines => sections lines
  | .pair p :: lines =>
    let (pairs, rest) := sections lines
    (p :: pairs, rest)
  | .header path repeated mark :: lines =>
    let (pairs, rest) := sections lines
    ([], ⟨path, repeated, mark, pairs⟩ :: rest)

def Mark.join? : Option Mark → Option Mark → Option Mark
  | some a, some b => some ⟨a.start, b.stop⟩
  | _, _ => none

/-- The mark of a list of tables: from the first through the last. -/
def Node.extent? : Node → Option Mark
  | .leaf _ mark => some mark
  | .table _ mark _ => mark
  | .series mark _ => mark

/-- Adds a table to those under the same repeated header. -/
def Node.extend (node? : Option Node) (table : Node) : Option Node :=
  match node? with
  | none => some (.series table.extent? [table])
  | some (.series _ tables) =>
    let first := tables.head?.getD table
    some (.series (Mark.join? first.extent? table.extent?) (tables ++ [table]))
  | some _ => none

/-- The entries that a plain header finds under its name: none yet, or those of a table that headers
below it have implied. -/
def Node.reopened? : Option Node → Option Entries
  | none => some []
  | some (.table .impliedByHeader _ entries) => some entries
  | some _ => none

/-- Adds a section. A plain header puts its table behind everything that is there already. -/
def Entries.addSection (root : Entries) (s : Section) : Option Entries :=
  root.change false
    (fun _ entries =>
      let key := s.path.last
      if s.repeated then do
        let sub ← Entries.addPairs [] s.pairs
        let node ← Node.extend (entries.get? key.name) (.table .written (some s.extent) sub)
        return entries.put key node
      else do
        let sub ← (← Node.reopened? (entries.get? key.name)).addPairs s.pairs
        return (entries.erase key.name).put key (.table .written (some s.extent) sub))
    s.path.stem .written

/-- A top-level key with its value; the mark of a table that has none of its own is its key's. -/
structure Entry where
  key : Key
  value : Value
  mark : Mark
  deriving DecidableEq, Repr

def Entry.ofNode (key : Key) (node : Node) : Entry :=
  match node with
  | .leaf value mark => ⟨key, value, mark⟩
  | .table _ mark _ => ⟨key, .table, mark.getD key.mark⟩
  | .series mark _ => ⟨key, .list, mark.getD key.mark⟩

abbrev Document := List Entry

/-- What a text says as a document, if it is one. -/
def Document.read (text : String) : Option Document := do
  let s := Text.dropByteOrderMark text.toList
  let fuel := s.length + 1
  let (pairs, rest) := sections (← readLines fuel fuel s)
  let root ← rest.foldlM Entries.addSection (← Entries.addPairs [] pairs)
  return root.map fun (key, node) => Entry.ofNode key node

end TreeKinds.Toml
