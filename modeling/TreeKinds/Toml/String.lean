import TreeKinds.Text.Lines
import TreeKinds.Toml.Value

/-! What separates the parts of a document, and quoted strings. Basic strings know escapes, literal
ones do not, and either may run over several lines between triple quotes. Line ends inside become
line feeds. -/
namespace TreeKinds.Toml

/-! ### Gaps and comments -/

/-- The characters of a comment: all but controls, with the tab as the one exception. -/
def isCommentChar (c : Char) : Bool := c == '\t' || (' ' ≤ c && c != '\x7f')

def skipLineEnd? : List Char → Option (List Char)
  | '\n' :: s => some s
  | '\r' :: '\n' :: s => some s
  | _ => none

def skipComment : List Char → List Char
  | '#' :: s => s.dropWhile isCommentChar
  | s => s

/-- Skips what may follow a key and its value, through the end of the line. -/
def finishLine? (s : List Char) : Option (List Char) :=
  match skipComment (Text.skipGap s) with
  | [] => some []
  | rest => skipLineEnd? rest

/-- Skips gaps and line ends. -/
def skipSpaces : List Char → List Char
  | '\r' :: '\n' :: s => skipSpaces s
  | c :: s => if Text.isGap c || c == '\n' then skipSpaces s else c :: s
  | [] => []

/-- Skips gaps, line ends and whole comments. A comment that no line end closes is left, and so is
everything once `fuel` comments are skipped. -/
def skipFiller (fuel : Nat) (s : List Char) : List Char :=
  match fuel, skipSpaces s with
  | fuel + 1, '#' :: rest =>
    match skipLineEnd? (skipComment ('#' :: rest)) with
    | some s' => skipFiller fuel s'
    | none => '#' :: rest
  | _, s' => s'

/-! ### Strings -/

def isHexDigit (c : Char) : Bool :=
  c.isDigit || ('a' ≤ c && c ≤ 'f') || ('A' ≤ c && c ≤ 'F')

def hexValue (c : Char) : Nat :=
  if c.isDigit then c.toNat - '0'.toNat
  else if 'a' ≤ c then c.toNat - 'a'.toNat + 10
  else c.toNat - 'A'.toNat + 10

/-- The value of digits in a base. -/
def numeral (base : Nat) (digits : List Char) : Nat :=
  digits.foldl (fun n c => n * base + hexValue c) 0

/-- The character with the code point that the first `count` digits name. -/
def readCodePoint (count : Nat) : Reader Char := fun s =>
  let digits := s.take count
  if digits.length = count && digits.all isHexDigit && Nat.isValidChar (numeral 16 digits) then
    some (Char.ofNat (numeral 16 digits), s.drop count)
  else none

/-- What stands after the backslash of an escape. -/
def readEscape : Reader Char
  | 'b' :: s => some ('\x08', s)
  | 't' :: s => some ('\t', s)
  | 'n' :: s => some ('\n', s)
  | 'f' :: s => some ('\x0c', s)
  | 'r' :: s => some ('\r', s)
  | '"' :: s => some ('"', s)
  | '\\' :: s => some ('\\', s)
  | 'u' :: s => readCodePoint 4 s
  | 'U' :: s => readCodePoint 8 s
  | _ => none

/-- How the characters between a pair of quotes are read. -/
structure Quotation where
  quote : Char
  escapes : Bool
  manyLines : Bool

namespace Quotation

def basic : Quotation := ⟨'"', true, false⟩
def literal : Quotation := ⟨'\'', false, false⟩
def longBasic : Quotation := ⟨'"', true, true⟩
def longLiteral : Quotation := ⟨'\'', false, true⟩

/-- What the text inside a quotation begins with. -/
inductive Part where
  /-- The closing quotes, after the last quotes that belong to the text. -/
  | close (text : List Char) (rest : List Char)
  | text (c : Char) (rest : List Char)
  /-- A backslash at the end of a line, which goes with all blanks after it. -/
  | joined (rest : List Char)
  | bad

/-- Three quotes close a long string, and up to two more before them belong to its text. -/
def Part.ofQuote (q : Quotation) (s : List Char) : Part :=
  if q.manyLines then
    let more := (s.takeWhile (· == q.quote)).length
    if more < 2 then .text q.quote s
    else
      let extra := min (more - 2) 2
      .close (List.replicate extra q.quote) (s.drop (2 + extra))
  else .close [] s

def Part.ofBackslash (q : Quotation) (s : List Char) : Part :=
  match if q.manyLines then skipLineEnd? (Text.skipGap s) else none with
  | some rest => .joined (skipSpaces rest)
  | none =>
    match readEscape s with
    | some (c, rest) => .text c rest
    | none => .bad

def part (q : Quotation) : List Char → Part
  | [] => .bad
  | c :: s =>
    if c = q.quote then .ofQuote q s
    else if c = '\\' && q.escapes then .ofBackslash q s
    else if isCommentChar c then .text c s
    else if q.manyLines then
      match skipLineEnd? (c :: s) with
      | some rest => .text '\n' rest
      | none => .bad
    else .bad

/-- Reads from after the opening quotes through the closing ones, at most `fuel` parts. -/
def readBody (q : Quotation) : Nat → Reader (List Char)
  | 0, _ => none
  | fuel + 1, s =>
    match q.part s with
    | .close text rest => some (text, rest)
    | .text c rest => (readBody q fuel rest).map fun (text, rest) => (c :: text, rest)
    | .joined rest => readBody q fuel rest
    | .bad => none

/-- Reads the quotation; a line end right after triple quotes is not part of it. -/
def read (q : Quotation) (fuel : Nat) : Reader String := fun s =>
  let body := if q.manyLines then (skipLineEnd? s).getD s else s
  (q.readBody fuel body).map fun (text, rest) => (String.ofList text, rest)

end Quotation

/-- A string on one line. -/
def readShortString (fuel : Nat) : Reader String
  | '"' :: s => Quotation.basic.read fuel s
  | '\'' :: s => Quotation.literal.read fuel s
  | _ => none

def readString (fuel : Nat) : Reader String
  | '"' :: '"' :: '"' :: s => Quotation.longBasic.read fuel s
  | '\'' :: '\'' :: '\'' :: s => Quotation.longLiteral.read fuel s
  | s => readShortString fuel s

end TreeKinds.Toml
