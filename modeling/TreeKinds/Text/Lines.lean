/-! A text as its numbered lines, and what separates the parts of a line. A line ends at a line
feed, and the carriage returns right before the end belong to the ending: at most two before a line
feed, at most one at the end of the text. Gaps are made of spaces and tabs; a word ends at any
character with the White_Space property. -/
namespace TreeKinds.Text

/-! ### Parts of a line -/

def isGap (c : Char) : Bool := c == ' ' || c == '\t'

/-- The White_Space property. -/
def isBlank (c : Char) : Bool :=
  ('\t' ≤ c && c ≤ '\r') || c == ' ' || c == '\u0085' || c == '\u00a0' || c == '\u1680' ||
  ('\u2000' ≤ c && c ≤ '\u200a') || c == '\u2028' || c == '\u2029' || c == '\u202f' ||
  c == '\u205f' || c == '\u3000'

def skipGap (s : List Char) : List Char := s.dropWhile isGap

/-- The longest beginning without a blank character. -/
def word (s : List Char) : List Char := s.takeWhile (!isBlank ·)

def afterWord (s : List Char) : List Char := s.dropWhile (!isBlank ·)

@[simp] theorem word_append_afterWord (s : List Char) : word s ++ afterWord s = s :=
  List.takeWhile_append_dropWhile

theorem isBlank_of_isGap {c : Char} (h : isGap c = true) : isBlank c = true := by
  simp only [isGap, Bool.or_eq_true, beq_iff_eq] at h
  rcases h with rfl | rfl <;> decide

/-! ### Lines -/

def byteOrderMark : Char := '\ufeff'

def dropByteOrderMark : List Char → List Char
  | [] => []
  | c :: s => if c = byteOrderMark then s else c :: s

def dropReturn (l : List Char) : List Char :=
  if l.getLast? = some '\r' then l.dropLast else l

/-- Cuts at every line feed: the pieces that one ends, and what follows the last one. -/
def cut : List Char → List (List Char) × List Char
  | [] => ([], [])
  | c :: s =>
    let (pieces, last) := cut s
    if c = '\n' then ([] :: pieces, last)
    else
      match pieces with
      | [] => ([], c :: last)
      | piece :: pieces => ((c :: piece) :: pieces, last)

/-- The contents of the lines. What follows the last line feed is a line unless it is empty. -/
def lines (s : List Char) : List (List Char) :=
  let (pieces, last) := cut s
  pieces.map (fun l => dropReturn (dropReturn l)) ++ if last = [] then [] else [dropReturn last]

end TreeKinds.Text
