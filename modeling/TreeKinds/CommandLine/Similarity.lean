/-! How alike two words are. Characters are matched when they are equal and not far apart; the
measure is the mean of the matched share of either word and of the matches that are in order. -/
namespace TreeKinds.CommandLine

/-- A number between nought and one as a quotient. -/
structure Share where
  part : Nat
  whole : Nat
  deriving DecidableEq, Repr

namespace Share

def atMost (a b : Share) : Bool := a.part * b.whole ≤ b.part * a.whole

end Share

/-- Matches the character at `i` with the first free and equal one at most `reach` away, among the
characters from index `j` on that are marked as free. -/
def takeMatch (c : Char) (i reach : Nat) :
    (j : Nat) → List (Char × Bool) → Option (List (Char × Bool))
  | _, [] => none
  | j, (d, free) :: rest =>
    if free && d = c && i ≤ j + reach && j ≤ i + reach then some ((d, false) :: rest)
    else (takeMatch c i reach (j + 1) rest).map ((d, free) :: ·)

/-- The characters of the first word, from index `i` on, that find a match in the second, and the
second with its matches marked. -/
def matchAll (reach : Nat) :
    (i : Nat) → List Char → List (Char × Bool) → List Char × List (Char × Bool)
  | _, [], marks => ([], marks)
  | i, c :: s, marks =>
    match takeMatch c i reach 0 marks with
    | none => matchAll reach (i + 1) s marks
    | some marks =>
      let (found, marks) := matchAll reach (i + 1) s marks
      (c :: found, marks)

def similarity (a b : List Char) : Share :=
  let reach := max a.length b.length / 2 - 1
  let (found, marks) := matchAll reach 0 a (b.map fun c => (c, true))
  let partners := (marks.filter fun m => !m.2).map Prod.fst
  let m := found.length
  if m = 0 then ⟨if a = [] ∧ b = [] then 1 else 0, 1⟩
  else
    let outOfOrder := (found.zip partners).countP fun (c, d) => c ≠ d
    ⟨m * m * (a.length + b.length) + (m - outOfOrder / 2) * a.length * b.length,
      3 * m * a.length * b.length⟩

/-- Words are similar from seven tenths on. -/
def similar : Share := ⟨7, 10⟩

/-- The most similar of the candidates, the last one of several. -/
def mostSimilar? (word : String) (candidates : List String) : Option String :=
  let score (c : String) := similarity word.toList c.toList
  let better (best : Option String) (c : String) : Option String :=
    match best with
    | none => some c
    | some b => if (score b).atMost (score c) then some c else some b
  (candidates.filter fun c => similar.atMost (score c)).foldl better none

end TreeKinds.CommandLine
