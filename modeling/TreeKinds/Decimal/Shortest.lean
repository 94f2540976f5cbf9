import TreeKinds.Decimal.Binary64

/-! The fewest digits that read back to a binary number, laid out without an exponent. -/
namespace TreeKinds.Decimal

/-- The decimal `digits * 10 ^ exponent`. -/
structure Scaled where
  digits : Nat
  exponent : Int
  deriving DecidableEq, Repr

/-- Compares a decimal with `n * 2 ^ e`. -/
def Scaled.compareBinary (d : Scaled) (n : Nat) (e : Int) : Ordering :=
  compare (d.digits * power 10 d.exponent * power 2 (-e)) (n * power 2 e * power 10 (-d.exponent))

namespace Binary64

/-- The decimal lies among the reals that round to `m * 2 ^ e`. Right above a power of two the next
number below is half as far away as the next one above. -/
def readsBack (m : Nat) (e : Int) (d : Scaled) : Bool :=
  let low := if m = power 2 52 && e > -1074 then 4 * m - 1 else 4 * m - 2
  let ends := m % 2 = 0
  let above := d.compareBinary low (e - 2)
  let below := d.compareBinary (4 * m + 2) (e - 2)
  (above = .gt || (ends && above = .eq)) && (below = .lt || (ends && below = .eq))

/-- The number of digits before the point: the least `k` with `m * 2 ^ e < 10 ^ k`. -/
def magnitude (m : Nat) (e : Int) : Int :=
  let whole := m * power 2 e / power 2 (-e)
  if whole ≠ 0 then (Nat.toDigits 10 whole).length
  else
    let zeros := (List.range 400).find? fun (k : Nat) => power 2 (-e) ≤ m * power 10 (k + 1)
    Int.negOfNat (zeros.getD 0)

/-- The neighbours of `m * 2 ^ e` among the multiples of `10 ^ k`, the nearer one first and the
upper one first halfway between them. -/
def neighbours (m : Nat) (e : Int) (k : Int) : List Scaled :=
  let num := m * power 2 e * power 10 (-k)
  let den := power 2 (-e) * power 10 k
  let below : Scaled := ⟨num / den, k⟩
  let above : Scaled := ⟨num / den + 1, k⟩
  if 2 * (num % den) < den then [below, above] else [above, below]

/-- The nearest of the shortest decimals that read back; seventeen digits always suffice. -/
def shortest (m : Nat) (e : Int) : Scaled :=
  let k := magnitude m e
  let found := (List.range 17).findSome? fun n =>
    (neighbours m e (k - ((n + 1 : Nat) : Int))).find? (readsBack m e)
  found.getD ⟨m * power 2 e * power 5 (-e), min e 0⟩

end Binary64

/-- The digits without trailing zeros, which go into the exponent. -/
def stripZeros (digits : List Char) (exponent : Int) : List Char × Int :=
  let kept := (digits.reverse.dropWhile (· == '0')).reverse
  (kept, exponent + (digits.length - kept.length : Nat))

/-- Positional notation with at least one digit on either side of the point. -/
def positional (digits : List Char) (exponent : Int) : List Char :=
  if exponent ≥ 0 then digits ++ List.replicate exponent.toNat '0' ++ ['.', '0']
  else
    let places := (-exponent).toNat
    let padded := List.replicate (places + 1 - digits.length) '0' ++ digits
    padded.take (padded.length - places) ++ '.' :: padded.drop (padded.length - places)

def Scaled.render (d : Scaled) : List Char :=
  let (digits, exponent) := stripZeros (Nat.toDigits 10 d.digits) d.exponent
  positional digits exponent

def Binary64.render : Binary64 → String
  | .finite negative m e =>
    let text := if m = 0 then ['0', '.', '0'] else (Binary64.shortest m e).render
    String.ofList (if negative then '-' :: text else text)
  | .infinite negative => if negative then "-inf" else "inf"
  | .nan => "NaN"

end TreeKinds.Decimal
