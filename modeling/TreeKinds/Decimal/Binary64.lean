/-! Numbers of 64-bit binary floating point, as a significand times a power of two, and the one
nearest to a decimal. All arithmetic is on naturals. -/
namespace TreeKinds.Decimal

/-- A power of the base, or one if the exponent is negative. -/
def power (base : Nat) (e : Int) : Nat := base.pow e.toNat

inductive Binary64 where
  | finite (negative : Bool) (significand : Nat) (exponent : Int)
  | infinite (negative : Bool)
  | nan
  deriving DecidableEq, Repr

namespace Binary64

/-- The quotient rounded to the nearest natural, and to the even one halfway between two. -/
def roundDiv (num den : Nat) : Nat :=
  let q := num / den
  let r := 2 * (num % den)
  if r < den then q
  else if den < r then q + 1
  else q + q % 2

/-- The numerator and denominator of `num / den / 2 ^ e`. -/
def shift (num den : Nat) (e : Int) : Nat × Nat :=
  (num * power 2 (-e), den * power 2 e)

/-- The exponent that gives `num / den` a significand of 53 bits, or the least exponent. -/
def exponentFor (num den : Nat) : Int :=
  let e : Int := (num.log2 : Int) - den.log2 - 53
  let (n, d) := shift num den e
  max (-1074) (if n / d < power 2 53 then e else e + 1)

/-- The number nearest to a positive quotient. -/
def ofQuotient (negative : Bool) (num den : Nat) : Binary64 :=
  let e := exponentFor num den
  let (n, d) := shift num den e
  let m := roundDiv n d
  let (m, e) := if m = power 2 53 then (power 2 52, e + 1) else (m, e)
  if e > 971 then .infinite negative else .finite negative m e

/-- The number nearest to `digits * 10 ^ exponent`. Far outside the range of the format the powers
of ten are not computed. -/
def ofDecimal (negative : Bool) (digits : Nat) (exponent : Int) : Binary64 :=
  let length : Int := (Nat.toDigits 10 digits).length
  if digits = 0 || length + exponent < -330 then .finite negative 0 (-1074)
  else if length + exponent > 310 then .infinite negative
  else ofQuotient negative (digits * power 10 exponent) (power 10 (-exponent))

end Binary64
end TreeKinds.Decimal
