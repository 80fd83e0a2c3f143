/-!
# Double-precision numbers

A double is not-a-number, an infinity, or a signed `mantissa * 2 ^ exponent` with a mantissa below
`2 ^ 53` and an exponent from `-1074` to `971`.  Finite doubles are kept in lowest position: the
mantissa is at least `2 ^ 52`, or the exponent is `-1074`.  So two doubles are the same number with
the same sign exactly when they are equal, and not-a-number equals itself.

**Algorithm.**  Every operation computes an exact fraction first and rounds it once, to the nearest
double and at a tie to the one with an even mantissa.
-/

namespace BracketCall

inductive Double where
  | nan
  | infinite (negative : Bool)
  | finite (negative : Bool) (mantissa : Nat) (exponent : Int)
deriving DecidableEq

namespace Double

/-- Zero, with a sign. -/
def zero (negative : Bool) : Double :=
  .finite negative 0 (-1074)

/-- A quotient rounded to the nearest whole number, and at a tie to the even one. -/
def roundQuotient (num den : Nat) : Nat :=
  let whole := num / den
  let twice := 2 * (num % den)
  if twice < den then whole
  else if den < twice then whole + 1
  else if whole % 2 = 0 then whole else whole + 1

/-- The fraction `num / den` times `2 ^ power`, as numerator and denominator. -/
def scaled (num den : Nat) (power : Int) : Nat × Nat :=
  if 0 ≤ power then (num * Nat.pow 2 power.toNat, den) else (num, den * Nat.pow 2 (-power).toNat)

/-- The greatest power of two that is no more than a positive fraction. -/
def magnitude (num den : Nat) : Int :=
  let guess : Int := (num.log2 : Int) - (den.log2 : Int)
  let (n, d) := scaled num den (-guess)
  if d ≤ n then guess else guess - 1

/-- The double nearest to the fraction `num / den`. -/
def ofFraction (negative : Bool) (num den : Nat) : Double :=
  if num = 0 then zero negative
  else
    let exponent := max (-1074) (magnitude num den - 52)
    let (n, d) := scaled num den (-exponent)
    let mantissa := roundQuotient n d
    let (mantissa, exponent) :=
      if mantissa = Nat.pow 2 53 then (Nat.pow 2 52, exponent + 1) else (mantissa, exponent)
    if 971 < exponent then .infinite negative else .finite negative mantissa exponent

/-- The double nearest to `mantissa * 2 ^ exponent`. -/
def ofBinary (negative : Bool) (mantissa : Nat) (exponent : Int) : Double :=
  let (n, d) := scaled mantissa 1 exponent
  ofFraction negative n d

/-- The double nearest to `digits * 10 ^ exponent`.  The first two cases are clear from the
exponent alone and keep the powers of ten small. -/
def ofDecimal (negative : Bool) (digits : Nat) (exponent : Int) : Double :=
  if digits = 0 then zero negative
  else if 310 < exponent then .infinite negative
  else if exponent + (((digits.log2 + 1) * 302 / 1000 + 1 : Nat) : Int) < -330 then zero negative
  else if 0 ≤ exponent then ofFraction negative (digits * Nat.pow 10 exponent.toNat) 1
  else ofFraction negative digits (Nat.pow 10 (-exponent).toNat)

/-- The double nearest to an integer; there is none for an integer that rounds to `2 ^ 1024`. -/
def ofInt? (n : Int) : Option Double :=
  match ofFraction (n < 0) n.natAbs 1 with
  | .infinite _ => none
  | d => some d

/-- The signed mantissa of a finite double, for an exponent that is no greater than its own. -/
def alignedMantissa (negative : Bool) (mantissa : Nat) (exponent common : Int) : Int :=
  let m : Int := (mantissa * Nat.pow 2 (exponent - common).toNat : Nat)
  if negative then -m else m

/-- The rounded sum.  A sum of zero is positive unless both terms are negative. -/
def add : Double → Double → Double
  | nan, _ => nan
  | _, nan => nan
  | infinite s, infinite t => if s = t then infinite s else nan
  | infinite s, finite _ _ _ => infinite s
  | finite _ _ _, infinite t => infinite t
  | finite s m e, finite t n f =>
      let common := min e f
      let sum := alignedMantissa s m e common + alignedMantissa t n f common
      if sum = 0 then zero (s && t) else ofBinary (sum < 0) sum.natAbs common

/-- Whether a double is a zero of either sign. -/
def isZero : Double → Bool
  | finite _ 0 _ => true
  | _ => false

/-- The integer that a double is, if it is one. -/
def toInt? : Double → Option Int
  | finite s m e =>
      let (n, d) := scaled m 1 e
      if n % d = 0 then some (if s then -((n / d : Nat) : Int) else ((n / d : Nat) : Int)) else none
  | _ => none

/-- Whether two doubles are equal as numbers: zeros are equal, not-a-number is equal to nothing. -/
def sameNumber : Double → Double → Bool
  | nan, _ => false
  | _, nan => false
  | a, b => a == b || (a.isZero && b.isZero)

end Double
end BracketCall
