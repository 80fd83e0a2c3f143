import BracketCall.Number.Double

/-!
# The text of a double

A finite double is shown by the fewest decimal digits that read back as it, and of those the
nearest to it; at a tie the even last digit wins.  The digits are written positionally, with at
least one digit on each side of the point, if the decimal exponent is from `-4` to `15`, and else
with an exponent that has a sign and at least two digits.
-/

namespace BracketCall
namespace Double

/-- The decimal digits of a number. -/
def digitsOf (n : Nat) : List Char :=
  Nat.toDigits 10 n

/-- The `k` with `10 ^ (k - 1) ≤ num / den < 10 ^ k`, for a positive fraction that is not far below
the smallest double. -/
def decimalPoint (num den : Nat) : Int :=
  if den ≤ num then (digitsOf (num / den)).length
  else
    match (List.range 400).find? fun j => den ≤ num * Nat.pow 10 (j + 1) with
    | some j => -(j : Int)
    | none => -400

/-- The fraction `num / den` divided by `10 ^ power`, as numerator and denominator. -/
def inUnits (num den : Nat) (power : Int) : Nat × Nat :=
  if 0 ≤ power then (num, den * Nat.pow 10 power.toNat) else (num * Nat.pow 10 (-power).toNat, den)

/-- The numbers next to a double on the grid of multiples of `10 ^ power`, the nearer one first. -/
def neighbours (num den : Nat) (power : Int) : List Nat :=
  let (n, d) := inUnits num den power
  let nearest := roundQuotient n d
  if nearest = n / d then [n / d, n / d + 1] else [n / d + 1, n / d]

/-- The fewest digits that read back as a positive finite double, with the power of ten of the last
one.  Seventeen digits are enough for every double. -/
def shortest (mantissa : Nat) (exponent : Int) : Nat × Int :=
  let (num, den) := scaled mantissa 1 exponent
  let point := decimalPoint num den
  let target := finite false mantissa exponent
  let hit := (List.range 17).findSome? fun count =>
    let power := point - (count + 1 : Nat)
    ((neighbours num den power).find? fun digits => ofDecimal false digits power = target).map
      fun digits => (digits, power)
  hit.getD (mantissa, exponent)

/-- A row of digits without the zeros at its end. -/
def dropTrailingZeros (digits : List Char) : List Char :=
  (digits.reverse.dropWhile (· = '0')).reverse

/-- An exponent with its sign and at least two digits. -/
def exponentText (exponent : Int) : List Char :=
  let digits := digitsOf exponent.natAbs
  let digits := if digits.length < 2 then '0' :: digits else digits
  (if exponent < 0 then '-' else '+') :: digits

/-- Digits with a point behind the first `point` of them. -/
def pointed (digits : List Char) (point : Int) : List Char :=
  let exponent := point - 1
  if -4 ≤ exponent ∧ exponent < 16 then
    if point ≤ 0 then '0' :: '.' :: (List.replicate (-point).toNat '0' ++ digits)
    else if digits.length ≤ point.toNat then
      digits ++ List.replicate (point.toNat - digits.length) '0' ++ ['.', '0']
    else digits.take point.toNat ++ '.' :: digits.drop point.toNat
  else
    match digits with
    | [] => []
    | [d] => d :: 'e' :: exponentText exponent
    | d :: ds => d :: '.' :: (ds ++ 'e' :: exponentText exponent)

/-- A double as it is shown. -/
def text : Double → String
  | nan => "nan"
  | infinite negative => if negative then "-inf" else "inf"
  | finite negative mantissa exponent =>
      let body :=
        if mantissa = 0 then ['0', '.', '0']
        else
          let (digits, power) := shortest mantissa exponent
          let written := digitsOf digits
          pointed (dropTrailingZeros written) (written.length + power)
      String.ofList (if negative then '-' :: body else body)

end Double
end BracketCall
