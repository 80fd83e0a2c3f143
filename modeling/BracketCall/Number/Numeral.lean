import BracketCall.HostError
import BracketCall.Number.Double
import BracketCall.Text.Blank

/-!
# Numerals

**Input.**  A text.  Blanks around it do not count, and a blank text is zero.

**Forms.**  A signed integer; a signed decimal with a point or an exponent (`.5`, `5.`, `1e2`);
`Infinity` with a sign or without; an unsigned integer after `0x`, `0o` or `0b`.  Digits are ASCII.

**Result.**  Integers and radix forms give an exact integer, the others a double.  A decimal integer
with more digits than the limit gives a double instead, which may be infinite.
-/

namespace BracketCall

/-- A number of a program: an exact integer or a double. -/
inductive Number where
  | int (n : Int)
  | float (d : Double)
deriving DecidableEq

namespace Numeral

/-- The number that a row of digits spells in a base. -/
def digitsValue (base : Nat) (digits : List Nat) : Nat :=
  digits.foldl (fun n d => n * base + d) 0

/-- Whether a character is an ASCII digit. -/
def isDigit (c : Char) : Bool :=
  '0' ≤ c && c ≤ '9'

/-- The value of a digit in bases up to sixteen, in either case. -/
def hexValue? (c : Char) : Option Nat :=
  if '0' ≤ c ∧ c ≤ '9' then some (c.toNat - 48)
  else if 'a' ≤ c ∧ c ≤ 'f' then some (c.toNat - 87)
  else if 'A' ≤ c ∧ c ≤ 'F' then some (c.toNat - 55)
  else none

/-- The value of a row of ASCII digits. -/
def decimalValue (digits : List Char) : Nat :=
  digitsValue 10 (digits.map fun c => c.toNat - 48)

/-- An integer with a sign. -/
def signed (negative : Bool) (n : Nat) : Int :=
  if negative then -(n : Int) else (n : Int)

/-- Takes a sign off a text. -/
def takeSign : List Char → Bool × List Char
  | '-' :: cs => (true, cs)
  | '+' :: cs => (false, cs)
  | cs => (false, cs)

/-- `[+-]? digit+` -/
def integer? (cs : List Char) : Option Number :=
  let (negative, digits) := takeSign cs
  if digits ≠ [] ∧ digits.all isDigit then
    let n := decimalValue digits
    if digits.length ≤ digitLimit then some (.int (signed negative n))
    else some (.float (Double.ofDecimal negative n 0))
  else none

/-- `([eE] [+-]? digit+)?`, the power of ten behind a decimal. -/
def exponent? : List Char → Option Int
  | [] => some 0
  | c :: cs =>
      if c = 'e' ∨ c = 'E' then
        let (negative, digits) := takeSign cs
        if digits ≠ [] ∧ digits.all isDigit then some (signed negative (decimalValue digits))
        else none
      else none

/-- `[+-]? (digit+ .? digit* | . digit+) exponent?` -/
def decimal? (cs : List Char) : Option Double :=
  let (negative, body) := takeSign cs
  let whole := body.takeWhile isDigit
  let after := body.dropWhile isDigit
  let (fraction, tail) :=
    match after with
    | '.' :: more => (more.takeWhile isDigit, more.dropWhile isDigit)
    | more => ([], more)
  if whole = [] ∧ fraction = [] then none
  else
    (exponent? tail).map fun power =>
      Double.ofDecimal negative (decimalValue (whole ++ fraction)) (power - fraction.length)

/-- `[+-]? Infinity` -/
def infinity? (cs : List Char) : Option Double :=
  let (negative, body) := takeSign cs
  if body = "Infinity".toList then some (.infinite negative) else none

/-- The base that a letter after the zero stands for. -/
def base? (c : Char) : Option Nat :=
  if c = 'x' ∨ c = 'X' then some 16
  else if c = 'o' ∨ c = 'O' then some 8
  else if c = 'b' ∨ c = 'B' then some 2
  else none

/-- The values of digits of a base. -/
def digits? (base : Nat) : List Char → Option (List Nat)
  | [] => some []
  | c :: cs =>
      match hexValue? c with
      | none => none
      | some d => if d < base then (digits? base cs).map (d :: ·) else none

/-- `0x hex+ | 0o octal+ | 0b binary+`, with the letter in either case -/
def radix? : List Char → Option Nat
  | '0' :: letter :: c :: cs =>
      match base? letter with
      | none => none
      | some base => (digits? base (c :: cs)).map (digitsValue base)
  | _ => none

/-- The number that a text without blanks around it spells. -/
def ofTrimmed? (cs : List Char) : Option Number :=
  if cs = [] then some (.int 0)
  else
    (integer? cs)
      <|> ((decimal? cs).map .float)
      <|> ((infinity? cs).map .float)
      <|> ((radix? cs).map fun n => .int n)

/-- The number that a text spells. -/
def read? (s : String) : Option Number :=
  ofTrimmed? (Text.trimChars s.toList)

end Numeral
end BracketCall
