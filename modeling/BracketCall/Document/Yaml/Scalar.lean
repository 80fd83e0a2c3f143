import BracketCall.Number.Numeral
import BracketCall.Value

/-!
# Plain scalars

What a plain scalar stands for, by the rules of YAML 1.1: nothing, a truth value, a number, or its
own text.  Integers may be written in base ten, in base sixteen after `0x`, two after `0b` and eight
after `0`, or in base sixty with colons; underscores are dropped.  A double needs a point, and its
exponent needs a sign.  Two texts are reserved: `<<` for a merge and `=` for a default value.
-/

namespace BracketCall
namespace Yaml
namespace Scalar

/-- What a plain scalar stands for. -/
inductive Meaning where
  | value (v : Value)
  | merge
  | default
  /-- Digits were announced, and none came. -/
  | noDigits (base : Nat)
  /-- A decimal integer is beyond the limit on digits. -/
  | tooLong (digits : Nat)

/-- A word as it is, with a capital, and in capitals. -/
def spellings (word : String) : List String :=
  [word, String.ofList (word.toList.take 1 |>.map Char.toUpper) ++ String.ofList (word.toList.drop 1),
    word.map Char.toUpper]

def isNull (s : String) : Bool :=
  s == "" || s == "~" || (spellings "null").contains s

/-- The truth value that a word stands for. -/
def truth? (s : String) : Option Bool :=
  if ["yes", "true", "on"].any fun w => (spellings w).contains s then some true
  else if ["no", "false", "off"].any fun w => (spellings w).contains s then some false
  else none

/-- A digit or an underscore. -/
def isLooseDigit (c : Char) : Bool :=
  Numeral.isDigit c || c = '_'

def dropUnderscores (cs : List Char) : List Char :=
  cs.filter (· ≠ '_')

/-- A text cut at a character. -/
def cutAt (mark : Char) : List Char → List (List Char)
  | [] => [[]]
  | c :: cs =>
      if c = mark then [] :: cutAt mark cs
      else
        match cutAt mark cs with
        | part :: parts => (c :: part) :: parts
        | [] => [[c]]

/-- `[0-5]? digit`, a lower place of a number in base sixty. -/
def place? : List Char → Option Nat
  | [a] => if Numeral.isDigit a then some (Numeral.decimalValue [a]) else none
  | [a, b] =>
      if Numeral.isDigit a ∧ Numeral.isDigit b ∧ a ≤ '5' then some (Numeral.decimalValue [a, b])
      else none
  | _ => none

/-- The places of a number in base sixty, of which there are at least two. -/
def places? (cs : List Char) : Option (List Nat) :=
  match cutAt ':' cs with
  | (c :: whole) :: part :: parts =>
      if Numeral.isDigit c ∧ whole.all isLooseDigit then
        ((part :: parts).mapM place?).map fun lower =>
          Numeral.decimalValue (dropUnderscores (c :: whole)) :: lower
      else none
  | _ => none

/-- The sum of a lowest place, which has a fraction, and whole places above it, the lowest first. -/
def sixtiesFrom (unit : Nat) (total : Double) : List Nat → Double
  | [] => total
  | n :: ns =>
      sixtiesFrom (unit * 60) (total.add (Double.ofFraction false (n * unit) 1)) ns

/-- A decimal integer, within the limit on digits. -/
def decimal (negative : Bool) (digits : List Char) : Meaning :=
  if digitLimit < digits.length then .tooLong digits.length
  else .value (.int (Numeral.signed negative (Numeral.decimalValue digits)))

/-- An integer after the mark of its base. -/
def radix (negative : Bool) (base : Nat) (digits : List Char) : Option Meaning :=
  (Numeral.digits? base (dropUnderscores digits)).map fun ds =>
    if ds = [] then .noDigits base
    else .value (.int (Numeral.signed negative (Numeral.digitsValue base ds)))

/-- The integer that a scalar stands for. -/
def integer? (cs : List Char) : Option Meaning :=
  let (negative, body) := Numeral.takeSign cs
  match body with
  | ['0'] => some (.value (.int 0))
  | '0' :: 'b' :: c :: rest => radix negative 2 (c :: rest)
  | '0' :: 'x' :: c :: rest => radix negative 16 (c :: rest)
  | '0' :: rest => radix negative 8 ('0' :: rest)
  | c :: rest =>
      if Numeral.isDigit c then
        if rest.all isLooseDigit then some (decimal negative (dropUnderscores (c :: rest)))
        else
          (places? body).map fun places =>
            let first := dropUnderscores (body.takeWhile (· ≠ ':'))
            if digitLimit < first.length then .tooLong first.length
            else .value (.int (Numeral.signed negative (Numeral.digitsValue 60 places)))
      else none
  | [] => none

/-- `([eE] [+-] digit+)?`, the power of ten behind a double. -/
def exponent? : List Char → Option Int
  | [] => some 0
  | e :: sign :: digits =>
      if (e = 'e' ∨ e = 'E') ∧ (sign = '+' ∨ sign = '-') ∧ digits ≠ []
          ∧ digits.all Numeral.isDigit then
        some (Numeral.signed (sign = '-') (Numeral.decimalValue digits))
      else none
  | _ => none

/-- The double of a whole part, a fraction and what follows it. -/
def pointed? (negative : Bool) (whole tail : List Char) : Option Double :=
  let fraction := dropUnderscores (tail.takeWhile isLooseDigit)
  (exponent? (tail.dropWhile isLooseDigit)).map fun power =>
    Double.ofDecimal negative (Numeral.decimalValue (dropUnderscores whole ++ fraction))
      (power - fraction.length)

/-- A double that is not negative, with a sign. -/
def withSign (negative : Bool) : Double → Double
  | .finite _ mantissa exponent => .finite negative mantissa exponent
  | .infinite _ => .infinite negative
  | .nan => .nan

/-- The double that a scalar stands for. -/
def double? (cs : List Char) : Option Double :=
  let (negative, body) := Numeral.takeSign cs
  if (spellings "inf").any fun w => body = '.' :: w.toList then some (.infinite negative)
  else if ["nan", "NaN", "NAN"].any fun w => cs = '.' :: w.toList then some .nan
  else
    match body with
    | '.' :: c :: rest =>
        if cs = body ∧ Numeral.isDigit c then pointed? negative [] (c :: rest) else none
    | c :: rest =>
        if Numeral.isDigit c then
          let whole := c :: rest.takeWhile isLooseDigit
          match rest.dropWhile isLooseDigit with
          | '.' :: tail => pointed? negative whole tail
          | _ =>
              match cutAt '.' body with
              | [whole, fraction] =>
                  if fraction.all isLooseDigit then
                    (places? whole).map fun places =>
                      let digits := dropUnderscores fraction
                      let lowest := Numeral.decimalValue
                        (Nat.toDigits 10 (places.getLastD 0) ++ digits)
                      let start := Double.ofDecimal false lowest (-(digits.length : Int))
                      withSign negative (sixtiesFrom 60 start places.dropLast.reverse)
                  else none
              | _ => none
        else none
    | [] => none

/-- What a plain scalar stands for. -/
def meaning (s : String) : Meaning :=
  if isNull s then .value .none
  else
    match truth? s with
    | some b => .value (.bool b)
    | none =>
        match double? s.toList with
        | some d => .value (.float d)
        | none =>
            match integer? s.toList with
            | some m => m
            | none =>
                if s = "<<" then .merge
                else if s = "=" then .default
                else .value (.text s)

end Scalar
end Yaml
end BracketCall
