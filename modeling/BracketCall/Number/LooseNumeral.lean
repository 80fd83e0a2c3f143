import BracketCall.Number.Numeral
import BracketCall.Text.DecimalDigit

/-!
# Loose numerals

The values of assignments are read more loosely than the literals of a program: digits may be of
any script, a single underscore may stand between two digits, and infinity and not-a-number are
spelled `inf`, `infinity` and `nan` in any mix of cases.  There are no radix forms, and a blank text
is no number.
-/

namespace BracketCall
namespace LooseNumeral

/-- Drops the underscores between two digits; fails at any other underscore.  `afterDigit` tells of
the character before. -/
def dropUnderscores (afterDigit : Bool) : List Char → Option (List Char)
  | [] => some []
  | '_' :: c :: cs =>
      if afterDigit && Numeral.isDigit c then (dropUnderscores true cs).map (c :: ·) else none
  | c :: cs =>
      if c = '_' then none else (dropUnderscores (Numeral.isDigit c) cs).map (c :: ·)

/-- A text with ASCII digits and without underscores. -/
def normalise? (cs : List Char) : Option (List Char) :=
  dropUnderscores false (cs.map Text.asciiDigit)

/-- Whether a text is a word in any mix of cases. -/
def isWord (word : String) (cs : List Char) : Bool :=
  cs.map Char.toLower = word.toList

/-- `[+-]? (inf | infinity | nan)`, in any mix of cases -/
def special? (cs : List Char) : Option Double :=
  let (negative, body) := Numeral.takeSign cs
  if isWord "inf" body || isWord "infinity" body then some (.infinite negative)
  else if isWord "nan" body then some .nan
  else none

/-- The number that a text without blanks around it spells. -/
def read? (cs : List Char) : Option Number :=
  (normalise? cs).bind fun body =>
    (Numeral.integer? body)
      <|> ((Numeral.decimal? body).map .float)
      <|> ((special? body).map .float)

end LooseNumeral
end BracketCall
