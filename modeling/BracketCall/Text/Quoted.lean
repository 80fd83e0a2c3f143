import BracketCall.Text.Printable

/-!
# Quoted text

Texts are shown between apostrophes, or between double quotes if they hold an apostrophe and no
double quote.  A backslash, the quote in use, line feed, carriage return and tab get a two-letter
escape; every other character that is not printable is written by its code point in two, four or
eight lower-case hexadecimal digits.  The rest stands for itself, so a quoted text is one line.

Which characters are printable is a table of its own; the rules do not depend on what it holds.
-/

namespace BracketCall
namespace Text

def apostrophe : Char := '\x27'

def doubleQuote : Char := '\x22'

def backslash : Char := '\x5c'

/-- A digit below sixteen, in lower case. -/
def hexDigit (n : Nat) : Char :=
  if n < 10 then Char.ofNat (48 + n) else Char.ofNat (87 + n)

/-- The last `width` hexadecimal digits of a number. -/
def hexPadded : (width n : Nat) → List Char
  | 0, _ => []
  | width + 1, n => hexPadded width (n / 16) ++ [hexDigit (n % 16)]

/-- A code point as a backslash, a letter for its width, and hexadecimal digits. -/
def escapeCode (n : Nat) : List Char :=
  if n < 0x100 then backslash :: 'x' :: hexPadded 2 n
  else if n < 0x10000 then backslash :: 'u' :: hexPadded 4 n
  else backslash :: 'U' :: hexPadded 8 n

/-- One character of a text between `quote`s; `printable` tells which ones stand for themselves. -/
def escapeChar (printable : Char → Bool) (quote c : Char) : List Char :=
  if c = backslash then [backslash, backslash]
  else if c = quote then [backslash, quote]
  else if c = '\n' then [backslash, 'n']
  else if c = '\r' then [backslash, 'r']
  else if c = '\t' then [backslash, 't']
  else if printable c then [c]
  else escapeCode c.toNat

/-- The quote to put around a text. -/
def quoteFor (cs : List Char) : Char :=
  if cs.contains apostrophe && !cs.contains doubleQuote then doubleQuote else apostrophe

/-- A text between quotes, with escapes. -/
def quotedChars (printable : Char → Bool) (cs : List Char) : List Char :=
  quoteFor cs :: (cs.flatMap (escapeChar printable (quoteFor cs)) ++ [quoteFor cs])

/-- A text between quotes, with escapes, for any table of printable characters. -/
def quotedBy (printable : Char → Bool) (s : String) : String :=
  String.ofList (quotedChars printable s.toList)

/-- A text between quotes, with escapes. -/
def quoted (s : String) : String :=
  quotedBy isPrintable s

end Text
end BracketCall
