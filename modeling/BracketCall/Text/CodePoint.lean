/-!
# Code points

The characters that escapes name by their number.  A number above `0xffff` may be written as a pair
of surrogates.
-/

namespace BracketCall
namespace Text

/-- The greatest code point. -/
def lastCodePoint : Nat := 0x10FFFF

/-- Whether a number is the first half of a surrogate pair. -/
def isHighSurrogate (code : Nat) : Bool :=
  0xD800 ≤ code && code ≤ 0xDBFF

/-- Whether a number is the second half of a surrogate pair. -/
def isLowSurrogate (code : Nat) : Bool :=
  0xDC00 ≤ code && code ≤ 0xDFFF

/-- The character of a code point; a surrogate that stands alone has none and is replaced. -/
def character (code : Nat) : Char :=
  if isHighSurrogate code || isLowSurrogate code then '\ufffd' else Char.ofNat code

/-- The characters of code points, where two surrogates that make a pair write one character. -/
def characters : List Nat → List Char
  | [] => []
  | [code] => [character code]
  | high :: low :: rest =>
      if isHighSurrogate high && isLowSurrogate low then
        Char.ofNat (0x10000 + (high - 0xD800) * 0x400 + (low - 0xDC00)) :: characters rest
      else character high :: characters (low :: rest)

end Text
end BracketCall
