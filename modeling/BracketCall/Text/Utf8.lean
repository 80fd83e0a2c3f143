import BracketCall.Text.Quoted

/-!
# Reading UTF-8

**Input.**  The bytes of a file.

**Algorithm.**  One byte at a time.  Between characters nothing is owed.  A first byte above `0x7f`
says how many more bytes are owed and in which range the next one lies, which leaves out overlong
forms, surrogates and everything above `0x10ffff`.

**Result.**  The characters, or the first place where the bytes are no UTF-8: the bytes that were
begun and not finished, and why.
-/

namespace BracketCall
namespace Utf8

/-- Why bytes are not UTF-8. -/
inductive Reason where
  | invalidStart
  | invalidContinuation
  | unexpectedEnd
deriving DecidableEq

namespace Reason

def label : Reason → String
  | invalidStart => "invalid start byte"
  | invalidContinuation => "invalid continuation byte"
  | unexpectedEnd => "unexpected end of data"

end Reason

/-- The place of bytes that are not UTF-8: the first of them, its position, and their number. -/
structure Error where
  reason : Reason
  byte : Nat
  start : Nat
  count : Nat
deriving DecidableEq

namespace Error

def message (e : Error) : String :=
  let place :=
    if e.count = 1 then
      "byte 0x" ++ String.ofList (Text.hexPadded 2 e.byte) ++ " in position " ++ toString e.start
    else
      "bytes in position " ++ toString e.start ++ "-" ++ toString (e.start + e.count - 1)
  "'utf-8' codec can't decode " ++ place ++ ": " ++ e.reason.label

/-- Whether bytes are the first two of the three that would write a surrogate. -/
def isCutSurrogate : List UInt8 → Bool
  | [first, second] => first = 0xED && 0xA0 ≤ second && second ≤ 0xBF
  | _ => false

/-- The error of bytes that are read in pieces: a character that the end cuts off is placed from the
start of the last piece, which begins with it.  A surrogate counts as cut off as well. -/
def inPieces (bytes : List UInt8) (e : Error) : Error :=
  if e.reason = .unexpectedEnd || isCutSurrogate (bytes.drop e.start) then { e with start := 0 }
  else e

end Error

/-- A character that was begun: its first byte, the bytes that are owed, the range of the next one,
and the bits so far. -/
structure Pending where
  first : Nat
  owed : Nat
  low : Nat
  high : Nat
  bits : Nat

/-- What a first byte above `0x7f` begins. -/
def begin? (b : Nat) : Option Pending :=
  if 0xC2 ≤ b ∧ b ≤ 0xDF then some ⟨b, 1, 0x80, 0xBF, b - 0xC0⟩
  else if b = 0xE0 then some ⟨b, 2, 0xA0, 0xBF, 0⟩
  else if b = 0xED then some ⟨b, 2, 0x80, 0x9F, 0xD⟩
  else if 0xE1 ≤ b ∧ b ≤ 0xEF then some ⟨b, 2, 0x80, 0xBF, b - 0xE0⟩
  else if b = 0xF0 then some ⟨b, 3, 0x90, 0xBF, 0⟩
  else if 0xF1 ≤ b ∧ b ≤ 0xF3 then some ⟨b, 3, 0x80, 0xBF, b - 0xF0⟩
  else if b = 0xF4 then some ⟨b, 3, 0x80, 0x8F, 4⟩
  else none

/-- Decodes from a position on; a pending character began at `start`. -/
def decodeFrom (position start : Nat) : Option Pending → List UInt8 → Except Error (List Char)
  | none, [] => .ok []
  | some p, [] => .error ⟨.unexpectedEnd, p.first, start, position - start⟩
  | none, b :: bs =>
      if b.toNat < 0x80 then
        (decodeFrom (position + 1) start none bs).map (Char.ofNat b.toNat :: ·)
      else
        match begin? b.toNat with
        | none => .error ⟨.invalidStart, b.toNat, position, 1⟩
        | some p => decodeFrom (position + 1) position (some p) bs
  | some p, b :: bs =>
      if p.low ≤ b.toNat ∧ b.toNat ≤ p.high then
        let bits := p.bits * 64 + b.toNat % 64
        if p.owed = 1 then
          (decodeFrom (position + 1) start none bs).map (Char.ofNat bits :: ·)
        else
          decodeFrom (position + 1) start
            (some { p with owed := p.owed - 1, low := 0x80, high := 0xBF, bits := bits }) bs
      else .error ⟨.invalidContinuation, p.first, start, position - start⟩

/-- Ends every line with a line feed: a carriage return, alone or with a line feed after it, counts
as one line end. -/
def unifyLines : List Char → List Char
  | [] => []
  | '\r' :: '\n' :: cs => '\n' :: unifyLines cs
  | '\r' :: cs => '\n' :: unifyLines cs
  | c :: cs => c :: unifyLines cs

/-- The text of a file. -/
def decode (bytes : List UInt8) : Except Error (List Char) :=
  (decodeFrom 0 0 none bytes).map unifyLines

end Utf8
end BracketCall
