import BracketCall.Fault
import BracketCall.Text.Blank
import BracketCall.Text.LetterOrDigit

/-!
# Reading tokens

**Input.**  A source text.

**Algorithm.**  A reader holds the text that is left and how many characters were read before it.
One step skips blanks and then takes a mark, or a word: a letter or digit and every character after
it up to the next `]` or `|`.  So a word may hold blanks, `[` and any punctuation, and there is no
quoting.  Any other character is a fault, at which the reader stays.

**Results.**  `scan_shorter`: a token that was taken leaves less text; this ends `drain`, which
takes tokens until the text ends or a fault stops it.
-/

namespace BracketCall

/-- A position in a source: the number of characters read, and the characters that are left. -/
structure Reader where
  offset : Nat
  rest : List Char
deriving DecidableEq

namespace Reader

/-- A reader at the start of a source. -/
def ofSource (source : String) : Reader :=
  { offset := 0, rest := source.toList }

/-- The next character, or NUL at the end. -/
def peek (r : Reader) : Char :=
  r.rest.headD '\x00'

/-- Whether a character goes on with a word that has begun. -/
def inWord (c : Char) : Bool :=
  c != ']' && c != '|'

/-- Takes one token, if there is one, from the text at `offset`. -/
def scan (offset : Nat) : List Char → Except Fault (Option Token) × Reader
  | [] => (.ok none, { offset := offset, rest := [] })
  | c :: cs =>
      match Mark.ofChar? c with
      | some m => (.ok (some (.ofMark m)), { offset := offset + 1, rest := cs })
      | none =>
          if Text.isBlank c then scan (offset + 1) cs
          else if Text.isLetterOrDigit c then
            (.ok (some (.ofWord (String.ofList (c :: cs.takeWhile inWord)))),
              { offset := offset + 1 + (cs.takeWhile inWord).length,
                rest := cs.dropWhile inWord })
          else
            (.error (.unexpectedCharacter c offset), { offset := offset, rest := c :: cs })

/-- A run and what follows it have the length of the whole. -/
theorem takeWhile_length_add (p : Char → Bool) :
    ∀ cs : List Char, (cs.takeWhile p).length + (cs.dropWhile p).length = cs.length
  | [] => rfl
  | c :: cs => by
      by_cases h : p c
      · simp [h, Nat.succ_add, takeWhile_length_add p cs]
      · simp [h]

/-- A token that was taken leaves less text. -/
theorem scan_shorter {offset : Nat} {t : Token} {r : Reader} :
    ∀ {cs : List Char}, scan offset cs = (.ok (some t), r) → r.rest.length < cs.length
  | [], h => by simp [scan] at h
  | c :: cs, h => by
      unfold scan at h
      split at h
      · cases h; simp
      · split at h
        · exact Nat.lt_succ_of_lt (scan_shorter h)
        · split at h
          · cases h
            have := takeWhile_length_add inWord cs
            simp only [List.length_cons]
            omega
          · cases h

/-- Takes one token, if there is one. -/
def next (r : Reader) : Except Fault (Option Token) × Reader :=
  scan r.offset r.rest

/-- Takes tokens until the text ends or a fault is met, and keeps those before the fault. -/
def drain (r : Reader) : List Token × Option Fault × Reader :=
  match h : scan r.offset r.rest with
  | (.ok none, r') => ([], none, r')
  | (.error f, r') => ([], some f, r')
  | (.ok (some t), r') =>
      have : r'.rest.length < r.rest.length := scan_shorter h
      let later := drain r'
      (t :: later.1, later.2)
termination_by r.rest.length

/-- Takes all tokens that are left, or none if a fault is met. -/
def readAll (r : Reader) : Except Fault (List Token) × Reader :=
  match drain r with
  | (tokens, none, r') => (.ok tokens, r')
  | (_, some f, r') => (.error f, r')

end Reader
end BracketCall
