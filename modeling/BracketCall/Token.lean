import BracketCall.HostError
import BracketCall.Text.Quoted

/-!
# Tokens

A source text is a row of three marks, `[`, `]` and `|`, with words between them.  A word that
stands in argument position is later turned into a literal.  Tokens carry no position; only their
order matters.

What a token is to the grammar is decided by its kind and, for a mark, by which mark it is; its
text is only what is shown.  The two may disagree in a token that was not read from a source.
-/

namespace BracketCall

/-- The marks of the language.  Constructs need the brackets doubled: `[[ ... ]]`. -/
inductive Mark where
  | opening
  | closing
  | separator
deriving DecidableEq

namespace Mark

/-- The character that stands for a mark. -/
def char : Mark → Char
  | opening => '['
  | closing => ']'
  | separator => '|'

/-- The mark that a character stands for. -/
def ofChar? (c : Char) : Option Mark :=
  if c = '[' then some opening
  else if c = ']' then some closing
  else if c = '|' then some separator
  else none

/-- The name under which a mark is shown. -/
def label : Mark → String
  | opening => "BLOCK_START"
  | closing => "BLOCK_END"
  | separator => "SEPARATOR"

@[simp] theorem ofChar?_char (m : Mark) : ofChar? m.char = some m := by
  cases m <;> rfl

theorem char_of_ofChar? {c : Char} {m : Mark} (h : ofChar? c = some m) : m.char = c := by
  unfold ofChar? at h
  split at h
  · cases h; simp_all [char]
  · split at h
    · cases h; simp_all [char]
    · split at h
      · cases h; simp_all [char]
      · cases h

end Mark

/-- What a token is: a mark, a word, a literal, or the end of the text. -/
inductive TokenKind where
  | mark
  | word
  | literal
  | ending
deriving DecidableEq

namespace TokenKind

/-- The name under which a kind is shown. -/
def label : TokenKind → String
  | mark => "BLOCK"
  | word => "IDENTIFIER"
  | literal => "VALUE"
  | ending => "EOF"

end TokenKind

structure Token where
  kind : TokenKind
  text : String
  mark : Option Mark := none
deriving DecidableEq

namespace Token

/-- The token of a mark. -/
def ofMark (m : Mark) : Token :=
  { kind := .mark, text := String.singleton m.char, mark := some m }

/-- The token of a run of text. -/
def ofWord (text : String) : Token :=
  { kind := .word, text := text }

/-- The token of a run of text in argument position. -/
def ofLiteral (text : String) : Token :=
  { kind := .literal, text := text }

/-- Whether a token is the given mark. -/
def isMark (t : Token) (m : Mark) : Bool :=
  t.kind == .mark && t.mark == some m

/-- A token as it is shown in a listing: its name and its quoted text. -/
def display (t : Token) : String :=
  match t.kind with
  | .mark => (t.mark.map Mark.label).getD TokenKind.mark.label ++ "(" ++ Text.quoted t.text ++ ")"
  | .ending => TokenKind.ending.label
  | kind => kind.label ++ "(" ++ Text.quoted t.text ++ ")"

/-- A token as a line of a listing.  A token of the kind of marks that does not say which mark it is has
no name; no source has such a token. -/
def listed (t : Token) : Except HostError String :=
  if t.kind = .mark ∧ t.mark = none then .error .namelessMark else .ok t.display

/-- A token, or the lack of one, as it is named in a message. -/
def describe : Option Token → String
  | none => "end of input"
  | some t =>
      match t.kind with
      | .mark => "'" ++ t.text ++ "'"
      | _ => t.display

end Token
end BracketCall
