import BracketCall.Fault

/-!
# Reading trees

**Input.**  A row of tokens.

**Grammar.**
```text
program   := statement*
statement := construct | literal | word
construct := "[" "[" word ( "|" ( "|"? statement )* )? "]" "]"
```
Brackets are doubled.  Separators between arguments may be left out: `[[f|[[a]][[b]]]]` passes two
arguments, as `[[f|[[a]]|[[b]]]]` does.

**Algorithm.**  Recursive descent without backtracking; the first token that fits nowhere is a
fault.  A cursor tells how many tokens were read and which are left.  Each step hands on a cursor
with a proof that it did not fall behind, which is what ends the recursion.
-/

namespace BracketCall

/-- A position in a row of tokens: the number of tokens read, and the tokens that are left. -/
structure Cursor where
  position : Nat
  rest : List Token
deriving DecidableEq

namespace Cursor

/-- A cursor before the first token. -/
def ofTokens (tokens : List Token) : Cursor :=
  { position := 0, rest := tokens }

/-- Reads a token, if one is left. -/
def next : Cursor → Option Token × Cursor
  | { position, rest := [] } => (none, { position := position, rest := [] })
  | { position, rest := t :: ts } => (some t, { position := position + 1, rest := ts })

/-- The index of the token that was read last; before the first one it is `-1`. -/
def index (c : Cursor) : Int :=
  (c.position : Int) - 1

end Cursor

namespace Parser

/-- The first half of a construct: its name, and whether arguments follow. -/
inductive Head where
  | call (name : String)
  | reference (name : String)

theorem length_lt_behind (t t' t'' : Token) (ts : List Token) :
    ts.length < (t :: t' :: t'' :: ts).length := by
  simp only [List.length_cons]
  omega

/-- Reads `[`, a name, and then the separator of a call or the first bracket that closes a
reference. -/
def head (position : Nat) (tokens : List Token) :
    Except Fault (Head × { c : Cursor // c.rest.length < tokens.length }) :=
  match tokens with
  | [] => .error (.unexpectedEnd .opening position)
  | t :: ts =>
      if t.isMark .opening then
        match ts with
        | [] => .error (.unexpectedEnd .name (position + 1))
        | t' :: ts' =>
            if t'.kind = .word then
              match ts' with
              | [] => .error (.unexpectedEnd .separatorOrClosing (position + 2))
              | t'' :: ts'' =>
                  if t''.isMark .separator then
                    .ok (.call t'.text,
                      ⟨{ position := position + 3, rest := ts'' }, length_lt_behind t t' t'' ts''⟩)
                  else if t''.isMark .closing then
                    .ok (.reference t'.text,
                      ⟨{ position := position + 3, rest := ts'' }, length_lt_behind t t' t'' ts''⟩)
                  else .error (.unexpectedToken t'' (position + 2))
            else .error (.unexpectedToken t' (position + 1))
      else .error (.expectedOpening t position)

/-- Reads the second bracket of a closing pair. -/
def closing (c : Cursor) : Except Fault { d : Cursor // d.rest.length ≤ c.rest.length } :=
  match h : c.rest with
  | [] => .error (.expectedClosing none c.position)
  | t :: ts =>
      if t.isMark .closing then
        .ok ⟨{ position := c.position + 1, rest := ts }, by simp⟩
      else .error (.expectedClosing (some t) c.position)

mutual

/-- Reads a statement whose first token, at `index`, was already read. -/
def statement (index : Nat) (first : Token) (rest : List Token) :
    Except Fault (Tree × { c : Cursor // c.rest.length ≤ rest.length }) :=
  if first.isMark .opening then
    match head (index + 1) rest with
    | .error f => .error f
    | .ok (.call name, ⟨c, hc⟩) =>
        match arguments c.position c.rest with
        | .error f => .error f
        | .ok (args, ⟨d, hd⟩) =>
            match closing d with
            | .error f => .error f
            | .ok ⟨e, he⟩ => .ok (.call name args, ⟨e, by omega⟩)
    | .ok (.reference name, ⟨c, hc⟩) =>
        match closing c with
        | .error f => .error f
        | .ok ⟨d, hd⟩ => .ok (.reference name, ⟨d, by omega⟩)
  else
    match first.kind with
    | .word => .ok (.word first.text, ⟨{ position := index + 1, rest := rest }, Nat.le_refl _⟩)
    | .literal =>
        .ok (.literal first.text, ⟨{ position := index + 1, rest := rest }, Nat.le_refl _⟩)
    | _ => .error (.unexpectedToken first index)
termination_by rest.length

/-- Reads arguments up to and including the first bracket that closes the call.  One separator may
stand before each argument. -/
def arguments (position : Nat) (tokens : List Token) :
    Except Fault (List Tree × { c : Cursor // c.rest.length ≤ tokens.length }) :=
  match tokens with
  | [] => .error (.unexpectedEnd .argumentOrClosing position)
  | t :: ts =>
      if t.isMark .closing then
        .ok ([], ⟨{ position := position + 1, rest := ts }, by simp⟩)
      else if t.isMark .separator then
        match ts with
        | [] => .error (.unexpectedEnd .argument (position + 1))
        | t' :: ts' =>
            match statement (position + 1) t' ts' with
            | .error f => .error f
            | .ok (tree, ⟨c, hc⟩) =>
                match arguments c.position c.rest with
                | .error f => .error f
                | .ok (trees, ⟨d, hd⟩) =>
                    .ok (tree :: trees, ⟨d, by simp only [List.length_cons]; omega⟩)
      else
        match statement position t ts with
        | .error f => .error f
        | .ok (tree, ⟨c, hc⟩) =>
            match arguments c.position c.rest with
            | .error f => .error f
            | .ok (trees, ⟨d, hd⟩) =>
                .ok (tree :: trees, ⟨d, by simp only [List.length_cons]; omega⟩)
termination_by tokens.length

end

/-- Reads statements until the tokens end. -/
def statements (position : Nat) (tokens : List Token) : Except Fault (List Tree) :=
  match tokens with
  | [] => .ok []
  | t :: ts =>
      match statement position t ts with
      | .error f => .error f
      | .ok (tree, ⟨c, _⟩) =>
          match statements c.position c.rest with
          | .error f => .error f
          | .ok trees => .ok (tree :: trees)
termination_by tokens.length

end Parser

/-- The program that a row of tokens spells. -/
def parse (tokens : List Token) : Except Fault Tree :=
  (Parser.statements 0 tokens).map .program

end BracketCall
