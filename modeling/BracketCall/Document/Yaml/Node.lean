import BracketCall.Document.Yaml.Token

/-!
# Nodes of a YAML document

**Input.**  The tokens of a document.

**Algorithm.**  Recursive descent.  A missing value is an empty plain scalar.  A block sequence that
is the value of a key may stand at the key's own column; then no token closes it.  A pair in a flow
sequence is a mapping with one entry.  Every step takes a token, so the number of tokens bounds the
recursion.

**Result.**  The node of the only document, or the obstacle at the first token that fits no document.
-/

namespace BracketCall
namespace Yaml

inductive Node where
  | scalar (plain : Bool) (text : String)
  | sequence (items : List Node)
  | mapping (entries : List (Node × Node))

namespace Node

/-- The node of a value that is left out. -/
def empty : Node :=
  .scalar true ""

/-- The obstacle at a place where no token fits. -/
def obstacle : List Token → Obstacle
  | .noCharacter code :: _ => .noCharacter code
  | _ => .malformed

mutual

/-- A node.  Block collections are allowed only if `block` is set, and a sequence without an opening
token only if `loose` is set. -/
def read : (fuel : Nat) → (block loose : Bool) → List Token → Except Obstacle (Node × List Token)
  | 0, _, _, _ => .error .malformed
  | fuel + 1, block, loose, tokens =>
      match tokens with
      | .scalar plain text :: rest => .ok (.scalar plain text, rest)
      | .openBracket :: rest =>
          (flowItems fuel true rest).map fun (items, rest) => (.sequence items, rest)
      | .openBrace :: rest =>
          (flowEntries fuel true rest).map fun (entries, rest) => (.mapping entries, rest)
      | .sequenceStart :: rest =>
          if block then do
            let (items, rest) ← blockItems fuel rest
            let rest ← closeBlock rest
            return (.sequence items, rest)
          else .error .malformed
      | .mappingStart :: rest =>
          if block then do
            let (entries, rest) ← blockEntries fuel rest
            let rest ← closeBlock rest
            return (.mapping entries, rest)
          else .error .malformed
      | .dash :: _ =>
          if loose then
            (looseItems fuel tokens).map fun (items, rest) => (.sequence items, rest)
          else .error .malformed
      | _ => .error (obstacle tokens)

/-- The items of a block sequence. -/
def blockItems : (fuel : Nat) → List Token → Except Obstacle (List Node × List Token)
  | 0, _ => .error .malformed
  | fuel + 1, tokens =>
      match tokens with
      | .dash :: rest =>
          match rest with
          | .dash :: _ => (blockItems fuel rest).map fun (items, r) => (empty :: items, r)
          | .blockEnd :: _ => .ok ([empty], rest)
          | _ => do
              let (item, rest) ← read fuel true false rest
              let (items, rest) ← blockItems fuel rest
              return (item :: items, rest)
      | _ => .ok ([], tokens)

/-- The items of a block sequence that no token closes. -/
def looseItems : (fuel : Nat) → List Token → Except Obstacle (List Node × List Token)
  | 0, _ => .error .malformed
  | fuel + 1, tokens =>
      match tokens with
      | .dash :: rest =>
          match rest with
          | .dash :: _ => (looseItems fuel rest).map fun (items, r) => (empty :: items, r)
          | .key :: _ => .ok ([empty], rest)
          | .colon :: _ => .ok ([empty], rest)
          | .blockEnd :: _ => .ok ([empty], rest)
          | _ => do
              let (item, rest) ← read fuel true false rest
              let (items, rest) ← looseItems fuel rest
              return (item :: items, rest)
      | _ => .ok ([], tokens)

/-- The entries of a block mapping. -/
def blockEntries : (fuel : Nat) → List Token → Except Obstacle (List (Node × Node) × List Token)
  | 0, _ => .error .malformed
  | fuel + 1, tokens =>
      match tokens with
      | .key :: rest => do
          let (key, rest) ← blockPart fuel rest
          let (value, rest) ←
            match rest with
            | .colon :: rest => blockPart fuel rest
            | _ => .ok (empty, rest)
          let (entries, rest) ← blockEntries fuel rest
          return ((key, value) :: entries, rest)
      | _ => .ok ([], tokens)

/-- A key or a value of a block mapping, which may be left out. -/
def blockPart : (fuel : Nat) → List Token → Except Obstacle (Node × List Token)
  | 0, _ => .error .malformed
  | fuel + 1, tokens =>
      match tokens with
      | .key :: _ => .ok (empty, tokens)
      | .colon :: _ => .ok (empty, tokens)
      | .blockEnd :: _ => .ok (empty, tokens)
      | _ => read fuel true true tokens

/-- The end of a block collection. -/
def closeBlock : List Token → Except Obstacle (List Token)
  | .blockEnd :: rest => .ok rest
  | tokens => .error (obstacle tokens)

/-- The items of a flow sequence up to its closing bracket. -/
def flowItems : (fuel : Nat) → (first : Bool) → List Token →
    Except Obstacle (List Node × List Token)
  | 0, _, _ => .error .malformed
  | fuel + 1, first, tokens =>
      match tokens with
      | .closeBracket :: rest => .ok ([], rest)
      | _ => do
          let tokens ← flowSeparated first tokens
          match tokens with
          | .closeBracket :: rest => return ([], rest)
          | .key :: rest =>
              let (key, rest) ← flowPart fuel rest
              let (value, rest) ←
                match rest with
                | .colon :: rest => flowPart fuel rest
                | _ => .ok (empty, rest)
              let (items, rest) ← flowItems fuel false rest
              return (.mapping [(key, value)] :: items, rest)
          | _ =>
              let (item, rest) ← read fuel false false tokens
              let (items, rest) ← flowItems fuel false rest
              return (item :: items, rest)

/-- The entries of a flow mapping up to its closing brace. -/
def flowEntries : (fuel : Nat) → (first : Bool) → List Token →
    Except Obstacle (List (Node × Node) × List Token)
  | 0, _, _ => .error .malformed
  | fuel + 1, first, tokens =>
      match tokens with
      | .closeBrace :: rest => .ok ([], rest)
      | _ => do
          let tokens ← flowSeparated first tokens
          match tokens with
          | .closeBrace :: rest => return ([], rest)
          | .key :: rest =>
              let (key, rest) ← flowPart fuel rest
              let (value, rest) ←
                match rest with
                | .colon :: rest => flowPart fuel rest
                | _ => .ok (empty, rest)
              let (entries, rest) ← flowEntries fuel false rest
              return ((key, value) :: entries, rest)
          | _ =>
              let (key, rest) ← read fuel false false tokens
              let (entries, rest) ← flowEntries fuel false rest
              return ((key, empty) :: entries, rest)

/-- A key or a value in a flow collection, which may be left out. -/
def flowPart : (fuel : Nat) → List Token → Except Obstacle (Node × List Token)
  | 0, _ => .error .malformed
  | fuel + 1, tokens =>
      match tokens with
      | .colon :: _ => .ok (empty, tokens)
      | .comma :: _ => .ok (empty, tokens)
      | .closeBracket :: _ => .ok (empty, tokens)
      | .closeBrace :: _ => .ok (empty, tokens)
      | _ => read fuel false false tokens

/-- The tokens after the comma that all but the first part of a flow collection need. -/
def flowSeparated : (first : Bool) → List Token → Except Obstacle (List Token)
  | true, tokens => .ok tokens
  | false, .comma :: rest => .ok rest
  | false, tokens => .error (obstacle tokens)

end

/-- The first node of a text, if there is one, and the tokens after it.  A document may begin with a
mark; what it holds may then be left out. -/
def first (tokens : List Token) : Except Obstacle (Option Node × List Token) :=
  let content (tokens : List Token) : Except Obstacle (Option Node × List Token) :=
    (read (4 * tokens.length + 4) true false tokens).map fun (node, rest) => (some node, rest)
  match tokens with
  | [] => .ok (none, [])
  | [.documentStart] => .ok (some empty, [])
  | .documentStart :: .documentStart :: _ => .error .malformed
  | .documentStart :: .documentEnd :: rest => .ok (some empty, rest)
  | .documentStart :: rest => content rest
  | _ => content tokens

/-- The node of a document that is alone in its text.  It may end with a mark, but not begin with
an ending one. -/
def ofTokens (tokens : List Token) : Except Obstacle (Option Node) := do
  let (node, rest) ← first tokens
  match rest.dropWhile (· = .documentEnd) with
  | [] => return node
  | other => .error (obstacle other)

end Node
end Yaml
end BracketCall
