import BracketCall.Number.Numeral
import BracketCall.Text.CodePoint
import BracketCall.Text.Quoted

/-!
# Tokens of a YAML document

**Input.**  The text of a document in the part of YAML 1.1 that settings use: block and flow
collections, plain and quoted scalars, comments, and document marks.  Anchors, aliases, tags,
directives and block scalars are not part of it.

**Algorithm.**  A scanner walks over the text and keeps the column of every block collection that is
open.  A line that begins further left closes collections.  A scalar or a flow collection may turn
out to be a key when a colon follows on the same line; until then it is a candidate.  So a token is
stored with two marks that are set later: whether it is a key, and whether a block mapping opens
before it.

**Result.**  The tokens in order, or nothing if the text is malformed.  An escape with a number that
is no code point ends the tokens: what comes before it can still turn out to be malformed, and if it
does not, this escape is the error.  A token that may be a key is held back until it is known
whether it is one, so candidates before such an escape are not among the tokens.
-/

namespace BracketCall
namespace Yaml

inductive Token where
  | sequenceStart
  | mappingStart
  | blockEnd
  | openBracket
  | closeBracket
  | openBrace
  | closeBrace
  | dash
  | comma
  | key
  | colon
  | documentStart
  | documentEnd
  | scalar (plain : Bool) (text : String)
  /-- An escape has a number that is no code point. -/
  | noCharacter (code : Nat)
deriving DecidableEq

/-- Why a scanner takes no further token. -/
inductive Obstacle where
  | malformed
  | noCharacter (code : Nat)

namespace Obstacle

/-- A step that fails only on a malformed text. -/
def orMalformed {α : Type} : Option α → Except Obstacle α
  | some a => .ok a
  | none => .error malformed

end Obstacle

/-! ## Characters -/

/-- A character that ends a line. -/
def isBreak (c : Char) : Bool :=
  c = '\n' || c = '\r' || c = '\x85' || c = '\u2028' || c = '\u2029'

/-- A character that ends a word: a space, a tab, or the end of a line. -/
def isGap (c : Char) : Bool :=
  c = ' ' || c = '\t' || isBreak c

/-- Whether a gap or the end of the text comes next. -/
def atGap : List Char → Bool
  | [] => true
  | c :: _ => isGap c

/-- The characters that a document may hold. -/
def isAllowed (c : Char) : Bool :=
  let n := c.toNat
  n = 0x09 || n = 0x0A || n = 0x0D || (0x20 ≤ n && n ≤ 0x7E) || n = 0x85
    || (0xA0 ≤ n && n ≤ 0xD7FF) || (0xE000 ≤ n && n ≤ 0xFFFD) || 0x10000 ≤ n

/-- The byte-order mark, which has no width. -/
def byteOrderMark : Char := '\ufeff'

/-- The characters of flow collections. -/
def isFlowMark (c : Char) : Bool :=
  c = ',' || c = '[' || c = ']' || c = '\x7b' || c = '\x7d'

/-- The characters that cannot begin a plain scalar. -/
def isIndicator (c : Char) : Bool :=
  isFlowMark c || "-?:#&*!|>'%@".toList.contains c || c = Text.doubleQuote || c = '\x60'

/-- Whether a document mark, three equal characters and a gap, comes next. -/
def atDocumentMark (cs : List Char) : Bool :=
  ("---".toList.isPrefixOf cs || "...".toList.isPrefixOf cs) && atGap (cs.drop 3)

/-- A line end as it is kept: the two Unicode separators stay, all others become a line feed. -/
def keptBreak (c : Char) : Char :=
  if c = '\u2028' || c = '\u2029' then c else '\n'

/-- Lines folded into one: a single line feed becomes a space, of several the first is dropped. -/
def folded (first : Char) (others : List Char) : List Char :=
  if first ≠ '\n' then first :: others
  else if others = [] then [' '] else others

/-! ## The scanner -/

/-- A token that may turn out to be a key. -/
structure Candidate where
  token : Nat
  required : Bool
  index : Nat
  line : Nat
  column : Nat

/-- A token with what is to stand before it. -/
structure Item where
  opensMapping : Bool := false
  isKey : Bool := false
  token : Token

structure Scanner where
  rest : List Char
  index : Nat := 0
  line : Nat := 0
  column : Nat := 0
  /-- How many flow collections are open. -/
  flow : Nat := 0
  /-- The column of the innermost block collection. -/
  indent : Int := -1
  indents : List Int := []
  /-- Whether a key may begin here. -/
  keyAllowed : Bool := true
  /-- At most one candidate for each depth of flow collections. -/
  candidates : List (Nat × Candidate) := []
  items : Array Item := #[]

namespace Scanner

/-- Takes one character. -/
def forward (s : Scanner) : Scanner :=
  match s.rest with
  | [] => s
  | c :: cs =>
      if isBreak c then
        { s with rest := cs, index := s.index + 1, line := s.line + 1, column := 0 }
      else
        { s with rest := cs, index := s.index + 1,
                 column := if c = byteOrderMark then s.column else s.column + 1 }

/-- Takes a number of characters. -/
def forwardBy : Nat → Scanner → Scanner
  | 0, s => s
  | n + 1, s => forwardBy n s.forward

/-- Adds a token. -/
def push (t : Token) (s : Scanner) : Scanner :=
  { s with items := s.items.push { token := t } }

/-- Skips spaces, comments and line ends.  In block context a new line may begin a key. -/
def skip : (fuel : Nat) → Scanner → Scanner
  | 0, s => s
  | fuel + 1, s =>
      match s.rest with
      | [] => s
      | c :: cs =>
          if c = ' ' || (s.index = 0 && c = byteOrderMark) then skip fuel s.forward
          else if c = '#' then
            skip fuel (forwardBy (1 + (cs.takeWhile fun d => !isBreak d).length) s)
          else if isBreak c then
            let s := s.forward
            skip fuel (if s.flow = 0 then { s with keyAllowed := true } else s)
          else s

/-- Gives up the candidate of this depth; a required one must not be given up. -/
def dropCandidate (s : Scanner) : Option Scanner :=
  match s.candidates.lookup s.flow with
  | none => some s
  | some c =>
      if c.required then none
      else some { s with candidates := s.candidates.filter fun e => e.1 != s.flow }

/-- Gives up the candidates that are on another line or too far back. -/
def dropStale (s : Scanner) : Option Scanner :=
  let stale (c : Candidate) : Bool := c.line != s.line || 1024 < s.index - c.index
  if s.candidates.any fun e => stale e.2 && e.2.required then none
  else some { s with candidates := s.candidates.filter fun e => !stale e.2 }

/-- Notes that the next token may be a key. -/
def saveCandidate (s : Scanner) : Option Scanner :=
  if s.keyAllowed then do
    let s ← s.dropCandidate
    let c : Candidate :=
      { token := s.items.size, required := s.flow = 0 && s.indent = (s.column : Int),
        index := s.index, line := s.line, column := s.column }
    return { s with candidates := (s.flow, c) :: s.candidates }
  else some s

/-- Closes the block collections that began further right. -/
def unwindTo (column : Int) : List Int → Scanner → Scanner
  | [], s => s
  | outer :: more, s =>
      if s.flow = 0 ∧ column < s.indent then
        unwindTo column more { s.push .blockEnd with indent := outer, indents := more }
      else s

/-- Closes the block collections that began further right. -/
def unwind (column : Int) (s : Scanner) : Scanner :=
  unwindTo column s.indents s

/-- Opens a block collection if none is open at this column; tells whether it did. -/
def openAt (column : Nat) (s : Scanner) : Bool × Scanner :=
  if s.indent < column then
    (true, { s with indents := s.indent :: s.indents, indent := column })
  else (false, s)

/-- A document mark. -/
def documentMark (t : Token) (s : Scanner) : Option Scanner := do
  let s ← (s.unwind (-1)).dropCandidate
  return (forwardBy 3 { s with keyAllowed := false }).push t

/-- The start of a flow collection. -/
def flowStart (t : Token) (s : Scanner) : Option Scanner := do
  let s ← s.saveCandidate
  return ({ s with flow := s.flow + 1, keyAllowed := true }.push t).forward

/-- The end of a flow collection. -/
def flowEnd (t : Token) (s : Scanner) : Option Scanner := do
  let s ← s.dropCandidate
  if s.flow = 0 then none
  else return ({ s with flow := s.flow - 1, keyAllowed := false }.push t).forward

/-- A comma. -/
def flowEntry (s : Scanner) : Option Scanner := do
  let s ← s.dropCandidate
  return ({ s with keyAllowed := true }.push .comma).forward

/-- A dash, which may open a block sequence. -/
def blockEntry (s : Scanner) : Option Scanner := do
  if s.flow = 0 && !s.keyAllowed then none
  else
    let s :=
      if s.flow = 0 then
        match s.openAt s.column with
        | (true, s) => s.push .sequenceStart
        | (false, s) => s
      else s
    let s ← s.dropCandidate
    return ({ s with keyAllowed := true }.push .dash).forward

/-- A question mark, which may open a block mapping. -/
def explicitKey (s : Scanner) : Option Scanner := do
  if s.flow = 0 && !s.keyAllowed then none
  else
    let s :=
      if s.flow = 0 then
        match s.openAt s.column with
        | (true, s) => s.push .mappingStart
        | (false, s) => s
      else s
    let s ← s.dropCandidate
    return ({ s with keyAllowed := s.flow = 0 }.push .key).forward

/-- A colon: the candidate of this depth is a key, and a new block mapping opens before it if none
is open at its column. -/
def colon (s : Scanner) : Option Scanner := do
  match s.candidates.lookup s.flow with
  | some c =>
      let s := { s with candidates := s.candidates.filter fun e => e.1 != s.flow }
      let (opens, s) := if s.flow = 0 then s.openAt c.column else (false, s)
      let items := s.items.modify c.token fun i => { i with isKey := true, opensMapping := opens }
      return ({ s with items := items, keyAllowed := false }.push .colon).forward
  | none =>
      if s.flow = 0 && !s.keyAllowed then none
      else
        let s :=
          if s.flow = 0 then
            match s.openAt s.column with
            | (true, s) => s.push .mappingStart
            | (false, s) => s
          else s
        return ({ s with keyAllowed := s.flow = 0 }.push .colon).forward

/-! ## Plain scalars -/

/-- The run of a plain scalar up to a gap, to a colon before a gap, and in a flow collection to one
of its marks. -/
def plainRun (inFlow : Bool) : List Char → List Char
  | [] => []
  | c :: cs =>
      let colonEnds :=
        c = ':' && (atGap cs || (inFlow && (cs.head?.map isFlowMark).getD false))
      if isGap c || colonEnds || (inFlow && (isFlowMark c || c = '?')) then []
      else c :: plainRun inFlow cs

/-- The blank lines after a line end, and whether a document mark was met. -/
def blankLines : (fuel : Nat) → List Char → Scanner → List Char × Bool × Scanner
  | 0, breaks, s => (breaks, false, s)
  | fuel + 1, breaks, s =>
      match s.rest with
      | ' ' :: _ => blankLines fuel breaks s.forward
      | c :: cs =>
          if isBreak c then
            if atDocumentMark cs then (breaks ++ [keptBreak c], true, s.forward)
            else blankLines fuel (breaks ++ [keptBreak c]) s.forward
          else (breaks, false, s)
      | [] => (breaks, false, s)

/-- The space between two runs of a plain scalar; empty if the scalar ends here. -/
def plainSpace (s : Scanner) : List Char × Scanner :=
  let spaces := s.rest.takeWhile (· = ' ')
  let s := forwardBy spaces.length s
  match s.rest with
  | [] => (spaces, s)
  | c :: cs =>
      if isBreak c then
        let s := { s.forward with keyAllowed := true }
        if atDocumentMark cs then ([], s)
        else
          match blankLines (cs.length + 1) [] s with
          | (_, true, s) => ([], s)
          | (breaks, false, s) => (folded (keptBreak c) breaks, s)
      else (spaces, s)

/-- The text of a plain scalar, after `space`. -/
def plainText (indent : Int) : (fuel : Nat) → List Char → Scanner → List Char × Scanner
  | 0, _, s => ([], s)
  | fuel + 1, space, s =>
      match s.rest with
      | '#' :: _ => ([], s)
      | cs =>
          match plainRun (0 < s.flow) cs with
          | [] => ([], s)
          | run =>
              let s := forwardBy run.length { s with keyAllowed := false }
              let (next, s) := s.plainSpace
              let text := space ++ run
              if next = [] || s.rest.head? = some '#'
                  || (s.flow = 0 && (s.column : Int) < indent) then (text, s)
              else
                let (more, s) := plainText indent fuel next s
                (text ++ more, s)

/-- A plain scalar. -/
def plain (s : Scanner) : Option Scanner := do
  let s ← s.saveCandidate
  let place := s.items.size
  let s := (s.push (.scalar true ""))
  let (text, s) := plainText (s.indent + 1) (s.rest.length + 1) [] { s with keyAllowed := false }
  return { s with
    items := s.items.modify place fun i => { i with token := .scalar true (String.ofList text) } }

/-! ## Quoted scalars -/

/-- The character of an escape letter. -/
def escape? : Char → Option Char
  | '0' => some '\x00'
  | 'a' => some '\x07'
  | 'b' => some '\x08'
  | 't' => some '\t'
  | '\t' => some '\t'
  | 'n' => some '\n'
  | 'v' => some '\x0b'
  | 'f' => some '\x0c'
  | 'r' => some '\r'
  | 'e' => some '\x1b'
  | ' ' => some ' '
  | '\x22' => some '\x22'
  | '\x5c' => some '\x5c'
  | '/' => some '/'
  | 'N' => some '\x85'
  | '_' => some '\xa0'
  | 'L' => some '\u2028'
  | 'P' => some '\u2029'
  | _ => none

/-- How many hexadecimal digits follow an escape letter. -/
def escapeWidth? : Char → Option Nat
  | 'x' => some 2
  | 'u' => some 4
  | 'U' => some 8
  | _ => none

/-- A number of hexadecimal digits. -/
def hexDigits? (width : Nat) (cs : List Char) : Option (List Nat) :=
  if cs.length < width then none else Numeral.digits? 16 (cs.take width)

/-- The blank lines inside a quoted scalar; a document mark must not stand there. -/
def quotedBreaks : (fuel : Nat) → Scanner → Option (List Char × Scanner)
  | 0, _ => none
  | fuel + 1, s =>
      if atDocumentMark s.rest then none
      else
        let s := forwardBy (s.rest.takeWhile fun c => c = ' ' || c = '\t').length s
        match s.rest with
        | [] => some ([], s)
        | c :: _ =>
            if isBreak c then
              (quotedBreaks fuel s.forward).map fun (breaks, s) => (keptBreak c :: breaks, s)
            else some ([], s)

/-- The code points of a row of characters. -/
def codes (cs : List Char) : List Nat :=
  cs.map Char.toNat

/-- The code points of a quoted scalar up to its closing quote. -/
def quotedText (double : Bool) : (fuel : Nat) → Scanner → Except Obstacle (List Nat × Scanner)
  | 0, _ => .error .malformed
  | fuel + 1, s =>
      match s.rest with
      | [] => .error .malformed
      | c :: cs =>
          if c = ' ' || c = '\t' || isBreak c then
            let spaces := s.rest.takeWhile fun d => d = ' ' || d = '\t'
            let s := forwardBy spaces.length s
            match s.rest with
            | [] => .error .malformed
            | d :: _ =>
                if isBreak d then do
                  let (breaks, s) ← Obstacle.orMalformed (quotedBreaks (s.rest.length + 1) s.forward)
                  let (more, s) ← quotedText double fuel s
                  return (codes (folded (keptBreak d) breaks) ++ more, s)
                else do
                  let (more, s) ← quotedText double fuel s
                  return (codes spaces ++ more, s)
          else if double && c = Text.backslash then
            match cs with
            | [] => .error .malformed
            | e :: digits =>
                match escape? e, escapeWidth? e with
                | some character, _ => do
                    let (more, s) ← quotedText double fuel (forwardBy 2 s)
                    return (character.toNat :: more, s)
                | none, some width => do
                    let hex ← Obstacle.orMalformed (hexDigits? width digits)
                    let code := Numeral.digitsValue 16 hex
                    if Text.lastCodePoint < code then .error (.noCharacter code)
                    else
                      let (more, s) ← quotedText double fuel (forwardBy (2 + width) s)
                      return (code :: more, s)
                | none, none =>
                    if isBreak e then do
                      let (breaks, s) ←
                        Obstacle.orMalformed (quotedBreaks (s.rest.length + 1) (forwardBy 2 s))
                      let (more, s) ← quotedText double fuel s
                      return (codes breaks ++ more, s)
                    else .error .malformed
          else if double && c = Text.doubleQuote then .ok ([], s.forward)
          else if !double && c = Text.apostrophe then
            if cs.head? = some Text.apostrophe then do
              let (more, s) ← quotedText double fuel (forwardBy 2 s)
              return (Text.apostrophe.toNat :: more, s)
            else .ok ([], s.forward)
          else do
            let (more, s) ← quotedText double fuel s.forward
            return (c.toNat :: more, s)

/-- A quoted scalar. -/
def quoted (double : Bool) (s : Scanner) : Except Obstacle Scanner := do
  let s ← Obstacle.orMalformed s.saveCandidate
  let place := s.items.size
  let s := (s.push (.scalar false "")).forward
  let (text, s) ← quotedText double (s.rest.length + 1) { s with keyAllowed := false }
  return { s with
    items := s.items.modify place fun i =>
      { i with token := .scalar false (String.ofList (Text.characters text)) } }

/-! ## All tokens -/

/-- Takes the token at this place, if it is no quoted scalar. -/
def unquoted (c : Char) (cs : List Char) (s : Scanner) : Option Scanner :=
  if s.column = 0 && "---".toList.isPrefixOf s.rest && atGap (s.rest.drop 3) then
    s.documentMark .documentStart
  else if s.column = 0 && "...".toList.isPrefixOf s.rest && atGap (s.rest.drop 3) then
    s.documentMark .documentEnd
  else if s.column = 0 && c = '%' then none
  else if c = '[' then s.flowStart .openBracket
  else if c = '\x7b' then s.flowStart .openBrace
  else if c = ']' then s.flowEnd .closeBracket
  else if c = '\x7d' then s.flowEnd .closeBrace
  else if c = ',' then s.flowEntry
  else if c = '-' && atGap cs then s.blockEntry
  else if c = '?' && (0 < s.flow || atGap cs) then s.explicitKey
  else if c = ':' && (0 < s.flow || atGap cs) then s.colon
  else if (!isIndicator c && !isGap c)
      || (!atGap cs && (c = '-' || (s.flow = 0 && (c = '?' || c = ':')))) then s.plain
  else none

/-- Takes the token at this place. -/
def token (c : Char) (cs : List Char) (s : Scanner) : Except Obstacle Scanner :=
  if c = Text.apostrophe then s.quoted false
  else if c = Text.doubleQuote then s.quoted true
  else Obstacle.orMalformed (s.unquoted c cs)

/-- The scanner without its candidates and what comes after them. -/
def settled (s : Scanner) : Scanner :=
  let first := s.candidates.foldl (fun n e => min n e.2.token) s.items.size
  { s with items := s.items.take first }

/-- The scanner before a scalar with an escape that has no character. -/
def cutOff (code : Nat) (s : Scanner) : Option Scanner :=
  s.dropStale.map fun s => s.settled.push (.noCharacter code)

/-- Takes tokens until the text ends. -/
def run : (fuel : Nat) → Scanner → Option Scanner
  | 0, _ => none
  | fuel + 1, start => do
      let s ← (start.skip (start.rest.length + 1)).dropStale
      match s.rest with
      | [] => (s.unwind (-1)).dropCandidate
      | c :: cs =>
          match (s.unwind s.column).token c cs with
          | .ok s => run fuel s
          | .error .malformed => none
          | .error (.noCharacter code) => start.cutOff code

end Scanner

/-- A token after what is to stand before it. -/
def Item.tokens (i : Item) : List Token :=
  (if i.opensMapping then [Token.mappingStart] else [])
    ++ (if i.isKey then [Token.key] else []) ++ [i.token]

/-- The tokens of a document. -/
def tokens? (cs : List Char) : Option (List Token) :=
  if cs.all isAllowed then
    (Scanner.run (cs.length + 2) { rest := cs }).map fun s => s.items.toList.flatMap Item.tokens
  else none

end Yaml
end BracketCall
