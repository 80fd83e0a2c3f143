import BracketCall.Token.Lexer

/-!
# Literals

A word that directly follows a separator stands in argument position and becomes a literal; every
other word stays a word and is a name.  A source is read to tokens with or without this pass.
-/

namespace BracketCall
namespace Token

/-- Turns words after a separator into literals; `afterSeparator` tells of the token before. -/
def literalsFrom (afterSeparator : Bool) : List Token → List Token
  | [] => []
  | t :: ts =>
      (if afterSeparator && t.kind == .word then ofLiteral t.text else t)
        :: literalsFrom (t.isMark .separator) ts

/-- Turns every word that directly follows a separator into a literal. -/
def markLiterals (tokens : List Token) : List Token :=
  literalsFrom false tokens

/-- The tokens of a text, with the literals marked if `literals` is set. -/
def listing (literals : Bool) (tokens : List Token) : List Token :=
  if literals then markLiterals tokens else tokens

end Token

namespace Reader

/-- All tokens that are left, with the literals marked if `literals` is set. -/
def tokens (literals : Bool) (r : Reader) : Except Fault (List Token) × Reader :=
  match r.readAll with
  | (.ok ts, r') => (.ok (Token.listing literals ts), r')
  | (.error f, r') => (.error f, r')

end Reader

/-- The tokens of a source, with the literals marked if `literals` is set. -/
def tokenize (literals : Bool) (source : String) : Except Fault (List Token) :=
  ((Reader.ofSource source).tokens literals).1

end BracketCall
