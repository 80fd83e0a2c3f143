import BracketCall.Diagnostic
import BracketCall.Token
import BracketCall.Tree
import BracketCall.Value.Kind

/-!
# Faults

The causes for which reading or running a program ends, or for which the bindings refuse a change.
Every stage stops at its first fault.  A fault of the lexer is placed by a character, a fault of
the parser by a token; the others have no place.
-/

namespace BracketCall

/-- What the parser was waiting for when the tokens ran out. -/
inductive Expectation where
  | opening
  | name
  | separatorOrClosing
  | argument
  | argumentOrClosing
deriving DecidableEq

namespace Expectation

def label : Expectation → String
  | opening => "'['"
  | name => "a name"
  | separatorOrClosing => "'|' or ']'"
  | argument => "an argument"
  | argumentOrClosing => "an argument or ']'"

end Expectation

inductive Fault where
  | unexpectedCharacter (char : Char) (offset : Nat)
  | expectedOpening (found : Token) (index : Nat)
  | expectedClosing (found : Option Token) (index : Nat)
  | unexpectedToken (found : Token) (index : Nat)
  | unexpectedEnd (expected : Expectation) (index : Nat)
  | undefinedFunction (name : String)
  | undefinedVariable (name : String)
  | unsupportedArgument (argument : Tree)
  | kindMismatch (expected found : Kind)
  | duplicateVariable (name : String)
  | unknownVariable (name : String)
deriving DecidableEq

/-! The wording of each problem, for any place and any text. -/

namespace Diagnostic

def unexpectedCharacter (text : String) (offset : Int) : Diagnostic :=
  ofProblem .unexpectedCharacter ("unexpected character " ++ Text.quoted text) (some offset)

def expectedOpening (found : Option Token) (index : Int) : Diagnostic :=
  ofProblem .expectedOpening ("expected '[', found " ++ Token.describe found) (some index)

def expectedClosing (found : Option Token) (index : Int) : Diagnostic :=
  ofProblem .expectedClosing ("expected ']', found " ++ Token.describe found) (some index)

def unexpectedToken (found : Option Token) (index : Int) : Diagnostic :=
  ofProblem .unexpectedToken ("unexpected token " ++ Token.describe found) (some index)

def unexpectedEnd (expected : String) (index : Int) : Diagnostic :=
  ofProblem .unexpectedEnd ("unexpected end of input, expected " ++ expected) (some index)

def undefinedFunction (name : String) : Diagnostic :=
  ofProblem .undefinedFunction ("function '" ++ name ++ "' does not exist") none

def undefinedVariable (name : String) : Diagnostic :=
  ofProblem .undefinedVariable ("variable '" ++ name ++ "' does not exist") none

def unsupportedArgument (description : String) : Diagnostic :=
  ofProblem .unsupportedArgument ("unsupported argument " ++ description) none

def kindMismatch (expected found : String) : Diagnostic :=
  ofProblem .kindMismatch ("expected " ++ expected ++ " but got " ++ found) none

def duplicateVariable (name : String) : Diagnostic :=
  ofProblem .duplicateVariable ("variable '" ++ name ++ "' already exists") none

def unknownVariable (name : String) : Diagnostic :=
  ofProblem .unknownVariable ("variable '" ++ name ++ "' does not exist") none

end Diagnostic

namespace Fault

/-- How a node that cannot be an argument is named. -/
def describeArgument : Tree → String
  | .word text => "identifier " ++ Text.quoted text
  | node => "node " ++ node.shape.label

/-- A fault as it is shown to a user. -/
def diagnostic : Fault → Diagnostic
  | unexpectedCharacter c offset => .unexpectedCharacter (String.singleton c) offset
  | expectedOpening found index => .expectedOpening (some found) index
  | expectedClosing found index => .expectedClosing found index
  | unexpectedToken found index => .unexpectedToken (some found) index
  | unexpectedEnd expected index => .unexpectedEnd expected.label index
  | undefinedFunction name => .undefinedFunction name
  | undefinedVariable name => .undefinedVariable name
  | unsupportedArgument argument => .unsupportedArgument (describeArgument argument)
  | kindMismatch expected found => .kindMismatch expected.label found.label
  | duplicateVariable name => .duplicateVariable name
  | unknownVariable name => .unknownVariable name

end Fault
end BracketCall
