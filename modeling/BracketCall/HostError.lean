import BracketCall.Text.Quoted
import BracketCall.Tree

/-!
# Errors of the host

What ends an operation on host values, other than a fault of a program: an operand of the wrong
type, a number that is too large, an error that a native function raises itself.
-/

namespace BracketCall

/-- The two operators that natives apply to host values. -/
inductive Operator where
  | plus
  | divide
deriving DecidableEq

namespace Operator

def symbol : Operator → String
  | plus => "+"
  | divide => "/"

end Operator

inductive HostError where
  /-- An integer has too many digits to be written in decimal. -/
  | integerTooLong
  /-- A decimal integer has too many digits to be read. -/
  | numeralTooLong (digits : Nat)
  /-- A value of this type has no elements. -/
  | notIterable (type : String)
  /-- The operator does not take values of these types. -/
  | unsupportedOperands (operator : Operator) (left right : String)
  /-- A row of this type can only be joined with a row of the same type. -/
  | notConcatenable (row other : String)
  /-- An integer has no double near it. -/
  | integerTooLarge
  /-- A quotient of integers has no double near it. -/
  | quotientTooLarge
  /-- A native raised an error with this message. -/
  | raised (message : String)
  /-- Only a program can be run as one. -/
  | notProgram (shape : Shape)
  /-- A text is not of the form `NAME=VALUE`. -/
  | badAssignment (text : String)
  /-- A mark does not say which one it is. -/
  | namelessMark
deriving DecidableEq

/-- The greatest number of digits of an integer that is read or written in decimal. -/
def digitLimit : Nat := 4300

namespace HostError

/-- How the limit on digits is named. -/
def limitText : String :=
  "Exceeds the limit (" ++ toString digitLimit ++ " digits) for integer string conversion"

/-- How the limit on digits may be lifted. -/
def limitAdvice : String :=
  "; use sys.set_int_max_str_digits() to increase the limit"

def message : HostError → String
  | integerTooLong => limitText ++ limitAdvice
  | numeralTooLong digits =>
      limitText ++ ": value has " ++ toString digits ++ " digits" ++ limitAdvice
  | notIterable type => "'" ++ type ++ "' object is not iterable"
  | unsupportedOperands operator left right =>
      "unsupported operand type(s) for " ++ operator.symbol ++ ": '" ++ left ++ "' and '" ++ right
        ++ "'"
  | notConcatenable row other =>
      "can only concatenate " ++ row ++ " (not \"" ++ other ++ "\") to " ++ row
  | integerTooLarge => "int too large to convert to float"
  | quotientTooLarge => "integer division result too large for a float"
  | raised message => message
  | notProgram shape => "expected a Program node, got " ++ shape.label
  | badAssignment text => "bad --var " ++ Text.quoted text ++ ": expected NAME=VALUE"
  | namelessMark => "'NoneType' object has no attribute 'name'"

end HostError
end BracketCall
