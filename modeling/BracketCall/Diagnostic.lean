/-!
# Diagnostics

A diagnostic is an error as it is shown to a user: a code, a kind, a message, and sometimes a place
and some hints.  The codes fall into four ranges, one for each stage: `E0xx` for reading tokens,
`E1xx` for reading trees, `E2xx` for a run and `E3xx` for the bindings.
-/

namespace BracketCall

/-- The four stages that report an error. -/
inductive Stage where
  | lexing
  | parsing
  | running
  | binding
deriving DecidableEq

/-- What went wrong. -/
inductive Problem where
  | unexpectedCharacter
  | expectedOpening
  | expectedClosing
  | unexpectedToken
  | unexpectedEnd
  | undefinedFunction
  | undefinedVariable
  | unsupportedArgument
  | kindMismatch
  | duplicateVariable
  | unknownVariable
deriving DecidableEq

namespace Problem

/-- The name under which a problem is shown. -/
def label : Problem → String
  | unexpectedCharacter => "UnexpectedCharacter"
  | expectedOpening => "ExpectedBlockStart"
  | expectedClosing => "ExpectedBlockEnd"
  | unexpectedToken => "UnexpectedToken"
  | unexpectedEnd => "UnexpectedEndOfInput"
  | undefinedFunction => "UndefinedFunction"
  | undefinedVariable => "UndefinedVariable"
  | unsupportedArgument => "UnsupportedArgument"
  | kindMismatch => "TypeMismatch"
  | duplicateVariable => "DuplicateVariable"
  | unknownVariable => "UnknownVariable"

/-- The stage that reports a problem. -/
def stage : Problem → Stage
  | unexpectedCharacter => .lexing
  | expectedOpening => .parsing
  | expectedClosing => .parsing
  | unexpectedToken => .parsing
  | unexpectedEnd => .parsing
  | undefinedFunction => .running
  | undefinedVariable => .running
  | unsupportedArgument => .running
  | kindMismatch => .running
  | duplicateVariable => .binding
  | unknownVariable => .binding

/-- The code of a problem. -/
def code : Problem → String
  | unexpectedCharacter => "E001"
  | expectedOpening => "E101"
  | expectedClosing => "E102"
  | unexpectedToken => "E103"
  | unexpectedEnd => "E104"
  | undefinedFunction => "E201"
  | undefinedVariable => "E202"
  | unsupportedArgument => "E203"
  | kindMismatch => "E204"
  | duplicateVariable => "E301"
  | unknownVariable => "E302"

/-- What a problem suggests to the user. -/
def hints : Problem → List String
  | unexpectedCharacter => ["names and literals must start with a letter or digit"]
  | expectedOpening => ["calls and references open with two brackets: [[name|...]]"]
  | expectedClosing => ["calls and references close with two brackets: ]]"]
  | unsupportedArgument => ["arguments must follow '|' or be nested [[...]] constructs"]
  | duplicateVariable => ["use update_variable to change a registered variable"]
  | unknownVariable => ["use put_variable to register a new variable"]
  | _ => []

end Problem

inductive Severity where
  | error
  | warning
deriving DecidableEq

namespace Severity

/-- The word that opens a diagnostic. -/
def label : Severity → String
  | error => "error"
  | warning => "warning"

end Severity

structure Diagnostic where
  code : String
  problem : Problem
  message : String
  severity : Severity := .error
  offset : Option Int := none
  hints : List String := []
deriving DecidableEq

namespace Diagnostic

/-- The diagnostic of a problem, with the problem's own code and hints. -/
def ofProblem (problem : Problem) (message : String) (offset : Option Int) : Diagnostic :=
  { code := problem.code, problem := problem, message := message, offset := offset,
    hints := problem.hints }

/-- The lines of a diagnostic: the message, then the place, then the hints. -/
def lines (d : Diagnostic) : List String :=
  (d.severity.label ++ "[" ++ d.code ++ "]: " ++ d.message)
    :: ((d.offset.map fun n => "  --> at position " ++ toString n).toList
      ++ d.hints.map ("    = hint: " ++ ·))

/-- A diagnostic as it is shown. -/
def format (d : Diagnostic) : String :=
  "\n".intercalate d.lines

end Diagnostic
end BracketCall
