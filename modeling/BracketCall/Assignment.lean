import BracketCall.Number.LooseNumeral
import BracketCall.Value.Dynamic

/-!
# Assignments

`NAME=VALUE` gives a variable a value on the command line.  The name ends at the first `=`; blanks
around name and value do not count.  The value is a truth value if it reads `true` or `false` in any
mix of cases, else a number if it reads as one, and else a text, from which one pair of matching
quotes is taken off.
-/

namespace BracketCall
namespace Assignment

/-- A text without one pair of matching quotes around it. -/
def unquote (cs : List Char) : List Char :=
  match cs with
  | q :: c :: rest =>
      if (q = Text.doubleQuote ∨ q = Text.apostrophe) ∧ (c :: rest).getLast? = some q then
        (c :: rest).dropLast
      else cs
  | _ => cs

/-- The value that a text without blanks around it stands for. -/
def value (cs : List Char) : Value :=
  if LooseNumeral.isWord "true" cs then .bool true
  else if LooseNumeral.isWord "false" cs then .bool false
  else
    match LooseNumeral.read? cs with
    | some n => n.toValue
    | none => .text (String.ofList (unquote cs))

/-- The characters before and after the first `=`. -/
def split? : List Char → Option (List Char × List Char)
  | [] => none
  | c :: cs =>
      if c = '=' then some ([], cs) else (split? cs).map fun (name, rest) => (c :: name, rest)

/-- Reads an assignment. -/
def parse (text : String) : Except HostError (String × Value) :=
  match split? text.toList with
  | none => .error (.badAssignment text)
  | some (name, rest) =>
      if Text.trimChars name = [] then .error (.badAssignment text)
      else .ok (String.ofList (Text.trimChars name), value (Text.trimChars rest))

end Assignment
end BracketCall
