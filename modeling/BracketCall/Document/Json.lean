import BracketCall.Number.Numeral
import BracketCall.Text.CodePoint
import BracketCall.Value

/-!
# JSON documents

**Input.**  The text of a document.

**Dialect.**  RFC 8259 with `NaN`, `Infinity` and `-Infinity`.  A number without fraction and
exponent is an exact integer, within the limit on digits; every other number is a double.  If a key
is repeated, its last value stands at the key's first place.

**Algorithm.**  Recursive descent.  Every step takes a character, so the length of the text bounds
the recursion.
-/

namespace BracketCall
namespace Json

/-- Why a text is no document. -/
inductive Error where
  | malformed
  | numeralTooLong (digits : Nat)
deriving DecidableEq

/-- The blanks of JSON. -/
def isBlank (c : Char) : Bool :=
  c = ' ' || c = '\t' || c = '\n' || c = '\r'

def skipBlanks (cs : List Char) : List Char :=
  cs.dropWhile isBlank

/-- The text after a word that it begins with. -/
def after? (word : String) (cs : List Char) : Option (List Char) :=
  if word.toList.isPrefixOf cs then some (cs.drop word.length) else none

/-- Four hexadecimal digits. -/
def codeUnit? : List Char → Option (Nat × List Char)
  | a :: b :: c :: d :: rest =>
      (Numeral.digits? 16 [a, b, c, d]).map fun digits => (Numeral.digitsValue 16 digits, rest)
  | _ => none

/-- The character of an escape letter. -/
def escape? : Char → Option Char
  | '\x22' => some '\x22'
  | '\x5c' => some '\x5c'
  | '/' => some '/'
  | 'b' => some '\x08'
  | 'f' => some '\x0c'
  | 'n' => some '\n'
  | 'r' => some '\r'
  | 't' => some '\t'
  | _ => none

/-- The code points of the rest of a string, after its opening quote. -/
def stringTail : (fuel : Nat) → List Char → Except Error (List Nat × List Char)
  | 0, _ => .error .malformed
  | _, [] => .error .malformed
  | fuel + 1, c :: cs =>
      if c = Text.doubleQuote then .ok ([], cs)
      else if c.toNat < 0x20 then .error .malformed
      else if c = Text.backslash then
        match cs with
        | 'u' :: hex =>
            match codeUnit? hex with
            | none => .error .malformed
            | some (code, rest) => (stringTail fuel rest).map fun (s, r) => (code :: s, r)
        | letter :: rest =>
            match escape? letter with
            | none => .error .malformed
            | some e => (stringTail fuel rest).map fun (s, r) => (e.toNat :: s, r)
        | [] => .error .malformed
      else (stringTail fuel cs).map fun (s, r) => (c.toNat :: s, r)

/-- A string, after its opening quote. -/
def string (cs : List Char) : Except Error (String × List Char) :=
  (stringTail (cs.length + 1) cs).map fun (codes, rest) =>
    (String.ofList (Text.characters codes), rest)

/-- `-? (0 | [1-9] digit*) (. digit+)? ([eE] [+-]? digit+)?` -/
def number (cs : List Char) : Except Error (Value × List Char) :=
  let (negative, body) :=
    match cs with
    | '-' :: rest => (true, rest)
    | rest => (false, rest)
  let whole :=
    match body with
    | '0' :: _ => ['0']
    | _ => body.takeWhile Numeral.isDigit
  if whole = [] then .error .malformed
  else
    let rest := body.drop whole.length
    let (fraction, rest) :=
      match rest with
      | '.' :: more =>
          if more.takeWhile Numeral.isDigit = [] then ([], rest)
          else (more.takeWhile Numeral.isDigit, more.dropWhile Numeral.isDigit)
      | _ => ([], rest)
    let (power, rest) :=
      match rest with
      | e :: more =>
          if e = 'e' ∨ e = 'E' then
            let (sign, digits) := Numeral.takeSign more
            if digits.takeWhile Numeral.isDigit = [] then (none, rest)
            else
              (some (Numeral.signed sign (Numeral.decimalValue (digits.takeWhile Numeral.isDigit))),
                digits.dropWhile Numeral.isDigit)
          else (none, rest)
      | [] => (none, rest)
    if fraction = [] ∧ power = none then
      if digitLimit < whole.length then .error (.numeralTooLong whole.length)
      else .ok (.int (Numeral.signed negative (Numeral.decimalValue whole)), rest)
    else
      .ok (.float (Double.ofDecimal negative (Numeral.decimalValue (whole ++ fraction))
        (power.getD 0 - fraction.length)), rest)

/-- The words that stand for a value. -/
def words : List (String × Value) :=
  [("null", .none), ("true", .bool true), ("false", .bool false), ("NaN", .float .nan),
   ("Infinity", .float (.infinite false)), ("-Infinity", .float (.infinite true))]

mutual

/-- A value at the start of a text. -/
def value : (fuel : Nat) → List Char → Except Error (Value × List Char)
  | 0, _ => .error .malformed
  | fuel + 1, cs =>
      match cs with
      | '\x22' :: rest => (string rest).map fun (s, r) => (.text s, r)
      | '[' :: rest =>
          match skipBlanks rest with
          | ']' :: r => .ok (.list [], r)
          | start => (items fuel start).map fun (vs, r) => (.list vs, r)
      | '\x7b' :: rest =>
          match skipBlanks rest with
          | '\x7d' :: r => .ok (.mapping [], r)
          | start => (members fuel start).map fun (es, r) => (Value.ofEntries es, r)
      | _ =>
          match words.findSome? fun (word, v) => (after? word cs).map fun r => (v, r) with
          | some found => .ok found
          | none => number cs

/-- The values of an array up to its closing bracket, of which there is at least one. -/
def items : (fuel : Nat) → List Char → Except Error (List Value × List Char)
  | 0, _ => .error .malformed
  | fuel + 1, cs => do
      let (v, rest) ← value fuel cs
      match skipBlanks rest with
      | ',' :: more =>
          let (vs, r) ← items fuel (skipBlanks more)
          return (v :: vs, r)
      | ']' :: r => return ([v], r)
      | _ => .error .malformed

/-- The members of an object up to its closing brace, of which there is at least one. -/
def members : (fuel : Nat) → List Char → Except Error (List (Value × Value) × List Char)
  | 0, _ => .error .malformed
  | fuel + 1, cs =>
      match cs with
      | '\x22' :: start => do
          let (key, rest) ← string start
          match skipBlanks rest with
          | ':' :: rest => do
              let (v, rest) ← value fuel (skipBlanks rest)
              let entry : Value × Value := (.text key, v)
              match skipBlanks rest with
              | ',' :: more =>
                  let (es, r) ← members fuel (skipBlanks more)
                  return (entry :: es, r)
              | '\x7d' :: r => return ([entry], r)
              | _ => .error .malformed
          | _ => .error .malformed
      | _ => .error .malformed

end

/-- The value of a document.  A byte-order mark before it is not allowed. -/
def parse (cs : List Char) : Except Error Value :=
  match value (2 * cs.length + 2) (skipBlanks cs) with
  | .error e => .error e
  | .ok (v, rest) => if skipBlanks rest = [] then .ok v else .error .malformed

end Json
end BracketCall
