import BracketCall.Dictionary
import BracketCall.HostError
import BracketCall.Number.Shortest
import BracketCall.Tree.Printer
import BracketCall.Value.Kind

/-!
# Host values

What a host hands to a run and gets back: plain data, rows and mappings of them, program trees, and
values that are already tagged with a kind.  The kind of a tagged value is taken at its word, even
if the data does not fit it.  Any other object, such as a date, bytes or a set, is known only by the
answers that it gives.

Mappings are rows of entries in insertion order.  Two keys count as one if they are equal as
numbers (a truth value is the number zero or one), as texts, as trees, as objects, or item by item.
-/

namespace BracketCall

/-- The answers of an object that is no data of the other forms.  It takes part in no arithmetic. -/
structure HostObject where
  typeName : String
  /-- The object as it is shown by itself; it has no text if an integer in it has too many digits. -/
  plain? : Option String
  /-- The object as it is shown inside another value. -/
  inline? : Option String
  isTruthy : Bool := true
  /-- Whether objects of this type have an order. -/
  isOrdered : Bool := false
deriving DecidableEq

inductive Value where
  | none
  | bool (b : Bool)
  | int (n : Int)
  | float (d : Double)
  | text (s : String)
  | list (items : List Value)
  | tuple (items : List Value)
  | mapping (entries : List (Value × Value))
  | tree (t : Tree)
  | tagged (kind : Kind) (data : Value)
  /-- Any other object, with its elements if it has some. -/
  | object (o : HostObject) (elements? : Option (List Value))

namespace Value

/-- The name of a value's type. -/
def typeName : Value → String
  | none => "NoneType"
  | bool _ => "bool"
  | int _ => "int"
  | float _ => "float"
  | text _ => "str"
  | list _ => "list"
  | tuple _ => "tuple"
  | mapping _ => "dict"
  | tree t => t.shape.label
  | tagged _ _ => "DynamicValue"
  | object o _ => o.typeName

/-- Whether a value counts as true. -/
def isTruthy : Value → Bool
  | none => false
  | bool b => b
  | int n => n != 0
  | float d => !d.isZero
  | text s => s != ""
  | list items => !items.isEmpty
  | tuple items => !items.isEmpty
  | mapping entries => !entries.isEmpty
  | tree _ => true
  | tagged _ _ => true
  | object o _ => o.isTruthy

/-- The elements of a value: a text has its characters, a mapping its keys. -/
def elements : Value → Except HostError (List Value)
  | text s => .ok (s.toList.map fun c => text (String.singleton c))
  | list items => .ok items
  | tuple items => .ok items
  | mapping entries => .ok (Dictionary.keys entries)
  | object _ (some items) => .ok items
  | v => .error (.notIterable v.typeName)

/-! ## Text -/

/-- An integer in decimal, if it is within the limit on digits. -/
def decimalText (n : Int) : Except HostError String :=
  if n.natAbs < Nat.pow 10 digitLimit then .ok (toString n) else .error .integerTooLong

/-- A text that is had unless an integer in it is too long. -/
def objectText : Option String → Except HostError String
  | some s => .ok s
  | Option.none => .error .integerTooLong

mutual

/-- A value as it is shown inside another one: texts are quoted. -/
def inline : Value → Except HostError String
  | none => .ok "None"
  | bool b => .ok (if b then "True" else "False")
  | int n => decimalText n
  | float d => .ok d.text
  | text s => .ok (Text.quoted s)
  | list items => do
      let shown ← inlineAll items
      return "[" ++ ", ".intercalate shown ++ "]"
  | tuple items => do
      let shown ← inlineAll items
      return Tree.parenthesised shown
  | mapping entries => do
      let shown ← inlineEntries entries
      return "\x7b" ++ ", ".intercalate shown ++ "\x7d"
  | tree t => .ok t.inline
  | tagged kind data => do
      let shown ← inline data
      return "DynamicValue(" ++ shown ++ ", " ++ kind.label ++ ")"
  | object o _ => objectText o.inline?

/-- Each value of a row, as it is shown inside the row. -/
def inlineAll : List Value → Except HostError (List String)
  | [] => .ok []
  | v :: vs => do
      let first ← inline v
      let others ← inlineAll vs
      return first :: others

/-- Each entry of a mapping, as it is shown inside the mapping. -/
def inlineEntries : List (Value × Value) → Except HostError (List String)
  | [] => .ok []
  | (k, v) :: entries => do
      let key ← inline k
      let value ← inline v
      let others ← inlineEntries entries
      return (key ++ ": " ++ value) :: others

end

/-- A value as it is shown by itself: a text is its own text. -/
def plain : Value → Except HostError String
  | text s => .ok s
  | object o _ => objectText o.plain?
  | v => v.inline

/-! ## Keys -/

/-- A number as it counts for a key: truth values are zero and one, and a double that is an integer
is that integer. -/
def keyNumber? : Value → Option (Int ⊕ Double)
  | bool b => some (.inl (if b then 1 else 0))
  | int n => some (.inl n)
  | float d =>
      match d.toInt? with
      | some n => some (.inl n)
      | Option.none => some (.inr d)
  | _ => Option.none

mutual

/-- Whether two values are the same key. -/
def sameKey : Value → Value → Bool
  | none, none => true
  | text s, text t => s == t
  | tree s, tree t => s == t
  | tuple xs, tuple ys => sameKeys xs ys
  | object o _, object p _ => o == p
  | a, b =>
      match keyNumber? a, keyNumber? b with
      | some (.inl m), some (.inl n) => m == n
      | some (.inr d), some (.inr e) => d.sameNumber e
      | _, _ => false

/-- Whether two rows of values are the same keys, one by one. -/
def sameKeys : List Value → List Value → Bool
  | [], [] => true
  | x :: xs, y :: ys => sameKey x y && sameKeys xs ys
  | _, _ => false

end

/-- The mapping of a row of entries: the last value of a key stands at the key's first place. -/
def ofEntries (entries : List (Value × Value)) : Value :=
  mapping (Dictionary.ofEntriesBy sameKey entries)

/-! ## Arithmetic -/

/-- A value that counts as a number. -/
def number? : Value → Option (Int ⊕ Double)
  | bool b => some (.inl (if b then 1 else 0))
  | int n => some (.inl n)
  | float d => some (.inr d)
  | _ => Option.none

/-- An integer as a double. -/
def toDouble (n : Int) : Except HostError Double :=
  match Double.ofInt? n with
  | some d => .ok d
  | Option.none => .error .integerTooLarge

/-- The sum of two numbers: exact for integers, and rounded as soon as one of them is a double. -/
def plus (left right : Value) : Except HostError Value :=
  match left.number?, right.number? with
  | some (.inl m), some (.inl n) => .ok (int (m + n))
  | some (.inl m), some (.inr e) => do
      let d ← toDouble m
      return float (d.add e)
  | some (.inr d), some (.inl n) => do
      let e ← toDouble n
      return float (d.add e)
  | some (.inr d), some (.inr e) => .ok (float (d.add e))
  | _, _ =>
      match left with
      | text _ => .error (.notConcatenable left.typeName right.typeName)
      | list _ => .error (.notConcatenable left.typeName right.typeName)
      | tuple _ => .error (.notConcatenable left.typeName right.typeName)
      | _ => .error (.unsupportedOperands .plus left.typeName right.typeName)

end Value
end BracketCall
