import BracketCall.Text.UpperCase
import BracketCall.Value

/-!
# Settings

A mapping with up to three fields sets up a run: `optimize` says whether literals are marked,
`log_level` how much is told about a run, and `variables` gives names to values.

**Checks.**  First all unknown fields are reported together, sorted; then the three fields are
checked in this order.  The result does not depend on the order of the fields.
-/

namespace BracketCall

/-- How much is told about a run. -/
inductive Level where
  | critical
  | fatal
  | error
  | warn
  | warning
  | info
  | debug
  | notset
deriving DecidableEq

namespace Level

def all : List Level :=
  [critical, fatal, error, warn, warning, info, debug, notset]

/-- The name of a level. -/
def label : Level → String
  | critical => "CRITICAL"
  | fatal => "FATAL"
  | error => "ERROR"
  | warn => "WARN"
  | warning => "WARNING"
  | info => "INFO"
  | debug => "DEBUG"
  | notset => "NOTSET"

/-- The level with a name, in any mix of cases. -/
def ofName? (name : String) : Option Level :=
  all.find? fun level => level.label == Text.upper name

/-- Whether the steps of a run are told. -/
def tellsSteps : Level → Bool
  | debug => true
  | notset => true
  | _ => false

end Level

structure Settings where
  literals : Bool := true
  level : Level := .warning
  /-- The variables, with the values that the host gives them. -/
  assigned : List (String × Value) := []

/-- Why a mapping gives no settings. -/
inductive SettingsError where
  /-- These fields are not known. -/
  | unknownFields (names : List String)
  /-- A field's name is a value of this type and not a text. -/
  | nameNotText (type : String)
  /-- Two names are of types that have no order. -/
  | namesNotComparable (left right : String)
  | literalsNotBool
  /-- No level has this name. -/
  | unknownLevel (name : String)
  | variablesNotMapping
  /-- A value has no text. -/
  | host (e : HostError)
deriving DecidableEq

namespace SettingsError

def message : SettingsError → String
  | unknownFields names => "unknown config field(s): " ++ ", ".intercalate names
  | nameNotText type => "sequence item 0: expected str instance, " ++ type ++ " found"
  | namesNotComparable left right =>
      "'<' not supported between instances of '" ++ left ++ "' and '" ++ right ++ "'"
  | literalsNotBool => "'optimize' must be true or false"
  | unknownLevel name => "unknown log level: " ++ name
  | variablesNotMapping => "'variables' must be a mapping of name to value"
  | host e => e.message

end SettingsError

namespace Settings

/-- The names of the fields. -/
def fields : List String :=
  ["optimize", "log_level", "variables"]

/-- Whether a value is the name of a field. -/
def isField : Value → Bool
  | .text s => fields.contains s
  | _ => false

/-- The text of a name that is a text. -/
def textOf? : Value → Option String
  | .text s => some s
  | _ => none

/-- Whether one number is less than another. -/
def isLess : Int ⊕ Double → Int ⊕ Double → Bool
  | .inl m, .inl n => m < n
  | .inl m, .inr (.finite s k e) =>
      let (num, den) := Double.scaled k 1 e
      m * den < numerator s num
  | .inr (.finite s k e), .inl n =>
      let (num, den) := Double.scaled k 1 e
      numerator s num < n * den
  | .inr (.finite s k e), .inr (.finite t l f) =>
      let (num, den) := Double.scaled k 1 e
      let (num', den') := Double.scaled l 1 f
      numerator s num * den' < numerator t num' * den
  | .inr (.infinite s), .inr (.infinite t) => s && !t
  | .inr (.infinite s), .inl _ => s
  | .inr (.infinite s), .inr (.finite _ _ _) => s
  | .inl _, .inr (.infinite t) => !t
  | .inr (.finite _ _ _), .inr (.infinite t) => !t
  | _, _ => false
where
  /-- A numerator with its sign. -/
  numerator (negative : Bool) (n : Nat) : Int := if negative then -(n : Int) else n

/-- Whether two names have an order: two numbers, two texts, two fixed rows, or two objects of a type
that has one. -/
def haveOrder : Value → Value → Bool
  | .text _, .text _ => true
  | .tuple _, .tuple _ => true
  | .object o _, .object p _ => o.typeName == p.typeName && o.isOrdered && p.isOrdered
  | v, w => v.number?.isSome && w.number?.isSome

/-- The first name in order, where only numbers are told apart. -/
def least (first : Value) : List Value → Value
  | [] => first
  | v :: vs =>
      match v.number?, first.number? with
      | some n, some m => least (if isLess n m then v else first) vs
      | _, _ => least first vs

/-- The error of unknown names that are not all texts: the first one in order is reported, or that
there is no order. -/
def strangeNames (first : Value) (others : List Value) : SettingsError :=
  match ((first :: others).zip others).find? fun (v, w) => !haveOrder v w with
  | some (v, w) => .namesNotComparable w.typeName v.typeName
  | none => .nameNotText (least first others).typeName

/-- Refuses a mapping with unknown fields. -/
def checkNames (data : List (Value × Value)) : Except SettingsError Unit :=
  match (data.map Prod.fst).filter fun name => !isField name with
  | [] => .ok ()
  | first :: others =>
      match (first :: others).mapM textOf? with
      | some names => .error (.unknownFields (names.mergeSort fun a b => decide (a ≤ b)))
      | none => .error (strangeNames first others)

/-- The value of a field. -/
def field? (name : String) (data : List (Value × Value)) : Option Value :=
  Dictionary.getBy? Value.sameKey (.text name) data

/-- Whether literals are marked. -/
def readLiterals (data : List (Value × Value)) : Except SettingsError Bool :=
  match field? "optimize" data with
  | none => .ok true
  | some (.bool b) => .ok b
  | some _ => .error .literalsNotBool

/-- How much is told. -/
def readLevel (data : List (Value × Value)) : Except SettingsError Level :=
  match field? "log_level" data with
  | none => .ok .warning
  | some v =>
      match v.plain with
      | .error e => .error (.host e)
      | .ok name =>
          match Level.ofName? name with
          | some level => .ok level
          | none => .error (.unknownLevel name)

/-- Entries with the texts of their keys; the last value of a text stands at its first place. -/
def nameEntries : List (Value × Value) → Except SettingsError (List (String × Value))
  | [] => .ok []
  | (k, v) :: entries =>
      match k.plain with
      | .error e => .error (.host e)
      | .ok name => (nameEntries entries).map fun rest => (name, v) :: rest

/-- The variables. -/
def readVariables (data : List (Value × Value)) : Except SettingsError (List (String × Value)) :=
  match field? "variables" data with
  | none => .ok []
  | some v =>
      if v.isTruthy then
        match v with
        | .mapping entries =>
            (nameEntries entries).map (Dictionary.ofEntriesBy fun a b => a == b)
        | _ => .error .variablesNotMapping
      else .ok []

/-- The settings that a mapping gives. -/
def ofEntries (data : List (Value × Value)) : Except SettingsError Settings := do
  checkNames data
  let literals ← readLiterals data
  let level ← readLevel data
  let assigned ← readVariables data
  return { literals := literals, level := level, assigned := assigned }

/-- Sets a variable, in place of one with the same name. -/
def setVariable (s : Settings) (name : String) (value : Value) : Settings :=
  { s with assigned := Dictionary.set name value s.assigned }

end Settings
end BracketCall
