import BracketCall.Fault
import BracketCall.Number.Numeral
import BracketCall.Value

/-!
# Dynamic values

A dynamic value is data with a kind.  Natives receive their arguments in this form and read them
through typed accessors, each of which asks for one kind.

Literals of a program and results of natives are coerced: a text that spells a number becomes that
number.  Variables are only wrapped and keep the type that the host gave them.
-/

namespace BracketCall

/-- Why a native, or a run, gives no result. -/
inductive Failure where
  | fault (f : Fault)
  | host (e : HostError)
  /-- It never ends. -/
  | endless
deriving DecidableEq

namespace Number

/-- A number as a host value. -/
def toValue : Number → Value
  | int n => .int n
  | float d => .float d

end Number

namespace Value

/-- The kind that fits a value. -/
def kind : Value → Kind
  | bool _ => .boolean
  | int _ => .number
  | float _ => .number
  | text _ => .string
  | list _ => .array
  | tuple _ => .array
  | tree (.reference _) => .block
  | tree (.call _ _) => .block
  | none => .none
  | _ => .object

end Value

structure Dynamic where
  kind : Kind
  data : Value

namespace Dynamic

/-- A dynamic value as a host value. -/
def toValue (d : Dynamic) : Value :=
  .tagged d.kind d.data

/-- Wraps a value by its own kind; a tagged value keeps its tag, and a fixed row becomes a list. -/
def wrap : Value → Dynamic
  | .tagged kind data => ⟨kind, data⟩
  | .tuple items => ⟨.array, .list items⟩
  | v => ⟨v.kind, v⟩

/-- Wraps a value whose tag was taken off; a text that spells a number becomes that number. -/
def coerceData : Value → Dynamic
  | .text s =>
      match Numeral.read? s with
      | some n => ⟨.number, n.toValue⟩
      | none => ⟨.string, .text s⟩
  | v => wrap v

/-- Coerces a literal or the result of a native; a tag is taken off first. -/
def coerce : Value → Dynamic
  | .tagged _ data => coerceData data
  | v => coerceData v

theorem coerce_text_of_read? {s : String} {n : Number} (h : Numeral.read? s = some n) :
    coerce (.text s) = ⟨.number, n.toValue⟩ := by
  simp only [coerce, coerceData, h]

theorem coerce_text_of_none {s : String} (h : Numeral.read? s = none) :
    coerce (.text s) = ⟨.string, .text s⟩ := by
  simp only [coerce, coerceData, h]

/-! ## Making values of a kind -/

def ofString (v : Value) : Except HostError Dynamic :=
  v.plain.map fun s => ⟨.string, .text s⟩

def ofNumber (v : Value) : Dynamic :=
  ⟨.number, v⟩

def ofBoolean (v : Value) : Dynamic :=
  ⟨.boolean, .bool v.isTruthy⟩

def ofArray (v : Value) : Except HostError Dynamic :=
  v.elements.map fun items => ⟨.array, .list items⟩

def ofBlock (v : Value) : Dynamic :=
  ⟨.block, v⟩

/-- The value of a native that gives nothing. -/
def nothing : Dynamic :=
  ⟨.none, .none⟩

/-! ## Reading values -/

/-- The ways to read a dynamic value; all but the last ask for a kind. -/
inductive Accessor where
  | string
  | number
  | boolean
  | array
  | block
  | any
deriving DecidableEq

/-- The kind that an accessor asks for. -/
def Accessor.kind? : Accessor → Option Kind
  | string => some .string
  | number => some .number
  | boolean => some .boolean
  | array => some .array
  | block => some .block
  | any => none

/-- Refuses a value that is not of the expected kind. -/
def check (expected : Kind) (d : Dynamic) : Except Failure Unit :=
  if d.kind = expected then .ok () else .error (.fault (.kindMismatch expected d.kind))

/-- The data as a list of its elements. -/
def items (d : Dynamic) : Except Failure Value :=
  match d.data.elements with
  | .ok items => .ok (.list items)
  | .error e => .error (.host e)

/-- Reads a value through an accessor. -/
def read (a : Accessor) (d : Dynamic) : Except Failure Value :=
  match a with
  | .any => .ok d.data
  | .string => do
      d.check .string
      return d.data
  | .number => do
      d.check .number
      return d.data
  | .boolean => do
      d.check .boolean
      return d.data
  | .array => do
      d.check .array
      d.items
  | .block => do
      d.check .block
      return d.data

/-- A dynamic value as it is shown. -/
def display (d : Dynamic) : Except HostError String :=
  d.toValue.inline

end Dynamic
end BracketCall
