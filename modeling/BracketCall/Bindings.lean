import BracketCall.Dictionary
import BracketCall.Value.Dynamic

/-!
# Bindings

One flat name space of native functions and variables.

Functions are keyed by name; a later one takes the place of an earlier one.  What a function does is
given by a code of type `κ`, which the host interprets.

Variables are records.  A record is known by its number, keeps its identity when it is renamed, and
can be registered once.  It is filed under the name that it has at that moment.  Distinct records may
share a name, and a look-up finds the one that was registered first.  The table holds every record
that the host made, also those that are not registered.

An operation that may be refused gives its result and the table after it, in both cases.
-/

namespace BracketCall

/-- A variable: its current name and its value. -/
structure Record where
  name : String
  value : Dynamic

/-- The number of a record, in the order in which records were made. -/
abbrev RecordId := Nat

structure Bindings (κ : Type) where
  functions : List (String × κ) := []
  records : List Record := []
  /-- The registered records, by the name under which each one is filed. -/
  filed : List (String × List RecordId) := []

namespace Bindings

variable {κ : Type}

/-! ## Functions -/

/-- Registers a function, in place of any with the same name. -/
def putFunction (b : Bindings κ) (name : String) (code : κ) : Bindings κ :=
  { b with functions := Dictionary.set name code b.functions }

/-- The function with a name. -/
def function? (b : Bindings κ) (name : String) : Option κ :=
  Dictionary.get? name b.functions

/-- The names of the functions, in the order of their first registration. -/
def functionNames (b : Bindings κ) : List String :=
  Dictionary.keys b.functions

/-! ## Records -/

/-- Makes a record that is not registered, and gives its number. -/
def newRecord (b : Bindings κ) (name : String) (value : Dynamic) : RecordId × Bindings κ :=
  (b.records.length, { b with records := b.records ++ [{ name := name, value := value }] })

/-- The record with a number. -/
def record? (b : Bindings κ) (id : RecordId) : Option Record :=
  b.records[id]?

/-- Changes a record in place. -/
def modifyRecord (b : Bindings κ) (id : RecordId) (f : Record → Record) : Bindings κ :=
  { b with records := b.records.modify id f }

/-- Gives a record another name.  Where it is filed does not change. -/
def rename (b : Bindings κ) (id : RecordId) (name : String) : Bindings κ :=
  b.modifyRecord id fun r => { r with name := name }

/-- Gives a record another value. -/
def assign (b : Bindings κ) (id : RecordId) (value : Dynamic) : Bindings κ :=
  b.modifyRecord id fun r => { r with value := value }

/-! ## Variables -/

/-- Whether a record is registered, under whatever name. -/
def isRegistered (b : Bindings κ) (id : RecordId) : Bool :=
  b.filed.any fun entry => entry.2.contains id

/-- Files a record at the end of the records of a name. -/
def file (name : String) (id : RecordId) :
    List (String × List RecordId) → List (String × List RecordId)
  | [] => [(name, [id])]
  | (n, ids) :: rest =>
      if n == name then (n, ids ++ [id]) :: rest else (n, ids) :: file name id rest

/-- The current name of a record. -/
def nameOf (b : Bindings κ) (id : RecordId) : String :=
  ((b.record? id).map Record.name).getD ""

/-- Registers a record under its current name. -/
def putVariable (b : Bindings κ) (id : RecordId) : Except Fault Unit × Bindings κ :=
  if b.isRegistered id then (.error (.duplicateVariable (b.nameOf id)), b)
  else (.ok (), { b with filed := file (b.nameOf id) id b.filed })

/-- Makes a record for a value and registers it. -/
def defineVariable (b : Bindings κ) (name : String) (value : Value) :
    Except Fault RecordId × Bindings κ :=
  let (id, b') := b.newRecord name (Dynamic.wrap value)
  let (result, b'') := b'.putVariable id
  (result.map fun () => id, b'')

/-- Gives a registered record another value; the value `none` leaves it as it is. -/
def updateVariable (b : Bindings κ) (id : RecordId) (value : Value) :
    Except Fault Unit × Bindings κ :=
  if b.isRegistered id then
    match value with
    | .none => (.ok (), b)
    | v => (.ok (), b.assign id (Dynamic.wrap v))
  else (.error (.unknownVariable (b.nameOf id)), b)

/-- The record that was registered first under a name. -/
def recordNamed? (b : Bindings κ) (name : String) : Option RecordId :=
  (Dictionary.get? name b.filed).bind List.head?

/-- The value of the record that was registered first under a name. -/
def value? (b : Bindings κ) (name : String) : Option Dynamic :=
  ((b.recordNamed? name).bind b.record?).map Record.value

/-- The names under which variables were registered, in the order of their first registration. -/
def variableNames (b : Bindings κ) : List String :=
  Dictionary.keys b.filed

/-! ## Filing -/

/-- To file a record is to set its name to the records that are filed there and this one. -/
theorem file_eq_set (name : String) (id : RecordId) (filed : List (String × List RecordId)) :
    file name id filed =
      Dictionary.set name ((Dictionary.get? name filed).getD [] ++ [id]) filed := by
  simp only [Dictionary.set, Dictionary.get?]
  induction filed with
  | nil => rfl
  | cons entry filed ih =>
      obtain ⟨first, ids⟩ := entry
      by_cases hfirst : first = name
      · simp [file, Dictionary.setBy, Dictionary.getBy?, hfirst]
      · simp [file, Dictionary.setBy, Dictionary.getBy?, hfirst, ih]

/-- The record that is filed first under a name. -/
theorem first_file (name n : String) (id : RecordId) (filed : List (String × List RecordId)) :
    (Dictionary.get? n (file name id filed)).bind List.head? =
      ((Dictionary.get? n filed).bind List.head?).or (if name == n then some id else none) := by
  rw [file_eq_set, Dictionary.get?_set]
  by_cases hn : name = n
  · subst hn
    cases Dictionary.get? name filed with
    | none => simp
    | some ids => simp [List.head?_append]
  · simp [hn]

/-- Filing a record adds it to the filed records, wherever it is put. -/
theorem ids_file (name : String) (id : RecordId) (filed : List (String × List RecordId)) :
    ((file name id filed).flatMap Prod.snd).Perm (filed.flatMap Prod.snd ++ [id]) := by
  induction filed with
  | nil => exact List.Perm.refl _
  | cons entry filed ih =>
      obtain ⟨first, ids⟩ := entry
      by_cases hfirst : first = name
      · simp only [file, hfirst, beq_self_eq_true, if_true, List.flatMap_cons, List.append_assoc]
        exact List.perm_append_comm.append_left ids
      · simp only [file, beq_iff_eq, hfirst, if_false, List.flatMap_cons, List.append_assoc]
        exact ih.append_left ids

theorem value?_eq_some_iff {b : Bindings κ} {name : String} {v : Dynamic} :
    b.value? name = some v ↔
      ∃ id r, b.recordNamed? name = some id ∧ b.record? id = some r ∧ r.value = v := by
  simp only [value?, Option.map_eq_some_iff, Option.bind_eq_some_iff]
  constructor
  · rintro ⟨r, ⟨id, hid, hr⟩, hv⟩
    exact ⟨id, r, hid, hr, hv⟩
  · rintro ⟨id, r, hid, hr, hv⟩
    exact ⟨r, ⟨id, hid, hr⟩, hv⟩

theorem isRegistered_iff (b : Bindings κ) (id : RecordId) :
    b.isRegistered id = true ↔ id ∈ b.filed.flatMap Prod.snd := by
  simp [isRegistered]

end Bindings
end BracketCall
