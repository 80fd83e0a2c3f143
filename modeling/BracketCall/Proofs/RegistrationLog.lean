import BracketCall.Bindings
import Mathlib.Data.List.Induction

/-!
# The bindings as a log

A host edits the bindings: it makes records, registers and updates them, renames them or assigns
their values behind the back of the table, and registers functions.  The history of such edits has
two logs that only grow.  One lists the registered records, each with the name that it had when it
was registered; the other lists the registered functions.

Everything that the table tells can be read off the logs.  A name finds its first record and its
last function, and a record is in the table exactly if it is in the log, whatever its name is now.

**Method.**  The records are filed as the log says, one entry after the other (`fileAll`), and so
are the functions (`setAll`).  This is kept by every edit (`step_kept`) and therefore by every run
(`run_kept`).  What the table tells is then a fact about `fileAll` and `setAll`, by induction from
the end of the log.

**Results.**
* `step_kept`, `run_kept`: the table is what the logs say.
* `run_refines`: what the operations of the table do, in terms of the logs.
-/

namespace BracketCall

variable {κ : Type}

/-! ## Edits -/

/-- What a host can do to the bindings. -/
inductive Edit (κ : Type) where
  | newRecord (name : String) (value : Dynamic)
  | putVariable (id : RecordId)
  | defineVariable (name : String) (value : Value)
  | updateVariable (id : RecordId) (value : Value)
  | putFunction (name : String) (code : κ)
  | rename (id : RecordId) (name : String)
  | assign (id : RecordId) (value : Dynamic)

namespace Edit

/-- Carries out an edit: its result, and the bindings after it.  A record that was not made cannot be
registered. -/
def perform (b : Bindings κ) : Edit κ → Except Fault Unit × Bindings κ
  | newRecord name value => (.ok (), (b.newRecord name value).2)
  | putVariable id =>
      if id < b.records.length then b.putVariable id
      else (.error (.unknownVariable (b.nameOf id)), b)
  | defineVariable name value =>
      let (result, b') := b.defineVariable name value
      (result.map fun _ => (), b')
  | updateVariable id value => b.updateVariable id value
  | putFunction name code => (.ok (), b.putFunction name code)
  | rename id name => (.ok (), b.rename id name)
  | assign id value => (.ok (), b.assign id value)

/-- The record that an edit registers, if it succeeds, with its name at this moment. -/
def registers (b : Bindings κ) : Edit κ → List (String × RecordId)
  | putVariable id => [(b.nameOf id, id)]
  | defineVariable name _ => [(name, b.records.length)]
  | _ => []

/-- The function that an edit registers. -/
def installs : Edit κ → List (String × κ)
  | putFunction name code => [(name, code)]
  | _ => []

/-- The bindings after an edit. -/
def apply (b : Bindings κ) (e : Edit κ) : Bindings κ :=
  (e.perform b).2

end Edit

/-- The bindings after some edits. -/
def Bindings.edit (b : Bindings κ) (edits : List (Edit κ)) : Bindings κ :=
  edits.foldl Edit.apply b

/-- Bindings with the registrations that led to them. -/
structure History (κ : Type) where
  bindings : Bindings κ := {}
  log : List (String × RecordId) := []
  functionLog : List (String × κ) := []

namespace History

/-- The history after an edit.  The logs note an edit that succeeds. -/
def step (h : History κ) (e : Edit κ) : History κ :=
  match e.perform h.bindings with
  | (.error _, b) => { h with bindings := b }
  | (.ok (), b) =>
      { bindings := b, log := h.log ++ e.registers h.bindings,
        functionLog := h.functionLog ++ e.installs }

def run (h : History κ) (edits : List (Edit κ)) : History κ :=
  edits.foldl step h

/-- The records that were registered. -/
def ids (h : History κ) : List RecordId :=
  h.log.map Prod.snd

end History

/-! ## Logs as tables -/

/-- The records of a log, filed one after the other. -/
def fileAll (log : List (String × RecordId)) : List (String × List RecordId) :=
  log.foldl (fun filed entry => Bindings.file entry.1 entry.2 filed) []

/-- The functions of a log, set one after the other. -/
def setAll (log : List (String × κ)) : List (String × κ) :=
  log.foldl (fun dict entry => Dictionary.set entry.1 entry.2 dict) []

theorem fileAll_concat (log : List (String × RecordId)) (entry : String × RecordId) :
    fileAll (log ++ [entry]) = Bindings.file entry.1 entry.2 (fileAll log) := by
  simp [fileAll]

theorem setAll_concat (log : List (String × κ)) (entry : String × κ) :
    setAll (log ++ [entry]) = Dictionary.set entry.1 entry.2 (setAll log) := by
  simp [setAll]

/-- Names without repetition, each where it stands first. -/
theorem eraseDups_concat (names : List String) (name : String) :
    (names ++ [name]).eraseDups =
      if name ∈ names.eraseDups then names.eraseDups else names.eraseDups ++ [name] := by
  simp only [List.eraseDups_append, List.mem_eraseDups]
  by_cases hmem : name ∈ names
  · simp [List.removeAll, hmem]
  · simp [List.removeAll, hmem, List.eraseDups_cons]

theorem keys_fileAll (log : List (String × RecordId)) :
    Dictionary.keys (fileAll log) = (log.map Prod.fst).eraseDups := by
  induction log using List.reverseRecOn with
  | nil => rfl
  | append_singleton log entry ih =>
      rw [fileAll_concat, Bindings.file_eq_set, Dictionary.keys_set, ih, List.map_append,
        List.map_singleton, eraseDups_concat]

theorem keys_setAll (log : List (String × κ)) :
    Dictionary.keys (setAll log) = (log.map Prod.fst).eraseDups := by
  induction log using List.reverseRecOn with
  | nil => rfl
  | append_singleton log entry ih =>
      rw [setAll_concat, Dictionary.keys_set, ih, List.map_append, List.map_singleton,
        eraseDups_concat]

/-- A name finds the first record of the log with this name. -/
theorem first_fileAll (log : List (String × RecordId)) (name : String) :
    (Dictionary.get? name (fileAll log)).bind List.head? =
      (log.find? fun entry => entry.1 == name).map Prod.snd := by
  induction log using List.reverseRecOn with
  | nil => rfl
  | append_singleton log entry ih =>
      rw [fileAll_concat, Bindings.first_file, ih, List.find?_append, Option.map_or]
      by_cases hname : entry.1 = name
      · simp [hname]
      · simp [hname]

/-- A name finds the last function of the log with this name. -/
theorem get?_setAll (log : List (String × κ)) (name : String) :
    Dictionary.get? name (setAll log) =
      (log.reverse.find? fun entry => entry.1 == name).map Prod.snd := by
  induction log using List.reverseRecOn with
  | nil => rfl
  | append_singleton log entry ih =>
      rw [setAll_concat, Dictionary.get?_set, ih, List.reverse_append]
      by_cases hname : entry.1 = name
      · simp [hname]
      · simp [hname]

/-- The filed records are those of the log. -/
theorem ids_fileAll (log : List (String × RecordId)) :
    ((fileAll log).flatMap Prod.snd).Perm (log.map Prod.snd) := by
  induction log using List.reverseRecOn with
  | nil => exact List.Perm.refl _
  | append_singleton log entry ih =>
      rw [fileAll_concat, List.map_append]
      exact (Bindings.ids_file _ _ _).trans (ih.append_right _)

/-! ## What an edit does -/

namespace Bindings

theorem nameOf_newRecord (b : Bindings κ) (name : String) (value : Dynamic) :
    (b.newRecord name value).2.nameOf b.records.length = name := by
  simp [newRecord, nameOf, record?]

theorem record?_newRecord {b : Bindings κ} {id : RecordId} {r : Record}
    (h : b.record? id = some r) (name : String) (value : Dynamic) :
    (b.newRecord name value).2.record? id = some r := by
  have hid : id < b.records.length := (List.getElem?_eq_some_iff.mp h).1
  exact (List.getElem?_append_left hid).trans h

/-- A new record is filed under the name that it is made with. -/
theorem defineVariable_eq (b : Bindings κ) (name : String) (value : Value) :
    b.defineVariable name value =
      if b.isRegistered b.records.length then
        (.error (.duplicateVariable name), (b.newRecord name (Dynamic.wrap value)).2)
      else
        (.ok b.records.length, { (b.newRecord name (Dynamic.wrap value)).2 with
          filed := file name b.records.length b.filed }) := by
  have hname := b.nameOf_newRecord name (Dynamic.wrap value)
  have hsame : (b.newRecord name (Dynamic.wrap value)).2.isRegistered b.records.length =
      b.isRegistered b.records.length := rfl
  have hdefine : b.defineVariable name value =
      let put := (b.newRecord name (Dynamic.wrap value)).2.putVariable b.records.length
      (put.1.map fun () => b.records.length, put.2) := rfl
  rw [hdefine, putVariable, hname, hsame]
  cases b.isRegistered b.records.length with
  | true => rfl
  | false => rfl

end Bindings

/-- An edit that succeeds registers a record, or registers a function, or leaves both tables. -/
theorem Edit.perform_cases {b b' : Bindings κ} {e : Edit κ} (h : e.perform b = (.ok (), b')) :
    (∃ name id, e.registers b = [(name, id)] ∧ e.installs = [] ∧ b.isRegistered id = false ∧
      id < b'.records.length ∧ b.records.length ≤ b'.records.length ∧
      b'.filed = Bindings.file name id b.filed ∧ b'.functions = b.functions) ∨
    (∃ name code, e.registers b = [] ∧ e.installs = [(name, code)] ∧ b' = b.putFunction name code) ∨
    (e.registers b = [] ∧ e.installs = [] ∧ b.records.length ≤ b'.records.length ∧
      b'.filed = b.filed ∧ b'.functions = b.functions) := by
  cases e with
  | newRecord name value =>
      cases h
      exact Or.inr (Or.inr ⟨rfl, rfl, by simp [Bindings.newRecord], rfl, rfl⟩)
  | putVariable id =>
      simp only [perform, Bindings.putVariable] at h
      split at h
      · next hmade =>
          split at h
          · cases h
          · next hfree =>
              cases h
              exact Or.inl ⟨_, id, rfl, rfl, by simpa using hfree, hmade, Nat.le_refl _, rfl, rfl⟩
      · cases h
  | defineVariable name value =>
      rw [perform, Bindings.defineVariable_eq] at h
      cases hfree : b.isRegistered b.records.length with
      | true =>
          rw [hfree] at h
          cases h
      | false =>
          rw [hfree] at h
          cases h
          refine Or.inl ⟨name, b.records.length, rfl, rfl, hfree, ?_, ?_, rfl, rfl⟩
          · simp [Bindings.newRecord]
          · simp [Bindings.newRecord]
  | updateVariable id value =>
      simp only [perform, Bindings.updateVariable] at h
      split at h
      · split at h
        · cases h
          exact Or.inr (Or.inr ⟨rfl, rfl, Nat.le_refl _, rfl, rfl⟩)
        · cases h
          exact Or.inr (Or.inr ⟨rfl, rfl, by simp [Bindings.assign, Bindings.modifyRecord], rfl, rfl⟩)
      · cases h
  | putFunction name code =>
      cases h
      exact Or.inr (Or.inl ⟨name, code, rfl, rfl, rfl⟩)
  | rename id name =>
      cases h
      exact Or.inr (Or.inr ⟨rfl, rfl, by simp [Bindings.rename, Bindings.modifyRecord], rfl, rfl⟩)
  | assign id value =>
      cases h
      exact Or.inr (Or.inr ⟨rfl, rfl, by simp [Bindings.assign, Bindings.modifyRecord], rfl, rfl⟩)

/-- An edit that is refused is refused before it changes anything.  Only a table in which the number of
a record to come is taken already would keep a record that it made and refused. -/
theorem Edit.perform_refused {b b' : Bindings κ} {e : Edit κ} {f : Fault}
    (h : e.perform b = (.error f, b')) :
    b' = b ∨
    ∃ name value, b.isRegistered b.records.length = true ∧ b' = (b.newRecord name value).2 := by
  cases e with
  | putVariable id =>
      simp only [perform, Bindings.putVariable] at h
      split at h
      · split at h
        · cases h
          exact .inl rfl
        · cases h
      · cases h
        exact .inl rfl
  | defineVariable name value =>
      rw [perform, Bindings.defineVariable_eq] at h
      cases hfree : b.isRegistered b.records.length with
      | true =>
          rw [hfree] at h
          cases h
          exact .inr ⟨name, Dynamic.wrap value, rfl, rfl⟩
      | false =>
          rw [hfree] at h
          cases h
  | updateVariable id value =>
      simp only [perform, Bindings.updateVariable] at h
      split at h
      · split at h
        · cases h
        · cases h
      · cases h
        exact .inl rfl
  | newRecord _ _ | putFunction _ _ | rename _ _ | assign _ _ => cases h

/-- An edit that is refused leaves both tables. -/
theorem Edit.tables_refused {b b' : Bindings κ} {e : Edit κ} {f : Fault}
    (h : e.perform b = (.error f, b')) : b'.filed = b.filed ∧ b'.functions = b.functions := by
  rcases perform_refused h with rfl | ⟨name, value, -, rfl⟩
  · exact ⟨rfl, rfl⟩
  · exact ⟨rfl, rfl⟩

namespace History

/-- The table is what the logs say, and every registered record was made and is logged once. -/
structure Kept (h : History κ) : Prop where
  filed : h.bindings.filed = fileAll h.log
  functions : h.bindings.functions = setAll h.functionLog
  once : h.ids.Nodup
  made : ∀ id ∈ h.ids, id < h.bindings.records.length

theorem Kept.isRegistered_iff {h : History κ} (hkept : h.Kept) (id : RecordId) :
    h.bindings.isRegistered id = true ↔ id ∈ h.ids := by
  rw [Bindings.isRegistered_iff, hkept.filed, (ids_fileAll h.log).mem_iff]
  rfl

theorem Kept.not_isRegistered_iff {h : History κ} (hkept : h.Kept) (id : RecordId) :
    h.bindings.isRegistered id = false ↔ id ∉ h.ids := by
  rw [← hkept.isRegistered_iff, Bool.not_eq_true]

/-- A record to come is not registered yet. -/
theorem Kept.next_free {h : History κ} (hkept : h.Kept) :
    h.bindings.isRegistered h.bindings.records.length = false :=
  (hkept.not_isRegistered_iff _).mpr fun hid => Nat.lt_irrefl _ (hkept.made _ hid)

/-- An edit that is refused leaves the table and the records as they are. -/
theorem Kept.refused {h : History κ} (hkept : h.Kept) {e : Edit κ} {f : Fault} {b : Bindings κ}
    (hf : e.perform h.bindings = (.error f, b)) : b = h.bindings := by
  rcases Edit.perform_refused hf with rfl | ⟨_, _, htaken, -⟩
  · rfl
  · rw [hkept.next_free] at htaken
    cases htaken

theorem kept_empty : ({} : History κ).Kept :=
  ⟨rfl, rfl, List.nodup_nil, nofun⟩

theorem step_kept {h : History κ} (hkept : h.Kept) (e : Edit κ) : (h.step e).Kept := by
  unfold step
  split
  · next f b hf =>
      rw [hkept.refused hf]
      exact hkept
  · next b hb =>
      rcases Edit.perform_cases hb with
        ⟨name, id, hregisters, hinstalls, hfree, hmade, hgrows, hfiled, hfunctions⟩ |
        ⟨name, code, hregisters, hinstalls, rfl⟩ |
        ⟨hregisters, hinstalls, hgrows, hfiled, hfunctions⟩
      · have hnew : id ∉ h.ids := by
          intro hid
          rw [(hkept.isRegistered_iff id).mpr hid] at hfree
          cases hfree
        refine ⟨?_, ?_, ?_, ?_⟩
        · rw [hregisters, fileAll_concat, hfiled, hkept.filed]
        · rw [hinstalls, List.append_nil, hfunctions, hkept.functions]
        · simp only [ids, hregisters, List.map_append, List.map_singleton]
          exact List.nodup_append.mpr ⟨hkept.once, by simp, by
            rintro a ha b hb rfl
            rw [List.mem_singleton] at hb
            exact hnew (hb ▸ ha)⟩
        · intro i hi
          simp only [ids, hregisters, List.map_append, List.map_singleton, List.mem_append,
            List.mem_singleton] at hi
          rcases hi with hi | rfl
          · exact Nat.lt_of_lt_of_le (hkept.made i hi) hgrows
          · exact hmade
      · refine ⟨?_, ?_, ?_, ?_⟩
        · rw [hregisters, List.append_nil]
          exact hkept.filed
        · rw [hinstalls, setAll_concat, ← hkept.functions]
          rfl
        · simpa only [ids, hregisters, List.append_nil] using hkept.once
        · intro i hi
          rw [hregisters, List.append_nil] at hi
          exact hkept.made i hi
      · refine ⟨?_, ?_, ?_, ?_⟩
        · rw [hregisters, List.append_nil, hfiled, hkept.filed]
        · rw [hinstalls, List.append_nil, hfunctions, hkept.functions]
        · simpa only [ids, hregisters, List.append_nil] using hkept.once
        · intro i hi
          rw [hregisters, List.append_nil] at hi
          exact Nat.lt_of_lt_of_le (hkept.made i hi) hgrows

theorem run_kept {h : History κ} (hkept : h.Kept) (edits : List (Edit κ)) : (h.run edits).Kept := by
  induction edits generalizing h with
  | nil => exact hkept
  | cons e edits ih => exact ih (step_kept hkept e)

theorem bindings_step (h : History κ) (e : Edit κ) :
    (h.step e).bindings = e.apply h.bindings := by
  rw [step, Edit.apply]
  split
  · next hf => rw [hf]
  · next hb => rw [hb]

/-- What edits do to the bindings does not depend on how these came about. -/
theorem bindings_run (h : History κ) (edits : List (Edit κ)) :
    (h.run edits).bindings = h.bindings.edit edits := by
  induction edits generalizing h with
  | nil => rfl
  | cons e edits ih =>
      have hstep := ih (h.step e)
      rw [bindings_step] at hstep
      exact hstep

/-- The logs only grow. -/
theorem log_step (h : History κ) (e : Edit κ) : h.log <+: (h.step e).log := by
  unfold step
  split
  · exact List.prefix_refl _
  · exact List.prefix_append _ _

theorem log_run (h : History κ) (edits : List (Edit κ)) :
    h.log <+: (h.run edits).log := by
  induction edits generalizing h with
  | nil => exact List.prefix_refl _
  | cons e edits ih => exact (log_step h e).trans (ih (h.step e))

/-! ## What the table tells -/

theorem Kept.recordNamed? {h : History κ} (hkept : h.Kept) (name : String) :
    h.bindings.recordNamed? name =
      (h.log.find? fun entry => entry.1 == name).map Prod.snd := by
  rw [Bindings.recordNamed?, hkept.filed, first_fileAll]

/-- A name that finds a record finds it ever after. -/
theorem Kept.recordNamed?_run {h : History κ} (hkept : h.Kept) {name : String} {id : RecordId}
    (hid : h.bindings.recordNamed? name = some id) (edits : List (Edit κ)) :
    (h.run edits).bindings.recordNamed? name = some id := by
  obtain ⟨later, hlater⟩ := h.log_run edits
  rw [hkept.recordNamed?] at hid
  rw [(run_kept hkept edits).recordNamed?, ← hlater, List.find?_append, Option.map_or, hid]
  rfl

theorem Kept.record? {h : History κ} (hkept : h.Kept) {id : RecordId} (hid : id ∈ h.ids) :
    ∃ r, h.bindings.record? id = some r :=
  ⟨_, List.getElem?_eq_getElem (hkept.made id hid)⟩

/-- The operations of the table, in terms of the logs. -/
structure Refines (h : History κ) : Prop where
  /-- No record is stored twice, under one name or under two. -/
  storedOnce : (h.bindings.filed.flatMap Prod.snd).Nodup
  putRaises : ∀ id,
    (∃ f, (h.bindings.putVariable id).1 = .error f ∧ f.diagnostic.code = "E301") ↔ id ∈ h.ids
  putSucceeds : ∀ id, (h.bindings.putVariable id).1 = .ok () ↔ id ∉ h.ids
  defineSucceeds : ∀ name value,
    (h.bindings.defineVariable name value).1 = .ok h.bindings.records.length
  updateRaises : ∀ id value,
    (∃ f, (h.bindings.updateVariable id value).1 = .error f ∧ f.diagnostic.code = "E302") ↔
      id ∉ h.ids
  /-- A value changes this record's value and nothing else. -/
  updateAssigns : ∀ id ∈ h.ids, ∀ value, value ≠ .none → ∃ r, h.bindings.record? id = some r ∧
    h.bindings.updateVariable id value = (.ok (), { h.bindings with
      records := h.bindings.records.set id { r with value := Dynamic.wrap value } })
  updateNothing : ∀ id ∈ h.ids, h.bindings.updateVariable id .none = (.ok (), h.bindings)
  /-- The table that a refused operation hands back is the one that it was given. -/
  raisingKeeps : ∀ (e : Edit κ) f, (e.perform h.bindings).1 = .error f →
    (e.perform h.bindings).2 = h.bindings ∧ h.step e = h
  /-- A name finds the record that was registered first under it, and finds it ever after. -/
  recordNamed : ∀ name, h.bindings.recordNamed? name =
    (h.log.find? fun entry => entry.1 == name).map Prod.snd
  recordForever : ∀ name id, h.bindings.recordNamed? name = some id →
    ∀ edits, (h.run edits).bindings.recordNamed? name = some id
  variableNames : h.bindings.variableNames = (h.log.map Prod.fst).eraseDups
  /-- A name finds the function that was registered last under it. -/
  functionNamed : ∀ name, h.bindings.function? name =
    (h.functionLog.reverse.find? fun entry => entry.1 == name).map Prod.snd
  functionNames : h.bindings.functionNames = (h.functionLog.map Prod.fst).eraseDups

theorem Kept.putRaises {h : History κ} (hkept : h.Kept) (id : RecordId) :
    (∃ f, (h.bindings.putVariable id).1 = .error f ∧ f.diagnostic.code = "E301") ↔
      id ∈ h.ids := by
  rw [← hkept.isRegistered_iff, Bindings.putVariable]
  cases h.bindings.isRegistered id with
  | true => exact ⟨fun _ => rfl, fun _ => ⟨_, rfl, rfl⟩⟩
  | false => simp

theorem Kept.putSucceeds {h : History κ} (hkept : h.Kept) (id : RecordId) :
    (h.bindings.putVariable id).1 = .ok () ↔ id ∉ h.ids := by
  rw [← hkept.not_isRegistered_iff, Bindings.putVariable]
  cases h.bindings.isRegistered id with
  | true => simp
  | false => simp

/-- A new record is made and filed under its name. -/
theorem Kept.defineVariable {h : History κ} (hkept : h.Kept) (name : String) (value : Value) :
    h.bindings.defineVariable name value =
      (.ok h.bindings.records.length, { (h.bindings.newRecord name (Dynamic.wrap value)).2 with
        filed := Bindings.file name h.bindings.records.length h.bindings.filed }) := by
  rw [Bindings.defineVariable_eq, hkept.next_free]
  rfl

theorem Kept.updateRaises {h : History κ} (hkept : h.Kept) (id : RecordId) (value : Value) :
    (∃ f, (h.bindings.updateVariable id value).1 = .error f ∧ f.diagnostic.code = "E302") ↔
      id ∉ h.ids := by
  rw [← hkept.not_isRegistered_iff]
  unfold Bindings.updateVariable
  cases h.bindings.isRegistered id with
  | true => cases value <;> simp
  | false => exact ⟨fun _ => rfl, fun _ => ⟨_, rfl, rfl⟩⟩

theorem Kept.updateAssigns {h : History κ} (hkept : h.Kept) {id : RecordId} (hid : id ∈ h.ids)
    {value : Value} (hvalue : value ≠ .none) :
    ∃ r, h.bindings.record? id = some r ∧
      h.bindings.updateVariable id value = (.ok (), { h.bindings with
        records := h.bindings.records.set id { r with value := Dynamic.wrap value } }) := by
  obtain ⟨r, hr⟩ := hkept.record? hid
  refine ⟨r, hr, ?_⟩
  have hassign : h.bindings.assign id (Dynamic.wrap value) = { h.bindings with
      records := h.bindings.records.set id { r with value := Dynamic.wrap value } } := by
    have : Inhabited Record := ⟨r⟩
    rw [Bindings.record?] at hr
    rw [Bindings.assign, Bindings.modifyRecord, List.modify_eq_set, hr]
    rfl
  unfold Bindings.updateVariable
  rw [(hkept.isRegistered_iff id).mpr hid, ← hassign]
  cases value with
  | none => exact absurd rfl hvalue
  | _ => rfl

theorem Kept.updateNothing {h : History κ} (hkept : h.Kept) {id : RecordId} (hid : id ∈ h.ids) :
    h.bindings.updateVariable id .none = (.ok (), h.bindings) := by
  unfold Bindings.updateVariable
  rw [(hkept.isRegistered_iff id).mpr hid]
  rfl

/-- A refused edit is as if it had not been tried. -/
theorem Kept.raisingKeeps {h : History κ} (hkept : h.Kept) {e : Edit κ} {f : Fault}
    (hf : (e.perform h.bindings).1 = .error f) :
    (e.perform h.bindings).2 = h.bindings ∧ h.step e = h := by
  have hperform : e.perform h.bindings = (.error f, (e.perform h.bindings).2) :=
    Prod.ext hf rfl
  have hsame := hkept.refused hperform
  refine ⟨hsame, ?_⟩
  rw [step, hperform, hsame]

theorem Kept.refines {h : History κ} (hkept : h.Kept) : h.Refines where
  storedOnce := by
    rw [hkept.filed]
    exact (ids_fileAll h.log).nodup_iff.mpr hkept.once
  putRaises := hkept.putRaises
  putSucceeds := hkept.putSucceeds
  defineSucceeds := by
    intro name value
    rw [hkept.defineVariable]
  updateRaises := hkept.updateRaises
  updateAssigns := fun _ hid _ hvalue => hkept.updateAssigns hid hvalue
  updateNothing := fun _ hid => hkept.updateNothing hid
  raisingKeeps := fun _ _ hf => hkept.raisingKeeps hf
  recordNamed := hkept.recordNamed?
  recordForever := fun _ _ hid edits => hkept.recordNamed?_run hid edits
  variableNames := by
    rw [Bindings.variableNames, hkept.filed, keys_fileAll]
  functionNamed := by
    intro name
    rw [Bindings.function?, hkept.functions, get?_setAll]
  functionNames := by
    rw [Bindings.functionNames, hkept.functions, keys_setAll]

/-- **The bindings refine their logs.**  After any edits of empty bindings, what every operation of
the table does and tells is told by the logs of the registrations. -/
theorem run_refines (edits : List (Edit κ)) : (({} : History κ).run edits).Refines :=
  (run_kept kept_empty edits).refines

end History
end BracketCall
