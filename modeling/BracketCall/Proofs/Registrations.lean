import BracketCall.Proofs.RegistrationLog
import Mathlib.Data.List.Nodup

/-!
# Registrations and look-ups

A table is asked for the function of a name or for the value of a variable.  What a registration
does to the answers is told by `function?_apply` and `value?_apply`: a function takes the place of
an earlier one, and a variable only comes in where there was none.

**Results.**
* `function?_edit`, `value?_edit`: the answers after some registrations, by induction along them.  A
  name finds its last function and its first value.
* `agree_beside`: registrations beside some names do not change the answers to these.
* `agree_of_perm`: for registrations of distinct names the order does not matter.
-/

namespace BracketCall

variable {κ : Type}

/-! ## Names that are looked up -/

/-- A name that is looked up: that of a function for a call, or that of a variable. -/
inductive Lookup where
  | call (name : String)
  | reference (name : String)
deriving DecidableEq

namespace Bindings

/-- Two tables find the same under a name: the same function, or equal values, or both nothing. -/
def SameAt (b₁ b₂ : Bindings κ) : Lookup → Prop
  | .call name => b₁.function? name = b₂.function? name
  | .reference name => b₁.value? name = b₂.value? name

/-- Two tables find the same under some names. -/
def Agree (b₁ b₂ : Bindings κ) (names : List Lookup) : Prop :=
  ∀ x ∈ names, b₁.SameAt b₂ x

theorem SameAt.trans {b₁ b₂ b₃ : Bindings κ} {x : Lookup} (h₁ : b₁.SameAt b₂ x)
    (h₂ : b₂.SameAt b₃ x) : b₁.SameAt b₃ x := by
  cases x with
  | call name => exact Eq.trans h₁ h₂
  | reference name => exact Eq.trans h₁ h₂

theorem agree_append {b₁ b₂ : Bindings κ} {names later : List Lookup} :
    b₁.Agree b₂ (names ++ later) ↔ b₁.Agree b₂ names ∧ b₁.Agree b₂ later := by
  simp only [Agree, List.mem_append, or_imp, forall_and]

end Bindings

/-! ## What registrations do to the look-ups -/

namespace Edit

/-- The edit makes a record, registers one, or registers a function. -/
def Adds : Edit κ → Prop
  | newRecord _ _ | putVariable _ | defineVariable _ _ | putFunction _ _ => True
  | updateVariable _ _ | rename _ _ | assign _ _ => False

/-- The name that an edit registers.  A record that was not made cannot be registered. -/
def target? (b : Bindings κ) : Edit κ → Option Lookup
  | putVariable id => (b.record? id).map fun r => .reference r.name
  | defineVariable name _ => some (.reference name)
  | putFunction name _ => some (.call name)
  | _ => none

/-- The function that an edit registers under a name. -/
def function? (name : String) (e : Edit κ) : Option κ :=
  Dictionary.get? name e.installs

/-- The value that an edit brings to a name, if nothing is registered there yet. -/
def value? (b : Bindings κ) (name : String) : Edit κ → Option Dynamic
  | putVariable id =>
      if b.isRegistered id then none
      else (b.record? id).bind fun r => if r.name = name then some r.value else none
  | defineVariable n value => if n = name then some (Dynamic.wrap value) else none
  | _ => none

theorem adds_of_target? {b : Bindings κ} {e : Edit κ} (h : e.target? b ≠ none) : e.Adds := by
  cases e with
  | newRecord _ _ | putVariable _ | defineVariable _ _ | putFunction _ _ => exact trivial
  | updateVariable _ _ | rename _ _ | assign _ _ => exact absurd rfl h

theorem target?_of_function? {b : Bindings κ} {e : Edit κ} {name : String}
    (h : e.function? name ≠ none) : e.target? b = some (.call name) := by
  cases e with
  | putFunction n code =>
      by_cases hn : n = name
      · rw [target?, hn]
      · exact absurd (by simp [function?, installs, Dictionary.get?, Dictionary.getBy?, hn]) h
  | _ => exact absurd rfl h

theorem target?_of_value? {b : Bindings κ} {e : Edit κ} {name : String}
    (h : e.value? b name ≠ none) : e.target? b = some (.reference name) := by
  cases e with
  | putVariable id =>
      rw [value?] at h
      split at h
      · exact absurd rfl h
      · cases hr : b.record? id with
        | none => simp [hr] at h
        | some r =>
            by_cases hn : r.name = name
            · rw [target?, hr, ← hn]
              rfl
            · simp [hr, hn] at h
  | defineVariable n value =>
      by_cases hn : n = name
      · rw [target?, hn]
      · simp [value?, hn] at h
  | _ => exact absurd rfl h

/-- A function takes the place of an earlier one. -/
theorem function?_apply (b : Bindings κ) (e : Edit κ) (name : String) :
    (e.apply b).function? name = (e.function? name).or (b.function? name) := by
  rw [apply]
  rcases hb' : e.perform b with ⟨f | ⟨⟩, b'⟩
  · have hnone : e.function? name = none := by
      cases e with
      | putFunction n code => cases hb'
      | _ => rfl
    rw [hnone, Option.none_or, Bindings.function?, Bindings.function?, (tables_refused hb').2]
  · rcases perform_cases hb' with
      ⟨_, _, -, hinstalls, -, -, -, -, hfunctions⟩ | ⟨n, code, -, hinstalls, rfl⟩ |
      ⟨-, hinstalls, -, -, hfunctions⟩
    · rw [function?, hinstalls, Bindings.function?, hfunctions]
      rfl
    · rw [function?, hinstalls, Bindings.function?, Bindings.putFunction, Dictionary.get?_set]
      by_cases hn : n = name
      · simp [hn, Dictionary.get?, Dictionary.getBy?]
      · simp [hn, Dictionary.get?, Dictionary.getBy?, Bindings.function?]
    · rw [function?, hinstalls, Bindings.function?, hfunctions]
      rfl

/-- Records stay what they are when others are added. -/
theorem record?_apply {b : Bindings κ} {e : Edit κ} (he : e.Adds) {id : RecordId} {r : Record}
    (hr : b.record? id = some r) : (e.apply b).record? id = some r := by
  cases e with
  | newRecord name value => exact Bindings.record?_newRecord hr name value
  | putVariable i =>
      simp only [apply, perform, Bindings.putVariable]
      split_ifs <;> exact hr
  | defineVariable name value =>
      simp only [apply, perform, Bindings.defineVariable_eq]
      split_ifs <;> exact Bindings.record?_newRecord hr name (Dynamic.wrap value)
  | putFunction name code => exact hr
  | updateVariable _ _ | rename _ _ | assign _ _ => cases he

theorem target?_apply {b : Bindings κ} {e later : Edit κ} (he : e.Adds) {x : Lookup}
    (h : later.target? b = some x) : later.target? (e.apply b) = some x := by
  cases later with
  | putVariable id =>
      obtain ⟨r, hr, hx⟩ := Option.map_eq_some_iff.mp h
      rw [target?, record?_apply he hr, ← hx]
      rfl
  | _ => exact h

/-- A record is registered after an edit if it was before, or if the edit registers it. -/
theorem isRegistered_apply {b : Bindings κ} {e : Edit κ} {id : RecordId} :
    (b.isRegistered id = true → (e.apply b).isRegistered id = true) ∧
    ((e.apply b).isRegistered id = true →
      b.isRegistered id = true ∨ id ∈ (e.registers b).map Prod.snd) := by
  simp only [Bindings.isRegistered_iff, apply]
  rcases hb' : e.perform b with ⟨f | ⟨⟩, b'⟩
  · rw [(tables_refused hb').1]
    exact ⟨fun h => h, Or.inl⟩
  · rcases perform_cases hb' with
      ⟨name, i, hregisters, -, -, -, -, hfiled, -⟩ | ⟨_, _, -, -, rfl⟩ | ⟨-, -, -, hfiled, -⟩
    · rw [hfiled, (Bindings.ids_file name i b.filed).mem_iff, List.mem_append, hregisters]
      exact ⟨Or.inl, fun h => h⟩
    · exact ⟨fun h => h, Or.inl⟩
    · rw [hfiled]
      exact ⟨fun h => h, Or.inl⟩

end Edit

namespace Bindings

/-- A record that is filed comes in under its name if there is none yet. -/
theorem value?_file {b : Bindings κ} {id : RecordId} {r : Record} (hr : b.record? id = some r)
    {name : String} (hmade : ∀ i, b.recordNamed? name = some i → ∃ r, b.record? i = some r)
    (n : String) :
    Bindings.value? { b with filed := file n id b.filed } name =
      (b.value? name).or (if n = name then some r.value else none) := by
  have hfirst : Bindings.recordNamed? { b with filed := file n id b.filed } name =
      (b.recordNamed? name).or (if n == name then some id else none) :=
    first_file n name id b.filed
  have hrecord (i : RecordId) :
      Bindings.record? { b with filed := file n id b.filed } i = b.record? i := rfl
  cases hnamed : b.recordNamed? name with
  | some i =>
      obtain ⟨r', hr'⟩ := hmade i hnamed
      simp [Bindings.value?, hfirst, hnamed, hrecord, hr']
  | none =>
      by_cases hn : n = name
      · subst hn
        simp [Bindings.value?, hfirst, hnamed, hrecord, hr]
      · simp [Bindings.value?, hfirst, hnamed, hn]

end Bindings

namespace History.Kept

variable {h : History κ}

theorem record?_of_recordNamed? (hkept : h.Kept) {name : String} {id : RecordId}
    (hid : h.bindings.recordNamed? name = some id) : ∃ r, h.bindings.record? id = some r := by
  rw [hkept.recordNamed?] at hid
  obtain ⟨entry, hentry, rfl⟩ := Option.map_eq_some_iff.mp hid
  exact hkept.record? (List.mem_map_of_mem (List.mem_of_find?_eq_some hentry))

/-- A new variable is made and filed. -/
theorem apply_defineVariable (hkept : h.Kept) (name : String) (value : Value) :
    (Edit.defineVariable name value).apply h.bindings =
      { (h.bindings.newRecord name (Dynamic.wrap value)).2 with
        filed := Bindings.file name h.bindings.records.length h.bindings.filed } := by
  rw [Edit.apply, Edit.perform, hkept.defineVariable]

theorem value?_newRecord (hkept : h.Kept) (n : String) (value : Dynamic) (name : String) :
    (h.bindings.newRecord n value).2.value? name = h.bindings.value? name := by
  have hnamed : (h.bindings.newRecord n value).2.recordNamed? name =
      h.bindings.recordNamed? name := rfl
  simp only [Bindings.value?, hnamed]
  cases hid : h.bindings.recordNamed? name with
  | none => rfl
  | some id =>
      obtain ⟨r, hr⟩ := hkept.record?_of_recordNamed? hid
      simp only [Option.bind_some, hr, Bindings.record?_newRecord hr n value]

/-- A variable comes in only where there was none. -/
theorem value?_apply (hkept : h.Kept) {e : Edit κ} (he : e.Adds) (name : String) :
    (e.apply h.bindings).value? name =
      (h.bindings.value? name).or (e.value? h.bindings name) := by
  have hmade (i : RecordId) (hi : h.bindings.recordNamed? name = some i) :=
    hkept.record?_of_recordNamed? hi
  cases e with
  | newRecord n value =>
      simp only [Edit.value?, Option.or_none]
      exact hkept.value?_newRecord n value name
  | putVariable id =>
      simp only [Edit.apply, Edit.perform, Bindings.putVariable, Edit.value?]
      cases hr : h.bindings.record? id with
      | none =>
          have hid : ¬ id < h.bindings.records.length := by
            rw [Nat.not_lt]
            exact List.getElem?_eq_none_iff.mp hr
          simp [hid]
      | some r =>
          have hid : id < h.bindings.records.length := (List.getElem?_eq_some_iff.mp hr).1
          have hname : h.bindings.nameOf id = r.name := by simp [Bindings.nameOf, hr]
          simp only [hid, if_true, hname]
          cases h.bindings.isRegistered id with
          | true => simp
          | false => simpa using Bindings.value?_file hr hmade r.name
  | defineVariable n value =>
      have hrecord : (h.bindings.newRecord n (Dynamic.wrap value)).2.record?
          h.bindings.records.length = some ⟨n, Dynamic.wrap value⟩ := List.getElem?_concat_length
      rw [hkept.apply_defineVariable, Edit.value?,
        ← hkept.value?_newRecord n (Dynamic.wrap value) name]
      refine Bindings.value?_file hrecord ?_ n
      intro i hi
      obtain ⟨r, hr⟩ := hmade i hi
      exact ⟨r, Bindings.record?_newRecord hr n (Dynamic.wrap value)⟩
  | putFunction n code =>
      simp only [Edit.value?, Option.or_none]
      rfl
  | updateVariable _ _ | rename _ _ | assign _ _ => cases he

end History.Kept

/-! ## Registrations beside the footprint -/

namespace Edit

/-- The edit only adds: a name that is not among the names, or a further record under a name that
finds one already. -/
def Beside (names : List Lookup) (b : Bindings κ) (e : Edit κ) : Prop :=
  e.Adds ∧ ∀ x, e.target? b = some x →
    x ∉ names ∨ ∃ name v, x = .reference name ∧ b.value? name = some v

/-- Each of the edits only adds so, at the moment when it is made. -/
def BesideAll (names : List Lookup) : Bindings κ → List (Edit κ) → Prop
  | _, [] => True
  | b, e :: rest => e.Beside names b ∧ BesideAll names (e.apply b) rest

theorem Beside.agree {h : History κ} (hkept : h.Kept) {names : List Lookup} {e : Edit κ}
    (he : e.Beside names h.bindings) : h.bindings.Agree (e.apply h.bindings) names := by
  obtain ⟨hadds, hbeside⟩ := he
  intro x hx
  cases x with
  | call name =>
      -- A function of this name would be beside the names only if they lacked it.
      have hnone : e.function? name = none := by
        by_contra hsome
        rcases hbeside _ (target?_of_function? hsome) with hnot | ⟨_, _, hreference, -⟩
        · exact hnot hx
        · cases hreference
      rw [Bindings.SameAt, function?_apply, hnone, Option.none_or]
  | reference name =>
      rw [Bindings.SameAt, hkept.value?_apply hadds]
      cases hvalue : e.value? h.bindings name with
      | none => rw [Option.or_none]
      | some d =>
          have htarget : e.target? h.bindings = some (.reference name) :=
            target?_of_value? (by simp [hvalue])
          rcases hbeside _ htarget with hnot | ⟨n, v, hreference, hv⟩
          · exact absurd hx hnot
          · cases hreference
            rw [hv, Option.some_or]

/-- Registrations beside the names do not change what these find. -/
theorem agree_beside {h : History κ} (hkept : h.Kept) {names : List Lookup}
    {edits : List (Edit κ)} (hedits : BesideAll names h.bindings edits) :
    h.bindings.Agree (h.bindings.edit edits) names := by
  induction edits generalizing h with
  | nil =>
      intro x _
      cases x <;> rfl
  | cons e edits ih =>
      obtain ⟨hfirst, hrest⟩ := hedits
      rw [← History.bindings_step] at hrest
      have hlater := ih (History.step_kept hkept e) hrest
      rw [History.bindings_step] at hlater
      exact fun x hx => (hfirst.agree hkept x hx).trans (hlater x hx)

end Edit

/-! ## Registrations in any order -/

/-- What is found first does not depend on the order, if only one element gives anything. -/
theorem findSome?_eq_of_perm {α β : Type} {f : α → Option β} {l l' : List α} (hperm : l.Perm l')
    (hone : ∀ a ∈ l, ∀ a' ∈ l, f a ≠ none → f a' ≠ none → a = a') :
    l.findSome? f = l'.findSome? f := by
  cases hl : l.findSome? f with
  | none =>
      rw [List.findSome?_eq_none_iff] at hl
      exact (List.findSome?_eq_none_iff.mpr fun a ha => hl a (hperm.mem_iff.mpr ha)).symm
  | some v =>
      obtain ⟨a, ha, hv⟩ := List.exists_of_findSome?_eq_some hl
      cases hl' : l'.findSome? f with
      | none =>
          rw [List.findSome?_eq_none_iff] at hl'
          rw [hl' a (hperm.mem_iff.mp ha)] at hv
          cases hv
      | some v' =>
          obtain ⟨a', ha', hv'⟩ := List.exists_of_findSome?_eq_some hl'
          have haa' : a = a' := hone a ha a' (hperm.mem_iff.mpr ha') (by simp [hv]) (by simp [hv'])
          rw [← hv, ← hv', haa']

namespace Edit

/-- What a later edit brings to a name, if the first one brings nothing there. -/
theorem value?_of_apply {b : Bindings κ} {e later : Edit κ} {name : String}
    (he : e.Adds) (hnone : e.value? b name = none) (hlater : later.target? b ≠ none) :
    later.value? (e.apply b) name = later.value? b name := by
  cases later with
  | putVariable id =>
      cases hr : b.record? id with
      | none => exact absurd (by rw [target?, hr]; rfl) hlater
      | some r =>
          rw [value?, value?, record?_apply he hr, hr]
          by_cases hname : r.name = name
          · -- Only the registration of this very record would change whether it is registered.
            have hsame : (e.apply b).isRegistered id = b.isRegistered id := by
              rw [Bool.eq_iff_iff]
              refine ⟨fun hafter => ?_, isRegistered_apply.1⟩
              rcases isRegistered_apply.2 hafter with hbefore | hregisters
              · exact hbefore
              · cases e with
                | putVariable i =>
                    obtain rfl : id = i := by simpa [registers] using hregisters
                    by_contra hfree
                    simp [value?, hfree, hr, hname] at hnone
                | defineVariable n value =>
                    obtain rfl : id = b.records.length := by simpa [registers] using hregisters
                    exact absurd (List.getElem?_eq_some_iff.mp hr).1 (Nat.lt_irrefl _)
                | _ => cases hregisters
            rw [hsame]
          · simp [hname]
  | _ => rfl

theorem function?_edit (b : Bindings κ) (edits : List (Edit κ)) (name : String) :
    (b.edit edits).function? name =
      (edits.reverse.findSome? fun e => e.function? name).or (b.function? name) := by
  induction edits generalizing b with
  | nil => rfl
  | cons e edits ih =>
      have hrest : (b.edit (e :: edits)).function? name =
          ((e.apply b).edit edits).function? name := rfl
      rw [hrest, ih, function?_apply, List.reverse_cons, List.findSome?_append, Option.or_assoc]
      simp

theorem value?_edit {h : History κ} (hkept : h.Kept) {edits : List (Edit κ)}
    (htargets : ∀ e ∈ edits, e.target? h.bindings ≠ none) (name : String) :
    (h.bindings.edit edits).value? name =
      (h.bindings.value? name).or (edits.findSome? fun e => e.value? h.bindings name) := by
  induction edits generalizing h with
  | nil => simp [Bindings.edit]
  | cons e edits ih =>
      have hadds := adds_of_target? (htargets e List.mem_cons_self)
      have hlater (e' : Edit κ) (he' : e' ∈ edits) := htargets e' (List.mem_cons_of_mem e he')
      have hstep := ih (History.step_kept hkept e) (by
        intro e' he'
        obtain ⟨x, hx⟩ := Option.ne_none_iff_exists'.mp (hlater e' he')
        simp [History.bindings_step, target?_apply hadds hx])
      rw [History.bindings_step, hkept.value?_apply hadds, Option.or_assoc] at hstep
      have hrest : h.bindings.edit (e :: edits) = (e.apply h.bindings).edit edits := rfl
      rw [hrest, hstep, List.findSome?_cons]
      cases hvalue : e.value? h.bindings name with
      | some d => rw [Option.some_or]
      | none =>
          have hsame : (edits.findSome? fun e' => e'.value? (e.apply h.bindings) name) =
              edits.findSome? fun e' => e'.value? h.bindings name := by
            rw [← List.head?_filterMap, ← List.head?_filterMap]
            congr 1
            exact List.filterMap_congr fun e' he' => value?_of_apply hadds hvalue (hlater e' he')
          rw [hsame, Option.none_or]

/-- Registrations of distinct names give tables that find the same, in whatever order they are
made. -/
theorem agree_of_perm {h : History κ} (hkept : h.Kept) {edits edits' : List (Edit κ)}
    (hperm : edits.Perm edits') (htargets : ∀ e ∈ edits, e.target? h.bindings ≠ none)
    (hdistinct : (edits.map fun e => e.target? h.bindings).Nodup) (names : List Lookup) :
    (h.bindings.edit edits).Agree (h.bindings.edit edits') names := by
  have hinj := List.inj_on_of_nodup_map hdistinct
  intro x _
  cases x with
  | call name =>
      rw [Bindings.SameAt, function?_edit, function?_edit]
      congr 1
      have hreverse : edits.reverse.Perm edits'.reverse :=
        (List.reverse_perm edits).trans (hperm.trans (List.reverse_perm edits').symm)
      refine findSome?_eq_of_perm hreverse ?_
      intro e he e' he' hsome hsome'
      refine hinj (List.mem_reverse.mp he) (List.mem_reverse.mp he') ?_
      rw [target?_of_function? hsome, target?_of_function? hsome']
  | reference name =>
      rw [Bindings.SameAt, value?_edit hkept htargets,
        value?_edit hkept fun e he => htargets e (hperm.mem_iff.mpr he)]
      congr 1
      refine findSome?_eq_of_perm hperm ?_
      intro e he e' he' hsome hsome'
      refine hinj he he' ?_
      rw [target?_of_value? hsome, target?_of_value? hsome']

end Edit

end BracketCall
