import BracketCall.Proofs.Refusals
import Mathlib.Data.List.Sort
import Mathlib.Data.String.Basic

/-!
# Checks of the fields of settings

A mapping gives settings if all of its names are fields and if every field has a value that fits it.
What a mapping with several faults is refused for is fixed: unknown names come first, all of them
together and sorted, and then the fields in the order of their checks.

The names of a mapping may stand in any order.  A field is found wherever it stands, since no name
stands twice.  Of the unknown names there is only one sorted row.

**Method.**  That a value fits is said of the entries and not of what is looked up, so it does not
depend on their order.  Each check has a lemma for the mappings that pass it and one for the others,
and the checks are put together once for each problem that can be the first one.

**Results.**
* `field?_eq_some_iff`: a field has the value of its entry.
* `checkNames_unknown`: how unknown names are reported.
* `ofEntries_perm`: the order of the entries does not count.
* `exists_of_acceptable`, `FirstProblem.refused`: the checks one after the other.
* `ofEntries_exact`: which mappings give settings, which ones, and why the others do not.
-/

namespace BracketCall

/-! ## Levels -/

namespace Level

theorem mem_all (level : Level) : level ∈ all := by
  cases level <;> decide

theorem label_injective {a b : Level} (h : a.label = b.label) : a = b := by
  cases a <;> cases b <;> first | rfl | exact absurd h (by decide)

theorem ofName?_eq_some_iff {name : String} {level : Level} :
    ofName? name = some level ↔ level.label = Text.upper name := by
  constructor
  · intro h
    rw [ofName?] at h
    simpa using List.find?_some h
  · intro h
    cases hfound : ofName? name with
    | none =>
        rw [ofName?, List.find?_eq_none] at hfound
        simpa [h] using hfound level level.mem_all
    | some other =>
        rw [ofName?] at hfound
        have hother : other.label = Text.upper name := by simpa using List.find?_some hfound
        rw [label_injective (hother.trans h.symm)]

end Level

namespace Settings

/-! ## Mappings -/

/-- The names of a mapping are texts, and none stands twice. -/
structure TextMapping (data : List (Value × Value)) : Prop where
  texts : TextKeys data
  distinct : (Dictionary.keys data).Nodup

theorem TextMapping.tail {entry : Value × Value} {data : List (Value × Value)}
    (h : TextMapping (entry :: data)) : TextMapping data :=
  ⟨(List.forall_mem_cons.mp h.texts).2, (List.nodup_cons.mp h.distinct).2⟩

theorem TextMapping.perm {data data' : List (Value × Value)} (h : TextMapping data)
    (hperm : data.Perm data') : TextMapping data' := by
  have hkeys : (Dictionary.keys data).Perm (Dictionary.keys data') := hperm.map Prod.fst
  exact ⟨fun key hkey => h.texts key (hkeys.mem_iff.mpr hkey), hkeys.nodup_iff.mp h.distinct⟩

variable {data : List (Value × Value)}

/-- A field has the value of its entry. -/
theorem field?_eq_some_iff (h : TextMapping data) {name : String} {v : Value} :
    field? name data = some v ↔ (.text name, v) ∈ data := by
  induction data with
  | nil => simp [field?, Dictionary.getBy?]
  | cons entry data ih =>
      obtain ⟨⟨s, hs⟩, -⟩ := List.forall_mem_cons.mp h.texts
      obtain ⟨key, value⟩ := entry
      obtain rfl : key = .text s := hs
      have hnew : Value.text s ∉ Dictionary.keys data := (List.nodup_cons.mp h.distinct).1
      rw [field?, Dictionary.getBy?, Value.sameKey, List.mem_cons]
      by_cases hname : s = name
      · subst hname
        have hlater : (Value.text s, v) ∉ data := fun hmem => hnew (List.mem_map_of_mem hmem)
        simp [hlater, eq_comm]
      · have hfirst : (Value.text name, v) ≠ (Value.text s, value) := by
          rintro ⟨⟩
          exact hname rfl
        rw [if_neg (by simpa using hname), or_iff_right hfirst]
        exact ih h.tail

theorem field?_eq_none_iff (h : TextMapping data) {name : String} :
    field? name data = none ↔ .text name ∉ Dictionary.keys data := by
  simp [Option.eq_none_iff_forall_ne_some, field?_eq_some_iff h, Dictionary.keys]

theorem field?_perm (h : TextMapping data) {data' : List (Value × Value)} (hperm : data.Perm data')
    (name : String) : field? name data' = field? name data := by
  ext v
  rw [field?_eq_some_iff h, field?_eq_some_iff (h.perm hperm), hperm.mem_iff]

/-! ## Unknown names -/

/-- The unknown names of a mapping, in their order. -/
structure UnknownNames (data : List (Value × Value)) (names : List String) : Prop where
  sorted : names.Pairwise (· < ·)
  mem_iff : ∀ name, name ∈ names ↔ .text name ∈ Dictionary.keys data ∧ name ∉ fields

theorem UnknownNames.unique {names names' : List String} (h : UnknownNames data names)
    (h' : UnknownNames data names') : names = names' :=
  h.sorted.eq_of_mem_iff h'.sorted fun name => (h.mem_iff name).trans (h'.mem_iff name).symm

theorem UnknownNames.perm {data' : List (Value × Value)} {names : List String}
    (h : UnknownNames data names) (hperm : data.Perm data') : UnknownNames data' names := by
  have hkeys : (Dictionary.keys data).Perm (Dictionary.keys data') := hperm.map Prod.fst
  exact ⟨h.sorted, fun name => by rw [h.mem_iff, hkeys.mem_iff]⟩

/-- Sorting names that are all different. -/
theorem pairwise_lt_mergeSort {names : List String} (h : names.Nodup) :
    (names.mergeSort fun a b => decide (a ≤ b)).Pairwise (· < ·) := by
  have hsorted : (names.mergeSort fun a b => decide (a ≤ b)).Pairwise (· ≤ ·) := by
    refine (List.pairwise_mergeSort ?_ ?_ names).imp (by simp)
    · intro a b c hab hbc
      exact decide_eq_true ((of_decide_eq_true hab).trans (of_decide_eq_true hbc))
    · intro a b
      simpa using le_total a b
  have hnodup := (List.mergeSort_perm names fun a b => decide (a ≤ b)).nodup_iff.mpr h
  exact hsorted.imp₂ (fun _ _ hle hne => lt_of_le_of_ne hle hne) hnodup

/-- All unknown names are reported at once. -/
theorem checkNames_unknown (h : TextMapping data) :
    ∃ names, UnknownNames data names ∧
      checkNames data = if names = [] then .ok () else .error (.unknownFields names) := by
  have htexts : ∀ key ∈ (data.map Prod.fst).filter fun name => !isField name, ∃ s, key = .text s :=
    fun key hkey => h.texts key (List.mem_of_mem_filter hkey)
  obtain ⟨texts, hunknown, hall⟩ := mapM_textOf?_of_texts htexts
  -- No key stands twice, so no text does.
  have hnodup : texts.Nodup := by
    refine List.Nodup.of_map Value.text ?_
    rw [← hunknown]
    exact h.distinct.filter _
  have hmem : ∀ name, name ∈ texts ↔ .text name ∈ Dictionary.keys data ∧ name ∉ fields := by
    intro name
    have hmap : name ∈ texts ↔ Value.text name ∈ texts.map Value.text := by simp
    rw [hmap, ← hunknown, List.mem_filter]
    simp [isField, Dictionary.keys]
  refine ⟨texts.mergeSort fun a b => decide (a ≤ b), ⟨pairwise_lt_mergeSort hnodup, ?_⟩, ?_⟩
  · intro name
    rw [List.mem_mergeSort, hmem]
  · rw [hunknown] at hall
    rw [checkNames, hunknown]
    cases texts with
    | nil => simp
    | cons first others =>
        have hne : ((first :: others).mergeSort fun a b => decide (a ≤ b)) ≠ [] := by
          intro hnil
          have hperm := List.mergeSort_perm (first :: others) fun a b => decide (a ≤ b)
          rw [hnil, List.nil_perm] at hperm
          cases hperm
        rw [if_neg hne]
        rw [List.map_cons] at hall ⊢
        simp only [hall]

theorem checkNames_perm (h : TextMapping data) {data' : List (Value × Value)}
    (hperm : data.Perm data') : checkNames data' = checkNames data := by
  obtain ⟨names, hnames, hcheck⟩ := checkNames_unknown h
  obtain ⟨names', hnames', hcheck'⟩ := checkNames_unknown (h.perm hperm)
  rw [hcheck, hcheck', hnames'.unique (hnames.perm hperm)]

/-- The order of the entries does not count. -/
theorem ofEntries_perm (h : TextMapping data) {data' : List (Value × Value)}
    (hperm : data.Perm data') : ofEntries data' = ofEntries data := by
  simp only [ofEntries, readLiterals, readLevel, readVariables, checkNames_perm h hperm,
    field?_perm h hperm]

/-! ## Values of fields -/

/-- Whatever value a field has, it is of this sort. -/
def Fits (data : List (Value × Value)) (name : String) (P : Value → Prop) : Prop :=
  ∀ v, (.text name, v) ∈ data → P v

/-- A field has a value of this sort, or it is absent and something holds by default. -/
def Given (data : List (Value × Value)) (name : String) (P : Value → Prop) (byDefault : Prop) :
    Prop :=
  (∃ v, (.text name, v) ∈ data ∧ P v) ∨ .text name ∉ Dictionary.keys data ∧ byDefault

theorem field?_of_not_fits (h : TextMapping data) {name : String} {P : Value → Prop}
    (hfits : ¬ Fits data name P) : ∃ v, field? name data = some v ∧ ¬ P v := by
  simpa [Fits, field?_eq_some_iff h] using hfits

/-- A truth value. -/
def IsTruthValue (v : Value) : Prop :=
  ∃ b, v = .bool b

/-- The text of a value, in capitals, is the name of a level. -/
def NamesLevel (v : Value) : Prop :=
  ∃ name level, v.plain = .ok name ∧ Level.label level = Text.upper name

/-- A mapping, or a value that counts as none. -/
def HoldsVariables (v : Value) : Prop :=
  v.isTruthy = false ∨ ∃ entries, v = .mapping entries

/-- The variables that a value stands for: the entries of a mapping by the texts of their keys, set
one after the other, or none. -/
def GivesVariables (assigned : List (String × Value)) (v : Value) : Prop :=
  (v.isTruthy = false ∧ assigned = []) ∨
    ∃ entries row, v = .mapping entries ∧ entries.map named = row.map .ok ∧ assigned = setAll row

/-- The values of which texts are needed have some. -/
structure Legible (data : List (Value × Value)) : Prop where
  level : Fits data "log_level" fun v => ∃ name, v.plain = .ok name
  assigned : Fits data "variables" fun v =>
    ∀ entries, v = .mapping entries → ∀ key ∈ Dictionary.keys entries, ∃ name, key.plain = .ok name

theorem readLiterals_fit (h : TextMapping data) (hfits : Fits data "optimize" IsTruthValue) :
    ∃ b, readLiterals data = .ok b ∧ Given data "optimize" (· = .bool b) (b = true) := by
  rw [readLiterals]
  cases hfield : field? "optimize" data with
  | none => exact ⟨true, rfl, .inr ⟨(field?_eq_none_iff h).mp hfield, rfl⟩⟩
  | some v =>
      have hmem := (field?_eq_some_iff h).mp hfield
      obtain ⟨b, rfl⟩ := hfits v hmem
      exact ⟨b, rfl, .inl ⟨_, hmem, rfl⟩⟩

theorem readLiterals_unfit (h : TextMapping data) (hfits : ¬ Fits data "optimize" IsTruthValue) :
    readLiterals data = .error .literalsNotBool := by
  obtain ⟨v, hfield, hv⟩ := field?_of_not_fits h hfits
  rw [readLiterals, hfield]
  cases v with
  | bool b => exact absurd ⟨b, rfl⟩ hv
  | _ => rfl

theorem readLevel_fit (h : TextMapping data) (hfits : Fits data "log_level" NamesLevel) :
    ∃ level, readLevel data = .ok level ∧
      Given data "log_level" (fun v => ∃ name, v.plain = .ok name ∧ level.label = Text.upper name)
        (level = .warning) := by
  rw [readLevel]
  cases hfield : field? "log_level" data with
  | none => exact ⟨.warning, rfl, .inr ⟨(field?_eq_none_iff h).mp hfield, rfl⟩⟩
  | some v =>
      have hmem := (field?_eq_some_iff h).mp hfield
      obtain ⟨name, level, hname, hlevel⟩ := hfits v hmem
      simp only [hname, Level.ofName?_eq_some_iff.mpr hlevel]
      exact ⟨level, rfl, .inl ⟨v, hmem, name, hname, hlevel⟩⟩

theorem readLevel_unfit (h : TextMapping data) {v : Value} {name : String}
    (hmem : (.text "log_level", v) ∈ data) (hname : v.plain = .ok name)
    (hfits : ¬ Fits data "log_level" NamesLevel) :
    readLevel data = .error (.unknownLevel name) := by
  have hfield := (field?_eq_some_iff h).mpr hmem
  obtain ⟨v', hfield', hv'⟩ := field?_of_not_fits h hfits
  obtain rfl : v = v' := Option.some.inj (hfield.symm.trans hfield')
  have hnone : Level.ofName? name = none := by
    refine Option.eq_none_iff_forall_ne_some.mpr fun level hlevel => hv' ?_
    exact ⟨name, level, hname, Level.ofName?_eq_some_iff.mp hlevel⟩
  simp only [readLevel, hfield, hname, hnone]

theorem nameEntries_of_texts {entries : List (Value × Value)}
    (h : ∀ key ∈ Dictionary.keys entries, ∃ name, key.plain = .ok name) :
    ∃ row, nameEntries entries = .ok row := by
  induction entries with
  | nil => exact ⟨[], rfl⟩
  | cons entry entries ih =>
      obtain ⟨⟨name, hname⟩, hlater⟩ := List.forall_mem_cons.mp h
      obtain ⟨row, hrow⟩ := ih hlater
      obtain ⟨key, value⟩ := entry
      exact ⟨(name, value) :: row, by simp only [nameEntries, hname, hrow]; rfl⟩

theorem readVariables_fit (h : TextMapping data) (hlegible : Legible data)
    (hfits : Fits data "variables" HoldsVariables) :
    ∃ assigned, readVariables data = .ok assigned ∧
      Given data "variables" (GivesVariables assigned) (assigned = []) := by
  rw [readVariables]
  cases hfield : field? "variables" data with
  | none => exact ⟨[], rfl, .inr ⟨(field?_eq_none_iff h).mp hfield, rfl⟩⟩
  | some v =>
      have hmem := (field?_eq_some_iff h).mp hfield
      cases htruthy : v.isTruthy with
      | false => exact ⟨[], by simp [htruthy], .inl ⟨v, hmem, .inl ⟨htruthy, rfl⟩⟩⟩
      | true =>
          obtain ⟨entries, rfl⟩ : ∃ entries, v = .mapping entries :=
            (hfits v hmem).resolve_left (by simp [htruthy])
          obtain ⟨row, hrow⟩ := nameEntries_of_texts (hlegible.assigned _ hmem entries rfl)
          refine ⟨setAll row, ?_, .inl ⟨_, hmem, .inr ⟨entries, row, rfl, ?_, rfl⟩⟩⟩
          · simp only [htruthy, if_true, hrow]
            rfl
          · exact named_of_nameEntries hrow

theorem readVariables_unfit (h : TextMapping data)
    (hfits : ¬ Fits data "variables" HoldsVariables) :
    readVariables data = .error .variablesNotMapping := by
  obtain ⟨v, hfield, hv⟩ := field?_of_not_fits h hfits
  have htruthy : v.isTruthy = true := by
    by_contra hfalse
    exact hv (.inl (by simpa using hfalse))
  simp only [readVariables, hfield, htruthy, if_true]
  cases v with
  | mapping entries => exact absurd (.inr ⟨entries, rfl⟩) hv
  | _ => rfl

/-! ## All checks -/

/-- Every name is a field. -/
def KnownFields (data : List (Value × Value)) : Prop :=
  ∀ key ∈ Dictionary.keys data, ∃ name ∈ fields, key = .text name

/-- A mapping that gives settings. -/
structure Acceptable (data : List (Value × Value)) : Prop where
  known : KnownFields data
  literals : Fits data "optimize" IsTruthValue
  level : Fits data "log_level" NamesLevel
  assigned : Fits data "variables" HoldsVariables

/-- The settings that a mapping gives, field by field. -/
structure Gives (data : List (Value × Value)) (s : Settings) : Prop where
  literals : Given data "optimize" (· = .bool s.literals) (s.literals = true)
  level : Given data "log_level"
    (fun v => ∃ name, v.plain = .ok name ∧ s.level.label = Text.upper name) (s.level = .warning)
  assigned : Given data "variables" (GivesVariables s.assigned) (s.assigned = [])

/-- What is wrong with a mapping in the first place: there are unknown names, or the names are known
and a field does not fit, while all fields fit that are checked before it. -/
inductive FirstProblem (data : List (Value × Value)) : SettingsError → Prop
  | unknown {names : List String} (hnames : UnknownNames data names) (hsome : names ≠ []) :
      FirstProblem data (.unknownFields names)
  | literals (hknown : KnownFields data) (hliterals : ¬ Fits data "optimize" IsTruthValue) :
      FirstProblem data .literalsNotBool
  | level {v : Value} {name : String} (hknown : KnownFields data)
      (hliterals : Fits data "optimize" IsTruthValue) (hmem : (.text "log_level", v) ∈ data)
      (hname : v.plain = .ok name) (hlevel : ¬ Fits data "log_level" NamesLevel) :
      FirstProblem data (.unknownLevel name)
  | assigned (hknown : KnownFields data) (hliterals : Fits data "optimize" IsTruthValue)
      (hlevel : Fits data "log_level" NamesLevel)
      (hvariables : ¬ Fits data "variables" HoldsVariables) :
      FirstProblem data .variablesNotMapping

theorem knownFields_iff (h : TextMapping data) {names : List String}
    (hnames : UnknownNames data names) : KnownFields data ↔ names = [] := by
  constructor
  · intro hknown
    refine List.eq_nil_iff_forall_not_mem.mpr fun name hname => ?_
    obtain ⟨hmem, hnot⟩ := (hnames.mem_iff name).mp hname
    obtain ⟨_, hfield, ⟨⟩⟩ := hknown _ hmem
    exact hnot hfield
  · rintro rfl key hkey
    obtain ⟨name, rfl⟩ := h.texts key hkey
    by_contra hnot
    have hunknown : name ∉ fields := fun hfield => hnot ⟨name, hfield, rfl⟩
    exact List.not_mem_nil ((hnames.mem_iff name).mpr ⟨hkey, hunknown⟩)

theorem checkNames_known (h : TextMapping data) (hknown : KnownFields data) :
    checkNames data = .ok () := by
  obtain ⟨names, hnames, hcheck⟩ := checkNames_unknown h
  rw [hcheck, if_pos ((knownFields_iff h hnames).mp hknown)]

theorem exists_of_acceptable (h : TextMapping data) (hlegible : Legible data)
    (hdata : Acceptable data) : ∃ s, ofEntries data = .ok s ∧ Gives data s := by
  obtain ⟨b, hb, hliterals⟩ := readLiterals_fit h hdata.literals
  obtain ⟨level, hlevel, hgiven⟩ := readLevel_fit h hdata.level
  obtain ⟨assigned, hassigned, hvariables⟩ := readVariables_fit h hlegible hdata.assigned
  refine ⟨⟨b, level, assigned⟩, ?_, hliterals, hgiven, hvariables⟩
  rw [ofEntries, checkNames_known h hdata.known, hb, hlevel, hassigned]
  rfl

theorem firstProblem_of_not_acceptable (h : TextMapping data) (hlegible : Legible data)
    (hdata : ¬ Acceptable data) : ∃ e, FirstProblem data e := by
  by_cases hknown : KnownFields data
  · by_cases hliterals : Fits data "optimize" IsTruthValue
    · by_cases hlevel : Fits data "log_level" NamesLevel
      · have hvariables : ¬ Fits data "variables" HoldsVariables :=
          fun hvariables => hdata ⟨hknown, hliterals, hlevel, hvariables⟩
        exact ⟨_, .assigned hknown hliterals hlevel hvariables⟩
      · obtain ⟨v, hfield, -⟩ := field?_of_not_fits h hlevel
        have hmem := (field?_eq_some_iff h).mp hfield
        obtain ⟨name, hname⟩ := hlegible.level v hmem
        exact ⟨_, .level hknown hliterals hmem hname hlevel⟩
    · exact ⟨_, .literals hknown hliterals⟩
  · obtain ⟨names, hnames, -⟩ := checkNames_unknown h
    exact ⟨_, .unknown hnames ((knownFields_iff h hnames).not.mp hknown)⟩

theorem FirstProblem.refused (h : TextMapping data) {e : SettingsError} (he : FirstProblem data e) :
    ofEntries data = .error e := by
  cases he with
  | unknown hnames hsome =>
      obtain ⟨names', hnames', hcheck⟩ := checkNames_unknown h
      rw [← hnames.unique hnames', if_neg hsome] at hcheck
      rw [ofEntries, hcheck]
      rfl
  | literals hknown hliterals =>
      rw [ofEntries, checkNames_known h hknown, readLiterals_unfit h hliterals]
      rfl
  | level hknown hliterals hmem hname hlevel =>
      obtain ⟨b, hb, -⟩ := readLiterals_fit h hliterals
      rw [ofEntries, checkNames_known h hknown, hb, readLevel_unfit h hmem hname hlevel]
      rfl
  | assigned hknown hliterals hlevel hvariables =>
      obtain ⟨b, hb, -⟩ := readLiterals_fit h hliterals
      obtain ⟨level, hl, -⟩ := readLevel_fit h hlevel
      rw [ofEntries, checkNames_known h hknown, hb, hl, readVariables_unfit h hvariables]
      rfl

/-- **Which mappings give settings.**  Let the names of a mapping be texts, and let the values of
which texts are needed have some.  Then it gives settings exactly if all names are fields and the
three fields fit, and the settings have the values of the fields that are present and the defaults
of the others.  If it gives none, it is refused for its first problem.  Neither the settings nor the
error depends on the order of the entries. -/
theorem ofEntries_exact {data : List (Value × Value)} (h : TextMapping data)
    (hlegible : Legible data) :
    ((∃ s, ofEntries data = .ok s) ↔ Acceptable data) ∧
    (∀ s, ofEntries data = .ok s → Gives data s) ∧
    (∀ e, ofEntries data = .error e ↔ FirstProblem data e) ∧
    ∀ data', data.Perm data' → ofEntries data' = ofEntries data := by
  have hacceptable : ∀ s, ofEntries data = .ok s → Acceptable data := by
    intro s hs
    by_contra hdata
    obtain ⟨e, he⟩ := firstProblem_of_not_acceptable h hlegible hdata
    cases hs.symm.trans (he.refused h)
  refine ⟨⟨fun ⟨s, hs⟩ => hacceptable s hs, ?_⟩, ?_, ?_, fun data' hperm => ofEntries_perm h hperm⟩
  · intro hdata
    obtain ⟨s, hs, -⟩ := exists_of_acceptable h hlegible hdata
    exact ⟨s, hs⟩
  · intro s hs
    obtain ⟨s', hs', hgives⟩ := exists_of_acceptable h hlegible (hacceptable s hs)
    obtain rfl : s' = s := Except.ok.inj (hs'.symm.trans hs)
    exact hgives
  · refine fun e => ⟨fun hdata => ?_, FirstProblem.refused h⟩
    have hnot : ¬ Acceptable data := by
      intro hdata'
      obtain ⟨s, hs, -⟩ := exists_of_acceptable h hlegible hdata'
      cases hs.symm.trans hdata
    obtain ⟨e', he'⟩ := firstProblem_of_not_acceptable h hlegible hnot
    obtain rfl : e' = e := Except.error.inj ((he'.refused h).symm.trans hdata)
    exact he'

/-- A level may be named with a letter that has no dot.  Two unknown names are reported in their
order, and before a field that does not fit. -/
theorem ofEntries_exact_dotless :
    let data : List (Value × Value) :=
      [(.text "variables", .int 0), (.text "log_level", .text "ınfo")]
    let faulty : List (Value × Value) :=
      [(.text "b", .none), (.text "optimize", .int 1), (.text "a", .none)]
    (∃ s, ofEntries data.reverse = .ok s ∧ s.level = .info) ∧
    ∃ e, ofEntries faulty.reverse = .error e ∧ e.message = "unknown config field(s): a, b" := by
  intro data faulty
  have hdata : TextMapping data :=
    ⟨(TextKeys.nil.cons _ _).cons _ _, by simp [data, Dictionary.keys]⟩
  have hlegible : Legible data := by
    constructor
    · simp [Fits, data, Value.plain]
    · simp [Fits, data]
  have hfaulty : TextMapping faulty :=
    ⟨((TextKeys.nil.cons _ _).cons _ _).cons _ _, by simp [faulty, Dictionary.keys]⟩
  have hlegible' : Legible faulty := by
    constructor
    · simp [Fits, faulty]
    · simp [Fits, faulty]
  have hupper : Text.upper "ınfo" = "INFO" := by decide +kernel
  obtain ⟨hiff, hgives, -, hperm⟩ := ofEntries_exact hdata hlegible
  obtain ⟨-, -, hproblem, hperm'⟩ := ofEntries_exact hfaulty hlegible'
  constructor
  · have hacceptable : Acceptable data := by
      constructor
      · simp [KnownFields, data, Dictionary.keys, fields]
      · simp [Fits, data]
      · intro v hmem
        obtain rfl : v = .text "ınfo" := by simpa [data] using hmem
        exact ⟨"ınfo", .info, rfl, hupper.symm⟩
      · simp [Fits, data, HoldsVariables, Value.isTruthy]
    obtain ⟨s, hs⟩ := hiff.mpr hacceptable
    refine ⟨s, (hperm _ (List.reverse_perm data).symm).trans hs, ?_⟩
    rcases (hgives s hs).level with ⟨v, hmem, name, hname, hlevel⟩ | ⟨habsent, -⟩
    · obtain rfl : v = .text "ınfo" := by simpa [data] using hmem
      obtain rfl : "ınfo" = name := Except.ok.inj hname
      exact Level.label_injective (hlevel.trans hupper)
    · simp [data, Dictionary.keys] at habsent
  · refine ⟨.unknownFields ["a", "b"], ?_, rfl⟩
    rw [hperm' _ (List.reverse_perm faulty).symm, hproblem]
    refine .unknown ⟨by decide, ?_⟩ (by decide)
    intro name
    constructor
    · intro hname
      obtain rfl | rfl : name = "a" ∨ name = "b" := by simpa using hname
      · simp [faulty, Dictionary.keys, fields]
      · simp [faulty, Dictionary.keys, fields]
    · rintro ⟨hkey, hunknown⟩
      obtain rfl | rfl | rfl : name = "b" ∨ name = "optimize" ∨ name = "a" := by
        simpa [faulty, Dictionary.keys] using hkey
      · simp
      · exact absurd List.mem_cons_self hunknown
      · simp

end Settings
end BracketCall
