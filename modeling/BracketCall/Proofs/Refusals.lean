import BracketCall.Proofs.CommandEnd

/-!
# Refused settings

A mapping that gives no settings should be refused with an error that a command reports.  Each check
of a field does so, whatever value the field has: the text of a value can only fail on an integer
with too many digits, and that failure is such an error as well.  The check of the names does so if
all names are texts.  A name that is no text is never a field, and the report on unknown names cannot
be put together with it, so another error arises there, which nothing expects.

The keys of a JSON document are texts.  Those of a YAML document may be anything that its reader
makes of them: a plain `1`, `true` or `null` is no text, and a date is an object.

**Results.**
* `inline_failsOnly`: why a value has no text.
* `ofEntries_failsOnly`, `ofEntries_strange`: the errors of a mapping, by its keys.
* `textKeys_of_parse`: the keys of a JSON document.
* `perform_spares_iff`: when no error of the settings escapes from a run.
* `settings_refused`: which mappings and settings files are refused, and what escapes from a run.
-/

namespace BracketCall

/-- A computation fails with no other errors than these. -/
def FailsOnly {ε α : Type} (P : ε → Prop) (x : Except ε α) : Prop :=
  ∀ e, x = .error e → P e

namespace FailsOnly

variable {ε α β : Type} {P : ε → Prop}

theorem ok (a : α) : FailsOnly P (.ok a) :=
  nofun

theorem error {e : ε} (h : P e) : FailsOnly P (.error e : Except ε α) := by
  intro e' he'
  cases he'
  exact h

theorem bind {x : Except ε α} {f : α → Except ε β} (hx : FailsOnly P x)
    (hf : ∀ a, x = .ok a → FailsOnly P (f a)) : FailsOnly P (x >>= f) := by
  cases x with
  | error e => exact error (hx e rfl)
  | ok a => exact hf a rfl

theorem map {x : Except ε α} (hx : FailsOnly P x) (f : α → β) : FailsOnly P (x.map f) := by
  cases x with
  | error e => exact error (hx e rfl)
  | ok a => exact ok (f a)

end FailsOnly

/-! ## Texts of values -/

namespace Value

theorem decimalText_failsOnly (n : Int) : FailsOnly (· = .integerTooLong) (decimalText n) := by
  rw [decimalText]
  split
  · exact .ok _
  · exact .error rfl

theorem objectText_failsOnly (text? : Option String) :
    FailsOnly (· = .integerTooLong) (objectText text?) := by
  cases text? with
  | none => exact .error rfl
  | some s => exact .ok s

mutual

/-- A value has a text unless an integer in it is too long. -/
theorem inline_failsOnly : (v : Value) → FailsOnly (· = .integerTooLong) v.inline
  | none => .ok _
  | bool _ => .ok _
  | int n => decimalText_failsOnly n
  | float _ => .ok _
  | text _ => .ok _
  | list items => by
      rw [inline]
      exact (inlineAll_failsOnly items).bind fun _ _ => .ok _
  | tuple items => by
      rw [inline]
      exact (inlineAll_failsOnly items).bind fun _ _ => .ok _
  | mapping entries => by
      rw [inline]
      exact (inlineEntries_failsOnly entries).bind fun _ _ => .ok _
  | tree _ => .ok _
  | tagged _ data => by
      rw [inline]
      exact (inline_failsOnly data).bind fun _ _ => .ok _
  | object o _ => by
      rw [inline]
      exact objectText_failsOnly o.inline?

theorem inlineAll_failsOnly : (vs : List Value) → FailsOnly (· = .integerTooLong) (inlineAll vs)
  | [] => .ok _
  | v :: vs => by
      rw [inlineAll]
      exact (inline_failsOnly v).bind fun _ _ => (inlineAll_failsOnly vs).bind fun _ _ => .ok _

theorem inlineEntries_failsOnly :
    (entries : List (Value × Value)) → FailsOnly (· = .integerTooLong) (inlineEntries entries)
  | [] => .ok _
  | (k, v) :: entries => by
      rw [inlineEntries]
      exact (inline_failsOnly k).bind fun _ _ => (inline_failsOnly v).bind fun _ _ =>
        (inlineEntries_failsOnly entries).bind fun _ _ => .ok _

end

theorem plain_failsOnly (v : Value) : FailsOnly (· = .integerTooLong) v.plain := by
  cases v with
  | text s => exact .ok s
  | object o _ => exact objectText_failsOnly o.plain?
  | _ => exact inline_failsOnly _

end Value

/-! ## Names -/

/-- All keys of a mapping are texts. -/
def TextKeys (data : List (Value × Value)) : Prop :=
  ∀ key ∈ Dictionary.keys data, ∃ s, key = .text s

namespace TextKeys

theorem nil : TextKeys [] :=
  nofun

theorem cons {data : List (Value × Value)} (h : TextKeys data) (s : String) (value : Value) :
    TextKeys ((.text s, value) :: data) := by
  rw [TextKeys, Dictionary.keys_cons, List.forall_mem_cons]
  exact ⟨⟨s, rfl⟩, h⟩

end TextKeys

namespace SettingsError

/-- A mapping is refused for what it says. -/
inductive Refusal : SettingsError → Prop
  | unknownFields (names : List String) : Refusal (.unknownFields names)
  | literalsNotBool : Refusal .literalsNotBool
  | unknownLevel (name : String) : Refusal (.unknownLevel name)
  | variablesNotMapping : Refusal .variablesNotMapping
  | integerTooLong : Refusal (.host .integerTooLong)

/-- The unknown names of a mapping cannot be told. -/
inductive Strange : SettingsError → Prop
  | nameNotText (type : String) : Strange (.nameNotText type)
  | namesNotComparable (left right : String) : Strange (.namesNotComparable left right)

theorem Refusal.not_strange {e : SettingsError} (h : e.Refusal) : ¬ e.Strange := by
  rintro (_ | _)
  · cases h
  · cases h

theorem Refusal.isReported {e : SettingsError} (h : e.Refusal) :
    (SettingsFileError.content e).isReported = true := by
  cases h <;> rfl

theorem Strange.isReported {e : SettingsError} (h : e.Strange) :
    (SettingsFileError.content e).isReported = false := by
  cases h <;> rfl

end SettingsError

namespace Settings

open SettingsError

theorem mapM_textOf?_eq_none {names : List Value} {name : Value} (hmem : name ∈ names)
    (hname : textOf? name = none) : names.mapM textOf? = none := by
  induction names with
  | nil => cases hmem
  | cons first names ih =>
      rw [List.mapM_cons]
      rcases List.mem_cons.mp hmem with rfl | hmem
      · rw [hname]
        rfl
      · rw [ih hmem]
        cases textOf? first <;> rfl

theorem mapM_textOf?_of_texts {names : List Value} (h : ∀ name ∈ names, ∃ s, name = .text s) :
    ∃ texts, names = texts.map .text ∧ names.mapM textOf? = some texts := by
  induction names with
  | nil => exact ⟨[], rfl, rfl⟩
  | cons first names ih =>
      obtain ⟨s, rfl⟩ := h first List.mem_cons_self
      obtain ⟨texts, rfl, hall⟩ := ih fun name hname => h name (List.mem_cons_of_mem _ hname)
      exact ⟨s :: texts, rfl, by rw [List.mapM_cons, hall]; rfl⟩

theorem strangeNames_strange (first : Value) (others : List Value) :
    (strangeNames first others).Strange := by
  rw [strangeNames]
  split
  · exact .namesNotComparable _ _
  · exact .nameNotText _

/-- Names that are texts are told if they are unknown. -/
theorem checkNames_failsOnly {data : List (Value × Value)} (h : TextKeys data) :
    FailsOnly Refusal (checkNames data) := by
  rw [checkNames]
  split
  · exact .ok ()
  · next first others hunknown =>
      have htexts : ∀ name ∈ first :: others, ∃ s, name = .text s := by
        intro name hname
        rw [← hunknown] at hname
        exact h name (List.mem_of_mem_filter hname)
      obtain ⟨texts, -, hall⟩ := mapM_textOf?_of_texts htexts
      rw [hall]
      exact .error (.unknownFields _)

/-- A name that is no text is unknown and cannot be told. -/
theorem checkNames_strange {data : List (Value × Value)} (h : ¬ TextKeys data) :
    ∃ e, checkNames data = .error e ∧ e.Strange := by
  have hkey : ∃ key ∈ data.map Prod.fst, ∀ s, key ≠ .text s := by
    simpa [TextKeys, Dictionary.keys] using h
  obtain ⟨key, hmem, hkey⟩ := hkey
  have hnone : textOf? key = none := by
    cases key with
    | text s => exact absurd rfl (hkey s)
    | _ => rfl
  have hfield : isField key = false := by
    cases key with
    | text s => exact absurd rfl (hkey s)
    | _ => rfl
  have hunknown : key ∈ (data.map Prod.fst).filter fun name => !isField name :=
    List.mem_filter.mpr ⟨hmem, by rw [hfield]; rfl⟩
  rw [checkNames]
  split
  · next hnil =>
      rw [hnil] at hunknown
      cases hunknown
  · next first others hcons =>
      rw [hcons] at hunknown
      rw [mapM_textOf?_eq_none hunknown hnone]
      exact ⟨_, rfl, strangeNames_strange first others⟩

/-! ## Fields -/

theorem readLiterals_failsOnly (data : List (Value × Value)) :
    FailsOnly Refusal (readLiterals data) := by
  rw [readLiterals]
  split
  · exact .ok true
  · exact .ok _
  · exact .error .literalsNotBool

theorem readLevel_failsOnly (data : List (Value × Value)) :
    FailsOnly Refusal (readLevel data) := by
  rw [readLevel]
  split
  · exact .ok _
  · next v _ =>
      split
      · next e he =>
          rw [v.plain_failsOnly e he]
          exact .error .integerTooLong
      · split
        · exact .ok _
        · exact .error (.unknownLevel _)

theorem nameEntries_failsOnly (entries : List (Value × Value)) :
    FailsOnly Refusal (nameEntries entries) := by
  induction entries with
  | nil => exact .ok []
  | cons entry entries ih =>
      obtain ⟨k, v⟩ := entry
      rw [nameEntries]
      split
      · next e he =>
          rw [k.plain_failsOnly e he]
          exact .error .integerTooLong
      · exact ih.map _

theorem readVariables_failsOnly (data : List (Value × Value)) :
    FailsOnly Refusal (readVariables data) := by
  rw [readVariables]
  split
  · exact .ok []
  · split
    · split
      · exact (nameEntries_failsOnly _).map _
      · exact .error .variablesNotMapping
    · exact .ok []

theorem ofEntries_failsOnly {data : List (Value × Value)} (h : TextKeys data) :
    FailsOnly Refusal (ofEntries data) := by
  rw [ofEntries]
  exact (checkNames_failsOnly h).bind fun _ _ => (readLiterals_failsOnly data).bind fun _ _ =>
    (readLevel_failsOnly data).bind fun _ _ => (readVariables_failsOnly data).bind fun _ _ => .ok _

theorem ofEntries_strange {data : List (Value × Value)} (h : ¬ TextKeys data) :
    ∃ e, ofEntries data = .error e ∧ e.Strange := by
  obtain ⟨e, he, hstrange⟩ := checkNames_strange h
  refine ⟨e, ?_, hstrange⟩
  rw [ofEntries, he]
  rfl

theorem ofEntries_refused_iff (data : List (Value × Value)) :
    (∃ s, ofEntries data = .ok s) ∨ (∃ e, ofEntries data = .error e ∧ e.Refusal) ↔
      TextKeys data := by
  constructor
  · intro h
    by_contra hkeys
    obtain ⟨e, he, hstrange⟩ := ofEntries_strange hkeys
    rcases h with ⟨s, hs⟩ | ⟨e', he', hrefusal⟩
    · rw [hs] at he
      cases he
    · rw [he'] at he
      cases he
      exact hrefusal.not_strange hstrange
  · intro hkeys
    cases hdata : ofEntries data with
    | ok s => exact .inl ⟨s, rfl⟩
    | error e => exact .inr ⟨e, rfl, ofEntries_failsOnly hkeys e hdata⟩

end Settings

/-! ## Keys of JSON documents -/

namespace Dictionary

variable {α β : Type} {same : α → α → Bool}

theorem mem_keys_of_mem_setBy {k key : α} {value : β} {dict : List (α × β)}
    (h : k ∈ keys (setBy same key value dict)) : k ∈ keys dict ∨ k = key := by
  induction dict with
  | nil => exact .inr (List.mem_singleton.mp h)
  | cons entry dict ih =>
      obtain ⟨first, v⟩ := entry
      rw [setBy] at h
      split at h
      · exact .inl h
      · rw [keys_cons, List.mem_cons] at h ⊢
        rcases h with hfirst | h
        · exact .inl (.inl hfirst)
        · exact (ih h).imp_left .inr

theorem mem_keys_of_mem_ofEntriesBy {k : α} {entries : List (α × β)}
    (h : k ∈ keys (ofEntriesBy same entries)) : k ∈ keys entries := by
  rw [ofEntriesBy] at h
  induction entries using List.reverseRecOn with
  | nil => exact h
  | append_singleton entries entry ih =>
      rw [List.foldl_append] at h
      have hkeys : keys (entries ++ [entry]) = keys entries ++ [entry.1] := List.map_append
      rw [hkeys, List.mem_append, List.mem_singleton]
      exact (mem_keys_of_mem_setBy h).imp_left ih

end Dictionary

namespace Json

theorem textKeys_of_members {fuel : Nat} {cs rest : List Char} {entries : List (Value × Value)}
    (h : members fuel cs = .ok (entries, rest)) : TextKeys entries := by
  induction fuel generalizing cs entries with
  | zero => cases h
  | succ fuel ih =>
      unfold members at h
      split at h
      · simp only [bind, Except.bind] at h
        split at h
        · cases h
        · split at h
          · split at h
            · cases h
            -- After a key and its value there are more members, or the object ends.
            · split at h
              · split at h
                · cases h
                · next later hlater =>
                    cases h
                    exact (ih hlater).cons _ _
              · cases h
                exact TextKeys.nil.cons _ _
              · cases h
          · cases h
      · cases h

theorem number_ne_mapping (cs rest : List Char) (data : List (Value × Value)) :
    number cs ≠ .ok (.mapping data, rest) := by
  intro h
  unfold number at h
  simp only at h
  rcases ite_eq_iff.mp h with ⟨-, h⟩ | ⟨-, h⟩
  · cases h
  · rcases ite_eq_iff.mp h with ⟨-, h⟩ | ⟨-, h⟩
    · rcases ite_eq_iff.mp h with ⟨-, h⟩ | ⟨-, h⟩
      · cases h
      · cases h
    · cases h

theorem word_ne_mapping (data : List (Value × Value)) :
    ∀ entry ∈ words, entry.2 ≠ .mapping data := by
  simp [words]

theorem textKeys_of_value {fuel : Nat} {cs rest : List Char} {data : List (Value × Value)}
    (h : value fuel cs = .ok (.mapping data, rest)) : TextKeys data := by
  cases fuel with
  | zero => cases h
  | succ fuel =>
      -- Strings and arrays come first, then objects, and at last words and numbers.
      unfold value at h
      split at h
      · obtain ⟨_, -, hv⟩ := exists_of_map_eq_ok h
        cases hv
      · split at h
        · cases h
        · obtain ⟨_, -, hv⟩ := exists_of_map_eq_ok h
          cases hv
      · split at h
        · cases h
          exact .nil
        · obtain ⟨⟨entries, _⟩, hentries, hv⟩ := exists_of_map_eq_ok h
          cases hv
          exact fun key hkey =>
            textKeys_of_members hentries key (Dictionary.mem_keys_of_mem_ofEntriesBy hkey)
      · split at h
        · next found hfound =>
            obtain ⟨⟨word, v⟩, hword, hafter⟩ := List.exists_of_findSome?_eq_some hfound
            obtain ⟨r, -, rfl⟩ := Option.map_eq_some_iff.mp hafter
            cases h
            exact absurd rfl (word_ne_mapping data _ hword)
        · exact absurd h (number_ne_mapping _ _ _)

/-- The keys of a document are texts. -/
theorem textKeys_of_parse {cs : List Char} {data : List (Value × Value)}
    (h : parse cs = .ok (.mapping data)) : TextKeys data := by
  rw [parse] at h
  split at h
  · cases h
  · next v rest hvalue =>
      split at h
      · cases h
        exact textKeys_of_value hvalue
      · cases h

end Json

/-! ## Settings files -/

namespace Settings

theorem textKeys_of_document {yaml : DocumentReader} {path : Path} {entry : Entry}
    {data : List (Value × Value)} (hformat : Format.ofPath path = .json)
    (h : document yaml path entry = .ok (.mapping data)) : TextKeys data := by
  simp only [document, hformat, readJson] at h
  split at h
  · cases h
  · split at h
    · next hparse =>
        cases h
        exact Json.textKeys_of_parse hparse
    · cases h
    · cases h

/-- Only a mapping with a key that is no text makes trouble that is not reported. -/
theorem ofDocument_reported_iff (path : Path) (v : Value) :
    FailsOnly (·.isReported = true) (ofDocument path v) ↔
      ∀ data, v = .mapping data → TextKeys data := by
  cases v with
  | mapping data =>
      constructor
      · rintro h _ ⟨⟩
        by_contra hkeys
        obtain ⟨e, he, hstrange⟩ := ofEntries_strange hkeys
        have hreported : (SettingsFileError.content e).isReported = true :=
          h (.content e) (by rw [ofDocument, he])
        rw [hstrange.isReported] at hreported
        cases hreported
      · intro hkeys
        rw [ofDocument]
        split
        · exact .ok _
        · next e he => exact .error (ofEntries_failsOnly (hkeys data rfl) e he).isReported
  | _ =>
      refine iff_of_true (.error rfl) ?_
      rintro _ ⟨⟩

end Settings

namespace CommandLine

open Settings SettingsError

/-- What escapes from a command, if anything, is not due to its settings file. -/
def SparesSettings (o : Outcome) : Prop :=
  ∀ e, o.ending ≠ .escape (.settings e)

theorem assign_spares (s : Settings) (a : Option String) :
    FailsOnly SparesSettings (assign s a) := by
  cases a with
  | none => exact .error nofun
  | some text =>
      rw [assign]
      split
      · exact .ok _
      · refine .error ?_
        rintro e ⟨⟩

theorem foldlM_assign_spares (row : List (Option String)) (s : Settings) :
    FailsOnly SparesSettings (row.foldlM assign s) := by
  induction row generalizing s with
  | nil => exact .ok s
  | cons a row ih =>
      rw [List.foldlM_cons]
      exact (assign_spares s a).bind fun s' _ => ih s'

theorem readSource_spares (look : Path → Except LookupError Entry) (file : String) :
    FailsOnly SparesSettings (readSource look file) := by
  rcases readSource_cases look file with ⟨source, h⟩ | ⟨e, h⟩ | ⟨text, h⟩
  · rw [h]
    exact .ok source
  · rw [readSource_unreadable h]
    exact .error nofun
  · rw [h]
    exact .error nofun

theorem settingsFailure_spares_iff (e : SettingsFileError) :
    SparesSettings (settingsFailure e) ↔ e.isReported = true := by
  unfold settingsFailure
  split
  · next hreported =>
      refine iff_of_true ?_ hreported
      split
      · exact nofun
      · exact nofun
  · next hreported => exact iff_of_false (fun h => h e rfl) hreported

theorem settingsFailure_refusal {e : SettingsError} (h : e.Refusal) :
    settingsFailure (.content e) = failed ("Error: " ++ e.message) := by
  unfold settingsFailure
  rw [if_pos h.isReported]
  rfl

section Named

variable {yaml : DocumentReader} {look : Path → Except LookupError Entry} {name : String}
  (hname : name ≠ "") (file : String) (assignments : List (Option String)) (verbose : Bool)
include hname

/-- Settings that are read do no more harm. -/
theorem perform_spares {s : Settings} (hload : load yaml look (.ofString name) = .ok s) :
    SparesSettings ((Request.run file (some name) assignments verbose).perform yaml look) := by
  have hsettings : runSettings yaml look (some name) assignments = assignments.foldlM assign s := by
    simp only [runSettings, hname, if_false, hload]
    rfl
  simp only [Request.perform, hsettings]
  split
  · next o ho => exact foldlM_assign_spares assignments s o ho
  · split
    · next o ho => exact readSource_spares look file o ho
    · exact fun e => runSource_ne_escape _ verbose _ (.settings e)

/-- Settings that cannot be had end the run. -/
theorem perform_of_load_error {e : SettingsFileError}
    (hload : load yaml look (.ofString name) = .error e) :
    (Request.run file (some name) assignments verbose).perform yaml look = settingsFailure e := by
  have hsettings : runSettings yaml look (some name) assignments = .error (settingsFailure e) := by
    simp only [runSettings, hname, if_false, hload]
    rfl
  simp only [Request.perform, hsettings]

theorem perform_spares_iff :
    SparesSettings ((Request.run file (some name) assignments verbose).perform yaml look) ↔
      FailsOnly (·.isReported = true) (load yaml look (.ofString name)) := by
  cases hload : load yaml look (.ofString name) with
  | ok s => exact iff_of_true (perform_spares hname file assignments verbose hload) (.ok s)
  | error e =>
      rw [perform_of_load_error hname file assignments verbose hload, settingsFailure_spares_iff]
      exact ⟨fun hreported => .error hreported, fun h => h e rfl⟩

end Named

/-- **Which settings are refused.**  A mapping gives settings or is refused for what it says, exactly
if all its keys are texts.  With any other key its names cannot be told.

Let a run name a settings file that is there and whose document has a value, however YAML is read.
Nothing that escapes from the run is due to the settings, exactly if the value is no mapping or one
whose keys are texts.  The keys of a JSON document are texts.  A mapping that is refused ends the run
with a report. -/
theorem settings_refused (data : List (Value × Value)) :
    ((∃ s, ofEntries data = .ok s) ∨ (∃ e, ofEntries data = .error e ∧ e.Refusal) ↔
      TextKeys data) ∧
    (¬ TextKeys data → ∃ e, ofEntries data = .error e ∧ e.Strange) ∧
    ∀ yaml look name entry v, name ≠ "" → look (Path.ofString name) = .ok entry →
      document yaml (Path.ofString name) entry = .ok v →
      ∀ file assignments verbose,
        let o := (Request.run file (some name) assignments verbose).perform yaml look
        (SparesSettings o ↔ ∀ entries, v = .mapping entries → TextKeys entries) ∧
        (Format.ofPath (Path.ofString name) = .json → SparesSettings o) ∧
        ∀ e, v = .mapping data → ofEntries data = .error e → e.Refusal →
          o = failed ("Error: " ++ e.message) := by
  refine ⟨ofEntries_refused_iff data, ofEntries_strange, ?_⟩
  intro yaml look name entry v hname hentry hdocument file assignments verbose o
  have hload := load_eq_ofDocument hentry hdocument
  have hspares : SparesSettings o ↔ ∀ entries, v = .mapping entries → TextKeys entries := by
    rw [perform_spares_iff hname, hload, ofDocument_reported_iff]
  refine ⟨hspares, ?_, ?_⟩
  · intro hformat
    refine hspares.mpr fun entries hv => ?_
    rw [hv] at hdocument
    exact textKeys_of_document hformat hdocument
  · rintro e rfl hdata hrefusal
    have herror : ofDocument (.ofString name) (.mapping data) = .error (.content e) := by
      rw [ofDocument, hdata]
    rw [← settingsFailure_refusal hrefusal]
    exact perform_of_load_error hname file assignments verbose (hload.trans herror)

/-- A document with one entry, for a reader that knows it. -/
theorem document_knowing (bytes : List UInt8) (entry : Value × Value) :
    document (knowing bytes (.mapping [entry])) (Path.ofString "c") (.file bytes) =
      .ok (.mapping [entry]) := by
  have hformat : Format.ofPath (Path.ofString "c") = .yaml := rfl
  simp only [document, hformat, readYaml, knowing, if_true]
  rfl

/-- The first day of a year, as a document may have it for a key. -/
def newYear : Value :=
  .object
    { typeName := "datetime.date"
      plain? := some "2020-01-01"
      inline? := some "datetime.date(2020, 1, 1)"
      isOrdered := true }
    none

/-- A document that sets a truth value to nothing is refused, and a run reports it.  A date as a key is
no text, and an error escapes. -/
theorem settings_refused_null :
    let source : List UInt8 := "'optimize': ~".toUTF8.data.toList
    let dated : List UInt8 := "2020-01-01: 1".toUTF8.data.toList
    let r := Request.run "a" (some "c") [] false
    let o := r.perform (knowing source (.mapping [(.text "optimize", .none)]))
      fun _ => .ok (.file source)
    SparesSettings o ∧ o = failed "Error: 'optimize' must be true or false" ∧
    ¬ SparesSettings (r.perform (knowing dated (.mapping [(newYear, .int 1)]))
      fun _ => .ok (.file dated)) := by
  intro source dated r o
  obtain ⟨hspares, -, hreport⟩ := (settings_refused [(.text "optimize", .none)]).2.2 _
    (fun _ => .ok (.file source)) "c" _ _ (by decide) rfl (document_knowing source _) "a" [] false
  refine ⟨hspares.mpr ?_, hreport .literalsNotBool rfl rfl .literalsNotBool, ?_⟩
  · rintro _ ⟨⟩
    exact TextKeys.nil.cons "optimize" .none
  · obtain ⟨hspares, -⟩ := (settings_refused []).2.2 _ (fun _ => .ok (.file dated)) "c" _ _
      (by decide) rfl (document_knowing dated _) "a" [] false
    intro h
    obtain ⟨s, hs⟩ := hspares.mp h _ rfl newYear List.mem_cons_self
    cases hs

/-- The null of YAML is a key that is no text, and an error escapes from a run with it. -/
theorem null_key_escapes :
    let bytes : List UInt8 := [0x7E, 0x3A, 0x20, 0x7E]
    let yaml := knowing bytes (.mapping [(.none, .none)])
    let files : Files := { entries := [(["c"], .file bytes)] }
    let r := Request.run "a" (some "c") [] false
    let e := SettingsError.nameNotText "NoneType"
    request ["run", "a", "--config", "c"] = .ok r ∧
    document yaml (Path.ofString "c") (.file bytes) = .ok (.mapping [(.none, .none)]) ∧
    ofEntries [(.none, .none)] = .error e ∧
    (r.perform yaml files.find).ending = .escape (.settings (.content e)) ∧
    ¬ ∀ data, (∃ s, ofEntries data = .ok s) ∨ ∃ e, ofEntries data = .error e ∧ e.Refusal := by
  intro bytes yaml files r e
  have hdocument := document_knowing bytes (.none, .none)
  have hdata : ofEntries [(.none, .none)] = .error e := rfl
  have hfind : files.find (.ofString "c") = .ok (.file bytes) := rfl
  have hrequest : request ["run", "a", "--config", "c"] = .ok r := by
    have hforms : classifyAll runSwitches ["a", "--config", "c"] =
        some [.plain "a", .switch .config false none, .plain "c"] := rfl
    have hswitch : readSwitch runSwitches .config false none =
        .ok { valued := some (.config, .next) } := rfl
    change command "run" ["a", "--config", "c"] = _
    simp only [command, readCommand, hforms, Said.read, hswitch]
    rfl
  refine ⟨hrequest, hdocument, hdata, ?_, ?_⟩
  · have hload := load_eq_ofDocument hfind hdocument
    rw [ofDocument, hdata] at hload
    rw [perform_of_load_error (by decide) "a" [] false hload]
    rfl
  · intro hall
    obtain ⟨s, hs⟩ := (ofEntries_refused_iff [(.none, .none)]).mp (hall _) .none List.mem_cons_self
    cases hs

end CommandLine
end BracketCall
