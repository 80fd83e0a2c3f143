import BracketCall.CommandLine
import BracketCall.Proofs.Registrations

/-!
# Precedence of variables

The variables of a run come from the settings file and from assignments on the command line.  Three
layers have their own rule for names that repeat.  The mapping of the file is keyed by values, and
distinct keys may have the same text; assignments overwrite what stands under their name; and in the
table the first record of a name is found.

The first two are rows of entries that are set one after the other (`setAll`), so all of them
together are one such row: the entries of the file by the texts of their keys, and then the
assignments.  No name is left twice in it.  The table therefore gets one record for each name, and
that its first record counts makes no difference: the last entry of a name wins.

**Results.**
* `assigned_ofEntries`, `foldlM_assign`: what the two sources of variables leave.
* `defineAll_eq_edit`: the table refuses none of the variables.
* `value?_runTable`, `oneEach_runTable`: the table of a run.
* `runSource_shows`: a run shows what the evaluation of its source with this table gives.
* `run_precedence`: which value a variable has in a run.
-/

namespace BracketCall

/-! ## Rows of entries -/

/-- The value that an entry gives to a name. -/
def valueUnder {ε : Type} (name : String) : Except ε (String × Value) → Option Value
  | .ok (n, value) => if n = name then some value else none
  | .error _ => none

/-- The value of the last element of a row that is read as an entry with this name. -/
def lastUnder? {α ε : Type} (read : α → Except ε (String × Value)) (row : List α)
    (name : String) : Option Value :=
  (row.map read).reverse.findSome? (valueUnder name)

/-- What is found in a row of entries that are set one after the other. -/
theorem lastUnder?_eq_get? {α ε : Type} {read : α → Except ε (String × Value)} {row : List α}
    {entries : List (String × Value)} (hread : row.map read = entries.map .ok) (name : String) :
    lastUnder? read row name = Dictionary.get? name (setAll entries) := by
  rw [lastUnder?, hread]
  clear hread
  induction entries using List.reverseRecOn with
  | nil => rfl
  | append_singleton entries entry ih =>
      rw [setAll_concat, Dictionary.get?_set, ← ih, List.map_append, List.reverse_append]
      by_cases hname : entry.1 = name
      · simp [valueUnder, hname]
      · simp [valueUnder, hname]

/-- Of two rows of entries, the later one goes first. -/
theorem get?_setAll_append (entries later : List (String × Value)) (name : String) :
    Dictionary.get? name (setAll (entries ++ later)) =
      (Dictionary.get? name (setAll later)).or (Dictionary.get? name (setAll entries)) := by
  simp only [get?_setAll, List.reverse_append, List.find?_append, Option.map_or]

/-- No name is left twice. -/
theorem nodup_keys_setAll (entries : List (String × Value)) :
    (Dictionary.keys (setAll entries)).Nodup := by
  induction entries using List.reverseRecOn with
  | nil => exact List.nodup_nil
  | append_singleton entries entry ih =>
      rw [setAll_concat, Dictionary.keys_set]
      split
      · exact ih
      · next hnew =>
          rw [← List.concat_eq_append]
          exact ih.concat hnew

/-! ## The settings file -/

namespace Settings

/-- The variables of a mapping, as the file has them. -/
def variableEntries (data : List (Value × Value)) : List (Value × Value) :=
  match field? "variables" data with
  | some (.mapping entries) => entries
  | _ => []

/-- An entry by the text of its key. -/
def named (entry : Value × Value) : Except HostError (String × Value) :=
  entry.1.plain.map fun name => (name, entry.2)

theorem named_of_nameEntries {data : List (Value × Value)} {entries : List (String × Value)}
    (h : nameEntries data = .ok entries) : data.map named = entries.map .ok := by
  induction data generalizing entries with
  | nil =>
      cases h
      rfl
  | cons entry data ih =>
      obtain ⟨key, value⟩ := entry
      rw [nameEntries] at h
      split at h
      · cases h
      · next name hname =>
          cases hrest : nameEntries data with
          | error e =>
              rw [hrest] at h
              cases h
          | ok rest =>
              rw [hrest] at h
              cases h
              rw [List.map_cons, List.map_cons, ih hrest, named, hname]
              rfl

theorem assigned_readVariables {data : List (Value × Value)} {assigned : List (String × Value)}
    (h : readVariables data = .ok assigned) :
    ∃ entries, (variableEntries data).map named = entries.map .ok ∧ assigned = setAll entries := by
  rw [readVariables] at h
  rw [variableEntries]
  cases hfield : field? "variables" data with
  | none =>
      rw [hfield] at h
      cases h
      exact ⟨[], rfl, rfl⟩
  | some v =>
      simp only [hfield] at h
      cases v with
      | mapping entries =>
          split at h
          · change (nameEntries entries).map _ = _ at h
            cases hnames : nameEntries entries with
            | error e =>
                rw [hnames] at h
                cases h
            | ok row =>
                rw [hnames] at h
                cases h
                exact ⟨row, named_of_nameEntries hnames, rfl⟩
          · next hempty =>
              cases h
              have hnil : entries = [] := by simpa [Value.isTruthy] using hempty
              exact ⟨[], by rw [hnil]; rfl, rfl⟩
      | _ =>
          split at h
          · cases h
          · cases h
            exact ⟨[], rfl, rfl⟩

/-- The variables of a settings file are its entries by the texts of their keys, set one after the
other. -/
theorem assigned_ofEntries {data : List (Value × Value)} {s : Settings}
    (h : ofEntries data = .ok s) :
    ∃ entries, (variableEntries data).map named = entries.map .ok ∧
      s.assigned = setAll entries := by
  simp only [ofEntries, bind, Except.bind] at h
  split at h
  · cases h
  · split at h
    · cases h
    · split at h
      · cases h
      · split at h
        · cases h
        · next assigned hassigned =>
            cases h
            exact assigned_readVariables hassigned

/-- The value of a settings document. -/
def document (yaml : DocumentReader) (path : Path) (entry : Entry) :
    Except SettingsFileError Value :=
  match Format.ofPath path with
  | .json => readJson path entry
  | .yaml => readYaml yaml path entry

/-- The settings that the value of a document gives. -/
def ofDocument (path : Path) : Value → Except SettingsFileError Settings
  | .mapping data =>
      match ofEntries data with
      | .ok s => .ok s
      | .error e => .error (.content e)
  | _ => .error (.notMapping path)

variable {yaml : DocumentReader} {look : Path → Except LookupError Entry}

theorem load_eq_ofDocument {path : Path} {entry : Entry} {v : Value}
    (hentry : look path = .ok entry) (hdocument : document yaml path entry = .ok v) :
    load yaml look path = ofDocument path v := by
  rw [document] at hdocument
  cases hformat : Format.ofPath path with
  | json =>
      rw [hformat] at hdocument
      simp only [load, hentry, hformat, hdocument, bind, Except.bind]
      rfl
  | yaml =>
      rw [hformat] at hdocument
      simp only [load, hentry, hformat, hdocument, bind, Except.bind]
      rfl

theorem load_of_document {path : Path} {entry : Entry} {data : List (Value × Value)} {s : Settings}
    (hentry : look path = .ok entry) (hdocument : document yaml path entry = .ok (.mapping data))
    (hdata : ofEntries data = .ok s) : load yaml look path = .ok s := by
  rw [load_eq_ofDocument hentry hdocument, ofDocument, hdata]

end Settings

/-! ## Assignments -/

namespace CommandLine

/-- The settings file of a run holds this mapping.  A run that names no file has the empty one. -/
inductive Configured (yaml : DocumentReader) (look : Path → Except LookupError Entry) :
    Option String → List (Value × Value) → Prop
  | unnamed : Configured yaml look none []
  | emptyName : Configured yaml look (some "") []
  | file {name : String} {entry : Entry} {data : List (Value × Value)} :
      name ≠ "" → look (Path.ofString name) = .ok entry →
      Settings.document yaml (Path.ofString name) entry = .ok (.mapping data) →
      Configured yaml look (some name) data

theorem runSettings_of_configured {yaml : DocumentReader}
    {look : Path → Except LookupError Entry} {config : Option String}
    {data : List (Value × Value)} {start : Settings} (hconfig : Configured yaml look config data)
    (hdata : Settings.ofEntries data = .ok start) (assignments : List (Option String)) :
    runSettings yaml look config assignments = assignments.foldlM assign start := by
  cases hconfig with
  | unnamed =>
      cases hdata
      rfl
  | emptyName =>
      cases hdata
      rfl
  | file hname hentry hdocument =>
      simp only [runSettings, hname, if_false, Settings.load_of_document hentry hdocument hdata]
      rfl

theorem assign_of_parse {text : String} {entry : String × Value}
    (h : Assignment.parse text = .ok entry) (s : Settings) :
    assign s (some text) = .ok (s.setVariable entry.1 entry.2) := by
  simp only [assign, h]

/-- Accepted assignments are set one after the other. -/
theorem foldlM_assign {options : List String} {given : List (String × Value)}
    (haccepted : options.map Assignment.parse = given.map .ok) (s : Settings) :
    (options.map some).foldlM assign s =
      .ok { s with
        assigned := given.foldl (fun dict e => Dictionary.set e.1 e.2 dict) s.assigned } := by
  induction options generalizing given s with
  | nil =>
      cases given with
      | nil => rfl
      | cons _ _ => cases haccepted
  | cons text options ih =>
      cases given with
      | nil => cases haccepted
      | cons entry given =>
          obtain ⟨hfirst, hrest⟩ := List.cons.inj haccepted
          rw [List.map_cons, List.foldlM_cons, assign_of_parse hfirst]
          exact ih hrest (s.setVariable entry.1 entry.2)

theorem exists_given {options : List String}
    (h : ∀ text ∈ options, ∃ entry, Assignment.parse text = .ok entry) :
    ∃ given : List (String × Value), options.map Assignment.parse = given.map .ok := by
  induction options with
  | nil => exact ⟨[], rfl⟩
  | cons text options ih =>
      obtain ⟨entry, hentry⟩ := h text List.mem_cons_self
      obtain ⟨given, hgiven⟩ := ih fun t ht => h t (List.mem_cons_of_mem text ht)
      exact ⟨entry :: given, by rw [List.map_cons, List.map_cons, hentry, hgiven]⟩

/-- The first assignment that is rejected ends a run. -/
theorem foldlM_assign_rejected {options : List String}
    (h : ∃ text ∈ options, ∃ e, Assignment.parse text = .error e) (s : Settings) :
    ∃ before text after e, options = before ++ text :: after ∧
      (∀ t ∈ before, ∃ entry, Assignment.parse t = .ok entry) ∧
      Assignment.parse text = .error e ∧
      (options.map some).foldlM assign s = .error (failed ("Error: " ++ e.message)) := by
  induction options generalizing s with
  | nil =>
      obtain ⟨_, hmem, -⟩ := h
      cases hmem
  | cons text options ih =>
      cases hparse : Assignment.parse text with
      | error e =>
          refine ⟨[], text, options, e, rfl, nofun, hparse, ?_⟩
          have hassign : assign s (some text) = .error (failed ("Error: " ++ e.message)) := by
            simp only [assign, hparse]
          rw [List.map_cons, List.foldlM_cons, hassign]
          rfl
      | ok entry =>
          have hlater : ∃ t ∈ options, ∃ e, Assignment.parse t = .error e := by
            obtain ⟨t, hmem, e, he⟩ := h
            rcases List.mem_cons.mp hmem with rfl | hmem
            · rw [hparse] at he
              cases he
            · exact ⟨t, hmem, e, he⟩
          obtain ⟨before, t, after, e, hsplit, hbefore, ht, hfold⟩ :=
            ih hlater (s.setVariable entry.1 entry.2)
          refine ⟨text :: before, t, after, e, by rw [hsplit]; rfl, ?_, ht, ?_⟩
          · intro t' ht'
            rcases List.mem_cons.mp ht' with rfl | ht'
            · exact ⟨entry, hparse⟩
            · exact hbefore t' ht'
          · rw [List.map_cons, List.foldlM_cons, assign_of_parse hparse]
            exact hfold

end CommandLine

/-! ## The table -/

namespace Bindings

variable {κ : Type}

/-- The variables of the table have one record each, which has their name. -/
structure OneEach (b : Bindings κ) : Prop where
  names : b.variableNames.Nodup
  single : ∀ entry ∈ b.filed, ∃ id r, entry.2 = [id] ∧ b.record? id = some r ∧ r.name = entry.1

theorem file_of_not_mem {name : String} {filed : List (String × List RecordId)}
    (h : name ∉ Dictionary.keys filed) (id : RecordId) :
    file name id filed = filed ++ [(name, [id])] := by
  induction filed with
  | nil => rfl
  | cons entry filed ih =>
      rw [Dictionary.keys_cons, List.mem_cons, not_or] at h
      have hne : ¬ entry.1 = name := fun heq => h.1 heq.symm
      simp [file, hne, ih h.2]

/-- A new name gets a record of its own. -/
theorem OneEach.define {h : History κ} (hkept : h.Kept) (hone : h.bindings.OneEach)
    {name : String} (hname : name ∉ h.bindings.variableNames) (value : Value) :
    ((Edit.defineVariable name value).apply h.bindings).OneEach ∧
      ((Edit.defineVariable name value).apply h.bindings).variableNames =
        h.bindings.variableNames ++ [name] := by
  rw [hkept.apply_defineVariable, file_of_not_mem hname]
  have hnames : Dictionary.keys (h.bindings.filed ++ [(name, [h.bindings.records.length])]) =
      h.bindings.variableNames ++ [name] := List.map_append
  refine ⟨⟨?_, ?_⟩, hnames⟩
  · rw [variableNames, hnames, ← List.concat_eq_append]
    exact hone.names.concat hname
  · intro entry hentry
    rcases List.mem_append.mp hentry with hold | hnew
    · obtain ⟨id, r, hid, hr, hrname⟩ := hone.single entry hold
      exact ⟨id, r, hid, record?_newRecord hr name (Dynamic.wrap value), hrname⟩
    · rw [List.mem_singleton.mp hnew]
      exact ⟨_, ⟨name, Dynamic.wrap value⟩, rfl, List.getElem?_concat_length, rfl⟩

/-- Distinct new names get one record each. -/
theorem OneEach.edit {h : History κ} (hkept : h.Kept) (hone : h.bindings.OneEach)
    {entries : List (String × Value)}
    (hnames : (h.bindings.variableNames ++ Dictionary.keys entries).Nodup) :
    (h.bindings.edit (entries.map fun e => .defineVariable e.1 e.2)).OneEach := by
  induction entries generalizing h with
  | nil => exact hone
  | cons entry entries ih =>
      have hname : entry.1 ∉ h.bindings.variableNames := fun hmem =>
        List.disjoint_of_nodup_append hnames hmem List.mem_cons_self
      obtain ⟨hstep, hkeys⟩ := hone.define hkept hname entry.2
      rw [← History.bindings_step] at hstep hkeys
      have hrest := ih (History.step_kept hkept _) hstep (by
        rw [hkeys, List.append_assoc]
        exact hnames)
      rw [History.bindings_step] at hrest
      exact hrest

end Bindings

namespace CommandLine

/-- The table refuses none of the variables: each of them gets a record of its own. -/
theorem defineAll_eq_edit {κ : Type} {h : History κ} (hkept : h.Kept)
    (entries : List (String × Value)) :
    defineAll entries h.bindings =
      .ok (h.bindings.edit (entries.map fun e => .defineVariable e.1 e.2)) := by
  induction entries generalizing h with
  | nil => rfl
  | cons entry entries ih =>
      have hrest := ih (History.step_kept hkept (.defineVariable entry.1 entry.2))
      rw [History.bindings_step, hkept.apply_defineVariable] at hrest
      rw [defineAll, hkept.defineVariable, List.map_cons, Bindings.edit, List.foldl_cons,
        hkept.apply_defineVariable]
      exact hrest

/-- The history of the standard natives. -/
def standardHistory : History Standard :=
  ({} : History Standard).run (Standard.all.map fun native => .putFunction native.name native)

theorem standardHistory_kept : standardHistory.Kept :=
  History.run_kept History.kept_empty _

/-- The table of a run. -/
def runTable (s : Settings) : Bindings Standard :=
  standardHistory.bindings.edit (s.assigned.map fun e => .defineVariable e.1 e.2)

theorem runBindings_eq (s : Settings) : runBindings s = .ok (runTable s) :=
  defineAll_eq_edit standardHistory_kept s.assigned

/-- A variable of a run has the value that its settings give it first. -/
theorem value?_runTable (s : Settings) (name : String) :
    (runTable s).value? name = (Dictionary.get? name s.assigned).map Dynamic.wrap := by
  rw [runTable, Edit.value?_edit standardHistory_kept]
  · have hnone : standardHistory.bindings.value? name = none := rfl
    rw [hnone, Option.none_or]
    induction s.assigned with
    | nil => rfl
    | cons entry entries ih =>
        rw [List.map_cons, List.findSome?_cons, ih]
        by_cases hname : entry.1 = name
        · simp [Edit.value?, Dictionary.get?, Dictionary.getBy?, hname]
        · simp [Edit.value?, Dictionary.get?, Dictionary.getBy?, hname]
  · intro e he
    obtain ⟨entry, -, rfl⟩ := List.mem_map.mp he
    exact Option.some_ne_none _

/-- The functions of a run are the standard natives. -/
theorem function?_runTable (s : Settings) (native : Standard) :
    (runTable s).function? native.name = some native := by
  have hnone : (s.assigned.map fun e => Edit.defineVariable e.1 e.2).reverse.findSome?
      (fun e : Edit Standard => e.function? native.name) = none := by
    rw [List.findSome?_eq_none_iff]
    intro e he
    obtain ⟨entry, -, rfl⟩ := List.mem_map.mp (List.mem_reverse.mp he)
    rfl
  rw [runTable, Edit.function?_edit, hnone, Option.none_or]
  cases native <;> decide

theorem oneEach_runTable {s : Settings} (h : (Dictionary.keys s.assigned).Nodup) :
    (runTable s).OneEach :=
  Bindings.OneEach.edit standardHistory_kept ⟨List.nodup_nil, nofun⟩ h

/-! ## What a run shows -/

/-- A command shows the evaluation of a source: how it ended, and all that was written. -/
structure Shows (o : Outcome) (evaluation : Except Failure Unit × Machine Standard String) :
    Prop where
  out : o.out = evaluation.2.world.host
  done : evaluation.1 = .ok () → o.ending = .code 0
  fault : ∀ f, evaluation.1 = .error (.fault f) →
    o.ending = .code 1 ∧ ∃ steps, o.err = steps ++ (f.diagnostic.format ++ "\n")
  raise : ∀ e, evaluation.1 = .error (.host e) →
    o.ending = .code 1 ∧ ∃ steps, o.err = steps ++ ("Error: " ++ e.message ++ "\n")
  endless : evaluation.1 = .error .endless → o.ending = .never

/-- The evaluation of a source with the table of a run, from an empty output. -/
def evaluation (s : Settings) (source : String) :
    Except Failure Unit × Machine Standard String :=
  Machine.evaluate Standard.natives s.literals source
    { world := { bindings := runTable s, host := "" } }

theorem runSource_shows (s : Settings) (verbose : Bool) (source : String) :
    Shows (runSource s verbose source) (evaluation s source) := by
  simp only [runSource, runBindings_eq, evaluation]
  generalize Machine.evaluate Standard.natives s.literals source _ = x
  refine ⟨rfl, ?_, ?_, ?_, ?_⟩
  · intro hdone
    simp only [hdone, endingOf]
  · intro f hfault
    simp only [hfault, endingOf]
    exact ⟨trivial, _, rfl⟩
  · intro e hraise
    simp only [hraise, endingOf]
    exact ⟨trivial, _, rfl⟩
  · intro hendless
    simp only [hendless, endingOf]

/-! ## The value of a variable -/

/-- The value that a run gives to a variable: that of the last assignment to it, or else that of the
last entry of the settings file whose key has its name as text. -/
def preferred? (data : List (Value × Value)) (options : List String) (name : String) :
    Option Value :=
  (lastUnder? Assignment.parse options name).or
    (lastUnder? Settings.named (Settings.variableEntries data) name)

/-- **The last entry of a name wins.**  Let a mapping give the settings that a run begins with.

If all assignments are accepted, the run has a table with the standard natives and with one record for
each variable, which has the value that is preferred, and no other variable.  The run shows what the
evaluation of its source gives, from this table and an empty output.  If an assignment is rejected,
the first such one is reported and no source is evaluated. -/
theorem run_precedence {data : List (Value × Value)} {start : Settings}
    (hdata : Settings.ofEntries data = .ok start) (options : List String) :
    ((∀ text ∈ options, ∃ entry, Assignment.parse text = .ok entry) →
      ∃ settings bindings,
        (options.map some).foldlM assign start = .ok settings ∧
        runBindings settings = .ok bindings ∧
        bindings.OneEach ∧
        (∀ name, bindings.value? name = (preferred? data options name).map Dynamic.wrap) ∧
        (∀ native : Standard, bindings.function? native.name = some native) ∧
        ∀ yaml look config, Configured yaml look config data →
          runSettings yaml look config (options.map some) = .ok settings ∧
          ∀ file verbose source, readSource look file = .ok source →
            Shows ((Request.run file config (options.map some) verbose).perform yaml look)
              (Machine.evaluate Standard.natives start.literals source
                { world := { bindings := bindings, host := "" } })) ∧
    ((∃ text ∈ options, ∃ e, Assignment.parse text = .error e) →
      ∃ before text after e, options = before ++ text :: after ∧
        (∀ t ∈ before, ∃ entry, Assignment.parse t = .ok entry) ∧
        Assignment.parse text = .error e ∧
        ∀ yaml look config, Configured yaml look config data → ∀ file verbose,
          (Request.run file config (options.map some) verbose).perform yaml look =
            failed ("Error: " ++ e.message)) := by
  constructor
  · intro haccepted
    obtain ⟨entries, hentries, hassigned⟩ := Settings.assigned_ofEntries hdata
    obtain ⟨given, hgiven⟩ := exists_given haccepted
    have hfold := foldlM_assign hgiven start
    -- The file and the assignments together are one row of entries, set one after the other.
    have hall : given.foldl (fun dict e => Dictionary.set e.1 e.2 dict) start.assigned =
        setAll (entries ++ given) := by
      rw [hassigned, setAll, setAll, List.foldl_append]
    rw [hall] at hfold
    refine ⟨_, _, hfold, runBindings_eq _, oneEach_runTable (nodup_keys_setAll _), ?_,
      function?_runTable _, ?_⟩
    · intro name
      rw [value?_runTable, get?_setAll_append, preferred?, lastUnder?_eq_get? hgiven,
        lastUnder?_eq_get? hentries]
    · intro yaml look config hconfig
      have hsettings := (runSettings_of_configured hconfig hdata (options.map some)).trans hfold
      refine ⟨hsettings, ?_⟩
      intro file verbose source hsource
      simp only [Request.perform, hsettings, hsource]
      exact runSource_shows _ verbose source
  · intro hrejected
    obtain ⟨before, text, after, e, hsplit, hbefore, htext, hfold⟩ :=
      foldlM_assign_rejected hrejected start
    refine ⟨before, text, after, e, hsplit, hbefore, htext, ?_⟩
    intro yaml look config hconfig file verbose
    simp only [Request.perform, runSettings_of_configured hconfig hdata, hfold]

/-- Variables with two keys that have the same text. -/
def alike : List (Value × Value) :=
  [(.text "variables", .mapping
    [(.bool true, .text "a"), (.text "True", .text "b"), (.text "x", .int 5)])]

/-- A document that holds them. -/
def alikeDocument : List UInt8 :=
  "variables: \x7btrue: a, 'True': b, x: 5\x7d".toUTF8.data.toList

/-- A reader that knows one document and no other. -/
def knowing (document : List UInt8) (value : Value) : DocumentReader := fun bytes =>
  if bytes = document then .ok value else .error .malformed

/-- The second of two such keys wins, and so does the second of two assignments to `x`, as a run shows
that writes the variables.  An assignment without a name ends the run. -/
theorem run_precedence_alike :
    let start : Settings := { assigned := [("True", .text "b"), ("x", .int 5)] }
    let options := ["x=true", "y=true", " x = false"]
    let source := "[[출력|[[True]]|[[x]]|[[y]]]]"
    let look : Path → Except LookupError Entry := fun path =>
      .ok (.file (if path = .ofString "c" then alikeDocument else source.toUTF8.data.toList))
    let yaml := knowing alikeDocument (.mapping alike)
    let o := (Request.run "f" (some "c") (options.map some) false).perform yaml look
    Settings.ofEntries alike = .ok start ∧
    o.ending = .code 0 ∧ o.out = "b False True\n" ∧
    ∀ yaml look file, (Request.run file none [some "x=true", some "=2"] false).perform yaml look =
      failed ("Error: " ++ (HostError.badAssignment "=2").message) := by
  intro start options source look yaml o
  have hstart : Settings.ofEntries alike = .ok start := rfl
  have hfirst : Assignment.parse "x=true" = .ok ("x", .bool true) := rfl
  have hsecond : Assignment.parse "y=true" = .ok ("y", .bool true) := rfl
  have hthird : Assignment.parse " x = false" = .ok ("x", .bool false) := rfl
  have hbad : Assignment.parse "=2" = .error (.badAssignment "=2") := rfl
  obtain ⟨settings, bindings, -, -, -, hvalues, hnatives, hrun⟩ :=
    (run_precedence hstart options).1 (by simp [options, hfirst, hsecond, hthird])
  have hoptions : options.map Assignment.parse =
      [.ok ("x", .bool true), .ok ("y", .bool true), .ok ("x", .bool false)] := by
    simp only [options, List.map_cons, List.map_nil, hfirst, hsecond, hthird]
  simp only [preferred?, lastUnder?, hoptions] at hvalues
  have htrue : bindings.value? "True" = some (Dynamic.wrap (.text "b")) := (hvalues "True").trans rfl
  have hx : bindings.value? "x" = some (Dynamic.wrap (.bool false)) := (hvalues "x").trans rfl
  have hy : bindings.value? "y" = some (Dynamic.wrap (.bool true)) := (hvalues "y").trans rfl
  have hprint : bindings.function? "출력" = some .print := hnatives .print
  have hparse : parseSource true source = .ok (.program
      [.call "출력" [.reference "True", .reference "x", .reference "y"]]) := by
    change parseSource true "[[출력|[[True]]|[[x]]|[[y]]]]" = _
    decide +kernel
  have hconfig : Configured yaml look (some "c") alike := by
    have hformat : Format.ofPath (.ofString "c") = .yaml := rfl
    refine .file (by decide) rfl ?_
    simp only [Settings.document, hformat, Settings.readYaml, if_true, yaml, knowing]
    rfl
  have hread : readSource look "f" = .ok source := rfl
  have hshows := (hrun yaml look (some "c") hconfig).2 "f" false source hread
  have hevaluate : Machine.evaluate Standard.natives true source
      { world := { bindings := bindings, host := "" } } = (.ok (), {
        world := { bindings := bindings, host := "b False True\n" }
        trace := [⟨"출력", .print, [Dynamic.wrap (.text "b"), Dynamic.wrap (.bool false),
          Dynamic.wrap (.bool true)]⟩] }) := by
    simp only [Machine.evaluate, hparse, Machine.interpret, Machine.statements, Machine.call, hprint,
      Machine.arguments, Machine.argument, htrue, hx, hy]
    rfl
  rw [hevaluate] at hshows
  refine ⟨hstart, hshows.done rfl, hshows.out, ?_⟩
  intro yaml look file
  have hempty : Settings.ofEntries [] = .ok {} := rfl
  obtain ⟨before, text, after, e, hsplit, hbefore, htext, hfailed⟩ :=
    (run_precedence hempty ["x=true", "=2"]).2 ⟨"=2", by simp, _, hbad⟩
  have htwo : text = "=2" := by
    rcases before with _ | ⟨first, _ | ⟨second, before⟩⟩
    · cases hsplit
      rw [hfirst] at htext
      cases htext
    · cases hsplit
      rfl
    · simp at hsplit
  rw [htwo, hbad] at htext
  cases htext
  exact hfailed yaml look none .unnamed file false

end CommandLine
end BracketCall
