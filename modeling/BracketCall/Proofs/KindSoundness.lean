import BracketCall.Proofs.ProgramRun
import Mathlib.Data.List.Forall2

/-!
# Kinds of the values that natives receive

The kind of a dynamic value tells which accessor may read it, but a host can tag a value with any
kind.  A value is sound if its kind is that of its data.

Natives may return values with any tag: a result is coerced before it becomes an argument, and this
takes the tag off.  Values of variables are handed on as they are; if the table begins with sound
values, and natives set variables only to plain data and to sound values, then every value that any
native receives in a run is sound.  On a sound value the accessor of its kind succeeds, and all
others report the two kinds that differ.

**Method.**  `Safe` says of a computation that it leaves the table sound and that its result has a
property.  It is composed along `andThen`.  What natives do is assumed only for sound arguments in a
sound table, so that a native may store what it received.

**Results.**
* `wrap_sound`, `coerce_fits`, `readByKind_of_sound`: single values.
* `perform_sound`, `edit_sound`: the table.
* `argument_safe`, `arguments_safe`, `statements_safe`: evaluation.
* `interpret_kinds`: every invocation of a run.
-/

namespace BracketCall

variable {κ σ : Type}

/-! ## Single values -/

namespace Value

/-- Plain data, or data with a tag that is its own kind. -/
def Fits : Value → Prop
  | tagged kind data => kind = data.kind
  | _ => True

/-- Plain data, or plain data with any tag. -/
def TaggedOnce : Value → Prop
  | tagged _ (tagged _ _) => False
  | _ => True

end Value

/-- The accessor that asks for a kind.  There is none for nothing and for host objects. -/
def Kind.accessor? : Kind → Option Dynamic.Accessor
  | string => some .string
  | number => some .number
  | boolean => some .boolean
  | array => some .array
  | block => some .block
  | none => Option.none
  | object => Option.none

namespace Dynamic

/-- The kind is that of the data. -/
def Sound (d : Dynamic) : Prop :=
  d.kind = d.data.kind

/-- The accessor of a value's kind succeeds, and so does the one that asks for no kind.  All others
report the kind that they ask for and the kind of the value. -/
structure ReadByKind (d : Dynamic) : Prop where
  any : d.read .any = .ok d.data
  own : ∀ a, d.kind.accessor? = some a → ∃ v, d.read a = .ok v
  other : ∀ a k, a.kind? = some k → d.kind.accessor? ≠ some a →
    d.read a = .error (.fault (.kindMismatch k d.kind))

/-- Not a text that spells a number. -/
def Unspelled (d : Dynamic) : Prop :=
  ∀ text, d.kind = .string → d.data = .text text → Numeral.read? text = none

theorem wrap_sound {v : Value} (h : v.Fits) : (wrap v).Sound := by
  cases v with
  | tagged kind data => exact h
  | _ => rfl

/-- What becomes of a text that is coerced. -/
theorem coerceData_text (text : String) :
    (∃ n, coerceData (.text text) = ⟨.number, Number.toValue n⟩) ∨
      coerceData (.text text) = ⟨.string, .text text⟩ ∧ Numeral.read? text = none := by
  cases h : Numeral.read? text with
  | none => exact Or.inr ⟨coerce_text_of_none h, rfl⟩
  | some n => exact Or.inl ⟨n, coerce_text_of_read? h⟩

theorem coerceData_text_fits (text : String) :
    (coerceData (.text text)).Sound ∧ (coerceData (.text text)).Unspelled := by
  rcases coerceData_text text with ⟨n, hn⟩ | ⟨htext, hread⟩
  · rw [hn]
    exact ⟨by cases n <;> rfl, nofun⟩
  · rw [htext]
    refine ⟨rfl, ?_⟩
    intro text' _ hdata
    cases hdata
    exact hread

/-- A result of a native becomes a sound value that is no numeral, whatever its tag was. -/
theorem coerce_fits {v : Value} (h : v.TaggedOnce) : (coerce v).Sound ∧ (coerce v).Unspelled := by
  cases v with
  | text s => exact coerceData_text_fits s
  | tagged kind data =>
      cases data with
      | text s => exact coerceData_text_fits s
      | tagged _ _ => cases h
      | _ => exact ⟨rfl, nofun⟩
  | _ => exact ⟨rfl, nofun⟩

theorem kind_coerce_text (text : String) :
    (coerce (.text text)).kind = .number ∨ (coerce (.text text)).kind = .string := by
  rcases coerceData_text text with ⟨n, hn⟩ | ⟨htext, -⟩
  · exact Or.inl (congrArg kind hn)
  · exact Or.inr (congrArg kind htext)

/-! ## Reading sound values -/

theorem accessor?_eq_some_iff {k : Kind} {a : Accessor} :
    k.accessor? = some a ↔ a.kind? = some k := by
  cases k <;> cases a <;> decide

/-- An accessor that asks for another kind. -/
theorem read_mismatch {d : Dynamic} {a : Accessor} {k : Kind} (ha : a.kind? = some k)
    (hk : d.kind ≠ k) : d.read a = .error (.fault (.kindMismatch k d.kind)) := by
  cases a <;> cases ha <;> simp [read, check, hk, bind, Except.bind]

/-- Data of the kind of rows has elements. -/
theorem items_of_array {d : Dynamic} (h : d.data.kind = .array) : ∃ v, d.items = .ok v := by
  obtain ⟨kind, data⟩ := d
  cases data with
  | list items => exact ⟨_, rfl⟩
  | tuple items => exact ⟨_, rfl⟩
  | tree t => cases t <;> cases h
  | _ => cases h

theorem readByKind_of_sound {d : Dynamic} (h : d.Sound) : d.ReadByKind where
  any := rfl
  own := by
    intro a ha
    have hkind := accessor?_eq_some_iff.mp ha
    -- Only the accessor for rows looks at the data, which has elements since the kind is right.
    cases a with
    | array =>
        have harray : d.kind = .array := (Option.some.inj hkind).symm
        obtain ⟨v, hv⟩ := items_of_array (h.symm.trans harray)
        exact ⟨v, by simp [read, check, harray, bind, Except.bind, hv]⟩
    | any => cases hkind
    | _ =>
        have hown := (Option.some.inj hkind).symm
        exact ⟨d.data, by simp [read, check, hown, bind, Except.bind, pure, Except.pure]⟩
  other := by
    intro a k ha hother
    refine read_mismatch ha ?_
    rintro rfl
    exact hother (accessor?_eq_some_iff.mpr ha)

end Dynamic

/-! ## The table -/

/-- Every registered record is there, and its value is sound. -/
def Bindings.Sound (b : Bindings κ) : Prop :=
  ∀ id, b.isRegistered id = true → ∃ r, b.record? id = some r ∧ r.value.Sound

/-- An edit that gives the variables of the table only values that fit.  A record that is made and
not registered may have any value. -/
def Edit.Fits : Edit κ → Prop
  | newRecord _ _ => True
  | putVariable _ => False
  | defineVariable _ value => value.Fits
  | updateVariable _ value => value.Fits
  | putFunction _ _ => True
  | rename _ _ => True
  | assign _ _ => False

namespace Bindings

variable {b : Bindings κ}

theorem sound_empty : ({} : Bindings κ).Sound := by
  intro id hid
  cases hid

theorem isRegistered_of_recordNamed? {name : String} {id : RecordId}
    (h : b.recordNamed? name = some id) : b.isRegistered id = true := by
  obtain ⟨ids, hids, hid⟩ := Option.bind_eq_some_iff.mp h
  obtain ⟨filedName, hentry⟩ := Dictionary.exists_mem_of_get? hids
  rw [isRegistered_iff]
  exact List.mem_flatMap.mpr ⟨_, hentry, List.mem_of_head? hid⟩

theorem Sound.value? (h : b.Sound) {name : String} {v : Dynamic} (hv : b.value? name = some v) :
    v.Sound := by
  obtain ⟨id, r, hid, hr, rfl⟩ := value?_eq_some_iff.mp hv
  obtain ⟨r', hr', hsound⟩ := h id (isRegistered_of_recordNamed? hid)
  cases hr.symm.trans hr'
  exact hsound

theorem Sound.newRecord (h : b.Sound) (name : String) (value : Dynamic) :
    (b.newRecord name value).2.Sound := by
  intro id hid
  obtain ⟨r, hr, hsound⟩ := h id hid
  exact ⟨r, record?_newRecord hr name value, hsound⟩

/-- A new record is registered with the others. -/
theorem Sound.file (h : b.Sound) (name : String) {value : Dynamic} (hvalue : value.Sound) :
    Sound { (b.newRecord name value).2 with
      filed := Bindings.file name b.records.length b.filed } := by
  intro id hid
  rw [isRegistered_iff, (ids_file _ _ _).mem_iff, List.mem_append, List.mem_singleton] at hid
  rcases hid with hid | rfl
  · exact h.newRecord name value id ((isRegistered_iff b id).mpr hid)
  · exact ⟨⟨name, value⟩, List.getElem?_concat_length, hvalue⟩

theorem Sound.modifyRecord (h : b.Sound) (id : RecordId) {f : Record → Record}
    (hf : ∀ r, r.value.Sound → (f r).value.Sound) : (b.modifyRecord id f).Sound := by
  intro id' hid'
  obtain ⟨r, hr, hsound⟩ := h id' hid'
  refine ⟨if id = id' then f r else r, ?_, ?_⟩
  · simp only [Bindings.modifyRecord, record?] at hr ⊢
    rw [List.getElem?_modify, hr]
    rfl
  · split
    · exact hf r hsound
    · exact hsound

theorem updateVariable_cases (b : Bindings κ) (id : RecordId) (value : Value) :
    (b.updateVariable id value).2 = b ∨
      (b.updateVariable id value).2 = b.assign id (Dynamic.wrap value) := by
  unfold updateVariable
  split
  · split
    · exact .inl rfl
    · exact .inr rfl
  · exact .inl rfl

end Bindings

namespace Edit

theorem apply_sound {b : Bindings κ} (h : b.Sound) {e : Edit κ} (he : e.Fits) :
    (e.apply b).Sound := by
  cases e with
  | newRecord name value => exact h.newRecord name value
  | putVariable id => cases he
  | defineVariable name value =>
      change (b.defineVariable name value).2.Sound
      rw [Bindings.defineVariable_eq]
      split
      · exact h.newRecord name (Dynamic.wrap value)
      · exact h.file name (Dynamic.wrap_sound he)
  | updateVariable id value =>
      rw [apply, perform]
      rcases b.updateVariable_cases id value with hsame | hassign
      · rw [hsame]
        exact h
      · rw [hassign]
        exact h.modifyRecord id fun _ _ => Dynamic.wrap_sound he
  | putFunction name code => exact h
  | rename id name => exact h.modifyRecord id fun _ hr => hr
  | assign id value => cases he

end Edit

theorem Bindings.edit_sound {b : Bindings κ} (h : b.Sound) {edits : List (Edit κ)}
    (hedits : ∀ e ∈ edits, e.Fits) : (b.edit edits).Sound := by
  induction edits generalizing b with
  | nil => exact h
  | cons e edits ih =>
      have hfirst := Edit.apply_sound h (hedits e List.mem_cons_self)
      exact ih hfirst fun e' he' => hedits e' (List.mem_cons_of_mem e he')

/-! ## Evaluation -/

/-- What is assumed of natives.  In a sound table, with sound arguments, they change it only by
edits that fit, and what they return may have any tag on plain data. -/
structure Natives.KindSafe (natives : Natives κ σ) : Prop where
  edits : ∀ code arguments w, w.bindings.Sound → (∀ d ∈ arguments, d.Sound) →
    ∃ edits : List (Edit κ), (∀ e ∈ edits, e.Fits) ∧
      (natives code arguments w).2.bindings = w.bindings.edit edits
  results : ∀ code arguments w, w.bindings.Sound → (∀ d ∈ arguments, d.Sound) →
    ∀ v, (natives code arguments w).1 = .ok v → v.TaggedOnce

/-- What a native receives for an argument. -/
structure Received (t : Tree) (d : Dynamic) : Prop where
  sound : d.Sound
  literal : t.shape = .literal → d.kind = .number ∨ d.kind = .string
  unspelled : t.shape = .literal ∨ t.shape = .call → d.Unspelled
  reads : d.ReadByKind

/-- A computation leaves the table sound, and its result has a property. -/
structure Safe {α : Type} (Q : α → Prop) (x : Except Failure α × Machine κ σ) : Prop where
  sound : x.2.world.bindings.Sound
  result : ∀ a, x.1 = .ok a → Q a

section Safe

variable {α β : Type} {Q : α → Prop} {R : β → Prop} {m : Machine κ σ}

theorem safe_ok {a : α} (hm : m.world.bindings.Sound) (ha : Q a) : Safe Q (.ok a, m) :=
  ⟨hm, fun _ h => Except.ok.inj h ▸ ha⟩

theorem safe_error (e : Failure) (hm : m.world.bindings.Sound) : Safe Q (.error e, m) :=
  ⟨hm, nofun⟩

theorem Safe.andThen {x : Except Failure α × Machine κ σ}
    {next : α → Machine κ σ → Except Failure β × Machine κ σ} (hx : Safe Q x)
    (hnext : ∀ a m, m.world.bindings.Sound → Q a → Safe R (next a m)) :
    Safe R (Machine.andThen x next) := by
  obtain ⟨e | a, m⟩ := x
  · exact safe_error e hx.sound
  · exact hnext a m hx.sound (hx.result a rfl)

end Safe

theorem received_literal (text : String) :
    Received (.literal text) (Dynamic.coerce (.text text)) := by
  obtain ⟨hsound, hunspelled⟩ := Dynamic.coerceData_text_fits text
  exact ⟨hsound, fun _ => Dynamic.kind_coerce_text text, fun _ => hunspelled,
    Dynamic.readByKind_of_sound hsound⟩

theorem received_call {v : Value} (hv : v.TaggedOnce) (name : String) (args : List Tree) :
    Received (.call name args) (Dynamic.coerce v) := by
  obtain ⟨hsound, hunspelled⟩ := Dynamic.coerce_fits hv
  exact ⟨hsound, nofun, fun _ => hunspelled, Dynamic.readByKind_of_sound hsound⟩

theorem received_reference {d : Dynamic} (hd : d.Sound) (name : String) :
    Received (.reference name) d :=
  ⟨hd, nofun, nofun, Dynamic.readByKind_of_sound hd⟩

theorem sound_of_received {args : List Tree} {values : List Dynamic}
    (h : List.Forall₂ Received args values) : ∀ d ∈ values, d.Sound := by
  induction h with
  | nil => nofun
  | cons hfirst _ ih => exact List.forall_mem_cons.mpr ⟨hfirst.sound, ih⟩

namespace Machine

variable {natives : Natives κ σ}

theorem invoke_safe (hnatives : natives.KindSafe) {m : Machine κ σ} (hm : m.world.bindings.Sound)
    {call : Invocation κ} (hargs : ∀ d ∈ call.arguments, d.Sound) :
    Safe Value.TaggedOnce (m.invoke natives call) where
  sound := by
    obtain ⟨edits, hfits, hedits⟩ := hnatives.edits call.code call.arguments m.world hm hargs
    show (natives call.code call.arguments m.world).2.bindings.Sound
    rw [hedits]
    exact Bindings.edit_sound hm hfits
  result := hnatives.results call.code call.arguments m.world hm hargs

theorem call_safe (hnatives : natives.KindSafe) (name : String) {args : List Tree}
    {m : Machine κ σ} (hm : m.world.bindings.Sound)
    (hargs : Safe (List.Forall₂ Received args) (m.arguments natives args)) :
    Safe Value.TaggedOnce (m.call natives name args) := by
  cases hf : m.world.bindings.function? name with
  | none =>
      simp only [call, hf]
      exact safe_error _ hm
  | some code =>
      rw [call_of_function natives args hf]
      exact hargs.andThen fun values m' hm' hvalues =>
        invoke_safe hnatives hm' (sound_of_received hvalues)

mutual

/-- What an argument gives is as natives receive it. -/
theorem argument_safe (hnatives : natives.KindSafe) : ∀ (t : Tree) (m : Machine κ σ),
    m.world.bindings.Sound → Safe (Received t) (m.argument natives t)
  | .literal text, m, hm => safe_ok hm (received_literal text)
  | .call name args, m, hm => by
      rw [argument_call]
      have hcall := call_safe hnatives name hm (arguments_safe hnatives args m hm)
      exact hcall.andThen fun v m' hm' hv => safe_ok hm' (received_call hv name args)
  | .reference name, m, hm => by
      cases hd : m.world.bindings.value? name with
      | none =>
          simp only [argument, hd]
          exact safe_error _ hm
      | some d =>
          simp only [argument, hd]
          exact safe_ok hm (received_reference (hm.value? hd) name)
  | .word _, _, hm => safe_error _ hm
  | .program _, _, hm => safe_error _ hm

theorem arguments_safe (hnatives : natives.KindSafe) : ∀ (args : List Tree) (m : Machine κ σ),
    m.world.bindings.Sound → Safe (List.Forall₂ Received args) (m.arguments natives args)
  | [], _, hm => safe_ok hm .nil
  | t :: args, m, hm => by
      rw [arguments_cons]
      refine (argument_safe hnatives t m hm).andThen ?_
      intro d m₁ hm₁ hd
      refine (arguments_safe hnatives args m₁ hm₁).andThen ?_
      intro values m₂ hm₂ hvalues
      exact safe_ok hm₂ (.cons hd hvalues)

end

theorem statements_safe (hnatives : natives.KindSafe) (body : List Tree) {m : Machine κ σ}
    (hm : m.world.bindings.Sound) : Safe (fun _ => True) (m.statements natives body) := by
  induction body generalizing m with
  | nil => exact safe_ok hm trivial
  | cons t rest ih =>
      cases t with
      | call name args =>
          rw [statements_call]
          have hcall := call_safe hnatives name hm (arguments_safe hnatives args m hm)
          exact hcall.andThen fun _ _ hm' _ => ih hm'
      | program _ => exact ih hm
      | reference _ => exact ih hm
      | word _ => exact ih hm
      | literal _ => exact ih hm

end Machine

/-! ## Whole runs -/

section Runs

variable {natives : Natives κ σ}

theorem Reaches.sound (hnatives : natives.KindSafe) {t t' : Tree} {m m' : Machine κ σ}
    (h : Reaches natives t m t' m') (hm : m.world.bindings.Sound) : m'.world.bindings.Sound := by
  induction h with
  | here => exact hm
  | inside _ _ _ ih => exact ih (Machine.arguments_safe hnatives _ _ hm).sound

theorem RunReaches.sound (hnatives : natives.KindSafe) {body : List Tree} {t : Tree}
    {m m' : Machine κ σ} (h : RunReaches natives body m t m') (hm : m.world.bindings.Sound) :
    m'.world.bindings.Sound := by
  cases h with
  | @within before _ _ _ _ _ _ _ hbefore hreaches =>
      have hstatements := (Machine.statements_safe hnatives before hm).sound
      rw [hbefore] at hstatements
      exact hreaches.sound hnatives hstatements

end Runs

/-- An invocation of a call that a run reaches, bound at the moment at which the call began, which
receives for each argument of the call what it should. -/
def ReceivedInRun (natives : Natives κ σ) (body : List Tree) (m : Machine κ σ)
    (call : Invocation κ) (before : List (Invocation κ)) : Prop :=
  ∃ args m', RunReaches natives body m (.call call.name args) m' ∧ Bound natives args m' call ∧
    before = (m'.reaching natives args).trace ∧ List.Forall₂ Received args call.arguments

/-- **Every native receives sound values.**  The table begins with sound values, and natives keep to
what is assumed of them.  Then each invocation of a run, whether the run ends well or not, receives
a sound value for every argument, and of the typed accessors exactly the one of its kind can read
it.  For a literal it is a number or a text, and for a literal or a call it is no text that spells a
number.  The table is sound after the run. -/
theorem interpret_kinds {natives : Natives κ σ} (hnatives : natives.KindSafe) (body : List Tree)
    {m : Machine κ σ} (hm : m.world.bindings.Sound) :
    Grows (ReceivedInRun natives body m) m.trace (m.interpret natives (.program body)).2.trace ∧
      (m.interpret natives (.program body)).2.world.bindings.Sound := by
  refine ⟨(Machine.statements_grows natives body m).mono ?_,
    (Machine.statements_safe hnatives body hm).sound⟩
  rintro call before ⟨args, m', hreaches, hbound, hbefore⟩
  have hargs := Machine.arguments_safe hnatives args m' (hreaches.sound hnatives hm)
  exact ⟨args, m', hreaches, hbound, hbefore,
    hargs.result _ (congrArg Prod.fst hbound.arguments.arguments)⟩

/-- Natives of which one stores each of its arguments in the first record, and returns a text with
the tag of a row. -/
def mislabeling : Natives Bool Unit := fun stores args w =>
  if stores then
    (.ok (.tagged .array (.text "12")),
      { w with bindings := w.bindings.edit (args.map fun d => .updateVariable 0 d.toValue) })
  else (.ok .none, w)

/-- A call whose first argument stores a text in "x" and gives a numeral with a wrong tag.  The call
receives a number, and the text for "x". -/
theorem interpret_kinds_mislabeled :
    let bindings : Bindings Bool := Bindings.edit {}
      [.putFunction "f" false, .putFunction "g" true, .defineVariable "x" (.int 1)]
    let m : Machine Bool Unit := { world := { bindings := bindings, host := () } }
    let body : List Tree := [.call "f" [.call "g" [.literal "ab"], .reference "x"]]
    let run := m.interpret mislabeling (.program body)
    mislabeling.KindSafe ∧ m.world.bindings.Sound ∧
    run.2.trace.map (fun call => call.arguments.map Dynamic.kind) =
      [[.string], [.number, .string]] ∧
    Grows (ReceivedInRun mislabeling body m) [] run.2.trace ∧ run.2.world.bindings.Sound := by
  intro bindings m body run
  have hnatives : mislabeling.KindSafe := by
    constructor
    · intro stores args w _ hargs
      cases stores with
      | false => exact ⟨[], nofun, rfl⟩
      | true =>
          refine ⟨_, ?_, rfl⟩
          intro e he
          obtain ⟨d, hd, rfl⟩ := List.mem_map.mp he
          exact hargs d hd
    · intro stores args w _ _ v hv
      cases stores <;> cases hv <;> trivial
  have hm : m.world.bindings.Sound := by
    refine Bindings.edit_sound Bindings.sound_empty ?_
    simp [Edit.Fits, Value.Fits]
  obtain ⟨hgrows, hsound⟩ := interpret_kinds hnatives body hm
  exact ⟨hnatives, hm, by rfl, hgrows, hsound⟩

end BracketCall
