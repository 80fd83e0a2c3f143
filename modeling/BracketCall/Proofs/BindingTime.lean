import BracketCall.Proofs.RegistrationLog
import BracketCall.Proofs.Sequencing

/-!
# When names are bound

Natives may change the bindings while a program runs.  So it matters at which moment of the run a
name is looked up.

* The function of a call is looked up when the evaluation of the call begins, before its arguments.
  What its own arguments register comes too late for it.
* A variable is looked up when its position among the arguments is reached: the arguments to its left
  have had all their effects, those to its right none.  The value is then kept as it is.

**Method.**  `Reaches` tells at which moments, that is with which machines, a run comes to which
nodes.  A moment among arguments is told by the arguments to its left.  `Collected` and `Bound` say
what holds for an invocation in terms of the moment at which its call began.

**Results.**
* `call_eq_iff_calls`: what becomes of a call, from the moment at which it begins.
* `argument_grows`: every invocation of a run is bound as above, at any depth.
* `reaches_edited`: if natives only edit the table, its history at any moment of a run continues the
  one at the beginning.
* `call_binding`: all of it, for any call.
-/

namespace BracketCall

variable {κ σ : Type}

/-- Every change of the bindings is a sequence of edits. -/
def Natives.EditOnly (natives : Natives κ σ) : Prop :=
  ∀ code arguments w, ∃ edits, (natives code arguments w).2.bindings = w.bindings.edit edits

namespace Machine

variable (natives : Natives κ σ)

/-- The machine when an argument is reached, with the arguments to its left evaluated. -/
def reaching (left : List Tree) (m : Machine κ σ) : Machine κ σ :=
  (m.arguments natives left).2

end Machine

section Moments

variable (natives : Natives κ σ)

/-- What an argument gives, and the machine after it. -/
inductive Yields : Tree → Machine κ σ → Dynamic → Machine κ σ → Prop
  | literal {text : String} {m : Machine κ σ} :
      Yields (.literal text) m (Dynamic.coerce (.text text)) m
  | reference {name : String} {m : Machine κ σ} {id : RecordId} {r : Record} :
      m.world.bindings.recordNamed? name = some id →
      m.world.bindings.record? id = some r →
      Yields (.reference name) m r.value m
  | call {name : String} {args : List Tree} {m m' : Machine κ σ} {result : Value} :
      m.call natives name args = (.ok result, m') →
      Yields (.call name args) m (Dynamic.coerce result) m'

/-- The values of arguments, each from the moment at which its own position is reached. -/
structure Collected (args : List Tree) (m : Machine κ σ) (values : List Dynamic) : Prop where
  length : values.length = args.length
  each : ∀ left t right, args = left ++ t :: right →
    ∃ v, Yields natives t (m.reaching natives left) v (m.reaching natives (left ++ [t])) ∧
      values[left.length]? = some v

/-- The invocation of a call with these arguments whose evaluation began with machine `m`. -/
structure Bound (args : List Tree) (m : Machine κ σ) (call : Invocation κ) : Prop where
  code : m.world.bindings.function? call.name = some call.code
  arguments : Collected natives args m call.arguments

/-- What becomes of a call: it has no function, or an argument fails, or it is invoked. -/
inductive Calls (name : String) (args : List Tree) (m : Machine κ σ) :
    Except Failure Value × Machine κ σ → Prop
  | undefined :
      m.world.bindings.function? name = none →
      Calls name args m (.error (.fault (.undefinedFunction name)), m)
  | stopped {code : κ} {left right : List Tree} {t : Tree} {values : List Dynamic} {e : Failure}
      {m' : Machine κ σ} :
      m.world.bindings.function? name = some code →
      args = left ++ t :: right →
      Collected natives left m values →
      (m.reaching natives left).argument natives t = (.error e, m') →
      Calls name args m (.error e, m')
  | invoked {call : Invocation κ} :
      call.name = name →
      Bound natives args m call →
      Calls name args m ((m.reaching natives args).invoke natives call)

/-- While the first tree is evaluated, beginning with the first machine, the evaluation of the
second tree begins with the second machine. -/
inductive Reaches : Tree → Machine κ σ → Tree → Machine κ σ → Prop
  | here {t : Tree} {m : Machine κ σ} : Reaches t m t m
  | inside {name : String} {code : κ} {left right : List Tree} {u t : Tree} {m m' : Machine κ σ}
      {values : List Dynamic} :
      m.world.bindings.function? name = some code →
      Collected natives left m values →
      Reaches u (m.reaching natives left) t m' →
      Reaches (.call name (left ++ u :: right)) m t m'

end Moments

/-- A trace grows, and each new invocation satisfies `P` together with the trace before it. -/
inductive Grows (P : Invocation κ → List (Invocation κ) → Prop) :
    List (Invocation κ) → List (Invocation κ) → Prop
  | refl {trace : List (Invocation κ)} : Grows P trace trace
  | concat {trace trace' : List (Invocation κ)} {call : Invocation κ} :
      Grows P trace trace' →
      P call trace' →
      Grows P trace (trace' ++ [call])

theorem Grows.trans {P : Invocation κ → List (Invocation κ) → Prop}
    {trace trace' trace'' : List (Invocation κ)} (h : Grows P trace trace')
    (h' : Grows P trace' trace'') : Grows P trace trace'' := by
  induction h' with
  | refl => exact h
  | concat _ hcall ih => exact .concat ih hcall

theorem Grows.mono {P Q : Invocation κ → List (Invocation κ) → Prop}
    {trace trace' : List (Invocation κ)} (h : Grows P trace trace')
    (hPQ : ∀ call before, P call before → Q call before) : Grows Q trace trace' := by
  induction h with
  | refl => exact .refl
  | concat _ hcall ih => exact .concat ih (hPQ _ _ hcall)

/-! ## Arguments and their moments -/

section Moments

variable {natives : Natives κ σ}

theorem yields_iff {t : Tree} {m m' : Machine κ σ} {v : Dynamic} :
    Yields natives t m v m' ↔ m.argument natives t = (.ok v, m') := by
  constructor
  · intro h
    cases h with
    | literal => rfl
    | reference hid hr =>
        have hvalue := Bindings.value?_eq_some_iff.mpr ⟨_, _, hid, hr, rfl⟩
        rw [Machine.argument, hvalue]
    | call hcall =>
        rw [Machine.argument_call, hcall]
        rfl
  · intro h
    cases t with
    | literal text =>
        cases h
        exact .literal
    | call name args =>
        rw [Machine.argument_call] at h
        obtain ⟨result, m₁, hcall, h⟩ := Machine.andThen_eq_ok h
        cases h
        exact .call hcall
    | reference name =>
        rw [Machine.argument] at h
        split at h
        · cases h
        · next hvalue =>
            cases h
            obtain ⟨id, r, hid, hr, rfl⟩ := Bindings.value?_eq_some_iff.mp hvalue
            exact .reference hid hr
    | word text => cases h
    | program body => cases h

namespace Machine

theorem arguments_append (left right : List Tree) (m : Machine κ σ) :
    m.arguments natives (left ++ right) =
      andThen (m.arguments natives left) fun values m' =>
        andThen (m'.arguments natives right) fun values' m'' => (.ok (values ++ values'), m'') := by
  induction left generalizing m with
  | nil =>
      rw [List.nil_append, arguments]
      simp only [andThen, List.nil_append]
      obtain ⟨_ | _, _⟩ := m.arguments natives right <;> rfl
  | cons t left ih =>
      rw [List.cons_append, arguments_cons, arguments_cons, andThen_assoc]
      refine andThen_congr fun value m' _ => ?_
      rw [ih, andThen_assoc, andThen_assoc]
      refine andThen_congr fun values m'' _ => ?_
      rw [andThen_assoc]
      rfl

theorem arguments_singleton (t : Tree) (m : Machine κ σ) :
    m.arguments natives [t] = andThen (m.argument natives t) fun v m' => (.ok [v], m') := by
  rw [arguments_cons]
  rfl

theorem reaching_eq {args : List Tree} {m m' : Machine κ σ}
    {result : Except Failure (List Dynamic)} (h : m.arguments natives args = (result, m')) :
    m.reaching natives args = m' := by
  rw [reaching, h]

theorem reaching_cons {t : Tree} {m m' : Machine κ σ} {v : Dynamic} (args : List Tree)
    (ht : m.argument natives t = (.ok v, m')) :
    m.reaching natives (t :: args) = m'.reaching natives args := by
  rw [reaching, arguments_cons, ht]
  exact andThen_result _ _

/-- Arguments that have values have them up to each position and at it. -/
theorem arguments_split {left right : List Tree} {t : Tree} {m m' : Machine κ σ}
    {values : List Dynamic} (h : m.arguments natives (left ++ t :: right) = (.ok values, m')) :
    ∃ before v later,
      m.arguments natives left = (.ok before, m.reaching natives left) ∧
      (m.reaching natives left).argument natives t = (.ok v, m.reaching natives (left ++ [t])) ∧
      values = before ++ v :: later := by
  rw [arguments_append] at h
  obtain ⟨before, m₁, hleft, h⟩ := andThen_eq_ok h
  obtain ⟨rest, m₂, hrest, h⟩ := andThen_eq_ok h
  cases h
  rw [arguments_cons] at hrest
  obtain ⟨v, m₃, hv, hrest⟩ := andThen_eq_ok hrest
  obtain ⟨later, m₄, -, hrest⟩ := andThen_eq_ok hrest
  cases hrest
  have hnext : m.reaching natives (left ++ [t]) = m₃ := by
    rw [reaching, arguments_append, hleft, andThen, arguments_singleton, hv]
    rfl
  rw [reaching_eq hleft, hnext]
  exact ⟨before, v, later, hleft, hv, rfl⟩

theorem arguments_collected {args : List Tree} {m m' : Machine κ σ} {values : List Dynamic}
    (h : m.arguments natives args = (.ok values, m')) : Collected natives args m values where
  length := arguments_length natives h
  each := by
    rintro left t right rfl
    obtain ⟨before, v, later, hleft, hv, rfl⟩ := arguments_split h
    refine ⟨v, yields_iff.mpr hv, ?_⟩
    rw [← arguments_length natives hleft, List.getElem?_append_right (Nat.le_refl _), Nat.sub_self]
    rfl

end Machine

open Machine

theorem Collected.uncons {t : Tree} {args : List Tree} {m : Machine κ σ} {values : List Dynamic}
    (h : Collected natives (t :: args) m values) :
    ∃ v values' m', values = v :: values' ∧ m.argument natives t = (.ok v, m') ∧
      Collected natives args m' values' := by
  obtain ⟨v, hv, hget⟩ := h.each [] t args rfl
  have ht : m.argument natives t = (.ok v, m.reaching natives [t]) := yields_iff.mp hv
  cases values with
  | nil => cases hget
  | cons first values =>
      cases hget
      refine ⟨v, values, m.reaching natives [t], rfl, ht, ?_, ?_⟩
      · exact Nat.succ.inj h.length
      · rintro left u right rfl
        obtain ⟨w, hw, hget⟩ := h.each (t :: left) u right rfl
        rw [List.cons_append, reaching_cons left ht, reaching_cons (left ++ [u]) ht] at hw
        exact ⟨w, hw, hget⟩

theorem Collected.arguments {args : List Tree} {m : Machine κ σ} {values : List Dynamic}
    (h : Collected natives args m values) :
    m.arguments natives args = (.ok values, m.reaching natives args) := by
  induction args generalizing m values with
  | nil =>
      rw [List.length_eq_zero_iff.mp h.length]
      rfl
  | cons t args ih =>
      obtain ⟨v, values', m', rfl, ht, hrest⟩ := h.uncons
      rw [arguments_cons, ht, andThen, ih hrest, reaching_cons args ht]
      rfl

namespace Machine

/-- Arguments fail if one of them fails and those to its left do not. -/
theorem arguments_stopped_iff {args : List Tree} {m m' : Machine κ σ} {e : Failure} :
    m.arguments natives args = (.error e, m') ↔
      ∃ left t right values, args = left ++ t :: right ∧ Collected natives left m values ∧
        (m.reaching natives left).argument natives t = (.error e, m') := by
  constructor
  · intro h
    -- From the end: the last argument is reached only if the others do not fail.
    induction args using List.reverseRecOn generalizing m' with
    | nil => cases h
    | append_singleton args last ih =>
        rw [arguments_append] at h
        rcases andThen_eq_error h with h | ⟨values, m₁, hargs, h⟩
        · obtain ⟨left, t, right, values, rfl, hleft, ht⟩ := ih h
          exact ⟨left, t, right ++ [last], values, by simp, hleft, ht⟩
        · refine ⟨args, last, [], values, rfl, arguments_collected hargs, ?_⟩
          rw [arguments_singleton, andThen_assoc] at h
          rw [reaching_eq hargs]
          rcases andThen_eq_error h with h | ⟨_, _, _, h⟩
          · exact h
          · cases h
  · rintro ⟨left, t, right, values, rfl, hleft, ht⟩
    rw [arguments_append, hleft.arguments, andThen, arguments_cons, ht]
    rfl

/-- What becomes of a call, from the moment at which it begins. -/
theorem call_eq_iff_calls {name : String} {args : List Tree} {m : Machine κ σ}
    {result : Except Failure Value × Machine κ σ} :
    m.call natives name args = result ↔ Calls natives name args m result := by
  constructor
  · rintro rfl
    cases hf : m.world.bindings.function? name with
    | none =>
        simp only [call, hf]
        exact .undefined hf
    | some code =>
        rw [call_of_function natives args hf]
        rcases hargs : m.arguments natives args with ⟨e | values, m'⟩
        · obtain ⟨left, t, right, values, hsplit, hleft, ht⟩ := arguments_stopped_iff.mp hargs
          exact .stopped hf hsplit hleft ht
        · rw [andThen, ← reaching_eq hargs]
          exact .invoked rfl ⟨hf, arguments_collected hargs⟩
  · intro h
    cases h with
    | undefined hf => simp only [call, hf]
    | stopped hf hsplit hleft ht =>
        rw [call_of_function natives args hf,
          arguments_stopped_iff.mpr ⟨_, _, _, _, hsplit, hleft, ht⟩]
        rfl
    | @invoked call hname hbound =>
        subst hname
        rw [call_of_function natives args hbound.code, hbound.arguments.arguments]
        rfl

end Machine
end Moments

/-! ## The invocations of a run -/

section Invocations

variable {natives : Natives κ σ}

/-- An invocation of a call that is reached while a tree is evaluated, bound at the moment at which
the call began, with the trace just before it. -/
def BoundWithin (natives : Natives κ σ) (t : Tree) (m : Machine κ σ) (call : Invocation κ)
    (before : List (Invocation κ)) : Prop :=
  ∃ args m', Reaches natives t m (.call call.name args) m' ∧ Bound natives args m' call ∧
    before = (m'.reaching natives args).trace

/-- The same for one of several arguments, with those to its left evaluated before it. -/
def BoundAmong (natives : Natives κ σ) (args : List Tree) (m : Machine κ σ)
    (call : Invocation κ) (before : List (Invocation κ)) : Prop :=
  ∃ left t right values m', args = left ++ t :: right ∧
    m.arguments natives left = (.ok values, m') ∧ BoundWithin natives t m' call before

theorem BoundAmong.within {name : String} {code : κ} {args : List Tree} {m : Machine κ σ}
    {call : Invocation κ} {before : List (Invocation κ)}
    (hf : m.world.bindings.function? name = some code)
    (h : BoundAmong natives args m call before) :
    BoundWithin natives (.call name args) m call before := by
  obtain ⟨left, t, right, values, m', rfl, hleft, inner, m'', hreaches, hbound, hbefore⟩ := h
  rw [← Machine.reaching_eq hleft] at hreaches
  exact ⟨inner, m'', .inside hf (Machine.arguments_collected hleft) hreaches, hbound, hbefore⟩

theorem BoundAmong.cons {t : Tree} {args : List Tree} {m m' : Machine κ σ} {v : Dynamic}
    {call : Invocation κ} {before : List (Invocation κ)}
    (ht : m.argument natives t = (.ok v, m')) (h : BoundAmong natives args m' call before) :
    BoundAmong natives (t :: args) m call before := by
  obtain ⟨left, u, right, values, m'', rfl, hleft, hwithin⟩ := h
  refine ⟨t :: left, u, right, v :: values, m'', rfl, ?_, hwithin⟩
  rw [Machine.arguments_cons, ht, Machine.andThen, hleft]
  rfl

namespace Machine

/-- The step from the arguments of a call to the call: one more invocation, of the function that was
looked up first. -/
theorem call_grows (name : String) {args : List Tree} {m : Machine κ σ}
    (hargs : Grows (BoundAmong natives args m) m.trace (m.reaching natives args).trace) :
    Grows (BoundWithin natives (.call name args) m) m.trace (m.call natives name args).2.trace := by
  cases hf : m.world.bindings.function? name with
  | none =>
      simp only [call, hf]
      exact .refl
  | some code =>
      have hgrows := hargs.mono fun _ _ h => h.within hf
      rw [call_of_function natives args hf]
      rcases heq : m.arguments natives args with ⟨e | values, m'⟩
      · rw [reaching_eq heq] at hgrows
        exact hgrows
      · rw [reaching_eq heq] at hgrows
        refine .concat hgrows ⟨args, m, .here, ⟨hf, arguments_collected heq⟩, ?_⟩
        rw [reaching_eq heq]

mutual

theorem argument_grows : ∀ (t : Tree) (m : Machine κ σ),
    Grows (BoundWithin natives t m) m.trace (m.argument natives t).2.trace
  | .literal _, _ => .refl
  | .call name args, m => by
      rw [argument_call, andThen_result]
      exact call_grows name (arguments_grows args m)
  | .reference name, m => by
      cases hv : m.world.bindings.value? name <;> simpa only [argument, hv] using Grows.refl
  | .word _, _ => .refl
  | .program _, _ => .refl

theorem arguments_grows : ∀ (args : List Tree) (m : Machine κ σ),
    Grows (BoundAmong natives args m) m.trace (m.reaching natives args).trace
  | [], _ => .refl
  | t :: args, m => by
      have hfirst : Grows (BoundAmong natives (t :: args) m) m.trace
          (m.argument natives t).2.trace :=
        (argument_grows t m).mono fun _ _ h => ⟨[], t, args, [], m, rfl, rfl, h⟩
      rcases ht : m.argument natives t with ⟨e | v, m'⟩
      · rw [reaching, arguments_cons, ht]
        rw [ht] at hfirst
        exact hfirst
      · rw [reaching_cons args ht]
        rw [ht] at hfirst
        exact hfirst.trans ((arguments_grows args m').mono fun _ _ h => h.cons ht)

end

end Machine

end Invocations

/-! ## The table along a run -/

section Table

variable {natives : Natives κ σ}

theorem Reaches.preserves {P : World κ σ → Prop} (hP : natives.Preserve P) {t t' : Tree}
    {m m' : Machine κ σ} (h : Reaches natives t m t' m') (hm : P m.world) : P m'.world := by
  induction h with
  | here => exact hm
  | inside _ _ _ ih => exact ih (Machine.arguments_preserve hP _ _ hm)

/-- Natives that only edit the table continue the edits that led to it. -/
theorem Natives.EditOnly.preserve (hedit : natives.EditOnly) (edits : List (Edit κ)) :
    natives.Preserve fun w =>
      ∃ later, w.bindings = (({} : History κ).run (edits ++ later)).bindings := by
  rintro code arguments w ⟨later, hw⟩
  obtain ⟨new, hnew⟩ := hedit code arguments w
  refine ⟨later ++ new, ?_⟩
  rw [hnew, hw, ← History.bindings_run, ← List.append_assoc]
  exact congrArg History.bindings (List.foldl_append).symm

/-- What is found in a table with this history: of the functions with a name the last one that was
registered, of the records the first one, with the value that it has by then. -/
structure Finds (natives : Natives κ σ) (h : History κ) (m : Machine κ σ) : Prop where
  function : ∀ name, m.world.bindings.function? name =
    (h.functionLog.reverse.find? fun entry => entry.1 == name).map Prod.snd
  record : ∀ name entry, h.log.find? (fun entry => entry.1 == name) = some entry →
    ∃ r, m.world.bindings.record? entry.2 = some r ∧
      m.argument natives (.reference name) = (.ok r.value, m)
  undefined : ∀ name, h.log.find? (fun entry => entry.1 == name) = none →
    m.argument natives (.reference name) = (.error (.fault (.undefinedVariable name)), m)

theorem History.Kept.finds {h : History κ} (hkept : h.Kept) {m : Machine κ σ}
    (hm : m.world.bindings = h.bindings) : Finds natives h m where
  function name := by
    rw [hm]
    exact hkept.refines.functionNamed name
  record name entry hentry := by
    have hid := hkept.recordNamed? name
    rw [hentry, Option.map_some, ← hm] at hid
    have hmem : entry.2 ∈ h.ids := List.mem_map_of_mem (List.mem_of_find?_eq_some hentry)
    obtain ⟨r, hr⟩ := hkept.record? hmem
    rw [← hm] at hr
    exact ⟨r, hr, yields_iff.mp (.reference hid hr)⟩
  undefined name hnone := by
    have hid := hkept.recordNamed? name
    rw [hnone, Option.map_none, ← hm] at hid
    rw [Machine.argument, Bindings.value?, hid]
    rfl

/-- Along a run, the table is what the edits before the run and those of the natives made it. -/
theorem reaches_edited (hedit : natives.EditOnly) {edits : List (Edit κ)} {t t' : Tree}
    {m m' : Machine κ σ} (hm : m.world.bindings = (({} : History κ).run edits).bindings)
    (h : Reaches natives t m t' m') :
    ∃ later, m'.world.bindings = (({} : History κ).run (edits ++ later)).bindings ∧
      Finds natives (({} : History κ).run (edits ++ later)) m' := by
  have hstart : ∃ later, m.world.bindings = (({} : History κ).run (edits ++ later)).bindings :=
    ⟨[], by rw [List.append_nil, hm]⟩
  obtain ⟨later, hlater⟩ := h.preserves (hedit.preserve edits) hstart
  exact ⟨later, hlater, (History.run_kept History.kept_empty _).finds hlater⟩

end Table

/-- **When names are bound.**  A call finds its function when it begins and invokes just this one;
its arguments have the values of the moments at which their positions were reached.  The same is
true of every invocation that is made on the way, at any depth.  At each moment that is reached, if
natives only edit the table, the last function and the first record of a name are found. -/
theorem call_binding (natives : Natives κ σ) (name : String) (args : List Tree)
    (m : Machine κ σ) :
    (∀ result, m.call natives name args = result ↔ Calls natives name args m result) ∧
    Grows (BoundWithin natives (.call name args) m) m.trace (m.call natives name args).2.trace ∧
    ∀ edits, natives.EditOnly →
      m.world.bindings = (({} : History κ).run edits).bindings →
      ∀ t m', Reaches natives (.call name args) m t m' →
        ∃ later, m'.world.bindings = (({} : History κ).run (edits ++ later)).bindings ∧
          Finds natives (({} : History κ).run (edits ++ later)) m' := by
  refine ⟨fun _ => Machine.call_eq_iff_calls, ?_, ?_⟩
  · exact Machine.call_grows name (Machine.arguments_grows args m)
  · intro edits hedit hm t m' hreaches
    exact reaches_edited hedit hm hreaches

/-- Natives of which one takes the name "f" for itself and gives the first record another value. -/
def meddling : Natives Bool Unit := fun meddles _ w =>
  (.ok .none,
    if meddles then
      { w with bindings := w.bindings.edit [.putFunction "f" true, .updateVariable 0 (.int 2)] }
    else w)

/-- Arguments with the same variable before and after a call. -/
def aroundCall : List Tree :=
  [.reference "x", .call "g" [], .reference "x"]

/-- A call of "f" whose argument takes the name "f" away and changes "x": the old function is invoked,
with the old and the new value. -/
theorem call_binding_meddled :
    let edits : List (Edit Bool) :=
      [.putFunction "f" false, .putFunction "g" true, .defineVariable "x" (.int 1)]
    let m : Machine Bool Unit :=
      { world := { bindings := (({} : History Bool).run edits).bindings, host := () } }
    let call : Invocation Bool :=
      { name := "f", code := false,
        arguments := [Dynamic.wrap (.int 1), Dynamic.nothing, Dynamic.wrap (.int 2)] }
    let m' := m.reaching meddling [.reference "x", .call "g" []]
    meddling.EditOnly ∧
    m.call meddling "f" aroundCall = (m.reaching meddling aroundCall).invoke meddling call ∧
    Reaches meddling (.call "f" aroundCall) m (.reference "x") m' ∧
    m'.world.bindings.function? "f" = some true ∧
    ∃ later, m'.world.bindings = (({} : History Bool).run (edits ++ later)).bindings ∧
      Finds meddling (({} : History Bool).run (edits ++ later)) m' := by
  intro edits m call m'
  have hedit : meddling.EditOnly := by
    intro meddles arguments w
    cases meddles with
    | false => exact ⟨[], rfl⟩
    | true => exact ⟨_, rfl⟩
  have hbound : Bound meddling aroundCall m call :=
    ⟨rfl, Machine.arguments_collected rfl⟩
  have hsplit : aroundCall = [.reference "x", .call "g" []] ++ .reference "x" :: [] := rfl
  have hreaches : Reaches meddling (.call "f" aroundCall) m (.reference "x") m' := by
    rw [hsplit]
    exact .inside rfl (Machine.arguments_collected rfl) .here
  obtain ⟨hcalls, -, hfinds⟩ := call_binding meddling "f" aroundCall m
  exact ⟨hedit, (hcalls _).mpr (.invoked rfl hbound), hreaches, rfl,
    hfinds edits hedit rfl _ _ hreaches⟩

end BracketCall
