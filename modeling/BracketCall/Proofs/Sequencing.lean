import BracketCall.Run

/-!
# Computations in sequence

Every computation of a run gives a result or a failure, and a machine in both cases.  A failure ends
the computation that it is a part of.  This is said once, as `Machine.andThen`, and the equations of
a run are restated with it, so that a proof about a run goes from one computation to the next
without taking either apart.

The last part is about what every native preserves: so does then every part of a run.
-/

namespace BracketCall

variable {κ σ : Type}

/-- No native changes the bindings. -/
def Natives.KeepsBindings (natives : Natives κ σ) : Prop :=
  ∀ code arguments w, (natives code arguments w).2.bindings = w.bindings

/-- What holds of the world before a native is invoked holds after it. -/
def Natives.Preserve (natives : Natives κ σ) (P : World κ σ → Prop) : Prop :=
  ∀ code arguments w, P w → P (natives code arguments w).2

namespace Machine

variable {α β γ : Type}

/-- A computation, and another one with its result if it gives one. -/
def andThen (x : Except Failure α × Machine κ σ)
    (next : α → Machine κ σ → Except Failure β × Machine κ σ) :
    Except Failure β × Machine κ σ :=
  match x with
  | (.error e, m) => (.error e, m)
  | (.ok a, m) => next a m

theorem andThen_assoc (x : Except Failure α × Machine κ σ)
    (f : α → Machine κ σ → Except Failure β × Machine κ σ)
    (g : β → Machine κ σ → Except Failure γ × Machine κ σ) :
    andThen (andThen x f) g = andThen x fun a m => andThen (f a m) g := by
  obtain ⟨_ | _, _⟩ := x <;> rfl

theorem andThen_congr {x : Except Failure α × Machine κ σ}
    {f g : α → Machine κ σ → Except Failure β × Machine κ σ}
    (h : ∀ a m, x = (.ok a, m) → f a m = g a m) :
    andThen x f = andThen x g := by
  obtain ⟨_ | a, m⟩ := x
  · rfl
  · exact h a m rfl

theorem andThen_eq_ok {x : Except Failure α × Machine κ σ}
    {next : α → Machine κ σ → Except Failure β × Machine κ σ} {b : β} {m' : Machine κ σ}
    (h : andThen x next = (.ok b, m')) : ∃ a m, x = (.ok a, m) ∧ next a m = (.ok b, m') := by
  obtain ⟨_ | a, m⟩ := x
  · cases h
  · exact ⟨a, m, rfl, h⟩

theorem andThen_eq_error {x : Except Failure α × Machine κ σ}
    {next : α → Machine κ σ → Except Failure β × Machine κ σ} {e : Failure} {m' : Machine κ σ}
    (h : andThen x next = (.error e, m')) :
    x = (.error e, m') ∨ ∃ a m, x = (.ok a, m) ∧ next a m = (.error e, m') := by
  obtain ⟨_ | a, m⟩ := x
  · cases h
    exact Or.inl rfl
  · exact Or.inr ⟨a, m, rfl, h⟩

/-- A result that is only changed leaves the machine alone. -/
theorem andThen_result (x : Except Failure α × Machine κ σ) (f : α → β) :
    (andThen x fun a m => (.ok (f a), m)).2 = x.2 := by
  obtain ⟨_ | _, _⟩ := x <;> rfl

/-- What holds of the machine after each of two computations holds after their sequence. -/
theorem andThen_invariant {P : Machine κ σ → Prop} {x : Except Failure α × Machine κ σ}
    {next : α → Machine κ σ → Except Failure β × Machine κ σ}
    (hx : P x.2) (hnext : ∀ a m, x = (.ok a, m) → P (next a m).2) :
    P (andThen x next).2 := by
  obtain ⟨_ | a, m⟩ := x
  · exact hx
  · exact hnext a m rfl

theorem call_of_function {m : Machine κ σ} {name : String} {code : κ} (natives : Natives κ σ)
    (args : List Tree) (hf : m.world.bindings.function? name = some code) :
    m.call natives name args =
      andThen (m.arguments natives args) fun values m' =>
        m'.invoke natives { name := name, code := code, arguments := values } := by
  simp only [call, hf]
  cases m.arguments natives args with
  | mk result m' => cases result <;> rfl

/-- A call as an argument is the call with its result coerced. -/
theorem argument_call (natives : Natives κ σ) (name : String) (args : List Tree)
    (m : Machine κ σ) :
    m.argument natives (.call name args) =
      andThen (m.call natives name args) fun result m' => (.ok (Dynamic.coerce result), m') := by
  cases hf : m.world.bindings.function? name with
  | none => simp only [argument, call, hf, andThen]
  | some code =>
      rw [call_of_function natives args hf, andThen_assoc]
      simp only [argument, hf]
      obtain ⟨_ | values, m'⟩ := m.arguments natives args
      · rfl
      · simp only [andThen]
        obtain ⟨_ | result, m''⟩ :=
          m'.invoke natives { name := name, code := code, arguments := values } <;> rfl

theorem arguments_cons (natives : Natives κ σ) (t : Tree) (ts : List Tree) (m : Machine κ σ) :
    m.arguments natives (t :: ts) =
      andThen (m.argument natives t) fun value m' =>
        andThen (m'.arguments natives ts) fun values m'' => (.ok (value :: values), m'') := by
  rw [arguments]
  obtain ⟨_ | value, m'⟩ := m.argument natives t
  · rfl
  · simp only [andThen]
    obtain ⟨_ | values, m''⟩ := m'.arguments natives ts <;> rfl

theorem statements_call (natives : Natives κ σ) (name : String) (args : List Tree)
    (rest : List Tree) (m : Machine κ σ) :
    m.statements natives (.call name args :: rest) =
      andThen (m.call natives name args) fun _ m' => m'.statements natives rest := by
  rw [statements]
  obtain ⟨_ | result, m'⟩ := m.call natives name args <;> rfl

/-- Arguments that are evaluated have one value each. -/
theorem arguments_length (natives : Natives κ σ) {ts : List Tree} {m m' : Machine κ σ}
    {values : List Dynamic} (h : m.arguments natives ts = (.ok values, m')) :
    values.length = ts.length := by
  induction ts generalizing m values with
  | nil =>
      rw [arguments] at h
      cases h
      rfl
  | cons t ts ih =>
      rw [arguments_cons] at h
      obtain ⟨value, m₁, -, h⟩ := andThen_eq_ok h
      obtain ⟨values', m₂, hrest, h⟩ := andThen_eq_ok h
      cases h
      rw [List.length_cons, List.length_cons, ih hrest]

/-! ## What natives preserve -/

section Preserve

variable {natives : Natives κ σ} {P : World κ σ → Prop}

theorem call_preserves (hP : natives.Preserve P) (name : String) {args : List Tree}
    {m : Machine κ σ} (hm : P m.world) (hargs : P (m.arguments natives args).2.world) :
    P (m.call natives name args).2.world := by
  cases hf : m.world.bindings.function? name with
  | none =>
      simp only [call, hf]
      exact hm
  | some code =>
      rw [call_of_function natives args hf]
      refine andThen_invariant (P := fun m' => P m'.world) hargs ?_
      intro values m' heq
      rw [heq] at hargs
      exact hP code values m'.world hargs

mutual

theorem argument_preserves (hP : natives.Preserve P) :
    ∀ (t : Tree) (m : Machine κ σ), P m.world → P (m.argument natives t).2.world
  | .literal _, _, hm => hm
  | .call name args, m, hm => by
      rw [argument_call, andThen_result]
      exact call_preserves hP name hm (arguments_preserve hP args m hm)
  | .reference name, m, hm => by
      cases hv : m.world.bindings.value? name <;> simpa only [argument, hv] using hm
  | .word _, _, hm => hm
  | .program _, _, hm => hm

theorem arguments_preserve (hP : natives.Preserve P) :
    ∀ (ts : List Tree) (m : Machine κ σ), P m.world → P (m.arguments natives ts).2.world
  | [], _, hm => hm
  | t :: ts, m, hm => by
      have hfirst := argument_preserves hP t m hm
      rw [arguments_cons]
      refine andThen_invariant (P := fun m' => P m'.world) hfirst ?_
      intro value m' heq
      rw [heq] at hfirst
      rw [andThen_result]
      exact arguments_preserve hP ts m' hfirst

end

end Preserve

/-! ## Natives that keep the bindings -/

variable {natives : Natives κ σ}

theorem preserve_of_keeps (hkeep : natives.KeepsBindings) (b : Bindings κ) :
    natives.Preserve fun w => w.bindings = b :=
  fun code arguments w hw => (hkeep code arguments w).trans hw

theorem call_bindings (hkeep : natives.KeepsBindings) (name : String) {args : List Tree}
    {m : Machine κ σ}
    (hargs : (m.arguments natives args).2.world.bindings = m.world.bindings) :
    (m.call natives name args).2.world.bindings = m.world.bindings :=
  call_preserves (preserve_of_keeps hkeep m.world.bindings) name rfl hargs

theorem argument_bindings (hkeep : natives.KeepsBindings) (t : Tree) (m : Machine κ σ) :
    (m.argument natives t).2.world.bindings = m.world.bindings :=
  argument_preserves (preserve_of_keeps hkeep m.world.bindings) t m rfl

theorem arguments_bindings (hkeep : natives.KeepsBindings) (ts : List Tree) (m : Machine κ σ) :
    (m.arguments natives ts).2.world.bindings = m.world.bindings :=
  arguments_preserve (preserve_of_keeps hkeep m.world.bindings) ts m rfl

end Machine
end BracketCall
