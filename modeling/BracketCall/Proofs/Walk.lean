import BracketCall.Proofs.Sequencing
import Mathlib.Data.List.Forall2

/-!
# The walk of a program

Natives that leave the bindings as they are make a run predictable.  What the run will do is then
laid out in advance, as a row of visits: a value that is at hand, a fault, or an invocation that
takes its arguments from the values before it.

**Input.**  The statements of a program and the bindings.

**Algorithm.**  Only the calls at the top are walked, in order.  A call first needs its function,
then its arguments are walked from left to right, and then the function is invoked.  So names are
checked before the arguments below them are reached, and natives are invoked after those arguments.

**Results.**
* `performAll_walk`: a run performs the visits of the walk in order, up to the first that fails.
* `performAll_account`: what visits that are performed in order can do, by induction along them.
* `interpret_walk`: a run ends well exactly if the walk meets no fault and no native raises, and has
  then invoked the calls in postorder; it ends with the first fault or raise of the walk otherwise,
  and has then made the invocations up to that point and no other.
-/

namespace BracketCall

variable {κ σ : Type}

/-! ## Invocations one after another -/

namespace Natives

/-- The world after invocations, whatever they give. -/
def after (natives : Natives κ σ) : List (Invocation κ) → World κ σ → World κ σ
  | [], w => w
  | call :: rest, w => after natives rest (natives call.code call.arguments w).2

/-- None of the invocations raises when they are made one after another. -/
def Quiet (natives : Natives κ σ) : List (Invocation κ) → World κ σ → Prop
  | [], _ => True
  | call :: rest, w =>
      (∃ value, (natives call.code call.arguments w).1 = .ok value) ∧
        Quiet natives rest (natives call.code call.arguments w).2

theorem quiet_append {natives : Natives κ σ} {made later : List (Invocation κ)}
    {w : World κ σ} :
    natives.Quiet (made ++ later) w ↔
      natives.Quiet made w ∧ natives.Quiet later (natives.after made w) := by
  induction made generalizing w with
  | nil => simp only [List.nil_append, Quiet, after, true_and]
  | cons call rest ih => simp only [List.cons_append, Quiet, after, ih, and_assoc]

end Natives

/-! ## Visits -/

/-- What a walk meets. -/
inductive Visit (κ : Type) where
  /-- A literal, or a reference to a variable. -/
  | value (value : Dynamic)
  | fault (fault : Fault)
  /-- A call whose arguments were all walked. -/
  | invocation (name : String) (code : κ) (arguments : List Tree)

/-- A call node: its name and its arguments. -/
abbrev CallNode := String × List Tree

namespace Visit

/-- The call node that a visit invokes. -/
def node? : Visit κ → Option CallNode
  | invocation name _ arguments => some (name, arguments)
  | _ => none

/-- The call nodes that visits invoke. -/
def nodes (visits : List (Visit κ)) : List CallNode :=
  visits.filterMap node?

/-- None of the visits is a fault. -/
def NoFault (visits : List (Visit κ)) : Prop :=
  ∀ f, Visit.fault f ∉ visits

/-- The invocation that takes as many of the values at hand as its call has arguments.  The values
come last first. -/
def taking (name : String) (code : κ) (args : List Tree) (values : List Dynamic) : Invocation κ where
  name := name
  code := code
  arguments := (values.take args.length).reverse

/-- Performs a visit, with the values at hand before and after it. -/
def perform (natives : Natives κ σ) :
    Visit κ → List Dynamic → Machine κ σ → Except Failure (List Dynamic) × Machine κ σ
  | value d, values, m => (.ok (d :: values), m)
  | fault f, _, m => (.error (.fault f), m)
  | invocation name code args, values, m =>
      match m.invoke natives (taking name code args values) with
      | (.error e, m') => (.error e, m')
      | (.ok result, m') => (.ok (Dynamic.coerce result :: values.drop args.length), m')

/-- Performs visits in order, up to the first that fails. -/
def performAll (natives : Natives κ σ) :
    List (Visit κ) → List Dynamic → Machine κ σ → Except Failure (List Dynamic) × Machine κ σ
  | [], values, m => (.ok values, m)
  | v :: rest, values, m =>
      match v.perform natives values m with
      | (.error e, m') => (.error e, m')
      | (.ok values', m') => performAll natives rest values' m'

/-- Every invocation before the first fault has the function of its name and finds its arguments,
if so many values are at hand at the beginning. -/
def Supplied (b : Bindings κ) : List (Visit κ) → Nat → Prop
  | [], _ => True
  | value _ :: rest, n => Supplied b rest (n + 1)
  | fault _ :: _, _ => True
  | invocation name code args :: rest, n =>
      b.function? name = some code ∧ args.length ≤ n ∧
        Supplied b rest (n - args.length + 1)

theorem nodes_append (before later : List (Visit κ)) :
    nodes (before ++ later) = nodes before ++ nodes later :=
  List.filterMap_append

theorem noFault_cons {v : Visit κ} {rest : List (Visit κ)} :
    NoFault (v :: rest) ↔ (∀ f, Visit.fault f ≠ v) ∧ NoFault rest := by
  simp only [NoFault, List.mem_cons, not_or, forall_and, ne_eq]

theorem noFault_append {before later : List (Visit κ)} :
    NoFault (before ++ later) ↔ NoFault before ∧ NoFault later := by
  simp only [NoFault, List.mem_append, not_or, forall_and]

end Visit

/-! ## The walk -/

namespace Tree

mutual

/-- The walk of an argument. -/
def visits (b : Bindings κ) : Tree → List (Visit κ)
  | .literal text => [.value (Dynamic.coerce (.text text))]
  | .call name args =>
      match b.function? name with
      | none => [.fault (.undefinedFunction name)]
      | some code => visitsAll b args ++ [.invocation name code args]
  | .reference name =>
      match b.value? name with
      | none => [.fault (.undefinedVariable name)]
      | some value => [.value value]
  | node => [.fault (.unsupportedArgument node)]

/-- The walk of arguments, from left to right. -/
def visitsAll (b : Bindings κ) : List Tree → List (Visit κ)
  | [] => []
  | t :: ts => visits b t ++ visitsAll b ts

end

/-- The walk of statements. -/
def walk (b : Bindings κ) : List Tree → List (Visit κ)
  | [] => []
  | .call name args :: rest => visits b (.call name args) ++ walk b rest
  | _ :: rest => walk b rest

mutual

/-- The call nodes of a tree, in postorder. -/
def calls : Tree → List CallNode
  | .call name args => callsAll args ++ [(name, args)]
  | .program statements => callsAll statements
  | _ => []

/-- The call nodes of a row of trees, in postorder. -/
def callsAll : List Tree → List CallNode
  | [] => []
  | t :: ts => calls t ++ callsAll ts

end

/-- The call nodes at and below the calls among the statements, in postorder. -/
def statementCalls (statements : List Tree) : List CallNode :=
  callsAll (statements.filter fun t => t.shape = .call)

end Tree

/-- The invocation is made for the call node: it has its name, the function of that name, and a
value for each argument. -/
def Invocation.IsFor (b : Bindings κ) (node : CallNode) (call : Invocation κ) : Prop :=
  call.name = node.1 ∧ b.function? node.1 = some call.code ∧
    call.arguments.length = node.2.length

/-- The visits were all performed from a world, with these invocations. -/
structure Passed (natives : Natives κ σ) (b : Bindings κ) (w : World κ σ)
    (visits : List (Visit κ)) (made : List (Invocation κ)) : Prop where
  noFault : Visit.NoFault visits
  invoked : List.Forall₂ (Invocation.IsFor b) (Visit.nodes visits) made
  quiet : natives.Quiet made w

/-- The visits were performed from a world up to the first that failed, with these invocations: a
fault, or an invocation that raised and is itself the last of them. -/
inductive Stopped (natives : Natives κ σ) (b : Bindings κ) (w : World κ σ) :
    List (Visit κ) → List (Invocation κ) → Failure → Prop
  | fault (before : List (Visit κ)) {later : List (Visit κ)} {f : Fault}
      {made : List (Invocation κ)} :
      Passed natives b w before made →
      Stopped natives b w (before ++ .fault f :: later) made (.fault f)
  | raise (before : List (Visit κ)) {later : List (Visit κ)} {name : String} {code : κ}
      {args : List Tree} {made : List (Invocation κ)} {call : Invocation κ} {e : Failure} :
      Passed natives b w before made →
      Invocation.IsFor b (name, args) call →
      (natives call.code call.arguments (natives.after made w)).1 = .error e →
      Stopped natives b w (before ++ .invocation name code args :: later) (made ++ [call]) e

/-! ## The walk is supplied -/

namespace Tree

mutual

theorem supplied_visits (b : Bindings κ) (rest : List (Visit κ)) :
    ∀ (t : Tree) (n : Nat),
      Visit.Supplied b rest (n + 1) → Visit.Supplied b (visits b t ++ rest) n
  | .literal text, n, h => by
      simpa only [visits, List.singleton_append, Visit.Supplied] using h
  | .call name args, n, h => by
      cases hf : b.function? name with
      | none =>
          simp only [visits, hf, List.singleton_append, Visit.Supplied]
      | some code =>
          simp only [visits, hf, List.append_assoc, List.singleton_append]
          apply supplied_visitsAll b _ args n
          refine ⟨hf, Nat.le_add_left _ _, ?_⟩
          rwa [Nat.add_sub_cancel]
  | .reference name, n, h => by
      cases hv : b.value? name with
      | none =>
          simp only [visits, hv, List.singleton_append, Visit.Supplied]
      | some value =>
          simpa only [visits, hv, List.singleton_append, Visit.Supplied] using h
  | .word _, _, _ => by
      simp only [visits, List.singleton_append, Visit.Supplied]
  | .program _, _, _ => by
      simp only [visits, List.singleton_append, Visit.Supplied]

theorem supplied_visitsAll (b : Bindings κ) (rest : List (Visit κ)) :
    ∀ (ts : List Tree) (n : Nat),
      Visit.Supplied b rest (n + ts.length) → Visit.Supplied b (visitsAll b ts ++ rest) n
  | [], n, h => h
  | t :: ts, n, h => by
      rw [visitsAll, List.append_assoc]
      apply supplied_visits b _ t n
      apply supplied_visitsAll b rest ts (n + 1)
      rwa [List.length_cons, Nat.add_comm ts.length 1, ← Nat.add_assoc] at h

end

/-- The walk of statements never lacks an argument. -/
theorem supplied_walk (b : Bindings κ) (statements : List Tree) (n : Nat) :
    Visit.Supplied b (walk b statements) n := by
  induction statements generalizing n with
  | nil => exact trivial
  | cons t rest ih =>
      cases t with
      | call name args => exact supplied_visits b _ (.call name args) n (ih (n + 1))
      | program _ => exact ih n
      | reference _ => exact ih n
      | word _ => exact ih n
      | literal _ => exact ih n

/-! ## Postorder -/

mutual

theorem nodes_visits (b : Bindings κ) :
    ∀ t : Tree, Visit.NoFault (visits b t) → Visit.nodes (visits b t) = calls t
  | .literal text, _ => rfl
  | .call name args, h => by
      cases hf : b.function? name with
      | none =>
          simp only [visits, hf] at h
          exact absurd (List.mem_singleton_self _) (h _)
      | some code =>
          simp only [visits, hf] at h ⊢
          have hargs : Visit.NoFault (visitsAll b args) := fun f hmem =>
            h f (List.mem_append_left _ hmem)
          rw [Visit.nodes_append, nodes_visitsAll b args hargs, calls]
          rfl
  | .reference name, h => by
      cases hv : b.value? name with
      | none =>
          simp only [visits, hv] at h
          exact absurd (List.mem_singleton_self _) (h _)
      | some value =>
          simp only [visits, hv]
          rfl
  | .word _, h => absurd (List.mem_singleton_self _) (h _)
  | .program _, h => absurd (List.mem_singleton_self _) (h _)

theorem nodes_visitsAll (b : Bindings κ) :
    ∀ ts : List Tree,
      Visit.NoFault (visitsAll b ts) → Visit.nodes (visitsAll b ts) = callsAll ts
  | [], _ => rfl
  | t :: ts, h => by
      rw [visitsAll] at h ⊢
      obtain ⟨hfirst, hrest⟩ := Visit.noFault_append.mp h
      rw [Visit.nodes_append, nodes_visits b t hfirst, nodes_visitsAll b ts hrest, callsAll]

end

/-- A walk without a fault invokes the calls below the statements in postorder. -/
theorem nodes_walk (b : Bindings κ) (statements : List Tree)
    (h : Visit.NoFault (walk b statements)) :
    Visit.nodes (walk b statements) = statementCalls statements := by
  induction statements with
  | nil => rfl
  | cons t rest ih =>
      cases t with
      | call name args =>
          rw [walk] at h ⊢
          obtain ⟨hcall, hrest⟩ := Visit.noFault_append.mp h
          rw [Visit.nodes_append, nodes_visits b _ hcall, ih hrest]
          rfl
      | program _ => exact ih h
      | reference _ => exact ih h
      | word _ => exact ih h
      | literal _ => exact ih h

end Tree

/-! ## A run performs the walk -/

namespace Machine

variable {natives : Natives κ σ}

theorem performAll_append (before later : List (Visit κ)) (values : List Dynamic)
    (m : Machine κ σ) :
    Visit.performAll natives (before ++ later) values m =
      andThen (Visit.performAll natives before values m) (Visit.performAll natives later) := by
  induction before generalizing values m with
  | nil => rfl
  | cons v rest ih =>
      simp only [List.cons_append, Visit.performAll]
      obtain ⟨_ | values', m'⟩ := v.perform natives values m
      · rfl
      · exact ih values' m'

theorem performAll_singleton (v : Visit κ) (values : List Dynamic) (m : Machine κ σ) :
    Visit.performAll natives [v] values m = v.perform natives values m := by
  simp only [Visit.performAll]
  obtain ⟨_ | values', m'⟩ := v.perform natives values m <;> rfl

/-- An invocation takes the values of its arguments from those at hand. -/
theorem perform_invocation (name : String) (code : κ) {args : List Tree}
    {taken : List Dynamic} (htaken : taken.length = args.length) (values : List Dynamic)
    (m : Machine κ σ) :
    (Visit.invocation name code args).perform natives (taken.reverse ++ values) m =
      andThen (m.invoke natives { name := name, code := code, arguments := taken })
        fun result m' => (.ok (Dynamic.coerce result :: values), m') := by
  have hlength : args.length = taken.reverse.length := by
    rw [List.length_reverse, htaken]
  simp only [Visit.perform, Visit.taking, hlength, List.take_left, List.drop_left,
    List.reverse_reverse]
  obtain ⟨_ | result, m'⟩ :=
    m.invoke natives { name := name, code := code, arguments := taken } <;> rfl

/-- The walk of a call performs the call, if the walk of its arguments performs the arguments. -/
theorem performAll_call (name : String) {args : List Tree} (values : List Dynamic)
    (m : Machine κ σ)
    (hargs : Visit.performAll natives (Tree.visitsAll m.world.bindings args) values m =
      andThen (m.arguments natives args) fun taken m' => (.ok (taken.reverse ++ values), m')) :
    Visit.performAll natives (Tree.visits m.world.bindings (.call name args)) values m =
      andThen (m.call natives name args)
        fun result m' => (.ok (Dynamic.coerce result :: values), m') := by
  cases hf : m.world.bindings.function? name with
  | none =>
      simp only [Tree.visits, hf, performAll_singleton, Visit.perform, call, andThen]
  | some code =>
      simp only [Tree.visits, hf]
      rw [performAll_append, hargs, call_of_function natives args hf, andThen_assoc,
        andThen_assoc]
      apply andThen_congr
      intro taken m' heq
      exact (performAll_singleton _ _ _).trans
        (perform_invocation name code (arguments_length natives heq) values m')

mutual

theorem performAll_visits (hkeep : natives.KeepsBindings) :
    ∀ (t : Tree) (values : List Dynamic) (m : Machine κ σ),
      Visit.performAll natives (t.visits m.world.bindings) values m =
        andThen (m.argument natives t) fun value m' => (.ok (value :: values), m')
  | .literal _, _, _ => rfl
  | .call name args, values, m => by
      rw [performAll_call name values m (performAll_visitsAll hkeep args values m),
        argument_call, andThen_assoc]
      rfl
  | .reference name, values, m => by
      cases hv : m.world.bindings.value? name with
      | none =>
          simp only [Tree.visits, argument, hv, performAll_singleton, Visit.perform, andThen]
      | some value =>
          simp only [Tree.visits, argument, hv, performAll_singleton, Visit.perform, andThen]
  | .word _, _, _ => rfl
  | .program _, _, _ => rfl

theorem performAll_visitsAll (hkeep : natives.KeepsBindings) :
    ∀ (ts : List Tree) (values : List Dynamic) (m : Machine κ σ),
      Visit.performAll natives (Tree.visitsAll m.world.bindings ts) values m =
        andThen (m.arguments natives ts) fun taken m' => (.ok (taken.reverse ++ values), m')
  | [], _, _ => rfl
  | t :: ts, values, m => by
      rw [Tree.visitsAll, performAll_append, performAll_visits hkeep t values m, arguments_cons,
        andThen_assoc, andThen_assoc]
      apply andThen_congr
      intro value m' heq
      -- The rest was laid out for the bindings before the first argument.
      have hbindings : m'.world.bindings = m.world.bindings := by
        have hfirst := argument_bindings hkeep t m
        rwa [heq] at hfirst
      have hrest := performAll_visitsAll hkeep ts (value :: values) m'
      rw [hbindings] at hrest
      rw [andThen_assoc]
      simp only [andThen, List.reverse_cons, List.append_assoc, List.singleton_append]
      exact hrest

end

/-- A run performs the visits of its walk in order, up to the first that fails. -/
theorem performAll_walk (hkeep : natives.KeepsBindings) (body : List Tree)
    (values : List Dynamic) (m : Machine κ σ) :
    andThen (Visit.performAll natives (Tree.walk m.world.bindings body) values m)
        (fun _ m' => (.ok (), m')) =
      m.statements natives body := by
  induction body generalizing values m with
  | nil => rfl
  | cons t rest ih =>
      cases t with
      | call name args =>
          rw [Tree.walk, performAll_append,
            performAll_call name values m (performAll_visitsAll hkeep args values m),
            statements_call, andThen_assoc, andThen_assoc]
          apply andThen_congr
          intro result m' heq
          have hbindings : m'.world.bindings = m.world.bindings := by
            have hcall := call_bindings hkeep name (arguments_bindings hkeep args m)
            rwa [heq] at hcall
          rw [← hbindings]
          exact ih (Dynamic.coerce result :: values) m'
      | program _ => exact ih values m
      | reference _ => exact ih values m
      | word _ => exact ih values m
      | literal _ => exact ih values m

end Machine

/-! ## What the visits can do -/

section Account

variable {natives : Natives κ σ} {b : Bindings κ} {w : World κ σ}
  {visits : List (Visit κ)} {made : List (Invocation κ)} {e : Failure}

theorem Passed.nil : Passed natives b w [] [] where
  noFault _ hmem := nomatch hmem
  invoked := .nil
  quiet := trivial

theorem Passed.value (d : Dynamic) (h : Passed natives b w visits made) :
    Passed natives b w (.value d :: visits) made where
  noFault := Visit.noFault_cons.mpr ⟨fun _ => nofun, h.noFault⟩
  invoked := h.invoked
  quiet := h.quiet

theorem Passed.returned {call : Invocation κ} {args : List Tree} {result : Value}
    {w' : World κ σ} (hfor : call.IsFor b (call.name, args))
    (hreturns : natives call.code call.arguments w = (.ok result, w'))
    (h : Passed natives b w' visits made) :
    Passed natives b w (.invocation call.name call.code args :: visits) (call :: made) where
  noFault := Visit.noFault_cons.mpr ⟨fun _ => nofun, h.noFault⟩
  invoked := .cons hfor h.invoked
  quiet := by
    refine ⟨⟨result, by rw [hreturns]⟩, ?_⟩
    rw [hreturns]
    exact h.quiet

theorem Stopped.value (d : Dynamic) (h : Stopped natives b w visits made e) :
    Stopped natives b w (.value d :: visits) made e := by
  cases h with
  | fault before hbefore =>
      exact .fault (_ :: before) (hbefore.value d)
  | raise before hbefore hfor hraise =>
      exact .raise (_ :: before) (hbefore.value d) hfor hraise

theorem Stopped.returned {call : Invocation κ} {args : List Tree} {result : Value}
    {w' : World κ σ} (hfor : call.IsFor b (call.name, args))
    (hreturns : natives call.code call.arguments w = (.ok result, w'))
    (h : Stopped natives b w' visits made e) :
    Stopped natives b w (.invocation call.name call.code args :: visits) (call :: made) e := by
  cases h with
  | fault before hbefore =>
      exact .fault (_ :: before) (hbefore.returned hfor hreturns)
  | raise before hbefore hlast hraise =>
      refine .raise (_ :: before) (hbefore.returned hfor hreturns) hlast ?_
      rw [Natives.after, hreturns]
      exact hraise

theorem performAll_raised {name : String} {code : κ} {args : List Tree} {values : List Dynamic}
    {m : Machine κ σ} {w' : World κ σ}
    (hraise : natives code (Visit.taking name code args values).arguments m.world =
      (.error e, w')) :
    Visit.performAll natives (.invocation name code args :: visits) values m =
      (.error e, { world := w', trace := m.trace ++ [Visit.taking name code args values] }) := by
  have hinvoke : m.invoke natives (Visit.taking name code args values) =
      (.error e, { world := w', trace := m.trace ++ [Visit.taking name code args values] }) := by
    unfold Machine.invoke
    rw [show (Visit.taking name code args values).code = code from rfl, hraise]
  simp only [Visit.performAll, Visit.perform, hinvoke]

theorem performAll_returned {name : String} {code : κ} {args : List Tree}
    {values : List Dynamic} {m : Machine κ σ} {result : Value} {w' : World κ σ}
    (hreturns : natives code (Visit.taking name code args values).arguments m.world =
      (.ok result, w')) :
    Visit.performAll natives (.invocation name code args :: visits) values m =
      Visit.performAll natives visits (Dynamic.coerce result :: values.drop args.length)
        { world := w', trace := m.trace ++ [Visit.taking name code args values] } := by
  have hinvoke : m.invoke natives (Visit.taking name code args values) =
      (.ok result, { world := w', trace := m.trace ++ [Visit.taking name code args values] }) := by
    unfold Machine.invoke
    rw [show (Visit.taking name code args values).code = code from rfl, hreturns]
  simp only [Visit.performAll, Visit.perform, hinvoke]

/-- The outcome of visits that were performed from a machine, with these invocations. -/
structure Account (natives : Natives κ σ) (b : Bindings κ) (m : Machine κ σ)
    (visits : List (Visit κ)) (made : List (Invocation κ))
    (outcome : Except Failure (List Dynamic) × Machine κ σ) : Prop where
  machine : outcome.2 = { world := natives.after made m.world, trace := m.trace ++ made }
  passed : ∀ values, outcome.1 = .ok values → Passed natives b m.world visits made
  stopped : ∀ e, outcome.1 = .error e → Stopped natives b m.world visits made e

theorem Account.nil (m : Machine κ σ) (values : List Dynamic) :
    Account natives b m [] [] (.ok values, m) where
  machine := by
    rw [List.append_nil]
    rfl
  passed _ _ := .nil
  stopped := nofun

theorem Account.fault (m : Machine κ σ) (f : Fault) (rest : List (Visit κ)) :
    Account natives b m (.fault f :: rest) [] (.error (.fault f), m) where
  machine := by
    rw [List.append_nil]
    rfl
  passed := nofun
  stopped e h := by
    cases h
    exact .fault [] .nil

theorem Account.value {m : Machine κ σ} {outcome : Except Failure (List Dynamic) × Machine κ σ}
    (d : Dynamic) (h : Account natives b m visits made outcome) :
    Account natives b m (.value d :: visits) made outcome where
  machine := h.machine
  passed values hok := (h.passed values hok).value d
  stopped e herror := (h.stopped e herror).value d

theorem Account.raised {m : Machine κ σ} {call : Invocation κ} {args : List Tree}
    {w' : World κ σ} (hfor : call.IsFor b (call.name, args))
    (hraise : natives call.code call.arguments m.world = (.error e, w')) :
    Account natives b m (.invocation call.name call.code args :: visits) [call]
      (.error e, { world := w', trace := m.trace ++ [call] }) where
  machine := by
    rw [Natives.after, hraise]
    rfl
  passed := nofun
  stopped e' h := by
    cases h
    exact .raise [] .nil hfor (congrArg Prod.fst hraise)

theorem Account.returned {m : Machine κ σ} {call : Invocation κ} {args : List Tree}
    {result : Value} {w' : World κ σ}
    {outcome : Except Failure (List Dynamic) × Machine κ σ}
    (hfor : call.IsFor b (call.name, args))
    (hreturns : natives call.code call.arguments m.world = (.ok result, w'))
    (h : Account natives b { world := w', trace := m.trace ++ [call] } visits made outcome) :
    Account natives b m (.invocation call.name call.code args :: visits) (call :: made)
      outcome where
  machine := by
    rw [h.machine, Natives.after, hreturns, List.append_assoc, List.singleton_append]
  passed values hok := (h.passed values hok).returned hfor hreturns
  stopped e herror := (h.stopped e herror).returned hfor hreturns

/-- Visits that are performed in order change the machine by the invocations that they make, and end
well if all are passed, and else at the first that fails. -/
theorem performAll_account (natives : Natives κ σ) (b : Bindings κ)
    (visits : List (Visit κ)) (values : List Dynamic) (m : Machine κ σ)
    (hsupplied : Visit.Supplied b visits values.length) :
    ∃ made : List (Invocation κ),
      Account natives b m visits made (Visit.performAll natives visits values m) := by
  induction visits generalizing values m with
  | nil => exact ⟨[], .nil m values⟩
  | cons v rest ih =>
      cases v with
      | value d =>
          obtain ⟨made, h⟩ := ih (d :: values) m hsupplied
          exact ⟨made, h.value d⟩
      | fault f => exact ⟨[], .fault m f rest⟩
      | invocation name code args =>
          obtain ⟨hfunction, henough, hsupplied⟩ := hsupplied
          have hfor : (Visit.taking name code args values).IsFor b (name, args) := by
            refine ⟨rfl, hfunction, ?_⟩
            rw [Visit.taking, List.length_reverse, List.length_take, Nat.min_eq_left henough]
          rcases hnative :
              natives code (Visit.taking name code args values).arguments m.world with
            ⟨raised | result, w'⟩
          · rw [performAll_raised hnative]
            exact ⟨_, .raised hfor hnative⟩
          · have hlength : (Dynamic.coerce result :: values.drop args.length).length =
                values.length - args.length + 1 := by
              rw [List.length_cons, List.length_drop]
            rw [← hlength] at hsupplied
            obtain ⟨made, h⟩ := ih _
              { world := w', trace := m.trace ++ [Visit.taking name code args values] } hsupplied
            rw [performAll_returned hnative]
            exact ⟨_, h.returned hfor hnative⟩

/-- Visits that stopped met a fault or made an invocation that raised. -/
theorem Stopped.not_passed (h : Stopped natives b w visits made e) :
    ¬ (Visit.NoFault visits ∧ natives.Quiet made w) := by
  rintro ⟨hnoFault, hquiet⟩
  cases h with
  | fault before hbefore =>
      exact hnoFault _ (List.mem_append_right before (List.mem_cons_self))
  | raise before hbefore hfor hraise =>
      obtain ⟨-, ⟨result, hreturns⟩, -⟩ := Natives.quiet_append.mp hquiet
      rw [hraise] at hreturns
      cases hreturns

end Account

/-! ## The run of a program -/

/-- The law of a run whose natives keep the bindings.

It performs its walk up to the first visit that fails.  It succeeds exactly if the walk meets no
fault and none of its invocations raises, and these are then for the calls in postorder, one each.
Otherwise it ends with the first fault or raise of the walk, after the invocations up to there.  In
any case it leaves the world as just these invocations do. -/
theorem interpret_walk (natives : Natives κ σ) (hkeep : natives.KeepsBindings)
    (body : List Tree) (m : Machine κ σ) :
    m.interpret natives (.program body) =
      Machine.andThen
        (Visit.performAll natives (Tree.walk m.world.bindings body) [] m)
        (fun _ m' => (.ok (), m')) ∧
    ∃ made : List (Invocation κ),
      (m.interpret natives (.program body)).2 =
        { world := natives.after made m.world, trace := m.trace ++ made } ∧
      ((m.interpret natives (.program body)).1 = .ok () ↔
        Visit.NoFault (Tree.walk m.world.bindings body) ∧ natives.Quiet made m.world) ∧
      ((m.interpret natives (.program body)).1 = .ok () →
        List.Forall₂ (Invocation.IsFor m.world.bindings) (Tree.statementCalls body) made) ∧
      (∀ e, (m.interpret natives (.program body)).1 = .error e →
        Stopped natives m.world.bindings m.world (Tree.walk m.world.bindings body) made e) := by
  have hrun := (Machine.performAll_walk hkeep body [] m).symm
  obtain ⟨made, haccount⟩ :=
    performAll_account natives m.world.bindings (Tree.walk m.world.bindings body) [] m
      (Tree.supplied_walk m.world.bindings body 0)
  refine ⟨hrun, made, ?_⟩
  rw [Machine.interpret, hrun]
  rcases hperform : Visit.performAll natives (Tree.walk m.world.bindings body) [] m with
    ⟨e | values, m'⟩
  · rw [hperform] at haccount
    have hfail := haccount.stopped e rfl
    refine ⟨haccount.machine, ⟨nofun, fun h => absurd h hfail.not_passed⟩, nofun, ?_⟩
    intro e' h
    cases h
    exact hfail
  · rw [hperform] at haccount
    have hall := haccount.passed values rfl
    refine ⟨haccount.machine, ⟨fun _ => ⟨hall.noFault, hall.quiet⟩, fun _ => rfl⟩, ?_, nofun⟩
    intro _
    rw [← Tree.nodes_walk m.world.bindings body hall.noFault]
    exact hall.invoked

/-- Natives that count their invocations.  The code tells whether one raises. -/
def counting : Natives Bool Nat := fun raises _ w =>
  (if raises then .error (.host .integerTooLong) else .ok .none, { w with host := w.host + 1 })

/-- A call of a function that returns, with three arguments: a call that returns, one that raises,
and one that has no function. -/
def threeArguments : Tree :=
  .call "f" [.call "f" [], .call "g" [], .call "h" []]

/-- The raise wins over the later fault, and two of the four calls were invoked by then. -/
theorem interpret_walk_raised :
    let m : Machine Bool Nat :=
      { world := { bindings := { functions := [("f", false), ("g", true)] }, host := 0 } }
    counting.KeepsBindings ∧
    ∃ made : List (Invocation Bool),
      (m.interpret counting (.program [threeArguments])).2.trace = made ∧
      made.map Invocation.name = ["f", "g"] ∧
      counting.after made m.world = { m.world with host := 2 } ∧
      Stopped counting m.world.bindings m.world (Tree.walk m.world.bindings [threeArguments])
        made (.host .integerTooLong) := by
  intro m
  have hkeep : counting.KeepsBindings := fun _ _ _ => rfl
  obtain ⟨-, made, hmachine, -, -, hstopped⟩ := interpret_walk counting hkeep [threeArguments] m
  refine ⟨hkeep, made, congrArg Machine.trace hmachine, ?_, ?_, hstopped _ rfl⟩
  · exact congrArg (fun x => x.trace.map Invocation.name) hmachine.symm
  · exact congrArg Machine.world hmachine.symm

end BracketCall
