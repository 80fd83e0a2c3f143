import BracketCall.Evaluation
import BracketCall.Proofs.BindingTime

/-!
# Runs of whole programs

The statements of a program are run one after the other, and each call among them is evaluated as
calls are.  What holds at the moments of one call is carried over here to the moments of a run.

**Results.**
* `statements_append`: statements in sequence are runs in sequence.
* `statements_grows`: every invocation of a run is made for a call that the run reached, with the
  function and the values that were bound at the moments of this call.
-/

namespace BracketCall

variable {κ σ : Type}

/-- While statements are run, beginning with the first machine, the evaluation of a tree begins with
the second machine. -/
inductive RunReaches (natives : Natives κ σ) :
    List Tree → Machine κ σ → Tree → Machine κ σ → Prop
  | within {before after : List Tree} {name : String} {args : List Tree} {t : Tree}
      {m m₁ m' : Machine κ σ} :
      m.statements natives before = (.ok (), m₁) →
      Reaches natives (.call name args) m₁ t m' →
      RunReaches natives (before ++ .call name args :: after) m t m'

/-- An invocation of a call that a run reaches, bound at the moment at which the call began, with
the trace just before it. -/
def BoundInRun (natives : Natives κ σ) (body : List Tree) (m : Machine κ σ) (call : Invocation κ)
    (before : List (Invocation κ)) : Prop :=
  ∃ args m', RunReaches natives body m (.call call.name args) m' ∧ Bound natives args m' call ∧
    before = (m'.reaching natives args).trace

theorem Grows.isPrefix {P : Invocation κ → List (Invocation κ) → Prop}
    {trace trace' : List (Invocation κ)} (h : Grows P trace trace') : trace <+: trace' := by
  induction h with
  | refl => exact List.prefix_refl _
  | concat _ _ ih => exact ih.trans (List.prefix_append _ _)

namespace Machine

variable {natives : Natives κ σ}

theorem statements_append (before after : List Tree) (m : Machine κ σ) :
    m.statements natives (before ++ after) =
      andThen (m.statements natives before) fun _ m' => m'.statements natives after := by
  induction before generalizing m with
  | nil => rfl
  | cons t before ih =>
      cases t with
      | call name args =>
          rw [List.cons_append, statements_call, statements_call, andThen_assoc]
          exact andThen_congr fun _ m' _ => ih m'
      | program _ => exact ih m
      | reference _ => exact ih m
      | word _ => exact ih m
      | literal _ => exact ih m

theorem statements_singleton (name : String) (args : List Tree) (m : Machine κ σ) :
    m.statements natives [.call name args] =
      andThen (m.call natives name args) fun _ m' => (.ok (), m') :=
  statements_call natives name args [] m

theorem evaluate_program {literals : Bool} {source : String} {body : List Tree}
    (h : parseSource literals source = .ok (.program body)) (m : Machine κ σ) :
    m.evaluate natives literals source = m.statements natives body := by
  rw [evaluate, h]
  rfl

theorem evaluate_error {literals : Bool} {source : String} {f : Fault}
    (h : parseSource literals source = .error f) (m : Machine κ σ) :
    m.evaluate natives literals source = (.error (.fault f), m) := by
  rw [evaluate, h]

end Machine

variable {natives : Natives κ σ}

/-- What a run reaches behind a statement that ended well. -/
theorem RunReaches.cons {t u : Tree} {rest : List Tree} {m m₁ m' : Machine κ σ}
    (ht : m.statements natives [t] = (.ok (), m₁)) (h : RunReaches natives rest m₁ u m') :
    RunReaches natives (t :: rest) m u m' := by
  cases h with
  | @within before after name args _ _ m₂ _ hbefore hreaches =>
      rw [← List.cons_append]
      refine .within ?_ hreaches
      rw [← List.singleton_append, Machine.statements_append, ht]
      exact hbefore

/-- What a call at the beginning of a run reaches. -/
theorem RunReaches.first {name : String} {args : List Tree} {t : Tree} {m m' : Machine κ σ}
    (h : Reaches natives (.call name args) m t m') (rest : List Tree) :
    RunReaches natives (.call name args :: rest) m t m' := by
  rw [← List.nil_append (.call name args :: rest)]
  exact .within rfl h

namespace Machine

variable (natives)

theorem statement_grows (t : Tree) (rest : List Tree) (m : Machine κ σ) :
    Grows (BoundInRun natives (t :: rest) m) m.trace (m.statements natives [t]).2.trace := by
  cases t with
  | call name args =>
      rw [statements_singleton, andThen_result]
      refine (call_grows name (arguments_grows args m)).mono ?_
      rintro call before ⟨inner, m', hreaches, hbound⟩
      exact ⟨inner, m', .first hreaches rest, hbound⟩
  | program _ => exact .refl
  | reference _ => exact .refl
  | word _ => exact .refl
  | literal _ => exact .refl

/-- Every invocation of a run is made for a call that the run reached. -/
theorem statements_grows (body : List Tree) (m : Machine κ σ) :
    Grows (BoundInRun natives body m) m.trace (m.statements natives body).2.trace := by
  induction body generalizing m with
  | nil => exact .refl
  | cons t rest ih =>
      have hfirst := statement_grows natives t rest m
      rw [← List.singleton_append, statements_append]
      rcases ht : m.statements natives [t] with ⟨e | _, m₁⟩
      · rw [ht] at hfirst
        exact hfirst
      · rw [ht] at hfirst
        refine hfirst.trans ((ih m₁).mono ?_)
        rintro call before ⟨args, m', hreaches, hbound⟩
        exact ⟨args, m', hreaches.cons ht, hbound⟩

end Machine
end BracketCall
