import BracketCall.Natives
import BracketCall.Proofs.ProgramRun
import BracketCall.Proofs.Walk

/-!
# Runs that never end

A native may never end, and then the run that invoked it does not end either.  Nothing else keeps a
run from ending.

**Method.**  Let it be told by an invocation alone whether it ends.  All invocations of a run but the
last one returned, and the last one is that of the failure, if this is none of the program itself
(`performAll_account`).  So a run never ends exactly if an invocation that never ends is among those
that it made.

Of the standard natives only `대기` may never end.  It does so if its first argument is the positive
infinity, as a number.

**Results.**
* `statements_endless_iff`, `evaluate_endless_iff`: which runs never end, in terms of their invocations.
* `natives_endless_iff`: which invocations of the standard natives never end.
-/

namespace BracketCall

variable {κ σ : Type}

/-! ## Invocations that never end -/

/-- Exactly these invocations never end, in whatever world they are made. -/
def Natives.EndlessAt (natives : Natives κ σ) (Stuck : Invocation κ → Prop) : Prop :=
  ∀ call w, (natives call.code call.arguments w).1 = .error .endless ↔ Stuck call

variable {natives : Natives κ σ} {Stuck : Invocation κ → Prop}

/-- Invocations that all return all end. -/
theorem Natives.Quiet.not_stuck (hstuck : natives.EndlessAt Stuck) {made : List (Invocation κ)}
    {w : World κ σ} (h : natives.Quiet made w) : ∀ call ∈ made, ¬ Stuck call := by
  induction made generalizing w with
  | nil => exact nofun
  | cons first made ih =>
      obtain ⟨⟨value, hvalue⟩, hrest⟩ := h
      rw [List.forall_mem_cons]
      refine ⟨?_, ih hrest⟩
      intro hfirst
      rw [(hstuck first w).mpr hfirst] at hvalue
      cases hvalue

/-- Visits that stopped did so without end exactly if they made an invocation that never ends. -/
theorem Stopped.endless_iff (hstuck : natives.EndlessAt Stuck) {b : Bindings κ} {w : World κ σ}
    {visits : List (Visit κ)} {made : List (Invocation κ)} {e : Failure}
    (h : Stopped natives b w visits made e) : e = .endless ↔ ∃ call ∈ made, Stuck call := by
  cases h with
  | fault before hbefore =>
      refine iff_of_false nofun ?_
      rintro ⟨call, hcall, hendless⟩
      exact hbefore.quiet.not_stuck hstuck call hcall hendless
  | @raise before later name code args made last e hbefore hfor hraise =>
      constructor
      · rintro rfl
        exact ⟨last, List.mem_append_right made List.mem_cons_self, (hstuck last _).mp hraise⟩
      · rintro ⟨call, hcall, hendless⟩
        rcases List.mem_append.mp hcall with hmade | hlast
        · exact absurd hendless (hbefore.quiet.not_stuck hstuck call hmade)
        · rw [List.mem_singleton.mp hlast, ← hstuck last (natives.after made w), hraise] at hendless
          exact Except.error.inj hendless

/-! ## Runs that never end -/

namespace Machine

/-- A run never ends exactly if it makes an invocation that never ends. -/
theorem statements_endless_iff (hkeep : natives.KeepsBindings) (hstuck : natives.EndlessAt Stuck)
    (body : List Tree) (w : World κ σ) :
    let x := Machine.statements natives body { world := w }
    x.1 = .error .endless ↔ ∃ call ∈ x.2.trace, Stuck call := by
  intro x
  -- The run performs the visits of the walk, and `made` are the invocations among them.
  obtain ⟨made, haccount⟩ := performAll_account natives w.bindings (Tree.walk w.bindings body) []
    { world := w } (Tree.supplied_walk w.bindings body 0)
  have hrun : andThen _ _ = x := performAll_walk hkeep body [] { world := w }
  have htrace : x.2.trace = made := by
    rw [← hrun, andThen_result, haccount.machine]
    exact List.nil_append made
  rw [htrace, ← hrun]
  rcases hperform : Visit.performAll natives (Tree.walk w.bindings body) [] { world := w } with
    ⟨e | values, m⟩
  · rw [hperform] at haccount
    exact Iff.trans ⟨Except.error.inj, congrArg Except.error⟩
      ((haccount.stopped e rfl).endless_iff hstuck)
  · rw [hperform] at haccount
    refine iff_of_false nofun ?_
    rintro ⟨call, hcall, hendless⟩
    exact (haccount.passed values rfl).quiet.not_stuck hstuck call hcall hendless

/-- The evaluation of a source never ends exactly if it makes an invocation that never ends. -/
theorem evaluate_endless_iff (hkeep : natives.KeepsBindings) (hstuck : natives.EndlessAt Stuck)
    (literals : Bool) (source : String) (w : World κ σ) :
    let x := Machine.evaluate natives literals source { world := w }
    x.1 = .error .endless ↔ ∃ call ∈ x.2.trace, Stuck call := by
  intro x
  cases hparse : parseSource literals source with
  | error f =>
      have hx : x = _ := evaluate_error hparse { world := w }
      simp [hx]
  | ok program =>
      have hx : x = Machine.interpret natives program { world := w } := by
        simp only [x, evaluate, hparse]
      rw [hx]
      cases program with
      | program body => exact statements_endless_iff hkeep hstuck body w
      | _ => simp [Machine.interpret]

end Machine

/-! ## The standard natives -/

namespace Standard

/-- The invocation waits for infinitely many milliseconds. -/
def IsStuck (call : Invocation Standard) : Prop :=
  call.code = .wait ∧ call.arguments.head? = some ⟨.number, .float (.infinite false)⟩

theorem read_number (d : Dynamic) :
    d.read .number =
      if d.kind = .number then .ok d.data else .error (.fault (.kindMismatch .number d.kind)) := by
  simp only [Dynamic.read, Dynamic.check]
  split <;> rfl

theorem sumFrom_ne_endless (total : Value) (args : List Dynamic) :
    sumFrom total args ≠ .error .endless := by
  induction args generalizing total with
  | nil => exact nofun
  | cons d args ih =>
      rw [sumFrom, read_number]
      split
      · next hread =>
          split at hread
          · cases hread
          · cases hread
            exact nofun
      · split
        · exact nofun
        · exact ih _

/-- To sleep without end is to sleep for the positive infinity. -/
theorem sleep_endless_iff (v : Value) : sleep v = .error .endless ↔ v = .float (.infinite false) := by
  constructor
  · intro h
    unfold sleep at h
    split at h
    · split at h <;> cases h
    · next hnumber =>
        cases v with
        | float d =>
            cases hnumber
            rfl
        | _ => cases hnumber
    · cases h
    · cases h
  · rintro rfl
    rfl

theorem wait_endless_iff (args : List Dynamic) (out : String) :
    (wait.perform args out).1 = .error .endless ↔
      args.head? = some ⟨.number, .float (.infinite false)⟩ := by
  cases args with
  | nil => exact iff_of_false nofun nofun
  | cons d args =>
      obtain ⟨kind, data⟩ := d
      by_cases hkind : kind = .number
      · subst hkind
        have hperform : (wait.perform (⟨.number, data⟩ :: args) out).1 =
            (sleep data).map fun () => .none := rfl
        have hmap : ((sleep data).map fun () => Value.none) = .error .endless ↔
            sleep data = .error .endless := by
          cases sleep data <;> simp [Except.map]
        rw [hperform, hmap, sleep_endless_iff]
        simp
      · have hperform : (wait.perform (⟨kind, data⟩ :: args) out).1 =
            .error (.fault (.kindMismatch .number kind)) := by
          simp only [perform, delay, read_number, if_neg hkind]
        rw [hperform]
        refine iff_of_false nofun ?_
        simp [hkind]

/-- Only a wait for infinitely many milliseconds never ends. -/
theorem natives_endless_iff : Standard.natives.EndlessAt IsStuck := by
  rintro ⟨name, code, args⟩ w
  cases code with
  | print =>
      refine iff_of_false ?_ nofun
      change (print.perform args w.host).1 ≠ _
      rw [perform]
      split <;> exact nofun
  | add => exact iff_of_false (sumFrom_ne_endless _ args) nofun
  | wait => exact (wait_endless_iff args w.host).trans (iff_of_eq (by simp [IsStuck]))

end Standard
end BracketCall
