import BracketCall.Natives
import BracketCall.Proofs.Registrations
import BracketCall.Proofs.Walk

/-!
# The footprint of a program

The footprint of a program is the row of names that its run may look up: the functions that it calls
and the variables that stand as arguments of its calls.  A reference at the top is not looked up,
nor is anything below a node that cannot be an argument.

If natives neither read nor change the bindings, a run depends on them through the footprint alone.
Two tables that agree there give the same run: the same invocations with the same arguments, the
same state of the host, and the same end.

**Method.**  The walk of a program is a function of what the footprint finds (`walk_congr`), and
visits that are performed do the same with other bindings (`performAll_withBindings`).  So a run
with other bindings is the same run, with the bindings exchanged (`interpret_withBindings`).

**Result.**
* `interpret_footprint`: the run of a program is told by its footprint.
-/

namespace BracketCall

variable {κ σ : Type}

/-! ## The names that a run looks up -/

namespace Tree

mutual

/-- The names that the evaluation of an argument may look up. -/
def lookups : Tree → List Lookup
  | .call name args => .call name :: lookupsAll args
  | .reference name => [.reference name]
  | _ => []

/-- The names that the evaluation of arguments may look up. -/
def lookupsAll : List Tree → List Lookup
  | [] => []
  | t :: ts => lookups t ++ lookupsAll ts

end

/-- The names that the calls among the statements may look up. -/
def statementLookups : List Tree → List Lookup
  | [] => []
  | .call name args :: rest => lookups (.call name args) ++ statementLookups rest
  | _ :: rest => statementLookups rest

/-- The names that the run of a program may look up. -/
def footprint : Tree → List Lookup
  | .program body => statementLookups body
  | _ => []

/-! ## The walk -/

variable {b₁ b₂ : Bindings κ}

mutual

theorem visits_congr : ∀ t : Tree, b₁.Agree b₂ t.lookups → visits b₁ t = visits b₂ t
  | .literal _, _ => rfl
  | .call name args, h => by
      have hname : b₁.function? name = b₂.function? name := h _ List.mem_cons_self
      have hargs : b₁.Agree b₂ (lookupsAll args) := fun x hx => h x (List.mem_cons_of_mem _ hx)
      simp only [visits, hname, visitsAll_congr args hargs]
  | .reference name, h => by
      have hname : b₁.value? name = b₂.value? name := h _ List.mem_cons_self
      simp only [visits, hname]
  | .word _, _ => rfl
  | .program _, _ => rfl

theorem visitsAll_congr :
    ∀ ts : List Tree, b₁.Agree b₂ (lookupsAll ts) → visitsAll b₁ ts = visitsAll b₂ ts
  | [], _ => rfl
  | t :: ts, h => by
      obtain ⟨hfirst, hrest⟩ := Bindings.agree_append.mp h
      rw [visitsAll, visitsAll, visits_congr t hfirst, visitsAll_congr ts hrest]

end

/-- The walk of statements is a function of what is found under their names. -/
theorem walk_congr (body : List Tree) (h : b₁.Agree b₂ (statementLookups body)) :
    walk b₁ body = walk b₂ body := by
  induction body with
  | nil => rfl
  | cons t rest ih =>
      cases t with
      | call name args =>
          obtain ⟨hcall, hrest⟩ := Bindings.agree_append.mp h
          rw [walk, walk, visits_congr _ hcall, ih hrest]
      | program _ => exact ih h
      | reference _ => exact ih h
      | word _ => exact ih h
      | literal _ => exact ih h

end Tree

/-! ## Natives apart from the bindings -/

/-- Natives neither read nor change the bindings: what one gives, and what it does to the state of
the host, is told by its arguments and that state. -/
def Natives.Apart (natives : Natives κ σ) : Prop :=
  ∃ act : κ → List Dynamic → σ → Except Failure Value × σ, ∀ code arguments w,
    natives code arguments w =
      ((act code arguments w.host).1, { w with host := (act code arguments w.host).2 })

theorem Natives.Apart.keepsBindings {natives : Natives κ σ} (h : natives.Apart) :
    natives.KeepsBindings := by
  obtain ⟨act, hact⟩ := h
  intro code arguments w
  rw [hact]

theorem Standard.natives_apart : Standard.natives.Apart :=
  ⟨Standard.perform, fun _ _ _ => rfl⟩

/-! ## A run with other bindings -/

namespace Machine

/-- The machine with other bindings. -/
def withBindings (b : Bindings κ) (m : Machine κ σ) : Machine κ σ :=
  { m with world := { m.world with bindings := b } }

/-- A computation with other bindings in the machine that it leaves. -/
def exchange {α : Type} (b : Bindings κ) (x : Except Failure α × Machine κ σ) :
    Except Failure α × Machine κ σ :=
  (x.1, x.2.withBindings b)

variable {natives : Natives κ σ}

theorem invoke_withBindings (h : natives.Apart) (b : Bindings κ) (call : Invocation κ)
    (m : Machine κ σ) :
    (m.withBindings b).invoke natives call = exchange b (m.invoke natives call) := by
  obtain ⟨act, hact⟩ := h
  simp only [invoke, hact]
  rfl

theorem perform_withBindings (h : natives.Apart) (b : Bindings κ) (v : Visit κ)
    (values : List Dynamic) (m : Machine κ σ) :
    v.perform natives values (m.withBindings b) = exchange b (v.perform natives values m) := by
  cases v with
  | value d => rfl
  | fault f => rfl
  | invocation name code args =>
      simp only [Visit.perform, invoke_withBindings h, exchange]
      obtain ⟨_ | result, m'⟩ := m.invoke natives (Visit.taking name code args values) <;> rfl

/-- Visits that are performed do the same with other bindings. -/
theorem performAll_withBindings (h : natives.Apart) (b : Bindings κ) (visits : List (Visit κ))
    (values : List Dynamic) (m : Machine κ σ) :
    Visit.performAll natives visits values (m.withBindings b) =
      exchange b (Visit.performAll natives visits values m) := by
  induction visits generalizing values m with
  | nil => rfl
  | cons v rest ih =>
      simp only [Visit.performAll, perform_withBindings h, exchange]
      obtain ⟨_ | values', m'⟩ := v.perform natives values m
      · rfl
      · exact ih values' m'

/-- A run with other bindings that agree on the footprint is the same run, with the bindings
exchanged. -/
theorem interpret_withBindings (h : natives.Apart) {p : Tree} {b : Bindings κ} {m : Machine κ σ}
    (hagree : m.world.bindings.Agree b p.footprint) :
    (m.withBindings b).interpret natives p = exchange b (m.interpret natives p) := by
  cases p with
  | program body =>
      have hwalk : Tree.walk (m.withBindings b).world.bindings body =
          Tree.walk m.world.bindings body := (Tree.walk_congr body hagree).symm
      rw [interpret, interpret, ← performAll_walk h.keepsBindings body [] (m.withBindings b),
        ← performAll_walk h.keepsBindings body [] m, hwalk, performAll_withBindings h]
      obtain ⟨_ | values, m'⟩ :=
        Visit.performAll natives (Tree.walk m.world.bindings body) [] m <;> rfl
  | call _ _ => rfl
  | reference _ => rfl
  | word _ => rfl
  | literal _ => rfl

end Machine

/-- Two tables give the same run of a program, whatever the state of the host: the same end, the
same invocations with the same arguments, and the same state of the host. -/
def SameRun (natives : Natives κ σ) (p : Tree) (b₁ b₂ : Bindings κ) : Prop :=
  ∀ host : σ,
    let run (b : Bindings κ) :=
      Machine.interpret natives p { world := { bindings := b, host := host } }
    (run b₁).1 = (run b₂).1 ∧ (run b₁).2.trace = (run b₂).2.trace ∧
      (run b₁).2.world.host = (run b₂).2.world.host

theorem sameRun_of_agree {natives : Natives κ σ} (h : natives.Apart) {p : Tree}
    {b₁ b₂ : Bindings κ} (hagree : b₁.Agree b₂ p.footprint) : SameRun natives p b₁ b₂ := by
  intro host run
  have hrun : run b₂ = Machine.exchange b₂ (run b₁) :=
    Machine.interpret_withBindings (m := { world := { bindings := b₁, host := host } }) h hagree
  rw [hrun]
  exact ⟨rfl, rfl, rfl⟩

/-! ## The run of a program -/

/-- **The run of a program is told by its footprint**, if natives are apart from the bindings.

Any two tables that agree on the footprint give the same run.  So the run is not changed by
registrations of names beside the footprint or of further records under names that are taken, nor by
the order in which distinct names are registered, in any table that a host can have. -/
theorem interpret_footprint (natives : Natives κ σ) (hapart : natives.Apart) (p : Tree) :
    (∀ b₁ b₂ : Bindings κ, b₁.Agree b₂ p.footprint → SameRun natives p b₁ b₂) ∧
    (∀ past later : List (Edit κ),
      let b := ({} : Bindings κ).edit past
      Edit.BesideAll p.footprint b later → SameRun natives p b (b.edit later)) ∧
    (∀ past later later' : List (Edit κ),
      let b := ({} : Bindings κ).edit past
      later.Perm later' → (∀ e ∈ later, e.target? b ≠ none) →
      (later.map fun e => e.target? b).Nodup →
      SameRun natives p (b.edit later) (b.edit later')) := by
  have hkept (past : List (Edit κ)) := History.run_kept History.kept_empty past
  have hbindings (past : List (Edit κ)) :
      (({} : History κ).run past).bindings = ({} : Bindings κ).edit past :=
    History.bindings_run {} past
  refine ⟨fun b₁ b₂ => sameRun_of_agree hapart, ?_, ?_⟩
  · intro past later
    rw [← hbindings past]
    intro b hbeside
    exact sameRun_of_agree hapart (Edit.agree_beside (hkept past) hbeside)
  · intro past later later'
    rw [← hbindings past]
    intro b hperm htargets hdistinct
    exact sameRun_of_agree hapart (Edit.agree_of_perm (hkept past) hperm htargets hdistinct _)

/-- A program that prints `x` and a sum.  The reference to `z` at its top has no effect. -/
def printing : Tree :=
  .program [.call "출력" [.reference "x", .call "덧셈" [.literal "1", .literal "2"]], .reference "z"]

/-- What `printing` prints is not changed by a second `x`, a `z` and another function, nor by the
order in which they are registered, nor by a table with other records in other places. -/
theorem interpret_footprint_printing :
    let b : Bindings Standard := ({} : Bindings Standard).edit
      [.putFunction "출력" .print, .putFunction "덧셈" .add, .defineVariable "x" (.text "a")]
    let other : Bindings Standard :=
      { functions := [("f", .wait), ("덧셈", .add), ("출력", .print)]
        records := [⟨"y", Dynamic.wrap (.int 7)⟩, ⟨"renamed", Dynamic.wrap (.text "a")⟩]
        filed := [("y", [0]), ("x", [1])] }
    let later : List (Edit Standard) :=
      [.defineVariable "x" (.text "b"), .defineVariable "z" (.int 7), .putFunction "f" .wait]
    Standard.natives.Apart ∧
    (Machine.interpret Standard.natives printing
      { world := { bindings := b, host := "" } }).2.world.host = "a 3\n" ∧
    SameRun Standard.natives printing b other ∧
    SameRun Standard.natives printing b (b.edit later) ∧
    SameRun Standard.natives printing (b.edit later) (b.edit later.reverse) := by
  intro b other later
  obtain ⟨hagree, hbeside, hperm⟩ :=
    interpret_footprint Standard.natives Standard.natives_apart printing
  refine ⟨Standard.natives_apart, by decide +kernel, hagree b other ?_, hbeside _ later ?_,
    hperm _ later _ (List.reverse_perm later).symm (by decide) (by decide)⟩
  · have hnames : printing.footprint = [.call "출력", .reference "x", .call "덧셈"] := rfl
    rw [hnames]
    intro x hx
    simp only [List.mem_cons, List.not_mem_nil, or_false] at hx
    rcases hx with rfl | rfl | rfl
    · rfl
    · rfl
    · rfl
  · refine ⟨⟨trivial, ?_⟩, ⟨trivial, ?_⟩, ⟨trivial, ?_⟩, trivial⟩
    · rintro x ⟨⟩
      exact Or.inr ⟨"x", _, rfl, rfl⟩
    · rintro x ⟨⟩
      exact Or.inl (by decide)
    · rintro x ⟨⟩
      exact Or.inl (by decide)

end BracketCall
