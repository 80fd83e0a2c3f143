import BracketCall.Natives
import BracketCall.Proofs.Sequencing
import Mathlib.Algebra.Ring.Int.Defs

/-!
# Sums of nested additions

Additions may be nested to any depth.  Their leaves are literals and references; a leaf is an integer
or a text.  If all leaves are integers then the sum is exact: it does not pass through a double, and
the result of an inner addition is not read again as a text.  If a leaf is a text then the addition
around it reports that it is no number, and this ends the evaluation.  So only the leaves count, and
neither how they are grouped nor in which order they stand.

**Method.**  `Leaves` lists the leaves of a tree from left to right, each with its integer or with
nothing.  `total?` is their sum, which a text makes undefined.  One induction over the tree shows that
an argument gives the total of its leaves.  A text alone is an argument that has a value, which only
the addition around it refuses; therefore arguments are described by what an addition makes of them,
with any sum to begin with.

**Results.**
* `total?_append`, `total?_perm`: grouping and order do not count.
* `argument_leaves`, `arguments_leaves`: what arguments give.
* `call_leaves`: what an addition gives.
* `call_sum_exact`: the sum of the leaves, or the mismatch, and nothing else.
-/

namespace BracketCall

variable {κ σ : Type}

/-! ## Leaves -/

/-- A leaf that is an integer or a text. -/
inductive Leaf (b : Bindings κ) : Tree → Option Int → Prop
  | integerLiteral {text : String} {n : Int} :
      Numeral.read? text = some (.int n) →
      Leaf b (.literal text) (some n)
  | textLiteral {text : String} :
      Numeral.read? text = none →
      Leaf b (.literal text) none
  | integerVariable {name : String} {n : Int} :
      b.value? name = some ⟨.number, .int n⟩ →
      Leaf b (.reference name) (some n)
  | textVariable {name text : String} :
      b.value? name = some ⟨.string, .text text⟩ →
      Leaf b (.reference name) none

mutual

/-- A tree of additions, and its leaves from left to right. -/
inductive Leaves (b : Bindings κ) : Tree → List (Option Int) → Prop
  | leaf {t : Tree} {x : Option Int} :
      Leaf b t x →
      Leaves b t [x]
  | addition {args : List Tree} {xs : List (Option Int)} :
      LeavesAll b args xs →
      Leaves b (.call Standard.add.name args) xs

/-- A row of such trees, and all its leaves. -/
inductive LeavesAll (b : Bindings κ) : List Tree → List (Option Int) → Prop
  | nil : LeavesAll b [] []
  | cons {t : Tree} {ts : List Tree} {xs ys : List (Option Int)} :
      Leaves b t xs →
      LeavesAll b ts ys →
      LeavesAll b (t :: ts) (xs ++ ys)

end

/-! ## Totals -/

/-- The sum of the leaves, if none of them is a text. -/
def total? : List (Option Int) → Option Int
  | [] => some 0
  | x :: xs => x.bind fun n => (total? xs).map (n + ·)

theorem total?_append (xs ys : List (Option Int)) :
    total? (xs ++ ys) = (total? xs).bind fun m => (total? ys).map (m + ·) := by
  induction xs with
  | nil => cases h : total? ys <;> simp [total?, h]
  | cons x xs ih =>
      rw [List.cons_append, total?, total?, ih]
      cases x with
      | none => rfl
      | some n =>
          cases total? xs with
          | none => rfl
          | some m => cases total? ys <;> simp [Int.add_assoc]

theorem total?_map_some (ns : List Int) : total? (ns.map some) = some ns.sum := by
  induction ns with
  | nil => rfl
  | cons n ns ih => simp [total?, ih]

theorem total?_of_none_mem {xs : List (Option Int)} (h : none ∈ xs) : total? xs = none := by
  obtain ⟨before, after, rfl⟩ := List.append_of_mem h
  rw [total?_append]
  cases total? before <;> rfl

/-- The leaves are all integers, or there is a text among them. -/
theorem exists_integers_or_none_mem (xs : List (Option Int)) :
    (∃ ns : List Int, xs = ns.map some) ∨ none ∈ xs := by
  induction xs with
  | nil => exact .inl ⟨[], rfl⟩
  | cons x xs ih =>
      cases x with
      | none => exact .inr List.mem_cons_self
      | some n =>
          rcases ih with ⟨ns, rfl⟩ | hmem
          · exact .inl ⟨n :: ns, rfl⟩
          · exact .inr (List.mem_cons_of_mem _ hmem)

theorem total?_eq_none_iff {xs : List (Option Int)} : total? xs = none ↔ none ∈ xs := by
  refine ⟨?_, total?_of_none_mem⟩
  intro h
  rcases exists_integers_or_none_mem xs with ⟨ns, rfl⟩ | hmem
  · rw [total?_map_some] at h
    cases h
  · exact hmem

theorem total?_perm {xs ys : List (Option Int)} (h : xs.Perm ys) : total? xs = total? ys := by
  induction h with
  | nil => rfl
  | cons x _ ih => rw [total?, total?, ih]
  | swap x y zs =>
      cases x with
      | none => cases y <;> rfl
      | some m =>
          cases y with
          | none => rfl
          | some n => cases h : total? zs <;> simp [total?, h, Int.add_left_comm]
  | trans _ _ ih ih' => exact ih.trans ih'

/-! ## What an addition makes of its arguments -/

/-- A text where a number is expected. -/
def textForNumber : Fault :=
  .kindMismatch .number .string

/-- What an addition gives: the total, or the report of a text. -/
def verdict : Option Int → Except Failure Value
  | some n => .ok (.int n)
  | none => .error (.fault textForNumber)

/-- What an argument with these leaves gives.  A text has a value; a sum that holds one has none. -/
inductive Gives (xs : List (Option Int)) : Except Failure Dynamic → Prop
  | number {n : Int} :
      total? xs = some n →
      Gives xs (.ok ⟨.number, .int n⟩)
  | text {text : String} :
      total? xs = none →
      Gives xs (.ok ⟨.string, .text text⟩)
  | stopped :
      total? xs = none →
      Gives xs (.error (.fault textForNumber))

/-- What arguments with these leaves give, told by what is added to any sum before them. -/
def GivesAll (xs : List (Option Int)) (result : Except Failure (List Dynamic)) : Prop :=
  ∀ start : Int, result.bind (Standard.sumFrom (.int start)) =
    verdict ((total? xs).map (start + ·))

theorem givesAll_nil : GivesAll [] (.ok []) := by
  intro start
  simp [Except.bind, Standard.sumFrom, total?, verdict]

theorem givesAll_stopped {xs : List (Option Int)} (h : total? xs = none) :
    GivesAll xs (.error (.fault textForNumber)) := by
  intro start
  rw [h]
  rfl

section Cons

variable {xs ys : List (Option Int)} {result : Except Failure (List Dynamic)}

/-- A number before the other arguments is added to the sum before it. -/
theorem GivesAll.number {n : Int} (hn : total? xs = some n) (h : GivesAll ys result) :
    GivesAll (xs ++ ys) (result.map (⟨.number, .int n⟩ :: ·)) := by
  intro start
  have hsum : (result.map (⟨.number, .int n⟩ :: ·)).bind (Standard.sumFrom (.int start)) =
      result.bind (Standard.sumFrom (.int (start + n))) := by
    cases result <;> rfl
  have htotal : (total? (xs ++ ys)).map (start + ·) = (total? ys).map (start + n + ·) := by
    rw [total?_append, hn, Option.bind_some, Option.map_map]
    congr 1
    funext k
    exact (Int.add_assoc start n k).symm
  rw [hsum, htotal]
  exact h (start + n)

/-- A text before the other arguments is reported, unless one of those stopped the evaluation; and
then this was for the same reason. -/
theorem GivesAll.text {text : String} (hx : total? xs = none) (h : GivesAll ys result) :
    GivesAll (xs ++ ys) (result.map (⟨.string, .text text⟩ :: ·)) := by
  intro start
  rw [total?_append, hx]
  cases result with
  | ok values => rfl
  | error e =>
      have hreport := h 0
      cases hy : total? ys with
      | none =>
          rw [hy] at hreport
          exact hreport
      | some n =>
          rw [hy] at hreport
          cases hreport

end Cons

/-! ## Evaluation -/

/-- The code is that of the standard addition. -/
def Natives.Adds (natives : Natives κ σ) (code : κ) : Prop :=
  ∀ args w, natives code args w = (Standard.sum args, w)

theorem Standard.natives_adds : Standard.natives.Adds .add :=
  fun _ _ => rfl

/-- Each standard native is found under its name once they are registered. -/
theorem Standard.function?_register (code : Standard → κ) (b : Bindings κ) (native : Standard) :
    (Standard.register code b).function? native.name = some (code native) := by
  cases native <;>
    simp [register, all, Bindings.function?, Bindings.putFunction, Dictionary.get?_set, name]

namespace Machine

theorem andThen_fst {α β : Type} (x : Except Failure α × Machine κ σ) (f : α → β) :
    (andThen x fun a m => (.ok (f a), m)).1 = x.1.map f := by
  obtain ⟨_ | _, _⟩ := x <;> rfl

section Additions

variable {natives : Natives κ σ} {code : κ}

/-- An addition gives the total of the leaves of its arguments. -/
theorem call_of_givesAll (hadds : natives.Adds code) {args : List Tree}
    {xs : List (Option Int)} {m : Machine κ σ}
    (hf : m.world.bindings.function? Standard.add.name = some code)
    (hargs : GivesAll xs (m.arguments natives args).1)
    (hworld : (m.arguments natives args).2.world = m.world) :
    (m.call natives Standard.add.name args).1 = verdict (total? xs) ∧
      (m.call natives Standard.add.name args).2.world = m.world := by
  have hzero : (total? xs).map (0 + ·) = total? xs := by
    cases total? xs <;> simp
  have hsum := hargs 0
  rw [hzero] at hsum
  rw [call_of_function natives args hf]
  rcases hvalues : m.arguments natives args with ⟨e | values, m'⟩
  · rw [hvalues] at hsum hworld
    exact ⟨hsum, hworld⟩
  · rw [hvalues] at hsum hworld
    simp only [andThen, invoke, hadds values m'.world]
    exact ⟨hsum, hworld⟩

theorem argument_of_leaf {t : Tree} {x : Option Int} {m : Machine κ σ}
    (h : Leaf m.world.bindings t x) :
    Gives [x] (m.argument natives t).1 ∧ (m.argument natives t).2.world = m.world := by
  cases h with
  | integerLiteral hread =>
      simp only [argument, Dynamic.coerce_text_of_read? hread]
      exact ⟨.number (by simp [total?]), trivial⟩
  | textLiteral hread =>
      simp only [argument, Dynamic.coerce_text_of_none hread]
      exact ⟨.text rfl, trivial⟩
  | integerVariable hvalue =>
      simp only [argument, hvalue]
      exact ⟨.number (by simp [total?]), trivial⟩
  | textVariable hvalue =>
      simp only [argument, hvalue]
      exact ⟨.text rfl, trivial⟩

mutual

/-- An argument gives the total of its leaves and changes nothing. -/
theorem argument_leaves (hadds : natives.Adds code) :
    ∀ (t : Tree) (xs : List (Option Int)) (m : Machine κ σ),
      m.world.bindings.function? Standard.add.name = some code → Leaves m.world.bindings t xs →
      Gives xs (m.argument natives t).1 ∧ (m.argument natives t).2.world = m.world
  | .call name args, xs, m, hf, h => by
      cases h with
      | leaf hleaf => cases hleaf
      | addition hargs =>
          obtain ⟨hgives, hworld⟩ := arguments_leaves hadds args xs m hf hargs
          obtain ⟨hresult, hafter⟩ := call_of_givesAll hadds hf hgives hworld
          rw [argument_call, andThen_fst, andThen_result, hresult]
          refine ⟨?_, hafter⟩
          cases htotal : total? xs with
          | none => exact .stopped htotal
          | some n => exact .number htotal
  | .literal _, _, _, _, h => by
      cases h with
      | leaf hleaf => exact argument_of_leaf hleaf
  | .reference _, _, _, _, h => by
      cases h with
      | leaf hleaf => exact argument_of_leaf hleaf
  | .word _, _, _, _, h => by
      cases h with
      | leaf hleaf => cases hleaf
  | .program _, _, _, _, h => by
      cases h with
      | leaf hleaf => cases hleaf

theorem arguments_leaves (hadds : natives.Adds code) :
    ∀ (ts : List Tree) (xs : List (Option Int)) (m : Machine κ σ),
      m.world.bindings.function? Standard.add.name = some code →
      LeavesAll m.world.bindings ts xs →
      GivesAll xs (m.arguments natives ts).1 ∧ (m.arguments natives ts).2.world = m.world
  | [], _, _, _, h => by
      cases h
      exact ⟨givesAll_nil, rfl⟩
  | t :: ts, _, m, hf, h => by
      cases h with
      | @cons _ _ xs ys ht hts =>
          obtain ⟨hfirst, hworld⟩ := argument_leaves hadds t xs m hf ht
          rw [arguments_cons]
          rcases hargument : m.argument natives t with ⟨first, m₁⟩
          rw [hargument] at hfirst hworld
          -- the table is the same when the other arguments are reached
          rw [← hworld] at hf hts
          obtain ⟨hrest, hafter⟩ := arguments_leaves hadds ts ys m₁ hf hts
          cases hfirst with
          | number hn =>
              rw [andThen, andThen_fst, andThen_result]
              exact ⟨hrest.number hn, hafter.trans hworld⟩
          | text hx =>
              rw [andThen, andThen_fst, andThen_result]
              exact ⟨hrest.text hx, hafter.trans hworld⟩
          | stopped hx =>
              refine ⟨givesAll_stopped ?_, hworld⟩
              rw [total?_append, hx]
              rfl

end

/-- What an addition gives. -/
theorem call_leaves (hadds : natives.Adds code) {args : List Tree} {xs : List (Option Int)}
    {m : Machine κ σ} (hf : m.world.bindings.function? Standard.add.name = some code)
    (h : LeavesAll m.world.bindings args xs) :
    (m.call natives Standard.add.name args).1 = verdict (total? xs) ∧
      (m.call natives Standard.add.name args).2.world = m.world := by
  obtain ⟨hgives, hworld⟩ := arguments_leaves hadds args xs m hf h
  exact call_of_givesAll hadds hf hgives hworld

end Additions

end Machine

/-- **Nested additions are exact.**  Take any tree of additions, of any arity and depth, whose leaves
are literals and variables that are integers or texts, and any table that has the standard addition
under its name.

If all leaves are integers, the addition gives their sum.  If one of them is a text, it ends with the
report that a number was expected, and it fails in no other way.  All trees whose leaves are the same
up to their order give the same result.  In no case does anything else change. -/
theorem call_sum_exact {natives : Natives κ σ} {code : κ} (hadds : natives.Adds code)
    {m : Machine κ σ} (hf : m.world.bindings.function? Standard.add.name = some code)
    {args : List Tree} {xs : List (Option Int)} (h : LeavesAll m.world.bindings args xs) :
    let run := m.call natives Standard.add.name args
    (∀ ns : List Int, xs = ns.map some → run.1 = .ok (.int ns.sum)) ∧
    (none ∈ xs → run.1 = .error (.fault (.kindMismatch .number .string))) ∧
    (∀ e, run.1 = .error e → none ∈ xs ∧ e = .fault (.kindMismatch .number .string)) ∧
    (Fault.kindMismatch .number .string).diagnostic.problem.label = "TypeMismatch" ∧
    (Fault.kindMismatch .number .string).diagnostic.message = "expected number but got string" ∧
    (∀ args' xs', LeavesAll m.world.bindings args' xs' → xs'.Perm xs →
      (m.call natives Standard.add.name args').1 = run.1) ∧
    run.2.world = m.world := by
  intro run
  obtain ⟨hresult, hworld⟩ : run.1 = verdict (total? xs) ∧ run.2.world = m.world :=
    Machine.call_leaves hadds hf h
  refine ⟨?_, ?_, ?_, by decide, by decide, ?_, hworld⟩
  · rintro ns rfl
    rw [hresult, total?_map_some]
    rfl
  · intro hmem
    rw [hresult, total?_of_none_mem hmem]
    rfl
  · intro e he
    rw [hresult] at he
    cases htotal : total? xs with
    | none =>
        rw [htotal] at he
        exact ⟨total?_eq_none_iff.mp htotal, (Except.error.inj he).symm⟩
    | some n =>
        rw [htotal] at he
        cases he
  · intro args' xs' h' hperm
    rw [(Machine.call_leaves hadds hf h').1, hresult, total?_perm hperm]

/-- A machine with the standard natives, the integer `x` and the text `y`. -/
def twoVariables : Machine Standard String :=
  { world :=
      { bindings := Standard.register id
          { records := [⟨"x", ⟨.number, .int (-1)⟩⟩, ⟨"y", ⟨.string, .text "12"⟩⟩]
            filed := [("x", [0]), ("y", [1])] }
        host := "" } }

/-- An addition of nothing, of digits behind `0x` and of a variable, and one that holds a text. -/
theorem call_sum_exact_grouped :
    Standard.natives.Adds .add ∧
    twoVariables.world.bindings.function? Standard.add.name = some .add ∧
    (twoVariables.call Standard.natives Standard.add.name
      [.call Standard.add.name [], .call Standard.add.name [.literal "0x10", .reference "x"]]).1 =
        .ok (.int 15) ∧
    (twoVariables.call Standard.natives Standard.add.name
      [.literal "1", .call Standard.add.name [.reference "y"]]).1 =
        .error (.fault (.kindMismatch .number .string)) := by
  have hf : twoVariables.world.bindings.function? Standard.add.name = some .add :=
    Standard.function?_register id _ .add
  have hliteral : Numeral.read? "0x10" = some (.int 16) := by decide +kernel
  have hone : Numeral.read? "1" = some (.int 1) := by decide +kernel
  have hinteger : twoVariables.world.bindings.value? "x" = some ⟨.number, .int (-1)⟩ := rfl
  have htext : twoVariables.world.bindings.value? "y" = some ⟨.string, .text "12"⟩ := rfl
  have hsum := call_sum_exact Standard.natives_adds hf
    (.cons (.addition .nil) (.cons (.addition (.cons (.leaf (.integerLiteral hliteral))
      (.cons (.leaf (.integerVariable hinteger)) .nil))) .nil))
  have hreport := call_sum_exact Standard.natives_adds hf
    (.cons (.leaf (.integerLiteral hone))
      (.cons (.addition (.cons (.leaf (.textVariable htext)) .nil)) .nil))
  exact ⟨Standard.natives_adds, hf, hsum.1 [16, -1] rfl, hreport.2.1 (by decide)⟩

end BracketCall
