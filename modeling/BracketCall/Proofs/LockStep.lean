import BracketCall.Proofs.LiteralPass
import BracketCall.Proofs.ProgramRun
import BracketCall.Proofs.Truncation

/-!
# Two runs in step

A source can be run with its literals marked or without.  The two programs have the same shape, and
where the one has a literal the other has a word, which cannot be an argument.  So the two runs go
in step, native by native, until the run without literals comes to such a word.  There it ends,
while the other run has a value and goes on.

**Method.**  The program without literals is the other one with its literals as words.  Both are
evaluated from one machine, by recursion over the tree: the outcomes are equal, or the first
evaluation stopped at a word (`Parts`) and the second one came to the same place.  A place is told
by a path, the numbers of the arguments that lead to it.

**Results.**
* `argument_lockStep`, `arguments_lockStep`, `statements_lockStep`: the two evaluations in step.
* `parseSource_cases`: the program that a source has without literals.
* `evaluate_literals`: the two runs of a source.
-/

namespace BracketCall

variable {κ σ : Type}

/-! ## Places -/

/-- While a tree is evaluated, beginning with the first machine, the evaluation of its node at the
path begins with the second machine; the third tree is this node. -/
inductive Comes (natives : Natives κ σ) :
    Tree → Machine κ σ → List Nat → Tree → Machine κ σ → Prop
  | here {t : Tree} {m : Machine κ σ} : Comes natives t m [] t m
  | inside {name : String} {code : κ} {left right : List Tree} {u t : Tree} {path : List Nat}
      {values : List Dynamic} {m m₁ m' : Machine κ σ} :
      m.world.bindings.function? name = some code →
      m.arguments natives left = (.ok values, m₁) →
      Comes natives u m₁ path t m' →
      Comes natives (.call name (left ++ u :: right)) m (left.length :: path) t m'

/-- The same for one of several arguments, whose number begins the path. -/
def ComesAmong (natives : Natives κ σ) (args : List Tree) (m : Machine κ σ) (path : List Nat)
    (t : Tree) (m' : Machine κ σ) : Prop :=
  ∃ left u right values m₁ inner, args = left ++ u :: right ∧ path = left.length :: inner ∧
    m.arguments natives left = (.ok values, m₁) ∧ Comes natives u m₁ inner t m'

/-- The same for the run of statements: the path begins with the number of a call among them. -/
def ComesInRun (natives : Natives κ σ) (body : List Tree) (m : Machine κ σ) (path : List Nat)
    (t : Tree) (m' : Machine κ σ) : Prop :=
  ∃ before name args after m₁ inner, body = before ++ .call name args :: after ∧
    path = before.length :: inner ∧ m.statements natives before = (.ok (), m₁) ∧
    Comes natives (.call name args) m₁ inner t m'

section Places

variable {natives : Natives κ σ} {t u : Tree} {args : List Tree} {path : List Nat}
  {m m₁ m' : Machine κ σ}

theorem ComesAmong.call {name : String} {code : κ}
    (hf : m.world.bindings.function? name = some code)
    (h : ComesAmong natives args m path t m') : Comes natives (.call name args) m path t m' := by
  obtain ⟨left, u, right, values, m₁, inner, rfl, rfl, hleft, hcomes⟩ := h
  exact .inside hf hleft hcomes

theorem Comes.first (h : Comes natives u m path t m') (args : List Tree) :
    ComesAmong natives (u :: args) m (0 :: path) t m' :=
  ⟨[], u, args, [], m, path, rfl, rfl, rfl, h⟩

/-- A place among later arguments has a number that is greater by one. -/
theorem ComesAmong.cons {v : Dynamic} (hu : m.argument natives u = (.ok v, m₁))
    (h : ComesAmong natives args m₁ path t m') :
    ComesAmong natives (u :: args) m (path.modifyHead (· + 1)) t m' := by
  obtain ⟨left, w, right, values, m₂, inner, rfl, rfl, hleft, hcomes⟩ := h
  refine ⟨u :: left, w, right, v :: values, m₂, inner, rfl, rfl, ?_, hcomes⟩
  rw [Machine.arguments_cons, hu, Machine.andThen, hleft]
  rfl

theorem Comes.statement {name : String} (h : Comes natives (.call name args) m path t m')
    (rest : List Tree) : ComesInRun natives (.call name args :: rest) m (0 :: path) t m' :=
  ⟨[], name, args, rest, m, path, rfl, rfl, rfl, h⟩

theorem ComesInRun.cons {body : List Tree} (hu : m.statements natives [u] = (.ok (), m₁))
    (h : ComesInRun natives body m₁ path t m') :
    ComesInRun natives (u :: body) m (path.modifyHead (· + 1)) t m' := by
  obtain ⟨before, name, args, after, m₂, inner, rfl, rfl, hbefore, hcomes⟩ := h
  refine ⟨u :: before, name, args, after, m₂, inner, rfl, rfl, ?_, hcomes⟩
  rw [← List.singleton_append, Machine.statements_append, hu]
  exact hbefore

end Places

/-! ## Evaluations in step -/

section Steps

variable {α β : Type} {First Second First' Second' : List Nat → Tree → Machine κ σ → Prop}

/-- The first outcome is a stop at a word.  With the same machine the second evaluation came to a
literal at the same place, and it went on from there.  `First` and `Second` tell to which places the
two evaluations come. -/
def Parts (First Second : List Nat → Tree → Machine κ σ → Prop)
    (x y : Except Failure α × Machine κ σ) : Prop :=
  ∃ text path m', x = (.error (.fault (.unsupportedArgument (.word text))), m') ∧
    First path (.word text) m' ∧ Second path (.literal text) m' ∧ m'.trace <+: y.2.trace

/-- Two evaluations have one outcome, or they part. -/
def LockStep (First Second : List Nat → Tree → Machine κ σ → Prop)
    (x y : Except Failure α × Machine κ σ) : Prop :=
  x = y ∨ Parts First Second x y

theorem LockStep.mono {x y : Except Failure α × Machine κ σ} (h : LockStep First Second x y)
    (move : List Nat → List Nat)
    (hfirst : ∀ path t m', First path t m' → First' (move path) t m')
    (hsecond : ∀ path t m', Second path t m' → Second' (move path) t m') :
    LockStep First' Second' x y := by
  rcases h with heq | ⟨text, path, m', hx, hword, hliteral, htrace⟩
  · exact Or.inl heq
  · exact Or.inr ⟨text, move path, m', hx, hfirst _ _ _ hword, hsecond _ _ _ hliteral, htrace⟩

/-- Evaluations that go in step and on from a common result go in step as a whole. -/
theorem LockStep.andThen {x y : Except Failure α × Machine κ σ}
    {f g : α → Machine κ σ → Except Failure β × Machine κ σ} (h : LockStep First Second x y)
    (hnext : ∀ a m₁, x = (.ok a, m₁) → y = (.ok a, m₁) → LockStep First Second (f a m₁) (g a m₁))
    (hgrows : ∀ a m₁, m₁.trace <+: (g a m₁).2.trace) :
    LockStep First Second (Machine.andThen x f) (Machine.andThen y g) := by
  rcases h with rfl | ⟨text, path, m', rfl, hword, hliteral, htrace⟩
  · obtain ⟨e | a, m₁⟩ := x
    · exact Or.inl rfl
    · exact hnext a m₁ rfl rfl
  · refine Or.inr ⟨text, path, m', rfl, hword, hliteral, htrace.trans ?_⟩
    exact Machine.andThen_invariant (P := fun m₁ => y.2.trace <+: m₁.trace) (List.prefix_refl _)
      fun a m₁ hy => by
        rw [hy]
        exact hgrows a m₁

end Steps

namespace Machine

variable {natives : Natives κ σ}

theorem arguments_trace (args : List Tree) (m : Machine κ σ) :
    m.trace <+: (m.arguments natives args).2.trace :=
  (arguments_grows args m).isPrefix

theorem invoke_trace (call : Invocation κ) (m : Machine κ σ) :
    m.trace <+: (m.invoke natives call).2.trace :=
  List.prefix_append _ _

/-- A call goes in step with the same call of words, if its arguments do. -/
theorem call_lockStep (name : String) {args args' : List Tree} {m : Machine κ σ}
    (hargs : LockStep (ComesAmong natives args' m) (ComesAmong natives args m)
      (m.arguments natives args') (m.arguments natives args)) :
    LockStep (Comes natives (.call name args') m) (Comes natives (.call name args) m)
      (m.call natives name args') (m.call natives name args) := by
  cases hf : m.world.bindings.function? name with
  | none =>
      refine Or.inl ?_
      simp only [call, hf]
  | some code =>
      rw [call_of_function natives args' hf, call_of_function natives args hf]
      have hstep := hargs.mono id (fun _ _ _ h => h.call hf) fun _ _ _ h => h.call hf
      exact hstep.andThen (fun values m₁ _ _ => Or.inl rfl) fun values m₁ => invoke_trace _ m₁

variable (natives)

mutual

/-- An argument goes in step with itself where its literals are words. -/
theorem argument_lockStep : ∀ (t : Tree) (m : Machine κ σ), (∀ n ∈ t.nodes, n.shape ≠ .program) →
    LockStep (Comes natives t.asWords m) (Comes natives t m) (m.argument natives t.asWords)
      (m.argument natives t)
  | .literal text, m, _ => Or.inr ⟨text, [], m, rfl, .here, .here, List.prefix_refl _⟩
  | .call name args, m, hno => by
      have hargs := arguments_lockStep args m (Tree.forall_nodes_call.mp hno).2
      rw [Tree.asWords, argument_call, argument_call]
      exact (call_lockStep name hargs).andThen (fun _ _ _ _ => Or.inl rfl)
        fun _ _ => List.prefix_refl _
  | .reference name, m, _ => Or.inl rfl
  | .word text, m, _ => Or.inl rfl
  | .program body, m, hno => absurd rfl (hno _ (Tree.mem_nodes_self _))

theorem arguments_lockStep : ∀ (args : List Tree) (m : Machine κ σ),
    (∀ n ∈ Tree.nodesAll args, n.shape ≠ .program) →
    LockStep (ComesAmong natives (Tree.asWordsAll args) m) (ComesAmong natives args m)
      (m.arguments natives (Tree.asWordsAll args)) (m.arguments natives args)
  | [], m, _ => Or.inl rfl
  | t :: args, m, hno => by
      obtain ⟨hfirst, hrest⟩ := Tree.forall_nodesAll_cons.mp hno
      have hstep := argument_lockStep t m hfirst
      rw [Tree.asWordsAll, arguments_cons, arguments_cons]
      refine (hstep.mono (0 :: ·) (fun _ _ _ h => h.first _) fun _ _ _ h => h.first _).andThen ?_ ?_
      · intro v m₁ hwords hliterals
        have hlater := (arguments_lockStep args m₁ hrest).mono (·.modifyHead (· + 1))
          (fun _ _ _ h => h.cons hwords) fun _ _ _ h => h.cons hliterals
        exact hlater.andThen (fun _ _ _ _ => Or.inl rfl) fun _ _ => List.prefix_refl _
      · intro v m₁
        rw [andThen_result]
        exact arguments_trace args m₁

end

theorem statement_lockStep (t : Tree) (rest : List Tree) (m : Machine κ σ)
    (hno : ∀ n ∈ t.nodes, n.shape ≠ .program) :
    LockStep (ComesInRun natives (Tree.asWordsAll (t :: rest)) m) (ComesInRun natives (t :: rest) m)
      (m.statements natives [t.asWords]) (m.statements natives [t]) := by
  cases t with
  | call name args =>
      have hargs := arguments_lockStep natives args m (Tree.forall_nodes_call.mp hno).2
      have hstep := (call_lockStep name hargs).mono (0 :: ·)
        (fun _ _ _ h => h.statement (Tree.asWordsAll rest)) fun _ _ _ h => h.statement rest
      rw [Tree.asWords, statements_singleton, statements_singleton]
      exact hstep.andThen (fun _ _ _ _ => Or.inl rfl) fun _ _ => List.prefix_refl _
  | program _ => exact Or.inl rfl
  | reference _ => exact Or.inl rfl
  | word _ => exact Or.inl rfl
  | literal _ => exact Or.inl rfl

theorem statements_lockStep (body : List Tree) (m : Machine κ σ)
    (hno : ∀ n ∈ Tree.nodesAll body, n.shape ≠ .program) :
    LockStep (ComesInRun natives (Tree.asWordsAll body) m) (ComesInRun natives body m)
      (m.statements natives (Tree.asWordsAll body)) (m.statements natives body) := by
  induction body generalizing m with
  | nil => exact Or.inl rfl
  | cons t rest ih =>
      obtain ⟨hfirst, hrest⟩ := Tree.forall_nodesAll_cons.mp hno
      have hstep := statement_lockStep natives t rest m hfirst
      have hwhole := hstep.andThen (f := fun _ m₁ => m₁.statements natives (Tree.asWordsAll rest))
        (g := fun _ m₁ => m₁.statements natives rest)
      rw [← statements_append, ← statements_append] at hwhole
      refine hwhole ?_ ?_
      · intro _ m₁ hwords hliterals
        exact (ih m₁ hrest).mono (·.modifyHead (· + 1)) (fun _ _ _ h => h.cons hwords)
          fun _ _ _ h => h.cons hliterals
      · intro _ m₁
        exact (statements_grows natives rest m₁).isPrefix

end Machine

/-! ## The program without literals -/

/-- Trees without literals have none below them. -/
theorem Tree.asWords_of_mem {ts : List Tree} (hts : asWordsAll ts = ts) {t : Tree} (ht : t ∈ ts) :
    t.asWords = t := by
  induction ts with
  | nil => cases ht
  | cons u ts ih =>
      obtain ⟨hu, hrest⟩ := List.cons.inj hts
      rcases List.mem_cons.mp ht with rfl | ht
      · exact hu
      · exact ih hrest ht

mutual

theorem Phrase.asWords_tree : ∀ phrase : Phrase, (∀ t ∈ phrase.yield, t.kind ≠ .literal) →
    phrase.tree.asWords = phrase.tree
  | .word _, _ => rfl
  | .literal token, h => absurd token.property (h _ (List.mem_singleton_self _))
  | .reference _ _ _ _ _, _ => rfl
  | .call _ _ _ _ args _ _, h => by
      have hargs := ArgumentPhrases.asWords_trees args fun t ht => h t (by simp [Phrase.yield, ht])
      rw [Phrase.tree, Tree.asWords, hargs]

theorem ArgumentPhrases.asWords_trees : ∀ args : ArgumentPhrases,
    (∀ t ∈ args.yield, t.kind ≠ .literal) → Tree.asWordsAll args.trees = args.trees
  | .nil, _ => rfl
  | .cons bar phrase rest, h => by
      have hmem : ∀ t, t ∈ phrase.yield ∨ t ∈ rest.yield →
          t ∈ (ArgumentPhrases.cons bar phrase rest).yield := by
        intro t ht
        cases bar <;> simp [ArgumentPhrases.yield, ht]
      have hfirst := Phrase.asWords_tree phrase fun t ht => h t (hmem t (Or.inl ht))
      have hrest := ArgumentPhrases.asWords_trees rest fun t ht => h t (hmem t (Or.inr ht))
      rw [ArgumentPhrases.trees, Tree.asWordsAll, hfirst, hrest]

end

theorem phrases_asWords (phrases : List Phrase)
    (h : ∀ t ∈ phrases.flatMap Phrase.yield, t.kind ≠ .literal) :
    Tree.asWordsAll (phrases.map Phrase.tree) = phrases.map Phrase.tree := by
  induction phrases with
  | nil => rfl
  | cons phrase phrases ih =>
      have hfirst := phrase.asWords_tree fun t ht => h t (List.mem_append_left _ ht)
      have hrest := ih fun t ht => h t (List.mem_append_right _ ht)
      rw [List.map_cons, Tree.asWordsAll, hfirst, hrest]

theorem Lexes.kind_ne_literal {cs : List Char} {raw : List Token} (h : Lexes cs raw) {t : Token}
    (ht : t ∈ raw) : t.kind ≠ .literal := by
  obtain ⟨lexeme, rfl⟩ := h.exists_lexeme ht
  cases lexeme <;> simp [Lexeme.token, Token.ofMark, Token.ofWord]

/-- A source fails in one way with and without the pass over the literals; or it has a program, and
without the pass the literals of this program are words. -/
theorem parseSource_cases (source : String) :
    (∃ f, parseSource false source = .error f ∧ parseSource true source = .error f) ∨
      ∃ body, parseSource true source = .ok (.program body) ∧
        parseSource false source = .ok (.program (Tree.asWordsAll body)) := by
  rw [parseSource, parseSource, tokenize_eq, tokenize_eq]
  rcases hdrain : Reader.drain ⟨0, source.toList⟩ with ⟨raw, _ | f, r⟩
  · have hlexes := Reader.lexes_of_drain hdrain
    have hagree := parse_agree raw
    simp only [Token.listing, Bool.false_eq_true, if_false, if_true]
    cases hraw : parse raw with
    | error f =>
        rw [hraw] at hagree
        generalize parse (Token.markLiterals raw) = after at hagree ⊢
        cases hagree
        rw [Fault.shift_zero]
        exact Or.inl ⟨f, rfl, rfl⟩
    | ok program =>
        obtain ⟨⟨phrases, hyield⟩, rfl⟩ := derives_of_parse hraw
        have hwords := phrases_asWords phrases fun t ht =>
          hlexes.kind_ne_literal (hyield ▸ ht)
        rw [hraw] at hagree
        cases hmarked : parse (Token.markLiterals raw) with
        | error f =>
            rw [hmarked] at hagree
            cases hagree
        | ok program' =>
            obtain ⟨⟨phrases', _⟩, rfl⟩ := derives_of_parse hmarked
            rw [hmarked] at hagree
            cases hagree with
            | ok hsame =>
                refine Or.inr ⟨_, rfl, ?_⟩
                simp only [Derivation.program, Tree.asWords, Tree.program.injEq] at hsame ⊢
                rw [← hsame, hwords]
  · exact Or.inl ⟨f, rfl, rfl⟩

/-! ## Arguments without literals -/

section Constructs

variable {natives : Natives κ σ}

theorem Reaches.asWords {t u : Tree} {m m' : Machine κ σ} (h : Reaches natives t m u m')
    (ht : t.asWords = t) : u.asWords = u := by
  induction h with
  | here => exact ht
  | inside _ _ _ ih =>
      simp only [Tree.asWords, Tree.call.injEq, true_and] at ht
      exact ih (Tree.asWords_of_mem ht (by simp))

theorem RunReaches.asWords {body : List Tree} {u : Tree} {m m' : Machine κ σ}
    (h : RunReaches natives body m u m') (hbody : Tree.asWordsAll body = body) :
    u.asWords = u := by
  cases h with
  | within _ hreaches => exact hreaches.asWords (Tree.asWords_of_mem hbody (by simp))

/-- An argument that has a value and is no literal is a call or a reference. -/
theorem Collected.isConstruct {args : List Tree} {m : Machine κ σ} {values : List Dynamic}
    (h : Collected natives args m values) (hargs : Tree.asWordsAll args = args) :
    ∀ t ∈ args, t.isConstruct = true := by
  intro t ht
  have hwords := Tree.asWords_of_mem hargs ht
  obtain ⟨left, right, rfl⟩ := List.append_of_mem ht
  obtain ⟨v, hv, -⟩ := h.each left t right rfl
  generalize m.reaching natives (left ++ [t]) = m' at hv
  cases hv with
  | literal => cases hwords
  | reference _ _ => rfl
  | call _ => rfl

end Constructs

/-! ## The two runs of a source -/

/-- The runs of a source without and with literals come to the same argument with the same machine.
There the one finds a word and the other a literal with its text. -/
def PartsIn (natives : Natives κ σ) (source : String) (m : Machine κ σ) (text : String)
    (m' : Machine κ σ) : Prop :=
  ∃ body body' path, parseSource false source = .ok (.program body) ∧
    parseSource true source = .ok (.program body') ∧
    ComesInRun natives body m path (.word text) m' ∧
    ComesInRun natives body' m path (.literal text) m'

/-- An invocation in the run of a source without literals: it is made for a call that the run
reached, and all its arguments are the values of calls and references. -/
def FromConstructs (natives : Natives κ σ) (source : String) (m : Machine κ σ)
    (call : Invocation κ) (before : List (Invocation κ)) : Prop :=
  ∃ body args m', parseSource false source = .ok (.program body) ∧
    RunReaches natives body m (.call call.name args) m' ∧ Bound natives args m' call ∧
    before = (m'.reaching natives args).trace ∧ ∀ t ∈ args, t.isConstruct = true

/-- **With and without literals, a source is run in step.**  The natives that are invoked without
literals are also invoked with them, in the same order and with the same arguments.  If the run
without literals ends well, so does the other, in the same state.  If it fails, then the other fails
in the same way and the same state, or it failed at a word in the place of an argument, and there
the other run came to a literal.  Without literals, all arguments come from calls and references. -/
theorem evaluate_literals (natives : Natives κ σ) (source : String) (m : Machine κ σ) :
    (m.evaluate natives false source).2.trace <+: (m.evaluate natives true source).2.trace ∧
    ((m.evaluate natives false source).1 = .ok () →
      m.evaluate natives true source = m.evaluate natives false source) ∧
    (∀ e, (m.evaluate natives false source).1 = .error e →
      m.evaluate natives true source = m.evaluate natives false source ∨
      ∃ text, e = .fault (.unsupportedArgument (.word text)) ∧
        PartsIn natives source m text (m.evaluate natives false source).2) ∧
    Grows (FromConstructs natives source m) m.trace (m.evaluate natives false source).2.trace := by
  rcases parseSource_cases source with ⟨f, hplain, hmarked⟩ | ⟨body, hmarked, hplain⟩
  · have hrun : ∀ literals, m.evaluate natives literals source = (.error (.fault f), m) := by
      intro literals
      cases literals with
      | false => exact Machine.evaluate_error hplain m
      | true => exact Machine.evaluate_error hmarked m
    rw [hrun, hrun]
    exact ⟨List.prefix_refl _, fun _ => rfl, fun _ _ => Or.inl rfl, .refl⟩
  · have hno : ∀ n ∈ Tree.nodesAll body, n.shape ≠ .program := fun n hn =>
      ((hasSource_of_parseSource hmarked).proper n hn).noProgram
    have hgrows : Grows (FromConstructs natives source m) m.trace
        (m.statements natives (Tree.asWordsAll body)).2.trace := by
      refine (Machine.statements_grows natives _ m).mono ?_
      rintro call before ⟨args, m', hreaches, hbound, hbefore⟩
      have hcall := hreaches.asWords (Tree.asWordsAll_asWordsAll body)
      simp only [Tree.asWords, Tree.call.injEq, true_and] at hcall
      exact ⟨_, args, m', hplain, hreaches, hbound, hbefore, hbound.arguments.isConstruct hcall⟩
    rw [Machine.evaluate_program hplain, Machine.evaluate_program hmarked]
    rcases Machine.statements_lockStep natives body m hno with
      heq | ⟨text, path, m', hstop, hword, hliteral, htrace⟩
    · rw [heq] at hgrows ⊢
      exact ⟨List.prefix_refl _, fun _ => rfl, fun _ _ => Or.inl rfl, hgrows⟩
    · rw [hstop] at hgrows ⊢
      refine ⟨htrace, nofun, ?_, hgrows⟩
      intro e he
      cases he
      exact Or.inr ⟨text, rfl, _, body, path, hplain, hmarked, hword, hliteral⟩

/-- Natives that give nothing and count how often they are invoked. -/
def tallying : Natives Unit Nat := fun _ _ w =>
  (.ok .none, { w with host := w.host + 1 })

/-- A call with a call and a literal as arguments.  Without literals the inner call is still made,
and the run ends at the word behind it. -/
theorem evaluate_literals_parted :
    let m : Machine Unit Nat :=
      { world := { bindings := { functions := [("f", ()), ("g", ())] }, host := 0 } }
    let plain := m.evaluate tallying false "[[f|[[g|]]|a]]"
    let marked := m.evaluate tallying true "[[f|[[g|]]|a]]"
    plain.2.trace.map Invocation.name = ["g"] ∧
    marked.2.trace.map Invocation.name = ["g", "f"] ∧
    plain.2.trace <+: marked.2.trace ∧
    PartsIn tallying "[[f|[[g|]]|a]]" m "a" plain.2 := by
  intro m plain marked
  have hwords : parseSource false "[[f|[[g|]]|a]]" =
      .ok (.program [.call "f" [.call "g" [], .word "a"]]) := by
    cbv
  have hliterals : parseSource true "[[f|[[g|]]|a]]" =
      .ok (.program [.call "f" [.call "g" [], .literal "a"]]) := by
    cbv
  have hplain : plain = m.statements tallying [.call "f" [.call "g" [], .word "a"]] :=
    Machine.evaluate_program hwords m
  have hmarked : marked = m.statements tallying [.call "f" [.call "g" [], .literal "a"]] :=
    Machine.evaluate_program hliterals m
  have hinvoked : plain.2.trace.map Invocation.name = ["g"] := by
    rw [hplain]
    rfl
  have hall : marked.2.trace.map Invocation.name = ["g", "f"] := by
    rw [hmarked]
    rfl
  have hstop : plain.1 = .error (.fault (.unsupportedArgument (.word "a"))) := by
    rw [hplain]
    rfl
  obtain ⟨htrace, -, hfails, -⟩ := evaluate_literals tallying "[[f|[[g|]]|a]]" m
  refine ⟨hinvoked, hall, htrace, ?_⟩
  rcases hfails _ hstop with hsame | ⟨text, htext, hparts⟩
  · have hnames : marked.2.trace.map Invocation.name = plain.2.trace.map Invocation.name :=
      congrArg (fun x => x.2.trace.map Invocation.name) hsame
    rw [hinvoked, hall] at hnames
    cases hnames
  · cases htext
    exact hparts

end BracketCall
