import BracketCall.Proofs.Reading

/-!
# Faults of the parser are met as early as possible

A fault of the parser is blamed on a place: the end of the tokens, or one token.  The part of the
tokens before that place can always be completed to a program.  If a token is to blame, it alone is:
whatever follows it, the fault is the same one.

**Method.**  `Blamed` says this of one reader and of the tokens that it was given.  A reader that
begins with another one inherits its blame (`Blamed.prepend`), so each step of the parser adds only
the faults that it raises itself, and the recursion follows the parser.  What was read before the
place of a fault is known from the derivations: a reader that succeeded on a phrase succeeds on it
whatever follows.

**Results.**
* `statement_blamed`, `arguments_blamed`, `statements_blamed`: every fault is blamed on a place.
* `parse_fault_earliest`: the same for whole programs, by the position in the diagnostic.
-/

namespace BracketCall
namespace Parser

/-- The problems that the end of the tokens can cause. -/
def endProblems : List Problem :=
  [.unexpectedEnd, .expectedClosing]

/-- The problems that a token can cause. -/
def tokenProblems : List Problem :=
  [.expectedOpening, .expectedClosing, .unexpectedToken]

/-- A fault of a reader that began at `position`, with the place to blame.  `Fails` tells on which
tokens the reader has this fault, and `Viable` which tokens can be completed to what it reads. -/
inductive Blamed (Fails Viable : List Token → Prop) (position : Nat) (f : Fault) :
    List Token → Prop
  | atEnd {before : List Token} :
      f.diagnostic.offset = some ((position + before.length : Nat) : Int) →
      f.diagnostic.problem ∈ endProblems →
      Viable before →
      Blamed Fails Viable position f before
  | atToken {before : List Token} {t : Token} {after : List Token} :
      f.diagnostic.offset = some ((position + before.length : Nat) : Int) →
      f.diagnostic.problem ∈ tokenProblems →
      Viable before →
      (∀ later, Fails (before ++ t :: later)) →
      Blamed Fails Viable position f (before ++ t :: after)

/-- A reader that first reads `ys` and then begins another one inherits the blame. -/
theorem Blamed.prepend {Fails Viable Fails' Viable' : List Token → Prop} {position q : Nat}
    {f : Fault} {ts : List Token} (ys : List Token) (hq : q = position + ys.length)
    (h : Blamed Fails Viable q f ts)
    (hf : ∀ us, us.head? = ts.head? → Fails us → Fails' (ys ++ us))
    (hv : ∀ us, Viable us → Viable' (ys ++ us)) :
    Blamed Fails' Viable' position f (ys ++ ts) := by
  subst hq
  cases h with
  | atEnd ho hp hb =>
      refine .atEnd ?_ hp (hv _ hb)
      rw [ho, List.length_append, Nat.add_assoc]
  | @atToken before t after ho hp hb hl =>
      rw [← List.append_assoc]
      refine .atToken ?_ hp (hv _ hb) ?_
      · rw [ho, List.length_append, Nat.add_assoc]
      · intro later
        rw [List.append_assoc]
        refine hf _ ?_ (hl later)
        cases before <;> rfl

/-! ## Completions -/

/-- Tokens that can be completed to a phrase. -/
def PhrasePrefix (ts : List Token) : Prop :=
  ∃ (phrase : Phrase) (later : List Token), phrase.yield = ts ++ later

/-- Tokens that can be completed to arguments with the bracket that closes them. -/
def ArgumentsPrefix (ts : List Token) : Prop :=
  ∃ (phrases : ArgumentPhrases) (c : MarkToken .closing) (later : List Token),
    phrases.yield ++ [c.val] = ts ++ later

/-- Tokens that can be completed to a program. -/
def ProgramPrefix (ts : List Token) : Prop :=
  ∃ (phrases : List Phrase) (later : List Token), phrases.flatMap Phrase.yield = ts ++ later

theorem phrasePrefix_nil : PhrasePrefix [] :=
  ⟨.word (wordToken "x"), _, rfl⟩

/-- The first tokens of a construct can be completed to a reference. -/
theorem phrasePrefix_reference (a b : MarkToken .opening) (n : KindToken .word) {ts us : List Token}
    (h : ts ++ us = [a.val, b.val, n.val]) : PhrasePrefix ts := by
  refine ⟨.reference a b n (Mark.token .closing) (Mark.token .closing),
    us ++ [(Mark.token .closing).val, (Mark.token .closing).val], ?_⟩
  rw [← List.append_assoc, h]
  rfl

theorem ArgumentsPrefix.call {ts : List Token} (h : ArgumentsPrefix ts)
    (a b : MarkToken .opening) (n : KindToken .word) (bar : MarkToken .separator) :
    PhrasePrefix ([a.val, b.val, n.val, bar.val] ++ ts) := by
  obtain ⟨phrases, c, later, h⟩ := h
  refine ⟨.call a b n bar phrases c (Mark.token .closing),
    later ++ [(Mark.token .closing).val], ?_⟩
  have hsplit : phrases.yield ++ [c.val, (Mark.token .closing).val] =
      ts ++ (later ++ [(Mark.token .closing).val]) := by
    rw [← List.append_assoc, ← h]
    simp
  simp only [Phrase.yield, List.cons_append, List.nil_append, hsplit]

theorem PhrasePrefix.arguments {ts : List Token} (h : PhrasePrefix ts) : ArgumentsPrefix ts := by
  obtain ⟨phrase, later, h⟩ := h
  refine ⟨.cons none phrase .nil, Mark.token .closing, later ++ [(Mark.token .closing).val], ?_⟩
  simp [ArgumentPhrases.yield, h]

theorem PhrasePrefix.bar_arguments {ts : List Token} (h : PhrasePrefix ts)
    (bar : MarkToken .separator) : ArgumentsPrefix ([bar.val] ++ ts) := by
  obtain ⟨phrase, later, h⟩ := h
  refine ⟨.cons (some bar) phrase .nil, Mark.token .closing,
    later ++ [(Mark.token .closing).val], ?_⟩
  simp [ArgumentPhrases.yield, h]

theorem ArgumentsPrefix.cons {ts : List Token} (h : ArgumentsPrefix ts) (phrase : Phrase) :
    ArgumentsPrefix (phrase.yield ++ ts) := by
  obtain ⟨phrases, c, later, h⟩ := h
  refine ⟨.cons none phrase phrases, c, later, ?_⟩
  simp only [ArgumentPhrases.yield, List.append_assoc, h]

theorem ArgumentsPrefix.bar_cons {ts : List Token} (h : ArgumentsPrefix ts)
    (bar : MarkToken .separator) (phrase : Phrase) :
    ArgumentsPrefix (bar.val :: phrase.yield ++ ts) := by
  obtain ⟨phrases, c, later, h⟩ := h
  refine ⟨.cons (some bar) phrase phrases, c, later, ?_⟩
  simp only [ArgumentPhrases.yield, List.append_assoc, List.cons_append, h]

theorem PhrasePrefix.program {ts : List Token} (h : PhrasePrefix ts) : ProgramPrefix ts := by
  obtain ⟨phrase, later, h⟩ := h
  exact ⟨[phrase], later, by simp [h]⟩

theorem ProgramPrefix.cons {ts : List Token} (h : ProgramPrefix ts) (phrase : Phrase) :
    ProgramPrefix (phrase.yield ++ ts) := by
  obtain ⟨phrases, later, h⟩ := h
  exact ⟨phrase :: phrases, later, by simp [h]⟩

/-! ## Blame -/

/-- The second bracket of a closing pair is missing. -/
theorem closing_blamed {p : Nat} {ts : List Token} {f : Fault}
    (h : readClosing ⟨p, ts⟩ = .error f) :
    Blamed (fun us => readClosing ⟨p, us⟩ = .error f) (· = []) p f ts := by
  cases ts with
  | nil =>
      cases h
      exact .atEnd rfl (by decide : Problem.expectedClosing ∈ endProblems) rfl
  | cons t ts =>
      by_cases ht : t.isMark .closing = true
      · rw [readClosing_mark ht] at h
        cases h
      · have hfail : ∀ later,
            readClosing ⟨p, t :: later⟩ = .error (.expectedClosing (some t) p) := by
          intro later
          simp [readClosing, closing, Except.map, ht]
        rw [hfail ts] at h
        cases h
        show Blamed _ _ _ _ ([] ++ t :: ts)
        exact .atToken rfl (by decide : Problem.expectedClosing ∈ tokenProblems) rfl hfail

theorem readStatement_of_readHead {p : Nat} {t : Token} {ts : List Token} {f : Fault}
    (ht : t.isMark .opening = true) (h : readHead ⟨p + 1, ts⟩ = .error f) :
    readStatement ⟨p, t :: ts⟩ = .error f := by
  rw [readStatement_opening ht, h]
  rfl

/-- A token in the first half of a construct does not fit, whatever follows it. -/
theorem head_blamed_token {p : Nat} {t x : Token} {before ts : List Token} {f : Fault}
    (ht : t.isMark .opening = true)
    (hviable : PhrasePrefix (t :: before))
    (hfail : ∀ later, readHead ⟨p + 1, before ++ x :: later⟩ = .error f)
    (hoffset : f.diagnostic.offset = some ((p + (t :: before).length : Nat) : Int))
    (hproblem : f.diagnostic.problem ∈ tokenProblems) :
    Blamed (fun us => readStatement ⟨p, us⟩ = .error f) PhrasePrefix p f
      (t :: before ++ x :: ts) :=
  .atToken hoffset hproblem hviable fun later => readStatement_of_readHead ht (hfail later)

/-- The name of a construct is not followed by `|` or `]`. -/
theorem head_blamed_after_name {p : Nat} {t o n : Token} {ts : List Token} {f : Fault}
    (ht : t.isMark .opening = true) (ho : o.isMark .opening = true) (hn : n.kind = .word)
    (h : readHead ⟨p + 1, o :: n :: ts⟩ = .error f) :
    Blamed (fun us => readStatement ⟨p, us⟩ = .error f) PhrasePrefix p f
      (t :: o :: n :: ts) := by
  have hviable : PhrasePrefix [t, o, n] :=
    phrasePrefix_reference ⟨t, ht⟩ ⟨o, ho⟩ ⟨n, hn⟩ rfl
  cases ts with
  | nil =>
      simp only [readHead, plain, head, ho, hn, Except.map] at h
      cases h
      exact .atEnd rfl (by decide : Problem.unexpectedEnd ∈ endProblems) hviable
  | cons x ts =>
      by_cases hs : x.isMark .separator = true
      · rw [readHead_call ho hn hs] at h
        cases h
      by_cases hc : x.isMark .closing = true
      · rw [readHead_reference ho hn hc] at h
        cases h
      have hfail : ∀ later, readHead ⟨p + 1, [o, n] ++ x :: later⟩ =
          .error (.unexpectedToken x (p + 3)) := by
        intro later
        simp [readHead, plain, head, ho, hn, hs, hc, Except.map]
      cases (hfail ts).symm.trans h
      exact head_blamed_token ht hviable hfail rfl
        (by decide : Problem.unexpectedToken ∈ tokenProblems)

/-- The opening pair of a construct is not followed by a name, or what follows the name fails. -/
theorem head_blamed_name {p : Nat} {t o : Token} {ts : List Token} {f : Fault}
    (ht : t.isMark .opening = true) (ho : o.isMark .opening = true)
    (h : readHead ⟨p + 1, o :: ts⟩ = .error f) :
    Blamed (fun us => readStatement ⟨p, us⟩ = .error f) PhrasePrefix p f (t :: o :: ts) := by
  have hviable : PhrasePrefix [t, o] :=
    phrasePrefix_reference ⟨t, ht⟩ ⟨o, ho⟩ (wordToken "x") rfl
  cases ts with
  | nil =>
      simp only [readHead, plain, head, ho, Except.map] at h
      cases h
      exact .atEnd rfl (by decide : Problem.unexpectedEnd ∈ endProblems) hviable
  | cons n ts =>
      by_cases hn : n.kind = .word
      · exact head_blamed_after_name ht ho hn h
      have hfail : ∀ later, readHead ⟨p + 1, [o] ++ n :: later⟩ =
          .error (.unexpectedToken n (p + 2)) := by
        intro later
        simp [readHead, plain, head, ho, hn, Except.map]
      cases (hfail ts).symm.trans h
      exact head_blamed_token ht hviable hfail rfl
        (by decide : Problem.unexpectedToken ∈ tokenProblems)

/-- The first half of a construct breaks off, or has a token that does not fit. -/
theorem head_blamed {p : Nat} {t : Token} {ts : List Token} {f : Fault}
    (ht : t.isMark .opening = true) (h : readHead ⟨p + 1, ts⟩ = .error f) :
    Blamed (fun us => readStatement ⟨p, us⟩ = .error f) PhrasePrefix p f (t :: ts) := by
  have hviable : PhrasePrefix [t] :=
    phrasePrefix_reference ⟨t, ht⟩ (Mark.token .opening) (wordToken "x") rfl
  cases ts with
  | nil =>
      cases h
      exact .atEnd rfl (by decide : Problem.unexpectedEnd ∈ endProblems) hviable
  | cons o ts =>
      by_cases ho : o.isMark .opening = true
      · exact head_blamed_name ht ho h
      have hfail : ∀ later, readHead ⟨p + 1, [] ++ o :: later⟩ =
          .error (.expectedOpening o (p + 1)) := by
        intro later
        simp [readHead, plain, head, ho, Except.map]
      cases (hfail ts).symm.trans h
      exact head_blamed_token ht hviable hfail rfl
        (by decide : Problem.expectedOpening ∈ tokenProblems)

/-- How the second half of a construct can fail. -/
theorem readTail_error {h : Head} {c : Cursor} {f : Fault} (hf : readTail (h, c) = .error f) :
    (∃ name, h = .reference name ∧ readClosing c = .error f) ∨
    (∃ name, h = .call name ∧ readArguments c = .error f) ∨
    (∃ name args d, h = .call name ∧ readArguments c = .ok (args, d) ∧
      readClosing d = .error f) := by
  cases h with
  | reference name =>
      rcases bind_eq_error.mp hf with hc | ⟨d, -, hd⟩
      · exact Or.inl ⟨name, rfl, hc⟩
      · cases hd
  | call name =>
      rcases bind_eq_error.mp hf with ha | ⟨⟨args, d⟩, ha, hd⟩
      · exact Or.inr (Or.inl ⟨name, rfl, ha⟩)
      · rcases bind_eq_error.mp hd with hc | ⟨e, -, he⟩
        · exact Or.inr (Or.inr ⟨name, args, d, rfl, ha, hc⟩)
        · cases he

theorem readMore_of_error {tree : Tree} {c : Cursor} {f : Fault}
    (h : readArguments c = .error f) :
    (Except.ok (tree, c) : Except Fault (Tree × Cursor)) >>= readMore = .error f :=
  bind_eq_error.mpr (Or.inr ⟨_, rfl, bind_eq_error.mpr (Or.inl h)⟩)

theorem readMore_error {tree : Tree} {c : Cursor} {f : Fault}
    (h : readMore (tree, c) = .error f) : readArguments c = .error f := by
  rcases bind_eq_error.mp h with ha | ⟨d, -, hd⟩
  · exact ha
  · cases hd

/-- A reference is not closed. -/
theorem reference_blamed (a b : MarkToken .opening) (n : KindToken .word) (x : MarkToken .closing)
    {p : Nat} {ts : List Token} {f : Fault} (h : readClosing ⟨p + 4, ts⟩ = .error f) :
    Blamed (fun us => readStatement ⟨p, us⟩ = .error f) PhrasePrefix p f
      ([a.val, b.val, n.val, x.val] ++ ts) := by
  refine Blamed.prepend _ rfl (closing_blamed h) ?_ ?_
  · intro us _ hus
    simp only [List.cons_append, List.nil_append]
    rw [readStatement_reference]
    exact bind_eq_error.mpr (Or.inl hus)
  · rintro us rfl
    exact ⟨.reference a b n x (Mark.token .closing), _, rfl⟩

/-- The arguments of a call fail. -/
theorem call_blamed_arguments (a b : MarkToken .opening) (n : KindToken .word)
    (bar : MarkToken .separator) {p : Nat} {ts : List Token} {f : Fault}
    (h : Blamed (fun us => readArguments ⟨p + 4, us⟩ = .error f) ArgumentsPrefix (p + 4) f ts) :
    Blamed (fun us => readStatement ⟨p, us⟩ = .error f) PhrasePrefix p f
      ([a.val, b.val, n.val, bar.val] ++ ts) := by
  refine Blamed.prepend _ rfl h ?_ fun us hus => hus.call a b n bar
  intro us _ hus
  simp only [List.cons_append, List.nil_append]
  rw [readStatement_call]
  exact bind_eq_error.mpr (Or.inl hus)

/-- A call is not closed, behind its arguments. -/
theorem call_blamed_closing (a b : MarkToken .opening) (n : KindToken .word)
    (bar : MarkToken .separator) (phrases : ArgumentPhrases) (z : MarkToken .closing)
    {p : Nat} {ts : List Token} {f : Fault}
    (h : readClosing ⟨p + 4 + phrases.yield.length + 1, ts⟩ = .error f) :
    Blamed (fun us => readStatement ⟨p, us⟩ = .error f) PhrasePrefix p f
      ([a.val, b.val, n.val, bar.val] ++ phrases.yield ++ [z.val] ++ ts) := by
  have hlength : p + 4 + phrases.yield.length + 1 =
      p + ([a.val, b.val, n.val, bar.val] ++ phrases.yield ++ [z.val]).length := by
    simp only [List.length_append, List.length_cons, List.length_nil]
    omega
  refine Blamed.prepend _ hlength (closing_blamed h) ?_ ?_
  · intro us _ hus
    simp only [List.cons_append, List.nil_append, List.append_assoc]
    rw [readStatement_call]
    -- The arguments are read as before; only the closing bracket behind them is looked at anew.
    refine bind_eq_error.mpr (Or.inr ⟨_, readArguments_phrases (p + 4) z us phrases, ?_⟩)
    exact bind_eq_error.mpr (Or.inl hus)
  · rintro us rfl
    exact ⟨.call a b n bar phrases z (Mark.token .closing), [(Mark.token .closing).val],
      by simp [Phrase.yield]⟩

mutual

/-- Every fault of a statement is blamed on a place. -/
theorem statement_blamed {p : Nat} {ts : List Token} {f : Fault}
    (h : readStatement ⟨p, ts⟩ = .error f) :
    Blamed (fun us => readStatement ⟨p, us⟩ = .error f) PhrasePrefix p f ts := by
  match ts, h with
  | [], h =>
      cases h
      exact .atEnd rfl (by decide : Problem.unexpectedEnd ∈ endProblems) phrasePrefix_nil
  | t :: us, h =>
      rcases statement_start_cases t with ho | hw | hl | ⟨ho, hw, hl⟩
      · rw [readStatement_opening ho] at h
        rcases bind_eq_error.mp h with hhead | ⟨⟨hd, c⟩, hhead, htail⟩
        · exact head_blamed ho hhead
        · obtain ⟨o, n, x, vs, rfl, ho', hn, rfl, hx⟩ := readHead_ok hhead
          rcases readTail_error htail with
            ⟨name, rfl, hc⟩ | ⟨name, rfl, ha⟩ | ⟨name, args, d, rfl, ha, hc⟩
          · rcases hx with ⟨-, hd⟩ | ⟨hx, -⟩
            · cases hd
            · exact reference_blamed ⟨t, ho⟩ ⟨o, ho'⟩ ⟨n, hn⟩ ⟨x, hx⟩ hc
          · rcases hx with ⟨hx, -⟩ | ⟨-, hd⟩
            · exact call_blamed_arguments ⟨t, ho⟩ ⟨o, ho'⟩ ⟨n, hn⟩ ⟨x, hx⟩ (arguments_blamed ha)
            · cases hd
          · rcases hx with ⟨hx, -⟩ | ⟨-, hd⟩
            · obtain ⟨phrases, z, hz, rfl, -, hpos⟩ := phrases_of_readArguments ha
              obtain ⟨q, ws⟩ := d
              simp only at hpos
              subst hpos
              have hb := call_blamed_closing ⟨t, ho⟩ ⟨o, ho'⟩ ⟨n, hn⟩ ⟨x, hx⟩ phrases ⟨z, hz⟩ hc
              simpa using hb
            · cases hd
      · rw [readStatement_word hw] at h
        cases h
      · rw [readStatement_literal hl] at h
        cases h
      · have hfail : ∀ later, readStatement ⟨p, t :: later⟩ = .error (.unexpectedToken t p) :=
          fun later => readStatement_other ho hw hl
        rw [hfail us] at h
        cases h
        show Blamed _ _ _ _ ([] ++ t :: us)
        exact .atToken rfl (by decide : Problem.unexpectedToken ∈ tokenProblems)
          phrasePrefix_nil hfail
termination_by (ts.length, 0)

/-- Every fault of arguments is blamed on a place. -/
theorem arguments_blamed {p : Nat} {ts : List Token} {f : Fault}
    (h : readArguments ⟨p, ts⟩ = .error f) :
    Blamed (fun us => readArguments ⟨p, us⟩ = .error f) ArgumentsPrefix p f ts := by
  match ts, h with
  | [], h =>
      rw [readArguments_end] at h
      cases h
      exact .atEnd rfl (by decide : Problem.unexpectedEnd ∈ endProblems) phrasePrefix_nil.arguments
  | t :: us, h =>
      by_cases hc : t.isMark .closing = true
      · rw [readArguments_closing hc] at h
        cases h
      · by_cases hs : t.isMark .separator = true
        · rw [readArguments_separator hs] at h
          rcases bind_eq_error.mp h with hst | ⟨⟨tree, d⟩, hst, hm⟩
          · refine Blamed.prepend [t] rfl (statement_blamed hst) ?_ fun vs hvs =>
              hvs.bar_arguments ⟨t, hs⟩
            intro vs _ hvs
            rw [List.cons_append, readArguments_separator hs]
            exact bind_eq_error.mpr (Or.inl hvs)
          · obtain ⟨phrase, rfl, rfl, hpos⟩ := phrase_of_readStatement hst
            have hlength : d.position = p + (t :: phrase.yield).length := by
              rw [hpos, List.length_cons]
              omega
            refine Blamed.prepend (t :: phrase.yield) hlength
              (arguments_blamed (readMore_error hm)) ?_ fun vs hvs => hvs.bar_cons ⟨t, hs⟩ phrase
            intro vs _ hvs
            rw [List.cons_append, readArguments_separator hs, readStatement_phrase, ← hpos]
            exact readMore_of_error hvs
        · have hc' : t.isMark .closing = false := by simpa using hc
          have hs' : t.isMark .separator = false := by simpa using hs
          rw [readArguments_other hc' hs'] at h
          rcases bind_eq_error.mp h with hst | ⟨⟨tree, d⟩, hst, hm⟩
          · refine Blamed.prepend [] rfl (statement_blamed hst) ?_ fun vs hvs => hvs.arguments
            intro vs hhead hvs
            obtain ⟨ws, rfl⟩ := List.head?_eq_some_iff.mp hhead
            rw [List.nil_append, readArguments_other hc' hs']
            exact bind_eq_error.mpr (Or.inl hvs)
          · obtain ⟨phrase, hus, rfl, hpos⟩ := phrase_of_readStatement hst
            have hshorter := phrase.rest_shorter hus
            rw [hus]
            refine Blamed.prepend phrase.yield hpos
              (arguments_blamed (readMore_error hm)) ?_ fun vs hvs => hvs.cons phrase
            intro vs _ hvs
            rw [readArguments_phrase, readStatement_phrase, ← hpos]
            exact readMore_of_error hvs
termination_by (ts.length, 1)

end

/-- Every fault of a row of statements is blamed on a place. -/
theorem statements_blamed {p : Nat} {ts : List Token} {f : Fault}
    (h : statements p ts = .error f) :
    Blamed (fun us => statements p us = .error f) ProgramPrefix p f ts := by
  match ts, h with
  | [], h =>
      rw [statements] at h
      cases h
  | t :: us, h =>
      rw [statements_cons] at h
      rcases bind_eq_error.mp h with hst | ⟨⟨tree, c⟩, hst, hon⟩
      · refine Blamed.prepend [] rfl (statement_blamed hst) ?_ fun vs hvs => hvs.program
        intro vs hhead hvs
        obtain ⟨ws, rfl⟩ := List.head?_eq_some_iff.mp hhead
        rw [List.nil_append, statements_cons]
        exact bind_eq_error.mpr (Or.inl hvs)
      · obtain ⟨phrase, hus, rfl, hpos⟩ := phrase_of_readStatement hst
        have hshorter := phrase.rest_shorter hus
        have hlater : statements c.position c.rest = .error f := by
          rcases bind_eq_error.mp hon with hl | ⟨trees, -, hr⟩
          · exact hl
          · cases hr
        rw [hus]
        refine Blamed.prepend phrase.yield hpos (statements_blamed hlater) ?_ fun vs hvs =>
          hvs.cons phrase
        intro vs _ hvs
        rw [statements_phrase, readStatement_phrase, ← hpos]
        refine bind_eq_error.mpr (Or.inr ⟨_, rfl, ?_⟩)
        exact bind_eq_error.mpr (Or.inl hvs)
termination_by ts.length
decreasing_by exact hshorter

theorem parse_of_programPrefix {ts : List Token} (h : ProgramPrefix ts) :
    ∃ later program, parse (ts ++ later) = .ok program := by
  obtain ⟨phrases, later, hts⟩ := h
  exact ⟨later, _, parse_derivation ⟨phrases, hts⟩⟩

theorem parse_eq_error_iff {ts : List Token} {f : Fault} :
    parse ts = .error f ↔ statements 0 ts = .error f := by
  rw [parse]
  cases statements 0 ts with
  | error g => simp [Except.map]
  | ok trees => simp [Except.map]

theorem stage_of_mem_endProblems : ∀ q ∈ endProblems, q.stage = .parsing := by
  decide

theorem stage_of_mem_tokenProblems : ∀ q ∈ tokenProblems, q.stage = .parsing := by
  decide

end Parser

/-- **A fault of the parser is met as early as possible.**  It has a position `i` within the tokens
or at their end.  At the end, the tokens could have gone on to a program.  At a token, the tokens
before it could have gone on to a program, and with it the same fault is met whatever follows. -/
theorem parse_fault_earliest {tokens : List Token} {f : Fault} (h : parse tokens = .error f) :
    f.diagnostic.problem.stage = .parsing ∧
      ∃ i : Nat, f.diagnostic.offset = some (i : Int) ∧ i ≤ tokens.length ∧
        (i = tokens.length →
          f.diagnostic.problem ∈ [Problem.unexpectedEnd, Problem.expectedClosing] ∧
          ∃ later program, parse (tokens ++ later) = .ok program) ∧
        (i < tokens.length →
          f.diagnostic.problem ∈
            [Problem.expectedOpening, Problem.expectedClosing, Problem.unexpectedToken] ∧
          (∃ later program, parse (tokens.take i ++ later) = .ok program) ∧
          ∀ later, parse (tokens.take (i + 1) ++ later) = .error f) := by
  have hblamed := Parser.statements_blamed (Parser.parse_eq_error_iff.mp h)
  cases hblamed with
  | atEnd ho hp hv =>
      refine ⟨Parser.stage_of_mem_endProblems _ hp, tokens.length, by simpa using ho, Nat.le_refl _,
        fun _ => ⟨hp, Parser.parse_of_programPrefix hv⟩, ?_⟩
      intro hlt
      omega
  | @atToken before t after ho hp hv hfail =>
      refine ⟨Parser.stage_of_mem_tokenProblems _ hp, before.length, by simpa using ho,
        by simp, ?_, ?_⟩
      · intro hlength
        simp only [List.length_append, List.length_cons] at hlength
        omega
      · intro _
        refine ⟨hp, ?_, ?_⟩
        · rw [List.take_left]
          exact Parser.parse_of_programPrefix hv
        · intro later
          have htake : (before ++ t :: after).take (before.length + 1) = before ++ [t] := by
            simp [List.take_append, List.take_of_length_le (Nat.le_succ before.length)]
          rw [htake, List.append_assoc]
          exact Parser.parse_eq_error_iff.mpr (hfail later)

/-- A nested reference that is closed by one bracket, as in `[[f|[[a]x`. -/
theorem parse_fault_earliest_nested :
    let tokens : List Token :=
      [.ofMark .opening, .ofMark .opening, .ofWord "f", .ofMark .separator,
        .ofMark .opening, .ofMark .opening, .ofWord "a", .ofMark .closing, .ofWord "x"]
    parse tokens = .error (.expectedClosing (some (.ofWord "x")) 8) ∧
      (∃ later program, parse (tokens.take 8 ++ later) = .ok program) ∧
      ∀ later, parse (tokens ++ later) = .error (.expectedClosing (some (.ofWord "x")) 8) := by
  intro tokens
  have h : parse tokens = .error (.expectedClosing (some (.ofWord "x")) 8) := by
    cbv
  obtain ⟨-, i, hi, -, -, hat⟩ := parse_fault_earliest h
  cases hi
  exact ⟨h, (hat (by decide)).2⟩

end BracketCall
