import BracketCall.Proofs.Grammar
import BracketCall.Tree.Parser

/-!
# The parser reads the grammar

The steps of the parser carry bounds on the tokens that are left, which end its recursion.  Here
each step is first written without them, as a reader: from a cursor it goes to a result and a later
cursor, or to a fault.  The readers satisfy the equations of the parser, and these are all that the
rest of the theory uses.

**Results.**
* `readStatement_phrase`, `readArguments_phrases`, `statements_phrases`: on the yield of a
  derivation the parser gives the tree of the derivation and stops behind the yield, whatever
  follows.
* `phrase_of_readStatement`, `phrases_of_readArguments`, `phrases_of_statements`: whatever the
  parser reads is the yield of a derivation.
* `parse_exact`: a row of tokens is accepted exactly if it has a derivation, and it has at most one.
-/

namespace BracketCall

namespace Parser

theorem bind_eq_ok {α β : Type} {x : Except Fault α} {f : α → Except Fault β} {b : β} :
    x >>= f = .ok b ↔ ∃ a, x = .ok a ∧ f a = .ok b := by
  cases x with
  | error e => simp [bind, Except.bind]
  | ok a => simp [bind, Except.bind]

theorem bind_eq_error {α β : Type} {x : Except Fault α} {f : α → Except Fault β} {e : Fault} :
    x >>= f = .error e ↔ x = .error e ∨ ∃ a, x = .ok a ∧ f a = .error e := by
  cases x with
  | error e => simp [bind, Except.bind]
  | ok a => simp [bind, Except.bind]

/-! ## Readers -/

/-- What a step gave, without the bound on the tokens that are left. -/
def plain {α : Type} {P : Cursor → Prop} (r : Except Fault (α × { c : Cursor // P c })) :
    Except Fault (α × Cursor) :=
  r.map fun (a, c) => (a, c.val)

/-- Reads the first half of a construct, behind its first bracket. -/
def readHead (c : Cursor) : Except Fault (Head × Cursor) :=
  plain (head c.position c.rest)

/-- Reads the second bracket of a closing pair. -/
def readClosing (c : Cursor) : Except Fault Cursor :=
  (closing c).map Subtype.val

/-- Reads arguments up to and including the first bracket that closes the call. -/
def readArguments (c : Cursor) : Except Fault (List Tree × Cursor) :=
  plain (arguments c.position c.rest)

/-- Reads a statement, of which no token was read yet. -/
def readStatement : Cursor → Except Fault (Tree × Cursor)
  | { position, rest := [] } => .error (.unexpectedEnd .argument position)
  | { position, rest := t :: ts } => plain (statement position t ts)

/-- Reads the second half of a construct. -/
def readTail : Head × Cursor → Except Fault (Tree × Cursor)
  | (.call name, c) => do
      let (args, d) ← readArguments c
      let e ← readClosing d
      return (.call name args, e)
  | (.reference name, c) => do
      let d ← readClosing c
      return (.reference name, d)

/-- Reads the arguments that follow a first one. -/
def readMore : Tree × Cursor → Except Fault (List Tree × Cursor)
  | (tree, c) => do
      let (trees, d) ← readArguments c
      return (tree :: trees, d)

/-- Reads the statements that follow a first one. -/
def readOn : Tree × Cursor → Except Fault (List Tree)
  | (tree, c) => do
      let trees ← statements c.position c.rest
      return tree :: trees

/-! ## Equations -/

theorem readHead_call {p : Nat} {o n x : Token} {ts : List Token}
    (ho : o.isMark .opening = true) (hn : n.kind = .word) (hx : x.isMark .separator = true) :
    readHead ⟨p, o :: n :: x :: ts⟩ = .ok (.call n.text, ⟨p + 3, ts⟩) := by
  simp [readHead, plain, head, ho, hn, hx, Except.map]

theorem readHead_reference {p : Nat} {o n x : Token} {ts : List Token}
    (ho : o.isMark .opening = true) (hn : n.kind = .word) (hx : x.isMark .closing = true) :
    readHead ⟨p, o :: n :: x :: ts⟩ = .ok (.reference n.text, ⟨p + 3, ts⟩) := by
  have hs := Token.not_isMark_of_isMark hx (n := .separator) (by decide)
  simp [readHead, plain, head, ho, hn, hx, hs, Except.map]

theorem readClosing_mark {p : Nat} {t : Token} {ts : List Token}
    (ht : t.isMark .closing = true) : readClosing ⟨p, t :: ts⟩ = .ok ⟨p + 1, ts⟩ := by
  simp [readClosing, closing, ht, Except.map]

theorem readStatement_opening {p : Nat} {t : Token} {ts : List Token}
    (ht : t.isMark .opening = true) :
    readStatement ⟨p, t :: ts⟩ = readHead ⟨p + 1, ts⟩ >>= readTail := by
  rw [readStatement, statement, readHead]
  rcases hh : head (p + 1) ts with f | ⟨name | name, c, hc⟩
  · simp [ht, plain, Except.map, bind, Except.bind]
  · simp only [ht, if_true, plain, Except.map, bind, Except.bind, readTail, readArguments]
    rcases arguments c.position c.rest with f | ⟨args, d, hd⟩
    · rfl
    · simp only [readClosing]
      rcases closing d with f | ⟨e, he⟩
      · rfl
      · rfl
  · simp only [ht, if_true, plain, Except.map, bind, Except.bind, readTail, readClosing]
    rcases closing c with f | ⟨d, hd⟩
    · rfl
    · rfl

theorem readStatement_reference (p : Nat) (a b : MarkToken .opening) (n : KindToken .word)
    (x : MarkToken .closing) (ts : List Token) :
    readStatement ⟨p, a.val :: b.val :: n.val :: x.val :: ts⟩ =
      readTail (.reference n.val.text, ⟨p + 4, ts⟩) := by
  rw [readStatement_opening a.property, readHead_reference b.property n.property x.property]
  rfl

theorem readStatement_call (p : Nat) (a b : MarkToken .opening) (n : KindToken .word)
    (bar : MarkToken .separator) (ts : List Token) :
    readStatement ⟨p, a.val :: b.val :: n.val :: bar.val :: ts⟩ =
      readTail (.call n.val.text, ⟨p + 4, ts⟩) := by
  rw [readStatement_opening a.property, readHead_call b.property n.property bar.property]
  rfl

theorem readStatement_word {p : Nat} {t : Token} {ts : List Token} (ht : t.kind = .word) :
    readStatement ⟨p, t :: ts⟩ = .ok (.word t.text, ⟨p + 1, ts⟩) := by
  have ho := Token.not_isMark_of_kind ht (by decide) .opening
  rw [readStatement, statement]
  simp [ho, ht, plain, Except.map]

theorem readStatement_literal {p : Nat} {t : Token} {ts : List Token} (ht : t.kind = .literal) :
    readStatement ⟨p, t :: ts⟩ = .ok (.literal t.text, ⟨p + 1, ts⟩) := by
  have ho := Token.not_isMark_of_kind ht (by decide) .opening
  rw [readStatement, statement]
  simp [ho, ht, plain, Except.map]

/-- Any other token begins no statement. -/
theorem readStatement_other {p : Nat} {t : Token} {ts : List Token}
    (ho : t.isMark .opening = false) (hw : t.kind ≠ .word) (hl : t.kind ≠ .literal) :
    readStatement ⟨p, t :: ts⟩ = .error (.unexpectedToken t p) := by
  rw [readStatement, statement]
  cases hk : t.kind with
  | mark => simp [ho, plain, Except.map]
  | ending => simp [ho, plain, Except.map]
  | word => exact absurd hk hw
  | literal => exact absurd hk hl

theorem readArguments_end (p : Nat) :
    readArguments ⟨p, []⟩ = .error (.unexpectedEnd .argumentOrClosing p) := by
  rw [readArguments, arguments.eq_def]
  rfl

theorem readArguments_closing {p : Nat} {t : Token} {ts : List Token}
    (ht : t.isMark .closing = true) : readArguments ⟨p, t :: ts⟩ = .ok ([], ⟨p + 1, ts⟩) := by
  rw [readArguments, arguments.eq_def]
  simp [ht, plain, Except.map]

theorem readArguments_separator {p : Nat} {t : Token} {ts : List Token}
    (ht : t.isMark .separator = true) :
    readArguments ⟨p, t :: ts⟩ = readStatement ⟨p + 1, ts⟩ >>= readMore := by
  have hc := Token.not_isMark_of_isMark ht (n := .closing) (by decide)
  rw [readArguments, arguments.eq_def]
  cases ts with
  | nil => simp [hc, ht, plain, Except.map, readStatement, bind, Except.bind]
  | cons u us =>
      simp only [hc, ht, Bool.false_eq_true, if_false, if_true, readStatement]
      rcases statement (p + 1) u us with f | ⟨tree, c, h⟩
      · rfl
      · simp only [plain, Except.map, bind, Except.bind, readMore, readArguments]
        rcases arguments c.position c.rest with f | ⟨trees, d, hd⟩
        · rfl
        · rfl

theorem readArguments_other {p : Nat} {t : Token} {ts : List Token}
    (hc : t.isMark .closing = false) (hs : t.isMark .separator = false) :
    readArguments ⟨p, t :: ts⟩ = readStatement ⟨p, t :: ts⟩ >>= readMore := by
  rw [readArguments, arguments.eq_def]
  simp only [hc, hs, Bool.false_eq_true, if_false, readStatement]
  rcases statement p t ts with f | ⟨tree, c, h⟩
  · rfl
  · simp only [plain, Except.map, bind, Except.bind, readMore, readArguments]
    rcases arguments c.position c.rest with f | ⟨trees, d, hd⟩
    · rfl
    · rfl

theorem statements_cons (p : Nat) (t : Token) (ts : List Token) :
    statements p (t :: ts) = readStatement ⟨p, t :: ts⟩ >>= readOn := by
  rw [statements, readStatement]
  rcases statement p t ts with f | ⟨tree, c, h⟩
  · rfl
  · simp only [plain, Except.map, bind, Except.bind, readOn]
    rcases statements c.position c.rest with f | trees
    · rfl
    · rfl

/-! ## What the grammar derives is read -/

theorem readTail_reference {p : Nat} {name : String} {t : Token} {ts : List Token}
    (ht : t.isMark .closing = true) :
    readTail (.reference name, ⟨p, t :: ts⟩) = .ok (.reference name, ⟨p + 1, ts⟩) := by
  simp only [readTail, readClosing_mark ht]
  rfl

theorem readTail_call {c : Cursor} {p : Nat} {name : String} {args : List Tree} {t : Token}
    {ts : List Token} (hargs : readArguments c = .ok (args, ⟨p, t :: ts⟩))
    (ht : t.isMark .closing = true) :
    readTail (.call name, c) = .ok (.call name args, ⟨p + 1, ts⟩) := by
  simp only [readTail, hargs, bind, Except.bind, readClosing_mark ht]
  rfl

theorem readMore_ok {tree : Tree} {c d : Cursor} {trees : List Tree}
    (h : readArguments c = .ok (trees, d)) : readMore (tree, c) = .ok (tree :: trees, d) := by
  simp only [readMore, h]
  rfl

/-- An argument that begins with a phrase has no separator before it. -/
theorem readArguments_phrase (p : Nat) (phrase : Phrase) (ts : List Token) :
    readArguments ⟨p, phrase.yield ++ ts⟩ = readStatement ⟨p, phrase.yield ++ ts⟩ >>= readMore := by
  rw [phrase.yield_eq, List.cons_append]
  exact readArguments_other (phrase.not_isMark_first (by decide))
    (phrase.not_isMark_first (by decide))

mutual

/-- The parser reads a phrase to its tree, whatever follows the phrase. -/
theorem readStatement_phrase (p : Nat) (rest : List Token) :
    ∀ phrase : Phrase, readStatement ⟨p, phrase.yield ++ rest⟩ =
      .ok (phrase.tree, ⟨p + phrase.yield.length, rest⟩)
  | .word token => readStatement_word token.property
  | .literal token => readStatement_literal token.property
  | .reference a b n c d => by
      simp only [Phrase.yield, List.cons_append, List.nil_append]
      rw [readStatement_reference]
      exact readTail_reference d.property
  | .call a b n bar args c d => by
      have hargs := readArguments_phrases (p + 4) c (d.val :: rest) args
      simp only [Phrase.yield, List.cons_append, List.append_assoc, List.nil_append]
      rw [readStatement_call, readTail_call hargs d.property]
      simp only [Phrase.tree, List.length_cons, List.length_append, List.length_nil,
        Except.ok.injEq, Prod.mk.injEq, Cursor.mk.injEq, true_and, and_true]
      omega

/-- The parser reads arguments to their trees and stops behind the bracket that closes them. -/
theorem readArguments_phrases (p : Nat) (c : MarkToken .closing) (rest : List Token) :
    ∀ phrases : ArgumentPhrases, readArguments ⟨p, phrases.yield ++ c.val :: rest⟩ =
      .ok (phrases.trees, ⟨p + phrases.yield.length + 1, rest⟩)
  | .nil => readArguments_closing c.property
  | .cons none phrase later => by
      have hs := readStatement_phrase p (later.yield ++ c.val :: rest) phrase
      have hm := readArguments_phrases (p + phrase.yield.length) c rest later
      simp only [ArgumentPhrases.yield, List.append_assoc]
      rw [readArguments_phrase, hs]
      simp only [bind, Except.bind]
      rw [readMore_ok hm]
      simp only [ArgumentPhrases.trees, List.length_append, Except.ok.injEq, Prod.mk.injEq,
        Cursor.mk.injEq, true_and, and_true]
      omega
  | .cons (some bar) phrase later => by
      have hs := readStatement_phrase (p + 1) (later.yield ++ c.val :: rest) phrase
      have hm := readArguments_phrases (p + 1 + phrase.yield.length) c rest later
      simp only [ArgumentPhrases.yield, List.append_assoc, List.cons_append]
      rw [readArguments_separator bar.property, hs]
      simp only [bind, Except.bind]
      rw [readMore_ok hm]
      simp only [ArgumentPhrases.trees, List.length_cons, List.length_append, Except.ok.injEq,
        Prod.mk.injEq, Cursor.mk.injEq, true_and, and_true]
      omega

end

theorem statements_phrase (p : Nat) (phrase : Phrase) (ts : List Token) :
    statements p (phrase.yield ++ ts) = readStatement ⟨p, phrase.yield ++ ts⟩ >>= readOn := by
  rw [phrase.yield_eq, List.cons_append]
  exact statements_cons p phrase.first (phrase.later ++ ts)

theorem statements_phrases (p : Nat) :
    ∀ phrases : List Phrase,
      statements p (phrases.flatMap Phrase.yield) = .ok (phrases.map Phrase.tree)
  | [] => by rw [List.flatMap_nil, statements]; rfl
  | phrase :: later => by
      have hl := statements_phrases (p + phrase.yield.length) later
      rw [List.flatMap_cons, statements_phrase, readStatement_phrase]
      simp only [bind, Except.bind, readOn, hl]
      rfl

/-! ## What is read, the grammar derives -/

theorem readHead_ok {p : Nat} {ts : List Token} {h : Head} {c : Cursor}
    (hh : readHead ⟨p, ts⟩ = .ok (h, c)) :
    ∃ o n x us, ts = o :: n :: x :: us ∧ o.isMark .opening = true ∧ n.kind = .word ∧
      c = ⟨p + 3, us⟩ ∧
      ((x.isMark .separator = true ∧ h = .call n.text) ∨
        (x.isMark .closing = true ∧ h = .reference n.text)) := by
  match ts, hh with
  | [], hh => simp [readHead, plain, head, Except.map] at hh
  | [o], hh =>
      by_cases ho : o.isMark .opening = true
      · simp [readHead, plain, head, Except.map, ho] at hh
      · simp [readHead, plain, head, Except.map, ho] at hh
  | [o, n], hh =>
      by_cases ho : o.isMark .opening = true
      · by_cases hn : n.kind = .word
        · simp [readHead, plain, head, Except.map, ho, hn] at hh
        · simp [readHead, plain, head, Except.map, ho, hn] at hh
      · simp [readHead, plain, head, Except.map, ho] at hh
  | o :: n :: x :: us, hh =>
      by_cases ho : o.isMark .opening = true
      · by_cases hn : n.kind = .word
        · by_cases hs : x.isMark .separator = true
          · rw [readHead_call ho hn hs] at hh
            cases hh
            exact ⟨o, n, x, us, rfl, ho, hn, rfl, Or.inl ⟨hs, rfl⟩⟩
          · by_cases hc : x.isMark .closing = true
            · rw [readHead_reference ho hn hc] at hh
              cases hh
              exact ⟨o, n, x, us, rfl, ho, hn, rfl, Or.inr ⟨hc, rfl⟩⟩
            · simp [readHead, plain, head, Except.map, ho, hn, hs, hc] at hh
        · simp [readHead, plain, head, Except.map, ho, hn] at hh
      · simp [readHead, plain, head, Except.map, ho] at hh

theorem readClosing_ok {c d : Cursor} (h : readClosing c = .ok d) :
    ∃ t ts, c.rest = t :: ts ∧ t.isMark .closing = true ∧ d = ⟨c.position + 1, ts⟩ := by
  obtain ⟨p, rest⟩ := c
  cases rest with
  | nil => simp [readClosing, closing, Except.map] at h
  | cons t ts =>
      by_cases ht : t.isMark .closing = true
      · rw [readClosing_mark ht] at h
        cases h
        exact ⟨t, ts, rfl, ht, rfl⟩
      · simp [readClosing, closing, Except.map, ht] at h

theorem readTail_ok {h : Head} {c d : Cursor} {tree : Tree}
    (ht : readTail (h, c) = .ok (tree, d)) :
    (∃ name t ts, h = .reference name ∧ c.rest = t :: ts ∧ t.isMark .closing = true ∧
      tree = .reference name ∧ d = ⟨c.position + 1, ts⟩) ∨
    (∃ name args e t ts, h = .call name ∧ readArguments c = .ok (args, e) ∧
      e.rest = t :: ts ∧ t.isMark .closing = true ∧ tree = .call name args ∧
      d = ⟨e.position + 1, ts⟩) := by
  cases h with
  | reference name =>
      obtain ⟨e, he, hr⟩ := bind_eq_ok.mp ht
      obtain ⟨t, ts, hts, hc, rfl⟩ := readClosing_ok he
      cases hr
      exact Or.inl ⟨name, t, ts, rfl, hts, hc, rfl, rfl⟩
  | call name =>
      obtain ⟨⟨args, e⟩, ha, hr⟩ := bind_eq_ok.mp ht
      obtain ⟨g, hg, hr⟩ := bind_eq_ok.mp hr
      obtain ⟨t, ts, hts, hc, rfl⟩ := readClosing_ok hg
      cases hr
      exact Or.inr ⟨name, args, e, t, ts, rfl, ha, hts, hc, rfl, rfl⟩

theorem readMore_inv {tree : Tree} {trees : List Tree} {c d : Cursor}
    (h : readMore (tree, c) = .ok (trees, d)) :
    ∃ later, trees = tree :: later ∧ readArguments c = .ok (later, d) := by
  obtain ⟨⟨later, e⟩, ha, hr⟩ := bind_eq_ok.mp h
  cases hr
  exact ⟨later, rfl, ha⟩

/-- How a token can begin a statement: with a bracket, as a word, as a literal, or not at all. -/
theorem statement_start_cases (t : Token) :
    t.isMark .opening = true ∨ t.kind = .word ∨ t.kind = .literal ∨
      (t.isMark .opening = false ∧ t.kind ≠ .word ∧ t.kind ≠ .literal) := by
  by_cases ho : t.isMark .opening = true
  · exact Or.inl ho
  · by_cases hw : t.kind = .word
    · exact Or.inr (Or.inl hw)
    · by_cases hl : t.kind = .literal
      · exact Or.inr (Or.inr (Or.inl hl))
      · exact Or.inr (Or.inr (Or.inr ⟨by simpa using ho, hw, hl⟩))

mutual

/-- Whatever is read as a statement is the yield of a phrase. -/
theorem phrase_of_readStatement {p : Nat} {ts : List Token} {tree : Tree} {c : Cursor}
    (h : readStatement ⟨p, ts⟩ = .ok (tree, c)) :
    ∃ phrase : Phrase, ts = phrase.yield ++ c.rest ∧ phrase.tree = tree ∧
      c.position = p + phrase.yield.length := by
  match ts, h with
  | [], h => cases h
  | t :: us, h =>
      rcases statement_start_cases t with ho | hw | hl | ⟨ho, hw, hl⟩
      · rw [readStatement_opening ho] at h
        obtain ⟨⟨hd, e⟩, hh, htail⟩ := bind_eq_ok.mp h
        obtain ⟨o, n, x, vs, rfl, ho', hn, rfl, hx⟩ := readHead_ok hh
        rcases readTail_ok htail with
          ⟨name, y, ws, rfl, hvs, hy, rfl, rfl⟩ | ⟨name, args, e, y, ws, rfl, ha, he, hy, rfl, rfl⟩
        · rcases hx with ⟨-, hd⟩ | ⟨hx, hd⟩
          · cases hd
          · cases hd
            cases hvs
            exact ⟨.reference ⟨t, ho⟩ ⟨o, ho'⟩ ⟨n, hn⟩ ⟨x, hx⟩ ⟨y, hy⟩, rfl, rfl, rfl⟩
        · rcases hx with ⟨hx, hd⟩ | ⟨-, hd⟩
          · cases hd
            obtain ⟨phrases, z, hz, hvs, rfl, hpos⟩ := phrases_of_readArguments ha
            refine ⟨.call ⟨t, ho⟩ ⟨o, ho'⟩ ⟨n, hn⟩ ⟨x, hx⟩ phrases ⟨z, hz⟩ ⟨y, hy⟩, ?_, rfl, ?_⟩
            · simp [Phrase.yield, hvs, he]
            · simp only [Phrase.yield, List.length_cons, List.length_append, List.length_nil, hpos]
              omega
          · cases hd
      · rw [readStatement_word hw] at h
        cases h
        exact ⟨.word ⟨t, hw⟩, rfl, rfl, rfl⟩
      · rw [readStatement_literal hl] at h
        cases h
        exact ⟨.literal ⟨t, hl⟩, rfl, rfl, rfl⟩
      · rw [readStatement_other ho hw hl] at h
        cases h
termination_by (ts.length, 0)

/-- Whatever is read as arguments is the yield of argument phrases and a bracket that closes. -/
theorem phrases_of_readArguments {p : Nat} {ts : List Token} {trees : List Tree} {c : Cursor}
    (h : readArguments ⟨p, ts⟩ = .ok (trees, c)) :
    ∃ (phrases : ArgumentPhrases) (z : Token), z.isMark .closing = true ∧
      ts = phrases.yield ++ z :: c.rest ∧ phrases.trees = trees ∧
      c.position = p + phrases.yield.length + 1 := by
  match ts, h with
  | [], h =>
      rw [readArguments_end] at h
      cases h
  | t :: us, h =>
      by_cases hc : t.isMark .closing = true
      · rw [readArguments_closing hc] at h
        cases h
        exact ⟨.nil, t, hc, rfl, rfl, rfl⟩
      · by_cases hs : t.isMark .separator = true
        · rw [readArguments_separator hs] at h
          obtain ⟨⟨tree, d⟩, hst, hm⟩ := bind_eq_ok.mp h
          obtain ⟨later, rfl, ha⟩ := readMore_inv hm
          obtain ⟨phrase, hus, rfl, hpos⟩ := phrase_of_readStatement hst
          obtain ⟨phrases, z, hz, hrest, rfl, hend⟩ := phrases_of_readArguments ha
          refine ⟨.cons (some ⟨t, hs⟩) phrase phrases, z, hz, ?_, rfl, ?_⟩
          · simp [ArgumentPhrases.yield, hus, hrest]
          · simp only [ArgumentPhrases.yield, List.length_cons, List.length_append]
            omega
        · rw [readArguments_other (by simpa using hc) (by simpa using hs)] at h
          obtain ⟨⟨tree, d⟩, hst, hm⟩ := bind_eq_ok.mp h
          obtain ⟨later, rfl, ha⟩ := readMore_inv hm
          obtain ⟨phrase, hus, rfl, hpos⟩ := phrase_of_readStatement hst
          have hshorter := phrase.rest_shorter hus
          obtain ⟨phrases, z, hz, hrest, rfl, hend⟩ := phrases_of_readArguments ha
          refine ⟨.cons none phrase phrases, z, hz, ?_, rfl, ?_⟩
          · simp [ArgumentPhrases.yield, hus, hrest]
          · simp only [ArgumentPhrases.yield, List.length_append]
            omega
termination_by (ts.length, 1)

end

/-- Whatever is read as statements is the yield of a row of phrases. -/
theorem phrases_of_statements {p : Nat} {ts : List Token} {trees : List Tree}
    (h : statements p ts = .ok trees) :
    ∃ phrases : List Phrase, ts = phrases.flatMap Phrase.yield ∧
      phrases.map Phrase.tree = trees := by
  match ts, h with
  | [], h =>
      rw [statements] at h
      cases h
      exact ⟨[], rfl, rfl⟩
  | t :: us, h =>
      rw [statements_cons] at h
      obtain ⟨⟨tree, c⟩, hst, hon⟩ := bind_eq_ok.mp h
      obtain ⟨later, hl, hr⟩ := bind_eq_ok.mp hon
      cases hr
      obtain ⟨phrase, hus, rfl, -⟩ := phrase_of_readStatement hst
      have hshorter := phrase.rest_shorter hus
      obtain ⟨phrases, hrest, rfl⟩ := phrases_of_statements hl
      exact ⟨phrase :: phrases, by rw [hus, hrest, List.flatMap_cons], rfl⟩
termination_by ts.length
decreasing_by exact hshorter

end Parser

theorem parse_derivation {tokens : List Token} (d : Derivation tokens) :
    parse tokens = .ok d.program := by
  obtain ⟨phrases, rfl⟩ := d
  rw [parse, Parser.statements_phrases]
  rfl

theorem derives_of_parse {tokens : List Token} {program : Tree}
    (h : parse tokens = .ok program) : Derives tokens program := by
  rw [parse] at h
  cases hs : Parser.statements 0 tokens with
  | error f =>
      rw [hs] at h
      cases h
  | ok trees =>
      rw [hs] at h
      cases h
      obtain ⟨phrases, hts, rfl⟩ := Parser.phrases_of_statements hs
      exact ⟨⟨phrases, hts.symm⟩, rfl⟩

/-- **The parser is exact.**  It accepts a row of tokens exactly if the grammar derives a program
from it, and then gives that program; and no row of tokens has two derivations. -/
theorem parse_exact (tokens : List Token) :
    (∀ program : Tree, parse tokens = .ok program ↔ Derives tokens program) ∧
      Subsingleton (Derivation tokens) := by
  refine ⟨fun program => ⟨derives_of_parse, ?_⟩, derivation_unique tokens⟩
  rintro ⟨d, rfl⟩
  exact parse_derivation d

end BracketCall
