import BracketCall.Proofs.EarliestFault
import BracketCall.Token.Literal

/-!
# The pass over the literals

A word behind a separator becomes a literal before the tokens are parsed.  The parser asks for a
name only behind a bracket, and it reports no word that stands behind a separator.  So the pass
changes neither whether a row of tokens is accepted nor what is reported if it is not; it decides
only which leaves of the tree are words and which are literals.

**Method.**  `Recast` relates a row of tokens to one in which some words behind separators became
literals.  It holds between a row and the row after the pass, and also between a row and itself.
The readers of the parser agree on related rows, by recursion along the tokens.  The second row may
be read from a later position: all faults are then found later by the same distance.

**Results.**
* `readStatement_recast`, `readArguments_recast`, `statements_recast`: the parser on related rows.
* `literalsFrom_idem`, `getElem?_literalsFrom`: what the pass does to the tokens themselves.
* `parse_agree`, `parse_markLiterals`: the pass changes the class of leaves and nothing else.
-/

namespace BracketCall

/-! ## Faults at a later place -/

namespace Fault

/-- The fault at a place that is later by `k`.  Faults of a run have no place. -/
def shift (k : Nat) : Fault → Fault
  | unexpectedCharacter char offset => unexpectedCharacter char (offset + k)
  | expectedOpening found index => expectedOpening found (index + k)
  | expectedClosing found index => expectedClosing found (index + k)
  | unexpectedToken found index => unexpectedToken found (index + k)
  | unexpectedEnd expected index => unexpectedEnd expected (index + k)
  | f => f

@[simp] theorem shift_zero (f : Fault) : f.shift 0 = f := by
  cases f <;> rfl

end Fault

/-! ## Literals as words -/

namespace Tree

mutual

/-- The tree with every literal replaced by a word. -/
def asWords : Tree → Tree
  | program statements => program (asWordsAll statements)
  | call name arguments => call name (asWordsAll arguments)
  | reference name => reference name
  | word text => word text
  | literal text => word text

/-- The trees with every literal replaced by a word. -/
def asWordsAll : List Tree → List Tree
  | [] => []
  | t :: ts => asWords t :: asWordsAll ts

end

mutual

theorem asWords_asWords : ∀ t : Tree, t.asWords.asWords = t.asWords
  | program statements => by simp only [asWords, asWordsAll_asWordsAll statements]
  | call name arguments => by simp only [asWords, asWordsAll_asWordsAll arguments]
  | reference _ => rfl
  | word _ => rfl
  | literal _ => rfl

theorem asWordsAll_asWordsAll : ∀ ts : List Tree, asWordsAll (asWordsAll ts) = asWordsAll ts
  | [] => rfl
  | t :: ts => by simp only [asWordsAll, asWords_asWords t, asWordsAll_asWordsAll ts]

end

end Tree

/-! ## Tokens before and after the pass -/

/-- The second row is the first one with some of the words that stand behind a separator turned into
literals; `afterBar` tells whether the token before the rows is a separator. -/
inductive Recast : (afterBar : Bool) → List Token → List Token → Prop
  | nil {afterBar : Bool} : Recast afterBar [] []
  | same {afterBar : Bool} {t : Token} {ts us : List Token} :
      Recast (t.isMark .separator) ts us →
      Recast afterBar (t :: ts) (t :: us)
  | literal {t : Token} {ts us : List Token} :
      t.kind = .word →
      Recast false ts us →
      Recast true (t :: ts) (.ofLiteral t.text :: us)

theorem recast_refl (afterBar : Bool) (ts : List Token) : Recast afterBar ts ts := by
  induction ts generalizing afterBar with
  | nil => exact .nil
  | cons t ts ih => exact .same (ih _)

/-- A mark is the same in both rows. -/
theorem Recast.at_mark {afterBar : Bool} {t u : Token} {ts us : List Token} {m : Mark}
    (h : Recast afterBar (t :: ts) (u :: us)) (ht : t.isMark m = true) :
    u = t ∧ Recast (t.isMark .separator) ts us := by
  cases h with
  | same hrest => exact ⟨rfl, hrest⟩
  | literal hword _ =>
      rw [Token.not_isMark_of_kind hword (by decide) m] at ht
      cases ht

/-- Both rows have the same marks. -/
theorem Recast.isMark_first {afterBar : Bool} {t u : Token} {ts us : List Token}
    (h : Recast afterBar (t :: ts) (u :: us)) (m : Mark) : u.isMark m = t.isMark m := by
  cases h with
  | same _ => rfl
  | literal hword _ =>
      rw [Token.not_isMark_of_kind hword (by decide) m]
      rfl

namespace Token

theorem isMark_ofLiteral (text : String) (m : Mark) : (ofLiteral text).isMark m = false := rfl

theorem literalsFrom_cons_word {t : Token} (ht : t.kind = .word) (ts : List Token) :
    literalsFrom true (t :: ts) = ofLiteral t.text :: literalsFrom false ts := by
  simp [literalsFrom, ht, not_isMark_of_kind ht (by decide) .separator]

theorem literalsFrom_cons_other {afterBar : Bool} {t : Token}
    (ht : ¬ (afterBar = true ∧ t.kind = .word)) (ts : List Token) :
    literalsFrom afterBar (t :: ts) = t :: literalsFrom (t.isMark .separator) ts := by
  simp [literalsFrom, ht]

theorem recast_literalsFrom (afterBar : Bool) (ts : List Token) :
    Recast afterBar ts (literalsFrom afterBar ts) := by
  induction ts generalizing afterBar with
  | nil => exact .nil
  | cons t ts ih =>
      by_cases ht : afterBar = true ∧ t.kind = .word
      · obtain ⟨rfl, hword⟩ := ht
        rw [literalsFrom_cons_word hword]
        exact .literal hword (ih false)
      · rw [literalsFrom_cons_other ht]
        exact .same (ih _)

/-- The pass finds nothing to do in a row that it went over. -/
theorem literalsFrom_idem (afterBar : Bool) (ts : List Token) :
    literalsFrom afterBar (literalsFrom afterBar ts) = literalsFrom afterBar ts := by
  induction ts generalizing afterBar with
  | nil => rfl
  | cons t ts ih =>
      by_cases ht : afterBar = true ∧ t.kind = .word
      · obtain ⟨rfl, hword⟩ := ht
        have hliteral : ¬ (true = true ∧ (ofLiteral t.text).kind = .word) := by simp [ofLiteral]
        rw [literalsFrom_cons_word hword, literalsFrom_cons_other hliteral, isMark_ofLiteral, ih]
      · rw [literalsFrom_cons_other ht, literalsFrom_cons_other ht, ih]

/-- Whether a separator stands directly before place `i`; `afterBar` tells it of the first place. -/
def separatorBefore (afterBar : Bool) (ts : List Token) : Nat → Bool
  | 0 => afterBar
  | i + 1 => ts[i]?.any fun t => t.isMark .separator

/-- The token at each place after the pass. -/
theorem getElem?_literalsFrom (afterBar : Bool) (ts : List Token) (i : Nat) :
    (literalsFrom afterBar ts)[i]? = ts[i]?.map fun t =>
      if separatorBefore afterBar ts i && t.kind == .word then ofLiteral t.text else t := by
  induction ts generalizing afterBar i with
  | nil => simp [literalsFrom]
  | cons t ts ih =>
      cases i with
      | zero => simp [literalsFrom, separatorBefore]
      | succ i =>
          rw [literalsFrom, List.getElem?_cons_succ, List.getElem?_cons_succ, ih]
          cases i with
          | zero => simp [separatorBefore]
          | succ i => simp [separatorBefore]

end Token

/-! ## Readers on related rows -/

namespace Parser

/-- The same fault, later by `k`, or two results that are related. -/
inductive Agree {α β : Type} (k : Nat) (R : α → β → Prop) : Except Fault α → Except Fault β → Prop
  | error (f : Fault) : Agree k R (.error f) (.error (f.shift k))
  | ok {a : α} {b : β} : R a b → Agree k R (.ok a) (.ok b)

theorem Agree.bind {α β γ δ : Type} {k : Nat} {R : α → β → Prop} {S : γ → δ → Prop}
    {x : Except Fault α} {y : Except Fault β} {f : α → Except Fault γ} {g : β → Except Fault δ}
    (h : Agree k R x y) (hnext : ∀ a b, x = .ok a → R a b → Agree k S (f a) (g b)) :
    Agree k S (x >>= f) (y >>= g) := by
  cases h with
  | error e => exact .error e
  | ok hab => exact hnext _ _ rfl hab

/-- The second cursor is `k` places later, and the rows that are left are related. -/
structure Behind (k : Nat) (afterBar : Bool) (c d : Cursor) : Prop where
  position : d.position = c.position + k
  rest : Recast afterBar c.rest d.rest

/-- Two trees that differ in the class of leaves, each with the tokens behind it. -/
def SameReading (k : Nat) (x y : Tree × Cursor) : Prop :=
  x.1.asWords = y.1.asWords ∧ Behind k false x.2 y.2

/-- The same for rows of trees. -/
def SameReadings (k : Nat) (x y : List Tree × Cursor) : Prop :=
  Tree.asWordsAll x.1 = Tree.asWordsAll y.1 ∧ Behind k false x.2 y.2

/-- Whether a head ends with a separator. -/
def Head.endsInBar : Head → Bool
  | .call _ => true
  | .reference _ => false

variable {k p q : Nat} {ts us : List Token}

theorem agree_error {α β : Type} {R : α → β → Prop} {f g : Fault} (h : g = f.shift k) :
    Agree k R (.error f) (.error g) := by
  rw [h]
  exact .error f

theorem readClosing_recast {c d : Cursor} (h : Behind k false c d) :
    Agree k (Behind k false) (readClosing c) (readClosing d) := by
  obtain ⟨p, ts⟩ := c
  obtain ⟨q, us⟩ := d
  obtain ⟨rfl, hrest⟩ := h
  cases hrest with
  | nil => exact .error (.expectedClosing none p)
  | @same _ t ts us hrest =>
      by_cases ht : t.isMark .closing = true
      · rw [Token.not_isMark_of_isMark ht (n := .separator) (by decide)] at hrest
        rw [readClosing_mark ht, readClosing_mark ht]
        exact .ok ⟨Nat.add_right_comm p k 1, hrest⟩
      · simp only [readClosing, closing, ht]
        exact .error (.expectedClosing (some t) p)

/-- The token that decides between a call and a reference. -/
theorem readHead_recast_last {o n : Token} (ho : o.isMark .opening = true) (hn : n.kind = .word)
    (h : Recast false ts us) :
    Agree k (fun x y => x.1 = y.1 ∧ Behind k x.1.endsInBar x.2 y.2)
      (readHead ⟨p, o :: n :: ts⟩) (readHead ⟨p + k, o :: n :: us⟩) := by
  cases h with
  | nil =>
      simp only [readHead, plain, head, ho, hn, if_true]
      exact agree_error (by simp only [Fault.shift, Nat.add_right_comm])
  | @same _ x ts us hrest =>
      by_cases hs : x.isMark .separator = true
      · rw [readHead_call ho hn hs, readHead_call ho hn hs]
        rw [hs] at hrest
        exact .ok ⟨rfl, Nat.add_right_comm p k 3, hrest⟩
      · rw [Bool.not_eq_true] at hs
        by_cases hc : x.isMark .closing = true
        · rw [readHead_reference ho hn hc, readHead_reference ho hn hc]
          rw [hs] at hrest
          exact .ok ⟨rfl, Nat.add_right_comm p k 3, hrest⟩
        · simp only [readHead, plain, head, ho, hn, hs, hc, if_true]
          exact agree_error (by simp only [Fault.shift, Nat.add_right_comm])

/-- No token of a head stands behind a separator. -/
theorem readHead_recast {c d : Cursor} (h : Behind k false c d) :
    Agree k (fun x y => x.1 = y.1 ∧ Behind k x.1.endsInBar x.2 y.2) (readHead c) (readHead d) := by
  obtain ⟨p, ts⟩ := c
  obtain ⟨q, us⟩ := d
  obtain ⟨rfl, hrest⟩ := h
  cases hrest with
  | nil => exact .error (.unexpectedEnd .opening p)
  | @same _ o ts us hrest =>
      by_cases ho : o.isMark .opening = true
      · rw [Token.not_isMark_of_isMark ho (n := .separator) (by decide)] at hrest
        cases hrest with
        | nil =>
            simp only [readHead, plain, head, ho, if_true]
            exact agree_error (by simp only [Fault.shift, Nat.add_right_comm])
        | @same _ n ts us hrest =>
            by_cases hn : n.kind = .word
            · rw [Token.not_isMark_of_kind hn (by decide) .separator] at hrest
              exact readHead_recast_last ho hn hrest
            · simp only [readHead, plain, head, ho, hn, if_true]
              exact agree_error (by simp only [Fault.shift, Nat.add_right_comm])
      · simp only [readHead, plain, head, ho]
        exact .error (.expectedOpening o p)

theorem readTail_recast_reference (name : String) {c d : Cursor} (h : Behind k false c d) :
    Agree k (SameReading k) (readTail (.reference name, c)) (readTail (.reference name, d)) := by
  refine (readClosing_recast h).bind fun e e' _ he => ?_
  exact .ok ⟨rfl, he⟩

theorem readTail_recast_call (name : String) {c d : Cursor}
    (h : Agree k (SameReadings k) (readArguments c) (readArguments d)) :
    Agree k (SameReading k) (readTail (.call name, c)) (readTail (.call name, d)) := by
  refine h.bind fun x y _ hxy => ?_
  obtain ⟨htrees, hrest⟩ := hxy
  refine (readClosing_recast hrest).bind fun e e' _ he => ?_
  exact .ok ⟨by simp only [Tree.asWords, htrees], he⟩

theorem readMore_recast {x y : Tree × Cursor} (htree : x.1.asWords = y.1.asWords)
    (h : Agree k (SameReadings k) (readArguments x.2) (readArguments y.2)) :
    Agree k (SameReadings k) (readMore x) (readMore y) := by
  refine h.bind fun z w _ hzw => ?_
  obtain ⟨htrees, hrest⟩ := hzw
  exact .ok ⟨by simp only [Tree.asWordsAll, htree, htrees], hrest⟩

mutual

/-- A statement in two related rows. -/
theorem readStatement_recast {afterBar : Bool} {ts us : List Token} {p q : Nat}
    (h : Recast afterBar ts us) (hq : q = p + k) :
    Agree k (SameReading k) (readStatement ⟨p, ts⟩) (readStatement ⟨q, us⟩) := by
  subst hq
  match ts, us, h with
  | [], [], .nil => exact .error (.unexpectedEnd .argument p)
  | t :: ts, _ :: us, .literal ht hrest =>
      rw [readStatement_word ht, readStatement_literal rfl]
      exact .ok ⟨rfl, Nat.add_right_comm p k 1, hrest⟩
  | t :: ts, _ :: us, .same hrest =>
      rcases statement_start_cases t with ho | hw | hl | ⟨ho, hw, hl⟩
      · rw [Token.not_isMark_of_isMark ho (n := .separator) (by decide)] at hrest
        rw [readStatement_opening ho, readStatement_opening ho]
        refine (readHead_recast ⟨Nat.add_right_comm p k 1, hrest⟩).bind ?_
        rintro ⟨head, c⟩ ⟨head', d⟩ hhead ⟨rfl, hposition, hlater⟩
        obtain ⟨o, n, x, vs, rfl, -, -, rfl, -⟩ := readHead_ok hhead
        cases head with
        | reference name => exact readTail_recast_reference name ⟨hposition, hlater⟩
        | call name => exact readTail_recast_call name (readArguments_recast hlater hposition)
      · rw [Token.not_isMark_of_kind hw (by decide) .separator] at hrest
        rw [readStatement_word hw, readStatement_word hw]
        exact .ok ⟨rfl, Nat.add_right_comm p k 1, hrest⟩
      · rw [Token.not_isMark_of_kind hl (by decide) .separator] at hrest
        rw [readStatement_literal hl, readStatement_literal hl]
        exact .ok ⟨rfl, Nat.add_right_comm p k 1, hrest⟩
      · rw [readStatement_other ho hw hl, readStatement_other ho hw hl]
        exact .error (.unexpectedToken t p)
termination_by (ts.length, 0)

/-- Arguments in two related rows. -/
theorem readArguments_recast {afterBar : Bool} {ts us : List Token} {p q : Nat}
    (h : Recast afterBar ts us) (hq : q = p + k) :
    Agree k (SameReadings k) (readArguments ⟨p, ts⟩) (readArguments ⟨q, us⟩) := by
  subst hq
  match ts, us, h with
  | [], [], .nil =>
      rw [readArguments_end, readArguments_end]
      exact .error (.unexpectedEnd .argumentOrClosing p)
  | t :: ts, u :: us, h =>
      by_cases hc : t.isMark .closing = true
      · obtain ⟨rfl, hrest⟩ := h.at_mark hc
        rw [Token.not_isMark_of_isMark hc (n := .separator) (by decide)] at hrest
        rw [readArguments_closing hc, readArguments_closing hc]
        exact .ok ⟨rfl, Nat.add_right_comm p k 1, hrest⟩
      · by_cases hs : t.isMark .separator = true
        · obtain ⟨rfl, hrest⟩ := h.at_mark hs
          rw [readArguments_separator hs, readArguments_separator hs]
          refine (readStatement_recast hrest (Nat.add_right_comm p k 1)).bind ?_
          rintro ⟨tree, c⟩ ⟨tree', d⟩ hst ⟨htree, hposition, hlater⟩
          obtain ⟨phrase, hts, -, -⟩ := phrase_of_readStatement hst
          have hshorter := phrase.rest_shorter hts
          exact readMore_recast htree (readArguments_recast hlater hposition)
        · rw [Bool.not_eq_true] at hc hs
          rw [readArguments_other hc hs, readArguments_other
            ((h.isMark_first .closing).trans hc) ((h.isMark_first .separator).trans hs)]
          refine (readStatement_recast h rfl).bind ?_
          rintro ⟨tree, c⟩ ⟨tree', d⟩ hst ⟨htree, hposition, hlater⟩
          obtain ⟨phrase, hts, -, -⟩ := phrase_of_readStatement hst
          have hshorter := phrase.rest_shorter hts
          exact readMore_recast htree (readArguments_recast hlater hposition)
termination_by (ts.length, 1)

end

/-- Statements in two related rows. -/
theorem statements_recast {ts us : List Token} {p q : Nat} (h : Recast false ts us)
    (hq : q = p + k) :
    Agree k (fun trees trees' => Tree.asWordsAll trees = Tree.asWordsAll trees')
      (statements p ts) (statements q us) := by
  match ts, us, h with
  | [], [], .nil =>
      rw [statements, statements]
      exact .ok rfl
  | t :: ts, u :: us, h =>
      rw [statements_cons, statements_cons]
      refine (readStatement_recast h hq).bind ?_
      rintro ⟨tree, c⟩ ⟨tree', d⟩ hst ⟨htree, hposition, hlater⟩
      obtain ⟨phrase, hts, -, -⟩ := phrase_of_readStatement hst
      have hshorter := phrase.rest_shorter hts
      refine (statements_recast hlater hposition).bind fun trees trees' _ htrees => ?_
      have hboth : Tree.asWordsAll (tree :: trees) = Tree.asWordsAll (tree' :: trees') := by
        simp only [Tree.asWordsAll, htrees]
        exact congrArg (· :: _) htree
      exact .ok hboth
termination_by ts.length
decreasing_by exact hshorter

/-- Reading from a later position changes the places of faults and nothing else. -/
theorem statements_error_shift {ts : List Token} {p : Nat} {f : Fault}
    (h : statements p ts = .error f) (k : Nat) : statements (p + k) ts = .error (f.shift k) := by
  have hagree := statements_recast (k := k) (recast_refl false ts) (rfl : p + k = p + k)
  rw [h] at hagree
  generalize statements (p + k) ts = later at hagree
  cases hagree
  rfl

end Parser

theorem parse_agree (tokens : List Token) :
    Parser.Agree 0 (fun program program' => program.asWords = program'.asWords)
      (parse tokens) (parse (Token.markLiterals tokens)) := by
  have hagree := Parser.statements_recast (k := 0) (Token.recast_literalsFrom false tokens)
    (rfl : 0 = 0)
  rw [Token.markLiterals, parse, parse]
  generalize Parser.statements 0 tokens = before at hagree ⊢
  generalize Parser.statements 0 (Token.literalsFrom false tokens) = after at hagree ⊢
  cases hagree with
  | error f => exact .error f
  | ok htrees => exact .ok (congrArg Tree.program htrees)

/-- **The pass over the literals changes the class of leaves and nothing else.**  It turns exactly
the words that directly follow a separator into literals.  With and without it, the parser ends with
one and the same fault, or it gives trees that are equal once their literals are words again.  A
second pass changes nothing. -/
theorem parse_markLiterals (tokens : List Token) :
    ((∃ f, parse tokens = .error f ∧ parse (Token.markLiterals tokens) = .error f) ∨
      ∃ program program', parse tokens = .ok program ∧
        parse (Token.markLiterals tokens) = .ok program' ∧ program.asWords = program'.asWords) ∧
    Token.markLiterals (Token.markLiterals tokens) = Token.markLiterals tokens ∧
    ∀ i, (Token.markLiterals tokens)[i]? = tokens[i]?.map fun t =>
      if Token.separatorBefore false tokens i && t.kind == .word then .ofLiteral t.text else t := by
  refine ⟨?_, Token.literalsFrom_idem false tokens, Token.getElem?_literalsFrom false tokens⟩
  have hagree := parse_agree tokens
  generalize parse tokens = before at hagree ⊢
  generalize parse (Token.markLiterals tokens) = after at hagree ⊢
  cases hagree with
  | error f =>
      rw [Fault.shift_zero]
      exact Or.inl ⟨f, rfl, rfl⟩
  | ok hwords => exact Or.inr ⟨_, _, rfl, rfl, hwords⟩

end BracketCall
