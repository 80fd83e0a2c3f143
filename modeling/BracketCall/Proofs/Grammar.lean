import BracketCall.Token
import BracketCall.Tree

/-!
# The grammar of programs

```text
program   := statement*
statement := construct | literal | word
construct := "[" "[" word ( "|" ( "|"? statement )* )? "]" "]"
```

A derivation is a tree of its own, with one constructor for each production.  Its leaves are tokens
that are known to be of the demanded kind, so a derivation that breaks a rule cannot be built.  From
a derivation two things are read off: the row of tokens that it derives, its yield, and the program
tree that it stands for.  The tree forgets which separators were written; the derivation does not.

**Results.**
* `Phrase.yield_append_inj`: a phrase is known from its yield, whatever follows it.
* `derivation_unique`: a row of tokens has at most one derivation.
-/

namespace BracketCall

/-- A token that is the given mark. -/
abbrev MarkToken (m : Mark) := { t : Token // t.isMark m = true }

/-- A token of the given kind. -/
abbrev KindToken (k : TokenKind) := { t : Token // t.kind = k }

/-- The token of a mark. -/
def Mark.token (m : Mark) : MarkToken m :=
  ⟨.ofMark m, by simp [Token.ofMark, Token.isMark]⟩

/-- The token of a word. -/
def wordToken (text : String) : KindToken .word :=
  ⟨.ofWord text, rfl⟩

/-- The token of a literal. -/
def literalToken (text : String) : KindToken .literal :=
  ⟨.ofLiteral text, rfl⟩

mutual

/-- A derivation of a statement. -/
inductive Phrase where
  | word (token : KindToken .word)
  | literal (token : KindToken .literal)
  | reference (first second : MarkToken .opening) (name : KindToken .word)
      (third fourth : MarkToken .closing)
  | call (first second : MarkToken .opening) (name : KindToken .word)
      (bar : MarkToken .separator) (arguments : ArgumentPhrases)
      (third fourth : MarkToken .closing)

/-- A derivation of the arguments of a call, each with the separator before it, if there is one. -/
inductive ArgumentPhrases where
  | nil
  | cons (bar : Option (MarkToken .separator)) (phrase : Phrase) (rest : ArgumentPhrases)

end

mutual

/-- The tokens that a phrase derives. -/
def Phrase.yield : Phrase → List Token
  | .word token => [token.val]
  | .literal token => [token.val]
  | .reference first second name third fourth =>
      [first.val, second.val, name.val, third.val, fourth.val]
  | .call first second name bar arguments third fourth =>
      first.val :: second.val :: name.val :: bar.val ::
        (arguments.yield ++ [third.val, fourth.val])

/-- The tokens that a row of arguments derives. -/
def ArgumentPhrases.yield : ArgumentPhrases → List Token
  | .nil => []
  | .cons none phrase rest => phrase.yield ++ rest.yield
  | .cons (some bar) phrase rest => bar.val :: (phrase.yield ++ rest.yield)

end

mutual

/-- The tree that a phrase stands for. -/
def Phrase.tree : Phrase → Tree
  | .word token => .word token.val.text
  | .literal token => .literal token.val.text
  | .reference _ _ name _ _ => .reference name.val.text
  | .call _ _ name _ arguments _ _ => .call name.val.text arguments.trees

/-- The trees of a row of arguments. -/
def ArgumentPhrases.trees : ArgumentPhrases → List Tree
  | .nil => []
  | .cons _ phrase rest => phrase.tree :: rest.trees

end

/-- A derivation of a program: a row of phrases that yields exactly the given tokens. -/
abbrev Derivation (tokens : List Token) :=
  { phrases : List Phrase // phrases.flatMap Phrase.yield = tokens }

/-- The program that a derivation stands for. -/
def Derivation.program {tokens : List Token} (d : Derivation tokens) : Tree :=
  .program (d.val.map Phrase.tree)

/-- The grammar derives a program from a row of tokens. -/
def Derives (tokens : List Token) (program : Tree) : Prop :=
  ∃ d : Derivation tokens, d.program = program

/-! ## Tokens in one role have no other -/

namespace Token

theorem isMark_iff (t : Token) (m : Mark) :
    t.isMark m = true ↔ t.kind = .mark ∧ t.mark = some m := by
  simp [isMark]

theorem not_isMark_of_isMark {t : Token} {m n : Mark} (h : t.isMark m = true) (hmn : m ≠ n) :
    t.isMark n = false := by
  rw [isMark_iff] at h
  simp [isMark, h.2, hmn]

theorem not_isMark_of_kind {t : Token} {k : TokenKind} (h : t.kind = k) (hk : k ≠ .mark)
    (m : Mark) : t.isMark m = false := by
  simp [isMark, h, hk]

theorem kind_of_isMark {t : Token} {m : Mark} (h : t.isMark m = true) : t.kind = .mark :=
  ((isMark_iff t m).mp h).1

end Token

theorem KindToken.val_ne_val {k l : TokenKind} (hkl : k ≠ l) (t : KindToken k)
    (u : KindToken l) : t.val ≠ u.val := by
  intro h
  exact hkl (by rw [← t.property, h, u.property])

theorem KindToken.val_ne_mark {k : TokenKind} (hk : k ≠ .mark) (t : KindToken k) {m : Mark}
    (u : MarkToken m) : t.val ≠ u.val := by
  intro h
  exact hk (by rw [← t.property, h, Token.kind_of_isMark u.property])

theorem MarkToken.val_ne_val {m n : Mark} (hmn : m ≠ n) (t : MarkToken m)
    (u : MarkToken n) : t.val ≠ u.val := by
  intro h
  have hn := Token.not_isMark_of_isMark t.property hmn
  rw [h, u.property] at hn
  cases hn

/-! ## The first token of a phrase -/

namespace Phrase

/-- The first token of a phrase. -/
def first : Phrase → Token
  | .word token => token.val
  | .literal token => token.val
  | .reference first _ _ _ _ => first.val
  | .call first _ _ _ _ _ _ => first.val

/-- The tokens of a phrase after the first. -/
def later : Phrase → List Token
  | .word _ => []
  | .literal _ => []
  | .reference _ second name third fourth => [second.val, name.val, third.val, fourth.val]
  | .call _ second name bar arguments third fourth =>
      second.val :: name.val :: bar.val :: (arguments.yield ++ [third.val, fourth.val])

theorem yield_eq (p : Phrase) : p.yield = p.first :: p.later := by
  cases p <;> simp [yield, first, later]

/-- What follows a phrase is shorter than the whole. -/
theorem rest_shorter (p : Phrase) {ts rest : List Token} (h : ts = p.yield ++ rest) :
    rest.length < ts.length := by
  rw [h, p.yield_eq]
  simp only [List.cons_append, List.length_cons, List.length_append]
  omega

/-- No phrase begins with a bracket that closes or with a separator. -/
theorem not_isMark_first (p : Phrase) {m : Mark} (hm : m ≠ .opening) :
    p.first.isMark m = false := by
  cases p with
  | word t => exact Token.not_isMark_of_kind t.property (by decide) m
  | literal t => exact Token.not_isMark_of_kind t.property (by decide) m
  | reference a _ _ _ _ => exact Token.not_isMark_of_isMark a.property hm.symm
  | call a _ _ _ _ _ _ => exact Token.not_isMark_of_isMark a.property hm.symm

theorem first_ne_mark (p : Phrase) {m : Mark} (hm : m ≠ .opening) (u : MarkToken m) :
    p.first ≠ u.val := by
  intro h
  have hu := p.not_isMark_first hm
  rw [h, u.property] at hu
  cases hu

end Phrase

/-! ## Unique reading -/

mutual

/-- A phrase is known from its yield, whatever follows it. -/
theorem Phrase.yield_append_inj :
    ∀ (p q : Phrase) {r s : List Token}, p.yield ++ r = q.yield ++ s → p = q ∧ r = s
  | .word t, q, r, s, h => by
      cases q with
      | word u =>
          simp only [Phrase.yield, List.cons_append, List.nil_append, List.cons.injEq] at h
          exact ⟨by rw [Subtype.ext h.1], h.2⟩
      | literal u =>
          exact absurd (List.cons.inj h).1 (KindToken.val_ne_val (by decide) t u)
      | reference a _ _ _ _ =>
          exact absurd (List.cons.inj h).1 (KindToken.val_ne_mark (by decide) t a)
      | call a _ _ _ _ _ _ =>
          exact absurd (List.cons.inj h).1 (KindToken.val_ne_mark (by decide) t a)
  | .literal t, q, r, s, h => by
      cases q with
      | word u =>
          exact absurd (List.cons.inj h).1 (KindToken.val_ne_val (by decide) t u)
      | literal u =>
          simp only [Phrase.yield, List.cons_append, List.nil_append, List.cons.injEq] at h
          exact ⟨by rw [Subtype.ext h.1], h.2⟩
      | reference a _ _ _ _ =>
          exact absurd (List.cons.inj h).1 (KindToken.val_ne_mark (by decide) t a)
      | call a _ _ _ _ _ _ =>
          exact absurd (List.cons.inj h).1 (KindToken.val_ne_mark (by decide) t a)
  | .reference a b n c d, q, r, s, h => by
      cases q with
      | word u =>
          exact absurd (List.cons.inj h).1.symm (KindToken.val_ne_mark (by decide) u a)
      | literal u =>
          exact absurd (List.cons.inj h).1.symm (KindToken.val_ne_mark (by decide) u a)
      | reference a' b' n' c' d' =>
          simp only [Phrase.yield, List.cons_append, List.nil_append, List.cons.injEq] at h
          obtain ⟨ha, hb, hn, hc, hd, hr⟩ := h
          rw [Subtype.ext ha, Subtype.ext hb, Subtype.ext hn, Subtype.ext hc, Subtype.ext hd]
          exact ⟨rfl, hr⟩
      | call a' b' n' bar args c' d' =>
          simp only [Phrase.yield, List.cons_append, List.cons.injEq] at h
          exact absurd h.2.2.2.1 (MarkToken.val_ne_val (by decide) c bar)
  | .call a b n bar args c d, q, r, s, h => by
      cases q with
      | word u =>
          exact absurd (List.cons.inj h).1.symm (KindToken.val_ne_mark (by decide) u a)
      | literal u =>
          exact absurd (List.cons.inj h).1.symm (KindToken.val_ne_mark (by decide) u a)
      | reference a' b' n' c' d' =>
          simp only [Phrase.yield, List.cons_append, List.cons.injEq] at h
          exact absurd h.2.2.2.1 (MarkToken.val_ne_val (by decide) bar c')
      | call a' b' n' bar' args' c' d' =>
          simp only [Phrase.yield, List.cons_append, List.append_assoc, List.nil_append,
            List.cons.injEq] at h
          obtain ⟨ha, hb, hn, hbar, hrest⟩ := h
          obtain ⟨hargs, hend⟩ := ArgumentPhrases.yield_append_inj args args' hrest
          simp only [List.cons.injEq] at hend
          obtain ⟨hc, hd, hr⟩ := hend
          rw [Subtype.ext ha, Subtype.ext hb, Subtype.ext hn, Subtype.ext hbar, hargs,
            Subtype.ext hc, Subtype.ext hd]
          exact ⟨rfl, hr⟩

/-- A row of arguments is known from its yield and the closing bracket after it. -/
theorem ArgumentPhrases.yield_append_inj :
    ∀ (as bs : ArgumentPhrases) {c d : MarkToken .closing} {r s : List Token},
      as.yield ++ c.val :: r = bs.yield ++ d.val :: s → as = bs ∧ c.val :: r = d.val :: s
  | .nil, .nil, c, d, r, s, h => ⟨rfl, h⟩
  | .nil, .cons none q bs, c, d, r, s, h => by
      simp only [ArgumentPhrases.yield, Phrase.yield_eq, List.cons_append, List.nil_append,
        List.cons.injEq] at h
      exact absurd h.1.symm (q.first_ne_mark (by decide) c)
  | .nil, .cons (some bar) q bs, c, d, r, s, h => by
      simp only [ArgumentPhrases.yield, List.cons_append, List.nil_append, List.cons.injEq] at h
      exact absurd h.1 (MarkToken.val_ne_val (by decide) c bar)
  | .cons none p as, .nil, c, d, r, s, h => by
      simp only [ArgumentPhrases.yield, Phrase.yield_eq, List.cons_append, List.nil_append,
        List.cons.injEq] at h
      exact absurd h.1 (p.first_ne_mark (by decide) d)
  | .cons (some bar) p as, .nil, c, d, r, s, h => by
      simp only [ArgumentPhrases.yield, List.cons_append, List.nil_append, List.cons.injEq] at h
      exact absurd h.1 (MarkToken.val_ne_val (by decide) bar d)
  | .cons none p as, .cons (some bar) q bs, c, d, r, s, h => by
      simp only [ArgumentPhrases.yield, Phrase.yield_eq, List.cons_append,
        List.cons.injEq] at h
      exact absurd h.1 (p.first_ne_mark (by decide) bar)
  | .cons (some bar) p as, .cons none q bs, c, d, r, s, h => by
      simp only [ArgumentPhrases.yield, Phrase.yield_eq, List.cons_append,
        List.cons.injEq] at h
      exact absurd h.1.symm (q.first_ne_mark (by decide) bar)
  | .cons none p as, .cons none q bs, c, d, r, s, h => by
      simp only [ArgumentPhrases.yield, List.append_assoc] at h
      obtain ⟨hp, hrest⟩ := Phrase.yield_append_inj p q h
      obtain ⟨has, hend⟩ := ArgumentPhrases.yield_append_inj as bs hrest
      exact ⟨by rw [hp, has], hend⟩
  | .cons (some bar) p as, .cons (some bar') q bs, c, d, r, s, h => by
      simp only [ArgumentPhrases.yield, List.append_assoc, List.cons_append,
        List.cons.injEq] at h
      obtain ⟨hp, hrest⟩ := Phrase.yield_append_inj p q h.2
      obtain ⟨has, hend⟩ := ArgumentPhrases.yield_append_inj as bs hrest
      exact ⟨by rw [Subtype.ext h.1, hp, has], hend⟩

end

/-- Two rows of phrases with one yield are the same. -/
theorem phrases_yield_inj :
    ∀ ps qs : List Phrase, ps.flatMap Phrase.yield = qs.flatMap Phrase.yield → ps = qs
  | [], [], _ => rfl
  | [], q :: qs, h => by simp [Phrase.yield_eq] at h
  | p :: ps, [], h => by simp [Phrase.yield_eq] at h
  | p :: ps, q :: qs, h => by
      simp only [List.flatMap_cons] at h
      obtain ⟨hp, hrest⟩ := Phrase.yield_append_inj p q h
      rw [hp, phrases_yield_inj ps qs hrest]

/-- A row of tokens has at most one derivation. -/
theorem derivation_unique (tokens : List Token) : Subsingleton (Derivation tokens) :=
  ⟨fun d e => Subtype.ext (phrases_yield_inj d.val e.val (d.property.trans e.property.symm))⟩

end BracketCall
