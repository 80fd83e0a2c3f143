import BracketCall.Proofs.Lexing

/-!
# Rows of tokens that have a source

When the literals of a source are marked, its tokens obey rules that can be checked from left to
right, with one bit of memory: whether the token before is a separator.  A word that comes then is
a literal, and otherwise it is not.  After either of them the row ends or goes on with `]` or `|`.

These rules are exact: a row that obeys them has a source, namely its texts one after the other.

**Results.**
* `spelled_of_tokenize`: the tokens of a source obey the rules.
* `tokenize_texts`: a row that obeys the rules is what its texts spell.
-/

namespace BracketCall

/-- A row that can stand directly after a word: an empty one, or one that begins with `]` or `|`. -/
def Stops (ts : List Token) : Prop :=
  ∀ t ∈ ts.head?, t = .ofMark .closing ∨ t = .ofMark .separator

/-- The rules for the tokens of a source with its literals marked; `afterBar` tells whether the
token before is a separator. -/
inductive Spelled : (afterBar : Bool) → List Token → Prop
  | nil {afterBar : Bool} : Spelled afterBar []
  | mark {afterBar : Bool} (m : Mark) {ts : List Token} :
      Spelled (decide (m = .separator)) ts →
      Spelled afterBar (.ofMark m :: ts)
  | word {text : String} {ts : List Token} :
      Lexable text →
      Stops ts →
      Spelled false ts →
      Spelled false (.ofWord text :: ts)
  | literal {text : String} {ts : List Token} :
      Lexable text →
      Stops ts →
      Spelled false ts →
      Spelled true (.ofLiteral text :: ts)

/-- The texts of some tokens, one after the other. -/
def texts (ts : List Token) : List Char :=
  ts.flatMap fun t => t.text.toList

@[simp] theorem texts_nil : texts [] = [] := rfl

@[simp] theorem texts_cons (t : Token) (ts : List Token) :
    texts (t :: ts) = t.text.toList ++ texts ts := rfl

@[simp] theorem texts_append (ts us : List Token) : texts (ts ++ us) = texts ts ++ texts us := by
  simp [texts]

namespace Token

@[simp] theorem isMark_ofMark (m n : Mark) : (ofMark m).isMark n = decide (m = n) := by
  cases m <;> cases n <;> rfl

@[simp] theorem text_ofMark (m : Mark) : (ofMark m).text.toList = [m.char] := by
  simp [ofMark]

theorem literalsFrom_mark (afterBar : Bool) (m : Mark) (ts : List Token) :
    literalsFrom afterBar (ofMark m :: ts) =
      ofMark m :: literalsFrom (decide (m = .separator)) ts := by
  rw [literalsFrom, isMark_ofMark]
  simp [ofMark]

theorem literalsFrom_word (afterBar : Bool) (text : String) (ts : List Token) :
    literalsFrom afterBar (ofWord text :: ts) =
      (if afterBar then ofLiteral text else ofWord text) :: literalsFrom false ts := by
  cases afterBar with
  | false => rfl
  | true => rfl

end Token

/-- What follows a word in a source stops it. -/
theorem stops_of_lexes {cs : List Char} {raw : List Token} (h : Lexes cs raw)
    (hstop : ∀ c ∈ cs.head?, Reader.inWord c = false) :
    Stops (Token.literalsFrom false raw) := by
  cases h with
  | nil => simp [Stops, Token.literalsFrom]
  | @blank c cs raw hc _ =>
      have hword : Reader.inWord c = false := hstop c rfl
      exfalso
      simp only [Reader.inWord, Bool.and_eq_false_iff, bne_eq_false_iff_eq] at hword
      rcases hword with rfl | rfl
      · exact absurd hc (by decide)
      · exact absurd hc (by decide)
  | mark m _ =>
      have hword : Reader.inWord m.char = false := hstop m.char rfl
      rw [Token.literalsFrom_mark]
      intro t ht
      cases ht
      cases m with
      | opening => exact absurd hword (by decide)
      | closing => exact Or.inl rfl
      | separator => exact Or.inr rfl
  | @word text cs raw htext _ _ =>
      obtain ⟨c, w, hw, -, hall⟩ := htext.exists_cons
      rw [hw] at hstop
      have hword : Reader.inWord c = false := hstop c rfl
      rw [hall c (List.mem_cons_self)] at hword
      cases hword

theorem spelled_of_lexes {cs : List Char} {raw : List Token} (h : Lexes cs raw)
    (afterBar : Bool) : Spelled afterBar (Token.literalsFrom afterBar raw) := by
  induction h generalizing afterBar with
  | nil => exact .nil
  | blank _ _ ih => exact ih afterBar
  | mark m _ ih =>
      rw [Token.literalsFrom_mark]
      exact .mark m (ih _)
  | word htext hstop hcs ih =>
      rw [Token.literalsFrom_word]
      have hstops := stops_of_lexes hcs hstop
      cases afterBar with
      | false => exact .word htext hstops (ih false)
      | true => exact .literal htext hstops (ih false)

/-- The tokens of a source obey the rules. -/
theorem spelled_of_tokenize {source : String} {ts : List Token}
    (h : tokenize true source = .ok ts) : Spelled false ts := by
  obtain ⟨raw, hraw, rfl⟩ := tokenize_eq_ok_iff.mp h
  exact spelled_of_lexes hraw false

theorem stops_texts {ts : List Token} (h : Stops ts) :
    ∀ c ∈ (texts ts).head?, Reader.inWord c = false := by
  intro c hc
  cases ts with
  | nil => cases hc
  | cons t ts =>
      rcases h t rfl with rfl | rfl
      · rw [texts_cons, Token.text_ofMark] at hc
        cases hc
        decide
      · rw [texts_cons, Token.text_ofMark] at hc
        cases hc
        decide

/-- A row that obeys the rules comes from the row of words and marks that its texts spell. -/
theorem lexes_texts {afterBar : Bool} {ts : List Token} (h : Spelled afterBar ts) :
    ∃ raw, Lexes (texts ts) raw ∧ Token.literalsFrom afterBar raw = ts := by
  induction h with
  | nil => exact ⟨[], .nil, rfl⟩
  | mark m _ ih =>
      obtain ⟨raw, hraw, heq⟩ := ih
      refine ⟨.ofMark m :: raw, ?_, ?_⟩
      · rw [texts_cons, Token.text_ofMark]
        exact .mark m hraw
      · rw [Token.literalsFrom_mark, heq]
  | @word text ts htext hstops _ ih =>
      obtain ⟨raw, hraw, heq⟩ := ih
      refine ⟨.ofWord text :: raw, .word htext (stops_texts hstops) hraw, ?_⟩
      rw [Token.literalsFrom_word, heq]
      rfl
  | @literal text ts htext hstops _ ih =>
      obtain ⟨raw, hraw, heq⟩ := ih
      refine ⟨.ofWord text :: raw, .word htext (stops_texts hstops) hraw, ?_⟩
      rw [Token.literalsFrom_word, heq]
      rfl

/-- A row that obeys the rules is what its texts spell. -/
theorem tokenize_texts {ts : List Token} (h : Spelled false ts) :
    tokenize true (String.ofList (texts ts)) = .ok ts := by
  obtain ⟨raw, hraw, heq⟩ := lexes_texts h
  refine tokenize_eq_ok_iff.mpr ⟨raw, ?_, heq⟩
  rw [String.toList_ofList]
  exact hraw

end BracketCall
