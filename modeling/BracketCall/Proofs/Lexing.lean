import BracketCall.Token.Literal

/-!
# What a source spells

A source is cut into blanks, marks and words.  `Lexes` gives the rules: a blank is skipped, a mark
stands for itself, and a word is a text that begins with a letter or digit, holds neither `]` nor
`|`, and goes on until one of these or the end.  So nothing but `]`, `|` or the end can follow a
word, not even a blank.

The classes of characters do not overlap, and therefore the rules never compete.

**Results.**
* `drain_lexes`, `lexes_of_drain`: the reader takes exactly the tokens that the rules give.
* `tokenize_eq_ok_iff`: the tokens of a source, with or without the pass over the literals.
-/

namespace BracketCall

/-! ## Classes of characters -/

namespace Text

theorem blankRanges_apart : ∀ r ∈ blankRanges, ∀ n ∈ List.range' r.1 (r.2 + 1 - r.1),
    inRanges n letterOrDigitRanges = false := by
  decide +kernel

/-- No letter or digit is blank. -/
theorem not_isBlank_of_isLetterOrDigit {c : Char} (h : isLetterOrDigit c = true) :
    isBlank c = false := by
  cases hb : isBlank c with
  | false => rfl
  | true =>
      obtain ⟨r, hr, hlow, hhigh⟩ := inRanges_eq_true hb
      have hmem : c.toNat ∈ List.range' r.1 (r.2 + 1 - r.1) :=
        List.mem_range'.mpr ⟨c.toNat - r.1, by omega, by omega⟩
      have hnot : isLetterOrDigit c = false := blankRanges_apart r hr _ hmem
      rw [h] at hnot
      cases hnot

/-- Characters of a class go as far as the first one that is not in it. -/
theorem span_stops {p : Char → Bool} {cs rest : List Char} (h : ∀ c ∈ cs, p c = true)
    (hstop : ∀ c ∈ rest.head?, p c = false) :
    (cs ++ rest).takeWhile p = cs ∧ (cs ++ rest).dropWhile p = rest := by
  rw [List.takeWhile_append_of_pos h, List.dropWhile_append_of_pos h]
  cases rest with
  | nil => simp
  | cons c rest =>
      have hc : p c = false := hstop c rfl
      simp [hc]

end Text

namespace Mark

theorem ofChar?_eq_none_iff {c : Char} : ofChar? c = none ↔ ∀ m : Mark, m.char ≠ c := by
  constructor
  · rintro h m rfl
    rw [ofChar?_char] at h
    cases h
  · intro h
    cases hc : ofChar? c with
    | none => rfl
    | some m => exact absurd (char_of_ofChar? hc) (h m)

/-- A mark is neither a letter nor a digit nor blank. -/
theorem char_class (m : Mark) :
    Text.isLetterOrDigit m.char = false ∧ Text.isBlank m.char = false := by
  cases m <;> decide +kernel

theorem ofChar?_of_isLetterOrDigit {c : Char} (h : Text.isLetterOrDigit c = true) :
    ofChar? c = none := by
  rw [ofChar?_eq_none_iff]
  rintro m rfl
  rw [m.char_class.1] at h
  cases h

theorem ofChar?_of_isBlank {c : Char} (h : Text.isBlank c = true) : ofChar? c = none := by
  rw [ofChar?_eq_none_iff]
  rintro m rfl
  rw [m.char_class.2] at h
  cases h

end Mark

/-! ## Rules -/

/-- A text that can be a word: it begins with a letter or digit and holds neither `]` nor `|`. -/
def Lexable (text : String) : Prop :=
  text.toList.head?.any Text.isLetterOrDigit = true ∧ ']' ∉ text.toList ∧ '|' ∉ text.toList

instance : DecidablePred Lexable :=
  fun text => inferInstanceAs (Decidable
    (text.toList.head?.any Text.isLetterOrDigit = true ∧ ']' ∉ text.toList ∧ '|' ∉ text.toList))

/-- The characters `cs` spell the tokens `ts`. -/
inductive Lexes : List Char → List Token → Prop
  | nil : Lexes [] []
  | blank {c : Char} {cs : List Char} {ts : List Token} :
      Text.isBlank c = true →
      Lexes cs ts →
      Lexes (c :: cs) ts
  | mark (m : Mark) {cs : List Char} {ts : List Token} :
      Lexes cs ts →
      Lexes (m.char :: cs) (.ofMark m :: ts)
  | word {text : String} {cs : List Char} {ts : List Token} :
      Lexable text →
      (∀ c ∈ cs.head?, Reader.inWord c = false) →
      Lexes cs ts →
      Lexes (text.toList ++ cs) (.ofWord text :: ts)

theorem Lexable.exists_cons {text : String} (h : Lexable text) :
    ∃ c cs, text.toList = c :: cs ∧ Text.isLetterOrDigit c = true ∧
      ∀ d ∈ c :: cs, Reader.inWord d = true := by
  obtain ⟨hstart, hclosing, hbar⟩ := h
  cases hcs : text.toList with
  | nil =>
      rw [hcs] at hstart
      cases hstart
  | cons c cs =>
      rw [hcs] at hstart hclosing hbar
      refine ⟨c, cs, rfl, by simpa using hstart, ?_⟩
      intro d hd
      have h1 : d ≠ ']' := fun he => hclosing (he ▸ hd)
      have h2 : d ≠ '|' := fun he => hbar (he ▸ hd)
      simp [Reader.inWord, h1, h2]

theorem lexable_of_cons {c : Char} {cs : List Char} (hc : Text.isLetterOrDigit c = true)
    (hcs : ∀ d ∈ cs, Reader.inWord d = true) : Lexable (String.ofList (c :: cs)) := by
  have hword : ∀ d ∈ c :: cs, Reader.inWord d = true := by
    intro d hd
    rcases List.mem_cons.mp hd with rfl | hd
    · have hmark := Mark.ofChar?_eq_none_iff.mp (Mark.ofChar?_of_isLetterOrDigit hc)
      have h1 : d ≠ ']' := (hmark .closing).symm
      have h2 : d ≠ '|' := (hmark .separator).symm
      simp [Reader.inWord, h1, h2]
    · exact hcs d hd
  rw [Lexable, String.toList_ofList]
  refine ⟨by simpa using hc, ?_, ?_⟩
  · intro hmem
    exact absurd (hword _ hmem) (by decide)
  · intro hmem
    exact absurd (hword _ hmem) (by decide)

/-- A word at the end of a text. -/
theorem lexes_word {text : String} (h : Lexable text) : Lexes text.toList [.ofWord text] := by
  have hlexes : Lexes (text.toList ++ []) [.ofWord text] := .word h nofun .nil
  rwa [List.append_nil] at hlexes

/-! ## The reader follows the rules -/

namespace Reader

/-- One step of the loop, without the bound that ends it. -/
theorem drain_eq (r : Reader) :
    r.drain =
      match scan r.offset r.rest with
      | (.ok none, r') => ([], none, r')
      | (.error f, r') => ([], some f, r')
      | (.ok (some t), r') => (t :: r'.drain.1, r'.drain.2) := by
  rw [drain]
  split
  · next h => rw [h]
  · next h => rw [h]
  · next h => simp only [h]

theorem drain_nil (offset : Nat) : drain ⟨offset, []⟩ = ([], none, ⟨offset, []⟩) := by
  rw [drain_eq]
  rfl

theorem drain_blank {offset : Nat} {c : Char} {cs : List Char} (hc : Text.isBlank c = true) :
    drain ⟨offset, c :: cs⟩ = drain ⟨offset + 1, cs⟩ := by
  rw [drain_eq, drain_eq]
  simp only [scan, Mark.ofChar?_of_isBlank hc, hc, if_true]

theorem drain_mark (offset : Nat) (m : Mark) (cs : List Char) :
    drain ⟨offset, m.char :: cs⟩ =
      (.ofMark m :: (drain ⟨offset + 1, cs⟩).1, (drain ⟨offset + 1, cs⟩).2) := by
  rw [drain_eq]
  simp only [scan, Mark.ofChar?_char]

theorem drain_word {offset : Nat} {c : Char} {cs : List Char}
    (hc : Text.isLetterOrDigit c = true) :
    drain ⟨offset, c :: cs⟩ =
      (.ofWord (String.ofList (c :: cs.takeWhile inWord))
          :: (drain ⟨offset + 1 + (cs.takeWhile inWord).length, cs.dropWhile inWord⟩).1,
        (drain ⟨offset + 1 + (cs.takeWhile inWord).length, cs.dropWhile inWord⟩).2) := by
  rw [drain_eq]
  simp only [scan, Mark.ofChar?_of_isLetterOrDigit hc, Text.not_isBlank_of_isLetterOrDigit hc, hc,
    Bool.false_eq_true, if_false, if_true]

/-- Any other character stops the reader. -/
theorem drain_other {offset : Nat} {c : Char} {cs : List Char} (hm : Mark.ofChar? c = none)
    (hb : Text.isBlank c = false) (hc : Text.isLetterOrDigit c = false) :
    drain ⟨offset, c :: cs⟩ = ([], some (.unexpectedCharacter c offset), ⟨offset, c :: cs⟩) := by
  rw [drain_eq]
  simp only [scan, hm, hb, hc, Bool.false_eq_true, if_false]

/-- A word ends where the first character stands that does not go on with it. -/
theorem dropWhile_stops (cs : List Char) :
    ∀ c ∈ (cs.dropWhile inWord).head?, inWord c = false := by
  intro c hc
  have h := List.head?_dropWhile_not inWord cs
  rw [hc] at h
  exact h

/-- What the rules give, the reader takes, up to the end of the text. -/
theorem drain_lexes {cs : List Char} {ts : List Token} (h : Lexes cs ts) (offset : Nat) :
    drain ⟨offset, cs⟩ = (ts, none, ⟨offset + cs.length, []⟩) := by
  induction h generalizing offset with
  | nil => exact drain_nil offset
  | blank hc hcs ih =>
      rw [drain_blank hc, ih, List.length_cons]
      simp only [Prod.mk.injEq, Reader.mk.injEq, true_and, and_true]
      omega
  | mark m hcs ih =>
      rw [drain_mark, ih, List.length_cons]
      simp only [Prod.mk.injEq, Reader.mk.injEq, true_and, and_true]
      omega
  | @word text cs ts htext hstop hcs ih =>
      obtain ⟨c, w, hw, hc, hall⟩ := htext.exists_cons
      have hinner : ∀ d ∈ w, inWord d = true := fun d hd => hall d (List.mem_cons_of_mem c hd)
      obtain ⟨htake, hdrop⟩ := Text.span_stops hinner hstop
      have htext : text = String.ofList (c :: w) := by
        rw [← hw, String.ofList_toList]
      rw [hw, List.cons_append, drain_word hc, htake, hdrop, ih, ← htext]
      simp only [Prod.mk.injEq, Reader.mk.injEq, true_and, and_true, List.length_cons,
        List.length_append]
      omega

/-- What the reader takes, the rules give. -/
theorem lexes_of_drain {offset : Nat} {cs : List Char} {ts : List Token} {r : Reader}
    (h : drain ⟨offset, cs⟩ = (ts, none, r)) : Lexes cs ts := by
  match cs, h with
  | [], h =>
      rw [drain_nil] at h
      cases h
      exact .nil
  | c :: cs, h =>
      cases hm : Mark.ofChar? c with
      | some m =>
          obtain rfl := Mark.char_of_ofChar? hm
          rw [drain_mark] at h
          rcases hd : drain ⟨offset + 1, cs⟩ with ⟨us, f, r'⟩
          rw [hd] at h
          cases h
          exact .mark m (lexes_of_drain hd)
      | none =>
          cases hb : Text.isBlank c with
          | true =>
              rw [drain_blank hb] at h
              exact .blank hb (lexes_of_drain h)
          | false =>
              cases hc : Text.isLetterOrDigit c with
              | false =>
                  rw [drain_other hm hb hc] at h
                  cases h
              | true =>
                  rw [drain_word hc] at h
                  rcases hd : drain ⟨offset + 1 + (cs.takeWhile inWord).length,
                    cs.dropWhile inWord⟩ with ⟨us, f, r'⟩
                  rw [hd] at h
                  cases h
                  have hsplit : c :: cs = (String.ofList (c :: cs.takeWhile inWord)).toList ++
                      cs.dropWhile inWord := by
                    rw [String.toList_ofList, List.cons_append, List.takeWhile_append_dropWhile]
                  have hlength := takeWhile_length_add inWord cs
                  rw [hsplit]
                  exact .word (lexable_of_cons hc (List.all_eq_true.mp List.all_takeWhile))
                    (dropWhile_stops cs) (lexes_of_drain hd)
termination_by cs.length
decreasing_by
  all_goals simp only [List.length_cons]
  all_goals omega

end Reader

theorem tokenize_eq (literals : Bool) (source : String) :
    tokenize literals source =
      match Reader.drain ⟨0, source.toList⟩ with
      | (ts, none, _) => .ok (Token.listing literals ts)
      | (_, some f, _) => .error f := by
  rw [tokenize, Reader.tokens, Reader.readAll, Reader.ofSource]
  rcases Reader.drain ⟨0, source.toList⟩ with ⟨ts, _ | f, r⟩
  · rfl
  · rfl

/-- The tokens of a source are those that the rules give, with the literals marked if asked for. -/
theorem tokenize_eq_ok_iff {literals : Bool} {source : String} {ts : List Token} :
    tokenize literals source = .ok ts ↔
      ∃ raw, Lexes source.toList raw ∧ Token.listing literals raw = ts := by
  rw [tokenize_eq]
  constructor
  · intro h
    rcases hd : Reader.drain ⟨0, source.toList⟩ with ⟨raw, _ | f, r⟩
    · rw [hd] at h
      cases h
      exact ⟨raw, Reader.lexes_of_drain hd, rfl⟩
    · rw [hd] at h
      cases h
  · rintro ⟨raw, hraw, rfl⟩
    rw [Reader.drain_lexes hraw]

end BracketCall
