import BracketCall.Proofs.Lexing

/-!
# How a source is cut up

A source is a run of blanks, then a lexeme, then a run of blanks, and so on.  A lexeme is a mark or
a word.  A word takes every character up to the next `]` or `|`, so no blank follows it: they would
all have become a part of it.

A source that cannot be cut up in this way has a first character that fits nowhere.  Up to there it
can be cut up, and the last lexeme before that character is not a word, which would have taken it in.

**Method.**  Between a segmentation and the reader stand the rules of `Lexes`.  A fault is located by
`drain_append`: behind a text whose last lexeme is no word, the reader goes on as if it began there.
The same holds wherever a word is ended by the character behind it (`drain_seam`).

**Results.**
* `lexes_of_segmentation`, `exists_segmentation`: the rules and the segmentations say the same.
* `segmentation_unique`: a source can be cut up in one way only.
* `drain_error_iff`: where the reader stops, and for which reason.
* `lexes_append_iff`: the tokens of a text that is parted between two lexemes.
* `tokenize_exact`: the tokens of a source, and its only fault.
-/

namespace BracketCall

/-! ## Segmentations -/

inductive Lexeme where
  | mark (m : Mark)
  | word (text : String) (lexable : Lexable text)

namespace Lexeme

def chars : Lexeme → List Char
  | mark m => [m.char]
  | word text _ => text.toList

def token : Lexeme → Token
  | mark m => .ofMark m
  | word text _ => .ofWord text

end Lexeme

/-- A run of blanks, which may be empty. -/
abbrev Blanks := { cs : List Char // ∀ c ∈ cs, Text.isBlank c = true }

/-- The text of lexemes with the blanks behind each. -/
def spellPieces (pieces : List (Lexeme × Blanks)) : List Char :=
  pieces.flatMap fun piece => piece.1.chars ++ piece.2.val

@[simp] theorem spellPieces_nil : spellPieces [] = [] := rfl

@[simp] theorem spellPieces_cons (piece : Lexeme × Blanks) (pieces : List (Lexeme × Blanks)) :
    spellPieces (piece :: pieces) = piece.1.chars ++ (piece.2.val ++ spellPieces pieces) := by
  simp [spellPieces]

/-- No blank stands behind a word, and nothing but `]`, `|` or the end. -/
def WordsClosed (pieces : List (Lexeme × Blanks)) : Prop :=
  ∀ text lexable gap rest, (Lexeme.word text lexable, gap) :: rest <:+ pieces →
    gap.val = [] ∧ ∀ c ∈ (spellPieces rest).head?, c = ']' ∨ c = '|'

/-- A way to cut up a text: blanks, and lexemes with the blanks behind each. -/
structure Segmentation (cs : List Char) where
  lead : Blanks
  pieces : List (Lexeme × Blanks)
  spells : lead.val ++ spellPieces pieces = cs
  closed : WordsClosed pieces

def Segmentation.tokens {cs : List Char} (s : Segmentation cs) : List Token :=
  s.pieces.map fun piece => piece.1.token

theorem inWord_eq_false_iff {c : Char} : Reader.inWord c = false ↔ c = ']' ∨ c = '|' := by
  simp only [Reader.inWord, Bool.and_eq_false_iff, bne_eq_false_iff_eq]

theorem not_isBlank_of_stop {c : Char} (h : Reader.inWord c = false) : Text.isBlank c = false := by
  rcases inWord_eq_false_iff.mp h with rfl | rfl
  · exact Mark.closing.char_class.2
  · exact Mark.separator.char_class.2

theorem wordsClosed_nil : WordsClosed [] := by
  intro text lexable gap rest h
  simp at h

theorem wordsClosed_mark {m : Mark} {gap : Blanks} {pieces : List (Lexeme × Blanks)} :
    WordsClosed ((.mark m, gap) :: pieces) ↔ WordsClosed pieces := by
  constructor
  · intro h text lexable gap' rest hsuffix
    exact h text lexable gap' rest (hsuffix.trans (List.suffix_cons _ _))
  · intro h text lexable gap' rest hsuffix
    rcases List.suffix_cons_iff.mp hsuffix with heq | hsuffix
    · cases heq
    · exact h text lexable gap' rest hsuffix

theorem wordsClosed_word {text : String} {lexable : Lexable text} {gap : Blanks}
    {pieces : List (Lexeme × Blanks)} :
    WordsClosed ((.word text lexable, gap) :: pieces) ↔
      gap.val = [] ∧ (∀ c ∈ (spellPieces pieces).head?, c = ']' ∨ c = '|') ∧
        WordsClosed pieces := by
  constructor
  · intro h
    obtain ⟨hgap, hstop⟩ := h text lexable gap pieces (List.suffix_refl _)
    refine ⟨hgap, hstop, ?_⟩
    intro text' lexable' gap' rest hsuffix
    exact h text' lexable' gap' rest (hsuffix.trans (List.suffix_cons _ _))
  · rintro ⟨hgap, hstop, h⟩ text' lexable' gap' rest hsuffix
    rcases List.suffix_cons_iff.mp hsuffix with heq | hsuffix
    · cases heq
      exact ⟨hgap, hstop⟩
    · exact h text' lexable' gap' rest hsuffix

/-! ## Segmentations and rules -/

theorem lexes_blanks (gap : Blanks) {cs : List Char} {ts : List Token} (h : Lexes cs ts) :
    Lexes (gap.val ++ cs) ts := by
  obtain ⟨gap, hgap⟩ := gap
  induction gap with
  | nil => exact h
  | cons c gap ih =>
      have hc : Text.isBlank c = true := hgap c List.mem_cons_self
      exact .blank hc (ih fun d hd => hgap d (List.mem_cons_of_mem c hd))

theorem lexes_pieces (pieces : List (Lexeme × Blanks)) (h : WordsClosed pieces) :
    Lexes (spellPieces pieces) (pieces.map fun piece => piece.1.token) := by
  induction pieces with
  | nil => exact .nil
  | cons piece pieces ih =>
      obtain ⟨lexeme, gap⟩ := piece
      cases lexeme with
      | mark m =>
          have hrest := ih (wordsClosed_mark.mp h)
          rw [spellPieces_cons]
          exact .mark m (lexes_blanks gap hrest)
      | word text lexable =>
          obtain ⟨hgap, hstop, hclosed⟩ := wordsClosed_word.mp h
          have hrest := ih hclosed
          rw [spellPieces_cons, hgap, List.nil_append]
          exact .word lexable (fun c hc => inWord_eq_false_iff.mpr (hstop c hc)) hrest

/-- A segmentation obeys the rules. -/
theorem lexes_of_segmentation {cs : List Char} (s : Segmentation cs) : Lexes cs s.tokens := by
  have h := lexes_blanks s.lead (lexes_pieces s.pieces s.closed)
  rw [s.spells] at h
  exact h

/-- A text that obeys the rules has a segmentation. -/
theorem exists_segmentation {cs : List Char} {ts : List Token} (h : Lexes cs ts) :
    ∃ s : Segmentation cs, s.tokens = ts := by
  induction h with
  | nil => exact ⟨⟨⟨[], nofun⟩, [], rfl, wordsClosed_nil⟩, rfl⟩
  | @blank c cs ts hc _ ih =>
      obtain ⟨⟨⟨lead, hlead⟩, pieces, rfl, hclosed⟩, rfl⟩ := ih
      have hblanks : ∀ d ∈ c :: lead, Text.isBlank d = true := by
        intro d hd
        rcases List.mem_cons.mp hd with rfl | hd
        · exact hc
        · exact hlead d hd
      exact ⟨⟨⟨c :: lead, hblanks⟩, pieces, rfl, hclosed⟩, rfl⟩
  | @mark m cs ts _ ih =>
      obtain ⟨⟨lead, pieces, rfl, hclosed⟩, rfl⟩ := ih
      refine ⟨⟨⟨[], nofun⟩, (.mark m, lead) :: pieces, ?_, wordsClosed_mark.mpr hclosed⟩, rfl⟩
      rw [spellPieces_cons]
      rfl
  | @word text cs ts htext hstop _ ih =>
      obtain ⟨⟨⟨lead, hlead⟩, pieces, rfl, hclosed⟩, rfl⟩ := ih
      -- The character behind the word ends it and is therefore not blank.
      have hempty : lead = [] := by
        cases lead with
        | nil => rfl
        | cons c lead =>
            have hc : Text.isBlank c = false := not_isBlank_of_stop (hstop c rfl)
            rw [hlead c List.mem_cons_self] at hc
            cases hc
      subst hempty
      have hword : WordsClosed ((.word text htext, ⟨[], hlead⟩) :: pieces) := by
        refine wordsClosed_word.mpr ⟨rfl, ?_, hclosed⟩
        intro c hc
        exact inWord_eq_false_iff.mp (hstop c hc)
      exact ⟨⟨⟨[], nofun⟩, (.word text htext, ⟨[], hlead⟩) :: pieces, spellPieces_cons _ _, hword⟩,
        rfl⟩

/-- A text obeys the rules for at most one row of tokens. -/
theorem lexes_unique {cs : List Char} {ts us : List Token} (ht : Lexes cs ts) (hu : Lexes cs us) :
    ts = us := by
  have h := (Reader.drain_lexes ht 0).symm.trans (Reader.drain_lexes hu 0)
  exact congrArg Prod.fst h

/-! ## Unique segmentation -/

theorem Lexeme.token_injective {a b : Lexeme} (h : a.token = b.token) : a = b := by
  cases a with
  | mark m =>
      cases b with
      | mark n =>
          have hmn : some m = some n := congrArg Token.mark h
          cases hmn
          rfl
      | word text lexable => cases congrArg Token.kind h
  | word text lexable =>
      cases b with
      | mark n => cases congrArg Token.kind h
      | word text' lexable' =>
          have htext : text = text' := congrArg Token.text h
          subst htext
          rfl

/-- A lexeme begins with no blank. -/
theorem Lexeme.chars_head (a : Lexeme) : ∃ c cs, a.chars = c :: cs ∧ Text.isBlank c = false := by
  cases a with
  | mark m => exact ⟨m.char, [], rfl, m.char_class.2⟩
  | word text lexable =>
      obtain ⟨c, cs, hcs, hc, -⟩ := lexable.exists_cons
      exact ⟨c, cs, hcs, Text.not_isBlank_of_isLetterOrDigit hc⟩

theorem spellPieces_head (pieces : List (Lexeme × Blanks)) :
    ∀ c ∈ (spellPieces pieces).head?, Text.isBlank c = false := by
  intro c hc
  cases pieces with
  | nil => cases hc
  | cons piece pieces =>
      obtain ⟨d, ds, hchars, hd⟩ := piece.1.chars_head
      rw [spellPieces_cons, hchars] at hc
      cases hc
      exact hd

/-- Blanks end where the first character stands that is not blank. -/
theorem blanks_append_inj {gap gap' : Blanks} {cs ds : List Char}
    (hcs : ∀ c ∈ cs.head?, Text.isBlank c = false) (hds : ∀ c ∈ ds.head?, Text.isBlank c = false)
    (h : gap.val ++ cs = gap'.val ++ ds) : gap = gap' ∧ cs = ds := by
  have hdrop : ∀ (g : Blanks) (es : List Char), (∀ c ∈ es.head?, Text.isBlank c = false) →
      (g.val ++ es).dropWhile Text.isBlank = es := by
    intro g es hes
    rw [List.dropWhile_append_of_pos g.property]
    cases es with
    | nil => rfl
    | cons e es => simp [hes e rfl]
  have hrest : cs = ds := by
    rw [← hdrop gap cs hcs, h, hdrop gap' ds hds]
  subst hrest
  exact ⟨Subtype.ext (List.append_cancel_right h), rfl⟩

theorem pieces_unique (lead lead' : Blanks) (pieces pieces' : List (Lexeme × Blanks))
    (hchars : lead.val ++ spellPieces pieces = lead'.val ++ spellPieces pieces')
    (htokens : (pieces.map fun piece => piece.1.token) = pieces'.map fun piece => piece.1.token) :
    lead = lead' ∧ pieces = pieces' := by
  induction pieces generalizing lead lead' pieces' with
  | nil =>
      cases pieces' with
      | nil =>
          refine ⟨Subtype.ext ?_, rfl⟩
          simpa using hchars
      | cons piece' pieces' => simp at htokens
  | cons piece pieces ih =>
      cases pieces' with
      | nil => simp at htokens
      | cons piece' pieces' =>
          obtain ⟨rfl, hspell⟩ :=
            blanks_append_inj (spellPieces_head _) (spellPieces_head _) hchars
          simp only [List.map_cons, List.cons.injEq] at htokens
          obtain ⟨lexeme, gap⟩ := piece
          obtain ⟨lexeme', gap'⟩ := piece'
          obtain rfl := Lexeme.token_injective htokens.1
          rw [spellPieces_cons, spellPieces_cons] at hspell
          have hrest := List.append_cancel_left hspell
          obtain ⟨rfl, rfl⟩ := ih gap gap' pieces' hrest htokens.2
          exact ⟨rfl, rfl⟩

/-- A text can be cut up in one way only. -/
theorem segmentation_unique (cs : List Char) : Subsingleton (Segmentation cs) := by
  refine ⟨fun s s' => ?_⟩
  have htokens : s.tokens = s'.tokens :=
    lexes_unique (lexes_of_segmentation s) (lexes_of_segmentation s')
  obtain ⟨lead, pieces, hspell, hclosed⟩ := s
  obtain ⟨lead', pieces', hspell', hclosed'⟩ := s'
  obtain ⟨rfl, rfl⟩ := pieces_unique lead lead' pieces pieces' (hspell.trans hspell'.symm) htokens
  rfl

/-! ## Faults -/

/-- A row without tokens, or one whose last token is a mark. -/
def EndsInMark (ts : List Token) : Prop :=
  ∀ t ∈ ts.getLast?, t.kind = .mark

/-- A character that is no mark, not blank, and neither a letter nor a digit. -/
structure Misfit (c : Char) : Prop where
  notMark : ∀ m : Mark, m.char ≠ c
  notBlank : Text.isBlank c = false
  notLetterOrDigit : Text.isLetterOrDigit c = false

theorem endsInMark_nil : EndsInMark [] := nofun

theorem endsInMark_cons {t u : Token} {ts : List Token} :
    EndsInMark (t :: u :: ts) ↔ EndsInMark (u :: ts) := by
  simp [EndsInMark, List.getLast?_cons_cons]

theorem endsInMark_mark {m : Mark} {ts : List Token} :
    EndsInMark (.ofMark m :: ts) ↔ EndsInMark ts := by
  cases ts with
  | nil => simp [EndsInMark, Token.ofMark]
  | cons u us => exact endsInMark_cons

theorem not_endsInMark_word {text : String} : ¬ EndsInMark [.ofWord text] := by
  simp [EndsInMark, Token.ofWord]

/-- Behind some tokens a text goes on with a new lexeme: the last of them is no word, or a character
follows that ends a word. -/
def Seam (ts : List Token) (rest : List Char) : Prop :=
  EndsInMark ts ∨ ∀ c ∈ rest.head?, Reader.inWord c = false

theorem Seam.tail {t : Token} {ts : List Token} {rest : List Char} (h : Seam (t :: ts) rest) :
    Seam ts rest := by
  refine h.imp_left fun hend => ?_
  cases ts with
  | nil => exact endsInMark_nil
  | cons u us => exact endsInMark_cons.mp hend

/-- A text that can follow a word begins with a mark. -/
theorem Lexes.mark_first {c : Char} {cs : List Char} {ts : List Token} (h : Lexes (c :: cs) ts)
    (hc : Reader.inWord c = false) : ∃ m us, ts = .ofMark m :: us := by
  generalize hchars : c :: cs = chars at h
  cases h with
  | nil => cases hchars
  | blank hb _ =>
      cases hchars
      rw [not_isBlank_of_stop hc] at hb
      cases hb
  | mark m _ => exact ⟨m, _, rfl⟩
  | word htext _ _ =>
      obtain ⟨d, w, hw, -, hall⟩ := htext.exists_cons
      rw [hw] at hchars
      cases hchars
      rw [hall c List.mem_cons_self] at hc
      cases hc

/-- A word can stand before the text in front of a misfit. -/
theorem Misfit.stops_before {before : List Char} {c : Char} {after : List Char} (hc : Misfit c)
    (hstop : ∀ d ∈ (before ++ c :: after).head?, Reader.inWord d = false) :
    ∃ d ds, before = d :: ds ∧ Reader.inWord d = false := by
  cases before with
  | nil =>
      rcases inWord_eq_false_iff.mp (hstop c rfl) with rfl | rfl
      · exact absurd rfl (hc.notMark .closing)
      · exact absurd rfl (hc.notMark .separator)
  | cons d ds => exact ⟨d, ds, rfl, hstop d rfl⟩

namespace Reader

/-- At a seam the reader goes on as if it began there. -/
theorem drain_seam {cs : List Char} {ts : List Token} (h : Lexes cs ts) {rest : List Char}
    (hseam : Seam ts rest) (offset : Nat) :
    drain ⟨offset, cs ++ rest⟩ =
      (ts ++ (drain ⟨offset + cs.length, rest⟩).1, (drain ⟨offset + cs.length, rest⟩).2) := by
  induction h generalizing offset with
  | nil => rfl
  | @blank c cs ts hc _ ih =>
      have hoffset : offset + 1 + cs.length = offset + (c :: cs).length := by
        simp only [List.length_cons]
        omega
      rw [List.cons_append, drain_blank hc, ih hseam, hoffset]
  | @mark m cs ts _ ih =>
      have hoffset : offset + 1 + cs.length = offset + (m.char :: cs).length := by
        simp only [List.length_cons]
        omega
      rw [List.cons_append, drain_mark, ih hseam.tail, hoffset]
      rfl
  | @word text cs ts htext hstop hcs ih =>
      obtain ⟨c, w, hw, hc, hall⟩ := htext.exists_cons
      have hinner : ∀ d ∈ w, inWord d = true := fun d hd => hall d (List.mem_cons_of_mem c hd)
      have hstop' : ∀ d ∈ (cs ++ rest).head?, inWord d = false := by
        cases cs with
        | nil =>
            -- The word is the last lexeme, so the seam says what follows it.
            cases lexes_unique hcs .nil
            exact hseam.resolve_left not_endsInMark_word
        | cons d ds => exact hstop
      obtain ⟨htake, hdrop⟩ := Text.span_stops hinner hstop'
      have hword : text = String.ofList (c :: w) := by
        rw [← hw, String.ofList_toList]
      have hoffset : offset + 1 + w.length + cs.length =
          offset + (c :: w ++ cs).length := by
        simp only [List.cons_append, List.length_cons, List.length_append]
        omega
      rw [hw, List.append_assoc, List.cons_append, drain_word hc, htake, hdrop, ih hseam.tail,
        hoffset, ← hword]
      rfl

/-- Behind a text whose last lexeme is no word, the reader goes on as if it began there. -/
theorem drain_append {cs : List Char} {ts : List Token} (h : Lexes cs ts) (hend : EndsInMark ts)
    (rest : List Char) (offset : Nat) :
    drain ⟨offset, cs ++ rest⟩ =
      (ts ++ (drain ⟨offset + cs.length, rest⟩).1, (drain ⟨offset + cs.length, rest⟩).2) :=
  drain_seam h (.inl hend) offset

/-- The reader stops at the first character that fits nowhere. -/
theorem exists_misfit_of_drain {offset : Nat} {cs : List Char} {ts : List Token} {f : Fault}
    {r : Reader} (h : drain ⟨offset, cs⟩ = (ts, some f, r)) :
    ∃ before c after, cs = before ++ c :: after ∧ Lexes before ts ∧ EndsInMark ts ∧ Misfit c ∧
      f = .unexpectedCharacter c (offset + before.length) := by
  match cs, h with
  | [], h =>
      rw [drain_nil] at h
      cases h
  | c :: cs, h =>
      cases hm : Mark.ofChar? c with
      | some m =>
          obtain rfl := Mark.char_of_ofChar? hm
          rw [drain_mark] at h
          rcases hd : drain ⟨offset + 1, cs⟩ with ⟨us, f', r'⟩
          rw [hd] at h
          cases h
          obtain ⟨before, d, after, rfl, hlexes, hend, hmisfit, rfl⟩ := exists_misfit_of_drain hd
          refine ⟨m.char :: before, d, after, rfl, .mark m hlexes, endsInMark_mark.mpr hend,
            hmisfit, ?_⟩
          rw [List.length_cons, Nat.add_assoc, Nat.add_comm 1]
      | none =>
          cases hb : Text.isBlank c with
          | true =>
              rw [drain_blank hb] at h
              obtain ⟨before, d, after, rfl, hlexes, hend, hmisfit, rfl⟩ :=
                exists_misfit_of_drain h
              refine ⟨c :: before, d, after, rfl, .blank hb hlexes, hend, hmisfit, ?_⟩
              rw [List.length_cons, Nat.add_assoc, Nat.add_comm 1]
          | false =>
              cases hc : Text.isLetterOrDigit c with
              | false =>
                  rw [drain_other hm hb hc] at h
                  cases h
                  exact ⟨[], c, cs, rfl, .nil, endsInMark_nil,
                    ⟨Mark.ofChar?_eq_none_iff.mp hm, hb, hc⟩, rfl⟩
              | true =>
                  rw [drain_word hc] at h
                  rcases hd : drain ⟨offset + 1 + (cs.takeWhile inWord).length,
                    cs.dropWhile inWord⟩ with ⟨us, f', r'⟩
                  rw [hd] at h
                  cases h
                  have hlength := takeWhile_length_add inWord cs
                  obtain ⟨before, d, after, hrest, hlexes, hend, hmisfit, rfl⟩ :=
                    exists_misfit_of_drain hd
                  have hstops := dropWhile_stops cs
                  rw [hrest] at hstops
                  obtain ⟨e, es, rfl, he⟩ := hmisfit.stops_before hstops
                  obtain ⟨m, vs, rfl⟩ := hlexes.mark_first he
                  have hword : Lexable (String.ofList (c :: cs.takeWhile inWord)) :=
                    lexable_of_cons hc (List.all_eq_true.mp List.all_takeWhile)
                  have hhead : ∀ x ∈ (e :: es).head?, inWord x = false := by
                    intro x hx
                    cases hx
                    exact he
                  refine ⟨_, d, after, ?_, .word hword hhead hlexes, endsInMark_cons.mpr hend,
                    hmisfit, ?_⟩
                  · rw [String.toList_ofList, List.append_assoc, ← hrest, List.cons_append,
                      List.takeWhile_append_dropWhile]
                  · simp only [String.toList_ofList, List.length_append, List.length_cons,
                      Fault.unexpectedCharacter.injEq, true_and]
                    omega
termination_by cs.length
decreasing_by
  all_goals simp only [List.length_cons]
  all_goals omega

/-- Where the reader stops, and for which reason. -/
theorem drain_error_iff {offset : Nat} {cs : List Char} {f : Fault} :
    (∃ ts r, drain ⟨offset, cs⟩ = (ts, some f, r)) ↔
      ∃ before c after ts, cs = before ++ c :: after ∧ Lexes before ts ∧ EndsInMark ts ∧ Misfit c ∧
        f = .unexpectedCharacter c (offset + before.length) := by
  constructor
  · rintro ⟨ts, r, h⟩
    obtain ⟨before, c, after, hcs, hlexes, hend, hc, hf⟩ := exists_misfit_of_drain h
    exact ⟨before, c, after, ts, hcs, hlexes, hend, hc, hf⟩
  · rintro ⟨before, c, after, ts, rfl, hlexes, hend, hc, rfl⟩
    have hmark : Mark.ofChar? c = none := Mark.ofChar?_eq_none_iff.mpr hc.notMark
    have hdrain := drain_append hlexes hend (c :: after) offset
    rw [drain_other hmark hc.notBlank hc.notLetterOrDigit] at hdrain
    exact ⟨_, _, hdrain⟩

end Reader

/-- At a seam the tokens of a text can be parted. -/
theorem lexes_append_iff {cs rest : List Char} {ts all : List Token} (hcs : Lexes cs ts)
    (hseam : Seam ts rest) :
    Lexes (cs ++ rest) all ↔ ∃ us, Lexes rest us ∧ all = ts ++ us := by
  have hdrain := Reader.drain_seam hcs hseam 0
  constructor
  · intro h
    rw [Reader.drain_lexes h] at hdrain
    rcases hrest : Reader.drain ⟨0 + cs.length, rest⟩ with ⟨us, f, r⟩
    rw [hrest] at hdrain
    cases hdrain
    exact ⟨us, Reader.lexes_of_drain hrest, rfl⟩
  · rintro ⟨us, hus, rfl⟩
    rw [Reader.drain_lexes hus] at hdrain
    exact Reader.lexes_of_drain hdrain

/-! ## Tokens and faults of a source -/

/-- The pass over the literals keeps what is told of the last token, if a word has it exactly when a
literal with its text has it. -/
theorem forall_last_literalsFrom {P : Token → Prop}
    (hP : ∀ t : Token, t.kind = .word → (P (.ofLiteral t.text) ↔ P t)) (afterBar : Bool)
    (ts : List Token) :
    (∀ t ∈ (Token.literalsFrom afterBar ts).getLast?, P t) ↔ ∀ t ∈ ts.getLast?, P t := by
  induction ts generalizing afterBar with
  | nil => rfl
  | cons t ts ih =>
      cases ts with
      | nil =>
          simp only [Token.literalsFrom, List.getLast?_singleton, Option.mem_some_iff, forall_eq']
          by_cases hword : (afterBar && t.kind == .word) = true
          · rw [if_pos hword]
            exact hP t (by simpa using (Bool.and_eq_true_iff.mp hword).2)
          · rw [if_neg hword]
      | cons u ts =>
          have hrest := ih (t.isMark .separator)
          rw [Token.literalsFrom] at hrest
          rw [Token.literalsFrom, Token.literalsFrom, List.getLast?_cons_cons,
            List.getLast?_cons_cons]
          exact hrest

theorem endsInMark_listing {literals : Bool} {ts : List Token} :
    EndsInMark (Token.listing literals ts) ↔ EndsInMark ts := by
  cases literals with
  | false => rfl
  | true =>
      refine forall_last_literalsFrom ?_ false ts
      intro t hword
      simp [hword, Token.ofLiteral]

/-- The character at `i` is where reading a source fails: what stands before it can be read and does
not end with a word, and the character itself fits nowhere. -/
structure FailsAt (literals : Bool) (source : String) (i : Nat) (c : Char) : Prop where
  char : source.toList[i]? = some c
  before : ∃ ts, tokenize literals (String.ofList (source.toList.take i)) = .ok ts ∧ EndsInMark ts
  misfit : Misfit c

theorem tokenize_eq_error_iff {literals : Bool} {source : String} {f : Fault} :
    tokenize literals source = .error f ↔
      ∃ ts r, Reader.drain ⟨0, source.toList⟩ = (ts, some f, r) := by
  rw [tokenize_eq]
  rcases Reader.drain ⟨0, source.toList⟩ with ⟨ts, _ | g, r⟩
  · simp
  · simp

theorem tokenize_fails_iff {literals : Bool} {source : String} {f : Fault} :
    tokenize literals source = .error f ↔
      ∃ i c, FailsAt literals source i c ∧ f = .unexpectedCharacter c i := by
  rw [tokenize_eq_error_iff, Reader.drain_error_iff]
  constructor
  · rintro ⟨before, c, after, ts, hcs, hlexes, hend, hc, rfl⟩
    refine ⟨before.length, c, ⟨?_, ⟨Token.listing literals ts, ?_, ?_⟩, hc⟩, ?_⟩
    · rw [hcs]
      simp
    · refine tokenize_eq_ok_iff.mpr ⟨ts, ?_, rfl⟩
      rw [String.toList_ofList, hcs, List.take_left]
      exact hlexes
    · exact endsInMark_listing.mpr hend
    · rw [Nat.zero_add]
  · rintro ⟨i, c, ⟨hchar, ⟨ts, hts, hend⟩, hc⟩, rfl⟩
    obtain ⟨raw, hraw, rfl⟩ := tokenize_eq_ok_iff.mp hts
    rw [String.toList_ofList] at hraw
    obtain ⟨hi, hget⟩ := List.getElem?_eq_some_iff.mp hchar
    refine ⟨source.toList.take i, c, source.toList.drop (i + 1), raw, ?_, hraw,
      endsInMark_listing.mp hend, hc, ?_⟩
    · rw [← hget, ← List.drop_eq_getElem_cons hi, List.take_append_drop]
    · rw [List.length_take_of_le (Nat.le_of_lt hi), Nat.zero_add]

/-- **Reading tokens is exact.**  Without the pass over the literals, a source has the tokens of its
segmentation, of which there is at most one.  Reading fails, with or without the pass, exactly at a
character that fits nowhere behind a text that can be read and does not end with a word; the fault
tells this character and its place, and there is no other fault. -/
theorem tokenize_exact (source : String) :
    (∀ ts, tokenize false source = .ok ts ↔
      ∃ s : Segmentation source.toList, s.tokens = ts) ∧
    Subsingleton (Segmentation source.toList) ∧
    (∀ literals i c,
      tokenize literals source = .error (.unexpectedCharacter c i) ↔
        FailsAt literals source i c) ∧
    (∀ literals, (∃ ts, tokenize literals source = .ok ts) ∨
      ∃ i c, FailsAt literals source i c ∧
        ∃ f, tokenize literals source = .error f ∧ f.diagnostic.code = "E001" ∧
          f.diagnostic = .unexpectedCharacter (String.singleton c) i) := by
  refine ⟨?_, segmentation_unique _, ?_, ?_⟩
  · intro ts
    rw [tokenize_eq_ok_iff]
    constructor
    · rintro ⟨raw, hraw, rfl⟩
      exact exists_segmentation hraw
    · rintro ⟨s, rfl⟩
      exact ⟨s.tokens, lexes_of_segmentation s, rfl⟩
  · intro literals i c
    rw [tokenize_fails_iff]
    constructor
    · rintro ⟨j, d, hfails, heq⟩
      cases heq
      exact hfails
    · intro hfails
      exact ⟨i, c, hfails, rfl⟩
  · intro literals
    cases h : tokenize literals source with
    | ok ts => exact Or.inl ⟨ts, rfl⟩
    | error f =>
        obtain ⟨i, c, hfails, rfl⟩ := tokenize_fails_iff.mp h
        exact Or.inr ⟨i, c, hfails, _, rfl, rfl, rfl⟩

end BracketCall
