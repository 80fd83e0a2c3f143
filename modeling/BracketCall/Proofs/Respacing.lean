import BracketCall.Proofs.Concatenation

/-!
# Blanks put into a source

Blanks may be put between two lexemes of a source, and nothing changes but the places of faults.
Behind the beginning of a word they become a part of the word, wherever it goes on.

Which of the two it is depends only on the text before the blanks: on whether its last token is a word.
The text behind them may even be one that cannot be read.

**Method.**  The text before the blanks ends at a seam, or the word at its end does so once it is
made as long as it will be.  In both cases `lexes_append_iff` parts the tokens of the whole text there,
and the second part is the same with and without the blanks.  A fault lies behind a text that can be
read, and the blanks are put into this text.

**Results.**
* `Lexes.blanks_between`, `Lexes.blanks_in_word`: the tokens of a text with blanks put into it.
* `drain_respaced`: its fault.
* `tokenize_respaced`: the tokens and the fault of a source, with or without the pass over literals.
-/

namespace BracketCall

/-! ## Words that are made longer -/

theorem inWord_of_isBlank {c : Char} (h : Text.isBlank c = true) : Reader.inWord c = true := by
  cases hc : Reader.inWord c with
  | true => rfl
  | false =>
      rw [not_isBlank_of_stop hc] at h
      cases h

theorem Lexable.extend {text : String} (h : Lexable text) {inner : List Char}
    (hinner : ∀ c ∈ inner, Reader.inWord c = true) : Lexable (text ++ String.ofList inner) := by
  obtain ⟨c, cs, hcs, hc, hall⟩ := h.exists_cons
  have htext : text ++ String.ofList inner = String.ofList (c :: (cs ++ inner)) := by
    rw [← String.toList_inj, String.toList_append, String.toList_ofList, String.toList_ofList, hcs,
      List.cons_append]
  rw [htext]
  refine lexable_of_cons hc ?_
  intro d hd
  rcases List.mem_append.mp hd with hd | hd
  · exact hall d (List.mem_cons_of_mem c hd)
  · exact hinner d hd

theorem Lexes.endsInMark_or_word {cs : List Char} {ts : List Token} (h : Lexes cs ts) :
    EndsInMark ts ∨ ∃ us text, ts = us ++ [.ofWord text] := by
  rcases List.eq_nil_or_concat ts with rfl | ⟨us, t, rfl⟩
  · exact .inl endsInMark_nil
  rw [List.concat_eq_append] at h ⊢
  obtain ⟨lexeme, rfl⟩ := h.exists_lexeme (List.mem_append_right us (List.mem_singleton_self t))
  cases lexeme with
  | mark m =>
      refine .inl fun t ht => ?_
      rw [List.getLast?_concat] at ht
      cases ht
      rfl
  | word text _ => exact .inr ⟨us, text, rfl⟩

/-- Behind a longer word a row ends as it does behind a shorter one. -/
theorem EndsInMark.replace_word {us after : List Token} {text : String}
    (h : EndsInMark (us ++ .ofWord text :: after)) (other : String) :
    EndsInMark (us ++ .ofWord other :: after) := by
  cases after with
  | nil => cases h _ List.getLast?_concat
  | cons t after =>
      intro u hu
      refine h u ?_
      rw [List.getLast?_append, List.getLast?_cons_cons] at hu ⊢
      exact hu

/-! ## Tokens -/

section Chars

variable {cs gap rest : List Char} {ts all : List Token}

/-- Between two lexemes blanks do not count. -/
theorem Lexes.blanks_between (hcs : Lexes cs ts) (hend : EndsInMark ts)
    (hgap : ∀ c ∈ gap, Text.isBlank c = true) (h : Lexes (cs ++ rest) all) :
    Lexes (cs ++ (gap ++ rest)) all := by
  obtain ⟨us, hus, rfl⟩ := (lexes_append_iff hcs (.inl hend)).mp h
  exact (lexes_append_iff hcs (.inl hend)).mpr ⟨us, lexes_blanks ⟨gap, hgap⟩ hus, rfl⟩

/-- A word at the end of a text takes in what goes on with it. -/
theorem Lexes.word_append_iff {lead : List Char} {text : String}
    (hword : ∀ other, Lexable other → Lexes (lead ++ other.toList) (ts ++ [.ofWord other]))
    (htext : Lexable text) {inner : List Char} (hinner : ∀ c ∈ inner, Reader.inWord c = true)
    (hrest : ∀ c ∈ rest.head?, Reader.inWord c = false) :
    Lexes (lead ++ text.toList ++ (inner ++ rest)) all ↔
      ∃ after, Lexes rest after ∧ all = ts ++ .ofWord (text ++ String.ofList inner) :: after := by
  have hlonger := hword _ (htext.extend hinner)
  have hchars : lead ++ (text ++ String.ofList inner).toList ++ rest =
      lead ++ text.toList ++ (inner ++ rest) := by
    simp only [String.toList_append, String.toList_ofList, List.append_assoc]
  rw [← hchars, lexes_append_iff hlonger (.inr hrest)]
  simp only [List.append_assoc, List.cons_append, List.nil_append]

/-- Inside a word blanks become a part of it. -/
theorem Lexes.blanks_in_word {text : String} (hcs : Lexes cs (ts ++ [.ofWord text]))
    (hgap : ∀ c ∈ gap, Text.isBlank c = true) (h : Lexes (cs ++ rest) all) :
    ∃ more after behind, rest = more ++ behind ∧
      all = ts ++ .ofWord (text ++ String.ofList more) :: after ∧
      Lexes (cs ++ (gap ++ rest))
        (ts ++ .ofWord (text ++ String.ofList gap ++ String.ofList more) :: after) := by
  obtain ⟨htext, lead, rfl, hword⟩ := hcs.last_word rfl
  have hmore : ∀ c ∈ rest.takeWhile Reader.inWord, Reader.inWord c = true :=
    List.all_eq_true.mp List.all_takeWhile
  have hlonger : ∀ c ∈ gap ++ rest.takeWhile Reader.inWord, Reader.inWord c = true := by
    intro c hc
    rcases List.mem_append.mp hc with hc | hc
    · exact inWord_of_isBlank (hgap c hc)
    · exact hmore c hc
  have hsplit : rest = rest.takeWhile Reader.inWord ++ rest.dropWhile Reader.inWord :=
    List.takeWhile_append_dropWhile.symm
  have hbehind := Reader.dropWhile_stops rest
  generalize rest.takeWhile Reader.inWord = more at *
  generalize rest.dropWhile Reader.inWord = behind at *
  subst hsplit
  obtain ⟨after, hafter, hall⟩ := (word_append_iff hword htext hmore hbehind).mp h
  refine ⟨more, after, behind, rfl, hall, ?_⟩
  have hwhole := (word_append_iff hword htext hlonger hbehind).mpr ⟨after, hafter, rfl⟩
  rwa [List.append_assoc gap, String.ofList_append, ← String.append_assoc] at hwhole

/-! ## Faults -/

/-- Blanks can be put into every text that can be read, and whether its last token is a mark stays
the same. -/
theorem Lexes.exists_respaced (hcs : Lexes cs ts) (hgap : ∀ c ∈ gap, Text.isBlank c = true)
    (h : Lexes (cs ++ rest) all) (hend : EndsInMark all) :
    ∃ all', Lexes (cs ++ (gap ++ rest)) all' ∧ EndsInMark all' := by
  rcases hcs.endsInMark_or_word with hmark | ⟨us, text, rfl⟩
  · exact ⟨all, hcs.blanks_between hmark hgap h, hend⟩
  · obtain ⟨more, after, behind, -, rfl, hwhole⟩ := hcs.blanks_in_word hgap h
    exact ⟨_, hwhole, hend.replace_word _⟩

/-- A fault lies behind every beginning of the text that can be read. -/
theorem Lexes.misfit_behind (hcs : Lexes cs ts) {before after : List Char} {c : Char}
    {us : List Token} (hsplit : cs ++ rest = before ++ c :: after) (hbefore : Lexes before us)
    (hend : EndsInMark us) (hc : Misfit c) :
    ∃ inner, before = cs ++ inner ∧ rest = inner ++ c :: after := by
  rcases List.append_eq_append_iff.mp hsplit with hbehind | ⟨inner, rfl, hinner⟩
  · exact hbehind
  cases inner with
  | nil => exact ⟨[], by simp, hinner.symm⟩
  | cons d inner =>
      -- The beginning would hold the fault.
      obtain ⟨rfl, -⟩ := List.cons.inj hinner
      have hfault : ∃ vs r, Reader.drain ⟨0, before ++ c :: inner⟩ =
          (vs, some (.unexpectedCharacter c (0 + before.length)), r) :=
        Reader.drain_error_iff.mpr ⟨before, c, inner, us, rfl, hbefore, hend, hc, rfl⟩
      obtain ⟨vs, r, hdrain⟩ := hfault
      rw [Reader.drain_lexes hcs] at hdrain
      cases hdrain

/-- A fault is met later by as many characters as blanks were put before it. -/
theorem Reader.drain_respaced (hcs : Lexes cs ts) (hgap : ∀ c ∈ gap, Text.isBlank c = true)
    {f : Fault} (h : ∃ us r, drain ⟨0, cs ++ rest⟩ = (us, some f, r)) :
    ∃ us r, drain ⟨0, cs ++ (gap ++ rest)⟩ = (us, some (f.shift gap.length), r) := by
  obtain ⟨before, c, after, us, hsplit, hbefore, hend, hc, rfl⟩ := drain_error_iff.mp h
  obtain ⟨inner, rfl, rfl⟩ := hcs.misfit_behind hsplit hbefore hend hc
  obtain ⟨us', hus', hend'⟩ := hcs.exists_respaced hgap hbefore hend
  refine drain_error_iff.mpr ⟨cs ++ (gap ++ inner), c, after, us', ?_, hus', hend', hc, ?_⟩
  · simp only [List.append_assoc]
  · simp only [Fault.shift, List.length_append, Fault.unexpectedCharacter.injEq, true_and]
    omega

end Chars

/-! ## Sources -/

/-- A word becomes a token of one kind, whatever its text is and whatever stands behind it. -/
theorem Token.listing_word (literals : Bool) (us : List Token) :
    ∃ kind, ∀ text after, listing literals (us ++ ofWord text :: after) =
      listing literals us ++ ⟨kind, text, none⟩ :: listing literals after := by
  cases literals with
  | false => exact ⟨.word, fun text after => rfl⟩
  | true =>
      obtain ⟨b, hb⟩ := literalsFrom_append false us
      refine ⟨if b then .literal else .word, fun text after => ?_⟩
      have hword := hb (ofWord text :: after)
      rw [literalsFrom_word] at hword
      cases b with
      | false => exact hword
      | true => exact hword

section Sources

variable {literals : Bool} {source gap : String} {ts : List Token}

theorem tokenize_blanks_between (hgap : ∀ c ∈ gap.toList, Text.isBlank c = true)
    (hsource : tokenize literals source = .ok ts) (hend : EndsInMark ts) {later : String}
    {all : List Token} (h : tokenize literals (source ++ later) = .ok all) :
    tokenize literals (source ++ gap ++ later) = .ok all := by
  obtain ⟨raw, hraw, rfl⟩ := tokenize_eq_ok_iff.mp hsource
  obtain ⟨rawAll, hrawAll, rfl⟩ := tokenize_eq_ok_iff.mp h
  rw [String.toList_append] at hrawAll
  have hrespaced := hraw.blanks_between (endsInMark_listing.mp hend) hgap hrawAll
  refine tokenize_eq_ok_iff.mpr ⟨rawAll, ?_, rfl⟩
  rwa [String.toList_append, String.toList_append, List.append_assoc]

theorem tokenize_blanks_in_word (hgap : ∀ c ∈ gap.toList, Text.isBlank c = true) {t : Token}
    (hsource : tokenize literals source = .ok (ts ++ [t])) (hkind : t.kind ≠ .mark) {later : String}
    {all : List Token} (h : tokenize literals (source ++ later) = .ok all) :
    ∃ lead more behind after, source = lead ++ t.text ∧ later = more ++ behind ∧
      all = ts ++ { t with text := t.text ++ more } :: after ∧
      tokenize literals (source ++ gap ++ later) =
        .ok (ts ++ { t with text := t.text ++ gap ++ more } :: after) := by
  obtain ⟨raw, hraw, hlisting⟩ := tokenize_eq_ok_iff.mp hsource
  obtain ⟨rawAll, hrawAll, rfl⟩ := tokenize_eq_ok_iff.mp h
  rw [String.toList_append] at hrawAll
  rcases hraw.endsInMark_or_word with hmark | ⟨us, text, rfl⟩
  · have hlast : EndsInMark (Token.listing literals raw) := endsInMark_listing.mpr hmark
    rw [hlisting] at hlast
    exact absurd (hlast t List.getLast?_concat) hkind
  obtain ⟨kind, hlist⟩ := Token.listing_word literals us
  rw [hlist] at hlisting
  have hempty : Token.listing literals [] = [] := by
    cases literals <;> rfl
  rw [hempty] at hlisting
  obtain ⟨rfl, ht⟩ := List.append_inj' hlisting rfl
  obtain rfl : Token.mk kind text none = t := (List.cons.inj ht).1
  obtain ⟨-, lead, hlead, -⟩ := hraw.last_word rfl
  obtain ⟨more, after, behind, hlater, rfl, hrespaced⟩ := hraw.blanks_in_word hgap hrawAll
  refine ⟨String.ofList lead, String.ofList more, String.ofList behind,
    Token.listing literals after, ?_, ?_, hlist _ _, ?_⟩
  · rw [← String.toList_inj, hlead, String.toList_append, String.toList_ofList]
  · rw [← String.toList_inj, hlater, String.toList_append, String.toList_ofList,
      String.toList_ofList]
  · refine tokenize_eq_ok_iff.mpr ⟨_, ?_, hlist _ _⟩
    rw [String.ofList_toList] at hrespaced
    rwa [String.toList_append, String.toList_append, List.append_assoc]

theorem tokenize_blanks_error (hgap : ∀ c ∈ gap.toList, Text.isBlank c = true)
    (hsource : tokenize literals source = .ok ts) {later : String} {f : Fault}
    (h : tokenize literals (source ++ later) = .error f) :
    tokenize literals (source ++ gap ++ later) = .error (f.shift gap.length) := by
  obtain ⟨raw, hraw, -⟩ := tokenize_eq_ok_iff.mp hsource
  rw [tokenize_eq_error_iff, String.toList_append] at h
  rw [tokenize_eq_error_iff, String.toList_append, String.toList_append, List.append_assoc]
  exact Reader.drain_respaced hraw hgap h

end Sources

/-- **Blanks put into a source**, behind a beginning of it that can be read.

If this beginning has no tokens, or its last one is a mark, the tokens of the whole source stay as they
are.  Otherwise its last token is the beginning of a word or literal of the whole source; the blanks
are then found in the text of this one token, where the beginning ended, and all other tokens stay.  A
fault of the source is found later by as many characters as there are blanks. -/
theorem tokenize_respaced {literals : Bool} {source gap : String} {ts : List Token}
    (hgap : ∀ c ∈ gap.toList, Text.isBlank c = true) (hsource : tokenize literals source = .ok ts)
    (later : String) :
    (EndsInMark ts → ∀ all, tokenize literals (source ++ later) = .ok all →
      tokenize literals (source ++ gap ++ later) = .ok all) ∧
    (∀ before t, ts = before ++ [t] → t.kind ≠ .mark →
      ∀ all, tokenize literals (source ++ later) = .ok all →
        ∃ lead more behind after, source = lead ++ t.text ∧ later = more ++ behind ∧
          all = before ++ { t with text := t.text ++ more } :: after ∧
          tokenize literals (source ++ gap ++ later) =
            .ok (before ++ { t with text := t.text ++ gap ++ more } :: after)) ∧
    ∀ f, tokenize literals (source ++ later) = .error f →
      ∃ g, tokenize literals (source ++ gap ++ later) = .error g ∧ f.Later gap.length g := by
  refine ⟨?_, ?_, ?_⟩
  · intro hend all hall
    exact tokenize_blanks_between hgap hsource hend hall
  · rintro before t rfl hkind all hall
    exact tokenize_blanks_in_word hgap hsource hkind hall
  · intro f hf
    exact ⟨f.shift gap.length, tokenize_blanks_error hgap hsource hf,
      Fault.later_shift (offset_isSome_of_tokenize hf) _⟩

/-- A blank and a tab behind a separator, then behind the first letter of a literal, and at last with a
character behind them that fits nowhere. -/
theorem tokenize_respaced_literal :
    (∀ c ∈ " \t".toList, Text.isBlank c = true) ∧
    tokenize true ("[[f|" ++ " \t" ++ "ab]]") = tokenize true ("[[f|" ++ "ab]]") ∧
    tokenize true ("[[f|a" ++ " \t" ++ "b]]") =
      .ok [.ofMark .opening, .ofMark .opening, .ofWord "f", .ofMark .separator, .ofLiteral "a \tb",
        .ofMark .closing, .ofMark .closing] ∧
    ∃ g, tokenize true ("[[f|a" ++ " \t" ++ "b]]!") = .error g ∧ g.diagnostic.offset = some 10 := by
  have hgap : ∀ c ∈ " \t".toList, Text.isBlank c = true :=
    List.forall_mem_cons.mpr ⟨rfl, List.forall_mem_singleton.mpr rfl⟩
  have hmark : tokenize true "[[f|" =
      .ok [.ofMark .opening, .ofMark .opening, .ofWord "f", .ofMark .separator] := by
    cbv
  have hword : tokenize true "[[f|a" =
      .ok ([.ofMark .opening, .ofMark .opening, .ofWord "f", .ofMark .separator] ++
        [.ofLiteral "a"]) := by
    cbv
  have hwhole : tokenize true ("[[f|" ++ "ab]]") =
      .ok [.ofMark .opening, .ofMark .opening, .ofWord "f", .ofMark .separator, .ofLiteral "ab",
        .ofMark .closing, .ofMark .closing] := by
    cbv
  have hfault : tokenize true ("[[f|a" ++ "b]]!") = .error (.unexpectedCharacter '!' 8) := by
    cbv
  have hend : EndsInMark [.ofMark .opening, .ofMark .opening, .ofWord "f", .ofMark .separator] := by
    intro t ht
    cases ht
    rfl
  refine ⟨hgap, ?_, ?_, ?_⟩
  · rw [hwhole]
    exact (tokenize_respaced hgap hmark "ab]]").1 hend _ hwhole
  · obtain ⟨lead, more, behind, after, -, -, hall, hrespaced⟩ :=
      (tokenize_respaced hgap hword "b]]").2.1 _ _ rfl (by decide) _ hwhole
    simp only [List.cons_append, List.nil_append, List.cons.injEq, true_and] at hall
    obtain ⟨htoken, rfl⟩ := hall
    have htext : "a" ++ "b" = "a" ++ more := congrArg Token.text htoken
    obtain rfl := (String.append_right_inj "a").mp htext
    exact hrespaced
  · obtain ⟨g, hg, i, hi, hlater⟩ := (tokenize_respaced hgap hword "b]]!").2.2 _ hfault
    cases hi
    exact ⟨g, hg, by rw [hlater]; rfl⟩

end BracketCall
