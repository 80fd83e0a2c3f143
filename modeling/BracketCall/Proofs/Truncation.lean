import BracketCall.Proofs.EarliestFault
import BracketCall.Proofs.Segmentation
import BracketCall.Proofs.SourceImage
import Mathlib.Data.List.Permutation

/-!
# Sources that break off

The beginning of a source that can be read is read without any fault of the lexer.  Its tokens are
a first part of the tokens of the whole, except that the last one may be a word that lost its end.
The parser then either runs out of tokens, or gives a first part of the statements.  A cut inside a
word at the very end of a source gives a shorter word, and no other cut changes a statement that it
leaves over.

**Method.**  `Cut` relates the tokens before and after the cut; which word may be shortened, and to
what, is left open as a relation between tokens.  By recursion over a derivation, a reader that is
given a cut row of tokens has its whole phrase, or runs out of tokens, or has a shortened word.

**Results.**
* `readStatement_cut`, `readArguments_cut`, `statements_cut`: the parser on a cut row of tokens.
* `Lexes.breaksOff`: the tokens of the beginning of a source.
* `parseSource_take`: the two together.
-/

namespace BracketCall

/-- A fault for which the end of the tokens, at position `n`, is to blame. -/
def Fault.AtEnd (n : Nat) (f : Fault) : Prop :=
  (∃ expected, f = .unexpectedEnd expected n) ∨ f = .expectedClosing none n

theorem Fault.AtEnd.offset {n : Nat} {f : Fault} (h : f.AtEnd n) :
    f.diagnostic.offset = some (n : Int) := by
  rcases h with ⟨expected, rfl⟩ | rfl
  · rfl
  · rfl

namespace Parser

/-! ## Cut rows of tokens -/

/-- The first row is what a cut leaves of the second.  A last token `t` may have become `u` if
`Shortens t u`. -/
inductive Cut (Shortens : Token → Token → Prop) : List Token → List Token → Prop
  | nil {ts : List Token} : Cut Shortens [] ts
  | within {t u : Token} {ts : List Token} : Shortens t u → Cut Shortens [u] (t :: ts)
  | cons {t : Token} {us ts : List Token} : Cut Shortens us ts → Cut Shortens (t :: us) (t :: ts)

/-- Marks are not shortened, and a shortened token has the kind that it had. -/
def KeepsKind (Shortens : Token → Token → Prop) : Prop :=
  ∀ t u, Shortens t u → t.kind ≠ .mark ∧ u.kind = t.kind

/-- A reader fails because its tokens end at position `n`. -/
def RunsOut {α : Type} (n : Nat) (r : Except Fault α) : Prop :=
  ∃ f, r = .error f ∧ f.AtEnd n

theorem RunsOut.bind {α β : Type} {n : Nat} {r : Except Fault α} (h : RunsOut n r)
    (next : α → Except Fault β) : RunsOut n (r >>= next) := by
  obtain ⟨f, rfl, hf⟩ := h
  exact ⟨f, rfl, hf⟩

theorem runsOut_unexpectedEnd {α : Type} (expected : Expectation) (n : Nat) :
    RunsOut n (.error (.unexpectedEnd expected n) : Except Fault α) :=
  ⟨_, rfl, Or.inl ⟨expected, rfl⟩⟩

section Cuts

variable {Shortens : Token → Token → Prop}

theorem cut_append (us vs : List Token) : Cut Shortens us (us ++ vs) := by
  induction us with
  | nil => exact .nil
  | cons t us ih => exact .cons ih

theorem cut_append_within {t u : Token} (h : Shortens t u) (us vs : List Token) :
    Cut Shortens (us ++ [u]) (us ++ t :: vs) := by
  induction us with
  | nil => exact .within h
  | cons t' us ih => exact .cons ih

variable (hkeep : KeepsKind Shortens)
include hkeep

/-- A cut falls before a mark or behind it. -/
theorem Cut.at_mark {m : Mark} {a : MarkToken m} {us ts : List Token}
    (h : Cut Shortens us (a.val :: ts)) : us = [] ∨ ∃ vs, us = a.val :: vs ∧ Cut Shortens vs ts := by
  cases h with
  | nil => exact Or.inl rfl
  | within hu => exact absurd (Token.kind_of_isMark a.property) (hkeep _ _ hu).1
  | cons h => exact Or.inr ⟨_, rfl, h⟩

/-- The first token of a cut row is the mark that it was. -/
theorem Cut.isMark_first {t u : Token} {us ts : List Token} (h : Cut Shortens (u :: us) (t :: ts))
    (m : Mark) : u.isMark m = t.isMark m := by
  cases h with
  | within hu =>
      obtain ⟨hmark, hkind⟩ := hkeep _ _ hu
      rw [Token.not_isMark_of_kind rfl hmark m, Token.not_isMark_of_kind hkind hmark m]
  | cons h => rfl

/-- A shortened word or literal is a phrase again. -/
theorem exists_shorter_phrase {phrase : Phrase} {t u : Token} (hu : Shortens t u)
    (hyield : phrase.yield = [t]) :
    ∃ shorter : Phrase, shorter.yield = [u] := by
  obtain ⟨-, hkind⟩ := hkeep _ _ hu
  cases phrase with
  | word token =>
      cases hyield
      exact ⟨.word ⟨u, hkind.trans token.property⟩, rfl⟩
  | literal token =>
      cases hyield
      exact ⟨.literal ⟨u, hkind.trans token.property⟩, rfl⟩
  | reference a b n c d => cases hyield
  | call a b n bar args c d => cases hyield

/-! ## The parser on a cut row -/

theorem readClosing_cut {p : Nat} {d : MarkToken .closing} {us rest : List Token}
    (h : Cut Shortens us (d.val :: rest)) :
    RunsOut (p + us.length) (readClosing ⟨p, us⟩) ∨
      ∃ vs, us = d.val :: vs ∧ Cut Shortens vs rest := by
  rcases h.at_mark hkeep with rfl | hvs
  · exact Or.inl ⟨_, rfl, Or.inr rfl⟩
  · exact Or.inr hvs

/-- The first half of a construct: it is there up to the name and more, or the tokens run out. -/
theorem head_cut {p : Nat} {a b : MarkToken .opening} {n : KindToken .word} {us ts : List Token}
    (h : Cut Shortens us (a.val :: b.val :: n.val :: ts)) :
    RunsOut (p + us.length) (readStatement ⟨p, us⟩) ∨
      ∃ v vs, us = a.val :: b.val :: n.val :: v :: vs ∧ Cut Shortens (v :: vs) ts := by
  rcases h.at_mark hkeep with rfl | ⟨vs, rfl, hvs⟩
  · exact Or.inl (runsOut_unexpectedEnd _ _)
  rcases hvs.at_mark hkeep with rfl | ⟨ws, rfl, hws⟩
  · exact Or.inl ⟨_, readStatement_of_readHead a.property rfl, Or.inl ⟨_, rfl⟩⟩
  have hname : ∀ u : Token, u.kind = .word →
      RunsOut (p + 3) (readStatement ⟨p, [a.val, b.val, u]⟩) := by
    intro u hu
    refine ⟨.unexpectedEnd .separatorOrClosing (p + 3), ?_, Or.inl ⟨_, rfl⟩⟩
    refine readStatement_of_readHead a.property ?_
    simp [readHead, plain, head, b.property, hu, Except.map]
  cases hws with
  | nil =>
      refine Or.inl ⟨.unexpectedEnd .name (p + 2), ?_, Or.inl ⟨_, rfl⟩⟩
      refine readStatement_of_readHead a.property ?_
      simp [readHead, plain, head, b.property, Except.map]
  | within hu => exact Or.inl (hname _ ((hkeep _ _ hu).2.trans n.property))
  | @cons t xs ts hxs =>
      cases xs with
      | nil => exact Or.inl (hname _ n.property)
      | cons x xs => exact Or.inr ⟨x, xs, rfl, hxs⟩

/-- What is left of the tokens of a phrase: all of them, or too few, or one that was shortened. -/
def PhraseCut (Shortens : Token → Token → Prop) (p : Nat) (phrase : Phrase) (us rest : List Token) :
    Prop :=
  (∃ vs, us = phrase.yield ++ vs ∧ Cut Shortens vs rest) ∨
    RunsOut (p + us.length) (readStatement ⟨p, us⟩) ∨
    ∃ t u, Shortens t u ∧ phrase.yield = [t] ∧ us = [u]

/-- What is left of the tokens of arguments: all of them with the bracket behind, or too few. -/
def ArgumentsCut (Shortens : Token → Token → Prop) (p : Nat) (phrases : ArgumentPhrases)
    (c : MarkToken .closing) (us rest : List Token) : Prop :=
  RunsOut (p + us.length) (readArguments ⟨p, us⟩) ∨
    ∃ vs, us = phrases.yield ++ c.val :: vs ∧ Cut Shortens vs rest

/-- A statement that was cut, and the arguments behind it. -/
theorem readMore_cut {p : Nat} {phrase : Phrase} {later : ArgumentPhrases} {c : MarkToken .closing}
    {us rest : List Token}
    (hphrase : PhraseCut Shortens p phrase us (later.yield ++ c.val :: rest))
    (hlater : ∀ q vs, Cut Shortens vs (later.yield ++ c.val :: rest) →
      ArgumentsCut Shortens q later c vs rest) :
    RunsOut (p + us.length) (readStatement ⟨p, us⟩ >>= readMore) ∨
      ∃ vs, us = phrase.yield ++ (later.yield ++ c.val :: vs) ∧ Cut Shortens vs rest := by
  rcases hphrase with ⟨vs, rfl, hvs⟩ | hout | ⟨t, u, hu, hyield, rfl⟩
  · rcases hlater (p + phrase.yield.length) vs hvs with ⟨f, hf, hend⟩ | ⟨ws, rfl, hws⟩
    · refine Or.inl ⟨f, ?_, ?_⟩
      · rw [readStatement_phrase]
        exact readMore_of_error hf
      · rw [List.length_append, ← Nat.add_assoc]
        exact hend
    · exact Or.inr ⟨ws, rfl, hws⟩
  · exact Or.inl (hout.bind readMore)
  · -- The shortened token is still read, but no bracket follows it.
    obtain ⟨shorter, hshorter⟩ := exists_shorter_phrase hkeep hu hyield
    refine Or.inl ⟨.unexpectedEnd .argumentOrClosing (p + 1), ?_, Or.inl ⟨_, rfl⟩⟩
    have hread := readStatement_phrase p [] shorter
    rw [hshorter] at hread
    rw [← List.append_nil [u], hread]
    exact readMore_of_error (readArguments_end (p + 1))

omit hkeep in
theorem readStatement_cut_leaf (p : Nat) {phrase : Phrase} {t : Token} {us rest : List Token}
    (hyield : phrase.yield = [t]) (h : Cut Shortens us (phrase.yield ++ rest)) :
    PhraseCut Shortens p phrase us rest := by
  rw [hyield] at h
  cases h with
  | nil => exact Or.inr (Or.inl (runsOut_unexpectedEnd _ _))
  | within hu => exact Or.inr (Or.inr ⟨t, _, hu, hyield, rfl⟩)
  | cons h => exact Or.inl ⟨_, by rw [hyield]; rfl, h⟩

mutual

/-- A statement whose tokens were cut. -/
theorem readStatement_cut (p : Nat) {us rest : List Token} :
    ∀ phrase : Phrase, Cut Shortens us (phrase.yield ++ rest) → PhraseCut Shortens p phrase us rest
  | .word token, h => readStatement_cut_leaf p rfl h
  | .literal token, h => readStatement_cut_leaf p rfl h
  | .reference a b n c d, h => by
      rcases head_cut hkeep h with hout | ⟨v, vs, rfl, hvs⟩
      · exact Or.inr (Or.inl hout)
      obtain ⟨ws, hws, hcut⟩ := (hvs.at_mark hkeep).resolve_left nofun
      cases hws
      rcases readClosing_cut (p := p + 4) hkeep hcut with hout | ⟨xs, rfl, hxs⟩
      · refine Or.inr (Or.inl ?_)
        rw [readStatement_reference]
        have hlength : p + (a.val :: b.val :: n.val :: c.val :: vs).length = p + 4 + vs.length := by
          simp only [List.length_cons]
          omega
        rw [hlength]
        exact hout.bind _
      · exact Or.inl ⟨xs, rfl, hxs⟩
  | .call a b n bar args c d, h => by
      simp only [Phrase.yield, List.cons_append, List.append_assoc, List.nil_append] at h
      rcases head_cut hkeep h with hout | ⟨v, vs, rfl, hvs⟩
      · exact Or.inr (Or.inl hout)
      obtain ⟨ws, hws, hcut⟩ := (hvs.at_mark hkeep).resolve_left nofun
      cases hws
      have hlength : p + (a.val :: b.val :: n.val :: bar.val :: vs).length = p + 4 + vs.length := by
        simp only [List.length_cons]
        omega
      rcases readArguments_cut (p + 4) c args hcut with hout | ⟨xs, rfl, hxs⟩
      · refine Or.inr (Or.inl ?_)
        rw [readStatement_call, hlength]
        exact hout.bind _
      rcases readClosing_cut (p := p + 4 + args.yield.length + 1) hkeep hxs with
        ⟨f, hf, hend⟩ | ⟨ys, rfl, hys⟩
      · refine Or.inr (Or.inl ⟨f, ?_, ?_⟩)
        · rw [readStatement_call]
          refine bind_eq_error.mpr (Or.inr ⟨_, readArguments_phrases (p + 4) c xs args, ?_⟩)
          exact bind_eq_error.mpr (Or.inl hf)
        · have hposition : p + 4 + args.yield.length + 1 + xs.length =
              p + 4 + (args.yield ++ c.val :: xs).length := by
            simp only [List.length_append, List.length_cons]
            omega
          rw [hlength, ← hposition]
          exact hend
      · refine Or.inl ⟨ys, ?_, hys⟩
        simp only [Phrase.yield, List.cons_append, List.append_assoc, List.nil_append]

/-- Arguments whose tokens were cut. -/
theorem readArguments_cut (p : Nat) (c : MarkToken .closing) {us rest : List Token} :
    ∀ phrases : ArgumentPhrases, Cut Shortens us (phrases.yield ++ c.val :: rest) →
      ArgumentsCut Shortens p phrases c us rest
  | .nil, h => by
      rcases h.at_mark hkeep with rfl | ⟨vs, rfl, hvs⟩
      · exact Or.inl ⟨_, readArguments_end p, Or.inl ⟨_, rfl⟩⟩
      · exact Or.inr ⟨vs, rfl, hvs⟩
  | .cons none phrase later, h => by
      simp only [ArgumentPhrases.yield, List.append_assoc] at h
      cases us with
      | nil => exact Or.inl ⟨_, readArguments_end p, Or.inl ⟨_, rfl⟩⟩
      | cons u us =>
          have hmark : ∀ m : Mark, m ≠ .opening → u.isMark m = false := by
            intro m hm
            rw [phrase.yield_eq, List.cons_append] at h
            rw [h.isMark_first hkeep m, phrase.not_isMark_first hm]
          have hmore := readMore_cut hkeep (readStatement_cut p phrase h)
            fun q vs hvs => readArguments_cut q c later hvs
          rw [← readArguments_other (hmark .closing nofun) (hmark .separator nofun)] at hmore
          simpa only [ArgumentsCut, ArgumentPhrases.yield, List.append_assoc] using hmore
  | .cons (some bar) phrase later, h => by
      simp only [ArgumentPhrases.yield, List.append_assoc, List.cons_append] at h
      rcases h.at_mark hkeep with rfl | ⟨vs, rfl, hvs⟩
      · exact Or.inl ⟨_, readArguments_end p, Or.inl ⟨_, rfl⟩⟩
      have hmore := readMore_cut hkeep (readStatement_cut (p + 1) phrase hvs)
        fun q ws hws => readArguments_cut q c later hws
      rw [← readArguments_separator bar.property] at hmore
      rcases hmore with hout | ⟨ws, rfl, hws⟩
      · refine Or.inl ?_
        rw [List.length_cons, ← Nat.add_assoc, Nat.add_right_comm]
        exact hout
      · refine Or.inr ⟨ws, ?_, hws⟩
        simp only [ArgumentPhrases.yield, List.append_assoc, List.cons_append]

end

/-- Statements whose tokens were cut: some first ones are left, or the tokens run out, or the last
one that is left is a shortened word or literal. -/
theorem statements_cut (p : Nat) (phrases : List Phrase) {us : List Token}
    (h : Cut Shortens us (phrases.flatMap Phrase.yield)) :
    (∃ kept, kept <+: phrases ∧ us = kept.flatMap Phrase.yield) ∨
      RunsOut (p + us.length) (statements p us) ∨
      ∃ before phrase after t u, phrases = before ++ phrase :: after ∧ Shortens t u ∧
        phrase.yield = [t] ∧ us = before.flatMap Phrase.yield ++ [u] := by
  induction phrases generalizing p us with
  | nil =>
      cases h
      exact Or.inl ⟨[], List.nil_prefix, rfl⟩
  | cons phrase phrases ih =>
      rw [List.flatMap_cons] at h
      cases us with
      | nil => exact Or.inl ⟨[], List.nil_prefix, rfl⟩
      | cons u us =>
          rcases readStatement_cut hkeep p phrase h with
            ⟨vs, hvs, hcut⟩ | hout | ⟨t, v, hv, hyield, huv⟩
          · rw [hvs]
            rcases ih (p + phrase.yield.length) hcut with ⟨kept, hkept, rfl⟩ | ⟨f, hf, hend⟩ |
              ⟨before, q, after, t, v, rfl, hv, hyield, rfl⟩
            · exact Or.inl ⟨phrase :: kept, List.prefix_cons_inj phrase |>.mpr hkept, rfl⟩
            · refine Or.inr (Or.inl ⟨f, ?_, ?_⟩)
              · rw [statements_phrase, readStatement_phrase]
                refine bind_eq_error.mpr (Or.inr ⟨_, rfl, ?_⟩)
                exact bind_eq_error.mpr (Or.inl hf)
              · rw [List.length_append, ← Nat.add_assoc]
                exact hend
            · refine Or.inr (Or.inr ⟨phrase :: before, q, after, t, v, rfl, hv, hyield, ?_⟩)
              rw [List.flatMap_cons, List.append_assoc]
          · rw [statements_cons]
            exact Or.inr (Or.inl (hout.bind readOn))
          · exact Or.inr (Or.inr ⟨[], phrase, phrases, t, v, rfl, hv, hyield, huv⟩)

end Cuts
end Parser

/-! ## The beginning of a source -/

/-- A text that can follow a word and spells no token is empty. -/
theorem Lexes.eq_nil_of_stops {cs : List Char} (h : Lexes cs [])
    (hstop : ∀ c ∈ cs.head?, Reader.inWord c = false) : cs = [] := by
  cases cs with
  | nil => rfl
  | cons c cs =>
      obtain ⟨m, us, hus⟩ := h.mark_first (hstop c rfl)
      cases hus

theorem Lexable.shorten {text : String} (h : Lexable text) {shorter missing : List Char}
    (hne : shorter ≠ []) (heq : text.toList = shorter ++ missing) :
    Lexable (String.ofList shorter) := by
  obtain ⟨c, cs, hcs, hc, hall⟩ := h.exists_cons
  cases shorter with
  | nil => exact absurd rfl hne
  | cons d ds =>
      rw [heq, List.cons_append] at hcs
      cases hcs
      refine lexable_of_cons hc fun e he => hall e ?_
      exact List.mem_cons_of_mem c (List.mem_append_left missing he)

/-- The tokens `ts` of a text, if it breaks off and the second part is lost.  The first part spells
some of the tokens, or some of them and the beginning of a word. -/
inductive BreaksOff : (kept lost : List Char) → (ts : List Token) → Prop
  | between {kept lost : List Char} {us vs : List Token} :
      Lexes kept us →
      BreaksOff kept lost (us ++ vs)
  | inside {lead shorter missing rest : List Char} {us vs : List Token} :
      shorter ≠ [] →
      missing ≠ [] →
      Lexes (lead ++ shorter) (us ++ [.ofWord (String.ofList shorter)]) →
      (vs = [] → rest = []) →
      BreaksOff (lead ++ shorter) (missing ++ rest)
        (us ++ .ofWord (String.ofList (shorter ++ missing)) :: vs)

theorem breaksOff_nil {lost : List Char} {ts : List Token} : BreaksOff [] lost ts :=
  .between .nil

theorem BreaksOff.prepend {kept lost : List Char} {ts : List Token} (chunk : List Char)
    (us : List Token) (h : BreaksOff kept lost ts)
    (hchunk : ∀ vs, Lexes kept vs → Lexes (chunk ++ kept) (us ++ vs)) :
    BreaksOff (chunk ++ kept) lost (us ++ ts) := by
  cases h with
  | between hkept =>
      rw [← List.append_assoc]
      exact .between (hchunk _ hkept)
  | inside hshorter hmissing hkept hrest =>
      have hlexes := hchunk _ hkept
      rw [← List.append_assoc, ← List.append_assoc] at hlexes
      rw [← List.append_assoc, ← List.append_assoc]
      exact .inside hshorter hmissing hlexes hrest

theorem breaksOff_word {text : String} (htext : Lexable text) {cs : List Char} {ts : List Token}
    (hstop : ∀ c ∈ cs.head?, Reader.inWord c = false) (h : Lexes cs ts)
    {shorter missing : List Char} (hsplit : text.toList = shorter ++ missing) :
    BreaksOff shorter (missing ++ cs) (.ofWord text :: ts) := by
  by_cases hshorter : shorter = []
  · subst hshorter
    exact breaksOff_nil
  have htoken : text = String.ofList (shorter ++ missing) := by
    rw [← hsplit, String.ofList_toList]
  have hword := lexes_word (htext.shorten hshorter hsplit)
  rw [String.toList_ofList] at hword
  by_cases hmissing : missing = []
  · subst hmissing
    rw [htoken, List.append_nil]
    exact BreaksOff.between hword
  · have hrest : ts = [] → cs = [] := by
      rintro rfl
      exact h.eq_nil_of_stops hstop
    rw [htoken]
    show BreaksOff ([] ++ shorter) (missing ++ cs) ([] ++ _)
    exact .inside hshorter hmissing hword hrest

/-- The tokens of the beginning of a text. -/
theorem Lexes.breaksOff {cs : List Char} {ts : List Token} (h : Lexes cs ts) {kept lost : List Char}
    (hcs : cs = kept ++ lost) : BreaksOff kept lost ts := by
  induction h generalizing kept with
  | nil =>
      obtain ⟨rfl, rfl⟩ := List.append_eq_nil_iff.mp hcs.symm
      exact breaksOff_nil
  | @blank c cs ts hc _ ih =>
      cases kept with
      | nil => exact breaksOff_nil
      | cons d kept =>
          cases hcs
          exact (ih rfl).prepend [c] [] fun us hus => .blank hc hus
  | @mark m cs ts _ ih =>
      cases kept with
      | nil => exact breaksOff_nil
      | cons d kept =>
          cases hcs
          exact (ih rfl).prepend [m.char] [.ofMark m] fun us hus => .mark m hus
  | @word text cs ts htext hstop hlexes ih =>
      rcases List.append_eq_append_iff.mp hcs with ⟨kept', rfl, hrest⟩ | ⟨missing, hmissing, rfl⟩
      · refine (ih hrest).prepend text.toList [.ofWord text] fun us hus => .word htext ?_ hus
        intro c hc
        refine hstop c ?_
        rw [hrest, List.head?_append, hc]
        rfl
      · exact breaksOff_word htext hstop hlexes hmissing

/-- A word at the end of a text can be replaced by another one. -/
theorem Lexes.last_word {cs : List Char} {ts us : List Token} {text : String} (h : Lexes cs ts)
    (hts : ts = us ++ [.ofWord text]) :
    Lexable text ∧ ∃ lead, cs = lead ++ text.toList ∧
      ∀ other, Lexable other → Lexes (lead ++ other.toList) (us ++ [.ofWord other]) := by
  induction h generalizing us with
  | nil => simp at hts
  | @blank c cs ts hc _ ih =>
      obtain ⟨htext, lead, rfl, hother⟩ := ih hts
      exact ⟨htext, c :: lead, rfl, fun other h => .blank hc (hother other h)⟩
  | @mark m cs ts _ ih =>
      cases us with
      | nil => cases hts
      | cons u us =>
          cases hts
          obtain ⟨htext, lead, rfl, hother⟩ := ih rfl
          exact ⟨htext, m.char :: lead, rfl, fun other h => .mark m (hother other h)⟩
  | @word first cs ts hfirst hstop hlexes ih =>
      cases us with
      | nil =>
          cases hts
          obtain rfl := hlexes.eq_nil_of_stops hstop
          exact ⟨hfirst, [], List.append_nil _, fun other h => lexes_word h⟩
      | cons u us =>
          cases hts
          obtain ⟨htext, lead, rfl, hother⟩ := ih rfl
          refine ⟨htext, first.toList ++ lead, (List.append_assoc _ _ _).symm, ?_⟩
          intro other h
          rw [List.append_assoc]
          refine .word hfirst ?_ (hother other h)
          cases lead with
          | nil =>
              -- Two words do not stand side by side.
              obtain ⟨c, w, hw, -, hall⟩ := htext.exists_cons
              rw [hw] at hstop
              have hc : Reader.inWord c = false := hstop c rfl
              rw [hall c List.mem_cons_self] at hc
              cases hc
          | cons c lead => exact hstop

/-! ## Literals in a row that breaks off -/

namespace Token

/-- Whether a word behind some tokens becomes a literal depends on these alone. -/
theorem literalsFrom_append (afterBar : Bool) (us : List Token) :
    ∃ b, ∀ vs, literalsFrom afterBar (us ++ vs) = literalsFrom afterBar us ++ literalsFrom b vs := by
  induction us generalizing afterBar with
  | nil => exact ⟨afterBar, fun vs => rfl⟩
  | cons t us ih =>
      obtain ⟨b, hb⟩ := ih (t.isMark .separator)
      refine ⟨b, fun vs => ?_⟩
      rw [List.cons_append, literalsFrom, literalsFrom, hb, List.cons_append]

theorem length_literalsFrom (afterBar : Bool) (ts : List Token) :
    (literalsFrom afterBar ts).length = ts.length := by
  induction ts generalizing afterBar with
  | nil => rfl
  | cons t ts ih => rw [literalsFrom, List.length_cons, List.length_cons, ih]

end Token

/-- What a source that can be read spells, and the derivation of its statements. -/
theorem exists_phrases_of_parseSource {source : String} {statements : List Tree}
    (h : parseSource true source = .ok (.program statements)) :
    ∃ (raw : List Token) (phrases : List Phrase), Lexes source.toList raw ∧
      phrases.flatMap Phrase.yield = Token.literalsFrom false raw ∧
      phrases.map Phrase.tree = statements := by
  obtain ⟨tokens, htokens, hparse⟩ := exists_tokens_of_parseSource h
  obtain ⟨raw, hraw, rfl⟩ := tokenize_eq_ok_iff.mp htokens
  obtain ⟨⟨phrases, hyield⟩, hprogram⟩ := derives_of_parse hparse
  cases hprogram
  exact ⟨raw, phrases, hraw, hyield, rfl⟩

theorem tokenize_of_lexes {cs : List Char} {raw : List Token} (h : Lexes cs raw) :
    tokenize true (String.ofList cs) = .ok (Token.literalsFrom false raw) := by
  refine tokenize_eq_ok_iff.mpr ⟨raw, ?_, rfl⟩
  rw [String.toList_ofList]
  exact h

theorem parse_phrases {tokens : List Token} {phrases : List Phrase}
    (h : phrases.flatMap Phrase.yield = tokens) :
    parse tokens = .ok (.program (phrases.map Phrase.tree)) :=
  parse_derivation ⟨phrases, h⟩

/-- The derivation of a word at the end of a program. -/
theorem exists_last_phrase {phrases : List Phrase} {before : List Tree} {text : String}
    (h : phrases.map Phrase.tree = before ++ [.word text]) :
    ∃ (first : List Phrase) (token : KindToken .word), phrases = first ++ [.word token] ∧
      first.map Phrase.tree = before ∧ token.val.text = text := by
  obtain ⟨first, last, rfl, hfirst, hlast⟩ := List.map_eq_append_iff.mp h
  obtain ⟨phrase, rfl, htree⟩ := List.map_eq_singleton_iff.mp hlast
  cases phrase with
  | word token =>
      cases htree
      exact ⟨first, token, rfl, hfirst, rfl⟩
  | literal token => cases htree
  | reference a b n c d => cases htree
  | call a b n bar args c d => cases htree

theorem Lexes.exists_lexeme {cs : List Char} {ts : List Token} (h : Lexes cs ts) {t : Token}
    (ht : t ∈ ts) : ∃ lexeme : Lexeme, lexeme.token = t := by
  obtain ⟨s, rfl⟩ := exists_segmentation h
  obtain ⟨piece, -, rfl⟩ := List.mem_map.mp ht
  exact ⟨piece.1, rfl⟩

/-- If the last token is a word when the literals are marked, it was a word that no separator
stands before. -/
theorem exists_last_word {cs : List Char} {raw us : List Token} {token : KindToken .word}
    (h : Lexes cs raw) (hlast : us ++ [token.val] = Token.literalsFrom false raw) :
    ∃ ts, raw = ts ++ [.ofWord token.val.text] ∧
      ∀ other, Token.literalsFrom false (ts ++ [.ofWord other]) = us ++ [.ofWord other] := by
  rcases List.eq_nil_or_concat raw with rfl | ⟨ts, t, rfl⟩
  · simp [Token.literalsFrom] at hlast
  rw [List.concat_eq_append] at h hlast ⊢
  obtain ⟨lexeme, rfl⟩ := h.exists_lexeme (List.mem_append_right ts (List.mem_singleton_self t))
  obtain ⟨b, hb⟩ := Token.literalsFrom_append false ts
  rw [hb] at hlast
  have hlength : [token.val].length = (Token.literalsFrom b [lexeme.token]).length := by
    rw [Token.length_literalsFrom]
    rfl
  obtain ⟨rfl, htoken⟩ := List.append_inj' hlast hlength
  have hkind := token.property
  cases lexeme with
  | mark m =>
      rw [Lexeme.token, Token.literalsFrom_mark] at htoken
      rw [(List.cons.inj htoken).1] at hkind
      cases hkind
  | word text lexable =>
      rw [Lexeme.token, Token.literalsFrom_word] at htoken
      cases b with
      | true =>
          rw [(List.cons.inj htoken).1] at hkind
          cases hkind
      | false =>
          rw [(List.cons.inj htoken).1]
          refine ⟨ts, rfl, fun other => ?_⟩
          rw [hb, Token.literalsFrom_word]
          rfl

/-! ## The cut -/

/-- The cut at `k` falls inside a word `text` at the end of the source and leaves `shorter` of it. -/
structure CutsWord (source : String) (k : Nat) (text shorter : String) : Prop where
  place : ∃ lead, source.toList = lead ++ text.toList ∧
    source.toList.take k = lead ++ shorter.toList
  nonempty : shorter ≠ ""
  isPrefix : shorter.toList <+: text.toList
  proper : shorter ≠ text

/-- A cut inside a word at the end of a program. -/
theorem parse_cutsWord {source : String} {before : List Tree} {text shorter : String} {k : Nat}
    (h : parseSource true source = .ok (.program (before ++ [.word text])))
    (hcut : CutsWord source k text shorter) :
    ∃ tokens, tokenize true (String.ofList (source.toList.take k)) = .ok tokens ∧
      parse tokens = .ok (.program (before ++ [.word shorter])) := by
  obtain ⟨raw, phrases, hraw, hyield, htrees⟩ := exists_phrases_of_parseSource h
  obtain ⟨first, token, rfl, rfl, rfl⟩ := exists_last_phrase htrees
  rw [List.flatMap_append] at hyield
  obtain ⟨ts, rfl, hlisting⟩ := exists_last_word hraw hyield
  obtain ⟨htext, lead, hsource, hother⟩ := hraw.last_word rfl
  obtain ⟨lead', hsource', htake⟩ := hcut.place
  have hlead : lead' = lead := List.append_cancel_right (hsource'.symm.trans hsource)
  obtain ⟨missing, hmissing⟩ := hcut.isPrefix
  have hne : shorter.toList ≠ [] := by
    intro hnil
    exact hcut.nonempty (String.toList_eq_nil_iff.mp hnil)
  have hshorter : Lexable shorter := by
    have hlexable := htext.shorten hne hmissing.symm
    rwa [String.ofList_toList] at hlexable
  rw [htake, hlead]
  refine ⟨_, tokenize_of_lexes (hother shorter hshorter), ?_⟩
  rw [hlisting]
  have hphrases : (first ++ [Phrase.word (wordToken shorter)]).flatMap Phrase.yield =
      first.flatMap Phrase.yield ++ [.ofWord shorter] := by
    rw [List.flatMap_append]
    rfl
  rw [parse_phrases hphrases, List.map_append]
  rfl

/-- What the parser gives for a row of tokens that was cut without a word at the end of the program
being shortened. -/
def Truncates (tokens : List Token) (statements : List Tree) : Prop :=
  (∃ kept, parse tokens = .ok (.program kept) ∧ kept <+: statements) ∨
    ∃ f, parse tokens = .error f ∧ f.AtEnd tokens.length ∧
      f.diagnostic.offset = some (tokens.length : Int)

theorem parse_kept {us : List Token} {kept phrases : List Phrase} (hkept : kept <+: phrases)
    (hus : us = kept.flatMap Phrase.yield) : Truncates us (phrases.map Phrase.tree) :=
  Or.inl ⟨_, parse_phrases hus.symm, hkept.map Phrase.tree⟩

theorem parse_runsOut {us : List Token} {statements : List Tree}
    (h : Parser.RunsOut (0 + us.length) (Parser.statements 0 us)) : Truncates us statements := by
  obtain ⟨f, hf, hend⟩ := h
  rw [Nat.zero_add] at hend
  exact Or.inr ⟨f, Parser.parse_eq_error_iff.mpr hf, hend, hend.offset⟩

/-- A cut between two tokens. -/
theorem parse_cut_between {phrases : List Phrase} {us vs : List Token}
    (hyield : phrases.flatMap Phrase.yield = us ++ vs) :
    Truncates us (phrases.map Phrase.tree) := by
  have hcut : Parser.Cut (fun _ _ => False) us (phrases.flatMap Phrase.yield) := by
    rw [hyield]
    exact Parser.cut_append us vs
  rcases Parser.statements_cut nofun 0 phrases hcut with
    ⟨kept, hkept, hus⟩ | hout | ⟨_, _, _, _, _, _, hfalse, _⟩
  · exact parse_kept hkept hus
  · exact parse_runsOut hout
  · exact hfalse.elim

/-- The token of a word, or of a literal behind a separator. -/
def Token.ofText (literal : Bool) (text : String) : Token :=
  if literal then ofLiteral text else ofWord text

theorem keepsKind_ofText (literal : Bool) (text shorter : String) :
    Parser.KeepsKind fun t u => t = .ofText literal text ∧ u = .ofText literal shorter := by
  rintro t u ⟨rfl, rfl⟩
  cases literal with
  | false => exact ⟨nofun, rfl⟩
  | true => exact ⟨nofun, rfl⟩

theorem tree_of_yield_ofText {phrase : Phrase} {literal : Bool} {text : String}
    (h : phrase.yield = [.ofText literal text]) (hliteral : phrase.tree.shape ≠ .literal) :
    phrase.tree = .word text := by
  cases phrase with
  | word token =>
      have htoken : token.val = .ofText literal text := (List.cons.inj h).1
      have htext : token.val.text = text := by
        rw [htoken]
        cases literal <;> rfl
      rw [Phrase.tree, htext]
  | literal token => exact absurd rfl hliteral
  | reference a b n c d => simp [Phrase.yield] at h
  | call a b n bar args c d => simp [Phrase.yield] at h

/-- A cut inside a word: the word is the last one of the program, or the statements that are left
are as they were. -/
theorem parse_cut_inside {phrases : List Phrase} {us vs : List Token} {text shorter : String}
    (hsource : Tree.HasSource (phrases.map Phrase.tree))
    (hyield : phrases.flatMap Phrase.yield = Token.literalsFrom false (us ++ .ofWord text :: vs)) :
    Truncates (Token.literalsFrom false (us ++ [.ofWord shorter])) (phrases.map Phrase.tree) ∨
      vs = [] ∧ ∃ before, phrases.map Phrase.tree = before ++ [.word text] := by
  obtain ⟨literal, hliteral⟩ := Token.literalsFrom_append false us
  have htokens : ∀ (word : String) (ws : List Token),
      Token.literalsFrom false (us ++ .ofWord word :: ws) =
        Token.literalsFrom false us ++ .ofText literal word :: Token.literalsFrom false ws := by
    intro word ws
    rw [hliteral, Token.literalsFrom_word]
    rfl
  have hcut : Parser.Cut (fun t u => t = .ofText literal text ∧ u = .ofText literal shorter)
      (Token.literalsFrom false (us ++ [.ofWord shorter])) (phrases.flatMap Phrase.yield) := by
    rw [hyield, htokens, htokens]
    exact Parser.cut_append_within ⟨rfl, rfl⟩ _ _
  rcases Parser.statements_cut (keepsKind_ofText literal text shorter) 0 phrases hcut with
    ⟨kept, hkept, hus⟩ | hout | ⟨before, phrase, after, t, u, rfl, ⟨rfl, rfl⟩, htext, hus⟩
  · exact Or.inl (parse_kept hkept hus)
  · exact Or.inl (parse_runsOut hout)
  · refine Or.inr ?_
    rw [List.map_append, List.map_cons] at hsource ⊢
    have htree : phrase.tree = .word text :=
      tree_of_yield_ofText htext (hsource.noLiteral _ (List.mem_append_right _ List.mem_cons_self))
    have hlast := hsource.wordLast _ _ _ rfl (by rw [htree]; rfl)
    obtain rfl := List.map_eq_nil_iff.mp hlast
    refine ⟨?_, _, by rw [htree, List.map_nil]⟩
    have hlength := congrArg List.length hyield
    have hlength' := congrArg List.length hus
    simp only [Token.length_literalsFrom, List.flatMap_append, List.flatMap_cons, List.flatMap_nil,
      List.length_append, List.length_cons, List.length_nil, htext] at hlength hlength'
    exact List.length_eq_zero_iff.mp (by omega)

/-- **A source that breaks off is never misread.**  Let a source be read to some statements and then
be cut at `k`.  What is left has tokens.  If the cut falls inside a word at the end of the program,
the last statement is a shorter word, and the others are as they were.  If not, some first
statements are left as they were, or the parser runs out of tokens and tells so at their end. -/
theorem parseSource_take {source : String} {statements : List Tree}
    (h : parseSource true source = .ok (.program statements)) (k : Nat) :
    ∃ tokens, tokenize true (String.ofList (source.toList.take k)) = .ok tokens ∧
      ((∃ before text shorter, statements = before ++ [.word text] ∧
          CutsWord source k text shorter ∧
          parse tokens = .ok (.program (before ++ [.word shorter]))) ∨
        (¬ ∃ before text shorter, statements = before ++ [.word text] ∧
          CutsWord source k text shorter) ∧
          ((∃ kept, parse tokens = .ok (.program kept) ∧ kept <+: statements) ∨
            ∃ f, parse tokens = .error f ∧
              ((∃ expected, f = .unexpectedEnd expected tokens.length) ∨
                f = .expectedClosing none tokens.length) ∧
              f.diagnostic.offset = some (tokens.length : Int))) := by
  by_cases hcut : ∃ before text shorter, statements = before ++ [.word text] ∧
      CutsWord source k text shorter
  · obtain ⟨before, text, shorter, rfl, hword⟩ := hcut
    obtain ⟨tokens, htokens, hparse⟩ := parse_cutsWord h hword
    exact ⟨tokens, htokens, Or.inl ⟨before, text, shorter, rfl, hword, hparse⟩⟩
  obtain ⟨raw, phrases, hraw, hyield, rfl⟩ := exists_phrases_of_parseSource h
  have hsplit : source.toList = source.toList.take k ++ source.toList.drop k :=
    (List.take_append_drop k source.toList).symm
  have hbreaks := hraw.breaksOff hsplit
  generalize hkept : source.toList.take k = kept at hsplit hbreaks ⊢
  generalize source.toList.drop k = lost at hsplit hbreaks
  cases hbreaks with
  | @between _ _ us vs hlexes =>
      refine ⟨_, tokenize_of_lexes hlexes, Or.inr ⟨hcut, ?_⟩⟩
      obtain ⟨b, hb⟩ := Token.literalsFrom_append false us
      exact parse_cut_between (hyield.trans (hb vs))
  | @inside lead shorter missing rest us vs hshorter hmissing hlexes hrest =>
      refine ⟨_, tokenize_of_lexes hlexes, Or.inr ⟨hcut, ?_⟩⟩
      rcases parse_cut_inside (hasSource_of_parseSource h) hyield with
        htruncates | ⟨hvs, before, hstatements⟩
      · exact htruncates
      · refine absurd ⟨before, _, String.ofList shorter, hstatements, ?_⟩ hcut
        obtain rfl := hrest hvs
        refine ⟨⟨lead, ?_, ?_⟩, ?_, ?_, ?_⟩
        · rw [hsplit, String.toList_ofList, List.append_nil, List.append_assoc]
        · rw [hkept, String.toList_ofList]
        · simpa using hshorter
        · rw [String.toList_ofList, String.toList_ofList]
          exact List.prefix_append shorter missing
        · intro heq
          have hchars := congrArg String.toList heq
          rw [String.toList_ofList, String.toList_ofList, List.self_eq_append_right] at hchars
          exact hmissing hchars

/-- A call and a word, cut inside the word. -/
theorem parseSource_take_word :
    parseSource true "[[f|a]]rest" = .ok (.program [.call "f" [.literal "a"], .word "rest"]) ∧
    ∃ tokens, tokenize true (String.ofList ("[[f|a]]rest".toList.take 9)) = .ok tokens ∧
      parse tokens = .ok (.program [.call "f" [.literal "a"], .word "re"]) := by
  have h : parseSource true "[[f|a]]rest" =
      .ok (.program ([.call "f" [.literal "a"]] ++ [.word "rest"])) := by
    cbv
  have hlead : "[[f|a]]rest".toList = "[[f|a]]".toList ++ "rest".toList := by decide
  have htake : "[[f|a]]rest".toList.take 9 = "[[f|a]]".toList ++ "re".toList := by decide
  obtain ⟨tokens, htokens, ⟨before, text, shorter, hstatements, hcut, hparse⟩ | ⟨hcut, -⟩⟩ :=
    parseSource_take h 9
  · obtain ⟨rfl, hlast⟩ := List.append_inj' hstatements rfl
    cases hlast
    obtain ⟨lead, hlead', htake'⟩ := hcut.place
    obtain rfl := List.append_cancel_right (hlead'.symm.trans hlead)
    have hshorter : shorter = "re" :=
      String.toList_inj.mp (List.append_cancel_left (htake'.symm.trans htake))
    rw [hshorter] at hparse
    exact ⟨h, tokens, htokens, hparse⟩
  · exact absurd ⟨_, "rest", "re", rfl, ⟨_, hlead, htake⟩, by decide, by decide, by decide⟩ hcut

end BracketCall
