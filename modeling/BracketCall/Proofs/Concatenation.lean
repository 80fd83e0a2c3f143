import BracketCall.Proofs.LiteralPass
import BracketCall.Proofs.ProgramRun
import BracketCall.Proofs.Truncation

/-!
# Sources one behind the other

A source that can be read and does not end with a word at the top ends with a bracket that closes.
What is put behind it is then read as if it stood alone: the reader of tokens, the pass over the
literals, the parser and the run all begin anew at the seam.  Only the places of faults are counted
from the beginning, in characters for the reader and in tokens for the parser.

A word at the end would take in the beginning of what is put behind it.

**Results.**
* `tokenize_append_error`, `tokenize_append_ok`: the tokens of two sources.
* `parse_append_error`, `parse_append_ok`: the program of two rows of tokens.
* `evaluate_append`: the run of two sources.
-/

namespace BracketCall

variable {κ σ : Type}

/-! ## The end of a source -/

/-- A row without tokens, or one whose last token is a bracket that closes. -/
def EndsClosed (ts : List Token) : Prop :=
  ∀ t ∈ ts.getLast?, t.isMark .closing = true

theorem EndsClosed.endsInMark {ts : List Token} (h : EndsClosed ts) : EndsInMark ts :=
  fun t ht => Token.kind_of_isMark (h t ht)

theorem Phrase.endsClosed {phrase : Phrase} (h : phrase.tree.isConstruct = true) :
    EndsClosed phrase.yield := by
  intro t ht
  cases phrase with
  | word _ => cases h
  | literal _ => cases h
  | reference _ _ _ _ fourth =>
      simp only [Phrase.yield] at ht
      cases ht
      exact fourth.property
  | call first second name bar args third fourth =>
      have hyield : (Phrase.call first second name bar args third fourth).yield =
          (first.val :: second.val :: name.val :: bar.val :: args.yield ++ [third.val]) ++
            [fourth.val] := by
        simp [Phrase.yield]
      rw [hyield, List.getLast?_concat] at ht
      cases ht
      exact fourth.property

/-- The tokens of statements of which the last is a call or a reference. -/
theorem endsClosed_phrases {phrases : List Phrase}
    (h : ∀ t ∈ (phrases.map Phrase.tree).getLast?, t.isConstruct = true) :
    EndsClosed (phrases.flatMap Phrase.yield) := by
  rcases List.eq_nil_or_concat phrases with rfl | ⟨before, last, rfl⟩
  · nofun
  · rw [List.concat_eq_append] at h ⊢
    rw [List.map_append, List.map_singleton, List.getLast?_concat] at h
    rw [List.flatMap_append, List.flatMap_singleton]
    have hlast := Phrase.endsClosed (h _ rfl)
    rw [last.yield_eq] at hlast ⊢
    intro t ht
    rw [List.getLast?_append, Option.or_of_isSome (by simp)] at ht
    exact hlast t ht

theorem endsClosed_literalsFrom (afterBar : Bool) {ts : List Token} :
    EndsClosed (Token.literalsFrom afterBar ts) ↔ EndsClosed ts := by
  refine forall_last_literalsFrom ?_ afterBar ts
  intro t hword
  rw [Token.isMark_ofLiteral, Token.not_isMark_of_kind hword (by decide)]

/-- The pass begins anew behind a bracket that closes. -/
theorem EndsClosed.literalsFrom_append {ts : List Token} (h : EndsClosed ts) (us : List Token) :
    Token.literalsFrom false (ts ++ us) =
      Token.literalsFrom false ts ++ Token.literalsFrom false us := by
  rcases List.eq_nil_or_concat ts with rfl | ⟨before, last, rfl⟩
  · rfl
  · rw [List.concat_eq_append] at h ⊢
    obtain ⟨b, hb⟩ := Token.literalsFrom_append false before
    have hlast : last.isMark .closing = true := h last List.getLast?_concat
    have hbar := Token.not_isMark_of_isMark hlast (n := .separator) (by decide)
    have hrest : Token.literalsFrom b (last :: us) =
        Token.literalsFrom b [last] ++ Token.literalsFrom false us := by
      rw [Token.literalsFrom, Token.literalsFrom, hbar]
      rfl
    rw [List.append_assoc, hb, hb, List.singleton_append, hrest, List.append_assoc]

/-! ## Tokens at the seam -/

theorem Reader.drain_error_shift {cs : List Char} {ts : List Token} {f : Fault} {r : Reader}
    (h : drain ⟨0, cs⟩ = (ts, some f, r)) (k : Nat) :
    ∃ ts' r', drain ⟨k, cs⟩ = (ts', some (f.shift k), r') := by
  obtain ⟨before, c, after, ts, hcs, hlexes, hend, hc, rfl⟩ := drain_error_iff.mp ⟨ts, r, h⟩
  refine drain_error_iff.mpr ⟨before, c, after, ts, hcs, hlexes, hend, hc, ?_⟩
  rw [Fault.shift, Nat.zero_add, Nat.add_comm]

section Seam

variable {source later : String} {raw : List Token}

theorem tokenize_append_error (hraw : Lexes source.toList raw) (hend : EndsClosed raw)
    {literals : Bool} {f : Fault} (h : tokenize literals later = .error f) :
    tokenize literals (source ++ later) = .error (f.shift source.length) := by
  obtain ⟨ts, r, hdrain⟩ := tokenize_eq_error_iff.mp h
  obtain ⟨ts', r', hshift⟩ := Reader.drain_error_shift hdrain source.toList.length
  have happend := Reader.drain_append hraw hend.endsInMark later.toList 0
  rw [Nat.zero_add, hshift, ← String.toList_append] at happend
  exact tokenize_eq_error_iff.mpr ⟨_, _, happend⟩

theorem tokenize_append_ok (hraw : Lexes source.toList raw) (hend : EndsClosed raw)
    {tokens' : List Token} (h : tokenize true later = .ok tokens') :
    tokenize true (source ++ later) = .ok (Token.markLiterals raw ++ tokens') := by
  obtain ⟨raw', hraw', rfl⟩ := tokenize_eq_ok_iff.mp h
  have hlexes := (lexes_append_iff hraw (.inl hend.endsInMark)).mpr ⟨raw', hraw', rfl⟩
  rw [← String.toList_append] at hlexes
  exact tokenize_eq_ok_iff.mpr ⟨_, hlexes, hend.literalsFrom_append raw'⟩

end Seam

/-! ## Statements at the seam -/

theorem Parser.statements_phrases_append (p : Nat) (phrases : List Phrase) (ts : List Token) :
    statements p (phrases.flatMap Phrase.yield ++ ts) =
      (statements (p + (phrases.flatMap Phrase.yield).length) ts).map
        (phrases.map Phrase.tree ++ ·) := by
  induction phrases generalizing p with
  | nil =>
      simp only [List.flatMap_nil, List.nil_append, List.length_nil, Nat.add_zero, List.map_nil]
      cases statements p ts <;> rfl
  | cons phrase phrases ih =>
      rw [List.flatMap_cons, List.append_assoc, statements_phrase, readStatement_phrase]
      simp only [bind, Except.bind, readOn, ih, List.length_append, Nat.add_assoc]
      cases statements (p + (phrase.yield.length + (phrases.flatMap Phrase.yield).length)) ts with
      | error f => rfl
      | ok trees => rfl

section Programs

variable {phrases : List Phrase} {tokens' : List Token}

theorem parse_append_error {f : Fault} (h : parse tokens' = .error f) :
    parse (phrases.flatMap Phrase.yield ++ tokens') =
      .error (f.shift (phrases.flatMap Phrase.yield).length) := by
  have hshift := Parser.statements_error_shift (Parser.parse_eq_error_iff.mp h)
    (phrases.flatMap Phrase.yield).length
  rw [Parser.parse_eq_error_iff, Parser.statements_phrases_append, hshift]
  rfl

theorem parse_append_ok {body : List Tree} (h : parse tokens' = .ok (.program body)) :
    parse (phrases.flatMap Phrase.yield ++ tokens') =
      .ok (.program (phrases.map Phrase.tree ++ body)) := by
  obtain ⟨⟨phrases', rfl⟩, hprogram⟩ := derives_of_parse h
  cases hprogram
  rw [← List.flatMap_append, ← List.map_append]
  exact parse_phrases rfl

end Programs

/-! ## Runs at the seam -/

/-- The second fault is shown as the first one is, at a place that is later by `k`. -/
def Fault.Later (k : Nat) (f g : Fault) : Prop :=
  ∃ i : Int, f.diagnostic.offset = some i ∧
    g.diagnostic = { f.diagnostic with offset := some (i + k) }

theorem Fault.later_shift {f : Fault} (h : f.diagnostic.offset.isSome = true) (k : Nat) :
    f.Later k (f.shift k) := by
  obtain ⟨i, hi⟩ := Option.isSome_iff_exists.mp h
  refine ⟨i, hi, ?_⟩
  cases f <;> cases hi <;> rfl

theorem offset_isSome_of_tokenize {literals : Bool} {source : String} {f : Fault}
    (h : tokenize literals source = .error f) : f.diagnostic.offset.isSome = true := by
  obtain ⟨ts, r, hdrain⟩ := tokenize_eq_error_iff.mp h
  obtain ⟨_, _, _, _, _, _, _, _, rfl⟩ := Reader.drain_error_iff.mp ⟨ts, r, hdrain⟩
  rfl

theorem offset_isSome_of_parse {tokens : List Token} {f : Fault} (h : parse tokens = .error f) :
    f.diagnostic.offset.isSome = true := by
  cases Parser.statements_blamed (Parser.parse_eq_error_iff.mp h) with
  | atEnd hoffset _ _ => rw [hoffset]; rfl
  | atToken hoffset _ _ _ => rw [hoffset]; rfl

theorem Phrase.isConstruct_tree {phrase : Phrase} (hword : ∀ text, phrase.tree ≠ .word text)
    (hliteral : phrase.tree.shape ≠ .literal) : phrase.tree.isConstruct = true := by
  cases phrase with
  | word t => exact absurd rfl (hword t.val.text)
  | literal _ => exact absurd rfl hliteral
  | reference _ _ _ _ _ => rfl
  | call _ _ _ _ _ _ _ => rfl

/-- A source that can be read, and does not end with a word at the top, ends with a bracket that
closes. -/
theorem exists_phrases_endsClosed {source : String} {body : List Tree}
    (h : parseSource true source = .ok (.program body))
    (hend : ∀ text, body.getLast? ≠ some (.word text)) :
    ∃ (raw : List Token) (phrases : List Phrase), Lexes source.toList raw ∧ EndsClosed raw ∧
      phrases.flatMap Phrase.yield = Token.literalsFrom false raw ∧
      phrases.map Phrase.tree = body := by
  obtain ⟨raw, phrases, hraw, hyield, rfl⟩ := exists_phrases_of_parseSource h
  have hsource := hasSource_of_parseSource h
  refine ⟨raw, phrases, hraw, ?_, hyield, rfl⟩
  rw [← endsClosed_literalsFrom false, ← hyield]
  refine endsClosed_phrases ?_
  intro t ht
  obtain ⟨phrase, -, rfl⟩ := List.mem_map.mp (List.mem_of_getLast? ht)
  refine Phrase.isConstruct_tree ?_ (hsource.noLiteral _ (List.mem_of_getLast? ht))
  intro text htext
  rw [htext] at ht
  exact hend text ht

theorem parseSource_of_tokenize {literals : Bool} {source : String} {tokens : List Token}
    (h : tokenize literals source = .ok tokens) : parseSource literals source = parse tokens := by
  rw [parseSource, h]

/-- The run of two sources, where the first one can be read and does not end with a word at the top.
If the second one can be read too, it is the run of the first source and, if this ends well, the run
of the second one.  Otherwise nothing is run; the fault is that of the second source, at a place
that is later by the characters or by the tokens of the first one. -/
theorem evaluate_append (natives : Natives κ σ) {source : String} (later : String)
    {tokens : List Token} {body : List Tree} (htokens : tokenize true source = .ok tokens)
    (hparse : parse tokens = .ok (.program body))
    (hend : ∀ text, body.getLast? ≠ some (.word text)) (m : Machine κ σ) :
    (∀ program, parseSource true later = .ok program →
      m.evaluate natives true (source ++ later) =
        Machine.andThen (m.evaluate natives true source) fun _ m' =>
          m'.evaluate natives true later) ∧
    (∀ f, tokenize true later = .error f →
      ∃ g, m.evaluate natives true (source ++ later) = (.error (.fault g), m) ∧
        f.Later source.length g) ∧
    ∀ tokens' f, tokenize true later = .ok tokens' → parse tokens' = .error f →
      ∃ g, m.evaluate natives true (source ++ later) = (.error (.fault g), m) ∧
        f.Later tokens.length g := by
  have hfirst : parseSource true source = .ok (.program body) := by
    rw [parseSource_of_tokenize htokens, hparse]
  obtain ⟨raw, phrases, hraw, hclosed, hyield, rfl⟩ := exists_phrases_endsClosed hfirst hend
  obtain rfl : tokens = phrases.flatMap Phrase.yield := by
    have hboth := (tokenize_eq_ok_iff.mpr ⟨raw, hraw, rfl⟩).symm.trans htokens
    rw [hyield]
    exact (Except.ok.inj hboth).symm
  have hseam : ∀ {tokens'}, tokenize true later = .ok tokens' →
      parseSource true (source ++ later) = parse (phrases.flatMap Phrase.yield ++ tokens') := by
    intro tokens' hlater
    have happend := tokenize_append_ok hraw hclosed hlater
    rw [parseSource_of_tokenize happend, hyield]
    rfl
  refine ⟨?_, ?_, ?_⟩
  · intro program hsecond
    obtain ⟨tokens', hlater, hprogram⟩ := exists_tokens_of_parseSource hsecond
    obtain ⟨phrases', rfl⟩ := derives_of_parse hprogram
    have hboth := (hseam hlater).trans (parse_append_ok hprogram)
    rw [Machine.evaluate_program hboth, Machine.statements_append, Machine.evaluate_program hfirst]
    exact Machine.andThen_congr fun _ m' _ => (Machine.evaluate_program hsecond m').symm
  · intro f hlater
    refine ⟨f.shift source.length, ?_, Fault.later_shift (offset_isSome_of_tokenize hlater) _⟩
    refine Machine.evaluate_error ?_ m
    rw [parseSource, tokenize_append_error hraw hclosed hlater]
  · intro tokens' f hlater hfault
    refine ⟨f.shift (phrases.flatMap Phrase.yield).length, ?_,
      Fault.later_shift (offset_isSome_of_parse hfault) _⟩
    exact Machine.evaluate_error ((hseam hlater).trans (parse_append_error hfault)) m

/-- A call with a blank behind it, nine characters and seven tokens, and behind it a call of a name
without a function, a character that no token begins with, and half a call. -/
theorem evaluate_append_seams :
    let m : Machine Bool Unit :=
      { world := { bindings := { functions := [("f", false)] }, host := () } }
    let run := m.evaluate meddling true ("[[f|ab]] " ++ "[[g|]]")
    run.1 = .error (.fault (.undefinedFunction "g")) ∧
    run.2.trace.map Invocation.name = ["f"] ∧
    (∃ g, m.evaluate meddling true ("[[f|ab]] " ++ "!") = (.error (.fault g), m) ∧
      g.diagnostic.offset = some 9) ∧
    ∃ g, m.evaluate meddling true ("[[f|ab]] " ++ "[[f") = (.error (.fault g), m) ∧
      g.diagnostic.offset = some 10 := by
  intro m run
  have htokens : tokenize true "[[f|ab]] " =
      .ok [.ofMark .opening, .ofMark .opening, .ofWord "f", .ofMark .separator, .ofLiteral "ab",
        .ofMark .closing, .ofMark .closing] := by
    cbv
  have hparse : parse [.ofMark .opening, .ofMark .opening, .ofWord "f", .ofMark .separator,
      .ofLiteral "ab", .ofMark .closing, .ofMark .closing] =
        .ok (.program [.call "f" [.literal "ab"]]) := by
    cbv
  have hfirst : parseSource true "[[f|ab]] " = .ok (.program [.call "f" [.literal "ab"]]) :=
    (parseSource_of_tokenize htokens).trans hparse
  have hsecond : parseSource true "[[g|]]" = .ok (.program [.call "g" []]) := by
    cbv
  have hcharacter : tokenize true "!" = .error (.unexpectedCharacter '!' 0) := by
    cbv
  have hhalf : tokenize true "[[f" = .ok [.ofMark .opening, .ofMark .opening, .ofWord "f"] := by
    cbv
  have hends : parse [.ofMark .opening, .ofMark .opening, .ofWord "f"] =
      .error (.unexpectedEnd .separatorOrClosing 3) := by
    cbv
  have hend : ∀ text, [Tree.call "f" [.literal "ab"]].getLast? ≠ some (.word text) := by
    intro text h
    cases h
  have hrun := (evaluate_append meddling "[[g|]]" htokens hparse hend m).1 _ hsecond
  obtain ⟨g, hg, i, hi, hlater⟩ :=
    (evaluate_append meddling "!" htokens hparse hend m).2.1 _ hcharacter
  obtain ⟨g', hg', i', hi', hlater'⟩ :=
    (evaluate_append meddling "[[f" htokens hparse hend m).2.2 _ _ hhalf hends
  rw [Machine.evaluate_program hfirst] at hrun
  cases hi
  cases hi'
  refine ⟨?_, ?_, ⟨g, hg, ?_⟩, ⟨g', hg', ?_⟩⟩
  · rw [show run = _ from hrun]
    simp only [Machine.evaluate_program hsecond]
    rfl
  · rw [show run = _ from hrun]
    simp only [Machine.evaluate_program hsecond]
    rfl
  · rw [hlater]
    rfl
  · rw [hlater']
    rfl

end BracketCall
