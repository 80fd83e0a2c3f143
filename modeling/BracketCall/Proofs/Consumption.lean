import BracketCall.Proofs.Descent

/-!
# The descent takes each token once

A reading of the descent does nothing to the tape but take tokens from it, one after the other, and
a bound on its depth changes no answer.  Both are said by one relation between two readings, of
which the second may go deeper: `Below`.  It is kept by every way to put readings together, so it is
shown of each reader from those that it calls.

With the descent ending, this gives the course of every call, from any position of any row of tokens
and whether it fails or not.  A program that is read leaves no token over, and it says no more than
its tokens do: its names and texts are theirs.

**Results.**
* `strings_of_parse`: the names and texts of a program are those of the tokens that are no marks.
* `argumentsWithin_below`, `statementsWithin_below`: a bound changes no answer.
* `tokens_taken_once`: the three readers and the parser as a whole.
-/

namespace BracketCall

/-! ## Texts of trees and of tokens -/

namespace Tree

mutual

/-- The names and texts of a tree, in the order of the source. -/
def strings : Tree → List String
  | program statements => stringsAll statements
  | call name arguments => name :: stringsAll arguments
  | reference name => [name]
  | word text => [text]
  | literal text => [text]

/-- The names and texts of a row of trees. -/
def stringsAll : List Tree → List String
  | [] => []
  | t :: ts => strings t ++ stringsAll ts

end

end Tree

/-- The texts of the tokens that are no marks. -/
def unmarkedTexts (tokens : List Token) : List String :=
  (tokens.filter fun t => t.kind ≠ .mark).map Token.text

@[simp] theorem unmarkedTexts_nil : unmarkedTexts [] = [] := rfl

@[simp] theorem unmarkedTexts_append (ts us : List Token) :
    unmarkedTexts (ts ++ us) = unmarkedTexts ts ++ unmarkedTexts us := by
  simp [unmarkedTexts]

@[simp] theorem unmarkedTexts_mark {m : Mark} (t : MarkToken m) (ts : List Token) :
    unmarkedTexts (t.val :: ts) = unmarkedTexts ts := by
  simp [unmarkedTexts, Token.kind_of_isMark t.property]

theorem unmarkedTexts_kind {k : TokenKind} (hk : k ≠ .mark) (t : KindToken k) (ts : List Token) :
    unmarkedTexts (t.val :: ts) = t.val.text :: unmarkedTexts ts := by
  simp [unmarkedTexts, t.property, hk]

@[simp] theorem unmarkedTexts_word (t : KindToken .word) (ts : List Token) :
    unmarkedTexts (t.val :: ts) = t.val.text :: unmarkedTexts ts :=
  unmarkedTexts_kind (by decide) t ts

@[simp] theorem unmarkedTexts_literal (t : KindToken .literal) (ts : List Token) :
    unmarkedTexts (t.val :: ts) = t.val.text :: unmarkedTexts ts :=
  unmarkedTexts_kind (by decide) t ts

mutual

/-- The texts of the tree of a phrase are those of the words and literals in its yield. -/
theorem Phrase.strings_tree : ∀ p : Phrase, p.tree.strings = unmarkedTexts p.yield
  | .word t => by simp [Phrase.tree, Phrase.yield, Tree.strings]
  | .literal t => by simp [Phrase.tree, Phrase.yield, Tree.strings]
  | .reference a b n c d => by simp [Phrase.tree, Phrase.yield, Tree.strings]
  | .call a b n bar args c d => by
      simp [Phrase.tree, Phrase.yield, Tree.strings, args.stringsAll_trees]

theorem ArgumentPhrases.stringsAll_trees :
    ∀ ps : ArgumentPhrases, Tree.stringsAll ps.trees = unmarkedTexts ps.yield
  | .nil => rfl
  | .cons none p ps => by
      simp [ArgumentPhrases.trees, ArgumentPhrases.yield, Tree.stringsAll, p.strings_tree,
        ps.stringsAll_trees]
  | .cons (some bar) p ps => by
      simp [ArgumentPhrases.trees, ArgumentPhrases.yield, Tree.stringsAll, p.strings_tree,
        ps.stringsAll_trees]

end

theorem stringsAll_map_tree : ∀ ps : List Phrase,
    Tree.stringsAll (ps.map Phrase.tree) = unmarkedTexts (ps.flatMap Phrase.yield)
  | [] => rfl
  | p :: ps => by
      simp [Tree.stringsAll, p.strings_tree, stringsAll_map_tree ps]

theorem strings_of_parse {tokens : List Token} {program : Tree} (h : parse tokens = .ok program) :
    program.strings = unmarkedTexts tokens := by
  obtain ⟨⟨phrases, rfl⟩, rfl⟩ := derives_of_parse h
  exact stringsAll_map_tree phrases

namespace Descent

variable {α β : Type}

/-! ## Readings only take tokens, and a greater bound changes no answer -/

/-- The second tape is the first one after some tokens were taken from it in order. -/
def Tape.Advances (s d : Tape) : Prop :=
  ∃ read : List Token, s.cursor.rest = read ++ d.cursor.rest ∧
    d.cursor.position = s.cursor.position + read.length ∧
    d.taken = s.taken ++ read.zipIdx s.cursor.position

namespace Tape.Advances

theorem refl (s : Tape) : s.Advances s :=
  ⟨[], by simp⟩

theorem trans {s d e : Tape} (hd : s.Advances d) (he : d.Advances e) : s.Advances e := by
  obtain ⟨us, hrest, hpos, htaken⟩ := hd
  obtain ⟨vs, hrest', hpos', htaken'⟩ := he
  refine ⟨us ++ vs, ?_, ?_, ?_⟩
  · rw [hrest, hrest', List.append_assoc]
  · rw [hpos', hpos, List.length_append, Nat.add_assoc]
  · rw [htaken', htaken, hpos, List.zipIdx_append, List.append_assoc]

/-- What was taken from a tape at a position of a row of tokens. -/
theorem of_startAt {tokens : List Token} {position : Nat} {d : Tape}
    (h : (startAt tokens position).Advances d) (hposition : position ≤ tokens.length) :
    position ≤ d.cursor.position ∧ d.cursor.position ≤ tokens.length ∧
      d.cursor.rest = tokens.drop d.cursor.position ∧
      d.taken = ((tokens.drop position).take (d.cursor.position - position)).zipIdx position := by
  obtain ⟨read, hrest, hpos, htaken⟩ := h
  simp only [startAt, List.nil_append] at hrest hpos htaken
  have hlength := congrArg List.length hrest
  rw [List.length_drop, List.length_append] at hlength
  refine ⟨by omega, by omega, ?_, ?_⟩
  · rw [hpos, ← List.drop_drop, hrest, List.drop_left]
  · rw [htaken, hrest, hpos, Nat.add_sub_cancel_left, List.take_left]

end Tape.Advances

/-- Whenever the first reading has an answer, the second has the same, and it advanced the tape. -/
def Below (x y : Reading α) : Prop :=
  ∀ s answer, x s = some answer → y s = some answer ∧ s.Advances answer.2

namespace Below

theorem exhausted (y : Reading α) : Below Descent.exhausted y := by
  intro s answer h
  cases h

/-- A reading that leaves the tape alone. -/
theorem still {x : Reading α} {result : Tape → Except Fault α}
    (h : ∀ s, x s = some (result s, s)) : Below x x := by
  intro s answer hx
  rw [h s] at hx
  cases hx
  exact ⟨h s, .refl s⟩

theorem pure (a : α) : Below (Pure.pure a : Reading α) (Pure.pure a) :=
  still fun _ => rfl

theorem refuse (fault : Nat → Fault) :
    Below (Descent.refuse fault : Reading α) (Descent.refuse fault) :=
  still fun _ => rfl

theorem breakOff (fault : Nat → Fault) :
    Below (Descent.breakOff fault : Reading α) (Descent.breakOff fault) :=
  still fun _ => rfl

theorem bind {x y : Reading α} {f g : α → Reading β} (hxy : Below x y)
    (hfg : ∀ a, Below (f a) (g a)) : Below (x >>= f) (y >>= g) := by
  intro s answer h
  rw [bind_apply] at h ⊢
  rcases hx : x s with _ | ⟨_ | a, d⟩
  · rw [hx] at h
    cases h
  · obtain ⟨hy, hadvances⟩ := hxy s _ hx
    rw [hx] at h
    cases h
    rw [hy]
    exact ⟨rfl, hadvances⟩
  · obtain ⟨hy, hadvances⟩ := hxy s _ hx
    rw [hx] at h
    obtain ⟨hg, hlater⟩ := hfg a d answer h
    rw [hy]
    exact ⟨hg, hadvances.trans hlater⟩

end Below

/-- The one step that moves the tape. -/
theorem next_below : Below next next := by
  rintro ⟨⟨p, _ | ⟨t, ts⟩⟩, taken⟩ answer h
  · cases h
    exact ⟨rfl, .refl _⟩
  · cases h
    exact ⟨rfl, [t], by simp, rfl, rfl⟩

theorem expect_below (what : Expectation) : Below (expect what) (expect what) := by
  refine next_below.bind fun token => ?_
  cases token with
  | none => exact .breakOff _
  | some t => exact .pure t

theorem closing_below : Below closing closing := by
  refine next_below.bind fun token => ?_
  cases token with
  | none => exact .breakOff _
  | some t =>
      by_cases ht : t.isMark .closing = true
      · simp only [ht, if_true]
        exact .pure ()
      · simp only [ht]
        exact .refuse _

theorem afterName_below (name : String) : Below (afterName name) (afterName name) := by
  refine (expect_below _).bind fun x => ?_
  split
  · exact .pure _
  · split
    · exact .pure _
    · exact .refuse _

theorem heading_below : Below heading heading := by
  refine (expect_below _).bind fun o => ?_
  split
  · refine (expect_below _).bind fun n => ?_
    split
    · exact afterName_below n.text
    · exact .refuse _
  · exact .refuse _

section Rounds

variable {x y : Reading (List Tree)} (hxy : Below x y)
include hxy

theorem construct_below : Below (construct x) (construct y) := by
  refine heading_below.bind fun h => ?_
  cases h with
  | call name => exact hxy.bind fun args => closing_below.bind fun _ => .pure _
  | reference name => exact closing_below.bind fun _ => .pure _

theorem statement_below (first : Token) : Below (statement x first) (statement y first) := by
  rcases Parser.statement_start_cases first with ho | hw | hl | ⟨ho, hw, hl⟩
  · rw [statement_opening ho, statement_opening ho]
    exact construct_below hxy
  · rw [statement_word hw, statement_word hw]
    exact .pure _
  · rw [statement_literal hl, statement_literal hl]
    exact .pure _
  · rw [statement_other ho hw hl, statement_other ho hw hl]
    exact .refuse _

theorem statementThen_below {more more' : Reading (List Tree)} (hmore : Below more more')
    (first : Token) : Below (statementThen x more first) (statementThen y more' first) :=
  (statement_below hxy first).bind fun _ => hmore.bind fun _ => .pure _

theorem argumentRound_below : Below (argumentRound x) (argumentRound y) := by
  refine next_below.bind fun token => ?_
  cases token with
  | none => exact .breakOff _
  | some t =>
      by_cases hc : t.isMark .closing = true
      · simp only [hc, if_true]
        exact .pure _
      · by_cases hs : t.isMark .separator = true
        · simp only [hc, hs, if_true]
          exact (expect_below _).bind fun first => statementThen_below hxy hxy first
        · simp only [hc, hs]
          exact statementThen_below hxy hxy t

theorem statementRound_below {more more' : Reading (List Tree)} (hmore : Below more more') :
    Below (statementRound x more) (statementRound y more') := by
  refine next_below.bind fun token => ?_
  cases token with
  | none => exact .pure _
  | some t => exact statementThen_below hxy hmore t

end Rounds

/-- A greater bound changes no answer of the reader of arguments. -/
theorem argumentsWithin_below {bound bound' : Nat} (h : bound ≤ bound') :
    Below (argumentsWithin bound) (argumentsWithin bound') := by
  induction bound generalizing bound' with
  | zero =>
      cases bound' <;> exact argumentRound_below (.exhausted _)
  | succ bound ih =>
      cases bound' with
      | zero => cases h
      | succ _ => exact argumentRound_below (ih (Nat.le_of_succ_le_succ h))

/-- A greater bound changes no answer of the reader of statements. -/
theorem statementsWithin_below {bound bound' : Nat} (h : bound ≤ bound') :
    Below (statementsWithin bound) (statementsWithin bound') := by
  induction bound generalizing bound' with
  | zero =>
      cases bound' <;> exact statementRound_below (.exhausted _) (.exhausted _)
  | succ bound ih =>
      cases bound' with
      | zero => cases h
      | succ _ =>
          have hle := Nat.le_of_succ_le_succ h
          exact statementRound_below (argumentsWithin_below hle) (ih hle)

/-! ## How a call ends -/

/-- How a call at a position of `tokens` ends: with a result or a fault, and a tape.  `call` is
given the bound. -/
structure Ended (call : Nat → Reading α) (tokens : List Token) (position : Nat)
    (result : Except Fault α) (d : Tape) : Prop where
  /-- A depth of as many rounds as tokens are left is enough. -/
  enough : ∀ bound, tokens.length - position ≤ bound →
    call bound (Tape.startAt tokens position) = some (result, d)
  /-- A smaller bound may be too small, but leads to no other answer. -/
  only : ∀ bound answer, call bound (Tape.startAt tokens position) = some answer →
    answer = (result, d)
  notBehind : position ≤ d.cursor.position
  inTokens : d.cursor.position ≤ tokens.length
  rest : d.cursor.rest = tokens.drop d.cursor.position
  /-- Each token up to the cursor was taken, once and in order. -/
  taken : d.taken = ((tokens.drop position).take (d.cursor.position - position)).zipIdx position

/-- A call has ended if as many rounds as tokens are left are enough for it, and its answer is the
same with any greater bound. -/
theorem exists_ended {call : Nat → Reading α} {tokens : List Token} {position : Nat}
    {answer : Except Fault (α × Cursor)} (hposition : position ≤ tokens.length)
    (hends : Ends (call (tokens.length - position)) (Tape.startAt tokens position) answer)
    (hbelow : ∀ bound bound', bound ≤ bound' → Below (call bound) (call bound')) :
    ∃ result d, Ended call tokens position result d ∧
      answer = result.map fun a => (a, d.cursor) := by
  obtain ⟨result, d, hcall, hanswer⟩ := hends
  have henough : ∀ bound, tokens.length - position ≤ bound →
      call bound (Tape.startAt tokens position) = some (result, d) :=
    fun bound hbound => (hbelow _ bound hbound _ _ hcall).1
  have honly : ∀ bound other, call bound (Tape.startAt tokens position) = some other →
      other = (result, d) := by
    intro bound other hother
    -- Both bounds lie below their maximum, which has one answer.
    have hmax := (hbelow bound (max bound (tokens.length - position)) (by omega) _ _ hother).1
    rw [henough _ (by omega)] at hmax
    exact (Option.some.inj hmax).symm
  obtain ⟨hle, hlength, hrest, htaken⟩ :=
    (hbelow _ _ (Nat.le_refl _) _ _ hcall).2.of_startAt hposition
  exact ⟨result, d, ⟨henough, honly, hle, hlength, hrest, htaken⟩, hanswer⟩

/-- Arguments take the bracket that closes them at least. -/
theorem position_lt_of_readArguments {c d : Cursor} {trees : List Tree}
    (h : Parser.readArguments c = .ok (trees, d)) : c.position < d.position := by
  obtain ⟨phrases, z, -, -, -, hpos⟩ := Parser.phrases_of_readArguments h
  omega

/-- A construct takes its first half at least. -/
theorem position_lt_of_construct {c d : Cursor} {tree : Tree}
    (h : Parser.readHead c >>= Parser.readTail = .ok (tree, d)) : c.position < d.position := by
  obtain ⟨⟨hd, e⟩, hhead, htail⟩ := Parser.bind_eq_ok.mp h
  obtain ⟨_, _, _, us, _, _, _, rfl, _⟩ := Parser.readHead_ok hhead
  rcases Parser.readTail_ok htail with
    ⟨_, _, _, _, _, _, _, rfl⟩ | ⟨_, _, e, _, _, _, harguments, _, _, _, rfl⟩
  · simp only
    omega
  · have hlt := position_lt_of_readArguments harguments
    simp only at hlt ⊢
    omega

/-- A depth of as many rounds as there are tokens is enough for a program, and a program that is
read ends behind the last token. -/
theorem programWithin_ends (tokens : List Token) :
    Ends (programWithin tokens.length) (Tape.startAt tokens 0)
      ((parse tokens).map fun program => (program, ⟨tokens.length, []⟩)) := by
  have h := (statementsWithin_ends tokens.length (Tape.startAt tokens 0) (Nat.lt_succ_self _)).bind
    (f := fun trees => (return Tree.program trees : Reading Tree))
    (g := fun x => .ok (Tree.program x.1, x.2)) fun trees d _ => .pure (Tree.program trees) d
  simp only [readStatements, Tape.startAt, List.drop_zero, Nat.zero_add] at h
  rw [parse]
  cases hs : Parser.statements 0 tokens with
  | error f =>
      rw [hs] at h
      exact h
  | ok trees =>
      rw [hs] at h
      exact h

theorem eq_of_map_cursor_eq {r r' : Except Fault α} {c c' : Cursor}
    (h : (r.map fun a => (a, c)) = r'.map fun a => (a, c')) :
    r = r' ∧ ∀ a, r = .ok a → c = c' := by
  cases r <;> cases r' <;> simp_all [Except.map]

theorem program_ended (tokens : List Token) :
    ∃ d, Ended programWithin tokens 0 (parse tokens) d ∧
      ∀ program, parse tokens = .ok program → d.cursor.position = tokens.length := by
  obtain ⟨result, d, hended, hanswer⟩ := exists_ended (Nat.zero_le tokens.length)
    (programWithin_ends tokens) fun _ _ h => (statementsWithin_below h).bind fun _ => .pure _
  obtain ⟨rfl, hcursor⟩ := eq_of_map_cursor_eq hanswer
  refine ⟨d, hended, fun program hprogram => ?_⟩
  rw [← hcursor program hprogram]

/-- **The descent of the parser ends, and it takes each token once.**  At every position of every
row of tokens, the readers of a statement, of a construct and of arguments end as the parser does.
They go no deeper than tokens are left, and a bound on the depth never changes what they give.
They leave the cursor where it was or further on in the tokens, and took those in between, once and
in order; a construct and arguments that are read do move it.  A program is read to its last token,
and its names and texts are those of the tokens that are no marks. -/
theorem tokens_taken_once (tokens : List Token) :
    (∀ (first : Token) (i : Nat), i < tokens.length →
      ∃ result d, Ended (statementWithin first) tokens (i + 1) result d ∧
        Parser.plain (Parser.statement i first (tokens.drop (i + 1))) =
          result.map fun tree => (tree, d.cursor)) ∧
    (∀ p : Nat, p ≤ tokens.length →
      ∃ result d, Ended constructWithin tokens p result d ∧
        (Parser.readHead ⟨p, tokens.drop p⟩ >>= Parser.readTail) =
          (result.map fun tree => (tree, d.cursor)) ∧
        ∀ tree, result = .ok tree → p < d.cursor.position) ∧
    (∀ p : Nat, p ≤ tokens.length →
      ∃ result d, Ended argumentsWithin tokens p result d ∧
        Parser.plain (Parser.arguments p (tokens.drop p)) =
          (result.map fun trees => (trees, d.cursor)) ∧
        ∀ trees, result = .ok trees → p < d.cursor.position) ∧
    ∃ d, Ended programWithin tokens 0 (parse tokens) d ∧
      ∀ program, parse tokens = .ok program →
        d.cursor.position = tokens.length ∧ d.taken = tokens.zipIdx ∧
          program.strings = (tokens.filter fun t => t.kind ≠ .mark).map Token.text := by
  have henough : ∀ p : Nat, EndsBefore (Tape.startAt tokens p).cursor.rest.length
      (argumentsWithin (tokens.length - p)) Parser.readArguments := by
    intro p
    rw [Tape.length_rest_startAt]
    exact (argumentsWithin_ends _).mono (Nat.le_succ _)
  refine ⟨?_, ?_, ?_, ?_⟩
  · intro first i hi
    exact exists_ended hi (statement_ends (henough (i + 1)) i first []) fun _ _ h =>
      statement_below (argumentsWithin_below h) first
  · intro p hp
    obtain ⟨result, d, hended, hanswer⟩ := exists_ended hp (construct_ends (henough p))
      fun _ _ h => construct_below (argumentsWithin_below h)
    refine ⟨result, d, hended, hanswer, ?_⟩
    rintro tree rfl
    exact position_lt_of_construct hanswer
  · intro p hp
    have hrest := Nat.lt_succ_of_le (Nat.le_of_eq (Tape.length_rest_startAt tokens p))
    obtain ⟨result, d, hended, hanswer⟩ := exists_ended hp
      (argumentsWithin_ends _ (Tape.startAt tokens p) hrest) fun _ _ => argumentsWithin_below
    refine ⟨result, d, hended, hanswer, ?_⟩
    rintro trees rfl
    exact position_lt_of_readArguments hanswer
  · obtain ⟨d, hended, hposition⟩ := program_ended tokens
    refine ⟨d, hended, fun program hprogram => ?_⟩
    have hend := hposition program hprogram
    refine ⟨hend, ?_, strings_of_parse hprogram⟩
    rw [hended.taken, hend, List.drop_zero, Nat.sub_zero, List.take_length]

/-- The reading of `[[f|a|[[b]]]]`, from the second bracket on, from the first argument on and from
the reference on. -/
theorem tokens_taken_once_nested :
    let tokens : List Token :=
      [.ofMark .opening, .ofMark .opening, .ofWord "f", .ofMark .separator, .ofLiteral "a",
        .ofMark .separator, .ofMark .opening, .ofMark .opening, .ofWord "b", .ofMark .closing,
        .ofMark .closing, .ofMark .closing, .ofMark .closing]
    let call : Tree := .call "f" [.literal "a", .reference "b"]
    (6 < tokens.length ∧ ∃ d,
      Ended (statementWithin (.ofMark .opening)) tokens 7 (.ok (.reference "b")) d) ∧
    (1 ≤ tokens.length ∧ ∃ d, Ended constructWithin tokens 1 (.ok call) d ∧
      1 < d.cursor.position) ∧
    (4 ≤ tokens.length ∧ ∃ d,
      Ended argumentsWithin tokens 4 (.ok [.literal "a", .reference "b"]) d ∧
      4 < d.cursor.position) ∧
    parse tokens = .ok (.program [call]) ∧
      ∃ d, Ended programWithin tokens 0 (.ok (.program [call])) d ∧ d.taken = tokens.zipIdx ∧
        (Tree.program [call]).strings = ["f", "a", "b"] := by
  intro tokens call
  obtain ⟨hstatement, hconstruct, harguments, d, hprogram, hread⟩ := tokens_taken_once tokens
  have hparse : parse tokens = .ok (.program [call]) := by
    cbv
  refine ⟨⟨by decide, ?_⟩, ⟨by decide, ?_⟩, ⟨by decide, ?_⟩, hparse, d, ?_⟩
  · obtain ⟨result, d, hended, -⟩ := hstatement (.ofMark .opening) 6 (by decide)
    cases hended.only 6 _ rfl
    exact ⟨_, hended⟩
  · obtain ⟨result, d, hended, -, hforward⟩ := hconstruct 1 (by decide)
    cases hended.only 12 _ rfl
    exact ⟨_, hended, hforward _ rfl⟩
  · obtain ⟨result, d, hended, -, hforward⟩ := harguments 4 (by decide)
    cases hended.only 9 _ rfl
    exact ⟨_, hended, hforward _ rfl⟩
  · obtain ⟨-, htaken, hstrings⟩ := hread _ hparse
    rw [hparse] at hprogram
    exact ⟨hprogram, htaken, hstrings⟩

end Descent
end BracketCall
