import BracketCall.Evaluation
import BracketCall.Proofs.Reading
import BracketCall.Proofs.Spelling

/-!
# Programs that have a source

Not every tree is the program of a source.  A word runs up to the next `]` or `|`, so at the top of
a program nothing can follow it; and directly after a separator it would be a literal, so among the
arguments of a call a word stands only where no separator is needed, behind a call or a reference.
A literal needs a separator before it, and there is none at the top.

`HasSource` lists these conditions.  They are exact: whatever a source gives satisfies them, and a
program that satisfies them is written as a source by `Tree.source`, from which it is read back.

**Method.**  From a source to a tree: the rules for the tokens of a source (`Spelled`) are carried
along a derivation.  From a tree to a source: the tree has a derivation (`Tree.phrase`) whose tokens
obey these rules and whose texts are the source.

**Results.**
* `hasSource_of_parseSource`, `parseSource_source`: the two directions.
* `exists_source_iff`: the programs that have a source.
-/

namespace BracketCall
namespace Tree

/-- A call or a reference. -/
def isConstruct (t : Tree) : Bool :=
  t.shape = .call || t.shape = .reference

/-- The name or the text of a node. -/
def text? : Tree → Option String
  | program _ => none
  | call name _ => some name
  | reference name => some name
  | word text => some text
  | literal text => some text

mutual

/-- All nodes of a tree. -/
def nodes : Tree → List Tree
  | program statements => program statements :: nodesAll statements
  | call name arguments => call name arguments :: nodesAll arguments
  | leaf => [leaf]

/-- All nodes of a row of trees. -/
def nodesAll : List Tree → List Tree
  | [] => []
  | t :: ts => nodes t ++ nodesAll ts

end

/-- In a row of arguments a word stands only directly after a call or a reference; `after` tells
whether such a tree stands before the row. -/
def WordsFollow : (after : Bool) → List Tree → Prop
  | _, [] => True
  | after, t :: ts => (t.shape = .word → after = true) ∧ WordsFollow t.isConstruct ts

/-- The conditions on a single node below the root. -/
structure Proper (n : Tree) : Prop where
  noProgram : n.shape ≠ .program
  lexable : ∀ text ∈ n.text?, Lexable text
  wordsFollow : ∀ name arguments, n = call name arguments → WordsFollow false arguments

/-- The conditions under which a program with these statements has a source. -/
structure HasSource (statements : List Tree) : Prop where
  proper : ∀ n ∈ nodesAll statements, n.Proper
  noLiteral : ∀ t ∈ statements, t.shape ≠ .literal
  wordLast : ∀ before t after, statements = before ++ t :: after → t.shape = .word → after = []

mutual

/-- The source of a tree. -/
def source : Tree → String
  | program statements => sourceAll statements
  | call name arguments => "[[" ++ name ++ "|" ++ sourceArguments true arguments ++ "]]"
  | reference name => "[[" ++ name ++ "]]"
  | word text => text
  | literal text => text

/-- The source of a row of statements. -/
def sourceAll : List Tree → String
  | [] => ""
  | t :: ts => source t ++ sourceAll ts

/-- The source of a row of arguments.  Words and the first argument have no separator of their
own. -/
def sourceArguments : (first : Bool) → List Tree → String
  | _, [] => ""
  | first, t :: ts =>
      (if first || t.shape = .word then "" else "|") ++ source t ++ sourceArguments false ts

end

theorem forall_nodes_call {P : Tree → Prop} {name : String} {arguments : List Tree} :
    (∀ n ∈ nodes (call name arguments), P n) ↔
      P (call name arguments) ∧ ∀ n ∈ nodesAll arguments, P n := by
  simp [nodes]

theorem forall_nodesAll_cons {P : Tree → Prop} {t : Tree} {ts : List Tree} :
    (∀ n ∈ nodesAll (t :: ts), P n) ↔ (∀ n ∈ nodes t, P n) ∧ ∀ n ∈ nodesAll ts, P n := by
  simp [nodesAll, or_imp, forall_and]

theorem mem_nodes_self (t : Tree) : t ∈ nodes t := by
  cases t <;> simp [nodes]

theorem lexable_of_text? {t : Tree} {text : String} (ht : t.text? = some text)
    (htext : Lexable text) : ∀ u ∈ t.text?, Lexable u := by
  intro u hu
  cases ht.symm.trans hu
  exact htext

theorem proper_leaf {t : Tree} (hp : t.shape ≠ .program) (hc : t.shape ≠ .call)
    (ht : ∀ text ∈ t.text?, Lexable text) : ∀ n ∈ nodes t, n.Proper := by
  have hnodes : nodes t = [t] := by
    cases t with
    | program statements => exact absurd rfl hp
    | call name arguments => exact absurd rfl hc
    | reference name => rfl
    | word text => rfl
    | literal text => rfl
  rw [hnodes]
  intro n hn
  obtain rfl := List.mem_singleton.mp hn
  refine ⟨hp, ht, ?_⟩
  rintro name arguments rfl
  exact absurd rfl hc

end Tree

/-! ## From a source to a tree -/

namespace Spelled

theorem after_mark {afterBar : Bool} {m : Mark} (t : MarkToken m) {rest : List Token}
    (h : Spelled afterBar (t.val :: rest)) : Spelled (decide (m = .separator)) rest := by
  obtain ⟨t, ht⟩ := t
  cases h with
  | mark n hrest =>
      have hmn : n = m := by simpa [Token.isMark] using ht
      rw [← hmn]
      exact hrest
  | word _ _ _ => simp [Token.isMark] at ht
  | literal _ _ _ => simp [Token.isMark] at ht

theorem at_word {afterBar : Bool} (t : KindToken .word) {rest : List Token}
    (h : Spelled afterBar (t.val :: rest)) :
    afterBar = false ∧ Lexable t.val.text ∧ Stops rest ∧ Spelled false rest := by
  obtain ⟨t, ht⟩ := t
  cases h with
  | mark m _ => cases ht
  | word htext hstops hrest => exact ⟨rfl, htext, hstops, hrest⟩
  | literal _ _ _ => cases ht

theorem at_literal {afterBar : Bool} (t : KindToken .literal) {rest : List Token}
    (h : Spelled afterBar (t.val :: rest)) :
    afterBar = true ∧ Lexable t.val.text ∧ Stops rest ∧ Spelled false rest := by
  obtain ⟨t, ht⟩ := t
  cases h with
  | mark m _ => cases ht
  | word _ _ _ => cases ht
  | literal htext hstops hrest => exact ⟨rfl, htext, hstops, hrest⟩

end Spelled

/-- What the tokens of a phrase tell, if they come from a source: about its tree, about the token
before it, and about what follows it. -/
structure SpelledPhrase (afterBar : Bool) (t : Tree) (rest : List Token) : Prop where
  proper : ∀ n ∈ t.nodes, n.Proper
  word : t.shape = .word → afterBar = false
  literal : t.shape = .literal → afterBar = true
  stops : t.isConstruct = false → Stops rest
  rest : Spelled false rest

theorem Phrase.not_stops (p : Phrase) (rest : List Token) : ¬ Stops (p.yield ++ rest) := by
  intro h
  rw [p.yield_eq, List.cons_append] at h
  rcases h p.first rfl with hp | hp
  · exact p.first_ne_mark (by decide) (Mark.token .closing) hp
  · exact p.first_ne_mark (by decide) (Mark.token .separator) hp

mutual

theorem Phrase.spelled {afterBar : Bool} {rest : List Token} :
    ∀ p : Phrase, Spelled afterBar (p.yield ++ rest) → SpelledPhrase afterBar p.tree rest
  | .word t, h => by
      obtain ⟨rfl, htext, hstops, hrest⟩ := h.at_word t
      exact ⟨Tree.proper_leaf nofun nofun (Tree.lexable_of_text? rfl htext), fun _ => rfl, nofun,
        fun _ => hstops, hrest⟩
  | .literal t, h => by
      obtain ⟨rfl, htext, hstops, hrest⟩ := h.at_literal t
      exact ⟨Tree.proper_leaf nofun nofun (Tree.lexable_of_text? rfl htext), nofun, fun _ => rfl,
        fun _ => hstops, hrest⟩
  | .reference a b n c d, h => by
      obtain ⟨-, htext, -, hrest⟩ := ((h.after_mark a).after_mark b).at_word n
      exact ⟨Tree.proper_leaf nofun nofun (Tree.lexable_of_text? rfl htext), nofun, nofun, nofun,
        (hrest.after_mark c).after_mark d⟩
  | .call a b n bar args c d, h => by
      simp only [Phrase.yield, List.cons_append, List.append_assoc, List.nil_append] at h
      obtain ⟨-, htext, -, hrest⟩ := ((h.after_mark a).after_mark b).at_word n
      obtain ⟨hproper, hfollow, hend⟩ :=
        ArgumentPhrases.spelled c args (hrest.after_mark bar) nofun
      refine ⟨Tree.forall_nodes_call.mpr ⟨⟨nofun, Tree.lexable_of_text? rfl htext, ?_⟩, hproper⟩,
        nofun, nofun, nofun, hend.after_mark d⟩
      intro name arguments heq
      cases heq
      exact hfollow

theorem ArgumentPhrases.spelled {afterBar after : Bool} (c : MarkToken .closing)
    {rest : List Token} :
    ∀ as : ArgumentPhrases, Spelled afterBar (as.yield ++ c.val :: rest) →
      (afterBar = false → after = false → Stops (as.yield ++ c.val :: rest)) →
      (∀ n ∈ Tree.nodesAll as.trees, n.Proper) ∧ Tree.WordsFollow after as.trees ∧
        Spelled false rest
  | .nil, h, _ => ⟨nofun, trivial, h.after_mark c⟩
  | .cons none p as, h, hstops => by
      simp only [ArgumentPhrases.yield, List.append_assoc] at h hstops
      have hp := p.spelled h
      obtain ⟨hproper, hfollow, hend⟩ :=
        ArgumentPhrases.spelled c as hp.rest fun _ hc => hp.stops hc
      refine ⟨Tree.forall_nodesAll_cons.mpr ⟨hp.proper, hproper⟩, ⟨?_, hfollow⟩, hend⟩
      intro hw
      cases after with
      | true => rfl
      | false => exact absurd (hstops (hp.word hw) rfl) (p.not_stops _)
  | .cons (some bar) p as, h, _ => by
      simp only [ArgumentPhrases.yield, List.append_assoc, List.cons_append] at h
      have hp := p.spelled (h.after_mark bar)
      obtain ⟨hproper, hfollow, hend⟩ :=
        ArgumentPhrases.spelled c as hp.rest fun _ hc => hp.stops hc
      refine ⟨Tree.forall_nodesAll_cons.mpr ⟨hp.proper, hproper⟩, ⟨?_, hfollow⟩, hend⟩
      intro hw
      cases hp.word hw

end

theorem Tree.hasSource_nil : Tree.HasSource [] := by
  refine ⟨nofun, nofun, ?_⟩
  intro before t after h
  simp at h

theorem Tree.hasSource_cons {t : Tree} {ts : List Tree} (ht : ∀ n ∈ t.nodes, n.Proper)
    (hl : t.shape ≠ .literal) (hw : t.shape = .word → ts = []) (hts : Tree.HasSource ts) :
    Tree.HasSource (t :: ts) := by
  refine ⟨Tree.forall_nodesAll_cons.mpr ⟨ht, hts.proper⟩, ?_, ?_⟩
  · intro u hu
    rcases List.mem_cons.mp hu with rfl | hu
    · exact hl
    · exact hts.noLiteral u hu
  · intro before u after heq hu
    cases before with
    | nil =>
        cases heq
        exact hw hu
    | cons v before =>
        cases heq
        exact hts.wordLast before u after rfl hu

theorem hasSource_of_spelled :
    ∀ phrases : List Phrase, Spelled false (phrases.flatMap Phrase.yield) →
      Tree.HasSource (phrases.map Phrase.tree)
  | [], _ => Tree.hasSource_nil
  | p :: ps, h => by
      have hp := p.spelled h
      refine Tree.hasSource_cons hp.proper ?_ ?_ (hasSource_of_spelled ps hp.rest)
      · intro hl
        cases hp.literal hl
      · intro hw
        cases ps with
        | nil => rfl
        | cons q qs =>
            have hstops := hp.stops (by simp [Tree.isConstruct, hw])
            exact absurd hstops (q.not_stops _)

theorem exists_tokens_of_parseSource {literals : Bool} {source : String} {program : Tree}
    (h : parseSource literals source = .ok program) :
    ∃ tokens, tokenize literals source = .ok tokens ∧ parse tokens = .ok program := by
  rw [parseSource] at h
  cases htokens : tokenize literals source with
  | error f =>
      rw [htokens] at h
      cases h
  | ok tokens =>
      rw [htokens] at h
      exact ⟨tokens, rfl, h⟩

/-- Whatever a source gives satisfies the conditions. -/
theorem hasSource_of_parseSource {source : String} {statements : List Tree}
    (h : parseSource true source = .ok (.program statements)) : Tree.HasSource statements := by
  obtain ⟨tokens, htokens, hparse⟩ := exists_tokens_of_parseSource h
  obtain ⟨⟨phrases, rfl⟩, hprogram⟩ := derives_of_parse hparse
  cases hprogram
  exact hasSource_of_spelled phrases (spelled_of_tokenize htokens)

/-! ## From a tree to a source -/

namespace Tree

mutual

/-- The derivation of a tree that has the fewest separators. -/
def phrase : Tree → Phrase
  | program _ => .word (wordToken "")
  | call name arguments =>
      .call (Mark.token .opening) (Mark.token .opening) (wordToken name) (Mark.token .separator)
        (argumentPhrases true arguments) (Mark.token .closing) (Mark.token .closing)
  | reference name =>
      .reference (Mark.token .opening) (Mark.token .opening) (wordToken name)
        (Mark.token .closing) (Mark.token .closing)
  | word text => .word (wordToken text)
  | literal text => .literal (literalToken text)

/-- The derivation of a row of arguments. -/
def argumentPhrases : (first : Bool) → List Tree → ArgumentPhrases
  | _, [] => .nil
  | first, t :: ts =>
      .cons (if first || t.shape = .word then none else some (Mark.token .separator))
        (phrase t) (argumentPhrases false ts)

end

mutual

theorem tree_phrase : ∀ t : Tree, (∀ n ∈ t.nodes, n.Proper) → t.phrase.tree = t
  | program statements, h => absurd rfl (h _ (mem_nodes_self _)).noProgram
  | call name arguments, h => by
      have hargs := trees_argumentPhrases true arguments (forall_nodes_call.mp h).2
      simp [phrase, Phrase.tree, hargs, wordToken, Token.ofWord]
  | reference name, _ => rfl
  | word text, _ => rfl
  | literal text, _ => rfl

theorem trees_argumentPhrases (first : Bool) :
    ∀ ts : List Tree, (∀ n ∈ nodesAll ts, n.Proper) → (argumentPhrases first ts).trees = ts
  | [], _ => rfl
  | t :: ts, h => by
      obtain ⟨ht, hts⟩ := forall_nodesAll_cons.mp h
      rw [argumentPhrases, ArgumentPhrases.trees, tree_phrase t ht,
        trees_argumentPhrases false ts hts]

end

mutual

theorem texts_phrase : ∀ t : Tree, (∀ n ∈ t.nodes, n.Proper) →
    texts t.phrase.yield = t.source.toList
  | program statements, h => absurd rfl (h _ (mem_nodes_self _)).noProgram
  | call name arguments, h => by
      have hargs := texts_argumentPhrases true arguments (forall_nodes_call.mp h).2
      simp [phrase, Phrase.yield, source, hargs, Mark.token, wordToken, Token.ofWord, Mark.char]
  | reference name, _ => by
      simp [phrase, Phrase.yield, source, Mark.token, wordToken, Token.ofWord, Mark.char]
  | word text, _ => by
      simp [phrase, Phrase.yield, source, wordToken, Token.ofWord]
  | literal text, _ => by
      simp [phrase, Phrase.yield, source, literalToken, Token.ofLiteral]

theorem texts_argumentPhrases (first : Bool) :
    ∀ ts : List Tree, (∀ n ∈ nodesAll ts, n.Proper) →
      texts (argumentPhrases first ts).yield = (sourceArguments first ts).toList
  | [], _ => rfl
  | t :: ts, h => by
      obtain ⟨ht, hts⟩ := forall_nodesAll_cons.mp h
      have hp := texts_phrase t ht
      have ha := texts_argumentPhrases false ts hts
      rw [argumentPhrases, sourceArguments]
      by_cases hbar : (first || t.shape = .word) = true
      · simp [hbar, ArgumentPhrases.yield, hp, ha]
      · simp [hbar, ArgumentPhrases.yield, hp, ha, Mark.token, Mark.char]

end

theorem stops_argumentPhrases {rest : List Token} :
    ∀ ts : List Tree, WordsFollow false ts →
      Stops ((argumentPhrases false ts).yield ++ (Mark.token .closing).val :: rest)
  | [], _ => by
      intro t ht
      cases ht
      exact Or.inl rfl
  | t :: ts, h => by
      have hw : t.shape ≠ .word := fun hw => Bool.false_ne_true (h.1 hw)
      intro u hu
      simp [argumentPhrases, hw, ArgumentPhrases.yield] at hu
      exact Or.inr hu.symm

mutual

theorem spelled_phrase {afterBar : Bool} {rest : List Token} :
    ∀ t : Tree, SpelledPhrase afterBar t rest → Spelled afterBar (t.phrase.yield ++ rest)
  | program statements, h => absurd rfl (h.proper _ (mem_nodes_self _)).noProgram
  | call name arguments, h => by
      obtain ⟨hcall, hproper⟩ := forall_nodes_call.mp h.proper
      have hargs := spelled_argumentPhrases true (.mark .closing h.rest) arguments
        (fun _ => rfl) hproper (hcall.wordsFollow name arguments rfl)
      simp only [phrase, Phrase.yield, List.cons_append, List.append_assoc, List.nil_append]
      refine .mark .opening (.mark .opening (.word (hcall.lexable name rfl) ?_
        (.mark .separator hargs)))
      intro t ht
      cases ht
      exact Or.inr rfl
  | reference name, h => by
      have hname := (h.proper _ (mem_nodes_self _)).lexable name rfl
      refine .mark .opening (.mark .opening (.word hname ?_
        (.mark .closing (.mark .closing h.rest))))
      intro t ht
      cases ht
      exact Or.inl rfl
  | word text, h => by
      have htext := (h.proper _ (mem_nodes_self _)).lexable text rfl
      obtain rfl := h.word rfl
      exact .word htext (h.stops rfl) h.rest
  | literal text, h => by
      have htext := (h.proper _ (mem_nodes_self _)).lexable text rfl
      obtain rfl := h.literal rfl
      exact .literal htext (h.stops rfl) h.rest

-- `first` also tells whether the token before is a separator: the one behind the name of the call.
theorem spelled_argumentPhrases (first : Bool) {after : Bool} {rest : List Token}
    (hrest : Spelled false rest) :
    ∀ ts : List Tree, (first = true → after = false) → (∀ n ∈ nodesAll ts, n.Proper) →
      WordsFollow after ts →
      Spelled first ((argumentPhrases first ts).yield ++ (Mark.token .closing).val :: rest)
  | [], _, _, _ => .mark .closing hrest
  | t :: ts, hfirst, hproper, hfollow => by
      obtain ⟨ht, hts⟩ := forall_nodesAll_cons.mp hproper
      obtain ⟨hword, hfollow⟩ := hfollow
      have htail := spelled_argumentPhrases false hrest ts nofun hts hfollow
      have hstops : t.isConstruct = false →
          Stops ((argumentPhrases false ts).yield ++ (Mark.token .closing).val :: rest) := by
        intro hc
        rw [hc] at hfollow
        exact stops_argumentPhrases ts hfollow
      by_cases hbar : (first || t.shape = .word) = true
      · rw [argumentPhrases, if_pos hbar, ArgumentPhrases.yield, List.append_assoc]
        refine spelled_phrase t ⟨ht, ?_, ?_, hstops, htail⟩
        · intro hw
          cases first with
          | false => rfl
          | true => exact absurd (hword hw) (by simp [hfirst rfl])
        · intro hl
          simpa [hl] using hbar
      · rw [argumentPhrases, if_neg hbar, ArgumentPhrases.yield, List.cons_append,
          List.append_assoc]
        refine .mark .separator (spelled_phrase t ⟨ht, ?_, fun _ => rfl, hstops, htail⟩)
        intro hw
        simp [hw] at hbar

end

theorem spelled_phrases :
    ∀ statements : List Tree, HasSource statements →
      Spelled false ((statements.map phrase).flatMap Phrase.yield)
  | [], _ => .nil
  | t :: ts, h => by
      obtain ⟨ht, hts⟩ := forall_nodesAll_cons.mp h.proper
      have hlater : HasSource ts := by
        refine ⟨hts, fun u hu => h.noLiteral u (List.mem_cons_of_mem t hu), ?_⟩
        rintro before u after rfl hu
        exact h.wordLast (t :: before) u after rfl hu
      rw [List.map_cons, List.flatMap_cons]
      refine spelled_phrase t ⟨ht, fun _ => rfl, ?_, ?_, spelled_phrases ts hlater⟩
      · intro hl
        exact absurd hl (h.noLiteral t List.mem_cons_self)
      · intro hc
        have hw : t.shape = .word := by
          cases t with
          | program statements => exact absurd rfl (ht _ (mem_nodes_self _)).noProgram
          | call name arguments => cases hc
          | reference name => cases hc
          | word text => rfl
          | literal text => exact absurd rfl (h.noLiteral _ List.mem_cons_self)
        obtain rfl := h.wordLast [] t ts rfl hw
        intro u hu
        cases hu

theorem trees_phrases {statements : List Tree} (h : ∀ n ∈ nodesAll statements, n.Proper) :
    (statements.map phrase).map Phrase.tree = statements := by
  induction statements with
  | nil => rfl
  | cons t ts ih =>
      obtain ⟨ht, hts⟩ := forall_nodesAll_cons.mp h
      rw [List.map_cons, List.map_cons, tree_phrase t ht, ih hts]

theorem texts_phrases {statements : List Tree} (h : ∀ n ∈ nodesAll statements, n.Proper) :
    texts ((statements.map phrase).flatMap Phrase.yield) = (sourceAll statements).toList := by
  induction statements with
  | nil => rfl
  | cons t ts ih =>
      obtain ⟨ht, hts⟩ := forall_nodesAll_cons.mp h
      rw [List.map_cons, List.flatMap_cons, texts_append, texts_phrase t ht, ih hts, sourceAll,
        String.toList_append]

end Tree

/-- A program that satisfies the conditions is read back from its source. -/
theorem parseSource_source {statements : List Tree} (h : Tree.HasSource statements) :
    parseSource true (Tree.source (.program statements)) = .ok (.program statements) := by
  have hsource : Tree.source (.program statements) =
      String.ofList (texts ((statements.map Tree.phrase).flatMap Phrase.yield)) := by
    rw [Tree.texts_phrases h.proper, String.ofList_toList]
    rfl
  rw [parseSource, hsource, tokenize_texts (Tree.spelled_phrases statements h)]
  have hparse := parse_derivation ⟨statements.map Tree.phrase, rfl⟩
  rw [Derivation.program, Tree.trees_phrases h.proper] at hparse
  exact hparse

/-- **The programs that have a source** are those that satisfy the conditions, and `Tree.source`
writes a source for exactly these. -/
theorem exists_source_iff (statements : List Tree) :
    ((∃ source, parseSource true source = .ok (.program statements)) ↔
      Tree.HasSource statements) ∧
    (parseSource true (Tree.source (.program statements)) = .ok (.program statements) ↔
      Tree.HasSource statements) := by
  refine ⟨⟨?_, fun h => ⟨_, parseSource_source h⟩⟩, hasSource_of_parseSource, parseSource_source⟩
  rintro ⟨source, h⟩
  exact hasSource_of_parseSource h

end BracketCall
