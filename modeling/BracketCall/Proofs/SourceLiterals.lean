import BracketCall.Natives
import BracketCall.Proofs.NumeralForms
import BracketCall.Proofs.ProgramRun
import BracketCall.Proofs.SourceImage
import Mathlib.Data.List.DropRight

/-!
# What the literals of a source denote

A literal of a source begins with a letter or a digit.  A numeral may also begin with a sign or with a
point, and a blank text is zero; but no literal is written in these ways.  So a literal denotes a
number that is not negative, or it is its own text.

Conversely, every text that begins with a letter or a digit and holds neither `]` nor `|` can be given
to a function as a literal, and the function receives what the text denotes.

**Method.**  Blanks are only taken off the end of a literal, so its first character stays.  A double
has the sign with which it is written, whatever is rounded (`Double.sign?_ofDecimal`).

**Results.**
* `Numeral.ofTrimmed?_isNonNegative`: a numeral without a sign is not negative.
* `Lexable.literalText`: what the text of a literal denotes.
* `parseSource_literal`: the call with a text as its only argument.
* `source_literals`: both directions.
-/

namespace BracketCall

/-! ## Signs of numbers -/

namespace Double

/-- The sign of a double, which not-a-number does not have. -/
def sign? : Double → Option Bool
  | nan => none
  | infinite negative => some negative
  | finite negative _ _ => some negative

theorem sign?_ofFraction (negative : Bool) (num den : Nat) :
    (ofFraction negative num den).sign? = some negative := by
  unfold ofFraction
  dsimp only
  split_ifs <;> rfl

theorem sign?_ofDecimal (negative : Bool) (digits : Nat) (exponent : Int) :
    (ofDecimal negative digits exponent).sign? = some negative := by
  unfold ofDecimal
  split_ifs
  · rfl
  · rfl
  · rfl
  · exact sign?_ofFraction negative _ _
  · exact sign?_ofFraction negative _ _

end Double

/-- An integer that is not negative, or a double without a minus sign. -/
def Number.IsNonNegative : Number → Prop
  | int n => 0 ≤ n
  | float d => d.sign? = some false

namespace Numeral

theorem takeSign_of_unsigned {cs : List Char} (h : Unsigned cs) : takeSign cs = (false, cs) :=
  takeSign_append .absent h

theorem integer?_isNonNegative {cs : List Char} (h : Unsigned cs) {n : Number}
    (hn : integer? cs = some n) : n.IsNonNegative := by
  rw [integer?, takeSign_of_unsigned h] at hn
  dsimp only at hn
  split_ifs at hn
  · cases hn
    exact Int.natCast_nonneg _
  · cases hn
    exact Double.sign?_ofDecimal false _ 0

theorem sign?_decimal? {cs : List Char} (h : Unsigned cs) {d : Double}
    (hd : decimal? cs = some d) : d.sign? = some false := by
  rw [decimal?, takeSign_of_unsigned h] at hd
  dsimp only at hd
  split_ifs at hd
  obtain ⟨power, -, rfl⟩ := Option.map_eq_some_iff.mp hd
  exact Double.sign?_ofDecimal false _ _

theorem sign?_infinity? {cs : List Char} (h : Unsigned cs) {d : Double}
    (hd : infinity? cs = some d) : d.sign? = some false := by
  rw [infinity?, takeSign_of_unsigned h] at hd
  dsimp only at hd
  split_ifs at hd
  cases hd
  rfl

/-- A numeral without a sign is not negative. -/
theorem ofTrimmed?_isNonNegative {cs : List Char} (h : Unsigned cs) {n : Number}
    (hn : ofTrimmed? cs = some n) : n.IsNonNegative := by
  by_cases hcs : cs = []
  · rw [ofTrimmed?, if_pos hcs] at hn
    cases hn
    exact Int.le_refl 0
  obtain ⟨form, -, -, hread⟩ := exists_form_of_ofTrimmed? hcs hn
  cases form with
  | integer => exact integer?_isNonNegative h hread
  | decimal =>
      obtain ⟨d, hd, rfl⟩ := Option.map_eq_some_iff.mp hread
      exact sign?_decimal? h hd
  | infinity =>
      obtain ⟨d, hd, rfl⟩ := Option.map_eq_some_iff.mp hread
      exact sign?_infinity? h hd
  | radix =>
      obtain ⟨k, -, rfl⟩ := Option.map_eq_some_iff.mp hread
      exact Int.natCast_nonneg k

end Numeral

/-! ## The text of a literal -/

/-- A text that does not begin with a blank keeps its first character. -/
theorem Text.head?_trimChars {c : Char} (hc : isBlank c = false) (cs : List Char) :
    (trimChars (c :: cs)).head? = some c := by
  have htrim : trimChars (c :: cs) = (c :: cs).rdropWhile isBlank := by
    rw [trimChars, List.dropWhile_cons_of_neg (by simp [hc])]
    rfl
  have hne : (c :: cs).rdropWhile isBlank ≠ [] := by
    intro hnil
    have hall := List.rdropWhile_eq_nil_iff.mp hnil c List.mem_cons_self
    rw [hc] at hall
    cases hall
  -- what is left is a prefix with a first character, which is then the same one
  obtain ⟨d, ds, hds⟩ := List.exists_cons_of_ne_nil hne
  have hprefix := List.rdropWhile_prefix isBlank (l := c :: cs)
  rw [hds, List.cons_prefix_cons] at hprefix
  rw [htrim, hds, hprefix.1]
  rfl

/-- What holds of the text of a literal.  It is neither blank nor does it begin with a sign or a
point, and it denotes a number that is not negative or stays as it is. -/
structure LiteralText (text : String) : Prop where
  notBlank : Text.trimChars text.toList ≠ []
  start : ∀ c ∈ (Text.trimChars text.toList).head?, c ≠ '+' ∧ c ≠ '-' ∧ c ≠ '.'
  denotes :
    (∃ n : Number, n.IsNonNegative ∧
      Dynamic.coerce (.text text) = ⟨.number, n.toValue⟩) ∨
    Dynamic.coerce (.text text) = ⟨.string, .text text⟩

theorem not_start_of_isLetterOrDigit {c : Char} (h : Text.isLetterOrDigit c = true) :
    c ≠ '+' ∧ c ≠ '-' ∧ c ≠ '.' := by
  refine ⟨?_, ?_, ?_⟩
  · rintro rfl
    exact absurd h (by decide)
  · rintro rfl
    exact absurd h (by decide)
  · rintro rfl
    exact absurd h (by decide)

/-- What a text denotes that can be a word of a source. -/
theorem Lexable.literalText {text : String} (h : Lexable text) : LiteralText text := by
  obtain ⟨c, cs, htext, hc, -⟩ := h.exists_cons
  have hhead : (Text.trimChars text.toList).head? = some c := by
    rw [htext]
    exact Text.head?_trimChars (Text.not_isBlank_of_isLetterOrDigit hc) cs
  have hstart : ∀ d ∈ (Text.trimChars text.toList).head?, d ≠ '+' ∧ d ≠ '-' ∧ d ≠ '.' := by
    rw [hhead]
    rintro d ⟨⟩
    exact not_start_of_isLetterOrDigit hc
  refine ⟨?_, hstart, ?_⟩
  · intro hnil
    rw [hnil] at hhead
    cases hhead
  · have hunsigned : Numeral.Unsigned (Text.trimChars text.toList) :=
      fun d hd => ⟨(hstart d hd).1, (hstart d hd).2.1⟩
    cases hread : Numeral.read? text with
    | none => exact Or.inr (Dynamic.coerce_text_of_none hread)
    | some n =>
        exact Or.inl ⟨n, Numeral.ofTrimmed?_isNonNegative hunsigned hread,
          Dynamic.coerce_text_of_read? hread⟩

/-- The texts of the literals of a source can be words. -/
theorem lexable_of_literal {source : String} {program : Tree}
    (h : parseSource true source = .ok program) {text : String}
    (hliteral : .literal text ∈ program.nodes) : Lexable text := by
  obtain ⟨tokens, -, hparse⟩ := exists_tokens_of_parseSource h
  obtain ⟨⟨phrases, _⟩, rfl⟩ := derives_of_parse hparse
  have hnodes : .literal text ∈ Tree.nodesAll (phrases.map Phrase.tree) := by
    simpa [Derivation.program, Tree.nodes] using hliteral
  exact ((hasSource_of_parseSource h).proper _ hnodes).lexable text rfl

/-! ## A text as the only argument -/

/-- A call with one literal has a source. -/
theorem hasSource_literal {name text : String} (hname : Lexable name) (htext : Lexable text) :
    Tree.HasSource [.call name [.literal text]] := by
  have hliteral : ∀ n ∈ Tree.nodes (.literal text), n.Proper :=
    Tree.proper_leaf nofun nofun (Tree.lexable_of_text? rfl htext)
  have hcall : (Tree.call name [.literal text]).Proper := by
    refine ⟨nofun, Tree.lexable_of_text? rfl hname, ?_⟩
    rintro _ _ ⟨⟩
    exact ⟨nofun, trivial⟩
  refine Tree.hasSource_cons (Tree.forall_nodes_call.mpr ⟨hcall, ?_⟩) nofun nofun Tree.hasSource_nil
  exact Tree.forall_nodesAll_cons.mpr ⟨hliteral, nofun⟩

/-- The source of a call whose only argument is a text. -/
theorem parseSource_literal {name text : String} (hname : Lexable name) (htext : Lexable text) :
    parseSource true ("[[" ++ name ++ "|" ++ text ++ "]]") =
      .ok (.program [.call name [.literal text]]) := by
  have hsource : Tree.source (.program [.call name [.literal text]]) =
      "[[" ++ name ++ "|" ++ text ++ "]]" := by
    simp [Tree.source, Tree.sourceAll, Tree.sourceArguments]
  rw [← hsource]
  exact parseSource_source (hasSource_literal hname htext)

/-- The function of the call is invoked with what the text denotes, and that is all. -/
theorem evaluate_literal {κ σ : Type} (natives : Natives κ σ) {name text : String}
    (hname : Lexable name) (htext : Lexable text) {m : Machine κ σ} {code : κ}
    (hf : m.world.bindings.function? name = some code) :
    m.evaluate natives true ("[[" ++ name ++ "|" ++ text ++ "]]") =
      Machine.andThen (m.invoke natives ⟨name, code, [Dynamic.coerce (.text text)]⟩)
        fun _ m' => (.ok (), m') := by
  rw [Machine.evaluate_program (parseSource_literal hname htext), Machine.statements_singleton,
    Machine.call_of_function natives _ hf]
  rfl

/-- **What the literals of a source denote.**  In the program of any source, the text of a literal is
not blank and begins with neither a sign nor a point; it denotes an integer that is not negative, a
double without a minus sign, or itself with all its blanks.

Conversely, take any text and any name of a function that begin with a letter or a digit and hold
neither `]` nor `|`.  The source that calls the function with the text invokes it once, with one
argument, which is what the text denotes; the evaluation does nothing else and ends as this invocation
does. -/
theorem source_literals {κ σ : Type} (natives : Natives κ σ) :
    (∀ (source : String) (program : Tree), parseSource true source = .ok program →
      ∀ text, .literal text ∈ program.nodes → LiteralText text) ∧
    ∀ (name text : String) (m : Machine κ σ) (code : κ), Lexable name → Lexable text →
      m.world.bindings.function? name = some code →
      let call : Invocation κ := ⟨name, code, [Dynamic.coerce (.text text)]⟩
      let run := m.evaluate natives true ("[[" ++ name ++ "|" ++ text ++ "]]")
      run.2.trace = m.trace ++ [call] ∧
      run.2.world = (natives code call.arguments m.world).2 ∧
      run.1 = (natives code call.arguments m.world).1.map fun _ => () := by
  constructor
  · intro source program h text hliteral
    exact (lexable_of_literal h hliteral).literalText
  · intro name text m code hname htext hf call run
    have hrun : run = Machine.andThen (m.invoke natives call) fun _ m' => (.ok (), m') :=
      evaluate_literal natives hname htext hf
    rw [hrun, Machine.invoke]
    rcases natives call.code call.arguments m.world with ⟨e | result, w⟩
    · exact ⟨rfl, rfl, rfl⟩
    · exact ⟨rfl, rfl, rfl⟩

/-- A machine with the standard natives that has written nothing. -/
def unwritten : Machine Standard String :=
  { world := { bindings := Standard.register id {}, host := "" } }

/-- The program of a source that prints an infinity with a blank behind it. -/
def printInfinity : Tree :=
  .program [.call "출력" [.literal "Infinity "]]

/-- The native receives the infinity, and prints it. -/
theorem source_literals_printed :
    parseSource true ("[[" ++ "출력" ++ "|" ++ "Infinity " ++ "]]") = .ok printInfinity ∧
    .literal "Infinity " ∈ printInfinity.nodes ∧ LiteralText "Infinity " ∧
    Lexable "출력" ∧ Lexable "Infinity " ∧
    unwritten.world.bindings.function? "출력" = some .print ∧
    (unwritten.evaluate Standard.natives true
      ("[[" ++ "출력" ++ "|" ++ "Infinity " ++ "]]")).2.trace =
        [⟨"출력", .print, [⟨.number, .float (.infinite false)⟩]⟩] ∧
    (unwritten.evaluate Standard.natives true
      ("[[" ++ "출력" ++ "|" ++ "Infinity " ++ "]]")).2.world.host = "inf\n" := by
  have hname : Lexable "출력" := by decide +kernel
  have htext : Lexable "Infinity " := by decide +kernel
  have hf : unwritten.world.bindings.function? "출력" = some .print := by decide +kernel
  have hparse := parseSource_literal hname htext
  have hliteral : .literal "Infinity " ∈ printInfinity.nodes := by decide +kernel
  have hvalue : Dynamic.coerce (.text "Infinity ") = ⟨.number, .float (.infinite false)⟩ := by
    have hread : Numeral.read? "Infinity " = some (.float (.infinite false)) := by decide +kernel
    exact Dynamic.coerce_text_of_read? hread
  obtain ⟨hdenotes, hinvokes⟩ := source_literals Standard.natives
  obtain ⟨htrace, hworld, -⟩ := hinvokes "출력" "Infinity " unwritten .print hname htext hf
  rw [hvalue] at htrace hworld
  refine ⟨hparse, hliteral, hdenotes _ _ hparse _ hliteral, hname, htext, hf, htrace, ?_⟩
  rw [hworld]
  rfl

end BracketCall
