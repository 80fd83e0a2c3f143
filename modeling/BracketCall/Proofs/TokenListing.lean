import BracketCall.CommandLine
import BracketCall.Proofs.Lexing
import BracketCall.Proofs.Quotation
import Mathlib.Data.Bool.AllAny

/-!
# What a listing of tokens tells

The tokens of a source are listed one on a line: a name and, in brackets, the quoted text.  A text may
hold line breaks, quotes and brackets, and it may imitate the lines of other tokens.  Still the listing
tells the tokens, because a quoted text is one line and tells its text.

**Method.**  A line is parted at its first bracket.  The names have none, so the name before it tells
the class of the token (`Titled`), and the quoted text behind it tells the text.  The rows of lines are
parted at the line breaks, of which the lines themselves have none: all of their characters are
printable.

**Results.**
* `display_inj`: a line tells its token.
* `isPrintable_display`: a line has no line break in it, of whatever kind.
* `splitOn_printed`: a listing can be taken apart into its lines.
* `tokens_printed_faithful`: the listing that a command prints tells the tokens.
-/

namespace BracketCall

/-! ## Printable characters -/

namespace Text

theorem isPrintable_hexDigit : ∀ d < 16, isPrintable (hexDigit d) = true := by
  decide

theorem isPrintable_hexPadded (width n : Nat) : ∀ c ∈ hexPadded width n, isPrintable c = true := by
  induction width generalizing n with
  | zero => exact nofun
  | succ width ih =>
      rw [hexPadded, List.forall_mem_append]
      exact ⟨ih _, List.forall_mem_singleton.mpr (isPrintable_hexDigit _ (Nat.mod_lt n (by decide)))⟩

theorem isPrintable_escape {letter : Char} (h : isPrintable letter = true) {digits : List Char}
    (hdigits : ∀ c ∈ digits, isPrintable c = true) :
    ∀ c ∈ backslash :: letter :: digits, isPrintable c = true := by
  rw [List.forall_mem_cons, List.forall_mem_cons]
  exact ⟨rfl, h, hdigits⟩

theorem isPrintable_escapeCode (n : Nat) : ∀ c ∈ escapeCode n, isPrintable c = true := by
  unfold escapeCode
  split
  · exact isPrintable_escape rfl (isPrintable_hexPadded 2 n)
  · split
    · exact isPrintable_escape rfl (isPrintable_hexPadded 4 n)
    · exact isPrintable_escape rfl (isPrintable_hexPadded 8 n)

theorem IsQuote.isPrintable {quote : Char} (h : IsQuote quote) : isPrintable quote = true := by
  rcases h with rfl | rfl <;> rfl

/-- What is not printable is written with printable characters. -/
theorem isPrintable_escapeChar {quote : Char} (h : IsQuote quote) (c : Char) :
    ∀ d ∈ escapeChar isPrintable quote c, isPrintable d = true := by
  unfold escapeChar
  by_cases hbackslash : c = backslash
  · rw [if_pos hbackslash]
    exact isPrintable_escape rfl nofun
  by_cases hquote : c = quote
  · rw [if_neg hbackslash, if_pos hquote]
    exact isPrintable_escape h.isPrintable nofun
  by_cases hnewline : c = '\n'
  · rw [if_neg hbackslash, if_neg hquote, if_pos hnewline]
    exact isPrintable_escape rfl nofun
  by_cases hreturn : c = '\r'
  · rw [if_neg hbackslash, if_neg hquote, if_neg hnewline, if_pos hreturn]
    exact isPrintable_escape rfl nofun
  by_cases htab : c = '\t'
  · rw [if_neg hbackslash, if_neg hquote, if_neg hnewline, if_neg hreturn, if_pos htab]
    exact isPrintable_escape rfl nofun
  rw [if_neg hbackslash, if_neg hquote, if_neg hnewline, if_neg hreturn, if_neg htab]
  split
  · next hc => exact List.forall_mem_singleton.mpr hc
  · exact isPrintable_escapeCode c.toNat

/-- A quoted text has printable characters only. -/
theorem isPrintable_quoted (s : String) : ∀ c ∈ (quoted s).toList, isPrintable c = true := by
  have hquote := isQuote_quoteFor s.toList
  rw [quoted, quotedBy, String.toList_ofList, quotedChars, List.forall_mem_cons,
    List.forall_mem_append]
  refine ⟨hquote.isPrintable, ?_, List.forall_mem_singleton.mpr hquote.isPrintable⟩
  intro d hd
  obtain ⟨c, -, hc⟩ := List.mem_flatMap.mp hd
  exact isPrintable_escapeChar hquote c d hc

theorem newline_not_isPrintable : isPrintable '\n' = false := rfl

end Text

/-! ## One line -/

theorem Mark.label_injective {m n : Mark} (h : m.label = n.label) : m = n := by
  cases m <;> cases n <;> first | rfl | exact absurd h (by decide)

/-- No mark has the name of another class of tokens. -/
theorem Mark.label_ne (m : Mark) :
    m.label ≠ TokenKind.word.label ∧ m.label ≠ TokenKind.literal.label := by
  cases m <;> decide

namespace Token

/-- The tokens of sources, with the names under which they are listed. -/
inductive Titled : Token → String → Prop
  | mark (m : Mark) : Titled (.ofMark m) m.label
  | word (text : String) : Titled (.ofWord text) TokenKind.word.label
  | literal (text : String) : Titled (.ofLiteral text) TokenKind.literal.label

variable {t u : Token} {title title' : String}

theorem Titled.display (h : Titled t title) :
    t.display = title ++ ("(" ++ Text.quoted t.text ++ ")") := by
  cases h <;> simp only [Token.display, ofMark, ofWord, ofLiteral, Option.map_some, Option.getD_some,
    String.append_assoc]

theorem Titled.listed (h : Titled t title) : t.listed = .ok t.display := by
  cases h <;> rfl

/-- A name has printable characters, and no bracket among them. -/
theorem Titled.chars (h : Titled t title) :
    ∀ c ∈ title.toList, (c != '(') = true ∧ Text.isPrintable c = true := by
  cases h with
  | mark m => cases m <;> exact List.all_iff_forall_prop.mp (by decide)
  | word _ => exact List.all_iff_forall_prop.mp (by decide)
  | literal _ => exact List.all_iff_forall_prop.mp (by decide)

/-- The name and the text of a token tell the token. -/
theorem Titled.eq (h : Titled t title) (h' : Titled u title') (htitle : title = title')
    (htext : t.text = u.text) : t = u := by
  cases h with
  | mark m =>
      cases h' with
      | mark n => rw [Mark.label_injective htitle]
      | word _ => exact absurd htitle m.label_ne.1
      | literal _ => exact absurd htitle m.label_ne.2
  | word text =>
      cases h' with
      | mark n => exact absurd htitle.symm n.label_ne.1
      | word text' => exact congrArg ofWord htext
      | literal _ => exact absurd htitle (by decide)
  | literal text =>
      cases h' with
      | mark n => exact absurd htitle.symm n.label_ne.2
      | word _ => exact absurd htitle (by decide)
      | literal text' => exact congrArg ofLiteral htext

/-- A line is parted at its first bracket. -/
theorem Titled.span (h : Titled t title) :
    t.display.toList.takeWhile (· != '(') = title.toList ∧
      t.display.toList.dropWhile (· != '(') = ("(" ++ Text.quoted t.text ++ ")").toList := by
  have hbracket : ("(" ++ Text.quoted t.text ++ ")").toList.head? = some '(' := by
    simp [String.toList_append]
  rw [h.display, String.toList_append]
  refine Text.span_stops (fun c hc => (h.chars c hc).1) ?_
  rw [hbracket]
  intro c hc
  cases hc
  rfl

/-- A line tells its token. -/
theorem display_inj (h : Titled t title) (h' : Titled u title') (heq : t.display = u.display) :
    t = u := by
  obtain ⟨htitle, hrest⟩ := h.span
  obtain ⟨htitle', hrest'⟩ := h'.span
  rw [heq] at htitle hrest
  have hquoted : "(" ++ Text.quoted t.text ++ ")" = "(" ++ Text.quoted u.text ++ ")" :=
    String.toList_inj.mp (hrest.symm.trans hrest')
  have htext : Text.quoted t.text = Text.quoted u.text :=
    (String.append_right_inj _).mp ((String.append_left_inj _).mp hquoted)
  exact h.eq h' (String.toList_inj.mp (htitle.symm.trans htitle'))
    (Text.quotedBy_injective Text.isPrintable htext)

/-- A line has printable characters only. -/
theorem isPrintable_display (h : Titled t title) :
    ∀ c ∈ t.display.toList, Text.isPrintable c = true := by
  have hbracket : ∀ c ∈ "(".toList, Text.isPrintable c = true := List.forall_mem_singleton.mpr rfl
  have hend : ∀ c ∈ ")".toList, Text.isPrintable c = true := List.forall_mem_singleton.mpr rfl
  rw [h.display]
  simp only [String.toList_append, List.forall_mem_append]
  exact ⟨fun c hc => (h.chars c hc).2, ⟨hbracket, Text.isPrintable_quoted t.text⟩, hend⟩

/-! ## Tokens of a source -/

/-- The tokens of sources are named. -/
def Named (ts : List Token) : Prop :=
  ∀ t ∈ ts, ∃ title, Titled t title

theorem named_of_lexes {cs : List Char} {ts : List Token} (h : Lexes cs ts) : Named ts := by
  induction h with
  | nil => exact nofun
  | blank _ _ ih => exact ih
  | mark m _ ih => exact List.forall_mem_cons.mpr ⟨⟨_, .mark m⟩, ih⟩
  | @word text _ _ _ _ _ ih => exact List.forall_mem_cons.mpr ⟨⟨_, .word text⟩, ih⟩

theorem named_literalsFrom {ts : List Token} (h : Named ts) (afterBar : Bool) :
    Named (literalsFrom afterBar ts) := by
  induction ts generalizing afterBar with
  | nil => exact nofun
  | cons t ts ih =>
      obtain ⟨ht, hts⟩ := List.forall_mem_cons.mp h
      rw [literalsFrom, Named, List.forall_mem_cons]
      refine ⟨?_, ih hts _⟩
      split
      · exact ⟨_, .literal t.text⟩
      · exact ht

theorem named_of_tokenize {literals : Bool} {source : String} {ts : List Token}
    (h : tokenize literals source = .ok ts) : Named ts := by
  obtain ⟨raw, hraw, rfl⟩ := tokenize_eq_ok_iff.mp h
  cases literals with
  | false => exact named_of_lexes hraw
  | true => exact named_literalsFrom (named_of_lexes hraw) false

/-! ## Listings -/

/-- The lines of some tokens, one after the other. -/
def printed (ts : List Token) : String :=
  String.join (ts.map fun t => t.display ++ "\n")

theorem toList_printed_cons (t : Token) (ts : List Token) :
    (printed (t :: ts)).toList = t.display.toList ++ '\n' :: (printed ts).toList := by
  simp only [printed, String.toList_join, List.map_cons, List.flatMap_cons, String.toList_append]
  simp

/-- A listing can be taken apart into its lines; behind the last one nothing is left. -/
theorem splitOn_printed {ts : List Token} (h : Named ts) :
    (printed ts).toList.splitOn '\n' = (ts.map fun t => t.display.toList) ++ [[]] := by
  induction ts with
  | nil => rfl
  | cons t ts ih =>
      obtain ⟨⟨title, ht⟩, hts⟩ := List.forall_mem_cons.mp h
      have hline : '\n' ∉ t.display.toList := by
        intro hmem
        have hprintable := isPrintable_display ht _ hmem
        rw [Text.newline_not_isPrintable] at hprintable
        cases hprintable
      rw [toList_printed_cons, List.splitOn_append_cons_self_of_not_mem hline, ih hts]
      rfl

/-- A listing tells its tokens. -/
theorem printed_inj {ts us : List Token} (hts : Named ts) (hus : Named us)
    (h : printed ts = printed us) : ts = us := by
  have hlines : (ts.map fun t => t.display.toList) = us.map fun t => t.display.toList := by
    have hsplit := splitOn_printed hts
    rw [h, splitOn_printed hus] at hsplit
    exact (List.append_cancel_right hsplit).symm
  clear h
  induction ts generalizing us with
  | nil =>
      cases us with
      | nil => rfl
      | cons u us => cases hlines
  | cons t ts ih =>
      cases us with
      | nil => cases hlines
      | cons u us =>
          obtain ⟨⟨_, ht⟩, hts⟩ := List.forall_mem_cons.mp hts
          obtain ⟨⟨_, hu⟩, hus⟩ := List.forall_mem_cons.mp hus
          obtain ⟨hline, hlater⟩ := List.cons.inj hlines
          rw [display_inj ht hu (String.toList_inj.mp hline), ih hts hus hlater]

end Token

/-! ## The command -/

namespace CommandLine

open Token

/-- **The printed tokens of a source tell the tokens.**

Two sources that can be read, both with the pass over the literals or both without it, have the same
listing exactly if they have the same tokens.  The listing is what the command prints for a file with
that source.  It has one line for each token, and every line has printable characters only, whatever the
text of the token holds. -/
theorem tokens_printed_faithful {literals : Bool} {source source' : String} {ts ts' : List Token}
    (h : tokenize literals source = .ok ts) (h' : tokenize literals source' = .ok ts') :
    (printed ts = printed ts' ↔ ts = ts') ∧
    (∀ yaml look file, readSource look file = .ok source →
      (Request.tokens file (!literals)).perform yaml look =
        { ending := .code 0, out := printed ts }) ∧
    (printed ts).toList.splitOn '\n' = (ts.map fun t => t.display.toList) ++ [[]] ∧
    ∀ t ∈ ts, t.listed = .ok t.display ∧ ∀ c ∈ t.display.toList, Text.isPrintable c = true := by
  have hnamed := named_of_tokenize h
  refine ⟨⟨printed_inj hnamed (named_of_tokenize h'), congrArg printed⟩, ?_,
    splitOn_printed hnamed, ?_⟩
  · intro yaml look file hsource
    simp only [Request.perform, hsource, Bool.not_not, h, printed]
  · intro t ht
    obtain ⟨title, htitle⟩ := hnamed t ht
    exact ⟨htitle.listed, isPrintable_display htitle⟩

/-- A word whose text holds a line break and the line of a bracket, and the word that it begins with. -/
theorem tokens_printed_faithful_imitation :
    let source := "a')\nBLOCK_START('["
    tokenize false source = .ok [.ofWord source] ∧ tokenize false "a" = .ok [.ofWord "a"] ∧
    printed [.ofWord source] ≠ printed [.ofWord "a"] ∧
    (∀ yaml, ((Request.tokens "f" true).perform yaml
      fun _ => .ok (.file source.toUTF8.data.toList)).out = printed [.ofWord source]) := by
  intro source
  have h : tokenize false source = .ok [.ofWord source] :=
    tokenize_eq_ok_iff.mpr ⟨_, lexes_word (by decide), rfl⟩
  have h' : tokenize false "a" = .ok [.ofWord "a"] :=
    tokenize_eq_ok_iff.mpr ⟨_, lexes_word (by decide), rfl⟩
  obtain ⟨hsame, hcommand, -⟩ := tokens_printed_faithful h h'
  refine ⟨h, h', ?_, ?_⟩
  · intro hprinted
    exact absurd (hsame.mp hprinted) (by decide)
  · have hread : readSource (fun _ => .ok (.file source.toUTF8.data.toList)) "f" = .ok source := rfl
    exact fun yaml => congrArg Outcome.out (hcommand yaml _ "f" hread)

end CommandLine
end BracketCall
