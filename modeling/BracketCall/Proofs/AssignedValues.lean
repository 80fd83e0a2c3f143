import BracketCall.Proofs.IntegerTexts
import BracketCall.Proofs.Quotation
import BracketCall.Proofs.ReaderAgreement
import Mathlib.Data.List.DropRight

/-!
# Values of assignments

An assignment gives a variable a text or a number, and the writer can choose.  Between two quotes of
the same kind every text is taken as it stands, though truth values and numbers are looked for before
the quotes are.  An integer in decimal is taken for that integer.  An assignment is refused for its name
alone: without `=`, or with nothing but blanks before the first one.

**Method.**  A quote is in the alphabet of no numeral and begins no word that has a meaning, so what
begins with a quote gets as far as `unquote`, which takes off one pair.  Whether the text between the
quotes has more of them, or begins with blanks, is never asked.

**Results.**
* `value_quoted`: the value of a text between quotes.
* `value_integer`: the value of an integer in decimal.
* `parse_eq_error_iff`: which assignments are refused.
* `parse_values`: all of this for whole assignments, with blanks around names and values.
-/

namespace BracketCall

/-! ## Blank texts -/

namespace Text

/-- A text is trimmed to nothing exactly if it is blank. -/
theorem trimChars_eq_nil_iff {cs : List Char} :
    trimChars cs = [] ↔ ∀ c ∈ cs, isBlank c = true := by
  have htrim : trimChars cs = (cs.dropWhile isBlank).rdropWhile isBlank := rfl
  rw [htrim, List.rdropWhile_eq_nil_iff]
  constructor
  · intro h c hc
    have hparts : cs.takeWhile isBlank ++ cs.dropWhile isBlank = cs :=
      List.takeWhile_append_dropWhile
    rw [← hparts, List.mem_append] at hc
    rcases hc with hc | hc
    · exact List.mem_takeWhile_imp hc
    · exact h c hc
  · intro h c hc
    exact h c ((List.dropWhile_sublist isBlank).mem hc)

theorem IsQuote.not_isBlank {quote : Char} (h : IsQuote quote) : isBlank quote = false := by
  rcases h with rfl | rfl <;> rfl

end Text

/-! ## Numerals and quotes -/

namespace LooseNumeral

open Numeral

theorem not_isWord_of_head {word : String} {c : Char} (h : c.toLower ∉ word.toList.head?)
    (cs : List Char) : isWord word (c :: cs) = false := by
  rw [isWord, decide_eq_false_iff_not]
  intro heq
  refine h ?_
  rw [← heq]
  rfl

theorem not_isDecimal_of_quote {quote : Char} (h : Text.IsQuote quote) (cs : List Char) :
    ¬ IsDecimal (quote :: cs) := by
  intro hdecimal
  have hspells : Form.decimal.Spells (quote :: cs) := hdecimal
  obtain ⟨-, -, hdouble, hsingle⟩ :=
    plain_of_mem_alphabet quote (hspells.mem_alphabet quote List.mem_cons_self)
  exact h.elim hsingle hdouble

theorem special?_of_quote {quote : Char} (h : Text.IsQuote quote) (cs : List Char) :
    special? (quote :: cs) = none := by
  rcases h with rfl | rfl <;> rfl

/-- Underscores are dropped behind a quote only. -/
theorem normalise?_of_quote {quote : Char} (h : Text.IsQuote quote) (cs : List Char) :
    normalise? (quote :: cs) = (normalise? cs).map (quote :: ·) := by
  rcases h with rfl | rfl <;> rfl

/-- What begins with a quote is no number. -/
theorem read?_of_quote {quote : Char} (h : Text.IsQuote quote) (cs : List Char) :
    read? (quote :: cs) = none := by
  rw [read?, normalise?_of_quote h]
  cases normalise? cs with
  | none => rfl
  | some body =>
      obtain ⟨hinteger, hdecimal⟩ := none_of_not_isDecimal (not_isDecimal_of_quote h body)
      simp only [Option.map_some, Option.bind_some, hinteger, hdecimal, special?_of_quote h]
      rfl

end LooseNumeral

namespace Assignment

open Numeral

/-! ## Values -/

/-- One pair of quotes is taken off, whatever stands between them. -/
theorem unquote_quoted {quote : Char} (h : Text.IsQuote quote) (cs : List Char) :
    unquote (quote :: (cs ++ [quote])) = cs := by
  have hlast : (cs ++ [quote]).getLast? = some quote := List.getLast?_concat
  have hinner : (cs ++ [quote]).dropLast = cs := List.dropLast_concat
  obtain ⟨c, rest, hrow⟩ := List.exists_cons_of_ne_nil (List.concat_ne_nil quote cs)
  rw [hrow] at hlast hinner ⊢
  rw [unquote, if_pos ⟨h.symm, hlast⟩, hinner]

/-- A text between quotes is that text. -/
theorem value_quoted {quote : Char} (h : Text.IsQuote quote) (cs : List Char) :
    value (quote :: (cs ++ [quote])) = .text (String.ofList cs) := by
  have htrue : LooseNumeral.isWord "true" (quote :: (cs ++ [quote])) = false := by
    refine LooseNumeral.not_isWord_of_head ?_ _
    rcases h with rfl | rfl <;> decide
  have hfalse : LooseNumeral.isWord "false" (quote :: (cs ++ [quote])) = false := by
    refine LooseNumeral.not_isWord_of_head ?_ _
    rcases h with rfl | rfl <;> decide
  rw [value, htrue, hfalse, LooseNumeral.read?_of_quote h, unquote_quoted h]
  rfl

/-- The decimal text of an integer: a minus sign if it is negative, and its digits. -/
theorem toList_toString_int (n : Int) :
    ∃ sign : Sign, sign.Fits n ∧ (toString n).toList = sign.chars ++ Nat.toDigits 10 n.natAbs := by
  cases n with
  | ofNat m =>
      refine ⟨.absent, ?_, ?_⟩
      · exact Int.natCast_nonneg m
      · exact Nat.toList_repr
  | negSucc m =>
      refine ⟨.minus, ?_, ?_⟩
      · exact Int.le_of_lt (Int.negSucc_lt_zero m)
      · change ("-" ++ (m + 1).repr).toList = _
        rw [String.toList_append, Nat.toList_repr]
        rfl

/-- An integer in decimal is that integer. -/
theorem value_integer {n : Int} (hn : n.natAbs < 10 ^ digitLimit) :
    IsInteger (toString n).toList ∧ value (toString n).toList = .int n := by
  obtain ⟨sign, hsign, htext⟩ := toList_toString_int n
  have hlength : 0 + (Nat.toDigits 10 n.natAbs).length ≤ digitLimit := by
    rw [Nat.zero_add]
    exact (Nat.length_toDigits_le_iff (by decide) (by decide)).mpr hn
  have hinteger : IsInteger (toString n).toList := by
    rw [htext]
    exact isInteger_zeros_toDigits sign 0 n.natAbs
  have hread : ofTrimmed? (toString n).toList = some (.int n) := by
    rw [htext]
    exact ofTrimmed?_zeros_toDigits hsign hlength
  have hform : Form.integer.Spells (toString n).toList := hinteger
  refine ⟨hinteger, value_number hread ?_⟩
  rintro (hnil | hradix)
  · exact hform.ne_nil hnil
  · exact hradix.not_isDecimal hinteger.isDecimal

/-! ## Names -/

/-- An assignment is parted at the first `=`, if there is one. -/
theorem split?_eq (cs : List Char) :
    split? cs =
      if '=' ∈ cs then some (cs.takeWhile (· != '='), (cs.dropWhile (· != '=')).tail) else none := by
  induction cs with
  | nil => rfl
  | cons c cs ih =>
      by_cases hc : c = '='
      · simp [split?, hc]
      · have hne : ¬ '=' = c := fun heq => hc heq.symm
        by_cases hmem : '=' ∈ cs
        · simp [split?, hc, ih, hmem]
        · simp [split?, hc, hne, ih, hmem]

/-- An assignment without a name: it has no `=`, or nothing but blanks before the first one. -/
def Nameless (text : String) : Prop :=
  '=' ∉ text.toList ∨ ∀ c ∈ text.toList.takeWhile (· != '='), Text.isBlank c = true

theorem parse_of_nameless {text : String} (h : Nameless text) :
    parse text = .error (.badAssignment text) := by
  rw [Nameless, ← Text.trimChars_eq_nil_iff] at h
  rw [parse, split?_eq]
  by_cases hmem : '=' ∈ text.toList
  · have hname := h.resolve_left (not_not_intro hmem)
    simp only [hmem, if_true, hname]
  · simp only [hmem, if_false]

theorem exists_of_not_nameless {text : String} (h : ¬ Nameless text) :
    ∃ entry, parse text = .ok entry := by
  rw [Nameless, ← Text.trimChars_eq_nil_iff, not_or, not_not] at h
  obtain ⟨hmem, hname⟩ := h
  rw [parse, split?_eq]
  simp only [hmem, if_true, hname, if_false]
  exact ⟨_, rfl⟩

/-- An assignment is refused for its name alone. -/
theorem parse_eq_error_iff {text : String} {e : HostError} :
    parse text = .error e ↔ Nameless text ∧ e = .badAssignment text := by
  constructor
  · intro h
    by_cases hname : Nameless text
    · rw [parse_of_nameless hname] at h
      cases h
      exact ⟨hname, rfl⟩
    · obtain ⟨entry, hentry⟩ := exists_of_not_nameless hname
      rw [hentry] at h
      cases h
  · rintro ⟨hname, rfl⟩
    exact parse_of_nameless hname

/-! ## Whole assignments -/

/-- Blanks around a value that neither begins nor ends with a blank do not count. -/
theorem parse_padded {name before text after : String} (hequals : '=' ∉ name.toList)
    (hname : ¬ ∀ c ∈ name.toList, Text.isBlank c = true)
    (hbefore : ∀ c ∈ before.toList, Text.isBlank c = true)
    (hafter : ∀ c ∈ after.toList, Text.isBlank c = true) (hne : text.toList ≠ [])
    (hfirst : ∀ c ∈ text.toList.head?, Text.isBlank c = false)
    (hlast : ∀ c ∈ text.toList.getLast?, Text.isBlank c = false) :
    parse (name ++ "=" ++ (before ++ text ++ after)) =
      .ok (Text.trim name, value text.toList) := by
  rw [← Text.trimChars_eq_nil_iff] at hname
  rw [parse_append hequals hname, String.toList_append, String.toList_append, List.append_assoc,
    Text.trimChars_padded hbefore hafter hne hfirst hlast]

/-- **The values of assignments.**  The name before the first `=` must not be blank.  Blanks around the
name and around the value do not count.

Between two quotes of the same kind, every text is taken as it stands: it may hold quotes, `=`, blanks
or digits, or read `true`.  An integer that is within the limit on digits is taken for that integer.
The assignments without a name, and no others, are refused, all with the same error. -/
theorem parse_values :
    (∀ name before after : String, '=' ∉ name.toList →
      ¬ (∀ c ∈ name.toList, Text.isBlank c = true) →
      (∀ c ∈ before.toList, Text.isBlank c = true) → (∀ c ∈ after.toList, Text.isBlank c = true) →
      (∀ quote text, Text.IsQuote quote →
        parse (name ++ "=" ++
          (before ++ (String.singleton quote ++ text ++ String.singleton quote) ++ after)) =
            .ok (Text.trim name, .text text)) ∧
      ∀ n : Int, n.natAbs < 10 ^ digitLimit →
        parse (name ++ "=" ++ (before ++ toString n ++ after)) = .ok (Text.trim name, .int n)) ∧
    ∀ text e, parse text = .error e ↔ Nameless text ∧ e = .badAssignment text := by
  refine ⟨?_, fun text e => parse_eq_error_iff⟩
  intro name before after hequals hname hbefore hafter
  constructor
  · intro quote text hquote
    have hchars : (String.singleton quote ++ text ++ String.singleton quote).toList =
        quote :: (text.toList ++ [quote]) := by
      simp only [String.toList_append, String.toList_singleton, List.cons_append, List.nil_append]
    have hvalue := value_quoted hquote text.toList
    rw [String.ofList_toList, ← hchars] at hvalue
    rw [← hvalue]
    refine parse_padded hequals hname hbefore hafter ?_ ?_ ?_
    · rw [hchars]
      exact List.cons_ne_nil _ _
    · rw [hchars]
      exact fun c hc => Option.mem_some_iff.mp hc ▸ hquote.not_isBlank
    · rw [hchars, ← List.cons_append, List.getLast?_concat]
      exact fun c hc => Option.mem_some_iff.mp hc ▸ hquote.not_isBlank
  · intro n hn
    obtain ⟨hinteger, hvalue⟩ := value_integer hn
    have hform : Form.integer.Spells (toString n).toList := hinteger
    rw [← hvalue]
    refine parse_padded hequals hname hbefore hafter hform.ne_nil ?_ ?_
    · exact fun c hc => hinteger.not_isBlank c (List.mem_of_mem_head? hc)
    · exact fun c hc => hinteger.not_isBlank c (List.mem_of_getLast? hc)

/-- A text that reads like a number in quotes of the other kind, an integer below zero, and an
assignment with nothing but a blank before `=`. -/
theorem parse_values_quotes :
    '=' ∉ " v".toList ∧ (¬ ∀ c ∈ " v".toList, Text.isBlank c = true) ∧
    (∀ c ∈ " ".toList, Text.isBlank c = true) ∧
    parse (" v" ++ "=" ++ (" " ++
      (String.singleton Text.doubleQuote ++ "'=1'" ++ String.singleton Text.doubleQuote) ++ " ")) =
        .ok ("v", .text "'=1'") ∧
    parse (" v" ++ "=" ++ (" " ++ toString (-7 : Int) ++ " ")) = .ok ("v", .int (-7)) ∧
    parse " =1" = .error (.badAssignment " =1") := by
  have hequals : '=' ∉ " v".toList := by decide
  have hname : ¬ ∀ c ∈ " v".toList, Text.isBlank c = true :=
    fun h => Bool.false_ne_true (h 'v' (by decide))
  have hblank : ∀ c ∈ " ".toList, Text.isBlank c = true := List.forall_mem_singleton.mpr rfl
  have hbound : (-7 : Int).natAbs < 10 ^ digitLimit := by decide +kernel
  obtain ⟨hquoted, hinteger⟩ := parse_values.1 " v" " " " " hequals hname hblank hblank
  refine ⟨hequals, hname, hblank, hquoted _ _ (.inr rfl), hinteger (-7) hbound, ?_⟩
  exact (parse_values.2 " =1" _).mpr ⟨.inr (List.forall_mem_singleton.mpr rfl), rfl⟩

end Assignment
end BracketCall
