import BracketCall.Assignment
import BracketCall.Proofs.NumeralForms
import Mathlib.Data.Bool.AllAny

/-!
# The two readers of numbers

The literals of a program and the values of assignments are read by different rules.  The reader of
assignments takes more decimals (digits of any script, underscores between digits, `inf` and `nan` in
any case), but it knows no base other than ten, and it gives a blank text no number.  It also asks for
truth values first and for quotes last.

On the numerals of a program, the two differ only where they must: a blank text and a text with a
base stay texts in an assignment, and every other numeral is the same number.

**Method.**  All numerals are written with few characters (`alphabet`).  None of them is changed or
refused by the loose reader before it looks for numbers, none is a quote, and with them no truth value
can be spelled.  So only the forms are left to be compared, and these are exclusive (`Form.overlap`).

**Results.**
* `Form.Spells.mem_alphabet`: the characters of a numeral.
* `LooseNumeral.read?_of_spells`, `LooseNumeral.read?_of_isRadix`: the loose reader on each form.
* `Assignment.parse_append`: an assignment is parted at its first `=`.
* `Assignment.parse_numeral`: a numeral in an assignment.
-/

namespace BracketCall

/-! ## The characters of a numeral -/

namespace Numeral

/-- The characters with which numerals are written. -/
def alphabet : List Char :=
  "+-.0123456789abcdefABCDEFxXoOInity".toList

theorem mem_alphabet_of_hexValue? {c : Char} (h : hexValue? c ≠ none) : c ∈ alphabet := by
  by_cases hc : c.toNat < 128
  · exact forall_ascii (P := fun c => hexValue? c ≠ none → c ∈ alphabet) (by decide +kernel) hc h
  · exact absurd (beyond_ascii hc).1 h

theorem AllDigits.mem_alphabet {digits : List Char} (h : AllDigits digits) :
    ∀ c ∈ digits, c ∈ alphabet := by
  intro c hc
  exact mem_alphabet_of_hexValue? (hexValue?_ne_none_of_isDigit (h c hc))

theorem Sign.mem_alphabet (sign : Sign) : ∀ c ∈ sign.chars, c ∈ alphabet := by
  cases sign <;> exact List.all_iff_forall_prop.mp (by decide)

theorem IsMantissa.mem_alphabet {cs : List Char} (h : IsMantissa cs) : ∀ c ∈ cs, c ∈ alphabet := by
  cases h with
  | whole _ hdigits => exact hdigits.mem_alphabet
  | point hwhole hfraction _ =>
      rw [List.forall_mem_append, List.forall_mem_cons]
      exact ⟨hwhole.mem_alphabet, by decide, hfraction.mem_alphabet⟩

theorem IsExponent.mem_alphabet {cs : List Char} (h : IsExponent cs) : ∀ c ∈ cs, c ∈ alphabet := by
  cases h with
  | absent => exact nofun
  | power sign hletter _ hdigits =>
      rw [List.forall_mem_cons, List.forall_mem_append]
      refine ⟨?_, sign.mem_alphabet, hdigits.mem_alphabet⟩
      rcases hletter with rfl | rfl <;> decide

theorem BaseLetter.mem_alphabet {letter : Char} {base : Nat} (h : BaseLetter letter base) :
    letter ∈ alphabet := by
  cases h <;> decide

theorem IsRadix.mem_alphabet {cs : List Char} (h : IsRadix cs) : ∀ c ∈ cs, c ∈ alphabet := by
  obtain ⟨hletter, -, hdigits⟩ := h
  rw [List.forall_mem_cons, List.forall_mem_cons]
  refine ⟨by decide, hletter.mem_alphabet, ?_⟩
  intro c hc
  obtain ⟨d, -, hd⟩ := (isDigitOf_iff hletter.le_sixteen).mp (hdigits c hc)
  exact mem_alphabet_of_hexValue? (by simp [hd])

/-- Numerals of all forms are written with the alphabet. -/
theorem Form.Spells.mem_alphabet {form : Form} {cs : List Char} (h : form.Spells cs) :
    ∀ c ∈ cs, c ∈ alphabet := by
  cases form with
  | integer =>
      obtain ⟨sign, -, hdigits⟩ := h
      exact List.forall_mem_append.mpr ⟨sign.mem_alphabet, hdigits.mem_alphabet⟩
  | decimal =>
      obtain ⟨sign, hmantissa, hexponent⟩ := h
      rw [List.forall_mem_append, List.forall_mem_append]
      exact ⟨sign.mem_alphabet, hmantissa.mem_alphabet, hexponent.mem_alphabet⟩
  | infinity =>
      obtain ⟨sign⟩ := h
      have hword : ∀ c ∈ "Infinity".toList, c ∈ alphabet :=
        List.all_iff_forall_prop.mp (by decide)
      exact List.forall_mem_append.mpr ⟨sign.mem_alphabet, hword⟩
  | radix => exact IsRadix.mem_alphabet h

theorem none_of_not_isDecimal {cs : List Char} (h : ¬ IsDecimal cs) :
    integer? cs = none ∧ decimal? cs = none := by
  constructor
  · by_contra hne
    exact h (integer?_ne_none_iff.mp hne).isDecimal
  · by_contra hne
    exact h (decimal?_ne_none_iff.mp hne)

end Numeral

/-! ## The loose reader on numerals -/

namespace LooseNumeral

open Numeral

/-- The alphabet has no digits of other scripts, no underscore and no quotes. -/
theorem plain_of_mem_alphabet : ∀ c ∈ alphabet,
    Text.asciiDigit c = c ∧ c ≠ '_' ∧ c ≠ Text.doubleQuote ∧ c ≠ Text.apostrophe :=
  List.all_iff_forall_prop.mp (by decide +kernel)

theorem dropUnderscores_of_not_mem {cs : List Char} (h : '_' ∉ cs) (afterDigit : Bool) :
    dropUnderscores afterDigit cs = some cs := by
  induction cs generalizing afterDigit with
  | nil => rfl
  | cons c cs ih =>
      obtain ⟨hc, hcs⟩ := not_or.mp fun hmem => h (List.mem_cons.mpr hmem)
      unfold dropUnderscores
      split
      · next heq => cases heq
      · next heq => exact absurd (List.cons.inj heq).1.symm hc
      · next heq =>
          obtain ⟨rfl, rfl⟩ := List.cons.inj heq
          rw [if_neg (Ne.symm hc), ih hcs]
          rfl

/-- A text in the alphabet is left as it is. -/
theorem normalise?_of_alphabet {cs : List Char} (h : ∀ c ∈ cs, c ∈ alphabet) :
    normalise? cs = some cs := by
  have hmap : cs.map Text.asciiDigit = cs := by
    refine (List.map_congr_left ?_).trans (List.map_id cs)
    intro c hc
    exact (plain_of_mem_alphabet c (h c hc)).1
  rw [normalise?, hmap]
  refine dropUnderscores_of_not_mem ?_ false
  intro hmem
  exact (plain_of_mem_alphabet '_' (h '_' hmem)).2.1 rfl

theorem read?_of_alphabet {cs : List Char} (h : ∀ c ∈ cs, c ∈ alphabet) :
    read? cs = ((integer? cs) <|> ((decimal? cs).map .float) <|> ((special? cs).map .float)) := by
  rw [read?, normalise?_of_alphabet h]
  rfl

theorem special?_of_isInfinity {cs : List Char} (h : IsInfinity cs) :
    special? cs = infinity? cs := by
  obtain ⟨sign⟩ := h
  cases sign <;> rfl

theorem special?_of_isRadix {cs : List Char} (h : IsRadix cs) : special? cs = none := by
  obtain ⟨-, -, -⟩ := h
  rfl

/-- A numeral in base ten is the same number to both readers. -/
theorem read?_of_spells {form : Form} {cs : List Char} (h : form.Spells cs)
    (hpreferred : form = .decimal → ¬ IsInteger cs) (hradix : form ≠ .radix) :
    read? cs = form.read? cs := by
  rw [read?_of_alphabet h.mem_alphabet]
  cases form with
  | integer =>
      obtain ⟨n, hn⟩ := Option.ne_none_iff_exists'.mp (integer?_ne_none_iff.mpr h)
      rw [Form.read?, hn]
      rfl
  | decimal =>
      -- both readers try integers first, so a decimal must not be one
      have hinteger := (Form.integer.read?_eq_none_iff).mpr (hpreferred rfl)
      obtain ⟨d, hd⟩ := Option.ne_none_iff_exists'.mp (decimal?_ne_none_iff.mpr h)
      rw [Form.read?] at hinteger
      rw [Form.read?, hinteger, hd]
      rfl
  | infinity =>
      obtain ⟨hinteger, hdecimal⟩ := none_of_not_isDecimal (IsInfinity.not_isDecimal h)
      rw [Form.read?, hinteger, hdecimal, special?_of_isInfinity h]
      rfl
  | radix => exact absurd rfl hradix

/-- A numeral in another base is no number to the loose reader. -/
theorem read?_of_isRadix {cs : List Char} (h : IsRadix cs) : read? cs = none := by
  obtain ⟨hinteger, hdecimal⟩ := none_of_not_isDecimal h.not_isDecimal
  rw [read?_of_alphabet h.mem_alphabet, hinteger, hdecimal, special?_of_isRadix h]
  rfl

/-- A word with a letter that is not in the alphabet is no numeral. -/
theorem not_isWord_of_alphabet {word : String} (letter : Char) (hword : letter ∈ word.toList)
    (hletter : letter ∉ alphabet.map Char.toLower) {cs : List Char}
    (h : ∀ c ∈ cs, c ∈ alphabet) : isWord word cs = false := by
  rw [isWord, decide_eq_false_iff_not]
  intro heq
  rw [← heq] at hword
  obtain ⟨c, hc, hlower⟩ := List.mem_map.mp hword
  exact hletter (List.mem_map.mpr ⟨c, h c hc, hlower⟩)

end LooseNumeral

/-! ## Assignments of numerals -/

theorem Number.toValue_inj {m n : Number} (h : m.toValue = n.toValue) : m = n := by
  cases m <;> cases n <;> cases h <;> rfl

theorem Number.toValue_ne_text (n : Number) (s : String) : n.toValue ≠ .text s := by
  cases n <;> exact nofun

namespace Assignment

open Numeral

theorem split?_append {name : List Char} (h : '=' ∉ name) (rest : List Char) :
    split? (name ++ '=' :: rest) = some (name, rest) := by
  induction name with
  | nil => rfl
  | cons c name ih =>
      obtain ⟨hc, hname⟩ := not_or.mp fun hmem => h (List.mem_cons.mpr hmem)
      rw [List.cons_append, split?, if_neg (Ne.symm hc), ih hname]
      rfl

/-- An assignment is parted at its first `=`. -/
theorem parse_append {name : String} (h : '=' ∉ name.toList)
    (hname : Text.trimChars name.toList ≠ []) (text : String) :
    parse (name ++ "=" ++ text) =
      .ok (Text.trim name, value (Text.trimChars text.toList)) := by
  have hsplit : split? (name ++ "=" ++ text).toList = some (name.toList, text.toList) := by
    simpa using split?_append h text.toList
  rw [parse, hsplit]
  exact if_neg hname

/-- A text in the alphabet is a number to the loose reader, or it is taken as it stands. -/
theorem value_of_alphabet {cs : List Char} (h : ∀ c ∈ cs, c ∈ alphabet) :
    value cs = ((LooseNumeral.read? cs).map Number.toValue).getD (.text (String.ofList cs)) := by
  -- the alphabet has neither `r` nor `l`, and each truth value needs one of them
  have htrue : LooseNumeral.isWord "true" cs = false :=
    LooseNumeral.not_isWord_of_alphabet 'r' (by decide) (by decide) h
  have hfalse : LooseNumeral.isWord "false" cs = false :=
    LooseNumeral.not_isWord_of_alphabet 'l' (by decide) (by decide) h
  have hquotes : unquote cs = cs := by
    unfold unquote
    split
    · next q c rest =>
        obtain ⟨-, -, hdouble, hsingle⟩ :=
          LooseNumeral.plain_of_mem_alphabet q (h q List.mem_cons_self)
        rw [if_neg fun hq => hq.1.elim hdouble hsingle]
    · rfl
  rw [value, htrue, hfalse, hquotes]
  cases LooseNumeral.read? cs <;> rfl

/-- A blank text and a text with a base stay texts. -/
theorem value_text {cs : List Char} (h : cs = [] ∨ IsRadix cs) :
    value cs = .text (String.ofList cs) := by
  rcases h with rfl | hradix
  · rfl
  · rw [value_of_alphabet hradix.mem_alphabet, LooseNumeral.read?_of_isRadix hradix]
    rfl

/-- Every other numeral keeps its number. -/
theorem value_number {cs : List Char} {n : Number} (hn : ofTrimmed? cs = some n)
    (h : ¬ (cs = [] ∨ IsRadix cs)) : value cs = n.toValue := by
  obtain ⟨hne, hradix⟩ := not_or.mp h
  obtain ⟨form, hform, hpreferred, hread⟩ := exists_form_of_ofTrimmed? hne hn
  have hten : form ≠ .radix := by
    rintro rfl
    exact hradix hform
  rw [value_of_alphabet hform.mem_alphabet,
    LooseNumeral.read?_of_spells hform hpreferred hten, hread]
  rfl

/-- **A numeral in an assignment.**  A blank text and a text with a base are numerals of a program,
and in an assignment they stay texts, without the blanks around them.  Every other numeral of a
program is the same number in an assignment, an integer or a double.  So whenever both readers make a
number of a text, it is the same one. -/
theorem parse_numeral {name : String} (h : '=' ∉ name.toList)
    (hname : Text.trimChars name.toList ≠ []) (text : String) :
    let u := Text.trimChars text.toList
    let assigned := parse (name ++ "=" ++ text)
    (u = [] ∨ IsRadix u →
      Numeral.read? text ≠ none ∧ assigned = .ok (Text.trim name, .text (String.ofList u))) ∧
    (∀ n, Numeral.read? text = some n → ¬ (u = [] ∨ IsRadix u) →
      assigned = .ok (Text.trim name, n.toValue)) ∧
    ∀ n m : Number, Numeral.read? text = some n →
      assigned = .ok (Text.trim name, m.toValue) → m = n := by
  intro u assigned
  have hparse : assigned = .ok (Text.trim name, value u) := parse_append h hname text
  rw [hparse]
  refine ⟨?_, ?_, ?_⟩
  · intro htext
    refine ⟨?_, by rw [value_text htext]⟩
    rw [Numeral.read?, ne_eq, ofTrimmed?_eq_none_iff]
    rintro ⟨hne, -, -, hradix⟩
    exact htext.elim hne hradix
  · intro n hn hnumber
    rw [value_number hn hnumber]
  · intro n m hn hm
    have hvalue : value u = m.toValue := (Prod.mk.inj (Except.ok.inj hm)).2
    by_cases htext : u = [] ∨ IsRadix u
    · rw [value_text htext] at hvalue
      exact absurd hvalue.symm (Number.toValue_ne_text m _)
    · rw [value_number hn htext] at hvalue
      exact (Number.toValue_inj hvalue).symm

/-- With blanks around it, a signed decimal is the same double to both readers, and digits behind
`0x` stay a text in an assignment. -/
theorem parse_numeral_signed :
    '=' ∉ "v".toList ∧ Text.trimChars "v".toList ≠ [] ∧
    Numeral.read? " -.5E1\t" = some (.float (Double.ofDecimal true 5 0)) ∧
    parse ("v" ++ "=" ++ " -.5E1\t") = .ok ("v", .float (Double.ofDecimal true 5 0)) ∧
    Numeral.read? " 0x1F" = some (.int 31) ∧
    parse ("v" ++ "=" ++ " 0x1F") = .ok ("v", .text "0x1F") := by
  have hequals : '=' ∉ "v".toList := by decide
  have hblank : Text.trimChars "v".toList ≠ [] := by decide
  have hdecimal :
      Numeral.read? " -.5E1\t" = some (.float (Double.ofDecimal true 5 0)) := by
    decide +kernel
  have hnumber : ¬ (Text.trimChars " -.5E1\t".toList = [] ∨
      IsRadix (Text.trimChars " -.5E1\t".toList)) := by
    rw [← radix?_ne_none_iff]
    decide +kernel
  have hradix : IsRadix (Text.trimChars " 0x1F".toList) := by
    rw [← radix?_ne_none_iff]
    decide +kernel
  obtain ⟨-, hsame, -⟩ := parse_numeral hequals hblank " -.5E1\t"
  obtain ⟨htext, -, -⟩ := parse_numeral hequals hblank " 0x1F"
  exact ⟨hequals, hblank, hdecimal, hsame _ hdecimal hnumber, by decide +kernel,
    (htext (.inr hradix)).2⟩

end Assignment
end BracketCall
