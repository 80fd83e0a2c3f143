import BracketCall.Proofs.NumeralForms
import BracketCall.Value.Dynamic
import Mathlib.Algebra.Group.Nat.Defs

/-!
# Integers read back from their texts

An integer is written in decimal, with a sign and with zeros before its digits, or in base sixteen,
eight or two behind a zero and a letter; blanks may stand around it.  Whatever the writer chose, the
same integer is read.  Only the number of decimal digits is limited.

**Method.**  A row of digits is valued from the left, so the digits of `n` are those of `n / base`
and one more (`Nat.toDigits_eq_if`).  Digits of either case have the same value.  That no other form
takes the text away was shown for all forms at once (`ofTrimmed?_eq_read?`).

**Results.**
* `Text.trimChars_padded`: blanks around a text do not count.
* `decimalValue_zeros_toDigits`, `digits?_zeros_toDigits`: zeros before the digits do not count.
* `integer_read_back`: the text of an integer is read as that integer, without rounding.
-/

namespace BracketCall

/-! ## Blanks -/

/-- Blanks around a text that neither begins nor ends with a blank do not count. -/
theorem Text.trimChars_padded {before cs after : List Char}
    (hbefore : ∀ c ∈ before, isBlank c = true) (hafter : ∀ c ∈ after, isBlank c = true)
    (hne : cs ≠ []) (hfirst : ∀ c ∈ cs.head?, isBlank c = false)
    (hlast : ∀ c ∈ cs.getLast?, isBlank c = false) :
    trimChars (before ++ (cs ++ after)) = cs := by
  have hstart : ∀ c ∈ (cs ++ after).head?, isBlank c = false := by
    rw [List.head?_append_of_ne_nil cs hne]
    exact hfirst
  have hend : ∀ c ∈ cs.reverse.head?, isBlank c = false := by
    rw [List.head?_reverse]
    exact hlast
  have hreverse : ∀ c ∈ after.reverse, isBlank c = true := by
    intro c hc
    exact hafter c (List.mem_reverse.mp hc)
  rw [trimChars, (span_stops hbefore hstart).2, List.reverse_append, (span_stops hreverse hend).2,
    List.reverse_reverse]

namespace Numeral

theorem not_isBlank_of_hexValue? {c : Char} (h : hexValue? c ≠ none) :
    Text.isBlank c = false := by
  by_cases hc : c.toNat < 128
  · exact forall_ascii (P := fun c => hexValue? c ≠ none → Text.isBlank c = false)
      (by decide +kernel) hc h
  · exact absurd (beyond_ascii hc).1 h

theorem not_isBlank_of_isDigit {c : Char} (h : isDigit c = true) : Text.isBlank c = false :=
  not_isBlank_of_hexValue? (hexValue?_ne_none_of_isDigit h)

/-- A text whose characters are not blank is read whatever blanks stand around it. -/
theorem read?_padded {before cs after : List Char} (hbefore : ∀ c ∈ before, Text.isBlank c = true)
    (hafter : ∀ c ∈ after, Text.isBlank c = true) (hne : cs ≠ [])
    (hcs : ∀ c ∈ cs, Text.isBlank c = false) :
    read? (String.ofList (before ++ (cs ++ after))) = ofTrimmed? cs := by
  rw [read?, String.toList_ofList, Text.trimChars_padded hbefore hafter hne]
  · intro c hc
    exact hcs c (List.mem_of_mem_head? hc)
  · intro c hc
    exact hcs c (List.mem_of_getLast? hc)

/-! ## Decimal digits -/

theorem decimalValue_eq_ofDigitChars (digits : List Char) :
    decimalValue digits = Nat.ofDigitChars 10 digits 0 := by
  rw [decimalValue, digitsValue, List.foldl_map, Nat.ofDigitChars_eq_foldl]
  simp only [Nat.mul_comm]
  rfl

/-- Zeros before the digits of a number do not count. -/
theorem decimalValue_zeros_toDigits (zeros n : Nat) :
    decimalValue (List.replicate zeros '0' ++ Nat.toDigits 10 n) = n := by
  rw [decimalValue_eq_ofDigitChars, Nat.ofDigitChars_append, Nat.ofDigitChars_replicate_zero,
    Nat.mul_zero, Nat.ofDigitChars_ten_toDigits]

theorem allDigits_zeros_toDigits (zeros n : Nat) :
    AllDigits (List.replicate zeros '0' ++ Nat.toDigits 10 n) := by
  intro c hc
  rcases List.mem_append.mp hc with hzero | hdigit
  · rw [List.eq_of_mem_replicate hzero]
    rfl
  · exact Nat.isDigit_of_mem_toDigits (by decide) (by decide) hdigit

/-! ## Digits of a base -/

theorem digitsValue_concat (base : Nat) (digits : List Nat) (d : Nat) :
    digitsValue base (digits ++ [d]) = digitsValue base digits * base + d := by
  simp [digitsValue]

theorem digitsValue_zeros (base zeros : Nat) (digits : List Nat) :
    digitsValue base (List.replicate zeros 0 ++ digits) = digitsValue base digits := by
  induction zeros with
  | zero => rfl
  | succ zeros ih =>
      rw [← ih, List.replicate_succ, List.cons_append, digitsValue, List.foldl_cons, Nat.zero_mul]
      rfl

theorem digits?_append (base : Nat) (cs ds : List Char) :
    digits? base (cs ++ ds) =
      (digits? base cs).bind fun xs => (digits? base ds).map (xs ++ ·) := by
  induction cs with
  | nil => simp [digits?]
  | cons c cs ih =>
      rw [List.cons_append, digits?, digits?, ih]
      cases hexValue? c with
      | none => rfl
      | some d =>
          by_cases hd : d < base
          · simp only [hd, if_true]
            cases digits? base cs with
            | none => rfl
            | some xs => cases digits? base ds <;> rfl
          · simp only [hd, if_false]
            rfl

theorem hexValue?_digitChar : ∀ d < 16, hexValue? (Nat.digitChar d) = some d := by
  decide

theorem hexValue?_toLower (c : Char) : hexValue? c.toLower = hexValue? c := by
  by_cases hc : c.toNat < 128
  · exact forall_ascii (P := fun c => hexValue? c.toLower = hexValue? c) (by decide +kernel) hc
  · rw [(beyond_ascii hc).2]

theorem digits?_map_toLower (base : Nat) (cs : List Char) :
    digits? base (cs.map Char.toLower) = digits? base cs := by
  induction cs with
  | nil => rfl
  | cons c cs ih => rw [List.map_cons, digits?, digits?, hexValue?_toLower, ih]

theorem digits?_singleton {base d : Nat} (hbase : base ≤ 16) (hd : d < base) :
    digits? base [Nat.digitChar d] = some [d] := by
  simp [digits?, hexValue?_digitChar d (by omega), hd]

/-- The digits of a number spell the number. -/
theorem digits?_toDigits {base : Nat} (hone : 1 < base) (hbase : base ≤ 16) (n : Nat) :
    ∃ digits, digits? base (Nat.toDigits base n) = some digits ∧ digitsValue base digits = n := by
  induction n using Nat.strongRecOn with
  | ind n ih =>
      rw [Nat.toDigits_eq_if hone]
      by_cases hn : n < base
      · rw [if_pos hn]
        exact ⟨[n], digits?_singleton hbase hn, by simp [digitsValue]⟩
      · obtain ⟨digits, hdigits, hvalue⟩ := ih (n / base) (Nat.div_lt_self (by omega) hone)
        have hlast := digits?_singleton hbase (Nat.mod_lt n (by omega : 0 < base))
        rw [if_neg hn]
        refine ⟨digits ++ [n % base], ?_, ?_⟩
        · rw [digits?_append, hdigits, hlast]
          rfl
        · rw [digitsValue_concat, hvalue]
          exact Nat.div_add_mod' n base

theorem digits?_replicate_zero {base : Nat} (hone : 1 < base) (hbase : base ≤ 16) (zeros : Nat) :
    digits? base (List.replicate zeros '0') = some (List.replicate zeros 0) := by
  induction zeros with
  | zero => rfl
  | succ zeros ih =>
      have hzero : digits? base ['0'] = some [0] := digits?_singleton (d := 0) hbase (by omega)
      rw [List.replicate_succ', digits?_append, ih, hzero, List.replicate_succ']
      rfl

/-- Zeros before the digits of a number do not count, nor does the case of the digits. -/
theorem digits?_zeros_toDigits {base : Nat} (hone : 1 < base) (hbase : base ≤ 16) {n : Nat}
    {cs : List Char} (hcs : cs.map Char.toLower = Nat.toDigits base n) (zeros : Nat) :
    ∃ digits, digits? base (List.replicate zeros '0' ++ cs) = some digits ∧
      digitsValue base digits = n := by
  obtain ⟨digits, hdigits, hvalue⟩ := digits?_toDigits hone hbase n
  rw [← hcs, digits?_map_toLower] at hdigits
  refine ⟨List.replicate zeros 0 ++ digits, ?_, ?_⟩
  · rw [digits?_append, digits?_replicate_zero hone hbase, hdigits]
    rfl
  · rw [digitsValue_zeros, hvalue]

theorem BaseLetter.one_lt {letter : Char} {base : Nat} (h : BaseLetter letter base) :
    1 < base := by
  cases h <;> decide

theorem BaseLetter.not_isBlank {letter : Char} {base : Nat} (h : BaseLetter letter base) :
    Text.isBlank letter = false := by
  cases h <;> decide

theorem radix?_of_digits? {letter : Char} {base : Nat} (hletter : BaseLetter letter base)
    {cs : List Char} (hne : cs ≠ []) {digits : List Nat} (hdigits : digits? base cs = some digits) :
    radix? ('0' :: letter :: cs) = some (digitsValue base digits) := by
  obtain ⟨c, cs, rfl⟩ := List.exists_cons_of_ne_nil hne
  simp only [radix?, base?_eq_some_iff.mpr hletter, hdigits, Option.map_some]

/-! ## Texts of integers -/

/-- The signs that may stand before the digits of an integer. -/
def Sign.Fits (sign : Sign) (n : Int) : Prop :=
  if sign.isNegative then n ≤ 0 else 0 ≤ n

instance (sign : Sign) (n : Int) : Decidable (sign.Fits n) :=
  inferInstanceAs (Decidable (if sign.isNegative then n ≤ 0 else 0 ≤ n))

theorem Sign.Fits.signed_natAbs {sign : Sign} {n : Int} (h : sign.Fits n) :
    signed sign.isNegative n.natAbs = n := by
  unfold Fits at h
  unfold signed
  split
  · next hnegative =>
      rw [if_pos hnegative] at h
      omega
  · next hpositive =>
      rw [if_neg hpositive] at h
      omega

theorem Sign.not_isBlank (sign : Sign) : ∀ c ∈ sign.chars, Text.isBlank c = false := by
  cases sign with
  | absent => exact nofun
  | plus => exact List.forall_mem_singleton.mpr rfl
  | minus => exact List.forall_mem_singleton.mpr rfl

/-- A sign, zeros and the digits of a number are an integer. -/
theorem isInteger_zeros_toDigits (sign : Sign) (zeros n : Nat) :
    IsInteger (sign.chars ++ (List.replicate zeros '0' ++ Nat.toDigits 10 n)) :=
  .intro sign (List.append_ne_nil_of_right_ne_nil _ Nat.toDigits_ne_nil)
    (allDigits_zeros_toDigits zeros n)

theorem IsInteger.not_isBlank {cs : List Char} (h : IsInteger cs) :
    ∀ c ∈ cs, Text.isBlank c = false := by
  obtain ⟨sign, -, hall⟩ := h
  intro c hc
  rcases List.mem_append.mp hc with hc | hc
  · exact sign.not_isBlank c hc
  · exact not_isBlank_of_isDigit (hall c hc)

/-- A signed decimal text of an integer that is within the limit on digits. -/
theorem ofTrimmed?_zeros_toDigits {n : Int} {sign : Sign} (hsign : sign.Fits n) {zeros : Nat}
    (hlength : zeros + (Nat.toDigits 10 n.natAbs).length ≤ digitLimit) :
    ofTrimmed? (sign.chars ++ (List.replicate zeros '0' ++ Nat.toDigits 10 n.natAbs)) =
      some (.int n) := by
  have hform : Form.integer.Spells _ := isInteger_zeros_toDigits sign zeros n.natAbs
  have hall := allDigits_zeros_toDigits zeros n.natAbs
  have hne : List.replicate zeros '0' ++ Nat.toDigits 10 n.natAbs ≠ [] :=
    List.append_ne_nil_of_right_ne_nil _ Nat.toDigits_ne_nil
  have hcount : (List.replicate zeros '0' ++ Nat.toDigits 10 n.natAbs).length ≤ digitLimit := by
    rw [List.length_append, List.length_replicate]
    exact hlength
  rw [ofTrimmed?_eq_read? hform nofun, Form.read?, integer?_append sign hne hall, integerValue,
    if_pos hcount, decimalValue_zeros_toDigits, hsign.signed_natAbs]

/-- The text is read as the integer, and coerced to it. -/
structure ReadsAs (cs : List Char) (n : Int) : Prop where
  read : read? (String.ofList cs) = some (.int n)
  coerce : Dynamic.coerce (.text (String.ofList cs)) = ⟨.number, .int n⟩

theorem readsAs_of_read? {cs : List Char} {n : Int}
    (h : read? (String.ofList cs) = some (.int n)) : ReadsAs cs n :=
  ⟨h, Dynamic.coerce_text_of_read? h⟩

section Padded

variable {before after : List Char}

/-- A signed decimal text of an integer. -/
theorem readsAs_decimal (hbefore : ∀ c ∈ before, Text.isBlank c = true)
    (hafter : ∀ c ∈ after, Text.isBlank c = true) {n : Int} {sign : Sign} (hsign : sign.Fits n)
    {zeros : Nat} (hlength : zeros + (Nat.toDigits 10 n.natAbs).length ≤ digitLimit) :
    ReadsAs (before ++ (sign.chars ++ (List.replicate zeros '0' ++ Nat.toDigits 10 n.natAbs) ++
      after)) n := by
  have hinteger := isInteger_zeros_toDigits sign zeros n.natAbs
  have hform : Form.integer.Spells _ := hinteger
  refine readsAs_of_read? ?_
  rw [read?_padded hbefore hafter hform.ne_nil hinteger.not_isBlank,
    ofTrimmed?_zeros_toDigits hsign hlength]

/-- A text of a natural number in base sixteen, eight or two. -/
theorem readsAs_radix (hbefore : ∀ c ∈ before, Text.isBlank c = true)
    (hafter : ∀ c ∈ after, Text.isBlank c = true) {letter : Char} {base : Nat}
    (hletter : BaseLetter letter base) {n : Nat} {digits : List Char}
    (hdigits : digits.map Char.toLower = Nat.toDigits base n) (zeros : Nat) :
    ReadsAs (before ++ ('0' :: letter :: (List.replicate zeros '0' ++ digits) ++ after)) n := by
  obtain ⟨values, hvalues, hvalue⟩ :=
    digits?_zeros_toDigits hletter.one_lt hletter.le_sixteen hdigits zeros
  have hne : List.replicate zeros '0' ++ digits ≠ [] := by
    refine List.append_ne_nil_of_right_ne_nil _ ?_
    rintro rfl
    exact Nat.toDigits_ne_nil hdigits.symm
  generalize List.replicate zeros '0' ++ digits = cs at *
  have hradix := radix?_of_digits? hletter hne hvalues
  have hform : Form.radix.Spells ('0' :: letter :: cs) :=
    radix?_ne_none_iff.mp (by rw [hradix]; exact Option.some_ne_none _)
  have hblank : ∀ c ∈ '0' :: letter :: cs, Text.isBlank c = false := by
    rw [List.forall_mem_cons, List.forall_mem_cons]
    refine ⟨rfl, hletter.not_isBlank, ?_⟩
    intro c hc
    have hdigit := (digits?_ne_none_iff hletter.le_sixteen).mp (by simp [hvalues]) c hc
    obtain ⟨d, -, hd⟩ := (isDigitOf_iff hletter.le_sixteen).mp hdigit
    exact not_isBlank_of_hexValue? (by simp [hd])
  refine readsAs_of_read? ?_
  rw [read?_padded hbefore hafter hform.ne_nil hblank, ofTrimmed?_eq_read? hform nofun, Form.read?,
    hradix, hvalue]
  rfl

end Padded

/-- **The text of an integer is read as that integer.**

An integer below the limit on decimal digits may be written with a sign that fits it and with as many
zeros before its digits as the limit leaves.  A natural number of any size may be written in base
sixteen, eight or two behind a zero and a letter, with any zeros before its digits and with digits of
either case.  Blanks may stand around the text. -/
theorem integer_read_back {before after : List Char}
    (hbefore : ∀ c ∈ before, Text.isBlank c = true)
    (hafter : ∀ c ∈ after, Text.isBlank c = true) :
    (∀ n : Int, n.natAbs < 10 ^ digitLimit → ∀ sign : Sign, sign.Fits n →
      ∀ zeros ≤ digitLimit - (Nat.toDigits 10 n.natAbs).length,
        ReadsAs (before ++ (sign.chars ++
          (List.replicate zeros '0' ++ Nat.toDigits 10 n.natAbs) ++ after)) n) ∧
    ∀ (n : Nat) (letter : Char) (base : Nat), BaseLetter letter base →
      ∀ (zeros : Nat) (digits : List Char), digits.map Char.toLower = Nat.toDigits base n →
        ReadsAs (before ++ ('0' :: letter :: (List.replicate zeros '0' ++ digits) ++ after)) n := by
  constructor
  · intro n hn sign hsign zeros hzeros
    have hlength : (Nat.toDigits 10 n.natAbs).length ≤ digitLimit :=
      (Nat.length_toDigits_le_iff (by decide) (by decide)).mpr hn
    exact readsAs_decimal hbefore hafter hsign (by omega)
  · intro n letter base hletter zeros digits hdigits
    exact readsAs_radix hbefore hafter hletter hdigits zeros

/-- Seven below zero with zeros before it and blanks around it, and 255 in digits of both cases. -/
theorem integer_read_back_padded :
    (∀ c ∈ [' ', '\t'], Text.isBlank c = true) ∧
    (-7 : Int).natAbs < 10 ^ digitLimit ∧
    ReadsAs " \t-007\n".toList (-7) ∧ ReadsAs " \t0X00fF\n".toList 255 := by
  have hbefore : ∀ c ∈ [' ', '\t'], Text.isBlank c = true :=
    List.forall_mem_cons.mpr ⟨rfl, List.forall_mem_singleton.mpr rfl⟩
  have hafter : ∀ c ∈ ['\n'], Text.isBlank c = true := List.forall_mem_singleton.mpr rfl
  have hbound : (-7 : Int).natAbs < 10 ^ digitLimit := by decide +kernel
  obtain ⟨hdecimal, hradix⟩ := integer_read_back hbefore hafter
  refine ⟨hbefore, hbound, ?_, ?_⟩
  · exact hdecimal (-7) hbound .minus (by decide) 2 (by decide +kernel)
  · exact hradix 255 'X' 16 .upperHex 2 ['f', 'F'] (by decide +kernel)

end Numeral
end BracketCall
