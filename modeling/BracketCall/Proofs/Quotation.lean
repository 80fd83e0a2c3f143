import BracketCall.Number.Numeral
import BracketCall.Text.Quoted

/-!
# What a quoted text tells

A quoted text tells which text is quoted, and it is one line.  This does not depend on which
characters are printable: every character that is not written as it is begins with a backslash, and
what stands behind the backslash tells how many characters belong to it.

**Method.**  `Escape` lists the three forms in which a character is written.  `readChar?` takes one
character off a text with escapes, whatever stands behind it (`Escape.readChar?`), so equal rows of
escapes are equal character by character.

**Results.**
* `quotedBy_injective`: no two texts are quoted in the same way.
* `newline_not_mem_quotedBy`: a quoted text has no line break.
-/

namespace BracketCall
namespace Text

/-! ## Hexadecimal digits -/

/-- The number that hexadecimal digits spell. -/
def hexNumber (digits : List Char) : Nat :=
  Numeral.digitsValue 16 (digits.map fun c => (Numeral.hexValue? c).getD 0)

theorem hexValue?_hexDigit : ∀ d < 16, Numeral.hexValue? (hexDigit d) = some d := by
  decide

theorem hexDigit_ne_newline : ∀ d < 16, hexDigit d ≠ '\n' := by
  decide

theorem length_hexPadded (width n : Nat) : (hexPadded width n).length = width := by
  induction width generalizing n with
  | zero => rfl
  | succ width ih => rw [hexPadded, List.length_append, ih, List.length_singleton]

theorem newline_not_mem_hexPadded (width n : Nat) : '\n' ∉ hexPadded width n := by
  induction width generalizing n with
  | zero => exact List.not_mem_nil
  | succ width ih =>
      rw [hexPadded, List.mem_append, List.mem_singleton, not_or]
      exact ⟨ih _, (hexDigit_ne_newline _ (Nat.mod_lt n (by decide))).symm⟩

theorem hexNumber_concat (digits : List Char) (c : Char) :
    hexNumber (digits ++ [c]) = hexNumber digits * 16 + (Numeral.hexValue? c).getD 0 := by
  simp [hexNumber, Numeral.digitsValue]

/-- The digits of a number that has no more of them spell the number. -/
theorem hexNumber_hexPadded {width n : Nat} (h : n < Nat.pow 16 width) :
    hexNumber (hexPadded width n) = n := by
  induction width generalizing n with
  | zero =>
      obtain rfl : n = 0 := by simpa using h
      rfl
  | succ width ih =>
      have hrest : n / 16 < Nat.pow 16 width := by
        rw [Nat.div_lt_iff_lt_mul (by decide)]
        exact h
      rw [hexPadded, hexNumber_concat, ih hrest, hexValue?_hexDigit _ (Nat.mod_lt n (by decide))]
      exact Nat.div_add_mod' n 16

/-! ## One character -/

/-- How many hexadecimal digits stand behind the letter of an escape. -/
def escapeWidth? (letter : Char) : Option Nat :=
  if letter = 'x' then some 2
  else if letter = 'u' then some 4
  else if letter = 'U' then some 8
  else none

/-- The character that a letter behind a backslash stands for, if no digits belong to it. -/
def escapeMeaning (letter : Char) : Char :=
  if letter = 'n' then '\n'
  else if letter = 'r' then '\r'
  else if letter = 't' then '\t'
  else letter

/-- Takes one character off a text with escapes. -/
def readChar? : List Char → Option (Char × List Char)
  | [] => none
  | [c] => some (c, [])
  | c :: d :: rest =>
      if c = backslash then
        match escapeWidth? d with
        | some width => some (Char.ofNat (hexNumber (rest.take width)), rest.drop width)
        | none => some (escapeMeaning d, rest)
      else some (c, d :: rest)

variable {printable : Char → Bool} {quote : Char}

/-- The quotes that texts are put between. -/
def IsQuote (quote : Char) : Prop :=
  quote = apostrophe ∨ quote = doubleQuote

theorem isQuote_quoteFor (cs : List Char) : IsQuote (quoteFor cs) := by
  unfold quoteFor
  split
  · exact Or.inr rfl
  · exact Or.inl rfl

theorem IsQuote.ne_newline (h : IsQuote quote) : '\n' ≠ quote := by
  rcases h with rfl | rfl <;> decide

/-- The three forms in which a character is written. -/
inductive Escape (c : Char) : List Char → Prop
  | plain : c ≠ backslash → c ≠ '\n' → Escape c [c]
  | letter {letter : Char} :
      escapeWidth? letter = none →
      escapeMeaning letter = c →
      letter ≠ '\n' →
      Escape c [backslash, letter]
  | digits {letter : Char} {width : Nat} :
      escapeWidth? letter = some width →
      c.toNat < Nat.pow 16 width →
      letter ≠ '\n' →
      Escape c (backslash :: letter :: hexPadded width c.toNat)

theorem escape_quote (h : IsQuote quote) : Escape quote [backslash, quote] := by
  rcases h with rfl | rfl <;> exact .letter rfl rfl (by decide)

theorem escape_escapeCode (c : Char) : Escape c (escapeCode c.toNat) := by
  have hc : c.toNat < Nat.pow 16 8 := UInt32.toNat_lt c.val
  unfold escapeCode
  split
  · exact .digits rfl (by assumption) (by decide)
  · split
    · exact .digits rfl (by assumption) (by decide)
    · exact .digits rfl hc (by decide)

/-- Every character is written in one of the three forms. -/
theorem escape_escapeChar (h : IsQuote quote) (c : Char) :
    Escape c (escapeChar printable quote c) := by
  unfold escapeChar
  by_cases hbackslash : c = backslash
  · rw [if_pos hbackslash, hbackslash]
    exact .letter rfl rfl (by decide)
  by_cases hquote : c = quote
  · rw [if_neg hbackslash, if_pos hquote, hquote]
    exact escape_quote h
  by_cases hnewline : c = '\n'
  · rw [if_neg hbackslash, if_neg hquote, if_pos hnewline, hnewline]
    exact .letter rfl rfl (by decide)
  by_cases hreturn : c = '\r'
  · rw [if_neg hbackslash, if_neg hquote, if_neg hnewline, if_pos hreturn, hreturn]
    exact .letter rfl rfl (by decide)
  by_cases htab : c = '\t'
  · rw [if_neg hbackslash, if_neg hquote, if_neg hnewline, if_neg hreturn, if_pos htab, htab]
    exact .letter rfl rfl (by decide)
  rw [if_neg hbackslash, if_neg hquote, if_neg hnewline, if_neg hreturn, if_neg htab]
  split
  · exact .plain hbackslash hnewline
  · exact escape_escapeCode c

/-- A character is read from any of its forms, whatever stands behind it. -/
theorem Escape.readChar? {c : Char} {cs : List Char} (h : Escape c cs) (rest : List Char) :
    readChar? (cs ++ rest) = some (c, rest) := by
  cases h with
  | plain hc _ =>
      cases rest with
      | nil => rfl
      | cons d rest => exact if_neg hc
  | letter hwidth hmeaning _ =>
      simp only [List.cons_append, List.nil_append, Text.readChar?, if_true, hwidth, hmeaning]
  | digits hwidth hc _ =>
      simp only [List.cons_append, Text.readChar?, if_true, hwidth,
        List.take_left' (length_hexPadded _ _), List.drop_left' (length_hexPadded _ _),
        hexNumber_hexPadded hc, Char.ofNat_toNat]

theorem Escape.newline_not_mem {c : Char} {cs : List Char} (h : Escape c cs) : '\n' ∉ cs := by
  cases h with
  | plain _ hc => simpa using hc.symm
  | letter _ _ hletter => simpa [backslash] using hletter.symm
  | digits _ _ hletter =>
      simpa [backslash, newline_not_mem_hexPadded] using hletter.symm

/-! ## Texts -/

/-- Equal rows of escapes are escapes of equal characters. -/
theorem flatMap_escapeChar_inj (h : IsQuote quote) {cs ds : List Char}
    (heq : cs.flatMap (escapeChar printable quote) = ds.flatMap (escapeChar printable quote)) :
    cs = ds := by
  induction cs generalizing ds with
  | nil =>
      cases ds with
      | nil => rfl
      | cons d ds =>
          have hread := congrArg readChar? heq
          rw [List.flatMap_cons, (escape_escapeChar h _).readChar?] at hread
          cases hread
  | cons c cs ih =>
      have hread := congrArg readChar? heq
      rw [List.flatMap_cons, (escape_escapeChar h _).readChar?] at hread
      cases ds with
      | nil => cases hread
      | cons d ds =>
          rw [List.flatMap_cons, (escape_escapeChar h _).readChar?, Option.some.injEq,
            Prod.mk.injEq] at hread
          rw [hread.1, ih hread.2]

/-- No two texts are quoted in the same way. -/
theorem quotedBy_injective (printable : Char → Bool) : Function.Injective (quotedBy printable) := by
  intro s t h
  have hchars : quotedChars printable s.toList = quotedChars printable t.toList :=
    String.ofList_injective h
  obtain ⟨hquote, hrest⟩ := List.cons.inj hchars
  rw [hquote] at hrest
  have hescapes := List.append_cancel_right hrest
  exact String.toList_inj.mp (flatMap_escapeChar_inj (isQuote_quoteFor _) hescapes)

/-- A quoted text has no line break. -/
theorem newline_not_mem_quotedBy (printable : Char → Bool) (s : String) :
    '\n' ∉ (quotedBy printable s).toList := by
  have hquote := isQuote_quoteFor s.toList
  rw [quotedBy, String.toList_ofList, quotedChars, List.mem_cons, List.mem_append,
    List.mem_singleton, List.mem_flatMap]
  rintro (h | ⟨c, -, hc⟩ | h)
  · exact hquote.ne_newline h
  · exact (escape_escapeChar hquote c).newline_not_mem hc
  · exact hquote.ne_newline h

end Text
end BracketCall
