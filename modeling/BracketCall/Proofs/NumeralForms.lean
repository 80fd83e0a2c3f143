import BracketCall.Number.Numeral
import BracketCall.Proofs.Lexing
import Mathlib.Data.List.Basic
import Mathlib.Data.List.Nodup
import Mathlib.Data.List.Permutation

/-!
# The forms of a numeral

A text without blanks around it is a numeral if it has one of four forms: a signed row of digits, a
signed decimal, a signed `Infinity`, or an unsigned row of digits in base sixteen, eight or two.  The
grammar below says this without the readers, and the readers are shown to accept the same texts.

**Method.**  Each reader takes a sign off, then digits as far as they go.  So a text of a form is taken
apart in only one way, and the form of a text that is accepted is read off the parts.

The only two forms that share texts are the integer and the decimal, and every integer is a decimal.
For this reason the readers may be tried in any order in which the integer comes before the decimal,
and in no other one.

**Results.**
* `Form.read?_ne_none_iff`: each reader accepts the texts of its form.
* `Form.overlap`: the texts that two forms share.
* `read?_exact`: what is no numeral, what is an integer, what is a double, and which orders will do.
-/

namespace BracketCall
namespace Numeral

/-! ## Grammar -/

/-- A sign, which may be left out. -/
inductive Sign where
  | absent
  | plus
  | minus
deriving DecidableEq

namespace Sign

def chars : Sign → List Char
  | absent => []
  | plus => ['+']
  | minus => ['-']

def isNegative : Sign → Bool
  | minus => true
  | _ => false

end Sign

/-- ASCII digits and nothing else. -/
def AllDigits (cs : List Char) : Prop :=
  ∀ c ∈ cs, isDigit c = true

/-- A sign and at least one digit. -/
inductive IsInteger : List Char → Prop
  | intro (sign : Sign) {digits : List Char} :
      digits ≠ [] →
      AllDigits digits →
      IsInteger (sign.chars ++ digits)

/-- A sign and at least one digit, with no more digits than the limit. -/
inductive IsShortInteger : List Char → Prop
  | intro (sign : Sign) {digits : List Char} :
      digits ≠ [] →
      AllDigits digits →
      digits.length ≤ digitLimit →
      IsShortInteger (sign.chars ++ digits)

/-- Digits, which may have a point among them, before them or after them. -/
inductive IsMantissa : List Char → Prop
  | whole {digits : List Char} :
      digits ≠ [] →
      AllDigits digits →
      IsMantissa digits
  | point {whole fraction : List Char} :
      AllDigits whole →
      AllDigits fraction →
      ¬ (whole = [] ∧ fraction = []) →
      IsMantissa (whole ++ '.' :: fraction)

/-- An `e` or `E` with a sign and at least one digit behind it, or nothing. -/
inductive IsExponent : List Char → Prop
  | absent : IsExponent []
  | power {letter : Char} (sign : Sign) {digits : List Char} :
      letter = 'e' ∨ letter = 'E' →
      digits ≠ [] →
      AllDigits digits →
      IsExponent (letter :: (sign.chars ++ digits))

/-- A signed decimal. -/
inductive IsDecimal : List Char → Prop
  | intro (sign : Sign) {mantissa exponent : List Char} :
      IsMantissa mantissa →
      IsExponent exponent →
      IsDecimal (sign.chars ++ (mantissa ++ exponent))

/-- A signed infinity. -/
inductive IsInfinity : List Char → Prop
  | intro (sign : Sign) : IsInfinity (sign.chars ++ "Infinity".toList)

/-- The letters behind the zero, and the bases that they announce. -/
inductive BaseLetter : Char → Nat → Prop
  | lowerHex : BaseLetter 'x' 16
  | upperHex : BaseLetter 'X' 16
  | lowerOctal : BaseLetter 'o' 8
  | upperOctal : BaseLetter 'O' 8
  | lowerBinary : BaseLetter 'b' 2
  | upperBinary : BaseLetter 'B' 2

/-- A digit of a base, in either case. -/
def IsDigitOf (base : Nat) (c : Char) : Prop :=
  ∃ d < base, c.toLower = Nat.digitChar d

/-- A zero, a letter and at least one digit of the base that the letter announces. -/
inductive IsRadix : List Char → Prop
  | intro {letter : Char} {base : Nat} {digits : List Char} :
      BaseLetter letter base →
      digits ≠ [] →
      (∀ c ∈ digits, IsDigitOf base c) →
      IsRadix ('0' :: letter :: digits)

/-! ## Signs and digits -/

/-- A text that does not begin with a sign. -/
def Unsigned (cs : List Char) : Prop :=
  ∀ c ∈ cs.head?, c ≠ '+' ∧ c ≠ '-'

theorem takeSign_append (sign : Sign) {body : List Char} (h : Unsigned body) :
    takeSign (sign.chars ++ body) = (sign.isNegative, body) := by
  cases sign with
  | plus => rfl
  | minus => rfl
  | absent =>
      cases body with
      | nil => rfl
      | cons c body =>
          obtain ⟨hplus, hminus⟩ := h c rfl
          rw [Sign.chars, List.nil_append]
          unfold takeSign
          split
          · next heq => exact absurd (List.cons.inj heq).1 hminus
          · next heq => exact absurd (List.cons.inj heq).1 hplus
          · rfl

theorem exists_sign (cs : List Char) :
    ∃ sign : Sign, cs = sign.chars ++ (takeSign cs).2 ∧ sign.isNegative = (takeSign cs).1 := by
  unfold takeSign
  split
  · exact ⟨.minus, rfl, rfl⟩
  · exact ⟨.plus, rfl, rfl⟩
  · exact ⟨.absent, rfl, rfl⟩

theorem unsigned_of_isDigit {c : Char} (h : isDigit c = true) (cs : List Char) :
    Unsigned (c :: cs) := by
  rintro d ⟨⟩
  constructor
  · rintro rfl
    cases h
  · rintro rfl
    cases h

theorem AllDigits.unsigned {digits : List Char} (h : AllDigits digits) (hne : digits ≠ [])
    (rest : List Char) : Unsigned (digits ++ rest) := by
  cases digits with
  | nil => exact absurd rfl hne
  | cons c digits => exact unsigned_of_isDigit (h c List.mem_cons_self) _

theorem all_isDigit_iff {cs : List Char} : cs.all isDigit = true ↔ AllDigits cs :=
  List.all_eq_true

theorem allDigits_takeWhile (cs : List Char) : AllDigits (cs.takeWhile isDigit) :=
  List.all_eq_true.mp List.all_takeWhile

/-! ## Integers -/

/-- The number of a signed row of digits. -/
def integerValue (sign : Sign) (digits : List Char) : Number :=
  if digits.length ≤ digitLimit then .int (signed sign.isNegative (decimalValue digits))
  else .float (Double.ofDecimal sign.isNegative (decimalValue digits) 0)

theorem integer?_append (sign : Sign) {digits : List Char} (hne : digits ≠ [])
    (h : AllDigits digits) : integer? (sign.chars ++ digits) = some (integerValue sign digits) := by
  have hsign : takeSign (sign.chars ++ digits) = (sign.isNegative, digits) :=
    takeSign_append sign (by simpa using h.unsigned hne [])
  have hall : digits ≠ [] ∧ digits.all isDigit = true := ⟨hne, all_isDigit_iff.mpr h⟩
  simp only [integer?, hsign, hall, if_true, integerValue, apply_ite some, ne_eq, not_false_eq_true,
    and_self]

/-- A text that is read as an integer is a signed row of digits. -/
theorem exists_of_integer? {cs : List Char} {n : Number} (h : integer? cs = some n) :
    ∃ (sign : Sign) (digits : List Char), cs = sign.chars ++ digits ∧ digits ≠ [] ∧
      AllDigits digits ∧ n = integerValue sign digits := by
  obtain ⟨sign, hcs, -⟩ := exists_sign cs
  have hdigits : (takeSign cs).2 ≠ [] ∧ (takeSign cs).2.all isDigit = true := by
    by_contra hnot
    simp only [integer?, hnot, if_false] at h
    cases h
  have hall := all_isDigit_iff.mp hdigits.2
  refine ⟨sign, (takeSign cs).2, hcs, hdigits.1, hall, ?_⟩
  rw [hcs, integer?_append sign hdigits.1 hall] at h
  exact (Option.some.inj h).symm

theorem integer?_ne_none_iff {cs : List Char} : integer? cs ≠ none ↔ IsInteger cs := by
  constructor
  · intro h
    obtain ⟨n, hn⟩ := Option.ne_none_iff_exists'.mp h
    obtain ⟨sign, digits, rfl, hne, hall, -⟩ := exists_of_integer? hn
    exact .intro sign hne hall
  · rintro ⟨sign, hne, hall⟩
    rw [integer?_append sign hne hall]
    exact Option.some_ne_none _

theorem integer?_eq_int_iff {cs : List Char} :
    (∃ n, integer? cs = some (.int n)) ↔ IsShortInteger cs := by
  constructor
  · rintro ⟨n, hn⟩
    obtain ⟨sign, digits, rfl, hne, hall, hvalue⟩ := exists_of_integer? hn
    refine .intro sign hne hall ?_
    by_contra hlong
    rw [integerValue, if_neg hlong] at hvalue
    cases hvalue
  · rintro ⟨sign, hne, hall, hshort⟩
    exact ⟨_, by rw [integer?_append sign hne hall, integerValue, if_pos hshort]⟩

/-! ## Decimals -/

theorem IsExponent.head {exponent : List Char} (h : IsExponent exponent) :
    ∀ c ∈ exponent.head?, isDigit c = false ∧ c ≠ '.' := by
  cases h with
  | absent => nofun
  | power sign hletter _ _ =>
      rintro c ⟨⟩
      rcases hletter with rfl | rfl <;> exact ⟨rfl, by decide⟩

theorem exponent?_ne_none_iff {cs : List Char} : exponent? cs ≠ none ↔ IsExponent cs := by
  constructor
  · intro h
    cases cs with
    | nil => exact .absent
    | cons letter cs =>
        have hletter : letter = 'e' ∨ letter = 'E' := by
          by_contra hnot
          exact h (if_neg hnot)
        obtain ⟨sign, hcs, -⟩ := exists_sign cs
        have hdigits : (takeSign cs).2 ≠ [] ∧ (takeSign cs).2.all isDigit = true := by
          by_contra hnot
          simp only [exponent?, hletter, hnot, if_true, if_false] at h
          exact h rfl
        rw [hcs]
        exact .power sign hletter hdigits.1 (all_isDigit_iff.mp hdigits.2)
  · intro h
    cases h with
    | absent => exact Option.some_ne_none _
    | power sign hletter hne hall =>
        have hsign := takeSign_append sign (by simpa using hall.unsigned hne [])
        have hdigits := all_isDigit_iff.mpr hall
        simp only [exponent?, hletter, hsign, hne, hdigits, if_true, ne_eq, not_false_eq_true,
          and_self]
        exact Option.some_ne_none _

/-- A decimal without a point. -/
theorem decimal?_whole (sign : Sign) {whole exponent : List Char} (hne : whole ≠ [])
    (hwhole : AllDigits whole) (hexponent : IsExponent exponent) :
    decimal? (sign.chars ++ (whole ++ exponent)) ≠ none := by
  have hsign := takeSign_append sign (hwhole.unsigned hne exponent)
  obtain ⟨htake, hdrop⟩ := Text.span_stops hwhole fun c hc => (hexponent.head c hc).1
  have hpower := exponent?_ne_none_iff.mpr hexponent
  simp only [decimal?, hsign, htake, hdrop]
  split
  · next more => exact absurd rfl (hexponent.head '.' rfl).2
  · simpa [hne] using hpower

/-- A decimal with a point. -/
theorem decimal?_point (sign : Sign) {whole fraction exponent : List Char}
    (hwhole : AllDigits whole) (hfraction : AllDigits fraction)
    (hne : ¬ (whole = [] ∧ fraction = [])) (hexponent : IsExponent exponent) :
    decimal? (sign.chars ++ (whole ++ '.' :: fraction ++ exponent)) ≠ none := by
  have hunsigned : Unsigned (whole ++ '.' :: (fraction ++ exponent)) := by
    cases whole with
    | nil =>
        rintro c ⟨⟩
        exact ⟨by decide, by decide⟩
    | cons c whole => exact unsigned_of_isDigit (hwhole c List.mem_cons_self) _
  have hsign := takeSign_append sign hunsigned
  have hpoint : ∀ c ∈ ('.' :: (fraction ++ exponent)).head?, isDigit c = false := by
    rintro c ⟨⟩
    rfl
  obtain ⟨htake, hdrop⟩ := Text.span_stops hwhole hpoint
  obtain ⟨htake', hdrop'⟩ := Text.span_stops hfraction fun c hc => (hexponent.head c hc).1
  have hpower := exponent?_ne_none_iff.mpr hexponent
  rw [List.append_assoc, List.cons_append]
  simp only [decimal?, hsign, htake, hdrop, htake', hdrop', hne, if_false]
  simpa using hpower

/-- A text that is read as a decimal has a mantissa and an exponent behind its sign. -/
theorem isDecimal_of_decimal? {cs : List Char} (h : decimal? cs ≠ none) : IsDecimal cs := by
  obtain ⟨sign, hcs, -⟩ := exists_sign cs
  simp only [decimal?] at h
  generalize (takeSign cs).2 = body at h hcs
  subst hcs
  have hwhole := allDigits_takeWhile body
  have hbody := List.takeWhile_append_dropWhile (p := isDigit) (l := body)
  generalize body.takeWhile isDigit = whole at h hwhole hbody
  generalize body.dropWhile isDigit = after at h hbody
  subst hbody
  split at h
  · next more =>
      -- the digits go on behind the point
      have hne : ¬ (whole = [] ∧ more.takeWhile isDigit = []) := by
        intro hempty
        exact h (if_pos hempty)
      rw [if_neg hne, ne_eq, Option.map_eq_none_iff] at h
      have hdecimal := IsDecimal.intro sign (.point hwhole (allDigits_takeWhile more) hne)
        (exponent?_ne_none_iff.mp h)
      rw [List.append_assoc, List.cons_append, List.takeWhile_append_dropWhile] at hdecimal
      exact hdecimal
  · have hne : whole ≠ [] := by
      intro hempty
      exact h (if_pos ⟨hempty, rfl⟩)
    rw [if_neg fun hempty => hne hempty.1, ne_eq, Option.map_eq_none_iff] at h
    exact .intro sign (.whole hne hwhole) (exponent?_ne_none_iff.mp h)

theorem decimal?_ne_none_iff {cs : List Char} : decimal? cs ≠ none ↔ IsDecimal cs := by
  constructor
  · exact isDecimal_of_decimal?
  · rintro ⟨sign, hmantissa, hexponent⟩
    cases hmantissa with
    | whole hne hwhole => exact decimal?_whole sign hne hwhole hexponent
    | point hwhole hfraction hne => exact decimal?_point sign hwhole hfraction hne hexponent

theorem IsInteger.isDecimal {cs : List Char} (h : IsInteger cs) : IsDecimal cs := by
  obtain ⟨sign, hne, hall⟩ := h
  have hdecimal := IsDecimal.intro sign (.whole hne hall) .absent
  rwa [List.append_nil] at hdecimal

/-! ## Infinities -/

theorem infinity?_ne_none_iff {cs : List Char} : infinity? cs ≠ none ↔ IsInfinity cs := by
  constructor
  · intro h
    obtain ⟨sign, hcs, -⟩ := exists_sign cs
    have hbody : (takeSign cs).2 = "Infinity".toList := by
      by_contra hnot
      simp only [infinity?, hnot, if_false] at h
      exact h rfl
    rw [hcs, hbody]
    exact .intro sign
  · rintro ⟨sign⟩
    cases sign <;> exact Option.some_ne_none _

/-! ## Digits of a base -/

theorem base?_eq_some_iff {letter : Char} {base : Nat} :
    base? letter = some base ↔ BaseLetter letter base := by
  constructor
  · intro h
    unfold base? at h
    split at h
    · next hx => rcases hx with rfl | rfl <;> cases h <;> constructor
    · split at h
      · next ho => rcases ho with rfl | rfl <;> cases h <;> constructor
      · split at h
        · next hb => rcases hb with rfl | rfl <;> cases h <;> constructor
        · cases h
  · intro h
    cases h <;> rfl

/-- What holds of every ASCII character is found by trying them all. -/
theorem forall_ascii {P : Char → Prop} (h : ∀ n < 128, P (Char.ofNat n)) {c : Char}
    (hc : c.toNat < 128) : P c := by
  have hn := h c.toNat hc
  rwa [Char.ofNat_toNat] at hn

/-- Beyond ASCII there are no digits of a base and no letters with two cases. -/
theorem beyond_ascii {c : Char} (hc : ¬ c.toNat < 128) :
    hexValue? c = none ∧ c.toLower = c := by
  have hgreater (limit : Char) (hlimit : limit.toNat < 128) : ¬ c ≤ limit := by
    intro hle
    have hnat : c.toNat ≤ limit.toNat := hle
    omega
  constructor
  · simp only [hexValue?, hgreater '9' (by decide), hgreater 'f' (by decide),
      hgreater 'F' (by decide), and_false, if_false]
  · exact dif_neg fun h => hgreater 'Z' (by decide) h.2

theorem hexValue?_ne_none_of_isDigit {c : Char} (h : isDigit c = true) : hexValue? c ≠ none := by
  have hrange : '0' ≤ c ∧ c ≤ '9' := by simpa [isDigit] using h
  rw [hexValue?, if_pos hrange]
  exact Option.some_ne_none _

theorem digitChar_ascii : ∀ d < 16, (Nat.digitChar d).toNat < 128 := by
  decide

/-- The value of a digit is told by its lower case. -/
theorem hexValue?_eq_some_iff {c : Char} {d : Nat} (hd : d < 16) :
    hexValue? c = some d ↔ c.toLower = Nat.digitChar d := by
  by_cases hc : c.toNat < 128
  · exact forall_ascii
      (P := fun c => ∀ d < 16, hexValue? c = some d ↔ c.toLower = Nat.digitChar d)
      (by decide +kernel) hc d hd
  · obtain ⟨hnone, hlower⟩ := beyond_ascii hc
    rw [hnone, hlower]
    constructor
    · nofun
    · rintro rfl
      exact absurd (digitChar_ascii d hd) hc

theorem isDigitOf_iff {base : Nat} (hbase : base ≤ 16) {c : Char} :
    IsDigitOf base c ↔ ∃ d < base, hexValue? c = some d := by
  constructor
  · rintro ⟨d, hd, hlower⟩
    exact ⟨d, hd, (hexValue?_eq_some_iff (by omega)).mpr hlower⟩
  · rintro ⟨d, hd, hvalue⟩
    exact ⟨d, hd, (hexValue?_eq_some_iff (by omega)).mp hvalue⟩

theorem digits?_ne_none_iff {base : Nat} (hbase : base ≤ 16) {cs : List Char} :
    digits? base cs ≠ none ↔ ∀ c ∈ cs, IsDigitOf base c := by
  induction cs with
  | nil => simp [digits?]
  | cons c cs ih =>
      rw [List.forall_mem_cons, ← ih, isDigitOf_iff hbase, digits?]
      cases hexValue? c with
      | none => simp
      | some d => by_cases hd : d < base <;> simp [hd]

theorem BaseLetter.le_sixteen {letter : Char} {base : Nat} (h : BaseLetter letter base) :
    base ≤ 16 := by
  cases h <;> decide

theorem radix?_ne_none_iff {cs : List Char} : radix? cs ≠ none ↔ IsRadix cs := by
  constructor
  · intro h
    unfold radix? at h
    split at h
    · next letter c cs =>
        split at h
        · exact absurd rfl h
        · next base hbase =>
            have hletter := base?_eq_some_iff.mp hbase
            rw [ne_eq, Option.map_eq_none_iff] at h
            exact .intro hletter (List.cons_ne_nil c cs)
              ((digits?_ne_none_iff hletter.le_sixteen).mp h)
    · exact absurd rfl h
  · rintro ⟨hletter, hne, hdigits⟩
    obtain ⟨c, cs, rfl⟩ := List.exists_cons_of_ne_nil hne
    rw [radix?, base?_eq_some_iff.mpr hletter, ne_eq, Option.map_eq_none_iff]
    exact (digits?_ne_none_iff hletter.le_sixteen).mpr hdigits

/-! ## Forms -/

/-- The forms of a numeral. -/
inductive Form where
  | integer
  | decimal
  | infinity
  | radix
deriving DecidableEq

namespace Form

/-- The forms in the order in which they are tried. -/
def all : List Form :=
  [integer, decimal, infinity, radix]

/-- The texts of a form. -/
def Spells : Form → List Char → Prop
  | integer => IsInteger
  | decimal => IsDecimal
  | infinity => IsInfinity
  | radix => IsRadix

/-- The number that a text of a form spells. -/
def read? : Form → List Char → Option Number
  | integer, cs => integer? cs
  | decimal, cs => (decimal? cs).map .float
  | infinity, cs => (infinity? cs).map .float
  | radix, cs => (radix? cs).map fun n : Nat => .int n

/-- The number that a text spells in the first form that it has, where forms are tried in order. -/
def first? (order : List Form) (cs : List Char) : Option Number :=
  order.findSome? fun form => form.read? cs

/-- Each reader accepts the texts of its form. -/
theorem read?_ne_none_iff (form : Form) {cs : List Char} :
    form.read? cs ≠ none ↔ form.Spells cs := by
  cases form with
  | integer => exact integer?_ne_none_iff
  | decimal =>
      rw [read?, ne_eq, Option.map_eq_none_iff]
      exact decimal?_ne_none_iff
  | infinity =>
      rw [read?, ne_eq, Option.map_eq_none_iff]
      exact infinity?_ne_none_iff
  | radix =>
      rw [read?, ne_eq, Option.map_eq_none_iff]
      exact radix?_ne_none_iff

theorem read?_eq_none_iff (form : Form) {cs : List Char} :
    form.read? cs = none ↔ ¬ form.Spells cs := by
  rw [← read?_ne_none_iff, not_not]

end Form

/-! ## Texts that two forms share -/

theorem IsInfinity.not_isDecimal {cs : List Char} (h : IsInfinity cs) : ¬ IsDecimal cs := by
  obtain ⟨sign⟩ := h
  rw [← decimal?_ne_none_iff]
  cases sign <;> exact fun h => h rfl

theorem IsInfinity.not_isRadix {cs : List Char} (h : IsInfinity cs) : ¬ IsRadix cs := by
  obtain ⟨sign⟩ := h
  rw [← radix?_ne_none_iff]
  cases sign <;> exact fun h => h rfl

/-- The letter behind the zero begins no exponent. -/
theorem IsRadix.not_isDecimal {cs : List Char} (h : IsRadix cs) : ¬ IsDecimal cs := by
  obtain ⟨hletter, -, -⟩ := h
  rw [← decimal?_ne_none_iff]
  cases hletter <;> exact fun h => h rfl

/-- Two forms share texts only if they are the integer and the decimal. -/
theorem Form.overlap {f g : Form} {cs : List Char} (hf : f.Spells cs) (hg : g.Spells cs) :
    f = g ∨ f = .integer ∧ g = .decimal ∨ f = .decimal ∧ g = .integer := by
  cases f with
  | integer =>
      cases g with
      | integer => exact .inl rfl
      | decimal => exact .inr (.inl ⟨rfl, rfl⟩)
      | infinity => exact absurd hf.isDecimal hg.not_isDecimal
      | radix => exact absurd hf.isDecimal hg.not_isDecimal
  | decimal =>
      cases g with
      | integer => exact .inr (.inr ⟨rfl, rfl⟩)
      | decimal => exact .inl rfl
      | infinity => exact absurd hf hg.not_isDecimal
      | radix => exact absurd hf hg.not_isDecimal
  | infinity =>
      cases g with
      | integer => exact absurd hg.isDecimal hf.not_isDecimal
      | decimal => exact absurd hg hf.not_isDecimal
      | infinity => exact .inl rfl
      | radix => exact absurd hg hf.not_isRadix
  | radix =>
      cases g with
      | integer => exact absurd hg.isDecimal hf.not_isDecimal
      | decimal => exact absurd hg hf.not_isDecimal
      | infinity => exact absurd hf hg.not_isRadix
      | radix => exact .inl rfl

/-! ## The order of the forms -/

namespace Form

/-- A form gives the result if no form before it has the text. -/
theorem first?_append {before after : List Form} {form : Form} {cs : List Char}
    (hform : form.Spells cs) (hbefore : ∀ f ∈ before, ¬ f.Spells cs) :
    first? (before ++ form :: after) cs = form.read? cs := by
  obtain ⟨n, hn⟩ := Option.ne_none_iff_exists'.mp (form.read?_ne_none_iff.mpr hform)
  have hnone : before.findSome? (fun f => f.read? cs) = none := by
    rw [List.findSome?_eq_none_iff]
    intro f hf
    exact f.read?_eq_none_iff.mpr (hbefore f hf)
  rw [first?, List.findSome?_append, hnone, List.findSome?_cons, hn]
  rfl

/-- An order of all forms in which the integer comes before the decimal. -/
structure Admissible (order : List Form) : Prop where
  perm : order.Perm all
  integer_first : [integer, decimal].Sublist order

theorem Admissible.all : Admissible all :=
  ⟨.refl _, by decide⟩

theorem Admissible.mem {order : List Form} (h : Admissible order) (form : Form) : form ∈ order := by
  rw [h.perm.mem_iff]
  cases form <;> decide

theorem Admissible.nodup {order : List Form} (h : Admissible order) : order.Nodup :=
  h.perm.nodup_iff.mpr (by decide)

/-- No decimal stands before the integer. -/
theorem Admissible.decimal_not_before {before after : List Form}
    (h : Admissible (before ++ integer :: after)) : decimal ∉ before := by
  intro hmem
  have hnodup := h.nodup
  obtain ⟨left, right, heq, hleft, hright⟩ := List.cons_sublist_iff.mp h.integer_first
  rcases List.append_eq_append_iff.mp heq with ⟨between, hbetween, -⟩ | ⟨between, hbetween, -⟩
  · -- the integer and the decimal are parted behind `before`, so the decimal stands there twice
    rw [heq, hbetween] at hnodup
    exact List.disjoint_of_nodup_append hnodup (List.mem_append_left between hmem)
      (List.singleton_sublist.mp hright)
  · -- they are parted inside `before`, so the integer stands there twice
    have hinteger : integer ∈ before := by
      rw [hbetween]
      exact List.mem_append_left between hleft
    exact List.disjoint_of_nodup_append hnodup hinteger List.mem_cons_self

/-- A form gives the result in every such order, unless it is the decimal of an integer. -/
theorem Admissible.first?_eq {order : List Form} (h : Admissible order) {form : Form}
    {cs : List Char} (hform : form.Spells cs) (hpreferred : form = decimal → ¬ IsInteger cs) :
    first? order cs = form.read? cs := by
  obtain ⟨before, after, rfl⟩ := List.append_of_mem (h.mem form)
  refine first?_append hform ?_
  intro f hf hspells
  rcases overlap hspells hform with rfl | ⟨rfl, rfl⟩ | ⟨rfl, rfl⟩
  · exact List.disjoint_of_nodup_append h.nodup hf List.mem_cons_self
  · exact hpreferred rfl hspells
  · exact h.decimal_not_before hf

theorem first?_eq_none {cs : List Char} (h : ∀ form : Form, ¬ form.Spells cs)
    (order : List Form) : first? order cs = none := by
  rw [first?, List.findSome?_eq_none_iff]
  intro form _
  exact form.read?_eq_none_iff.mpr (h form)

/-- A text has no form, or one that is preferred to any other. -/
theorem exists_preferred (cs : List Char) :
    (∀ form : Form, ¬ form.Spells cs) ∨
      ∃ form : Form, form.Spells cs ∧ (form = decimal → ¬ IsInteger cs) := by
  by_cases hinteger : IsInteger cs
  · exact .inr ⟨integer, hinteger, nofun⟩
  · by_cases hform : ∃ form : Form, form.Spells cs
    · obtain ⟨form, hform⟩ := hform
      exact .inr ⟨form, hform, fun _ => hinteger⟩
    · exact .inl (not_exists.mp hform)

/-- All such orders give the same result. -/
theorem Admissible.first?_congr {order order' : List Form} (h : Admissible order)
    (h' : Admissible order') (cs : List Char) : first? order cs = first? order' cs := by
  rcases exists_preferred cs with hnone | ⟨form, hform, hpreferred⟩
  · rw [first?_eq_none hnone, first?_eq_none hnone]
  · rw [h.first?_eq hform hpreferred, h'.first?_eq hform hpreferred]

/-- An order in which the decimal comes first reads a zero as a double. -/
theorem integer_first_of_zero : ∀ order ∈ all.permutations',
    first? order ['0'] = some (.int 0) → [integer, decimal].Sublist order := by
  decide +kernel

theorem Spells.ne_nil {form : Form} {cs : List Char} (h : form.Spells cs) : cs ≠ [] := by
  rintro rfl
  exact form.read?_ne_none_iff.mpr h (by cases form <;> rfl)

end Form

/-! ## Numerals -/

theorem ofTrimmed?_eq_first? {cs : List Char} (h : cs ≠ []) :
    ofTrimmed? cs = Form.first? Form.all cs := by
  simp only [ofTrimmed?, h, if_false, Form.first?, Form.all, List.findSome?_cons,
    List.findSome?_nil, Form.read?]
  cases integer? cs <;> cases decimal? cs <;> cases infinity? cs <;> cases radix? cs <;> rfl

/-- A text is read in any form that it has, unless that is the decimal of an integer. -/
theorem ofTrimmed?_eq_read? {form : Form} {cs : List Char} (hform : form.Spells cs)
    (hpreferred : form = .decimal → ¬ IsInteger cs) : ofTrimmed? cs = form.read? cs := by
  rw [ofTrimmed?_eq_first? hform.ne_nil]
  exact Form.Admissible.all.first?_eq hform hpreferred

/-- A number that is read has one of the forms, unless the text is empty. -/
theorem exists_form_of_ofTrimmed? {cs : List Char} {n : Number} (hcs : cs ≠ [])
    (hn : ofTrimmed? cs = some n) :
    ∃ form : Form, form.Spells cs ∧ (form = .decimal → ¬ IsInteger cs) ∧
      form.read? cs = some n := by
  rcases Form.exists_preferred cs with hnone | ⟨form, hform, hpreferred⟩
  · rw [ofTrimmed?_eq_first? hcs, Form.first?_eq_none hnone] at hn
    cases hn
  · rw [ofTrimmed?_eq_read? hform hpreferred] at hn
    exact ⟨form, hform, hpreferred, hn⟩

theorem ofTrimmed?_eq_none_iff {cs : List Char} :
    ofTrimmed? cs = none ↔ cs ≠ [] ∧ ¬ IsDecimal cs ∧ ¬ IsInfinity cs ∧ ¬ IsRadix cs := by
  constructor
  · intro h
    have hcs : cs ≠ [] := by
      rintro rfl
      cases h
    rcases Form.exists_preferred cs with hnone | ⟨form, hform, hpreferred⟩
    · exact ⟨hcs, hnone .decimal, hnone .infinity, hnone .radix⟩
    · rw [ofTrimmed?_eq_read? hform hpreferred] at h
      exact absurd h (form.read?_ne_none_iff.mpr hform)
  · rintro ⟨hcs, hdecimal, hinfinity, hradix⟩
    rw [ofTrimmed?_eq_first? hcs]
    refine Form.first?_eq_none ?_ _
    intro form
    cases form with
    | integer => exact fun h => hdecimal h.isDecimal
    | decimal => exact hdecimal
    | infinity => exact hinfinity
    | radix => exact hradix

theorem IsShortInteger.isInteger {cs : List Char} (h : IsShortInteger cs) : IsInteger cs := by
  obtain ⟨sign, hne, hall, -⟩ := h
  exact .intro sign hne hall

theorem ofTrimmed?_eq_int_iff {cs : List Char} :
    (∃ n, ofTrimmed? cs = some (.int n)) ↔ cs = [] ∨ IsShortInteger cs ∨ IsRadix cs := by
  constructor
  · rintro ⟨n, hn⟩
    by_cases hcs : cs = []
    · exact .inl hcs
    obtain ⟨form, hform, -, hn⟩ := exists_form_of_ofTrimmed? hcs hn
    cases form with
    | integer => exact .inr (.inl (integer?_eq_int_iff.mp ⟨n, hn⟩))
    | decimal =>
        obtain ⟨_, -, hfloat⟩ := Option.map_eq_some_iff.mp hn
        cases hfloat
    | infinity =>
        obtain ⟨_, -, hfloat⟩ := Option.map_eq_some_iff.mp hn
        cases hfloat
    | radix => exact .inr (.inr hform)
  · rintro (rfl | hshort | hradix)
    · exact ⟨0, rfl⟩
    · have hinteger : Form.integer.Spells cs := hshort.isInteger
      rw [ofTrimmed?_eq_read? hinteger nofun]
      exact integer?_eq_int_iff.mpr hshort
    · have hform : Form.radix.Spells cs := hradix
      obtain ⟨n, hn⟩ := Option.ne_none_iff_exists'.mp (radix?_ne_none_iff.mpr hradix)
      rw [ofTrimmed?_eq_read? hform nofun, Form.read?, hn]
      exact ⟨n, rfl⟩

/-- What is a numeral and no integer is a double. -/
theorem ofTrimmed?_eq_float_iff {cs : List Char} :
    (∃ d, ofTrimmed? cs = some (.float d)) ↔
      IsDecimal cs ∧ ¬ IsShortInteger cs ∨ IsInfinity cs := by
  have hfloat : (∃ d, ofTrimmed? cs = some (.float d)) ↔
      ¬ ofTrimmed? cs = none ∧ ¬ ∃ n, ofTrimmed? cs = some (.int n) := by
    cases ofTrimmed? cs with
    | none => simp
    | some number => cases number <;> simp
  rw [hfloat, ofTrimmed?_eq_none_iff, ofTrimmed?_eq_int_iff]
  constructor
  · rintro ⟨hsome, hint⟩
    by_cases hinfinity : IsInfinity cs
    · exact .inr hinfinity
    · refine .inl ⟨?_, fun hshort => hint (.inr (.inl hshort))⟩
      by_contra hdecimal
      exact hsome ⟨fun hnil => hint (.inl hnil), hdecimal, hinfinity,
        fun hradix => hint (.inr (.inr hradix))⟩
  · rintro (⟨hdecimal, hlong⟩ | hinfinity)
    · have hne : cs ≠ [] := Form.Spells.ne_nil (show Form.decimal.Spells cs from hdecimal)
      refine ⟨fun h => h.2.1 hdecimal, ?_⟩
      rintro (hnil | hshort | hradix)
      · exact hne hnil
      · exact hlong hshort
      · exact hradix.not_isDecimal hdecimal
    · have hne : cs ≠ [] := Form.Spells.ne_nil (show Form.infinity.Spells cs from hinfinity)
      refine ⟨fun h => h.2.2.1 hinfinity, ?_⟩
      rintro (hnil | hshort | hradix)
      · exact hne hnil
      · exact hinfinity.not_isDecimal hshort.isInteger.isDecimal
      · exact hinfinity.not_isRadix hradix

/-- **The texts that are numerals.**  What counts of a text is what stands between the blanks at its
ends.

It is no numeral if it is not empty and has none of the forms.  It is an integer if it is empty, a
signed row of digits within the limit, or digits of a base; every other numeral is a double.  The
forms may be tried in any order in which the integer comes before the decimal, and in no other. -/
theorem read?_exact :
    (∀ s : String,
      let u := Text.trimChars s.toList
      (read? s = none ↔ u ≠ [] ∧ ¬ IsDecimal u ∧ ¬ IsInfinity u ∧ ¬ IsRadix u) ∧
      ((∃ n, read? s = some (.int n)) ↔ u = [] ∨ IsShortInteger u ∨ IsRadix u) ∧
      ((∃ d, read? s = some (.float d)) ↔ IsDecimal u ∧ ¬ IsShortInteger u ∨ IsInfinity u)) ∧
    ∀ order : List Form, order.Perm Form.all →
      ((∀ s : String, Text.trimChars s.toList ≠ [] →
        Form.first? order (Text.trimChars s.toList) = read? s) ↔
      [Form.integer, Form.decimal].Sublist order) := by
  refine ⟨fun s => ⟨ofTrimmed?_eq_none_iff, ofTrimmed?_eq_int_iff, ofTrimmed?_eq_float_iff⟩, ?_⟩
  intro order hperm
  constructor
  · intro hsame
    have hzero : Form.first? order ['0'] = some (.int 0) := hsame "0" (by decide +kernel)
    exact Form.integer_first_of_zero order (List.mem_permutations'.mpr hperm) hzero
  · intro hfirst s hs
    rw [read?, ofTrimmed?_eq_first? hs]
    exact Form.Admissible.first?_congr ⟨hperm, hfirst⟩ .all _

/-- A digit of base two behind `0b` is an integer.  The forms may be tried from the last to the first,
if only the integer is moved before the decimal. -/
theorem read?_exact_reversed :
    (∃ n, read? " 0b1" = some (.int n)) ∧
    (∀ s : String, Text.trimChars s.toList ≠ [] →
      Form.first? [.radix, .infinity, .integer, .decimal] (Text.trimChars s.toList) = read? s) ∧
    ¬ ∀ s : String, Text.trimChars s.toList ≠ [] →
      Form.first? [.radix, .infinity, .decimal, .integer] (Text.trimChars s.toList) = read? s := by
  obtain ⟨hforms, horders⟩ := read?_exact
  refine ⟨?_, ?_, ?_⟩
  · have hdigit : ∀ c ∈ ['1'], IsDigitOf 2 c := by
      intro c hc
      rw [List.mem_singleton.mp hc]
      exact ⟨1, by decide, rfl⟩
    have hradix := IsRadix.intro .lowerBinary (List.cons_ne_nil '1' []) hdigit
    exact (hforms " 0b1").2.1.mpr (.inr (.inr hradix))
  · exact (horders _ (by decide)).mpr (by decide)
  · rw [horders _ (by decide)]
    decide

end Numeral
end BracketCall
