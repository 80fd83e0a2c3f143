import BracketCall.Text.Utf8
import Mathlib.Tactic.Common

/-!
# Bytes that are texts

The bytes of a file are read one at a time, and what was begun says which bytes may follow.  They are
accepted exactly if they are the bytes of some text, and then that text is read.

**Method.**  `Completes` tells which bytes a pending character takes and which code point they give.
A first byte with the bytes that complete it is what the character with that code point is written as
(`utf8EncodeChar_of_completes`), and every character above `0x7f` is written so
(`exists_completes`).  The rest is induction over the characters.

**Results.**
* `decodeFrom_eq_ok_iff`: the bytes that are accepted, wherever reading begins.
* `decode_eq_ok_iff`: the text of a file, with its lines ended alike.
-/

namespace BracketCall

theorem exists_of_map_eq_ok {ε α β : Type} {f : α → β} {r : Except ε α} {b : β}
    (h : r.map f = .ok b) : ∃ a, r = .ok a ∧ f a = b := by
  cases r with
  | error e => cases h
  | ok a => exact ⟨a, rfl, Except.ok.inj h⟩

namespace Utf8

/-- The bytes of a text. -/
def encode (cs : List Char) : List UInt8 :=
  cs.flatMap String.utf8EncodeChar

/-! ## Pending characters -/

/-- A pending character after one more byte. -/
def Pending.next (p : Pending) (b : UInt8) : Pending :=
  { p with owed := p.owed - 1, low := 0x80, high := 0xBF, bits := p.bits * 64 + b.toNat % 64 }

/-- The bytes complete a pending character, and it has this code point. -/
inductive Completes : Pending → List UInt8 → Nat → Prop
  | last {p : Pending} {b : UInt8} :
      p.owed = 1 →
      p.low ≤ b.toNat ∧ b.toNat ≤ p.high →
      Completes p [b] (p.bits * 64 + b.toNat % 64)
  | more {p : Pending} {b : UInt8} {tail : List UInt8} {code : Nat} :
      p.owed ≠ 1 →
      p.low ≤ b.toNat ∧ b.toNat ≤ p.high →
      Completes (p.next b) tail code →
      Completes p (b :: tail) code

theorem decodeFrom_completes {p : Pending} {tail : List UInt8} {code : Nat}
    (h : Completes p tail code) (position start : Nat) (rest : List UInt8) :
    decodeFrom position start (some p) (tail ++ rest) =
      (decodeFrom (position + tail.length) start none rest).map (Char.ofNat code :: ·) := by
  induction h generalizing position with
  | last howed hrange =>
      rw [List.singleton_append, decodeFrom, if_pos hrange, if_pos howed]
      rfl
  | @more p b tail code howed hrange _ ih =>
      rw [List.cons_append, decodeFrom, if_pos hrange, if_neg howed]
      have hlength : position + 1 + tail.length = position + (b :: tail).length := by
        rw [List.length_cons]
        omega
      exact (ih (position + 1)).trans (by rw [hlength])

/-- If bytes are accepted behind a first byte, they begin by completing its character. -/
theorem completes_of_decodeFrom {p : Pending} {bytes : List UInt8} {cs : List Char}
    {position start : Nat} (h : decodeFrom position start (some p) bytes = .ok cs) :
    ∃ tail code rest more, bytes = tail ++ rest ∧ Completes p tail code ∧
      decodeFrom (position + tail.length) start none rest = .ok more ∧
      cs = Char.ofNat code :: more := by
  induction bytes generalizing p position with
  | nil => cases h
  | cons b bytes ih =>
      rw [decodeFrom] at h
      split at h
      · next hrange =>
          split at h
          · next howed =>
              obtain ⟨more, hmore, hcs⟩ := exists_of_map_eq_ok h
              exact ⟨[b], _, bytes, more, rfl, .last howed hrange, hmore, hcs.symm⟩
          · next howed =>
              obtain ⟨tail, code, rest, more, rfl, hcompletes, hmore, hcs⟩ := ih h
              refine ⟨b :: tail, code, rest, more, rfl, .more howed hrange hcompletes, ?_, hcs⟩
              rw [List.length_cons, ← Nat.add_assoc, Nat.add_right_comm]
              exact hmore
      · cases h

/-! ## Characters of two, three and four bytes -/

theorem completes_one_iff {p : Pending} (howed : p.owed = 1) {tail : List UInt8} {code : Nat} :
    Completes p tail code ↔
      ∃ b : UInt8, tail = [b] ∧ (p.low ≤ b.toNat ∧ b.toNat ≤ p.high) ∧
        code = p.bits * 64 + b.toNat % 64 := by
  constructor
  · intro h
    cases h with
    | last _ hrange => exact ⟨_, rfl, hrange, rfl⟩
    | more hmore _ _ => exact absurd howed hmore
  · rintro ⟨b, rfl, hrange, rfl⟩
    exact .last howed hrange

theorem completes_more_iff {p : Pending} (howed : p.owed ≠ 1) {tail : List UInt8} {code : Nat} :
    Completes p tail code ↔
      ∃ (b : UInt8) (rest : List UInt8), tail = b :: rest ∧
        (p.low ≤ b.toNat ∧ b.toNat ≤ p.high) ∧ Completes (p.next b) rest code := by
  constructor
  · intro h
    cases h with
    | last hlast _ => exact absurd hlast howed
    | more _ hrange hrest => exact ⟨_, _, rfl, hrange, hrest⟩
  · rintro ⟨b, rest, rfl, hrange, hrest⟩
    exact .more howed hrange hrest

theorem ofNat_eq_byte {n : Nat} {b : UInt8} (h : n = b.toNat) : UInt8.ofNat n = b := by
  rw [h, UInt8.ofNat_toNat]

/-- A number that is a code point is that of its character. -/
theorem toNat_ofNat_char {n : Nat} (h : n.isValidChar) : (Char.ofNat n).val.toNat = n := by
  rw [Char.ofNat, dif_pos h]
  rfl

theorem utf8EncodeChar_two {n : Nat} {a b : UInt8} (ha : 0xC2 ≤ a.toNat ∧ a.toNat ≤ 0xDF)
    (hb : 0x80 ≤ b.toNat ∧ b.toNat ≤ 0xBF) (hn : n = (a.toNat - 0xC0) * 64 + b.toNat % 64) :
    String.utf8EncodeChar (Char.ofNat n) = [a, b] := by
  rw [String.utf8EncodeChar.eq_1, toNat_ofNat_char (by unfold Nat.isValidChar; omega),
    if_neg (by omega), if_pos (by omega), ofNat_eq_byte (b := a) (by omega),
    ofNat_eq_byte (b := b) (by omega)]

theorem utf8EncodeChar_three {n : Nat} {a b c : UInt8} (ha : 0xE0 ≤ a.toNat ∧ a.toNat ≤ 0xEF)
    (hb : 0x80 ≤ b.toNat ∧ b.toNat ≤ 0xBF) (hc : 0x80 ≤ c.toNat ∧ c.toNat ≤ 0xBF)
    (hn : n = ((a.toNat - 0xE0) * 64 + b.toNat % 64) * 64 + c.toNat % 64) (hlong : 0x800 ≤ n)
    (hvalid : n.isValidChar) : String.utf8EncodeChar (Char.ofNat n) = [a, b, c] := by
  rw [String.utf8EncodeChar.eq_1, toNat_ofNat_char hvalid, if_neg (by omega), if_neg (by omega),
    if_pos (by omega), ofNat_eq_byte (b := a) (by omega), ofNat_eq_byte (b := b) (by omega),
    ofNat_eq_byte (b := c) (by omega)]

theorem utf8EncodeChar_four {n : Nat} {a b c d : UInt8} (ha : 0xF0 ≤ a.toNat ∧ a.toNat ≤ 0xF4)
    (hb : 0x80 ≤ b.toNat ∧ b.toNat ≤ 0xBF) (hc : 0x80 ≤ c.toNat ∧ c.toNat ≤ 0xBF)
    (hd : 0x80 ≤ d.toNat ∧ d.toNat ≤ 0xBF)
    (hn : n = (((a.toNat - 0xF0) * 64 + b.toNat % 64) * 64 + c.toNat % 64) * 64 + d.toNat % 64)
    (hlong : 0x10000 ≤ n) (hvalid : n.isValidChar) :
    String.utf8EncodeChar (Char.ofNat n) = [a, b, c, d] := by
  rw [String.utf8EncodeChar.eq_1, toNat_ofNat_char hvalid, if_neg (by omega), if_neg (by omega),
    if_neg (by omega), ofNat_eq_byte (b := a) (by omega), ofNat_eq_byte (b := b) (by omega),
    ofNat_eq_byte (b := c) (by omega), ofNat_eq_byte (b := d) (by omega)]

/-! ## First bytes -/

theorem begin?_two {a : Nat} (h : 0xC2 ≤ a ∧ a ≤ 0xDF) :
    begin? a = some ⟨a, 1, 0x80, 0xBF, a - 0xC0⟩ := by
  rw [begin?, if_pos h]

theorem begin?_three {a : Nat} (h : 0xE0 ≤ a ∧ a ≤ 0xEF) :
    begin? a = some ⟨a, 2, if a = 0xE0 then 0xA0 else 0x80, if a = 0xED then 0x9F else 0xBF,
      a - 0xE0⟩ := by
  rw [begin?, if_neg (by omega)]
  by_cases hfirst : a = 0xE0
  · subst hfirst
    rfl
  by_cases hsurrogate : a = 0xED
  · subst hsurrogate
    rfl
  rw [if_neg hfirst, if_neg hsurrogate, if_pos (by omega), if_neg hfirst, if_neg hsurrogate]

theorem begin?_four {a : Nat} (h : 0xF0 ≤ a ∧ a ≤ 0xF4) :
    begin? a = some ⟨a, 3, if a = 0xF0 then 0x90 else 0x80, if a = 0xF4 then 0x8F else 0xBF,
      a - 0xF0⟩ := by
  rw [begin?, if_neg (by omega), if_neg (by omega), if_neg (by omega), if_neg (by omega)]
  by_cases hfirst : a = 0xF0
  · subst hfirst
    rfl
  by_cases hlast : a = 0xF4
  · subst hlast
    rfl
  rw [if_neg hfirst, if_pos (by omega), if_neg hfirst, if_neg hlast]

/-- The first bytes of characters of two, three and four bytes. -/
theorem begin?_range {a : Nat} {p : Pending} (h : begin? a = some p) :
    (0xC2 ≤ a ∧ a ≤ 0xDF) ∨ (0xE0 ≤ a ∧ a ≤ 0xEF) ∨ (0xF0 ≤ a ∧ a ≤ 0xF4) := by
  by_contra hnot
  rw [begin?, if_neg (by omega), if_neg (by omega), if_neg (by omega), if_neg (by omega),
    if_neg (by omega), if_neg (by omega), if_neg (by omega)] at h
  cases h

/-- A first byte and the bytes that complete it are the bytes of a character. -/
theorem utf8EncodeChar_of_completes {a : UInt8} {p : Pending} {tail : List UInt8} {code : Nat}
    (hbegin : begin? a.toNat = some p) (h : Completes p tail code) :
    String.utf8EncodeChar (Char.ofNat code) = a :: tail := by
  rcases begin?_range hbegin with ha | ha | ha
  · rw [begin?_two ha] at hbegin
    cases hbegin
    obtain ⟨b, rfl, hb, hcode⟩ := (completes_one_iff rfl).mp h
    exact utf8EncodeChar_two ha hb hcode
  · rw [begin?_three ha] at hbegin
    cases hbegin
    obtain ⟨b, rest, rfl, hb, hrest⟩ := (completes_more_iff (by simp)).mp h
    obtain ⟨c, rfl, hc, hcode⟩ := (completes_one_iff rfl).mp hrest
    simp only [Pending.next] at hb hc hcode
    have hoverlong : a.toNat = 0xE0 → 0xA0 ≤ b.toNat := by
      intro hfirst
      rw [if_pos hfirst] at hb
      exact hb.1
    have hsurrogate : a.toNat = 0xED → b.toNat ≤ 0x9F := by
      intro hfirst
      rw [if_pos hfirst] at hb
      exact hb.2
    have hrange : 0x80 ≤ b.toNat ∧ b.toNat ≤ 0xBF := by
      split_ifs at hb <;> omega
    refine utf8EncodeChar_three ha hrange hc hcode (by omega) ?_
    unfold Nat.isValidChar
    omega
  · rw [begin?_four ha] at hbegin
    cases hbegin
    obtain ⟨b, rest, rfl, hb, hrest⟩ := (completes_more_iff (by simp)).mp h
    obtain ⟨c, rest, rfl, hc, hrest⟩ := (completes_more_iff (by simp [Pending.next])).mp hrest
    obtain ⟨d, rfl, hd, hcode⟩ := (completes_one_iff rfl).mp hrest
    simp only [Pending.next] at hb hc hd hcode
    have hoverlong : a.toNat = 0xF0 → 0x90 ≤ b.toNat := by
      intro hfirst
      rw [if_pos hfirst] at hb
      exact hb.1
    have hlast : a.toNat = 0xF4 → b.toNat ≤ 0x8F := by
      intro hfirst
      rw [if_pos hfirst] at hb
      exact hb.2
    have hrange : 0x80 ≤ b.toNat ∧ b.toNat ≤ 0xBF := by
      split_ifs at hb <;> omega
    refine utf8EncodeChar_four ha hrange hc hd hcode (by omega) ?_
    unfold Nat.isValidChar
    omega

/-! ## Bytes of a code point -/

theorem completes_two {n : Nat} {a b : UInt8} (ha : a.toNat = n / 64 + 0xC0)
    (hb : b.toNat = n % 64 + 0x80) (hlong : 0x80 ≤ n) (hshort : n ≤ 0x7FF) :
    ∃ p, begin? a.toNat = some p ∧ Completes p [b] n := by
  refine ⟨_, begin?_two (by omega), (completes_one_iff rfl).mpr ⟨b, rfl, ?_, ?_⟩⟩
  · simp only
    omega
  · simp only
    omega

theorem completes_three {n : Nat} {a b c : UInt8} (ha : a.toNat = n / 4096 + 0xE0)
    (hb : b.toNat = n / 64 % 64 + 0x80) (hc : c.toNat = n % 64 + 0x80) (hlong : 0x800 ≤ n)
    (hshort : n ≤ 0xFFFF) (hvalid : n.isValidChar) :
    ∃ p, begin? a.toNat = some p ∧ Completes p [b, c] n := by
  unfold Nat.isValidChar at hvalid
  refine ⟨_, begin?_three (by omega), (completes_more_iff (by simp)).mpr ⟨b, [c], rfl, ?_,
    (completes_one_iff rfl).mpr ⟨c, rfl, ?_, ?_⟩⟩⟩
  · simp only
    split_ifs <;> omega
  · simp only [Pending.next]
    omega
  · simp only [Pending.next]
    omega

theorem completes_four {n : Nat} {a b c d : UInt8} (ha : a.toNat = n / 262144 + 0xF0)
    (hb : b.toNat = n / 4096 % 64 + 0x80) (hc : c.toNat = n / 64 % 64 + 0x80)
    (hd : d.toNat = n % 64 + 0x80) (hlong : 0x10000 ≤ n) (hvalid : n.isValidChar) :
    ∃ p, begin? a.toNat = some p ∧ Completes p [b, c, d] n := by
  unfold Nat.isValidChar at hvalid
  refine ⟨_, begin?_four (by omega), (completes_more_iff (by simp)).mpr ⟨b, [c, d], rfl, ?_,
    (completes_more_iff (by simp [Pending.next])).mpr ⟨c, [d], rfl, ?_,
      (completes_one_iff rfl).mpr ⟨d, rfl, ?_, ?_⟩⟩⟩⟩
  · simp only
    split_ifs <;> omega
  · simp only [Pending.next]
    omega
  · simp only [Pending.next]
    omega
  · simp only [Pending.next]
    omega

/-- A character above `0x7f` is written with a first byte and bytes that complete it. -/
theorem exists_completes {c : Char} (hc : ¬ c.val.toNat ≤ 0x7F) :
    ∃ (a : UInt8) (tail : List UInt8), String.utf8EncodeChar c = a :: tail ∧ ¬ a.toNat < 0x80 ∧
      ∃ p, begin? a.toNat = some p ∧ Completes p tail c.val.toNat := by
  have hvalid : c.val.toNat.isValidChar := c.valid
  have hrange : c.val.toNat < 0x110000 := by
    unfold Nat.isValidChar at hvalid
    omega
  have hbyte {n : Nat} (h : n < 256) : (UInt8.ofNat n).toNat = n := UInt8.toNat_ofNat_of_lt' h
  rw [String.utf8EncodeChar.eq_1, if_neg hc]
  by_cases htwo : c.val.toNat ≤ 0x7FF
  · rw [if_pos htwo]
    refine ⟨_, _, rfl, ?_, completes_two ?_ (hbyte (by omega)) (by omega) htwo⟩
    · rw [hbyte (by omega)]
      omega
    · rw [hbyte (by omega)]
      omega
  by_cases hthree : c.val.toNat ≤ 0xFFFF
  · rw [if_neg htwo, if_pos hthree]
    refine ⟨_, _, rfl, ?_, completes_three ?_ (hbyte (by omega)) (hbyte (by omega)) (by omega)
      hthree hvalid⟩
    · rw [hbyte (by omega)]
      omega
    · rw [hbyte (by omega)]
      omega
  · rw [if_neg htwo, if_neg hthree]
    refine ⟨_, _, rfl, ?_, completes_four ?_ (hbyte (by omega)) (hbyte (by omega))
      (hbyte (by omega)) (by omega) hvalid⟩
    · rw [hbyte (by omega)]
      omega
    · rw [hbyte (by omega)]
      omega

/-! ## Texts -/

/-- Reading a character and what follows it. -/
theorem decodeFrom_utf8EncodeChar (position start : Nat) (c : Char) (rest : List UInt8) :
    ∃ position' start', decodeFrom position start none (String.utf8EncodeChar c ++ rest) =
      (decodeFrom position' start' none rest).map (c :: ·) := by
  by_cases hc : c.val.toNat ≤ 0x7F
  · have hsmall : c.val.toNat < 256 := by omega
    have hbyte : (UInt8.ofNat c.val.toNat).toNat = c.val.toNat := UInt8.toNat_ofNat_of_lt' hsmall
    have hchar : Char.ofNat c.val.toNat = c := Char.ofNat_toNat c
    refine ⟨position + 1, start, ?_⟩
    rw [String.utf8EncodeChar.eq_1, if_pos hc, List.singleton_append, decodeFrom, hbyte,
      if_pos (by omega), hchar]
  · obtain ⟨a, tail, hencode, ha, p, hbegin, hcompletes⟩ := exists_completes hc
    have hchar : Char.ofNat c.val.toNat = c := Char.ofNat_toNat c
    refine ⟨position + 1 + tail.length, position, ?_⟩
    rw [hencode, List.cons_append, decodeFrom, if_neg ha, hbegin]
    simp only
    rw [decodeFrom_completes hcompletes, hchar]

theorem decodeFrom_encode (position start : Nat) (cs : List Char) :
    decodeFrom position start none (encode cs) = .ok cs := by
  induction cs generalizing position start with
  | nil => rfl
  | cons c cs ih =>
      obtain ⟨position', start', h⟩ := decodeFrom_utf8EncodeChar position start c (encode cs)
      rw [encode, List.flatMap_cons]
      rw [encode] at h ih
      rw [h, ih]
      rfl

/-- What is accepted is the bytes of the text that is read. -/
theorem encode_of_decodeFrom {position start : Nat} {bytes : List UInt8} {cs : List Char}
    (h : decodeFrom position start none bytes = .ok cs) : bytes = encode cs := by
  match bytes, h with
  | [], h =>
      cases h
      rfl
  | b :: bytes, h =>
      rw [decodeFrom] at h
      split at h
      · next hb =>
          obtain ⟨more, hmore, rfl⟩ := exists_of_map_eq_ok h
          have hvalue : (Char.ofNat b.toNat).val.toNat = b.toNat :=
            toNat_ofNat_char (Or.inl (by omega))
          rw [encode, List.flatMap_cons, String.utf8EncodeChar.eq_1, hvalue, if_pos (by omega),
            UInt8.ofNat_toNat, List.singleton_append]
          exact congrArg (b :: ·) (encode_of_decodeFrom hmore)
      · split at h
        · cases h
        · next p hbegin =>
            obtain ⟨tail, code, rest, more, hbytes, hcompletes, hmore, rfl⟩ :=
              completes_of_decodeFrom h
            have hshorter : rest.length ≤ bytes.length := by
              rw [hbytes, List.length_append]
              omega
            rw [encode, List.flatMap_cons, utf8EncodeChar_of_completes hbegin hcompletes,
              List.cons_append, hbytes]
            exact congrArg (fun l => b :: (tail ++ l)) (encode_of_decodeFrom hmore)
termination_by bytes.length
decreasing_by
  all_goals simp only [List.length_cons]
  all_goals omega

/-- Bytes are accepted exactly if they are those of a text, and then that text is read. -/
theorem decodeFrom_eq_ok_iff {position start : Nat} {bytes : List UInt8} {cs : List Char} :
    decodeFrom position start none bytes = .ok cs ↔ bytes = encode cs := by
  constructor
  · exact encode_of_decodeFrom
  · rintro rfl
    exact decodeFrom_encode position start cs

/-- The text of a file is what its bytes write, with its lines ended alike. -/
theorem decode_eq_ok_iff {bytes : List UInt8} {text : List Char} :
    decode bytes = .ok text ↔ ∃ cs, bytes = encode cs ∧ text = unifyLines cs := by
  constructor
  · intro h
    obtain ⟨cs, hcs, htext⟩ := exists_of_map_eq_ok h
    exact ⟨cs, decodeFrom_eq_ok_iff.mp hcs, htext.symm⟩
  · rintro ⟨cs, hbytes, rfl⟩
    rw [decode, decodeFrom_eq_ok_iff.mpr hbytes]
    rfl

end Utf8
end BracketCall
