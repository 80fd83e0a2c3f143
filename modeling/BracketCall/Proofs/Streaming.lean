import BracketCall.Proofs.LiteralPass
import BracketCall.Proofs.Segmentation

/-!
# Tokens one at a time and all at once

A reader can be asked for its next token, for tokens until it stops, for all tokens at once, or for
the character in front of it.  It keeps its place between such steps.  A fault stops it, and a step
that asked for all tokens then gives none of those that it read.

**Method.**  What is left of a reader is what draining it would give: tokens, perhaps a fault, and
the reader where this ends.  A step takes tokens off the front and leaves the end as it is
(`report_splits`); only a step for all tokens that fails loses what was left.  At the end nothing is
left (`Settled`), and at a fault every step that reads meets the fault again.  What steps in any
order do follows by induction along them.

**Results.**
* `after_moves`: steps move a reader forward in its text.
* `taken_isPrefix`, `taken_lossless`: the tokens of steps are the first of those that were left.
* `Settled.after`: steps leave a reader at a fault where it is.
* `rawTokens_segmented`: the tokens of a source, or of its part before a fault, are its lexemes.
* `steps_agree`: how any steps on the reader of a source agree with its tokens.
-/

namespace BracketCall
namespace Reader

/-! ## Steps -/

/-- What can be asked of a reader. -/
inductive Step where
  /-- Take the next token, if there is one. -/
  | next
  /-- Take tokens until the text ends or a fault is met, and keep those before the fault. -/
  | drain
  /-- Take all tokens that are left, or none if a fault is met. -/
  | readAll
  /-- Look at the next character. -/
  | peek
deriving DecidableEq

/-- What a step gave, and the reader after it. -/
structure Report where
  tokens : List Token := []
  failed : Option Fault := none
  seen : Option Char := none
  after : Reader

def Step.report (r : Reader) : Step → Report
  | .next =>
      match r.next with
      | (.ok t, r') => { tokens := t.toList, after := r' }
      | (.error f, r') => { failed := some f, after := r' }
  | .drain =>
      match r.drain with
      | (ts, f, r') => { tokens := ts, failed := f, after := r' }
  | .readAll =>
      match r.tokens false with
      | (.ok ts, r') => { tokens := ts, after := r' }
      | (.error f, r') => { failed := some f, after := r' }
  | .peek => { seen := some r.peek, after := r }

/-- The reader after some steps. -/
def after (r : Reader) : List Step → Reader
  | [] => r
  | s :: steps => after (s.report r).after steps

/-- The tokens that steps gave, one after the other. -/
def taken (r : Reader) : List Step → List Token
  | [] => []
  | s :: steps => (s.report r).tokens ++ taken (s.report r).after steps

/-- None of the steps lost tokens: whenever all tokens were asked for, no fault was met. -/
def Lossless (r : Reader) (steps : List Step) : Prop :=
  ∀ earlier later, steps = earlier ++ .readAll :: later →
    (Step.readAll.report (r.after earlier)).failed = none

theorem after_append (r : Reader) (steps more : List Step) :
    r.after (steps ++ more) = (r.after steps).after more := by
  induction steps generalizing r with
  | nil => rfl
  | cons s steps ih => exact ih _

theorem taken_append (r : Reader) (steps more : List Step) :
    r.taken (steps ++ more) = r.taken steps ++ (r.after steps).taken more := by
  induction steps generalizing r with
  | nil => rfl
  | cons s steps ih => rw [List.cons_append, taken, ih, taken, List.append_assoc, after]

theorem Lossless.uncons {r : Reader} {s : Step} {steps : List Step} (h : r.Lossless (s :: steps)) :
    (s = .readAll → (s.report r).failed = none) ∧ (s.report r).after.Lossless steps := by
  constructor
  · rintro rfl
    exact h [] steps rfl
  · rintro earlier later rfl
    exact h (s :: earlier) later rfl

/-! ## Forward in the text -/

/-- The second reader is the first one after some more characters. -/
def Moves (r r' : Reader) : Prop :=
  ∃ skipped, r.rest = skipped ++ r'.rest ∧ r'.offset = r.offset + skipped.length

theorem Moves.refl (r : Reader) : r.Moves r := ⟨[], rfl, rfl⟩

theorem Moves.trans {r r' r'' : Reader} (h : r.Moves r') (h' : r'.Moves r'') : r.Moves r'' := by
  obtain ⟨skipped, hrest, hoffset⟩ := h
  obtain ⟨skipped', hrest', hoffset'⟩ := h'
  refine ⟨skipped ++ skipped', ?_, ?_⟩
  · rw [hrest, hrest', List.append_assoc]
  · rw [hoffset', hoffset, List.length_append, Nat.add_assoc]

theorem scan_moves (offset : Nat) (cs : List Char) : Moves ⟨offset, cs⟩ (scan offset cs).2 := by
  induction cs generalizing offset with
  | nil => exact .refl _
  | cons c cs ih =>
      have hone : Moves ⟨offset, c :: cs⟩ ⟨offset + 1, cs⟩ := ⟨[c], rfl, rfl⟩
      unfold scan
      split
      · exact hone
      · split
        · exact hone.trans (ih (offset + 1))
        · split
          · exact hone.trans ⟨cs.takeWhile inWord, List.takeWhile_append_dropWhile.symm, rfl⟩
          · exact .refl _

/-! ## The end of a reader -/

/-- Nothing is left to take: draining ends at once, with the fault if there is one. -/
def Settled (r : Reader) (f : Option Fault) : Prop :=
  r.drain = ([], f, r)

theorem scan_none {offset : Nat} {cs : List Char} {r : Reader}
    (h : scan offset cs = (.ok none, r)) :
    r.rest = [] := by
  induction cs generalizing offset with
  | nil =>
      cases h
      rfl
  | cons c cs ih =>
      unfold scan at h
      split at h
      · cases h
      · split at h
        · exact ih h
        · split at h <;> cases h

/-- A fault is met again, and tells the place where the reader stays. -/
theorem scan_error {offset : Nat} {cs : List Char} {f : Fault} {r : Reader}
    (h : scan offset cs = (.error f, r)) :
    scan r.offset r.rest = (.error f, r) ∧ ∃ c, f = .unexpectedCharacter c r.offset := by
  induction cs generalizing offset with
  | nil => cases h
  | cons c cs ih =>
      have hscan := h
      unfold scan at h
      split at h
      · cases h
      · split at h
        · exact ih h
        · split at h
          · cases h
          · cases h
            exact ⟨hscan, c, rfl⟩

/-- What the next token is to what draining gives: the first token of it, or there is none, and the
reader has come to its end. -/
theorem next_cases (r : Reader) :
    (∃ t r', r.next = (.ok (some t), r') ∧ r'.rest.length < r.rest.length ∧
      r.drain = (t :: r'.drain.1, r'.drain.2)) ∨
    (∃ r', r.next = (.ok none, r') ∧ r.drain = ([], none, r') ∧ r'.Settled none) ∨
    ∃ f r', r.next = (.error f, r') ∧ r.drain = ([], some f, r') ∧ r'.Settled (some f) ∧
      ∃ c, f = .unexpectedCharacter c r'.offset := by
  have hdrain := r.drain_eq
  rcases hscan : scan r.offset r.rest with ⟨f | _ | t, r'⟩
  · rw [hscan] at hdrain
    obtain ⟨hagain, hplace⟩ := scan_error hscan
    have hsettled := r'.drain_eq
    rw [hagain] at hsettled
    exact Or.inr (Or.inr ⟨f, r', hscan, hdrain, hsettled, hplace⟩)
  · rw [hscan] at hdrain
    have hrest := scan_none hscan
    have hsettled := drain_nil r'.offset
    rw [← hrest] at hsettled
    exact Or.inr (Or.inl ⟨r', hscan, hdrain, hsettled⟩)
  · rw [hscan] at hdrain
    exact Or.inl ⟨t, r', hscan, scan_shorter hscan, hdrain⟩

/-- Draining leads to the end, on the way forward. -/
theorem drain_settles (r : Reader) :
    r.drain.2.2.Settled r.drain.2.1 ∧ r.Moves r.drain.2.2 := by
  have hmoves : r.Moves r.next.2 := scan_moves r.offset r.rest
  rcases r.next_cases with ⟨t, r', hnext, hshorter, hdrain⟩ | ⟨r', hnext, hdrain, hsettled⟩ |
    ⟨f, r', hnext, hdrain, hsettled, -⟩
  · obtain ⟨hlater, hmore⟩ := r'.drain_settles
    rw [hnext] at hmoves
    rw [hdrain]
    exact ⟨hlater, hmoves.trans hmore⟩
  · rw [hnext] at hmoves
    rw [hdrain]
    exact ⟨hsettled, hmoves⟩
  · rw [hnext] at hmoves
    rw [hdrain]
    exact ⟨hsettled, hmoves⟩
termination_by r.rest.length

section Settled

variable {r : Reader} {f : Fault}

theorem Settled.next (h : r.Settled (some f)) :
    r.next = (.error f, r) ∧ ∃ c, f = .unexpectedCharacter c r.offset := by
  rcases r.next_cases with ⟨t, r', -, -, hdrain⟩ | ⟨r', -, hdrain, -⟩ |
    ⟨f', r', hnext, hdrain, -, hplace⟩
  · cases h.symm.trans hdrain
  · cases h.symm.trans hdrain
  · cases h.symm.trans hdrain
    exact ⟨hnext, hplace⟩

/-- At a fault every step stays, and every step that reads meets the fault again. -/
theorem Settled.report (h : r.Settled (some f)) (s : Step) :
    (s.report r).after = r ∧ (s ≠ .peek → (s.report r).failed = some f) := by
  have hdrain : r.drain = ([], some f, r) := h
  cases s with
  | next => simp [Step.report, h.next.1]
  | drain => simp [Step.report, hdrain]
  | readAll => simp [Step.report, tokens, readAll, hdrain]
  | peek => exact ⟨rfl, fun hs => absurd rfl hs⟩

theorem Settled.after (h : r.Settled (some f)) (steps : List Step) : r.after steps = r := by
  induction steps with
  | nil => rfl
  | cons s steps ih => rw [Reader.after, (h.report s).1, ih]

end Settled

/-! ## One step -/

/-- What a step takes and what it leaves. -/
structure Splits (r : Reader) (s : Step) (p : Report) : Prop where
  moves : r.Moves p.after
  /-- The end is where it was. -/
  ends : p.after.drain.2 = r.drain.2
  kept : (s = .readAll → p.failed = none) → r.drain.1 = p.tokens ++ p.after.drain.1
  lost : ∀ f, s = .readAll → p.failed = some f → p.tokens = [] ∧ p.after.drain.1 = []
  exhausted : s = .drain ∨ s = .readAll → p.after.drain.1 = []
  stops : ∀ f, p.failed = some f → p.after.Settled (some f)

theorem splits_next (r : Reader) : Splits r .next (Step.next.report r) := by
  have hmoves : r.Moves r.next.2 := scan_moves r.offset r.rest
  rcases r.next_cases with ⟨t, r', hnext, -, hdrain⟩ | ⟨r', hnext, hdrain, hsettled⟩ |
    ⟨f, r', hnext, hdrain, hsettled, -⟩
  · rw [hnext] at hmoves
    simp only [Step.report, hnext]
    exact ⟨hmoves, by rw [hdrain], fun _ => by rw [hdrain]; rfl, nofun, nofun, nofun⟩
  · rw [hnext] at hmoves
    have hend : r'.drain = ([], none, r') := hsettled
    simp only [Step.report, hnext]
    exact ⟨hmoves, by rw [hend, hdrain], fun _ => by rw [hend, hdrain]; rfl, nofun, nofun, nofun⟩
  · rw [hnext] at hmoves
    have hend : r'.drain = ([], some f, r') := hsettled
    simp only [Step.report, hnext]
    refine ⟨hmoves, by rw [hend, hdrain], fun _ => by rw [hend, hdrain]; rfl, nofun, nofun, ?_⟩
    rintro g hg
    cases hg
    exact hsettled

theorem splits_drain (r : Reader) : Splits r .drain (Step.drain.report r) := by
  obtain ⟨hsettled, hmoves⟩ := r.drain_settles
  rcases hdrain : r.drain with ⟨ts, f, r'⟩
  rw [hdrain] at hsettled hmoves
  have hend : r'.drain = ([], f, r') := hsettled
  simp only [Step.report, hdrain]
  refine ⟨hmoves, by rw [hend, hdrain], ?_, nofun, fun _ => by rw [hend], ?_⟩
  · intro _
    rw [hend, hdrain, List.append_nil]
  · rintro g hg
    cases hg
    exact hsettled

theorem splits_readAll (r : Reader) : Splits r .readAll (Step.readAll.report r) := by
  obtain ⟨hsettled, hmoves⟩ := r.drain_settles
  rcases hdrain : r.drain with ⟨ts, _ | f, r'⟩
  · rw [hdrain] at hsettled hmoves
    have hend : r'.drain = ([], none, r') := hsettled
    simp only [Step.report, tokens, readAll, hdrain, Token.listing]
    refine ⟨hmoves, by rw [hend, hdrain], ?_, ?_, fun _ => by rw [hend], ?_⟩
    · intro _
      rw [hend, hdrain, List.append_nil]
      rfl
    · intro f _ hf
      cases hf
    · intro f hf
      cases hf
  · rw [hdrain] at hsettled hmoves
    have hend : r'.drain = ([], some f, r') := hsettled
    simp only [Step.report, tokens, readAll, hdrain]
    refine ⟨hmoves, by rw [hend, hdrain], ?_, fun _ _ _ => ⟨rfl, by rw [hend]⟩,
      fun _ => by rw [hend], ?_⟩
    · intro hnone
      cases hnone rfl
    · rintro g hg
      cases hg
      exact hsettled

/-- Every step takes tokens off the front of what is left and leaves the end as it is. -/
theorem report_splits (r : Reader) (s : Step) : Splits r s (s.report r) := by
  cases s with
  | next => exact splits_next r
  | drain => exact splits_drain r
  | readAll => exact splits_readAll r
  | peek => exact ⟨.refl r, rfl, fun _ => rfl, nofun, nofun, nofun⟩

/-! ## Steps in any order -/

theorem after_moves (r : Reader) (steps : List Step) : r.Moves (r.after steps) := by
  induction steps generalizing r with
  | nil => exact .refl r
  | cons s steps ih => exact (r.report_splits s).moves.trans (ih _)

theorem after_ends (r : Reader) (steps : List Step) : (r.after steps).drain.2 = r.drain.2 := by
  induction steps generalizing r with
  | nil => rfl
  | cons s steps ih => exact (ih _).trans (r.report_splits s).ends

/-- The tokens of steps are the first of those that were left. -/
theorem taken_isPrefix (r : Reader) (steps : List Step) : r.taken steps <+: r.drain.1 := by
  induction steps generalizing r with
  | nil => exact List.nil_prefix
  | cons s steps ih =>
      have hsplits := r.report_splits s
      have hlater := ih (s.report r).after
      rw [taken]
      by_cases hlost : s = .readAll → (s.report r).failed = none
      · rw [hsplits.kept hlost]
        exact (List.prefix_append_right_inj _).mpr hlater
      · -- What was lost was all that was left.
        obtain ⟨hs, hfailed⟩ := Classical.not_imp.mp hlost
        obtain ⟨f, hf⟩ := Option.ne_none_iff_exists'.mp hfailed
        obtain ⟨htokens, hempty⟩ := hsplits.lost f hs hf
        rw [hempty, List.prefix_nil] at hlater
        rw [htokens, hlater]
        exact List.nil_prefix

/-- Steps that lose nothing take what was left up to what is left now. -/
theorem taken_lossless {r : Reader} {steps : List Step} (h : r.Lossless steps) :
    r.drain.1 = r.taken steps ++ (r.after steps).drain.1 := by
  induction steps generalizing r with
  | nil => rfl
  | cons s steps ih =>
      obtain ⟨hs, hsteps⟩ := h.uncons
      rw [(r.report_splits s).kept hs, ih hsteps, taken, List.append_assoc]
      rfl

/-- A step that takes all there is, behind steps that lost nothing, completes the tokens. -/
theorem taken_complete {r : Reader} {before : List Step} (hbefore : r.Lossless before) {s : Step}
    (hs : s = .drain ∨ s = .readAll ∧ (s.report (r.after before)).failed = none)
    (later : List Step) : r.taken (before ++ s :: later) = r.drain.1 := by
  have hsplits := (r.after before).report_splits s
  have hempty : (s.report (r.after before)).after.drain.1 = [] :=
    hsplits.exhausted (hs.imp id And.left)
  have hkept : s = .readAll → (s.report (r.after before)).failed = none := by
    rcases hs with rfl | ⟨-, hnone⟩
    · nofun
    · exact fun _ => hnone
  have hlater := taken_isPrefix (s.report (r.after before)).after later
  rw [hempty, List.prefix_nil] at hlater
  rw [taken_append, taken, hlater, taken_lossless hbefore, hsplits.kept hkept, hempty]

/-- Tokens that are taken one at a time. -/
theorem taken_replicate_next (r : Reader) (k : Nat) :
    r.taken (List.replicate k .next) = r.drain.1.take k := by
  induction k generalizing r with
  | zero => rfl
  | succ k ih =>
      rw [List.replicate_succ, taken, ih]
      rcases r.next_cases with ⟨t, r', hnext, -, hdrain⟩ | ⟨r', hnext, hdrain, hsettled⟩ |
        ⟨f, r', hnext, hdrain, hsettled, -⟩
      · simp only [Step.report, hnext, hdrain]
        rfl
      · have hend : r'.drain = ([], none, r') := hsettled
        simp only [Step.report, hnext, hdrain, hend, List.take_nil]
        rfl
      · have hend : r'.drain = ([], some f, r') := hsettled
        simp only [Step.report, hnext, hdrain, hend, List.take_nil]
        rfl

end Reader

/-! ## The literals of what is left -/

namespace Token

/-- The token is a word, and the last token that was taken is a separator. -/
def Parted (taken : List Token) (t : Token) : Prop :=
  t.kind = .word ∧ ∃ last ∈ taken.getLast?, last.isMark .separator = true

/-- The pass over the literals, behind some tokens, knows of the last of them whether it is a
separator. -/
theorem drop_literalsFrom (afterBar : Bool) (taken left : List Token) :
    (literalsFrom afterBar (taken ++ left)).drop taken.length =
      literalsFrom ((taken.getLast?.map fun t => t.isMark .separator).getD afterBar) left := by
  induction taken generalizing afterBar with
  | nil => rfl
  | cons t taken ih =>
      rw [List.cons_append, literalsFrom, List.length_cons, List.drop_succ_cons, ih,
        List.getLast?_cons]
      cases taken.getLast? <;> rfl

/-- Begun anew behind a separator, the pass leaves a word as it is. -/
theorem markLiterals_parted {taken later : List Token} {t : Token} (h : Parted taken t) :
    (markLiterals (taken ++ t :: later)).drop taken.length =
        ofLiteral t.text :: literalsFrom false later ∧
      markLiterals (t :: later) = t :: literalsFrom false later := by
  obtain ⟨hword, last, hlast, hbar⟩ := h
  constructor
  · rw [markLiterals, drop_literalsFrom, hlast, Option.map_some, Option.getD_some, hbar,
      literalsFrom_cons_word hword]
  · rw [markLiterals, literalsFrom, not_isMark_of_kind hword (by decide)]
    rfl

/-- Otherwise it makes no difference that the pass begins anew. -/
theorem markLiterals_unparted {taken left : List Token}
    (h : ∀ t ∈ left.head?, ¬ Parted taken t) :
    (markLiterals (taken ++ left)).drop taken.length = markLiterals left := by
  rw [markLiterals, drop_literalsFrom, markLiterals]
  cases left with
  | nil => rfl
  | cons t later =>
      cases hbar : (taken.getLast?.map fun t => t.isMark .separator).getD false with
      | false => rfl
      | true =>
          have hother : t.kind ≠ .word := by
            intro hword
            refine h t rfl ⟨hword, ?_⟩
            cases hlast : taken.getLast? with
            | none => simp [hlast] at hbar
            | some last => exact ⟨last, rfl, by simpa [hlast] using hbar⟩
          simp [literalsFrom, hother]

end Token

/-! ## Steps on a source -/

/-- The tokens of a source, up to its first fault. -/
def rawTokens (source : String) : List Token :=
  (Reader.ofSource source).drain.1

theorem rawTokens_cases (source : String) :
    (tokenize false source = .ok (rawTokens source) ∧
      (Reader.ofSource source).drain.2.1 = none) ∨
    ∃ c e, tokenize false source = .error (.unexpectedCharacter c e) ∧
      tokenize false (String.ofList (source.toList.take e)) = .ok (rawTokens source) := by
  have htokenize := tokenize_eq false source
  rcases hdrain : Reader.drain ⟨0, source.toList⟩ with ⟨ts, _ | f, r⟩
  · have hraw : rawTokens source = ts := congrArg Prod.fst hdrain
    rw [hdrain] at htokenize
    rw [hraw]
    exact Or.inl ⟨htokenize, congrArg (fun x => x.2.1) hdrain⟩
  · have hraw : rawTokens source = ts := congrArg Prod.fst hdrain
    obtain ⟨before, c, after, hsource, hlexes, -, -, rfl⟩ := Reader.exists_misfit_of_drain hdrain
    rw [hdrain] at htokenize
    refine Or.inr ⟨c, 0 + before.length, htokenize, ?_⟩
    rw [hraw, Nat.zero_add, hsource, List.take_left]
    refine tokenize_eq_ok_iff.mpr ⟨ts, ?_, rfl⟩
    rw [String.toList_ofList]
    exact hlexes

theorem segmentation_of_tokenize {source : String} {ts : List Token}
    (h : tokenize false source = .ok ts) : ∃ s : Segmentation source.toList, s.tokens = ts := by
  obtain ⟨raw, hraw, rfl⟩ := tokenize_eq_ok_iff.mp h
  exact exists_segmentation hraw

/-- The tokens of a source up to its first fault are those of the lexemes of the source, or of what
stands before the character that fits nowhere. -/
theorem rawTokens_segmented (source : String) :
    (∃ s : Segmentation source.toList, s.tokens = rawTokens source) ∨
    ∃ i c, FailsAt false source i c ∧
      ∃ s : Segmentation (source.toList.take i), s.tokens = rawTokens source := by
  rcases rawTokens_cases source with ⟨htokens, -⟩ | ⟨c, e, hfault, hbefore⟩
  · exact .inl (segmentation_of_tokenize htokens)
  · obtain ⟨i, c', hfails, hsame⟩ := tokenize_fails_iff.mp hfault
    cases hsame
    have hpieces := segmentation_of_tokenize hbefore
    rw [String.toList_ofList] at hpieces
    exact .inr ⟨e, c, hfails, hpieces⟩

namespace Reader

/-- The reader of a source after some steps. -/
abbrev afterSteps (source : String) (steps : List Step) : Reader :=
  (ofSource source).after steps

/-- The tokens that steps on the reader of a source gave. -/
abbrev takenBy (source : String) (steps : List Step) : List Token :=
  (ofSource source).taken steps

/-- How steps on the reader of a source agree with the tokens of the source. -/
structure Agrees (source : String) (steps : List Step) : Prop where
  /-- All tokens of the source, or those in front of its first fault. -/
  raw : tokenize false source = .ok (rawTokens source) ∨
    ∃ c e, tokenize false source = .error (.unexpectedCharacter c e) ∧
      tokenize false (String.ofList (source.toList.take e)) = .ok (rawTokens source)
  /-- These are the lexemes of the source, or of what stands before the character that fits nowhere. -/
  segmented : (∃ s : Segmentation source.toList, s.tokens = rawTokens source) ∨
    ∃ i c, FailsAt false source i c ∧
      ∃ s : Segmentation (source.toList.take i), s.tokens = rawTokens source
  /-- The offset is a place in the source, and what is left begins there. -/
  inSource : (afterSteps source steps).offset ≤ source.length ∧
    (afterSteps source steps).rest = source.toList.drop (afterSteps source steps).offset
  forward : ∀ s : Step,
    (afterSteps source steps).offset ≤ (afterSteps source (steps ++ [s])).offset
  /-- A look at the next character, or at NUL behind the last one, leaves the reader alone. -/
  peekStays : afterSteps source (steps ++ [.peek]) = afterSteps source steps ∧
    (Step.peek.report (afterSteps source steps)).seen =
      some (source.toList[(afterSteps source steps).offset]?.getD '\x00')
  isPrefix : takenBy source steps <+: rawTokens source
  /-- The tokens are complete as soon as a step took all there were, unless some were lost. -/
  complete : ∀ before s later, steps = before ++ s :: later →
    (ofSource source).Lossless before →
    (s = .drain ∨ s = .readAll ∧ (s.report (afterSteps source before)).failed = none) →
    takenBy source steps = rawTokens source
  /-- A step that fails stops at the place of its fault, and so does every step behind it, with the
  same fault unless it only looks. -/
  failure : ∀ before s later f, steps = before ++ s :: later →
    (s.report (afterSteps source before)).failed = some f →
    ∃ e : Nat, f.diagnostic.offset = some (e : Int) ∧
      (afterSteps source (before ++ [s])).offset = e ∧
      ∀ s' : Step, (afterSteps source (steps ++ [s'])).offset = e ∧
        (s' ≠ .peek → (s'.report (afterSteps source steps)).failed = some f)
  oneByOne : ∀ k, takenBy source (List.replicate k .next) = (rawTokens source).take k
  /-- With the literals marked, the tokens that are left are the last of all tokens.  Only a word
  behind a separator that was taken does not become a literal. -/
  resumed : ∀ ts left, tokenize true source = .ok ts →
    rawTokens source = takenBy source steps ++ left →
    (∀ t ∈ left.head?, Token.Parted (takenBy source steps) t →
      ts[(takenBy source steps).length]? = some (.ofLiteral t.text) ∧
      ((afterSteps source steps).tokens true).1 =
        .ok (t :: ts.drop ((takenBy source steps).length + 1))) ∧
    ((∀ t ∈ left.head?, ¬ Token.Parted (takenBy source steps) t) →
      ((afterSteps source steps).tokens true).1 = .ok (ts.drop (takenBy source steps).length))

theorem inSource_of_moves {source : String} {r : Reader} (h : (ofSource source).Moves r) :
    r.offset ≤ source.length ∧ r.rest = source.toList.drop r.offset := by
  obtain ⟨skipped, hrest, hoffset⟩ := h
  have hsource : source.toList = skipped ++ r.rest := hrest
  have hskipped : r.offset = skipped.length := by
    rw [hoffset, ofSource, Nat.zero_add]
  rw [hskipped, ← String.length_toList, hsource, List.length_append, List.drop_left]
  exact ⟨Nat.le_add_right _ _, rfl⟩

theorem forward_of_moves {r r' : Reader} (h : r.Moves r') : r.offset ≤ r'.offset := by
  obtain ⟨skipped, -, hoffset⟩ := h
  rw [hoffset]
  exact Nat.le_add_right _ _

/-- A step that fails stops the reader for good. -/
theorem fails_ever_after {r : Reader} {before : List Step} {s : Step} {f : Fault}
    (h : (s.report (r.after before)).failed = some f) (later : List Step) :
    ∃ e : Nat, f.diagnostic.offset = some (e : Int) ∧ (r.after (before ++ [s])).offset = e ∧
      ∀ s' : Step, (r.after (before ++ s :: later ++ [s'])).offset = e ∧
        (s' ≠ .peek → (s'.report (r.after (before ++ s :: later))).failed = some f) := by
  have hsettled := ((r.after before).report_splits s).stops f h
  obtain ⟨-, c, rfl⟩ := hsettled.next
  have hstays : r.after (before ++ s :: later) = (s.report (r.after before)).after := by
    rw [after_append, after]
    exact hsettled.after later
  refine ⟨_, rfl, ?_, ?_⟩
  · rw [after_append]
    rfl
  · intro s'
    obtain ⟨hplace, hfails⟩ := hsettled.report s'
    rw [after_append, hstays]
    exact ⟨congrArg offset hplace, hfails⟩

/-- A reader of a source without a fault never loses a token. -/
theorem lossless_of_source {source : String} (h : (ofSource source).drain.2.1 = none)
    (steps : List Step) : (ofSource source).Lossless steps := by
  rintro earlier later -
  cases hfailed : (Step.readAll.report ((ofSource source).after earlier)).failed with
  | none => rfl
  | some f =>
      -- A fault here would be the fault at the end of the source.
      have hsplits := ((ofSource source).after earlier).report_splits .readAll
      have hend := hsplits.ends.trans (after_ends (ofSource source) earlier)
      rw [show _ = _ from hsplits.stops f hfailed] at hend
      rw [← hend] at h
      cases h

theorem resumed_of_steps {source : String} {steps : List Step} {ts left : List Token}
    (hts : tokenize true source = .ok ts)
    (hleft : rawTokens source = takenBy source steps ++ left) :
    ts = Token.markLiterals (takenBy source steps ++ left) ∧
    ((afterSteps source steps).tokens true).1 = .ok (Token.markLiterals left) := by
  obtain ⟨raw, hraw, rfl⟩ := tokenize_eq_ok_iff.mp hts
  have hdrain : (ofSource source).drain = (raw, none, _) := drain_lexes hraw 0
  have hnone : (ofSource source).drain.2.1 = none := congrArg (fun x => x.2.1) hdrain
  have hrest := taken_lossless (lossless_of_source hnone steps)
  have hsame : left = (afterSteps source steps).drain.1 :=
    List.append_cancel_left (hleft.symm.trans hrest)
  have hend : (afterSteps source steps).drain.2.1 = none := by
    rw [afterSteps, after_ends, hnone]
  refine ⟨?_, ?_⟩
  · rw [← hleft, rawTokens, hdrain]
    rfl
  · rw [tokens, readAll]
    rcases hleftover : (afterSteps source steps).drain with ⟨us, f, r⟩
    rw [hleftover] at hsame hend
    obtain rfl : f = none := hend
    rw [hsame]
    rfl

/-- **Steps agree with the tokens of the source.**  Whatever is asked of the reader of a source, and
in whatever order, it moves forward within the source, and the tokens that it gives are the first
tokens of the source up to a fault.  A fault stops it for good. -/
theorem steps_agree (source : String) (steps : List Step) : Agrees source steps where
  raw := (rawTokens_cases source).imp And.left id
  segmented := rawTokens_segmented source
  inSource := inSource_of_moves ((ofSource source).after_moves steps)
  forward s := by
    have hmoves := ((ofSource source).after steps).after_moves [s]
    rw [← after_append] at hmoves
    exact forward_of_moves hmoves
  peekStays := by
    have hrest := (inSource_of_moves ((ofSource source).after_moves steps)).2
    rw [afterSteps, after_append, Step.report, peek, hrest, List.headD_eq_head?_getD,
      List.head?_drop]
    exact ⟨rfl, rfl⟩
  isPrefix := (ofSource source).taken_isPrefix steps
  complete := by
    rintro before s later rfl hbefore hs
    exact taken_complete hbefore hs later
  failure := by
    rintro before s later f rfl hfailed
    exact fails_ever_after hfailed later
  oneByOne := (ofSource source).taken_replicate_next
  resumed := by
    intro ts left hts hleft
    obtain ⟨rfl, hresult⟩ := resumed_of_steps hts hleft
    rw [hresult]
    constructor
    · rintro t ht hparted
      obtain ⟨later, rfl⟩ := List.head?_eq_some_iff.mp ht
      obtain ⟨hdrop, hanew⟩ := Token.markLiterals_parted hparted
      rw [hanew, ← List.head?_drop, ← List.tail_drop, hdrop]
      exact ⟨rfl, rfl⟩
    · intro hwhole
      rw [Token.markLiterals_unparted hwhole]

end Reader
end BracketCall
