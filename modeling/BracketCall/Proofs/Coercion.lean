import BracketCall.Proofs.KindSoundness

/-!
# Coercion as a normalisation

A literal or a result of a native is coerced before a native receives it: a tag is taken off, a text
that spells a number becomes the number, a fixed row becomes a list, and all else gets the kind that
fits it.  These are four different paths.  They lead to the same values: those whose kind is that of
the data, whose text spells no number, and whose data is neither a fixed row nor tagged.  Such values
are called normal, and coercion changes nothing about them, with their tag or without it.

A host may tag a value that is tagged already.  Only the outer tag is taken off then, and what is
inside is handed on as it is, normal or not.

**Results.**
* `coerce_normal`: what is tagged at most once becomes normal.
* `coerce_toValue_eq_iff`: exactly the normal values are left as they are.
* `coerce_normalises`: coercion is a normalisation, and what it does with two tags.
-/

namespace BracketCall

namespace Value

/-- Neither a fixed row nor tagged. -/
def Settled : Value → Prop
  | tuple _ => False
  | tagged _ _ => False
  | _ => True

/-- No data is tagged with itself. -/
theorem tagged_ne_self (kind : Kind) (data : Value) : tagged kind data ≠ data := by
  intro h
  have hsize := congrArg sizeOf h
  simp at hsize

end Value

namespace Dynamic

/-- The values to which coercion leads. -/
structure Normal (d : Dynamic) : Prop where
  sound : d.Sound
  unspelled : d.Unspelled
  settled : d.data.Settled

theorem coerceData_text_settled (text : String) : (coerceData (.text text)).data.Settled := by
  rcases coerceData_text text with ⟨n, hn⟩ | ⟨htext, -⟩
  · rw [hn]
    cases n <;> trivial
  · rw [htext]
    trivial

/-- What is tagged at most once becomes normal. -/
theorem coerce_normal {v : Value} (h : v.TaggedOnce) : (coerce v).Normal := by
  obtain ⟨hsound, hunspelled⟩ := coerce_fits h
  refine ⟨hsound, hunspelled, ?_⟩
  cases v with
  | text s => exact coerceData_text_settled s
  | tagged kind data =>
      cases data with
      | text s => exact coerceData_text_settled s
      | tagged _ _ => cases h
      | _ => trivial
  | _ => trivial

/-- The data of a normal value becomes that value again. -/
theorem Normal.coerceData {d : Dynamic} (h : d.Normal) : coerceData d.data = d := by
  obtain ⟨hsound, hunspelled, hsettled⟩ := h
  obtain ⟨kind, data⟩ := d
  obtain rfl : kind = data.kind := hsound
  cases data with
  | text s =>
      have hread : Numeral.read? s = none := hunspelled s rfl rfl
      exact coerce_text_of_none hread
  | tuple items => cases hsettled
  | tagged kind data => cases hsettled
  | _ => rfl

theorem Normal.coerce_data {d : Dynamic} (h : d.Normal) : coerce d.data = d := by
  have hdata := h.coerceData
  have hsettled := h.settled
  obtain ⟨kind, data⟩ := d
  cases data with
  | tagged kind data => cases hsettled
  | _ => exact hdata

/-- Exactly the normal values are left as they are. -/
theorem coerce_toValue_eq_iff {d : Dynamic} : coerce d.toValue = d ↔ d.Normal := by
  constructor
  · intro h
    obtain ⟨kind, data⟩ := d
    cases data with
    | tagged inner data =>
        -- the tag inside would be on data that holds this very tag
        have hdata : data = .tagged inner data := congrArg Dynamic.data h
        exact absurd hdata.symm (Value.tagged_ne_self inner data)
    | _ =>
        rw [← h]
        exact coerce_normal trivial
  · exact Normal.coerceData

/-- **Coercion is a normalisation.**  Take a value that is tagged at most once, with any kind.  It
becomes a value whose kind is that of its data and whose text, if it is one, spells no number; to
coerce this again, with its tag or without it, changes nothing; and the tag of the value did not
count.  Of a value that is tagged twice exactly one tag is taken off.

The values that coercion leaves as they are, are those of this form whose data is neither a fixed row
nor tagged. -/
theorem coerce_normalises :
    (∀ v : Value, v.TaggedOnce →
      let d := coerce v
      d.kind = d.data.kind ∧
      (∀ text, d.kind = .string → d.data = .text text → Numeral.read? text = none) ∧
      coerce d.toValue = d ∧
      coerce d.data = d ∧
      ∀ kind data, v = .tagged kind data → d = coerce data) ∧
    (∀ (d : Dynamic) (kind : Kind), coerce (.tagged kind d.toValue) = d) ∧
    ∀ d : Dynamic, coerce d.toValue = d ↔ d.Normal := by
  refine ⟨?_, fun _ _ => rfl, fun _ => coerce_toValue_eq_iff⟩
  intro v hv d
  have hd : d.Normal := coerce_normal hv
  refine ⟨hd.sound, hd.unspelled, coerce_toValue_eq_iff.mpr hd, hd.coerce_data, ?_⟩
  rintro kind data rfl
  cases data with
  | tagged _ _ => cases hv
  | _ => rfl

/-- A row with the tag of a number becomes a list with its own kind, and a numeral with the tag of a
row becomes a number. -/
theorem coerce_normalises_mislabeled :
    (Value.tagged .number (.tuple [.none])).TaggedOnce ∧
    coerce (.tagged .number (.tuple [.none])) = ⟨.array, .list [.none]⟩ ∧
    coerce (.list [.none]) = ⟨.array, .list [.none]⟩ ∧
    (Value.tagged .array (.text " 12")).TaggedOnce ∧
    coerce (.tagged .array (.text " 12")) = ⟨.number, .int 12⟩ ∧
    coerce (.tagged .number (.int 12)) = ⟨.number, .int 12⟩ := by
  have hrow : coerce (.tagged .number (.tuple [.none])) = ⟨.array, .list [.none]⟩ := rfl
  have hnumeral : coerce (.tagged .array (.text " 12")) = ⟨.number, .int 12⟩ := by
    have hread : Numeral.read? " 12" = some (.int 12) := by decide +kernel
    exact coerce_text_of_read? hread
  obtain ⟨-, -, -, hdata, -⟩ := coerce_normalises.1 (.tagged .number (.tuple [.none])) trivial
  obtain ⟨-, -, hagain, -⟩ := coerce_normalises.1 (.tagged .array (.text " 12")) trivial
  rw [hrow] at hdata
  rw [hnumeral] at hagain
  exact ⟨trivial, hrow, hdata, trivial, hnumeral, hagain⟩

end Dynamic
end BracketCall
