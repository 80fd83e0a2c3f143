/-!
# Character classes as lists of ranges

A class of characters is given by the closed ranges of code points that belong to it, listed in
increasing order.  A look-up walks the list and stops at the first range that does not end before
the code point.

**Results.**  `inRanges_eq_true`: a hit names the range that holds the code point.
-/

namespace BracketCall
namespace Text

/-- Whether `n` lies in one of the ranges, which are listed in increasing order. -/
def inRanges (n : Nat) : List (Nat × Nat) → Bool
  | [] => false
  | (low, high) :: rest =>
      if n ≤ high then decide (low ≤ n) else inRanges n rest

/-- A hit names the range that holds the code point. -/
theorem inRanges_eq_true {n : Nat} :
    ∀ {ranges : List (Nat × Nat)}, inRanges n ranges = true →
      ∃ r, r ∈ ranges ∧ r.1 ≤ n ∧ n ≤ r.2
  | [], h => by simp [inRanges] at h
  | (low, high) :: rest, h => by
      by_cases hn : n ≤ high
      · simp [inRanges, hn] at h
        exact ⟨(low, high), by simp, h, hn⟩
      · simp [inRanges, hn] at h
        obtain ⟨r, hr, hb⟩ := inRanges_eq_true h
        exact ⟨r, List.mem_cons_of_mem _ hr, hb⟩

end Text
end BracketCall
