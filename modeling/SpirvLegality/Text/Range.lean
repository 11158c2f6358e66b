/-!
# Ranges of code points

A class of characters is given by ascending inclusive ranges of code points. `inRanges` stops at
the first range that lies above the character.
-/

namespace SpirvLegality.Text

/-- Whether a code point lies in one of some ascending ranges. -/
def inRanges : List (Nat × Nat) → Nat → Bool
  | [], _ => false
  | (first, last) :: rest, n => first ≤ n && (n ≤ last || inRanges rest n)

/-- A code point in a class lies within one of its ranges. -/
theorem exists_range_of_inRanges {ranges : List (Nat × Nat)} {n : Nat}
    (h : inRanges ranges n = true) : ∃ r ∈ ranges, r.1 ≤ n ∧ n ≤ r.2 := by
  induction ranges with
  | nil => simp [inRanges] at h
  | cons r rest ih =>
    simp only [inRanges, Bool.and_eq_true, Bool.or_eq_true, decide_eq_true_eq] at h
    rcases h with ⟨hfirst, hlast | hrest⟩
    · exact ⟨r, by simp, hfirst, hlast⟩
    · obtain ⟨s, hs, hn⟩ := ih hrest
      exact ⟨s, by simp [hs], hn⟩

end SpirvLegality.Text
