import TextureGraph.Text.CodeRange

/-!
# Tables of ranges that do not meet

Whether two tables of code points have a character in common is decided by comparing their ranges
(`Text.apart`), without a look at the characters in them.
-/

namespace TextureGraph.Text

variable {ranges ranges' : Array (Nat × Nat)} {c : Char}

theorem inRanges_iff :
    inRanges ranges c = true ↔ ∃ r ∈ ranges.toList, r.1 ≤ c.toNat ∧ c.toNat ≤ r.2 := by
  unfold inRanges
  rw [← Array.any_toList, List.any_eq_true]
  simp only [Bool.and_eq_true, decide_eq_true_eq]

/-- No range of one table meets a range of the other one. -/
def apart (ranges ranges' : Array (Nat × Nat)) : Bool :=
  ranges.toList.all fun r => ranges'.toList.all fun r' => r.2 < r'.1 || r'.2 < r.1

theorem not_inRanges_of_apart (h : apart ranges ranges' = true)
    (hc : inRanges ranges c = true) : ¬ inRanges ranges' c = true := by
  intro hc'
  obtain ⟨r, hr, hwithin⟩ := inRanges_iff.mp hc
  obtain ⟨r', hr', hwithin'⟩ := inRanges_iff.mp hc'
  have hapart := List.all_eq_true.mp (List.all_eq_true.mp h r hr) r' hr'
  simp only [Bool.or_eq_true, decide_eq_true_eq] at hapart
  omega

end TextureGraph.Text
