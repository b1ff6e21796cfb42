import Mathlib.Algebra.Order.Ring.Int

/-!
# An interval divided in proportion

An interval of `span` units is divided among weights that add up to `total`: after weights of
`a` the mark stands at the whole units of `span * a / total`.  Rounding moves no mark past another,
but two of them may meet.
-/

namespace Lib

/-- Where the interval is cut after weights of `a`. -/
def mark (span total a : Int) : Int := span * a / total

section Mark

variable {span total a b w n : Int}

@[simp] lemma mark_zero : mark span total 0 = 0 := by simp [mark]

lemma mark_mono (hspan : 0 ≤ span) (htotal : 0 < total) (h : a ≤ b) :
    mark span total a ≤ mark span total b :=
  Int.ediv_le_ediv htotal (Int.mul_le_mul_of_nonneg_left h hspan)

lemma mark_nonneg (hspan : 0 ≤ span) (htotal : 0 < total) (ha : 0 ≤ a) :
    0 ≤ mark span total a := by
  have h := mark_mono hspan htotal ha
  rwa [mark_zero] at h

/-- Before the last weight the interval is not used up. -/
lemma mark_lt (hspan : 0 < span) (htotal : 0 < total) (h : a < total) : mark span total a < span :=
  Int.ediv_lt_of_lt_mul htotal (Int.mul_lt_mul_of_pos_left h hspan)

/-- A share is rounded by less than one unit. -/
lemma mark_add_le (htotal : 0 < total) (h : n * total ≤ span * w) :
    mark span total a + n ≤ mark span total (a + w) := by
  rw [mark, mark, ← Int.add_mul_ediv_right _ _ htotal.ne', Int.mul_add]
  exact Int.ediv_le_ediv htotal (by omega)

/-- Two marks differ when a whole number of units lies between the exact cuts. -/
lemma mark_lt_mark_iff (htotal : 0 < total) :
    mark span total a < mark span total b ↔
      ∃ k, span * a < k * total ∧ k * total ≤ span * b := by
  constructor
  · intro h
    refine ⟨mark span total b, ?_, Int.ediv_mul_le _ htotal.ne'⟩
    rwa [← Int.ediv_lt_iff_lt_mul htotal]
  · rintro ⟨k, ha, hb⟩
    have hlt : mark span total a < k := (Int.ediv_lt_iff_lt_mul htotal).mpr ha
    have hle : k ≤ mark span total b := (Int.le_ediv_iff_mul_le htotal).mpr hb
    omega

end Mark

end Lib
