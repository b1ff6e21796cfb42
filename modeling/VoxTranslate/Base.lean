import Mathlib.Init

/-!
# Identifiers and instants

Row identifiers are compared and never computed with; instants are microseconds, the
precision the database keeps.
-/

namespace VoxTranslate

/-- A row identifier. -/
abbrev Uuid := Nat

/-- An instant, in microseconds. -/
abbrev Timestamp := Int

/-- Whole seconds of a span of microseconds, truncated towards zero. -/
def numSeconds (span : Int) : Int := span.tdiv 1000000

/-- A span that fits `n` seconds has no more of them. -/
lemma numSeconds_le {span n : Int} (hn : 0 ≤ n) (h : span ≤ n * 1000000) : numSeconds span ≤ n := by
  unfold numSeconds
  rcases Int.le_total 0 span with hpos | hneg
  · rw [Int.tdiv_eq_ediv_of_nonneg hpos]
    omega
  · have hneg' : 0 ≤ (-span).tdiv 1000000 := Int.tdiv_nonneg (by omega) (by decide)
    rw [Int.neg_tdiv] at hneg'
    omega

end VoxTranslate
