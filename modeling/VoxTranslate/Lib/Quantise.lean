import Mathlib.Algebra.Order.Ring.Nat
import Mathlib.Data.Nat.Log

/-!
# Quantising to leading bits

A number is replaced by the middle of the step it lies in, where the step is so wide that the
number keeps its leading bit and `p` bits after it.  The steps grow with the number, so the error
is a fixed share of it.
-/

namespace Lib.Quantise

/-- The width of the step that `n` lies in. -/
def step (p n : ℕ) : ℕ := 2 ^ (n.log2 - p)

/-- The middle of the step that `n` lies in. -/
def quantise (p n : ℕ) : ℕ := n / step p n * step p n + step p n / 2

variable {p n : ℕ}

lemma step_pos (p n : ℕ) : 0 < step p n := Nat.two_pow_pos _

lemma two_pow_mul_step (h : p ≤ n.log2) : 2 ^ p * step p n = 2 ^ n.log2 := by
  rw [step, ← pow_add, Nat.add_sub_cancel' h]

lemma half_step (h : p < n.log2) : 2 * (step p n / 2) = step p n := by
  obtain ⟨k, hk⟩ : ∃ k, n.log2 - p = k + 1 := ⟨n.log2 - p - 1, by omega⟩
  rw [step, hk, pow_succ]
  omega

/-- No number is moved further than half a step. -/
lemma quantise_near (h : p < n.log2) :
    n ≤ quantise p n + step p n / 2 ∧ quantise p n ≤ n + step p n / 2 := by
  have hdiv := Nat.div_add_mod' n (step p n)
  have hmod := Nat.mod_lt n (step_pos p n)
  have hhalf := half_step h
  unfold quantise
  omega

/-- The error is a fixed share of the number. -/
lemma quantise_share (hn : n ≠ 0) (h : p < n.log2) :
    2 ^ (p + 1) * (n - quantise p n) ≤ n ∧ 2 ^ (p + 1) * (quantise p n - n) ≤ n := by
  obtain ⟨hle, hge⟩ := quantise_near h
  have hself := Nat.log2_self_le hn
  have hhalf : 2 ^ (p + 1) * (step p n / 2) = 2 ^ n.log2 := by
    rw [pow_succ, mul_assoc, half_step h, two_pow_mul_step h.le]
  constructor
  · calc 2 ^ (p + 1) * (n - quantise p n) ≤ 2 ^ (p + 1) * (step p n / 2) :=
          Nat.mul_le_mul_left _ (by omega)
      _ ≤ n := by omega
  · calc 2 ^ (p + 1) * (quantise p n - n) ≤ 2 ^ (p + 1) * (step p n / 2) :=
          Nat.mul_le_mul_left _ (by omega)
      _ ≤ n := by omega

/-- The leading bits of a number, as a number of steps. -/
lemma leading_bits (hn : n ≠ 0) (h : p ≤ n.log2) :
    2 ^ p ≤ n / step p n ∧ n / step p n < 2 ^ (p + 1) := by
  have hself := Nat.log2_self_le hn
  have hlt := Nat.lt_log2_self (n := n)
  have hstep := two_pow_mul_step h
  constructor
  · rw [Nat.le_div_iff_mul_le (step_pos p n), hstep]
    exact hself
  · rw [Nat.div_lt_iff_lt_mul (step_pos p n), pow_succ, mul_right_comm, hstep, ← pow_succ]
    exact hlt

lemma quantise_bounds (hn : n ≠ 0) (h : p < n.log2) :
    2 ^ n.log2 ≤ quantise p n ∧ quantise p n < 2 ^ (n.log2 + 1) := by
  obtain ⟨hle, hlt⟩ := leading_bits hn h.le
  have hstep := two_pow_mul_step h.le
  have hhalf := half_step h
  have hpos := step_pos p n
  constructor
  · calc 2 ^ n.log2 = 2 ^ p * step p n := hstep.symm
      _ ≤ n / step p n * step p n := Nat.mul_le_mul_right _ hle
      _ ≤ quantise p n := Nat.le_add_right _ _
  · calc quantise p n < (n / step p n + 1) * step p n := by
          rw [quantise, add_one_mul]
          omega
      _ ≤ 2 ^ (p + 1) * step p n := Nat.mul_le_mul_right _ hlt
      _ = 2 ^ (n.log2 + 1) := by rw [pow_succ, mul_right_comm, hstep, ← pow_succ]

/-- A larger number is not quantised to a smaller one. -/
lemma quantise_mono {m : ℕ} (hm : m ≠ 0) (hp : p < m.log2) (h : m ≤ n) :
    quantise p m ≤ quantise p n := by
  have hn : n ≠ 0 := by omega
  have hlog : m.log2 ≤ n.log2 := by
    rw [Nat.le_log2 hn]
    exact (Nat.log2_self_le hm).trans h
  rcases hlog.lt_or_eq with hlt | heq
  · calc quantise p m ≤ 2 ^ (m.log2 + 1) := (quantise_bounds hm hp).2.le
      _ ≤ 2 ^ n.log2 := Nat.pow_le_pow_right (by omega) hlt
      _ ≤ quantise p n := (quantise_bounds hn (by omega)).1
  · have hstep : step p m = step p n := by rw [step, heq, ← step]
    rw [quantise, quantise, hstep]
    exact Nat.add_le_add_right (Nat.mul_le_mul_right _ (Nat.div_le_div_right h)) _

end Lib.Quantise
