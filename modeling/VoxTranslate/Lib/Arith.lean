import Mathlib.Data.Rat.Floor
import Mathlib.Algebra.Order.Floor.Semiring
import Mathlib.Tactic.Common
import Mathlib.Tactic.GCongr
import Mathlib.Tactic.Linarith
import Mathlib.Tactic.Ring

/-!
# Machine integers and decimal rounding

Two pieces of arithmetic that money code rests on: what a signed 32-bit register keeps of
an integer, and the rounding of a decimal to a number of places with ties to the even
neighbour.  Decimals are exact rationals here; rounding is the only place where digits are
lost.
-/

namespace Lib

/-- The largest signed 32-bit integer. -/
def i32Max : Int := 2147483647

/-- The smallest signed 32-bit integer. -/
def i32Min : Int := -2147483648

/-- What a signed 32-bit register holds of `x` when the arithmetic wraps. -/
def asI32 (x : Int) : Int := (x + 2147483648) % 4294967296 - 2147483648

/-- The value fits a signed 32-bit register. -/
def FitsI32 (x : Int) : Prop := i32Min ≤ x ∧ x ≤ i32Max

instance (x : Int) : Decidable (FitsI32 x) := inferInstanceAs (Decidable (_ ∧ _))

lemma asI32_eq {x : Int} (h : FitsI32 x) : asI32 x = x := by
  unfold FitsI32 i32Min i32Max at h
  unfold asI32
  omega

/-- Narrowing makes no non-negative value larger. -/
lemma asI32_le {x : Int} (h₀ : 0 ≤ x) : asI32 x ≤ x := by
  unfold asI32
  omega

/-- A non-negative value up to the maximum is kept. -/
lemma asI32_of_le {x : Int} (h₀ : 0 ≤ x) (h₁ : x ≤ i32Max) : asI32 x = x :=
  asI32_eq ⟨by unfold i32Min; omega, h₁⟩

/-- The nearest integer, ties to the even one. -/
def roundHalfEven (q : ℚ) : Int :=
  let f := ⌊q⌋
  if q - f < 1 / 2 then f
  else if 1 / 2 < q - f then f + 1
  else if f % 2 = 0 then f else f + 1

/-- `q` rounded to `dp` decimal places, ties to even. -/
def roundDp (q : ℚ) (dp : Nat) : ℚ := (roundHalfEven (q * 10 ^ dp) : ℚ) / 10 ^ dp

lemma roundHalfEven_zero : roundHalfEven 0 = 0 := by
  simp [roundHalfEven]

lemma floor_le_roundHalfEven (q : ℚ) : ⌊q⌋ ≤ roundHalfEven q := by
  unfold roundHalfEven
  dsimp only
  split_ifs <;> omega

lemma roundHalfEven_le_floor_succ (q : ℚ) : roundHalfEven q ≤ ⌊q⌋ + 1 := by
  unfold roundHalfEven
  dsimp only
  split_ifs <;> omega

/-- Rounding keeps the order. -/
lemma roundHalfEven_mono {p q : ℚ} (h : p ≤ q) : roundHalfEven p ≤ roundHalfEven q := by
  rcases (Int.floor_mono h).lt_or_eq with hlt | heq
  · exact (roundHalfEven_le_floor_succ p).trans
      ((Int.add_one_le_of_lt hlt).trans (floor_le_roundHalfEven q))
  · -- the same unit interval: only the fractions differ
    unfold roundHalfEven
    dsimp only
    rw [heq]
    split_ifs <;> first | omega | (exfalso; linarith)

/-- Rounding commutes with adding an integer, save for a tie that an odd integer turns. -/
lemma roundHalfEven_int_add (n : Int) (q : ℚ) :
    roundHalfEven (n + q) = n + roundHalfEven q ∨
      n % 2 = 1 ∧ roundHalfEven (n + q) ≤ n + roundHalfEven q + 1 := by
  have hfract : (n : ℚ) + q - ((n + ⌊q⌋ : Int) : ℚ) = q - ⌊q⌋ := by
    push_cast
    ring
  unfold roundHalfEven
  dsimp only
  rw [Int.floor_intCast_add, hfract]
  split_ifs <;> omega

@[simp] lemma roundHalfEven_intCast (n : Int) : roundHalfEven n = n := by
  simp [roundHalfEven]

/-- An even integer keeps what lies at most half above it. -/
lemma roundHalfEven_le_iff {n : Int} (heven : n % 2 = 0) (q : ℚ) :
    roundHalfEven q ≤ n ↔ q ≤ n + 1 / 2 := by
  have hfloor := Int.floor_le q
  have hlt := Int.lt_floor_add_one q
  constructor
  · intro h
    have hle : ⌊q⌋ ≤ n := (floor_le_roundHalfEven q).trans h
    rcases hle.lt_or_eq with hless | heq
    · have : (⌊q⌋ : ℚ) + 1 ≤ n := by exact_mod_cast hless
      linarith
    · by_contra hq
      have hup : roundHalfEven q = ⌊q⌋ + 1 := by
        rw [← heq] at hq
        unfold roundHalfEven
        rw [if_neg (by linarith), if_pos (by linarith)]
      omega
  · intro h
    rcases h.lt_or_eq with hless | heq
    · have hle : ⌊q⌋ ≤ n := Int.le_of_lt_add_one (Int.floor_lt.mpr (by push_cast; linarith))
      rcases hle.lt_or_eq with hbelow | hsame
      · exact (roundHalfEven_le_floor_succ q).trans (by omega)
      · rw [← hsame] at hless ⊢
        unfold roundHalfEven
        rw [if_pos (by linarith)]
    · -- a tie, which goes to the even side
      have hsame : ⌊q⌋ = n := by
        rw [heq, Int.floor_intCast_add]
        norm_num
      unfold roundHalfEven
      rw [hsame, heq]
      norm_num [heven]

lemma roundDp_mono {p q : ℚ} (h : p ≤ q) (dp : Nat) : roundDp p dp ≤ roundDp q dp := by
  have hscaled : p * 10 ^ dp ≤ q * 10 ^ dp := by gcongr
  have hround := roundHalfEven_mono hscaled
  unfold roundDp
  gcongr

/-- A decimal with `dp` places is kept. -/
lemma roundDp_of_int (n : Int) (dp : Nat) : roundDp (n / 10 ^ dp) dp = n / 10 ^ dp := by
  rw [roundDp, div_mul_cancel₀ _ (by positivity), roundHalfEven_intCast]

@[simp] lemma roundDp_zero (dp : Nat) : roundDp 0 dp = 0 := by
  simp [roundDp, roundHalfEven_zero]

end Lib
