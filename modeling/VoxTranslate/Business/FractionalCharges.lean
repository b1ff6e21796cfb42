import Mathlib.Algebra.BigOperators.Group.List.Basic
import VoxTranslate.Voip.Pricing

/-!
# Charges below a credit

Two meters turn fractions of a cent into whole credits.  One is given the charges as they come
and carries what is left below a credit; the other is given a clock, and takes what the whole
session owes less what it has charged.
-/

namespace VoxTranslate.Business

open Lib Voip

/-- `to_i32().unwrap_or(i32::MAX)`. -/
def toI32 (x : Int) : Int := if FitsI32 x then x else i32Max

/-! ## Charges as they come -/

/-- Turns a stream of fractional charges into whole credits.  What it carries is below a credit. -/
structure CreditAccumulator where
  owedUsd : Usd
  owed_nonneg : 0 ≤ owedUsd
  owed_lt : owedUsd < usdPerCredit

namespace CreditAccumulator

def default : CreditAccumulator where
  owedUsd := 0
  owed_nonneg := le_rfl
  owed_lt := by norm_num [usdPerCredit]

/-- The running total with one more charge; one that is not positive is ignored. -/
def pending (a : CreditAccumulator) (usd : Usd) : Usd :=
  if 0 < usd then a.owedUsd + usd else a.owedUsd

/-- The whole credits of the running total. -/
def whole (a : CreditAccumulator) (usd : Usd) : Int := ⌊a.pending usd / usdPerCredit⌋

lemma pending_nonneg (a : CreditAccumulator) (usd : Usd) : 0 ≤ a.pending usd := by
  have := a.owed_nonneg
  unfold pending
  split_ifs <;> linarith

lemma whole_mul_le (a : CreditAccumulator) (usd : Usd) :
    a.whole usd * usdPerCredit ≤ a.pending usd := by
  have := Int.floor_le (a.pending usd / usdPerCredit)
  rwa [le_div_iff₀ (by norm_num [usdPerCredit])] at this

lemma pending_lt (a : CreditAccumulator) (usd : Usd) :
    a.pending usd < (a.whole usd + 1) * usdPerCredit := by
  have := Int.lt_floor_add_one (a.pending usd / usdPerCredit)
  rwa [div_lt_iff₀ (by norm_num [usdPerCredit])] at this

lemma whole_nonneg (a : CreditAccumulator) (usd : Usd) : 0 ≤ a.whole usd :=
  Int.floor_nonneg.mpr (div_nonneg (a.pending_nonneg usd) (by norm_num [usdPerCredit]))

/-- Record a charge and take the whole credits now due. -/
def take (a : CreditAccumulator) (usd : Usd) : Int × CreditAccumulator :=
  if h : a.whole usd < 1 then
    (0,
      { owedUsd := a.pending usd
        owed_nonneg := a.pending_nonneg usd
        owed_lt := by
          have hzero : a.whole usd = 0 := by
            have := a.whole_nonneg usd
            omega
          have hlt := a.pending_lt usd
          rwa [hzero, Int.cast_zero, zero_add, one_mul] at hlt })
  else
    (toI32 (a.whole usd),
      { owedUsd := a.pending usd - a.whole usd * usdPerCredit
        owed_nonneg := sub_nonneg.mpr (a.whole_mul_le usd)
        owed_lt := by linarith [a.pending_lt usd] })

/-- The credits handed out for one charge after the other, and what is carried in the end. -/
def takes (a : CreditAccumulator) : List Usd → List Int × CreditAccumulator
  | [] => ([], a)
  | usd :: charges =>
    ((a.take usd).1 :: ((a.take usd).2.takes charges).1, ((a.take usd).2.takes charges).2)

/-- Every running total is below the range of the credits. -/
def InRange (a : CreditAccumulator) : List Usd → Prop
  | [] => True
  | usd :: charges => a.whole usd ≤ i32Max ∧ (a.take usd).2.InRange charges

instance decidableInRange : (a : CreditAccumulator) → (charges : List Usd) →
    Decidable (a.InRange charges)
  | _, [] => .isTrue trivial
  | a, usd :: charges =>
    have := decidableInRange (a.take usd).2 charges
    inferInstanceAs (Decidable (_ ∧ _))

/-- **One charge**: the credits and what is carried on are the running total. -/
lemma take_conserves {a : CreditAccumulator} {usd : Usd} (h : a.whole usd ≤ i32Max) :
    (a.take usd).1 * usdPerCredit + (a.take usd).2.owedUsd = a.pending usd := by
  have hnonneg := a.whole_nonneg usd
  unfold take
  split_ifs with hless
  · simp
  · have hfits : toI32 (a.whole usd) = a.whole usd :=
      if_pos ⟨by unfold i32Min; omega, h⟩
    simp only [hfits]
    ring

/-- **All charges**: the credits and what is carried in the end are the sum of the positive
charges. -/
lemma takes_conserve {a : CreditAccumulator} {charges : List Usd} (h : a.InRange charges) :
    (a.takes charges).1.sum * usdPerCredit + (a.takes charges).2.owedUsd =
      a.owedUsd + (charges.filter fun usd => 0 < usd).sum := by
  induction charges generalizing a with
  | nil => simp [takes]
  | cons usd charges ih =>
    obtain ⟨hfirst, hrest⟩ := h
    have hstep := take_conserves hfirst
    have hih := ih hrest
    have hpending : a.pending usd + (charges.filter fun usd => 0 < usd).sum =
        a.owedUsd + ((usd :: charges).filter fun usd => 0 < usd).sum := by
      rw [pending, List.filter_cons]
      by_cases hpos : 0 < usd
      · simp only [hpos, if_true, decide_true, List.sum_cons]
        ring
      · simp [hpos]
    rw [← hpending, ← hstep, takes, List.sum_cons, Int.cast_add]
    linarith

end CreditAccumulator

/-! ## A clock -/

/-- What one minute costs the customer: the product of the cost and the markup, which is computed
in floats and may have no decimal value. -/
def minutePriceUsd (product : Option ℚ) : Usd := roundDp (product.getD 0) 6

/-- Bills a constant price per minute against a clock. -/
structure MinuteRateMeter where
  pricePerMinuteUsd : Usd
  charged : Int

namespace MinuteRateMeter

def new (product : Option ℚ) : MinuteRateMeter where
  pricePerMinuteUsd := minutePriceUsd product
  charged := 0

/-- What a session of `elapsedSecs` owes, in whole credits. -/
def creditsFor (price : Usd) (elapsedSecs : Nat) : Int := ⌊price * elapsedSecs / 60 * 100⌋

/-- Credits now due, given the elapsed seconds of the whole session. -/
def due (m : MinuteRateMeter) (elapsedSecs : Nat) : Int × MinuteRateMeter :=
  let owedCredits := toI32 (creditsFor m.pricePerMinuteUsd elapsedSecs)
  let due := asI32 (owedCredits - m.charged)
  if due ≤ 0 then (0, m) else (due, { m with charged := owedCredits })

/-- The credits handed out at one reading of the clock after the other. -/
def dues (m : MinuteRateMeter) : List Nat → List Int
  | [] => []
  | elapsed :: rest => (m.due elapsed).1 :: (m.due elapsed).2.dues rest

/-- The largest reading so far. -/
def largest (elapsed : List Nat) : Nat := elapsed.foldr max 0

variable {m : MinuteRateMeter} {price : Usd} {elapsed : Nat}

lemma creditsFor_le {s t : Nat} (hprice : 0 ≤ price) (hst : s ≤ t) :
    creditsFor price s ≤ creditsFor price t := by
  have hcast : (s : ℚ) ≤ t := by exact_mod_cast hst
  refine Int.floor_mono ?_
  gcongr

@[simp] lemma creditsFor_zero : creditsFor price 0 = 0 := by simp [creditsFor]

lemma toI32_creditsFor (hprice : 0 ≤ price) (elapsed : Nat) :
    toI32 (creditsFor price elapsed) = min i32Max (creditsFor price elapsed) := by
  have hnonneg := creditsFor_le hprice (Nat.zero_le elapsed)
  rw [creditsFor_zero] at hnonneg
  unfold toI32 FitsI32 i32Min i32Max
  split_ifs <;> omega

/-- **One reading**: the meter has charged the larger of what it had and what is owed. -/
lemma due_eq (hprice : 0 ≤ m.pricePerMinuteUsd) (hcharged : 0 ≤ m.charged ∧ m.charged ≤ i32Max)
    (elapsed : Nat) :
    m.due elapsed =
      (max m.charged (min i32Max (creditsFor m.pricePerMinuteUsd elapsed)) - m.charged,
        { m with charged := max m.charged (min i32Max (creditsFor m.pricePerMinuteUsd elapsed)) })
    := by
  have hnonneg := creditsFor_le hprice (Nat.zero_le elapsed)
  rw [creditsFor_zero] at hnonneg
  have hdue : asI32 (min i32Max (creditsFor m.pricePerMinuteUsd elapsed) - m.charged) =
      min i32Max (creditsFor m.pricePerMinuteUsd elapsed) - m.charged := by
    refine asI32_eq ⟨?_, ?_⟩
    · unfold i32Min i32Max at *
      omega
    · omega
  unfold due
  simp only [toI32_creditsFor hprice, hdue]
  split_ifs with hle
  · have hmax : max m.charged (min i32Max (creditsFor m.pricePerMinuteUsd elapsed)) = m.charged :=
      max_eq_left (by omega)
    rw [hmax, sub_self]
  · have hmax : max m.charged (min i32Max (creditsFor m.pricePerMinuteUsd elapsed)) =
        min i32Max (creditsFor m.pricePerMinuteUsd elapsed) := max_eq_right (by omega)
    rw [hmax]

/-- **All readings**: what is charged in the end is owed at the largest. -/
lemma dues_sum (hprice : 0 ≤ m.pricePerMinuteUsd)
    (hcharged : 0 ≤ m.charged ∧ m.charged ≤ i32Max) (readings : List Nat) :
    (m.dues readings).sum =
      max m.charged (min i32Max (creditsFor m.pricePerMinuteUsd (largest readings))) -
        m.charged := by
  induction readings generalizing m with
  | nil =>
    have : min i32Max (creditsFor m.pricePerMinuteUsd (largest [])) = 0 := by
      simp [largest, i32Max]
    rw [this, max_eq_left hcharged.1, sub_self]
    rfl
  | cons elapsed rest ih =>
    have hstep := due_eq hprice hcharged elapsed
    have hmono : Monotone (creditsFor m.pricePerMinuteUsd) := fun _ _ => creditsFor_le hprice
    have hlargest : creditsFor m.pricePerMinuteUsd (largest (elapsed :: rest)) =
        max (creditsFor m.pricePerMinuteUsd elapsed)
          (creditsFor m.pricePerMinuteUsd (largest rest)) :=
      hmono.map_max
    have hrest := @ih { m with
      charged := max m.charged (min i32Max (creditsFor m.pricePerMinuteUsd elapsed)) }
      hprice ⟨le_max_of_le_left hcharged.1, max_le hcharged.2 (min_le_left _ _)⟩
    rw [dues, List.sum_cons, hstep, hlargest]
    dsimp only at hrest ⊢
    rw [hrest]
    omega

/-- A meter with a negative price hands nothing out while its debts fit the register. -/
lemma dues_sum_of_neg (hprice : m.pricePerMinuteUsd ≤ 0) (hcharged : m.charged = 0)
    {readings : List Nat}
    (hfits : ∀ e ∈ readings, i32Min ≤ creditsFor m.pricePerMinuteUsd e) :
    (m.dues readings).sum = 0 := by
  induction readings with
  | nil => rfl
  | cons elapsed rest ih =>
    have hneg : creditsFor m.pricePerMinuteUsd elapsed ≤ 0 := by
      have : m.pricePerMinuteUsd * elapsed / 60 * 100 ≤ 0 := by
        have := mul_nonpos_of_nonpos_of_nonneg hprice (Nat.cast_nonneg (α := ℚ) elapsed)
        linarith
      exact_mod_cast (Int.floor_le _).trans this
    have hfit := hfits elapsed (by simp)
    have hdue : m.due elapsed = (0, m) := by
      have hregister : FitsI32 (creditsFor m.pricePerMinuteUsd elapsed) :=
        ⟨hfit, hneg.trans (by decide)⟩
      unfold due
      simp only [toI32, if_pos hregister, hcharged, sub_zero, asI32_eq hregister, if_pos hneg]
    rw [dues, List.sum_cons, hdue, ih fun e he => hfits e (List.mem_cons_of_mem _ he)]
    rfl

end MinuteRateMeter

end VoxTranslate.Business
