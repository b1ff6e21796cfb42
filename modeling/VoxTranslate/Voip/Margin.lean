import VoxTranslate.Voip.Costs

/-!
# The margin floor

A price is `cost * (1 + buffer) / (1 - margin)`, rounded up at six decimals, so that the margin
on it is never below the floor.  The settlement of a call rounds in two steps: what the call owes
goes to the nearest micro-dollar, and the micro-dollars go up to whole credits.  The second step
cannot give back what the first took away when the first lands on a whole credit.
-/

namespace VoxTranslate.Voip

open Lib

variable {policy : MarginPolicy} {cost price : Usd}

/-- Whether a charge and a cost respect the floor.  Nothing charged is fine when nothing was
paid. -/
def MarginPolicy.isRespected (p : MarginPolicy) (charge cost : Usd) : Bool :=
  match realisedMargin charge cost with
  | some m => decide (p.minGrossMargin ≤ m)
  | none => decide (cost ≤ 0)

/-- What a minute must bring in, before any rounding. -/
def MarginPolicy.exactPrice (p : MarginPolicy) (cost : Usd) : ℚ :=
  cost * (1 + p.safetyBuffer) / (1 - p.minGrossMargin)

/-! ## The price of a minute -/

lemma roundUp_eq (v : Usd) (dp : Nat) : roundUp v dp = (⌈v * 10 ^ dp⌉ : ℚ) / 10 ^ dp :=
  roundDp_of_int _ dp

lemma le_roundUp (v : Usd) (dp : Nat) : v ≤ roundUp v dp := by
  rw [roundUp_eq, le_div_iff₀ (by positivity)]
  exact Int.le_ceil _

lemma roundUp_lt (v : Usd) (dp : Nat) : roundUp v dp < v + 1 / 10 ^ dp := by
  rw [roundUp_eq, div_lt_iff₀ (by positivity), add_mul, one_div_mul_cancel (by positivity)]
  exact Int.ceil_lt_add_one _

lemma roundUp_mono {u v : Usd} (h : u ≤ v) (dp : Nat) : roundUp u dp ≤ roundUp v dp := by
  have hscaled : u * 10 ^ dp ≤ v * 10 ^ dp := by gcongr
  have hceil : (⌈u * 10 ^ dp⌉ : ℚ) ≤ ⌈v * 10 ^ dp⌉ := by exact_mod_cast Int.ceil_mono hscaled
  rw [roundUp_eq, roundUp_eq]
  gcongr

namespace MarginPolicy

lemma one_sub_margin_pos (p : MarginPolicy) : 0 < 1 - p.minGrossMargin := by
  linarith [p.margin_lt_one]

lemma exactPrice_mono (p : MarginPolicy) {c d : Usd} (h : c ≤ d) :
    p.exactPrice c ≤ p.exactPrice d := by
  have hbuffer : 0 ≤ 1 + p.safetyBuffer := by linarith [p.buffer_nonneg]
  have hmargin := p.one_sub_margin_pos
  unfold exactPrice
  gcongr

lemma pricePerMinute_iff (p : MarginPolicy) :
    p.pricePerMinute cost = some price ↔
      0 ≤ cost ∧ price = roundUp (p.exactPrice cost) moneyDp := by
  unfold pricePerMinute exactPrice
  split_ifs with h
  · simp [h]
  · simp [not_lt.mp h, eq_comm]

/-- **The floor is in the price**: what a minute costs us is at most the part of its price that
the margin leaves. -/
lemma cost_le (h : policy.pricePerMinute cost = some price) :
    cost ≤ price * (1 - policy.minGrossMargin) := by
  obtain ⟨hcost, rfl⟩ := policy.pricePerMinute_iff.mp h
  have hmargin := policy.one_sub_margin_pos
  have hbuffer : cost ≤ cost * (1 + policy.safetyBuffer) :=
    le_mul_of_one_le_right hcost (by linarith [policy.buffer_nonneg])
  refine hbuffer.trans ?_
  rw [← div_le_iff₀ hmargin]
  exact le_roundUp _ moneyDp

/-- **The quoted price respects the floor.**  With a margin of at most six decimals, the guard
accepts the price of a minute against its cost; the price is monotone in the cost, and less than a
micro-dollar above the exact value. -/
theorem pricePerMinute_isRespected {n : Int} (hdecimals : policy.minGrossMargin = n / 10 ^ moneyDp)
    (hcost : 0 ≤ cost) :
    ∃ price, policy.pricePerMinute cost = some price ∧
      policy.isRespected price cost = true ∧
      (∀ c p, policy.pricePerMinute c = some p → c ≤ cost → p ≤ price) ∧
      (∀ c p, policy.pricePerMinute c = some p → cost ≤ c → price ≤ p) ∧
      price < cost * (1 + policy.safetyBuffer) / (1 - policy.minGrossMargin) + 1 / 10 ^ 6 := by
  have hprice := policy.pricePerMinute_iff.mpr ⟨hcost, rfl⟩
  refine ⟨_, hprice, ?_, fun c p hp hle => ?_, fun c p hp hle => ?_, roundUp_lt _ moneyDp⟩
  · have hfloor := cost_le hprice
    unfold isRespected realisedMargin
    split_ifs with hcharge
    · -- a price of nothing is the price of nothing
      have hmargin := policy.one_sub_margin_pos
      simp only [decide_eq_true_eq]
      exact hfloor.trans (mul_nonpos_of_nonpos_of_nonneg hcharge hmargin.le)
    · simp only [decide_eq_true_eq]
      rw [not_le] at hcharge
      have hkept : policy.minGrossMargin ≤
          (roundUp (policy.exactPrice cost) moneyDp - cost) /
            roundUp (policy.exactPrice cost) moneyDp := by
        rw [le_div_iff₀ hcharge]
        linarith
      have hround := roundDp_mono hkept moneyDp
      rwa [hdecimals, roundDp_of_int, ← hdecimals] at hround
  · obtain ⟨-, rfl⟩ := policy.pricePerMinute_iff.mp hp
    exact roundUp_mono (policy.exactPrice_mono hle) moneyDp
  · obtain ⟨-, rfl⟩ := policy.pricePerMinute_iff.mp hp
    exact roundUp_mono (policy.exactPrice_mono hle) moneyDp

/-- The law at a margin of a tenth and a cost of a third of a dollar. -/
theorem pricePerMinute_isRespected_tenth :
    ∃ price, CostedCall.tenthMargin.pricePerMinute (1 / 3) = some price ∧
      CostedCall.tenthMargin.isRespected price (1 / 3) = true := by
  have hdecimals : CostedCall.tenthMargin.minGrossMargin = (100000 : Int) / 10 ^ moneyDp := by
    norm_num [CostedCall.tenthMargin, moneyDp]
  have hcost : (0 : Usd) ≤ 1 / 3 := by norm_num
  obtain ⟨price, hprice, hrespected, -⟩ := pricePerMinute_isRespected hdecimals hcost
  exact ⟨price, hprice, hrespected⟩

end MarginPolicy

/-! ## The charge of a call -/

/-- What a call of `seconds` owes before any rounding. -/
def exactUsd (pricePerMinute : Usd) (seconds : Nat) : ℚ := pricePerMinute * seconds / 60

/-- A whole number of credits lies below the amount, by at most half a micro-dollar. -/
def JustAboveCredit (usd : ℚ) : Prop :=
  ∃ c : Int, creditsToUsd c < usd ∧ usd ≤ creditsToUsd c + 1 / (2 * 10 ^ moneyDp)

/-- What is owed, rounded to micro-dollars, is at most `c` credits. -/
lemma owedUsd_le_iff {seconds : Nat} (c : Int) :
    owedUsd price seconds ≤ creditsToUsd c ↔
      exactUsd price seconds ≤ creditsToUsd c + 1 / (2 * 10 ^ moneyDp) := by
  have hcredit : creditsToUsd c = ((10000 * c : Int) : ℚ) / 10 ^ moneyDp := by
    unfold creditsToUsd usdPerCredit
    norm_num [moneyDp]
    ring
  have heven : (10000 * c) % 2 = 0 := by omega
  have hround := roundHalfEven_le_iff heven (exactUsd price seconds * 10 ^ moneyDp)
  rw [hcredit]
  unfold owedUsd roundDp
  rw [div_le_div_iff_of_pos_right (by positivity), ← exactUsd]
  rw [Int.cast_le, hround, ← le_div_iff₀ (by positivity), add_div, div_div, mul_comm (2 : ℚ)]

lemma exactUsd_nonneg (hprice : 0 ≤ price) (seconds : Nat) : 0 ≤ exactUsd price seconds := by
  unfold exactUsd
  positivity

lemma creditsToUsd_le_iff {a b : Int} : creditsToUsd a ≤ creditsToUsd b ↔ a ≤ b := by
  unfold creditsToUsd usdPerCredit
  rw [mul_le_mul_iff_left₀ (by norm_num), Int.cast_le]

section Settle

variable {seconds : Nat} (hprice : 0 ≤ price)
  (hrange : exactUsd price seconds ≤ creditsToUsd i32Max)

include hrange in
/-- Below the range of the credits, the charge covers what is owed in micro-dollars. -/
lemma owedUsd_le_charge :
    owedUsd price seconds ≤ creditsToUsd (settleCredits price seconds) := by
  have hmax : owedUsd price seconds ≤ creditsToUsd i32Max :=
    (owedUsd_le_iff i32Max).mpr (hrange.trans (by norm_num))
  have hceil : ⌈owedUsd price seconds / usdPerCredit⌉ ≤ i32Max := by
    rw [Int.ceil_le, div_le_iff₀ (by norm_num [usdPerCredit])]
    exact hmax
  exact le_creditsToUsd_creditsCeil hceil

include hprice in
/-- The charge is less than one credit above the exact amount. -/
lemma charge_lt : creditsToUsd (settleCredits price seconds) < exactUsd price seconds + 1 / 100 := by
  have hexact := exactUsd_nonneg hprice seconds
  rcases (settleCredits_nonneg price seconds).eq_or_lt with hzero | hpos
  · rw [← hzero]
    norm_num [creditsToUsd]
    linarith
  · -- one credit less would not have covered the amount
    have hless : ¬ owedUsd price seconds ≤ creditsToUsd (settleCredits price seconds - 1) := by
      intro h
      have := creditsCeil_le_of_le (by omega) h
      unfold settleCredits at this
      omega
    rw [owedUsd_le_iff, not_le] at hless
    have hcredit : creditsToUsd (settleCredits price seconds - 1) =
        creditsToUsd (settleCredits price seconds) - 1 / 100 := by
      unfold creditsToUsd usdPerCredit
      push_cast
      ring
    have hmicro : (0 : ℚ) < 1 / (2 * 10 ^ moneyDp) := by positivity
    linarith

include hprice hrange in
/-- The charge covers the exact amount unless that lies just above a whole credit. -/
lemma exactUsd_le_charge_iff :
    exactUsd price seconds ≤ creditsToUsd (settleCredits price seconds) ↔
      ¬ JustAboveCredit (exactUsd price seconds) := by
  constructor
  · rintro hcovered ⟨c, hbelow, habove⟩
    have hexact := exactUsd_nonneg hprice seconds
    have hc : 0 ≤ c := by
      by_contra hneg
      have hle : creditsToUsd c ≤ creditsToUsd (-1) := creditsToUsd_le_iff.mpr (by omega)
      norm_num [creditsToUsd, usdPerCredit, moneyDp] at hle habove
      linarith
    have hcharge : settleCredits price seconds ≤ c :=
      creditsCeil_le_of_le hc ((owedUsd_le_iff c).mpr habove)
    linarith [creditsToUsd_le_iff.mpr hcharge]
  · intro hclear
    by_contra hshort
    exact hclear ⟨_, not_le.mp hshort, (owedUsd_le_iff _).mp (owedUsd_le_charge hrange)⟩

end Settle

/-- **When a settlement undercharges.**  A charge lies less than one credit above the exact price of
the call.  It reaches that price, and keeps the margin floor with it, exactly when the price does
not lie above a whole number of credits by half a micro-dollar or less. -/
theorem charge_covers_iff {policy : MarginPolicy} {cost price : Usd} {seconds : Nat}
    (hprice : policy.pricePerMinute cost = some price)
    (hrange : price * seconds / 60 ≤ creditsToUsd i32Max) :
    (price * seconds / 60 ≤ creditsToUsd (settleCredits price seconds) ∧
      creditsToUsd (settleCredits price seconds) < price * seconds / 60 + 1 / 100 ∧
      (0 < seconds → 0 < cost →
        policy.minGrossMargin ≤ (creditsToUsd (settleCredits price seconds) - cost * seconds / 60) /
          creditsToUsd (settleCredits price seconds))) ↔
      ¬ JustAboveCredit (price * seconds / 60) := by
  have hpos := (MarginPolicy.pricePerMinute_spec hprice).1
  have hcovers := exactUsd_le_charge_iff hpos hrange
  refine ⟨fun h => hcovers.mp h.1, fun h => ?_⟩
  have hcovered := hcovers.mpr h
  refine ⟨hcovered, charge_lt hpos, fun hseconds hcost => ?_⟩
  have hfloor := MarginPolicy.cost_le hprice
  have hmargin := policy.one_sub_margin_pos
  have hs : (0 : ℚ) < seconds := by exact_mod_cast hseconds
  have hpaid : 0 < price := by
    by_contra hfree
    exact absurd (hfloor.trans (mul_nonpos_of_nonpos_of_nonneg (not_lt.mp hfree) hmargin.le))
      (not_le.mpr hcost)
  have hexact : 0 < exactUsd price seconds := by
    unfold exactUsd
    positivity
  rw [le_div_iff₀ (hexact.trans_le hcovered)]
  -- the cost of the call is at most its price less the margin
  have hcall : cost * seconds / 60 ≤ exactUsd price seconds * (1 - policy.minGrossMargin) := by
    have := mul_le_mul_of_nonneg_right hfloor hs.le
    unfold exactUsd
    linarith
  have hkept := mul_le_mul_of_nonneg_right hcovered hmargin.le
  linarith

lemma noMargin_nonneg : (0 : ℚ) ≤ 0 := le_refl 0

lemma noMargin_lt_one : (0 : ℚ) < 1 := by norm_num

/-- No margin and no buffer. -/
def atCost : MarginPolicy where
  minGrossMargin := 0
  safetyBuffer := 0
  margin_nonneg := noMargin_nonneg
  margin_lt_one := noMargin_lt_one
  buffer_nonneg := noMargin_nonneg

/-- A minute at five cents is charged at five cents, which is no more than a whole number of
credits. -/
theorem minute_covered : ¬ JustAboveCredit (1 / 20 * (60 : Nat) / 60) := by
  have hprice : atCost.pricePerMinute (1 / 20) = some (1 / 20) := by decide +kernel
  exact (charge_covers_iff hprice (by norm_num [creditsToUsd, usdPerCredit, i32Max])).mp
    (by decide +kernel)

/-- A second at 0.60001 dollars a minute owes 0.0100001666… dollars and is charged one credit. -/
theorem second_undercharged :
    atCost.pricePerMinute (60001 / 100000) = some (60001 / 100000) ∧
      creditsToUsd (settleCredits (60001 / 100000) 1) < 60001 / 100000 * (1 : Nat) / 60 := by
  decide +kernel

end VoxTranslate.Voip
