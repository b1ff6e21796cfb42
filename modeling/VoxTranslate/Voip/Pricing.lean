import VoxTranslate.Lib.Arith

/-!
# What a completed call owes

Money is exact: a price per minute is a rational with at most six decimals, the elapsed
seconds are multiplied in before the division by 60, and the result is rounded to the
working precision with ties to even.  Credits are whole cents, rounded up.
-/

namespace VoxTranslate.Voip

open Lib

/-- US dollars. -/
abbrev Usd := ℚ

/-- One org credit is one US cent. -/
def usdPerCredit : Usd := 1 / 100

/-- Working precision for money. -/
def moneyDp : Nat := 6

/-- US dollars to whole credits, rounded up and capped at the largest `i32`. -/
def creditsCeil (usd : Usd) : Int :=
  if usd ≤ 0 then 0
  else if ⌈usd / usdPerCredit⌉ ≤ i32Max then ⌈usd / usdPerCredit⌉ else i32Max

/-- Whole credits to US dollars. -/
def creditsToUsd (credits : Int) : Usd := credits * usdPerCredit

/-- What a connected call of `seconds` owes before rounding to credits. -/
def owedUsd (pricePerMinute : Usd) (seconds : Nat) : Usd :=
  roundDp (pricePerMinute * seconds / 60) moneyDp

/-- Credits due for a completed call of `seconds`. -/
def settleCredits (pricePerMinute : Usd) (seconds : Nat) : Int :=
  creditsCeil (owedUsd pricePerMinute seconds)

lemma creditsCeil_nonneg (usd : Usd) : 0 ≤ creditsCeil usd := by
  unfold creditsCeil
  split_ifs with h₀ h₁
  · exact le_refl 0
  · have hpos : 0 ≤ usd / usdPerCredit := by
      unfold usdPerCredit
      linarith
    exact Int.ceil_nonneg hpos
  · decide

lemma creditsCeil_le (usd : Usd) : creditsCeil usd ≤ i32Max := by
  unfold creditsCeil
  split_ifs with h₀ h₁
  · decide
  · exact h₁
  · exact le_refl _

/-- The rounding up never undercharges: below the cap, the credits cover the amount. -/
lemma le_creditsToUsd_creditsCeil {usd : Usd} (h : ⌈usd / usdPerCredit⌉ ≤ i32Max) :
    usd ≤ creditsToUsd (creditsCeil usd) := by
  unfold creditsToUsd creditsCeil
  split_ifs with h₀
  · simpa using h₀
  · have hceil : usd / usdPerCredit ≤ ⌈usd / usdPerCredit⌉ := Int.le_ceil _
    unfold usdPerCredit at hceil ⊢
    linarith

lemma settleCredits_nonneg (price : Usd) (seconds : Nat) : 0 ≤ settleCredits price seconds :=
  creditsCeil_nonneg _

lemma settleCredits_le (price : Usd) (seconds : Nat) : settleCredits price seconds ≤ i32Max :=
  creditsCeil_le _

@[simp] lemma settleCredits_zero_seconds (price : Usd) : settleCredits price 0 = 0 := by
  simp [settleCredits, owedUsd, creditsCeil]

@[simp] lemma settleCredits_zero_price (seconds : Nat) : settleCredits 0 seconds = 0 := by
  simp [settleCredits, owedUsd, creditsCeil]

/-! ## Quotes -/

/-- What a minute of the call costs us, item by item. -/
structure ProviderCost where
  telephony : Usd
  translation : Usd
  mediaStreaming : Usd
  recording : Usd
  storage : Usd
  ancillary : Usd

def ProviderCost.total (c : ProviderCost) : Usd :=
  roundDp (c.telephony + c.translation + c.mediaStreaming + c.recording + c.storage + c.ancillary)
    moneyDp

/-- The commercial guard, which exists only with a margin below one and a buffer that is not
negative. -/
structure MarginPolicy where
  minGrossMargin : ℚ
  safetyBuffer : ℚ
  margin_nonneg : 0 ≤ minGrossMargin
  margin_lt_one : minGrossMargin < 1
  buffer_nonneg : 0 ≤ safetyBuffer

/-- Round away from zero at `dp` places. -/
def roundUp (v : Usd) (dp : Nat) : Usd := roundDp ((⌈v * 10 ^ dp⌉ : ℚ) / 10 ^ dp) dp

/-- The price of a minute; a negative cost has none. -/
def MarginPolicy.pricePerMinute (p : MarginPolicy) (cost : Usd) : Option Usd :=
  if cost < 0 then none
  else some (roundUp (cost * (1 + p.safetyBuffer) / (1 - p.minGrossMargin)) moneyDp)

/-- A quote: the price of a minute and the credits to hold. -/
structure Quote where
  cost : ProviderCost
  pricePerMinute : Usd
  /-- The price of the estimated minutes, rounded up to whole credits. -/
  reserveCredits : Int
  estimatedMinutes : Int

/-- Price a call and size its hold. -/
def quote (policy : MarginPolicy) (cost : ProviderCost) (estimatedMinutes : Int) : Option Quote :=
  let minutes := max estimatedMinutes 1
  (policy.pricePerMinute cost.total).map fun price =>
    { cost
      pricePerMinute := price
      reserveCredits := max (creditsCeil (price * minutes)) 1
      estimatedMinutes := minutes }

/-! ## A settlement against its hold -/

lemma creditsCeil_mono {u v : Usd} (h : u ≤ v) : creditsCeil u ≤ creditsCeil v := by
  have hceil : ⌈u / usdPerCredit⌉ ≤ ⌈v / usdPerCredit⌉ := by
    have hscaled : u / usdPerCredit ≤ v / usdPerCredit := by
      unfold usdPerCredit
      linarith
    exact Int.ceil_mono hscaled
  by_cases hu : u ≤ 0
  · exact (by simp [creditsCeil, hu] : creditsCeil u = 0) ▸ creditsCeil_nonneg v
  · have hv : ¬ v ≤ 0 := fun hv => hu (h.trans hv)
    unfold creditsCeil
    rw [if_neg hu, if_neg hv]
    split_ifs <;> omega

lemma creditsCeil_le_of_le {u : Usd} {n : Int} (hn : 0 ≤ n) (h : u ≤ creditsToUsd n) :
    creditsCeil u ≤ n := by
  have hceil : ⌈u / usdPerCredit⌉ ≤ n := by
    refine Int.ceil_le.mpr ?_
    unfold creditsToUsd usdPerCredit at *
    linarith
  unfold creditsCeil
  split_ifs <;> omega

/-- Whole credits cover what they were rounded up from, unless they hit the cap. -/
lemma le_creditsCeil_or (u : Usd) : creditsCeil u = i32Max ∨ u ≤ creditsToUsd (creditsCeil u) := by
  by_cases h : ⌈u / usdPerCredit⌉ ≤ i32Max
  · exact .inr (le_creditsToUsd_creditsCeil h)
  · by_cases hu : u ≤ 0
    · exact .inr (by simp [creditsCeil, hu, creditsToUsd])
    · exact .inl (by simp [creditsCeil, hu, h])

/-- Credits for an amount in whole micro-dollars and another one cover their sum, rounded to
micro-dollars: a tie that the sum rounds up is on an odd amount, which is no whole credit. -/
lemma creditsCeil_add (n : Int) (u : Usd) :
    creditsCeil (roundDp (n / 10 ^ moneyDp + u) moneyDp) ≤
      creditsCeil (n / 10 ^ moneyDp) + creditsCeil (roundDp u moneyDp) := by
  have hn₀ := creditsCeil_nonneg (n / 10 ^ moneyDp)
  have hu₀ := creditsCeil_nonneg (roundDp u moneyDp)
  have hcap := creditsCeil_le (roundDp (n / 10 ^ moneyDp + u) moneyDp)
  rcases le_creditsCeil_or (n / 10 ^ moneyDp) with hn | hn
  · omega
  rcases le_creditsCeil_or (roundDp u moneyDp) with hu | hu
  · omega
  refine creditsCeil_le_of_le (by omega) ?_
  generalize creditsCeil (n / 10 ^ moneyDp) = a at *
  generalize creditsCeil (roundDp u moneyDp) = b at *
  -- everything in micro-dollars, of which a credit has ten thousand
  have hscale : (n / 10 ^ moneyDp + u) * 10 ^ moneyDp = n + u * 10 ^ moneyDp := by
    rw [add_mul, div_mul_cancel₀ _ (by norm_num [moneyDp])]
  unfold roundDp creditsToUsd usdPerCredit at *
  rw [hscale]
  generalize u * 10 ^ moneyDp = y at *
  have hna : n ≤ 10000 * a := by
    have : (n : ℚ) ≤ 10000 * a := by
      norm_num [moneyDp] at hn
      linarith
    exact_mod_cast this
  have hub : roundHalfEven y ≤ 10000 * b := by
    have : (roundHalfEven y : ℚ) ≤ 10000 * b := by
      norm_num [moneyDp] at hu
      linarith
    exact_mod_cast this
  have hsum : roundHalfEven (n + y) ≤ 10000 * (a + b) := by
    rcases roundHalfEven_int_add n y with heq | ⟨hodd, hle⟩ <;> omega
  have hcast : (roundHalfEven (n + y) : ℚ) ≤ 10000 * (a + b) := by
    exact_mod_cast hsum
  push_cast
  norm_num [moneyDp]
  linarith

lemma settleCredits_mono {price : Usd} (hprice : 0 ≤ price) {s t : Nat} (h : s ≤ t) :
    settleCredits price s ≤ settleCredits price t := by
  refine creditsCeil_mono (roundDp_mono ?_ moneyDp)
  have hcast : (s : ℚ) ≤ t := by exact_mod_cast h
  gcongr

/-- A price per minute is not negative, and has six decimals. -/
lemma MarginPolicy.pricePerMinute_spec {p : MarginPolicy} {cost price : Usd}
    (h : p.pricePerMinute cost = some price) :
    0 ≤ price ∧ ∃ n : Int, price = n / 10 ^ moneyDp := by
  unfold pricePerMinute at h
  split_ifs at h with hcost
  cases h
  refine ⟨?_, _, rfl⟩
  have hmargin := p.margin_lt_one
  have hbuffer := p.buffer_nonneg
  have hvalue : 0 ≤ cost * (1 + p.safetyBuffer) / (1 - p.minGrossMargin) :=
    div_nonneg (mul_nonneg (not_lt.mp hcost) (by linarith)) (by linarith)
  have hceil : (0 : Int) ≤ ⌈cost * (1 + p.safetyBuffer) / (1 - p.minGrossMargin) * 10 ^ moneyDp⌉ :=
    Int.ceil_nonneg (by positivity)
  have hten : (0 : ℚ) ≤ 10 ^ moneyDp := by positivity
  have hround := @roundDp_mono 0 _ (div_nonneg (Int.cast_nonneg hceil) hten) moneyDp
  rwa [roundDp_zero] at hround

/-- **The hold and the overtime.**  A call that outlasts the minutes it was held for by no more
than `s` seconds costs no more than the hold and a call of `s` seconds. -/
theorem settleCredits_le_hold {p : MarginPolicy} {cost : ProviderCost} {m : Int} {q : Quote}
    (hm : 1 ≤ m) (hquote : quote p cost m = some q) {s t : Nat} (ht : (t : Int) ≤ 60 * m + s) :
    settleCredits q.pricePerMinute t ≤ q.reserveCredits + settleCredits q.pricePerMinute s := by
  obtain ⟨price, hprice, rfl⟩ := Option.map_eq_some_iff.mp hquote
  obtain ⟨hpos, n, rfl⟩ := MarginPolicy.pricePerMinute_spec hprice
  have hlong := settleCredits_mono hpos (t := 60 * m.toNat + s) (by omega : t ≤ _)
  have hsplit : (n : ℚ) / 10 ^ moneyDp * (60 * m.toNat + s : Nat) / 60 =
      ((n * m.toNat : Int) : ℚ) / 10 ^ moneyDp + (n : ℚ) / 10 ^ moneyDp * s / 60 := by
    push_cast
    ring
  have hadd := creditsCeil_add (n * m.toNat) ((n : ℚ) / 10 ^ moneyDp * s / 60)
  rw [← hsplit] at hadd
  have hhold : ((n * m.toNat : Int) : ℚ) / 10 ^ moneyDp = n / 10 ^ moneyDp * (max m 1 : Int) := by
    have hmm : ((m.toNat : Int) : ℚ) = (max m 1 : Int) := by
      exact_mod_cast (by omega : (m.toNat : Int) = max m 1)
    rw [← hmm]
    push_cast
    ring
  rw [hhold] at hadd
  exact hlong.trans (hadd.trans (add_le_add (le_max_left _ 1) le_rfl))

end VoxTranslate.Voip
