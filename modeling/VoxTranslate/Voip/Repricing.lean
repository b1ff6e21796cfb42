import VoxTranslate.Lib.Run
import VoxTranslate.Voip.Costs
import VoxTranslate.Voip.RateDeck

/-!
# A call that falls back to another engine

A call is held for at the price it was quoted at.  When the engine it asked for cannot serve it,
the call is priced once more for the engine that does, and the new price replaces the quoted one
only where it is not higher.  The price is read, compared, and written in a second statement that
compares again; every other statement on the row may come between.
-/

namespace VoxTranslate.Voip

open Lib

/-! ## The two pricing paths -/

/-- A float of the configuration as a price: none where it converts to no decimal. -/
def usdFromConfig (v : Option ℚ) : Usd := roundDp (v.getD 0) moneyDp

/-- The prices and the guard of the deployment. -/
structure VoipConfig where
  provider : String
  rateMaxAgeSecs : Int
  minGrossMargin : Option ℚ
  costSafetyBuffer : Option ℚ
  mediaStreamingCostPerMinute : Option ℚ
  recordingCostPerMinute : Option ℚ
  storageCostPerMinute : Option ℚ

/-- What pricing reads of an engine. -/
structure EngineCost where
  id : String
  costPerMinute : Option ℚ

/-- The guard refuses a margin outside `[0, 1)` and a negative buffer. -/
def MarginPolicy.new (minGrossMargin safetyBuffer : ℚ) : Option MarginPolicy :=
  if h : (0 ≤ minGrossMargin ∧ minGrossMargin < 1) ∧ 0 ≤ safetyBuffer then
    some ⟨minGrossMargin, safetyBuffer, h.1.1, h.1.2, h.2⟩
  else none

namespace VoipConfig

/-- The guard of both pricing paths. -/
def margin (cfg : VoipConfig) : Option MarginPolicy :=
  MarginPolicy.new (usdFromConfig cfg.minGrossMargin) (usdFromConfig cfg.costSafetyBuffer)

/-- The full per-minute cost of one call.  Both directions are translated all along. -/
def providerCost (cfg : VoipConfig) (rate : Rate) (engine : EngineCost) (recording : Bool) :
    ProviderCost where
  telephony := rate.costPerMinute
  translation := usdFromConfig engine.costPerMinute * 2
  mediaStreaming := usdFromConfig cfg.mediaStreamingCostPerMinute
  recording := if recording then usdFromConfig cfg.recordingCostPerMinute else 0
  storage := if recording then usdFromConfig cfg.storageCostPerMinute else 0
  ancillary := 0

end VoipConfig

/-- A row of `voip_calls` with the columns of a fallback. -/
structure PricedCall extends CallRow where
  engineId : String
  recipientE164 : String

/-- The `INSERT` of a dial, of which the quote gives the price. -/
def PricedCall.insert (q : Quote) (row : PricedCall) : Option PricedCall :=
  (numeric 12 6 q.pricePerMinute).map fun price =>
    { row with
      status := .created
      quotedPricePerMin := some price }

/-- A repricing between its read and its write. -/
structure PendingReprice where
  requestedEngineId : String
  fallbackEngineId : String
  newPrice : Usd

/-- What a repricing meets: the table of rates and the clock. -/
structure FallbackRequest where
  cfg : VoipConfig
  rates : List RateRow
  now : Timestamp
  requestedEngineId : String
  fallbackEngine : EngineCost

section Reprice

-- `E164::parse`
variable (parseE164 : String → Option E164)

/-- The first half of `reprice_after_fallback`: what it has to write, if anything. -/
def FallbackRequest.read (req : FallbackRequest) (row : PricedCall) : Option PendingReprice := do
  let oldPrice := row.quotedPricePerMin.getD 0
  let dest ← parseE164 row.recipientE164
  let rate ← lookupRate req.rates req.cfg.provider dest req.now req.cfg.rateMaxAgeSecs
  let margin ← req.cfg.margin
  let recording := row.recordingStatus != .none
  let cost := req.cfg.providerCost rate req.fallbackEngine recording
  let newPrice ← margin.pricePerMinute cost.total
  if newPrice > oldPrice then none
  else some ⟨req.requestedEngineId, req.fallbackEngine.id, newPrice⟩

/-- The `WHERE` clause of the second half. -/
def PendingReprice.applies (r : PendingReprice) (row : PricedCall) : Bool :=
  row.engineId == r.requestedEngineId && row.status != .completed && row.status != .failed &&
    row.quotedPricePerMin.any fun price => decide (r.newPrice ≤ price)

/-- The second half: nothing is written where the clause fails or the column overflows. -/
def PendingReprice.write (r : PendingReprice) (row : PricedCall) : PricedCall :=
  if r.applies row then
    match numeric 12 6 r.newPrice with
    | none => row
    | some price =>
      { row with
        engineId := r.fallbackEngineId
        quotedPricePerMin := some price }
  else row

/-- A call, and the repricings between their read and their write. -/
structure PricedCalls where
  row : PricedCall
  pending : List PendingReprice

/-- What happens to a call. -/
inductive PriceAction where
  /-- A repricing reads the call and computes its price. -/
  | read (req : FallbackRequest)
  /-- A repricing that has read the call comes to its write. -/
  | write (i : Nat)
  /-- Any other statement writes other columns. -/
  | other (row : PricedCall)

namespace PricedCalls

def step (s : PricedCalls) : PriceAction → Option PricedCalls
  | .read req => some { s with pending := s.pending ++ (req.read parseE164 s.row).toList }
  | .write i => (s.pending[i]?).map fun r =>
      { s with
        row := r.write s.row
        pending := s.pending.eraseIdx i }
  | .other row =>
    if row.quotedPricePerMin = s.row.quotedPricePerMin then some { s with row } else none

end PricedCalls

end Reprice

/-! ## The hold -/

lemma settleCredits_mono_price {p q : Usd} (h : p ≤ q) (seconds : Nat) :
    settleCredits p seconds ≤ settleCredits q seconds := by
  refine creditsCeil_mono (roundDp_mono ?_ moneyDp)
  gcongr

/-- A price in micro-dollars is stored as it is. -/
lemma numeric_micros {n : Int} {v : ℚ} (h : numeric 12 6 (n / 10 ^ moneyDp) = some v) :
    v = n / 10 ^ moneyDp := by
  have hscale : (n : ℚ) / 10 ^ moneyDp * 10 ^ 6 = n := div_mul_cancel₀ _ (by norm_num)
  have hfloor : ⌊(n : ℚ) + 1 / 2⌋ = n := by
    rw [Int.floor_intCast_add]
    norm_num
  have hceil : ⌈(n : ℚ) - 1 / 2⌉ = n := by
    rw [Int.ceil_eq_iff]
    constructor <;> linarith
  unfold numeric at h
  rw [hscale, hfloor, hceil, ite_self] at h
  dsimp only at h
  split_ifs at h
  cases h
  rfl

/-- A call that lasts no longer than its estimate settles within its hold. -/
lemma settleCredits_le_reserve {policy : MarginPolicy} {cost : ProviderCost} {m : Int} {q : Quote}
    (hquote : quote policy cost m = some q) {s : Nat} (hs : (s : Int) ≤ 60 * max m 1) :
    settleCredits q.pricePerMinute s ≤ q.reserveCredits := by
  have hmax : quote policy cost (max m 1) = some q := by
    unfold quote at hquote ⊢
    rw [max_assoc, max_self]
    exact hquote
  have hhold := settleCredits_le_hold (le_max_right m 1) hmax (s := 0) (t := s) (by simpa using hs)
  simpa using hhold

/-- The row has a price, and it is no higher than `p`. -/
def PricedCall.PricedAtMost (p : Usd) (row : PricedCall) : Prop :=
  ∃ price, row.quotedPricePerMin = some price ∧ price ≤ p

namespace PricedCalls

/-- A repricing writes only prices that its guard accepts. -/
def Sound (s : PricedCalls) : Prop := ∀ r ∈ s.pending, ∃ n : Int, r.newPrice = n / 10 ^ moneyDp

variable {parseE164 : String → Option E164} {s t : PricedCalls} {p : Usd}

lemma micros_of_read {req : FallbackRequest} {row : PricedCall} {r : PendingReprice}
    (h : req.read parseE164 row = some r) : ∃ n : Int, r.newPrice = n / 10 ^ moneyDp := by
  unfold FallbackRequest.read at h
  simp only [Option.bind_eq_bind, Option.bind_eq_some_iff] at h
  obtain ⟨dest, -, rate, -, margin, -, price, hprice, h⟩ := h
  split_ifs at h
  cases h
  exact (MarginPolicy.pricePerMinute_spec hprice).2

/-- **A repricing never raises the price**, whatever it read before. -/
lemma pricedAtMost_write {r : PendingReprice} {row : PricedCall}
    (hmicros : ∃ n : Int, r.newPrice = n / 10 ^ moneyDp) (h : row.PricedAtMost p) :
    (r.write row).PricedAtMost p := by
  unfold PendingReprice.write
  split_ifs with happlies
  · split
    · exact h
    next stored hstored =>
      obtain ⟨n, hn⟩ := hmicros
      rw [hn] at hstored
      obtain ⟨price, hprice, hle⟩ := h
      refine ⟨stored, rfl, ?_⟩
      have hguard : r.newPrice ≤ price := by
        simp only [PendingReprice.applies, hprice, Option.any_some, Bool.and_eq_true,
          decide_eq_true_eq] at happlies
        exact happlies.2
      rw [numeric_micros hstored, ← hn]
      exact hguard.trans hle
  · exact h

/-- **One step keeps the price below the quoted one.** -/
lemma pricedAtMost_step {a : PriceAction} (hsound : s.Sound) (h : s.row.PricedAtMost p)
    (hstep : step parseE164 s a = some t) : t.Sound ∧ t.row.PricedAtMost p := by
  cases a with
  | read req =>
    cases hstep
    refine ⟨fun r hr => ?_, h⟩
    rcases List.mem_append.mp hr with hr | hr
    · exact hsound r hr
    · exact micros_of_read (Option.mem_toList.mp hr)
  | write i =>
    obtain ⟨r, hr, rfl⟩ := Option.map_eq_some_iff.mp hstep
    have hmem := List.mem_of_getElem? hr
    exact ⟨fun r' hr' => hsound r' (List.mem_of_mem_eraseIdx hr'),
      pricedAtMost_write (hsound r hmem) h⟩
  | other row =>
    rw [step] at hstep
    split_ifs at hstep with hsame
    cases hstep
    refine ⟨hsound, ?_⟩
    unfold PricedCall.PricedAtMost
    rw [hsame]
    exact h

/-- **The hold covers the call.**  A call that lasts no longer than its estimate settles within its
hold at the quoted price.  And in every run from the dial on, whatever repricings there are and
however their reads and writes fall between the other statements: the call has a price no higher
than the quoted one, and if it is settled then, that is within the hold too. -/
theorem hold_covers_call {policy : MarginPolicy} {cost : ProviderCost} {m : Int} {q : Quote}
    (hquote : quote policy cost m = some q) :
    (∀ s : Nat, (s : Int) ≤ 60 * max m 1 →
      settleCredits q.pricePerMinute s ≤ q.reserveCredits) ∧
    ∀ (dialed row : PricedCall) (acts : List PriceAction) (t : PricedCalls),
      PricedCall.insert q dialed = some row →
      Lib.Run (ofPartial (step parseE164)) ⟨row, []⟩ acts t →
      t.row.PricedAtMost q.pricePerMinute ∧
        ∀ (finalState : CallState) (seconds : Int), seconds ≤ 60 * max m 1 →
          chargeFor finalState t.row.quotedPricePerMin seconds ≤ q.reserveCredits := by
  refine ⟨fun s hs => settleCredits_le_reserve hquote hs, ?_⟩
  intro dialed row acts t hinsert hrun
  have hmicros : ∃ n : Int, q.pricePerMinute = n / 10 ^ moneyDp := by
    obtain ⟨price, hprice, rfl⟩ := Option.map_eq_some_iff.mp hquote
    exact (MarginPolicy.pricePerMinute_spec hprice).2
  have hfirst : row.PricedAtMost q.pricePerMinute := by
    obtain ⟨stored, hstored, rfl⟩ := Option.map_eq_some_iff.mp hinsert
    obtain ⟨n, hn⟩ := hmicros
    rw [hn] at hstored
    exact ⟨stored, rfl, by rw [numeric_micros hstored, hn]⟩
  obtain ⟨-, hpriced⟩ := hrun.invariant
    (fun s => s.Sound ∧ s.row.PricedAtMost q.pricePerMinute)
    (fun _ _ _ _ hs hstep => pricedAtMost_step hs.1 hs.2 hstep)
    ⟨fun r hr => absurd hr List.not_mem_nil, hfirst⟩
  refine ⟨hpriced, fun finalState seconds hseconds => ?_⟩
  obtain ⟨price, hprice, hle⟩ := hpriced
  have hreserve := settleCredits_le_reserve hquote
    (s := (max seconds 0).toNat) (by omega)
  rw [hprice, chargeFor]
  split_ifs
  · exact (settleCredits_mono_price hle _).trans hreserve
  · exact (settleCredits_nonneg _ 0).trans (settleCredits_le_reserve hquote (s := 0) (by omega))

/-! ## A fallback to a cheaper engine -/

def chinaConfig : VoipConfig where
  provider := "mock"
  rateMaxAgeSecs := 3600
  minGrossMargin := some (1 / 10)
  costSafetyBuffer := some (1 / 20)
  mediaStreamingCostPerMinute := some 0
  recordingCostPerMinute := some 0
  storageCostPerMinute := some 0

/-- A minute at six cents for the engine, beside the telephony. -/
def chinaCost : ProviderCost :=
  chinaConfig.providerCost chinaRates[0] ⟨"premium", some (3 / 100)⟩ false

def chinaQuote : Quote := (quote CostedCall.tenthMargin chinaCost 10).get (by decide +kernel)

def chinaCall : PricedCall where
  toCallRow := VoipDb.dialedCall
  engineId := "premium"
  recipientE164 := "+8613800138000"

def chinaRow : PricedCall := (PricedCall.insert chinaQuote chinaCall).get (by decide +kernel)

/-- The engine that serves the call instead costs two cents a minute. -/
def chinaFallback : FallbackRequest where
  cfg := chinaConfig
  rates := [{ chinaRates[0] with provider := "mock" }]
  now := 100
  requestedEngineId := "premium"
  fallbackEngine := ⟨"standard", some (1 / 100)⟩

/-- The law on a call that is repriced twice at once: it ends at the lower price, within its
hold. -/
theorem hold_covers_fallback :
    ∃ t : PricedCalls,
      [PriceAction.read chinaFallback, .read chinaFallback, .write 0, .write 0].foldlM
        (step fun _ => some chinaNumber) ⟨chinaRow, []⟩ = some t ∧
      t.row.quotedPricePerMin = some (7 / 200) ∧ t.row.PricedAtMost chinaQuote.pricePerMinute := by
  obtain ⟨t, hrun, hprice⟩ : ∃ t : PricedCalls,
      Lib.Run (ofPartial (step fun _ => some chinaNumber)) ⟨chinaRow, []⟩
        [PriceAction.read chinaFallback, .read chinaFallback, .write 0, .write 0] t ∧
      t.row.quotedPricePerMin = some (7 / 200) := Run.exists_of_decide (by decide +kernel)
  have hquote : quote CostedCall.tenthMargin chinaCost 10 = some chinaQuote := (Option.some_get _).symm
  have hinsert : PricedCall.insert chinaQuote chinaCall = some chinaRow := (Option.some_get _).symm
  obtain ⟨-, hcovers⟩ := @hold_covers_call (fun _ => some chinaNumber) _ _ _ _ hquote
  exact ⟨t, Run.ofPartial_iff.mp hrun, hprice,
    (hcovers chinaCall chinaRow _ t hinsert hrun).1⟩

end PricedCalls

end VoxTranslate.Voip
