import Mathlib.Data.List.Sort
import VoxTranslate.Voip.Columns
import VoxTranslate.Voip.Redelivery

/-!
# The overrun sweep and the hold

A call is held for at most the shorter of two limits, the organisation's and the
deployment's.  The sweep that ends calls past their limit reads the organisation's alone, and
reads the instant of the answer, which a media event that overtakes the answer leaves
unstamped.  `overrun_within_hold_iff` says exactly when the sweep keeps a call within its hold.
-/

namespace VoxTranslate.Voip

open Lib Business

/-! ## The two limits -/

/-- The maximum of an organisation: an absent row of settings reads as an hour. -/
def maxCallMinutes (stored : Option Int) : Int := stored.getD 60

/-- Clamp the reservation horizon to something the call can reach. -/
def holdMinutes (requested orgMax cfgMax : Int) : Int :=
  min (min (max requested 1) (max orgMax 1)) (max cfgMax 1)

/-- The shorter of the two limits, which no hold exceeds. -/
def shorterLimit (orgMax cfgMax : Int) : Int := min (max orgMax 1) (max cfgMax 1)

lemma holdMinutes_le (requested orgMax cfgMax : Int) :
    holdMinutes requested orgMax cfgMax ≤ shorterLimit orgMax cfgMax := by
  unfold holdMinutes shorterLimit
  omega

/-! ## The sweep -/

/-- `ORDER BY answered_at`. -/
def byAnswered (calls : List CallRow) : List CallRow :=
  calls.insertionSort fun a b => a.answeredAt.getD 0 ≤ b.answeredAt.getD 0

/-- The rows that a sweep takes at most. -/
def batchSize (limit : Int) : Nat := (max 1 (min limit 200)).toNat

/-- Past the dial, not over, and answered at a known instant. -/
def CallRow.isConnected (c : CallRow) : Bool :=
  (c.status = .answered || c.status = .bridged || c.status = .ending) && c.answeredAt.isSome

namespace VoipDb

/-- The calls that a sweep at `now` ends; `orgLimit` is the column of `voip_org_settings`. -/
def reapOverrunning (db : VoipDb) (orgLimit : Uuid → Option Int) (now : Timestamp) (limit : Int) :
    List CallRow :=
  ((byAnswered db.calls).filter fun c =>
    c.isOverrunning now (maxCallMinutes (orgLimit c.orgId))).take (batchSize limit)

/-- The sweep ends the call. -/
def Reaps (db : VoipDb) (orgLimit : Uuid → Option Int) (limit : Int) (now : Timestamp) (c : Uuid) :
    Prop :=
  ∃ r ∈ db.reapOverrunning orgLimit now limit, r.id = c

instance (db : VoipDb) (orgLimit : Uuid → Option Int) (limit : Int) (now : Timestamp) (c : Uuid) :
    Decidable (db.Reaps orgLimit limit now c) := inferInstanceAs (Decidable (∃ _ ∈ _, _))

/-- The call is among the connected calls that one sweep can take, in the order of their
answers. -/
def InBatch (db : VoipDb) (limit : Int) (c : Uuid) : Prop :=
  ∃ r ∈ ((byAnswered db.calls).filter CallRow.isConnected).take (batchSize limit), r.id = c

instance (db : VoipDb) (limit : Int) (c : Uuid) : Decidable (db.InBatch limit c) :=
  inferInstanceAs (Decidable (∃ _ ∈ _, _))

end VoipDb

/-! ## What the sweep selects -/

section Selection

variable {α : Type*} {p q : α → Bool} {l : List α} {a : α} {n : Nat}

/-- Dropping rows moves none of the others back. -/
lemma mem_take_filter (h : a ∈ l.take n) (ha : p a = true) : a ∈ (l.filter p).take n := by
  induction l generalizing n with
  | nil => simp at h
  | cons b l ih =>
    cases n with
    | zero => simp at h
    | succ n =>
      rw [List.take_succ_cons, List.mem_cons] at h
      by_cases hb : p b = true
      · rw [List.filter_cons_of_pos hb, List.take_succ_cons, List.mem_cons]
        exact h.imp_right ih
      · rw [List.filter_cons_of_neg hb]
        rcases h with rfl | h
        · exact absurd ha hb
        · exact List.take_subset_take_left _ (Nat.le_succ n) (ih h)

end Selection

lemma mem_byAnswered {calls : List CallRow} {r : CallRow} : r ∈ byAnswered calls ↔ r ∈ calls :=
  (List.perm_insertionSort _ calls).mem_iff

lemma CallRow.isConnected_of_isOverrunning {now : Timestamp} {m : Int} {c : CallRow}
    (h : c.isOverrunning now m = true) : c.isConnected = true := by
  unfold isOverrunning at h
  unfold isConnected
  rw [Bool.and_eq_true] at h ⊢
  refine ⟨h.1, ?_⟩
  cases hat : c.answeredAt with
  | none =>
    rw [hat] at h
    cases h.2
  | some a => rfl

lemma CallRow.answered_of_isConnected {c : CallRow} (h : c.isConnected = true) :
    ∃ a, c.answeredAt = some a := by
  unfold isConnected at h
  rw [Bool.and_eq_true] at h
  exact Option.isSome_iff_exists.mp h.2

/-- A connected call overruns once the time since its answer exceeds the limit. -/
lemma CallRow.isOverrunning_iff {now : Timestamp} {m : Int} {c : CallRow} {a : Timestamp}
    (hconn : c.isConnected = true) (hat : c.answeredAt = some a) :
    c.isOverrunning now m = true ↔ a < now - m * 60000000 := by
  unfold isConnected at hconn
  rw [Bool.and_eq_true] at hconn
  rw [isOverrunning, hconn.1, hat]
  simp

/-- Every connected call overruns in the end. -/
lemma exists_overrunning (calls : List CallRow) (m : CallRow → Int) (t : Timestamp) :
    ∃ now, t ≤ now ∧ ∀ r ∈ calls, r.isConnected = true → r.isOverrunning now (m r) = true := by
  induction calls with
  | nil => exact ⟨t, le_rfl, by simp⟩
  | cons r calls ih =>
    obtain ⟨now, hnow, hall⟩ := ih
    let last : Int := r.answeredAt.getD 0 + m r * 60000000 + 1
    refine ⟨max now last, hnow.trans (le_max_left _ _), fun r' hr' hconn => ?_⟩
    obtain ⟨a, ha⟩ := CallRow.answered_of_isConnected hconn
    rw [CallRow.isOverrunning_iff hconn ha]
    rcases List.mem_cons.mp hr' with rfl | hr'
    · have hlast : last ≤ max now last := le_max_right _ _
      have heq : last = a + m r' * 60000000 + 1 := by
        simp only [last, ha, Option.getD_some]
      linarith
    · have hpast := (CallRow.isOverrunning_iff hconn ha).mp (hall r' hr' hconn)
      have hlater : now ≤ max now last := le_max_left _ _
      linarith

namespace VoipDb

variable {db : VoipDb} {orgLimit : Uuid → Option Int} {limit : Int} {now : Timestamp} {c : Uuid}
  {row : CallRow} {a : Timestamp}

/-- A sweep ends a connected call that it can take once the call is past the organisation's
limit. -/
lemma reaps_of_inBatch (hids : Table.Unique CallRow.id db.calls) (hrow : db.fetchCall c = some row)
    (hconn : row.isConnected = true) (hat : row.answeredAt = some a) (hbatch : db.InBatch limit c)
    (hpast : a < now - maxCallMinutes (orgLimit row.orgId) * 60000000) :
    db.Reaps orgLimit limit now c := by
  obtain ⟨r, hr, hid⟩ := hbatch
  have hmem : r ∈ db.calls := mem_byAnswered.mp (List.mem_filter.mp (List.mem_of_mem_take hr)).1
  obtain rfl : r = row := by
    refine hids r hmem row (Table.mem_of_get hrow) ?_
    rw [hid, fetchCall_id hrow]
  refine ⟨r, ?_, hid⟩
  have hfilter : ((byAnswered db.calls).filter fun c =>
      c.isOverrunning now (maxCallMinutes (orgLimit c.orgId))) =
      ((byAnswered db.calls).filter CallRow.isConnected).filter fun c =>
        c.isOverrunning now (maxCallMinutes (orgLimit c.orgId)) := by
    rw [List.filter_filter]
    refine List.filter_congr fun r _ => ?_
    cases h : r.isOverrunning now (maxCallMinutes (orgLimit r.orgId)) with
    | false => rfl
    | true => rw [CallRow.isConnected_of_isOverrunning h, Bool.and_self]
  rw [reapOverrunning, hfilter]
  exact mem_take_filter hr ((CallRow.isOverrunning_iff hconn hat).mpr hpast)

/-- What a sweep ends is connected and past the organisation's limit. -/
lemma reaps_row (hids : Table.Unique CallRow.id db.calls) (hrow : db.fetchCall c = some row)
    (h : db.Reaps orgLimit limit now c) :
    row.isOverrunning now (maxCallMinutes (orgLimit row.orgId)) = true := by
  obtain ⟨r, hr, hid⟩ := h
  obtain ⟨hmem, hover⟩ := List.mem_filter.mp (List.mem_of_mem_take hr)
  obtain rfl : r = row := by
    refine hids r (mem_byAnswered.mp hmem) row (Table.mem_of_get hrow) ?_
    rw [hid, fetchCall_id hrow]
  exact hover

/-- A call that every sweep from some instant on ends is one that a sweep can take. -/
lemma inBatch_of_reaps {t : Timestamp} (h : ∀ now, t ≤ now → db.Reaps orgLimit limit now c) :
    db.InBatch limit c := by
  obtain ⟨now, hnow, hall⟩ := exists_overrunning db.calls
    (fun r => maxCallMinutes (orgLimit r.orgId)) t
  obtain ⟨r, hr, hid⟩ := h now hnow
  refine ⟨r, ?_, hid⟩
  -- so late, the connected calls are the overrunning ones
  have hfilter : (byAnswered db.calls).filter (fun c =>
      c.isOverrunning now (maxCallMinutes (orgLimit c.orgId))) =
      (byAnswered db.calls).filter CallRow.isConnected := by
    refine List.filter_congr fun r hr => ?_
    cases hconn : r.isConnected with
    | true => exact hall r (mem_byAnswered.mp hr) hconn
    | false =>
      by_contra hne
      rw [Bool.not_eq_false] at hne
      rw [CallRow.isConnected_of_isOverrunning hne] at hconn
      cases hconn
  rwa [reapOverrunning, hfilter] at hr

/-! ## The call and its hold -/

/-- A call held for the shorter limit and ended by a sweep settles no more than its hold and one
interval between sweeps: the sweep of `before` left the call, that of `now` hung it up. -/
def SettlesWithinHold (db : VoipDb) (orgLimit : Uuid → Option Int) (cfgMax limit : Int) (c : Uuid)
    (row : CallRow) : Prop :=
  ∀ (policy : MarginPolicy) (cost : ProviderCost) (requested : Int) (q : Quote) (interval : Nat)
    (before now : Timestamp) (hang : ProviderEvent) (cause : FailureReason),
    let orgMax := maxCallMinutes (orgLimit row.orgId)
    holdMinutes requested orgMax cfgMax = shorterLimit orgMax cfgMax →
    quote policy cost (holdMinutes requested orgMax cfgMax) = some q →
    row.quotedPricePerMin = some q.pricePerMinute →
    ¬ db.Reaps orgLimit limit before c → db.Reaps orgLimit limit now c →
    now ≤ before + interval * 1000000 →
    hang.kind = .hangup cause → hang.occurredAt = now →
    (db.updateCall c CallRow.overrun).resolves hang = some c → ¬ db.Seen hang →
    ∃ row', ((db.updateCall c CallRow.overrun).deliver hang).fetchCall c = some row' ∧
      row'.creditsConsumed ≤ q.reserveCredits + settleCredits q.pricePerMinute interval

lemma connected_of_stamped (h : row.line.Stamped a) :
    row.isConnected = true ∧ row.answeredAt = some a := by
  obtain ⟨hterm, hrank, hat⟩ := h
  have hat' : row.answeredAt = some a := hat
  refine ⟨?_, hat'⟩
  simp only [CallRow.line] at hterm hrank
  rw [CallRow.isConnected, hat']
  cases hs : row.status <;> simp_all [CallState.isTerminal, CallState.rank]

lemma stamped_overrun (h : row.line.Stamped a) : row.overrun.line.Stamped a := by
  obtain ⟨hterm, hrank, hat⟩ := h
  rw [CallRow.overrun]
  split_ifs
  · exact ⟨rfl, (by decide : CallState.answered.rank ≤ CallState.ending.rank), hat⟩
  · exact ⟨hterm, hrank, hat⟩

lemma overrun_quotedPricePerMin : row.overrun.quotedPricePerMin = row.quotedPricePerMin := by
  rw [CallRow.overrun]
  split_ifs <;> rfl

/-- The row of a call after deliveries. -/
lemma fetchCall_deliveries {ds : List ProviderEvent} (hrow : db.fetchCall c = some row) :
    ∃ row', (ds.foldl deliver db).fetchCall c = some row' ∧ SameCall row row' := by
  refine foldl_invariant (I := fun s : VoipDb => ∃ row', s.fetchCall c = some row' ∧
    SameCall row row') ?_ ⟨row, hrow, .refl row⟩
  rintro s e - ⟨row', hrow', hsame⟩
  obtain ⟨row'', hrow'', hsame'⟩ := fetchCall_deliver e hrow'
  exact ⟨row'', hrow'', hsame.trans hsame'⟩

/-- **Held, swept and settled**: a call stamped as answered and swept within the shorter limit. -/
lemma settlesWithinHold_of_stamped {cfgMax : Int} {row₀ : CallRow} (hwf : db.WellFormed)
    (hrow : db.fetchCall c = some row) (hstamped : row.line.Stamped a)
    (hsame : row.orgId = row₀.orgId) (hprice : row.quotedPricePerMin = row₀.quotedPricePerMin)
    (hpos : 1 ≤ maxCallMinutes (orgLimit row₀.orgId))
    (hshort : maxCallMinutes (orgLimit row₀.orgId) ≤ max cfgMax 1)
    (hbatch : db.InBatch limit c) : db.SettlesWithinHold orgLimit cfgMax limit c row₀ := by
  intro policy cost requested q interval before now hang cause orgMax hheld hquote hquoted hleft
    hswept hnow hkind hat hres hnew
  obtain ⟨hconn, hanswered⟩ := connected_of_stamped hstamped
  have hmax : shorterLimit orgMax cfgMax = orgMax := by
    unfold shorterLimit
    omega
  rw [hheld, hmax] at hquote
  -- the sweep of `before` found the call within the limit
  have hbefore : before ≤ a + orgMax * 60000000 := by
    by_contra hlt
    refine hleft (reaps_of_inBatch hwf.callIds hrow hconn hanswered hbatch ?_)
    rw [hsame]
    linarith
  have hfetch : (db.updateCall c CallRow.overrun).fetchCall c = some row.overrun := by
    rw [fetchCall_updateCall_self CallRow.overrun_id, hrow, Option.map_some]
  have hline : (db.updateCall c CallRow.overrun).line c = some row.overrun.line := by
    rw [line, hfetch, Option.map_some]
  have hdelivered := line_first (hwf.updateCall CallRow.overrun_id) hres hnew
  obtain ⟨-, hcharge⟩ := Lifeline.stamped_hangup hkind (stamped_overrun hstamped)
  rw [hline, Option.map_some] at hdelivered
  obtain ⟨row', hrow', hline'⟩ := Option.map_eq_some_iff.mp hdelivered
  refine ⟨row', hrow', ?_⟩
  have hcredits : row'.creditsConsumed =
      settleCredits q.pricePerMinute (max (durationBetween a now) 0).toNat := by
    have hpaid := (congrArg Lifeline.creditsConsumed hline').trans hcharge
    rw [hat] at hpaid
    have hquoted' : row.overrun.line.pricePerMin = some q.pricePerMinute := by
      rw [CallRow.line, overrun_quotedPricePerMin, hprice, hquoted]
    rw [hquoted', chargeFor, if_pos rfl, Option.getD_some] at hpaid
    exact hpaid
  rw [hcredits]
  refine settleCredits_le_hold hpos hquote ?_
  have hnarrow : durationBetween a now ≤ max (numSeconds (now - a)) 0 :=
    asI32_le (le_max_right _ _)
  have hseconds : numSeconds (now - a) ≤ 60 * orgMax + interval :=
    numSeconds_le (by omega) (by linarith)
  omega

/-- **When the sweep keeps a call within its hold.**  However the webhooks of a connected call
were delivered: every sweep past the shorter of the two limits ends it, and settles no more than
its hold and one interval, exactly when the answer came before the media, the organisation's
limit is the shorter one, and the call is among those that one sweep can take. -/
theorem overrun_within_hold_iff {ds pre : List ProviderEvent} {cfgMax : Int} (hwf : db.WellFormed)
    (hrow : db.fetchCall c = some row) (hstatus : row.status.rank < CallState.answered.rank)
    (hanswered : row.answeredAt = none) (haddr : Addressed c db ds pre)
    (hids : ∀ e ∈ pre, ∀ e' ∈ pre, e.key = e'.key → e = e') (hfresh : ∀ e ∈ pre, ¬ db.Seen e)
    (hpre : ∀ e ∈ pre, isHangup e = false) (hans : ∃ e ∈ pre, e.kind = .answered)
    (hat : ∀ e ∈ pre, e.kind = .answered → e.occurredAt = a)
    (hlimit : ∀ m, orgLimit row.orgId = some m → 0 < m) :
    ((∀ now, a < now - shorterLimit (maxCallMinutes (orgLimit row.orgId)) cfgMax * 60000000 →
        (ds.foldl deliver db).Reaps orgLimit limit now c) ∧
      (ds.foldl deliver db).SettlesWithinHold orgLimit cfgMax limit c row) ↔
    AnswerFirst pre ∧ maxCallMinutes (orgLimit row.orgId) ≤ max cfgMax 1 ∧
      (ds.foldl deliver db).InBatch limit c := by
  have hseen : ∀ e ∈ pre, db.Seen e ↔ e ∈ ([] : List ProviderEvent) :=
    fun e he => iff_of_false (hfresh e he) (by simp)
  have hpos : 1 ≤ maxCallMinutes (orgLimit row.orgId) := by
    unfold maxCallMinutes
    cases h : orgLimit row.orgId with
    | none => decide
    | some m => exact hlimit m h
  have hwf' : (ds.foldl deliver db).WellFormed := wellFormed_deliveries hwf
  obtain ⟨row', hrow', hsame⟩ := @fetchCall_deliveries _ _ _ ds hrow
  have hline : row'.line = (firsts [] pre).foldl Lifeline.step row.line := by
    have h := line_deliveries hwf haddr hids hseen
    rw [line, line, hrow, hrow', Option.map_some, Option.map_some, Option.map_some] at h
    exact Option.some.inj h
  have hprice : row'.quotedPricePerMin = row.quotedPricePerMin := by
    have h := congrArg Lifeline.pricePerMin hline
    rwa [Lifeline.foldl_pricePerMin] at h
  have hquiet : row.line.Quiet := ⟨hstatus, hanswered⟩
  obtain ⟨hstamped, hskipped⟩ := Lifeline.phase_of_firsts hquiet hpre hans hat
  rw [← hline] at hstamped hskipped
  constructor
  · rintro ⟨hreaps, -⟩
    -- a sweep right after the shorter limit, and all later ones
    let now := a + shorterLimit (maxCallMinutes (orgLimit row.orgId)) cfgMax * 60000000 + 1
    have hover := reaps_row hwf'.callIds hrow' (hreaps now (by simp only [now]; linarith))
    have hfirst : AnswerFirst pre := by
      by_contra h
      obtain ⟨a', ha'⟩ := CallRow.answered_of_isConnected
        (CallRow.isConnected_of_isOverrunning hover)
      have hnone : row'.answeredAt = none := (hskipped h).2.2
      rw [hnone] at ha'
      cases ha'
    obtain ⟨hconn, hanswered'⟩ := connected_of_stamped (hstamped hfirst)
    refine ⟨hfirst, ?_, inBatch_of_reaps (t := now) fun t ht => hreaps t ?_⟩
    · have hpast := (CallRow.isOverrunning_iff hconn hanswered').mp hover
      rw [hsame.orgId] at hpast
      have hle : maxCallMinutes (orgLimit row.orgId) ≤
          shorterLimit (maxCallMinutes (orgLimit row.orgId)) cfgMax := by
        by_contra hlt
        have hlt' := Int.add_one_le_of_lt (not_le.mp hlt)
        simp only [now] at hpast
        linarith
      exact hle.trans (min_le_right _ _)
    · simp only [now] at ht
      linarith
  · rintro ⟨hfirst, hshort, hbatch⟩
    obtain ⟨hconn, hanswered'⟩ := connected_of_stamped (hstamped hfirst)
    refine ⟨fun now hnow => ?_, ?_⟩
    · refine reaps_of_inBatch hwf'.callIds hrow' hconn hanswered' hbatch ?_
      rw [hsame.orgId]
      have hmax : shorterLimit (maxCallMinutes (orgLimit row.orgId)) cfgMax =
          maxCallMinutes (orgLimit row.orgId) := by
        unfold shorterLimit
        omega
      rwa [hmax] at hnow
    · exact settlesWithinHold_of_stamped hwf' hrow' (hstamped hfirst) hsame.orgId hprice hpos
        hshort hbatch

/-- The law on a call whose organisation allows half an hour and whose deployment an hour. -/
theorem overrun_within_hold_sample :
    ([answerEvent, mediaEvent].foldl deliver dialedDb).Reaps (fun _ => some 30) 100
      (31 * 60000000) 7 := by
  have haddr : Addressed 7 dialedDb [answerEvent, mediaEvent] [answerEvent, mediaEvent] :=
    .mine (by decide +kernel) (.mine (by decide +kernel) (.nil _))
  have hrow : dialedDb.fetchCall 7 = some dialedCall := rfl
  have hat : ∀ e ∈ [answerEvent, mediaEvent], e.kind = .answered → e.occurredAt = 0 := by decide
  have hfresh : ∀ e ∈ [answerEvent, mediaEvent], ¬ dialedDb.Seen e := by simp [Seen, dialedDb]
  have hfirst : AnswerFirst [answerEvent, mediaEvent] := ⟨answerEvent, rfl, rfl⟩
  have hlimit : ∀ m, (fun _ : Uuid => some (30 : Int)) dialedCall.orgId = some m → 0 < m := by
    rintro m ⟨⟩
    decide
  have hbatch : ([answerEvent, mediaEvent].foldl deliver dialedDb).InBatch 100 7 := by
    decide +kernel
  have hshort : maxCallMinutes (some 30) ≤ max 60 1 := by decide
  exact ((overrun_within_hold_iff dialedDb_wellFormed hrow (by decide) rfl haddr (by decide) hfresh
    (by decide) ⟨answerEvent, by decide, rfl⟩ hat hlimit).mpr ⟨hfirst, hshort, hbatch⟩).1 _
    (by decide)

/-- A deployment that allows half an hour, beside an organisation without settings: the call is
held for half an hour, and the sweep leaves it at 31 minutes.  And a call whose media overtook
its answer is left after a day. -/
theorem overrun_outlives_hold :
    holdMinutes 60 (maxCallMinutes none) 30 = 30 ∧
    ¬ ([answerEvent, mediaEvent].foldl deliver dialedDb).Reaps (fun _ => none) 100
      (31 * 60000000) 7 ∧
    ¬ ([mediaEvent, answerEvent].foldl deliver dialedDb).Reaps (fun _ => none) 100
      (24 * 60 * 60000000) 7 := by
  decide +kernel

end VoipDb

end VoxTranslate.Voip
