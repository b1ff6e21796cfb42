import VoxTranslate.Voip.Inbound
import VoxTranslate.Voip.Settlement

/-!
# What an incoming call is charged

The settlement of a call takes its price from `quoted_price_per_min` and its hold from the
reservations.  Dialing fills both.  The admission of an incoming call fills neither, so its
settlement multiplies the seconds by no price and closes no hold: whatever the organisation's
policy quotes, the completed call is charged nothing.
-/

namespace VoxTranslate.Voip

open Lib Business

/-- Every hold belongs to a call: the foreign key of the reservations. -/
def VoipDb.HoldsHaveCall (db : VoipDb) : Prop :=
  ∀ r ∈ db.reservations, ∃ c ∈ db.calls, c.id = r.callId

namespace VoipDb

variable {db : VoipDb} {c orgId : Uuid} {e : ProviderEvent} {ds : List ProviderEvent}

/-- The credits of an organisation. -/
def credits (db : VoipDb) (orgId : Uuid) : Int := (db.balance orgId).getD 0

/-- What the deliveries to call `c` take from the organisation's credits. -/
def drawn (c orgId : Uuid) : VoipDb → List ProviderEvent → Int
  | _, [] => 0
  | db, e :: ds =>
    (if db.resolves e = some c then db.credits orgId - (db.deliver e).credits orgId else 0) +
      drawn c orgId (db.deliver e) ds

/-- Closing holds gives no call a hold it did not have. -/
lemma latest_close_none {db db' : Reservations} {callId sessionId : Uuid} {actual : Int}
    {finalState : HoldState} {s : Option Settlement}
    (h : db.close callId sessionId actual finalState = some (s, db')) (hnone : db.latest c = none) :
    db'.latest c = none := by
  rw [Reservations.close] at h
  cases hl : db.latest callId with
  | none =>
    rw [hl] at h
    cases h
    exact hnone
  | some res =>
    rw [hl] at h
    dsimp only at h
    split_ifs at h
    · cases h
      exact hnone
    · obtain ⟨pool, -, h⟩ := Option.bind_eq_some_iff.mp h
      obtain ⟨out, -, h⟩ := Option.bind_eq_some_iff.mp h
      cases h
      refine (Table.get_update_by (Reservation.closeWith_keepsCall _ _)).trans ?_
      exact Option.map_eq_none_iff.mpr hnone

/-- A call without a hold stays without one. -/
lemma deliver_latest_none (hnone : db.latest c = none) : (db.deliver e).latest c = none := by
  obtain hsame | ⟨callId, -, hsame | ⟨sessionId, actual, finalState, s, hclose⟩⟩ :=
    @deliver_closes db e
  · rw [hsame, hnone]
  · rw [hsame, hnone]
  · exact latest_close_none hclose hnone

/-- A delivery to a call without a hold moves no credits. -/
lemma deliver_pool (hres : db.resolves e = some c) (hnone : db.latest c = none) :
    (db.deliver e).toReservations = db.toReservations := by
  obtain hsame | ⟨callId, hres', hsame | ⟨sessionId, actual, finalState, s, hclose⟩⟩ :=
    @deliver_closes db e
  · exact hsame
  · exact hsame
  · cases hres.symm.trans hres'
    rw [Reservations.close_of_latest_none hnone] at hclose
    exact (congrArg Prod.snd (Option.some.inj hclose)).symm

/-- A call without a hold draws nothing, whatever is delivered. -/
theorem drawn_of_latest_none (hnone : db.latest c = none) : drawn c orgId db ds = 0 := by
  induction ds generalizing db with
  | nil => rfl
  | cons e ds ih =>
    rw [drawn, ih (deliver_latest_none hnone), add_zero]
    split_ifs with hres
    · rw [credits, credits, deliver_pool hres hnone, sub_self]
    · rfl

end VoipDb

variable {db db' : InboundDb} {env : InboundEnv} {r : InboundRequest} {adm : Admission}

namespace InboundDb.Admitted

/-- The call of an admission has no hold. -/
lemma latest_none (h : Admitted db env r adm db') (hfk : db.HoldsHaveCall) :
    db'.latest adm.callId = none := by
  rw [h.pool]
  refine Table.get_eq_none.mpr fun res hres heq => ?_
  obtain ⟨c, hc, hid⟩ := hfk res hres
  exact h.fresh c hc (hid.trans (heq.trans h.callId))

/-- An admission keeps the keys of the tables. -/
lemma wellFormed (h : Admitted db env r adm db') (hwf : db.WellFormed) : db'.WellFormed where
  holds := by
    rw [h.pool]
    exact hwf.holds
  callIds := h.callIds hwf.callIds

end InboundDb.Admitted

namespace InboundDb

variable {ds pre post : List ProviderEvent} {hang : ProviderEvent} {a : Timestamp}
  {cause : FailureReason}

/-- An admitted call that is answered and hung up completes and is charged nothing. -/
lemma completed_free (hadmitted : db.admitCall env r = .ok (adm, db')) (hwf : db.WellFormed)
    (hfk : db.HoldsHaveCall)
    (haddr : VoipDb.Addressed adm.callId db'.toVoipDb ds (pre ++ hang :: post))
    (hids : ∀ e ∈ pre ++ hang :: post, ∀ e' ∈ pre ++ hang :: post, e.key = e'.key → e = e')
    (hfresh : ∀ e ∈ pre ++ hang :: post, ¬ db.Seen e)
    (hpre : ∀ e ∈ pre, isHangup e = false) (hhang : hang.kind = .hangup cause)
    (hans : ∃ e ∈ pre, e.kind = .answered)
    (hat : ∀ e ∈ pre, e.kind = .answered → e.occurredAt = a) :
    (∃ row, (ds.foldl VoipDb.deliver db'.toVoipDb).fetchCall adm.callId = some row ∧
      row.status = .completed ∧ row.creditsConsumed = 0) ∧
    VoipDb.drawn adm.callId adm.number.orgId db'.toVoipDb ds = 0 := by
  have h := admitCall_spec hadmitted
  obtain ⟨language, deadline, hrow⟩ := h.call
  rw [← h.callId] at hrow
  have hquiet : (r.callRow adm.number.orgId language deadline).line.Quiet :=
    ⟨show CallState.ringing.rank < CallState.answered.rank by decide, rfl⟩
  have hfresh' : ∀ e ∈ pre ++ hang :: post, ¬ db'.Seen e := by
    intro e he
    rw [VoipDb.Seen, h.events]
    exact hfresh e he
  obtain ⟨row, hrow', hcompleted, hfirst, hovertaken⟩ := VoipDb.line_of_call (h.wellFormed hwf)
    hrow hquiet haddr hids hfresh' hpre hhang hans hat
  refine ⟨⟨row, hrow', hcompleted, ?_⟩, VoipDb.drawn_of_latest_none (h.latest_none hfk)⟩
  by_cases hlive : AnswerFirst pre
  · -- no price, so the seconds cost nothing
    rw [hfirst hlive]
    exact settleCredits_zero_price _
  · exact hovertaken hlive

/-- **When an incoming call is charged as its policy quotes it.**  However the webhooks of an
admitted call arrive, it is charged what an outbound call of its length is, and the
organisation pays it, exactly when such a call costs nothing. -/
theorem inbound_charged_iff (policy : MarginPolicy) (cost : ProviderCost) {price : Usd}
    (_hquote : policy.pricePerMinute cost.total = some price)
    (hadmitted : db.admitCall env r = .ok (adm, db')) (hwf : db.WellFormed)
    (hfk : db.HoldsHaveCall)
    (haddr : VoipDb.Addressed adm.callId db'.toVoipDb ds (pre ++ hang :: post))
    (hids : ∀ e ∈ pre ++ hang :: post, ∀ e' ∈ pre ++ hang :: post, e.key = e'.key → e = e')
    (hfresh : ∀ e ∈ pre ++ hang :: post, ¬ db.Seen e)
    (hpre : ∀ e ∈ pre, isHangup e = false) (hhang : hang.kind = .hangup cause)
    (hans : ∃ e ∈ pre, e.kind = .answered)
    (hat : ∀ e ∈ pre, e.kind = .answered → e.occurredAt = a) :
    ((∃ row, (ds.foldl VoipDb.deliver db'.toVoipDb).fetchCall adm.callId = some row ∧
        row.status = .completed ∧
        row.creditsConsumed =
          settleCredits price (numSeconds (hang.occurredAt - a)).toNat) ∧
      VoipDb.drawn adm.callId adm.number.orgId db'.toVoipDb ds =
        settleCredits price (numSeconds (hang.occurredAt - a)).toNat) ↔
    settleCredits price (numSeconds (hang.occurredAt - a)).toNat = 0 := by
  obtain ⟨⟨row, hrow, hcompleted, hfree⟩, hdrawn⟩ :=
    completed_free hadmitted hwf hfk haddr hids hfresh hpre hhang hans hat
  constructor
  · rintro ⟨-, hpaid⟩
    rw [← hpaid, hdrawn]
  · intro hzero
    rw [hzero]
    exact ⟨⟨row, hrow, hcompleted, hfree⟩, hdrawn⟩

/-- The office with the stranger on the line. -/
def ringingDb : InboundDb :=
  { officeDb with
    calls := [strangerCall.callRow 0 "en" (seconds 25)]
    inbound := [⟨7, 5, none, [3], false⟩] }

/-- What is decided about the call. -/
def strangerAdmission : Admission where
  callId := 7
  number := officeNumber
  isOpen := true
  ring := ⟨[3], 25, .voicemail, none, none⟩
  closedAction := .voicemail

lemma admit_stranger : officeDb.admitCall officeEnv strangerCall =
    .ok (strangerAdmission, ringingDb) := rfl

lemma officeDb_wellFormed : officeDb.WellFormed where
  holds := by simp [Reservations.HoldsHaveOrg, officeDb]
  callIds := by simp [officeDb, Table.Unique]

lemma officeDb_holdsHaveCall : officeDb.HoldsHaveCall := by
  simp [VoipDb.HoldsHaveCall, officeDb]

/-- A fifth of the price stays, and nothing is set aside. -/
def fifthMargin : MarginPolicy where
  minGrossMargin := 1 / 5
  safetyBuffer := 0
  margin_nonneg := by norm_num
  margin_lt_one := by norm_num
  buffer_nonneg := le_refl 0

/-- Forty-eight cents of telephony a minute. -/
def telephonyCost : ProviderCost := ⟨12 / 25, 0, 0, 0, 0, 0⟩

/-- The policy quotes sixty cents. -/
lemma fifthMargin_quote : fifthMargin.pricePerMinute telephonyCost.total = some (3 / 5) := by
  decide +kernel

/-- The stranger hangs up in the second of the answer. -/
def briefHangup : ProviderEvent := VoipDb.callEvent "h" 0 (.hangup .unmapped)

/-- The law on a call that costs nothing. -/
theorem brief_call_charged_as_quoted :
    (∃ row, ([VoipDb.answerEvent, briefHangup].foldl VoipDb.deliver
        ringingDb.toVoipDb).fetchCall 7 = some row ∧
      row.status = .completed ∧ row.creditsConsumed = settleCredits (3 / 5) 0) ∧
    VoipDb.drawn 7 0 ringingDb.toVoipDb [VoipDb.answerEvent, briefHangup] =
      settleCredits (3 / 5) 0 := by
  have haddr : VoipDb.Addressed strangerAdmission.callId ringingDb.toVoipDb
      [VoipDb.answerEvent, briefHangup] ([VoipDb.answerEvent] ++ briefHangup :: []) :=
    .mine (by decide +kernel) (.mine (by decide +kernel) (.nil _))
  have hat : ∀ e ∈ [VoipDb.answerEvent], e.kind = .answered → e.occurredAt = 0 := by decide
  have hseconds : (numSeconds (briefHangup.occurredAt - 0)).toNat = 0 := rfl
  have hlaw := inbound_charged_iff fifthMargin telephonyCost fifthMargin_quote admit_stranger
    officeDb_wellFormed officeDb_holdsHaveCall haddr (by decide)
    (by simp [VoipDb.Seen, officeDb]) (by decide) rfl
    ⟨VoipDb.answerEvent, List.mem_singleton_self _, rfl⟩ hat
  rw [hseconds] at hlaw
  exact hlaw.mpr (settleCredits_zero_seconds _)

/-- Two minutes at sixty cents: the incoming call completes, and nobody pays for it. -/
theorem inbound_call_is_free :
    officeDb.admitCall officeEnv strangerCall = .ok (strangerAdmission, ringingDb) ∧
    fifthMargin.pricePerMinute telephonyCost.total = some (3 / 5) ∧
    settleCredits (3 / 5) 120 = 120 ∧
    VoipDb.Addressed 7 ringingDb.toVoipDb [VoipDb.answerEvent, VoipDb.hangupEvent]
      [VoipDb.answerEvent, VoipDb.hangupEvent] ∧
    (([VoipDb.answerEvent, VoipDb.hangupEvent].foldl VoipDb.deliver
        ringingDb.toVoipDb).fetchCall 7).map
      (fun row => (row.status, row.creditsConsumed)) = some (.completed, 0) ∧
    VoipDb.drawn 7 0 ringingDb.toVoipDb [VoipDb.answerEvent, VoipDb.hangupEvent] = 0 :=
  ⟨rfl, fifthMargin_quote, by decide +kernel,
    .mine (by decide +kernel) (.mine (by decide +kernel) (.nil _)), by decide +kernel,
    by decide +kernel⟩

end InboundDb

end VoxTranslate.Voip
