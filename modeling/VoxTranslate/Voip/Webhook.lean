import VoxTranslate.Voip.Calls

/-!
# Webhook ingestion

One delivery is one transaction: resolve the call, pass the idempotency gate, move the
columns that carry information, move the lifecycle, and settle the hold if the call is over.
A transaction that fails on an SQL error is `none` and leaves nothing behind; the carrier
delivers again.

Instants are kept to the microsecond, as the database keeps them.  The correlation id of an
event is the call id it parses to, and absent when it is missing or does not parse.
-/

namespace VoxTranslate.Voip

open Lib Business

/-- What a provider webhook says, out of provider vocabulary. -/
inductive ProviderEventKind where
  | initiated
  /-- Somebody is calling us. -/
  | incoming (source dest : String)
  | ringing
  | answered
  | hangup (cause : FailureReason)
  | mediaStarted
  | mediaStopped
  | recordingStarted
  | recordingSaved (url : String) (recordingId : Option String) (durationSecs : Nat)
  | dtmf (digit : Char)
  | unhandled (rawType : String)
  | numberOrderCompleted (orderId : String) (subOrderIds : List String)
  deriving DecidableEq, Repr

/-- A verified provider webhook. -/
structure ProviderEvent where
  provider : String
  /-- The provider's unique id of this event. -/
  eventId : String
  legId : LegId
  /-- Our correlation id, echoed back. -/
  clientState : Option Uuid
  occurredAt : Timestamp
  kind : ProviderEventKind
  deriving DecidableEq, Repr

/-- The idempotency key. -/
def ProviderEvent.key (e : ProviderEvent) : String × String := (e.provider, e.eventId)

/-- What ingesting one webhook did. -/
inductive Ingest where
  /-- Recorded, and the call moved. -/
  | applied (callId : Uuid) (before after : CallState)
  /-- Recorded, but the lifecycle did not move. -/
  | recorded (callId : Uuid) (state : CallState)
  /-- The provider has sent this event before. -/
  | duplicate (callId : Option Uuid)
  /-- No call matches. -/
  | unknown
  deriving DecidableEq, Repr

/-- The lifecycle event of a webhook; information moves nothing. -/
def lifecycleEvent : ProviderEventKind → Option CallEvent
  | .initiated => some .dialed
  | .ringing => some .ringing
  | .answered => some .answered
  | .mediaStarted => some .mediaEstablished
  | .hangup cause => some (.hangup (some cause))
  | .mediaStopped | .recordingStarted | .recordingSaved _ _ _ | .dtmf _ | .unhandled _ => none
  | .incoming _ _ => none
  | .numberOrderCompleted _ _ => none

def hangupReason : ProviderEventKind → Option FailureReason
  | .hangup cause => some cause
  | _ => none

def eventTypeName : ProviderEventKind → String
  | .initiated => "initiated"
  | .ringing => "ringing"
  | .answered => "answered"
  | .hangup _ => "hangup"
  | .mediaStarted => "media_started"
  | .mediaStopped => "media_stopped"
  | .recordingStarted => "recording_started"
  | .recordingSaved _ _ _ => "recording_saved"
  | .dtmf _ => "dtmf"
  | .incoming _ _ => "incoming"
  | .unhandled rawType => "unhandled:" ++ rawType
  | .numberOrderCompleted _ _ => "number_order_completed"

namespace CallRow

/-- Record a leg against the call, once. -/
def addLeg (leg : LegId) (c : CallRow) : CallRow :=
  if c.providerLegIds.contains leg then c
  else { c with providerLegIds := c.providerLegIds ++ [leg] }

/-- The columns of an information-carrying event. -/
def noteEvent (event : ProviderEvent) (c : CallRow) : CallRow :=
  match event.kind with
  | .recordingStarted =>
    { c with
      recordingStatus := .recording
      recordingStartedAt := c.recordingStartedAt.or (some event.occurredAt) }
  | .recordingSaved url recordingId _ =>
    { c with
      recordingStatus := .saved
      providerRecordingUrl := if url = "" then none else some url
      providerRecordingId := recordingId.or c.providerRecordingId }
  | _ => c

end CallRow

/-- When the call counts as answered, as the transaction sees it: the stored instant, or
that of the event that makes it answered. -/
def answeredInstant (newState : CallState) (answeredAt : Option Timestamp)
    (occurredAt : Timestamp) : Option Timestamp :=
  if newState = .answered ∧ answeredAt = none then some occurredAt else answeredAt

/-- The duration of a call that ends at `ended`, as the code stores it. -/
def durationBetween (answered ended : Timestamp) : Int :=
  asI32 (max (numSeconds (ended - answered)) 0)

/-- The duration the transaction computes: known only for a call that was answered and is
over. -/
def durationOf (newState : CallState) (answeredAt : Option Timestamp)
    (occurredAt : Timestamp) : Option Int :=
  if newState.isTerminal then
    (answeredInstant newState answeredAt occurredAt).map fun a => durationBetween a occurredAt
  else none

/-- The lifecycle columns after the call moved to `newState`. -/
def CallRow.moveTo (newState : CallState) (event : ProviderEvent) (duration : Option Int)
    (c : CallRow) : CallRow :=
  { c with
    status := newState
    answeredAt := c.answeredAt.or (if newState = .answered then some event.occurredAt else none)
    endedAt := c.endedAt.or (if newState.isTerminal then some event.occurredAt else none)
    durationSeconds := c.durationSeconds.or duration
    failureReason := c.failureReason.or (hangupReason event.kind) }

/-- The credits of a call that is over: nothing unless it completed. -/
def chargeFor (finalState : CallState) (pricePerMin : Option Usd) (durationSecs : Int) : Int :=
  if finalState = .completed then
    settleCredits (pricePerMin.getD 0) (max durationSecs 0).toNat
  else 0

def CallRow.charge (credits : Int) (c : CallRow) : CallRow :=
  { c with creditsConsumed := credits, customerChargeUsd := some (creditsToUsd credits) }

namespace VoipDb

/-- Find the call of an event: our correlation id first, then the leg.  A call found by its
correlation id gets the leg recorded. -/
def resolveCall (db : VoipDb) (event : ProviderEvent) : Option CallRow × VoipDb :=
  match event.clientState.bind db.fetchCall with
  | some row => (some row, db.updateCall row.id (CallRow.addLeg event.legId))
  | none => (db.fetchCallByLeg event.legId, db)

/-- `INSERT ... ON CONFLICT (provider, provider_event_id) DO NOTHING`. -/
def insertEvent (db : VoipDb) (event : ProviderEvent) (callId : Uuid) : Option VoipDb :=
  if ∃ r ∈ db.events, r.key = event.key then none
  else
    let row : ProviderEventRow :=
      { provider := event.provider
        providerEventId := event.eventId
        callId
        legId := event.legId
        eventType := eventTypeName event.kind
        occurredAt := event.occurredAt
        stateBefore := none
        stateAfter := none }
    some { db with events := row :: db.events }

/-- Record what the event did. -/
def stampEvent (db : VoipDb) (event : ProviderEvent) (before after : CallState) : VoipDb :=
  { db with
    events := Table.update ProviderEventRow.key db.events event.key
      fun r => { r with stateBefore := some before, stateAfter := some after } }

/-- Close the hold in the transaction that ends the call. -/
def settle (db : VoipDb) (callId sessionId : Uuid) (finalState : CallState)
    (pricePerMin : Option Usd) (durationSecs : Int) : Option VoipDb :=
  let credits := chargeFor finalState pricePerMin durationSecs
  let db := db.updateCall callId (CallRow.charge credits)
  let closed :=
    if finalState = .completed then db.toReservations.settleTx callId sessionId credits
    else db.toReservations.releaseTx callId sessionId
  closed.map fun (_, pool) => { db with toReservations := pool }

/-- Move a call to `newState`, and settle it if that is the end. -/
def advanceCall (db : VoipDb) (call : CallRow) (newState : CallState) (event : ProviderEvent) :
    Option VoipDb :=
  let duration := durationOf newState call.answeredAt event.occurredAt
  let db := db.updateCall call.id (CallRow.moveTo newState event duration)
  if newState.isTerminal then
    db.settle call.id call.sessionId newState call.quotedPricePerMin (duration.getD 0)
  else some db

/-- Apply one verified webhook. -/
def apply (db : VoipDb) (event : ProviderEvent) : Option (Ingest × VoipDb) :=
  match db.resolveCall event with
  | (none, db) => some (.unknown, db)
  | (some call, db) =>
    match db.insertEvent event call.id with
    | none => some (.duplicate (some call.id), db)
    | some db =>
      let before := call.status
      let db := db.updateCall call.id (CallRow.noteEvent event)
      match (lifecycleEvent event.kind).bind (next before) with
      | some newState => do
        let db ← db.advanceCall call newState event
        return (.applied call.id before newState, db.stampEvent event before newState)
      | none => some (.recorded call.id before, db.stampEvent event before before)

/-- The state after one delivery, committed or rolled back. -/
def deliver (db : VoipDb) (event : ProviderEvent) : VoipDb :=
  match db.apply event with
  | some (_, db') => db'
  | none => db

end VoipDb

/-! ## What a delivery does to the call rows -/

/-- What the first delivery of an event does to the row of its call. -/
def CallRow.receive (event : ProviderEvent) (c : CallRow) : CallRow :=
  match (lifecycleEvent event.kind).bind (next c.status) with
  | none => c.noteEvent event
  | some newState =>
    let duration := durationOf newState c.answeredAt event.occurredAt
    let moved := (c.noteEvent event).moveTo newState event duration
    if newState.isTerminal then
      moved.charge (chargeFor newState c.quotedPricePerMin (duration.getD 0))
    else moved

lemma CallRow.addLeg_keepsId (leg : LegId) : Table.KeepsKey CallRow.id (CallRow.addLeg leg) := by
  intro c
  unfold CallRow.addLeg
  split_ifs <;> rfl

lemma CallRow.noteEvent_keepsId (event : ProviderEvent) :
    Table.KeepsKey CallRow.id (CallRow.noteEvent event) := by
  intro c
  unfold CallRow.noteEvent
  split <;> rfl

lemma CallRow.moveTo_keepsId (s : CallState) (event : ProviderEvent) (d : Option Int) :
    Table.KeepsKey CallRow.id (CallRow.moveTo s event d) := fun _ => rfl

lemma CallRow.charge_keepsId (credits : Int) :
    Table.KeepsKey CallRow.id (CallRow.charge credits) := fun _ => rfl

section Columns

variable (leg : LegId) (event : ProviderEvent) (c : CallRow)

@[simp] lemma CallRow.addLeg_status : (c.addLeg leg).status = c.status := by
  unfold addLeg
  split_ifs <;> rfl

@[simp] lemma CallRow.addLeg_answeredAt : (c.addLeg leg).answeredAt = c.answeredAt := by
  unfold addLeg
  split_ifs <;> rfl

@[simp] lemma CallRow.addLeg_quotedPricePerMin :
    (c.addLeg leg).quotedPricePerMin = c.quotedPricePerMin := by
  unfold addLeg
  split_ifs <;> rfl

@[simp] lemma CallRow.addLeg_creditsConsumed :
    (c.addLeg leg).creditsConsumed = c.creditsConsumed := by
  unfold addLeg
  split_ifs <;> rfl

@[simp] lemma CallRow.noteEvent_answeredAt : (c.noteEvent event).answeredAt = c.answeredAt := by
  unfold noteEvent
  split <;> rfl

@[simp] lemma CallRow.noteEvent_status : (c.noteEvent event).status = c.status := by
  unfold noteEvent
  split <;> rfl

@[simp] lemma CallRow.noteEvent_quotedPricePerMin :
    (c.noteEvent event).quotedPricePerMin = c.quotedPricePerMin := by
  unfold noteEvent
  split <;> rfl

@[simp] lemma CallRow.noteEvent_creditsConsumed :
    (c.noteEvent event).creditsConsumed = c.creditsConsumed := by
  unfold noteEvent
  split <;> rfl

end Columns

namespace VoipDb

variable {db db₁ : VoipDb} {event : ProviderEvent} {call : CallRow} {callId c : Uuid}

/-- The foreign keys and the primary key of `voip_calls`. -/
structure WellFormed (db : VoipDb) : Prop where
  holds : db.toReservations.HoldsHaveOrg
  callIds : Table.Unique CallRow.id db.calls

/-- The event is in the ledger. -/
def Seen (db : VoipDb) (event : ProviderEvent) : Prop := ∃ r ∈ db.events, r.key = event.key

/-- The call an event is resolved to. -/
def resolves (db : VoipDb) (event : ProviderEvent) : Option Uuid :=
  (db.resolveCall event).1.map CallRow.id

lemma WellFormed.updateCall (h : db.WellFormed) {f : CallRow → CallRow}
    (hf : Table.KeepsKey CallRow.id f) : (db.updateCall callId f).WellFormed where
  holds := h.holds
  callIds := h.callIds.update hf

/-- What resolving a call does: it changes nothing but the legs of the call found. -/
lemma resolveCall_some (hwf : db.WellFormed) (h : db.resolveCall event = (some call, db₁)) :
    db.fetchCall call.id = some call ∧ db₁.WellFormed ∧
      db₁.toReservations = db.toReservations ∧ db₁.events = db.events ∧
      (db₁.fetchCall call.id = some call ∨
        db₁.fetchCall call.id = some (call.addLeg event.legId)) ∧
      ∀ c, c ≠ call.id → db₁.fetchCall c = db.fetchCall c := by
  unfold resolveCall at h
  cases hs : event.clientState.bind db.fetchCall with
  | some row =>
    rw [hs] at h
    cases h
    obtain ⟨id, -, hid⟩ := Option.bind_eq_some_iff.mp hs
    have hcall : db.fetchCall call.id = some call := by rw [fetchCall_id hid, hid]
    have hkey := CallRow.addLeg_keepsId event.legId
    refine ⟨hcall, hwf.updateCall hkey, rfl, rfl, .inr ?_, fun c hc => ?_⟩
    · rw [fetchCall_updateCall_self hkey, hcall, Option.map_some]
    · exact fetchCall_updateCall_of_ne hkey hc
  | none =>
    rw [hs] at h
    obtain ⟨hleg, rfl⟩ := Prod.mk.inj h
    have hcall : db.fetchCall call.id = some call :=
      Table.get_of_mem hwf.callIds (List.mem_of_find?_eq_some hleg)
    exact ⟨hcall, hwf, rfl, rfl, .inl hcall, fun _ _ => rfl⟩

lemma resolveCall_none (h : db.resolveCall event = (none, db₁)) : db₁ = db := by
  unfold resolveCall at h
  cases hs : event.clientState.bind db.fetchCall with
  | some row =>
    rw [hs] at h
    cases h
  | none =>
    rw [hs] at h
    exact (Prod.mk.inj h).2.symm

lemma resolveCall_pool : (db.resolveCall event).2.toReservations = db.toReservations := by
  rw [resolveCall]
  split <;> rfl

lemma resolveCall_events : (db.resolveCall event).2.events = db.events := by
  rw [resolveCall]
  split <;> rfl

/-- Settling never fails, and writes the charge into the row of the call only. -/
lemma settle_spec (hwf : db.WellFormed) (sessionId : Uuid) (finalState : CallState)
    (price : Option Usd) (duration : Int) :
    ∃ db', db.settle callId sessionId finalState price duration = some db' ∧ db'.WellFormed ∧
      db'.events = db.events ∧
      db'.calls = (db.updateCall callId
        (CallRow.charge (chargeFor finalState price duration))).calls := by
  have hkey := CallRow.charge_keepsId (chargeFor finalState price duration)
  unfold settle
  by_cases hfinal : finalState = .completed
  · obtain ⟨s, pool, hclose, hholds⟩ := Reservations.close_total callId sessionId
      (max (chargeFor finalState price duration) 0) .settled hwf.holds
    simp only [if_pos hfinal, Reservations.settleTx, updateCall_toReservations, hclose,
      Option.map_some]
    exact ⟨_, rfl, ⟨hholds, hwf.callIds.update hkey⟩, rfl, rfl⟩
  · obtain ⟨s, pool, hclose, hholds⟩ :=
      Reservations.close_total callId sessionId 0 .released hwf.holds
    simp only [if_neg hfinal, Reservations.releaseTx, updateCall_toReservations, hclose,
      Option.map_some]
    exact ⟨_, rfl, ⟨hholds, hwf.callIds.update hkey⟩, rfl, rfl⟩

/-- The row of a call after it moved, from the row before. -/
lemma advanceCall_spec (hwf : db.WellFormed) (event : ProviderEvent) (newState : CallState) {row : CallRow}
    (hrow : db.fetchCall call.id = some row) :
    ∃ db', db.advanceCall call newState event = some db' ∧ db'.WellFormed ∧
      db'.events = db.events ∧
      (∀ c, c ≠ call.id → db'.fetchCall c = db.fetchCall c) ∧
      db'.fetchCall call.id =
        let duration := durationOf newState call.answeredAt event.occurredAt
        let moved := row.moveTo newState event duration
        some (if newState.isTerminal then
          moved.charge (chargeFor newState call.quotedPricePerMin (duration.getD 0))
        else moved) := by
  have hmove := CallRow.moveTo_keepsId newState event
    (durationOf newState call.answeredAt event.occurredAt)
  unfold advanceCall
  cases hterm : newState.isTerminal with
  | true =>
    obtain ⟨db', hsettle, hwf', hevents, hcalls⟩ := settle_spec (hwf.updateCall hmove)
      call.sessionId newState call.quotedPricePerMin
      ((durationOf newState call.answeredAt event.occurredAt).getD 0)
    have hcharge := CallRow.charge_keepsId (chargeFor newState call.quotedPricePerMin
      ((durationOf newState call.answeredAt event.occurredAt).getD 0))
    have hfetch : ∀ c, db'.fetchCall c = _ := fun c =>
      congrArg (fun t => Table.get CallRow.id t c) hcalls
    refine ⟨db', hsettle, hwf', hevents, fun c hc => ?_, ?_⟩
    · exact (hfetch c).trans ((fetchCall_updateCall_of_ne hcharge hc).trans
        (fetchCall_updateCall_of_ne hmove hc))
    · refine (hfetch call.id).trans ((fetchCall_updateCall_self hcharge).trans ?_)
      rw [fetchCall_updateCall_self hmove, hrow]
      rfl
  | false =>
    refine ⟨_, rfl, hwf.updateCall hmove, rfl, fun c hc => ?_, ?_⟩
    · exact fetchCall_updateCall_of_ne hmove hc
    · rw [fetchCall_updateCall_self hmove, hrow, Option.map_some]
      rfl

lemma deliver_of_apply {out : Ingest} (h : db.apply event = some (out, db₁)) :
    db.deliver event = db₁ := by
  simp [deliver, h]

lemma insertEvent_new (callId : Uuid) (hnew : ¬ db.Seen event) :
    ∃ db', db.insertEvent event callId = some db' ∧ db'.calls = db.calls ∧
      db'.toReservations = db.toReservations ∧
      ∀ e, db'.Seen e ↔ db.Seen e ∨ e.key = event.key := by
  unfold Seen at hnew
  rw [insertEvent, if_neg hnew]
  refine ⟨_, rfl, rfl, rfl, fun e => ?_⟩
  unfold Seen
  rw [List.exists_mem_cons_iff, or_comm]
  exact or_congr_right ⟨Eq.symm, Eq.symm⟩

@[simp] lemma seen_stampEvent {before after : CallState} {e : ProviderEvent} :
    (db.stampEvent event before after).Seen e ↔ db.Seen e :=
  Table.exists_key_update fun _ => rfl

/-- **A first delivery.**  It moves the row of its call by `receive`, leaves every other row,
and enters the event into the ledger. -/
theorem deliver_first (hwf : db.WellFormed) (hres : db.resolves event = some callId)
    (hnew : ¬ db.Seen event) :
    (db.deliver event).WellFormed ∧
    (∀ e, (db.deliver event).Seen e ↔ db.Seen e ∨ e.key = event.key) ∧
    (∀ c, c ≠ callId → (db.deliver event).fetchCall c = db.fetchCall c) ∧
    ∃ row leg, db.fetchCall callId = some row ∧
      ((db.deliver event).fetchCall callId = some (row.receive event) ∨
        (db.deliver event).fetchCall callId = some ((row.addLeg leg).receive event)) := by
  unfold resolves at hres
  obtain ⟨call, hcall, rfl⟩ := Option.map_eq_some_iff.mp hres
  obtain ⟨db₁, hpair⟩ : ∃ db₁, db.resolveCall event = (some call, db₁) :=
    ⟨_, Prod.ext hcall rfl⟩
  obtain ⟨hfetch, hwf₁, -, hevents, hrow, hframe⟩ := resolveCall_some hwf hpair
  -- the row the event is applied to is the call, with the leg recorded or not
  obtain ⟨base, hbase, hstatus, hanswered, hprice, hform⟩ : ∃ base,
      db₁.fetchCall call.id = some base ∧ base.status = call.status ∧
      base.answeredAt = call.answeredAt ∧ base.quotedPricePerMin = call.quotedPricePerMin ∧
      (base = call ∨ base = call.addLeg event.legId) := by
    rcases hrow with hrow | hrow
    · exact ⟨call, hrow, rfl, rfl, rfl, .inl rfl⟩
    · exact ⟨_, hrow, by simp, by simp, by simp, .inr rfl⟩
  have hnew₁ : ¬ db₁.Seen event := by
    rwa [Seen, hevents]
  obtain ⟨db₂, hins, hcalls₂, hpool₂, hseen₁⟩ := insertEvent_new call.id hnew₁
  have hseen₂ : ∀ e, db₂.Seen e ↔ db.Seen e ∨ e.key = event.key := by
    intro e
    rw [hseen₁, Seen, hevents]
    rfl
  have hwf₂ : db₂.WellFormed := ⟨hpool₂ ▸ hwf₁.holds, hcalls₂ ▸ hwf₁.callIds⟩
  have hnote := CallRow.noteEvent_keepsId event
  have hfetch₃ : (db₂.updateCall call.id (CallRow.noteEvent event)).fetchCall call.id =
      some (base.noteEvent event) := by
    rw [fetchCall_updateCall_self hnote, fetchCall, hcalls₂]
    exact congrArg (Option.map _) hbase
  have hframe₃ : ∀ c, c ≠ call.id →
      (db₂.updateCall call.id (CallRow.noteEvent event)).fetchCall c = db.fetchCall c := by
    intro c hc
    rw [fetchCall_updateCall_of_ne hnote hc, fetchCall, hcalls₂]
    exact hframe c hc
  have hdone : ∀ (db' : VoipDb) (row : CallRow), (row = call ∨ row = call.addLeg event.legId) →
      db'.fetchCall call.id = some (row.receive event) →
      db'.fetchCall call.id = some (call.receive event) ∨
        db'.fetchCall call.id = some ((call.addLeg event.legId).receive event) := by
    rintro db' row (rfl | rfl) h
    · exact .inl h
    · exact .inr h
  cases hmove : (lifecycleEvent event.kind).bind (next call.status) with
  | none =>
    have happly : db.apply event = some (.recorded call.id call.status,
        (db₂.updateCall call.id (CallRow.noteEvent event)).stampEvent event call.status
          call.status) := by
      simp only [apply, hpair, hins, hmove]
    rw [deliver_of_apply happly]
    refine ⟨⟨hwf₂.holds, hwf₂.callIds.update hnote⟩, fun e => ?_, hframe₃, call, event.legId,
      hfetch, hdone _ base hform ?_⟩
    · rw [seen_stampEvent]
      exact hseen₂ e
    · refine hfetch₃.trans ?_
      rw [CallRow.receive, hstatus, hmove]
  | some newState =>
    obtain ⟨db₄, hadv, hwf₄, hevents₄, hframe₄, hfetch₄⟩ := advanceCall_spec
      (hwf₂.updateCall hnote) event newState hfetch₃
    have happly : db.apply event = some (.applied call.id call.status newState,
        db₄.stampEvent event call.status newState) := by
      simp only [apply, hpair, hins, hmove, hadv, Option.pure_def, Option.bind_eq_bind,
        Option.bind_some]
    rw [deliver_of_apply happly]
    refine ⟨⟨hwf₄.holds, hwf₄.callIds⟩, fun e => ?_, fun c hc => ?_, call, event.legId, hfetch,
      hdone _ base hform ?_⟩
    · rw [seen_stampEvent, Seen, hevents₄]
      exact hseen₂ e
    · exact (hframe₄ c hc).trans (hframe₃ c hc)
    · refine hfetch₄.trans ?_
      rw [CallRow.receive, hstatus, hmove, hanswered, hprice]

/-- The gate stops an event that is in the ledger once its call is resolved. -/
lemma apply_seen (hcall : (db.resolveCall event).1 = some call) (hseen : db.Seen event) :
    db.apply event = some (.duplicate (some call.id), (db.resolveCall event).2) := by
  have hpair : db.resolveCall event = (some call, (db.resolveCall event).2) :=
    Prod.ext hcall rfl
  have hins : (db.resolveCall event).2.insertEvent event call.id = none := by
    rw [insertEvent, resolveCall_events]
    exact if_pos hseen
  rw [apply, hpair]
  simp only [hins]

/-- **A redelivery** changes nothing but the legs of the call. -/
theorem deliver_again (hwf : db.WellFormed) (hres : db.resolves event = some callId)
    (hseen : db.Seen event) :
    (db.deliver event).WellFormed ∧
    (∀ e, (db.deliver event).Seen e ↔ db.Seen e) ∧
    (∀ c, c ≠ callId → (db.deliver event).fetchCall c = db.fetchCall c) ∧
    ∃ row leg, db.fetchCall callId = some row ∧
      ((db.deliver event).fetchCall callId = some row ∨
        (db.deliver event).fetchCall callId = some (row.addLeg leg)) := by
  unfold resolves at hres
  obtain ⟨call, hcall, rfl⟩ := Option.map_eq_some_iff.mp hres
  obtain ⟨db₁, hpair⟩ : ∃ db₁, db.resolveCall event = (some call, db₁) :=
    ⟨_, Prod.ext hcall rfl⟩
  obtain ⟨hfetch, hwf₁, -, hevents, hrow, hframe⟩ := resolveCall_some hwf hpair
  rw [deliver_of_apply (apply_seen hcall hseen), hpair]
  refine ⟨hwf₁, fun e => by unfold Seen; rw [hevents], hframe, call, event.legId, hfetch, hrow⟩

/-- An event of no call changes nothing. -/
theorem deliver_unknown (hres : db.resolves event = none) : db.deliver event = db := by
  have hnone : (db.resolveCall event).1 = none := Option.map_eq_none_iff.mp hres
  have hpair : db.resolveCall event = (none, (db.resolveCall event).2) := Prod.ext hnone rfl
  have hdb := resolveCall_none hpair
  have happly : db.apply event = some (.unknown, db) := by
    rw [hdb] at hpair
    simp [apply, hpair]
  exact deliver_of_apply happly

/-! ## What a delivery does to the holds -/

/-- The holds after a statement that may have closed the hold of `callId`. -/
def ClosesAtMost (db db' : VoipDb) (callId : Uuid) : Prop :=
  db'.toReservations = db.toReservations ∨
    ∃ sessionId actual finalState s,
      db.toReservations.close callId sessionId actual finalState = some (s, db'.toReservations)

lemma settle_closes {db' : VoipDb} {sessionId : Uuid} {finalState : CallState}
    {price : Option Usd} {duration : Int}
    (h : db.settle callId sessionId finalState price duration = some db') :
    db.ClosesAtMost db' callId := by
  rw [settle] at h
  obtain ⟨⟨s, pool⟩, hclose, rfl⟩ := Option.map_eq_some_iff.mp h
  right
  split_ifs at hclose
  · exact ⟨_, _, _, _, hclose⟩
  · exact ⟨_, _, _, _, hclose⟩

lemma advanceCall_closes {db' : VoipDb} {newState : CallState}
    (h : db.advanceCall call newState event = some db') :
    db'.toReservations = db.toReservations ∨
      (newState.isTerminal = true ∧ db.ClosesAtMost db' call.id) := by
  rw [advanceCall] at h
  split_ifs at h with hterm
  · have hcloses := settle_closes h
    rw [ClosesAtMost, updateCall_toReservations] at hcloses
    exact .inr ⟨hterm, hcloses⟩
  · cases h
    exact .inl rfl

/-- **A delivery that touches a hold ends the call it resolves to**, and the event is new. -/
theorem deliver_ends : (db.deliver event).toReservations = db.toReservations ∨
    ∃ call newState, (db.resolveCall event).1 = some call ∧ ¬ db.Seen event ∧
      (lifecycleEvent event.kind).bind (next call.status) = some newState ∧
      newState.isTerminal = true ∧ db.ClosesAtMost (db.deliver event) call.id := by
  cases hcall : (db.resolveCall event).1 with
  | none => exact .inl (by rw [deliver_unknown (by rw [resolves, hcall, Option.map_none])])
  | some call =>
    have hpair : db.resolveCall event = (some call, (db.resolveCall event).2) :=
      Prod.ext hcall rfl
    have hpool₁ := @resolveCall_pool db event
    have hevents₁ := @resolveCall_events db event
    generalize (db.resolveCall event).2 = db₁ at hpair hpool₁ hevents₁
    cases hins : db₁.insertEvent event call.id with
    | none =>
      have happly : db.apply event = some (.duplicate (some call.id), db₁) := by
        simp only [apply, hpair, hins]
      rw [deliver_of_apply happly]
      exact .inl hpool₁
    | some db₂ =>
      obtain ⟨hnew, hpool₂⟩ : ¬ db.Seen event ∧ db₂.toReservations = db.toReservations := by
        rw [insertEvent, hevents₁] at hins
        split_ifs at hins with hseen
        cases hins
        exact ⟨hseen, hpool₁⟩
      cases hmove : (lifecycleEvent event.kind).bind (next call.status) with
      | none =>
        have happly : db.apply event = some (.recorded call.id call.status,
            (db₂.updateCall call.id (CallRow.noteEvent event)).stampEvent event call.status
              call.status) := by
          simp only [apply, hpair, hins, hmove]
        rw [deliver_of_apply happly]
        exact .inl hpool₂
      | some newState =>
        cases hadv : (db₂.updateCall call.id (CallRow.noteEvent event)).advanceCall call newState
            event with
        | none =>
          have happly : db.apply event = none := by
            simp only [apply, hpair, hins, hmove, hadv, Option.bind_eq_bind, Option.bind_none]
          simp [deliver, happly]
        | some db₃ =>
          have happly : db.apply event = some (.applied call.id call.status newState,
              db₃.stampEvent event call.status newState) := by
            simp only [apply, hpair, hins, hmove, hadv, Option.pure_def, Option.bind_eq_bind,
              Option.bind_some]
          rw [deliver_of_apply happly]
          obtain hsame | ⟨hterm, hcloses⟩ := advanceCall_closes hadv
          · exact .inl (hsame.trans hpool₂)
          · rw [ClosesAtMost, updateCall_toReservations, hpool₂] at hcloses
            exact .inr ⟨call, newState, rfl, hnew, hmove, hterm, hcloses⟩

/-- **A delivery closes at most the hold of the call it resolves to.** -/
theorem deliver_closes : (db.deliver event).toReservations = db.toReservations ∨
    ∃ callId, db.resolves event = some callId ∧ db.ClosesAtMost (db.deliver event) callId := by
  obtain hsame | ⟨call, newState, hcall, -, -, -, hcloses⟩ := @deliver_ends db event
  · exact .inl hsame
  · exact .inr ⟨call.id, by rw [resolves, hcall, Option.map_some], hcloses⟩

end VoipDb

end VoxTranslate.Voip
