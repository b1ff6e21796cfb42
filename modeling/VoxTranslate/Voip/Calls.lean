import VoxTranslate.Voip.Consent
import VoxTranslate.Voip.Pricing
import VoxTranslate.Voip.Reservation
import VoxTranslate.Voip.State

/-!
# Call rows and the provider event ledger

The columns of `voip_calls` that the lifecycle, the billing and the consent step read or
write, and the ledger `voip_provider_events` whose unique key is the idempotency gate of the
webhooks.  A `TEXT` column with a `CHECK` on its values is the enumeration of these values.
-/

namespace VoxTranslate.Voip

open Lib Business

/-- The provider's identifier of one leg of a call. -/
abbrev LegId := String

inductive Direction where
  | outbound
  | inbound
  | bridge
  deriving DecidableEq, Repr

/-- The column `recording_status`. -/
inductive RecordingStatus where
  | none
  | pending
  | recording
  | saved
  | failed
  | deleted
  deriving DecidableEq, Repr

/-- The column `transcription_status`. -/
inductive TranscriptionStatus where
  | none
  | live
  | ready
  | failed
  deriving DecidableEq, Repr

/-- A row of `voip_calls`. -/
structure CallRow where
  id : Uuid
  sessionId : Uuid
  orgId : Uuid
  /-- Who placed it. -/
  userId : Option Uuid
  providerLegIds : List LegId
  direction : Direction
  targetLanguage : String
  status : CallState
  failureReason : Option FailureReason
  answeredAt : Option Timestamp
  endedAt : Option Timestamp
  durationSeconds : Option Int
  recordingStatus : RecordingStatus
  transcriptionStatus : TranscriptionStatus
  consentPolicy : ConsentPolicy
  consentStatus : ConsentStatus
  disclosurePlayedAt : Option Timestamp
  disclosureLanguage : Option String
  consentReceivedAt : Option Timestamp
  recordingStartedAt : Option Timestamp
  transcriptionStartedAt : Option Timestamp
  quotedPricePerMin : Option Usd
  customerChargeUsd : Option Usd
  creditsConsumed : Int
  providerRecordingId : Option String
  providerRecordingUrl : Option String
  /-- Who picked an inbound call up. -/
  answeredBy : Option Uuid
  /-- When to stop waiting for somebody to pick up. -/
  ringDeadlineAt : Option Timestamp
  missed : Bool
  deriving DecidableEq, Repr

/-- A row of `voip_provider_events`. -/
structure ProviderEventRow where
  provider : String
  providerEventId : String
  callId : Uuid
  legId : LegId
  eventType : String
  occurredAt : Timestamp
  /-- State before and after, so that a lifecycle can be replayed. -/
  stateBefore : Option CallState
  stateAfter : Option CallState
  deriving DecidableEq, Repr

/-- The unique key of the event ledger. -/
def ProviderEventRow.key (r : ProviderEventRow) : String × String := (r.provider, r.providerEventId)

/-- The tables the telephony half of the server works on. -/
structure VoipDb extends Reservations where
  calls : List CallRow
  events : List ProviderEventRow
  deriving DecidableEq, Repr

namespace VoipDb

variable {db : VoipDb} {id callId : Uuid} {f : CallRow → CallRow}

/-- `SELECT ... FROM voip_calls WHERE id = $1`. -/
def fetchCall (db : VoipDb) (id : Uuid) : Option CallRow := Table.get CallRow.id db.calls id

/-- `SELECT ... FROM voip_calls WHERE $1 = ANY(provider_leg_ids)`. -/
def fetchCallByLeg (db : VoipDb) (leg : LegId) : Option CallRow :=
  db.calls.find? fun c => c.providerLegIds.contains leg

/-- `UPDATE voip_calls SET ... WHERE id = $1`. -/
def updateCall (db : VoipDb) (id : Uuid) (f : CallRow → CallRow) : VoipDb :=
  { db with calls := Table.update CallRow.id db.calls id f }

@[simp] lemma updateCall_toReservations :
    (db.updateCall id f).toReservations = db.toReservations := rfl

lemma fetchCall_id {row : CallRow} (h : db.fetchCall id = some row) : row.id = id :=
  Table.key_of_get h

lemma fetchCall_updateCall_self (hf : Table.KeepsKey CallRow.id f) :
    (db.updateCall id f).fetchCall id = (db.fetchCall id).map f :=
  Table.get_update_self hf

lemma fetchCall_updateCall_of_ne (hf : Table.KeepsKey CallRow.id f) (h : callId ≠ id) :
    (db.updateCall id f).fetchCall callId = db.fetchCall callId :=
  Table.get_update_of_ne hf h

end VoipDb

end VoxTranslate.Voip
