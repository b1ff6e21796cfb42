import VoxTranslate.Voip.Answering
import VoxTranslate.Voip.Inbound

/-!
# The two readings of the no-answer action

What happens to a call nobody answers is resolved twice.  The admission takes the routing row of
the number, or the default where there is none, and the closed action of its office hours when
the office is closed.  The sweep joins the routing row and nothing else: without a row there is
no action, and the hours are not read.
-/

namespace VoxTranslate.Voip

open Lib

namespace NoAnswerAction

/-- The name in the database. -/
def asStr : NoAnswerAction → String
  | .voicemail => "voicemail"
  | .forward => "forward"
  | .refuse => "refuse"

lemma asStr_eq_voicemail {a : NoAnswerAction} : a.asStr = "voicemail" ↔ a = .voicemail := by
  cases a <;> simp [asStr]

/-- A message is left only for a voicemail, and only where both switches allow a recording; a
forward is not wired and refuses. -/
def leavesAMessage (a : NoAnswerAction) (orgAllowsRecording deploymentAllowsRecording : Bool) :
    Bool :=
  a = .voicemail && (orgAllowsRecording && deploymentAllowsRecording)

end NoAnswerAction

namespace InboundDb

/-- The action that the sweep's `LEFT JOIN` finds for a call. -/
def joinedAction (db : InboundDb) (callId : Uuid) : Option String :=
  (Table.get InboundCall.callId db.inbound callId).bind fun call =>
    (db.routing.lookup call.inboundNumberId).map fun row => row.noAnswerAction.asStr

/-- What the sweep begins with a call it selected. -/
def sweepStage (db : InboundDb) (c : CallRow)
    (orgAllowsRecording deploymentAllowsRecording : Bool) : SweepStage :=
  firstStage c (db.joinedAction c.id) orgAllowsRecording deploymentAllowsRecording

/-- The number's routing says voicemail. -/
def routesToVoicemail (db : InboundDb) (numberId : Uuid) : Bool :=
  (db.routing.lookup numberId).any fun row => row.noAnswerAction = .voicemail

/-- The number's closed action is voicemail, which it is without office hours. -/
def closesToVoicemail (db : InboundDb) (numberId : Uuid) : Bool :=
  (db.hours.lookup numberId).all fun h => h.closedAction = .voicemail

variable {db db' : InboundDb} {env : InboundEnv} {r : InboundRequest} {adm : Admission}
  {org deployment : Bool}

/-- The sweep leaves a message where the routing row says so and the switches allow it. -/
lemma sweepStage_eq (h : Admitted db env r adm db') {row : CallRow} (hid : row.id = adm.callId)
    (hmissed : row.missed = false) : db'.sweepStage row org deployment =
      .mark (db.routesToVoicemail adm.number.id && (org && deployment)) := by
  obtain ⟨contactId, rung, outside, hinbound⟩ := h.inboundCall
  have hjoined : db'.joinedAction r.callId =
      (db.routing.lookup adm.number.id).map fun row => row.noAnswerAction.asStr := by
    rw [joinedAction, hinbound, h.routing]
    rfl
  rw [sweepStage, firstStage, if_neg (by simp [hmissed]), hid, h.callId, hjoined,
    routesToVoicemail]
  cases db.routing.lookup adm.number.id with
  | none => simp
  | some row => simp [NoAnswerAction.asStr_eq_voicemail]

/-- The admission leaves a message after hours where the closed action says so, and otherwise
where the routing row or its default does. -/
lemma action_leavesAMessage (h : Admitted db env r adm db') :
    adm.action.leavesAMessage org deployment =
      ((if db.openAt env adm.number.id r.now then
        (db.routing.lookup adm.number.id).isNone || db.routesToVoicemail adm.number.id
      else db.closesToVoicemail adm.number.id) && (org && deployment)) := by
  obtain ⟨secs, hring⟩ := h.ring
  rw [Admission.action, NoAnswerAction.leavesAMessage, h.isOpen]
  cases db.openAt env adm.number.id r.now with
  | true =>
    rw [if_pos rfl, if_pos rfl, hring, resolveRing, routesToVoicemail]
    cases db.routing.lookup adm.number.id with
    | none => simp [RoutingRow.defaultFor]
    | some row => simp
  | false =>
    rw [if_neg Bool.false_ne_true, if_neg Bool.false_ne_true, h.closedAction, closesToVoicemail]
    cases db.hours.lookup adm.number.id with
    | none => simp
    | some hours => simp

/-- **When the sweep does what the admission resolved.**  Where no recording is allowed both
hang up.  Otherwise they agree on an open office exactly when the number has a routing row, and
on a closed one exactly when its closed action and its routing are both voicemail or neither. -/
theorem noAnswer_agrees_iff (hadmitted : db.admitCall env r = .ok (adm, db')) {row : CallRow}
    (hid : row.id = adm.callId) (hmissed : row.missed = false) :
    db'.sweepStage row org deployment = .mark (adm.action.leavesAMessage org deployment) ↔
      (org && deployment) = false ∨
      if db.openAt env adm.number.id r.now then (db.routing.lookup adm.number.id).isSome = true
      else db.routesToVoicemail adm.number.id = db.closesToVoicemail adm.number.id := by
  have h := admitCall_spec hadmitted
  rw [sweepStage_eq h hid hmissed, action_leavesAMessage h, SweepStage.mark.injEq]
  cases hallowed : org && deployment with
  | false => simp
  | true =>
    cases db.openAt env adm.number.id r.now with
    | false => simp
    | true =>
      rw [routesToVoicemail]
      cases db.routing.lookup adm.number.id <;> simp

/-- The office with a routing row of its own. -/
def routedOffice : InboundDb :=
  { officeDb with routing := [(5, ⟨.owners, [], none, 25, .voicemail, none, none⟩)] }

/-- And with hours in which a closed office refuses. -/
def closedOffice : InboundDb :=
  { routedOffice with hours := [(5, ⟨"Europe/Rome", [540], [1080], .refuse⟩)] }

/-- The call of the stranger. -/
def strangerRow : CallRow := strangerCall.callRow 0 "en" (seconds 25)

theorem routed_office_agrees : ∃ adm db',
    routedOffice.admitCall officeEnv strangerCall = .ok (adm, db') ∧
    db'.sweepStage strangerRow true true = .mark (adm.action.leavesAMessage true true) := by
  have hadmitted : routedOffice.admitCall officeEnv strangerCall = .ok (_, _) := rfl
  refine ⟨_, _, hadmitted, (noAnswer_agrees_iff hadmitted rfl rfl).mpr (.inr ?_)⟩
  decide +kernel

/-- Without a routing row the admission resolves a voicemail and the sweep hangs up; with one,
after hours, the admission refuses and the sweep records a message. -/
theorem unrouted_office_disagrees :
    (∃ adm db', officeDb.admitCall officeEnv strangerCall = .ok (adm, db') ∧
      adm.action = .voicemail ∧ db'.sweepStage strangerRow true true = .mark false) ∧
    ∃ adm db', closedOffice.admitCall officeEnv strangerCall = .ok (adm, db') ∧
      adm.action = .refuse ∧ db'.sweepStage strangerRow true true = .mark true :=
  ⟨⟨_, _, rfl, rfl, rfl⟩, ⟨_, _, rfl, rfl, rfl⟩⟩

end InboundDb

end VoxTranslate.Voip
