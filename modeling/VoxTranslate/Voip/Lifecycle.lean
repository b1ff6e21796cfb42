import VoxTranslate.Lib.Run
import VoxTranslate.Voip.Settlement

/-!
# The writers of the call status

Besides the webhooks, a call's status is written by the dial that places it, by the sweep
over inbound calls nobody came to, and by the reaper of overrunning calls.  Each of them
reads, awaits the carrier and writes later, so a task is the list of what it has still to do
and every one of its steps may be separated from the next by steps of all the others.

Some of the late writes carry no condition on the status they overwrite.  `mayOverwrite` is
the condition under which such a write does not take a call back, and in every run whose
unconditional writes meet it no call ever goes back or leaves a terminal state.
-/

namespace VoxTranslate.Voip

open Lib Business

/-! ## The writes -/

namespace CallRow

/-- The dial returned: `status = 'dialing'`, whatever it was. -/
def setDialing (leg : LegId) (c : CallRow) : CallRow :=
  { c with status := .dialing, providerLegIds := c.providerLegIds ++ [leg] }

/-- The dial failed: `status = 'failed'`, whatever it was. -/
def fail (reason : FailureReason) (now : Timestamp) (c : CallRow) : CallRow :=
  { c with
    status := .failed
    failureReason := c.failureReason.or (some reason)
    endedAt := c.endedAt.or (some now) }

/-- Nobody came to an inbound call. -/
def markMissed (c : CallRow) : CallRow :=
  { c with
    missed := true
    failureReason := c.failureReason.or (some .noAnswer)
    ringDeadlineAt := none }

/-- How long a caller may speak before the line is closed, in microseconds. -/
def voicemailMicros : Int := 120 * 1000000

/-- The caller leaves a message: `status = 'answered'`, whatever it was. -/
def takeMessage (now : Timestamp) (c : CallRow) : CallRow :=
  { c with
    status := .answered
    recordingStatus := .pending
    ringDeadlineAt := some (now + voicemailMicros) }

/-- A missed call is over: `status = 'completed'`, whatever it was. -/
def closeMissed (now : Timestamp) (c : CallRow) : CallRow :=
  { c with status := .completed, endedAt := c.endedAt.or (some now) }

/-- The message is over: `status = 'completed'`, whatever it was. -/
def closeVoicemail (now : Timestamp) (c : CallRow) : CallRow :=
  { c with status := .completed, endedAt := c.endedAt.or (some now), ringDeadlineAt := none }

/-- The call overran, `WHERE status IN ('answered', 'bridged')`. -/
def overrun (c : CallRow) : CallRow :=
  if c.status = .answered ∨ c.status = .bridged then
    { c with
      status := .ending
      failureReason := c.failureReason.or (some .maxDurationReached) }
  else c

/-- A call that never got past dialling: `WHERE status IN ('created', 'dialing', 'ringing') AND
answered_at IS NULL`. -/
def failStalled (now : Timestamp) (c : CallRow) : CallRow :=
  if (c.status = .created ∨ c.status = .dialing ∨ c.status = .ringing) ∧ c.answeredAt = none then
    c.fail .providerUnavailable now
  else c

/-- The bridge ends the call, `WHERE status NOT IN ('completed', 'failed')`. -/
def endFromBridge (reason : FailureReason) (now : Timestamp) (c : CallRow) : CallRow :=
  if c.status.isTerminal then c else c.fail reason now

/-- The call is not over and is counted by the concurrency caps. -/
def isLive (c : CallRow) : Bool := !c.status.isTerminal

/-- The sweep's condition on an inbound call nobody came to. -/
def isUnanswered (now : Timestamp) (c : CallRow) : Bool :=
  c.direction = .inbound && c.answeredBy.isNone &&
    c.ringDeadlineAt.any (fun deadline => deadline ≤ now) && !c.status.isTerminal

/-- The reaper's condition on a call past its maximum duration. -/
def isOverrunning (now : Timestamp) (maxCallMinutes : Int) (c : CallRow) : Bool :=
  (c.status = .answered || c.status = .bridged || c.status = .ending) &&
    c.answeredAt.any fun answered => answered < now - maxCallMinutes * 60000000

end CallRow

/-- What a dial is asked for, with the caps it is admitted under; the identifiers are drawn
by the database. -/
structure DialRequest where
  callId : Uuid
  sessionId : Uuid
  orgId : Uuid
  userId : Uuid
  targetLanguage : String
  consentPolicy : ConsentPolicy
  intent : CaptureIntent
  pricePerMinute : Usd
  reserveCredits : Int
  maxConcurrentPerUser : Nat
  maxConcurrentPerOrg : Nat
  maxConcurrentGlobal : Nat
  deriving DecidableEq

/-- The row a dial inserts. -/
def DialRequest.row (r : DialRequest) : CallRow where
  id := r.callId
  sessionId := r.sessionId
  orgId := r.orgId
  userId := some r.userId
  providerLegIds := []
  direction := .outbound
  targetLanguage := r.targetLanguage
  status := .created
  failureReason := none
  answeredAt := none
  endedAt := none
  durationSeconds := none
  recordingStatus := if r.intent.recording then .pending else .none
  transcriptionStatus := if r.intent.transcription then .live else .none
  consentPolicy := r.consentPolicy
  consentStatus := (plan r.consentPolicy r.intent true r.targetLanguage).initialStatus
  disclosurePlayedAt := none
  disclosureLanguage := none
  consentReceivedAt := none
  recordingStartedAt := none
  transcriptionStartedAt := none
  quotedPricePerMin := some r.pricePerMinute
  customerChargeUsd := none
  creditsConsumed := 0
  providerRecordingId := none
  providerRecordingUrl := none
  answeredBy := none
  ringDeadlineAt := none
  missed := false

namespace VoipDb

/-- The live calls of a user, of an organisation and of the deployment. -/
def liveCounts (db : VoipDb) (orgId userId : Uuid) : Nat × Nat × Nat :=
  let live := db.calls.filter CallRow.isLive
  (live.countP fun c => c.userId = some userId, live.countP fun c => c.orgId = orgId, live.length)

/-- The admission transaction of a dial: the caps are checked against counts read under the
lock, and the row is inserted. -/
def insertDialed (db : VoipDb) (r : DialRequest) : Option VoipDb :=
  let (user, org, global) := db.liveCounts r.orgId r.userId
  if r.maxConcurrentPerUser ≤ user ∨ r.maxConcurrentPerOrg ≤ org ∨
      r.maxConcurrentGlobal ≤ global then none
  else if ∃ c ∈ db.calls, c.id = r.callId then none
  else some { db with calls := r.row :: db.calls }

end VoipDb

/-! ## The tasks -/

/-- What a task has still to do for its call. -/
inductive Task where
  /-- A dial that inserted its row: take the hold. -/
  | reserve (r : DialRequest)
  /-- A dial whose hold was refused: fail the call. -/
  | refuse (callId : Uuid)
  /-- A dial inside the provider's `dial`. -/
  | awaitDial (callId sessionId : Uuid)
  /-- A dial that failed: give the hold back. -/
  | release (callId sessionId : Uuid)
  /-- A sweep that read a missed call with a message: close it. -/
  | closeVoicemail (callId : Uuid)
  /-- A sweep that read an unanswered call: mark it missed. -/
  | markMissed (callId : Uuid) (leavesAMessage : Bool)
  /-- A sweep that has spoken to the carrier: take the message or close the call. -/
  | finishMissed (callId : Uuid) (leavesAMessage : Bool)
  /-- A reaper that has hung up: mark the call as ending. -/
  | reap (callId : Uuid)
  deriving DecidableEq

/-- What a task's step finds outside the database. -/
structure Env where
  now : Timestamp
  /-- The identifier the database draws for a new hold. -/
  newId : Uuid
  /-- What the provider's `dial` returned. -/
  dialResult : Except FailureReason LegId

/-- One step of a task: what it writes and what is left to do. -/
def runTask (db : VoipDb) (env : Env) : Task → VoipDb × Option Task
  | .reserve r =>
    match db.reserve r.orgId r.callId r.sessionId (some r.userId) r.reserveCredits env.newId with
    | some (.held _, pool) => ({ db with toReservations := pool }, some (.awaitDial r.callId r.sessionId))
    | some (.insufficient _ _, _) => (db, some (.refuse r.callId))
    | none => (db, none)
  | .refuse callId => (db.updateCall callId (CallRow.fail .insufficientCredits env.now), none)
  | .awaitDial callId sessionId =>
    match env.dialResult with
    | .ok leg => (db.updateCall callId (CallRow.setDialing leg), none)
    | .error reason =>
      (db.updateCall callId (CallRow.fail reason env.now), some (.release callId sessionId))
  | .release callId sessionId =>
    match db.releaseTx callId sessionId with
    | some (_, pool) => ({ db with toReservations := pool }, none)
    | none => (db, none)
  | .closeVoicemail callId => (db.updateCall callId (CallRow.closeVoicemail env.now), none)
  | .markMissed callId leaves =>
    (db.updateCall callId CallRow.markMissed, some (.finishMissed callId leaves))
  | .finishMissed callId true => (db.updateCall callId (CallRow.takeMessage env.now), none)
  | .finishMissed callId false => (db.updateCall callId (CallRow.closeMissed env.now), none)
  | .reap callId => (db.updateCall callId CallRow.overrun, none)

/-- The database and the tasks under way. -/
structure Telephony where
  db : VoipDb
  tasks : List Task

/-- A step of the system. -/
inductive Action where
  /-- A dial is admitted. -/
  | dial (r : DialRequest)
  /-- A webhook is delivered. -/
  | deliver (event : ProviderEvent)
  /-- The sweep reads an inbound call nobody came to, with the routing of its number and the
  two switches that allow a recording. -/
  | selectUnanswered (callId : Uuid) (now : Timestamp) (noAnswerAction : Option String)
      (orgAllowsRecording deploymentAllowsRecording : Bool)
  /-- The reaper reads a call past its maximum duration. -/
  | selectOverrun (callId : Uuid) (now : Timestamp) (maxCallMinutes : Int)
  /-- The sweep over stalled dials fails a call. -/
  | failStalled (callId : Uuid) (now : Timestamp)
  /-- The bridge lost its media and ends a call. -/
  | endCall (callId : Uuid) (reason : FailureReason) (now : Timestamp)
  /-- A task takes its next step. -/
  | run (task : Task) (env : Env)
  /-- A task ends early: an SQL error, or the process died. -/
  | abandon (task : Task)

/-- The sweep's task for a call it read. -/
def unansweredTask (c : CallRow) (noAnswerAction : Option String)
    (orgAllowsRecording deploymentAllowsRecording : Bool) : Task :=
  if c.missed then .closeVoicemail c.id
  else .markMissed c.id (noAnswerAction = some "voicemail" &&
    (orgAllowsRecording && deploymentAllowsRecording))

namespace Telephony

/-- The step function; `none` where the step cannot be taken. -/
def step (s : Telephony) : Action → Option Telephony
  | .dial r => (s.db.insertDialed r).map fun db => ⟨db, .reserve r :: s.tasks⟩
  | .deliver event => some { s with db := s.db.deliver event }
  | .selectUnanswered callId now noAnswerAction org deployment =>
    match s.db.fetchCall callId with
    | some c =>
      if c.isUnanswered now then
        some { s with tasks := unansweredTask c noAnswerAction org deployment :: s.tasks }
      else none
    | none => none
  | .selectOverrun callId now maxCallMinutes =>
    match s.db.fetchCall callId with
    | some c =>
      if c.isOverrunning now maxCallMinutes then some { s with tasks := .reap c.id :: s.tasks }
      else none
    | none => none
  | .failStalled callId now =>
    some { s with db := s.db.updateCall callId (CallRow.failStalled now) }
  | .endCall callId reason now =>
    match s.db.fetchCall callId with
    | some c =>
      -- only when this call actually moved the row is its hold released
      let released := if c.status.isTerminal then [] else [Task.release callId c.sessionId]
      some ⟨s.db.updateCall callId (CallRow.endFromBridge reason now), released ++ s.tasks⟩
    | none => some s
  | .run task env =>
    if task ∈ s.tasks then
      let (db, rest) := runTask s.db env task
      some ⟨db, rest.toList ++ s.tasks.erase task⟩
    else none
  | .abandon task => some { s with tasks := s.tasks.erase task }

/-- The transition relation. -/
abbrev Step : Telephony → Action → Telephony → Prop := ofPartial step

end Telephony

/-! ## Forward -/

/-- The status went forward: it is not earlier in the lifecycle, and a terminal one stayed. -/
def Forward (old new : CallState) : Prop :=
  old.rank ≤ new.rank ∧ (old.isTerminal = true → new = old)

instance (old new : CallState) : Decidable (Forward old new) := inferInstanceAs (Decidable (_ ∧ _))

lemma Forward.refl (s : CallState) : Forward s s := ⟨le_refl _, fun _ => rfl⟩

lemma Forward.trans {s t u : CallState} (h : Forward s t) (h' : Forward t u) : Forward s u := by
  refine ⟨h.1.trans h'.1, fun hs => ?_⟩
  have ht := h.2 hs
  exact (h'.2 (ht ▸ hs)).trans ht

lemma forward_next {s t : CallState} {e : CallEvent} (h : next s e = some t) : Forward s t := by
  obtain ⟨hterm, hlt⟩ := next_rank h
  exact ⟨hlt.le, fun hs => by rw [hterm] at hs; cases hs⟩

/-- The status a task writes whatever the stored one is. -/
def Task.writes (env : Env) : Task → Option CallState
  | .refuse _ => some .failed
  | .awaitDial _ _ =>
    match env.dialResult with
    | .ok _ => some .dialing
    | .error _ => some .failed
  | .closeVoicemail _ => some .completed
  | .finishMissed _ true => some .answered
  | .finishMissed _ false => some .completed
  | .reserve _ | .release _ _ | .markMissed _ _ | .reap _ => none

/-- The call of a task. -/
def Task.callId : Task → Uuid
  | .reserve r => r.callId
  | .refuse callId | .awaitDial callId _ | .release callId _ | .closeVoicemail callId
  | .markMissed callId _ | .finishMissed callId _ | .reap callId => callId

/-- The stored statuses a status may overwrite without taking the call back. -/
def mayOverwrite (new old : CallState) : Bool :=
  match new with
  | .dialing => old = .created || old = .dialing
  | .answered => old = .created || old = .dialing || old = .ringing || old = .answered
  | .completed => old != .failed
  | .failed => old != .completed
  | .created | .ringing | .bridged | .ending => false

/-- The condition is exact for every status that is written unconditionally. -/
lemma forward_iff_mayOverwrite {env : Env} {task : Task} {new : CallState}
    (h : task.writes env = some new) (old : CallState) :
    Forward old new ↔ mayOverwrite new old = true := by
  have hnew : new = .dialing ∨ new = .answered ∨ new = .completed ∨ new = .failed := by
    unfold Task.writes at h
    split at h
    case h_2 => split at h <;> cases h <;> decide
    all_goals cases h <;> decide
  rcases hnew with rfl | rfl | rfl | rfl <;> cases old <;> decide

/-- A step meets the condition: an unconditional write finds a status it may overwrite. -/
def Telephony.safe (s : Telephony) : Action → Bool
  | .run task env =>
    match task.writes env, s.db.fetchCall task.callId with
    | some new, some row => mayOverwrite new row.status
    | _, _ => true
  | _ => true

/-! ## What one step does to every status -/

/-- Every call is still there, and its status went forward. -/
def StatusForward (db db' : VoipDb) : Prop :=
  ∀ c row, db.fetchCall c = some row →
    ∃ row', db'.fetchCall c = some row' ∧ Forward row.status row'.status

section StatusForward

variable {db db' : VoipDb} {callId : Uuid} {f : CallRow → CallRow}

lemma StatusForward.refl (db : VoipDb) : StatusForward db db :=
  fun _ row h => ⟨row, h, .refl _⟩

lemma StatusForward.trans {db'' : VoipDb} (h : StatusForward db db')
    (h' : StatusForward db' db'') : StatusForward db db'' := by
  intro c row hrow
  obtain ⟨row', hrow', hforward⟩ := h c row hrow
  obtain ⟨row'', hrow'', hforward'⟩ := h' c row' hrow'
  exact ⟨row'', hrow'', hforward.trans hforward'⟩

/-- An update moves the status of its own call only. -/
lemma statusForward_updateCall (hf : Table.KeepsKey CallRow.id f)
    (h : ∀ row, db.fetchCall callId = some row → Forward row.status (f row).status) :
    StatusForward db (db.updateCall callId f) := by
  intro c row hrow
  by_cases hc : c = callId
  · subst hc
    exact ⟨f row, by rw [VoipDb.fetchCall_updateCall_self hf, hrow, Option.map_some], h row hrow⟩
  · exact ⟨row, by rw [VoipDb.fetchCall_updateCall_of_ne hf hc, hrow], .refl _⟩

/-- The row of a call follows the lifecycle function. -/
lemma forward_receive (event : ProviderEvent) (row : CallRow) :
    Forward row.status (row.receive event).status := by
  have hline := congrArg Lifeline.status (CallRow.line_receive event row)
  change (row.receive event).status = (row.line.step event).status at hline
  rw [hline, Lifeline.step]
  cases h : (lifecycleEvent event.kind).bind (next row.line.status) with
  | none => exact .refl _
  | some newState =>
    obtain ⟨ev, -, hnext⟩ := Option.bind_eq_some_iff.mp h
    exact forward_next hnext

/-- A webhook never takes a call back, whatever it says and however often it comes. -/
theorem statusForward_deliver (hwf : db.WellFormed) (event : ProviderEvent) :
    (db.deliver event).WellFormed ∧ StatusForward db (db.deliver event) := by
  cases h : db.resolves event with
  | none =>
    rw [VoipDb.deliver_unknown h]
    exact ⟨hwf, .refl db⟩
  | some callId =>
    by_cases hseen : db.Seen event
    · obtain ⟨hwf', -, hframe, row, leg, hrow, hmine⟩ := VoipDb.deliver_again hwf h hseen
      refine ⟨hwf', fun c row' hrow' => ?_⟩
      by_cases hc : c = callId
      · subst hc
        rw [hrow] at hrow'
        cases hrow'
        rcases hmine with hmine | hmine
        · exact ⟨_, hmine, .refl _⟩
        · exact ⟨_, hmine, by rw [CallRow.addLeg_status]; exact .refl _⟩
      · exact ⟨row', by rw [hframe c hc, hrow'], .refl _⟩
    · obtain ⟨hwf', -, hframe, row, leg, hrow, hmine⟩ := VoipDb.deliver_first hwf h hseen
      refine ⟨hwf', fun c row' hrow' => ?_⟩
      by_cases hc : c = callId
      · subst hc
        rw [hrow] at hrow'
        cases hrow'
        rcases hmine with hmine | hmine
        · exact ⟨_, hmine, forward_receive event row⟩
        · have hforward := forward_receive event (row.addLeg leg)
          rw [CallRow.addLeg_status] at hforward
          exact ⟨_, hmine, hforward⟩
      · exact ⟨row', by rw [hframe c hc, hrow'], .refl _⟩

/-- A dial adds a call and touches no other. -/
lemma statusForward_insertDialed {r : DialRequest} (hwf : db.WellFormed)
    (h : db.insertDialed r = some db') : db'.WellFormed ∧ StatusForward db db' := by
  unfold VoipDb.insertDialed at h
  dsimp only at h
  split_ifs at h with hcaps hid
  cases h
  push Not at hid
  refine ⟨⟨hwf.holds, hwf.callIds.cons hid⟩, fun c row hrow => ?_⟩
  have hmem : row ∈ db.calls := Table.mem_of_get hrow
  have hkey : row.id = c := Table.key_of_get hrow
  refine ⟨row, ?_, .refl _⟩
  rw [VoipDb.fetchCall, Table.get_cons_of_ne]
  · exact hrow
  · exact fun heq => hid row hmem (hkey.trans heq.symm)

end StatusForward

/-! ## The writes that check the status they overwrite -/

namespace CallRow

lemma overrun_id : Table.KeepsKey CallRow.id overrun := by
  intro c
  rw [overrun]
  split_ifs <;> rfl

lemma failStalled_id (now : Timestamp) : Table.KeepsKey CallRow.id (failStalled now) := by
  intro c
  rw [failStalled]
  split_ifs <;> rfl

lemma endFromBridge_id (reason : FailureReason) (now : Timestamp) :
    Table.KeepsKey CallRow.id (endFromBridge reason now) := by
  intro c
  rw [endFromBridge]
  split_ifs <;> rfl

end CallRow

lemma forward_overrun (row : CallRow) : Forward row.status row.overrun.status := by
  rw [CallRow.overrun]
  split_ifs with h
  · show Forward row.status .ending
    rcases h with h | h
    · rw [h]
      decide
    · rw [h]
      decide
  · exact .refl _

/-- Any live status may become `failed`. -/
lemma forward_failed {old : CallState} (h : old.isTerminal = false) : Forward old .failed := by
  cases old <;> first | decide | cases h

lemma forward_failStalled (now : Timestamp) (row : CallRow) :
    Forward row.status (row.failStalled now).status := by
  rw [CallRow.failStalled]
  split_ifs with h
  · have hlive : row.status.isTerminal = false := by
      rcases h.1 with h | h | h <;> rw [h] <;> rfl
    exact forward_failed hlive
  · exact .refl _

lemma forward_endFromBridge (reason : FailureReason) (now : Timestamp) (row : CallRow) :
    Forward row.status (row.endFromBridge reason now).status := by
  rw [CallRow.endFromBridge]
  split_ifs with h
  · exact .refl _
  · exact forward_failed (by simpa using h)

/-- What a task writes keeps the keys of the database. -/
lemma runTask_wellFormed {db : VoipDb} (hwf : db.WellFormed) (env : Env) (task : Task) :
    (runTask db env task).1.WellFormed := by
  cases task with
  | reserve r =>
    dsimp only [runTask]
    split
    · next h => exact ⟨Reservations.reserve_holds hwf.holds h, hwf.callIds⟩
    · exact hwf
    · exact hwf
  | release callId sessionId =>
    obtain ⟨s, pool, hclose, hholds⟩ :=
      Reservations.close_total callId sessionId 0 .released hwf.holds
    simp only [runTask, Reservations.releaseTx, hclose]
    exact ⟨hholds, hwf.callIds⟩
  | awaitDial callId sessionId =>
    dsimp only [runTask]
    split <;> exact hwf.updateCall fun _ => rfl
  | finishMissed callId leaves =>
    cases leaves <;> exact hwf.updateCall fun _ => rfl
  | reap callId => exact hwf.updateCall CallRow.overrun_id
  | refuse | closeVoicemail | markMissed => exact hwf.updateCall fun _ => rfl

/-- A task's step takes no call back if its unconditional write finds a status it may
overwrite. -/
theorem runTask_forward {db : VoipDb} (env : Env) (task : Task)
    (hsafe : ∀ new row, task.writes env = some new → db.fetchCall task.callId = some row →
      mayOverwrite new row.status = true) :
    StatusForward db (runTask db env task).1 := by
  have hwrite : ∀ {f : CallRow → CallRow} {new : CallState}, task.writes env = some new →
      Table.KeepsKey CallRow.id f → (∀ row, (f row).status = new) →
      StatusForward db (db.updateCall task.callId f) := by
    intro f new hnew hf hstatus
    refine statusForward_updateCall hf fun row hrow => ?_
    rw [hstatus row]
    exact (forward_iff_mayOverwrite hnew _).mpr (hsafe new row hnew hrow)
  cases task with
  | reserve r =>
    dsimp only [runTask]
    split <;> exact .refl _
  | release callId sessionId =>
    dsimp only [runTask]
    split <;> exact .refl _
  | refuse callId => exact hwrite rfl (fun _ => rfl) fun _ => rfl
  | awaitDial callId sessionId =>
    dsimp only [runTask]
    split
    · next leg h => exact hwrite (by simp [Task.writes, h]) (fun _ => rfl) fun _ => rfl
    · next reason h => exact hwrite (by simp [Task.writes, h]) (fun _ => rfl) fun _ => rfl
  | closeVoicemail callId => exact hwrite rfl (fun _ => rfl) fun _ => rfl
  | markMissed callId leaves => exact statusForward_updateCall (fun _ => rfl) fun _ _ => .refl _
  | finishMissed callId leaves =>
    cases leaves <;> exact hwrite rfl (fun _ => rfl) fun _ => rfl
  | reap callId => exact statusForward_updateCall CallRow.overrun_id fun row _ => forward_overrun row

/-- **A step goes forward.** -/
theorem step_forward {s t : Telephony} {a : Action} (hwf : s.db.WellFormed) (hsafe : s.safe a = true)
    (h : s.Step a t) : t.db.WellFormed ∧ StatusForward s.db t.db := by
  change s.step a = some t at h
  unfold Telephony.step at h
  cases a with
  | dial r =>
    obtain ⟨db, hins, rfl⟩ := Option.map_eq_some_iff.mp h
    exact statusForward_insertDialed hwf hins
  | deliver event =>
    cases h
    exact statusForward_deliver hwf event
  | selectUnanswered callId now noAnswerAction org deployment =>
    dsimp only at h
    split at h
    · split_ifs at h
      cases h
      exact ⟨hwf, .refl _⟩
    · cases h
  | selectOverrun callId now maxCallMinutes =>
    dsimp only at h
    split at h
    · split_ifs at h
      cases h
      exact ⟨hwf, .refl _⟩
    · cases h
  | failStalled callId now =>
    cases h
    exact ⟨hwf.updateCall (CallRow.failStalled_id now),
      statusForward_updateCall (CallRow.failStalled_id now) fun row _ => forward_failStalled now row⟩
  | endCall callId reason now =>
    have hkey := CallRow.endFromBridge_id reason now
    dsimp only at h
    split at h
    · cases h
      exact ⟨hwf.updateCall hkey,
        statusForward_updateCall hkey fun row _ => forward_endFromBridge reason now row⟩
    · cases h
      exact ⟨hwf, .refl _⟩
  | run task env =>
    dsimp only at h
    split_ifs at h
    cases h
    refine ⟨runTask_wellFormed hwf env task, runTask_forward env task fun new row hnew hrow => ?_⟩
    simpa [Telephony.safe, hnew, hrow] using hsafe
  | abandon task =>
    cases h
    exact ⟨hwf, .refl _⟩

/-- **No call goes back.**  In every run whose unconditional writes find a status they may
overwrite, the status of a call never goes back along the lifecycle, and a call that has
reached a terminal status keeps it. -/
theorem status_forward_of_safe {s t : Telephony} {as : List Action} (hwf : s.db.WellFormed)
    (hrun : Run (Guarded Telephony.Step fun s a => s.safe a = true) s as t) {c : Uuid}
    {row : CallRow} (hrow : s.db.fetchCall c = some row) :
    ∃ row', t.db.fetchCall c = some row' ∧ row.status.rank ≤ row'.status.rank ∧
      (row.status.isTerminal = true → row'.status = row.status) := by
  have hforward : StatusForward s.db t.db := by
    refine Run.related (I := fun s => s.db.WellFormed) (R := fun s t => StatusForward s.db t.db)
      (fun s => .refl s.db) (fun _ _ _ => StatusForward.trans) ?_ hrun hwf
    exact fun s a t hs hst => step_forward hs hst.1 hst.2
  exact hforward c row hrow

/-- A dial of an organisation with a hundred credits. -/
def dialRequest : DialRequest where
  callId := 7
  sessionId := 1
  orgId := 0
  userId := 3
  targetLanguage := "en"
  consentPolicy := .noticeOnly
  intent := ⟨false, false, false⟩
  pricePerMinute := 3 / 5
  reserveCredits := 60
  maxConcurrentPerUser := 1
  maxConcurrentPerOrg := 1
  maxConcurrentGlobal := 1

/-- The call is inserted, and its hold is still to be taken. -/
def insertedCall : Telephony where
  db := ⟨⟨⟨[⟨0, 100⟩], []⟩, []⟩, [dialRequest.row], []⟩
  tasks := [.reserve dialRequest]

/-- The provider answered the dial with the leg. -/
def dialReturns : Env := ⟨0, 1, .ok "leg"⟩

/-- The call and its webhooks in order. -/
def dialThenAnswer : List Action :=
  [.run (.reserve dialRequest) dialReturns, .run (.awaitDial 7 1) dialReturns,
    .deliver VoipDb.answerEvent, .deliver VoipDb.hangupEvent]

/-- The answer and the hangup are in before the dial returns. -/
def answerThenDial : List Action :=
  [.run (.reserve dialRequest) dialReturns, .deliver VoipDb.answerEvent,
    .deliver VoipDb.hangupEvent, .run (.awaitDial 7 1) dialReturns]

lemma insertedCall_wellFormed : insertedCall.db.WellFormed where
  holds := by simp [Reservations.HoldsHaveOrg, insertedCall]
  callIds := by simp [insertedCall, Table.Unique]

/-- The law on a call that is dialed, answered and hung up in order. -/
theorem status_forward_inOrder :
    ∃ t row', Run (Guarded Telephony.Step fun s a => s.safe a = true) insertedCall dialThenAnswer t ∧
      t.db.fetchCall 7 = some row' ∧ CallState.created.rank ≤ row'.status.rank := by
  obtain ⟨t, hrun⟩ : ∃ t, Run (Guarded Telephony.Step fun s a => s.safe a = true) insertedCall
      dialThenAnswer t := Run.exists_guarded_of_isSome (by decide +kernel)
  have hrow : insertedCall.db.fetchCall 7 = some dialRequest.row := by decide +kernel
  obtain ⟨row', hrow', hrank, -⟩ := status_forward_of_safe insertedCall_wellFormed hrun hrow
  exact ⟨t, row', hrun, hrow', hrank⟩

/-- The completed call is taken back to `dialing` by the dial that returns last. -/
theorem late_dial_reopens_call :
    ((answerThenDial.take 3).foldlM Telephony.step insertedCall).map
        (fun s => (s.db.fetchCall 7).map CallRow.status) = some (some .completed) ∧
      (answerThenDial.foldlM Telephony.step insertedCall).map
        (fun s => (s.db.fetchCall 7).map CallRow.status) = some (some .dialing) :=
  ⟨by decide +kernel, by decide +kernel⟩

end VoxTranslate.Voip
