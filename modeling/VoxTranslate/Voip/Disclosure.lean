import VoxTranslate.Lib.Run
import VoxTranslate.Voip.Settlement

/-!
# Executing the consent plan on a live call

The plan says what the recipient hears and whether somebody waits for a digit.  Here it is
carried out on one call: the announcement is spoken, the gate is opened, a digit or the clock
resolves it, and only then is anything captured.  Every step reads the row, awaits the carrier
or writes, and may be separated from the next one by steps of all the others, so what a task
holds of the row may be stale.

The rule the module is built for is `Lawful`: nothing is captured before the disclosure is on
the record and, where the plan asks, granted.
-/

namespace VoxTranslate.Voip

open Lib

/-- Digits that count as agreement. -/
def acceptDigits : String := "1"

/-- What the disclosure step ended up doing. -/
inductive Delivery where
  | nothingToSay
  | announced (language : String) (fellBack : Bool)
  /-- Spoken, and somebody is waited for. -/
  | awaitingConsent (language : String) (fellBack : Bool)
  /-- The call continues; capture does not start. -/
  | notAnnounced (reason : String)
  deriving DecidableEq, Repr

/-- Whether capture may start as a result of this delivery. -/
def Delivery.permitsCapture : Delivery → Bool
  | nothingToSay | announced _ _ => true
  | awaitingConsent _ _ | notAnnounced _ => false

/-- The consent-relevant half of a call row, as it was read. -/
structure ConsentRow where
  policy : ConsentPolicy
  status : ConsentStatus
  refused : RefusedAction
  language : String
  wantsRecording : Bool
  wantsTranscription : Bool
  disclosurePlayedAt : Option Timestamp
  deriving DecidableEq, Repr

namespace ConsentRow

def intent (row : ConsentRow) : CaptureIntent :=
  CaptureIntent.normalised ⟨row.wantsRecording, row.wantsTranscription, false⟩

/-- Rebuild the plan that was made when the call was placed. -/
def plan (row : ConsentRow) : Disclosure := Voip.plan row.policy row.intent true row.language

/-- Something is wanted and not yet under way. -/
def wants (row : ConsentRow) : Bool := row.wantsRecording || row.wantsTranscription

lemma plan_body_isSome (row : ConsentRow) : row.plan.body.isSome = true :=
  plan_body_isSome_of_aiDisclosure _ _ _

lemma plan_gate_isSome (row : ConsentRow) :
    row.plan.gate.isSome = true ↔
      row.wants = true ∧ (row.policy = .pressKey ∨ row.policy = .verbal) := by
  rw [plan, Voip.plan_gate_isSome]
  cases h : row.wantsRecording <;> cases h' : row.wantsTranscription <;>
    simp [wants, intent, CaptureIntent.capturesNothing, CaptureIntent.normalised, h, h']

end ConsentRow

namespace CallRow

/-- `load`, under the organisation's setting for a refusal. -/
def load (refused : RefusedAction) (c : CallRow) : ConsentRow where
  policy := c.consentPolicy
  status := c.consentStatus
  refused := refused
  language := c.targetLanguage
  wantsRecording := c.recordingStatus = .pending
  wantsTranscription := c.transcriptionStatus = .live
  disclosurePlayedAt := c.disclosurePlayedAt

/-- The recipient has been told. -/
def stampDisclosure (now : Timestamp) (language : String) (c : CallRow) : CallRow :=
  { c with
    disclosurePlayedAt := c.disclosurePlayedAt.or (some now)
    disclosureLanguage := some language }

/-- Move the capture columns off their wanted values. -/
def stopWantingCapture (c : CallRow) : CallRow :=
  { c with
    recordingStatus := if c.recordingStatus = .pending then .none else c.recordingStatus
    transcriptionStatus := if c.transcriptionStatus = .live then .none else c.transcriptionStatus }

/-- Nobody can answer any more, `WHERE consent_status = 'pending'`. -/
def settleGate (c : CallRow) : CallRow :=
  if c.consentStatus = .pending then { c with consentStatus := .notRequired } else c

/-- The gate resolves, `WHERE consent_status = 'pending'`. -/
def resolveConsent (status : ConsentStatus) (now : Timestamp) (c : CallRow) : CallRow :=
  if c.consentStatus = .pending then
    { c with consentStatus := status, consentReceivedAt := some now }
  else c

/-- The carrier answered the request to record. -/
def markRecording (started : Bool) (now : Timestamp) (c : CallRow) : CallRow :=
  if started then
    { c with
      recordingStatus := .recording
      recordingStartedAt := c.recordingStartedAt.or (some now) }
  else { c with recordingStatus := .failed }

/-- Transcription is permitted from now on. -/
def markTranscription (now : Timestamp) (c : CallRow) : CallRow :=
  { c with transcriptionStartedAt := c.transcriptionStartedAt.or (some now) }

/-- Capture is marked as started. -/
def captureStarted (c : CallRow) : Bool :=
  c.recordingStatus = .recording || c.recordingStartedAt.isSome || c.transcriptionStartedAt.isSome

/-- The condition of the sweep that closes gates nobody answered. -/
def isGateOverdue (now grace : Int) (c : CallRow) : Bool :=
  c.consentStatus = .pending && c.disclosurePlayedAt.any (fun played => played < now - grace) &&
    (c.status = .answered || c.status = .bridged)

/-- The leg the sweep acts on. -/
def lastLeg (c : CallRow) : Option LegId := c.providerLegIds.getLast?.filter fun leg => leg ≠ ""

end CallRow

/-! ## The tasks -/

/-- What a task has still to do on the call, with what it has read of it. -/
inductive ConsentTask where
  /-- `deliver`, before anything is spoken. -/
  | deliver (row : ConsentRow)
  /-- `deliver`, with the announcement spoken and not yet on the record. -/
  | stamp (row : ConsentRow) (ann : Announcement)
  /-- `deliver`, inside the request for a digit. -/
  | gather (row : ConsentRow) (ann : Announcement)
  /-- `announce_on_answer`, about to read the row again. -/
  | reload
  /-- `start_capture`. -/
  | startCapture (row : ConsentRow)
  /-- `start_capture`, with the carrier's answer to the request to record. -/
  | markRecording (row : ConsentRow) (started : Bool)
  /-- `start_capture`, about to permit the transcription. -/
  | markTranscription
  /-- `stop_wanting_capture`, and whether the gate is settled after it. -/
  | stopWantingCapture (settle : Bool)
  /-- `announce_on_answer`, about to settle the gate. -/
  | settleGate
  /-- `time_out_pending_consent`, with an overdue call selected. -/
  | timeOut (leg : Option LegId)
  /-- `on_dtmf` and `time_out_pending_consent`, about to resolve the gate. -/
  | resolve (row : ConsentRow) (status : ConsentStatus) (leg : Option LegId)
  /-- `act`, about to hang up. -/
  | hangup
  deriving DecidableEq

/-- What a step finds outside the row: the clock, the organisation's setting, and what the
carrier can do and answers. -/
structure CarrierEnv where
  now : Timestamp
  refused : RefusedAction
  speechSynthesis : Bool
  played : Bool
  gathered : Bool
  recorded : Bool

/-- What `announce_on_answer` does with the outcome of `deliver`. -/
def afterDelivery : Delivery → Option ConsentTask
  | .nothingToSay | .announced _ _ => some .reload
  | .awaitingConsent _ _ => none
  | .notAnnounced _ => some (.stopWantingCapture true)

/-- Carry out what the resolved consent implies. -/
def act (action : AfterConsent) (row : ConsentRow) : ConsentTask :=
  match action with
  | .startCapture => .startCapture row
  | .continueWithoutCapture => .stopWantingCapture false
  | .endCall => .hangup

/-- The call, whether the carrier has ever been recording it, and the tasks under way. -/
structure ConsentCall where
  call : CallRow
  carrierRecording : Bool
  tasks : List ConsentTask

/-- `start_capture` refuses to record when no disclosure was on the row it was given. -/
def refusesToRecord (row : ConsentRow) : Bool :=
  row.wantsRecording && row.disclosurePlayedAt.isNone && row.status != .notRequired

section Tasks

-- the reviewed table of sentences, and the languages that have one
variable (copy : String → String → Option String) (speaks : String → Bool)

/-- One step of a task: the row, whether the carrier records, and what is left to do. -/
def runConsentTask (c : CallRow) (carrier : Bool) (env : CarrierEnv) :
    ConsentTask → CallRow × Bool × Option ConsentTask
  | .deliver row =>
    match announcement copy speaks row.plan row.refused with
    | none => (c, carrier, afterDelivery .nothingToSay)
    | some ann =>
      if !env.speechSynthesis then
        (c, carrier, afterDelivery (.notAnnounced "provider_cannot_speak"))
      else if !env.played then
        (c, carrier, afterDelivery (.notAnnounced "announcement_failed"))
      else (c, carrier, some (.stamp row ann))
  | .stamp row ann =>
    (c.stampDisclosure env.now ann.language, carrier,
      if row.plan.gate.isNone then afterDelivery (.announced ann.language ann.fellBack)
      else some (.gather row ann))
  | .gather _ ann =>
    (c, carrier, afterDelivery (
      if env.gathered then .awaitingConsent ann.language ann.fellBack
      else .notAnnounced "gather_failed"))
  | .reload => (c, carrier, some (.startCapture (c.load env.refused)))
  | .startCapture row =>
    if refusesToRecord row then (c, carrier, none)
    else if row.wantsRecording then
      (c, carrier || env.recorded, some (.markRecording row env.recorded))
    -- nothing is awaited before the transcription is permitted
    else if row.wantsTranscription then (c.markTranscription env.now, carrier, none)
    else (c, carrier, none)
  | .markRecording row started =>
    (c.markRecording started env.now, carrier,
      if row.wantsTranscription then some .markTranscription else none)
  | .markTranscription => (c.markTranscription env.now, carrier, none)
  | .stopWantingCapture settle =>
    (c.stopWantingCapture, carrier, if settle then some .settleGate else none)
  | .settleGate => (c.settleGate, carrier, none)
  | .timeOut leg => (c, carrier, some (.resolve (c.load env.refused) .timeout leg))
  | .resolve row status leg =>
    if c.consentStatus = .pending then
      (c.resolveConsent status env.now, carrier,
        if leg.isSome then some (act (after status row.refused) row) else none)
    -- someone else resolved it between the read and the write
    else (c, carrier, none)
  | .hangup => (c, carrier, none)

end Tasks

/-- A step on the call. -/
inductive ConsentAction where
  /-- The answer of the call starts the disclosure step. -/
  | announceOnAnswer (refused : RefusedAction)
  /-- A key is pressed. -/
  | onDtmf (refused : RefusedAction) (leg : LegId) (digit : Char)
  /-- The sweep selects the call. -/
  | selectOverdue (now grace : Int)
  /-- A webhook is applied to the row. -/
  | receive (event : ProviderEvent)
  /-- A task takes its next step. -/
  | run (task : ConsentTask) (env : CarrierEnv)
  /-- A task ends early: an SQL error, or the process died. -/
  | abandon (task : ConsentTask)

namespace ConsentCall

variable (copy : String → String → Option String) (speaks : String → Bool)

/-- The step function; `none` where the step cannot be taken.  A carrier reports the start of
recordings it was asked for only. -/
def step (s : ConsentCall) : ConsentAction → Option ConsentCall
  | .announceOnAnswer refused =>
    some { s with tasks := .deliver (s.call.load refused) :: s.tasks }
  | .onDtmf refused leg digit =>
    let row := s.call.load refused
    if row.status ≠ .pending then some s
    else some { s with tasks := .resolve row (onDigit digit acceptDigits) (some leg) :: s.tasks }
  | .selectOverdue now grace =>
    if s.call.isGateOverdue now grace then
      some { s with tasks := .timeOut s.call.lastLeg :: s.tasks }
    else none
  | .receive event =>
    if event.kind = .recordingStarted ∧ s.carrierRecording = false then none
    else some { s with call := s.call.receive event }
  | .run task env =>
    if task ∈ s.tasks then
      let (call, carrier, rest) := runConsentTask copy speaks s.call s.carrierRecording env task
      some ⟨call, carrier, rest.toList ++ s.tasks.erase task⟩
    else none
  | .abandon task => some { s with tasks := s.tasks.erase task }

/-- The transition relation. -/
abbrev Step : ConsentCall → ConsentAction → ConsentCall → Prop := ofPartial (step copy speaks)

end ConsentCall

/-! ## The rule -/

/-- Capture is permitted: the disclosure is on the record and, where the plan asks, consent is
granted. -/
def Permitted (asks : Bool) (c : CallRow) : Prop :=
  c.disclosurePlayedAt.isSome = true ∧ (asks = true → c.consentStatus = .granted)

/-- **The one rule**: nothing is captured unless it is permitted. -/
def ConsentCall.Lawful (asks : Bool) (s : ConsentCall) : Prop :=
  s.carrierRecording = true ∨ s.call.captureStarted = true → Permitted asks s.call

/-- The step does not permit a transcription, of a call that records nothing, before the
recipient was told. -/
def ConsentCall.safe (s : ConsentCall) : ConsentAction → Bool
  | .run (.startCapture row) _ =>
    row.wantsRecording || !row.wantsTranscription || s.call.disclosurePlayedAt.isSome
  | _ => true

/-! ## How a row may change -/

/-- Something is wanted and not yet under way. -/
def CallRow.wants (c : CallRow) : Bool :=
  c.recordingStatus = .pending || c.transcriptionStatus = .live

lemma CallRow.wants_iff (c : CallRow) :
    c.wants = true ↔ c.recordingStatus = .pending ∨ c.transcriptionStatus = .live := by
  simp [wants]

/-- What no step on a call undoes. -/
structure Progress (c c' : CallRow) : Prop where
  policy : c'.consentPolicy = c.consentPolicy
  disclosed : c.disclosurePlayedAt.isSome = true → c'.disclosurePlayedAt.isSome = true
  granted : c.consentStatus = .granted → c'.consentStatus = .granted
  wants : c'.wants = true → c.wants = true

lemma Progress.refl (c : CallRow) : Progress c c := ⟨rfl, id, id, id⟩

lemma Permitted.progress {asks : Bool} {c c' : CallRow} (h : Permitted asks c)
    (hp : Progress c c') : Permitted asks c' :=
  ⟨hp.disclosed h.1, fun hasks => hp.granted (h.2 hasks)⟩

section Writers

variable (c : CallRow) (now : Timestamp)

lemma progress_stampDisclosure (language : String) : Progress c (c.stampDisclosure now language) where
  policy := rfl
  disclosed := by
    intro h
    simp [CallRow.stampDisclosure]
  granted := id
  wants := id

lemma isSome_stampDisclosure (language : String) :
    (c.stampDisclosure now language).disclosurePlayedAt.isSome = true := by
  simp [CallRow.stampDisclosure]

lemma progress_stopWantingCapture : Progress c c.stopWantingCapture where
  policy := rfl
  disclosed := id
  granted := id
  wants := by
    intro h
    simp only [CallRow.wants, CallRow.stopWantingCapture] at h ⊢
    split_ifs at h <;> simp_all

lemma progress_settleGate : Progress c c.settleGate := by
  rw [CallRow.settleGate]
  split_ifs with h
  · refine ⟨rfl, id, fun hg => ?_, id⟩
    rw [h] at hg
    cases hg
  · exact .refl c

lemma progress_resolveConsent (status : ConsentStatus) :
    Progress c (c.resolveConsent status now) := by
  rw [CallRow.resolveConsent]
  split_ifs with h
  · refine ⟨rfl, id, fun hg => ?_, id⟩
    rw [h] at hg
    cases hg
  · exact .refl c

lemma progress_markRecording (started : Bool) : Progress c (c.markRecording started now) := by
  have hlive : ∀ status : RecordingStatus, status ≠ .pending →
      CallRow.wants { c with recordingStatus := status } = true → c.wants = true := by
    intro status hne h
    exact (CallRow.wants_iff c).mpr (.inr (((CallRow.wants_iff _).mp h).resolve_left hne))
  rw [CallRow.markRecording]
  split_ifs
  · exact ⟨rfl, id, id, hlive .recording (by decide)⟩
  · exact ⟨rfl, id, id, hlive .failed (by decide)⟩

lemma progress_markTranscription : Progress c (c.markTranscription now) := ⟨rfl, id, id, id⟩

lemma captureStarted_stopWantingCapture :
    c.stopWantingCapture.captureStarted = true → c.captureStarted = true := by
  intro h
  simp only [CallRow.captureStarted, CallRow.stopWantingCapture] at h ⊢
  split_ifs at h <;> simp_all

lemma captureStarted_settleGate : c.settleGate.captureStarted = c.captureStarted := by
  rw [CallRow.settleGate]
  split_ifs <;> rfl

lemma captureStarted_resolveConsent (status : ConsentStatus) :
    (c.resolveConsent status now).captureStarted = c.captureStarted := by
  rw [CallRow.resolveConsent]
  split_ifs <;> rfl

/-- A webhook moves the consent columns as its side effect does. -/
lemma receive_consent (event : ProviderEvent) (refused : RefusedAction) :
    (c.receive event).load refused = (c.noteEvent event).load refused ∧
      (c.receive event).captureStarted = (c.noteEvent event).captureStarted := by
  rw [CallRow.receive]
  split
  · exact ⟨rfl, rfl⟩
  · dsimp only
    split_ifs <;> exact ⟨rfl, rfl⟩

end Writers

/-- A webhook starts no capture but the one the carrier reports. -/
lemma progress_receive (c : CallRow) (event : ProviderEvent) :
    Progress c (c.receive event) ∧
      ((c.receive event).captureStarted = true →
        c.captureStarted = true ∨ event.kind = .recordingStarted) := by
  obtain ⟨hload, hstarted⟩ := receive_consent c event .continueUnrecorded
  have hpolicy := congrArg ConsentRow.policy hload
  have hstatus := congrArg ConsentRow.status hload
  have hdisclosed := congrArg ConsentRow.disclosurePlayedAt hload
  have hrec := congrArg ConsentRow.wantsRecording hload
  have htrans := congrArg ConsentRow.wantsTranscription hload
  dsimp only [CallRow.load] at hpolicy hstatus hdisclosed hrec htrans
  have hwants : (c.receive event).wants = (c.noteEvent event).wants := by
    rw [CallRow.wants, CallRow.wants, hrec, htrans]
  suffices Progress c (c.noteEvent event) ∧ ((c.noteEvent event).captureStarted = true →
      c.captureStarted = true ∨ event.kind = .recordingStarted) by
    obtain ⟨h, hs⟩ := this
    refine ⟨⟨hpolicy.trans h.policy, fun hd => ?_, fun hg => hstatus.trans (h.granted hg),
      fun hw => h.wants (hwants ▸ hw)⟩, fun hcap => hs (hstarted ▸ hcap)⟩
    rw [hdisclosed]
    exact h.disclosed hd
  have hquiet : ∀ c' : CallRow, c'.transcriptionStatus = c.transcriptionStatus →
      c'.recordingStatus ≠ .pending → c'.wants = true → c.wants = true := by
    intro c' htrans hne h
    have hlive := ((CallRow.wants_iff c').mp h).resolve_left hne
    exact (CallRow.wants_iff c).mpr (.inr (htrans ▸ hlive))
  rw [CallRow.noteEvent]
  split
  · next hk =>
    exact ⟨⟨rfl, id, id, hquiet _ rfl (by simp)⟩, fun _ => .inr hk⟩
  · refine ⟨⟨rfl, id, id, hquiet _ rfl (by simp)⟩, fun h => .inl ?_⟩
    simp only [CallRow.captureStarted, Bool.or_eq_true, decide_eq_true_eq, reduceCtorEq,
      false_or] at h ⊢
    rw [or_assoc]
    exact .inr h
  · exact ⟨.refl c, .inl⟩

/-! ## What a task may rely on -/

/-- What a task was started for still holds of the row, whatever happened since. -/
def Justified (asks : Bool) (c : CallRow) : ConsentTask → Prop
  -- the plan that was read has a gate as long as there is something to gate
  | .deliver row | .stamp row _ | .gather row _ =>
    asks = true → c.wants = true → row.plan.gate.isSome = true
  | .reload => c.disclosurePlayedAt.isSome = true ∧ (asks = true → c.wants = false)
  | .startCapture row =>
    (row.disclosurePlayedAt.isSome = true → c.disclosurePlayedAt.isSome = true) ∧
      (asks = true → row.wants = true → c.consentStatus = .granted) ∧
      (row.disclosurePlayedAt = none → row.status = .pending)
  | .markRecording _ _ | .markTranscription => Permitted asks c
  | .resolve row status _ =>
    (row.disclosurePlayedAt.isSome = true → c.disclosurePlayedAt.isSome = true) ∧
      (status = .granted → row.status = .pending) ∧ status ≠ .notRequired
  | .stopWantingCapture _ | .settleGate | .timeOut _ | .hangup => True

lemma Justified.progress {asks : Bool} {c c' : CallRow} {task : ConsentTask}
    (h : Justified asks c task) (hp : Progress c c') : Justified asks c' task := by
  cases task with
  | deliver row | stamp row ann | gather row ann => exact fun hasks hw => h hasks (hp.wants hw)
  | reload =>
    refine ⟨hp.disclosed h.1, fun hasks => ?_⟩
    by_contra hw
    have := hp.wants (by simpa using hw)
    rw [h.2 hasks] at this
    cases this
  | startCapture row =>
    exact ⟨fun hd => hp.disclosed (h.1 hd), fun hasks hw => hp.granted (h.2.1 hasks hw), h.2.2⟩
  | markRecording row started => exact Permitted.progress h hp
  | markTranscription => exact Permitted.progress h hp
  | resolve row status leg => exact ⟨fun hd => hp.disclosed (h.1 hd), h.2⟩
  | stopWantingCapture | settleGate | timeOut | hangup => trivial

/-- The invariant: the policy of the call can ask if its plan does, the one rule holds, and
every task may still rely on what it was started for. -/
structure ConsentCall.Sound (asks : Bool) (s : ConsentCall) : Prop where
  policy : asks = true → s.call.consentPolicy = .pressKey ∨ s.call.consentPolicy = .verbal
  lawful : s.Lawful asks
  tasks : ∀ task ∈ s.tasks, Justified asks s.call task

/-! ## One step -/

/-- What one step of a task must do: undo nothing, capture nothing that is not permitted, and
leave a task that may rely on what it was started for. -/
def Advances (asks : Bool) (c : CallRow) (r : CallRow × Bool × Option ConsentTask) : Prop :=
  Progress c r.1 ∧ (r.2.1 = true ∨ r.1.captureStarted = true → Permitted asks r.1) ∧
    ∀ next ∈ r.2.2, Justified asks r.1 next

section Step

variable {asks : Bool} {c : CallRow} {carrier : Bool}

/-- Nothing was written. -/
lemma Advances.still (hlaw : carrier = true ∨ c.captureStarted = true → Permitted asks c)
    {rest : Option ConsentTask} (h : ∀ next ∈ rest, Justified asks c next) :
    Advances asks c (c, carrier, rest) :=
  ⟨.refl c, hlaw, h⟩

/-- A write that starts no capture. -/
lemma Advances.quiet (hlaw : carrier = true ∨ c.captureStarted = true → Permitted asks c)
    {c' : CallRow} (hp : Progress c c') (hs : c'.captureStarted = true → c.captureStarted = true)
    {rest : Option ConsentTask} (h : ∀ next ∈ rest, Justified asks c' next) :
    Advances asks c (c', carrier, rest) :=
  ⟨hp, fun hcap => (hlaw (hcap.imp_right hs)).progress hp, h⟩

/-- A write under a permission. -/
lemma Advances.permitted {carrier' : Bool} (hperm : Permitted asks c) {c' : CallRow}
    (hp : Progress c c') {rest : Option ConsentTask} (h : ∀ next ∈ rest, Justified asks c' next) :
    Advances asks c (c', carrier', rest) :=
  ⟨hp, fun _ => hperm.progress hp, h⟩

/-- A failed announcement captures nothing. -/
lemma justified_notAnnounced (reason : String) :
    ∀ next ∈ afterDelivery (.notAnnounced reason), Justified asks c next := by
  rintro next ⟨⟩
  trivial

/-- After the announcement of a plan without a gate, nothing that needs an answer is wanted. -/
lemma justified_stamped {row : ConsentRow} {now : Timestamp} {ann : Announcement}
    (hj : Justified asks c (.stamp row ann)) :
    ∀ next ∈ (if row.plan.gate.isNone then afterDelivery (.announced ann.language ann.fellBack)
      else some (.gather row ann)),
    Justified asks (c.stampDisclosure now ann.language) next := by
  intro next hnext
  split_ifs at hnext with hgate
  · cases hnext
    refine ⟨isSome_stampDisclosure c now ann.language, fun hasks => ?_⟩
    by_contra hw
    have hwants := (progress_stampDisclosure c now ann.language).wants (by simpa using hw)
    have hsome := hj hasks hwants
    rw [Option.isNone_iff_eq_none.mp hgate] at hsome
    cases hsome
  · cases hnext
    exact hj.progress (progress_stampDisclosure c now ann.language)

/-- A row that was just read starts what it may start. -/
lemma justified_load (refused : RefusedAction) (hd : c.disclosurePlayedAt.isSome = true)
    (hw : asks = true → c.wants = false) : Justified asks c (.startCapture (c.load refused)) := by
  refine ⟨fun _ => hd, fun hasks hwants => ?_, fun hnone => ?_⟩
  · have : c.wants = true := hwants
    rw [hw hasks] at this
    cases this
  · change c.disclosurePlayedAt = none at hnone
    rw [hnone] at hd
    cases hd

/-- What follows the resolution of the gate relies on the status it wrote. -/
lemma justified_act {row : ConsentRow} {status : ConsentStatus} {leg : Option LegId}
    {now : Timestamp} (hj : Justified asks c (.resolve row status leg))
    (hpending : c.consentStatus = .pending) :
    Justified asks (c.resolveConsent status now) (act (after status row.refused) row) := by
  cases haction : after status row.refused with
  | startCapture =>
    have hpermits := (after_eq_startCapture status row.refused).mp haction
    have hgranted : status = .granted := by
      cases status with
      | granted => rfl
      | notRequired => exact absurd rfl hj.2.2
      | pending | denied | timeout => cases hpermits
    have hwritten : (c.resolveConsent status now).consentStatus = .granted := by
      rw [CallRow.resolveConsent, if_pos hpending]
      exact hgranted
    refine ⟨fun hd => ?_, fun _ _ => hwritten, fun _ => hj.2.1 hgranted⟩
    exact (progress_resolveConsent c now status).disclosed (hj.1 hd)
  | continueWithoutCapture => trivial
  | endCall => trivial

variable (copy : String → String → Option String) (speaks : String → Bool)

/-- `start_capture` captures under a permission, unless it permits a transcription before the
recipient was told. -/
lemma startCapture_advances (env : CarrierEnv) {row : ConsentRow}
    (hlaw : carrier = true ∨ c.captureStarted = true → Permitted asks c)
    (hj : Justified asks c (.startCapture row))
    (hsafe : row.wantsRecording = false → row.wantsTranscription = true →
      c.disclosurePlayedAt.isSome = true) :
    Advances asks c (runConsentTask copy speaks c carrier env (.startCapture row)) := by
  obtain ⟨hdisclosed, hgranted, hpending⟩ := hj
  have hperm : c.disclosurePlayedAt.isSome = true → row.wants = true → Permitted asks c :=
    fun hd hw => ⟨hd, fun hasks => hgranted hasks hw⟩
  dsimp only [runConsentTask]
  split_ifs with hrefuse hrec htrans
  · exact .still hlaw (by simp)
  · -- recording passes the refusal only with a disclosure on the row that was read
    have hsome : row.disclosurePlayedAt.isSome = true := by
      by_contra hnone
      have hnone' : row.disclosurePlayedAt = none := by simpa using hnone
      apply hrefuse
      rw [refusesToRecord, hrec, hpending hnone', hnone']
      rfl
    have hp := hperm (hdisclosed hsome) (by simp [ConsentRow.wants, hrec])
    refine .permitted hp (.refl c) fun next hnext => ?_
    cases hnext
    exact hp
  · have hp := hperm (hsafe (by simpa using hrec) htrans) (by simp [ConsentRow.wants, htrans])
    exact .permitted hp (progress_markTranscription c env.now) (by simp)
  · exact .still hlaw (by simp)

/-- **What one step of a task does.** -/
theorem runConsentTask_advances (env : CarrierEnv) (task : ConsentTask)
    (hlaw : carrier = true ∨ c.captureStarted = true → Permitted asks c)
    (hj : Justified asks c task)
    (hsafe : ∀ row, task = .startCapture row → row.wantsRecording = false →
      row.wantsTranscription = true → c.disclosurePlayedAt.isSome = true) :
    Advances asks c (runConsentTask copy speaks c carrier env task) := by
  cases task with
  | deliver row =>
    have hann : (announcement copy speaks row.plan row.refused).isSome = true := by
      rw [announcement_isSome]
      exact row.plan_body_isSome
    obtain ⟨ann, hann⟩ := Option.isSome_iff_exists.mp hann
    simp only [runConsentTask, hann]
    split_ifs
    · exact .still hlaw (justified_notAnnounced _)
    · exact .still hlaw (justified_notAnnounced _)
    · refine .still hlaw fun next hnext => ?_
      cases hnext
      exact hj
  | stamp row ann =>
    exact .quiet hlaw (progress_stampDisclosure c env.now ann.language) id (justified_stamped hj)
  | gather row ann =>
    refine .still hlaw fun next hnext => ?_
    split_ifs at hnext
    · cases hnext
    · exact justified_notAnnounced _ next hnext
  | reload =>
    refine .still hlaw fun next hnext => ?_
    cases hnext
    exact justified_load env.refused hj.1 hj.2
  | startCapture row =>
    exact startCapture_advances copy speaks env hlaw hj (hsafe row rfl)
  | markRecording row started =>
    have hp := progress_markRecording c env.now started
    refine .permitted hj hp fun next hnext => ?_
    split_ifs at hnext
    · cases hnext
      exact Permitted.progress hj hp
    · cases hnext
  | markTranscription =>
    exact .permitted hj (progress_markTranscription c env.now) (by simp)
  | stopWantingCapture settle =>
    refine .quiet hlaw (progress_stopWantingCapture c) (captureStarted_stopWantingCapture c) ?_
    intro next hnext
    split_ifs at hnext
    · cases hnext
      trivial
    · cases hnext
  | settleGate =>
    refine .quiet hlaw (progress_settleGate c) (fun h => ?_) (by simp)
    rwa [captureStarted_settleGate] at h
  | timeOut leg =>
    refine .still hlaw fun next hnext => ?_
    cases hnext
    exact ⟨id, by simp, by simp⟩
  | resolve row status leg =>
    dsimp only [runConsentTask]
    split_ifs with hpending hleg
    · refine .quiet hlaw (progress_resolveConsent c env.now status) (fun h => ?_) ?_
      · rwa [captureStarted_resolveConsent] at h
      · intro next hnext
        cases hnext
        exact justified_act hj hpending
    · refine .quiet hlaw (progress_resolveConsent c env.now status) (fun h => ?_) (by simp)
      rwa [captureStarted_resolveConsent] at h
    · exact .still hlaw (by simp)
  | hangup => exact .still hlaw (by simp)

end Step

/-! ## Runs -/

namespace ConsentCall

variable {copy : String → String → Option String} {speaks : String → Bool} {asks : Bool}

/-- New tasks join those that were justified already. -/
lemma Sound.addTask {s : ConsentCall} (h : s.Sound asks) {task : ConsentTask}
    (hj : Justified asks s.call task) : Sound asks { s with tasks := task :: s.tasks } where
  policy := h.policy
  lawful := h.lawful
  tasks := List.forall_mem_cons.mpr ⟨hj, h.tasks⟩

/-- **A safe step keeps the invariant.** -/
theorem Sound.step {s t : ConsentCall} {a : ConsentAction} (h : s.Sound asks)
    (hsafe : s.safe a = true) (hstep : s.step copy speaks a = some t) : t.Sound asks := by
  unfold ConsentCall.step at hstep
  cases a with
  | announceOnAnswer refused =>
    cases hstep
    refine h.addTask fun hasks hw => ?_
    exact (ConsentRow.plan_gate_isSome _).mpr ⟨hw, h.policy hasks⟩
  | onDtmf refused leg digit =>
    dsimp only at hstep
    split_ifs at hstep with hpending
    · cases hstep
      exact h
    · cases hstep
      refine h.addTask ⟨id, fun _ => by simpa using hpending, ?_⟩
      unfold onDigit
      split_ifs <;> decide
  | selectOverdue now grace =>
    dsimp only at hstep
    split_ifs at hstep
    cases hstep
    exact h.addTask trivial
  | receive event =>
    dsimp only at hstep
    split_ifs at hstep with hreport
    cases hstep
    obtain ⟨hp, hstarted⟩ := progress_receive s.call event
    refine ⟨fun hasks => ?_, fun hcap => ?_, fun task htask => (h.tasks task htask).progress hp⟩
    · rw [hp.policy]
      exact h.policy hasks
    · -- the carrier reports only what it was asked for
      have hcap' : s.carrierRecording = true ∨ s.call.captureStarted = true := by
        rcases hcap with hcap | hcap
        · exact .inl hcap
        · rcases hstarted hcap with hold | hk
          · exact .inr hold
          · exact .inl (by simpa [hk] using hreport)
      exact (h.lawful hcap').progress hp
  | run task env =>
    dsimp only at hstep
    split_ifs at hstep with hmem
    cases hstep
    have hadv := runConsentTask_advances copy speaks env task h.lawful (h.tasks task hmem) (by
      rintro row rfl hrec htrans
      simpa [ConsentCall.safe, hrec, htrans] using hsafe)
    obtain ⟨hp, hlaw, hnext⟩ := hadv
    refine ⟨fun hasks => ?_, hlaw, fun next hmem' => ?_⟩
    · rw [hp.policy]
      exact h.policy hasks
    · rcases List.mem_append.mp hmem' with hnew | hold
      · exact hnext next (Option.mem_toList.mp hnew)
      · exact (h.tasks next (List.mem_of_mem_erase hold)).progress hp
  | abandon task =>
    cases hstep
    exact ⟨h.policy, h.lawful, fun next hmem => h.tasks next (List.mem_of_mem_erase hmem)⟩

/-- **A step that is not safe breaks the rule.** -/
theorem not_lawful_of_not_safe {s t : ConsentCall} {a : ConsentAction} (hbroken : s.safe a = false)
    (hstep : s.step copy speaks a = some t) : ¬ t.Lawful asks := by
  cases a with
  | run task env =>
    cases task with
    | startCapture row =>
      simp only [safe, Bool.or_eq_false_iff, Bool.not_eq_false', Option.isSome_eq_false_iff,
        Option.isNone_iff_eq_none] at hbroken
      obtain ⟨⟨hrec, htrans⟩, hnone⟩ := hbroken
      have hrun : runConsentTask copy speaks s.call s.carrierRecording env (.startCapture row) =
          (s.call.markTranscription env.now, s.carrierRecording, none) := by
        simp [runConsentTask, refusesToRecord, hrec, htrans]
      simp only [step, hrun] at hstep
      split_ifs at hstep
      cases hstep
      intro hlaw
      have hplayed := (hlaw (.inr (by simp [CallRow.captureStarted, CallRow.markTranscription]))).1
      change s.call.disclosurePlayedAt.isSome = true at hplayed
      rw [hnone] at hplayed
      cases hplayed
    | _ => cases hbroken
  | _ => cases hbroken

/-- A call on which nothing has been captured and no task is under way. -/
def idle (c : CallRow) : ConsentCall := ⟨c, false, []⟩

/-- Whether the plan of a call asks for an answer. -/
def asksConsent (c : CallRow) : Bool := (c.load .continueUnrecorded).plan.gate.isSome

lemma idle_sound {c : CallRow} (h : c.captureStarted = false) : (idle c).Sound (asksConsent c) where
  policy := fun hasks => ((ConsentRow.plan_gate_isSome _).mp hasks).2
  lawful := by
    rintro (hcap | hcap)
    · cases hcap
    · rw [show (idle c).call = c from rfl, h] at hcap
      cases hcap
  tasks := by simp [idle]

/-- **Nothing is captured before it is permitted, exactly when no transcription is.**  On any
run of a call on which nothing was captured, capture is started only after the disclosure is
on the record and, where the plan asks, after consent was granted, in every state the run
passes through, exactly when no step permits a transcription, of a call that records nothing,
while no disclosure is on the record. -/
theorem lawful_iff_safe {c : CallRow} {as : List ConsentAction} {t : ConsentCall}
    (hidle : c.captureStarted = false) (hrun : Run (Step copy speaks) (idle c) as t) :
    (∀ pre u, pre <+: as → Run (Step copy speaks) (idle c) pre u → u.Lawful (asksConsent c)) ↔
      Run (Guarded (Step copy speaks) fun s a => s.safe a = true) (idle c) as t := by
  refine (Run.guarded_iff_prefixes (I := fun s => s.Sound (asksConsent c)) ?_ ?_ ?_ hrun
    (idle_sound hidle)).symm
  · exact fun s a t hs hsafe hstep => hs.step hsafe hstep
  · exact fun s hs => hs.lawful
  · exact fun s a t _ hbroken hstep => not_lawful_of_not_safe hbroken hstep

/-- A call of an organisation that asks for a key before it keeps a transcript. -/
def transcribedCall : CallRow :=
  { VoipDb.dialedCall with
    status := .answered
    transcriptionStatus := .live
    consentPolicy := .pressKey
    consentStatus := .pending }

/-- Everything the carrier is asked for works. -/
def willingCarrier : CarrierEnv := ⟨1000000, .continueUnrecorded, true, true, true, true⟩

/-- The recipient of that call has heard the announcement and is waited for. -/
def toldCall : CallRow := transcribedCall.stampDisclosure 500000 "en"

/-- A key is pressed, and the transcription is permitted at once. -/
def pressKey (c : CallRow) : List ConsentAction :=
  let row := c.load .continueUnrecorded
  [.onDtmf .continueUnrecorded "leg" '1', .run (.resolve row .granted (some "leg")) willingCarrier,
    .run (.startCapture row) willingCarrier]

/-- No sentence has been reviewed. -/
abbrev noCopy : String → String → Option String := fun _ _ => none

/-- The rule on a key that is pressed after the announcement. -/
theorem lawful_pressKey :
    ∃ t, Run (Step noCopy fun _ => true) (idle toldCall) (pressKey toldCall) t ∧
      ∀ pre u, pre <+: pressKey toldCall →
        Run (Step noCopy fun _ => true) (idle toldCall) pre u → u.Lawful (asksConsent toldCall) := by
  obtain ⟨t, hrun⟩ : ∃ t, Run (Guarded (Step noCopy fun _ => true) fun s a => s.safe a = true)
      (idle toldCall) (pressKey toldCall) t := Run.exists_guarded_of_isSome (by decide +kernel)
  exact ⟨t, hrun.ofGuarded, (lawful_iff_safe (by decide) hrun.ofGuarded).mpr hrun⟩

/-- The key is pressed while the announcement is still being spoken: the transcript starts, and
the recipient was never told. -/
theorem pressed_over_announcement :
    asksConsent transcribedCall = true ∧
    ((ConsentAction.announceOnAnswer .continueUnrecorded :: pressKey transcribedCall).foldlM
      (step noCopy fun _ => true) (idle transcribedCall)).map
      (fun s => (s.call.disclosurePlayedAt, s.call.transcriptionStartedAt)) =
        some (none, some 1000000) :=
  ⟨by decide +kernel, by decide +kernel⟩

end ConsentCall

end VoxTranslate.Voip
