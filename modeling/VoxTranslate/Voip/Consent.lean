import VoxTranslate.Base
import Mathlib.Tactic.SplitIfs

/-!
# The consent plan

What the person on the telephone is told and whether we wait for an answer, as a pure
function of the organisation's policy and of what is captured.  Three rules hold of every
plan, whatever the configuration: what is captured is announced, the announcement names
exactly what is captured, and a plan that waits starts in the state that permits no capture.
-/

namespace VoxTranslate.Voip

/-- How consent is obtained. -/
inductive ConsentPolicy where
  | noticeOnly
  | pressKey
  | verbal
  | disabled
  deriving DecidableEq, Repr

def ConsentPolicy.asStr : ConsentPolicy → String
  | noticeOnly => "notice_only"
  | pressKey => "press_key"
  | verbal => "verbal"
  | disabled => "disabled"

/-- Unknown values fall back to the most protective policy. -/
def ConsentPolicy.parse (raw : String) : ConsentPolicy :=
  match raw with
  | "notice_only" => noticeOnly
  | "press_key" => pressKey
  | "verbal" => verbal
  | "disabled" => disabled
  | _ => pressKey

/-- Where the consent conversation got to. -/
inductive ConsentStatus where
  | notRequired
  /-- Asked, waiting for an answer: capture must not start in this state. -/
  | pending
  | granted
  | denied
  | timeout
  deriving DecidableEq, Repr

def ConsentStatus.asStr : ConsentStatus → String
  | notRequired => "not_required"
  | pending => "pending"
  | granted => "granted"
  | denied => "denied"
  | timeout => "timeout"

/-- How a stored status is read back. -/
def parseStatus (raw : String) : ConsentStatus :=
  match raw with
  | "pending" => .pending
  | "granted" => .granted
  | "denied" => .denied
  | "timeout" => .timeout
  | _ => .notRequired

@[simp] lemma ConsentPolicy.parse_asStr (p : ConsentPolicy) : parse p.asStr = p := by
  cases p <;> rfl

/-- Whether recording and transcription may run. -/
def ConsentStatus.permitsCapture : ConsentStatus → Bool
  | notRequired | granted => true
  | pending | denied | timeout => false

/-- What the organisation wants to capture on a call. -/
structure CaptureIntent where
  recording : Bool
  transcription : Bool
  /-- Runs over the transcript, so it cannot be on without it. -/
  aiAnalysis : Bool
  deriving DecidableEq, Repr

namespace CaptureIntent

def capturesNothing (i : CaptureIntent) : Bool := !i.recording && !i.transcription

def normalised (i : CaptureIntent) : CaptureIntent :=
  { i with aiAnalysis := i.aiAnalysis && i.transcription }

@[simp] lemma capturesNothing_normalised (i : CaptureIntent) :
    i.normalised.capturesNothing = i.capturesNothing := rfl

end CaptureIntent

/-- What happens when consent is refused or times out. -/
inductive RefusedAction where
  | continueUnrecorded
  | «end»
  deriving DecidableEq, Repr

def RefusedAction.asStr : RefusedAction → String
  | continueUnrecorded => "continue_unrecorded"
  | «end» => "end"

def RefusedAction.parse (raw : String) : RefusedAction :=
  match raw with
  | "end" => «end»
  | _ => continueUnrecorded

@[simp] lemma RefusedAction.parse_asStr (a : RefusedAction) : parse a.asStr = a := by
  cases a <;> rfl

/-- Which announcement to speak, a whole sentence per case. -/
inductive AnnouncementBody where
  | translationOnly
  | transcription
  | recording
  | recordingAndTranscription
  deriving DecidableEq, Repr

def AnnouncementBody.key : AnnouncementBody → String
  | translationOnly => "translation_only"
  | transcription => "transcription"
  | recording => "recording"
  | recordingAndTranscription => "recording_and_transcription"

/-- The sentence appended when the recipient must answer. -/
inductive AnnouncementGate where
  | pressKey
  | verbal
  deriving DecidableEq, Repr

def AnnouncementGate.key : AnnouncementGate → String
  | pressKey => "gate_press_key"
  | verbal => "gate_verbal"

/-- What to play, and whether to wait for an answer. -/
structure Disclosure where
  /-- `none` when there is nothing to disclose. -/
  body : Option AnnouncementBody
  gate : Option AnnouncementGate
  /-- The recipient's language. -/
  language : String
  /-- The status written the moment the plan is made. -/
  initialStatus : ConsentStatus
  captureAfterAnnouncement : Bool
  /-- Set when the configuration was incoherent and was corrected. -/
  policyEscalated : Option String
  deriving DecidableEq, Repr

/-- A language tag, trimmed and in lower case. -/
def normaliseLanguage (s : String) : String := s.trimAscii.toString.toLower

def escalationNotice : String :=
  "consent policy was 'disabled' while recording or transcription was enabled; " ++
    "raised to 'notice_only' — capture is never silent"

/-- The policy that is honoured: capture with the consent step switched off is raised to
notice, and the override is recorded. -/
def escalate (policy : ConsentPolicy) (intent : CaptureIntent) : ConsentPolicy × Option String :=
  if policy = .disabled ∧ intent.capturesNothing = false then (.noticeOnly, some escalationNotice)
  else (policy, none)

/-- The body says what is captured; when nothing is, it speaks only of the translation, and
only where that must be disclosed. -/
def announcementBody (intent : CaptureIntent) (aiDisclosure : Bool) : Option AnnouncementBody :=
  match intent.recording, intent.transcription with
  | true, true => some .recordingAndTranscription
  | true, false => some .recording
  | false, true => some .transcription
  | false, false => if aiDisclosure then some .translationOnly else none

/-- A gate only makes sense when something is captured. -/
def gateFor (policy : ConsentPolicy) (intent : CaptureIntent) : Option AnnouncementGate :=
  if intent.capturesNothing then none
  else match policy with
    | .pressKey => some .pressKey
    | .verbal => some .verbal
    | .noticeOnly | .disabled => none

/-- Decide what the recipient hears and whether we wait for them. -/
def plan (policy : ConsentPolicy) (intent : CaptureIntent) (aiDisclosure : Bool)
    (recipientLanguage : String) : Disclosure :=
  let intent := intent.normalised
  let (policy, escalated) := escalate policy intent
  let gate := gateFor policy intent
  { body := announcementBody intent aiDisclosure
    gate
    language := normaliseLanguage recipientLanguage
    initialStatus := if gate.isSome then .pending else .notRequired
    captureAfterAnnouncement := !intent.capturesNothing && gate.isNone
    policyEscalated := escalated }

section Plan

variable (policy : ConsentPolicy) (intent : CaptureIntent) (ai : Bool) (lang : String)

/-- **What is captured is announced.** -/
theorem plan_body_isSome (h : intent.capturesNothing = false) :
    (plan policy intent ai lang).body.isSome = true := by
  obtain ⟨recording, transcription, aiAnalysis⟩ := intent
  cases recording <;> cases transcription <;> first | rfl | cases h

/-- With the AI disclosure on, something is always said. -/
theorem plan_body_isSome_of_aiDisclosure : (plan policy intent true lang).body.isSome = true := by
  obtain ⟨recording, transcription, aiAnalysis⟩ := intent
  cases recording <;> cases transcription <;> rfl

/-- A plan waits for an answer exactly when it starts out pending. -/
theorem plan_pending_iff :
    (plan policy intent ai lang).initialStatus = .pending ↔
      (plan policy intent ai lang).gate.isSome = true := by
  simp only [plan]
  split_ifs with h
  · simp [h]
  · simp [h]

/-- A gate is opened for captured calls only, and only under a policy that asks. -/
theorem plan_gate_isSome :
    (plan policy intent ai lang).gate.isSome = true ↔
      intent.capturesNothing = false ∧ (policy = .pressKey ∨ policy = .verbal) := by
  obtain ⟨recording, transcription, aiAnalysis⟩ := intent
  cases policy <;> cases recording <;> cases transcription <;>
    simp [plan, escalate, gateFor, CaptureIntent.capturesNothing, CaptureIntent.normalised]

/-- Capture follows the announcement at once exactly when something is captured and nobody
is waited for. -/
theorem plan_capture_after_announcement :
    (plan policy intent ai lang).captureAfterAnnouncement = true ↔
      intent.capturesNothing = false ∧ (plan policy intent ai lang).gate = none := by
  simp [plan]

end Plan

/-- The language spoken, the text, and whether the requested language had no copy. -/
structure Announcement where
  language : String
  text : String
  fellBack : Bool
  deriving DecidableEq, Repr

/-- `pt-BR` to `pt`. -/
def baseLanguage (language : String) : String :=
  String.ofList ((normaliseLanguage language).toList.takeWhile fun c => c != '-' && c != '_')

/-- The exact words the recipient hears, from the reviewed table `copy` of sentences by
language and key. -/
def announcement (copy : String → String → Option String) (speaks : String → Bool)
    (disclosure : Disclosure) (refused : RefusedAction) : Option Announcement := do
  let body ← disclosure.body
  let lang := baseLanguage disclosure.language
  let fellBack := !speaks lang
  let pick (key : String) := ((copy lang key).orElse fun _ => copy "en" key).getD ""
  let text := match disclosure.gate with
    | none => pick body.key
    | some gate => pick body.key ++ " " ++ pick gate.key ++ " " ++
        pick (match refused with
          | .continueUnrecorded => "refuse_continue"
          | .end => "refuse_end")
  return { language := if fellBack then "en" else lang
           text := text.trimAscii.toString
           fellBack }

/-- There is an announcement exactly when the plan has something to say. -/
lemma announcement_isSome (copy : String → String → Option String) (speaks : String → Bool)
    (d : Disclosure) (refused : RefusedAction) :
    (announcement copy speaks d refused).isSome = d.body.isSome := by
  cases h : d.body with
  | none => simp [announcement, h]
  | some body => simp [announcement, h]

/-- Only an explicit accepting digit grants. -/
def onDigit (digit : Char) (acceptDigits : String) : ConsentStatus :=
  if acceptDigits.toList.contains digit then .granted else .denied

/-- What to do once consent has resolved. -/
inductive AfterConsent where
  | startCapture
  | continueWithoutCapture
  | endCall
  deriving DecidableEq, Repr

def after (status : ConsentStatus) (refused : RefusedAction) : AfterConsent :=
  match status with
  | .granted | .notRequired => .startCapture
  -- still waiting is not permission
  | .pending => .continueWithoutCapture
  | .denied | .timeout => match refused with
    | .continueUnrecorded => .continueWithoutCapture
    | .end => .endCall

/-- Capture is started for exactly the statuses that permit it. -/
theorem after_eq_startCapture (status : ConsentStatus) (refused : RefusedAction) :
    after status refused = .startCapture ↔ status.permitsCapture = true := by
  cases status <;> cases refused <;> decide

end VoxTranslate.Voip
