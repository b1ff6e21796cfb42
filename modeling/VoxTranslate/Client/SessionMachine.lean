import Mathlib.Tactic.Common

/-!
# The state of a Talk to Anyone session

A pure reducer over two axes: the phase, which owns the microphone, the socket and the billing,
and what the current utterance is doing, which means something only while the session is live.
An event that is not legal is ignored and reported.
-/

namespace VoxTranslate.Client

/-- Session lifecycle. -/
inductive Phase where
  | idle
  | requestingMic
  | connecting
  | live
  | reconnecting
  | paused
  | stopping
  | ended
  | error
  deriving DecidableEq, Repr

/-- What the current utterance is doing. -/
inductive Activity where
  | listening
  | detecting
  | translating
  | speaking
  deriving DecidableEq, Repr

/-- Why a session failed. -/
inductive FailureKind where
  | micDenied
  | micBlocked
  | micMissing
  | unsupported
  | connection
  | credits
  | provider
  | unknown
  deriving DecidableEq, Repr

inductive SessionEvent where
  | startRequested
  | micGranted
  | micDenied (kind : FailureKind)
  | socketOpen
  | socketClosed (recoverable : Bool)
  | reconnectSucceeded
  | reconnectExhausted
  | speechDetected
  | directionResolved
  | playbackStarted
  | playbackStopped
  | utteranceEnded
  | pauseRequested
  | resumeRequested
  | creditsExhausted
  | stopRequested
  | teardownComplete
  | fatal (kind : FailureKind)
  deriving DecidableEq, Repr

structure SessionContext where
  phase : Phase
  activity : Activity
  sessionId : Option String
  failure : Option FailureKind
  deriving DecidableEq, Repr

def initialContext : SessionContext := ⟨.idle, .listening, none, none⟩

/-- Phases in which a microphone, a socket or a wake lock are held. -/
def Phase.holds : Phase → Bool
  | .requestingMic | .connecting | .live | .reconnecting | .paused | .stopping => true
  | .idle | .ended | .error => false

/-- True when something is held and needs releasing. -/
def holdsResources (ctx : SessionContext) : Bool := ctx.phase.holds

/-- True when microphone frames may be sent. -/
def isCapturing (ctx : SessionContext) : Bool := ctx.phase = .live

/-- Apply one event; the context after it, or `none` where it is ignored.  `newSessionId` is only
consulted for a start. -/
def transition (ctx : SessionContext) (event : SessionEvent) (newSessionId : Option String) :
    Option SessionContext :=
  match event with
  | .fatal kind =>
    some { phase := .error, sessionId := none, failure := some kind, activity := .listening }
  | .stopRequested =>
    if holdsResources ctx then some { ctx with phase := .stopping, activity := .listening }
    else some { ctx with phase := .ended, sessionId := none, activity := .listening }
  | event =>
    match ctx.phase, event with
    | .idle, .startRequested | .ended, .startRequested | .error, .startRequested =>
      some { phase := .requestingMic, sessionId := newSessionId, failure := none,
             activity := .listening }
    | .requestingMic, .micGranted => some { ctx with phase := .connecting }
    | .requestingMic, .micDenied kind =>
      some { ctx with phase := .error, sessionId := none, failure := some kind }
    | .connecting, .socketOpen => some { ctx with phase := .live, activity := .listening }
    | .connecting, .socketClosed recoverable =>
      if recoverable then some { ctx with phase := .reconnecting }
      else some { ctx with phase := .error, sessionId := none, failure := some .connection }
    | .connecting, .creditsExhausted =>
      some { ctx with phase := .stopping, failure := some .credits }
    | .live, .socketClosed recoverable =>
      if recoverable then some { ctx with phase := .reconnecting, activity := .listening }
      else some { ctx with phase := .error, sessionId := none, failure := some .connection }
    | .live, .pauseRequested => some { ctx with phase := .paused, activity := .listening }
    | .live, .creditsExhausted =>
      some { ctx with phase := .stopping, failure := some .credits, activity := .listening }
    -- a later stage of the utterance is not dragged back by a stale frame
    | .live, .speechDetected =>
      if ctx.activity = .listening then some { ctx with activity := .detecting } else none
    | .live, .directionResolved =>
      if ctx.activity = .speaking then none else some { ctx with activity := .translating }
    | .live, .playbackStarted => some { ctx with activity := .speaking }
    | .live, .playbackStopped =>
      if ctx.activity = .speaking then some { ctx with activity := .listening } else none
    | .live, .utteranceEnded =>
      if ctx.activity = .speaking then none else some { ctx with activity := .listening }
    | .reconnecting, .reconnectSucceeded =>
      some { ctx with phase := .live, activity := .listening }
    | .reconnecting, .reconnectExhausted =>
      some { ctx with phase := .error, sessionId := none, failure := some .connection }
    | .reconnecting, .creditsExhausted =>
      some { ctx with phase := .stopping, failure := some .credits }
    | .reconnecting, .pauseRequested => some { ctx with phase := .paused }
    | .paused, .resumeRequested => some { ctx with phase := .live, activity := .listening }
    | .paused, .socketClosed recoverable =>
      if recoverable then none
      else some { ctx with phase := .error, sessionId := none, failure := some .connection }
    | .paused, .creditsExhausted =>
      some { ctx with phase := .stopping, failure := some .credits }
    | .stopping, .teardownComplete =>
      if ctx.failure = some .credits then some { ctx with phase := .error, sessionId := none }
      else some { ctx with phase := .ended, sessionId := none }
    | _, _ => none

/-- The context after an event, ignored or not. -/
def SessionContext.after (ctx : SessionContext) (event : SessionEvent)
    (newSessionId : Option String) : SessionContext :=
  (transition ctx event newSessionId).getD ctx

/-- The event is about the current utterance only. -/
def SessionEvent.isActivity : SessionEvent → Bool
  | .speechDetected | .directionResolved | .playbackStarted | .playbackStopped
  | .utteranceEnded => true
  | _ => false

namespace SessionContext

variable {ctx : SessionContext} {event : SessionEvent}

/-- What the current utterance does moves no phase. -/
lemma phase_after_activity (h : event.isActivity = true) :
    (ctx.after event none).phase = ctx.phase := by
  obtain ⟨phase, activity, sessionId, failure⟩ := ctx
  cases event <;> cases h <;> cases phase <;> cases activity <;> rfl

lemma phase_after_micGranted (ctx : SessionContext) : (ctx.after .micGranted none).phase =
    if ctx.phase = .requestingMic then .connecting else ctx.phase := by
  obtain ⟨phase, activity, sessionId, failure⟩ := ctx
  cases phase <;> rfl

lemma phase_after_micDenied (ctx : SessionContext) (kind : FailureKind) :
    (ctx.after (.micDenied kind) none).phase =
    if ctx.phase = .requestingMic then .error else ctx.phase := by
  obtain ⟨phase, activity, sessionId, failure⟩ := ctx
  cases phase <;> rfl

lemma phase_after_socketOpen (ctx : SessionContext) : (ctx.after .socketOpen none).phase =
    if ctx.phase = .connecting then .live else ctx.phase := by
  obtain ⟨phase, activity, sessionId, failure⟩ := ctx
  cases phase <;> rfl

/-- A drop that can be recovered from is ignored while paused. -/
lemma phase_after_drop (ctx : SessionContext) : (ctx.after (.socketClosed true) none).phase =
    if ctx.phase = .connecting ∨ ctx.phase = .live then .reconnecting else ctx.phase := by
  obtain ⟨phase, activity, sessionId, failure⟩ := ctx
  cases phase <;> rfl

lemma phase_after_reconnectSucceeded (ctx : SessionContext) : (ctx.after .reconnectSucceeded none).phase =
    if ctx.phase = .reconnecting then .live else ctx.phase := by
  obtain ⟨phase, activity, sessionId, failure⟩ := ctx
  cases phase <;> rfl

/-- The end of the retries is taken only while reconnecting. -/
lemma phase_after_reconnectExhausted (ctx : SessionContext) : (ctx.after .reconnectExhausted none).phase =
    if ctx.phase = .reconnecting then .error else ctx.phase := by
  obtain ⟨phase, activity, sessionId, failure⟩ := ctx
  cases phase <;> rfl

lemma phase_after_pause (ctx : SessionContext) : (ctx.after .pauseRequested none).phase =
    if ctx.phase = .live ∨ ctx.phase = .reconnecting then .paused else ctx.phase := by
  obtain ⟨phase, activity, sessionId, failure⟩ := ctx
  cases phase <;> rfl

lemma resume_accepted :
    (transition ctx .resumeRequested none).isSome = true ↔ ctx.phase = .paused := by
  obtain ⟨phase, activity, sessionId, failure⟩ := ctx
  constructor
  · intro h
    cases phase <;> first | rfl | cases h
  · rintro rfl
    rfl

lemma phase_after_resume (h : ctx.phase = .paused) :
    (ctx.after .resumeRequested none).phase = .live := by
  obtain ⟨phase, activity, sessionId, failure⟩ := ctx
  cases h
  rfl

/-- A start is taken where nothing is held. -/
lemma start_accepted {ctx' : SessionContext} {newId : Option String}
    (h : transition ctx .startRequested newId = some ctx') :
    ctx.phase.holds = false ∧ ctx'.phase = .requestingMic := by
  obtain ⟨phase, activity, sessionId, failure⟩ := ctx
  cases phase <;> cases h <;> exact ⟨rfl, rfl⟩

/-- A session that is stopped and torn down holds nothing. -/
lemma phase_after_end (ctx : SessionContext) :
    ((ctx.after .stopRequested none).after .teardownComplete none).phase = .ended ∨
      ((ctx.after .stopRequested none).after .teardownComplete none).phase = .error := by
  obtain ⟨phase, activity, sessionId, failure⟩ := ctx
  rcases failure with _ | kind
  · cases phase <;> exact .inl rfl
  · cases phase <;> cases kind <;> first | exact .inl rfl | exact .inr rfl

end SessionContext

end VoxTranslate.Client
