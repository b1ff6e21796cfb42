import VoxTranslate.Client.Microphone
import VoxTranslate.Client.SessionMachine
import VoxTranslate.Lib.Run

/-!
# A Talk to Anyone conversation

The conversation owns the socket, the microphone, the guard and the session state, and drives them
from user actions, answers of the browser, socket events and one reconnect timer.  Every handler
runs to its end before the next; only `start` waits, for the microphone and for the denoiser, so
several starts may be waiting at a time.  A capture that is detached is stopped for good and sends
nothing (`PcmCapture.workletReady_stop`), so only the attached one is kept.  What is shown on the
screen, the wake lock and the delay of the timer are left out.
-/

namespace VoxTranslate.Client

open Lib

/-- Attempts in a row after which the conversation gives up. -/
def reconnectMaxAttempts : Nat := 6

inductive ReadyState where
  | connecting
  | open
  | closed
  deriving DecidableEq, Repr

/-- A socket that was constructed; `handled` while its handlers are attached. -/
structure TalkSocket where
  readyState : ReadyState
  handled : Bool
  deriving DecidableEq, Repr

/-- The socket can still deliver frames. -/
def TalkSocket.delivers (s : TalkSocket) : Bool := s.handled && s.readyState ≠ .closed

/-- What a start waits for. -/
inductive PendingStart where
  | mic
  | denoiser (device : Nat)
  deriving DecidableEq, Repr

structure TalkConversation where
  needsPcm : Bool
  ctx : SessionContext
  /-- Every socket that was constructed. -/
  sockets : List TalkSocket
  /-- The one the conversation holds, by its position. -/
  socket : Option Nat
  /-- How many microphones were granted, and which were stopped. -/
  granted : Nat
  stopped : List Nat
  stream : Option MicStream
  rawStream : Option Nat
  denoiser : Option Nat
  starts : List PendingStart
  capture : Option Capture
  guard : SelfAudioGuard
  /-- The level monitors that run, and whether there is a handle to stop the last. -/
  monitors : Nat
  stopLevelMonitor : Bool
  playingListener : Bool
  reconnectTimer : Bool
  attempt : Nat
  /-- The last mute command was a mute. -/
  muted : Bool
  deriving DecidableEq, Repr

/-- What happens to work when a start goes on: the analyser of the level monitor is made, the
socket is constructed. -/
structure Boot where
  analyser : Bool
  socket : Bool
  deriving DecidableEq, Repr

/-- A frame of the server, as far as it moves the conversation. -/
inductive ServerFrame where
  | talkDirection
  | subtitleInterim
  | subtitleFinal
  | balanceExhausted
  | error (code : String)
  /-- Audio, balances, an engine change, and what is not understood. -/
  | other
  deriving DecidableEq, Repr

inductive TalkEvent where
  | start (sessionId : String)
  | micGranted (pending : Nat) (noisyEnv : Bool) (boot : Boot)
  | micDenied (pending : Nat) (kind : FailureKind)
  | denoiserReady (pending : Nat) (active : Bool) (boot : Boot)
  | pause
  | resume
  | setMuted (muted : Bool)
  | end
  | socketOpened (socket : Nat)
  | socketClosed (socket : Nat)
  | timerFired (constructs : Bool)
  | workletReady (loaded : Bool)
  | frame (socket : Nat) (frame : ServerFrame) (now : Nat)
  | playback (playing : Bool) (now : Nat)
  | level (loud : Bool) (now : Nat)
  deriving DecidableEq, Repr

namespace TalkConversation

def new (needsPcm : Bool) (mode : GuardMode) : TalkConversation where
  needsPcm
  ctx := initialContext
  sockets := []
  socket := none
  granted := 0
  stopped := []
  stream := none
  rawStream := none
  denoiser := none
  starts := []
  capture := none
  guard := .new mode
  monitors := 0
  stopLevelMonitor := false
  playingListener := false
  reconnectTimer := false
  attempt := 0
  muted := false

/-- Apply an event to the session state. -/
def dispatch (s : TalkConversation) (event : SessionEvent) : TalkConversation :=
  { s with ctx := s.ctx.after event none }

/-- The guard after a change, which it reports to the gate of the capture. -/
def setGuard (s : TalkConversation) (guard : SelfAudioGuard) : TalkConversation :=
  { s with
    guard
    capture := if guard.gated = s.guard.gated then s.capture
      else s.capture.map (Capture.setGated guard.gated) }

def setMuted (s : TalkConversation) (muted : Bool) : TalkConversation :=
  { s with muted, capture := s.capture.map (Capture.setMuted muted) }

def detachCapture (s : TalkConversation) : TalkConversation := { s with capture := none }

/-- A capture of a stream for a socket, of the kind the tier takes. -/
def newCapture (s : TalkConversation) (stream : MicStream) (sock : Nat) : Capture :=
  if s.needsPcm then .pcm (.new stream sock) else .audio ⟨stream, sock, false⟩

/-- Attach a capture to a socket, where there is a stream. -/
def attachCapture (s : TalkConversation) (sock : Nat) : TalkConversation :=
  { s with
    capture := match s.stream with
      | none => s.capture
      | some stream => some (s.newCapture stream sock).start }

def clearReconnect (s : TalkConversation) : TalkConversation := { s with reconnectTimer := false }

def scheduleReconnect (s : TalkConversation) : TalkConversation :=
  if s.ctx.phase = .stopping ∨ s.ctx.phase = .ended then s
  else if reconnectMaxAttempts ≤ s.attempt then s.dispatch .reconnectExhausted
  else { s with attempt := s.attempt + 1, reconnectTimer := true }

/-- Open a socket; a constructor that throws is treated as a drop. -/
def connect (s : TalkConversation) (constructs : Bool) : TalkConversation :=
  if constructs then
    { s with sockets := s.sockets ++ [⟨.connecting, true⟩], socket := some s.sockets.length }
  else s.scheduleReconnect

def startLevelWatch (s : TalkConversation) (analyser : Bool) : TalkConversation :=
  { s with
    monitors := if s.stream.isSome && analyser then s.monitors + 1 else s.monitors
    stopLevelMonitor := if s.stream.isSome then analyser else s.stopLevelMonitor }

def stopLevelWatch (s : TalkConversation) : TalkConversation :=
  { s with
    monitors := if s.stopLevelMonitor then s.monitors - 1 else s.monitors
    stopLevelMonitor := false }

/-- Stop the tracks of both streams, and the denoiser between them.  Stopping denoised tracks
does not release the device. -/
def releaseStream (s : TalkConversation) : TalkConversation :=
  let held := (s.stream.toList.filter fun m => !m.denoised).map MicStream.device
  { s with
    stopped := s.rawStream.toList ++ held ++ s.stopped
    stream := none, rawStream := none, denoiser := none }

/-- Stop taking events of a socket and close it. -/
def dropSocket (s : TalkConversation) : TalkConversation :=
  { s with
    socket := none
    sockets := match s.socket with
      | none => s.sockets
      | some i => s.sockets.set i ⟨.closed, false⟩ }

/-- End the conversation and release everything. -/
def «end» (s : TalkConversation) : TalkConversation :=
  let s := s.dispatch .stopRequested
  let s := s.clearReconnect.detachCapture.stopLevelWatch.releaseStream.dropSocket
  let s := { s with playingListener := false }
  let s := s.setGuard s.guard.reset
  s.dispatch .teardownComplete

def start (s : TalkConversation) (sessionId : String) : TalkConversation :=
  match transition s.ctx .startRequested (some sessionId) with
  | some ctx => { s with ctx, playingListener := true, starts := s.starts ++ [.mic] }
  | none => s

/-- The end of a start, once the stream to capture from is there. -/
def proceed (s : TalkConversation) (boot : Boot) : TalkConversation :=
  -- the user may have ended the session meanwhile
  if s.ctx.phase ≠ .requestingMic then s.releaseStream
  else ((s.dispatch .micGranted).startLevelWatch boot.analyser).connect boot.socket

/-- The microphone is granted to a start that waits for it. -/
def micGranted (s : TalkConversation) (pending : Nat) (noisyEnv : Bool) (boot : Boot) :
    TalkConversation :=
  let device := s.granted
  let s := { s with granted := s.granted + 1, rawStream := some device }
  if noisyEnv then { s with starts := s.starts.set pending (.denoiser device) }
  else
    { s with stream := some ⟨device, false⟩, starts := s.starts.eraseIdx pending }.proceed boot

def micDenied (s : TalkConversation) (pending : Nat) (kind : FailureKind) : TalkConversation :=
  { s with starts := s.starts.eraseIdx pending }.dispatch (.micDenied kind)

/-- The denoiser of a start is there; inactive, it hands the device's own stream through. -/
def denoiserReady (s : TalkConversation) (pending device : Nat) (active : Bool) (boot : Boot) :
    TalkConversation :=
  { s with
    denoiser := some device, stream := some ⟨device, active⟩
    starts := s.starts.eraseIdx pending }.proceed boot

def pause (s : TalkConversation) : TalkConversation :=
  if (transition s.ctx .pauseRequested none).isSome then
    let s := (s.dispatch .pauseRequested).setMuted true
    s.setGuard s.guard.reset
  else s

def resume (s : TalkConversation) : TalkConversation :=
  if (transition s.ctx .resumeRequested none).isSome then
    (s.dispatch .resumeRequested).setMuted false
  else s

def onopen (s : TalkConversation) (sock : Nat) : TalkConversation :=
  let s := { s with attempt := 0 }
  let s := if s.ctx.phase = .reconnecting then s.dispatch .reconnectSucceeded
    else s.dispatch .socketOpen
  s.attachCapture sock

def onclose (s : TalkConversation) (sock : Nat) : TalkConversation :=
  -- a socket that was replaced or detached
  if s.socket ≠ some sock then s
  else
    let s := { s with socket := none }.detachCapture
    (s.dispatch (.socketClosed true)).scheduleReconnect

def handleFrame (s : TalkConversation) (now : Nat) : ServerFrame → TalkConversation
  | .talkDirection => (s.setGuard (s.guard.setSpeechActive true now)).dispatch .directionResolved
  | .subtitleInterim => (s.setGuard (s.guard.setSpeechActive true now)).dispatch .speechDetected
  | .subtitleFinal => (s.setGuard (s.guard.setSpeechActive false now)).dispatch .utteranceEnded
  | .balanceExhausted => (s.dispatch .creditsExhausted).end
  | .error code =>
    if code = "invalid_token" ∨ code = "insufficient_balance" ∨ code = "banned" then
      (s.dispatch (.fatal (if code = "invalid_token" then .unknown else .credits))).end
    else s
  | .other => s

def onPlaybackChange (s : TalkConversation) (playing : Bool) (now : Nat) : TalkConversation :=
  (s.setGuard (s.guard.onPlaybackChange playing now)).dispatch
    (if playing then .playbackStarted else .playbackStopped)

/-- The socket with another state. -/
def setReady (s : TalkConversation) (i : Nat) (sock : TalkSocket) (state : ReadyState) :
    TalkConversation :=
  { s with sockets := s.sockets.set i { sock with readyState := state } }

/-- One event; `none` where it cannot happen. -/
def step (s : TalkConversation) : TalkEvent → Option TalkConversation
  | .start sessionId => some (s.start sessionId)
  | .micGranted pending noisyEnv boot =>
    if s.starts[pending]? = some .mic then some (s.micGranted pending noisyEnv boot) else none
  | .micDenied pending kind =>
    if s.starts[pending]? = some .mic then some (s.micDenied pending kind) else none
  | .denoiserReady pending active boot =>
    match s.starts[pending]? with
    | some (.denoiser device) => some (s.denoiserReady pending device active boot)
    | _ => none
  | .pause => some s.pause
  | .resume => some s.resume
  | .setMuted muted => some (s.setMuted muted)
  | .end => some s.end
  | .socketOpened i =>
    match s.sockets[i]? with
    | some ⟨.connecting, handled⟩ =>
      let s := s.setReady i ⟨.connecting, handled⟩ .open
      some (if handled then s.onopen i else s)
    | _ => none
  | .socketClosed i =>
    match s.sockets[i]? with
    | some ⟨.closed, _⟩ => none
    | some sock =>
      let s := s.setReady i sock .closed
      some (if sock.handled then s.onclose i else s)
    | none => none
  | .timerFired constructs =>
    if s.reconnectTimer then some (s.clearReconnect.connect constructs) else none
  | .workletReady loaded =>
    some { s with capture := s.capture.map (Capture.workletReady loaded) }
  | .frame i frame now =>
    if s.sockets[i]? = some ⟨.open, true⟩ then some (s.handleFrame now frame) else none
  | .playback playing now =>
    if s.playingListener then some (s.onPlaybackChange playing now) else none
  | .level loud now =>
    if 0 < s.monitors then some (s.setGuard (s.guard.onLevel loud now)) else none

/-- What an event does, and what it requires. -/
inductive Moves (s : TalkConversation) : TalkEvent → TalkConversation → Prop
  | start (sessionId : String) : Moves s (.start sessionId) (s.start sessionId)
  | micGranted (pending : Nat) (noisyEnv : Bool) (boot : Boot)
      (hpending : s.starts[pending]? = some .mic) :
      Moves s (.micGranted pending noisyEnv boot) (s.micGranted pending noisyEnv boot)
  | micDenied (pending : Nat) (kind : FailureKind) (hpending : s.starts[pending]? = some .mic) :
      Moves s (.micDenied pending kind) (s.micDenied pending kind)
  | denoiserReady (pending device : Nat) (active : Bool) (boot : Boot)
      (hpending : s.starts[pending]? = some (.denoiser device)) :
      Moves s (.denoiserReady pending active boot) (s.denoiserReady pending device active boot)
  | pause : Moves s .pause s.pause
  | resume : Moves s .resume s.resume
  | setMuted (muted : Bool) : Moves s (.setMuted muted) (s.setMuted muted)
  | «end» : Moves s .end s.end
  | socketOpened (i : Nat) (handled : Bool)
      (hk : s.sockets[i]? = some ⟨.connecting, handled⟩) :
      Moves s (.socketOpened i)
        (if handled then (s.setReady i ⟨.connecting, handled⟩ .open).onopen i
          else s.setReady i ⟨.connecting, handled⟩ .open)
  | socketClosed (i : Nat) (sock : TalkSocket) (hk : s.sockets[i]? = some sock)
      (hopen : sock.readyState ≠ .closed) :
      Moves s (.socketClosed i)
        (if sock.handled then (s.setReady i sock .closed).onclose i
          else s.setReady i sock .closed)
  | timerFired (constructs : Bool) (htimer : s.reconnectTimer = true) :
      Moves s (.timerFired constructs) (s.clearReconnect.connect constructs)
  | workletReady (loaded : Bool) :
      Moves s (.workletReady loaded)
        { s with capture := s.capture.map (Capture.workletReady loaded) }
  | frame (i : Nat) (frame : ServerFrame) (now : Nat)
      (hopen : s.sockets[i]? = some ⟨.open, true⟩) :
      Moves s (.frame i frame now) (s.handleFrame now frame)
  | playback (playing : Bool) (now : Nat) (hlistens : s.playingListener = true) :
      Moves s (.playback playing now) (s.onPlaybackChange playing now)
  | level (loud : Bool) (now : Nat) (hmonitored : 0 < s.monitors) :
      Moves s (.level loud now) (s.setGuard (s.guard.onLevel loud now))

lemma moves_of_step {s t : TalkConversation} {e : TalkEvent} (h : s.step e = some t) :
    s.Moves e t := by
  cases e with
  | start sessionId =>
    cases h
    exact .start sessionId
  | micGranted pending noisyEnv boot =>
    obtain ⟨hpending, ⟨⟩⟩ := Option.ite_none_right_eq_some.mp h
    exact .micGranted pending noisyEnv boot hpending
  | micDenied pending kind =>
    obtain ⟨hpending, ⟨⟩⟩ := Option.ite_none_right_eq_some.mp h
    exact .micDenied pending kind hpending
  | denoiserReady pending active boot =>
    rw [step] at h
    split at h
    next device hpending =>
      cases h
      exact .denoiserReady pending device active boot hpending
    next => cases h
  | pause =>
    cases h
    exact .pause
  | resume =>
    cases h
    exact .resume
  | setMuted muted =>
    cases h
    exact .setMuted muted
  | «end» =>
    cases h
    exact .end
  | socketOpened i =>
    rw [step] at h
    split at h
    next handled hk =>
      cases h
      exact .socketOpened i handled hk
    next => cases h
  | socketClosed i =>
    rw [step] at h
    split at h
    next => cases h
    next sock hne hk =>
      cases h
      refine .socketClosed i sock hk fun hclosed => ?_
      obtain ⟨state, handled⟩ := sock
      cases hclosed
      exact hne handled rfl
    next => cases h
  | timerFired constructs =>
    obtain ⟨htimer, ⟨⟩⟩ := Option.ite_none_right_eq_some.mp h
    exact .timerFired constructs htimer
  | workletReady loaded =>
    cases h
    exact .workletReady loaded
  | frame i frame now =>
    obtain ⟨hopen, ⟨⟩⟩ := Option.ite_none_right_eq_some.mp h
    exact .frame i frame now hopen
  | playback playing now =>
    obtain ⟨hlistens, ⟨⟩⟩ := Option.ite_none_right_eq_some.mp h
    exact .playback playing now hlistens
  | level loud now =>
    obtain ⟨hmonitored, ⟨⟩⟩ := Option.ite_none_right_eq_some.mp h
    exact .level loud now hmonitored

end TalkConversation

end VoxTranslate.Client
