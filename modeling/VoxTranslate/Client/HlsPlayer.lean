import VoxTranslate.Lib.Place
import VoxTranslate.Lib.Run

/-!
# The player of a webinar (`hls-player.ts`)

A call of the player runs to its next `await` and goes on from there when what it waits for has
come; everything else may happen in between.  A call that attaches an engine to the video waits
for the library, for the first frame and for autoplay, and what it has found out before a wait it
does not ask again after it.
-/

namespace VoxTranslate.Client

open Lib

inductive WebinarStatus where
  | scheduled
  | live
  | ended
  | cancelled
  deriving DecidableEq, Repr

inductive PlayerState where
  | waiting
  | live
  | ended
  | error
  deriving DecidableEq, Repr

inductive PlaybackFormat where
  | native
  | hlsjs
  | unsupported
  deriving DecidableEq, Repr

/-- What the player reads of a webinar. -/
structure PublicWebinar where
  status : WebinarStatus
  playbackUrl : Option String
  deriving DecidableEq, Repr

def stateFromStatus : WebinarStatus → PlayerState
  | .live => .live
  | .ended | .cancelled => .ended
  | .scheduled => .waiting

def selectFormat (canPlayType hlsjsSupported : Bool) : PlaybackFormat :=
  if hlsjsSupported then .hlsjs else if canPlayType then .native else .unsupported

def MAX_VIDEO_RETRIES : Nat := 3
def MAX_NETWORK_RETRIES : Nat := 3
def STALL_CHECKS : Nat := 1

/-- An empty URL counts as none. -/
def hasUrl (playbackUrl : Option String) : Bool := playbackUrl.any fun url => url ≠ ""

def shouldRetryForVideo (videoWidth retries : Nat) : Bool :=
  videoWidth = 0 && retries < MAX_VIDEO_RETRIES

/-- Who waits for an attach: the first status, a poll, or a rebuild after a poll. -/
inductive AttachCaller where
  | start
  | poll
  | rebuild
  deriving DecidableEq, Repr

/-- A call of the player, at what it waits for. -/
inductive PlayerTask where
  | fetchWebinar (caller : AttachCaller)
  /-- `attach` asks whether hls.js is supported. -/
  | hlsjsSupported (caller : AttachCaller)
  | loadHls (caller : AttachCaller)
  | waitForFirstFrame (caller : AttachCaller)
  | tryAutoplay (caller : AttachCaller)
  /-- `attach` has returned. -/
  | attachReturned (caller : AttachCaller) (ok : Bool)
  /-- `applyStatus` has returned. -/
  | statusApplied (caller : AttachCaller)
  | settled
  deriving DecidableEq, Repr

/-- An instance of hls.js that is not destroyed, with what its error handler counts. -/
structure HlsInstance where
  id : Nat
  networkRetries : Nat
  mediaErrorRecovered : Bool
  deriving DecidableEq, Repr

inductive HlsErrorType where
  | networkError
  | mediaError
  | otherError
  deriving DecidableEq, Repr

/-- What a health check reads of the video. -/
structure VideoReading where
  currentTime : Nat
  paused : Bool
  videoWidth : Nat

structure HlsPlayer where
  state : PlayerState
  playbackUrl : Option String
  attached : Bool
  hls : Option Nat
  polling : Bool
  destroyed : Bool
  videoRetries : Nat
  manifestHasVideo : Option Bool
  lastCurrentTime : Option Nat
  stalledChecks : Nat
  tasks : List PlayerTask
  /-- The instances of hls.js that are not destroyed; each was attached to the video. -/
  instances : List HlsInstance
  made : Nat
  /-- The video has the playlist for its source. -/
  src : Bool
  /-- How many listeners wait for an error of the video. -/
  listeners : Nat
  /-- The video has a frame of what is attached to it (`HAVE_CURRENT_DATA`). -/
  frame : Bool
  deriving DecidableEq, Repr

inductive PlayerEvent where
  | start
  /-- The timer of the polls. -/
  | tick
  | fetched (i : Nat) (info : Option PublicWebinar)
  | supportKnown (i : Nat) (canPlayType hlsjsSupported : Bool)
  | hlsLoaded (i : Nat) (ok : Bool)
  /-- The wait for the first frame has ended, by a frame or by its timeout. -/
  | frameAwaited (i : Nat) (videoWidth : Nat)
  | autoplayTried (i : Nat)
  /-- A call goes on after `attach` or `applyStatus`. -/
  | resume (i : Nat) (video : VideoReading)
  | decoded
  | manifestParsed (id : Nat) (hasVideo : Bool)
  | fatalError (id : Nat) (type : HlsErrorType)
  | nativeError
  | destroy

namespace HlsPlayer

def new : HlsPlayer where
  state := .waiting
  playbackUrl := none
  attached := false
  hls := none
  polling := false
  destroyed := false
  videoRetries := 0
  manifestHasVideo := none
  lastCurrentTime := none
  stalledChecks := 0
  tasks := []
  instances := []
  made := 0
  src := false
  listeners := 0
  frame := false

def setTask (s : HlsPlayer) (i : Nat) (task : PlayerTask) : HlsPlayer :=
  { s with tasks := s.tasks.set i task }

def setState (s : HlsPlayer) (state : PlayerState) : HlsPlayer := { s with state }

/-- `hls.destroy()`. -/
def destroyInstance (s : HlsPlayer) (id : Nat) : HlsPlayer :=
  { s with instances := s.instances.filter fun hls => hls.id ≠ id, hls := none, frame := false }

/-- `video.removeAttribute("src")`. -/
def removeSrc (s : HlsPlayer) : HlsPlayer := { s with src := false, frame := false }

/-- The engine is detached. -/
def detach (s : HlsPlayer) : HlsPlayer :=
  match s.hls with
  | some id => { s.destroyInstance id with attached := false }
  | none => { s.removeSrc with attached := false }

/-- `attach`, up to its first wait. -/
def attach (s : HlsPlayer) (i : Nat) (caller : AttachCaller) : HlsPlayer :=
  s.setTask i (if s.attached then .attachReturned caller true else .hlsjsSupported caller)

/-- The player goes to the state that a status means. -/
def applyState (s : HlsPlayer) (i : Nat) (caller : AttachCaller) : PlayerState → HlsPlayer
  | .live =>
    if !s.attached && hasUrl s.playbackUrl then s.attach i caller
    else (s.setState .live).setTask i (.statusApplied caller)
  | .ended =>
    ({ s with state := .ended, polling := false } : HlsPlayer).setTask i (.statusApplied caller)
  | _ => (s.setState .waiting).setTask i (.statusApplied caller)

/-- The URL that is known when an answer has come: `start` takes it as it is, and `applyStatus`
only where there is one. -/
def knownUrl (s : HlsPlayer) (caller : AttachCaller) (info : PublicWebinar) : Option String :=
  let known := if caller = .start then info.playbackUrl else s.playbackUrl
  if hasUrl info.playbackUrl then info.playbackUrl else known

/-- `applyStatus`, up to its first wait. -/
def applyStatus (s : HlsPlayer) (i : Nat) (caller : AttachCaller) (info : PublicWebinar) :
    HlsPlayer :=
  { s with playbackUrl := s.knownUrl caller info }.applyState i caller (stateFromStatus info.status)

/-- The answer to a fetch. -/
def onFetched (s : HlsPlayer) (i : Nat) (caller : AttachCaller) : Option PublicWebinar → HlsPlayer
  | some info => s.applyStatus i caller info
  | none =>
    if caller = .start then (s.setState .error).setTask i .settled
    -- the health of what is shown is checked all the same
    else s.setTask i (.statusApplied caller)

/-- The playlist becomes the source of the video, and a listener waits for an error. -/
def attachNative (s : HlsPlayer) (i : Nat) (caller : AttachCaller) : HlsPlayer :=
  ({ s with
    src := true
    listeners := s.listeners + 1
    attached := true
    frame := false } : HlsPlayer).setTask i (.waitForFirstFrame caller)

/-- A new instance of hls.js takes the video for its own. -/
def attachHls (s : HlsPlayer) (i : Nat) (caller : AttachCaller) : HlsPlayer :=
  ({ s with
    hls := some s.made
    instances := s.instances ++ [⟨s.made, 0, false⟩]
    made := s.made + 1
    src := false
    attached := true
    frame := false } : HlsPlayer).setTask i (.waitForFirstFrame caller)

/-- What `attach` does when it knows what can play. -/
def onSupport (s : HlsPlayer) (i : Nat) (caller : AttachCaller) : PlaybackFormat → HlsPlayer
  | .hlsjs => s.setTask i (.loadHls caller)
  | .native => s.attachNative i caller
  | .unsupported => (s.setState .error).setTask i (.attachReturned caller false)

/-- What `attach` does after the wait for the first frame. -/
def onFrameAwaited (s : HlsPlayer) (i : Nat) (caller : AttachCaller) (videoWidth : Nat) :
    HlsPlayer :=
  if !s.attached || s.destroyed then s.setTask i (.attachReturned caller false)
  else if !s.frame then s.detach.setTask i (.attachReturned caller false)
  else if shouldRetryForVideo videoWidth s.videoRetries then
    ({ s.detach with videoRetries := s.videoRetries + 1 } : HlsPlayer).setTask i
      (.attachReturned caller false)
  else s.setTask i (.tryAutoplay caller)

/-- What the caller does with what `attach` returns. -/
def onAttachReturned (s : HlsPlayer) (i : Nat) (caller : AttachCaller) (ok : Bool) : HlsPlayer :=
  if caller = .rebuild then
    if s.destroyed then s.setTask i .settled
    else (s.setState (if ok then .live else .waiting)).setTask i .settled
  else if ok then (s.setState .live).setTask i (.statusApplied caller)
  else s.setTask i (.statusApplied caller)

/-- What a health check counts. -/
def readHealth (s : HlsPlayer) (video : VideoReading) : HlsPlayer :=
  let progressed := s.lastCurrentTime.all fun last => last < video.currentTime
  let frozen := !progressed && !video.paused
  { s with
    lastCurrentTime := some video.currentTime
    stalledChecks := if frozen then s.stalledChecks + 1 else 0 }

/-- Playback is to be rebuilt. -/
def isStuck (s : HlsPlayer) (video : VideoReading) : Bool :=
  STALL_CHECKS ≤ s.stalledChecks || s.manifestHasVideo = some true && video.videoWidth = 0

/-- `rebuildPlayback`, up to its first wait. -/
def rebuildPlayback (s : HlsPlayer) (i : Nat) : HlsPlayer :=
  let s := { s.detach with manifestHasVideo := none, lastCurrentTime := none, stalledChecks := 0 }
  if s.destroyed || !hasUrl s.playbackUrl then s.setTask i .settled
  else ({ s with videoRetries := 0 } : HlsPlayer).attach i .rebuild

/-- What is shown is checked. -/
def checksHealth (s : HlsPlayer) : Bool := !s.destroyed && s.state = .live && s.attached

/-- What `start` and `poll` do after the status was applied. -/
def onStatusApplied (s : HlsPlayer) (i : Nat) (caller : AttachCaller) (video : VideoReading) :
    HlsPlayer :=
  if caller = .start then
    ({ s with polling := s.polling || s.state = .waiting || s.state = .live } : HlsPlayer).setTask
      i .settled
  else if s.checksHealth then
    if (s.readHealth video).isStuck video then (s.readHealth video).rebuildPlayback i
    else (s.readHealth video).setTask i .settled
  else s.setTask i .settled

/-- The error handler of an instance. -/
def onFatalError (s : HlsPlayer) (hls : HlsInstance) (type : HlsErrorType) : HlsPlayer :=
  let count (hls' : HlsInstance) : HlsPlayer :=
    { s with instances := s.instances.map fun other => if other.id = hls.id then hls' else other }
  if s.hls ≠ some hls.id then s
  else if type = .networkError ∧ hls.networkRetries < MAX_NETWORK_RETRIES then
    count { hls with networkRetries := hls.networkRetries + 1 }
  else if type = .mediaError ∧ hls.mediaErrorRecovered = false then
    count { hls with mediaErrorRecovered := true }
  else
    let torn : HlsPlayer := { s.destroyInstance hls.id with attached := false }
    if s.state = .ended then torn else torn.setState .waiting

/-- The video has an error: every listener is called once, and the first may detach the source. -/
def onNativeError (s : HlsPlayer) : HlsPlayer :=
  if s.listeners ≠ 0 ∧ s.attached = true ∧ s.state ≠ .ended then
    { s.removeSrc with listeners := 0, attached := false, state := .waiting }
  else { s with listeners := 0 }

def destroy (s : HlsPlayer) : HlsPlayer :=
  if s.destroyed then s
  else
    let stopped : HlsPlayer := { s with destroyed := true, polling := false }
    match s.hls with
    | some id => (stopped.destroyInstance id).removeSrc
    | none => stopped.removeSrc

/-- How many engines are attached to the video. -/
def engines (s : HlsPlayer) : Nat := s.instances.length + if s.src then 1 else 0

/-- One event; `none` where it cannot happen. -/
def step (s : HlsPlayer) : PlayerEvent → Option HlsPlayer
  | .start => some { s with tasks := s.tasks ++ [.fetchWebinar .start] }
  | .tick =>
    if s.polling then
      some (if s.destroyed then s else { s with tasks := s.tasks ++ [.fetchWebinar .poll] })
    else none
  | .fetched i info =>
    match s.tasks[i]? with
    | some (.fetchWebinar caller) => some (s.onFetched i caller info)
    | _ => none
  | .supportKnown i canPlayType hlsjsSupported =>
    match s.tasks[i]? with
    | some (.hlsjsSupported caller) =>
      some (s.onSupport i caller (selectFormat canPlayType hlsjsSupported))
    | _ => none
  | .hlsLoaded i ok =>
    match s.tasks[i]? with
    -- the call ends when the library cannot be loaded
    | some (.loadHls caller) => some (if ok then s.attachHls i caller else s.setTask i .settled)
    | _ => none
  | .frameAwaited i videoWidth =>
    match s.tasks[i]? with
    | some (.waitForFirstFrame caller) => some (s.onFrameAwaited i caller videoWidth)
    | _ => none
  | .autoplayTried i =>
    match s.tasks[i]? with
    | some (.tryAutoplay caller) => some (s.setTask i (.attachReturned caller true))
    | _ => none
  | .resume i video =>
    match s.tasks[i]? with
    | some (.attachReturned caller ok) => some (s.onAttachReturned i caller ok)
    | some (.statusApplied caller) => some (s.onStatusApplied i caller video)
    | _ => none
  | .decoded => if s.engines = 0 then none else some { s with frame := true }
  | .manifestParsed id hasVideo =>
    if s.instances.any fun hls => hls.id = id then
      some (if s.hls = some id then { s with manifestHasVideo := some hasVideo } else s)
    else none
  | .fatalError id type => do
    let hls ← s.instances.find? fun hls => hls.id = id
    some (s.onFatalError hls type)
  | .nativeError => some s.onNativeError
  | .destroy => some s.destroy

/-- What an event does, and what it requires. -/
inductive Moves (s : HlsPlayer) : PlayerEvent → HlsPlayer → Prop
  | start : Moves s .start { s with tasks := s.tasks ++ [.fetchWebinar .start] }
  | tick (hpolling : s.polling = true) :
      Moves s .tick
        (if s.destroyed then s else { s with tasks := s.tasks ++ [.fetchWebinar .poll] })
  | fetched (i : Nat) (info : Option PublicWebinar) (caller : AttachCaller)
      (hi : s.tasks[i]? = some (.fetchWebinar caller)) :
      Moves s (.fetched i info) (s.onFetched i caller info)
  | supportKnown (i : Nat) (canPlayType hlsjsSupported : Bool) (caller : AttachCaller)
      (hi : s.tasks[i]? = some (.hlsjsSupported caller)) :
      Moves s (.supportKnown i canPlayType hlsjsSupported)
        (s.onSupport i caller (selectFormat canPlayType hlsjsSupported))
  | hlsLoaded (i : Nat) (ok : Bool) (caller : AttachCaller)
      (hi : s.tasks[i]? = some (.loadHls caller)) :
      Moves s (.hlsLoaded i ok) (if ok then s.attachHls i caller else s.setTask i .settled)
  | frameAwaited (i videoWidth : Nat) (caller : AttachCaller)
      (hi : s.tasks[i]? = some (.waitForFirstFrame caller)) :
      Moves s (.frameAwaited i videoWidth) (s.onFrameAwaited i caller videoWidth)
  | autoplayTried (i : Nat) (caller : AttachCaller)
      (hi : s.tasks[i]? = some (.tryAutoplay caller)) :
      Moves s (.autoplayTried i) (s.setTask i (.attachReturned caller true))
  | attachReturned (i : Nat) (video : VideoReading) (caller : AttachCaller) (ok : Bool)
      (hi : s.tasks[i]? = some (.attachReturned caller ok)) :
      Moves s (.resume i video) (s.onAttachReturned i caller ok)
  | statusApplied (i : Nat) (video : VideoReading) (caller : AttachCaller)
      (hi : s.tasks[i]? = some (.statusApplied caller)) :
      Moves s (.resume i video) (s.onStatusApplied i caller video)
  | decoded (hengines : s.engines ≠ 0) : Moves s .decoded { s with frame := true }
  | manifestParsed (id : Nat) (hasVideo : Bool)
      (hinstance : (s.instances.any fun hls => hls.id = id) = true) :
      Moves s (.manifestParsed id hasVideo)
        (if s.hls = some id then { s with manifestHasVideo := some hasVideo } else s)
  | fatalError (id : Nat) (type : HlsErrorType) (hls : HlsInstance)
      (hfind : (s.instances.find? fun hls => hls.id = id) = some hls) :
      Moves s (.fatalError id type) (s.onFatalError hls type)
  | nativeError : Moves s .nativeError s.onNativeError
  | destroy : Moves s .destroy s.destroy

lemma moves_of_step {s t : HlsPlayer} {event : PlayerEvent} (h : s.step event = some t) :
    s.Moves event t := by
  cases event with
  | start =>
    cases h
    exact .start
  | tick =>
    obtain ⟨hpolling, ⟨⟩⟩ := Option.ite_none_right_eq_some.mp h
    exact .tick hpolling
  | fetched i info =>
    rw [step] at h
    split at h
    next caller hi =>
      cases h
      exact .fetched i info caller hi
    next => cases h
  | supportKnown i canPlayType hlsjsSupported =>
    rw [step] at h
    split at h
    next caller hi =>
      cases h
      exact .supportKnown i canPlayType hlsjsSupported caller hi
    next => cases h
  | hlsLoaded i ok =>
    rw [step] at h
    split at h
    next caller hi =>
      cases h
      exact .hlsLoaded i ok caller hi
    next => cases h
  | frameAwaited i videoWidth =>
    rw [step] at h
    split at h
    next caller hi =>
      cases h
      exact .frameAwaited i videoWidth caller hi
    next => cases h
  | autoplayTried i =>
    rw [step] at h
    split at h
    next caller hi =>
      cases h
      exact .autoplayTried i caller hi
    next => cases h
  | resume i video =>
    rw [step] at h
    split at h
    next caller ok hi =>
      cases h
      exact .attachReturned i video caller ok hi
    next caller hi =>
      cases h
      exact .statusApplied i video caller hi
    next => cases h
  | decoded =>
    obtain ⟨hengines, ⟨⟩⟩ := Option.ite_none_left_eq_some.mp h
    exact .decoded hengines
  | manifestParsed id hasVideo =>
    obtain ⟨hinstance, ⟨⟩⟩ := Option.ite_none_right_eq_some.mp h
    exact .manifestParsed id hasVideo hinstance
  | fatalError id type =>
    obtain ⟨hls, hfind, ⟨⟩⟩ := Option.bind_eq_some_iff.mp h
    exact .fatalError id type hls hfind
  | nativeError =>
    cases h
    exact .nativeError
  | destroy =>
    cases h
    exact .destroy

/-! ## What is asked of the player -/

/-- Every call has come to its end. -/
def Settled (s : HlsPlayer) : Prop := ∀ task ∈ s.tasks, task = .settled

instance : DecidablePred Settled := fun s =>
  inferInstanceAs (Decidable (∀ task ∈ s.tasks, task = .settled))

/-- What is attached has a frame to show. -/
def showsFrame (s : HlsPlayer) : Prop := s.engines ≠ 0 ∧ s.frame = true

/-- One engine is attached at most, none when the player was destroyed and its calls have come to
their ends, and the player is live only when what is attached has a frame to show. -/
structure OneEngine (s : HlsPlayer) (events : List PlayerEvent) : Prop where
  one : ∀ pre u, pre <+: events → Run (ofPartial step) s pre u → u.engines ≤ 1
  gone : ∀ pre u, pre <+: events → Run (ofPartial step) s pre u → u.destroyed = true →
    u.Settled → u.engines = 0
  live : ∀ pre event u v, pre ++ [event] <+: events → Run (ofPartial step) s pre u →
    u.step event = some v → u.state ≠ .live → v.state = .live → v.showsFrame

/-! ## The condition -/

end HlsPlayer

/-- Who is told to go live by a call that has found its first frame. -/
def PlayerTask.shows : PlayerTask → Option AttachCaller
  | .tryAutoplay caller | .attachReturned caller true => some caller
  | _ => none

def PlayerTask.awaitsFrame : PlayerTask → Bool
  | .waitForFirstFrame _ => true
  | _ => false

/-- The instance goes on after the error. -/
def HlsInstance.recovers (hls : HlsInstance) : HlsErrorType → Bool
  | .networkError => hls.networkRetries < MAX_NETWORK_RETRIES
  | .mediaError => !hls.mediaErrorRecovered
  | .otherError => false

namespace HlsPlayer

/-- A call has found its first frame, and its caller has not gone on yet. -/
def showing (s : HlsPlayer) : Bool := s.tasks.any fun task => task.shows.isSome

def awaitsFrame (s : HlsPlayer) : Bool := s.tasks.any PlayerTask.awaitsFrame

/-- Another engine may be attached. -/
def vacant (s : HlsPlayer) : Bool := !s.destroyed && s.hls.isNone && !s.showing

/-- Whether a status may be applied: one that finds the webinar live finds the player live, or
begins an attach, or comes when no call waits for the first frame of what is attached. -/
def inTime (s : HlsPlayer) (caller : AttachCaller) (info : PublicWebinar) : Bool :=
  stateFromStatus info.status ≠ .live || s.state = .live ||
    if s.attached then !s.destroyed && (s.frame || !s.awaitsFrame)
    else hasUrl (s.knownUrl caller info)

/-- The condition: an engine is attached only where none is and the player was not destroyed, none
is detached while a call that has found its first frame waits for autoplay, and a poll that finds
the webinar live does not come in the wait for the first frame, or after the player was
destroyed. -/
def undisturbed (s : HlsPlayer) : PlayerEvent → Bool
  | .fetched i (some info) =>
    match s.tasks[i]? with
    | some (.fetchWebinar caller) => s.inTime caller info
    | _ => true
  | .supportKnown _ canPlayType hlsjsSupported =>
    selectFormat canPlayType hlsjsSupported ≠ .native || s.vacant
  | .hlsLoaded _ ok => !ok || s.vacant
  | .frameAwaited _ videoWidth =>
    !s.showing || s.destroyed || !shouldRetryForVideo videoWidth s.videoRetries
  | .resume i video =>
    match s.tasks[i]? with
    | some (.statusApplied caller) =>
      !s.showing || caller = .start || !s.checksHealth || !(s.readHealth video).isStuck video
    | _ => true
  | .fatalError id type =>
    !s.showing || (s.instances.find? fun hls => hls.id = id).all fun hls =>
      s.hls ≠ some id || hls.recovers type
  | .nativeError => !s.showing || s.listeners = 0 || !s.attached || s.state = .ended
  | .destroy =>
    s.destroyed || s.tasks.all fun task => task.shows.all fun caller => caller = .rebuild
  | _ => true

/-! ## What every guarded step keeps -/

/-- What is attached is what the player knows of, and a call that goes on to live has a frame. -/
structure Sound (s : HlsPlayer) : Prop where
  ids : s.instances.map HlsInstance.id = s.hls.toList
  alone : s.hls.isSome = true → s.src = false
  gone : s.destroyed = true → s.hls = none ∧ s.src = false
  shows : ∀ task ∈ s.tasks, ∀ caller, task.shows = some caller →
    s.showsFrame ∨ s.destroyed = true ∧ caller = .rebuild
  attached : s.attached = true → s.destroyed = false →
    s.engines ≠ 0 ∧ (s.frame = true ∨ s.awaitsFrame = true)

variable {s t : HlsPlayer} {i : Nat} {caller : AttachCaller} {task task' : PlayerTask}

lemma showing_eq_false_iff : s.showing = false ↔ ∀ task ∈ s.tasks, task.shows = none := by
  simp [showing]

lemma Sound.new : Sound new where
  ids := rfl
  alone := by simp [HlsPlayer.new]
  gone := by simp [HlsPlayer.new]
  shows := by simp [HlsPlayer.new]
  attached := by simp [HlsPlayer.new]

lemma Sound.length_instances (h : Sound s) : s.instances.length = s.hls.toList.length := by
  rw [← h.ids, List.length_map]

lemma Sound.engines_le_one (h : Sound s) : s.engines ≤ 1 := by
  rw [engines, h.length_instances]
  cases hhls : s.hls with
  | none =>
    simp only [Option.toList_none, List.length_nil]
    split_ifs <;> omega
  | some id => simp [h.alone (by rw [hhls]; rfl)]

lemma Sound.engines_eq_zero (h : Sound s) (hdestroyed : s.destroyed = true) : s.engines = 0 := by
  obtain ⟨hhls, hsrc⟩ := h.gone hdestroyed
  rw [engines, h.length_instances, hhls, hsrc]
  rfl

/-- A call that goes on to live finds a frame, unless the player was destroyed. -/
lemma Sound.showsFrame_of_mem (h : Sound s) (hmem : task ∈ s.tasks)
    (hshows : task.shows = some caller) (hdestroyed : s.destroyed = false) : s.showsFrame := by
  rcases h.shows task hmem caller hshows with hframe | ⟨hgone, -⟩
  · exact hframe
  · rw [hdestroyed] at hgone
    cases hgone

lemma Sound.showing_of_no_frame (h : Sound s) (hframe : s.frame = false)
    (hdestroyed : s.destroyed = false) : s.showing = false := by
  refine showing_eq_false_iff.mpr fun task hmem => ?_
  by_contra hshows
  obtain ⟨caller, hcaller⟩ := Option.ne_none_iff_exists'.mp hshows
  have hshown := (h.showsFrame_of_mem hmem hcaller hdestroyed).2
  rw [hframe] at hshown
  cases hshown

/-- A call goes on to its next wait. -/
lemma Sound.setTask (h : Sound s) (hi : s.tasks[i]? = some task)
    (hold : task.awaitsFrame = false ∨ s.attached = false ∨ s.destroyed = true ∨ s.frame = true)
    (hnew : ∀ caller, task'.shows = some caller →
      s.showsFrame ∨ s.destroyed = true ∧ caller = .rebuild) : Sound (s.setTask i task') where
  ids := h.ids
  alone := h.alone
  gone := h.gone
  shows task'' hmem caller hshows := by
    rcases List.mem_or_eq_of_mem_set hmem with hmem | rfl
    · exact h.shows task'' hmem caller hshows
    · exact hnew caller hshows
  attached hattached hdestroyed := by
    obtain ⟨hengines, hframe⟩ := h.attached hattached hdestroyed
    refine ⟨hengines, ?_⟩
    rcases hold with hold | hold | hold | hold
    · -- another call waits for the frame
      refine hframe.imp_right fun hawaits => ?_
      obtain ⟨waiting, hmem, hwaits⟩ := List.any_eq_true.mp hawaits
      refine List.any_eq_true.mpr ⟨waiting, Place.mem_set_of_ne hi hmem ?_, hwaits⟩
      rintro rfl
      rw [hold] at hwaits
      cases hwaits
    · rw [show s.attached = true from hattached] at hold
      cases hold
    · rw [show s.destroyed = false from hdestroyed] at hold
      cases hold
    · exact .inl hold

lemma Sound.setState {state : PlayerState} (h : Sound s) : Sound (s.setState state) :=
  ⟨h.ids, h.alone, h.gone, h.shows, h.attached⟩

lemma Sound.readHealth {video : VideoReading} (h : Sound s) : Sound (s.readHealth video) :=
  ⟨h.ids, h.alone, h.gone, h.shows, h.attached⟩

lemma Sound.setTask_of_none (h : Sound s) (hi : s.tasks[i]? = some task)
    (hold : task.awaitsFrame = false ∨ s.attached = false ∨ s.destroyed = true ∨ s.frame = true)
    (hnone : task'.shows = none) : Sound (s.setTask i task') := by
  refine h.setTask hi hold fun caller hshows => ?_
  rw [hnone] at hshows
  cases hshows

/-- An engine was detached where no call had found its first frame. -/
lemma Sound.of_detached (hids : t.instances.map HlsInstance.id = t.hls.toList)
    (halone : t.hls.isSome = true → t.src = false)
    (hgone : t.destroyed = true → t.hls = none ∧ t.src = false) (hshowing : t.showing = false)
    (hattached : t.attached = false) : Sound t where
  ids := hids
  alone := halone
  gone := hgone
  shows task hmem caller hshows := by
    rw [showing_eq_false_iff.mp hshowing task hmem] at hshows
    cases hshows
  attached h := by
    rw [hattached] at h
    cases h

/-- Nothing is left where the instance that the player knows of is destroyed. -/
lemma Sound.instances_destroyInstance {id : Nat} (h : Sound s) (hid : s.hls = some id) :
    (s.destroyInstance id).instances = [] := by
  refine List.filter_eq_nil_iff.mpr fun hls hmem => ?_
  have hmem' : hls.id ∈ s.instances.map HlsInstance.id := List.mem_map_of_mem hmem
  rw [h.ids, hid, Option.toList_some, List.mem_singleton] at hmem'
  simp [hmem']

@[simp] lemma tasks_detach (s : HlsPlayer) : s.detach.tasks = s.tasks := by
  unfold detach
  split <;> rfl

@[simp] lemma attached_detach (s : HlsPlayer) : s.detach.attached = false := by
  unfold detach
  split <;> rfl

lemma detach_of_some {id : Nat} (hid : s.hls = some id) :
    s.detach = { s.destroyInstance id with attached := false } := by
  unfold detach
  rw [hid]

lemma Sound.detach (h : Sound s) (hshowing : s.showing = false) : Sound s.detach := by
  unfold HlsPlayer.detach
  split
  next id hid =>
    have hsrc := h.alone (by rw [hid]; rfl)
    refine .of_detached ?_ (fun _ => hsrc) (fun _ => ⟨rfl, hsrc⟩) hshowing rfl
    show (s.destroyInstance id).instances.map HlsInstance.id = []
    rw [h.instances_destroyInstance hid]
    rfl
  next hid =>
    exact .of_detached h.ids (fun _ => rfl) (fun _ => ⟨hid, rfl⟩) hshowing rfl

/-- An engine is attached where none is. -/
lemma Sound.of_attached (hids : t.instances.map HlsInstance.id = t.hls.toList)
    (halone : t.hls.isSome = true → t.src = false) (hengine : t.hls.isSome = true ∨ t.src = true)
    (hdestroyed : t.destroyed = false) (hshowing : t.showing = false)
    (hawaits : t.awaitsFrame = true) : Sound t where
  ids := hids
  alone := halone
  gone h := by
    rw [hdestroyed] at h
    cases h
  shows task hmem caller hshows := by
    rw [showing_eq_false_iff.mp hshowing task hmem] at hshows
    cases hshows
  attached _ _ := by
    refine ⟨?_, .inr hawaits⟩
    rw [engines, ← List.length_map (f := HlsInstance.id), hids]
    rcases hengine with hhls | hsrc
    · obtain ⟨id, hid⟩ := Option.isSome_iff_exists.mp hhls
      simp [hid]
    · simp [hsrc]

@[simp] lemma awaitsFrame_setTask (hi : s.tasks[i]? = some task) :
    (s.setTask i (.waitForFirstFrame caller)).awaitsFrame = true := by
  have hmem := List.mem_set (List.getElem?_eq_some_iff.mp hi).1
    (PlayerTask.waitForFirstFrame caller)
  exact List.any_eq_true.mpr ⟨_, hmem, rfl⟩

lemma showing_setTask (hshowing : s.showing = false) (htask : task.shows = none) :
    (s.setTask i task).showing = false := by
  refine showing_eq_false_iff.mpr fun task' hmem => ?_
  rcases List.mem_or_eq_of_mem_set hmem with hmem | rfl
  · exact showing_eq_false_iff.mp hshowing task' hmem
  · exact htask

lemma vacant_iff : s.vacant = true ↔ s.destroyed = false ∧ s.hls = none ∧ s.showing = false := by
  simp [vacant, and_assoc]

lemma Sound.attachNative (h : Sound s) (hi : s.tasks[i]? = some task) (hvacant : s.vacant = true) :
    Sound (s.attachNative i caller) := by
  obtain ⟨hdestroyed, hhls, hshowing⟩ := vacant_iff.mp hvacant
  refine .of_attached h.ids ?_ (.inr rfl) hdestroyed (showing_setTask hshowing rfl)
    (awaitsFrame_setTask hi)
  intro hsome
  rw [show (s.attachNative i caller).hls = none from hhls] at hsome
  cases hsome

lemma Sound.attachHls (h : Sound s) (hi : s.tasks[i]? = some task) (hvacant : s.vacant = true) :
    Sound (s.attachHls i caller) := by
  obtain ⟨hdestroyed, hhls, hshowing⟩ := vacant_iff.mp hvacant
  refine .of_attached ?_ (fun _ => rfl) (.inl rfl) hdestroyed (showing_setTask hshowing rfl)
    (awaitsFrame_setTask hi)
  have hids := h.ids
  rw [hhls] at hids
  simpa [HlsPlayer.attachHls, HlsPlayer.setTask] using hids

lemma Sound.attach (h : Sound s) (hi : s.tasks[i]? = some task) (hold : task.awaitsFrame = false)
    (hattached : s.attached = false) : Sound (s.attach i caller) := by
  rw [HlsPlayer.attach, hattached]
  exact h.setTask_of_none hi (.inl hold) rfl

/-- The state of a webinar is applied. -/
lemma Sound.applyState {state : PlayerState} (h : Sound s) (hi : s.tasks[i]? = some task)
    (hold : task.awaitsFrame = false) : Sound (s.applyState i caller state) := by
  cases state with
  | live =>
    rw [HlsPlayer.applyState]
    split_ifs with hbegins
    · exact h.attach hi hold (by simp_all)
    · exact h.setState.setTask_of_none hi (.inl hold) rfl
  | ended =>
    have happlied : Sound (s.setTask i (.statusApplied caller)) :=
      h.setTask_of_none hi (.inl hold) rfl
    exact ⟨happlied.ids, happlied.alone, happlied.gone, happlied.shows, happlied.attached⟩
  | _ => exact h.setState.setTask_of_none hi (.inl hold) rfl

lemma Sound.onFetched {info : Option PublicWebinar} (h : Sound s)
    (hi : s.tasks[i]? = some (.fetchWebinar caller)) : Sound (s.onFetched i caller info) := by
  cases info with
  | some info => exact Sound.applyState ⟨h.ids, h.alone, h.gone, h.shows, h.attached⟩ hi rfl
  | none =>
    rw [HlsPlayer.onFetched]
    split_ifs
    · exact h.setState.setTask_of_none hi (.inl rfl) rfl
    · exact h.setTask_of_none hi (.inl rfl) rfl

lemma Sound.onSupport {format : PlaybackFormat} (h : Sound s)
    (hi : s.tasks[i]? = some (.hlsjsSupported caller))
    (hguard : format ≠ .native ∨ s.vacant = true) : Sound (s.onSupport i caller format) := by
  cases format with
  | hlsjs => exact h.setTask_of_none hi (.inl rfl) rfl
  | native => exact h.attachNative hi (hguard.resolve_left fun hne => hne rfl)
  | unsupported => exact h.setState.setTask_of_none hi (.inl rfl) rfl

/-- The wait for the first frame ends: the call goes on only where there is a frame. -/
lemma Sound.onFrameAwaited {videoWidth : Nat} (h : Sound s)
    (hi : s.tasks[i]? = some (.waitForFirstFrame caller))
    (hguard : s.showing = false ∨ s.destroyed = true ∨
      shouldRetryForVideo videoWidth s.videoRetries = false) :
    Sound (s.onFrameAwaited i caller videoWidth) := by
  rw [HlsPlayer.onFrameAwaited]
  split_ifs with hgone hframe hretry
  · refine h.setTask_of_none hi (.inr ?_) rfl
    rcases Bool.or_eq_true_iff.mp hgone with hattached | hdestroyed
    · exact .inl (by simpa using hattached)
    · exact .inr (.inl hdestroyed)
  all_goals
    obtain ⟨hattached, hdestroyed⟩ : s.attached = true ∧ s.destroyed = false := by simpa using hgone
  · have hdetached := h.detach (h.showing_of_no_frame (by simpa using hframe) hdestroyed)
    exact hdetached.setTask_of_none (by rwa [tasks_detach]) (.inr (.inl s.attached_detach)) rfl
  · have hshowing : s.showing = false := by simpa [hdestroyed, hretry] using hguard
    have hset : Sound (s.detach.setTask i (.attachReturned caller false)) :=
      (h.detach hshowing).setTask_of_none (by rwa [tasks_detach])
        (.inr (.inl s.attached_detach)) rfl
    exact ⟨hset.ids, hset.alone, hset.gone, hset.shows, hset.attached⟩
  · have hframe' : s.frame = true := by simpa using hframe
    refine h.setTask hi (.inr (.inr (.inr hframe'))) fun _ _ => .inl ?_
    exact ⟨(h.attached hattached hdestroyed).1, hframe'⟩

/-- Autoplay was tried, and the call returns. -/
lemma Sound.onAutoplayTried (h : Sound s) (hi : s.tasks[i]? = some (.tryAutoplay caller)) :
    Sound (s.setTask i (.attachReturned caller true)) := by
  refine h.setTask hi (.inl rfl) fun caller' hshows => ?_
  exact h.shows _ (List.mem_of_getElem? hi) caller' hshows

lemma Sound.onAttachReturned {ok : Bool} (h : Sound s)
    (hi : s.tasks[i]? = some (.attachReturned caller ok)) :
    Sound (s.onAttachReturned i caller ok) := by
  have hold : (PlayerTask.attachReturned caller ok).awaitsFrame = false := rfl
  unfold HlsPlayer.onAttachReturned
  split
  · split_ifs
    · exact h.setTask_of_none hi (.inl hold) rfl
    · exact h.setState.setTask_of_none hi (.inl hold) rfl
    · exact h.setState.setTask_of_none hi (.inl hold) rfl
  · split_ifs
    · exact h.setState.setTask_of_none hi (.inl hold) rfl
    · exact h.setTask_of_none hi (.inl hold) rfl

lemma Sound.rebuildPlayback (h : Sound s) (hi : s.tasks[i]? = some (.statusApplied caller))
    (hshowing : s.showing = false) : Sound (s.rebuildPlayback i) := by
  have hdetached : Sound { s.detach with
      manifestHasVideo := none, lastCurrentTime := none, stalledChecks := 0 } := by
    have hdetached := h.detach hshowing
    exact ⟨hdetached.ids, hdetached.alone, hdetached.gone, hdetached.shows, hdetached.attached⟩
  have hi' : s.detach.tasks[i]? = some (.statusApplied caller) := by rwa [tasks_detach]
  rw [HlsPlayer.rebuildPlayback]
  split_ifs
  · exact hdetached.setTask_of_none hi' (.inl rfl) rfl
  · exact Sound.attach ⟨hdetached.ids, hdetached.alone, hdetached.gone, hdetached.shows,
      hdetached.attached⟩ hi' rfl s.attached_detach

lemma Sound.onStatusApplied {video : VideoReading} (h : Sound s)
    (hi : s.tasks[i]? = some (.statusApplied caller))
    (hguard : s.showing = false ∨ caller = .start ∨ s.checksHealth = false ∨
      (s.readHealth video).isStuck video = false) : Sound (s.onStatusApplied i caller video) := by
  rw [HlsPlayer.onStatusApplied]
  split_ifs with hstart hhealth hstuck
  · have hsettled : Sound (s.setTask i .settled) := h.setTask_of_none hi (.inl rfl) rfl
    exact ⟨hsettled.ids, hsettled.alone, hsettled.gone, hsettled.shows, hsettled.attached⟩
  · have hshowing : s.showing = false := by simpa [hstart, hhealth, hstuck] using hguard
    exact h.readHealth.rebuildPlayback hi hshowing
  · exact h.readHealth.setTask_of_none hi (.inl rfl) rfl
  · exact h.setTask_of_none hi (.inl rfl) rfl

/-- The counters of the instances change. -/
lemma Sound.setInstances {instances : List HlsInstance} (h : Sound s)
    (hids : instances.map HlsInstance.id = s.instances.map HlsInstance.id) :
    Sound { s with instances } := by
  have hengines : engines { s with instances } = s.engines := by
    have hlength : instances.length = s.instances.length := by
      simpa using congrArg List.length hids
    simp [engines, hlength]
  refine ⟨hids.trans h.ids, h.alone, h.gone, fun task hmem caller hshows => ?_,
    fun hattached hdestroyed => ?_⟩
  · refine (h.shows task hmem caller hshows).imp_left fun hframe => ?_
    exact ⟨hengines ▸ hframe.1, hframe.2⟩
  · obtain ⟨hsome, hframe⟩ := h.attached hattached hdestroyed
    exact ⟨hengines ▸ hsome, hframe⟩

/-- A fatal error comes: the instance goes on, or it is destroyed where no call has found its first
frame. -/
lemma Sound.onFatalError {hls : HlsInstance} {type : HlsErrorType} (h : Sound s)
    (hguard : s.showing = false ∨ s.hls ≠ some hls.id ∨ hls.recovers type = true) :
    Sound (s.onFatalError hls type) := by
  have hcount : ∀ hls' : HlsInstance, hls'.id = hls.id → Sound { s with
      instances := s.instances.map fun other => if other.id = hls.id then hls' else other } := by
    intro hls' hid
    refine h.setInstances ?_
    rw [List.map_map]
    refine List.map_congr_left fun other _ => ?_
    simp only [Function.comp_apply]
    split_ifs with hother
    · rw [hid, hother]
    · rfl
  unfold HlsPlayer.onFatalError
  split_ifs with hcurrent hnetwork hmedia hended
  · exact h
  · exact hcount _ rfl
  · exact hcount _ rfl
  all_goals
    have hid : s.hls = some hls.id := not_not.mp hcurrent
    have hrecovers : hls.recovers type = false := by
      cases type <;> simp_all [HlsInstance.recovers]
    have hshowing : s.showing = false := by simpa [hid, hrecovers] using hguard
    have hdetached := h.detach hshowing
    rw [detach_of_some hid] at hdetached
  · exact hdetached
  · exact hdetached.setState

lemma Sound.onNativeError (h : Sound s)
    (hguard : s.showing = false ∨ s.listeners = 0 ∨ s.attached = false ∨ s.state = .ended) :
    Sound s.onNativeError := by
  rw [HlsPlayer.onNativeError]
  split_ifs with hcalled
  · have hshowing : s.showing = false := by simpa [hcalled] using hguard
    exact .of_detached h.ids (fun _ => rfl) (fun hgone => ⟨(h.gone hgone).1, rfl⟩) hshowing rfl
  · exact ⟨h.ids, h.alone, h.gone, h.shows, h.attached⟩

lemma destroy_of_destroyed (hdestroyed : s.destroyed = true) : s.destroy = s := by
  rw [destroy, if_pos hdestroyed]

lemma destroyed_destroy (hdestroyed : s.destroyed = false) : s.destroy.destroyed = true := by
  unfold destroy
  rw [hdestroyed]
  cases s.hls <;> rfl

lemma tasks_destroy (hdestroyed : s.destroyed = false) : s.destroy.tasks = s.tasks := by
  unfold destroy
  rw [hdestroyed]
  cases s.hls <;> rfl

/-- Nothing is attached when the player is destroyed. -/
lemma Sound.detached_destroy (h : Sound s) (hdestroyed : s.destroyed = false) :
    s.destroy.instances = [] ∧ s.destroy.hls = none ∧ s.destroy.src = false := by
  unfold HlsPlayer.destroy
  rw [hdestroyed]
  cases hid : s.hls with
  | none =>
    have hids := h.ids
    rw [hid, Option.toList_none, List.map_eq_nil_iff] at hids
    exact ⟨hids, rfl, rfl⟩
  | some id => exact ⟨h.instances_destroyInstance hid, rfl, rfl⟩

lemma Sound.destroy (h : Sound s) (hguard : s.destroyed = true ∨
    ∀ task ∈ s.tasks, ∀ caller, task.shows = some caller → caller = .rebuild) :
    Sound s.destroy := by
  cases hdestroyed : s.destroyed with
  | true =>
    rw [destroy_of_destroyed hdestroyed]
    exact h
  | false =>
    obtain ⟨hinstances, hhls, hsrc⟩ := h.detached_destroy hdestroyed
    have hgone := destroyed_destroy hdestroyed
    refine ⟨by rw [hinstances, hhls]; rfl, fun _ => hsrc, fun _ => ⟨hhls, hsrc⟩, ?_, ?_⟩
    · rw [tasks_destroy hdestroyed]
      intro task hmem caller hshows
      exact .inr ⟨hgone, hguard.resolve_left (by simp [hdestroyed]) task hmem caller hshows⟩
    · intro _ hnot
      rw [hgone] at hnot
      cases hnot

lemma Sound.decoded (h : Sound s) (hengines : s.engines ≠ 0) : Sound { s with frame := true } where
  ids := h.ids
  alone := h.alone
  gone := h.gone
  shows task hmem caller hshows :=
    (h.shows task hmem caller hshows).imp_left fun _ => ⟨hengines, rfl⟩
  attached _ _ := ⟨hengines, .inl rfl⟩

/-- A call begins. -/
lemma Sound.fetch (h : Sound s) :
    Sound { s with tasks := s.tasks ++ [.fetchWebinar caller] } where
  ids := h.ids
  alone := h.alone
  gone := h.gone
  shows task hmem caller' hshows := by
    rcases List.mem_append.mp hmem with hmem | hnew
    · exact h.shows task hmem caller' hshows
    · rw [List.mem_singleton.mp hnew] at hshows
      cases hshows
  attached hattached hdestroyed := by
    obtain ⟨hengines, hframe⟩ := h.attached hattached hdestroyed
    refine ⟨hengines, hframe.imp_right fun hawaits => ?_⟩
    rw [awaitsFrame, List.any_append, Bool.or_eq_true_iff]
    exact .inl hawaits

/-- Every guarded step keeps the player sound. -/
lemma Sound.step {event : PlayerEvent} (h : Sound s) (hguard : s.undisturbed event = true)
    (hstep : s.step event = some t) : Sound t := by
  cases moves_of_step hstep with
  | start => exact h.fetch
  | tick hpolling =>
    split_ifs
    · exact h
    · exact h.fetch
  | fetched i info caller hi => exact h.onFetched hi
  | supportKnown i canPlayType hlsjsSupported caller hi =>
    exact h.onSupport hi (by simpa [undisturbed] using hguard)
  | hlsLoaded i ok caller hi =>
    split_ifs with hok
    · exact h.attachHls hi (by simpa [undisturbed, hok] using hguard)
    · exact h.setTask_of_none hi (.inl rfl) rfl
  | frameAwaited i videoWidth caller hi =>
    exact h.onFrameAwaited hi (by simpa [undisturbed, or_assoc] using hguard)
  | autoplayTried i caller hi => exact h.onAutoplayTried hi
  | attachReturned i video caller ok hi => exact h.onAttachReturned hi
  | statusApplied i video caller hi =>
    exact h.onStatusApplied hi (by simpa [undisturbed, hi, or_assoc] using hguard)
  | decoded hengines => exact h.decoded hengines
  | manifestParsed id hasVideo =>
    split_ifs
    · exact ⟨h.ids, h.alone, h.gone, h.shows, h.attached⟩
    · exact h
  | fatalError id type hls hfind =>
    have hid : hls.id = id := by simpa using List.find?_some hfind
    refine h.onFatalError ?_
    simpa [undisturbed, hfind, hid] using hguard
  | nativeError => exact h.onNativeError (by simpa [undisturbed, or_assoc] using hguard)
  | destroy => exact h.destroy (by simpa [undisturbed, Option.all_eq_true] using hguard)

/-! ## Who goes live -/

@[simp] lemma state_setTask : (s.setTask i task).state = s.state := rfl

@[simp] lemma state_attach : (s.attach i caller).state = s.state := rfl

@[simp] lemma state_detach : s.detach.state = s.state := by
  unfold detach
  split <;> rfl

lemma state_onSupport {format : PlaybackFormat}
    (hlive : (s.onSupport i caller format).state = .live) : s.state = .live := by
  cases format with
  | unsupported => cases hlive
  | _ => exact hlive

lemma state_onFrameAwaited {videoWidth : Nat} :
    (s.onFrameAwaited i caller videoWidth).state = s.state := by
  unfold onFrameAwaited
  split_ifs <;> simp

lemma state_rebuildPlayback : (s.rebuildPlayback i).state = s.state := by
  rw [rebuildPlayback]
  split_ifs <;> simp

lemma state_onStatusApplied {video : VideoReading} :
    (s.onStatusApplied i caller video).state = s.state := by
  unfold onStatusApplied
  split_ifs
  · rfl
  · exact state_rebuildPlayback
  · rfl
  · rfl

lemma state_onFatalError {hls : HlsInstance} {type : HlsErrorType}
    (hlive : (s.onFatalError hls type).state = .live) : s.state = .live := by
  unfold onFatalError at hlive
  split_ifs at hlive
  all_goals first
    | exact hlive
    | cases hlive

lemma state_onNativeError (hlive : s.onNativeError.state = .live) : s.state = .live := by
  unfold onNativeError at hlive
  split_ifs at hlive
  exact hlive

lemma state_destroy : s.destroy.state = s.state := by
  unfold destroy
  split_ifs
  · rfl
  · cases s.hls <;> rfl

/-- A status makes the player live at once where nothing is to be attached. -/
lemma applyState_live {state : PlayerState} (hs : s.state ≠ .live)
    (hlive : (s.applyState i caller state).state = .live) :
    state = .live ∧ (s.attached = true ∨ hasUrl s.playbackUrl = false) ∧
      s.applyState i caller state = (s.setState .live).setTask i (.statusApplied caller) := by
  cases state with
  | live =>
    rw [applyState] at hlive ⊢
    split_ifs at hlive ⊢ with hbegins
    · exact absurd hlive hs
    · refine ⟨rfl, ?_, rfl⟩
      cases hattached : s.attached with
      | true => exact .inl rfl
      | false => exact .inr (by simpa [hattached] using hbegins)
  | _ => cases hlive

/-- A status that is applied in time finds a frame. -/
lemma Sound.showsFrame_of_inTime {info : PublicWebinar} (h : Sound s)
    (hguard : s.inTime caller info = true) (hs : s.state ≠ .live)
    (hstatus : stateFromStatus info.status = .live)
    (hurl : s.attached = true ∨ hasUrl (s.knownUrl caller info) = false) : s.showsFrame := by
  simp only [inTime, hstatus, hs] at hguard
  cases hattached : s.attached with
  | false =>
    rw [hattached] at hguard
    have hnone := hurl.resolve_left (by simp [hattached])
    simp [hnone] at hguard
  | true =>
    rw [hattached] at hguard
    obtain ⟨hdestroyed, hframe⟩ :
        s.destroyed = false ∧ (s.frame = true ∨ s.awaitsFrame = false) := by
      simpa using hguard
    obtain ⟨hengines, hawaits⟩ := h.attached hattached hdestroyed
    refine ⟨hengines, hframe.elim id fun hnone => hawaits.resolve_right ?_⟩
    simp [hnone]

lemma Sound.showsFrame_onFetched {info : Option PublicWebinar} (h : Sound s)
    (hguard : ∀ info', info = some info' → s.inTime caller info' = true) (hs : s.state ≠ .live)
    (hlive : (s.onFetched i caller info).state = .live) :
    (s.onFetched i caller info).showsFrame := by
  cases info with
  | none =>
    simp only [HlsPlayer.onFetched] at hlive
    split_ifs at hlive
    · cases hlive
    · exact absurd hlive hs
  | some info =>
    obtain ⟨hstatus, hurl, heq⟩ :=
      applyState_live (s := { s with playbackUrl := s.knownUrl caller info }) hs hlive
    rw [HlsPlayer.onFetched, HlsPlayer.applyStatus, heq]
    exact h.showsFrame_of_inTime (hguard info rfl) hs hstatus hurl

/-- A call that has found its first frame makes the player live, and the frame is still there. -/
lemma Sound.showsFrame_onAttachReturned {ok : Bool} (h : Sound s)
    (hi : s.tasks[i]? = some (.attachReturned caller ok)) (hs : s.state ≠ .live)
    (hlive : (s.onAttachReturned i caller ok).state = .live) :
    (s.onAttachReturned i caller ok).showsFrame := by
  have hshows : ok = true → s.showsFrame ∨ s.destroyed = true ∧ caller = .rebuild := by
    rintro rfl
    exact h.shows _ (List.mem_of_getElem? hi) caller rfl
  unfold HlsPlayer.onAttachReturned at hlive ⊢
  by_cases hrebuild : caller = .rebuild
  · rw [if_pos hrebuild] at hlive ⊢
    cases hdestroyed : s.destroyed with
    | true =>
      rw [hdestroyed] at hlive
      exact absurd hlive hs
    | false =>
      rw [hdestroyed] at hlive
      cases ok with
      | false => cases hlive
      | true => exact (hshows rfl).resolve_right (by simp [hdestroyed])
  · rw [if_neg hrebuild] at hlive ⊢
    cases ok with
    | false => exact absurd hlive hs
    | true => exact (hshows rfl).resolve_right (by simp [hrebuild])

/-- A guarded step after which the player is live, and was not before, leaves a frame to show. -/
lemma Sound.showsFrame_step {event : PlayerEvent} (h : Sound s)
    (hguard : s.undisturbed event = true) (hstep : s.step event = some t) (hs : s.state ≠ .live)
    (ht : t.state = .live) : t.showsFrame := by
  cases moves_of_step hstep with
  | fetched i info caller hi =>
    refine h.showsFrame_onFetched (fun info' hinfo => ?_) hs ht
    subst hinfo
    simpa [undisturbed, hi] using hguard
  | attachReturned i video caller ok hi => exact h.showsFrame_onAttachReturned hi hs ht
  -- nothing else goes live
  | start => exact absurd ht hs
  | tick =>
    split_ifs at ht
    · exact absurd ht hs
    · exact absurd ht hs
  | supportKnown => exact absurd (state_onSupport ht) hs
  | hlsLoaded =>
    split_ifs at ht
    · exact absurd ht hs
    · exact absurd ht hs
  | frameAwaited =>
    rw [state_onFrameAwaited] at ht
    exact absurd ht hs
  | autoplayTried => exact absurd ht hs
  | statusApplied =>
    rw [state_onStatusApplied] at ht
    exact absurd ht hs
  | decoded => exact absurd ht hs
  | manifestParsed =>
    split_ifs at ht
    · exact absurd ht hs
    · exact absurd ht hs
  | fatalError => exact absurd (state_onFatalError ht) hs
  | nativeError => exact absurd (state_onNativeError ht) hs
  | destroy =>
    rw [state_destroy] at ht
    exact absurd ht hs

/-! ## One engine -/

/-- One engine is attached at most in every run whose steps all meet the condition, none after the
player was destroyed, and the player goes live only with a frame to show. -/
theorem one_engine_of_run {events : List PlayerEvent}
    (h : Run (Guarded (ofPartial step) fun s event => s.undisturbed event = true) new events t) :
    OneEngine new events := by
  have hsound : ∀ pre u, pre <+: events → Run (ofPartial step) new pre u → Sound u := by
    intro pre u hpre hu
    refine (Run.guarded_beginning hpre h hu).invariant Sound (fun s event _ v hs hstep => ?_) .new
    exact hs.step hstep.1 hstep.2
  refine ⟨fun pre u hpre hu => ?_, fun pre u hpre hu hdestroyed _ => ?_,
    fun pre event u v hpre hu hstep hs hv => ?_⟩
  · exact (hsound pre u hpre hu).engines_le_one
  · exact (hsound pre u hpre hu).engines_eq_zero hdestroyed
  · have hu' := hsound pre u ((List.prefix_append pre [event]).trans hpre) hu
    have hguard := Run.guard_of_step hpre h hu hstep
    exact hu'.showsFrame_step hguard hstep hs hv

/-- The first status is scheduled, and the first poll finds the webinar live. -/
def goesLive : List PlayerEvent :=
  [.start, .fetched 0 (some ⟨.scheduled, none⟩), .resume 0 ⟨0, true, 0⟩, .tick,
    .fetched 1 (some ⟨.live, some "u"⟩)]

/-- A poll attaches an engine, a fatal error detaches it, and the next poll attaches another. -/
def reattaches : List PlayerEvent :=
  goesLive ++ [.supportKnown 1 false true, .hlsLoaded 1 true, .decoded, .frameAwaited 1 640,
    .autoplayTried 1, .resume 1 ⟨0, false, 640⟩, .resume 1 ⟨0, false, 640⟩,
    .fatalError 0 .otherError, .tick, .fetched 2 (some ⟨.live, some "u"⟩),
    .supportKnown 2 false true, .hlsLoaded 2 true, .destroy]

theorem one_engine_sample : OneEngine new reattaches := by
  have hrun : ∃ t, Run (Guarded (ofPartial step) fun s event => s.undisturbed event = true) new
      reattaches t := Run.exists_guarded_of_isSome (by decide)
  obtain ⟨t, hrun⟩ := hrun
  exact one_engine_of_run hrun

lemma not_one_of_engines {events : List PlayerEvent}
    (h : ∃ t, Run (ofPartial step) new events t ∧ 1 < t.engines) : ¬ OneEngine new events := by
  obtain ⟨t, hrun, hengines⟩ := h
  exact fun hone => absurd (hone.one events t List.prefix_rfl hrun) (by omega)

lemma not_one_of_gone {events : List PlayerEvent}
    (h : ∃ t, Run (ofPartial step) new events t ∧
      (t.destroyed = true ∧ t.Settled) ∧ t.engines ≠ 0) : ¬ OneEngine new events := by
  obtain ⟨t, hrun, ⟨hdestroyed, hsettled⟩, hengines⟩ := h
  exact fun hone => hengines (hone.gone events t List.prefix_rfl hrun hdestroyed hsettled)

lemma not_one_of_live {pre : List PlayerEvent} {event : PlayerEvent}
    (h : ∃ u, Run (ofPartial step) new pre u ∧ u.state ≠ .live ∧
      ((u.step event).any fun v => v.state = .live && !v.frame) = true) :
    ¬ OneEngine new (pre ++ [event]) := by
  obtain ⟨u, hrun, hs, hstep⟩ := h
  intro hone
  obtain ⟨v, hv, hlive⟩ := (Option.any_eq_true _ _).mp hstep
  obtain ⟨hstate, hframe⟩ : v.state = .live ∧ v.frame = false := by simpa using hlive
  have hshown := (hone.live pre event u v List.prefix_rfl hrun hv hs hstate).2
  rw [hframe] at hshown
  cases hshown

/-- The next poll comes in the wait for the first frame, and the player is live with nothing to
show; it comes while the library is loaded, and two engines are attached; the player is destroyed
while the library is loaded, and an engine is attached afterwards. -/
theorem attach_overlapped :
    ¬ OneEngine new ((goesLive ++ [.supportKnown 1 false true, .hlsLoaded 1 true, .tick]) ++
      [.fetched 2 (some ⟨.live, some "u"⟩)]) ∧
    ¬ OneEngine new (goesLive ++ [.tick, .fetched 2 (some ⟨.live, some "u"⟩),
      .supportKnown 1 false true, .supportKnown 2 false true, .hlsLoaded 1 true,
      .hlsLoaded 2 true]) ∧
    ¬ OneEngine new (goesLive ++ [.destroy, .supportKnown 1 false true, .hlsLoaded 1 true,
      .frameAwaited 1 0, .resume 1 ⟨0, true, 0⟩, .resume 1 ⟨0, true, 0⟩]) := by
  refine ⟨not_one_of_live ?_, not_one_of_engines ?_, not_one_of_gone ?_⟩
  · exact Run.exists_of_decide (by decide)
  · exact Run.exists_of_decide (by decide)
  · exact Run.exists_of_decide (by decide)

end HlsPlayer

end VoxTranslate.Client
