import VoxTranslate.Lib.Handles
import VoxTranslate.Lib.Run

/-!
# The publisher of a broadcast (`whip-publisher.ts`)

A method runs to its next `await` and goes on when its reply has come, with whatever the fields
hold by then.  Stopping releases what the fields hold; a method that goes on after it may store a
connection, a track or a resource that nobody releases any more.
-/

namespace VoxTranslate.Client

open Lib

inductive WhipState where
  | idle
  | connecting
  | onAir
  | reconnecting
  | micDenied
  | error
  deriving DecidableEq, Repr

inductive MediaKind where
  | audio
  | video
  deriving DecidableEq, Repr

structure MediaTrack where
  id : Nat
  kind : MediaKind
  deriving DecidableEq, Repr

/-- A method that waits, at what it waits for. -/
inductive WhipTask where
  /-- `start` waits for the microphone. -/
  | startMedia
  /-- `start` waits for the denoiser of a stream. -/
  | denoiser (input : Nat)
  /-- `connect` waits for the API; on a restart no media is captured again. -/
  | goLive (isRestart : Bool)
  /-- `connect` waits for its offer, the local description and the gathering of candidates. -/
  | offer (isRestart : Bool)
  | whipPublish (isRestart : Bool)
  | setRemoteDescription (isRestart : Bool)
  /-- `toggleCamera` waits for the camera. -/
  | cameraMedia
  /-- `stop` waits for its DELETE. -/
  | whipDelete
  deriving DecidableEq, Repr

/-- What a task may get. -/
inductive WhipReply where
  /-- A stream with its tracks, and whether the noisy-environment mode is on. -/
  | media (kinds : List MediaKind) (noisyEnv : Bool)
  /-- The denoised stream, or the stream itself where RNNoise does not run. -/
  | denoised (active : Bool)
  /-- A stream of the camera alone. -/
  | camera (video : Bool)
  | ok
  /-- The resource was created, and the answer says where or does not. -/
  | created (location : Bool)
  /-- The resource was created, and the answer was lost or empty. -/
  | lost
  | failed
  deriving DecidableEq, Repr

/-- With the reply, `start` or `connect` goes on to the broadcast or reports that it failed. -/
def WhipTask.goesOn : WhipTask → WhipReply → Bool
  | .cameraMedia, _ | .whipDelete, _ | .setRemoteDescription true, .ok => false
  | _, _ => true

/-- What the publisher distinguishes of the state of its connection. -/
inductive WhipConnState where
  | connected
  /-- `failed` or `disconnected`. -/
  | dropped
  | other
  deriving DecidableEq, Repr

/-- The fields of the publisher, the methods that wait, and everything that was ever opened. -/
structure WhipPublisher where
  pc : Option Nat
  stream : Option Nat
  /-- The stream of the device behind the denoiser. -/
  rawStream : Option Nat
  resourceUrl : Option Nat
  cameraTrack : Option MediaTrack
  publishedWithVideo : Bool
  state : WhipState
  reconnected : Bool
  stopped : Bool
  tasks : List WhipTask
  /-- The peer connections, each with whether it was closed. -/
  pcs : List Bool
  /-- The tracks that were captured, each with whether it was stopped. -/
  tracks : List Bool
  /-- The tracks of each stream. -/
  streams : List (List MediaTrack)
  /-- The WHIP resources at the media server, each with whether it was sent a DELETE. -/
  resources : List Bool
  deriving DecidableEq, Repr

inductive WhipEvent where
  | start
  | stop
  | toggleCamera (on : Bool)
  | connState (st : WhipConnState)
  /-- A task gets its reply. -/
  | reply (i : Nat) (reply : WhipReply)
  deriving DecidableEq, Repr

namespace WhipPublisher

def new : WhipPublisher where
  pc := none
  stream := none
  rawStream := none
  resourceUrl := none
  cameraTrack := none
  publishedWithVideo := false
  state := .idle
  reconnected := false
  stopped := false
  tasks := []
  pcs := []
  tracks := []
  streams := []
  resources := []

/-- `getTracks` -/
def tracksOf (s : WhipPublisher) (stream : Nat) : List MediaTrack := s.streams.getD stream []

/-- `getVideoTracks` -/
def videoTracksOf (s : WhipPublisher) (stream : Nat) : List MediaTrack :=
  (s.tracksOf stream).filter fun t => t.kind = .video

/-- The tracks that the fields hold. -/
def heldTracks (s : WhipPublisher) : List MediaTrack :=
  (s.stream.toList ++ s.rawStream.toList).flatMap s.tracksOf

def isCameraOn (s : WhipPublisher) : Bool :=
  s.cameraTrack.any fun track => s.tracks[track.id]? = some false

def wait (s : WhipPublisher) (task : WhipTask) : WhipPublisher :=
  { s with tasks := s.tasks ++ [task] }

def setState (s : WhipPublisher) (state : WhipState) : WhipPublisher := { s with state }

def closePc (s : WhipPublisher) : WhipPublisher :=
  match s.pc with
  | none => s
  | some pc => { s with pcs := close s.pcs pc, pc := none }

/-- Stop and drop every captured track. -/
def teardownMedia (s : WhipPublisher) : WhipPublisher :=
  { s with
    tracks := closeAll s.tracks (s.heldTracks.map MediaTrack.id)
    rawStream := none
    stream := none
    cameraTrack := none }

/-- `void whipDelete(this.resourceUrl)`, and the resource is forgotten. -/
def dropResource (s : WhipPublisher) : WhipPublisher :=
  match s.resourceUrl with
  | none => s
  | some url => { s with resources := close s.resources url, resourceUrl := none }

/-- `connect`, up to its first wait. -/
def connect (s : WhipPublisher) (isRestart : Bool) : WhipPublisher := s.wait (.goLive isRestart)

/-- What the callers of `connect` do when it fails: `start` drops the media as well. -/
def connectFailed (s : WhipPublisher) (isRestart : Bool) : WhipPublisher :=
  if isRestart then s.setState .error else (s.setState .error).teardownMedia

/-- The rest of `republish` and `tryReconnect`. -/
def reconnect (s : WhipPublisher) : WhipPublisher := s.dropResource.closePc.connect true

def republish (s : WhipPublisher) : WhipPublisher := if s.stopped then s else s.reconnect

def tryReconnect (s : WhipPublisher) : WhipPublisher :=
  if s.stopped then s
  else if s.reconnected then s.setState .error
  else { s with reconnected := true, state := .reconnecting }.reconnect

def onConnState (s : WhipPublisher) (st : WhipConnState) : WhipPublisher :=
  if s.stopped || s.pc.isNone then s
  else
    match st with
    | .connected => { s with reconnected := false, state := .onAir }
    | .dropped => s.tryReconnect
    | .other => s

/-- `start`, up to the request for the microphone. -/
def start (s : WhipPublisher) : WhipPublisher :=
  { s with stopped := false, reconnected := false, state := .connecting }.wait .startMedia

/-- `start` with the stream that it publishes. -/
def publish (s : WhipPublisher) : WhipPublisher :=
  { s with cameraTrack := s.stream.bind fun stream => (s.videoTracksOf stream).head? }.connect false

/-- A stream with new tracks. -/
def capture (s : WhipPublisher) (kinds : List MediaKind) : WhipPublisher :=
  { s with
    tracks := s.tracks ++ List.replicate kinds.length false
    streams := s.streams ++ [kinds.mapIdx fun i kind => ⟨s.tracks.length + i, kind⟩]
    stream := some s.streams.length }

/-- `start` with what the user has granted. -/
def mediaGranted (s : WhipPublisher) (kinds : List MediaKind) (noisyEnv : Bool) : WhipPublisher :=
  if noisyEnv then
    { s.capture kinds with rawStream := some s.streams.length }.wait (.denoiser s.streams.length)
  else (s.capture kinds).publish

/-- `start` with the denoised stream: the audio is a new track, and the video is carried over. -/
def denoised (s : WhipPublisher) (input : Nat) (active : Bool) : WhipPublisher :=
  if active then
    { s with
      tracks := s.tracks ++ [false]
      streams := s.streams ++ [MediaTrack.mk s.tracks.length .audio :: s.videoTracksOf input]
      stream := some s.streams.length }.publish
  else { s with stream := some input }.publish

/-- `connect` with a fresh URL: the peer connection is made, and takes the tracks. -/
def wentLive (s : WhipPublisher) (isRestart : Bool) : WhipPublisher :=
  let made : WhipPublisher := { s with pcs := s.pcs ++ [false], pc := some s.pcs.length }
  match s.stream with
  -- `this.stream!` is null, and the method throws
  | none => made.connectFailed isRestart
  | some stream =>
    { made with publishedWithVideo := !(s.videoTracksOf stream).isEmpty }.wait (.offer isRestart)

/-- `connect` with the answer of the media server. -/
def answered (s : WhipPublisher) (isRestart location : Bool) : WhipPublisher :=
  { s with
    resources := s.resources ++ [false]
    resourceUrl := if location then some s.resources.length else none }.wait
      (.setRemoteDescription isRestart)

/-- `connect` without an answer, from a server that has created the resource. -/
def answerLost (s : WhipPublisher) (isRestart : Bool) : WhipPublisher :=
  { s with resources := s.resources ++ [false] }.connectFailed isRestart

/-- The end of `connect`. -/
def connected (s : WhipPublisher) (isRestart : Bool) : WhipPublisher :=
  if isRestart then s else s.setState .connecting

def toggleCamera (s : WhipPublisher) (on : Bool) : WhipPublisher :=
  if s.pc.isNone then s
  else
    match s.stream with
    | none => s
    | some stream =>
      if on then if s.isCameraOn then s else s.wait .cameraMedia
      else
        match s.cameraTrack with
        | none => s
        | some track => { s with
          tracks := close s.tracks track.id
          streams := s.streams.modify stream fun ts => ts.filter fun t => t ≠ track
          cameraTrack := none }

/-- `toggleCamera` with what the camera has granted. -/
def cameraGranted (s : WhipPublisher) (video : Bool) : WhipPublisher :=
  if !video then s
  else
    let track : MediaTrack := ⟨s.tracks.length, .video⟩
    let captured : WhipPublisher :=
      { s with tracks := s.tracks ++ [false], cameraTrack := some track }
    match s.stream with
    -- `this.stream` is null by now, and the method throws
    | none => captured
    | some stream =>
      let added : WhipPublisher :=
        { captured with streams := s.streams.modify stream fun ts => ts ++ [track] }
      if s.publishedWithVideo then added else added.republish

/-- The rest of `stop`. -/
def release (s : WhipPublisher) : WhipPublisher :=
  ({ s with resourceUrl := none } : WhipPublisher).closePc.teardownMedia.setState .idle

def stop (s : WhipPublisher) : WhipPublisher :=
  if s.stopped then s
  else
    let stopping : WhipPublisher := { s with stopped := true }
    match s.resourceUrl with
    | none => stopping.release
    | some url => { stopping with resources := close s.resources url }.wait .whipDelete

/-- A task goes on with its reply; `none` where it waits for another. -/
def settle (s : WhipPublisher) : WhipTask → WhipReply → Option WhipPublisher
  | .startMedia, .media kinds noisyEnv => some (s.mediaGranted kinds noisyEnv)
  | .startMedia, .failed => some (s.setState .micDenied)
  | .denoiser input, .denoised active => some (s.denoised input active)
  | .goLive isRestart, .ok => some (s.wentLive isRestart)
  | .goLive isRestart, .failed => some (s.connectFailed isRestart)
  | .offer isRestart, .ok => some (s.wait (.whipPublish isRestart))
  | .offer isRestart, .failed => some (s.connectFailed isRestart)
  | .whipPublish isRestart, .created location => some (s.answered isRestart location)
  | .whipPublish isRestart, .lost => some (s.answerLost isRestart)
  | .whipPublish isRestart, .failed => some (s.connectFailed isRestart)
  | .setRemoteDescription isRestart, .ok => some (s.connected isRestart)
  | .setRemoteDescription isRestart, .failed => some (s.connectFailed isRestart)
  | .cameraMedia, .camera video => some (s.cameraGranted video)
  | .cameraMedia, .failed => some s
  | .whipDelete, .ok => some s.release
  | _, _ => none

/-- One event; `none` where it cannot happen. -/
def step (s : WhipPublisher) : WhipEvent → Option WhipPublisher
  | .start => some s.start
  | .stop => some s.stop
  | .toggleCamera on => some (s.toggleCamera on)
  | .connState st => some (s.onConnState st)
  | .reply i reply =>
    match s.tasks[i]? with
    | none => none
    | some task => { s with tasks := s.tasks.eraseIdx i }.settle task reply

/-- Nothing of the broadcast is left. -/
structure Released (s : WhipPublisher) : Prop where
  pcs_closed : ∀ closed ∈ s.pcs, closed = true
  tracks_stopped : ∀ stopped ∈ s.tracks, stopped = true
  resources_deleted : ∀ deleted ∈ s.resources, deleted = true
  idle : s.state = .idle

/-- Once it was stopped after the last start, and every task has settled, nothing is left. -/
def StopsAll (s : WhipPublisher) : Prop := s.stopped = true → s.tasks = [] → s.Released

/-- The resource that is held, if any, was sent its DELETE. -/
def resourceDropped (s : WhipPublisher) : Bool :=
  s.resourceUrl.all fun url => s.resources[url]? ≠ some false

/-- A reply finds nothing that it would replace unreleased, and the media that it belongs to; and an
answer that creates a resource says where. -/
def accepts (s : WhipPublisher) : WhipTask → WhipReply → Bool
  | .startMedia, .media _ _ => s.stream.isNone && s.rawStream.isNone
  | .denoiser input, .denoised _ => s.stream = some input && s.rawStream = some input
  | .goLive _, .ok => s.pc.isNone
  | .whipPublish _, .created location => location && s.resourceDropped
  | .whipPublish _, .lost => false
  | .cameraMedia, .camera video => !video || s.stream.isSome
  | .whipDelete, .ok => s.resourceDropped
  | _, _ => true

/-- No method goes on to a broadcast once the publisher is stopped, and every task accepts its
reply. -/
def accountsFor (s : WhipPublisher) : WhipEvent → Bool
  | .reply i reply =>
    s.tasks[i]?.all fun task => !(s.stopped && task.goesOn reply) && s.accepts task reply
  | _ => true

/-! ## What is held -/

variable {s t : WhipPublisher}

@[simp] lemma wait_stopped (task : WhipTask) : (s.wait task).stopped = s.stopped := rfl

@[simp] lemma setState_stopped (state : WhipState) : (s.setState state).stopped = s.stopped := rfl

@[simp] lemma teardownMedia_stopped : s.teardownMedia.stopped = s.stopped := rfl

@[simp] lemma closePc_stopped : s.closePc.stopped = s.stopped := by
  rw [closePc]
  split <;> rfl

@[simp] lemma closePc_pc : s.closePc.pc = none := by
  rw [closePc]
  split
  · assumption
  · rfl

@[simp] lemma dropResource_stopped : s.dropResource.stopped = s.stopped := by
  rw [dropResource]
  split <;> rfl

@[simp] lemma connectFailed_stopped (isRestart : Bool) :
    (s.connectFailed isRestart).stopped = s.stopped := by
  cases isRestart <;> rfl

@[simp] lemma reconnect_stopped : s.reconnect.stopped = s.stopped := by
  simp [reconnect, connect]

@[simp] lemma publish_stopped : s.publish.stopped = s.stopped := rfl

lemma mem_heldTracks {track : MediaTrack} :
    track ∈ s.heldTracks ↔
      (∃ stream ∈ s.stream, track ∈ s.tracksOf stream) ∨
        ∃ raw ∈ s.rawStream, track ∈ s.tracksOf raw := by
  simp only [heldTracks, List.mem_flatMap, List.mem_append, Option.mem_toList, Option.mem_def]
  constructor
  · rintro ⟨stream, hstream | hraw, hmem⟩
    · exact .inl ⟨stream, hstream, hmem⟩
    · exact .inr ⟨stream, hraw, hmem⟩
  · rintro (⟨stream, hstream, hmem⟩ | ⟨raw, hraw, hmem⟩)
    · exact ⟨stream, .inl hstream, hmem⟩
    · exact ⟨raw, .inr hraw, hmem⟩

/-- A held track stays held when the tracks of a stream change to some that keep it. -/
lemma heldTracks_modify {stream : Nat} {f : List MediaTrack → List MediaTrack}
    {track : MediaTrack} {tracks : List Bool} {cameraTrack : Option MediaTrack}
    (hf : ∀ ts, track ∈ ts → track ∈ f ts) (hmem : track ∈ s.heldTracks) :
    track ∈ heldTracks { s with tracks, cameraTrack, streams := s.streams.modify stream f } := by
  have hkept (other : Nat) (hother : track ∈ s.tracksOf other) :
      track ∈ (s.streams.modify stream f).getD other [] := by
    rw [tracksOf, List.getD_eq_getElem?_getD] at hother
    rw [List.getD_eq_getElem?_getD, List.getElem?_modify]
    cases hts : s.streams[other]? with
    | none => simp [hts] at hother
    | some ts =>
      rw [hts] at hother
      by_cases heq : stream = other
      · simpa [heq] using hf ts hother
      · simpa [heq] using hother
  rw [mem_heldTracks] at hmem ⊢
  rcases hmem with ⟨held, hstream, hmem⟩ | ⟨raw, hraw, hmem⟩
  · exact .inl ⟨held, hstream, hkept held hmem⟩
  · exact .inr ⟨raw, hraw, hkept raw hmem⟩

/-- Whatever is open is held by the fields. -/
structure Held (s : WhipPublisher) : Prop where
  pcs : HeldBy s.pcs fun pc => s.pc = some pc
  tracks : HeldBy s.tracks fun i => ∃ track ∈ s.heldTracks, track.id = i
  resources : HeldBy s.resources fun url => s.resourceUrl = some url
  stream_lt : ∀ stream ∈ s.stream, stream < s.streams.length

namespace Held

lemma new : Held new where
  pcs := .nil
  tracks := .nil
  resources := .nil
  stream_lt := by simp [WhipPublisher.new]

lemma wait (h : Held s) (task : WhipTask) : Held (s.wait task) := { h with }

lemma setState (h : Held s) (state : WhipState) : Held (s.setState state) := { h with }

lemma publish (h : Held s) : Held s.publish := { h with }

lemma closePc (h : Held s) : Held s.closePc := by
  rw [WhipPublisher.closePc]
  split
  · exact h
  · next pc hpc =>
    refine { h with pcs := (h.pcs.close pc).imp fun i hi => ?_ }
    exact absurd (Option.some_inj.mp (hi.1.symm.trans hpc)) hi.2

lemma dropResource (h : Held s) : Held s.dropResource := by
  rw [WhipPublisher.dropResource]
  split
  · exact h
  · next url hurl =>
    refine { h with resources := (h.resources.close url).imp fun i hi => ?_ }
    exact absurd (Option.some_inj.mp (hi.1.symm.trans hurl)) hi.2

lemma teardownMedia (h : Held s) : Held s.teardownMedia where
  pcs := h.pcs
  tracks := by
    refine (h.tracks.closeAll _).imp fun i hi => ?_
    obtain ⟨⟨track, hmem, rfl⟩, hnot⟩ := hi
    exact absurd (List.mem_map_of_mem hmem) hnot
  resources := h.resources
  stream_lt := by simp [WhipPublisher.teardownMedia]

lemma connectFailed (h : Held s) (isRestart : Bool) : Held (s.connectFailed isRestart) := by
  cases isRestart with
  | true => exact h.setState .error
  | false => exact (h.setState .error).teardownMedia

lemma reconnect (h : Held s) : Held s.reconnect := h.dropResource.closePc.wait _

lemma onConnState (h : Held s) (st : WhipConnState) : Held (s.onConnState st) := by
  rw [WhipPublisher.onConnState.eq_def]
  split_ifs
  · exact h
  · cases st with
    | connected => exact { h with }
    | other => exact h
    | dropped =>
      rw [tryReconnect]
      split_ifs
      · exact h
      · exact h.setState .error
      · have hreconnecting : Held { s with reconnected := true, state := .reconnecting } :=
          { h with }
        exact hreconnecting.reconnect

lemma capture (h : Held s) (hstream : s.stream = none) (hraw : s.rawStream = none)
    (kinds : List MediaKind) : Held (s.capture kinds) := by
  refine { h with tracks := HeldBy.append ?_ _ ?_, stream_lt := ?_ }
  · refine h.tracks.imp fun i hi => ?_
    obtain ⟨track, hmem, -⟩ := hi
    simp [mem_heldTracks, hstream, hraw] at hmem
  · intro i hi
    refine ⟨⟨s.tracks.length + i, kinds[i]⟩, mem_heldTracks.mpr (.inl ⟨_, rfl, ?_⟩), rfl⟩
    simpa [WhipPublisher.capture, tracksOf, List.mem_mapIdx] using hi
  · intro stream hmem
    cases hmem
    simp [WhipPublisher.capture]

lemma mediaGranted (h : Held s) (hstream : s.stream = none) (hraw : s.rawStream = none)
    (kinds : List MediaKind) (noisyEnv : Bool) : Held (s.mediaGranted kinds noisyEnv) := by
  have hcaptured := h.capture hstream hraw kinds
  rw [WhipPublisher.mediaGranted]
  split_ifs
  · refine { hcaptured with tracks := hcaptured.tracks.imp fun i hi => ?_ }
    obtain ⟨track, hmem, hid⟩ := hi
    rw [mem_heldTracks] at hmem
    refine ⟨track, mem_heldTracks.mpr (.inl ?_), hid⟩
    exact hmem.resolve_right (by simp [WhipPublisher.capture, hraw])
  · exact hcaptured.publish

/-- The denoised stream is held beside the one it was made of. -/
lemma denoised (h : Held s) {input : Nat} (hstream : s.stream = some input)
    (hraw : s.rawStream = some input) (active : Bool) : Held (s.denoised input active) := by
  rw [WhipPublisher.denoised]
  split_ifs
  · refine Held.publish { h with tracks := HeldBy.append_one ?_ ?_, stream_lt := ?_ }
    · refine h.tracks.imp fun i hi => ?_
      obtain ⟨track, hmem, hid⟩ := hi
      have hinput : track ∈ s.tracksOf input := by
        simpa [mem_heldTracks, hstream, hraw] using hmem
      refine ⟨track, mem_heldTracks.mpr (.inr ⟨input, hraw, ?_⟩), hid⟩
      have hlt := h.stream_lt input hstream
      simpa [tracksOf, List.getElem?_append_left hlt] using hinput
    · refine ⟨⟨s.tracks.length, .audio⟩, mem_heldTracks.mpr (.inl ⟨_, rfl, ?_⟩), rfl⟩
      simp [tracksOf]
    · intro stream hmem
      cases hmem
      simp
  · rw [← hstream]
    exact { h with }

lemma wentLive (h : Held s) (hpc : s.pc = none) (isRestart : Bool) :
    Held (s.wentLive isRestart) := by
  have hmade : Held { s with pcs := s.pcs ++ [false], pc := some s.pcs.length } := by
    refine { h with pcs := HeldBy.append_one ?_ rfl }
    refine h.pcs.imp fun i hi => ?_
    cases hpc.symm.trans hi
  rw [WhipPublisher.wentLive]
  split
  · exact hmade.connectFailed isRestart
  · exact { hmade with }

/-- Nothing is open at the media server once the resource that is held was dropped. -/
lemma no_resource (h : Held s) (hdropped : s.resourceDropped = true) (held : Nat → Prop) :
    HeldBy s.resources held := by
  intro url hurl
  have hheld := h.resources url hurl
  simp [resourceDropped, hheld, hurl] at hdropped

lemma answered (h : Held s) (hdropped : s.resourceDropped = true) (isRestart : Bool) :
    Held (s.answered isRestart true) :=
  { h with resources := (h.no_resource hdropped _).append_one rfl }

lemma toggleCamera (h : Held s) (on : Bool) : Held (s.toggleCamera on) := by
  rw [WhipPublisher.toggleCamera.eq_def]
  split
  · exact h
  split
  · exact h
  · next stream hstream =>
    split_ifs
    · exact h
    · exact h.wait _
    · split
      · exact h
      · next track htrack =>
        refine { h with tracks := (h.tracks.close track.id).imp fun i hi => ?_, stream_lt := ?_ }
        · obtain ⟨⟨held, hmem, rfl⟩, hne⟩ := hi
          refine ⟨held, heldTracks_modify (fun ts hts => ?_) hmem, rfl⟩
          simpa [List.mem_filter, hts] using ne_of_apply_ne MediaTrack.id hne
        · simpa using h.stream_lt

/-- The track of the camera joins the stream that is held. -/
lemma cameraGranted (h : Held s) (video : Bool)
    (hstream : video = true → s.stream.isSome = true) : Held (s.cameraGranted video) := by
  rw [WhipPublisher.cameraGranted.eq_def]
  split
  · exact h
  split
  · next hvideo _ hnone => exact absurd (hstream (by simpa using hvideo)) (by simp [hnone])
  next stream hsome =>
  have hadded : Held { s with
      tracks := s.tracks ++ [false]
      cameraTrack := some ⟨s.tracks.length, .video⟩
      streams := s.streams.modify stream (· ++ [⟨s.tracks.length, .video⟩]) } := by
    refine { h with tracks := HeldBy.append_one ?_ ?_, stream_lt := by simpa using h.stream_lt }
    · refine h.tracks.imp fun i hi => ?_
      obtain ⟨track, hmem, hid⟩ := hi
      exact ⟨track, heldTracks_modify (fun ts hts => List.mem_append_left _ hts) hmem, hid⟩
    · refine ⟨⟨s.tracks.length, .video⟩, mem_heldTracks.mpr (.inl ⟨stream, hsome, ?_⟩), rfl⟩
      simp [tracksOf, List.getElem?_eq_getElem (h.stream_lt stream hsome)]
  split
  · exact hadded
  · rw [republish]
    split_ifs
    · exact hadded
    · exact hadded.reconnect

lemma release (h : Held s) (hdropped : s.resourceDropped = true) : Held s.release := by
  have hforgotten : Held { s with resourceUrl := none } :=
    { h with resources := h.no_resource hdropped _ }
  exact hforgotten.closePc.teardownMedia.setState .idle

lemma stop (h : Held s) : Held s.stop := by
  rw [WhipPublisher.stop.eq_def]
  split_ifs
  · exact h
  · have hstopping : Held { s with stopped := true } := { h with }
    split
    · next hurl => exact hstopping.release (by simp [resourceDropped, hurl])
    · next url hurl =>
      exact { h with resources := (h.resources.close url).imp fun i hi => hi.1 }

lemma settle (h : Held s) {task : WhipTask} {reply : WhipReply}
    (haccepts : s.accepts task reply = true) (hsettle : s.settle task reply = some t) : Held t := by
  cases task with
  | startMedia =>
    cases reply with
    | media kinds noisyEnv =>
      cases hsettle
      have hnone : s.stream = none ∧ s.rawStream = none := by simpa [accepts] using haccepts
      exact h.mediaGranted hnone.1 hnone.2 kinds noisyEnv
    | failed =>
      cases hsettle
      exact h.setState _
    | _ => cases hsettle
  | denoiser input =>
    cases reply with
    | denoised active =>
      cases hsettle
      have hinput : s.stream = some input ∧ s.rawStream = some input := by
        simpa [accepts] using haccepts
      exact h.denoised hinput.1 hinput.2 active
    | _ => cases hsettle
  | goLive isRestart =>
    cases reply with
    | ok =>
      cases hsettle
      exact h.wentLive (by simpa [accepts] using haccepts) isRestart
    | failed =>
      cases hsettle
      exact h.connectFailed isRestart
    | _ => cases hsettle
  | offer isRestart =>
    cases reply with
    | ok =>
      cases hsettle
      exact h.wait _
    | failed =>
      cases hsettle
      exact h.connectFailed isRestart
    | _ => cases hsettle
  | whipPublish isRestart =>
    cases reply with
    | created location =>
      cases hsettle
      have hdropped : location = true ∧ s.resourceDropped = true := by
        simpa [accepts] using haccepts
      rw [hdropped.1]
      exact h.answered hdropped.2 isRestart
    | lost => cases haccepts
    | failed =>
      cases hsettle
      exact h.connectFailed isRestart
    | _ => cases hsettle
  | setRemoteDescription isRestart =>
    cases reply with
    | ok =>
      cases hsettle
      rw [connected]
      split_ifs
      · exact h
      · exact h.setState _
    | failed =>
      cases hsettle
      exact h.connectFailed isRestart
    | _ => cases hsettle
  | cameraMedia =>
    cases reply with
    | camera video =>
      cases hsettle
      refine h.cameraGranted video fun hvideo => ?_
      simpa [accepts, hvideo] using haccepts
    | failed =>
      cases hsettle
      exact h
    | _ => cases hsettle
  | whipDelete =>
    cases reply with
    | ok =>
      cases hsettle
      exact h.release haccepts
    | _ => cases hsettle

end Held

/-! ## Runs -/

@[simp] lemma mediaGranted_stopped (kinds : List MediaKind) (noisyEnv : Bool) :
    (s.mediaGranted kinds noisyEnv).stopped = s.stopped := by
  cases noisyEnv <;> rfl

@[simp] lemma denoised_stopped (input : Nat) (active : Bool) :
    (s.denoised input active).stopped = s.stopped := by
  cases active <;> rfl

@[simp] lemma wentLive_stopped (isRestart : Bool) :
    (s.wentLive isRestart).stopped = s.stopped := by
  rw [wentLive.eq_def]
  split <;> simp

@[simp] lemma connected_stopped (isRestart : Bool) :
    (s.connected isRestart).stopped = s.stopped := by
  cases isRestart <;> rfl

@[simp] lemma release_stopped : s.release.stopped = s.stopped := by
  simp [release]

@[simp] lemma republish_stopped : s.republish.stopped = s.stopped := by
  rw [republish]
  split_ifs <;> simp

@[simp] lemma onConnState_stopped (st : WhipConnState) :
    (s.onConnState st).stopped = s.stopped := by
  rw [onConnState.eq_def, tryReconnect]
  split_ifs <;> cases st <;> simp

@[simp] lemma cameraGranted_stopped (video : Bool) :
    (s.cameraGranted video).stopped = s.stopped := by
  rw [cameraGranted.eq_def]
  split
  · rfl
  split
  · rfl
  · split <;> simp

/-- A camera that is granted after `stop` is not published. -/
lemma cameraGranted_tasks (hstopped : s.stopped = true) (video : Bool) :
    (s.cameraGranted video).tasks = s.tasks := by
  rw [cameraGranted.eq_def]
  split
  · rfl
  split
  · rfl
  · split
    · rfl
    · simp [republish, hstopped]

@[simp] lemma toggleCamera_stopped (on : Bool) : (s.toggleCamera on).stopped = s.stopped := by
  rw [toggleCamera.eq_def]
  repeat' split
  all_goals rfl

lemma toggleCamera_tasks_subset (on : Bool) {task : WhipTask} (h : task ∈ s.tasks) :
    task ∈ (s.toggleCamera on).tasks := by
  rw [toggleCamera.eq_def]
  repeat' split
  all_goals simp [wait, h]

/-- Only `start` and `stop` write the flag. -/
lemma settle_stopped {task : WhipTask} {reply : WhipReply} (h : s.settle task reply = some t) :
    t.stopped = s.stopped := by
  cases task <;> cases reply <;> cases h <;> simp [answered, answerLost]

/-- Nothing is held, and the publisher is idle. -/
structure Empty (s : WhipPublisher) : Prop where
  pc : s.pc = none
  stream : s.stream = none
  rawStream : s.rawStream = none
  resourceUrl : s.resourceUrl = none
  idle : s.state = .idle

lemma release_empty (s : WhipPublisher) : s.release.Empty where
  pc := closePc_pc
  stream := rfl
  rawStream := rfl
  resourceUrl := by
    simp only [release, setState, teardownMedia, closePc]
    split <;> rfl
  idle := rfl

/-- Whatever is open is held; and once the publisher is stopped, nothing is, or `stop` has yet to
release it. -/
structure Accounted (s : WhipPublisher) : Prop extends Held s where
  released : s.stopped = true → .whipDelete ∈ s.tasks ∨ s.Empty

namespace Accounted

lemma new : Accounted new where
  toHeld := .new
  released := by simp [WhipPublisher.new]

lemma of_running (h : Held s) (hrunning : s.stopped = false) : Accounted s where
  toHeld := h
  released hstopped := by simp [hrunning] at hstopped

lemma stopsAll (h : Accounted s) : s.StopsAll := by
  intro hstopped htasks
  have hempty : s.Empty := (h.released hstopped).resolve_left (by simp [htasks])
  refine ⟨h.pcs.all_closed ?_, h.tracks.all_closed ?_, h.resources.all_closed ?_, hempty.idle⟩
  · simp [hempty.pc]
  · simp [mem_heldTracks, hempty.stream, hempty.rawStream]
  · simp [hempty.resourceUrl]

lemma stop (h : Accounted s) : Accounted s.stop := by
  have hheld := h.toHeld.stop
  rw [WhipPublisher.stop.eq_def] at hheld ⊢
  by_cases hstopped : s.stopped = true
  · rwa [if_pos hstopped]
  rw [if_neg hstopped] at hheld ⊢
  cases hurl : s.resourceUrl with
  | none =>
    simp only [hurl] at hheld ⊢
    exact { hheld with released := fun _ => .inr (release_empty _) }
  | some url =>
    simp only [hurl] at hheld ⊢
    exact { hheld with
      released := fun _ => .inl (List.mem_append_right _ (List.mem_singleton_self _)) }

lemma toggleCamera (h : Accounted s) (on : Bool) : Accounted (s.toggleCamera on) := by
  have hheld := h.toHeld.toggleCamera on
  by_cases hstopped : s.stopped = true
  · -- a publisher that holds nothing does not ask for the camera
    by_cases hempty : s.Empty
    · have heq : s.toggleCamera on = s := by simp [WhipPublisher.toggleCamera, hempty.pc]
      rwa [heq]
    · have hdeleting := (h.released hstopped).resolve_right hempty
      exact { hheld with released := fun _ => .inl (toggleCamera_tasks_subset on hdeleting) }
  · exact of_running hheld (by simpa using hstopped)

lemma onConnState (h : Accounted s) (st : WhipConnState) : Accounted (s.onConnState st) := by
  by_cases hstopped : s.stopped = true
  · have heq : s.onConnState st = s := by simp [WhipPublisher.onConnState, hstopped]
    rwa [heq]
  · exact of_running (h.toHeld.onConnState st) (by simpa using hstopped)

/-- A task that leaves the others, and is not the DELETE that `stop` waits for. -/
lemma erased (h : Accounted s) {i : Nat} {task : WhipTask} (htask : s.tasks[i]? = some task)
    (hne : task ≠ .whipDelete) : Accounted { s with tasks := s.tasks.eraseIdx i } := by
  refine { h with released := fun hstopped => ?_ }
  rcases h.released hstopped with hdeleting | hempty
  · obtain ⟨j, hj⟩ := List.mem_iff_getElem?.mp hdeleting
    refine .inl (List.mem_eraseIdx_iff_getElem?.mpr ⟨j, fun heq => hne ?_, hj⟩)
    rw [heq, htask] at hj
    exact Option.some_inj.mp hj
  · exact .inr { hempty with }

/-- The camera is granted while the publisher is stopped. -/
lemma cameraGranted (h : Accounted s) (hstopped : s.stopped = true) {video : Bool}
    (hstream : video = true → s.stream.isSome = true) : Accounted (s.cameraGranted video) := by
  have hheld := h.toHeld.cameraGranted video hstream
  refine { hheld with released := fun _ => ?_ }
  cases video with
  | false => exact h.released hstopped
  | true =>
    left
    rw [cameraGranted_tasks hstopped]
    refine (h.released hstopped).resolve_right fun hempty => ?_
    simp [hempty.stream] at hstream

/-- A task of a stopped publisher settles. -/
lemma settled (h : Accounted s) {i : Nat} {task : WhipTask} {reply : WhipReply}
    (htask : s.tasks[i]? = some task) (hstopped : s.stopped = true)
    (hstays : task.goesOn reply = false) (haccepts : s.accepts task reply = true)
    (hsettle : { s with tasks := s.tasks.eraseIdx i }.settle task reply = some t) :
    Accounted t := by
  have hheld : Held t :=
    Held.settle (s := { s with tasks := s.tasks.eraseIdx i }) { h.toHeld with } haccepts hsettle
  cases task with
  | cameraMedia =>
    have herased := h.erased htask (by simp)
    cases reply with
    | camera video =>
      cases hsettle
      refine herased.cameraGranted hstopped fun hvideo => ?_
      simpa [accepts, hvideo] using haccepts
    | failed =>
      cases hsettle
      exact herased
    | _ => cases hsettle
  | whipDelete =>
    cases reply with
    | ok =>
      cases hsettle
      exact { hheld with released := fun _ => .inr (release_empty _) }
    | _ => cases hsettle
  | setRemoteDescription isRestart =>
    cases isRestart with
    | true =>
      cases reply with
      | ok =>
        cases hsettle
        exact h.erased htask (by simp)
      | _ => cases hstays
    | false => cases hstays
  | _ => cases hstays

lemma step (h : Accounted s) {e : WhipEvent} (haccounts : s.accountsFor e = true)
    (hstep : s.step e = some t) : Accounted t := by
  cases e with
  | start =>
    cases hstep
    exact of_running { h.toHeld with } rfl
  | stop =>
    cases hstep
    exact h.stop
  | toggleCamera on =>
    cases hstep
    exact h.toggleCamera on
  | connState st =>
    cases hstep
    exact h.onConnState st
  | reply i reply =>
    rw [WhipPublisher.step.eq_def] at hstep
    cases htask : s.tasks[i]? with
    | none => simp [htask] at hstep
    | some task =>
      simp only [htask] at hstep
      obtain ⟨hstays, haccepts⟩ :
          (s.stopped = false ∨ task.goesOn reply = false) ∧ s.accepts task reply = true := by
        simpa [accountsFor, htask] using haccounts
      by_cases hstopped : s.stopped = true
      · exact h.settled htask hstopped (hstays.resolve_left (by simp [hstopped])) haccepts hstep
      · refine of_running (Held.settle (s := { s with tasks := s.tasks.eraseIdx i })
          { h.toHeld with } haccepts hstep) ?_
        rw [settle_stopped hstep]
        simpa using hstopped

end Accounted

/-- Stopping a broadcast stops it, in every run in which no method goes on to a broadcast once the
publisher is stopped, and no reply replaces what nobody has released. -/
theorem stopsAll_of_run {events : List WhipEvent} {s : WhipPublisher}
    (hrun : Run (Guarded (ofPartial step) fun s e => s.accountsFor e = true) new events s) :
    s.StopsAll := by
  have haccounted : Accounted s :=
    hrun.invariant Accounted (fun _ _ _ _ h hstep => h.step hstep.1 hstep.2) .new
  exact haccounted.stopsAll

/-- A broadcast whose camera is turned on, which is dropped once, and is stopped. -/
theorem stopsAll_sample : ∃ events s,
    Run (Guarded (ofPartial step) fun s e => s.accountsFor e = true) new events s ∧
      s.stopped = true ∧ s.tasks = [] ∧ s.pcs = [true, true, true] ∧ s.StopsAll := by
  let events : List WhipEvent :=
    [.start, .reply 0 (.media [.audio] true), .reply 0 (.denoised true), .reply 0 .ok, .reply 0 .ok,
      .reply 0 (.created true), .reply 0 .ok, .connState .connected, .toggleCamera true,
      .reply 0 (.camera true), .reply 0 .ok, .reply 0 .ok, .reply 0 (.created true), .reply 0 .ok,
      .connState .dropped, .reply 0 .ok, .reply 0 .ok, .reply 0 (.created true), .reply 0 .ok,
      .toggleCamera false, .stop, .reply 0 .ok]
  obtain ⟨s, hrun, hstopped, htasks, hpcs⟩ : ∃ s,
      Run (Guarded (ofPartial step) fun s e => s.accountsFor e = true) new events s ∧
        s.stopped = true ∧ s.tasks = [] ∧ s.pcs = [true, true, true] :=
    Run.exists_guarded_of_decide (by decide +kernel)
  exact ⟨events, s, hrun, hstopped, htasks, hpcs, stopsAll_of_run hrun⟩

/-- Stopped while it asks for the microphone, the publisher goes live all the same; a camera that is
granted after the stop stays on; and of two restarts at once, after a drop and for a camera, the
first leaves its connection and its resource. -/
theorem stopsAll_fails :
    (∃ s, Run (ofPartial step) new
      [.start, .stop, .reply 0 (.media [.audio] false), .reply 0 .ok, .reply 0 .ok,
        .reply 0 (.created true), .reply 0 .ok] s ∧
      s.pcs = [false] ∧ s.tracks = [false] ∧ s.resources = [false] ∧ s.state = .connecting ∧
      ¬ s.StopsAll) ∧
    (∃ s, Run (ofPartial step) new
      [.start, .reply 0 (.media [.audio] false), .reply 0 .ok, .reply 0 .ok,
        .reply 0 (.created true), .reply 0 .ok, .toggleCamera true, .stop, .reply 1 .ok,
        .reply 0 (.camera true)] s ∧
      s.tracks = [true, false] ∧ ¬ s.StopsAll) ∧
    ∃ s, Run (ofPartial step) new
      [.start, .reply 0 (.media [.audio] false), .reply 0 .ok, .reply 0 .ok,
        .reply 0 (.created true), .reply 0 .ok, .connState .connected, .toggleCamera true,
        .connState .dropped, .reply 0 (.camera true), .reply 0 .ok, .reply 0 .ok, .reply 0 .ok,
        .reply 0 .ok, .reply 0 (.created true), .reply 0 (.created true), .reply 0 .ok,
        .reply 0 .ok, .stop, .reply 0 .ok] s ∧
      s.pcs = [true, false, true] ∧ s.resources = [true, false, true] ∧ ¬ s.StopsAll := by
  refine ⟨?_, ?_, ?_⟩
  · obtain ⟨s, hrun, hpcs, htracks, hresources, hstate, hstopped, htasks⟩ : ∃ s,
        Run (ofPartial step) new
          [.start, .stop, .reply 0 (.media [.audio] false), .reply 0 .ok, .reply 0 .ok,
            .reply 0 (.created true), .reply 0 .ok] s ∧
        s.pcs = [false] ∧ s.tracks = [false] ∧ s.resources = [false] ∧ s.state = .connecting ∧
        s.stopped = true ∧ s.tasks = [] := Run.exists_of_decide (by decide +kernel)
    refine ⟨s, hrun, hpcs, htracks, hresources, hstate, fun h => ?_⟩
    have hclosed := (h hstopped htasks).pcs_closed
    simp [hpcs] at hclosed
  · obtain ⟨s, hrun, htracks, hstopped, htasks⟩ : ∃ s,
        Run (ofPartial step) new
          [.start, .reply 0 (.media [.audio] false), .reply 0 .ok, .reply 0 .ok,
            .reply 0 (.created true), .reply 0 .ok, .toggleCamera true, .stop, .reply 1 .ok,
            .reply 0 (.camera true)] s ∧
        s.tracks = [true, false] ∧ s.stopped = true ∧ s.tasks = [] :=
      Run.exists_of_decide (by decide +kernel)
    refine ⟨s, hrun, htracks, fun h => ?_⟩
    have hoff := (h hstopped htasks).tracks_stopped
    simp [htracks] at hoff
  · obtain ⟨s, hrun, hpcs, hresources, hstopped, htasks⟩ : ∃ s,
        Run (ofPartial step) new
          [.start, .reply 0 (.media [.audio] false), .reply 0 .ok, .reply 0 .ok,
            .reply 0 (.created true), .reply 0 .ok, .connState .connected, .toggleCamera true,
            .connState .dropped, .reply 0 (.camera true), .reply 0 .ok, .reply 0 .ok, .reply 0 .ok,
            .reply 0 .ok, .reply 0 (.created true), .reply 0 (.created true), .reply 0 .ok,
            .reply 0 .ok, .stop, .reply 0 .ok] s ∧
        s.pcs = [true, false, true] ∧ s.resources = [true, false, true] ∧ s.stopped = true ∧
        s.tasks = [] := Run.exists_of_decide (by decide +kernel)
    refine ⟨s, hrun, hpcs, hresources, fun h => ?_⟩
    have hdeleted := (h hstopped htasks).resources_deleted
    simp [hresources] at hdeleted

end WhipPublisher

end VoxTranslate.Client
