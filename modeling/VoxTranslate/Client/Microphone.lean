import Mathlib.Tactic.Common

/-!
# The microphone of a Talk to Anyone session

A capture streams the microphone to one socket.  On the tiers that need PCM its start is
asynchronous, as a worklet has to be loaded, and its gate drops frames without stopping it.  The
guard decides when that gate is closed: while translated speech plays out of the device that
listens, and nobody is in the middle of a sentence.
-/

namespace VoxTranslate.Client

/-- The audio of a microphone: the stream of the device, or that stream behind RNNoise. -/
structure MicStream where
  device : Nat
  denoised : Bool
  deriving DecidableEq, Repr

/-! ## The captures -/

/-- A PCM capture.  The worklet node stands exactly while it is active; `graph` is the audio
context, which stands from the start on. -/
structure PcmCapture where
  stream : MicStream
  ws : Nat
  graph : Bool
  active : Bool
  starting : Bool
  gated : Bool
  deriving DecidableEq, Repr

namespace PcmCapture

def new (stream : MicStream) (ws : Nat) : PcmCapture := ⟨stream, ws, false, false, false, false⟩

/-- Begin capture: the context is made and the worklet is asked for. -/
def start (c : PcmCapture) : PcmCapture :=
  if c.active || c.starting then c else { c with graph := true, starting := true }

def stop (c : PcmCapture) : PcmCapture := { c with graph := false, active := false }

/-- The worklet is loaded, or cannot be.  A capture that was stopped meanwhile finds no context,
which it takes for a failure. -/
def workletReady (c : PcmCapture) (loaded : Bool) : PcmCapture :=
  if c.starting then
    if loaded && c.graph then { c with active := true, starting := false }
    else { c.stop with starting := false }
  else c

/-- Mute is stop, unmute is start. -/
def setMuted (c : PcmCapture) (muted : Bool) : PcmCapture := if muted then c.stop else c.start

def setGated (c : PcmCapture) (gated : Bool) : PcmCapture := { c with gated }

/-- A chunk of the microphone is passed on to the socket. -/
def passes (c : PcmCapture) : Bool := c.active && !c.gated

/-- The capture sends, or will once its worklet is there. -/
def running (c : PcmCapture) : Bool := c.active || (c.starting && c.graph)

/-- A capture that was stopped for good is silent whatever becomes of its worklet. -/
lemma workletReady_stop (c : PcmCapture) (loads : List Bool) :
    (loads.foldl workletReady c.stop).running = false := by
  suffices h : ∀ c : PcmCapture, c.graph = false → c.active = false →
      (loads.foldl workletReady c).running = false from h c.stop rfl rfl
  induction loads with
  | nil =>
    intro c hgraph hactive
    simp [running, hgraph, hactive]
  | cons loaded loads ih =>
    intro c hgraph hactive
    refine ih _ ?_ ?_
    all_goals
      rw [workletReady]
      split_ifs <;> simp_all [stop]

@[simp] lemma running_stop (c : PcmCapture) : c.stop.running = false := by
  simp [running, stop]

lemma running_workletReady (c : PcmCapture) (loaded : Bool)
    (h : (c.workletReady loaded).running = true) : c.running = true := by
  rw [workletReady] at h
  split_ifs at h with hstarting hloaded
  · simp_all [running]
  · simp [running, stop] at h
  · exact h

@[simp] lemma gated_start (c : PcmCapture) : c.start.gated = c.gated := by
  rw [start]
  split_ifs <;> rfl

@[simp] lemma gated_stop (c : PcmCapture) : c.stop.gated = c.gated := rfl

@[simp] lemma gated_workletReady (c : PcmCapture) (loaded : Bool) :
    (c.workletReady loaded).gated = c.gated := by
  rw [workletReady]
  split_ifs <;> rfl

@[simp] lemma gated_setMuted (c : PcmCapture) (muted : Bool) :
    (c.setMuted muted).gated = c.gated := by
  rw [setMuted]
  split_ifs <;> simp

end PcmCapture

/-- A recorder of WebM chunks, on the tiers that take them.  It starts at once. -/
structure AudioCapture where
  stream : MicStream
  ws : Nat
  active : Bool
  deriving DecidableEq, Repr

namespace AudioCapture

def start (c : AudioCapture) : AudioCapture := { c with active := true }

def stop (c : AudioCapture) : AudioCapture := { c with active := false }

def setMuted (c : AudioCapture) (muted : Bool) : AudioCapture :=
  if muted then c.stop else c.start

end AudioCapture

inductive Capture where
  | pcm (c : PcmCapture)
  | audio (c : AudioCapture)
  deriving DecidableEq, Repr

namespace Capture

def start : Capture → Capture
  | .pcm c => .pcm c.start
  | .audio c => .audio c.start

def setMuted (muted : Bool) : Capture → Capture
  | .pcm c => .pcm (c.setMuted muted)
  | .audio c => .audio (c.setMuted muted)

/-- Only a PCM capture has a gate. -/
def setGated (gated : Bool) : Capture → Capture
  | .pcm c => .pcm (c.setGated gated)
  | .audio c => .audio c

def workletReady (loaded : Bool) : Capture → Capture
  | .pcm c => .pcm (c.workletReady loaded)
  | .audio c => .audio c

end Capture

/-! ## The guard against the device's own voice -/

/-- How long loud input must persist before it counts, in milliseconds. -/
def bargeInMs : Nat := 150

/-- How long a sign of speech keeps the microphone open. -/
def speechActiveTtlMs : Nat := 2500

inductive GuardMode where
  | gate
  /-- Full duplex: never gates. -/
  | «open»
  deriving DecidableEq, Repr

structure SelfAudioGuard where
  mode : GuardMode
  playing : Bool
  gated : Bool
  speechActiveUntil : Nat
  loudSince : Option Nat
  gateCount : Nat
  bargeCount : Nat
  deriving DecidableEq, Repr

namespace SelfAudioGuard

def new (mode : GuardMode) : SelfAudioGuard := ⟨mode, false, false, 0, none, 0, 0⟩

def isSpeechActive (g : SelfAudioGuard) (now : Nat) : Bool := now < g.speechActiveUntil

def close (g : SelfAudioGuard) : SelfAudioGuard :=
  if g.gated then g else { g with gated := true, gateCount := g.gateCount + 1 }

def release (g : SelfAudioGuard) : SelfAudioGuard := { g with loudSince := none, gated := false }

/-- Switching to full duplex releases a gate that is closed. -/
def setMode (g : SelfAudioGuard) (mode : GuardMode) : SelfAudioGuard :=
  let g := { g with mode }
  if mode = .open then g.release else g

/-- Speech is in progress, or has finished. -/
def setSpeechActive (g : SelfAudioGuard) (active : Bool) (now : Nat) : SelfAudioGuard :=
  if active then release { g with speechActiveUntil := now + speechActiveTtlMs }
  else
    let g := { g with speechActiveUntil := 0 }
    if g.playing && g.mode = .gate then g.close else g

/-- An edge of the playback. -/
def onPlaybackChange (g : SelfAudioGuard) (playing : Bool) (now : Nat) : SelfAudioGuard :=
  let g := { g with playing }
  if playing then if g.mode = .gate && !g.isSpeechActive now then g.close else g
  else g.release

/-- A sample of the input level; `loud` where it may be a human voice. -/
def onLevel (g : SelfAudioGuard) (loud : Bool) (now : Nat) : SelfAudioGuard :=
  if !g.gated || !g.playing then { g with loudSince := none }
  else if !loud then { g with loudSince := none }
  else
    match g.loudSince with
    | none => { g with loudSince := some now }
    | some since =>
      if now - since < bargeInMs then g
      else release { g with bargeCount := g.bargeCount + 1 }

def reset (g : SelfAudioGuard) : SelfAudioGuard :=
  release { g with playing := false, loudSince := none, speechActiveUntil := 0 }

end SelfAudioGuard

end VoxTranslate.Client
