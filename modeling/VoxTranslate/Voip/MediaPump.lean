import VoxTranslate.Lib.Json
import VoxTranslate.Lib.Run

/-!
# The media pump of a phone leg

One task serves the media socket of a call.  It takes audio frames from the phone, decides from
their energy whether the far party begins to speak, and takes frames from the room channel of the
leg, of which it writes the translated audio to the socket.  The two streams are taken in any
order.  What the codecs, the resamplers and the byte-order detection make of the samples is a
parameter; they read no other state.
-/

namespace VoxTranslate.Voip

open Lib

/-- The largest `usize`. -/
def usizeMax : Nat := 18446744073709551615

/-- The largest `u32`. -/
def u32Max : Nat := 4294967295

/-! ## The gate -/

/-- Which utterance is being played, and how much of it the provider still has. -/
structure PlaybackGate where
  generation : Nat
  inFlightBytes : Nat
  deriving DecidableEq, Repr

namespace PlaybackGate

def new : PlaybackGate := ⟨0, 0⟩

/-- Whether a chunk may go to the wire, and the gate after it. -/
def accept (g : PlaybackGate) (generation bytes : Nat) : Bool × PlaybackGate :=
  if generation ≠ g.generation then (false, g)
  else (true, { g with inFlightBytes := min (g.inFlightBytes + bytes) usizeMax })

/-- Abandon the current utterance; whether anything was in flight. -/
def bargeIn (g : PlaybackGate) : Bool × PlaybackGate :=
  (decide (0 < g.inFlightBytes), ⟨g.generation + 1, 0⟩)

/-- A chunk of a superseded utterance is refused. -/
lemma accept_superseded (g : PlaybackGate) (bytes : Nat) :
    (g.bargeIn.2.accept g.generation bytes).1 = false := by
  simp [bargeIn, accept]

/-- A chunk that is stamped when it is written is never refused. -/
lemma accept_current (g : PlaybackGate) (bytes : Nat) :
    (g.accept g.generation bytes).1 = true := by
  simp [accept]

end PlaybackGate

/-! ## Voice activity -/

inductive MediaCodec where
  | pcmu
  | pcma
  | g722
  | opus
  | l16
  deriving DecidableEq, Repr

/-- Sample rate of the wire format, in Hz. -/
def MediaCodec.sampleRate : MediaCodec → Nat
  | .pcmu | .pcma | .g722 => 8000
  | .opus | .l16 => 16000

/-- Mean amplitude above which a frame counts as speech. -/
def speechAmplitudeThreshold : Nat := 500

/-- How long non-speech must last before the far party is done talking. -/
def speechHangoverMs : Nat := 500

structure FarPartyVad where
  speaking : Bool
  silenceRun : Nat
  hangoverSamples : Nat
  onset : Bool
  deriving DecidableEq, Repr

namespace FarPartyVad

def new (wireRateHz : Nat) : FarPartyVad :=
  ⟨false, 0, wireRateHz * speechHangoverMs / 1000, false⟩

/-- Feed the samples of one frame. -/
def observe (v : FarPartyVad) (samples : List Int) : FarPartyVad :=
  if samples = [] then v else
  let meanAbs := (samples.map Int.natAbs).sum / samples.length
  if speechAmplitudeThreshold < meanAbs then
    { v with speaking := true, onset := v.onset || !v.speaking, silenceRun := 0 }
  else if v.speaking then
    -- the length is cast to `u32`, and only the addition saturates
    let silenceRun := min (v.silenceRun + samples.length % (u32Max + 1)) u32Max
    if v.hangoverSamples ≤ silenceRun then { v with speaking := false, silenceRun := 0 }
    else { v with silenceRun }
  else v

/-- Report and reset the onset. -/
def takeOnset (v : FarPartyVad) : Bool × FarPartyVad := (v.onset, { v with onset := false })

end FarPartyVad

/-! ## The leg -/

/-- What the codecs, the resamplers and the byte-order detection do, with their state. -/
structure Conversions (κ : Type) where
  /-- The state for a codec that was just negotiated. -/
  new : MediaCodec → κ
  /-- The decoded samples at the wire rate, and the audio for the engine. -/
  decodeUp : MediaCodec → κ → String → Option (List Int × List UInt8 × κ)
  /-- The payload for the wire. -/
  encodeDown : MediaCodec → κ → List UInt8 → Option (String × κ)
  /-- Base64. -/
  decodeB64 : String → Option (List UInt8)

structure Leg (κ : Type) where
  codec : MediaCodec
  confirmed : Bool
  conv : κ
  gate : PlaybackGate
  vad : FarPartyVad

namespace Leg

variable {κ : Type} (cv : Conversions κ)

def new (codec : MediaCodec) : Leg κ :=
  ⟨codec, false, cv.new codec, .new, .new codec.sampleRate⟩

/-- Adopt the codec the provider negotiated. -/
def renegotiate (leg : Leg κ) (codec : MediaCodec) : Leg κ :=
  if codec = leg.codec then { leg with confirmed := true }
  else { leg with
    confirmed := true, codec, conv := cv.new codec, vad := .new codec.sampleRate }

/-- Wire audio to engine audio; the voice activity advances. -/
def decodeUp (leg : Leg κ) (payloadB64 : String) : Option (List UInt8 × Leg κ) :=
  (cv.decodeUp leg.codec leg.conv payloadB64).map fun (samples, pcm, conv) =>
    (pcm, { leg with conv, vad := leg.vad.observe samples })

/-- Engine audio to wire audio. -/
def encodeDown (leg : Leg κ) (pcm : List UInt8) : Option (String × Leg κ) :=
  (cv.encodeDown leg.codec leg.conv pcm).map fun (payload, conv) => (payload, { leg with conv })

end Leg

/-! ## The pump -/

/-- A frame from the provider's media socket. -/
inductive Inbound where
  | connected
  | start (codec : MediaCodec) (sampleRate : Nat)
  | media (payloadB64 track : String)
  | dtmf (digit : Char)
  | stop
  | other (event : String)
  deriving DecidableEq, Repr

/-- Why the pump ended. -/
inductive PumpExit where
  | providerEnded
  | roomEnded
  /-- A frame that cannot be parsed or converted. -/
  | mediaError
  deriving DecidableEq, Repr

/-- A frame in the room channel of the leg, `none` for a text that is no JSON, with the number of
frames queued before it. -/
structure RoomFrame where
  serial : Nat
  body : Option Json

/-- A frame written to the socket. -/
inductive Sent where
  /-- Audio, from the room frame of this number. -/
  | media (serial : Nat) (payload : String)
  /-- Discard what is queued for playback; written when so many room frames had been queued. -/
  | clear (queued : Nat)
  deriving DecidableEq, Repr

/-- The audio in a `translated_audio` room frame. -/
def translatedAudioPayload (frame : Option Json) : Option String := do
  let v ← frame
  if (← (← v.get? "type").asStr) ≠ "translated_audio" then none
  else (← v.get? "pcm16_b64").asStr

/-- The task with its channels. -/
structure Pump (κ : Type) where
  leg : Leg κ
  /-- The room channel, oldest first. -/
  fromRoom : List RoomFrame
  /-- Every frame that was ever queued in it. -/
  queued : List RoomFrame
  /-- What was written to the socket, newest first. -/
  wire : List Sent
  toEngine : List (List UInt8)
  digits : List Char
  exit : Option PumpExit

/-- What may happen next. -/
inductive PumpEvent where
  /-- The room queues a frame. -/
  | queue (body : Option Json)
  /-- A frame from the phone; `full` where the channel it goes to has no room. -/
  | incoming (frame : Inbound) (full : Bool)
  /-- A frame from the phone that cannot be parsed. -/
  | malformed
  /-- The socket is closed. -/
  | socketClosed
  /-- The next frame of the room channel is taken. -/
  | room
  /-- The room channel is closed and empty. -/
  | roomClosed

namespace Pump

variable {κ : Type} (cv : Conversions κ)

def new (codec : MediaCodec) : Pump κ := ⟨.new cv codec, [], [], [], [], [], none⟩

/-- A leg that has decoded a frame: the far party may have begun to speak. -/
def onset (s : Pump κ) (leg : Leg κ) : Pump κ :=
  let (onset, vad) := leg.vad.takeOnset
  if onset then
    let (inFlight, gate) := leg.gate.bargeIn
    { s with
      leg := { leg with vad, gate }
      wire := if inFlight then .clear s.queued.length :: s.wire else s.wire }
  else { s with leg := { leg with vad } }

/-- A frame from the phone. -/
def inbound (s : Pump κ) (full : Bool) : Inbound → Pump κ
  | .media payloadB64 _ =>
    match Leg.decodeUp cv { s.leg with confirmed := true } payloadB64 with
    | none => { s with exit := some .mediaError }
    | some (pcm, leg) =>
      let s := s.onset leg
      if full then s else { s with toEngine := pcm :: s.toEngine }
  | .dtmf digit => if full then s else { s with digits := digit :: s.digits }
  | .stop => { s with exit := some .providerEnded }
  | .start codec _ => { s with leg := s.leg.renegotiate cv codec }
  | .connected => s
  | .other _ => s

/-- A frame from the room. -/
def fromRoomFrame (s : Pump κ) (frame : RoomFrame) : Pump κ :=
  match (translatedAudioPayload frame.body).bind cv.decodeB64 with
  | none => s
  | some pcm =>
    match s.leg.encodeDown cv pcm with
    | none => { s with exit := some .mediaError }
    | some (payload, leg) =>
      -- the generation is read here, when the chunk is written
      let (accepted, gate) := leg.gate.accept leg.gate.generation payload.utf8ByteSize
      let s := { s with leg := { leg with gate } }
      if accepted then { s with wire := .media frame.serial payload :: s.wire } else s

/-- One turn; nothing happens after the pump has ended. -/
def step (s : Pump κ) (e : PumpEvent) : Option (Pump κ) :=
  if s.exit.isSome then none else
  match e with
  | .queue body =>
    let frame : RoomFrame := ⟨s.queued.length, body⟩
    some { s with fromRoom := s.fromRoom ++ [frame], queued := frame :: s.queued }
  | .incoming frame full => some (s.inbound cv full frame)
  | .malformed => some { s with exit := some .mediaError }
  | .socketClosed => some { s with exit := some .providerEnded }
  | .room =>
    match s.fromRoom with
    | [] => none
    | frame :: rest => some ({ s with fromRoom := rest }.fromRoomFrame cv frame)
  | .roomClosed => if s.fromRoom = [] then some { s with exit := some .roomEnded } else none

variable {cv} {s t : Pump κ} {e : PumpEvent}

/-- **What a turn does**: the room queues a frame, one frame is taken from the phone or from the
room, or the pump ends. -/
lemma step_cases (hstep : s.step cv e = some t) :
    s.exit = none ∧
      ((∃ body, e = .queue body ∧ t = { s with
          fromRoom := s.fromRoom ++ [⟨s.queued.length, body⟩]
          queued := ⟨s.queued.length, body⟩ :: s.queued }) ∨
        (∃ frame full, e = .incoming frame full ∧ t = s.inbound cv full frame) ∨
        (∃ frame rest, e = .room ∧ s.fromRoom = frame :: rest ∧
          t = { s with fromRoom := rest }.fromRoomFrame cv frame) ∨
        ∃ exit, t = { s with exit := some exit } ∧
          (e = .malformed ∧ exit = .mediaError ∨ e = .socketClosed ∧ exit = .providerEnded ∨
            e = .roomClosed ∧ s.fromRoom = [] ∧ exit = .roomEnded)) := by
  rw [step.eq_def] at hstep
  by_cases hexit : s.exit.isSome = true
  · rw [if_pos hexit] at hstep
    cases hstep
  rw [if_neg hexit] at hstep
  refine ⟨by simpa using hexit, ?_⟩
  cases e with
  | queue body =>
    cases hstep
    exact .inl ⟨body, rfl, rfl⟩
  | incoming frame full =>
    cases hstep
    exact .inr (.inl ⟨frame, full, rfl, rfl⟩)
  | malformed =>
    cases hstep
    exact .inr (.inr (.inr ⟨.mediaError, rfl, .inl ⟨rfl, rfl⟩⟩))
  | socketClosed =>
    cases hstep
    exact .inr (.inr (.inr ⟨.providerEnded, rfl, .inr (.inl ⟨rfl, rfl⟩)⟩))
  | room =>
    cases hroom : s.fromRoom with
    | nil => simp [hroom] at hstep
    | cons frame rest =>
      simp only [hroom, Option.some.injEq] at hstep
      exact .inr (.inr (.inl ⟨frame, rest, rfl, rfl, hstep.symm⟩))
  | roomClosed =>
    dsimp only at hstep
    split_ifs at hstep with hempty
    cases hstep
    exact .inr (.inr (.inr ⟨.roomEnded, rfl, .inr (.inr ⟨rfl, hempty, rfl⟩)⟩))

end Pump

end VoxTranslate.Voip
