import VoxTranslate.Voip.Codec

/-!
# What a `start` frame negotiates

The provider's `start` frame names the codec of the leg, and the leg adopts every codec whose name
is known.  Whether it can also be decoded and encoded shows at the first audio: a codec without a
decoder or an encoder ends the call there, though the negotiation was the place to refuse it.
-/

namespace VoxTranslate.Voip

open Lib

/-! ## Frames of the media socket -/

inductive MediaError where
  /-- The text is no frame. -/
  | unreadable
  | malformed (text : String)
  | unsupportedCodec (name : String)
  deriving DecidableEq, Repr

/-- The members of a structure, from an object or, by position, from an array. -/
def fieldsOf (names : List String) : Json → Option (String → Option Json)
  | .obj members => some fun name => members.lookup name
  | .arr items =>
    if items.length ≤ names.length then some fun name => items[names.idxOf name]? else none
  | _ => none

/-- A member that may be missing or `null`. -/
def optional {α : Type} (read : Json → Option α) : Option Json → Option (Option α)
  | none => some none
  | some .null => some none
  | some v => (read v).map some

/-- An unsigned 32-bit integer. -/
def asU32 : Json → Option Nat
  | .int n => if 0 ≤ n ∧ n ≤ 4294967295 then some n.toNat else none
  | _ => none

structure RawFormat where
  encoding : Option String
  sampleRate : Option Nat

structure RawStart where
  mediaFormat : Option RawFormat

structure RawMedia where
  payload : Option String
  track : Option String

structure RawDtmf where
  digit : Option String

structure RawFrame where
  event : String
  start : Option RawStart
  media : Option RawMedia
  dtmf : Option RawDtmf

def RawFormat.read (v : Json) : Option RawFormat := do
  let field ← fieldsOf ["encoding", "sample_rate"] v
  let encoding ← optional Json.asStr (field "encoding")
  let sampleRate ← optional asU32 (field "sample_rate")
  return { encoding, sampleRate }

def RawStart.read (v : Json) : Option RawStart := do
  let field ← fieldsOf ["media_format"] v
  let mediaFormat ← optional RawFormat.read (field "media_format")
  return { mediaFormat }

def RawMedia.read (v : Json) : Option RawMedia := do
  let field ← fieldsOf ["payload", "track"] v
  let payload ← optional Json.asStr (field "payload")
  let track ← optional Json.asStr (field "track")
  return { payload, track }

def RawDtmf.read (v : Json) : Option RawDtmf := do
  let field ← fieldsOf ["digit"] v
  let digit ← optional Json.asStr (field "digit")
  return { digit }

def RawFrame.read (v : Json) : Option RawFrame := do
  let field ← fieldsOf ["event", "start", "media", "dtmf"] v
  let event ← (← field "event").asStr
  let start ← optional RawStart.read (field "start")
  let media ← optional RawMedia.read (field "media")
  let dtmf ← optional RawDtmf.read (field "dtmf")
  return { event, start, media, dtmf }

/-- The codec of a name; without one it is that of the telephone network. -/
def codecFromName (name : Option String) : Except MediaError MediaCodec :=
  match name.map String.toUpper with
  | none => .ok .pcmu
  | some "PCMU" => .ok .pcmu
  | some "PCMA" => .ok .pcma
  | some "L16" => .ok .l16
  | some "G722" => .ok .g722
  | some "OPUS" => .ok .opus
  | some other => .error (.unsupportedCodec other)

/-- The codec and the rate of a `start` frame; a rate that is not the codec's is not believed. -/
def RawFrame.toStart (f : RawFrame) : Except MediaError Inbound := do
  let format := f.start.bind RawStart.mediaFormat
  let codec ← codecFromName (format.bind RawFormat.encoding)
  let rate := (format.bind RawFormat.sampleRate).filter fun r => r = codec.sampleRate
  return .start codec (rate.getD codec.sampleRate)

/-- Parse one text frame from the media socket, `none` for a text that is no JSON. -/
def parseInbound (raw : Option Json) : Except MediaError Inbound :=
  match raw.bind RawFrame.read with
  | none => .error .unreadable
  | some f =>
    match f.event with
    | "connected" => .ok .connected
    | "start" => f.toStart
    | "media" =>
      match f.media with
      | none => .error (.malformed "media frame without a media object")
      | some m => .ok (.media (m.payload.getD "") (m.track.getD "inbound"))
    | "dtmf" =>
      match (f.dtmf.bind RawDtmf.digit).bind fun s => s.toList.head? with
      | none => .error (.malformed "dtmf frame without a digit")
      | some digit => .ok (.dtmf digit)
    | "stop" => .ok .stop
    | other => .ok (.other other)

/-- The name that a frame gives the codec, in capitals. -/
def encodingOf (raw : Option Json) : Option String :=
  ((((raw.bind RawFrame.read).bind RawFrame.start).bind RawStart.mediaFormat).bind
    RawFormat.encoding).map String.toUpper

/-- The names of the codecs with a decoder and an encoder, and no name. -/
def usableNames : List (Option String) := [none, some "PCMU", some "L16"]

lemma codecFromName_usable {name : Option String} {codec : MediaCodec}
    (h : codecFromName name = .ok codec) :
    codec = .pcmu ∨ codec = .l16 ↔ name.map String.toUpper ∈ usableNames := by
  unfold codecFromName at h
  split at h
  next hname => cases h; simp [hname, usableNames]
  next hname => cases h; simp [hname, usableNames]
  next hname => cases h; simp [hname, usableNames]
  next hname => cases h; simp [hname, usableNames]
  next hname => cases h; simp [hname, usableNames]
  next hname => cases h; simp [hname, usableNames]
  next => cases h

/-- What an accepted `start` frame negotiates. -/
lemma usable_of_parseInbound {raw : Option Json} {codec : MediaCodec} {rate : Nat}
    (h : parseInbound raw = .ok (.start codec rate)) :
    codec = .pcmu ∨ codec = .l16 ↔ encodingOf raw ∈ usableNames := by
  unfold parseInbound at h
  cases hread : raw.bind RawFrame.read with
  | none =>
    rw [hread] at h
    cases h
  | some f =>
    rw [hread] at h
    simp only at h
    split at h
    · cases h
    · unfold RawFrame.toStart at h
      dsimp only at h
      cases hname : codecFromName ((f.start.bind RawStart.mediaFormat).bind RawFormat.encoding) with
      | error e =>
        rw [hname] at h
        cases h
      | ok negotiated =>
        rw [hname] at h
        cases h
        rw [codecFromName_usable hname, encodingOf, hread, Option.bind_some]
    · split at h <;> cases h
    · split at h <;> cases h
    · cases h
    · cases h

/-! ## The call after a negotiation -/

section Negotiated

variable (b64 : Base64) (branch : Nat → Nat → Nat → List Int → Int)

/-- A payload of whole samples. -/
def WholePayload (codec : MediaCodec) (payload : String) : Prop :=
  ∃ bytes, b64.decode payload = some bytes ∧ (codec = .l16 → bytes.length % 2 = 0)

/-- The event is no error of the provider's or the engine's: media frames carry whole samples of the
codec, no other codec is negotiated, and translated audio has an even length. -/
def Valid (codec : MediaCodec) (s : Pump LegAudio) : PumpEvent → Prop
  | .incoming (.media payload _) _ => WholePayload b64 codec payload
  | .incoming (.start negotiated _) _ => negotiated = codec
  | .malformed => False
  | .room => ∀ frame ∈ s.fromRoom.head?, ∀ pcm,
      (translatedAudioPayload frame.body).bind b64.decode = some pcm → pcm.length % 2 = 0
  | _ => True

/-- The leg converts what it is given in both directions, for as long as the call lasts, and the
call does not end with an error. -/
def Usable (codec : MediaCodec) (s : Pump LegAudio) : Prop :=
  ∀ events t, Lib.Run (Guarded (ofPartial (Pump.step (telephony b64 branch)))
      (Valid b64 codec)) s events t →
    t.exit ≠ some .mediaError ∧
      (∀ payload, WholePayload b64 codec payload →
        (t.leg.decodeUp (telephony b64 branch) payload).isSome = true) ∧
      ∀ pcm : List UInt8, pcm.length % 2 = 0 →
        (t.leg.encodeDown (telephony b64 branch) pcm).isSome = true

end Negotiated

namespace Pump

variable {b64 : Base64} {branch : Nat → Nat → Nat → List Int → Int} {s t : Pump LegAudio}
  {codec : MediaCodec}

/-- The resamplers of the leg are those of its codec. -/
def Sound (branch : Nat → Nat → Nat → List Int → Int) (s : Pump LegAudio) : Prop :=
  s.leg.conv.Sound branch s.leg.codec

lemma onset_leg (s : Pump LegAudio) (leg : Leg LegAudio) :
    (s.onset leg).leg.conv = leg.conv ∧ (s.onset leg).leg.codec = leg.codec ∧
      (s.onset leg).exit = s.exit := by
  unfold onset
  dsimp only
  split_ifs <;> exact ⟨rfl, rfl, rfl⟩

lemma new_sound (codec : MediaCodec) : (Pump.new (telephony b64 branch) codec).Sound branch :=
  LegAudio.sound_new codec

/-- A frame of audio from the phone: the call ends, or the leg has taken it. -/
lemma inbound_media (s : Pump LegAudio) (full : Bool) (payload track : String) :
    (LegAudio.decodeUp b64 s.leg.codec s.leg.conv payload = none ∧
      s.inbound (telephony b64 branch) full (.media payload track) =
        { s with exit := some .mediaError }) ∨
    ∃ samples pcm conv t,
      LegAudio.decodeUp b64 s.leg.codec s.leg.conv payload = some (samples, pcm, conv) ∧
      s.inbound (telephony b64 branch) full (.media payload track) = t ∧
      t.leg.conv = conv ∧ t.leg.codec = s.leg.codec ∧ t.exit = s.exit := by
  have hleg : Leg.decodeUp (telephony b64 branch) { s.leg with confirmed := true } payload =
      (LegAudio.decodeUp b64 s.leg.codec s.leg.conv payload).map fun (samples, pcm, conv) =>
        (pcm, { s.leg with confirmed := true, conv, vad := s.leg.vad.observe samples }) := rfl
  rw [inbound, hleg]
  cases LegAudio.decodeUp b64 s.leg.codec s.leg.conv payload with
  | none => exact .inl ⟨rfl, rfl⟩
  | some decoded =>
    obtain ⟨samples, pcm, conv⟩ := decoded
    refine .inr ⟨samples, pcm, conv, _, rfl, rfl, ?_⟩
    simp only [Option.map_some]
    split_ifs <;> exact onset_leg s _

/-- A frame from the room: it is no audio, or the call ends, or the leg has taken it. -/
lemma fromRoomFrame_cases (s : Pump LegAudio) (frame : RoomFrame) :
    s.fromRoomFrame (telephony b64 branch) frame = s ∨
    ∃ pcm, (translatedAudioPayload frame.body).bind b64.decode = some pcm ∧
      ((LegAudio.encodeDown b64 s.leg.codec s.leg.conv pcm = none ∧
        s.fromRoomFrame (telephony b64 branch) frame = { s with exit := some .mediaError }) ∨
      ∃ payload conv t,
        LegAudio.encodeDown b64 s.leg.codec s.leg.conv pcm = some (payload, conv) ∧
        s.fromRoomFrame (telephony b64 branch) frame = t ∧
        t.leg.conv = conv ∧ t.leg.codec = s.leg.codec ∧ t.exit = s.exit) := by
  have haudio : (translatedAudioPayload frame.body).bind (telephony b64 branch).decodeB64 =
      (translatedAudioPayload frame.body).bind b64.decode := rfl
  rw [fromRoomFrame, haudio]
  cases (translatedAudioPayload frame.body).bind b64.decode with
  | none => exact .inl rfl
  | some pcm =>
    refine .inr ⟨pcm, rfl, ?_⟩
    have hleg : s.leg.encodeDown (telephony b64 branch) pcm =
        (LegAudio.encodeDown b64 s.leg.codec s.leg.conv pcm).map fun (payload, conv) =>
          (payload, { s.leg with conv }) := rfl
    simp only [hleg]
    cases LegAudio.encodeDown b64 s.leg.codec s.leg.conv pcm with
    | none => exact .inl ⟨rfl, rfl⟩
    | some encoded =>
      obtain ⟨payload, conv⟩ := encoded
      refine .inr ⟨payload, conv, _, rfl, rfl, ?_⟩
      simp only [Option.map_some]
      split_ifs <;> exact ⟨rfl, rfl, rfl⟩

/-- **Every step keeps the resamplers of the codec.** -/
lemma sound_step {e : PumpEvent} (hs : s.Sound branch)
    (hstep : s.step (telephony b64 branch) e = some t) : t.Sound branch := by
  obtain ⟨-, ⟨body, rfl, rfl⟩ | ⟨frame, full, rfl, rfl⟩ | ⟨frame, rest, rfl, hroom, rfl⟩ |
    ⟨exit, rfl, -⟩⟩ := step_cases hstep
  · exact hs
  · cases frame with
    | media payload track =>
      rcases @inbound_media b64 branch s full payload track with
        ⟨-, heq⟩ | ⟨samples, pcm, conv, t, hdecode, heq, hconv, hcodec, -⟩
      · rw [heq]
        exact hs
      · rw [heq, Sound, hconv, hcodec]
        exact LegAudio.sound_of_decodeUp hs hdecode
    | start negotiated rate =>
      rw [inbound, Sound, Leg.renegotiate]
      split_ifs
      · exact hs
      · exact LegAudio.sound_new negotiated
    | dtmf digit =>
      rw [inbound]
      split_ifs
      · exact hs
      · exact hs
    | connected | stop | other event => exact hs
  · rcases @fromRoomFrame_cases b64 branch { s with fromRoom := rest } frame with
      heq | ⟨pcm, -, ⟨-, heq⟩ | ⟨payload, conv, t, hencode, heq, hconv, hcodec, -⟩⟩
    · rw [heq]
      exact hs
    · rw [heq]
      exact hs
    · rw [heq, Sound, hconv, hcodec]
      exact LegAudio.sound_of_encodeDown hs hencode
  · exact hs

/-- **Every valid step of a codec with a decoder and an encoder** leaves the call without an error
and the codec as it was. -/
lemma usable_step {e : PumpEvent} (hcodec : codec = .pcmu ∨ codec = .l16) (hs : s.Sound branch)
    (hleg : s.leg.codec = codec) (hvalid : Valid b64 codec s e)
    (hstep : s.step (telephony b64 branch) e = some t) :
    t.exit ≠ some .mediaError ∧ t.leg.codec = codec := by
  obtain ⟨hnone, ⟨body, rfl, rfl⟩ | ⟨frame, full, rfl, rfl⟩ | ⟨frame, rest, rfl, hroom, rfl⟩ |
    ⟨exit, rfl, hexit⟩⟩ := step_cases hstep
  all_goals have hrunning : s.exit ≠ some .mediaError := by simp [hnone]
  · exact ⟨hrunning, hleg⟩
  · cases frame with
    | media payload track =>
      obtain ⟨bytes, hpayload, hwhole⟩ := hvalid
      have hdecoder : codec ≠ .g722 ∧ codec ≠ .opus := by
        rcases hcodec with rfl | rfl <;> decide
      rw [← hleg] at hdecoder hwhole
      have htaken := LegAudio.decodeUp_isSome hs hdecoder hpayload hwhole
      rcases @inbound_media b64 branch s full payload track with
        ⟨hrefused, -⟩ | ⟨samples, pcm, conv, t, -, heq, -, hkept, hexit'⟩
      · rw [hrefused] at htaken
        cases htaken
      · rw [heq, hexit', hkept]
        exact ⟨hrunning, hleg⟩
    | start negotiated rate =>
      obtain rfl : negotiated = codec := hvalid
      rw [inbound, Leg.renegotiate]
      split_ifs
      · exact ⟨hrunning, hleg⟩
      · exact ⟨hrunning, rfl⟩
    | dtmf digit =>
      rw [inbound]
      split_ifs
      · exact ⟨hrunning, hleg⟩
      · exact ⟨hrunning, hleg⟩
    | stop => exact ⟨by simp [inbound], hleg⟩
    | connected | other event => exact ⟨hrunning, hleg⟩
  · rcases @fromRoomFrame_cases b64 branch { s with fromRoom := rest } frame with
      heq | ⟨pcm, hpcm, ⟨hrefused, -⟩ | ⟨payload, conv, t, -, heq, -, hkept, hexit'⟩⟩
    · rw [heq]
      exact ⟨hrunning, hleg⟩
    · have heven := hvalid frame (by simp [hroom]) pcm hpcm
      have hencoder : s.leg.codec = .pcmu ∨ s.leg.codec = .l16 := by
        rw [hleg]
        exact hcodec
      have htaken := @LegAudio.encodeDown_isSome b64 branch _ _ hs hencoder pcm heven
      rw [hrefused] at htaken
      cases htaken
    · rw [heq, hexit', hkept]
      exact ⟨hrunning, hleg⟩
  · rcases hexit with ⟨rfl, -⟩ | ⟨-, rfl⟩ | ⟨-, -, rfl⟩
    · exact absurd hvalid id
    · exact ⟨by simp, hleg⟩
    · exact ⟨by simp, hleg⟩

/-- **When an accepted codec is usable.**  Whatever happened on the leg before a `start` frame is
accepted: the leg converts every payload of whole samples and all translated audio of even length
from then on, and the call does not end with an error, if and only if the frame names PCMU or L16
or no codec at all. -/
theorem accepted_codec_usable_iff {requested codec : MediaCodec} {rate : Nat} {full : Bool}
    {before : List PumpEvent} {raw : Option Json}
    (hrun : Lib.Run (ofPartial (step (telephony b64 branch)))
      (.new (telephony b64 branch) requested) before s)
    (haccepted : parseInbound raw = .ok (.start codec rate))
    (hstart : s.step (telephony b64 branch) (.incoming (.start codec rate) full) = some t) :
    Usable b64 branch codec t ↔ encodingOf raw ∈ usableNames := by
  rw [← usable_of_parseInbound haccepted]
  have hsound : s.Sound branch := hrun.invariant (Sound branch)
    (fun _ _ _ _ hs hstep => sound_step hs hstep) (new_sound requested)
  have hrunning : s.exit = none ∧
      t = { s with leg := s.leg.renegotiate (telephony b64 branch) codec } := by
    obtain ⟨hnone, ⟨_, ⟨⟩, -⟩ | ⟨_, _, ⟨⟩, rfl⟩ | ⟨_, _, ⟨⟩, -⟩ | ⟨_, -, hended⟩⟩ :=
      step_cases hstart
    · exact ⟨hnone, rfl⟩
    · simp at hended
  obtain ⟨hnone, rfl⟩ := hrunning
  have hsound' := sound_step hsound hstart
  have hcodec' : (s.leg.renegotiate (telephony b64 branch) codec).codec = codec := by
    rw [Leg.renegotiate]
    split_ifs with hsame
    · exact hsame.symm
    · rfl
  constructor
  · -- a codec without an encoder refuses the first audio
    intro husable
    by_contra hcodec
    have htaken := (husable [] _ (.nil _)).2.2 [] rfl
    rw [Leg.encodeDown, Option.isSome_map, hcodec'] at htaken
    have hrefused := @LegAudio.encodeDown_eq_none b64 codec hcodec
      (s.leg.renegotiate (telephony b64 branch) codec).conv []
    have hconv : (telephony b64 branch).encodeDown = LegAudio.encodeDown b64 := rfl
    rw [hconv, hrefused] at htaken
    cases htaken
  · intro hcodec events u hevents
    have hnotError : s.exit ≠ some .mediaError := by simp [hnone]
    obtain ⟨hu, hok, hleg⟩ := hevents.invariant
      (fun u => u.Sound branch ∧ u.exit ≠ some .mediaError ∧ u.leg.codec = codec)
      (fun _ _ _ _ hu hst => ⟨sound_step hu.1 hst.2, usable_step hcodec hu.1 hu.2.2 hst.1 hst.2⟩)
      ⟨hsound', hnotError, hcodec'⟩
    refine ⟨hok, ?_, ?_⟩
    · rintro payload ⟨bytes, hpayload, hwhole⟩
      rw [Leg.decodeUp, Option.isSome_map]
      rw [← hleg] at hwhole
      refine LegAudio.decodeUp_isSome hu ?_ hpayload hwhole
      rw [hleg]
      rcases hcodec with rfl | rfl <;> decide
    · intro pcm heven
      rw [Leg.encodeDown, Option.isSome_map]
      refine LegAudio.encodeDown_isSome hu ?_ heven
      rw [hleg]
      exact hcodec

/-- A `start` frame that names a codec. -/
def startFrame (name : String) : Json :=
  .obj [("event", .str "start"),
    ("start", .obj [("media_format", .obj [("encoding", .str name)])])]

/-- Base64 on nothing and on one sample of silence. -/
def silence64 : Base64 where
  encode bytes := if bytes = [0, 0] then "AAA=" else ""
  decode text := if text = "" then some [] else if text = "AAA=" then some [0, 0] else none

/-- A filter that keeps the newest sample. -/
def keepNewest (_ _ _ : Nat) (window : List Int) : Int := window.headD 0

/-- Translated audio of one sample. -/
def silentFrame : Json :=
  .obj [("type", .str "translated_audio"), ("pcm16_b64", .str "AAA=")]

/-- A leg that asked for linear samples and gets µ-law stays usable. -/
theorem pcmu_usable :
    ∃ t, (Pump.new (telephony silence64 keepNewest) .l16).step (telephony silence64 keepNewest)
        (.incoming (.start .pcmu 8000) false) = some t ∧
      Usable silence64 keepNewest .pcmu t := by
  have haccepted : parseInbound (some (startFrame "pcmu")) = .ok (.start .pcmu 8000) := by
    decide +kernel
  have hnamed : encodingOf (some (startFrame "pcmu")) ∈ usableNames := by decide +kernel
  exact ⟨_, rfl, (accepted_codec_usable_iff (.nil _) haccepted rfl).mpr hnamed⟩

/-- A-law is accepted, and the first translated audio ends the call; G.722 is accepted, and the
first audio from the phone does. -/
theorem accepted_codec_ends_call :
    parseInbound (some (startFrame "PCMA")) = .ok (.start .pcma 8000) ∧
      ([PumpEvent.incoming (.start .pcma 8000) false, .queue silentFrame, .room].foldlM
        (step (telephony silence64 keepNewest)) (.new (telephony silence64 keepNewest) .l16)).bind
          Pump.exit = some .mediaError ∧
      parseInbound (some (startFrame "G722")) = .ok (.start .g722 8000) ∧
      ([PumpEvent.incoming (.start .g722 8000) false,
        .incoming (.media "AAA=" "inbound") false].foldlM
        (step (telephony silence64 keepNewest)) (.new (telephony silence64 keepNewest) .l16)).bind
          Pump.exit = some .mediaError := by
  decide +kernel

end Pump

end VoxTranslate.Voip
