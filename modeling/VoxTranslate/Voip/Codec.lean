import VoxTranslate.Voip.MediaPump
import VoxTranslate.Voip.Resampler

/-!
# The codecs of a leg

What the wire carries is turned into linear samples and resampled to the rate of the engines, and
back.  Of the five codecs that can be negotiated three can be decoded and two encoded.  The byte
order of linear samples on the wire is measured, since nobody documents it.
-/

namespace VoxTranslate.Voip

/-- What the engines speak. -/
def engineRateHz : Nat := 24000

/-- The largest `u64`. -/
def u64Max : Nat := 18446744073709551615

/-! ## Companding -/

/-- The largest `i16`. -/
def i16Max : Int := 32767

/-- µ-law to linear. -/
def ulawToPcm16 (byte : UInt8) : Int :=
  let u := ~~~byte
  let sign := u &&& 0x80
  let exponent := ((u >>> 4) &&& 0x07).toNat
  let mantissa := (u &&& 0x0F).toNat
  let sample : Int := (mantissa * 8 + 0x84) * 2 ^ exponent - 0x84
  let sample := min (max sample 0) i16Max
  if sign ≠ 0 then -sample else sample

/-- `u32::leading_zeros`. -/
def leadingZeros (v : Nat) : Int := if v = 0 then 32 else 31 - (v.log2 : Int)

/-- Linear to µ-law. -/
def pcm16ToUlaw (sample : Int) : UInt8 :=
  let sign : UInt8 := if sample < 0 then 0x80 else 0
  let s := (min sample.natAbs 32635) + 0x84
  let exponent := (min (max (7 - leadingZeros (s >>> 7) + 24) 0) 7).toNat
  let mantissa := (s >>> (exponent + 3)) &&& 0x0F
  ~~~(sign ||| (UInt8.ofNat exponent <<< 4) ||| UInt8.ofNat mantissa)

/-- A-law to linear, where a set sign bit means positive. -/
def alawToPcm16 (byte : UInt8) : Int :=
  let a := byte ^^^ 0x55
  let sign := a &&& 0x80
  let exponent := ((a &&& 0x70) >>> 4).toNat
  let mantissa := (a &&& 0x0F).toNat
  let sample : Int :=
    if exponent = 0 then ((mantissa <<< 4) ||| 8 : Nat)
    else (((mantissa <<< 4) ||| 0x108) <<< (exponent - 1) : Nat)
  let sample := min (max sample 0) i16Max
  if sign ≠ 0 then sample else -sample

/-! ## Samples of two bytes -/

/-- The sample of a high and a low byte. -/
def i16OfBytes (hi lo : UInt8) : Int :=
  let n : Int := hi.toNat * 256 + lo.toNat
  if n ≤ i16Max then n else n - 65536

/-- The high and the low byte of a sample. -/
def highByte (sample : Int) : UInt8 := UInt8.ofNat ((sample % 65536).toNat / 256)

def lowByte (sample : Int) : UInt8 := UInt8.ofNat ((sample % 65536).toNat % 256)

/-- `i16::from_be_bytes` of each pair; an odd byte at the end is not read. -/
def fromBeBytes : List UInt8 → List Int
  | hi :: lo :: rest => i16OfBytes hi lo :: fromBeBytes rest
  | _ => []

/-- `i16::from_le_bytes` of each pair. -/
def fromLeBytes : List UInt8 → List Int
  | lo :: hi :: rest => i16OfBytes hi lo :: fromLeBytes rest
  | _ => []

def toBeBytes (samples : List Int) : List UInt8 :=
  samples.flatMap fun s => [highByte s, lowByte s]

def toLeBytes (samples : List Int) : List UInt8 :=
  samples.flatMap fun s => [lowByte s, highByte s]

/-- Swap every pair of bytes; an odd byte at the end is passed through. -/
def swapBytePairs : List UInt8 → List UInt8
  | a :: b :: rest => b :: a :: swapBytePairs rest
  | rest => rest

lemma length_swapBytePairs (bytes : List UInt8) : (swapBytePairs bytes).length = bytes.length := by
  fun_induction swapBytePairs bytes with
  | case1 a b rest ih => simp [ih]
  | case2 rest => rfl

/-! ## One payload -/

inductive CodecError where
  /-- Linear samples with an odd number of bytes. -/
  | truncatedFrame
  /-- There is no decoder or encoder for this codec. -/
  | unsupported (codec : MediaCodec)
  deriving DecidableEq, Repr

/-- Decode one wire payload into linear samples. -/
def decode (codec : MediaCodec) (payload : List UInt8) : Except CodecError (List Int) :=
  match codec with
  | .l16 => if payload.length % 2 ≠ 0 then .error .truncatedFrame else .ok (fromBeBytes payload)
  | .pcmu => .ok (payload.map ulawToPcm16)
  | .pcma => .ok (payload.map alawToPcm16)
  | .g722 | .opus => .error (.unsupported codec)

/-- Encode linear samples for the wire. -/
def encode (codec : MediaCodec) (samples : List Int) : Except CodecError (List UInt8) :=
  match codec with
  | .l16 => .ok (toBeBytes samples)
  | .pcmu => .ok (samples.map pcm16ToUlaw)
  | .pcma | .g722 | .opus => .error (.unsupported codec)

/-! ## The byte order -/

/-- The summed differences from sample to sample, read as big-endian and as little-endian. -/
structure L16ByteOrderEvidence where
  be : Nat
  le : Nat
  deriving DecidableEq, Repr

/-- The differences over the pairs of a payload, from the pair before. -/
def evidenceFrom (prev : Option (Int × Int)) : List UInt8 → L16ByteOrderEvidence
  | a :: b :: rest =>
    let be := i16OfBytes a b
    let le := i16OfBytes b a
    let ev := evidenceFrom (some (be, le)) rest
    match prev with
    | none => ev
    | some (prevBe, prevLe) => ⟨(be - prevBe).natAbs + ev.be, (le - prevLe).natAbs + ev.le⟩
  | _ => ⟨0, 0⟩

def l16ByteOrderEvidence (payload : List UInt8) : L16ByteOrderEvidence := evidenceFrom none payload

/-- Whether the byte order of a leg has been measured; a decision is final. -/
inductive ByteOrder where
  | undetermined
  | decided (littleEndian : Bool)
  deriving DecidableEq, Repr

def byteOrderMinEvidenceFrames : Nat := 5

def byteOrderDecisiveRatio : Nat := 2

def byteOrderInconclusiveWindow : Nat := 50

/-- Accumulates the evidence of the frames of a leg and decides once. -/
structure ByteOrderDetector where
  state : ByteOrder
  evidenceFrames : Nat
  windowEvidenceFrames : Nat
  beTotal : Nat
  leTotal : Nat
  deriving DecidableEq, Repr

namespace ByteOrderDetector

def new : ByteOrderDetector := ⟨.undetermined, 0, 0, 0, 0⟩

def littleEndian (d : ByteOrderDetector) : Bool := d.state == .decided true

/-- Count one frame, where it carries evidence. -/
def count (d : ByteOrderDetector) (ev : L16ByteOrderEvidence) : ByteOrderDetector :=
  if ev.be ≠ 0 ∨ ev.le ≠ 0 then
    { d with
      evidenceFrames := d.evidenceFrames + 1
      windowEvidenceFrames := d.windowEvidenceFrames + 1
      beTotal := d.beTotal + ev.be
      leTotal := d.leTotal + ev.le }
  else d

/-- Halve the totals of a window that decided nothing. -/
def halve (d : ByteOrderDetector) : ByteOrderDetector :=
  if byteOrderInconclusiveWindow ≤ d.windowEvidenceFrames then
    { d with
      beTotal := d.beTotal / 2
      leTotal := d.leTotal / 2
      evidenceFrames := d.evidenceFrames / 2
      windowEvidenceFrames := 0 }
  else d

/-- Feed the raw bytes of one inbound frame; nothing changes once decided. -/
def observe (d : ByteOrderDetector) (wire : List UInt8) : ByteOrderDetector :=
  if d.state ≠ .undetermined then d
  else
    let d := d.count (l16ByteOrderEvidence wire)
    if byteOrderMinEvidenceFrames ≤ d.evidenceFrames ∧
        min (d.leTotal * byteOrderDecisiveRatio) u64Max ≤ d.beTotal then
      { d with state := .decided true }
    else if byteOrderMinEvidenceFrames ≤ d.evidenceFrames ∧
        min (d.beTotal * byteOrderDecisiveRatio) u64Max ≤ d.leTotal then
      { d with state := .decided false }
    else d.halve

end ByteOrderDetector

/-! ## The conversions of a leg -/

/-- Base64, from its crate. -/
structure Base64 where
  encode : List UInt8 → String
  decode : String → Option (List UInt8)

/-- The resamplers of the two directions, and the byte order. -/
structure LegAudio where
  up : Resampler Int
  down : Resampler Int
  byteOrder : ByteOrderDetector

section Conversions

-- the branches of the resampling filter are the other parameter
variable (b64 : Base64) (branch : Nat → Nat → Nat → List Int → Int)

def LegAudio.new (codec : MediaCodec) : LegAudio where
  up := .new branch codec.sampleRate engineRateHz
  down := .new branch engineRateHz codec.sampleRate
  byteOrder := .new

/-- The byte order is that of linear samples only. -/
def LegAudio.orient (codec : MediaCodec) (order : ByteOrderDetector) (bytes : List UInt8) :
    List UInt8 :=
  if codec = .l16 ∧ order.littleEndian then swapBytePairs bytes else bytes

/-- Wire audio from the phone to samples, and to audio at the rate of the engines. -/
def LegAudio.decodeUp (codec : MediaCodec) (a : LegAudio) (payloadB64 : String) :
    Option (List Int × List UInt8 × LegAudio) := do
  let bytes ← b64.decode payloadB64
  -- the evidence is that of the raw bytes, before any swap
  let order := if codec = .l16 then a.byteOrder.observe bytes else a.byteOrder
  let samples ← (decode codec (orient codec order bytes)).toOption
  let (resampled, up) ← a.up.process samples
  return (samples, toLeBytes resampled, { a with up, byteOrder := order })

/-- Translated audio from the engine to wire audio. -/
def LegAudio.encodeDown (codec : MediaCodec) (a : LegAudio) (pcm16Le : List UInt8) :
    Option (String × LegAudio) :=
  if pcm16Le.length % 2 ≠ 0 then none
  else do
    let (resampled, down) ← a.down.process (fromLeBytes pcm16Le)
    let wire ← (encode codec resampled).toOption
    return (b64.encode (orient codec a.byteOrder wire), { a with down })

/-- The conversions of the source. -/
def telephony : Conversions LegAudio where
  new := LegAudio.new branch
  decodeUp := LegAudio.decodeUp b64
  encodeDown := LegAudio.encodeDown b64
  decodeB64 := b64.decode

end Conversions

/-! ## What can be converted -/

lemma decode_isOk_iff (codec : MediaCodec) (payload : List UInt8) :
    (decode codec payload).toOption.isSome = true ↔
      codec ≠ .g722 ∧ codec ≠ .opus ∧ (codec = .l16 → payload.length % 2 = 0) := by
  cases codec with
  | l16 =>
    by_cases heven : payload.length % 2 = 0
    · simp [decode, heven, Except.toOption]
    · simp [decode, heven, Except.toOption]
  | pcmu | pcma | g722 | opus => simp [decode, Except.toOption]

lemma encode_isOk_iff (codec : MediaCodec) (samples : List Int) :
    (encode codec samples).toOption.isSome = true ↔ codec = .pcmu ∨ codec = .l16 := by
  cases codec <;> simp [encode, Except.toOption]

namespace LegAudio

variable {b64 : Base64} {branch : Nat → Nat → Nat → List Int → Int}

/-- The resamplers have been fed some streams since the codec was adopted. -/
def Sound (branch : Nat → Nat → Nat → List Int → Int) (codec : MediaCodec) (a : LegAudio) : Prop :=
  ∃ xs ys, a.up = .after branch codec.sampleRate engineRateHz xs ∧
    a.down = .after branch engineRateHz codec.sampleRate ys

lemma sound_new (codec : MediaCodec) : (LegAudio.new branch codec).Sound branch codec :=
  ⟨[], [], (Resampler.after_nil branch).symm, (Resampler.after_nil branch).symm⟩

lemma sampleRate_spec (codec : MediaCodec) :
    0 < codec.sampleRate ∧ codec.sampleRate ≠ engineRateHz := by
  cases codec <;> decide

lemma length_orient (codec : MediaCodec) (order : ByteOrderDetector) (bytes : List UInt8) :
    (orient codec order bytes).length = bytes.length := by
  unfold orient
  split_ifs
  · exact length_swapBytePairs bytes
  · rfl

/-- Neither direction loses its stream. -/
lemma sound_of_decodeUp {codec : MediaCodec} {a a' : LegAudio} (ha : a.Sound branch codec)
    {payload : String} {samples : List Int} {pcm : List UInt8}
    (h : a.decodeUp b64 codec payload = some (samples, pcm, a')) : a'.Sound branch codec := by
  obtain ⟨xs, ys, hup, hdown⟩ := ha
  obtain ⟨hpos, hne⟩ := sampleRate_spec codec
  unfold decodeUp at h
  simp only [Option.bind_eq_bind, Option.bind_eq_some_iff] at h
  obtain ⟨bytes, -, decoded, -, ⟨resampled, up⟩, hprocess, h⟩ := h
  cases h
  obtain ⟨out, hafter, -⟩ :=
    Resampler.process_after branch hpos (by decide : 0 < engineRateHz) hne xs samples
  rw [hup, hafter] at hprocess
  cases hprocess
  exact ⟨xs ++ samples, ys, rfl, hdown⟩

lemma sound_of_encodeDown {codec : MediaCodec} {a a' : LegAudio} (ha : a.Sound branch codec)
    {payload : String} {pcm : List UInt8}
    (h : a.encodeDown b64 codec pcm = some (payload, a')) : a'.Sound branch codec := by
  obtain ⟨xs, ys, hup, hdown⟩ := ha
  obtain ⟨hpos, hne⟩ := sampleRate_spec codec
  unfold encodeDown at h
  split_ifs at h
  simp only [Option.bind_eq_bind, Option.bind_eq_some_iff] at h
  obtain ⟨⟨resampled, down⟩, hprocess, wire, -, h⟩ := h
  cases h
  obtain ⟨out, hafter, -⟩ := Resampler.process_after branch
    (by decide : 0 < engineRateHz) hpos hne.symm ys (fromLeBytes pcm)
  rw [hdown, hafter] at hprocess
  cases hprocess
  exact ⟨xs, ys ++ fromLeBytes pcm, hup, rfl⟩

/-- **Decoding**: a leg whose codec has a decoder takes every whole payload. -/
lemma decodeUp_isSome {codec : MediaCodec} {a : LegAudio} (ha : a.Sound branch codec)
    (hcodec : codec ≠ .g722 ∧ codec ≠ .opus) {payload : String} {bytes : List UInt8}
    (hpayload : b64.decode payload = some bytes)
    (hwhole : codec = .l16 → bytes.length % 2 = 0) :
    (a.decodeUp b64 codec payload).isSome = true := by
  obtain ⟨xs, ys, hup, hdown⟩ := ha
  obtain ⟨hpos, hne⟩ := sampleRate_spec codec
  have hdecoded : (decode codec (orient codec
      (if codec = .l16 then a.byteOrder.observe bytes else a.byteOrder) bytes)).toOption.isSome =
        true := by
    rw [decode_isOk_iff, length_orient]
    exact ⟨hcodec.1, hcodec.2, hwhole⟩
  obtain ⟨samples, hsamples⟩ := Option.isSome_iff_exists.mp hdecoded
  obtain ⟨out, hprocess, -⟩ :=
    Resampler.process_after branch hpos (by decide : 0 < engineRateHz) hne xs samples
  rw [← hup] at hprocess
  simp [decodeUp, hpayload, hsamples, hprocess]

/-- **Encoding**: a leg whose codec has an encoder takes all audio of even length. -/
lemma encodeDown_isSome {codec : MediaCodec} {a : LegAudio} (ha : a.Sound branch codec)
    (hcodec : codec = .pcmu ∨ codec = .l16) {pcm : List UInt8} (heven : pcm.length % 2 = 0) :
    (a.encodeDown b64 codec pcm).isSome = true := by
  obtain ⟨xs, ys, hup, hdown⟩ := ha
  obtain ⟨hpos, hne⟩ := sampleRate_spec codec
  obtain ⟨out, hprocess, -⟩ :=
    Resampler.process_after branch (by decide : 0 < engineRateHz) hpos hne.symm ys (fromLeBytes pcm)
  rw [← hdown] at hprocess
  obtain ⟨wire, hwire⟩ := Option.isSome_iff_exists.mp ((encode_isOk_iff codec out).mpr hcodec)
  simp [encodeDown, heven, hprocess, hwire]

/-- A leg whose codec has no encoder refuses all audio. -/
lemma encodeDown_eq_none {codec : MediaCodec} (hcodec : ¬ (codec = .pcmu ∨ codec = .l16))
    (a : LegAudio) (pcm : List UInt8) : a.encodeDown b64 codec pcm = none := by
  have hnone : ∀ samples, (encode codec samples).toOption = none := by
    intro samples
    rw [← Option.not_isSome_iff_eq_none, encode_isOk_iff]
    exact hcodec
  unfold encodeDown
  split_ifs
  · rfl
  · simp [hnone]

end LegAudio

end VoxTranslate.Voip
