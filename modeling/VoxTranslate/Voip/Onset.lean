import Mathlib.Data.List.Induction
import VoxTranslate.Voip.BargeIn

/-!
# The onset of speech

The far party begins to speak with a frame of speech that is the first one or that comes after a
pause.  The detector measures the pause in samples, frame by frame, and says so once.  The pump
then tells the provider to discard what it has buffered, if it was given anything.
-/

namespace VoxTranslate.Voip

open Lib

namespace FarPartyVad

/-- The detector after some frames; the onset is taken after each. -/
def fed (wireRateHz : Nat) (frames : List (List Int)) : FarPartyVad :=
  frames.foldl (fun v samples => (v.observe samples).takeOnset.2) (.new wireRateHz)

/-- Whether an onset is reported on a frame that follows some others. -/
def reports (wireRateHz : Nat) (frames : List (List Int)) (samples : List Int) : Bool :=
  ((fed wireRateHz frames).observe samples).takeOnset.1

/-- The mean absolute amplitude of the frame, in whole units, is above the threshold. -/
def isSpeech (samples : List Int) : Bool :=
  decide (samples ≠ [] ∧
    speechAmplitudeThreshold < (samples.map Int.natAbs).sum / samples.length)

/-- The frames are a pause after the last frame of speech: none of them is speech.  A frame without
samples is neither speech nor a part of the pause. -/
structure PauseAfter (frames gap : List (List Int)) : Prop where
  speech : ∃ before last, frames = before ++ last :: gap ∧ isSpeech last = true
  silent : ∀ f ∈ gap, isSpeech f = false

/-- The far party begins to speak with this frame. -/
def Begins (hangover : Nat) (frames : List (List Int)) (samples : List Int) : Prop :=
  isSpeech samples = true ∧
    ((∀ f ∈ frames, isSpeech f = false) ∨
      ∃ gap, PauseAfter frames gap ∧ (∃ f ∈ gap, f ≠ []) ∧ hangover ≤ (gap.map List.length).sum)

/-- The onset is reported on exactly the frames with which the far party begins to speak. -/
def FiresOnce (wireRateHz : Nat) (frames : List (List Int)) : Prop :=
  ∀ pre samples, pre ++ [samples] <+: frames →
    (reports wireRateHz pre samples = true ↔
      Begins (FarPartyVad.new wireRateHz).hangoverSamples pre samples)

/-- The samples of a pause as the detector counts them: the length of a frame is cast to `u32`. -/
def counted (gap : List (List Int)) : Nat := (gap.map fun f => f.length % (u32Max + 1)).sum

/-- A pause between two frames of speech that is long enough is long enough as it is counted. -/
def PausesCount (wireRateHz : Nat) (frames : List (List Int)) : Prop :=
  ∀ pre samples gap, pre ++ [samples] <+: frames → isSpeech samples = true → PauseAfter pre gap →
    (FarPartyVad.new wireRateHz).hangoverSamples ≤ (gap.map List.length).sum →
    (FarPartyVad.new wireRateHz).hangoverSamples ≤ counted gap

variable {v : FarPartyVad} {samples : List Int} {frames gap : List (List Int)} {rate : UInt32}

/-! ## One frame -/

lemma observe_speech (h : isSpeech samples = true) :
    v.observe samples =
      { v with speaking := true, onset := v.onset || !v.speaking, silenceRun := 0 } := by
  obtain ⟨hne, hmean⟩ := of_decide_eq_true h
  rw [observe, if_neg hne]
  exact if_pos hmean

lemma observe_silent (h : isSpeech samples = false) (hspeaking : v.speaking = false) :
    v.observe samples = v := by
  by_cases hnil : samples = []
  · rw [observe, if_pos hnil]
  · have hmean := of_decide_eq_false h
    rw [not_and] at hmean
    rw [observe, if_neg hnil]
    dsimp only
    rw [if_neg (hmean hnil), hspeaking]
    exact if_neg Bool.false_ne_true

/-- A frame of a pause, while the detector still takes the far party to be speaking. -/
lemma observe_pause (h : isSpeech samples = false) (hne : samples ≠ [])
    (hspeaking : v.speaking = true) (hbound : v.hangoverSamples ≤ u32Max) :
    v.observe samples =
      if v.hangoverSamples ≤ v.silenceRun + samples.length % (u32Max + 1) then
        { v with speaking := false, silenceRun := 0 }
      else { v with silenceRun := v.silenceRun + samples.length % (u32Max + 1) } := by
  have hmean := of_decide_eq_false h
  rw [not_and] at hmean
  rw [observe, if_neg hne]
  dsimp only
  rw [if_neg (hmean hne), if_pos hspeaking]
  by_cases hlong : v.hangoverSamples ≤ v.silenceRun + samples.length % (u32Max + 1)
  · rw [if_pos hlong, if_pos (le_min hlong hbound)]
  · have hsmall : min (v.silenceRun + samples.length % (u32Max + 1)) u32Max =
        v.silenceRun + samples.length % (u32Max + 1) := by omega
    rw [if_neg hlong, hsmall, if_neg hlong]

/-- Only speech is an onset. -/
lemma observe_onset (h : isSpeech samples = false) : (v.observe samples).onset = v.onset := by
  by_cases hnil : samples = []
  · rw [observe, if_pos hnil]
  · have hmean := of_decide_eq_false h
    rw [not_and] at hmean
    rw [observe, if_neg hnil]
    dsimp only
    rw [if_neg (hmean hnil)]
    split_ifs <;> rfl

/-! ## Pauses -/

lemma PauseAfter.snoc (h : PauseAfter frames gap) (hsilent : isSpeech samples = false) :
    PauseAfter (frames ++ [samples]) (gap ++ [samples]) := by
  obtain ⟨⟨before, last, rfl, hlast⟩, hgap⟩ := h
  refine ⟨⟨before, last, by simp, hlast⟩, ?_⟩
  intro f hf
  rcases List.mem_append.mp hf with hf | hf
  · exact hgap f hf
  · rwa [List.mem_singleton.mp hf]

lemma pauseAfter_speech (h : isSpeech samples = true) : PauseAfter (frames ++ [samples]) [] :=
  ⟨⟨frames, samples, rfl, h⟩, by simp⟩

/-- The pause is what comes after the last frame of speech. -/
lemma PauseAfter.eq_takeWhile (h : PauseAfter frames gap) :
    frames.reverse.takeWhile (fun f => !isSpeech f) = gap.reverse := by
  obtain ⟨⟨before, last, rfl, hlast⟩, hgap⟩ := h
  have hsplit : (before ++ last :: gap).reverse = gap.reverse ++ last :: before.reverse := by simp
  rw [hsplit, List.takeWhile_append_of_pos]
  · simp [hlast]
  · intro f hf
    simp [hgap f (List.mem_reverse.mp hf)]

lemma PauseAfter.unique {gap' : List (List Int)} (h : PauseAfter frames gap)
    (h' : PauseAfter frames gap') : gap = gap' :=
  List.reverse_injective (h.eq_takeWhile.symm.trans h'.eq_takeWhile)

lemma PauseAfter.not_quiet (h : PauseAfter frames gap) : ¬ ∀ f ∈ frames, isSpeech f = false := by
  obtain ⟨⟨before, last, rfl, hlast⟩, -⟩ := h
  intro hquiet
  have hlast' := hquiet last (by simp)
  rw [hlast] at hlast'
  cases hlast'

@[simp] lemma counted_append (gap : List (List Int)) (samples : List Int) :
    counted (gap ++ [samples]) = counted gap + samples.length % (u32Max + 1) := by
  simp [counted]

lemma counted_le (gap : List (List Int)) : counted gap ≤ (gap.map List.length).sum := by
  induction gap with
  | nil => exact Nat.le_refl _
  | cons f gap ih =>
    simp only [counted, List.map_cons, List.sum_cons] at ih ⊢
    have hmod := Nat.mod_le f.length (u32Max + 1)
    omega

/-! ## All frames -/

/-- What the detector knows between two frames. -/
inductive Knows (frames : List (List Int)) (v : FarPartyVad) : Prop
  | quiet (hsilent : ∀ f ∈ frames, isSpeech f = false) (hspeaking : v.speaking = false)
  | talking (gap : List (List Int)) (hpause : PauseAfter frames gap) (hspeaking : v.speaking = true)
      (hrun : v.silenceRun = counted gap)
      (hshort : (∀ f ∈ gap, f = []) ∨ counted gap < v.hangoverSamples)
  | paused (gap : List (List Int)) (hpause : PauseAfter frames gap) (hspeaking : v.speaking = false)
      (hheard : ∃ f ∈ gap, f ≠ []) (hlong : v.hangoverSamples ≤ counted gap)

/-- The onset is taken after each frame, and the hangover is within a `u32`. -/
structure Settled (hangover : Nat) (frames : List (List Int)) (v : FarPartyVad) : Prop where
  knows : Knows frames v
  taken : v.onset = false
  hangover_eq : v.hangoverSamples = hangover
  bound : hangover ≤ u32Max

/-- **One frame.** -/
lemma Settled.step {hangover : Nat} (h : Settled hangover frames v) (samples : List Int) :
    Settled hangover (frames ++ [samples]) (v.observe samples).takeOnset.2 := by
  obtain ⟨hknows, htaken, rfl, hbound⟩ := h
  by_cases hspeech : isSpeech samples = true
  · rw [observe_speech hspeech]
    exact ⟨.talking [] (pauseAfter_speech hspeech) rfl rfl (.inl (by simp)), rfl, rfl, hbound⟩
  rw [Bool.not_eq_true] at hspeech
  cases hknows with
  | quiet hsilent hspeaking =>
    rw [observe_silent hspeech hspeaking]
    refine ⟨.quiet ?_ hspeaking, rfl, rfl, hbound⟩
    intro f hf
    rcases List.mem_append.mp hf with hf | hf
    · exact hsilent f hf
    · rwa [List.mem_singleton.mp hf]
  | paused gap hpause hspeaking hheard hlong =>
    rw [observe_silent hspeech hspeaking]
    obtain ⟨f, hf, hne⟩ := hheard
    refine ⟨.paused _ (hpause.snoc hspeech) hspeaking ⟨f, List.mem_append_left _ hf, hne⟩ ?_,
      rfl, rfl, hbound⟩
    rw [counted_append]
    exact Nat.le_add_right_of_le hlong
  | talking gap hpause hspeaking hrun hshort =>
    by_cases hnil : samples = []
    · have hsame : v.observe samples = v := by rw [observe, if_pos hnil]
      rw [hsame]
      refine ⟨.talking _ (hpause.snoc hspeech) hspeaking ?_ ?_, rfl, rfl, hbound⟩
      · rw [counted_append, hnil]
        exact hrun
      · rw [counted_append, hnil]
        refine hshort.imp_left fun hempty f hf => ?_
        rcases List.mem_append.mp hf with hf | hf
        · exact hempty f hf
        · exact List.mem_singleton.mp hf
    · rw [observe_pause hspeech hnil hspeaking hbound, hrun]
      split_ifs with hlong
      · refine ⟨.paused _ (hpause.snoc hspeech) rfl ⟨samples, by simp, hnil⟩ ?_, rfl, rfl, hbound⟩
        rw [counted_append]
        exact hlong
      · refine ⟨.talking _ (hpause.snoc hspeech) hspeaking ?_ ?_, rfl, rfl, hbound⟩
        · exact (counted_append gap samples).symm
        · rw [counted_append]
          exact .inr (Nat.lt_of_not_le hlong)

lemma hangover_le (rate : UInt32) : (new rate.toNat).hangoverSamples ≤ u32Max := by
  have hlt := rate.toNat_lt
  simp only [new, speechHangoverMs, u32Max]
  omega

/-- **Any frames.** -/
lemma settled_fed (rate : UInt32) (frames : List (List Int)) :
    Settled (new rate.toNat).hangoverSamples frames (fed rate.toNat frames) := by
  induction frames using List.reverseRecOn with
  | nil => exact ⟨.quiet (by simp) rfl, rfl, rfl, hangover_le rate⟩
  | append_singleton frames samples ih =>
    rw [fed, List.foldl_append]
    exact ih.step samples

/-- What is reported is the beginning of speech, with the pause as it is counted. -/
lemma reports_iff (rate : UInt32) (frames : List (List Int)) (samples : List Int) :
    reports rate.toNat frames samples = true ↔ isSpeech samples = true ∧
      ((∀ f ∈ frames, isSpeech f = false) ∨ ∃ gap, PauseAfter frames gap ∧ (∃ f ∈ gap, f ≠ []) ∧
        (new rate.toNat).hangoverSamples ≤ counted gap) := by
  obtain ⟨hknows, htaken, hhangover, -⟩ := settled_fed rate frames
  rw [reports]
  by_cases hspeech : isSpeech samples = true
  · rw [observe_speech hspeech, takeOnset]
    simp only [htaken, Bool.false_or, hspeech, true_and, Bool.not_eq_true']
    rw [← hhangover]
    cases hknows with
    | quiet hsilent hspeaking => exact iff_of_true hspeaking (.inl hsilent)
    | paused gap hpause hspeaking hheard hlong =>
      exact iff_of_true hspeaking (.inr ⟨gap, hpause, hheard, hlong⟩)
    | talking gap hpause hspeaking hrun hshort =>
      refine iff_of_false (by simp [hspeaking]) ?_
      rintro (hquiet | ⟨gap', hpause', ⟨f, hf, hne⟩, hlong⟩)
      · exact hpause.not_quiet hquiet
      · rw [hpause'.unique hpause] at hf hlong
        rcases hshort with hempty | hlt
        · exact hne (hempty f hf)
        · omega
  · rw [Bool.not_eq_true] at hspeech
    simp only [hspeech, Bool.false_eq_true, false_and, iff_false, Bool.not_eq_true]
    exact (observe_onset hspeech).trans htaken

/-- Frames shorter than `2 ^ 32` samples are counted in full. -/
lemma pausesCount_of_short {rate : Nat} (hshort : ∀ f ∈ frames, f.length ≤ u32Max) :
    PausesCount rate frames := by
  intro pre samples gap hpre _ hpause hlong
  obtain ⟨⟨before, last, rfl, -⟩, -⟩ := hpause
  have hcounted : counted gap = (gap.map List.length).sum := by
    rw [counted]
    refine congrArg List.sum (List.map_congr_left fun f hf => ?_)
    have hmem : f ∈ frames := hpre.subset (by simp [hf])
    exact Nat.mod_eq_of_lt (Nat.lt_succ_of_le (hshort f hmem))
  rwa [hcounted]

/-- The onset fires once per utterance exactly where the pauses are counted in full. -/
lemma firesOnce_iff (rate : UInt32) (frames : List (List Int)) :
    FiresOnce rate.toNat frames ↔ PausesCount rate.toNat frames := by
  constructor
  · intro hfires pre samples gap hpre hspeech hpause hlong
    by_cases hheard : ∃ f ∈ gap, f ≠ []
    · have hreports := (hfires pre samples hpre).mpr ⟨hspeech, .inr ⟨gap, hpause, hheard, hlong⟩⟩
      obtain ⟨-, hquiet | ⟨gap', hpause', -, hcounted⟩⟩ := (reports_iff rate pre samples).mp hreports
      · exact absurd hquiet hpause.not_quiet
      · rwa [hpause'.unique hpause] at hcounted
    · -- a pause without a sample is long enough only for a hangover of zero
      push Not at hheard
      have hzero : (gap.map List.length).sum = 0 := by
        rw [List.sum_eq_zero_iff_forall_eq_nat]
        intro n hn
        obtain ⟨f, hf, rfl⟩ := List.mem_map.mp hn
        rw [hheard f hf, List.length_nil]
      omega
  · intro hcount pre samples hpre
    rw [reports_iff, Begins]
    refine and_congr_right fun hspeech => or_congr_right (exists_congr fun gap => ?_)
    refine and_congr_right fun hpause => and_congr_right fun _ => ?_
    exact ⟨fun h => h.trans (counted_le gap), hcount pre samples gap hpre hspeech hpause⟩

end FarPartyVad

/-! ## The pump -/

namespace Pump

open FarPartyVad

variable {κ : Type} {cv : Conversions κ}

/-- What a turn of the pump may have to do with barge-in. -/
inductive Note where
  /-- The onset of speech is reported. -/
  | onset
  /-- So many bytes of translated audio are accepted. -/
  | accepted (bytes : Nat)
  deriving DecidableEq, Repr

/-- The samples of the frame that is taken from the phone. -/
def decoded (cv : Conversions κ) (s : Pump κ) : PumpEvent → Option (List Int)
  | .incoming (.media payloadB64 _) _ => (cv.decodeUp s.leg.codec s.leg.conv payloadB64).map (·.1)
  | _ => none

/-- The chunk from the room that the gate is asked about, with the leg that encoded it. -/
def chunk (cv : Conversions κ) (s : Pump κ) : PumpEvent → Option (String × Leg κ)
  | .room => do
    let frame ← s.fromRoom.head?
    let pcm ← (translatedAudioPayload frame.body).bind cv.decodeB64
    s.leg.encodeDown cv pcm
  | _ => none

def note (cv : Conversions κ) (s : Pump κ) (e : PumpEvent) : Option Note :=
  match s.decoded cv e, s.chunk cv e with
  | some samples, _ => if (s.leg.vad.observe samples).takeOnset.1 then some .onset else none
  | none, some (payload, leg) =>
    if (leg.gate.accept leg.gate.generation payload.utf8ByteSize).1 then
      some (.accepted payload.utf8ByteSize)
    else none
  | none, none => none

/-- Some audio that is not empty was accepted since the last onset; the notes are newest first. -/
def Audible (notes : List Note) : Prop :=
  ∃ since n before, notes = since ++ .accepted n :: before ∧ .onset ∉ since ∧ 0 < n

/-- The pump, with its notes, newest first, and the frames that the detector was fed since the
codec was adopted. -/
structure Noted (κ : Type) where
  pump : Pump κ
  notes : List Note
  frames : List (List Int)

namespace Noted

def new (cv : Conversions κ) (codec : MediaCodec) : Noted κ := ⟨.new cv codec, [], []⟩

/-- The frames that the detector was fed after a turn. -/
def fedBy (cv : Conversions κ) (s : Noted κ) : PumpEvent → List (List Int)
  | .incoming (.start codec _) _ => if codec = s.pump.leg.codec then s.frames else []
  | e => s.frames ++ (s.pump.decoded cv e).toList

def step (cv : Conversions κ) (s : Noted κ) (e : PumpEvent) : Option (Noted κ) :=
  (s.pump.step cv e).map fun t => ⟨t, (s.pump.note cv e).toList ++ s.notes, s.fedBy cv e⟩

end Noted

/-- A clear is sent exactly on an onset since whose predecessor some audio was accepted. -/
def ClearsOnOnset (cv : Conversions κ) (s : Noted κ) (e : PumpEvent) (t : Noted κ) : Prop :=
  (∃ n, t.pump.wire = .clear n :: s.pump.wire) ↔
    ∃ samples, s.pump.decoded cv e = some samples ∧
      reports s.pump.leg.codec.sampleRate s.frames samples = true ∧ Audible s.notes

/-! ### What the notes say -/

lemma not_audible_nil : ¬ Audible [] := by
  rintro ⟨since, n, before, h, -⟩
  simp at h

lemma not_audible_onset (notes : List Note) : ¬ Audible (.onset :: notes) := by
  rintro ⟨since, n, before, h, hsince, -⟩
  cases since with
  | nil => cases h
  | cons m since =>
    cases h
    exact hsince List.mem_cons_self

lemma audible_accepted (n : Nat) (notes : List Note) :
    Audible (.accepted n :: notes) ↔ 0 < n ∨ Audible notes := by
  constructor
  · rintro ⟨since, m, before, h, hsince, hpos⟩
    cases since with
    | nil =>
      cases h
      exact .inl hpos
    | cons k since =>
      cases h
      exact .inr ⟨since, m, before, rfl, fun hmem => hsince (List.mem_cons_of_mem _ hmem), hpos⟩
  · rintro (hpos | ⟨since, m, before, rfl, hsince, hpos⟩)
    · exact ⟨[], n, notes, rfl, List.not_mem_nil, hpos⟩
    · exact ⟨.accepted n :: since, m, before, rfl, by simp [hsince], hpos⟩

/-! ### One turn -/

/-- What a turn does with the detector, the gate and the wire. -/
inductive Turn (cv : Conversions κ) (s : Noted κ) (e : PumpEvent) (t : Noted κ) : Prop
  /-- Nothing. -/
  | still (hdecoded : s.pump.decoded cv e = none) (hleg : t.pump.leg.codec = s.pump.leg.codec)
      (hvad : t.pump.leg.vad = s.pump.leg.vad) (hgate : t.pump.leg.gate = s.pump.leg.gate)
      (hwire : t.pump.wire = s.pump.wire) (hnotes : t.notes = s.notes)
      (hframes : t.frames = s.frames)
  /-- Another codec is adopted. -/
  | adopted (codec : MediaCodec) (hdecoded : s.pump.decoded cv e = none)
      (hleg : t.pump.leg.codec = codec) (hvad : t.pump.leg.vad = .new codec.sampleRate)
      (hgate : t.pump.leg.gate = s.pump.leg.gate) (hwire : t.pump.wire = s.pump.wire)
      (hnotes : t.notes = s.notes) (hframes : t.frames = [])
  /-- Audio is written. -/
  | wrote (serial : Nat) (payload : String) (hdecoded : s.pump.decoded cv e = none)
      (hleg : t.pump.leg.codec = s.pump.leg.codec) (hvad : t.pump.leg.vad = s.pump.leg.vad)
      (hgate : t.pump.leg.gate.inFlightBytes =
        min (s.pump.leg.gate.inFlightBytes + payload.utf8ByteSize) usizeMax)
      (hwire : t.pump.wire = .media serial payload :: s.pump.wire)
      (hnotes : t.notes = .accepted payload.utf8ByteSize :: s.notes) (hframes : t.frames = s.frames)
  /-- A frame is heard that is no onset. -/
  | heard (samples : List Int) (hdecoded : s.pump.decoded cv e = some samples)
      (honset : (s.pump.leg.vad.observe samples).takeOnset.1 = false)
      (hleg : t.pump.leg.codec = s.pump.leg.codec)
      (hvad : t.pump.leg.vad = (s.pump.leg.vad.observe samples).takeOnset.2)
      (hgate : t.pump.leg.gate = s.pump.leg.gate) (hwire : t.pump.wire = s.pump.wire)
      (hnotes : t.notes = s.notes) (hframes : t.frames = s.frames ++ [samples])
  /-- An onset. -/
  | onset (samples : List Int) (hdecoded : s.pump.decoded cv e = some samples)
      (honset : (s.pump.leg.vad.observe samples).takeOnset.1 = true)
      (hleg : t.pump.leg.codec = s.pump.leg.codec)
      (hvad : t.pump.leg.vad = (s.pump.leg.vad.observe samples).takeOnset.2)
      (hgate : t.pump.leg.gate.inFlightBytes = 0)
      (hwire : t.pump.wire = if 0 < s.pump.leg.gate.inFlightBytes then
        .clear s.pump.queued.length :: s.pump.wire else s.pump.wire)
      (hnotes : t.notes = .onset :: s.notes) (hframes : t.frames = s.frames ++ [samples])

variable {s t : Noted κ} {e : PumpEvent}

/-- A frame from the phone. -/
lemma turn_incoming {frame : Inbound} {full : Bool} :
    Turn cv s (.incoming frame full)
      ⟨s.pump.inbound cv full frame, (s.pump.note cv (.incoming frame full)).toList ++ s.notes,
        s.fedBy cv (.incoming frame full)⟩ := by
  cases frame with
  | connected => exact .still rfl rfl rfl rfl rfl rfl (List.append_nil _)
  | other event => exact .still rfl rfl rfl rfl rfl rfl (List.append_nil _)
  | stop => exact .still rfl rfl rfl rfl rfl rfl (List.append_nil _)
  | dtmf digit =>
    have hleg : (s.pump.inbound cv full (.dtmf digit)).leg = s.pump.leg := by
      rw [inbound]
      split_ifs <;> rfl
    have hwire : (s.pump.inbound cv full (.dtmf digit)).wire = s.pump.wire := by
      rw [inbound]
      split_ifs <;> rfl
    exact .still rfl (by rw [hleg]) (by rw [hleg]) (by rw [hleg]) hwire rfl (List.append_nil _)
  | start codec rate =>
    by_cases hsame : codec = s.pump.leg.codec
    · refine .still rfl ?_ ?_ ?_ rfl rfl (if_pos hsame)
      all_goals simp [inbound, Leg.renegotiate, hsame]
    · refine .adopted codec rfl ?_ ?_ ?_ rfl rfl (if_neg hsame)
      all_goals simp [inbound, Leg.renegotiate, hsame]
  | media payloadB64 track =>
    cases hdec : cv.decodeUp s.pump.leg.codec s.pump.leg.conv payloadB64 with
    | none =>
      have hdecoded : s.pump.decoded cv (.incoming (.media payloadB64 track) full) = none := by
        rw [decoded, hdec, Option.map_none]
      have hin : s.pump.inbound cv full (.media payloadB64 track) =
          { s.pump with exit := some .mediaError } := by
        rw [inbound, Leg.decodeUp, hdec]
        rfl
      have hnote : s.pump.note cv (.incoming (.media payloadB64 track) full) = none := by
        rw [note, hdecoded]
        rfl
      rw [hin, hnote]
      refine .still hdecoded rfl rfl rfl rfl rfl ?_
      rw [Noted.fedBy, hdecoded]
      · exact List.append_nil _
      · simp
    | some out =>
      obtain ⟨samples, pcm, conv⟩ := out
      have hdecoded :
          s.pump.decoded cv (.incoming (.media payloadB64 track) full) = some samples := by
        rw [decoded, hdec, Option.map_some]
      have hnote : s.pump.note cv (.incoming (.media payloadB64 track) full) =
          if (s.pump.leg.vad.observe samples).takeOnset.1 then some .onset else none := by
        rw [note, hdecoded]
      have hfed : s.fedBy cv (.incoming (.media payloadB64 track) full) =
          s.frames ++ [samples] := by
        rw [Noted.fedBy, hdecoded]
        · rfl
        · simp
      rw [hnote, hfed]
      obtain ⟨leg, hleg, hcodec, hvad, hgate⟩ : ∃ leg : Leg κ,
          Leg.decodeUp cv { s.pump.leg with confirmed := true } payloadB64 = some (pcm, leg) ∧
            leg.codec = s.pump.leg.codec ∧ leg.vad = s.pump.leg.vad.observe samples ∧
            leg.gate = s.pump.leg.gate := by
        refine ⟨{ s.pump.leg with
          confirmed := true, conv, vad := s.pump.leg.vad.observe samples }, ?_, rfl, rfl, rfl⟩
        rw [Leg.decodeUp, hdec]
        rfl
      have hinleg : (s.pump.inbound cv full (.media payloadB64 track)).leg =
          (s.pump.onset leg).leg := by
        rw [inbound, hleg]
        dsimp only
        split_ifs <;> rfl
      have hinwire : (s.pump.inbound cv full (.media payloadB64 track)).wire =
          (s.pump.onset leg).wire := by
        rw [inbound, hleg]
        dsimp only
        split_ifs <;> rfl
      rw [← hvad]
      by_cases honset : leg.vad.takeOnset.1 = true
      · have hon : s.pump.onset leg = { s.pump with
            leg := { leg with vad := leg.vad.takeOnset.2, gate := leg.gate.bargeIn.2 }
            wire := if leg.gate.bargeIn.1 then .clear s.pump.queued.length :: s.pump.wire
              else s.pump.wire } := if_pos honset
        rw [if_pos honset]
        refine .onset samples hdecoded (by rw [← hvad]; exact honset) ?_ ?_ ?_ ?_ rfl rfl
        · rw [hinleg, hon, ← hcodec]
        · rw [hinleg, hon, ← hvad]
        · rw [hinleg, hon]
          rfl
        · rw [hinwire, hon, hgate]
          simp [PlaybackGate.bargeIn]
      · have hoff : s.pump.onset leg =
            { s.pump with leg := { leg with vad := leg.vad.takeOnset.2 } } := if_neg honset
        rw [if_neg honset]
        refine .heard samples hdecoded ?_ ?_ ?_ ?_ ?_ rfl rfl
        · rw [← hvad]
          exact Bool.not_eq_true _ ▸ honset
        · rw [hinleg, hoff, ← hcodec]
        · rw [hinleg, hoff, ← hvad]
        · rw [hinleg, hoff, ← hgate]
        · rw [hinwire, hoff]

/-- A frame from the room. -/
lemma turn_room {frame : RoomFrame} {rest : List RoomFrame} (hhead : s.pump.fromRoom = frame :: rest) :
    Turn cv s .room
      ⟨{ s.pump with fromRoom := rest }.fromRoomFrame cv frame,
        (s.pump.note cv .room).toList ++ s.notes, s.fedBy cv .room⟩ := by
  have hdecoded : s.pump.decoded cv .room = none := rfl
  have hfed : s.fedBy cv .room = s.frames := List.append_nil _
  rw [hfed]
  have hchunk : s.pump.chunk cv .room =
      ((translatedAudioPayload frame.body).bind cv.decodeB64).bind (s.pump.leg.encodeDown cv) := by
    rw [chunk, hhead]
    rfl
  rw [fromRoomFrame]
  cases hpcm : (translatedAudioPayload frame.body).bind cv.decodeB64 with
  | none =>
    have hnote : s.pump.note cv .room = none := by
      rw [note, hdecoded, hchunk, hpcm]
      rfl
    rw [hnote]
    exact .still rfl rfl rfl rfl rfl rfl rfl
  | some pcm =>
    rw [hpcm, Option.bind_some] at hchunk
    dsimp only
    cases henc : s.pump.leg.encodeDown cv pcm with
    | none =>
      have hnote : s.pump.note cv .room = none := by
        rw [note, hdecoded, hchunk, henc]
      rw [hnote]
      exact .still rfl rfl rfl rfl rfl rfl rfl
    | some out =>
      obtain ⟨payload, leg⟩ := out
      have hnote : s.pump.note cv .room = some (.accepted payload.utf8ByteSize) := by
        rw [note, hdecoded, hchunk, henc]
        exact if_pos (PlaybackGate.accept_current _ _)
      obtain ⟨hcodec, hvad, hgate⟩ : leg.codec = s.pump.leg.codec ∧
          leg.vad = s.pump.leg.vad ∧ leg.gate = s.pump.leg.gate := by
        rw [Leg.encodeDown, Option.map_eq_some_iff] at henc
        obtain ⟨out, -, hout⟩ := henc
        cases hout
        exact ⟨rfl, rfl, rfl⟩
      rw [hnote]
      dsimp only
      rw [if_pos (PlaybackGate.accept_current _ _)]
      refine .wrote frame.serial payload rfl hcodec hvad ?_ rfl rfl rfl
      rw [← hgate]
      simp [PlaybackGate.accept]

/-- **One turn.** -/
lemma turn_of_step (hstep : s.step cv e = some t) : Turn cv s e t := by
  obtain ⟨p, hp, rfl⟩ := Option.map_eq_some_iff.mp hstep
  obtain ⟨-, ⟨body, rfl, rfl⟩ | ⟨frame, full, rfl, rfl⟩ | ⟨frame, rest, rfl, hroom, rfl⟩ |
    ⟨exit, rfl, hend⟩⟩ := step_cases hp
  · exact .still rfl rfl rfl rfl rfl rfl (List.append_nil _)
  · exact turn_incoming
  · exact turn_room hroom
  · rcases hend with ⟨rfl, -⟩ | ⟨rfl, -⟩ | ⟨rfl, -⟩
    · exact .still rfl rfl rfl rfl rfl rfl (List.append_nil _)
    · exact .still rfl rfl rfl rfl rfl rfl (List.append_nil _)
    · exact .still rfl rfl rfl rfl rfl rfl (List.append_nil _)

/-! ### Any run -/

/-- Something is in flight exactly if some audio was accepted since the last onset, and the
detector was fed the frames since the codec was adopted. -/
structure Tracks (s : Noted κ) : Prop where
  inFlight : 0 < s.pump.leg.gate.inFlightBytes ↔ Audible s.notes
  vad : s.pump.leg.vad = fed s.pump.leg.codec.sampleRate s.frames

lemma fed_append (rate : Nat) (frames : List (List Int)) (samples : List Int) :
    fed rate (frames ++ [samples]) = ((fed rate frames).observe samples).takeOnset.2 := by
  rw [fed, List.foldl_append]
  rfl

lemma Tracks.step (h : Tracks s) (hstep : s.step cv e = some t) : Tracks t := by
  obtain ⟨hflight, hfed⟩ := h
  cases turn_of_step hstep with
  | still _ hleg hvad hgate _ hnotes hframes =>
    exact ⟨by rw [hgate, hnotes, hflight], by rw [hvad, hleg, hframes, hfed]⟩
  | adopted codec _ hleg hvad hgate _ hnotes hframes =>
    exact ⟨by rw [hgate, hnotes, hflight], by rw [hvad, hleg, hframes]; rfl⟩
  | wrote serial payload _ hleg hvad hgate _ hnotes hframes =>
    refine ⟨?_, by rw [hvad, hleg, hframes, hfed]⟩
    have hmax : 0 < usizeMax := by decide
    rw [hgate, hnotes, audible_accepted, ← hflight]
    omega
  | heard samples _ _ hleg hvad hgate _ hnotes hframes =>
    exact ⟨by rw [hgate, hnotes, hflight], by rw [hvad, hleg, hframes, fed_append, hfed]⟩
  | onset samples _ _ hleg hvad hgate _ hnotes hframes =>
    refine ⟨?_, by rw [hvad, hleg, hframes, fed_append, hfed]⟩
    rw [hgate, hnotes]
    exact iff_of_false (Nat.lt_irrefl 0) (not_audible_onset s.notes)

lemma Tracks.clears (h : Tracks s) (hstep : s.step cv e = some t) : ClearsOnOnset cv s e t := by
  obtain ⟨hflight, hfed⟩ := h
  -- a wire that is as it was has no clear in front
  have hsame : t.pump.wire = s.pump.wire → ¬ ∃ n, t.pump.wire = .clear n :: s.pump.wire := by
    rintro hwire ⟨n, hn⟩
    rw [hwire] at hn
    exact absurd hn (by simp)
  have hquiet : s.pump.decoded cv e = none → ¬ ∃ samples, s.pump.decoded cv e = some samples ∧
      reports s.pump.leg.codec.sampleRate s.frames samples = true ∧ Audible s.notes := by
    rintro hdecoded ⟨samples, hsamples, -⟩
    rw [hdecoded] at hsamples
    cases hsamples
  cases turn_of_step hstep with
  | still hdecoded _ _ _ hwire _ _ => exact iff_of_false (hsame hwire) (hquiet hdecoded)
  | adopted codec hdecoded _ _ _ hwire _ _ => exact iff_of_false (hsame hwire) (hquiet hdecoded)
  | wrote serial payload hdecoded _ _ _ hwire _ _ =>
    refine iff_of_false ?_ (hquiet hdecoded)
    rintro ⟨n, hn⟩
    rw [hwire] at hn
    cases hn
  | heard samples hdecoded honset _ _ _ hwire _ _ =>
    refine iff_of_false (hsame hwire) ?_
    rintro ⟨samples', hsamples, hreports, -⟩
    cases hdecoded.symm.trans hsamples
    rw [reports, ← hfed, honset] at hreports
    cases hreports
  | onset samples hdecoded honset _ _ _ hwire _ _ =>
    by_cases hpos : 0 < s.pump.leg.gate.inFlightBytes
    · rw [if_pos hpos] at hwire
      refine iff_of_true ⟨_, hwire⟩ ⟨samples, hdecoded, ?_, hflight.mp hpos⟩
      rw [reports, ← hfed]
      exact honset
    · rw [if_neg hpos] at hwire
      exact iff_of_false (hsame hwire) fun ⟨_, _, _, haudible⟩ => hpos (hflight.mpr haudible)

end Pump

namespace FarPartyVad

lemma isSpeech_replicate (n : Nat) : isSpeech (List.replicate n 0) = false := by
  simp [isSpeech]

/-- A pause in one frame whose length is a multiple of `2 ^ 32`. -/
lemma not_firesOnce_of_multiple {n : Nat} (hlong : 4000 ≤ n) (hmod : n % (u32Max + 1) = 0) :
    ¬ FiresOnce (8000 : UInt32).toNat [[9000], List.replicate n 0, [9000]] := by
  rw [firesOnce_iff]
  intro hcount
  have hpause : PauseAfter [[9000], List.replicate n 0] [List.replicate n 0] :=
    ⟨⟨[], [9000], rfl, by decide⟩, by simp [isSpeech_replicate]⟩
  have hshort := hcount [[9000], List.replicate n 0] [9000] _ ⟨[], rfl⟩ (by decide) hpause
  have hhangover : (new (8000 : UInt32).toNat).hangoverSamples = 4000 := rfl
  simp only [counted, List.map_cons, List.map_nil, List.sum_cons, List.sum_nil,
    List.length_replicate, hmod, hhangover] at hshort
  omega

end FarPartyVad

end VoxTranslate.Voip
