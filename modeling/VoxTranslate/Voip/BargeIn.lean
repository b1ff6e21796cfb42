import VoxTranslate.Voip.MediaPump

/-!
# Barge-in

When the far party begins to speak, the provider is told to discard what it has buffered, and
audio of the interrupted utterance that comes later is to be refused.  The pump stamps a chunk
when it writes it, so the gate lets everything through, and what was waiting in the room channel
is played.
-/

namespace VoxTranslate.Voip.Pump

open Lib

variable {κ : Type} {cv : Conversions κ} {s t : Pump κ} {leg : Leg κ} {frame : RoomFrame}

/-- The frame is translated audio. -/
def isAudio (cv : Conversions κ) (frame : RoomFrame) : Bool :=
  ((translatedAudioPayload frame.body).bind cv.decodeB64).isSome

/-- Written after a clear, a chunk is from a room frame that was queued after it. -/
def Follows (later earlier : Sent) : Prop :=
  ∀ n i p, earlier = .clear n → later = .media i p → n ≤ i

/-- Barge-in works: nothing that was waiting at a clear is written after it, and no translated
audio is lost. -/
structure BargesIn (cv : Conversions κ) (s : Pump κ) : Prop where
  silenced : s.wire.Pairwise Follows
  written : ∀ frame ∈ s.queued, isAudio cv frame = true →
    frame ∈ s.fromRoom ∨ (∃ p, .media frame.serial p ∈ s.wire) ∨ s.exit.isSome = true

/-- The frame from the phone makes the pump write a clear. -/
def clears (cv : Conversions κ) (s : Pump κ) : Inbound → Bool
  | .media payloadB64 _ =>
    (Leg.decodeUp cv { s.leg with confirmed := true } payloadB64).any fun (_, leg) =>
      leg.vad.onset && decide (0 < leg.gate.inFlightBytes)
  | _ => false

/-- No translated audio waits in the room channel when a clear is written. -/
def clearsEmpty (cv : Conversions κ) (s : Pump κ) : PumpEvent → Bool
  | .incoming frame _ => !s.clears cv frame || s.fromRoom.all fun f => !isAudio cv f
  | _ => true

/-- What the pump keeps: audio that waits was queued after every clear, and a clear counts frames
that were queued. -/
structure Fresh (cv : Conversions κ) (s : Pump κ) : Prop extends BargesIn cv s where
  waiting : ∀ frame ∈ s.fromRoom, isAudio cv frame = true → ∀ n, .clear n ∈ s.wire →
    n ≤ frame.serial
  counted : ∀ n, .clear n ∈ s.wire → n ≤ s.queued.length

/-! ## What each turn changes -/

/-- A turn that touches neither the room channel nor the wire. -/
lemma Fresh.of_eq (h : s.Fresh cv) (hroom : t.fromRoom = s.fromRoom) (hqueued : t.queued = s.queued)
    (hwire : t.wire = s.wire) (hexit : s.exit.isSome = true → t.exit.isSome = true) :
    t.Fresh cv := by
  refine ⟨⟨?_, ?_⟩, ?_, ?_⟩
  · rw [hwire]
    exact h.silenced
  · rw [hroom, hqueued, hwire]
    intro frame hframe haudio
    rcases h.written frame hframe haudio with hwait | hsent | hend
    · exact .inl hwait
    · exact .inr (.inl hsent)
    · exact .inr (.inr (hexit hend))
  · rw [hroom, hwire]
    exact h.waiting
  · rw [hqueued, hwire]
    exact h.counted

/-- A clear that finds no audio waiting. -/
lemma Fresh.clear (h : s.Fresh cv) (hempty : ∀ frame ∈ s.fromRoom, isAudio cv frame = false)
    (leg : Leg κ) :
    Fresh cv { s with leg, wire := .clear s.queued.length :: s.wire } := by
  refine ⟨⟨List.Pairwise.cons ?_ h.silenced, ?_⟩, ?_, ?_⟩
  · intro earlier _ n i p _ hmedia
    cases hmedia
  · intro frame hframe haudio
    rcases h.written frame hframe haudio with hwait | ⟨p, hsent⟩ | hend
    · exact .inl hwait
    · exact .inr (.inl ⟨p, List.mem_cons_of_mem _ hsent⟩)
    · exact .inr (.inr hend)
  · intro frame hframe haudio
    rw [hempty frame hframe] at haudio
    cases haudio
  · intro n hn
    rcases List.mem_cons.mp hn with hn | hn
    · cases hn
      exact Nat.le_refl _
    · exact h.counted n hn

lemma Fresh.onset (h : s.Fresh cv)
    (hempty : leg.vad.onset = true → 0 < leg.gate.inFlightBytes →
      ∀ frame ∈ s.fromRoom, isAudio cv frame = false) : (s.onset leg).Fresh cv := by
  unfold Pump.onset FarPartyVad.takeOnset PlaybackGate.bargeIn
  dsimp only
  split_ifs with honset hflight
  · exact h.clear (hempty honset (of_decide_eq_true hflight)) _
  · exact h.of_eq rfl rfl rfl id
  · exact h.of_eq rfl rfl rfl id

lemma Fresh.inbound (h : s.Fresh cv) {frame : Inbound} {full : Bool}
    (hempty : s.clears cv frame = true → ∀ f ∈ s.fromRoom, isAudio cv f = false) :
    (s.inbound cv full frame).Fresh cv := by
  cases frame with
  | media payloadB64 track =>
    rw [Pump.inbound]
    cases hdecode : Leg.decodeUp cv { s.leg with confirmed := true } payloadB64 with
    | none => exact h.of_eq rfl rfl rfl fun _ => rfl
    | some out =>
      have hclears : (s.onset out.2).Fresh cv := by
        refine h.onset fun honset hflight => hempty ?_
        rw [clears, hdecode]
        simp [honset, hflight]
      dsimp only
      split_ifs
      · exact hclears
      · exact hclears.of_eq rfl rfl rfl id
  | dtmf digit =>
    rw [Pump.inbound]
    split_ifs
    · exact h
    · exact h.of_eq rfl rfl rfl id
  | stop => exact h.of_eq rfl rfl rfl fun _ => rfl
  | start codec rate => exact h.of_eq rfl rfl rfl id
  | connected => exact h
  | other event => exact h

/-- The head of the room channel is taken, and is passed over or ends the pump. -/
lemma Fresh.taken (h : s.Fresh cv) {rest : List RoomFrame} (hhead : s.fromRoom = frame :: rest)
    (hroom : t.fromRoom = rest) (hqueued : t.queued = s.queued) (hwire : t.wire = s.wire)
    (hexit : t.exit.isSome = true ∨ isAudio cv frame = false ∧ t.exit = s.exit) : t.Fresh cv := by
  refine ⟨⟨by rw [hwire]; exact h.silenced, ?_⟩, ?_, ?_⟩
  · rw [hroom, hqueued, hwire]
    intro f hf haudio
    rcases hexit with hend | ⟨hnoise, hexit⟩
    · exact .inr (.inr hend)
    · rcases h.written f hf haudio with hwait | hsent | hend
      · rw [hhead] at hwait
        rcases List.mem_cons.mp hwait with rfl | hwait
        · rw [hnoise] at haudio
          cases haudio
        · exact .inl hwait
      · exact .inr (.inl hsent)
      · exact .inr (.inr (by rwa [hexit]))
  · rw [hroom, hwire]
    intro f hf
    exact h.waiting f (hhead ▸ List.mem_cons_of_mem _ hf)
  · rw [hqueued, hwire]
    exact h.counted

/-- The head of the room channel is written. -/
lemma Fresh.sent (h : s.Fresh cv) {rest : List RoomFrame} (hhead : s.fromRoom = frame :: rest)
    (haudio : isAudio cv frame = true) (leg : Leg κ) (payload : String) :
    Fresh cv { s with fromRoom := rest, leg, wire := .media frame.serial payload :: s.wire } := by
  have hmem : frame ∈ s.fromRoom := hhead ▸ List.mem_cons_self
  refine ⟨⟨List.Pairwise.cons ?_ h.silenced, ?_⟩, ?_, ?_⟩
  · rintro earlier hearlier n i p rfl hmedia
    cases hmedia
    exact h.waiting frame hmem haudio n hearlier
  · intro f hf hf'
    rcases h.written f hf hf' with hwait | ⟨p, hsent⟩ | hend
    · rw [hhead] at hwait
      rcases List.mem_cons.mp hwait with rfl | hwait
      · exact .inr (.inl ⟨payload, List.mem_cons_self⟩)
      · exact .inl hwait
    · exact .inr (.inl ⟨p, List.mem_cons_of_mem _ hsent⟩)
    · exact .inr (.inr hend)
  · intro f hf hf' n hn
    rcases List.mem_cons.mp hn with hn | hn
    · cases hn
    · exact h.waiting f (hhead ▸ List.mem_cons_of_mem _ hf) hf' n hn
  · intro n hn
    rcases List.mem_cons.mp hn with hn | hn
    · cases hn
    · exact h.counted n hn

lemma Fresh.room (h : s.Fresh cv) {rest : List RoomFrame} (hhead : s.fromRoom = frame :: rest) :
    ({ s with fromRoom := rest }.fromRoomFrame cv frame).Fresh cv := by
  rw [fromRoomFrame]
  cases hpcm : (translatedAudioPayload frame.body).bind cv.decodeB64 with
  | none =>
    have hnoise : isAudio cv frame = false := by rw [isAudio, hpcm]; rfl
    exact h.taken hhead rfl rfl rfl (.inr ⟨hnoise, rfl⟩)
  | some pcm =>
    have haudio : isAudio cv frame = true := by rw [isAudio, hpcm]; rfl
    dsimp only
    cases s.leg.encodeDown cv pcm with
    | none => exact h.taken hhead rfl rfl rfl (.inl rfl)
    | some out =>
      -- the chunk carries the current generation, whatever utterance it belongs to
      dsimp only
      rw [if_pos (PlaybackGate.accept_current _ _)]
      exact h.sent hhead haudio _ _

/-- A frame that the room queues is newer than every clear. -/
lemma Fresh.queue (h : s.Fresh cv) (body : Option Json) :
    Fresh cv { s with
      fromRoom := s.fromRoom ++ [⟨s.queued.length, body⟩]
      queued := ⟨s.queued.length, body⟩ :: s.queued } := by
  refine ⟨⟨h.silenced, ?_⟩, ?_, fun n hn => Nat.le_succ_of_le (h.counted n hn)⟩
  · intro f hf haudio
    rcases List.mem_cons.mp hf with rfl | hf
    · exact .inl (List.mem_append_right _ (List.mem_singleton_self _))
    · exact (h.written f hf haudio).imp_left fun hwait => List.mem_append_left _ hwait
  · intro f hf haudio n hn
    rcases List.mem_append.mp hf with hf | hf
    · exact h.waiting f hf haudio n hn
    · rw [List.mem_singleton.mp hf]
      exact h.counted n hn

/-- **One turn.** -/
lemma Fresh.step (h : s.Fresh cv) {e : PumpEvent} (hguard : clearsEmpty cv s e = true)
    (hstep : s.step cv e = some t) : t.Fresh cv := by
  obtain ⟨-, ⟨body, rfl, rfl⟩ | ⟨frame, full, rfl, rfl⟩ | ⟨frame, rest, rfl, hroom, rfl⟩ |
    ⟨exit, rfl, -⟩⟩ := step_cases hstep
  · exact h.queue body
  · refine h.inbound fun hclears f hf => ?_
    rw [clearsEmpty, hclears] at hguard
    have hnone := List.all_eq_true.mp hguard f hf
    simpa using hnone
  · exact h.room hroom
  · exact h.of_eq rfl rfl rfl fun _ => rfl

lemma fresh_new (cv : Conversions κ) (codec : MediaCodec) : (Pump.new cv codec).Fresh cv := by
  refine ⟨⟨.nil, nofun⟩, nofun, nofun⟩

/-- **Barge-in.**  As long as no translated audio waits in the room channel when a clear is
written, nothing queued before a clear is written after it, and every frame of translated audio
that was queued is written, or still waits, or the pump has ended. -/
theorem bargesIn_of_run (cv : Conversions κ) (codec : MediaCodec) {events : List PumpEvent}
    (h : Run (Guarded (ofPartial (Pump.step cv)) fun s e => clearsEmpty cv s e = true)
      (.new cv codec) events s) : s.BargesIn cv := by
  have hfresh : s.Fresh cv := h.invariant (Fresh cv)
    (fun _ _ _ _ hs hstep => hs.step hstep.1 hstep.2) (fresh_new cv codec)
  exact hfresh.toBargesIn

/-- A line on which one loud frame and silent translated audio occur.  What the engine is given
is left out. -/
def telephone : Conversions Unit where
  new _ := ()
  decodeUp _ _ text := if text = "f39/fw==" then some ([32639, 32639], [], ()) else none
  encodeDown _ _ pcm := if pcm = [0, 0, 0, 0, 0, 0] then some ("AAAAAA==", ()) else none
  decodeB64 text := if text = "AAAAAAAA" then some [0, 0, 0, 0, 0, 0] else none

/-- A room frame with three samples of silence. -/
def silence : Json := .obj [("type", .str "translated_audio"), ("pcm16_b64", .str "AAAAAAAA")]

/-- The far party begins to speak while a chunk of the same utterance waits: it is played after
the clear. -/
theorem late_chunk_is_played : ∃ events s,
    Run (ofPartial (Pump.step telephone)) (.new telephone .l16) events s ∧
      ¬ s.BargesIn telephone := by
  obtain ⟨s, hrun, hwire⟩ : ∃ s, Run (ofPartial (Pump.step telephone)) (.new telephone .l16)
      [.queue (some silence), .room, .queue (some silence),
        .incoming (.media "f39/fw==" "inbound") false, .room] s ∧
      s.wire = [.media 1 "AAAAAA==", .clear 2, .media 0 "AAAAAA=="] :=
    Run.exists_of_decide (by decide)
  refine ⟨_, s, hrun, fun h => ?_⟩
  have hsilenced := h.silenced
  rw [hwire, List.pairwise_cons] at hsilenced
  have hle := hsilenced.1 (.clear 2) (by simp) 2 1 "AAAAAA==" rfl rfl
  omega

/-- The same, with the chunk queued after the clear. -/
theorem bargesIn_sample : ∃ events s,
    Run (Guarded (ofPartial (Pump.step telephone)) fun s e => clearsEmpty telephone s e = true)
      (.new telephone .l16) events s ∧
    s.wire = [.media 1 "AAAAAA==", .clear 1, .media 0 "AAAAAA=="] ∧ s.BargesIn telephone := by
  obtain ⟨s, hrun, hwire⟩ : ∃ s,
      Run (Guarded (ofPartial (Pump.step telephone)) fun s e => clearsEmpty telephone s e = true)
        (.new telephone .l16)
        [.queue (some silence), .room, .incoming (.media "f39/fw==" "inbound") false,
          .queue (some silence), .room] s ∧
      s.wire = [.media 1 "AAAAAA==", .clear 1, .media 0 "AAAAAA=="] :=
    Run.exists_guarded_of_decide (by decide)
  exact ⟨_, s, hrun, hwire, bargesIn_of_run telephone .l16 hrun⟩

end VoxTranslate.Voip.Pump
