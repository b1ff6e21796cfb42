import VoxTranslate.Lib.Assoc
import VoxTranslate.Lib.Decimal
import VoxTranslate.Lib.Join
import VoxTranslate.Lib.Run

/-!
# Playback of synthesised speech

The chunks of an utterance come in order on the socket of the synthesis and are numbered from zero
as they come; the chunks of different utterances come in any order.  The playback keeps the last
number of each speaker, and accepts a chunk whose number is greater, or zero.  Two utterances of
one speaker share that number.
-/

namespace VoxTranslate.Client

open Lib

/-- A chunk as it is handed to the playback. -/
structure Chunk where
  speakerId : String
  seq : Nat
  pcm16Base64 : String
  deriving DecidableEq, Repr

/-- Whether a chunk with sequence `seq` is played after `last`. -/
def shouldPlay (seq : Nat) (last : Int) : Bool := decide (last < seq) || seq == 0

/-- The playback graph, as far as what it accepts goes. -/
structure PcmPlayback where
  /-- The last accepted number of each speaker. -/
  lastSeq : Assoc String Nat
  /-- What was accepted, newest first. -/
  accepted : List Chunk

namespace PcmPlayback

def new : PcmPlayback := ⟨∅, []⟩

def enqueue (p : PcmPlayback) (c : Chunk) : PcmPlayback :=
  let last : Int := ((p.lastSeq.lookup c.speakerId).map Int.ofNat).getD (-1)
  if shouldPlay c.seq last then
    { lastSeq := p.lastSeq.insert c.speakerId c.seq, accepted := c :: p.accepted }
  else p

/-- What a playback makes of chunks, newest first. -/
def enqueueAll (chunks : List Chunk) : PcmPlayback := chunks.foldr (fun c p => p.enqueue c) new

/-- The last of the chunks, newest first, that are of the speaker. -/
def lastOf (chunks : List Chunk) (speakerId : String) : Option Chunk :=
  chunks.find? fun c => c.speakerId = speakerId

/-- Every chunk is the first of its utterance, or has a greater number than the last chunk of its
speaker before it. -/
def rising : List Chunk → Bool
  | [] => true
  | c :: older =>
    (c.seq == 0 || (lastOf older c.speakerId).all fun b => decide (b.seq < c.seq)) && rising older

variable {chunks : List Chunk} {c : Chunk} {speakerId : String}

lemma accepted_sublist : (enqueueAll chunks).accepted.Sublist chunks := by
  induction chunks with
  | nil => exact List.Sublist.slnil
  | cons c older ih =>
    show ((enqueueAll older).enqueue c).accepted.Sublist (c :: older)
    rw [enqueue]
    split_ifs
    · exact ih.cons_cons c
    · exact ih.cons c

lemma lastOf_cons : lastOf (c :: chunks) speakerId =
    if c.speakerId = speakerId then some c else lastOf chunks speakerId := by
  rw [lastOf, List.find?_cons]
  split_ifs with h <;> simp [h, lastOf]

/-- As long as everything is accepted, the playback knows the last chunk of each speaker. -/
lemma lookup_lastSeq (h : (enqueueAll chunks).accepted = chunks) (speakerId : String) :
    (enqueueAll chunks).lastSeq.lookup speakerId = (lastOf chunks speakerId).map Chunk.seq := by
  induction chunks with
  | nil => rfl
  | cons c older ih =>
    have hlen : (enqueueAll older).accepted.length ≤ older.length := accepted_sublist.length_le
    change ((enqueueAll older).enqueue c).accepted = c :: older at h
    show ((enqueueAll older).enqueue c).lastSeq.lookup speakerId = _
    rw [enqueue] at h ⊢
    split_ifs at h ⊢ with hplay
    · rw [lastOf_cons]
      by_cases hspeaker : c.speakerId = speakerId
      · rw [if_pos hspeaker, hspeaker, AList.lookup_insert]
        rfl
      · rw [if_neg hspeaker, AList.lookup_insert_ne (Ne.symm hspeaker)]
        exact ih (List.cons.inj h).2
    · rw [h, List.length_cons] at hlen
      omega

/-- **Everything is accepted exactly when the numbers rise for each speaker.** -/
lemma accepted_eq_iff : (enqueueAll chunks).accepted = chunks ↔ rising chunks = true := by
  induction chunks with
  | nil => exact ⟨fun _ => rfl, fun _ => rfl⟩
  | cons c older ih =>
    have hlen : (enqueueAll older).accepted.length ≤ older.length := accepted_sublist.length_le
    have hnext : (enqueueAll (c :: older)).accepted = c :: older ↔
        shouldPlay c.seq ((((enqueueAll older).lastSeq.lookup c.speakerId).map Int.ofNat).getD (-1))
          = true ∧ (enqueueAll older).accepted = older := by
      show ((enqueueAll older).enqueue c).accepted = c :: older ↔ _
      rw [enqueue]
      split_ifs with hplay
      · simp [hplay]
      · refine ⟨fun heq => ?_, fun hand => absurd hand.1 hplay⟩
        rw [heq, List.length_cons] at hlen
        omega
    rw [hnext, rising, Bool.and_eq_true, ← ih]
    refine and_congr_left fun hall => ?_
    rw [lookup_lastSeq hall, shouldPlay]
    cases hlast : lastOf older c.speakerId with
    | none =>
      simp only [Option.map_none, Option.getD_none, Option.all_none, Bool.or_true, iff_true,
        Bool.or_eq_true, decide_eq_true_eq]
      left
      omega
    | some b =>
      simp only [Option.map_some, Option.getD_some, Option.all_some, Bool.or_eq_true,
        decide_eq_true_eq, beq_iff_eq, Int.ofNat_eq_natCast, Int.ofNat_lt]
      tauto

end PcmPlayback

/-! ## What comes on a socket -/

/-- A chunk of an utterance of a speaker, as it comes on the socket. -/
structure Arrival where
  contextId : String
  speakerId : String
  data : String
  deriving DecidableEq, Repr

/-- The number of chunks that came of an utterance. -/
def countOf (arrived : List Arrival) (contextId : String) : Nat :=
  arrived.countP fun a => a.contextId = contextId

/-- The chunks that came, newest first, each with its place in its utterance. -/
def numbered : List Arrival → List Chunk
  | [] => []
  | a :: older => ⟨a.speakerId, countOf older a.contextId, a.data⟩ :: numbered older

lemma countOf_cons {arrived : List Arrival} {a : Arrival} {contextId : String} :
    countOf (a :: arrived) contextId =
      if a.contextId = contextId then countOf arrived contextId + 1
      else countOf arrived contextId := by
  rw [countOf, List.countP_cons]
  split_ifs with h <;> simp_all [countOf]

/-- A message on the socket of the synthesis. -/
inductive TtsMessage where
  | chunk (contextId data : String)
  /-- `done` or `error`. -/
  | finished (contextId : String)
  deriving DecidableEq, Repr

/-- What the service has to speak, and what it has sent. -/
structure TtsService where
  /-- The utterances that were asked for and are not over, with their speakers. -/
  pending : Assoc String String
  /-- The chunks that came, newest first. -/
  arrived : List Arrival

namespace TtsService

def new : TtsService := ⟨∅, []⟩

def request (v : TtsService) (contextId speakerId : String) : TtsService :=
  { v with pending := v.pending.insert contextId speakerId }

/-- The service sends chunks that are not empty, of what it was asked for, and ends with one last
message. -/
def sends (v : TtsService) : TtsMessage → Option TtsService
  | .chunk contextId data =>
    if data = "" then none
    else (v.pending.lookup contextId).map fun speakerId =>
      { v with arrived := ⟨contextId, speakerId, data⟩ :: v.arrived }
  | .finished contextId =>
    if contextId ∈ v.pending then some { v with pending := v.pending.erase contextId } else none

end TtsService

/-- The client numbers the chunks of what is pending by their places, and the names of the
utterances to come are new. -/
structure Numbers (name : String → Nat → String) (counter : Nat)
    (seqOf : String → Option (String × Nat)) (playback : PcmPlayback) (v : TtsService) : Prop where
  played : playback = PcmPlayback.enqueueAll (numbered v.arrived)
  routed : ∀ contextId speakerId, v.pending.lookup contextId = some speakerId →
    seqOf contextId = some (speakerId, countOf v.arrived contextId)
  fresh : ∀ n, counter ≤ n → ∀ speakerId,
    v.pending.lookup (name speakerId n) = none ∧ countOf v.arrived (name speakerId n) = 0

namespace Numbers

variable {name : String → Nat → String} {counter : Nat}
  {seqOf seqOf' : String → Option (String × Nat)} {playback : PcmPlayback} {v : TtsService}
  {contextId speakerId data : String}

lemma init : Numbers name counter seqOf .new .new where
  played := rfl
  routed _ _ h := by cases h
  fresh _ _ _ := ⟨rfl, rfl⟩

lemma request (h : Numbers name counter seqOf playback v)
    (hname : ∀ {a b : String} {m n : Nat}, name a m = name b n → m = n)
    (hself : seqOf' (name speakerId counter) = some (speakerId, 0))
    (hother : ∀ c, c ≠ name speakerId counter → seqOf' c = seqOf c) :
    Numbers name (counter + 1) seqOf' playback (v.request (name speakerId counter) speakerId) where
  played := h.played
  routed c speaker hc := by
    by_cases heq : c = name speakerId counter
    · subst heq
      rw [TtsService.request, AList.lookup_insert] at hc
      cases hc
      exact hself.trans (by rw [TtsService.request, (h.fresh counter le_rfl _).2])
    · rw [TtsService.request, AList.lookup_insert_ne heq] at hc
      exact (hother c heq).trans (h.routed c speaker hc)
  fresh n hn speaker := by
    have hne : name speaker n ≠ name speakerId counter := by
      intro heq
      have := hname heq
      omega
    rw [TtsService.request, AList.lookup_insert_ne hne]
    exact h.fresh n (by omega) speaker

/-- A chunk that is enqueued with its place in its utterance. -/
lemma arrive (h : Numbers name counter seqOf playback v)
    (hpending : v.pending.lookup contextId = some speakerId)
    (hself : seqOf' contextId = some (speakerId, countOf v.arrived contextId + 1))
    (hother : ∀ c, c ≠ contextId → seqOf' c = seqOf c) :
    Numbers name counter seqOf'
      (playback.enqueue ⟨speakerId, countOf v.arrived contextId, data⟩)
      { v with arrived := ⟨contextId, speakerId, data⟩ :: v.arrived } where
  played := by
    rw [h.played]
    rfl
  routed c speaker hc := by
    rw [countOf_cons]
    by_cases heq : c = contextId
    · subst heq
      rw [hpending] at hc
      cases hc
      rw [hself, if_pos rfl]
    · rw [hother c heq, if_neg (Ne.symm heq)]
      exact h.routed c speaker hc
  fresh n hn speaker := by
    obtain ⟨hnone, hcount⟩ := h.fresh n hn speaker
    refine ⟨hnone, ?_⟩
    rw [countOf_cons, if_neg, hcount]
    rintro rfl
    rw [hnone] at hpending
    cases hpending

lemma finish (h : Numbers name counter seqOf playback v)
    (hother : ∀ c, c ≠ contextId → seqOf' c = seqOf c) :
    Numbers name counter seqOf' playback { v with pending := v.pending.erase contextId } where
  played := h.played
  routed c speaker hc := by
    by_cases heq : c = contextId
    · subst heq
      rw [AList.lookup_erase] at hc
      cases hc
    · rw [AList.lookup_erase_ne heq] at hc
      exact (hother c heq).trans (h.routed c speaker hc)
  fresh n hn speaker := by
    obtain ⟨hnone, hcount⟩ := h.fresh n hn speaker
    refine ⟨?_, hcount⟩
    by_cases heq : name speaker n = contextId
    · rw [heq, AList.lookup_erase]
    · rw [AList.lookup_erase_ne heq, hnone]

lemma accepted_iff (h : Numbers name counter seqOf playback v) :
    playback.accepted = numbered v.arrived ↔ PcmPlayback.rising (numbered v.arrived) = true := by
  rw [h.played]
  exact PcmPlayback.accepted_eq_iff

end Numbers

/-- What happens on a socket. -/
inductive TtsEvent where
  /-- The client has an utterance of the speaker spoken. -/
  | speak (speakerId : String)
  | message (message : TtsMessage)
  deriving DecidableEq, Repr

/-! ## The client-direct socket -/

/-- The routing of an utterance back to its speaker. -/
structure TtsRoute where
  speakerId : String
  seq : Nat
  deriving DecidableEq, Repr

/-- The synthesis of `CartesiaManager`, while its socket is open. -/
structure CartesiaTts where
  ttsContexts : Assoc String TtsRoute
  ttsCounter : Nat
  playback : PcmPlayback

namespace CartesiaTts

def new : CartesiaTts := ⟨∅, 0, .new⟩

def contextId (peerId : String) (n : Nat) : String := peerId ++ ":" ++ toString n

def speak (m : CartesiaTts) (peerId : String) : CartesiaTts :=
  { m with
    ttsContexts := m.ttsContexts.insert (contextId peerId m.ttsCounter) ⟨peerId, 0⟩
    ttsCounter := m.ttsCounter + 1 }

def onmessage (m : CartesiaTts) : TtsMessage → CartesiaTts
  | .chunk contextId data =>
    match m.ttsContexts.lookup contextId with
    | none => m
    | some route =>
      if data = "" then m
      else { m with
        ttsContexts := m.ttsContexts.insert contextId { route with seq := route.seq + 1 }
        playback := m.playback.enqueue ⟨route.speakerId, route.seq, data⟩ }
  | .finished contextId => { m with ttsContexts := m.ttsContexts.erase contextId }

/-- One event; `none` where the service does not send the message. -/
def step (s : CartesiaTts × TtsService) : TtsEvent → Option (CartesiaTts × TtsService)
  | .speak peerId =>
    some (s.1.speak peerId, s.2.request (contextId peerId s.1.ttsCounter) peerId)
  | .message message => (s.2.sends message).map fun v => (s.1.onmessage message, v)

/-- The number of an utterance is read off its name. -/
lemma contextId_inj {a b : String} {m n : Nat} (h : contextId a m = contextId b n) : m = n := by
  have hdigits : ∀ k : Nat, ':' ∉ decimal k := fun _ => not_mem_decimal (by decide)
  have hlist : a.toList ++ ':' :: decimal m = b.toList ++ ':' :: decimal n := by
    simpa [contextId, decimal] using congrArg String.toList h
  exact decimal_inj (append_cons_inj_of_not_mem_right hlist (hdigits m) (hdigits n)).2

def Inv (s : CartesiaTts × TtsService) : Prop :=
  Numbers contextId s.1.ttsCounter
    (fun c => (s.1.ttsContexts.lookup c).map fun r => (r.speakerId, r.seq)) s.1.playback s.2

variable {s t : CartesiaTts × TtsService} {e : TtsEvent}

lemma Inv.step (h : Inv s) (hstep : CartesiaTts.step s e = some t) : Inv t := by
  cases e with
  | speak peerId =>
    cases hstep
    refine Numbers.request h contextId_inj ?_ fun c hc => ?_
    · rw [speak, AList.lookup_insert]
      rfl
    · rw [speak, AList.lookup_insert_ne hc]
  | message message =>
    obtain ⟨v, hsends, rfl⟩ := Option.map_eq_some_iff.mp hstep
    cases message with
    | chunk contextId data =>
      rw [TtsService.sends] at hsends
      split_ifs at hsends with hdata
      obtain ⟨speakerId, hpending, rfl⟩ := Option.map_eq_some_iff.mp hsends
      obtain ⟨route, hroute, heq⟩ := Option.map_eq_some_iff.mp (h.routed _ _ hpending)
      obtain ⟨rfl, hseq⟩ := Prod.mk.inj heq
      have hmessage : s.1.onmessage (.chunk contextId data) = { s.1 with
          ttsContexts := s.1.ttsContexts.insert contextId { route with seq := route.seq + 1 }
          playback := s.1.playback.enqueue ⟨route.speakerId, route.seq, data⟩ } := by
        rw [onmessage, hroute]
        exact if_neg hdata
      rw [Inv, hmessage, hseq]
      refine Numbers.arrive h hpending ?_ fun c hc => ?_
      · rw [AList.lookup_insert]
        rfl
      · rw [AList.lookup_insert_ne hc]
    | finished contextId =>
      rw [TtsService.sends] at hsends
      split_ifs at hsends
      cases hsends
      refine Numbers.finish h fun c hc => ?_
      rw [onmessage, AList.lookup_erase_ne hc]

end CartesiaTts

/-! ## The webinar socket -/

/-- The synthesis of `WebinarTts`, while its socket is open. -/
structure WebinarTts where
  contextSeq : Assoc String Nat
  ttsCounter : Nat
  pcm : PcmPlayback

namespace WebinarTts

def new : WebinarTts := ⟨∅, 0, .new⟩

/-- The one speaker of a webinar. -/
def host : String := "wbr-host"

def contextId (n : Nat) : String := "wbr-" ++ toString n

def speakEnhanced (w : WebinarTts) : WebinarTts :=
  { w with
    contextSeq := w.contextSeq.insert (contextId w.ttsCounter) 0
    ttsCounter := w.ttsCounter + 1 }

def onmessage (w : WebinarTts) : TtsMessage → WebinarTts
  | .chunk contextId data =>
    if data = "" ∨ contextId = "" then w
    else
      let seq := (w.contextSeq.lookup contextId).getD 0
      { w with
        contextSeq := w.contextSeq.insert contextId (seq + 1)
        pcm := w.pcm.enqueue ⟨host, seq, data⟩ }
  | .finished _ => w

/-- One event; `none` where the service does not send the message. -/
def step (s : WebinarTts × TtsService) : TtsEvent → Option (WebinarTts × TtsService)
  | .speak _ => some (s.1.speakEnhanced, s.2.request (contextId s.1.ttsCounter) host)
  | .message message => (s.2.sends message).map fun v => (s.1.onmessage message, v)

lemma contextId_inj {m n : Nat} (h : contextId m = contextId n) : m = n := by
  have hlist : "wbr-".toList ++ decimal m = "wbr-".toList ++ decimal n := by
    simpa [contextId, decimal] using congrArg String.toList h
  exact decimal_inj (List.append_cancel_left hlist)

/-- Every utterance that is pending has a name that is not empty. -/
structure Inv (s : WebinarTts × TtsService) : Prop where
  numbers : Numbers (fun _ => contextId) s.1.ttsCounter
    (fun c => some (host, (s.1.contextSeq.lookup c).getD 0)) s.1.pcm s.2
  named : ∀ c speakerId, s.2.pending.lookup c = some speakerId → c ≠ ""

variable {s t : WebinarTts × TtsService} {e : TtsEvent}

lemma Inv.step (h : Inv s) (hstep : WebinarTts.step s e = some t) : Inv t := by
  cases e with
  | speak speakerId =>
    cases hstep
    refine ⟨Numbers.request h.numbers contextId_inj ?_ fun c hc => ?_, fun c speaker hc => ?_⟩
    · rw [speakEnhanced, AList.lookup_insert]
      rfl
    · rw [speakEnhanced, AList.lookup_insert_ne hc]
    · by_cases heq : c = contextId s.1.ttsCounter
      · rintro rfl
        have hhead : (contextId s.1.ttsCounter).toList.head? = some 'w' := by simp [contextId]
        rw [← heq] at hhead
        cases hhead
      · rw [TtsService.request, AList.lookup_insert_ne heq] at hc
        exact h.named c speaker hc
  | message message =>
    obtain ⟨v, hsends, rfl⟩ := Option.map_eq_some_iff.mp hstep
    cases message with
    | chunk contextId data =>
      rw [TtsService.sends] at hsends
      split_ifs at hsends with hdata
      obtain ⟨speakerId, hpending, rfl⟩ := Option.map_eq_some_iff.mp hsends
      obtain ⟨rfl, hseq⟩ := Prod.mk.inj (Option.some.inj (h.numbers.routed _ _ hpending))
      have hnamed : contextId ≠ "" := h.named _ _ hpending
      refine ⟨?_, h.named⟩
      rw [onmessage, if_neg (by rintro (hd | hc); exacts [hdata hd, hnamed hc]), hseq]
      refine Numbers.arrive h.numbers hpending ?_ fun c hc => ?_
      · rw [AList.lookup_insert]
        rfl
      · rw [AList.lookup_insert_ne hc]
    | finished contextId =>
      rw [TtsService.sends] at hsends
      split_ifs at hsends
      cases hsends
      refine ⟨Numbers.finish h.numbers fun c _ => rfl, fun c speaker hc => ?_⟩
      by_cases heq : c = contextId
      · subst heq
        rw [AList.lookup_erase] at hc
        cases hc
      · rw [AList.lookup_erase_ne heq] at hc
        exact h.named c speaker hc

end WebinarTts

/-! ## Both sockets -/

/-- **On either socket every chunk is accepted, once and in order, exactly when the chunks of each
speaker come with rising places**: each is the first of its utterance, or farther in its utterance
than the chunk of the speaker before it is in its own. -/
theorem nothing_lost_iff {direct webinar : List TtsEvent} {s : CartesiaTts × TtsService}
    {t : WebinarTts × TtsService} (hs : Run (ofPartial CartesiaTts.step) (.new, .new) direct s)
    (ht : Run (ofPartial WebinarTts.step) (.new, .new) webinar t) :
    (s.1.playback.accepted = numbered s.2.arrived ↔
      PcmPlayback.rising (numbered s.2.arrived) = true) ∧
    (t.1.pcm.accepted = numbered t.2.arrived ↔
      PcmPlayback.rising (numbered t.2.arrived) = true) := by
  constructor
  · have hinv : CartesiaTts.Inv s :=
      hs.invariant CartesiaTts.Inv (fun _ _ _ _ h hstep => h.step hstep) Numbers.init
    exact hinv.accepted_iff
  · have hinv : WebinarTts.Inv t :=
      ht.invariant WebinarTts.Inv (fun _ _ _ _ h hstep => h.step hstep)
        ⟨Numbers.init, fun _ _ hc => by cases hc⟩
    exact hinv.numbers.accepted_iff

/-- Two speakers at the same time, and two utterances of the first one after the other; on the
webinar's socket two utterances one after the other. -/
theorem nothing_lost_sample :
    (∃ direct s, Run (ofPartial CartesiaTts.step) (.new, .new) direct s ∧
      s.2.arrived.length = 5 ∧ s.1.playback.accepted = numbered s.2.arrived) ∧
    ∃ webinar t, Run (ofPartial WebinarTts.step) (.new, .new) webinar t ∧
      t.2.arrived.length = 3 ∧ t.1.pcm.accepted = numbered t.2.arrived := by
  let direct : List TtsEvent :=
    [.speak "ann", .speak "bob", .message (.chunk "ann:0" "A0"), .message (.chunk "bob:1" "B0"),
      .message (.chunk "ann:0" "A1"), .message (.finished "ann:0"), .speak "ann",
      .message (.chunk "ann:2" "C0"), .message (.chunk "bob:1" "B1")]
  let webinar : List TtsEvent :=
    [.speak "", .speak "", .message (.chunk "wbr-0" "A0"), .message (.chunk "wbr-0" "A1"),
      .message (.chunk "wbr-1" "B0")]
  obtain ⟨s, hs, hs', hrising⟩ : ∃ s, Run (ofPartial CartesiaTts.step) (.new, .new) direct s ∧
      s.2.arrived.length = 5 ∧ PcmPlayback.rising (numbered s.2.arrived) = true :=
    Run.exists_of_decide (by decide +kernel)
  obtain ⟨t, ht, ht', hrising'⟩ : ∃ t, Run (ofPartial WebinarTts.step) (.new, .new) webinar t ∧
      t.2.arrived.length = 3 ∧ PcmPlayback.rising (numbered t.2.arrived) = true :=
    Run.exists_of_decide (by decide +kernel)
  obtain ⟨hiff, hiff'⟩ := nothing_lost_iff hs ht
  exact ⟨⟨direct, s, hs, hs', hiff.mpr hrising⟩, webinar, t, ht, ht', hiff'.mpr hrising'⟩

/-- The second utterance of a speaker begins before the first is over: on either socket a chunk
is lost. -/
theorem interleaved_chunk_lost :
    (∃ events s, Run (ofPartial CartesiaTts.step) (.new, .new) events s ∧
      s.1.playback.accepted ≠ numbered s.2.arrived) ∧
    ∃ events s, Run (ofPartial WebinarTts.step) (.new, .new) events s ∧
      s.1.pcm.accepted ≠ numbered s.2.arrived := by
  constructor
  · exact ⟨[.speak "ann", .speak "ann", .message (.chunk "ann:0" "A0"),
      .message (.chunk "ann:1" "B0"), .message (.chunk "ann:1" "B1"),
      .message (.chunk "ann:0" "A1")], Run.exists_of_decide (by decide +kernel)⟩
  · exact ⟨[.speak "", .speak "", .message (.chunk "wbr-0" "A0"),
      .message (.chunk "wbr-1" "B0"), .message (.chunk "wbr-1" "B1"),
      .message (.chunk "wbr-0" "A1")], Run.exists_of_decide (by decide +kernel)⟩

end VoxTranslate.Client
