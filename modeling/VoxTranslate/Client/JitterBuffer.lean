import VoxTranslate.Lib.Run
import Mathlib.Algebra.Order.Ring.Nat
import Mathlib.Data.List.Chain
import Mathlib.Tactic.Common

/-!
# The jitter buffer of translated speech (`pcm-playback-worklet.js`)

The frames of translated speech come whenever the network lets them, and are played at the pace of
the audio clock.  The processor holds a cushion back before it starts, goes back to filling it when
it runs dry, and reports the edges of speech.  It counts what it has in hand apart from the queue
itself.  The count is true, and nothing is lost or repeated, as long as no frame is empty: an empty
one is read at its first sample all the same.
-/

namespace VoxTranslate.Client

open Lib

/-- The playback processor.  A sample that is read beyond the end of its frame is `none`. -/
structure PcmPlaybackProcessor (α : Type*) where
  queue : List (List α)
  cur : Option (List α)
  pos : Nat
  /-- The depth of the buffer: unplayed samples across `cur` and `queue`. -/
  queued : Int
  /-- Draining the cushion, not filling it. -/
  playing : Bool
  /-- Output samples rendered since the last frame arrived. -/
  quiet : Nat
  /-- The last sample played, decayed since. -/
  tail : Option α
  /-- The last edge that was reported. -/
  reported : Bool
  deriving DecidableEq, Repr

/-- What reaches the processor: messages, and requests to fill a block.  A request without an
output has no channel to fill. -/
inductive PlaybackEvent (α : Type*) where
  | flush
  | frame (samples : List α)
  | process (out : Option Nat)
  deriving DecidableEq, Repr

/-- The processor with all that it posted and played. -/
structure Playback (α : Type*) where
  node : PcmPlaybackProcessor α
  /-- The `playing` edges. -/
  posted : List Bool
  played : List (Option α)
  deriving DecidableEq, Repr

/-- What depends on the sample rate. -/
structure PlaybackRates (α : Type*) where
  /-- `PREBUFFER_SAMPLES`. -/
  prebufferSamples : Nat
  /-- `TAIL_TIMEOUT_SAMPLES`. -/
  tailTimeoutSamples : Nat
  /-- One sample's decay, down to the silence floor. -/
  decay : α → α

namespace PcmPlaybackProcessor

variable {α : Type*}

def new (zero : α) : PcmPlaybackProcessor α := ⟨[], none, 0, 0, false, 0, some zero, false⟩

/-- Post a `playing` edge once per transition. -/
def report (s : PcmPlaybackProcessor α) (playing : Bool) : PcmPlaybackProcessor α × List Bool :=
  if s.reported = playing then (s, []) else ({ s with reported := playing }, [playing])

/-- The decaying remains of the last sample played. -/
def silence (decay : α → α) : PcmPlaybackProcessor α → Nat → PcmPlaybackProcessor α
  | s, 0 => s
  | s, n + 1 => silence decay { s with tail := s.tail.map decay } n

def onFlush (s : PcmPlaybackProcessor α) : PcmPlaybackProcessor α × List Bool :=
  { s with queue := [], cur := none, pos := 0, queued := 0, playing := false }.report false

def onFrame (s : PcmPlaybackProcessor α) (samples : List α) : PcmPlaybackProcessor α :=
  { s with queue := s.queue ++ [samples], queued := s.queued + samples.length, quiet := 0 }

/-- Go to the next frame when the current one is played. -/
def advance (s : PcmPlaybackProcessor α) : PcmPlaybackProcessor α :=
  if s.cur.all fun frame => frame.length ≤ s.pos then
    { s with cur := s.queue.head?, queue := s.queue.tail, pos := 0 }
  else s

/-- Play into a block of `n` samples: the samples played, and the silence after an underrun. -/
def drain (decay : α → α) :
    PcmPlaybackProcessor α → Nat → PcmPlaybackProcessor α × List (Option α)
  | s, 0 => (s, [])
  | s, n + 1 =>
    let s := s.advance
    match s.cur with
    | none => ({ s with playing := false }.silence decay (n + 1), [])
    | some frame =>
      let sample := frame[s.pos]?
      let rest := drain decay { s with tail := sample, pos := s.pos + 1, queued := s.queued - 1 } n
      (rest.1, sample :: rest.2)

/-- The cushion is there, or nothing has come for a while and there is something left to play. -/
def isReady (rates : PlaybackRates α) (s : PcmPlaybackProcessor α) : Bool :=
  rates.prebufferSamples ≤ s.queued || (0 < s.queued && rates.tailTimeoutSamples ≤ s.quiet)

/-- Fill a block of `n` samples: the edges posted, and the samples played. -/
def process (rates : PlaybackRates α) (s : PcmPlaybackProcessor α) (n : Nat) :
    PcmPlaybackProcessor α × List Bool × List (Option α) :=
  let s := { s with quiet := s.quiet + n }
  if s.playing then
    let drained := s.drain rates.decay n
    (drained.1, [], drained.2)
  else if s.isReady rates then
    let reported := { s with playing := true }.report true
    let drained := reported.1.drain rates.decay n
    (drained.1, reported.2, drained.2)
  else
    -- the end of an utterance, unless more of it is on its way
    let reported :=
      if s.queued = 0 ∧ rates.tailTimeoutSamples ≤ s.quiet then s.report false else (s, [])
    (reported.1.silence rates.decay n, reported.2, [])

/-- The samples in hand: what is left of the current frame, and the queue. -/
def unplayed (s : PcmPlaybackProcessor α) : List α :=
  ((s.cur.map fun frame => frame.drop s.pos).getD []) ++ s.queue.flatten

/-- No frame that waits is empty, the depth is the number of samples in hand, and what plays was
reported. -/
structure Sound (s : PcmPlaybackProcessor α) : Prop where
  full : ∀ frame ∈ s.queue, frame ≠ []
  depth : s.queued = s.unplayed.length
  heard : s.playing = true → s.reported = true

variable {s : PcmPlaybackProcessor α} {rates : PlaybackRates α} {decay : α → α} {n : Nat}

lemma new_sound (zero : α) : (new zero).Sound :=
  ⟨by simp [new], by simp [new, unplayed], by simp [new]⟩

/-! ## One sample after the other -/

lemma silence_eq (decay : α → α) (s : PcmPlaybackProcessor α) (n : Nat) :
    ∃ tail, s.silence decay n = { s with tail } := by
  induction n generalizing s with
  | zero => exact ⟨s.tail, rfl⟩
  | succ n ih => exact ih _

lemma report_eq (s : PcmPlaybackProcessor α) (playing : Bool) :
    s.report playing =
      ({ s with reported := playing }, if s.reported = playing then [] else [playing]) := by
  rw [report]
  split_ifs with h
  · rw [← h]
  · rfl

/-- Going to the next frame neither plays nor drops anything. -/
lemma advance_spec (h : ∀ frame ∈ s.queue, frame ≠ []) : ∃ queue cur pos,
    s.advance = { s with queue, cur, pos } ∧ (∀ frame ∈ queue, frame ≠ []) ∧
      s.advance.unplayed = s.unplayed ∧ (cur = none → s.unplayed = []) ∧
      ∀ frame, cur = some frame → pos < frame.length := by
  rw [advance]
  split_ifs with hover
  · have hrest : (s.cur.map fun frame => frame.drop s.pos).getD [] = [] := by
      cases hcur : s.cur with
      | none => rfl
      | some frame =>
        rw [hcur] at hover
        simpa using hover
    refine ⟨s.queue.tail, s.queue.head?, 0, rfl, fun frame hmem => h frame (List.mem_of_mem_tail hmem),
      ?_, ?_, ?_⟩
    · rw [unplayed, unplayed, hrest]
      cases s.queue <;> simp
    · intro hnone
      rw [unplayed, hrest, List.head?_eq_none_iff.mp hnone]
      rfl
    · intro frame hhead
      exact List.length_pos_iff.mpr (h frame (List.mem_of_mem_head? hhead))
  · refine ⟨s.queue, s.cur, s.pos, rfl, h, rfl, ?_, ?_⟩
    · intro hnone
      rw [hnone] at hover
      exact absurd rfl hover
    · intro frame hcur
      rw [hcur] at hover
      simpa using hover

lemma drain_of_none (hcur : s.advance.cur = none) : s.drain decay (n + 1) =
    ({ s.advance with playing := false }.silence decay (n + 1), []) := by
  simp only [drain, hcur]

lemma drain_of_some {frame : List α} (hcur : s.advance.cur = some frame)
    {next : PcmPlaybackProcessor α} (hnext : next = { s.advance with
      tail := frame[s.advance.pos]?, pos := s.advance.pos + 1, queued := s.advance.queued - 1 }) :
    s.drain decay (n + 1) =
      ((next.drain decay n).1, frame[s.advance.pos]? :: (next.drain decay n).2) := by
  subst hnext
  simp only [drain, hcur]

/-- **What a block drains** are the first samples in hand, as many as it holds. -/
lemma drain_spec (decay : α → α) (h : s.Sound) (n : Nat) :
    (s.drain decay n).2 = (s.unplayed.take n).map some ∧
      (s.drain decay n).1.unplayed = s.unplayed.drop n ∧ (s.drain decay n).1.Sound ∧
      (s.drain decay n).1.quiet = s.quiet ∧ (s.drain decay n).1.reported = s.reported ∧
      ((s.drain decay n).1.playing = s.playing ∨ s.unplayed.length < n) := by
  induction n generalizing s with
  | zero => exact ⟨rfl, rfl, h, rfl, rfl, .inl rfl⟩
  | succ n ih =>
    obtain ⟨queue, cur, pos, hadvance, hfull, hsame, hnone, hpos⟩ := advance_spec h.full
    rw [hadvance] at hsame
    cases cur with
    | none =>
      have hnil := hnone rfl
      obtain ⟨tail, htail⟩ := silence_eq decay { s.advance with playing := false } (n + 1)
      rw [drain_of_none (by rw [hadvance]), htail, hadvance]
      have hleft : unplayed { s with queue, cur := none, pos, playing := false, tail } = [] :=
        hsame.trans hnil
      refine ⟨by rw [hnil]; rfl, by rw [hnil]; exact hleft, ⟨hfull, ?_, by simp⟩, rfl, rfl, .inr ?_⟩
      · rw [hleft]
        simpa [hnil] using h.depth
      · rw [hnil]
        exact Nat.succ_pos n
    | some frame =>
      have hlt := hpos frame rfl
      obtain ⟨next, hnext⟩ : ∃ next, next = { s with
          queue, cur := some frame, pos := pos + 1, tail := frame[pos]?, queued := s.queued - 1 } :=
        ⟨_, rfl⟩
      have hsplit : s.unplayed = frame[pos] :: next.unplayed := by
        rw [← hsame, hnext, unplayed, unplayed, Option.map_some, Option.getD_some, Option.map_some,
          Option.getD_some, List.drop_eq_getElem_cons hlt, List.cons_append]
      have hsound : next.Sound := by
        have hdepth := h.depth
        rw [hsplit, List.length_cons] at hdepth
        subst hnext
        refine ⟨hfull, ?_, h.heard⟩
        push_cast at hdepth ⊢
        omega
      have hdrain : s.drain decay (n + 1) =
          ((next.drain decay n).1, some frame[pos] :: (next.drain decay n).2) := by
        have hcur : s.advance.cur = some frame := by rw [hadvance]
        have hstate : next = { s.advance with
            tail := frame[s.advance.pos]?
            pos := s.advance.pos + 1
            queued := s.advance.queued - 1 } := by
          rw [hnext, hadvance]
        rw [drain_of_some hcur hstate, hadvance, List.getElem?_eq_getElem hlt]
      obtain ⟨hplayed, hleft, hnextSound, hquiet, hreported, hplaying⟩ := ih hsound
      rw [hdrain, hsplit]
      refine ⟨?_, hleft, hnextSound, by rw [hquiet, hnext], by rw [hreported, hnext], ?_⟩
      · rw [hplayed, List.take_succ_cons, List.map_cons]
      · rw [List.length_cons]
        refine hplaying.imp (fun hsame => ?_) Nat.succ_lt_succ
        rw [hsame, hnext]

/-- What a block of `n` samples does: it plays the first `k` samples in hand. -/
structure Plays (rates : PlaybackRates α) (s : PcmPlaybackProcessor α) (n k : Nat)
    (t : PcmPlaybackProcessor α) (edges : List Bool) (played : List (Option α)) : Prop where
  played_eq : played = (s.unplayed.take k).map some
  left : t.unplayed = s.unplayed.drop k
  sound : t.Sound
  quiet : t.quiet = s.quiet + n
  reported : edges = (if t.reported = s.reported then [] else [t.reported])
  /-- The voice is reported to be over when nothing is left and nothing has come for a while. -/
  over_iff : false ∈ edges → s.unplayed = [] ∧ rates.tailTimeoutSamples ≤ s.quiet + n
  /-- All of the block is played, unless more is waited for. -/
  all : (k = n ∧ (t.playing = true ∨ t.unplayed = [])) ∨
    (k = 0 ∧ s.playing = false ∧ (s.unplayed = [] ∨ s.quiet + n < rates.tailTimeoutSamples))

/-- A block that is drained. -/
lemma Plays.of_drain {u : PcmPlaybackProcessor α} {edges : List Bool} (hsound : u.Sound)
    (hplaying : u.playing = true) (hleft : u.unplayed = s.unplayed)
    (hquiet : u.quiet = s.quiet + n)
    (hedges : edges = if u.reported = s.reported then [] else [u.reported]) :
    Plays rates s n n (u.drain decay n).1 edges (u.drain decay n).2 := by
  obtain ⟨hplayed, hrest, hnext, hsame, hreported, hgoes⟩ := drain_spec decay hsound n
  refine ⟨by rw [hplayed, hleft], by rw [hrest, hleft], hnext, by rw [hsame, hquiet],
    by rw [hreported, hedges], fun hfalse => ?_, .inl ⟨rfl, ?_⟩⟩
  · have hheard := hsound.heard hplaying
    rw [hedges, hheard] at hfalse
    split_ifs at hfalse <;> simp at hfalse
  · rcases hgoes with hgoes | hshort
    · exact .inl (hgoes.trans hplaying)
    · right
      rw [hrest, List.drop_eq_nil_iff]
      exact hshort.le

lemma process_spec (rates : PlaybackRates α) (h : s.Sound) (n : Nat) :
    ∃ k, Plays rates s n k (s.process rates n).1 (s.process rates n).2.1
      (s.process rates n).2.2 := by
  simp only [process]
  by_cases hplaying : s.playing = true
  · rw [if_pos hplaying]
    refine ⟨n, Plays.of_drain (u := { s with quiet := s.quiet + n }) ⟨h.full, h.depth, h.heard⟩
      hplaying rfl rfl ?_⟩
    rw [if_pos rfl]
  · rw [if_neg hplaying]
    have hstopped : s.playing = false := Bool.not_eq_true _ ▸ hplaying
    by_cases hready : isReady rates { s with quiet := s.quiet + n } = true
    · rw [if_pos hready, report_eq]
      refine ⟨n, Plays.of_drain ⟨h.full, h.depth, fun _ => rfl⟩ rfl rfl rfl ?_⟩
      simp only [eq_comm]
    · rw [if_neg hready]
      simp only [isReady, Bool.or_eq_true, Bool.and_eq_true, decide_eq_true_eq, not_or,
        not_and, h.depth] at hready
      by_cases hover : s.queued = 0 ∧ rates.tailTimeoutSamples ≤ s.quiet + n
      · rw [if_pos hover, report_eq]
        obtain ⟨tail, htail⟩ := silence_eq rates.decay
          { s with quiet := s.quiet + n, reported := false } n
        have hnil : s.unplayed = [] := by
          have hdepth := h.depth
          rw [hover.1] at hdepth
          exact List.length_eq_zero_iff.mp (by omega)
        refine ⟨0, ?_⟩
        simp only [htail]
        refine ⟨rfl, rfl, ⟨h.full, h.depth, fun hgoes => absurd hgoes hplaying⟩, rfl, ?_, ?_, ?_⟩
        · simp only [eq_comm]
        · exact fun _ => ⟨hnil, hover.2⟩
        · exact .inr ⟨rfl, hstopped, .inl hnil⟩
      · rw [if_neg hover]
        obtain ⟨tail, htail⟩ := silence_eq rates.decay { s with quiet := s.quiet + n } n
        refine ⟨0, ?_⟩
        simp only [htail]
        have hwaits : s.unplayed = [] ∨ s.quiet + n < rates.tailTimeoutSamples := by
          by_contra hnot
          push Not at hnot
          obtain ⟨hleft, hlong⟩ := hnot
          have hpos := List.length_pos_iff.mpr hleft
          exact hready.2 (by omega) hlong
        refine ⟨rfl, rfl, ⟨h.full, h.depth, fun hgoes => absurd hgoes hplaying⟩, rfl, ?_, ?_, ?_⟩
        · rw [if_pos rfl]
        · simp
        · exact .inr ⟨rfl, hstopped, hwaits⟩

end PcmPlaybackProcessor

namespace PlaybackEvent

variable {α : Type*}

/-- A frame has samples; `enqueue` posts no other. -/
def isFull : PlaybackEvent α → Bool
  | frame samples => !samples.isEmpty
  | flush | process _ => true

/-- The samples that arrive. -/
def samples : PlaybackEvent α → List α
  | frame samples => samples
  | flush | process _ => []

/-- How much output is rendered. -/
def length : PlaybackEvent α → Nat
  | process (some n) => n
  | flush | frame _ | process none => 0

def isFrame : PlaybackEvent α → Bool
  | frame _ => true
  | flush | process _ => false

/-- All samples that arrive, in order. -/
def enqueued (as : List (PlaybackEvent α)) : List α := as.flatMap samples

/-- The time that passes, in samples. -/
def rendered (as : List (PlaybackEvent α)) : Nat := (as.map length).sum

end PlaybackEvent

open PlaybackEvent (enqueued rendered)

namespace Playback

variable {α : Type*}

def init (zero : α) : Playback α := ⟨.new zero, [], []⟩

def step (rates : PlaybackRates α) (s : Playback α) : PlaybackEvent α → Playback α
  | .flush => { s with node := s.node.onFlush.1, posted := s.posted ++ s.node.onFlush.2 }
  | .frame samples => { s with node := s.node.onFrame samples }
  | .process none => s
  | .process (some n) =>
    let processed := s.node.process rates n
    ⟨processed.1, s.posted ++ processed.2.1, s.played ++ processed.2.2⟩

abbrev Step (rates : PlaybackRates α) : Playback α → PlaybackEvent α → Playback α → Prop :=
  ofFun (step rates)

variable {rates : PlaybackRates α} {s t : Playback α} {a : PlaybackEvent α}
  {as : List (PlaybackEvent α)} {zero : α}

/-! ## What a run leaves -/

/-- The samples played, and then those in hand, are samples that arrived, in order. -/
def InOrder (as : List (PlaybackEvent α)) (s : Playback α) : Prop :=
  ∃ l, s.played = l.map some ∧ (l ++ s.node.unplayed).Sublist (enqueued as)

/-- So much was rendered since the last frame. -/
def Quiet (as : List (PlaybackEvent α)) (s : Playback α) : Prop :=
  ∃ pre post, as = pre ++ post ∧ (∀ a ∈ post, a.isFrame = false) ∧ s.node.quiet = rendered post

/-- The edges alternate, the first one is a beginning, and the last one was reported. -/
def Alternates (s : Playback α) : Prop :=
  (false :: s.posted).IsChain (· ≠ ·) ∧ (false :: s.posted).getLast? = some s.node.reported

lemma Alternates.append (h : s.Alternates) {edges : List Bool} {reported : Bool}
    (hedges : edges = if reported = s.node.reported then [] else [reported]) :
    (false :: (s.posted ++ edges)).IsChain (· ≠ ·) ∧
      (false :: (s.posted ++ edges)).getLast? = some reported := by
  obtain ⟨hchain, hlast⟩ := h
  split_ifs at hedges with hsame
  · rw [hedges, List.append_nil, hsame]
    exact ⟨hchain, hlast⟩
  · subst hedges
    refine ⟨?_, List.getLast?_concat (l := false :: s.posted)⟩
    refine List.isChain_append.mpr ⟨hchain, List.isChain_singleton _, ?_⟩
    rintro x hx y hy
    obtain rfl : x = s.node.reported := by
      rw [hlast] at hx
      exact (Option.mem_some.mp hx).symm
    obtain rfl : y = reported := by simpa using hy.symm
    exact Ne.symm hsame

/-- **The invariant of the playback.** -/
structure Intact (as : List (PlaybackEvent α)) (s : Playback α) : Prop where
  sound : s.node.Sound
  inOrder : s.InOrder as
  quiet : s.Quiet as
  alternates : s.Alternates

lemma init_intact (zero : α) : Intact [] (init zero) where
  sound := PcmPlaybackProcessor.new_sound zero
  inOrder := ⟨[], rfl, by simp [init, PcmPlaybackProcessor.new, PcmPlaybackProcessor.unplayed]⟩
  quiet := ⟨[], [], rfl, by simp, rfl⟩
  alternates := ⟨List.isChain_singleton _, rfl⟩

lemma Quiet.append (h : s.Quiet as) (hframe : a.isFrame = false)
    (hquiet : t.node.quiet = s.node.quiet + a.length) : t.Quiet (as ++ [a]) := by
  obtain ⟨pre, post, rfl, hpost, heq⟩ := h
  refine ⟨pre, post ++ [a], (List.append_assoc _ _ _), ?_, ?_⟩
  · intro b hb
    rcases List.mem_append.mp hb with hb | hb
    · exact hpost b hb
    · rwa [List.mem_singleton.mp hb]
  · rw [hquiet, heq, rendered, rendered, List.map_append, List.sum_append]
    simp

lemma enqueued_append (as : List (PlaybackEvent α)) (a : PlaybackEvent α) :
    enqueued (as ++ [a]) = enqueued as ++ a.samples := by
  simp [enqueued]

/-- A frame goes to the end of what is in hand. -/
lemma unplayed_onFrame (node : PcmPlaybackProcessor α) (samples : List α) :
    (node.onFrame samples).unplayed = node.unplayed ++ samples := by
  simp [PcmPlaybackProcessor.onFrame, PcmPlaybackProcessor.unplayed]

lemma Intact.flush (h : s.Intact as) : (s.step rates .flush).Intact (as ++ [.flush]) := by
  have hreport := PcmPlaybackProcessor.report_eq
    { s.node with queue := [], cur := none, pos := 0, queued := 0, playing := false } false
  simp only [step, PcmPlaybackProcessor.onFlush, hreport]
  refine ⟨⟨by simp, rfl, by simp⟩, ?_, ?_, ?_⟩
  · obtain ⟨l, hplayed, hsublist⟩ := h.inOrder
    refine ⟨l, hplayed, ?_⟩
    rw [enqueued_append]
    refine List.Sublist.trans ?_ (List.sublist_append_left _ _)
    exact List.Sublist.trans (by simp [PcmPlaybackProcessor.unplayed]) hsublist
  · exact h.quiet.append rfl rfl
  · exact h.alternates.append (by simp only [eq_comm])

lemma Intact.frame {samples : List α} (h : s.Intact as) (hfull : samples ≠ []) :
    (s.step rates (.frame samples)).Intact (as ++ [.frame samples]) := by
  refine ⟨⟨?_, ?_, h.sound.heard⟩, ?_, ?_, h.alternates⟩
  · intro frame hframe
    rcases List.mem_append.mp hframe with hframe | hframe
    · exact h.sound.full frame hframe
    · rwa [List.mem_singleton.mp hframe]
  · simp only [step, unplayed_onFrame, List.length_append]
    rw [PcmPlaybackProcessor.onFrame, h.sound.depth]
    push_cast
    rfl
  · obtain ⟨l, hplayed, hsublist⟩ := h.inOrder
    refine ⟨l, hplayed, ?_⟩
    simp only [step, unplayed_onFrame, enqueued_append, PlaybackEvent.samples]
    rw [← List.append_assoc]
    exact hsublist.append (List.Sublist.refl samples)
  · exact ⟨as ++ [.frame samples], [], (List.append_nil _).symm, by simp, rfl⟩

lemma Intact.process {n k : Nat} {node : PcmPlaybackProcessor α} {edges : List Bool}
    {played : List (Option α)} (h : s.Intact as)
    (hplays : s.node.Plays rates n k node edges played) :
    Intact (as ++ [.process (some n)]) ⟨node, s.posted ++ edges, s.played ++ played⟩ := by
  refine ⟨hplays.sound, ?_, h.quiet.append rfl hplays.quiet, h.alternates.append hplays.reported⟩
  obtain ⟨l, hl, hsublist⟩ := h.inOrder
  refine ⟨l ++ s.node.unplayed.take k, ?_, ?_⟩
  · rw [hl, hplays.played_eq, List.map_append]
  · rw [hplays.left, List.append_assoc, List.take_append_drop, enqueued_append]
    exact hsublist.trans (List.sublist_append_left _ _)

lemma Intact.step (h : s.Intact as) (hfull : a.isFull = true) :
    (s.step rates a).Intact (as ++ [a]) := by
  cases a with
  | flush => exact h.flush
  | frame samples => exact h.frame (by simpa [PlaybackEvent.isFull] using hfull)
  | process out =>
    cases out with
    | none =>
      obtain ⟨l, hplayed, hsublist⟩ := h.inOrder
      refine ⟨h.sound, ⟨l, hplayed, ?_⟩, h.quiet.append rfl rfl, h.alternates⟩
      rw [enqueued_append]
      exact hsublist.trans (List.sublist_append_left _ _)
    | some n =>
      obtain ⟨k, hplays⟩ := s.node.process_spec rates h.sound n
      exact h.process hplays

theorem intact_of_run (hfull : ∀ a ∈ as, a.isFull = true)
    (hrun : Run (Step rates) (init zero) as s) : s.Intact as := by
  refine hrun.history (fun bs s a ha t h hstep => ?_) (init_intact zero)
  obtain rfl : t = s.step rates a := hstep
  exact h.step (hfull a ha)

/-! ## What is played -/

/-- Without a flush nothing is skipped. -/
lemma kept_of_run {post : List (PlaybackEvent α)} (h : s.Intact as)
    (hfull : ∀ a ∈ post, a.isFull = true) (hflush : .flush ∉ post)
    (hrun : Run (Step rates) s post t) :
    t.played ++ t.node.unplayed.map some =
      s.played ++ (s.node.unplayed ++ enqueued post).map some := by
  induction hrun generalizing as with
  | nil s => rw [enqueued, List.flatMap_nil, List.append_nil]
  | @cons s u t a post hstep _ ih =>
    obtain rfl : u = s.step rates a := hstep
    have hrest := ih (h.step (hfull a List.mem_cons_self))
      (fun b hb => hfull b (List.mem_cons_of_mem _ hb)) fun hmem =>
        hflush (List.mem_cons_of_mem _ hmem)
    have henqueued : enqueued (a :: post) = a.samples ++ enqueued post := rfl
    rw [hrest, henqueued]
    cases a with
    | flush => exact absurd List.mem_cons_self hflush
    | frame samples =>
      simp only [step, unplayed_onFrame, PlaybackEvent.samples, List.append_assoc]
    | process out =>
      cases out with
      | none => rfl
      | some n =>
        obtain ⟨k, hplays⟩ := s.node.process_spec rates h.sound n
        simp only [step, hplays.played_eq, hplays.left, PlaybackEvent.samples, List.nil_append,
          List.append_assoc, List.map_append]
        rw [← List.append_assoc (List.map some (s.node.unplayed.take k)), ← List.map_append,
          List.take_append_drop]

lemma rendered_cons (a : PlaybackEvent α) (as : List (PlaybackEvent α)) :
    rendered (a :: as) = a.length + rendered as := by
  rw [rendered, List.map_cons, List.sum_cons, rendered]

/-- What plays goes on as long as there is something left. -/
lemma played_on {post : List (PlaybackEvent α)} (h : s.Intact as)
    (hprocess : ∀ a ∈ post, ∃ out, a = .process out) (hrun : Run (Step rates) s post t)
    (hgoes : s.node.playing = true ∨ s.node.unplayed = []) :
    t.node.unplayed = s.node.unplayed.drop (rendered post) := by
  induction hrun generalizing as with
  | nil s => rfl
  | @cons s u t a post hstep _ ih =>
    obtain rfl : u = s.step rates a := hstep
    obtain ⟨out, rfl⟩ := hprocess a List.mem_cons_self
    have hrest := ih (h.step rfl) fun b hb => hprocess b (List.mem_cons_of_mem _ hb)
    rw [rendered_cons]
    cases out with
    | none =>
      rw [hrest hgoes, PlaybackEvent.length, Nat.zero_add]
      rfl
    | some n =>
      obtain ⟨k, hplays⟩ := s.node.process_spec rates h.sound n
      rw [PlaybackEvent.length, ← List.drop_drop]
      rcases hplays.all with ⟨rfl, hon⟩ | ⟨rfl, hstopped, -⟩
      · rw [hrest hon]
        exact congrArg _ hplays.left
      · -- nothing plays, and nothing is left to play
        have hnil := hgoes.resolve_left (by rw [hstopped]; exact Bool.false_ne_true)
        have hleft := hplays.left
        rw [hnil, List.drop_nil] at hleft
        rw [hrest (.inr hleft), hnil, List.drop_nil, List.drop_nil]
        exact (congrArg _ hleft).trans List.drop_nil

/-- **The tail is played out**, as soon as nothing has come for long enough. -/
lemma drains_of_run {post : List (PlaybackEvent α)} (h : s.Intact as)
    (hprocess : ∀ a ∈ post, ∃ out, a = .process out) (hrun : Run (Step rates) s post t)
    (hlong : rates.tailTimeoutSamples - s.node.quiet + s.node.unplayed.length ≤ rendered post) :
    t.node.unplayed = [] := by
  induction hrun generalizing as with
  | nil s =>
    have hnone : rendered ([] : List (PlaybackEvent α)) = 0 := rfl
    exact List.length_eq_zero_iff.mp (by omega)
  | @cons s u t a post hstep hrest ih =>
    obtain rfl : u = s.step rates a := hstep
    obtain ⟨out, rfl⟩ := hprocess a List.mem_cons_self
    have hnext : (s.step rates (.process out)).Intact (as ++ [.process out]) := h.step rfl
    have hprocess' := fun b hb => hprocess b (List.mem_cons_of_mem _ hb)
    rw [rendered_cons] at hlong
    cases out with
    | none =>
      rw [PlaybackEvent.length, Nat.zero_add] at hlong
      exact ih hnext hprocess' hlong
    | some n =>
      obtain ⟨k, hplays⟩ := s.node.process_spec rates h.sound n
      have hleft : (s.step rates (.process (some n))).node.unplayed = s.node.unplayed.drop k :=
        hplays.left
      have hquiet : (s.step rates (.process (some n))).node.quiet = s.node.quiet + n :=
        hplays.quiet
      rw [PlaybackEvent.length] at hlong
      rcases hplays.all with ⟨rfl, hon⟩ | ⟨rfl, -, hwaits⟩
      · rw [played_on hnext hprocess' hrest hon, hleft, List.drop_drop, List.drop_eq_nil_iff]
        omega
      · rw [List.drop_zero] at hleft
        rcases hwaits with hnil | hshort
        · rw [played_on hnext hprocess' hrest (.inr (hleft.trans hnil)), hleft, hnil, List.drop_nil]
        · refine ih hnext hprocess' ?_
          rw [hleft, hquiet]
          omega

/-- The voice is reported to be over by a flush, or when nothing is left and nothing has come for
a while. -/
lemma over_of_step (h : s.Intact as) (hover : (s.step rates a).posted = s.posted ++ [false]) :
    a = .flush ∨ (s.node.unplayed = [] ∧ ∃ pre post, as ++ [a] = pre ++ post ∧
      (∀ b ∈ post, b.isFrame = false) ∧ rates.tailTimeoutSamples ≤ rendered post) := by
  have hnone : s.posted ≠ s.posted ++ [false] := by simp
  cases a with
  | flush => exact .inl rfl
  | frame samples => exact absurd hover hnone
  | process out =>
    cases out with
    | none => exact absurd hover hnone
    | some n =>
      obtain ⟨k, hplays⟩ := s.node.process_spec rates h.sound n
      have hedges : (s.node.process rates n).2.1 = [false] := List.append_cancel_left hover
      obtain ⟨hnil, hlong⟩ := hplays.over_iff (by rw [hedges]; exact List.mem_singleton_self _)
      obtain ⟨pre, post, heq, hpost, hquiet⟩ :=
        h.quiet.append (a := .process (some n)) (t := s.step rates (.process (some n))) rfl
          hplays.quiet
      refine .inr ⟨hnil, pre, post, heq, hpost, ?_⟩
      rw [← hquiet]
      exact hlong.trans hplays.quiet.ge

/-- What holds of the playback after every run. -/
structure Faithful (rates : PlaybackRates α) (as : List (PlaybackEvent α)) (s : Playback α) :
    Prop where
  /-- What was played arrived, in that order, and was played once. -/
  inOrder : ∃ l : List α, s.played = l.map some ∧ l.Sublist (enqueued as)
  /-- From here on nothing is skipped until the next flush … -/
  kept : ∀ post t, (∀ a ∈ post, a.isFull = true) → .flush ∉ post → Run (Step rates) s post t →
    t.played ++ t.node.unplayed.map some =
      s.played ++ (s.node.unplayed ++ enqueued post).map some
  /-- … which discards what is in hand. -/
  flushed : (s.step rates .flush).played = s.played ∧ (s.step rates .flush).node.unplayed = []
  depth : s.node.queued = s.node.unplayed.length
  alternates : (false :: s.posted).IsChain (· ≠ ·)
  ended : ∀ a, (s.step rates a).posted = s.posted ++ [false] →
    a = .flush ∨ (s.node.unplayed = [] ∧ ∃ pre post, as ++ [a] = pre ++ post ∧
      (∀ b ∈ post, b.isFrame = false) ∧ rates.tailTimeoutSamples ≤ rendered post)
  drains : ∀ post t, (∀ a ∈ post, ∃ out, a = .process out) →
    rates.tailTimeoutSamples + s.node.unplayed.length ≤ rendered post →
    Run (Step rates) s post t → t.node.queue = [] ∧ t.node.unplayed = []

/-- **The jitter buffer.**  As long as no frame is empty, it plays what it was sent. -/
theorem faithful_of_run (rates : PlaybackRates α) (zero : α) {as : List (PlaybackEvent α)}
    {s : Playback α} (hfull : ∀ a ∈ as, a.isFull = true)
    (hrun : Run (Step rates) (init zero) as s) : s.Faithful rates as := by
  have h := intact_of_run hfull hrun
  refine ⟨?_, fun post t => kept_of_run h, ?_, h.sound.depth, h.alternates.1,
    fun a => over_of_step h, fun post t hprocess hlong hrest => ?_⟩
  · obtain ⟨l, hplayed, hsublist⟩ := h.inOrder
    exact ⟨l, hplayed, (List.sublist_append_left _ _).trans hsublist⟩
  · refine ⟨rfl, ?_⟩
    simp only [step, PcmPlaybackProcessor.onFlush, PcmPlaybackProcessor.report_eq]
    rfl
  · have hnil := drains_of_run h hprocess hrest (by omega)
    refine ⟨?_, hnil⟩
    have hsound : t.node.Sound := by
      have hposted : ∀ a ∈ post, a.isFull = true := by
        intro a ha
        obtain ⟨out, rfl⟩ := hprocess a ha
        rfl
      refine (intact_of_run ?_ (Run.append_iff.mpr ⟨s, hrun, hrest⟩)).sound
      intro a ha
      exact (List.mem_append.mp ha).elim (hfull a) (hposted a)
    rw [PcmPlaybackProcessor.unplayed, List.append_eq_nil_iff, List.flatten_eq_nil_iff] at hnil
    refine List.eq_nil_iff_forall_not_mem.mpr fun frame hframe => ?_
    exact hsound.full frame hframe (hnil.2 frame hframe)

/-- The rates at 24 kHz. -/
def rates24k : PlaybackRates Int := ⟨6000, 2880, fun sample => sample * 92 / 100⟩

/-- The tail timeout in blocks of 128 samples. -/
def tailTimeout : List (PlaybackEvent Int) := List.replicate 23 (.process (some 128))

/-- A short utterance is played once nothing more has come for a while. -/
theorem faithful_short : ∃ s, Run (Step rates24k) (init 0) (.frame [5, -3, 4] :: tailTimeout) s ∧
    s.played = [some 5, some (-3), some 4] ∧
    s.Faithful rates24k (.frame [5, -3, 4] :: tailTimeout) := by
  have hrun : Run (Step rates24k) (init 0) (.frame [5, -3, 4] :: tailTimeout) _ :=
    Run.ofFun_iff.mpr rfl
  exact ⟨_, hrun, by decide +kernel, faithful_of_run rates24k 0 (by decide) hrun⟩

/-- An empty frame is read at its first sample: something is played that was never sent, and the
depth of the empty buffer is negative. -/
theorem empty_frame_is_read : ∃ s,
    Run (Step rates24k) (init 0) (.frame [5] :: .frame [] :: tailTimeout) s ∧
    s.played = [some 5, none] ∧ s.node.unplayed = [] ∧ s.node.queued = -1 ∧
    ¬ s.Faithful rates24k (.frame [5] :: .frame [] :: tailTimeout) := by
  refine ⟨_, Run.ofFun_iff.mpr rfl, by decide +kernel, by decide +kernel, by decide +kernel,
    fun h => ?_⟩
  exact absurd h.depth (by decide +kernel)

end Playback

end VoxTranslate.Client
