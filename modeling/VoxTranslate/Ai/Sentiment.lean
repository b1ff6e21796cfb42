import VoxTranslate.Lib.SortedMap
import VoxTranslate.Transcripts.Export

/-!
# Sentiment windows (`effective_window`, `chunk_transcript` in `ai/sentiment.rs`)

A transcript is cut into windows of one width, each scored by a call of its own.  The width grows
in steps of two minutes with the length of the session, so that there are at most thirty windows.
-/

namespace VoxTranslate.Ai.Sentiment

open Engine (Text)
open Transcripts (EventKind ExportEvent TranscriptExport)
open Lib

/-- `WINDOW_SECS`: the least width. -/
def windowSecs : Int := 120

/-- `MAX_CHUNKS`: the model calls of an analysis. -/
def maxChunks : Int := 30

/-- The width of the windows of a session. -/
def effectiveWindow (durationSeconds : Int) : Int :=
  let windowsNeeded := (max durationSeconds 0).tdiv windowSecs + 1
  windowSecs * max ((windowsNeeded + maxChunks - 1).tdiv maxChunks) 1

structure SentimentChunk where
  /-- Seconds from the start of the session. -/
  startSecs : Int
  text : Text
  deriving DecidableEq, Repr

/-- The seconds from the start of a session to an event. -/
def offset (transcript : TranscriptExport) (ev : ExportEvent) : Int :=
  numSeconds (ev.ts - transcript.startedAt)

/-- The line of an event, under the label of its speaker. -/
def line (aliases : Text → Text) (ev : ExportEvent) : Text :=
  let chat := if ev.kind = .chat then [' ', '[', 'c', 'h', 'a', 't', ']'] else []
  aliases ev.speakerName ++ chat ++ [':', ' '] ++ ev.original ++ ['\n']

/-- The lines of each window that holds an event, by the number of the window. -/
def windows (transcript : TranscriptExport) (width : Int) (aliases : Text → Text) :
    List (Int × Text) :=
  transcript.events.foldl (fun windows ev =>
    SortedMap.alter windows ((max (offset transcript ev) 0).tdiv width) fun text =>
      text.getD [] ++ line aliases ev) []

def chunkTranscript (transcript : TranscriptExport) (width : Int) (aliases : Text → Text) :
    List SentimentChunk :=
  (windows transcript width aliases).map fun (win, text) => ⟨win * width, text⟩

/-- The events of a window, which starts at a second and is `width` seconds wide. -/
def eventsIn (transcript : TranscriptExport) (width start : Int) : List ExportEvent :=
  transcript.events.filter fun ev =>
    start ≤ offset transcript ev ∧ offset transcript ev < start + width

/-- The events of the session lie between its start and the second `d`. -/
def Within (transcript : TranscriptExport) (d : Int) : Prop :=
  ∀ ev ∈ transcript.events, 0 ≤ offset transcript ev ∧ offset transcript ev ≤ d

section Windows

variable {transcript : TranscriptExport} {aliases : Text → Text} {d w k : Int} {c : SentimentChunk}

lemma effectiveWindow_eq (hd : 0 ≤ d) : effectiveWindow d = 120 * (d / 3600 + 1) := by
  have hneeded : (max d 0).tdiv windowSecs + 1 = d / 120 + 1 := by
    rw [max_eq_left hd, Int.tdiv_eq_ediv_of_nonneg hd, windowSecs]
  have hsteps : (d / 120 + 1 + maxChunks - 1).tdiv maxChunks = d / 3600 + 1 := by
    rw [maxChunks, Int.tdiv_eq_ediv_of_nonneg (by omega)]
    omega
  simp only [effectiveWindow]
  rw [hneeded, hsteps, windowSecs, max_eq_left (by omega)]

/-- A session has at most thirty windows. -/
lemma ediv_effectiveWindow_lt (hk : 0 ≤ k) (hkd : k ≤ d) : k / effectiveWindow d < 30 := by
  rw [effectiveWindow_eq (hk.trans hkd)]
  refine Int.ediv_lt_of_lt_mul (by omega) ?_
  omega

/-- The number of the window of an offset. -/
lemma tdiv_eq_iff (hw : 0 < w) {secs : Int} (hsecs : 0 ≤ secs) :
    (max secs 0).tdiv w = k ↔ k * w ≤ secs ∧ secs < k * w + w := by
  have hdiv : (max secs 0).tdiv w = secs / w := by
    rw [max_eq_left hsecs, Int.tdiv_eq_ediv_of_nonneg hsecs]
  have hnext : k * w + w = (k + 1) * w := by rw [Int.add_mul, Int.one_mul]
  rw [hdiv, hnext, ← Int.le_ediv_iff_mul_le hw, ← Int.ediv_lt_iff_lt_mul hw]
  omega

/-- Lines are collected one after the other. -/
lemma foldl_line (events : List ExportEvent) (text : Option Text) :
    events.foldl (fun text ev => some (text.getD [] ++ line aliases ev)) text =
      if events = [] then text else some (text.getD [] ++ events.flatMap (line aliases)) := by
  induction events generalizing text with
  | nil => rfl
  | cons ev events ih =>
    rw [List.foldl_cons, ih, if_neg (List.cons_ne_nil _ _)]
    by_cases hnil : events = []
    · simp [hnil]
    · rw [if_neg hnil, Option.getD_some, List.flatMap_cons, List.append_assoc]

lemma sorted_windows : SortedMap.Sorted (windows transcript w aliases) :=
  SortedMap.sorted_nil.foldl_alter _

/-- A window holds the lines of its events. -/
lemma get_windows (hw : 0 < w) (hin : Within transcript d) :
    Entries.get (windows transcript w aliases) k =
      if eventsIn transcript w (k * w) = [] then none
      else some ((eventsIn transcript w (k * w)).flatMap (line aliases)) := by
  have hevents : (transcript.events.filter fun ev => (max (offset transcript ev) 0).tdiv w = k) =
      eventsIn transcript w (k * w) := by
    refine List.filter_congr fun ev hev => ?_
    simp only [tdiv_eq_iff hw (hin ev hev).1]
  rw [windows, SortedMap.get_foldl_alter SortedMap.sorted_nil, hevents, Entries.get, foldl_line]
  simp

lemma mem_chunkTranscript_iff (hw : 0 < w) (hin : Within transcript d) :
    c ∈ chunkTranscript transcript w aliases ↔ (∃ k, c.startSecs = k * w) ∧
      eventsIn transcript w c.startSecs ≠ [] ∧
        c.text = (eventsIn transcript w c.startSecs).flatMap (line aliases) := by
  rw [chunkTranscript, List.mem_map]
  constructor
  · rintro ⟨⟨k, text⟩, hmem, rfl⟩
    rw [sorted_windows.mem_iff, get_windows hw hin] at hmem
    split_ifs at hmem with hnil
    exact ⟨⟨k, rfl⟩, hnil, (Option.some.inj hmem).symm⟩
  · rintro ⟨⟨k, hk⟩, hnil, htext⟩
    refine ⟨(k, c.text), ?_, ?_⟩
    · rw [sorted_windows.mem_iff, get_windows hw hin, ← hk, if_neg hnil, htext]
    · cases c
      simp only at hk
      rw [hk]

lemma pairwise_startSecs (hw : 0 < w) :
    ((chunkTranscript transcript w aliases).map SentimentChunk.startSecs).Pairwise (· < ·) := by
  rw [chunkTranscript, List.map_map, List.pairwise_map]
  refine sorted_windows.imp fun {e e'} hlt => ?_
  exact Int.mul_lt_mul_of_pos_right hlt hw

/-- Increasing numbers between two bounds are no more than fit there. -/
lemma length_le_of_pairwise_lt {l : List Int} {a b : Int} (h : l.Pairwise (· < ·))
    (hl : ∀ n ∈ l, a ≤ n ∧ n < b) (hab : a ≤ b) : (l.length : Int) ≤ b - a := by
  induction l generalizing a with
  | nil => simpa using hab
  | cons n l ih =>
    obtain ⟨hhead, htail⟩ := List.pairwise_cons.mp h
    have hn := hl n List.mem_cons_self
    have hrest : (l.length : Int) ≤ b - (n + 1) := by
      refine ih htail (fun m hm => ?_) (by omega)
      exact ⟨hhead m hm, (hl m (List.mem_cons_of_mem _ hm)).2⟩
    rw [List.length_cons]
    push_cast
    omega

/-- Every window that holds an event is one of the first thirty. -/
lemma length_chunkTranscript_le (hin : Within transcript d) :
    (chunkTranscript transcript (effectiveWindow d) aliases).length ≤ 30 := by
  by_cases hd : 0 ≤ d
  · have hw : 0 < effectiveWindow d := by
      rw [effectiveWindow_eq hd]
      omega
    have hkeys : ∀ n ∈ (windows transcript (effectiveWindow d) aliases).map Prod.fst,
        0 ≤ n ∧ n < 30 := by
      intro n hn
      obtain ⟨⟨n, text⟩, hmem, rfl⟩ := List.mem_map.mp hn
      rw [sorted_windows.mem_iff, get_windows hw hin] at hmem
      split_ifs at hmem with hnil
      obtain ⟨ev, hev⟩ := List.exists_mem_of_ne_nil _ hnil
      obtain ⟨hevent, hoffset⟩ := List.mem_filter.mp hev
      obtain ⟨hpos, hle⟩ := hin ev hevent
      have hnumber := (tdiv_eq_iff hw hpos).mpr (of_decide_eq_true hoffset)
      rw [max_eq_left hpos, Int.tdiv_eq_ediv_of_nonneg hpos] at hnumber
      rw [← hnumber]
      exact ⟨Int.ediv_nonneg hpos hw.le, ediv_effectiveWindow_lt hpos hle⟩
    have hsorted : ((windows transcript (effectiveWindow d) aliases).map Prod.fst).Pairwise
        (· < ·) := List.pairwise_map.mpr sorted_windows
    have hlength := length_le_of_pairwise_lt hsorted hkeys (by omega)
    rw [List.length_map] at hlength
    rw [chunkTranscript, List.length_map]
    omega
  · -- no event has an offset
    have hnil : transcript.events = [] := by
      refine List.eq_nil_iff_forall_not_mem.mpr fun ev hev => ?_
      have := hin ev hev
      omega
    simp [chunkTranscript, windows, hnil]

end Windows

/-- **Sentiment windows.**  Where the events lie within the duration of the session, there are at
most thirty chunks, they start at increasing multiples of the width, each is the lines of the
events in its window in their order, and every event is in the window of exactly one chunk. -/
theorem chunks_partition_session (transcript : TranscriptExport) (aliases : Text → Text) (d : Int)
    (hd : 0 ≤ d) (hin : Within transcript d) :
    let chunks := chunkTranscript transcript (effectiveWindow d) aliases
    chunks.length ≤ 30 ∧
      (chunks.map SentimentChunk.startSecs).Pairwise (· < ·) ∧
      (∀ c ∈ chunks, effectiveWindow d ∣ c.startSecs ∧
        c.text = (eventsIn transcript (effectiveWindow d) c.startSecs).flatMap (line aliases)) ∧
      ∀ ev ∈ transcript.events, ∃! c, c ∈ chunks ∧
        ev ∈ eventsIn transcript (effectiveWindow d) c.startSecs := by
  have hw : 0 < effectiveWindow d := by
    rw [effectiveWindow_eq hd]
    omega
  refine ⟨length_chunkTranscript_le hin, pairwise_startSecs hw, ?_, ?_⟩
  · intro c hc
    obtain ⟨⟨k, hk⟩, -, htext⟩ := (mem_chunkTranscript_iff hw hin).mp hc
    exact ⟨⟨k, hk.trans (Int.mul_comm _ _)⟩, htext⟩
  · intro ev hev
    have hpos := (hin ev hev).1
    obtain ⟨k, hk⟩ : ∃ k, (max (offset transcript ev) 0).tdiv (effectiveWindow d) = k := ⟨_, rfl⟩
    have hmem : ev ∈ eventsIn transcript (effectiveWindow d) (k * effectiveWindow d) :=
      List.mem_filter.mpr ⟨hev, decide_eq_true ((tdiv_eq_iff hw hpos).mp hk)⟩
    let text :=
      (eventsIn transcript (effectiveWindow d) (k * effectiveWindow d)).flatMap (line aliases)
    have hchunk : ⟨k * effectiveWindow d, text⟩ ∈
        chunkTranscript transcript (effectiveWindow d) aliases :=
      (mem_chunkTranscript_iff hw hin).mpr ⟨⟨k, rfl⟩, List.ne_nil_of_mem hmem, rfl⟩
    refine ⟨⟨k * effectiveWindow d, text⟩, ⟨hchunk, hmem⟩, ?_⟩
    rintro c ⟨hc, hcmem⟩
    obtain ⟨⟨k', hk'⟩, -, htext⟩ := (mem_chunkTranscript_iff hw hin).mp hc
    have hoffset := of_decide_eq_true (List.mem_filter.mp hcmem).2
    rw [hk'] at hoffset
    have hsame : k' = k := ((tdiv_eq_iff hw hpos).mpr hoffset).symm.trans hk
    cases c
    simp only at hk' htext
    rw [hk', hsame] at htext
    rw [hk', hsame, htext]

/-- Two events on either side of the edge of a window. -/
def twoWindows : TranscriptExport :=
  ⟨0, [⟨.speech, 119000000, ['A'], [], ['a'], fun _ => none⟩,
    ⟨.chat, 120000000, ['B'], [], ['b'], fun _ => none⟩]⟩

theorem chunks_partition_session_edge :
    (chunkTranscript twoWindows (effectiveWindow 200) id).length ≤ 30 ∧
      ∀ ev ∈ twoWindows.events, ∃! c, c ∈ chunkTranscript twoWindows (effectiveWindow 200) id ∧
        ev ∈ eventsIn twoWindows (effectiveWindow 200) c.startSecs := by
  have hin : Within twoWindows 200 := by
    unfold Within
    decide
  obtain ⟨hlength, -, -, hone⟩ := chunks_partition_session twoWindows id 200 (by decide) hin
  exact ⟨hlength, hone⟩

end VoxTranslate.Ai.Sentiment
