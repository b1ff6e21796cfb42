import VoxTranslate.Base
import VoxTranslate.Business.SpeakerNames
import VoxTranslate.Lib.Gather
import VoxTranslate.Translation.CacheKey

/-!
# What is embedded as one (`business/transcripts.rs`, `webinar/ai.rs`)

For the semantic search a transcript is cut into chunks of some 250 words.  The segments of a call
and the rows of a webinar are chunked alike, by a loop that carries the texts, the words and the
times of the chunk it is in.
-/

namespace VoxTranslate.Business

open Lib
open Engine (Text)
open Translation (splitWhitespace)

def chunkTargetWords : Nat := 250

/-- A run of segments that is embedded as one. -/
structure Chunk where
  content : Text
  speakerName : String
  startMs : Int
  endMs : Int
  deriving DecidableEq, Repr

/-- What the loop reads of a piece of talk. -/
structure Talk (σ : Type) where
  text : σ → Text
  speakerName : σ → String
  startMs : σ → Int
  endMs : σ → Int

/-- The locals of the loop. -/
structure ChunkLoop where
  chunks : List Chunk
  texts : List Text
  words : Nat
  startMs : Int
  endMs : Int
  speaker : String

section Loop

variable {σ : Type} (talk : Talk σ)

def Talk.trimmed (seg : σ) : Text := (talk.text seg).trim

def Talk.wordCount (seg : σ) : Nat := (splitWhitespace (talk.trimmed seg)).length

def ChunkLoop.new : ChunkLoop := ⟨[], [], 0, 0, 0, ""⟩

/-- The chunk of the locals. -/
def ChunkLoop.chunk (s : ChunkLoop) : Chunk where
  content := [' '].intercalate s.texts
  speakerName := s.speaker
  startMs := s.startMs
  endMs := s.endMs

/-- A piece of talk goes into the chunk; the first one of a chunk says whose it is. -/
def ChunkLoop.push (s : ChunkLoop) (seg : σ) : ChunkLoop where
  chunks := s.chunks
  texts := s.texts ++ [talk.trimmed seg]
  words := s.words + talk.wordCount seg
  startMs := if s.texts.isEmpty then talk.startMs seg else s.startMs
  endMs := talk.endMs seg
  speaker := if s.texts.isEmpty then talk.speakerName seg else s.speaker

def ChunkLoop.flush (s : ChunkLoop) : ChunkLoop :=
  { s with chunks := s.chunks ++ [s.chunk], texts := [], words := 0, speaker := "" }

/-- One turn of the loop. -/
def ChunkLoop.turn (s : ChunkLoop) (seg : σ) : ChunkLoop :=
  if (talk.trimmed seg).isEmpty then s
  else if chunkTargetWords ≤ (s.push talk seg).words then (s.push talk seg).flush
  else s.push talk seg

/-- What is left over is flushed. -/
def ChunkLoop.finish (s : ChunkLoop) : List Chunk :=
  if s.texts.isEmpty then s.chunks else s.chunks ++ [s.chunk]

/-- The loop of both. -/
def chunksOf (segments : List σ) : List Chunk :=
  (segments.foldl (ChunkLoop.turn talk) .new).finish

end Loop

/-- The segments of a call. -/
def segmentTalk : Talk Segment :=
  ⟨Segment.text, Segment.speakerName, Segment.startMs, Segment.endMs⟩

def chunkSegments (segments : List Segment) : List Chunk := chunksOf segmentTalk segments

/-- A row of `webinar_transcripts`, as far as it is embedded. -/
structure WebinarRow where
  originalText : Text
  spokenAt : Timestamp
  deriving DecidableEq, Repr

/-- The chunks of a webinar name no speaker: all of it is said by the host. -/
structure WebinarChunk where
  content : Text
  startMs : Int
  endMs : Int
  deriving DecidableEq, Repr

/-- `num_milliseconds` of the time since the anchor, and none before it. -/
def offsetMs (anchor spokenAt : Timestamp) : Int := max ((spokenAt - anchor).tdiv 1000) 0

def webinarTalk (anchor : Timestamp) : Talk WebinarRow where
  text := WebinarRow.originalText
  speakerName _ := ""
  startMs row := offsetMs anchor row.spokenAt
  endMs row := offsetMs anchor row.spokenAt

def chunkTranscriptRows (rows : List WebinarRow) (anchor : Timestamp) : List WebinarChunk :=
  (chunksOf (webinarTalk anchor) rows).map fun c => ⟨c.content, c.startMs, c.endMs⟩

/-! ## The chunks are runs of the talk -/

section Runs

variable {σ : Type} (talk : Talk σ)

/-- Something is said. -/
def Talk.said (seg : σ) : Bool := !(talk.trimmed seg).isEmpty

/-- What a run is embedded as. -/
def Talk.chunk (run : List σ) : Chunk where
  content := [' '].intercalate (run.map talk.trimmed)
  speakerName := (run.head?.map talk.speakerName).getD ""
  startMs := (run.head?.map talk.startMs).getD 0
  endMs := (run.getLast?.map talk.endMs).getD 0

variable {talk}

/-- The locals say of the run what its chunk will say. -/
structure ChunkLoop.Holds (talk : Talk σ) (s : ChunkLoop) (run : List σ) : Prop where
  texts : s.texts = run.map talk.trimmed
  words : s.words = (run.map talk.wordCount).sum
  chunk : run ≠ [] → s.chunk = talk.chunk run

lemma ChunkLoop.holds_new : ChunkLoop.new.Holds talk [] := ⟨rfl, rfl, fun h => (h rfl).elim⟩

lemma ChunkLoop.Holds.push {s : ChunkLoop} {run : List σ} (h : s.Holds talk run) (seg : σ) :
    (s.push talk seg).Holds talk (run ++ [seg]) := by
  refine ⟨?_, ?_, fun _ => ?_⟩
  · simp [ChunkLoop.push, h.texts]
  · simp [ChunkLoop.push, h.words]
  · cases run with
    | nil => simp [ChunkLoop.push, ChunkLoop.chunk, Talk.chunk, h.texts]
    | cons first rest =>
      have hchunk := h.chunk (List.cons_ne_nil first rest)
      have hlast : (first :: (rest ++ [seg])).getLast? = some seg := by
        rw [← List.cons_append, List.getLast?_concat]
      simp only [ChunkLoop.chunk, Talk.chunk, Chunk.mk.injEq] at hchunk
      simp [ChunkLoop.push, ChunkLoop.chunk, Talk.chunk, h.texts, hchunk.2.1, hchunk.2.2.1, hlast]

/-- The loop closes a run where the words have reached the target, and the rest of the talk is
chunked as the groups that are gathered of it. -/
lemma finish_foldl {segments : List σ} {s : ChunkLoop} {run : List σ} (h : s.Holds talk run) :
    (segments.foldl (ChunkLoop.turn talk) s).finish =
      s.chunks ++ (gather chunkTargetWords talk.wordCount run (segments.filter talk.said)).map
        talk.chunk := by
  -- the run carries the segments of the chunk under way
  induction segments generalizing s run with
  | nil =>
    rw [List.foldl_nil, List.filter_nil, gather, ChunkLoop.finish, h.texts]
    cases run with
    | nil => simp
    | cons first rest => simp [h.chunk]
  | cons seg segments ih =>
    rw [List.foldl_cons]
    by_cases hblank : (talk.trimmed seg).isEmpty
    · have hsaid : ¬ talk.said seg = true := by simpa [Talk.said] using hblank
      rw [ChunkLoop.turn, if_pos hblank, List.filter_cons_of_neg hsaid, ih h]
    · have hsaid : talk.said seg = true := by simpa [Talk.said] using hblank
      have hpush := h.push seg
      rw [ChunkLoop.turn, if_neg hblank, List.filter_cons_of_pos hsaid, gather, hpush.words]
      split
      · -- the run is long enough: the next one starts empty
        have hflush : ((s.push talk seg).flush).Holds talk [] :=
          ⟨rfl, rfl, fun hne => (hne rfl).elim⟩
        have hchunks :
            ((s.push talk seg).flush).chunks = s.chunks ++ [talk.chunk (run ++ [seg])] := by
          rw [ChunkLoop.flush, hpush.chunk (by simp)]
          rfl
        rw [ih hflush, hchunks, List.map_cons, List.append_assoc, List.singleton_append]
      · rw [ih hpush]
        rfl

lemma chunksOf_eq_map (segments : List σ) : chunksOf talk segments =
    (gather chunkTargetWords talk.wordCount [] (segments.filter talk.said)).map talk.chunk := by
  rw [chunksOf, finish_foldl ChunkLoop.holds_new]
  rfl

/-- Nothing is embedded of a talk in which nothing is said. -/
lemma chunksOf_eq_nil_iff (segments : List σ) :
    chunksOf talk segments = [] ↔ ∀ seg ∈ segments, talk.said seg = false := by
  rw [chunksOf_eq_map, List.map_eq_nil_iff]
  constructor
  · intro h
    have hflatten :
        (gather chunkTargetWords talk.wordCount [] (segments.filter talk.said)).flatten =
          segments.filter talk.said := flatten_gather
    rw [h, List.flatten_nil] at hflatten
    simpa using List.filter_eq_nil_iff.mp hflatten.symm
  · intro h
    have hnone : segments.filter talk.said = [] := by simpa using h
    rw [hnone]
    rfl

/-- The runs hold, one after another, everything that is said in a talk and nothing else; none is
empty or reaches the target before its last piece, and all but the last reach it. -/
structure Talk.IsCut (talk : Talk σ) (segments : List σ) (runs : List (List σ)) : Prop where
  flatten : runs.flatten = segments.filter talk.said
  ne_nil : ∀ run ∈ runs, run ≠ []
  lt : ∀ run ∈ runs, (run.dropLast.map talk.wordCount).sum < chunkTargetWords
  le : ∀ run ∈ runs.dropLast, chunkTargetWords ≤ (run.map talk.wordCount).sum

lemma Talk.isCut_gather (talk : Talk σ) (segments : List σ) : talk.IsCut segments
    (gather chunkTargetWords talk.wordCount [] (segments.filter talk.said)) := by
  have hshort : ([].map talk.wordCount).sum < chunkTargetWords := by simp [chunkTargetWords]
  refine ⟨flatten_gather.trans (List.nil_append _), fun run hrun => ?_, fun run hrun => ?_, le_gather⟩
  · exact (gather_dropLast_lt hshort run hrun).1
  · exact (gather_dropLast_lt hshort run hrun).2

end Runs

/-- **What is embedded of a call and of a webinar** are the runs that what was said is cut into, each
with the speaker and the beginning of its first piece and the end of its last. -/
theorem chunks_are_runs (segments : List Segment) (rows : List WebinarRow) (anchor : Timestamp) :
    (∃ runs, segmentTalk.IsCut segments runs ∧
      chunkSegments segments = runs.map segmentTalk.chunk) ∧
    ∃ runs, (webinarTalk anchor).IsCut rows runs ∧
      chunkTranscriptRows rows anchor = runs.map fun run =>
        ⟨[' '].intercalate (run.map fun row => row.originalText.trim),
          (run.head?.map fun row => offsetMs anchor row.spokenAt).getD 0,
          (run.getLast?.map fun row => offsetMs anchor row.spokenAt).getD 0⟩ := by
  constructor
  · exact ⟨_, segmentTalk.isCut_gather segments, chunksOf_eq_map segments⟩
  · refine ⟨_, (webinarTalk anchor).isCut_gather rows, ?_⟩
    rw [chunkTranscriptRows, chunksOf_eq_map, List.map_map]
    rfl

end VoxTranslate.Business
