import VoxTranslate.Lib.Text

/-!
# Realtime transcripts

The upstream sends text in two ways: a delta carries what is new, a snapshot the whole
utterance so far.  It never says when an utterance is over, so captions are cut at boundaries
drawn through a text that keeps growing.  `SegmentBuffer` remembers how much of that text was
already handed out.
-/

namespace VoxTranslate.Engine

open Lib

/-- Transcript text, by characters. -/
abbrev Text := List Char

/-- `char::is_whitespace`: the Unicode property `White_Space`. -/
def isWhitespace (c : Char) : Bool :=
  let n := c.toNat
  (0x09 ≤ n && n ≤ 0x0D) || n = 0x20 || n = 0x85 || n = 0xA0 || n = 0x1680 ||
    (0x2000 ≤ n && n ≤ 0x200A) || n = 0x2028 || n = 0x2029 || n = 0x202F || n = 0x205F || n = 0x3000

/-- `str::trim`. -/
def Text.trim (t : Text) : Text := Lib.trim isWhitespace t

/-- Nothing but whitespace. -/
abbrev Text.Blank (t : Text) : Prop := Lib.Blank isWhitespace t

lemma Text.trim_eq_nil_iff {t : Text} : t.trim = [] ↔ t.Blank := Lib.trim_eq_nil_iff

@[simp] lemma Text.trim_trim (t : Text) : t.trim.trim = t.trim := Lib.trim_trim t

/-- How a transcript frame relates to the text before it. -/
inductive TextUpdate where
  /-- Append to what is there. -/
  | delta (d : Text)
  /-- Replace everything so far. -/
  | snapshot (s : Text)
  deriving DecidableEq, Repr

/-- Fold the update into a text. -/
def TextUpdate.apply (buffer : Text) : TextUpdate → Text
  | .delta d => buffer ++ d
  | .snapshot s => s

/-- A transcript that outlives the caption boundaries drawn through it. -/
structure SegmentBuffer where
  /-- Everything said so far in this stretch of speech. -/
  text : Text
  /-- The part already handed out. -/
  committed : Text
  committed_prefix : committed <+: text

namespace SegmentBuffer

/-- A buffer all of whose text was handed out. -/
def settled (text : Text) : SegmentBuffer := ⟨text, text, List.prefix_refl text⟩

/-- `SegmentBuffer::default`. -/
def new : SegmentBuffer := settled []

/-- Fold one update in, then pull the mark back to what the two texts agree on. -/
def apply (b : SegmentBuffer) (u : TextUpdate) : SegmentBuffer :=
  let text := u.apply b.text
  if h : b.committed <+: text then { text, committed := b.committed, committed_prefix := h }
  else
    { text
      committed := b.committed.take (commonPrefixLen b.committed text)
      committed_prefix := commonPrefix_right b.committed text }

/-- The part not yet handed out. -/
def pending (b : SegmentBuffer) : Text := b.text.drop b.committed.length

/-- Mark everything as handed out. -/
def commit (b : SegmentBuffer) : SegmentBuffer := settled b.text

variable {b : SegmentBuffer} {u : TextUpdate}

@[simp] lemma text_settled (t : Text) : (settled t).text = t := rfl

@[simp] lemma committed_settled (t : Text) : (settled t).committed = t := rfl

@[simp] lemma text_apply : (b.apply u).text = u.apply b.text := by
  rw [apply]
  split <;> rfl

lemma committed_apply : (b.apply u).committed = commonPrefix b.committed (u.apply b.text) := by
  rw [apply]
  split
  · next h => exact (commonPrefix_eq_left h).symm
  · rfl

lemma committed_append_pending (b : SegmentBuffer) : b.committed ++ b.pending = b.text :=
  List.prefix_append_drop b.committed_prefix |>.symm

/-- **Sending the whole utterance again hands out only what was added to it.** -/
theorem pending_resent (t new : Text) : ((settled t).apply (.snapshot (t ++ new))).pending = new := by
  have hcommitted : ((settled t).apply (.snapshot (t ++ new))).committed = t := by
    rw [committed_apply]
    exact commonPrefix_eq_left (List.prefix_append t new)
  rw [pending, hcommitted, text_apply]
  exact List.drop_left

end SegmentBuffer

/-- What reaches the caption logic of one upstream connection.  Translated audio carries no
words; the two surfaces differ on whether it keeps a segment open. -/
inductive CaptionEvent where
  /-- The speaker's words. -/
  | inputTranscript (u : TextUpdate)
  /-- The translated words. -/
  | outputTranscript (u : TextUpdate)
  /-- The model finished a response. -/
  | turnComplete
  /-- Nothing came for as long as a segment may stay open. -/
  | idle
  /-- The feed or the stream was closed: the connection is over. -/
  | closed
  deriving DecidableEq, Repr

/-- A `subtitle_final`: the original and its translation. -/
structure FinalCaption where
  original : Text
  translation : Text
  deriving DecidableEq, Repr

/-- `flush_final` of a call: a caption when either side has words. -/
def flushFinal (original translated : Text) : List FinalCaption :=
  if translated.trim = [] ∧ original.trim = [] then [] else [⟨original.trim, translated.trim⟩]

/-- The final captions of `run_connection`, the connection of a call. -/
def runConnection (original translated : SegmentBuffer) : List CaptionEvent → List FinalCaption
  | [] => []
  | .inputTranscript u :: es => runConnection (original.apply u) translated es
  | .outputTranscript u :: es => runConnection original (translated.apply u) es
  | .turnComplete :: es | .idle :: es =>
    -- commit, never clear: the upstream sends it all again
    flushFinal original.pending translated.pending ++
      runConnection original.commit translated.commit es
  | .closed :: _ => flushFinal original.pending translated.pending

end VoxTranslate.Engine
