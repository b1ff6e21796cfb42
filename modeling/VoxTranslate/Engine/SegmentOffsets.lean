import VoxTranslate.Engine.Qwen
import VoxTranslate.Lib.Run

/-!
# Caption segments by byte offsets (`SegmentBuffer` in `engine/qwen.rs`)

The buffer cuts its two strings at byte offsets, and a cut inside a character panics.  Here the
cuts are partial; no sequence of updates and commits meets one that fails, and as long as every
snapshot extends the text before it the captions are the whole text, piece by piece.
-/

namespace VoxTranslate.Engine

open Lib

namespace Text

/-- `str::len`. -/
def len (t : Text) : Nat := (t.map Char.utf8Size).sum

/-- `str::split_at`, which panics where the offset is not on a character boundary. -/
def splitAt? : Text → Nat → Option (Text × Text)
  | t, 0 => some ([], t)
  | [], _ + 1 => none
  | c :: t, n + 1 =>
    if c.utf8Size ≤ n + 1 then
      (splitAt? t (n + 1 - c.utf8Size)).map fun cut => (c :: cut.1, cut.2)
    else none

/-- `String::truncate`. -/
def truncate (t : Text) (n : Nat) : Option Text :=
  if n ≤ len t then (splitAt? t n).map Prod.fst else some t

/-- `common_prefix_len`, in bytes. -/
def commonPrefixBytes : Text → Text → Nat
  | ca :: a, cb :: b => if ca ≠ cb then 0 else ca.utf8Size + commonPrefixBytes a b
  | _, _ => 0

variable {t t' : Text} {c : Char}

@[simp] lemma len_nil : len [] = 0 := rfl

@[simp] lemma len_cons : len (c :: t) = c.utf8Size + len t := by simp [len]

@[simp] lemma len_append : len (t ++ t') = len t + len t' := by simp [len]

/-- The end of a first part is a boundary. -/
lemma splitAt?_len (t t' : Text) : splitAt? (t ++ t') (len t) = some (t, t') := by
  induction t with
  | nil => simp [splitAt?]
  | cons c t ih =>
    obtain ⟨n, hn⟩ : ∃ n, c.utf8Size = n + 1 :=
      ⟨c.utf8Size - 1, (Nat.succ_pred_eq_of_pos c.utf8Size_pos).symm⟩
    have hlen : len (c :: t) = n + len t + 1 := by
      rw [len_cons, hn]
      omega
    have hrest : n + len t + 1 - c.utf8Size = len t := by omega
    rw [hlen, List.cons_append, splitAt?, if_pos (by omega), hrest, ih]
    rfl

lemma commonPrefixBytes_eq (t t' : Text) : commonPrefixBytes t t' = len (commonPrefix t t') := by
  induction t generalizing t' with
  | nil => simp [commonPrefixBytes, commonPrefix]
  | cons c t ih =>
    cases t' with
    | nil => simp [commonPrefixBytes, commonPrefix, commonPrefixLen]
    | cons c' t' =>
      rw [commonPrefixBytes, ih]
      by_cases hc : c = c'
      · simp [commonPrefix, commonPrefixLen, hc]
      · simp [commonPrefix, commonPrefixLen, hc]

/-- Cut at what two texts share, the first one is cut on a boundary. -/
lemma truncate_commonPrefixBytes (t t' : Text) :
    truncate t (commonPrefixBytes t t') = some (commonPrefix t t') := by
  obtain ⟨rest, hrest⟩ := commonPrefix_left t t'
  have hlen : len (commonPrefix t t') ≤ len t := by
    have hsum := congrArg len hrest
    rw [len_append] at hsum
    omega
  have hcut := splitAt?_len (commonPrefix t t') rest
  rw [hrest] at hcut
  rw [truncate, commonPrefixBytes_eq, if_pos hlen, hcut]
  rfl

end Text

/-- The two strings of a `SegmentBuffer`. -/
structure SegmentStrings where
  text : Text
  committed : Text
  deriving DecidableEq, Repr

namespace SegmentStrings

/-- `SegmentBuffer::apply`. -/
def apply (b : SegmentStrings) (u : TextUpdate) : Option SegmentStrings :=
  let text := u.apply b.text
  if b.committed <+: text then some { text, committed := b.committed }
  else
    (Text.truncate b.committed (Text.commonPrefixBytes b.committed text)).map fun committed =>
      { text, committed }

/-- `SegmentBuffer::pending`. -/
def pending (b : SegmentStrings) : Option Text :=
  (Text.splitAt? b.text (Text.len b.committed)).map Prod.snd

/-- `SegmentBuffer::commit`. -/
def commit (b : SegmentStrings) : SegmentStrings := { b with committed := b.text }

end SegmentStrings

namespace SegmentBuffer

/-- The strings of a buffer whose mark is known to be in its text. -/
def strings (b : SegmentBuffer) : SegmentStrings := ⟨b.text, b.committed⟩

variable {b : SegmentBuffer} {u : TextUpdate}

lemma apply_strings : b.strings.apply u = some (b.apply u).strings := by
  have htext : (b.apply u).strings =
      ⟨u.apply b.text, commonPrefix b.committed (u.apply b.text)⟩ := by
    rw [strings, text_apply, committed_apply]
  rw [SegmentStrings.apply, htext]
  by_cases hprefix : b.committed <+: u.apply b.text
  · rw [commonPrefix_eq_left hprefix]
    exact if_pos hprefix
  · refine (if_neg hprefix).trans ?_
    exact congrArg _ (Text.truncate_commonPrefixBytes b.committed (u.apply b.text))

lemma pending_strings : b.strings.pending = some b.pending := by
  have hcut := Text.splitAt?_len b.committed b.pending
  rw [committed_append_pending] at hcut
  exact congrArg (Option.map Prod.snd) hcut

lemma commit_strings : b.strings.commit = b.commit.strings := rfl

end SegmentBuffer

/-! ## Runs -/

/-- What is done to the buffer: an update is folded in, or a caption is cut. -/
inductive SegmentOp where
  | apply (u : TextUpdate)
  | commit
  deriving DecidableEq, Repr

/-- A buffer with the pieces that were handed out. -/
structure Captioning where
  buffer : SegmentStrings
  pieces : List Text
  deriving DecidableEq, Repr

/-- A caption carries what is pending, and all is then marked as handed out. -/
def captionStep (s : Captioning) : SegmentOp → Option Captioning
  | .apply u => (s.buffer.apply u).map fun buffer => { s with buffer }
  | .commit => s.buffer.pending.map fun piece => ⟨s.buffer.commit, s.pieces ++ [piece]⟩

/-- `SegmentBuffer::default`, and no caption yet. -/
def Captioning.start : Captioning := ⟨⟨[], []⟩, []⟩

/-- A snapshot that starts with the text before it. -/
def TextUpdate.Extends (t : Text) : TextUpdate → Prop
  | .delta _ => True
  | .snapshot s => t <+: s

/-- Every snapshot of the sequence extends the text before it. -/
def SnapshotsExtend : Text → List SegmentOp → Prop
  | _, [] => True
  | t, .apply u :: ops => u.Extends t ∧ SnapshotsExtend (u.apply t) ops
  | t, .commit :: ops => SnapshotsExtend t ops

lemma TextUpdate.Extends.isPrefix {t : Text} {u : TextUpdate} (h : u.Extends t) :
    t <+: u.apply t := by
  cases u with
  | delta d => exact List.prefix_append t d
  | snapshot s => exact h

/-- No cut fails, and what was handed out stays what is committed while the snapshots extend. -/
lemma exists_captioning (b : SegmentBuffer) (pieces : List Text) (ops : List SegmentOp) :
    ∃ (b' : SegmentBuffer) (pieces' : List Text),
      Run (ofPartial captionStep) ⟨b.strings, pieces⟩ ops ⟨b'.strings, pieces'⟩ ∧
        (SnapshotsExtend b.text ops → pieces.flatten = b.committed →
          pieces'.flatten = b'.committed) := by
  induction ops generalizing b pieces with
  | nil => exact ⟨b, pieces, .nil _, fun _ h => h⟩
  | cons op ops ih =>
    cases op with
    | apply u =>
      obtain ⟨b', pieces', hrun, hpieces⟩ := ih (b.apply u) pieces
      refine ⟨b', pieces', .cons ?_ hrun, ?_⟩
      · simp only [ofPartial, captionStep, SegmentBuffer.apply_strings, Option.map_some]
      · rintro ⟨hext, hrest⟩ hcommitted
        refine hpieces (SegmentBuffer.text_apply ▸ hrest) ?_
        rw [SegmentBuffer.committed_apply, hcommitted]
        exact (commonPrefix_eq_left (b.committed_prefix.trans hext.isPrefix)).symm
    | commit =>
      obtain ⟨b', pieces', hrun, hpieces⟩ := ih b.commit (pieces ++ [b.pending])
      refine ⟨b', pieces', .cons ?_ hrun, ?_⟩
      · simp only [ofPartial, captionStep, SegmentBuffer.pending_strings, Option.map_some,
          SegmentBuffer.commit_strings]
      · intro hrest hcommitted
        refine hpieces hrest ?_
        rw [List.flatten_append, List.flatten_singleton, hcommitted]
        exact b.committed_append_pending

/-- **Caption segments lose and repeat nothing.**  Whatever is done to the buffer, no cut fails
and what is committed is a part of the text that ends on a character boundary; while the
snapshots extend, the pieces of the captions and the pending one are the text. -/
theorem captions_partition_text (ops : List SegmentOp) : ∃ s piece,
    Run (ofPartial captionStep) Captioning.start ops s ∧
      s.buffer.committed <+: s.buffer.text ∧
      Text.splitAt? s.buffer.text (Text.len s.buffer.committed) = some (s.buffer.committed, piece) ∧
      s.buffer.pending = some piece ∧
      (SnapshotsExtend [] ops → s.pieces.flatten ++ piece = s.buffer.text) := by
  obtain ⟨b, pieces, hrun, hpieces⟩ := exists_captioning .new [] ops
  refine ⟨⟨b.strings, pieces⟩, b.pending, hrun, b.committed_prefix, ?_,
    SegmentBuffer.pending_strings, ?_⟩
  · have hcut := Text.splitAt?_len b.committed b.pending
    rwa [b.committed_append_pending] at hcut
  · intro hext
    have hcommitted : pieces.flatten = b.committed := hpieces hext rfl
    rw [hcommitted]
    exact b.committed_append_pending

/-- Two captions, the second after a snapshot that says it all again. -/
theorem captions_partition_text_resent : ∃ s piece,
    Run (ofPartial captionStep) Captioning.start
      [.apply (.delta ['è']), .commit, .apply (.snapshot ['è', '!'])] s ∧
      s.pieces.flatten ++ piece = s.buffer.text := by
  obtain ⟨s, piece, hrun, -, -, -, htext⟩ := captions_partition_text
    [.apply (.delta ['è']), .commit, .apply (.snapshot ['è', '!'])]
  exact ⟨s, piece, hrun, htext ⟨trivial, List.prefix_append ['è'] ['!'], trivial⟩⟩

end VoxTranslate.Engine
