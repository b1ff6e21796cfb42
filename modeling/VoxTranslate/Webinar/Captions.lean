import VoxTranslate.Engine.Qwen

/-!
# Captions of webinars and of calls

A webinar cuts captions at the same boundaries as a call, and clears its texts there where a
call marks them as handed out.  The two are compared on one stream of events: the stream is
split into the segments its boundaries close, and each surface is a function of the segment.
-/

namespace VoxTranslate.Webinar

open Lib Engine

/-- The caption a webinar closes a segment with: one with a translation, or none. -/
def flush (original translated : Text) (dirty : Bool) : List FinalCaption :=
  if dirty = true ∧ translated.trim ≠ [] then [⟨original.trim, translated.trim⟩] else []

/-- The final captions of `run_lang_connection`, the connection of a webinar. -/
def runLangConnection (original translated : Text) (dirty : Bool) :
    List CaptionEvent → List FinalCaption
  | [] => []
  | .inputTranscript u :: es => runLangConnection (u.apply original) translated true es
  | .outputTranscript u :: es => runLangConnection original (u.apply translated) true es
  | .turnComplete :: es | .idle :: es =>
    flush original translated dirty ++ runLangConnection [] [] false es
  | .closed :: _ => flush original translated dirty

/-! ## The segments of a stream -/

/-- One transcript at a point of the stream: its text at the last boundary, and the updates
since. -/
structure Track where
  said : Text
  updates : List TextUpdate
  deriving DecidableEq, Repr

namespace Track

def hear (t : Track) (u : TextUpdate) : Track := { t with updates := t.updates ++ [u] }

/-- The whole text. -/
def text (t : Track) : Text := t.updates.foldl TextUpdate.apply t.said

/-- The text the updates make by themselves. -/
def words (t : Track) : Text := t.updates.foldl TextUpdate.apply []

/-- What the buffer of a call has become. -/
def buffer (t : Track) : SegmentBuffer := t.updates.foldl SegmentBuffer.apply (.settled t.said)

def close (t : Track) : Track := ⟨t.text, []⟩

/-- The snapshots since the last boundary. -/
def snapshots (t : Track) : List Text :=
  t.updates.filterMap fun
    | .delta _ => none
    | .snapshot s => some s

/-- An opening of what was said before the boundary that every snapshot since repeats. -/
def Repeats (t : Track) (p : Text) : Prop :=
  t.snapshots ≠ [] ∧ p <+: t.said ∧ ∀ s ∈ t.snapshots, p <+: s

/-- **Words said before the boundary are sent again.** -/
def Resends (t : Track) : Prop := ∃ p, t.Repeats p ∧ ¬ p.Blank

/-- Nothing was added to what was said before the boundary. -/
def NothingNew (t : Track) : Prop :=
  t.words.Blank ∨ ∃ p rest, t.Repeats p ∧ t.words = p ++ rest ∧ Text.Blank rest

variable (t : Track) (u : TextUpdate)

@[simp] lemma text_hear : (t.hear u).text = u.apply t.text := by
  simp [text, hear]

@[simp] lemma words_hear : (t.hear u).words = u.apply t.words := by
  simp [words, hear]

@[simp] lemma buffer_hear : (t.hear u).buffer = t.buffer.apply u := by
  simp [buffer, hear]

lemma snapshots_hear_delta (d : Text) : (t.hear (.delta d)).snapshots = t.snapshots := by
  simp [snapshots, hear]

lemma snapshots_hear_snapshot (s : Text) :
    (t.hear (.snapshot s)).snapshots = t.snapshots ++ [s] := by
  simp [snapshots, hear]

/-- A track is a boundary with updates heard one after another. -/
@[elab_as_elim]
lemma hearInduction {P : Track → Prop} (close : ∀ said, P ⟨said, []⟩)
    (hear : ∀ t u, P t → P (t.hear u)) (t : Track) : P t := by
  obtain ⟨said, updates⟩ := t
  induction updates using List.reverseRecOn with
  | nil => exact close said
  | append_singleton updates u ih => exact hear ⟨said, updates⟩ u ih

lemma text_buffer : t.buffer.text = t.text := by
  induction t using hearInduction with
  | close said => rfl
  | hear t u ih => rw [buffer_hear, SegmentBuffer.text_apply, ih, text_hear]

lemma buffer_commit : t.buffer.commit = t.close.buffer := by
  rw [SegmentBuffer.commit, text_buffer]
  rfl

/-- The mark is the longest opening of the said text that all snapshots repeat. -/
lemma prefix_committed_iff {p : Text} :
    p <+: t.buffer.committed ↔ p <+: t.said ∧ ∀ s ∈ t.snapshots, p <+: s := by
  induction t using hearInduction with
  | close said => simp [buffer, snapshots]
  | hear t u ih =>
    rw [buffer_hear, SegmentBuffer.committed_apply, prefix_commonPrefix_iff, ih, text_buffer]
    cases u with
    | delta d =>
      rw [snapshots_hear_delta]
      -- the mark is a prefix of the text, and a delta only extends the text
      constructor
      · exact fun h => h.1
      · intro h
        refine ⟨h, (ih.mpr h).trans (t.buffer.committed_prefix.trans ?_)⟩
        rw [text_buffer]
        exact List.prefix_append _ _
    | snapshot s =>
      rw [snapshots_hear_snapshot]
      simp only [List.mem_append, List.mem_singleton, TextUpdate.apply]
      constructor
      · rintro ⟨⟨h, hold⟩, hnew⟩
        refine ⟨h, ?_⟩
        rintro s' (hs' | rfl)
        · exact hold s' hs'
        · exact hnew
      · rintro ⟨h, hall⟩
        exact ⟨⟨h, fun s' hs' => hall s' (.inl hs')⟩, hall s (.inr rfl)⟩

/-- Before the first snapshot the text is the said text with the new words after it. -/
lemma text_eq_append (h : t.snapshots = []) : t.text = t.said ++ t.words := by
  induction t using hearInduction with
  | close said => simp [text, words]
  | hear t u ih =>
    cases u with
    | delta d =>
      rw [snapshots_hear_delta] at h
      rw [text_hear, words_hear, ih h]
      simp [TextUpdate.apply, hear]
    | snapshot s =>
      rw [snapshots_hear_snapshot] at h
      simp at h

/-- From the first snapshot on the said text plays no role. -/
lemma text_eq_words (h : t.snapshots ≠ []) : t.text = t.words := by
  induction t using hearInduction with
  | close said => simp [snapshots] at h
  | hear t u ih =>
    rw [text_hear, words_hear]
    cases u with
    | delta d =>
      rw [snapshots_hear_delta] at h
      rw [ih h]
    | snapshot s => rfl

lemma committed_repeats (h : t.snapshots ≠ []) : t.Repeats t.buffer.committed :=
  ⟨h, t.prefix_committed_iff.mp (List.prefix_refl _)⟩

lemma pending_of_no_snapshot (h : t.snapshots = []) : t.buffer.pending = t.words := by
  have hcommitted : t.buffer.committed = t.said := by
    refine eq_of_prefix_iff fun p => ?_
    rw [prefix_committed_iff, h]
    simp
  have hsplit := t.buffer.committed_append_pending
  rw [hcommitted, text_buffer, t.text_eq_append h] at hsplit
  exact List.append_cancel_left hsplit

lemma words_of_snapshot (h : t.snapshots ≠ []) : t.words = t.buffer.committed ++ t.buffer.pending := by
  rw [SegmentBuffer.committed_append_pending, text_buffer, t.text_eq_words h]

/-- What a call still has to hand out is the end of what a webinar has collected. -/
lemma blank_pending (h : t.words.Blank) : t.buffer.pending.Blank := by
  by_cases hs : t.snapshots = []
  · rwa [t.pending_of_no_snapshot hs]
  · rw [t.words_of_snapshot hs] at h
    exact (Blank.append_iff.mp h).2

/-- **The two surfaces show the same words unless some are sent again.** -/
lemma trim_pending_iff : t.buffer.pending.trim = t.words.trim ↔ ¬ t.Resends := by
  by_cases hs : t.snapshots = []
  · rw [t.pending_of_no_snapshot hs]
    refine iff_of_true rfl ?_
    rintro ⟨p, ⟨hne, -⟩, -⟩
    exact hne hs
  · rw [t.words_of_snapshot hs, eq_comm, Text.trim, Text.trim, trim_append_eq_iff]
    constructor
    · rintro hblank ⟨p, ⟨-, hp⟩, hnot⟩
      obtain ⟨rest, hrest⟩ := t.prefix_committed_iff.mpr hp
      rw [← hrest, Blank.append_iff] at hblank
      exact hnot hblank.1
    · intro h
      by_contra hblank
      exact h ⟨_, t.committed_repeats hs, hblank⟩

lemma blank_pending_iff : t.buffer.pending.Blank ↔ t.NothingNew := by
  by_cases hs : t.snapshots = []
  · rw [t.pending_of_no_snapshot hs]
    constructor
    · exact .inl
    · rintro (h | ⟨p, rest, ⟨hne, -⟩, -⟩)
      · exact h
      · exact absurd hs hne
  · constructor
    · intro h
      exact .inr ⟨_, _, t.committed_repeats hs, t.words_of_snapshot hs, h⟩
    · rintro (h | ⟨p, rest, ⟨-, hp⟩, hwords, hblank⟩)
      · exact t.blank_pending h
      · -- the mark reaches at least as far as `p`
        obtain ⟨more, hmore⟩ := t.prefix_committed_iff.mpr hp
        have hsplit := t.words_of_snapshot hs
        rw [hwords, ← hmore, List.append_assoc] at hsplit
        rw [List.append_cancel_left hsplit] at hblank
        exact (Blank.append_iff.mp hblank).2

end Track

/-- The two transcripts of one language. -/
structure Segment where
  original : Track
  translated : Track
  deriving DecidableEq, Repr

namespace Segment

/-- Before the first event of a connection. -/
def start : Segment := ⟨⟨[], []⟩, ⟨[], []⟩⟩

def close (s : Segment) : Segment := ⟨s.original.close, s.translated.close⟩

/-- The caption a call closes the segment with. -/
def callCaption (s : Segment) : List FinalCaption :=
  flushFinal s.original.buffer.pending s.translated.buffer.pending

/-- The caption a webinar closes the segment with. -/
def webinarCaption (s : Segment) : List FinalCaption :=
  flush s.original.words s.translated.words true

/-- Something was translated since the last boundary. -/
def Translated (s : Segment) : Prop := ¬ s.translated.words.Blank

/-- Neither transcript sends words again. -/
def Fresh (s : Segment) : Prop := ¬ s.original.Resends ∧ ¬ s.translated.Resends

end Segment

/-- The segments that the boundaries of a stream close, the first of them begun with `s`. -/
def segmentsFrom (s : Segment) : List CaptionEvent → List Segment
  | [] => []
  | .inputTranscript u :: es => segmentsFrom { s with original := s.original.hear u } es
  | .outputTranscript u :: es => segmentsFrom { s with translated := s.translated.hear u } es
  | .turnComplete :: es | .idle :: es => s :: segmentsFrom s.close es
  | .closed :: _ => [s]

def segments (es : List CaptionEvent) : List Segment := segmentsFrom .start es

/-- A call is a function of the segments. -/
lemma runConnection_eq (es : List CaptionEvent) (s : Segment) :
    runConnection s.original.buffer s.translated.buffer es =
      (segmentsFrom s es).flatMap Segment.callCaption := by
  induction es generalizing s with
  | nil => rfl
  | cons e es ih =>
    cases e with
    | inputTranscript u =>
      rw [runConnection, segmentsFrom, ← ih, Track.buffer_hear]
    | outputTranscript u =>
      rw [runConnection, segmentsFrom, ← ih, Track.buffer_hear]
    | turnComplete | idle =>
      rw [runConnection, segmentsFrom, List.flatMap_cons, ← ih, Track.buffer_commit,
        Track.buffer_commit]
      rfl
    | closed => simp [runConnection, segmentsFrom, Segment.callCaption]

/-- A segment without updates is not dirty, and would have nothing to show if it were. -/
lemma flush_dirty {s : Segment} {dirty : Bool}
    (h : dirty = false → s.translated.updates = []) :
    flush s.original.words s.translated.words dirty = s.webinarCaption := by
  cases dirty with
  | true => rfl
  | false =>
    have hwords : s.translated.words = [] := by rw [Track.words, h rfl, List.foldl_nil]
    simp [Segment.webinarCaption, flush, hwords, Text.trim_eq_nil_iff.mpr Blank.nil]

/-- A webinar is a function of the segments. -/
lemma runLangConnection_eq (es : List CaptionEvent) (s : Segment) (dirty : Bool)
    (h : dirty = false → s.translated.updates = []) :
    runLangConnection s.original.words s.translated.words dirty es =
      (segmentsFrom s es).flatMap Segment.webinarCaption := by
  induction es generalizing s dirty with
  | nil => rfl
  | cons e es ih =>
    cases e with
    | inputTranscript u =>
      rw [runLangConnection, segmentsFrom, ← ih { s with original := s.original.hear u } true nofun,
        Track.words_hear]
    | outputTranscript u =>
      rw [runLangConnection, segmentsFrom,
        ← ih { s with translated := s.translated.hear u } true nofun, Track.words_hear]
    | turnComplete | idle =>
      rw [runLangConnection, segmentsFrom, List.flatMap_cons, ← ih s.close false fun _ => rfl,
        flush_dirty h]
      rfl
    | closed => simp [runLangConnection, segmentsFrom, flush_dirty h]

/-! ## Where the two surfaces differ -/

/-- The final captions of a call, from the start of a connection. -/
def callFinals (es : List CaptionEvent) : List FinalCaption := runConnection .new .new es

/-- The final captions of a webinar, from the start of a connection. -/
def webinarFinals (es : List CaptionEvent) : List FinalCaption := runLangConnection [] [] false es

lemma callFinals_eq (es : List CaptionEvent) :
    callFinals es = (segments es).flatMap Segment.callCaption := runConnection_eq es .start

lemma webinarFinals_eq (es : List CaptionEvent) :
    webinarFinals es = (segments es).flatMap Segment.webinarCaption :=
  runLangConnection_eq es .start false fun _ => rfl

/-- The caption has a translation. -/
def hasTranslation (c : FinalCaption) : Bool := c.translation ≠ []

namespace Segment

variable {s : Segment}

lemma webinarCaption_of_translated (h : s.Translated) :
    s.webinarCaption = [⟨s.original.words.trim, s.translated.words.trim⟩] := by
  rw [webinarCaption, flush, if_pos ⟨rfl, mt Text.trim_eq_nil_iff.mp h⟩]

lemma webinarCaption_of_not_translated (h : ¬ s.Translated) : s.webinarCaption = [] := by
  rw [Translated, not_not] at h
  rw [webinarCaption, flush, if_neg]
  rintro ⟨-, hne⟩
  exact hne (Text.trim_eq_nil_iff.mpr h)

lemma filter_callCaption :
    s.callCaption.filter hasTranslation =
      if s.translated.buffer.pending.trim = [] then []
      else [⟨s.original.buffer.pending.trim, s.translated.buffer.pending.trim⟩] := by
  rw [callCaption, flushFinal]
  split_ifs with hnone htrim htrim
  · rfl
  · exact absurd hnone.1 htrim
  · simp [hasTranslation, htrim]
  · simp [hasTranslation, htrim]

/-- The captions with a translation agree exactly when no words are sent again. -/
lemma filter_callCaption_iff :
    s.callCaption.filter hasTranslation = s.webinarCaption ↔ (s.Translated → s.Fresh) := by
  by_cases h : s.Translated
  · rw [filter_callCaption, webinarCaption_of_translated h, Fresh, ← Track.trim_pending_iff,
      ← Track.trim_pending_iff]
    split_ifs with htrim
    · refine iff_of_false (by simp) fun hfresh => ?_
      exact h (Text.trim_eq_nil_iff.mp ((hfresh h).2.symm.trans htrim))
    · simp [h]
  · rw [filter_callCaption, webinarCaption_of_not_translated h, if_pos]
    · exact iff_of_true rfl fun h' => absurd h' h
    · rw [Translated, not_not] at h
      exact Text.trim_eq_nil_iff.mpr (s.translated.blank_pending h)

lemma length_filter_callCaption :
    (s.callCaption.filter hasTranslation).length ≤ s.webinarCaption.length := by
  by_cases h : s.Translated
  · rw [filter_callCaption, webinarCaption_of_translated h]
    split_ifs <;> simp
  · rw [filter_callCaption_iff.mpr fun h' => absurd h' h]

/-- Without a translation a call shows the original, if there is anything new in it. -/
lemma callCaption_eq_nil_iff (h : ¬ s.Translated) : s.callCaption = [] ↔ s.original.NothingNew := by
  rw [Translated, not_not] at h
  rw [callCaption, flushFinal, ← Track.blank_pending_iff]
  have htrim : s.translated.buffer.pending.trim = [] :=
    Text.trim_eq_nil_iff.mpr (s.translated.blank_pending h)
  split_ifs with hnone
  · exact iff_of_true rfl (Text.trim_eq_nil_iff.mp hnone.2)
  · refine iff_of_false (by simp) fun hblank => ?_
    exact hnone ⟨htrim, Text.trim_eq_nil_iff.mpr hblank⟩

lemma callCaption_iff :
    s.callCaption = s.webinarCaption ↔
      (s.Translated → s.Fresh) ∧ (¬ s.Translated → s.original.NothingNew) := by
  by_cases h : s.Translated
  · rw [← filter_callCaption_iff]
    simp only [h, not_true_eq_false, false_implies, and_true]
    constructor
    · intro heq
      rw [heq, webinarCaption_of_translated h]
      simpa [hasTranslation] using mt Text.trim_eq_nil_iff.mp h
    · intro heq
      rw [← heq, eq_comm, List.filter_eq_self]
      -- a caption was shown with a translation, and there is no other
      intro c hc
      rw [webinarCaption_of_translated h, filter_callCaption] at heq
      split_ifs at heq with htrim
      rw [callCaption, flushFinal, if_neg (fun hnone => htrim hnone.1), List.mem_singleton] at hc
      simp [hc, hasTranslation, htrim]
  · rw [webinarCaption_of_not_translated h, callCaption_eq_nil_iff h]
    simp [h]

end Segment

/-- **When webinars draw captions like calls.**  The captions that carry a translation agree
exactly when no closed segment with a translation sends again, through all of its snapshots,
words that were said before it; all captions agree exactly when moreover no segment without a
translation adds to the original. -/
theorem captions_alike_iff (es : List CaptionEvent) :
    (webinarFinals es = (callFinals es).filter hasTranslation ↔
      ∀ s ∈ segments es, s.Translated → s.Fresh) ∧
    (webinarFinals es = callFinals es ↔
      ∀ s ∈ segments es, (s.Translated → s.Fresh) ∧ (¬ s.Translated → s.original.NothingNew)) := by
  have hfilter : webinarFinals es = (callFinals es).filter hasTranslation ↔
      ∀ s ∈ segments es, s.Translated → s.Fresh := by
    rw [webinarFinals_eq, callFinals_eq, List.filter_flatMap, eq_comm,
      flatMap_eq_iff fun s _ => Segment.length_filter_callCaption]
    exact forall₂_congr fun s _ => Segment.filter_callCaption_iff
  refine ⟨hfilter, ?_⟩
  constructor
  · intro heq s hs
    -- a webinar only shows captions with a translation, so here a call does so too
    have hall : ∀ c ∈ callFinals es, hasTranslation c = true := by
      rw [← heq, webinarFinals_eq]
      intro c hc
      obtain ⟨s, -, hc⟩ := List.mem_flatMap.mp hc
      by_cases h : s.Translated
      · rw [Segment.webinarCaption_of_translated h, List.mem_singleton] at hc
        simpa [hc, hasTranslation] using mt Text.trim_eq_nil_iff.mp h
      · simp [Segment.webinarCaption_of_not_translated h] at hc
    rw [← List.filter_eq_self.mpr hall] at heq
    refine ⟨hfilter.mp heq s hs, fun h => (Segment.callCaption_eq_nil_iff h).mp ?_⟩
    rw [List.eq_nil_iff_forall_not_mem]
    intro c hc
    have hfiltered : c ∈ s.callCaption.filter hasTranslation := by
      refine List.mem_filter.mpr ⟨hc, hall c ?_⟩
      rw [callFinals_eq]
      exact List.mem_flatMap.mpr ⟨s, hs, hc⟩
    rw [Segment.filter_callCaption_iff.mpr fun h' => absurd h' h,
      Segment.webinarCaption_of_not_translated h] at hfiltered
    cases hfiltered
  · intro h
    rw [webinarFinals_eq, callFinals_eq]
    exact List.flatMap_congr fun s hs => (Segment.callCaption_iff.mpr (h s hs)).symm

/-- The upstream sends the utterance whole after a boundary: the call shows what is new, the
webinar shows the first sentence again. -/
theorem captions_repeated :
    let es : List CaptionEvent :=
      [.inputTranscript (.snapshot "Ciao".toList), .outputTranscript (.snapshot "Hi".toList), .turnComplete,
        .inputTranscript (.snapshot "Ciao a tutti".toList),
        .outputTranscript (.snapshot "Hi everyone".toList), .turnComplete]
    callFinals es = [⟨"Ciao".toList, "Hi".toList⟩, ⟨"a tutti".toList, "everyone".toList⟩] ∧
    webinarFinals es =
      [⟨"Ciao".toList, "Hi".toList⟩, ⟨"Ciao a tutti".toList, "Hi everyone".toList⟩] := by
  decide +kernel

end VoxTranslate.Webinar
