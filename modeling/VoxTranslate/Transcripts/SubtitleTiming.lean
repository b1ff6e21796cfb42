import VoxTranslate.Lib.Shares
import VoxTranslate.Transcripts.Subtitles

/-!
# The timing of subtitles (`compute_cues` in `subtitles.rs`)

The chunks of an event divide its window in proportion to their characters, in whole
milliseconds.  A cue ends before the boundary of its chunk, to leave a gap, but lasts a millisecond
at least: where two boundaries meet it ends after the next one has started.
-/

namespace VoxTranslate.Transcripts.Subtitles

open Engine (Text isWhitespace)
open Lib

/-- How much of the window the chunks of a text take. -/
def weights (mode : LangMode) (target : Text) (ev : ExportEvent) : List Int :=
  (chunks (wrapLines (shownText mode target ev) maxLineChars)).map chunkChars

/-- The window of an event, by its start and that of the next. -/
def stopMs (mode : LangMode) (target : Text) (start : Int) (next : Option Int)
    (ev : ExportEvent) : Int :=
  windowEnd start (windowChars mode target ev) next

/-- How the cues of an event lie in its window, from `start` to `stop`. -/
structure Timed (start stop : Int) (next : Option Int) (cues : List Cue) : Prop where
  inside : ∀ c ∈ cues, c.startMs < c.endMs ∧ start ≤ c.startMs ∧ c.endMs ≤ start + 10000
  /-- In order, and never overlapping. -/
  apart : cues.Pairwise fun c c' => c.endMs ≤ c'.startMs
  /-- A gap follows a cue whose exact share of the window is longer than 101 ms. -/
  gaps : cues.IsChain fun c c' =>
    101 * (cues.map fun c => chunkChars c.lines).sum < (stop - start) * chunkChars c.lines →
      c'.startMs - c.endMs = 100
  last : ∀ c ∈ cues.getLast?, ∀ n ∈ next, n - 100 < c.endMs → c.endMs = start + 1500

/-- Every weight but the last takes a whole number of milliseconds in with its end: no two
boundaries fall into one millisecond. -/
def Distinct (span : Int) (ws : List Int) : Prop :=
  ∀ before w after, ws = before ++ w :: after → after ≠ [] →
    ∃ k, span * before.sum < k * ws.sum ∧ k * ws.sum ≤ span * (before.sum + w)

section Window

variable {start : Int} {chars : Nat} {next : Option Int}

lemma windowEnd_bounds (start : Int) (chars : Nat) (next : Option Int) :
    start + 1500 ≤ windowEnd start chars next ∧
      windowEnd start chars next ≤ start + 10000 := by
  cases next <;> simp only [windowEnd, minCueMs, maxCueMs] <;> omega

/-- A window ends in time for the next event, unless it would be too short. -/
lemma windowEnd_next {n : Int} (hn : n ∈ next) (h : n - 100 < windowEnd start chars next) :
    windowEnd start chars next = start + 1500 := by
  cases next with
  | none => cases hn
  | some m =>
    obtain rfl : m = n := Option.some.inj hn
    simp only [windowEnd, minCueMs, maxCueMs, cueGapMs] at h ⊢
    omega

end Window

section Spread

variable {start stop total t0 acc : Int} {speaker : Text} {cs rest : List (List Text)}
  {chunk : List Text} {c : Cue}

lemma chunkChars_pos (ls : List Text) : 0 < chunkChars ls := by
  rw [chunkChars]
  omega

lemma sum_weights_nonneg (cs : List (List Text)) : 0 ≤ (cs.map chunkChars).sum := by
  refine List.sum_nonneg fun w hw => ?_
  obtain ⟨ls, -, rfl⟩ := List.mem_map.mp hw
  exact (chunkChars_pos ls).le

lemma sum_weights_pos (h : cs ≠ []) : 0 < (cs.map chunkChars).sum := by
  obtain ⟨chunk, rest, rfl⟩ := List.exists_cons_of_ne_nil h
  have hhead := chunkChars_pos chunk
  have htail := sum_weights_nonneg rest
  rw [List.map_cons, List.sum_cons]
  omega

/-- The loop is at a boundary, with these chunks to come. -/
structure AtMark (start stop total t0 acc : Int) (cs : List (List Text)) : Prop where
  wide : start < stop
  place : t0 = start + mark (stop - start) total acc
  nonneg : 0 ≤ acc
  rest : acc + (cs.map chunkChars).sum = total

namespace AtMark

lemma total_pos (h : AtMark start stop total t0 acc cs) (hcs : cs ≠ []) : 0 < total := by
  have hsum := sum_weights_pos hcs
  have hrest := h.rest
  have hacc := h.nonneg
  omega

lemma next (h : AtMark start stop total t0 acc (chunk :: rest)) :
    AtMark start stop total (start + mark (stop - start) total (acc + chunkChars chunk))
      (acc + chunkChars chunk) rest := by
  have hchunk := chunkChars_pos chunk
  have hacc := h.nonneg
  have hrest := h.rest
  rw [List.map_cons, List.sum_cons] at hrest
  exact ⟨h.wide, rfl, by omega, by omega⟩

/-- The next boundary is not before this one. -/
lemma le_next (h : AtMark start stop total t0 acc (chunk :: rest)) :
    t0 ≤ start + mark (stop - start) total (acc + chunkChars chunk) := by
  have hmono := mark_mono (sub_nonneg.mpr h.wide.le) (h.total_pos (List.cons_ne_nil _ _))
    (show acc ≤ acc + chunkChars chunk by have := chunkChars_pos chunk; omega)
  rw [h.place]
  omega

/-- While there are chunks, the window is not used up. -/
lemma lt_stop (h : AtMark start stop total t0 acc cs) (hcs : cs ≠ []) :
    start ≤ t0 ∧ t0 < stop := by
  have htotal := h.total_pos hcs
  have hsum := sum_weights_pos hcs
  have hrest := h.rest
  have hlt := mark_lt (sub_pos.mpr h.wide) htotal (show acc < total by omega)
  have hnonneg := mark_nonneg (sub_nonneg.mpr h.wide.le) htotal h.nonneg
  rw [h.place]
  omega

end AtMark

lemma spread_singleton : spread start stop total speaker t0 acc [chunk] =
    [⟨t0, stop, speaker, chunk⟩] := rfl

lemma spread_cons (hrest : rest ≠ []) (htotal : 0 < total) :
    spread start stop total speaker t0 acc (chunk :: rest) =
      ⟨t0, max (start + mark (stop - start) total (acc + chunkChars chunk) - 100) (t0 + 1),
        speaker, chunk⟩ ::
      spread start stop total speaker
        (start + mark (stop - start) total (acc + chunkChars chunk)) (acc + chunkChars chunk)
        rest := by
  have htop : max total 1 = total := max_eq_left (by omega)
  simp only [spread, if_neg hrest, htop]
  rfl

/-- The cues that are to come do not start before the boundary. -/
lemma AtMark.le_startMs (h : AtMark start stop total t0 acc cs)
    (hc : c ∈ spread start stop total speaker t0 acc cs) : t0 ≤ c.startMs := by
  induction cs generalizing t0 acc with
  | nil => cases hc
  | cons chunk rest ih =>
    by_cases hrest : rest = []
    · subst hrest
      rw [spread_singleton, List.mem_singleton] at hc
      rw [hc]
    · rw [spread_cons hrest (h.total_pos (List.cons_ne_nil _ _)), List.mem_cons] at hc
      rcases hc with rfl | hc
      · exact le_refl _
      · exact h.le_next.trans (ih h.next hc)

lemma AtMark.inside (h : AtMark start stop total t0 acc cs)
    (hc : c ∈ spread start stop total speaker t0 acc cs) :
    c.startMs < c.endMs ∧ start ≤ c.startMs ∧ c.endMs ≤ stop := by
  induction cs generalizing t0 acc with
  | nil => cases hc
  | cons chunk rest ih =>
    have hhere := h.lt_stop (List.cons_ne_nil _ _)
    by_cases hrest : rest = []
    · subst hrest
      rw [spread_singleton, List.mem_singleton] at hc
      rw [hc]
      exact ⟨hhere.2, hhere.1, le_refl _⟩
    · rw [spread_cons hrest (h.total_pos (List.cons_ne_nil _ _)), List.mem_cons] at hc
      rcases hc with rfl | hc
      · have hnext := h.next.lt_stop hrest
        exact ⟨lt_of_lt_of_le (Int.lt_succ t0) (le_max_right _ _), hhere.1,
          max_le (by omega) (by omega)⟩
      · exact ih h.next hc

lemma exists_spread_eq_cons (hcs : cs ≠ []) : ∃ c cues,
    spread start stop total speaker t0 acc cs = c :: cues ∧ c.startMs = t0 := by
  obtain ⟨chunk, rest, rfl⟩ := List.exists_cons_of_ne_nil hcs
  exact ⟨_, _, rfl, rfl⟩

/-- The cue of a chunk ends before the others start exactly when its boundaries are distinct. -/
lemma AtMark.head_apart_iff (h : AtMark start stop total t0 acc (chunk :: rest)) (hrest : rest ≠ []) :
    (∀ c ∈ spread start stop total speaker
        (start + mark (stop - start) total (acc + chunkChars chunk)) (acc + chunkChars chunk) rest,
      max (start + mark (stop - start) total (acc + chunkChars chunk) - 100) (t0 + 1) ≤
        c.startMs) ↔
      mark (stop - start) total acc < mark (stop - start) total (acc + chunkChars chunk) := by
  have hplace := h.place
  constructor
  · intro hall
    obtain ⟨c, cues, hcons, hstart⟩ := exists_spread_eq_cons hrest
    have hle := hall c (hcons ▸ List.mem_cons_self)
    rw [hstart] at hle
    have hlater := (max_le_iff.mp hle).2
    omega
  · intro hlt c hc
    have hle := h.next.le_startMs hc
    exact max_le (by omega) (by omega)

/-- An element that is not the last is the head or comes after it. -/
lemma forall_not_last_cons {P : List Int → Int → Prop} {w : Int} {ws : List Int} (hws : ws ≠ []) :
    (∀ before v after, w :: ws = before ++ v :: after → after ≠ [] → P before v) ↔
      P [] w ∧ ∀ before v after, ws = before ++ v :: after → after ≠ [] → P (w :: before) v := by
  constructor
  · intro hall
    refine ⟨hall [] w ws rfl hws, fun before v after heq hafter => ?_⟩
    exact hall (w :: before) v after (by rw [heq]; rfl) hafter
  · rintro ⟨hfirst, hothers⟩ before v after heq hafter
    cases before with
    | nil =>
      obtain ⟨rfl, -⟩ := List.cons.inj heq
      exact hfirst
    | cons u before =>
      obtain ⟨rfl, htail⟩ := List.cons.inj heq
      exact hothers before v after htail hafter

/-- **The cues overlap where two boundaries meet**, and nowhere else. -/
lemma AtMark.apart_iff (h : AtMark start stop total t0 acc cs) :
    (spread start stop total speaker t0 acc cs).Pairwise (fun c c' => c.endMs ≤ c'.startMs) ↔
      ∀ before w after, cs.map chunkChars = before ++ w :: after → after ≠ [] →
        mark (stop - start) total (acc + before.sum) <
          mark (stop - start) total (acc + (before.sum + w)) := by
  induction cs generalizing t0 acc with
  | nil =>
    refine iff_of_true List.Pairwise.nil fun before w after heq => ?_
    simp at heq
  | cons chunk rest ih =>
    by_cases hrest : rest = []
    · subst hrest
      refine iff_of_true (List.pairwise_singleton _ _) fun before w after heq hafter => ?_
      have hlength := congrArg List.length heq
      have hpos := List.length_pos_iff.mpr hafter
      simp at hlength
      omega
    · have htotal := h.total_pos (List.cons_ne_nil _ _)
      have hchars : rest.map chunkChars ≠ [] := by simpa using hrest
      rw [spread_cons hrest htotal, List.pairwise_cons, h.head_apart_iff hrest, ih h.next,
        List.map_cons, forall_not_last_cons hchars]
      simp only [List.sum_nil, List.sum_cons, Int.add_zero, Int.zero_add, Int.add_assoc]

/-- A share of more than 101 ms leaves room for the gap. -/
lemma AtMark.gaps (h : AtMark start stop total t0 acc cs) :
    (spread start stop total speaker t0 acc cs).IsChain fun c c' =>
      101 * total < (stop - start) * chunkChars c.lines → c'.startMs - c.endMs = 100 := by
  induction cs generalizing t0 acc with
  | nil => exact .nil
  | cons chunk rest ih =>
    by_cases hrest : rest = []
    · subst hrest
      exact .singleton _
    · have htotal := h.total_pos (List.cons_ne_nil _ _)
      obtain ⟨c, cues, hcons, hstart⟩ : ∃ c cues, spread start stop total speaker
          (start + mark (stop - start) total (acc + chunkChars chunk)) (acc + chunkChars chunk)
          rest = c :: cues ∧
          c.startMs = start + mark (stop - start) total (acc + chunkChars chunk) :=
        exists_spread_eq_cons hrest
      have htail := ih h.next
      rw [hcons] at htail
      rw [spread_cons hrest htotal, hcons, List.isChain_cons_cons]
      refine ⟨fun hshare => ?_, htail⟩
      have hwide : mark (stop - start) total acc + 101 ≤
          mark (stop - start) total (acc + chunkChars chunk) := mark_add_le htotal hshare.le
      have hplace := h.place
      rw [hstart]
      dsimp only
      omega

/-- The last cue ends with the window. -/
lemma AtMark.last (h : AtMark start stop total t0 acc cs)
    (hc : c ∈ (spread start stop total speaker t0 acc cs).getLast?) : c.endMs = stop := by
  induction cs generalizing t0 acc with
  | nil => cases hc
  | cons chunk rest ih =>
    by_cases hrest : rest = []
    · subst hrest
      rw [spread_singleton] at hc
      obtain rfl := Option.some.inj hc
      rfl
    · obtain ⟨c', cues, hcons, -⟩ : ∃ c' cues, spread start stop total speaker
          (start + mark (stop - start) total (acc + chunkChars chunk)) (acc + chunkChars chunk)
          rest = c' :: cues ∧
          c'.startMs = start + mark (stop - start) total (acc + chunkChars chunk) :=
        exists_spread_eq_cons hrest
      refine ih h.next ?_
      rw [spread_cons hrest (h.total_pos (List.cons_ne_nil _ _)), hcons,
        List.getLast?_cons_cons] at hc
      rwa [hcons]

end Spread

/-! ## Events -/

section Events

variable {events : List ExportEvent} {startedAt : Timestamp} {mode : LangMode} {target : Text}
  {start : Int} {next : Option Int} {ev : ExportEvent}

/-- The cues of an event that is shown in one language. -/
lemma eventCues_eq_spread (target : Text) (start : Int) (next : Option Int)
    (hmode : mode ≠ .both) (horiginal : normalize ev.original ≠ []) :
    ∃ cs, cs.map chunkChars = weights mode target ev ∧
      eventCues mode target start next ev =
        spread start (stopMs mode target start next ev) (weights mode target ev).sum ev.speakerName
          start 0 cs ∧
      AtMark start (stopMs mode target start next ev) (weights mode target ev).sum start 0 cs := by
  refine ⟨_, rfl, eventCues_of_ne_both hmode horiginal, ?_, ?_, le_refl _, Int.zero_add _⟩
  · have hwindow := windowEnd_bounds start (windowChars mode target ev) next
    rw [stopMs]
    omega
  · rw [mark_zero, Int.add_zero]

/-- The boundaries are distinct where the marks increase. -/
lemma distinct_iff {span : Int} {ws : List Int} (hws : ws ≠ [] → 0 < ws.sum) :
    Distinct span ws ↔ ∀ before w after, ws = before ++ w :: after → after ≠ [] →
      mark span ws.sum before.sum < mark span ws.sum (before.sum + w) := by
  constructor
  · intro h before w after heq hafter
    have hpos := hws (by rw [heq]; simp)
    exact (mark_lt_mark_iff hpos).mpr (h before w after heq hafter)
  · intro h before w after heq hafter
    have hpos := hws (by rw [heq]; simp)
    exact (mark_lt_mark_iff hpos).mp (h before w after heq hafter)

/-- An event of one language is well timed exactly when its boundaries are distinct. -/
lemma timed_iff (hmode : mode ≠ .both) (horiginal : normalize ev.original ≠ []) :
    Timed start (stopMs mode target start next ev) next (eventCues mode target start next ev) ↔
      Distinct (stopMs mode target start next ev - start) (weights mode target ev) := by
  obtain ⟨cs, hcs, hcues, hmark⟩ :=
    eventCues_eq_spread target start next hmode horiginal
  have hws : weights mode target ev ≠ [] → 0 < (weights mode target ev).sum := by
    rw [← hcs]
    exact fun hne => sum_weights_pos fun hnil => hne (by rw [hnil]; rfl)
  have hdistinct : (eventCues mode target start next ev).Pairwise
      (fun c c' => c.endMs ≤ c'.startMs) ↔
      Distinct (stopMs mode target start next ev - start) (weights mode target ev) := by
    rw [hcues, hmark.apart_iff, hcs, distinct_iff hws]
    simp only [Int.zero_add]
  rw [← hdistinct]
  refine ⟨Timed.apart, fun hapart => ⟨fun c hc => ?_, hapart, ?_, fun c hc n hn hlate => ?_⟩⟩
  · rw [hcues] at hc
    obtain ⟨hlt, hstart, hstop⟩ := hmark.inside hc
    exact ⟨hlt, hstart, hstop.trans (windowEnd_bounds _ _ _).2⟩
  · have htotal : ((eventCues mode target start next ev).map fun c => chunkChars c.lines).sum =
        (weights mode target ev).sum := by
      have hlines := congrArg (List.map chunkChars) (map_lines_spread start
        (stopMs mode target start next ev) (weights mode target ev).sum start 0 ev.speakerName cs)
      rw [List.map_map, ← hcues, hcs] at hlines
      rw [← hlines]
      rfl
    rw [htotal, hcues]
    exact hmark.gaps
  · rw [hcues] at hc
    have hend := hmark.last hc
    rw [hend] at hlate ⊢
    exact windowEnd_next hn hlate

/-- An event without an original has no cue. -/
lemma timed_of_blank (horiginal : normalize ev.original = []) :
    Timed start (stopMs mode target start next ev) next (eventCues mode target start next ev) := by
  rw [eventCues, if_pos horiginal]
  exact ⟨fun c hc => absurd hc List.not_mem_nil, .nil, .nil, fun c hc => by cases hc⟩

/-- The one cue of an event that is shown in both languages is its window. -/
lemma timed_both : Timed start (stopMs .both target start next ev) next
    (eventCues .both target start next ev) := by
  by_cases horiginal : normalize ev.original = []
  · exact timed_of_blank horiginal
  · obtain ⟨lines, hcues⟩ : ∃ lines, eventCues .both target start next ev =
        [⟨start, stopMs .both target start next ev, ev.speakerName, lines⟩] := by
      rw [eventCues]
      exact ⟨_, if_neg horiginal⟩
    have hwindow : start + 1500 ≤ stopMs .both target start next ev ∧
        stopMs .both target start next ev ≤ start + 10000 := windowEnd_bounds _ _ _
    rw [hcues]
    refine ⟨fun c hc => ?_, List.pairwise_singleton _ _, .singleton _, fun c hc n hn hlate => ?_⟩
    · rw [List.mem_singleton.mp hc]
      exact ⟨by dsimp only; omega, le_refl _, hwindow.2⟩
    · obtain rfl := Option.some.inj hc
      exact windowEnd_next hn hlate

end Events

/-- When the event after the `i`-th spoken one starts. -/
def nextMs (events : List ExportEvent) (startedAt : Timestamp) (i : Nat) : Option Int :=
  (speech events)[i + 1]?.map (startMs startedAt)

/-- **Subtitle timing.**  Every event of an export is well timed exactly when, in the modes of one
language, no two boundaries of a text fall into one millisecond of its window. -/
theorem cues_timed_iff (events : List ExportEvent) (startedAt : Timestamp) (mode : LangMode)
    (target : Text) :
    (∀ i ev, (speech events)[i]? = some ev →
      Timed (startMs startedAt ev)
        (stopMs mode target (startMs startedAt ev) (nextMs events startedAt i) ev)
        (nextMs events startedAt i) (cuesAt events startedAt mode target i ev)) ↔
    (mode ≠ .both → ∀ i ev, (speech events)[i]? = some ev → normalize ev.original ≠ [] →
      Distinct
        (stopMs mode target (startMs startedAt ev) (nextMs events startedAt i) ev -
          startMs startedAt ev)
        (weights mode target ev)) := by
  constructor
  · intro h hmode i ev hev horiginal
    exact (timed_iff hmode horiginal).mp (h i ev hev)
  · intro h i ev hev
    by_cases horiginal : normalize ev.original = []
    · exact timed_of_blank horiginal
    · by_cases hmode : mode = .both
      · rw [hmode]
        exact timed_both
      · exact (timed_iff hmode horiginal).mpr (h hmode i ev hev horiginal)

/-! ## A text that is too long for its window -/

section LongText

variable {m : Nat}

/-- A word that is wrapped into `m` chunks of two full lines. -/
def longText (m : Nat) : Text := List.replicate (84 * m) 'x'

/-- A line of the full width. -/
def fullLine : Text := List.replicate 42 'x'

/-- The event with the long text, and one that follows a tenth of a second later. -/
def crowded (m : Nat) : List ExportEvent :=
  [⟨.speech, 0, ['A'], ['e', 'n'], longText m, fun _ => none⟩,
    ⟨.speech, 100000, ['B'], ['e', 'n'], ['y'], fun _ => none⟩]

lemma words_longText (hm : 0 < m) : words isWhitespace (longText m) = [longText m] := by
  refine words_of_not_blank (List.ne_nil_of_length_pos ?_) fun c hc => ?_
  · rw [longText, List.length_replicate]
    omega
  · rw [List.eq_of_mem_replicate hc]
    decide

lemma normalize_longText (hm : 0 < m) : normalize (longText m) = longText m := by
  rw [normalize, words_longText hm, List.intercalate_singleton]

lemma hardSplit_replicate {k fuel : Nat} (ls : List Text) (hfuel : k ≤ fuel) :
    Wrapping.hardSplit 42 fuel ⟨ls, []⟩ (List.replicate (42 * (k + 1)) 'x') =
      (⟨ls ++ List.replicate k fullLine, []⟩, fullLine) := by
  induction k generalizing fuel ls with
  | zero =>
    rw [Wrapping.hardSplit_of_le (by simp)]
    simp [fullLine]
  | succ k ih =>
    obtain ⟨fuel, rfl⟩ : ∃ f, fuel = f + 1 := ⟨fuel - 1, by omega⟩
    have hlong : 42 < (List.replicate (42 * (k + 1 + 1)) 'x').length := by
      rw [List.length_replicate]
      omega
    have htake : (List.replicate (42 * (k + 1 + 1)) 'x').take 42 = fullLine := by
      rw [List.take_replicate, fullLine, Nat.min_eq_left (by omega)]
    have hdrop : (List.replicate (42 * (k + 1 + 1)) 'x').drop 42 =
        List.replicate (42 * (k + 1)) 'x' := by
      rw [List.drop_replicate]
      congr 1
    rw [Wrapping.hardSplit, if_pos hlong]
    simp only [List.length_nil, lt_irrefl, if_false]
    rw [htake, hdrop]
    refine (ih _ (by omega)).trans ?_
    rw [List.replicate_succ, List.append_assoc, List.singleton_append]

lemma wrapLines_longText (hm : 0 < m) :
    wrapLines (longText m) maxLineChars = List.replicate (2 * m) fullLine := by
  obtain ⟨k, hk⟩ : ∃ k, 2 * m = k + 1 := ⟨2 * m - 1, by omega⟩
  have htext : longText m = List.replicate (42 * (k + 1)) 'x' := by
    rw [longText, ← hk]
    congr 1
    omega
  have hfull : fullLine.length = 42 := List.length_replicate
  have hsplit := hardSplit_replicate []
    (show k ≤ (List.replicate (42 * (k + 1)) 'x').length by rw [List.length_replicate]; omega)
  rw [wrapLines, words_longText hm, htext, hk, List.foldl_cons, List.foldl_nil, maxLineChars,
    Wrapping.addWord, hsplit]
  simp [hfull, Wrapping.finish, List.replicate_succ']

lemma chunks_replicate (m : Nat) (l : Text) :
    chunks (List.replicate (2 * m) l) = List.replicate m [l, l] := by
  induction m with
  | zero => rfl
  | succ m ih =>
    rw [Nat.mul_succ, List.replicate_succ, List.replicate_succ, chunks, ih, List.replicate_succ]

/-- **A text that is too long for its window.**  From 1501 chunks on, the first two cues start
in the same millisecond. -/
lemma longText_overlaps (hm : 1500 < m) : ∃ ev c c' cues,
    (speech (crowded m))[0]? = some ev ∧
      cuesAt (crowded m) 0 .original [] 0 ev = c :: c' :: cues ∧ c'.startMs < c.endMs := by
  let ev : ExportEvent := ⟨.speech, 0, ['A'], ['e', 'n'], longText m, fun _ => none⟩
  have hspoken : normalize ev.original ≠ [] := by
    rw [show ev.original = longText m from rfl, normalize_longText (by omega)]
    exact List.ne_nil_of_length_pos (by rw [longText, List.length_replicate]; omega)
  have hchunks : chunks (wrapLines (shownText .original [] ev) maxLineChars) =
      List.replicate m [fullLine, fullLine] := by
    rw [show shownText .original [] ev = longText m from rfl, wrapLines_longText (by omega),
      chunks_replicate]
  have hweight : chunkChars [fullLine, fullLine] = 84 := by
    have hfull : fullLine.length = 42 := List.length_replicate
    simp [chunkChars, hfull]
  have hstop : windowEnd 0 (windowChars .original [] ev) (some 100) = 1500 := by
    simp only [windowEnd, minCueMs, maxCueMs, cueGapMs, readCps]
    omega
  obtain ⟨k, rfl⟩ : ∃ k, m = k + 1 + 1 := ⟨m - 2, by omega⟩
  have hcues : cuesAt (crowded (k + 1 + 1)) 0 .original [] 0 ev =
      spread 0 1500 (84 * (k + 1 + 1 : Int)) ['A'] 0 0
        (List.replicate (k + 1 + 1) [fullLine, fullLine]) := by
    have htotal : ((List.replicate (k + 1 + 1) [fullLine, fullLine]).map chunkChars).sum =
        84 * (k + 1 + 1 : Int) := by
      rw [List.map_replicate, hweight, List.sum_replicate]
      simp [mul_comm]
    rw [cuesAt, eventCues_of_ne_both (by decide) hspoken, hchunks, htotal]
    exact congrArg (fun stop => spread 0 stop _ ['A'] 0 0 _) hstop
  have hmark : mark (1500 - 0) (84 * (k + 1 + 1 : Int)) (0 + 84) = 0 := by
    rw [mark]
    exact Int.ediv_eq_zero_of_lt (by omega) (by omega)
  rw [List.replicate_succ, spread_cons (by simp [List.replicate_succ]) (by omega), hweight,
    hmark] at hcues
  obtain ⟨c', cues, hrest, hstart⟩ : ∃ c' cues, spread 0 1500 (84 * (k + 1 + 1 : Int)) ['A']
      (0 + 0) (0 + 84) (List.replicate (k + 1) [fullLine, fullLine]) = c' :: cues ∧
      c'.startMs = 0 + 0 := exists_spread_eq_cons (by simp [List.replicate_succ])
  rw [hrest] at hcues
  refine ⟨ev, _, c', cues, rfl, hcues, ?_⟩
  rw [hstart]
  decide

/-- Two cues of one event overlap, although the events are in order. -/
theorem cues_overlap : ∃ events : List ExportEvent,
    events.Pairwise (fun ev ev' => ev.ts ≤ ev'.ts) ∧ ∃ i ev c c' cues,
      (speech events)[i]? = some ev ∧
      cuesAt events 0 .original [] i ev = c :: c' :: cues ∧ c'.startMs < c.endMs := by
  obtain ⟨ev, c, c', cues, hev, hcues, hlt⟩ := longText_overlaps (m := 1501) (by decide)
  exact ⟨crowded 1501, by simp [crowded], 0, ev, c, c', cues, hev, hcues, hlt⟩

end LongText

end VoxTranslate.Transcripts.Subtitles
