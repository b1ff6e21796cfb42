import Mathlib.Algebra.Order.Ring.Int
import Mathlib.Algebra.Order.Ring.Nat
import VoxTranslate.Lib.Join
import VoxTranslate.Lib.Text
import VoxTranslate.Transcripts.Export

/-!
# Subtitles (`compute_cues` in `subtitles.rs`)

Every speech event has a window, from its start to the time it takes to read it, cut short by the
next event and never shorter than a second and a half.  Its text is wrapped into lines of at most
forty-two characters, two lines make a cue, and the cues divide the window in proportion to their
lengths.  In the mode that shows both texts an event is one cue.
-/

namespace VoxTranslate.Transcripts.Subtitles

open Engine (Text isWhitespace)
open Lib

/-- Which text a cue carries. -/
inductive LangMode where
  | original
  | translated
  | both
  deriving DecidableEq, Repr

/-- `MAX_LINE_CHARS` -/
def maxLineChars : Nat := 42

/-- `READ_CPS`: characters read in a second. -/
def readCps : Int := 15

/-- `MIN_CUE_MS` -/
def minCueMs : Int := 1500

/-- `MAX_CUE_MS` -/
def maxCueMs : Int := 10000

/-- `CUE_GAP_MS` -/
def cueGapMs : Int := 100

structure Cue where
  startMs : Int
  endMs : Int
  speaker : Text
  lines : List Text
  deriving DecidableEq, Repr

/-- All runs of whitespace are single spaces. -/
def normalize (text : Text) : Text := [' '].intercalate (words isWhitespace text)

/-! ## Wrapping -/

/-- The lines that are finished, and the line to which words are added; `cur_len` is the length of
that line. -/
structure Wrapping where
  lines : List Text
  cur : Text
  deriving DecidableEq, Repr

namespace Wrapping

def flush (s : Wrapping) : Wrapping := ⟨s.lines ++ [s.cur], []⟩

/-- Pieces of the full width are cut from a word that is too long; the fuel is its length. -/
def hardSplit (width : Nat) : Nat → Wrapping → Text → Wrapping × Text
  | 0, s, rest => (s, rest)
  | fuel + 1, s, rest =>
    if width < rest.length then
      let s := if 0 < s.cur.length then s.flush else s
      hardSplit width fuel { s with lines := s.lines ++ [rest.take width] } (rest.drop width)
    else (s, rest)

/-- The loop body of `wrap_lines`. -/
def addWord (width : Nat) (s : Wrapping) (word : Text) : Wrapping :=
  let (s, rest) := hardSplit width word.length s word
  if rest.length = 0 then s
  else if s.cur.length = 0 then { s with cur := rest }
  else if s.cur.length + 1 + rest.length ≤ width then { s with cur := s.cur ++ ' ' :: rest }
  else { s.flush with cur := rest }

def finish (s : Wrapping) : List Text := if 0 < s.cur.length then s.lines ++ [s.cur] else s.lines

/-- Lines that are neither empty nor too long, and a line to add to that is not too long. -/
structure Fits (width : Nat) (s : Wrapping) : Prop where
  lines : ∀ l ∈ s.lines, l ≠ [] ∧ l.length ≤ width
  cur : s.cur.length ≤ width

/-- All that was added. -/
def held (s : Wrapping) : Text := s.lines.flatten ++ s.cur

section Wrap

variable {width fuel : Nat} {s : Wrapping} {rest word : Text}

lemma hardSplit_of_le (h : rest.length ≤ width) : hardSplit width fuel s rest = (s, rest) := by
  cases fuel with
  | zero => rfl
  | succ fuel => rw [hardSplit, if_neg (by omega)]

lemma fits_nil : Fits width ⟨[], []⟩ := ⟨fun _ hl => absurd hl List.not_mem_nil, Nat.zero_le _⟩

lemma Fits.push (h : s.Fits width) {l : Text} (hne : l ≠ []) (hl : l.length ≤ width) :
    Fits width ⟨s.lines ++ [l], s.cur⟩ := by
  refine ⟨fun l' hl' => ?_, h.cur⟩
  rcases List.mem_append.mp hl' with hmem | hmem
  · exact h.lines l' hmem
  · rw [List.mem_singleton.mp hmem]
    exact ⟨hne, hl⟩

/-- A line that was begun is ended, and another one starts. -/
lemma Fits.flush (h : s.Fits width) (hne : s.cur ≠ []) : s.flush.Fits width :=
  ⟨(h.push hne h.cur).lines, Nat.zero_le _⟩

lemma Fits.ended (h : s.Fits width) : ∃ lines, (if 0 < s.cur.length then s.flush else s) =
    ⟨lines, []⟩ ∧ Fits width ⟨lines, []⟩ ∧ lines.flatten = s.held := by
  split_ifs with hcur
  · refine ⟨s.lines ++ [s.cur], rfl, h.flush (List.ne_nil_of_length_pos hcur), ?_⟩
    simp [held]
  · have hnil : s.cur = [] := List.eq_nil_of_length_eq_zero (by omega)
    refine ⟨s.lines, ?_, ⟨h.lines, Nat.zero_le _⟩, ?_⟩
    · rw [← hnil]
    · rw [held, hnil, List.append_nil]

/-- A word that is too long is cut into lines of the full width, and what remains fits. -/
lemma hardSplit_spec (hwidth : 0 < width) (h : s.Fits width) (hfuel : rest.length ≤ fuel) :
    (hardSplit width fuel s rest).1.Fits width ∧ (hardSplit width fuel s rest).2.length ≤ width ∧
      (hardSplit width fuel s rest).1.held ++ (hardSplit width fuel s rest).2 = s.held ++ rest := by
  induction fuel generalizing s rest with
  | zero => exact ⟨h, by simp only [hardSplit]; omega, rfl⟩
  | succ fuel ih =>
    by_cases hlong : width < rest.length
    · obtain ⟨lines, hended, hfits, hheld⟩ := h.ended
      have htake : (rest.take width).length = width := by
        rw [List.length_take]
        omega
      have hpush : Fits width ⟨lines ++ [rest.take width], []⟩ :=
        hfits.push (List.ne_nil_of_length_pos (by omega)) htake.le
      have hdrop : (rest.drop width).length ≤ fuel := by
        rw [List.length_drop]
        omega
      obtain ⟨hfits', hlength, hheld'⟩ := ih hpush hdrop
      rw [hardSplit, if_pos hlong, hended]
      refine ⟨hfits', hlength, hheld'.trans ?_⟩
      rw [← hheld]
      simp [held]
    · rw [hardSplit, if_neg hlong]
      exact ⟨h, not_lt.mp hlong, rfl⟩

lemma addWord_spec (hwidth : 0 < width) (h : s.Fits width)
    (hword : ∀ c ∈ word, isWhitespace c = false) :
    (addWord width s word).Fits width ∧
      (addWord width s word).held.filter (fun c => !isWhitespace c) =
        s.held.filter (fun c => !isWhitespace c) ++ word := by
  obtain ⟨hfits, hlength, hheld⟩ := hardSplit_spec hwidth h (le_refl word.length)
  have hletters : word.filter (fun c => !isWhitespace c) = word :=
    List.filter_eq_self.mpr fun c hc => by rw [hword c hc]; rfl
  have hfilter := congrArg (List.filter fun c => !isWhitespace c) hheld
  rw [List.filter_append, List.filter_append, hletters] at hfilter
  rw [addWord]
  obtain ⟨s', rest, hsplit⟩ : ∃ s' rest, hardSplit width word.length s word = (s', rest) :=
    ⟨_, _, rfl⟩
  rw [hsplit] at hfits hlength hfilter ⊢
  dsimp only at hfits hlength hfilter ⊢
  rw [← hfilter]
  split_ifs with hrest hcur hjoin
  · rw [List.eq_nil_of_length_eq_zero hrest]
    exact ⟨hfits, by simp⟩
  · refine ⟨⟨hfits.lines, hlength⟩, ?_⟩
    simp [held, List.eq_nil_of_length_eq_zero hcur]
  · refine ⟨⟨hfits.lines, ?_⟩, ?_⟩
    · simp only [List.length_append, List.length_cons]
      omega
    · have hspace : isWhitespace ' ' = true := by decide
      simp [held, hspace]
  · have hne : s'.cur ≠ [] := fun hnil => hcur (by rw [hnil]; rfl)
    refine ⟨⟨(hfits.flush hne).lines, hlength⟩, ?_⟩
    simp [held, flush]

/-- The only blank letters in what is held are spaces. -/
lemma blank_eq_space_addWord (hwidth : 0 < width) (h : s.Fits width)
    (hs : ∀ c ∈ s.held, isWhitespace c = true → c = ' ')
    (hword : ∀ c ∈ word, isWhitespace c = false) :
    ∀ c ∈ (addWord width s word).held, isWhitespace c = true → c = ' ' := by
  obtain ⟨-, -, hheld⟩ := hardSplit_spec hwidth h (le_refl word.length)
  obtain ⟨s', rest, hsplit⟩ : ∃ s' rest, hardSplit width word.length s word = (s', rest) :=
    ⟨_, _, rfl⟩
  rw [addWord, hsplit]
  rw [hsplit] at hheld
  dsimp only at hheld ⊢
  have hsplit' : ∀ c ∈ s'.held ++ rest, isWhitespace c = true → c = ' ' := by
    intro c hc hblank
    rw [hheld] at hc
    rcases List.mem_append.mp hc with hmem | hmem
    · exact hs c hmem hblank
    · rw [hword c hmem] at hblank
      cases hblank
  intro c hc hblank
  by_cases hspace : c = ' '
  · exact hspace
  have hmem : c ∈ s'.held ++ rest := by
    split_ifs at hc with hrest hcur hjoin
    · exact List.mem_append_left _ hc
    · rw [held, List.mem_append] at hc
      rw [held, List.mem_append, List.mem_append]
      exact hc.imp_left .inl
    · simpa [held, hspace, or_assoc] using hc
    · simpa [held, flush, or_assoc] using hc
  exact hsplit' c hmem hblank

/-- The lines, each after a space. -/
def spaced (ls : List Text) : Text := ls.flatMap fun l => ' ' :: l

/-- A word that is not too long is added after a space. -/
lemma spaced_addWord (hword : word ≠ []) (hlength : word.length ≤ width) :
    spaced (addWord width s word).finish = spaced s.finish ++ ' ' :: word := by
  have hpos : 0 < word.length := List.length_pos_iff.mpr hword
  rw [addWord, hardSplit_of_le hlength]
  dsimp only
  rw [if_neg (by omega)]
  split_ifs with hcur hjoin
  · simp [finish, hcur, hpos, spaced]
  · have hcur' : 0 < s.cur.length := by omega
    simp [finish, hcur', spaced]
  · have hcur' : 0 < s.cur.length := by omega
    simp [finish, hcur', hpos, flush, spaced]

lemma flatten_finish (s : Wrapping) : s.finish.flatten = s.held := by
  rw [finish, held]
  split_ifs with hcur
  · simp
  · rw [List.eq_nil_of_length_eq_zero (by omega : s.cur.length = 0), List.append_nil]

lemma Fits.finish (h : s.Fits width) : ∀ l ∈ s.finish, l ≠ [] ∧ l.length ≤ width := by
  rw [Wrapping.finish]
  split_ifs with hcur
  · exact (h.push (List.ne_nil_of_length_pos hcur) h.cur).lines
  · exact h.lines

end Wrap

end Wrapping

def wrapLines (text : Text) (width : Nat) : List Text :=
  ((words isWhitespace text).foldl (Wrapping.addWord width) ⟨[], []⟩).finish

section Lines

variable {text : Text} {width : Nat}

lemma foldl_addWord (hwidth : 0 < width) {ws : List Text} {s : Wrapping} (h : s.Fits width)
    (hws : ∀ w ∈ ws, ∀ c ∈ w, isWhitespace c = false) :
    (ws.foldl (Wrapping.addWord width) s).Fits width ∧
      (ws.foldl (Wrapping.addWord width) s).held.filter (fun c => !isWhitespace c) =
        s.held.filter (fun c => !isWhitespace c) ++ ws.flatten := by
  induction ws generalizing s with
  | nil => exact ⟨h, (List.append_nil _).symm⟩
  | cons w ws ih =>
    obtain ⟨hfits, hheld⟩ := Wrapping.addWord_spec hwidth h (hws w List.mem_cons_self)
    obtain ⟨hfits', hheld'⟩ := ih hfits fun w' hw' => hws w' (List.mem_cons_of_mem _ hw')
    refine ⟨hfits', hheld'.trans ?_⟩
    rw [hheld, List.flatten_cons, List.append_assoc]

lemma foldl_spaced {ws : List Text} (s : Wrapping)
    (hws : ∀ w ∈ ws, w ≠ [] ∧ w.length ≤ width) :
    Wrapping.spaced (ws.foldl (Wrapping.addWord width) s).finish =
      Wrapping.spaced s.finish ++ Wrapping.spaced ws := by
  induction ws generalizing s with
  | nil => exact (List.append_nil _).symm
  | cons w ws ih =>
    obtain ⟨hne, hlength⟩ := hws w List.mem_cons_self
    rw [List.foldl_cons, ih _ fun w' hw' => hws w' (List.mem_cons_of_mem _ hw'),
      Wrapping.spaced_addWord hne hlength, List.append_assoc]
    rfl

lemma blank_eq_space_foldl (hwidth : 0 < width) {ws : List Text} {s : Wrapping}
    (h : s.Fits width) (hs : ∀ c ∈ s.held, isWhitespace c = true → c = ' ')
    (hws : ∀ w ∈ ws, ∀ c ∈ w, isWhitespace c = false) :
    ∀ c ∈ (ws.foldl (Wrapping.addWord width) s).held, isWhitespace c = true → c = ' ' := by
  induction ws generalizing s with
  | nil => exact hs
  | cons w ws ih =>
    have hw := hws w List.mem_cons_self
    exact ih (Wrapping.addWord_spec hwidth h hw).1 (Wrapping.blank_eq_space_addWord hwidth h hs hw)
      fun w' hw' => hws w' (List.mem_cons_of_mem _ hw')

/-- In the lines of a text there is no blank letter but the space. -/
lemma blank_eq_space_wrapLines (hwidth : 0 < width) {l : Text} (hl : l ∈ wrapLines text width)
    {c : Char} (hc : c ∈ l) (hblank : isWhitespace c = true) : c = ' ' := by
  have hstart : Wrapping.Fits width ⟨[], []⟩ := Wrapping.fits_nil
  refine blank_eq_space_foldl hwidth hstart (fun _ hc => absurd hc List.not_mem_nil)
    (fun w (hw : w ∈ words isWhitespace text) c hc => not_blank_of_mem_words hw hc) c ?_ hblank
  rw [← Wrapping.flatten_finish]
  exact List.mem_flatten.mpr ⟨l, hl, hc⟩

/-- Nor is there in a text that is normalised. -/
lemma blank_eq_space_normalize {c : Char} (hc : c ∈ normalize text)
    (hblank : isWhitespace c = true) : c = ' ' := by
  rcases mem_intercalate hc with hspace | ⟨w, hw, hmem⟩
  · exact hspace
  · rw [not_blank_of_mem_words hw hmem] at hblank
    cases hblank

/-- No line is empty or too long, and the lines hold the letters of the text. -/
lemma wrapLines_spec (text : Text) (hwidth : 0 < width) :
    (∀ l ∈ wrapLines text width, l ≠ [] ∧ l.length ≤ width) ∧
      (wrapLines text width).flatten.filter (fun c => !isWhitespace c) =
        text.filter fun c => !isWhitespace c := by
  have hstart : Wrapping.Fits width ⟨[], []⟩ := Wrapping.fits_nil
  obtain ⟨hfits, hheld⟩ := foldl_addWord hwidth hstart
    fun w (hw : w ∈ words isWhitespace text) c hc => not_blank_of_mem_words hw hc
  refine ⟨hfits.finish, ?_⟩
  rw [wrapLines, Wrapping.flatten_finish, hheld, flatten_words]
  rfl

/-- Without over-long words the lines joined by spaces are the normalised text. -/
lemma intercalate_wrapLines (h : ∀ w ∈ words isWhitespace text, w.length ≤ width) :
    [' '].intercalate (wrapLines text width) = normalize text := by
  have hspaced := foldl_spaced ⟨[], []⟩ fun w hw => ⟨ne_nil_of_mem_words hw, h w hw⟩
  rw [normalize, intercalate_eq_tail, intercalate_eq_tail]
  exact congrArg List.tail hspaced

lemma words_normalize (text : Text) :
    words isWhitespace (normalize text) = words isWhitespace text :=
  words_intercalate (by decide) fun _ hw =>
    ⟨ne_nil_of_mem_words hw, fun _ hc => not_blank_of_mem_words hw hc⟩

/-- Wrapping normalises. -/
lemma wrapLines_normalize (text : Text) (width : Nat) :
    wrapLines (normalize text) width = wrapLines text width := by
  rw [wrapLines, words_normalize, wrapLines]

end Lines

/-- `chunks(2)` -/
def chunks : List Text → List (List Text)
  | [] => []
  | [line] => [[line]]
  | line :: line' :: lines => [line, line'] :: chunks lines

/-- The characters of the lines of a chunk, at least one. -/
def chunkChars (lines : List Text) : Int := ((max (lines.map List.length).sum 1 : Nat) : Int)

/-! ## Cues -/

/-- Whole milliseconds of a span of microseconds, truncated towards zero. -/
def numMilliseconds (span : Int) : Int := span.tdiv 1000

/-- When an event starts, from the start of the session. -/
def startMs (startedAt : Timestamp) (ev : ExportEvent) : Int :=
  max (numMilliseconds (ev.ts - startedAt)) 0

/-- The end of the window of an event, by the characters it shows and the start of the next. -/
def windowEnd (start : Int) (windowChars : Nat) (next : Option Int) : Int :=
  let wanted := start + (windowChars : Int) * 1000 / readCps
  let free := match next with
    | some next => min wanted (next - cueGapMs)
    | none => wanted
  min (max free (start + minCueMs)) (start + maxCueMs)

/-- The loop over the chunks: `t0` is where the next cue starts, `acc` the characters so far. -/
def spread (start stop total : Int) (speaker : Text) : Int → Int → List (List Text) → List Cue
  | _, _, [] => []
  | t0, acc, chunk :: rest =>
    let acc := acc + chunkChars chunk
    let boundary := if rest = [] then stop else start + (stop - start) * acc / max total 1
    let cEnd := if rest = [] then boundary else max (boundary - cueGapMs) (t0 + 1)
    ⟨t0, cEnd, speaker, chunk⟩ :: spread start stop total speaker boundary acc rest

/-- The text of an event in a mode of one language. -/
def shownText (mode : LangMode) (target : Text) (ev : ExportEvent) : Text :=
  if mode = .translated then (ev.translations target).getD ev.original else ev.original

/-- The characters by which the window of an event is estimated. -/
def windowChars (mode : LangMode) (target : Text) (ev : ExportEvent) : Nat :=
  match mode with
  | .both => (normalize ev.original).length +
      ((ev.translations target).map fun t => (normalize t).length).getD 0
  | _ => (normalize (shownText mode target ev)).length

/-- The cues of an event, by its start and that of the next. -/
def eventCues (mode : LangMode) (target : Text) (start : Int) (next : Option Int)
    (ev : ExportEvent) : List Cue :=
  let original := normalize ev.original
  if original = [] then []
  else
    let stop := windowEnd start (windowChars mode target ev) next
    match mode with
    | .both =>
      let translated := (ev.translations target).map normalize
      [⟨start, stop, ev.speakerName, original :: (translated.filter (· ≠ original)).toList⟩]
    | _ =>
      let cs := chunks (wrapLines (normalize (shownText mode target ev)) maxLineChars)
      spread start stop (cs.map chunkChars).sum ev.speakerName start 0 cs

/-- The events that are spoken. -/
def speech (events : List ExportEvent) : List ExportEvent := events.filter (·.kind ≠ .chat)

/-- The cues of the `i`-th spoken event. -/
def cuesAt (events : List ExportEvent) (startedAt : Timestamp) (mode : LangMode) (target : Text)
    (i : Nat) (ev : ExportEvent) : List Cue :=
  eventCues mode target (startMs startedAt ev)
    ((speech events)[i + 1]?.map (startMs startedAt)) ev

def computeCues (events : List ExportEvent) (startedAt : Timestamp) (mode : LangMode)
    (target : Text) : List Cue :=
  (speech events).zipIdx.flatMap fun (ev, i) => cuesAt events startedAt mode target i ev

/-! ## Texts -/

section Texts

variable {events : List ExportEvent} {startedAt : Timestamp} {mode : LangMode} {target : Text}
  {i : Nat} {ev : ExportEvent}

lemma flatten_chunks (ls : List Text) : (chunks ls).flatten = ls := by
  induction ls using chunks.induct with
  | case1 => rfl
  | case2 line => rfl
  | case3 line line' lines ih => rw [chunks, List.flatten_cons, ih]; rfl

lemma length_of_mem_chunks {ls chunk : List Text} (h : chunk ∈ chunks ls) :
    chunk.length = 1 ∨ chunk.length = 2 := by
  induction ls using chunks.induct with
  | case1 => cases h
  | case2 line => exact .inl (by rw [List.mem_singleton.mp h]; rfl)
  | case3 line line' lines ih =>
    rcases List.mem_cons.mp h with rfl | hmem
    · exact .inr rfl
    · exact ih hmem

lemma map_lines_spread (start stop total t0 acc : Int) (speaker : Text) (cs : List (List Text)) :
    (spread start stop total speaker t0 acc cs).map Cue.lines = cs := by
  induction cs generalizing t0 acc with
  | nil => rfl
  | cons chunk rest ih => rw [spread, List.map_cons, ih]

/-- An event that is shown in one language has a cue for each chunk of its wrapped text. -/
lemma eventCues_of_ne_both {start : Int} {next : Option Int} (hmode : mode ≠ .both)
    (horiginal : normalize ev.original ≠ []) : eventCues mode target start next ev =
      spread start (windowEnd start (windowChars mode target ev) next)
        ((chunks (wrapLines (shownText mode target ev) maxLineChars)).map chunkChars).sum
        ev.speakerName start 0 (chunks (wrapLines (shownText mode target ev) maxLineChars)) := by
  rw [eventCues, ← wrapLines_normalize (shownText mode target ev)]
  refine (if_neg horiginal).trans ?_
  cases mode with
  | original => rfl
  | translated => rfl
  | both => exact absurd rfl hmode

lemma map_lines_eventCues {start : Int} {next : Option Int} (hmode : mode ≠ .both)
    (horiginal : normalize ev.original ≠ []) :
    (eventCues mode target start next ev).map Cue.lines =
      chunks (wrapLines (shownText mode target ev) maxLineChars) := by
  rw [eventCues_of_ne_both hmode horiginal, map_lines_spread]

end Texts

/-- **The text of a subtitle.**  Where an event is spoken and its original is not blank, the lines
of its cues hold the letters of the text that is shown, in their order; no line has more than
forty-two characters, no cue more than two lines, and without over-long words the lines joined by
spaces are the normalised text. -/
theorem cues_keep_text (events : List ExportEvent) (startedAt : Timestamp) (mode : LangMode)
    (target : Text) (i : Nat) (ev : ExportEvent) (hev : (speech events)[i]? = some ev)
    (hmode : mode ≠ .both) (horiginal : normalize ev.original ≠ []) :
    let cues := cuesAt events startedAt mode target i ev
    let lines := cues.flatMap Cue.lines
    let text := shownText mode target ev
    (∀ c ∈ cues, c ∈ computeCues events startedAt mode target) ∧
      lines.flatten.filter (fun c => !isWhitespace c) = text.filter (fun c => !isWhitespace c) ∧
      (∀ l ∈ lines, l.length ≤ 42) ∧
      (∀ c ∈ cues, c.lines.length = 1 ∨ c.lines.length = 2) ∧
      ((∀ w ∈ words isWhitespace text, w.length ≤ 42) →
        [' '].intercalate lines = normalize text) := by
  intro cues lines text
  have hchunks : cues.map Cue.lines = chunks (wrapLines text maxLineChars) :=
    map_lines_eventCues hmode horiginal
  have hlines : lines = wrapLines text maxLineChars := by
    rw [← flatten_chunks (wrapLines text maxLineChars), ← hchunks]
    exact List.flatMap_def ..
  obtain ⟨hfits, hletters⟩ := wrapLines_spec text (show 0 < maxLineChars by decide)
  refine ⟨fun c hc => ?_, ?_, ?_, ?_, fun hshort => ?_⟩
  · exact List.mem_flatMap.mpr ⟨(ev, i), List.mem_zipIdx_iff_getElem?.mpr hev, hc⟩
  · rw [hlines]
    exact hletters
  · intro l hl
    rw [hlines] at hl
    exact (hfits l hl).2
  · intro c hc
    have hmem := List.mem_map_of_mem (f := Cue.lines) hc
    rw [hchunks] at hmem
    exact length_of_mem_chunks hmem
  · rw [hlines]
    exact intercalate_wrapLines hshort

/-- Something was said in another language, and there is no original. -/
def unspoken : ExportEvent :=
  ⟨.speech, 0, ['A'], ['e', 'n'], [], fun _ => some ['c', 'i', 'a', 'o']⟩

/-- An event without an original has no cue, even where its translation is to be shown. -/
theorem blank_original_is_skipped :
    ∃ events startedAt target i ev, (speech events)[i]? = some ev ∧
      ((cuesAt events startedAt .translated target i ev).flatMap Cue.lines).flatten.filter
          (fun c => !isWhitespace c) ≠
        (shownText .translated target ev).filter fun c => !isWhitespace c := by
  refine ⟨[unspoken], 0, ['i', 't'], 0, unspoken, rfl, ?_⟩
  decide

/-- A text with a word that is cut and a line that is broken. -/
theorem cues_keep_text_long :
    let ev : ExportEvent :=
      ⟨.speech, 0, ['A'], [], List.replicate 50 'x' ++ [' ', 'y'], fun _ => none⟩
    ((cuesAt [ev] 0 .original [] 0 ev).flatMap Cue.lines).flatten.filter
        (fun c => !isWhitespace c) = ev.original.filter fun c => !isWhitespace c := by
  intro ev
  have hspoken : normalize ev.original ≠ [] := by decide
  exact (cues_keep_text [ev] 0 .original [] 0 ev rfl (by decide) hspoken).2.1

end VoxTranslate.Transcripts.Subtitles
