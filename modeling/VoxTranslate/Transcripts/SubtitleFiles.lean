import VoxTranslate.Lib.Cut
import VoxTranslate.Lib.Decimal
import VoxTranslate.Transcripts.SubtitleTiming

/-!
# Subtitle files (`build_srt`, `build_vtt` in `subtitles.rs`)

A file is a sequence of blocks, ended by empty lines: an index, the times and the text.  The
speaker stands before the first line of the text, in WebVTT as a tag whose characters are escaped.
The names of speakers are written as they are, line breaks included.  What is written is read back
here by readers that cut the file at its line breaks and empty lines.
-/

namespace VoxTranslate.Transcripts.Subtitles

open Engine (Text isWhitespace)
open Lib

/-! ## Writing -/

/-- `timestamp`: hours, minutes, seconds, milliseconds. -/
def timestamp (ms : Int) (sep : Char) : Text :=
  let ms := ms.toNat
  padded 2 (ms / 3600000) ++ ':' :: (padded 2 (ms / 60000 % 60) ++ ':' ::
    (padded 2 (ms / 1000 % 60) ++ sep :: padded 3 (ms % 1000)))

/-- The arrow between two times. -/
def arrow : Text := [' ', '-', '-', '>', ' ']

def timing (sep : Char) (c : Cue) : Text :=
  timestamp c.startMs sep ++ (arrow ++ timestamp c.endMs sep)

/-- One cue of a SubRip file; the speaker stands before the first line. -/
def srtCue (i : Nat) (c : Cue) : Text :=
  decimal (i + 1) ++ ['\n'] ++ (timing ',' c ++ ['\n']) ++
    (c.lines.zipIdx.flatMap fun (line, j) =>
      (if j = 0 then c.speaker ++ [':', ' '] else []) ++ line ++ ['\n']) ++ ['\n']

def buildSrt (cues : List Cue) : Text := cues.zipIdx.flatMap fun (c, i) => srtCue i c

/-- `str::replace` of a character. -/
def replaceChar (c : Char) (text : Text) (t : Text) : Text :=
  t.flatMap fun d => if d = c then text else [d]

def escapeVtt (t : Text) : Text :=
  replaceChar '>' ['&', 'g', 't', ';']
    (replaceChar '<' ['&', 'l', 't', ';'] (replaceChar '&' ['&', 'a', 'm', 'p', ';'] t))

def vttCue (c : Cue) : Text :=
  timing '.' c ++ ['\n'] ++ (['<', 'v', ' '] ++ (escapeVtt c.speaker ++ ['>'])) ++
    (c.lines.zipIdx.flatMap fun (line, j) => (if 0 < j then ['\n'] else []) ++ escapeVtt line) ++
    ['\n', '\n']

/-- The first line of a WebVTT file. -/
def vttSignature : Text := ['W', 'E', 'B', 'V', 'T', 'T']

/-- The comment that marks the file as generated. -/
def vttNote : Text :=
  ['N', 'O', 'T', 'E', ' ', 'A', 'I', '-', 'g', 'e', 'n', 'e', 'r', 'a', 't', 'e', 'd', ':', ' ',
    't', 'r', 'a', 'n', 's', 'c', 'r', 'i', 'b', 'e', 'd', ' ', 'a', 'n', 'd', ' ',
    't', 'r', 'a', 'n', 's', 'l', 'a', 't', 'e', 'd', ' ', 'b', 'y', ' ', 'A', 'I', ' ',
    '(', 'V', 'o', 'x', 'T', 'r', 'a', 'n', 's', 'l', 'a', 't', 'e', ')', ';', ' ',
    'm', 'a', 'y', ' ', 'c', 'o', 'n', 't', 'a', 'i', 'n', ' ', 'e', 'r', 'r', 'o', 'r', 's', '.']

def buildVtt (cues : List Cue) : Text :=
  vttSignature ++ ['\n', '\n'] ++ (vttNote ++ ['\n', '\n']) ++ cues.flatMap vttCue

/-! ## Reading -/

/-- Every line break is a line feed. -/
def unifyBreaks : Text → Text
  | [] => []
  | c :: t =>
    if c = '\r' then
      match t with
      | c' :: t' => if c' = '\n' then '\n' :: unifyBreaks t' else '\n' :: unifyBreaks (c' :: t')
      | [] => ['\n']
    else c :: unifyBreaks t

def textLines (file : Text) : List Text := (unifyBreaks file).splitOn '\n'

/-- The runs of lines between empty ones. -/
def blocks (file : Text) : List (List Text) := words List.isEmpty (textLines file)

/-- A time, with any number of hours. -/
def readStamp (sep : Char) (t : Text) : Option Int := do
  let (hours, t) ← cut [':'] t
  let (minutes, t) ← cut [':'] t
  let (seconds, millis) ← cut [sep] t
  let ms := ((← parseDigits hours) * 60 + (← parseDigits minutes)) * 60 + (← parseDigits seconds)
  some ((ms * 1000 + (← parseDigits millis) : Nat) : Int)

def readTiming (sep : Char) (line : Text) : Option (Int × Int) := do
  let (first, second) ← cut arrow line
  some (← readStamp sep first, ← readStamp sep second)

def readSrtBlock : List Text → Option Cue
  | index :: times :: first :: rest => do
    let _ ← parseDigits index
    let (startMs, endMs) ← readTiming ',' times
    let (speaker, line) ← cut [':', ' '] first
    some ⟨startMs, endMs, speaker, line :: rest⟩
  | _ => none

def readSrt (file : Text) : Option (List Cue) := (blocks file).mapM readSrtBlock

/-- What a character reference stands for. -/
def charRef (name : Text) : Text :=
  if name = ['a', 'm', 'p'] then ['&'] else if name = ['l', 't'] then ['<']
  else if name = ['g', 't'] then ['>'] else '&' :: (name ++ [';'])

/-- Character references are resolved; the first argument is the name of the one that is read. -/
def unescapeFrom : Option Text → Text → Text
  | none, [] => []
  | some name, [] => '&' :: name
  | none, c :: t => if c = '&' then unescapeFrom (some []) t else c :: unescapeFrom none t
  | some name, c :: t =>
    if c = ';' then charRef name ++ unescapeFrom none t else unescapeFrom (some (name ++ [c])) t

def unescape (t : Text) : Text := unescapeFrom none t

def readVttBlock : List Text → Option Cue
  | times :: first :: rest => do
    let (startMs, endMs) ← readTiming '.' times
    let (tag, line) ← cut ['>'] first
    if ['<', 'v', ' '] <+: tag then
      some ⟨startMs, endMs, unescape (tag.drop 3), unescape line :: rest.map unescape⟩
    else none
  | _ => none

/-- A block that starts with this word is a comment. -/
def isComment (block : List Text) : Bool :=
  block.head?.any fun line => ['N', 'O', 'T', 'E'].isPrefixOf line

def readVtt (file : Text) : Option (List Cue) :=
  match blocks file with
  | [] => none
  | signature :: rest =>
    if signature = [vttSignature] then (rest.filter fun b => !isComment b).mapM readVttBlock
    else none

/-! ## Blocks -/

/-- A text without a line break. -/
def OneLine (t : Text) : Prop := '\n' ∉ t ∧ '\r' ∉ t

instance (t : Text) : Decidable (OneLine t) := inferInstanceAs (Decidable (_ ∧ _))

section Blocks

variable {t file : Text} {b : List Text} {bs : List (List Text)}

lemma OneLine.append_iff {t' : Text} : OneLine (t ++ t') ↔ OneLine t ∧ OneLine t' := by
  simp only [OneLine, List.mem_append]
  tauto

lemma unifyBreaks_of_not_mem (h : '\r' ∉ t) : unifyBreaks t = t := by
  induction t with
  | nil => rfl
  | cons c t ih =>
    obtain ⟨hc, ht⟩ := not_or.mp (mt List.mem_cons.mpr h)
    rw [unifyBreaks.eq_def]
    exact (if_neg (Ne.symm hc)).trans (by rw [ih ht])

lemma cr_not_mem_unifyBreaks (t : Text) : '\r' ∉ unifyBreaks t := by
  induction t using unifyBreaks.induct with
  | case1 => exact List.not_mem_nil
  | case2 t ih => simpa [unifyBreaks] using ih
  | case3 c' t hc ih => simpa [unifyBreaks, hc] using ih
  | case4 => decide
  | case5 c t hc ih => simpa [unifyBreaks.eq_def (c :: t), hc, Ne.symm hc] using ih

/-- The lines of a block are not empty, and hold no line break. -/
lemma line_of_block (hb : b ∈ blocks file) {l : Text} (hl : l ∈ b) : l ≠ [] ∧ OneLine l := by
  have hne : l ≠ [] := by simpa using not_blank_of_mem_words hb hl
  have hlines : l ∈ textLines file := by
    have hmem : l ∈ (blocks file).flatten := List.mem_flatten.mpr ⟨b, hb, hl⟩
    rw [blocks, flatten_words] at hmem
    exact (List.mem_filter.mp hmem).1
  have hchars : ∀ c ∈ l, c ∈ (unifyBreaks file).filter fun c => !(c == '\n') := by
    intro c hc
    rw [← flatten_splitOnP]
    exact List.mem_flatten.mpr ⟨l, hlines, hc⟩
  refine ⟨hne, fun hn => ?_, fun hr => ?_⟩
  · have hmem := (List.mem_filter.mp (hchars _ hn)).2
    simp at hmem
  · exact cr_not_mem_unifyBreaks file (List.mem_filter.mp (hchars _ hr)).1

/-- A file whose blocks are each ended by an empty line. -/
def fileOf (bs : List (List Text)) : Text :=
  bs.flatMap fun b => (b.flatMap fun l => l ++ ['\n']) ++ ['\n']

/-- **Blocks of plain lines are read back.** -/
lemma blocks_fileOf (h : ∀ b ∈ bs, b ≠ [] ∧ ∀ l ∈ b, l ≠ [] ∧ OneLine l) :
    blocks (fileOf bs) = bs := by
  have hlines : fileOf bs = (bs.flatMap fun b => b ++ [[]]).flatMap fun l => l ++ ['\n'] := by
    simp [fileOf, List.flatMap_assoc]
  have hline : ∀ l ∈ bs.flatMap (fun b => b ++ [[]]), OneLine l := by
    intro l hl
    obtain ⟨b, hb, hmem⟩ := List.mem_flatMap.mp hl
    rcases List.mem_append.mp hmem with hmem | hmem
    · exact ((h b hb).2 l hmem).2
    · rw [List.mem_singleton.mp hmem]
      decide
  have hcr : '\r' ∉ fileOf bs := by
    rw [hlines]
    intro hmem
    obtain ⟨l, hl, hr⟩ := List.mem_flatMap.mp hmem
    rcases List.mem_append.mp hr with hr | hr
    · exact (hline l hl).2 hr
    · simp at hr
  have hwords : ∀ b ∈ bs, b ≠ [] ∧ ∀ l ∈ b, l.isEmpty = false := fun b hb =>
    ⟨(h b hb).1, fun l hl => by simpa using ((h b hb).2 l hl).1⟩
  rw [blocks, textLines, unifyBreaks_of_not_mem hcr, hlines,
    splitOn_flatMap_append fun l hl => (hline l hl).1,
    words_flatMap_append (by rfl) hwords]
  exact List.append_nil _

end Blocks

/-! ## Times -/

section Times

variable {sep x c : Char} {ms : Int} {w n : Nat} {b : Text}

lemma cut_padded (hx : x.isDigit = false) :
    cut [x] (padded w n ++ x :: b) = some (padded w n, b) :=
  cut_append_of_not_mem (not_mem_padded hx)

/-- **A time is read back.** -/
lemma readStamp_timestamp (hms : 0 ≤ ms) (hsep : sep.isDigit = false) :
    readStamp sep (timestamp ms sep) = some ms := by
  have hcolon : ':'.isDigit = false := by decide
  have hvalue : (((ms.toNat / 3600000 * 60 + ms.toNat / 60000 % 60) * 60 +
      ms.toNat / 1000 % 60) * 1000 + ms.toNat % 1000 : Nat) = ms.toNat := by omega
  simp only [readStamp, timestamp, cut_padded hcolon, cut_padded hsep, parseDigits_padded,
    Option.bind_eq_bind, Option.bind_some, hvalue, Int.toNat_of_nonneg hms]

lemma mem_timestamp (h : c ∈ timestamp ms sep) : c.isDigit = true ∨ c = ':' ∨ c = sep := by
  have hpadded : ∀ {w n}, c ∈ padded w n → c.isDigit = true := fun h => isDigit_of_mem_padded h
  simp only [timestamp, List.mem_append, List.mem_cons] at h
  rcases h with h | rfl | h | rfl | h | rfl | h
  · exact .inl (hpadded h)
  · exact .inr (.inl rfl)
  · exact .inl (hpadded h)
  · exact .inr (.inl rfl)
  · exact .inl (hpadded h)
  · exact .inr (.inr rfl)
  · exact .inl (hpadded h)

lemma not_mem_timestamp (hx : x.isDigit = false) (hcolon : x ≠ ':') (hsep : x ≠ sep) :
    x ∉ timestamp ms sep := by
  intro hmem
  rcases mem_timestamp hmem with hdigit | heq | heq
  · rw [hdigit] at hx
    cases hx
  · exact hcolon heq
  · exact hsep heq

lemma readTiming_timing {cue : Cue} (hstart : 0 ≤ cue.startMs) (hend : 0 ≤ cue.endMs)
    (hsep : sep.isDigit = false) (hspace : ' ' ≠ sep) :
    readTiming sep (timing sep cue) = some (cue.startMs, cue.endMs) := by
  have hcut : cut arrow (timing sep cue) =
      some (timestamp cue.startMs sep, timestamp cue.endMs sep) :=
    cut_append_of_not_mem (not_mem_timestamp (by decide) (by decide) hspace)
  simp only [readTiming, hcut, readStamp_timestamp hstart hsep, readStamp_timestamp hend hsep,
    Option.bind_eq_bind, Option.bind_some]

lemma not_mem_timing {cue : Cue} (hx : x.isDigit = false) (hcolon : x ≠ ':') (hsep : x ≠ sep)
    (harrow : x ∉ arrow) : x ∉ timing sep cue := by
  intro hmem
  rcases List.mem_append.mp hmem with hmem | hmem
  · exact not_mem_timestamp hx hcolon hsep hmem
  · rcases List.mem_append.mp hmem with hmem | hmem
    · exact harrow hmem
    · exact not_mem_timestamp hx hcolon hsep hmem

lemma timing_plain {cue : Cue} (hn : '\n' ≠ sep) (hr : '\r' ≠ sep) :
    timing sep cue ≠ [] ∧ OneLine (timing sep cue) := by
  refine ⟨List.append_ne_nil_of_left_ne_nil ?_ _, ?_, ?_⟩
  · exact List.append_ne_nil_of_left_ne_nil (padded_ne_nil _ _) _
  · exact not_mem_timing (by decide) (by decide) hn (by decide)
  · exact not_mem_timing (by decide) (by decide) hr (by decide)

end Times

/-! ## Cues that can be written -/

/-- A cue with times, and with a first line; its lines hold no line break. -/
structure Cue.Clean (c : Cue) : Prop where
  start : 0 ≤ c.startMs
  stop : 0 ≤ c.endMs
  lines : ∃ first rest, c.lines = first :: rest ∧ first ≠ []
  oneLine : ∀ l ∈ c.lines, OneLine l

/-- A speaker on one line, and no empty line of text. -/
def Cue.Unbroken (c : Cue) : Prop := OneLine c.speaker ∧ [] ∉ c.lines

instance (c : Cue) : Decidable c.Unbroken := inferInstanceAs (Decidable (_ ∧ _))

section Files

variable {c : Cue} {i : Nat} {cues : List Cue} {b : List Text} {file : Text}
  {f : List Text → Option Cue}

/-- Every cue that is read comes from a block. -/
lemma exists_block_of_mapM {bs : List (List Text)} (h : bs.mapM f = some cues) (hc : c ∈ cues) :
    ∃ b ∈ bs, f b = some c := by
  induction bs generalizing cues with
  | nil =>
    cases h
    cases hc
  | cons b bs ih =>
    rw [List.mapM_cons] at h
    obtain ⟨c', hc', h⟩ := Option.bind_eq_some_iff.mp h
    obtain ⟨cues', hcues', h⟩ := Option.bind_eq_some_iff.mp h
    obtain rfl := Option.some.inj h
    rcases List.mem_cons.mp hc with rfl | hmem
    · exact ⟨b, List.mem_cons_self, hc'⟩
    · obtain ⟨b', hb', heq⟩ := ih hcues' hmem
      exact ⟨b', List.mem_cons_of_mem _ hb', heq⟩

lemma nil_not_mem_lines (hclean : c.Clean) (h : ∀ l ∈ c.lines.tail, l ≠ []) : [] ∉ c.lines := by
  obtain ⟨first, rest, hlines, hfirst⟩ := hclean.lines
  rw [hlines] at h ⊢
  intro hnil
  rcases List.mem_cons.mp hnil with hnil | hnil
  · exact hfirst hnil.symm
  · exact h [] hnil rfl

lemma mapM_map_eq {α : Type*} {l : List α} {write : α → List Text} {cue : α → Cue}
    (h : ∀ a ∈ l, f (write a) = some (cue a)) : (l.map write).mapM f = some (l.map cue) := by
  induction l with
  | nil => rfl
  | cons a l ih =>
    rw [List.map_cons, List.mapM_cons, h a List.mem_cons_self,
      ih fun a' ha' => h a' (List.mem_cons_of_mem _ ha')]
    rfl

/-! ### SubRip -/

/-- The lines of a block. -/
def srtBlock (i : Nat) (c : Cue) : List Text :=
  decimal (i + 1) :: timing ',' c ::
    match c.lines with
    | [] => []
    | first :: rest => (c.speaker ++ ([':', ' '] ++ first)) :: rest

lemma flatMap_zipIdx_succ {lines : List Text} {n : Nat} (front : Text) :
    ((lines.zipIdx (n + 1)).flatMap fun (line, j) =>
        (if j = 0 then front else []) ++ line ++ ['\n'])
      = lines.flatMap fun line => line ++ ['\n'] := by
  induction lines generalizing n with
  | nil => rfl
  | cons line lines ih =>
    rw [List.zipIdx_cons, List.flatMap_cons, List.flatMap_cons, ih]
    dsimp only
    rw [if_neg (Nat.succ_ne_zero n), List.nil_append]

lemma srtCue_eq (i : Nat) (c : Cue) :
    srtCue i c = (srtBlock i c).flatMap (fun l => l ++ ['\n']) ++ ['\n'] := by
  rw [srtCue, srtBlock]
  cases hlines : c.lines with
  | nil => simp
  | cons first rest =>
    rw [List.zipIdx_cons, List.flatMap_cons, flatMap_zipIdx_succ]
    simp

lemma buildSrt_eq (cues : List Cue) :
    buildSrt cues = fileOf (cues.zipIdx.map fun (c, i) => srtBlock i c) := by
  rw [buildSrt, fileOf, List.flatMap_map]
  exact congrArg (fun f => cues.zipIdx.flatMap f) (funext fun p => srtCue_eq p.2 p.1)

lemma readSrtBlock_srtBlock (h : c.Clean) (hspeaker : ¬ [':', ' '] <:+: c.speaker) (i : Nat) :
    readSrtBlock (srtBlock i c) = some c := by
  obtain ⟨first, rest, hlines, -⟩ := h.lines
  have htimes : readTiming ',' (timing ',' c) = some (c.startMs, c.endMs) :=
    readTiming_timing h.start h.stop (by decide) (by decide)
  have hfirst : cut [':', ' '] (c.speaker ++ ([':', ' '] ++ first)) = some (c.speaker, first) :=
    cut_append_of_not_infix (by decide) hspeaker
  rw [srtBlock, hlines]
  simp only [readSrtBlock, parseDigits_decimal, htimes, hfirst, Option.bind_eq_bind,
    Option.bind_some, ← hlines]

lemma srtBlock_plain (h : c.Clean) (hc : c.Unbroken) (i : Nat) :
    srtBlock i c ≠ [] ∧ ∀ l ∈ srtBlock i c, l ≠ [] ∧ OneLine l := by
  obtain ⟨first, rest, hlines, -⟩ := h.lines
  refine ⟨List.cons_ne_nil _ _, fun l hl => ?_⟩
  have hnumber : OneLine (decimal (i + 1)) := by
    rw [decimal_eq_padded]
    exact ⟨not_mem_padded (by decide), not_mem_padded (by decide)⟩
  rw [srtBlock, hlines] at hl
  rcases List.mem_cons.mp hl with rfl | hl
  · exact ⟨decimal_ne_nil _, hnumber⟩
  rcases List.mem_cons.mp hl with rfl | hl
  · exact timing_plain (by decide) (by decide)
  have htext : ∀ l ∈ first :: rest, l ≠ [] ∧ OneLine l := fun l hl =>
    ⟨fun hnil => hc.2 (hlines ▸ hnil ▸ hl), h.oneLine l (hlines ▸ hl)⟩
  rcases List.mem_cons.mp hl with rfl | hl
  · refine ⟨by simp, OneLine.append_iff.mpr ⟨hc.1, OneLine.append_iff.mpr ⟨by decide, ?_⟩⟩⟩
    exact (htext first List.mem_cons_self).2
  · exact htext l (List.mem_cons_of_mem _ hl)

/-- What is read of a block has a speaker on one line, without the separator. -/
lemma unbroken_of_readSrtBlock (hb : b ∈ blocks file) (h : readSrtBlock b = some c) :
    OneLine c.speaker ∧ ¬ [':', ' '] <:+: c.speaker ∧ ∀ l ∈ c.lines.tail, l ≠ [] := by
  match b, h with
  | index :: times :: first :: rest, h =>
    simp only [readSrtBlock, Option.bind_eq_bind, Option.bind_eq_some_iff] at h
    obtain ⟨-, -, ⟨start, stop⟩, -, ⟨speaker, line⟩, hcut, hc⟩ := h
    obtain rfl := Option.some.inj hc
    obtain ⟨hfirst, hnot⟩ := cut_spec hcut
    have hline := (line_of_block hb (l := first) (by simp)).2
    rw [hfirst, OneLine.append_iff] at hline
    refine ⟨hline.1, hnot (by simp), fun l hl => ?_⟩
    have hmem : l ∈ index :: times :: first :: rest := by simp [show l ∈ rest from hl]
    exact (line_of_block hb hmem).1

/-- **A SubRip file is read back** exactly when no name is broken or holds the separator. -/
lemma readSrt_buildSrt_iff (hclean : ∀ c ∈ cues, c.Clean) :
    readSrt (buildSrt cues) = some cues ↔
      ∀ c ∈ cues, c.Unbroken ∧ ¬ [':', ' '] <:+: c.speaker := by
  constructor
  · intro h c hc
    obtain ⟨b, hb, hread⟩ := exists_block_of_mapM h hc
    obtain ⟨hspeaker, hseparator, hrest⟩ := unbroken_of_readSrtBlock hb hread
    exact ⟨⟨hspeaker, nil_not_mem_lines (hclean c hc) hrest⟩, hseparator⟩
  · intro h
    have hplain : ∀ b ∈ cues.zipIdx.map (fun (c, i) => srtBlock i c),
        b ≠ [] ∧ ∀ l ∈ b, l ≠ [] ∧ OneLine l := by
      intro b hb
      obtain ⟨⟨c, i⟩, hci, rfl⟩ := List.mem_map.mp hb
      have hc : c ∈ cues := List.mem_of_getElem? (List.mem_zipIdx_iff_getElem?.mp hci)
      exact srtBlock_plain (hclean c hc) (h c hc).1 i
    have hread : ∀ p ∈ cues.zipIdx, readSrtBlock (srtBlock p.2 p.1) = some p.1 := fun p hp => by
      have hc : p.1 ∈ cues := List.mem_of_getElem? (List.mem_zipIdx_iff_getElem?.mp hp)
      exact readSrtBlock_srtBlock (hclean _ hc) (h _ hc).2 p.2
    rw [readSrt, buildSrt_eq, blocks_fileOf hplain, mapM_map_eq hread, List.zipIdx_map_fst]

/-! ### WebVTT -/

/-- What is written for a character. -/
def escapeChar (c : Char) : Text :=
  if c = '&' then ['&', 'a', 'm', 'p', ';'] else if c = '<' then ['&', 'l', 't', ';']
  else if c = '>' then ['&', 'g', 't', ';'] else [c]

lemma escapeVtt_eq (t : Text) : escapeVtt t = t.flatMap escapeChar := by
  rw [escapeVtt, replaceChar, replaceChar, replaceChar, List.flatMap_assoc, List.flatMap_assoc]
  refine congrArg (fun f => t.flatMap f) (funext fun c => ?_)
  by_cases hamp : c = '&'
  · rw [hamp]
    decide
  · by_cases hlt : c = '<'
    · rw [hlt]
      decide
    · by_cases hgt : c = '>'
      · rw [hgt]
        decide
      · simp [escapeChar, hamp, hlt, hgt]

/-- **Escapes are undone.** -/
lemma unescape_escapeVtt (t : Text) : unescape (escapeVtt t) = t := by
  rw [unescape, escapeVtt_eq]
  induction t with
  | nil => rfl
  | cons c t ih =>
    rw [List.flatMap_cons, escapeChar]
    split_ifs with hamp hlt hgt
    · rw [hamp]
      simpa [unescapeFrom, charRef] using ih
    · rw [hlt]
      simpa [unescapeFrom, charRef] using ih
    · rw [hgt]
      simpa [unescapeFrom, charRef] using ih
    · rw [List.singleton_append, unescapeFrom, if_neg hamp, ih]

lemma mem_escapeChar {c d : Char} (h : d ∈ escapeChar c) :
    d = c ∧ c ≠ '>' ∨ d ∈ ['&', 'a', 'm', 'p', ';', 'l', 't', 'g'] := by
  have hsub : ∀ ref ∈ [['&', 'a', 'm', 'p', ';'], ['&', 'l', 't', ';'], ['&', 'g', 't', ';']],
      ref ⊆ ['&', 'a', 'm', 'p', ';', 'l', 't', 'g'] := by decide
  rw [escapeChar] at h
  split_ifs at h with hamp hlt hgt
  · exact .inr (hsub _ (by decide) h)
  · exact .inr (hsub _ (by decide) h)
  · exact .inr (hsub _ (by decide) h)
  · exact .inl ⟨List.mem_singleton.mp h, hgt⟩

lemma oneLine_escapeVtt {t : Text} (h : OneLine t) : OneLine (escapeVtt t) := by
  have hbreak : ∀ x, x ∉ t → x ∉ ['&', 'a', 'm', 'p', ';', 'l', 't', 'g'] → x ∉ escapeVtt t := by
    intro x hx hplain hmem
    rw [escapeVtt_eq] at hmem
    obtain ⟨c, hc, hxc⟩ := List.mem_flatMap.mp hmem
    rcases mem_escapeChar hxc with ⟨rfl, -⟩ | hplain'
    · exact hx hc
    · exact hplain hplain'
  exact ⟨hbreak _ h.1 (by decide), hbreak _ h.2 (by decide)⟩

lemma gt_not_mem_escapeVtt (t : Text) : '>' ∉ escapeVtt t := by
  rw [escapeVtt_eq]
  intro hmem
  obtain ⟨c, -, hc⟩ := List.mem_flatMap.mp hmem
  rcases mem_escapeChar hc with ⟨rfl, hne⟩ | hplain
  · exact hne rfl
  · exact absurd hplain (by decide)

lemma escapeVtt_ne_nil {t : Text} (h : t ≠ []) : escapeVtt t ≠ [] := by
  intro hnil
  have hback := unescape_escapeVtt t
  rw [hnil] at hback
  exact h hback.symm

/-- The lines of a block. -/
def vttBlock (c : Cue) : List Text :=
  timing '.' c ::
    match c.lines with
    | [] => [['<', 'v', ' '] ++ escapeVtt c.speaker ++ ['>']]
    | first :: rest =>
      (['<', 'v', ' '] ++ escapeVtt c.speaker ++ (['>'] ++ escapeVtt first)) :: rest.map escapeVtt

/-- Breaks before the lines are breaks after those before them. -/
lemma flatMap_breaks (lines : List Text) {n : Nat} :
    ((lines.zipIdx (n + 1)).flatMap fun (line, j) =>
        (if 0 < j then ['\n'] else []) ++ escapeVtt line)
        ++ ['\n', '\n'] =
      ['\n'] ++ ((lines.map escapeVtt).flatMap fun l => l ++ ['\n']) ++ ['\n'] := by
  induction lines generalizing n with
  | nil => rfl
  | cons line lines ih =>
    rw [List.zipIdx_cons, List.flatMap_cons, List.append_assoc, ih]
    simp

lemma vttCue_eq (c : Cue) :
    vttCue c = (vttBlock c).flatMap (fun l => l ++ ['\n']) ++ ['\n'] := by
  rw [vttCue, vttBlock]
  cases hlines : c.lines with
  | nil => simp
  | cons first rest =>
    rw [List.zipIdx_cons, List.flatMap_cons, List.append_assoc _ (_ ++ _) ['\n', '\n'],
      List.append_assoc _ _ ['\n', '\n'], flatMap_breaks]
    simp

lemma buildVtt_eq (cues : List Cue) :
    buildVtt cues = fileOf ([vttSignature] :: [vttNote] :: cues.map vttBlock) := by
  have hcues : cues.flatMap vttCue = fileOf (cues.map vttBlock) := by
    rw [fileOf, List.flatMap_map]
    exact congrArg (fun f => cues.flatMap f) (funext vttCue_eq)
  rw [buildVtt, hcues]
  simp [fileOf]

lemma readVttBlock_vttBlock (h : c.Clean) : readVttBlock (vttBlock c) = some c := by
  obtain ⟨first, rest, hlines, -⟩ := h.lines
  have htimes : readTiming '.' (timing '.' c) = some (c.startMs, c.endMs) :=
    readTiming_timing h.start h.stop (by decide) (by decide)
  have htag : '>' ∉ ['<', 'v', ' '] ++ escapeVtt c.speaker := by
    rw [List.mem_append]
    rintro (hmem | hmem)
    · exact absurd hmem (by decide)
    · exact gt_not_mem_escapeVtt _ hmem
  have hcut : cut ['>'] (['<', 'v', ' '] ++ escapeVtt c.speaker ++ (['>'] ++ escapeVtt first)) =
      some (['<', 'v', ' '] ++ escapeVtt c.speaker, escapeVtt first) := cut_append_of_not_mem htag
  have hrest : (rest.map escapeVtt).map unescape = rest := by
    rw [List.map_map]
    exact (List.map_congr_left fun l _ => unescape_escapeVtt l).trans (List.map_id rest)
  have hname : (['<', 'v', ' '] ++ escapeVtt c.speaker).drop 3 = escapeVtt c.speaker := rfl
  rw [vttBlock, hlines]
  simp only [readVttBlock, htimes, hcut, Option.bind_eq_bind, Option.bind_some,
    if_pos (List.prefix_append ['<', 'v', ' '] (escapeVtt c.speaker)), hname, unescape_escapeVtt,
    hrest, ← hlines]

lemma vttBlock_plain (h : c.Clean) (hc : c.Unbroken) :
    vttBlock c ≠ [] ∧ ∀ l ∈ vttBlock c, l ≠ [] ∧ OneLine l := by
  obtain ⟨first, rest, hlines, -⟩ := h.lines
  refine ⟨List.cons_ne_nil _ _, fun l hl => ?_⟩
  rw [vttBlock, hlines] at hl
  rcases List.mem_cons.mp hl with rfl | hl
  · exact timing_plain (by decide) (by decide)
  have htext : ∀ l ∈ first :: rest, l ≠ [] ∧ OneLine l := fun l hl =>
    ⟨fun hnil => hc.2 (hlines ▸ hnil ▸ hl), h.oneLine l (hlines ▸ hl)⟩
  rcases List.mem_cons.mp hl with rfl | hl
  · refine ⟨by simp, OneLine.append_iff.mpr ⟨OneLine.append_iff.mpr ⟨by decide, ?_⟩, ?_⟩⟩
    · exact oneLine_escapeVtt hc.1
    · refine OneLine.append_iff.mpr ⟨by decide, oneLine_escapeVtt ?_⟩
      exact (htext first List.mem_cons_self).2
  · obtain ⟨l, hmem, rfl⟩ := List.mem_map.mp hl
    obtain ⟨hne, hone⟩ := htext l (List.mem_cons_of_mem _ hmem)
    exact ⟨escapeVtt_ne_nil hne, oneLine_escapeVtt hone⟩

lemma not_isComment_vttBlock (c : Cue) : isComment (vttBlock c) = false := by
  have hnot : 'N' ∉ timing '.' c :=
    not_mem_timing (by decide) (by decide) (by decide) (by decide)
  rw [isComment, vttBlock, List.head?_cons, Option.any_some, Bool.eq_false_iff]
  intro hprefix
  exact hnot ((List.isPrefixOf_iff_prefix.mp hprefix).subset List.mem_cons_self)

lemma mem_charRef {name : Text} {x : Char} (h : x ∈ charRef name) :
    x ∈ name ∨ x ∈ ['&', '<', '>', ';'] := by
  have hsub : ∀ c ∈ [['&'], ['<'], ['>']], c ⊆ ['&', '<', '>', ';'] := by decide
  rw [charRef] at h
  split_ifs at h with hamp hlt hgt
  · exact .inr (hsub _ (by decide) h)
  · exact .inr (hsub _ (by decide) h)
  · exact .inr (hsub _ (by decide) h)
  · rcases List.mem_cons.mp h with rfl | hmem
    · exact .inr (by decide)
    · rcases List.mem_append.mp hmem with hmem | hmem
      · exact .inl hmem
      · rw [List.mem_singleton.mp hmem]
        exact .inr (by decide)

lemma charRef_ne_nil (name : Text) : charRef name ≠ [] := by
  rw [charRef]
  split_ifs
  all_goals exact List.cons_ne_nil _ _

/-- A character that is read was written, or stands for a reference. -/
lemma mem_unescapeFrom {pending : Option Text} {t : Text} {x : Char}
    (h : x ∈ unescapeFrom pending t) : x ∈ pending.getD [] ∨ x ∈ t ∨ x ∈ ['&', '<', '>', ';'] := by
  have hamp : '&' ∈ ['&', '<', '>', ';'] := by decide
  induction t generalizing pending with
  | nil =>
    cases pending with
    | none => cases h
    | some name =>
      rcases List.mem_cons.mp h with rfl | hmem
      · exact .inr (.inr hamp)
      · exact .inl hmem
  | cons c t ih =>
    have hrest : x ∈ unescapeFrom none t → x ∈ c :: t ∨ x ∈ ['&', '<', '>', ';'] := by
      intro hmem
      rcases ih hmem with hnil | ht | href
      · cases hnil
      · exact .inl (List.mem_cons_of_mem _ ht)
      · exact .inr href
    cases pending with
    | none =>
      rw [unescapeFrom] at h
      split_ifs at h with hc
      · exact (ih h).imp_right (Or.imp_left (List.mem_cons_of_mem _))
      · rcases List.mem_cons.mp h with rfl | hmem
        · exact .inr (.inl List.mem_cons_self)
        · exact .inr (hrest hmem)
    | some name =>
      rw [unescapeFrom] at h
      split_ifs at h with hc
      · rcases List.mem_append.mp h with hmem | hmem
        · exact (mem_charRef hmem).imp_right .inr
        · exact .inr (hrest hmem)
      · rcases ih h with hname | ht | href
        · rcases List.mem_append.mp hname with hname | hname
          · exact .inl hname
          · exact .inr (.inl (List.mem_singleton.mp hname ▸ List.mem_cons_self))
        · exact .inr (.inl (List.mem_cons_of_mem _ ht))
        · exact .inr (.inr href)

lemma oneLine_unescape {t : Text} (h : OneLine t) : OneLine (unescape t) := by
  have hbreak : ∀ x, x ∉ t → x ∉ ['&', '<', '>', ';'] → x ∉ unescape t := by
    intro x hx hplain hmem
    rcases mem_unescapeFrom hmem with hnil | ht | href
    · cases hnil
    · exact hx ht
    · exact hplain href
  exact ⟨hbreak _ h.1 (by decide), hbreak _ h.2 (by decide)⟩

lemma unescapeFrom_some_ne_nil (name t : Text) : unescapeFrom (some name) t ≠ [] := by
  induction t generalizing name with
  | nil => exact List.cons_ne_nil _ _
  | cons c t ih =>
    rw [unescapeFrom]
    split_ifs with hc
    · exact List.append_ne_nil_of_left_ne_nil (charRef_ne_nil name) _
    · exact ih _

lemma unescape_ne_nil {t : Text} (h : t ≠ []) : unescape t ≠ [] := by
  obtain ⟨c, t, rfl⟩ := List.exists_cons_of_ne_nil h
  rw [unescape, unescapeFrom]
  split_ifs with hc
  · exact unescapeFrom_some_ne_nil [] t
  · exact List.cons_ne_nil _ _

/-- What is read of a block has a speaker on one line. -/
lemma unbroken_of_readVttBlock (hb : b ∈ blocks file) (h : readVttBlock b = some c) :
    OneLine c.speaker ∧ ∀ l ∈ c.lines.tail, l ≠ [] := by
  match b, h with
  | times :: first :: rest, h =>
    simp only [readVttBlock, Option.bind_eq_bind, Option.bind_eq_some_iff] at h
    obtain ⟨⟨start, stop⟩, -, ⟨tag, line⟩, hcut, hc⟩ := h
    dsimp only at hc
    split_ifs at hc with htag
    obtain rfl := Option.some.inj hc
    have hline := (line_of_block hb (l := first) (by simp)).2
    rw [(cut_spec hcut).1, OneLine.append_iff] at hline
    have hname : OneLine (tag.drop 3) :=
      ⟨fun hmem => hline.1.1 (List.mem_of_mem_drop hmem),
        fun hmem => hline.1.2 (List.mem_of_mem_drop hmem)⟩
    refine ⟨oneLine_unescape hname, fun l hl => ?_⟩
    obtain ⟨l', hl', rfl⟩ := List.mem_map.mp (show l ∈ rest.map unescape from hl)
    exact unescape_ne_nil (line_of_block hb (l := l') (by simp [hl'])).1

/-- **A WebVTT file is read back** exactly when no name is broken. -/
lemma readVtt_buildVtt_iff (hclean : ∀ c ∈ cues, c.Clean) :
    readVtt (buildVtt cues) = some cues ↔ ∀ c ∈ cues, c.Unbroken := by
  constructor
  · intro h c hc
    rw [readVtt] at h
    cases hblocks : blocks (buildVtt cues) with
    | nil =>
      rw [hblocks] at h
      cases h
    | cons signature rest =>
      rw [hblocks] at h
      dsimp only at h
      split_ifs at h with hsignature
      obtain ⟨b, hb, hread⟩ := exists_block_of_mapM h hc
      have hmem : b ∈ blocks (buildVtt cues) :=
        hblocks ▸ List.mem_cons_of_mem _ (List.mem_of_mem_filter hb)
      obtain ⟨hspeaker, hrest⟩ := unbroken_of_readVttBlock hmem hread
      exact ⟨hspeaker, nil_not_mem_lines (hclean c hc) hrest⟩
  · intro h
    have hplain : ∀ b ∈ [vttSignature] :: [vttNote] :: cues.map vttBlock,
        b ≠ [] ∧ ∀ l ∈ b, l ≠ [] ∧ OneLine l := by
      intro b hb
      rcases List.mem_cons.mp hb with rfl | hb
      · decide
      rcases List.mem_cons.mp hb with rfl | hb
      · decide
      obtain ⟨c, hc, rfl⟩ := List.mem_map.mp hb
      exact vttBlock_plain (hclean c hc) (h c hc)
    have hkept : (cues.map vttBlock).filter (fun b => !isComment b) = cues.map vttBlock := by
      refine List.filter_eq_self.mpr fun b hb => ?_
      obtain ⟨c, -, rfl⟩ := List.mem_map.mp hb
      rw [not_isComment_vttBlock]
      rfl
    have hnote : isComment [vttNote] = true := by decide
    rw [readVtt, buildVtt_eq, blocks_fileOf hplain]
    dsimp only
    rw [if_pos rfl, List.filter_cons_of_neg (by rw [hnote]; decide), hkept]
    rw [mapM_map_eq fun c hc => readVttBlock_vttBlock (hclean c hc), List.map_id']

end Files

/-! ## The cues of an export -/

/-- The event has a cue. -/
def Shown (mode : LangMode) (target : Text) (ev : ExportEvent) : Prop :=
  normalize ev.original ≠ [] ∧ (mode ≠ .both → normalize (shownText mode target ev) ≠ [])

instance (mode : LangMode) (target : Text) (ev : ExportEvent) :
    Decidable (Shown mode target ev) := inferInstanceAs (Decidable (_ ∧ _))

/-- A speaker on one line and, where both texts are shown, no blank translation. -/
def Writable (mode : LangMode) (target : Text) (ev : ExportEvent) : Prop :=
  OneLine ev.speakerName ∧
    (mode = .both → (ev.translations target).map normalize ≠ some [])

instance (mode : LangMode) (target : Text) (ev : ExportEvent) :
    Decidable (Writable mode target ev) := inferInstanceAs (Decidable (_ ∧ _))

section Events

variable {events : List ExportEvent} {startedAt : Timestamp} {mode : LangMode} {target : Text}
  {start stop total t0 acc : Int} {next : Option Int} {ev : ExportEvent} {c : Cue} {text : Text}

/-- A text without line breaks, as its only blank letters are spaces. -/
lemma oneLine_of_blank_eq_space (h : ∀ c ∈ text, isWhitespace c = true → c = ' ') :
    OneLine text :=
  ⟨fun hmem => absurd (h _ hmem (by decide)) (by decide),
    fun hmem => absurd (h _ hmem (by decide)) (by decide)⟩

lemma mem_spread {speaker : Text} {cs : List (List Text)}
    (h : c ∈ spread start stop total speaker t0 acc cs) : c.speaker = speaker ∧ c.lines ∈ cs := by
  induction cs generalizing t0 acc with
  | nil => cases h
  | cons chunk rest ih =>
    rw [spread] at h
    rcases List.mem_cons.mp h with rfl | hmem
    · exact ⟨rfl, List.mem_cons_self⟩
    · exact (ih hmem).imp_right (List.mem_cons_of_mem _)

lemma chunks_ne_nil {ls : List Text} (h : ls ≠ []) : chunks ls ≠ [] := fun hnil =>
  h (by rw [← flatten_chunks ls, hnil, List.flatten_nil])

lemma mem_wrapLines {chunk : List Text} {l : Text}
    (hchunk : chunk ∈ chunks (wrapLines text maxLineChars)) (hl : l ∈ chunk) :
    l ∈ wrapLines text maxLineChars := by
  rw [← flatten_chunks (wrapLines text maxLineChars)]
  exact List.mem_flatten.mpr ⟨chunk, hchunk, hl⟩

lemma wrapLines_ne_nil (h : normalize text ≠ []) : wrapLines text maxLineChars ≠ [] := by
  intro hnil
  have hletters := (wrapLines_spec text (show 0 < maxLineChars by decide)).2
  rw [hnil, ← flatten_words text] at hletters
  have hwords : words isWhitespace text = [] := List.eq_nil_iff_forall_not_mem.mpr fun w hw =>
    ne_nil_of_mem_words hw (List.flatten_eq_nil_iff.mp hletters.symm w hw)
  exact h (by rw [normalize, hwords]; rfl)

/-- The lines of a cue in one language. -/
lemma lines_of_mem_chunks {chunk : List Text} (h : chunk ∈ chunks (wrapLines text maxLineChars)) :
    (∃ first rest, chunk = first :: rest ∧ first ≠ []) ∧ ∀ l ∈ chunk, l ≠ [] ∧ OneLine l := by
  have hwidth : 0 < maxLineChars := by decide
  have hplain : ∀ l ∈ chunk, l ≠ [] ∧ OneLine l := fun l hl =>
    ⟨((wrapLines_spec text hwidth).1 l (mem_wrapLines h hl)).1,
      oneLine_of_blank_eq_space fun c hc =>
        blank_eq_space_wrapLines hwidth (mem_wrapLines h hl) hc⟩
  refine ⟨?_, hplain⟩
  have hne : chunk ≠ [] := by
    rintro rfl
    simpa using length_of_mem_chunks h
  obtain ⟨first, rest, rfl⟩ := List.exists_cons_of_ne_nil hne
  exact ⟨first, rest, rfl, (hplain first List.mem_cons_self).1⟩

/-- The one cue of an event that is shown in both languages. -/
lemma eventCues_both (horiginal : normalize ev.original ≠ []) :
    eventCues .both target start next ev =
      [⟨start, stopMs .both target start next ev, ev.speakerName,
        normalize ev.original ::
          (((ev.translations target).map normalize).filter
            (· ≠ normalize ev.original)).toList⟩] := by
  rw [eventCues]
  exact if_neg horiginal

/-- Every cue of an event can be written. -/
lemma clean_of_mem_eventCues (hstart : 0 ≤ start) (hc : c ∈ eventCues mode target start next ev) :
    c.Clean := by
  by_cases horiginal : normalize ev.original = []
  · rw [eventCues, if_pos horiginal] at hc
    cases hc
  by_cases hmode : mode = .both
  · subst hmode
    have hwindow := windowEnd_bounds start (windowChars .both target ev) next
    rw [eventCues_both horiginal, List.mem_singleton] at hc
    subst hc
    refine ⟨hstart, ?_, ⟨_, _, rfl, horiginal⟩, fun l hl => ?_⟩
    · exact le_trans (by omega) hwindow.1
    · have hnormal : ∃ t, l = normalize t := by
        rcases List.mem_cons.mp hl with rfl | hmem
        · exact ⟨_, rfl⟩
        · obtain ⟨t, -, rfl⟩ := Option.map_eq_some_iff.mp
            (Option.filter_eq_some_iff.mp (Option.mem_toList.mp hmem)).1
          exact ⟨t, rfl⟩
      obtain ⟨t, rfl⟩ := hnormal
      exact oneLine_of_blank_eq_space fun c hc => blank_eq_space_normalize hc
  · obtain ⟨cs, -, hcues, hmark⟩ := eventCues_eq_spread target start next hmode horiginal
    have hchunk : c.lines ∈ chunks (wrapLines (shownText mode target ev) maxLineChars) := by
      rw [← map_lines_eventCues hmode horiginal]
      exact List.mem_map_of_mem hc
    rw [hcues] at hc
    obtain ⟨hlt, hle, -⟩ := hmark.inside hc
    obtain ⟨hfirst, hplain⟩ := lines_of_mem_chunks hchunk
    exact ⟨by omega, by omega, hfirst, fun l hl => (hplain l hl).2⟩

lemma eventCues_ne_nil (start : Int) (next : Option Int) (h : Shown mode target ev) :
    ∃ c, c ∈ eventCues mode target start next ev := by
  by_cases hmode : mode = .both
  · subst hmode
    rw [eventCues_both h.1]
    exact ⟨_, List.mem_cons_self⟩
  · have hlines : (eventCues mode target start next ev).map Cue.lines =
        chunks (wrapLines (shownText mode target ev) maxLineChars) :=
      map_lines_eventCues hmode h.1
    refine List.exists_mem_of_ne_nil _ fun hnil => ?_
    rw [hnil, List.map_nil] at hlines
    exact chunks_ne_nil (wrapLines_ne_nil (h.2 hmode)) hlines.symm

/-- The speaker of a cue, and whether it has an empty line. -/
lemma lines_of_mem_eventCues (hc : c ∈ eventCues mode target start next ev) :
    Shown mode target ev ∧ c.speaker = ev.speakerName ∧
      ([] ∉ c.lines ↔ (mode = .both → (ev.translations target).map normalize ≠ some [])) := by
  by_cases horiginal : normalize ev.original = []
  · rw [eventCues, if_pos horiginal] at hc
    cases hc
  by_cases hmode : mode = .both
  · subst hmode
    rw [eventCues_both horiginal, List.mem_singleton] at hc
    subst hc
    refine ⟨⟨horiginal, fun hne => absurd rfl hne⟩, rfl, ?_⟩
    have hblank : [] ∈ normalize ev.original ::
        (((ev.translations target).map normalize).filter (· ≠ normalize ev.original)).toList ↔
        (ev.translations target).map normalize = some [] := by
      rw [List.mem_cons, or_iff_right (Ne.symm horiginal), Option.mem_toList,
        Option.filter_eq_some_iff]
      simp [Ne.symm horiginal]
    rw [hblank]
    exact ⟨fun h _ => h, fun h => h rfl⟩
  · obtain ⟨cs, -, hcues, -⟩ := eventCues_eq_spread target start next hmode horiginal
    have hchunk : c.lines ∈ chunks (wrapLines (shownText mode target ev) maxLineChars) := by
      rw [← map_lines_eventCues hmode horiginal]
      exact List.mem_map_of_mem hc
    rw [hcues] at hc
    refine ⟨⟨horiginal, fun _ hnil => ?_⟩, (mem_spread hc).1,
      fun _ hboth => absurd hboth hmode, fun _ hnil => ?_⟩
    · have hempty : wrapLines (shownText mode target ev) maxLineChars = [] := by
        rw [← wrapLines_normalize, hnil]
        rfl
      rw [hempty] at hchunk
      cases hchunk
    · exact ((lines_of_mem_chunks hchunk).2 [] hnil).1 rfl

/-- What holds of the names on all cues holds of the names of all events that are shown. -/
lemma unbroken_computeCues_iff (events : List ExportEvent) (startedAt : Timestamp)
    (mode : LangMode) (target : Text) (P : Text → Prop) :
    (∀ c ∈ computeCues events startedAt mode target, c.Unbroken ∧ P c.speaker) ↔
      ∀ ev ∈ speech events, Shown mode target ev → Writable mode target ev ∧ P ev.speakerName := by
  constructor
  · intro h ev hev hshown
    obtain ⟨i, hi⟩ := List.mem_iff_getElem?.mp hev
    obtain ⟨c, hc⟩ := eventCues_ne_nil (startMs startedAt ev)
      ((speech events)[i + 1]?.map (startMs startedAt)) hshown
    obtain ⟨⟨hline, hlines⟩, hname⟩ :=
      h c (List.mem_flatMap.mpr ⟨(ev, i), List.mem_zipIdx_iff_getElem?.mpr hi, hc⟩)
    obtain ⟨-, hspeaker, hempty⟩ := lines_of_mem_eventCues hc
    rw [hspeaker] at hline hname
    exact ⟨⟨hline, hempty.mp hlines⟩, hname⟩
  · intro h c hc
    obtain ⟨⟨ev, i⟩, hi, hmem⟩ := List.mem_flatMap.mp hc
    have hev : ev ∈ speech events := List.mem_of_getElem? (List.mem_zipIdx_iff_getElem?.mp hi)
    obtain ⟨hshown, hspeaker, hempty⟩ := lines_of_mem_eventCues hmem
    obtain ⟨hwritable, hname⟩ := h ev hev hshown
    rw [Cue.Unbroken, hspeaker]
    exact ⟨⟨hwritable.1, hempty.mpr hwritable.2⟩, hname⟩

lemma clean_of_mem_computeCues (hc : c ∈ computeCues events startedAt mode target) :
    c.Clean := by
  obtain ⟨⟨ev, i⟩, -, hmem⟩ := List.mem_flatMap.mp hc
  exact clean_of_mem_eventCues (le_max_right _ _) hmem

end Events

/-- **Subtitle files.**  The cues of an export are read back from a WebVTT file exactly when the
name of every speaker who is shown is on one line and, where both texts are shown, no translation
is blank; and from a SubRip file when, besides, no such name holds the separator. -/
theorem subtitle_files_read_back_iff (events : List ExportEvent) (startedAt : Timestamp)
    (mode : LangMode) (target : Text) :
    let cues := computeCues events startedAt mode target
    (readSrt (buildSrt cues) = some cues ↔
      ∀ ev ∈ speech events, Shown mode target ev →
        Writable mode target ev ∧ ¬ [':', ' '] <:+: ev.speakerName) ∧
    (readVtt (buildVtt cues) = some cues ↔
      ∀ ev ∈ speech events, Shown mode target ev → Writable mode target ev) := by
  intro cues
  have hclean : ∀ c ∈ cues, c.Clean := fun c hc => clean_of_mem_computeCues hc
  refine ⟨?_, ?_⟩
  · rw [readSrt_buildSrt_iff hclean]
    exact unbroken_computeCues_iff events startedAt mode target fun name => ¬ [':', ' '] <:+: name
  · rw [readVtt_buildVtt_iff hclean]
    have hall := unbroken_computeCues_iff events startedAt mode target fun _ => True
    simpa only [and_true] using hall

/-- Said by somebody whose name has an empty line in it. -/
def brokenName : ExportEvent :=
  ⟨.speech, 0, ['A', '\n', '\n', 'B'], ['e', 'n'], ['h', 'i'], fun _ => none⟩

/-- A name with an empty line in it ends the block. -/
theorem broken_name_ends_block :
    let cues := computeCues [brokenName] 0 .original []
    cues.length = 1 ∧ (blocks (buildSrt cues)).length = 2 ∧
      readSrt (buildSrt cues) ≠ some cues ∧ readVtt (buildVtt cues) ≠ some cues := by
  decide

end VoxTranslate.Transcripts.Subtitles
