import VoxTranslate.Lib.Run
import VoxTranslate.Lib.Text

/-!
# Transcripts of a client-direct pipeline (`cartesia.ts`)

A pipeline folds the recogniser's messages into a confirmed text and an interim tail.  When
nothing has come for a while the two are flushed as one segment, which is sent off to be
translated; every translation is a call of its own, and the line is shown when its answer
arrives.  Nothing keeps the answers in the order of the calls, and a tail that was flushed may be
confirmed afterwards.
-/

namespace VoxTranslate.Client

open Lib

/-- A transcript message of the recogniser. -/
structure CartesiaTranscript where
  type : Option (List Char)
  isFinal : Bool
  text : Option (List Char)
  deriving DecidableEq, Repr

/-- The confirmed text since the last flush, and the current hypothesis. -/
structure TranscriptState where
  confirmed : List Char
  interim : List Char
  deriving DecidableEq, Repr

/-- A message of another type is ignored. -/
def CartesiaTranscript.ignored (msg : CartesiaTranscript) : Bool :=
  msg.type.any fun type => type ≠ [] && type ≠ "transcript".toList

/-- A space, where both texts are there. -/
def separator (a b : List Char) : List Char := if a ≠ [] ∧ b ≠ [] then [' '] else []

def accumulate (state : TranscriptState) (msg : CartesiaTranscript) : TranscriptState :=
  if msg.ignored then state
  else
    let text := msg.text.getD []
    if msg.isFinal then ⟨ecmaTrim (state.confirmed ++ separator state.confirmed text ++ text), []⟩
    else ⟨state.confirmed, text⟩

/-- The interim line to show. -/
def liveLine (state : TranscriptState) : List Char :=
  ecmaTrim (state.confirmed ++ separator state.confirmed state.interim ++ state.interim)

/-- What is given to `onSubtitle`. -/
structure Subtitle where
  text : List Char
  interim : Bool
  original : Option (List Char)
  deriving DecidableEq, Repr

/-- The words of a text. -/
abbrev wordsOf (t : List Char) : List (List Char) := words isEcmaSpace t

/-- The words that a message confirms. -/
def CartesiaTranscript.finalWords (msg : CartesiaTranscript) : List (List Char) :=
  if msg.isFinal && !msg.ignored then wordsOf (msg.text.getD []) else []

/-- One pipeline, with what it has shown and what has been said to it. -/
structure Transcripts where
  state : TranscriptState
  /-- The idle timer is running. -/
  idleTimer : Bool
  /-- The segments whose translation has not been answered. -/
  awaited : List (List Char)
  shown : List Subtitle
  /-- The segments that were flushed, in the order spoken. -/
  segments : List (List Char)
  /-- The words that the recogniser has confirmed. -/
  finals : List (List Char)
  /-- The words of the interim tails that were flushed. -/
  tails : List (List Char)
  deriving DecidableEq, Repr

/-- A message, the idle timer, or the answer to the `i`-th of the awaited calls. -/
inductive TranscriptEvent where
  | transcript (msg : CartesiaTranscript)
  | idle
  | answer (i : Nat) (translated : Option (List Char))
  deriving DecidableEq, Repr

namespace Transcripts

def new : Transcripts := ⟨⟨[], []⟩, false, [], [], [], [], []⟩

def handleTranscript (s : Transcripts) (msg : CartesiaTranscript) : Transcripts :=
  let state := accumulate s.state msg
  let live := liveLine state
  { s with
    state := state
    idleTimer := true
    shown := if live ≠ [] then s.shown ++ [⟨live, true, none⟩] else s.shown
    finals := s.finals ++ msg.finalWords }

/-- The text that a flush sends to be translated. -/
def source (s : Transcripts) : List Char := ecmaTrim (s.state.confirmed ++ ' ' :: s.state.interim)

def flush (s : Transcripts) : Transcripts :=
  let pending := if s.source ≠ [] then [s.source] else []
  { s with
    state := ⟨[], []⟩
    idleTimer := false
    awaited := s.awaited ++ pending
    segments := s.segments ++ pending
    tails := s.tails ++ wordsOf s.state.interim }

/-- The line for an answer: without a translation it is the source. -/
def lineOf (source : List Char) (translated : Option (List Char)) : List Char :=
  ecmaTrim (translated.getD source)

def answered (s : Transcripts) (i : Nat) (source : List Char) (translated : Option (List Char)) :
    Transcripts :=
  let text := lineOf source translated
  { s with
    awaited := s.awaited.eraseIdx i
    shown := if text ≠ [] then s.shown ++ [⟨text, false, some source⟩] else s.shown }

def step (s : Transcripts) : TranscriptEvent → Option Transcripts
  | .transcript msg => some (s.handleTranscript msg)
  | .idle => if s.idleTimer then some s.flush else none
  | .answer i translated => (s.awaited[i]?).map fun source => s.answered i source translated

/-- The originals of the final lines. -/
def originals (s : Transcripts) : List (List Char) :=
  s.shown.filterMap fun line => if line.interim then none else line.original

/-- The words of the segments so far, the open one included. -/
def spoken (s : Transcripts) : List (List Char) :=
  s.segments.flatMap wordsOf ++ wordsOf s.state.confirmed

/-- The final lines are those of the segments, in their order, up to the answers that are awaited;
what was confirmed stands in them as often as it was confirmed. -/
structure Complete (s : Transcripts) : Prop where
  ordered : s.originals <+: s.segments
  once : s.originals.length + s.awaited.length = s.segments.length
  words : ∀ w ∈ s.finals, s.spoken.count w = s.finals.count w

/-- Nothing is left to flush or to answer. -/
def Settled (s : Transcripts) : Prop := s.state = ⟨[], []⟩ ∧ s.awaited = []

/-- An answer is that of the first segment without a line, and is not blank; what a flushed tail
says is not confirmed, before or after. -/
def inOrder (s : Transcripts) : TranscriptEvent → Bool
  | .transcript msg => msg.finalWords.all fun w => w ∉ s.tails
  | .idle => (wordsOf s.state.interim).all fun w => w ∉ s.finals
  | .answer i translated =>
    s.awaited[i]?.all fun source =>
      s.segments[s.originals.length]? = some source && lineOf source translated ≠ []

/-- Every word that was said stands where it was put. -/
def Conserved (s : Transcripts) : Prop :=
  ∀ w, s.spoken.count w = s.finals.count w + s.tails.count w

/-! ## Words -/

lemma wordsOf_ecmaTrim (t : List Char) : wordsOf (ecmaTrim t) = wordsOf t := words_trim t

lemma wordsOf_append_separator (a b : List Char) :
    wordsOf (a ++ separator a b ++ b) = wordsOf a ++ wordsOf b := by
  unfold separator
  split_ifs with h
  · rw [List.append_assoc, List.singleton_append]
    exact words_append_cons (by decide)
  · rw [not_and_or, not_not, not_not] at h
    rcases h with rfl | rfl <;> simp

lemma wordsOf_accumulate (state : TranscriptState) (msg : CartesiaTranscript) :
    wordsOf (accumulate state msg).confirmed = wordsOf state.confirmed ++ msg.finalWords := by
  unfold accumulate CartesiaTranscript.finalWords
  by_cases hignored : msg.ignored = true
  · simp [hignored]
  · by_cases hfinal : msg.isFinal = true
    · rw [if_neg hignored, if_pos hfinal, wordsOf_ecmaTrim, wordsOf_append_separator,
        if_pos (by simp [hignored, hfinal])]
    · simp [hignored, hfinal]

lemma wordsOf_source (s : Transcripts) :
    wordsOf s.source = wordsOf s.state.confirmed ++ wordsOf s.state.interim := by
  rw [source, wordsOf_ecmaTrim]
  exact words_append_cons (by decide)

variable {s t : Transcripts} {w : List Char}

lemma spoken_handleTranscript (s : Transcripts) (msg : CartesiaTranscript) :
    (s.handleTranscript msg).spoken = s.spoken ++ msg.finalWords := by
  simp only [spoken, handleTranscript, wordsOf_accumulate, List.append_assoc]

lemma spoken_flush (s : Transcripts) : s.flush.spoken = s.spoken ++ wordsOf s.state.interim := by
  have hpending : (if s.source ≠ [] then [s.source] else []).flatMap wordsOf =
      wordsOf s.source := by
    split_ifs with h
    · simp
    · rw [not_not] at h
      simp [h]
  simp only [spoken, flush, List.flatMap_append, hpending, wordsOf_source, words_nil,
    List.append_nil, List.append_assoc]

/-! ## One step -/

lemma originals_handleTranscript (s : Transcripts) (msg : CartesiaTranscript) :
    (s.handleTranscript msg).originals = s.originals := by
  simp only [originals, handleTranscript]
  split_ifs <;> simp

lemma originals_answered (s : Transcripts) (i : Nat) (source : List Char)
    (translated : Option (List Char)) : (s.answered i source translated).originals =
      s.originals ++ if lineOf source translated ≠ [] then [source] else [] := by
  simp only [originals, answered]
  by_cases h : lineOf source translated = [] <;> simp [h]

lemma Conserved.step {e : TranscriptEvent} (h : s.Conserved) (ht : s.step e = some t) :
    t.Conserved := by
  intro w
  have hw := h w
  cases e with
  | transcript msg =>
    cases ht
    rw [spoken_handleTranscript]
    simp only [handleTranscript, List.count_append]
    omega
  | idle =>
    obtain ⟨-, ⟨⟩⟩ := Option.ite_none_right_eq_some.mp ht
    rw [spoken_flush]
    simp only [flush, List.count_append]
    omega
  | answer i translated =>
    obtain ⟨source, -, rfl⟩ := Option.map_eq_some_iff.mp ht
    exact hw

/-- While every word stands where it was put, a word that was confirmed stands there as often as it
was confirmed unless a flushed tail has said it as well. -/
lemma Conserved.words_iff (h : s.Conserved) :
    (∀ w ∈ s.finals, s.spoken.count w = s.finals.count w) ↔ ∀ w ∈ s.finals, w ∉ s.tails := by
  refine forall₂_congr fun w _ => ?_
  rw [h w, ← List.count_eq_zero]
  omega

/-- The originals stay the first segments exactly when the next one is the next segment. -/
lemma ordered_append_iff {a b : List (List Char)} {c : List Char} (h : a <+: b) :
    a ++ [c] <+: b ↔ b[a.length]? = some c := by
  obtain ⟨rest, rfl⟩ := h
  rw [List.prefix_append_right_inj, List.getElem?_append_right le_rfl, Nat.sub_self]
  cases rest with
  | nil => simp
  | cons d rest => simp [eq_comm]

/-- **A step keeps the lines complete exactly when it is in order.** -/
lemma complete_step_iff {e : TranscriptEvent} (hconserved : s.Conserved) (h : s.Complete)
    (ht : s.step e = some t) : t.Complete ↔ s.inOrder e = true := by
  have hapart := hconserved.words_iff.mp h.words
  have hiff := (hconserved.step ht).words_iff
  cases e with
  | transcript msg =>
    cases ht
    have horiginals := originals_handleTranscript s msg
    constructor
    · intro hcomplete
      rw [inOrder, List.all_eq_true]
      intro w hw
      exact decide_eq_true (hiff.mp hcomplete.words w (List.mem_append_right _ hw))
    · intro hguard
      rw [inOrder, List.all_eq_true] at hguard
      refine ⟨horiginals ▸ h.ordered, horiginals ▸ h.once, hiff.mpr fun w hw => ?_⟩
      rcases List.mem_append.mp hw with hw | hw
      · exact hapart w hw
      · exact of_decide_eq_true (hguard w hw)
  | idle =>
    obtain ⟨-, ⟨⟩⟩ := Option.ite_none_right_eq_some.mp ht
    constructor
    · intro hcomplete
      rw [inOrder, List.all_eq_true]
      intro w hw
      refine decide_eq_true fun hfinal => ?_
      exact hiff.mp hcomplete.words w hfinal (List.mem_append_right _ hw)
    · intro hguard
      rw [inOrder, List.all_eq_true] at hguard
      refine ⟨h.ordered.trans (List.prefix_append _ _), ?_, hiff.mpr fun w hw hmem => ?_⟩
      · have honce := h.once
        simp only [originals, flush, List.length_append] at honce ⊢
        omega
      · rcases List.mem_append.mp hmem with hmem | hmem
        · exact hapart w hw hmem
        · exact of_decide_eq_true (hguard w hmem) hw
  | answer i translated =>
    obtain ⟨source, hsource, rfl⟩ := Option.map_eq_some_iff.mp ht
    have horiginals := originals_answered s i source translated
    have hi : i < s.awaited.length := (List.getElem?_eq_some_iff.mp hsource).1
    have honce := h.once
    have hawaited : (s.answered i source translated).awaited.length = s.awaited.length - 1 :=
      List.length_eraseIdx_of_lt hi
    have hsegments : (s.answered i source translated).segments = s.segments := rfl
    have hkept : (∀ w ∈ (s.answered i source translated).finals, _) := h.words
    simp only [inOrder, hsource, Option.all_some, Bool.and_eq_true, decide_eq_true_eq]
    constructor
    · intro hcomplete
      have hlength := hcomplete.once
      rw [hawaited, hsegments, horiginals, List.length_append] at hlength
      have hline : lineOf source translated ≠ [] := by
        intro hnil
        simp only [hnil, ne_eq, not_true_eq_false, if_false, List.length_nil] at hlength
        omega
      have hordered := hcomplete.ordered
      rw [horiginals, if_pos hline, hsegments] at hordered
      exact ⟨(ordered_append_iff h.ordered).mp hordered, hline⟩
    · rintro ⟨hnext, hline⟩
      rw [if_pos hline] at horiginals
      refine ⟨?_, ?_, h.words⟩
      · rw [horiginals, hsegments]
        exact (ordered_append_iff h.ordered).mpr hnext
      · rw [horiginals, hawaited, hsegments, List.length_append, List.length_singleton]
        omega

/-- Once nothing is awaited, complete lines are the segments themselves. -/
lemma Complete.settled (h : s.Complete) (hsettled : s.Settled) : s.originals = s.segments ∧
    ∀ w ∈ s.finals, (s.originals.flatMap wordsOf).count w = s.finals.count w := by
  have honce := h.once
  rw [hsettled.2, List.length_nil, Nat.add_zero] at honce
  have heq := h.ordered.eq_of_length honce
  refine ⟨heq, fun w hw => ?_⟩
  have hopen : s.spoken = s.segments.flatMap wordsOf := by
    rw [spoken, hsettled.1]
    exact List.append_nil _
  rw [heq, ← hopen, h.words w hw]

lemma complete_new : new.Complete := ⟨List.prefix_refl _, rfl, by simp [new]⟩

lemma conserved_new : new.Conserved := fun _ => rfl

/-- **Lines in the order spoken.**  Every state of a run has complete lines exactly when the run is
in order; settled, complete lines are the segments, and hold every confirmed word once for each time
it was confirmed. -/
theorem complete_iff_inOrder (es : List TranscriptEvent) (t : Transcripts)
    (h : Run (ofPartial step) new es t) :
    (Run (Guarded (ofPartial step) fun s e => s.inOrder e = true) new es t ↔
      ∀ pre u, pre <+: es → Run (ofPartial step) new pre u → u.Complete ∧
        (u.Settled → u.originals = u.segments ∧
          ∀ w ∈ u.finals, (u.originals.flatMap wordsOf).count w = u.finals.count w)) := by
  refine Run.guarded_iff_prefixes (I := fun s => s.Conserved ∧ s.Complete) ?_ ?_ ?_ h
    ⟨conserved_new, complete_new⟩
  · rintro s e u ⟨hconserved, hcomplete⟩ hguard hstep
    exact ⟨hconserved.step hstep, (complete_step_iff hconserved hcomplete hstep).mpr hguard⟩
  · rintro s ⟨-, hcomplete⟩
    exact ⟨hcomplete, hcomplete.settled⟩
  · rintro s e u ⟨hconserved, hcomplete⟩ hguard hstep ⟨hu, -⟩
    rw [(complete_step_iff hconserved hcomplete hstep).mp hu] at hguard
    cases hguard

/-- A confirmed message of one word. -/
def confirms (w : List Char) : TranscriptEvent := .transcript ⟨none, true, some w⟩

/-- Two segments, answered in their order. -/
def twoSegments : List TranscriptEvent :=
  [confirms ['s', 'i'], .idle, confirms ['n', 'o'], .idle, .answer 0 none, .answer 0 none]

theorem complete_iff_inOrder_sample : ∃ t, Run (ofPartial step) new twoSegments t ∧
    t.Settled ∧ t.originals = [['s', 'i'], ['n', 'o']] ∧ t.Complete := by
  have hrun : ∃ t, Run (Guarded (ofPartial step) fun s e => s.inOrder e = true) new twoSegments t ∧
      t.state = ⟨[], []⟩ ∧ t.awaited = [] ∧ t.originals = [['s', 'i'], ['n', 'o']] :=
    Run.exists_guarded_of_decide (by decide)
  obtain ⟨t, hrun, hstate, hawaited, horiginals⟩ := hrun
  have hcomplete := (complete_iff_inOrder twoSegments t hrun.ofGuarded).mp hrun twoSegments t
    (List.prefix_refl _) hrun.ofGuarded
  exact ⟨t, hrun.ofGuarded, ⟨hstate, hawaited⟩, horiginals, hcomplete.1⟩

/-- The answer to the second segment comes first; and a tail that was flushed is confirmed
afterwards. -/
theorem answers_overtake :
    (∃ t, Run (ofPartial step) new [confirms ['s', 'i'], .idle, confirms ['n', 'o'], .idle,
        .answer 1 none, .answer 0 none] t ∧
      t.state = ⟨[], []⟩ ∧ t.awaited = [] ∧ t.segments = [['s', 'i'], ['n', 'o']] ∧
        t.originals = [['n', 'o'], ['s', 'i']]) ∧
    ∃ t, Run (ofPartial step) new [.transcript ⟨none, false, some ['s', 'i']⟩, .idle,
        confirms ['s', 'i'], .idle, .answer 0 none, .answer 0 none] t ∧
      t.state = ⟨[], []⟩ ∧ t.awaited = [] ∧ t.finals = [['s', 'i']] ∧
        t.originals = [['s', 'i'], ['s', 'i']] :=
  ⟨Run.exists_of_decide (by decide), Run.exists_of_decide (by decide)⟩

end Transcripts

end VoxTranslate.Client
