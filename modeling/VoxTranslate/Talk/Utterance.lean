import VoxTranslate.Talk.Direction
import Mathlib.Data.List.Perm.Subperm

/-!
# One utterance

Both translation directions run at once, so every sentence comes back twice, and one of the two
is an echo of the speaker.  An `Utterance` decides which frames are real: it holds the audio and
parks the finals of both sides until it has a direction, and hands out one side only.
-/

namespace VoxTranslate.Talk

open Lib Engine

/-- The messages the browser is sent, as far as the gate tells them apart. -/
inductive ServerMessage where
  | translatedAudio (speakerId : String) (lang : Lang) (seq : Nat) (pcm16B64 : String)
  | subtitleInterim (speakerId speakerName : String) (text : Text) (lang : Lang)
      (original : Option Text)
  | subtitleFinal (speakerId speakerName : String) (original : Text) (lang : Lang)
      (translations : List (Lang × Text))
  | talkDirection (spoken target : Lang)
  | error (message : String) (code : Option String)
  /-- Any other message, as it is serialized. -/
  | other (json : String)
  deriving DecidableEq, Repr

/-- The kinds of frame this layer treats differently. -/
inductive FrameKind where
  | subtitleInterim | subtitleFinal | translatedAudio | other
  deriving DecidableEq, Repr

/-- `FrameKind::classify`, by the message's tag. -/
def FrameKind.classify : ServerMessage → FrameKind
  | .translatedAudio .. => translatedAudio
  | .subtitleInterim .. => subtitleInterim
  | .subtitleFinal .. => subtitleFinal
  | _ => other

/-- `original_text`: the original words of a subtitle. -/
def ServerMessage.originalText : ServerMessage → Option Text
  | .subtitleInterim _ _ _ _ (some original) | .subtitleFinal _ _ original _ _ =>
    if original.trim = [] then none else some original.trim
  | _ => none

lemma ServerMessage.originalText_eq_some {m : ServerMessage} {text : Text}
    (h : m.originalText = some text) : text.trim = text ∧ text ≠ [] := by
  have hcut : ∀ original : Text, (if original.trim = [] then none else some original.trim) =
      some text → text.trim = text ∧ text ≠ [] := by
    intro original heq
    split_ifs at heq with hblank
    obtain rfl := Option.some_inj.mp heq
    exact ⟨original.trim_trim, hblank⟩
  cases m with
  | subtitleInterim _ _ _ _ original =>
    cases original with
    | none => cases h
    | some original => exact hcut original h
  | subtitleFinal _ _ original => exact hcut original h
  | translatedAudio | talkDirection | error | other => cases h

/-- A frame on the channel of one of the two listeners.  Which sentence it belongs to and when it
arrived is for the reader only: the code compares messages. -/
structure Frame where
  msg : ServerMessage
  /-- The language of the channel. -/
  lang : Lang
  sentence : Nat
  arrival : Nat
  deriving DecidableEq, Repr

abbrev Frame.kind (f : Frame) : FrameKind := .classify f.msg

/-- What to do with a frame. -/
inductive Outcome where
  | send (frames : List Frame)
  | hold
  deriving DecidableEq, Repr

def Outcome.frames : Outcome → List Frame
  | send frames => frames
  | hold => []

/-- `MAX_HELD_FRAMES`. -/
def maxHeldFrames : Nat := 100

/-- `RESOLVE_STEP_CHARS`: characters that must arrive before the next classification. -/
def resolveStepChars : Nat := 8

structure Utterance where
  userLang : Lang
  otherLang : Lang
  /-- Latched once committed. -/
  direction : Direction
  /-- The original transcript, as last reported. -/
  original : Text
  /-- How long it was at the last classification. -/
  resolvedAtLen : Nat
  /-- Translated audio waiting for a direction. -/
  heldUser : List Frame
  heldOther : List Frame
  /-- The last final that was forwarded. -/
  lastFinal : Option ServerMessage
  /-- The original of the last sentence that was forwarded. -/
  spokenOriginal : Option Text
  /-- The sentence was forwarded, and its speech may still be arriving. -/
  draining : Bool
  /-- Finals that arrived before the direction was known. -/
  pendingUser : Option Frame
  pendingOther : Option Frame
  deriving DecidableEq, Repr

namespace Utterance

def new (userLang otherLang : Lang) : Utterance where
  userLang
  otherLang
  direction := .unknown
  original := []
  resolvedAtLen := 0
  heldUser := []
  heldOther := []
  lastFinal := none
  spokenOriginal := none
  draining := false
  pendingUser := none
  pendingOther := none

/-- The language whose output is spoken. -/
def target (u : Utterance) : Option Lang := u.direction.target u.userLang u.otherLang

def isTarget (u : Utterance) (lang : Lang) : Bool := u.target = some lang

/-- The losing session's copy of the sentence that was just forwarded. -/
def isTrailingEcho (u : Utterance) (lang : Lang) (text : Text) : Bool :=
  u.original = [] && u.spokenOriginal = some text.trim && !u.isTarget lang

def hasPendingFinal (u : Utterance) : Bool := u.pendingUser.isSome || u.pendingOther.isSome

/-- New words end the drain of the sentence before. -/
def endDrain (u : Utterance) : Utterance :=
  if u.draining then
    { u with draining := false, direction := .unknown, heldUser := [], heldOther := [] }
  else u

/-- Record the original transcript; the flag says whether it is worth another classification. -/
def noteOriginal (u : Utterance) (lang : Lang) (text : Text) : Utterance × Bool :=
  let text := text.trim
  if text = [] ∨ text = u.original then (u, false)
  else if u.isTrailingEcho lang text then (u, false)
  else
    let u := u.endDrain
    let revised := !u.original.isPrefixOf text
    let u := { u with original := text }
    if u.direction ≠ .unknown then (u, false)
    else if revised ∨ u.resolvedAtLen + resolveStepChars ≤ text.length then
      ({ u with resolvedAtLen := text.length }, true)
    else (u, false)

/-- Latch a direction and release the audio of the winning side; `none` when nothing latched. -/
def commit (u : Utterance) (direction : Direction) : Option (List Frame × Utterance) :=
  if direction = .unknown ∨ u.direction ≠ .unknown then none
  else
    let winner := if direction = .userToOther then u.heldOther else u.heldUser
    some (winner, { u with direction, heldUser := [], heldOther := [] })

/-- Hold one more frame; beyond the bound the oldest is dropped. -/
def push (held : List Frame) (frame : Frame) : List Frame :=
  (if maxHeldFrames ≤ held.length then held.tail else held) ++ [frame]

def onAudio (u : Utterance) (frame : Frame) : Utterance × Outcome :=
  if u.direction = .unknown then
    if frame.lang = u.userLang then ({ u with heldUser := push u.heldUser frame }, .hold)
    else ({ u with heldOther := push u.heldOther frame }, .hold)
  else if u.isTarget frame.lang then (u, .send [frame])
  else (u, .hold)

def onInterim (u : Utterance) (frame : Frame) : Utterance × Outcome :=
  if u.direction = .unknown then (u, .hold)
  else if u.isTarget frame.lang then (u, .send [frame])
  else (u, .hold)

/-- The sentence was forwarded: clear everything about it but the direction. -/
def finishSentence (u : Utterance) : Utterance :=
  { u with
    original := []
    spokenOriginal := if u.original = [] then none else some u.original
    pendingUser := none
    pendingOther := none
    resolvedAtLen := 0
    heldUser := []
    heldOther := []
    draining := u.direction ≠ .unknown }

def onFinal (u : Utterance) (frame : Frame) : Utterance × Outcome :=
  if u.direction = .unknown then
    -- parked on its own side, where the first copy wins
    if frame.lang = u.userLang then ({ u with pendingUser := u.pendingUser.or (some frame) }, .hold)
    else ({ u with pendingOther := u.pendingOther.or (some frame) }, .hold)
  else if !u.isTarget frame.lang then (u, .hold)
  else if u.lastFinal = some frame.msg then (u, .hold)
  else (finishSentence { u with lastFinal := some frame.msg }, .send [frame])

/-- Route one frame. -/
def onFrame (u : Utterance) (frame : Frame) : Utterance × Outcome :=
  match frame.kind with
  | .translatedAudio => u.onAudio frame
  | .subtitleFinal => u.onFinal frame
  | .subtitleInterim => u.onInterim frame
  | .other => (u, .send [frame])

/-- Release a parked final of the winning side; both parks are cleared. -/
def takePendingFinal (u : Utterance) : Option Frame × Utterance :=
  let cleared := { u with pendingUser := none, pendingOther := none }
  match u.target with
  | none => (none, cleared)
  | some target =>
    match if target = u.userLang then u.pendingUser else u.pendingOther with
    | none => (none, cleared)
    | some frame =>
      if u.lastFinal = some frame.msg then (none, cleared)
      else (some frame, { cleared with lastFinal := some frame.msg })

def resetKeepingLastFinal (u : Utterance) : Utterance :=
  { u with
    draining := false
    pendingUser := none
    pendingOther := none
    direction := .unknown
    original := []
    resolvedAtLen := 0
    heldUser := []
    heldOther := [] }

/-- Start the next utterance. -/
def reset (u : Utterance) : Utterance :=
  { u.resetKeepingLastFinal with lastFinal := none, spokenOriginal := none }

variable {u u' : Utterance} {lang : Lang} {text : Text} {d : Direction} {f : Frame}

/-- The finals that are parked. -/
def parked (u : Utterance) : List Frame := u.pendingUser.toList ++ u.pendingOther.toList

lemma isTarget_iff : u.isTarget lang = true ↔ u.target = some lang := decide_eq_true_iff

lemma target_eq_none_iff : u.target = none ↔ u.direction = .unknown := Direction.target_eq_none_iff

lemma reset_eq (u : Utterance) : u.reset = new u.userLang u.otherLang := rfl

lemma commit_eq_some {flushed : List Frame} : u.commit d = some (flushed, u') ↔
    (d ≠ .unknown ∧ u.direction = .unknown) ∧
      flushed = (if d = .userToOther then u.heldOther else u.heldUser) ∧
      u' = { u with direction := d, heldUser := [], heldOther := [] } := by
  rw [commit]
  by_cases h : d = .unknown ∨ u.direction ≠ .unknown
  · rw [if_pos h]
    refine iff_of_false (by simp) ?_
    rintro ⟨⟨hd, hdirection⟩, -⟩
    exact h.elim hd (absurd hdirection)
  · rw [if_neg h, Option.some_inj, Prod.mk.injEq]
    push Not at h
    constructor
    · rintro ⟨rfl, rfl⟩
      exact ⟨h, rfl, rfl⟩
    · rintro ⟨-, rfl, rfl⟩
      exact ⟨rfl, rfl⟩

/-- The final that a verdict may release: the one parked on the side that is spoken, unless it
was the last one forwarded. -/
lemma takePendingFinal_cases (u : Utterance) :
    u.takePendingFinal = (none, { u with pendingUser := none, pendingOther := none }) ∨
      ∃ f lang, u.target = some lang ∧
        (if lang = u.userLang then u.pendingUser else u.pendingOther) = some f ∧
        u.lastFinal ≠ some f.msg ∧
        u.takePendingFinal = (some f, { u with
          pendingUser := none, pendingOther := none, lastFinal := some f.msg }) := by
  rw [takePendingFinal]
  split
  · exact .inl rfl
  · next lang htarget =>
    split
    · exact .inl rfl
    · next f hf =>
      split_ifs with hlast
      · exact .inl rfl
      · exact .inr ⟨f, lang, htarget, hf, hlast, rfl⟩

/-- The slot whose final is spoken. -/
def spokenSlot (u : Utterance) (lang : Lang) : Option Frame :=
  if lang = u.userLang then u.pendingUser else u.pendingOther

lemma takePendingFinal_fst (htarget : u.target = some lang) :
    u.takePendingFinal.1 = (u.spokenSlot lang).filter fun f => u.lastFinal ≠ some f.msg := by
  rw [takePendingFinal, htarget, spokenSlot]
  split
  · next h => cases h
  · next lang' h =>
    obtain rfl := Option.some_inj.mp h
    split
    · next hslot => rw [hslot, Option.filter_none]
    · next f hslot =>
      rw [hslot]
      split_ifs with hlast <;> simp [Option.filter, hlast]

/-! ## What is heard -/

lemma isTrailingEcho_trim : u.isTrailingEcho lang text.trim = u.isTrailingEcho lang text := by
  rw [isTrailingEcho, isTrailingEcho, Text.trim_trim]

lemma noteOriginal_of_isTrailingEcho (h : u.isTrailingEcho lang text = true) :
    u.noteOriginal lang text = (u, false) := by
  rw [← isTrailingEcho_trim] at h
  simp only [noteOriginal, h, if_true, ite_self]

/-- An utterance that has just heard some words. -/
structure Heard (u : Utterance) (text : Text) (u' : Utterance) : Prop where
  original : u'.original = text
  draining : u'.draining = false
  direction : u'.direction = if u.draining then .unknown else u.direction
  lastFinal : u'.lastFinal = u.lastFinal

lemma noteOriginal_heard (htext : text.trim ≠ []) (hecho : u.isTrailingEcho lang text = false)
    (hquiet : u.draining = true → u.original = []) :
    u.Heard text.trim (u.noteOriginal lang text).1 := by
  have hend : u.Heard u.original u.endDrain := by
    rw [endDrain]
    split_ifs with hdraining
    · exact ⟨rfl, rfl, by rw [if_pos hdraining], rfl⟩
    · exact ⟨rfl, Bool.not_eq_true _ ▸ hdraining, by rw [if_neg hdraining], rfl⟩
  rw [← isTrailingEcho_trim] at hecho
  by_cases hsame : text.trim = u.original
  · have hdraining : u.draining = false := by
      by_contra h
      exact htext (hsame.trans (hquiet (Bool.not_eq_false _ ▸ h)))
    have hkept : (u.noteOriginal lang text).1 = u := by
      simp only [noteOriginal, hsame, or_true, if_true]
    rw [hkept]
    exact ⟨hsame.symm, hdraining, by rw [hdraining]; rfl, rfl⟩
  · simp only [noteOriginal, htext, hsame, or_self, if_false, hecho, Bool.false_eq_true]
    split_ifs <;> exact ⟨rfl, hend.draining, hend.direction, hend.lastFinal⟩

/-! ## What is routed -/

/-- An operation hands out the frame that arrives, or nothing. -/
lemma mem_frames_onFrame {g : Frame} (h : g ∈ (u.onFrame f).2.frames) : g = f := by
  rw [onFrame] at h
  split at h
  · rw [onAudio] at h
    split_ifs at h <;> simp_all [Outcome.frames]
  · rw [onFinal] at h
    split_ifs at h <;> simp_all [Outcome.frames]
  · rw [onInterim] at h
    split_ifs at h <;> simp_all [Outcome.frames]
  · simpa [Outcome.frames] using h

/-- Only a final changes more than what is held. -/
lemma onFrame_of_ne_final (h : f.kind ≠ .subtitleFinal) :
    ∃ heldUser heldOther, (u.onFrame f).1 = { u with heldUser, heldOther } := by
  rw [onFrame]
  split
  · rw [onAudio]
    split_ifs <;> exact ⟨_, _, rfl⟩
  · next hkind => exact absurd hkind h
  · rw [onInterim]
    split_ifs <;> exact ⟨_, _, rfl⟩
  · exact ⟨_, _, rfl⟩

/-! ## What is parked -/

lemma hasPendingFinal_iff : u.hasPendingFinal = true ↔ u.parked ≠ [] := by
  rw [hasPendingFinal, parked]
  cases u.pendingUser <;> cases u.pendingOther <;> simp

lemma hasPendingFinal_eq_false : u.hasPendingFinal = false ↔ u.parked = [] := by
  rw [← Bool.not_eq_true, hasPendingFinal_iff, not_not]

@[simp] lemma parked_endDrain (u : Utterance) : u.endDrain.parked = u.parked := by
  rw [endDrain]
  split_ifs <;> rfl

@[simp] lemma parked_noteOriginal (u : Utterance) (lang : Lang) (text : Text) :
    (u.noteOriginal lang text).1.parked = u.parked := by
  simp only [noteOriginal]
  split_ifs <;> first | rfl | exact u.parked_endDrain

/-- Only a final is parked, and only when it arrives. -/
lemma mem_parked_onFrame {g : Frame} (h : g ∈ (u.onFrame f).1.parked) : g ∈ u.parked ∨ g = f := by
  have hslot : ∀ slot : Option Frame, g ∈ (slot.or (some f)).toList → g ∈ slot.toList ∨ g = f := by
    intro slot hmem
    cases slot with
    | none => exact .inr (by simpa using hmem)
    | some f' => exact .inl hmem
  rw [onFrame] at h
  split at h
  · rw [onAudio] at h
    split_ifs at h <;> exact .inl h
  · rw [onFinal] at h
    split_ifs at h
    · rcases List.mem_append.mp h with h | h
      · exact (hslot _ h).imp (List.mem_append_left _) id
      · exact .inl (List.mem_append_right _ h)
    · rcases List.mem_append.mp h with h | h
      · exact .inl (List.mem_append_left _ h)
      · exact (hslot _ h).imp (List.mem_append_right _) id
    · exact .inl h
    · exact .inl h
    · exact absurd h List.not_mem_nil
  · rw [onInterim] at h
    split_ifs at h <;> exact .inl h
  · exact .inl h

end Utterance

end VoxTranslate.Talk
