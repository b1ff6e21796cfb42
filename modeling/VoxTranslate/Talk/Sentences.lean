import VoxTranslate.Talk.EchoSafety
import VoxTranslate.Talk.Verdicts

/-!
# Every sentence is sent once

Both sessions finalise every sentence, in any order and as often as they like, and every question
is answered truly.  The target side's final is then sent exactly once, provided that sentences
keep out of each other's way: nothing of the next one is heard while one is parked or asked
about, and a final that comes again is still remembered.
-/

namespace VoxTranslate.Talk

open Lib Engine

/-- What is really said: the direction of every sentence. -/
structure Speech where
  dir : Nat → Direction
  known : ∀ k, dir k ≠ .unknown

namespace Speech

/-- The frame is a final of the side that its sentence is to be spoken on. -/
def isTarget (sp : Speech) (r : Resolver) (f : Frame) : Bool :=
  f.kind = .subtitleFinal && (sp.dir f.sentence).target r.userLang r.otherLang = some f.lang

/-- What is sent is such a final, of sentence `k`. -/
def isCopy (sp : Speech) (r : Resolver) (k : Nat) : Outgoing → Bool
  | .relay f => sp.isTarget r f && f.sentence = k
  | .own _ => false

/-- Every verdict comes back with the direction of the sentence it was asked about, and nobody
hangs up. -/
def answersTruly (sp : Speech) : TalkAction → Bool
  | .frame _ => true
  | .verdict q (.ok resolution) => resolution.direction = sp.dir q.sentence
  | .verdict _ (.err _) | .close => false

end Speech

namespace Conversation

variable (sp : Speech) (r : Resolver)

/-- How often the target side's final of sentence `k` was sent. -/
def copies (s : Conversation) (k : Nat) : Nat := s.sent.countP (sp.isCopy r k)

/-- The sentence whose words the utterance heard last. -/
def about (s : Conversation) : Option Nat := s.words.head?.map Frame.sentence

/-- The words the utterance hears next to others are of the same sentence. -/
def hearsInTurn (s : Conversation) (f : Frame) (text : Text) : Bool :=
  let u := s.gate.utterance
  let noted := (u.noteOriginal f.lang text).1
  let hint := r.resolveLocal noted.original
  -- nothing of another sentence is parked, asked about or being spoken
  (u.parked.all fun p => p.sentence = f.sentence) &&
  (u.direction ≠ .unknown ||
    s.inFlight.all fun q => q.generation ≠ s.gate.generation || q.sentence = f.sentence) &&
  (u.direction = .unknown || u.draining || u.direction = sp.dir f.sentence) &&
  -- the script is right where it decides, and does not decide over a parked final
  (noted.direction ≠ .unknown || hint = .unknown || (hint = sp.dir f.sentence && u.parked = []))

/-- A target side's final that is new is heard and is no repeat; one that was sent is remembered. -/
def recalls (s : Conversation) (f : Frame) : Bool :=
  !sp.isTarget r f ||
    if s.copies sp r f.sentence = 0 then s.hears f && s.gate.utterance.lastFinal ≠ some f.msg
    else !s.hears f || s.gate.utterance.lastFinal = some f.msg

/-- The condition on the frames; no answer is out for as long as it takes the generation to wrap
around. -/
def inTurn (s : Conversation) (a : TalkAction) : Bool :=
  (s.inFlight.all fun q => q.generation ≠ s.gate.generation + 1) &&
    match a with
    | .frame f =>
      match f.msg.originalText with
      | none => f.kind ≠ .subtitleFinal
      | some text => (!s.hears f || s.hearsInTurn sp r f text) && s.recalls sp r f
    | _ => true

/-- The invariant of sentences that take turns. -/
structure InOrder (s : Conversation) : Prop where
  tidy : s.gate.utterance.Tidy
  langs : s.gate.utterance.userLang = r.userLang ∧ s.gate.utterance.otherLang = r.otherLang
  quiet : s.gate.utterance.draining = true → s.gate.utterance.original = []
  /-- The direction is that of the sentence heard last. -/
  own : s.gate.utterance.direction ≠ .unknown →
    ∃ k, s.about = some k ∧ s.gate.utterance.direction = sp.dir k
  /-- What is parked is of that sentence too, and has no direction yet. -/
  waits : ∀ p ∈ s.gate.utterance.parked,
    s.gate.utterance.direction = .unknown ∧ s.about = some p.sentence
  /-- So is what may still be decided. -/
  asked : s.gate.utterance.direction = .unknown →
    ∀ q ∈ s.inFlight, q.generation = s.gate.generation → s.about = some q.sentence
  drained : s.gate.utterance.draining = true →
    ∀ q ∈ s.inFlight, q.generation ≠ s.gate.generation
  /-- Whatever is parked will be decided. -/
  answer : s.gate.utterance.parked ≠ [] → ∃ q ∈ s.inFlight, q.generation = s.gate.generation
  once : ∀ k, s.copies sp r k ≤ 1
  /-- A final that is parked was not sent yet, or is remembered. -/
  again : ∀ p ∈ s.gate.utterance.parked, sp.isTarget r p = true →
    (s.copies sp r p.sentence = 0 ∧ s.gate.utterance.lastFinal ≠ some p.msg) ∨
      (s.copies sp r p.sentence = 1 ∧ s.gate.utterance.lastFinal = some p.msg)
  /-- A final that arrived was sent, or is parked. -/
  kept : ∀ f ∈ s.finals, sp.isTarget r f = true → s.copies sp r f.sentence = 1 ∨
    ∃ p ∈ s.gate.utterance.parked, p.sentence = f.sentence ∧ sp.isTarget r p = true

variable {sp r} {s s' : Conversation} {f : Frame} {text : Text}

lemma init_inOrder (sourceId : String) : (init r sourceId).InOrder sp r := by
  refine ⟨Utterance.new_tidy _ _, ⟨rfl, rfl⟩, ?_, ?_, ?_, ?_, ?_, ?_, ?_, ?_, ?_⟩ <;>
    simp [init, Gate.new, Utterance.new, Utterance.parked, copies]

/-! ## A frame, in two halves -/

/-- The words of a frame are heard. -/
def afterHear (r : Resolver) (s : Conversation) (f : Frame) (text : Text) : Conversation :=
  { s with
    gate := (s.gate.hear r f text).gate
    inFlight := s.inFlight ++ (s.gate.hear r f text).asked
    sent := s.sent ++ (s.gate.hear r f text).sent
    words := s.wordsAfter f }

/-- The frame itself is routed. -/
def afterDeliver (s : Conversation) (f : Frame) : Conversation :=
  { s with
    gate := (s.gate.deliver f).gate
    inFlight := s.inFlight ++ (s.gate.deliver f).asked
    sent := s.sent ++ (s.gate.deliver f).sent
    arrivals := s.arrivals + 1
    finals := if f.kind = .subtitleFinal then f :: s.finals else s.finals }

lemma routeFrame_of_words (htext : f.msg.originalText = some text)
    (hrouted : ¬ (f.kind = .subtitleFinal ∧ s.gate.utterance.isTrailingEcho f.lang text = true)) :
    s.routeFrame r f = (s.afterHear r f text).afterDeliver f := by
  simp only [routeFrame, Gate.routeFrame, htext, if_neg hrouted, afterHear, afterDeliver,
    List.append_assoc]

lemma routeFrame_of_none (htext : f.msg.originalText = none) :
    s.routeFrame r f = s.afterDeliver f := by
  have hwords : s.wordsAfter f = s.words := by
    rw [wordsAfter, hears, htext]
    rfl
  simp only [routeFrame, Gate.routeFrame, htext, afterDeliver, hwords]

/-! ## What is sent -/

/-- Nothing of it is a final that its sentence is spoken with. -/
def NoCopy (sp : Speech) (r : Resolver) (l : List Outgoing) : Prop :=
  ∀ m ∈ l, ∀ k, sp.isCopy r k m = false

lemma noCopy_own (l : List ServerMessage) : NoCopy sp r (l.map .own) := by
  intro m hm k
  obtain ⟨_, -, rfl⟩ := List.mem_map.mp hm
  rfl

lemma noCopy_relay {l : List Frame} (h : ∀ f ∈ l, f.kind ≠ .subtitleFinal) :
    NoCopy sp r (l.map .relay) := by
  intro m hm k
  obtain ⟨f, hf, rfl⟩ := List.mem_map.mp hm
  simp [Speech.isCopy, Speech.isTarget, h f hf]

lemma noCopy_emitDirection (d : Direction) : NoCopy sp r (emitDirection r d) := by
  cases d with
  | userToOther => exact noCopy_own [.talkDirection r.userLang r.otherLang]
  | otherToUser => exact noCopy_own [.talkDirection r.otherLang r.userLang]
  | unknown => exact noCopy_own []

lemma NoCopy.append {l l' : List Outgoing} (h : NoCopy sp r l) (h' : NoCopy sp r l') :
    NoCopy sp r (l ++ l') := by
  intro m hm
  exact (List.mem_append.mp hm).elim (h m) (h' m)

/-- Latching a direction sends an announcement and audio. -/
lemma noCopy_commit {u u' : Utterance} {d : Direction} {flushed : List Frame} (h : u.Tidy)
    (hcommit : u.commit d = some (flushed, u')) :
    NoCopy sp r (emitDirection r d ++ flushed.map .relay) := by
  refine (noCopy_emitDirection d).append (noCopy_relay fun f hf => ?_)
  simp [h.flushed_audio hcommit f hf]

lemma NoCopy.countP {l : List Outgoing} (h : NoCopy sp r l) (k : Nat) :
    l.countP (sp.isCopy r k) = 0 := by
  rw [List.countP_eq_zero]
  intro m hm
  rw [h m hm k]
  exact Bool.false_ne_true

lemma copies_append {l : List Outgoing} (hsent : s'.sent = s.sent ++ l) (hl : NoCopy sp r l)
    (k : Nat) : s'.copies sp r k = s.copies sp r k := by
  rw [copies, hsent, List.countP_append, hl.countP k, Nat.add_zero, copies]

/-- Steps that decide, park and release nothing. -/
lemma InOrder.congr (h : s.InOrder sp r) (htidy : s'.gate.utterance.Tidy)
    (hlangs : s'.gate.utterance.userLang = s.gate.utterance.userLang ∧
      s'.gate.utterance.otherLang = s.gate.utterance.otherLang)
    (hdirection : s'.gate.utterance.direction = s.gate.utterance.direction)
    (hdraining : s'.gate.utterance.draining = s.gate.utterance.draining)
    (horiginal : s'.gate.utterance.original = s.gate.utterance.original)
    (hlast : s'.gate.utterance.lastFinal = s.gate.utterance.lastFinal)
    (hparked : s'.gate.utterance.parked = s.gate.utterance.parked)
    (hgeneration : s'.gate.generation = s.gate.generation) (hflight : s'.inFlight = s.inFlight)
    (habout : s'.about = s.about) (hfinals : s'.finals = s.finals)
    (hcopies : ∀ k, s'.copies sp r k = s.copies sp r k) : s'.InOrder sp r where
  tidy := htidy
  langs := ⟨hlangs.1.trans h.langs.1, hlangs.2.trans h.langs.2⟩
  quiet := by
    rw [hdraining, horiginal]
    exact h.quiet
  own := by
    rw [hdirection, habout]
    exact h.own
  waits := by
    rw [hparked, hdirection, habout]
    exact h.waits
  asked := by
    rw [hdirection, hflight, hgeneration, habout]
    exact h.asked
  drained := by
    rw [hdraining, hflight, hgeneration]
    exact h.drained
  answer := by
    rw [hparked, hflight, hgeneration]
    exact h.answer
  once k := by
    rw [hcopies]
    exact h.once k
  again := by
    rw [hparked, hlast]
    simp only [hcopies]
    exact h.again
  kept := by
    rw [hfinals, hparked]
    simp only [hcopies]
    exact h.kept

/-- Steps that release nothing and leave a sentence in the middle. -/
lemma InOrder.heard (h : s.InOrder sp r) (htidy : s'.gate.utterance.Tidy)
    (hlangs : s'.gate.utterance.userLang = s.gate.utterance.userLang ∧
      s'.gate.utterance.otherLang = s.gate.utterance.otherLang)
    (hdraining : s'.gate.utterance.draining = false)
    (hlast : s'.gate.utterance.lastFinal = s.gate.utterance.lastFinal)
    (hparked : s'.gate.utterance.parked = s.gate.utterance.parked)
    (hfinals : s'.finals = s.finals) (hcopies : ∀ k, s'.copies sp r k = s.copies sp r k)
    (hown : s'.gate.utterance.direction ≠ .unknown →
      ∃ k, s'.about = some k ∧ s'.gate.utterance.direction = sp.dir k)
    (hwaits : ∀ p ∈ s'.gate.utterance.parked,
      s'.gate.utterance.direction = .unknown ∧ s'.about = some p.sentence)
    (hasked : s'.gate.utterance.direction = .unknown →
      ∀ q ∈ s'.inFlight, q.generation = s'.gate.generation → s'.about = some q.sentence)
    (hanswer : s'.gate.utterance.parked ≠ [] →
      ∃ q ∈ s'.inFlight, q.generation = s'.gate.generation) : s'.InOrder sp r where
  tidy := htidy
  langs := ⟨hlangs.1.trans h.langs.1, hlangs.2.trans h.langs.2⟩
  quiet hdrains := absurd (hdraining.symm.trans hdrains) Bool.false_ne_true
  own := hown
  waits := hwaits
  asked := hasked
  drained hdrains := absurd (hdraining.symm.trans hdrains) Bool.false_ne_true
  answer := hanswer
  once k := by
    rw [hcopies]
    exact h.once k
  again := by
    rw [hparked, hlast]
    simp only [hcopies]
    exact h.again
  kept := by
    rw [hfinals, hparked]
    simp only [hcopies]
    exact h.kept

/-- Audio and partials are routed without a trace. -/
lemma InOrder.deliver (h : s.InOrder sp r) (hlang : f.lang = r.userLang ∨ f.lang = r.otherLang)
    (hkind : f.kind ≠ .subtitleFinal) : (s.afterDeliver f).InOrder sp r := by
  have heffect := h.tidy.onFrame (h.langs.1.symm ▸ h.langs.2.symm ▸ hlang)
  obtain ⟨heldUser, heldOther, hu⟩ := Utterance.onFrame_of_ne_final (u := s.gate.utterance) hkind
  have hdeliver : s.gate.deliver f =
      ⟨{ s.gate with utterance := (s.gate.utterance.onFrame f).1 },
        (s.gate.utterance.onFrame f).2.frames.map .relay, []⟩ := by
    simp only [Gate.deliver, if_pos hkind]
  have hsent : NoCopy sp r ((s.gate.utterance.onFrame f).2.frames.map .relay) := by
    refine noCopy_relay fun g hg => ?_
    rw [Utterance.mem_frames_onFrame hg]
    exact hkind
  have hafter : s.afterDeliver f = { s with
      gate := { s.gate with utterance := (s.gate.utterance.onFrame f).1 }
      sent := s.sent ++ (s.gate.utterance.onFrame f).2.frames.map .relay
      arrivals := s.arrivals + 1 } := by
    simp only [afterDeliver, hdeliver, if_neg hkind, List.append_nil]
  have hparked : (s.gate.utterance.onFrame f).1.parked = s.gate.utterance.parked := by
    rw [hu]
    rfl
  rw [hafter]
  refine h.congr heffect.tidy heffect.langs ?_ ?_ ?_ ?_ hparked rfl rfl rfl rfl
    (copies_append rfl hsent)
  all_goals simp only [hu]

/-! ## What each step keeps -/

lemma hears_of_words (htext : f.msg.originalText = some text) :
    s.hears f = !s.gate.utterance.isTrailingEcho f.lang text := by
  rw [hears, htext]

/-- Words that are only the echo of the sentence before. -/
lemma InOrder.hear_echo (h : s.InOrder sp r) (htext : f.msg.originalText = some text)
    (hecho : s.hears f = false) : (s.afterHear r f text).InOrder sp r := by
  rw [hears_of_words htext, Bool.not_eq_false'] at hecho
  have hnoted := Utterance.noteOriginal_of_isTrailingEcho hecho
  have hnil : s.gate.utterance.original = [] := by
    simp only [Utterance.isTrailingEcho, Bool.and_eq_true, decide_eq_true_eq] at hecho
    exact hecho.1.1
  have habout : (s.afterHear r f text).about = s.about := by
    have hwords : s.wordsAfter f = s.words := by
      rw [wordsAfter, hears_of_words htext, hecho]
      rfl
    simp only [about, afterHear, hwords]
  have hheard := Gate.hear_spec r s.gate f text
  rw [hnoted] at hheard
  simp only [afterHear] at habout ⊢
  generalize s.gate.hear r f text = heard at hheard habout ⊢
  cases hheard with
  | latched _ _ hhint => exact absurd (by rw [hnil, Resolver.resolveLocal_nil]) hhint
  | shown previewed resolving captions asked _ hasked =>
    obtain rfl : asked = [] := by
      refine List.eq_nil_iff_forall_not_mem.mpr fun q hq => ?_
      exact absurd (hasked q hq).1 Bool.false_ne_true
    exact h.congr h.tidy ⟨rfl, rfl⟩ rfl rfl rfl rfl rfl rfl (List.append_nil _) habout rfl
      (copies_append rfl (noCopy_own captions))

/-- Words of the sentence whose turn it is. -/
lemma InOrder.hear (h : s.InOrder sp r) (htext : f.msg.originalText = some text)
    (hhears : s.hears f = true) (hturn : s.hearsInTurn sp r f text = true) :
    (s.afterHear r f text).InOrder sp r ∧ (s.afterHear r f text).about = some f.sentence ∧
      (s.afterHear r f text).gate.utterance.original = text ∧
      (s.afterHear r f text).gate.utterance.draining = false ∧
      (s.afterHear r f text).gate.utterance.lastFinal = s.gate.utterance.lastFinal := by
  obtain ⟨htrim, hne⟩ := ServerMessage.originalText_eq_some htext
  have hecho : s.gate.utterance.isTrailingEcho f.lang text = false := by
    rw [hears_of_words htext] at hhears
    simpa using hhears
  have hnoted := Utterance.noteOriginal_heard (htrim.symm ▸ hne) hecho h.quiet
  rw [htrim] at hnoted
  have heffect := h.tidy.noteOriginal f.lang text
  have hparked := s.gate.utterance.parked_noteOriginal f.lang text
  simp only [hearsInTurn, Bool.and_eq_true, Bool.or_eq_true, List.all_eq_true, decide_eq_true_eq]
    at hturn
  obtain ⟨⟨⟨hsame, hout⟩, hspoken⟩, hscript⟩ := hturn
  have habout : (s.afterHear r f text).about = some f.sentence := by
    simp only [about, afterHear, wordsAfter, hhears, if_true]
    split_ifs <;> rfl
  have hheard := Gate.hear_spec r s.gate f text
  simp only [afterHear] at habout ⊢
  generalize s.gate.hear r f text = heard at hheard habout ⊢
  generalize (s.gate.utterance.noteOriginal f.lang text).1 = u at *
  generalize (s.gate.utterance.noteOriginal f.lang text).2 = wants at *
  refine ⟨?_, habout, ?_⟩
  · cases hheard with
    | latched flushed hunknown hhint hflushed =>
      -- the script decides: rightly, and over nothing that is parked
      obtain ⟨hright, hnone⟩ : r.resolveLocal u.original = sp.dir f.sentence ∧
          s.gate.utterance.parked = [] := by
        rcases hscript with (hlatched | hundecided) | hright
        · exact absurd hunknown hlatched
        · exact absurd hundecided hhint
        · exact hright
      have hcommit := Utterance.commit_eq_some.mpr ⟨⟨hhint, hunknown⟩, hflushed, rfl⟩
      refine h.heard (heffect.tidy.commit hcommit).tidy heffect.langs hnoted.draining hnoted.lastFinal
        hparked rfl ?_ (fun _ => ⟨f.sentence, habout, hright⟩) ?_ (fun heq => absurd heq hhint) ?_
      · exact copies_append rfl (noCopy_commit heffect.tidy hcommit)
      · intro p hp
        have hp' : p ∈ u.parked := hp
        rw [hparked, hnone] at hp'
        exact absurd hp' List.not_mem_nil
      · intro hp
        exact absurd (hparked.trans hnone) hp
    | shown previewed resolving captions asked hundecided hasked =>
      refine h.heard heffect.tidy heffect.langs hnoted.draining hnoted.lastFinal hparked rfl
        (copies_append rfl (noCopy_own captions)) ?_ ?_ ?_ ?_
      · intro hlatched
        have hdirection := hnoted.direction
        split_ifs at hdirection with hdraining
        · exact absurd hdirection hlatched
        · refine ⟨f.sentence, habout, ?_⟩
          rcases hspoken with (hunknown | hdrains) | hown
          · exact absurd (hdirection.trans hunknown) hlatched
          · exact absurd hdrains hdraining
          · exact hdirection.trans hown
      · intro p hp
        have hp' : p ∈ s.gate.utterance.parked := hparked ▸ hp
        refine ⟨?_, habout.trans (congrArg some (hsame p hp').symm)⟩
        show u.direction = .unknown
        rw [hnoted.direction, (h.waits p hp').1, ite_self]
      · intro hunknown q hq hgeneration
        refine habout.trans (congrArg some ?_)
        rcases List.mem_append.mp hq with hq | hq
        · have hdirection := hnoted.direction
          split_ifs at hdirection with hdraining
          · exact absurd hgeneration (h.drained hdraining q hq)
          · rcases hout with hlatched | hout
            · exact absurd (hdirection.symm.trans hunknown) hlatched
            · exact ((hout q hq).resolve_left fun hne => hne hgeneration).symm
        · exact (hasked q hq).2.2.symm
      · intro hp
        obtain ⟨q, hq, hgeneration⟩ := h.answer (hparked ▸ hp)
        exact ⟨q, List.mem_append_left _ hq, hgeneration⟩
  · cases hheard with
    | latched => exact ⟨hnoted.original, hnoted.draining, hnoted.lastFinal⟩
    | shown => exact ⟨hnoted.original, hnoted.draining, hnoted.lastFinal⟩

/-- A final that a latched direction drops. -/
lemma InOrder.dropped (h : s.InOrder sp r) (hdirection : s.gate.utterance.direction ≠ .unknown)
    (hdraining : s.gate.utterance.draining = false)
    (hf : sp.isTarget r f = true → s.copies sp r f.sentence = 1) {n : Nat} :
    InOrder sp r { s with gate := s.gate.bump, arrivals := n, finals := f :: s.finals } where
  tidy := h.tidy
  langs := h.langs
  quiet := h.quiet
  own := h.own
  waits := h.waits
  asked hunknown := absurd hunknown hdirection
  drained hdrains := absurd (hdraining.symm.trans hdrains) Bool.false_ne_true
  answer hparked := by
    obtain ⟨p, hp⟩ := List.exists_mem_of_ne_nil _ hparked
    exact absurd (h.waits p hp).1 hdirection
  once := h.once
  again := h.again
  kept g hg htarget := by
    rcases List.mem_cons.mp hg with rfl | hg
    · exact .inl (hf htarget)
    · exact h.kept g hg htarget

/-- A final of the side that is spoken, sent for the first time. -/
lemma InOrder.sent (h : s.InOrder sp r) (hdirection : s.gate.utterance.direction ≠ .unknown)
    (htarget : sp.isTarget r f = true) (hfirst : s.copies sp r f.sentence = 0)
    (hwrap : ∀ q ∈ s.inFlight, q.generation ≠ s.gate.generation + 1) {n : Nat} :
    InOrder sp r { s with
      gate := Gate.bump { s.gate with
        utterance := Utterance.finishSentence { s.gate.utterance with lastFinal := some f.msg } }
      sent := s.sent ++ [.relay f]
      arrivals := n
      finals := f :: s.finals } := by
  have hnone : s.gate.utterance.parked = [] := by
    refine List.eq_nil_iff_forall_not_mem.mpr fun p hp => ?_
    exact absurd (h.waits p hp).1 hdirection
  have hcopies : ∀ k, List.countP (sp.isCopy r k) (s.sent ++ [.relay f]) =
      s.copies sp r k + if f.sentence = k then 1 else 0 := by
    intro k
    rw [List.countP_append, List.countP_singleton, copies]
    simp [Speech.isCopy, htarget]
  have htidy : (Utterance.finishSentence { s.gate.utterance with lastFinal := some f.msg }).Tidy := by
    constructor <;> simp [Utterance.finishSentence, hdirection]
  refine ⟨htidy, h.langs, fun _ => rfl, h.own, fun p hp => absurd hp List.not_mem_nil,
    fun hunknown => absurd hunknown hdirection, fun _ => hwrap, fun hp => absurd rfl hp, ?_,
    fun p hp => absurd hp List.not_mem_nil, ?_⟩
  · intro k
    show List.countP (sp.isCopy r k) (s.sent ++ [.relay f]) ≤ 1
    rw [hcopies]
    split_ifs with hk
    · rw [← hk, hfirst]
    · exact h.once k
  · intro g hg hgtarget
    refine .inl ?_
    show List.countP (sp.isCopy r g.sentence) (s.sent ++ [.relay f]) = 1
    rw [hcopies]
    rcases List.mem_cons.mp hg with rfl | hg
    · rw [if_pos rfl, hfirst]
    · have hgsent : s.copies sp r g.sentence = 1 := by
        rcases h.kept g hg hgtarget with hgsent | ⟨p, hp, -⟩
        · exact hgsent
        · rw [hnone] at hp
          exact absurd hp List.not_mem_nil
      have hk : f.sentence ≠ g.sentence := by
        intro heq
        rw [heq, hgsent] at hfirst
        cases hfirst
      rw [if_neg hk, hgsent]

lemma InOrder.copies_eq_one (h : s.InOrder sp r) {k : Nat} (hne : s.copies sp r k ≠ 0) :
    s.copies sp r k = 1 := by
  have hle := h.once k
  omega

/-- A final without a direction is parked, unless its side has one already, and asked about. -/
lemma InOrder.deliver_parked (h : s.InOrder sp r)
    (hlang : f.lang = s.gate.utterance.userLang ∨ f.lang = s.gate.utterance.otherLang)
    (hkind : f.kind = .subtitleFinal) (habout : s.about = some f.sentence)
    (horiginal : s.gate.utterance.original.trim ≠ [])
    (hdraining : s.gate.utterance.draining = false)
    (hnew : sp.isTarget r f = true → s.copies sp r f.sentence = 0 →
      s.gate.utterance.lastFinal ≠ some f.msg)
    (hsent : sp.isTarget r f = true → s.copies sp r f.sentence ≠ 0 →
      s.gate.utterance.lastFinal = some f.msg)
    (hunknown : s.gate.utterance.direction = .unknown) :
    (s.afterDeliver f).InOrder sp r := by
  obtain ⟨hhold, hparks⟩ := h.tidy.parks hlang hkind hunknown
  have heffect := h.tidy.onFrame hlang
  generalize hu : (s.gate.utterance.onFrame f).1 = u at hparks heffect
  have hdirection : u.direction = .unknown := hparks.direction.trans hunknown
  have hnotDraining : u.draining ≠ true := by
    rw [hparks.draining, hdraining]
    decide
  obtain ⟨p, hp, hside⟩ := hparks.side
  have hpending : u.hasPendingFinal = true :=
    Utterance.hasPendingFinal_iff.mpr (List.ne_nil_of_mem hp)
  have hafter : s.afterDeliver f = { s with
      gate := { s.gate with utterance := u, resolving := true }
      inFlight := s.inFlight ++ [Gate.spawnResolve { s.gate with utterance := u } .finalText f.sentence]
      arrivals := s.arrivals + 1
      finals := f :: s.finals } := by
    simp only [afterDeliver, Gate.deliver, hhold, hu, hkind, Outcome.frames, hdirection, hpending,
      hparks.original, horiginal, ne_eq, not_true_eq_false, if_false, if_true, Bool.true_eq_false,
      or_self, List.map_nil, List.append_nil]
  have hwaits : ∀ p ∈ u.parked, s.about = some p.sentence := by
    intro p hp
    rcases hparks.new p hp with hp | rfl
    · exact (h.waits p hp).2
    · exact habout
  rw [hafter]
  refine ⟨heffect.tidy, ?_, fun hdrains => absurd hdrains hnotDraining,
    fun hne => absurd hdirection hne, fun p hp => ⟨hdirection, hwaits p hp⟩,
    ?_, fun hdrains => absurd hdrains hnotDraining,
    fun _ => ⟨_, List.mem_append_right _ List.mem_cons_self, rfl⟩, h.once, ?_, ?_⟩
  · exact ⟨heffect.langs.1.trans h.langs.1, heffect.langs.2.trans h.langs.2⟩
  · intro _ q hq hgeneration
    rcases List.mem_append.mp hq with hq | hq
    · exact h.asked hunknown q hq hgeneration
    · rw [List.mem_singleton.mp hq]
      exact habout
  · intro p hp htarget
    show s.copies sp r p.sentence = 0 ∧ u.lastFinal ≠ some p.msg ∨
      s.copies sp r p.sentence = 1 ∧ u.lastFinal = some p.msg
    rw [hparks.lastFinal]
    rcases hparks.new p hp with hp | rfl
    · exact h.again p hp htarget
    · by_cases hzero : s.copies sp r p.sentence = 0
      · exact .inl ⟨hzero, hnew htarget hzero⟩
      · exact .inr ⟨h.copies_eq_one hzero, hsent htarget hzero⟩
  · intro g hg htarget
    rcases List.mem_cons.mp hg with rfl | hg
    · -- what is parked on its side is of the same sentence
      have hsentence : p.sentence = g.sentence :=
        Option.some_inj.mp ((hwaits p hp).symm.trans habout)
      refine .inr ⟨p, hp, hsentence, ?_⟩
      have hpkind : p.kind = .subtitleFinal := heffect.tidy.parked p hp
      simp only [Speech.isTarget, hkind, hpkind, hsentence, hside] at htarget ⊢
      exact htarget
    · refine (h.kept g hg htarget).imp id ?_
      rintro ⟨p, hp, hpg⟩
      exact ⟨p, hparks.old p hp, hpg⟩

/-- A final that the utterance holds back under a latched direction goes nowhere. -/
lemma InOrder.deliver_held (h : s.InOrder sp r) (hkind : f.kind = .subtitleFinal)
    (hdraining : s.gate.utterance.draining = false)
    (hunknown : s.gate.utterance.direction ≠ .unknown)
    (hhold : s.gate.utterance.onFinal f = (s.gate.utterance, .hold))
    (hsent : sp.isTarget r f = true → s.copies sp r f.sentence = 1) :
    (s.afterDeliver f).InOrder sp r := by
  have hframe : s.gate.utterance.onFrame f = (s.gate.utterance, .hold) := by
    rw [Utterance.onFrame, hkind, hhold]
  have hafter : s.afterDeliver f = { s with
      gate := s.gate.bump, arrivals := s.arrivals + 1, finals := f :: s.finals } := by
    simp only [afterDeliver, Gate.deliver, hframe, hkind, Outcome.frames, hunknown, ne_eq,
      not_true_eq_false, not_false_eq_true, true_or, if_false, if_true, List.map_nil,
      List.append_nil]
  rw [hafter]
  exact h.dropped hunknown hdraining hsent

/-- The first target-side final under a latched direction is sent. -/
lemma InOrder.deliver_sent (h : s.InOrder sp r) (hkind : f.kind = .subtitleFinal)
    (hunknown : s.gate.utterance.direction ≠ .unknown)
    (hside : s.gate.utterance.isTarget f.lang = true) (htarget : sp.isTarget r f = true)
    (hfirst : s.copies sp r f.sentence = 0) (hfresh : s.gate.utterance.lastFinal ≠ some f.msg)
    (hwrap : ∀ q ∈ s.inFlight, q.generation ≠ s.gate.generation + 1) :
    (s.afterDeliver f).InOrder sp r := by
  have hframe : s.gate.utterance.onFrame f =
      (Utterance.finishSentence { s.gate.utterance with lastFinal := some f.msg }, .send [f]) := by
    rw [Utterance.onFrame, hkind]
    dsimp only
    rw [Utterance.onFinal, if_neg hunknown, hside]
    simp only [Bool.not_true, Bool.false_eq_true, if_false, hfresh]
  have hafter : s.afterDeliver f = { s with
      gate := Gate.bump { s.gate with
        utterance := Utterance.finishSentence
          { s.gate.utterance with lastFinal := some f.msg } }
      sent := s.sent ++ [.relay f]
      arrivals := s.arrivals + 1
      finals := f :: s.finals } := by
    simp only [afterDeliver, Gate.deliver, hframe, hkind, Outcome.frames, Utterance.finishSentence,
      hunknown, ne_eq, not_true_eq_false, not_false_eq_true, true_or, if_false, if_true,
      List.map_cons, List.map_nil, List.append_nil]
  rw [hafter]
  exact h.sent hunknown htarget hfirst hwrap

/-- A final of the sentence that was heard last. -/
lemma InOrder.deliver_final (h : s.InOrder sp r) (hlang : f.lang = r.userLang ∨ f.lang = r.otherLang)
    (hkind : f.kind = .subtitleFinal) (habout : s.about = some f.sentence)
    (horiginal : s.gate.utterance.original.trim ≠ [])
    (hdraining : s.gate.utterance.draining = false)
    (hnew : sp.isTarget r f = true → s.copies sp r f.sentence = 0 →
      s.gate.utterance.lastFinal ≠ some f.msg)
    (hsent : sp.isTarget r f = true → s.copies sp r f.sentence ≠ 0 →
      s.gate.utterance.lastFinal = some f.msg)
    (hwrap : ∀ q ∈ s.inFlight, q.generation ≠ s.gate.generation + 1) :
    (s.afterDeliver f).InOrder sp r := by
  by_cases hunknown : s.gate.utterance.direction = .unknown
  · have hlang' : f.lang = s.gate.utterance.userLang ∨ f.lang = s.gate.utterance.otherLang :=
      h.langs.1.symm ▸ h.langs.2.symm ▸ hlang
    exact h.deliver_parked hlang' hkind habout horiginal hdraining hnew hsent hunknown
  · -- the direction is that of the sentence
    obtain ⟨k, hk, hown⟩ := h.own hunknown
    obtain rfl : k = f.sentence := Option.some_inj.mp (hk.symm.trans habout)
    have hside : s.gate.utterance.isTarget f.lang = sp.isTarget r f := by
      rw [Utterance.isTarget, Utterance.target, hown, h.langs.1, h.langs.2]
      simp [Speech.isTarget, hkind]
    by_cases htarget : sp.isTarget r f = true
    · by_cases hrepeat : s.gate.utterance.lastFinal = some f.msg
      · refine h.deliver_held hkind hdraining hunknown ?_ fun _ =>
          h.copies_eq_one fun hzero => hnew htarget hzero hrepeat
        rw [Utterance.onFinal, if_neg hunknown, hside, htarget]
        simp only [Bool.not_true, Bool.false_eq_true, if_false, hrepeat, if_true]
      · have hfirst : s.copies sp r f.sentence = 0 := by
          by_contra hne
          exact hrepeat (hsent htarget hne)
        exact h.deliver_sent hkind hunknown (hside.trans htarget) htarget hfirst hrepeat hwrap
    · refine h.deliver_held hkind hdraining hunknown ?_ fun heq => absurd heq htarget
      have hecho : sp.isTarget r f = false := by simpa using htarget
      rw [Utterance.onFinal, if_neg hunknown, hside, hecho]
      rfl

/-- A verdict that decides nothing: it is stale, or the direction is known. -/
lemma InOrder.unanswered (h : s.InOrder sp r) {q : Question}
    (hidle : q.generation ≠ s.gate.generation ∨ s.gate.utterance.direction ≠ .unknown) {n : Nat} :
    InOrder sp r { s with
      gate := { s.gate with resolving := false }
      classifyFailures := n
      inFlight := s.inFlight.erase q } where
  tidy := h.tidy
  langs := h.langs
  quiet := h.quiet
  own := h.own
  waits := h.waits
  asked hunknown q' hq' := h.asked hunknown q' (List.mem_of_mem_erase hq')
  drained hdrains q' hq' := h.drained hdrains q' (List.mem_of_mem_erase hq')
  answer hparked := by
    obtain ⟨q', hq', hcurrent⟩ := h.answer hparked
    refine ⟨q', (List.mem_erase_of_ne ?_).mpr hq', hcurrent⟩
    rintro rfl
    obtain ⟨p, hp⟩ := List.exists_mem_of_ne_nil _ hparked
    exact hidle.elim (absurd hcurrent) (absurd (h.waits p hp).1)
  once := h.once
  again := h.again
  kept := h.kept

/-- A verdict that latches a direction while the sentence is being spoken. -/
lemma InOrder.latched (h : s.InOrder sp r) {q : Question} (hq : s.about = some q.sentence)
    {d : Direction} (htruth : d = sp.dir q.sentence) {u : Utterance} {flushed : List Frame}
    (hcommit : s.gate.utterance.commit d = some (flushed, u)) (hnone : s.gate.utterance.parked = [])
    {n : Nat} {prior : Direction} :
    InOrder sp r { s with
      gate := { s.gate with resolving := false, lastDirection := prior, utterance := u }
      classifyFailures := n
      inFlight := s.inFlight.erase q
      sent := s.sent ++ (emitDirection r d ++ flushed.map .relay) } := by
  have heffect := h.tidy.commit hcommit
  have hlatched : u.direction = d ∧ u.draining = s.gate.utterance.draining ∧
      u.lastFinal = s.gate.utterance.lastFinal ∧ u.parked = s.gate.utterance.parked := by
    obtain ⟨-, -, rfl⟩ := Utterance.commit_eq_some.mp hcommit
    exact ⟨rfl, rfl, rfl, rfl⟩
  obtain ⟨⟨hknown, hunknown⟩, -⟩ := Utterance.commit_eq_some.mp hcommit
  have hdraining : s.gate.utterance.draining = false := by
    by_contra hdrains
    exact (h.tidy.draining (by simpa using hdrains)).1 hunknown
  refine h.heard heffect.tidy heffect.langs (hlatched.2.1.trans hdraining) hlatched.2.2.1
    hlatched.2.2.2 rfl (copies_append rfl (noCopy_commit h.tidy hcommit)) ?_ ?_ ?_ ?_
  · exact fun _ => ⟨q.sentence, hq, hlatched.1.trans htruth⟩
  · intro p hp
    have hp' : p ∈ u.parked := hp
    rw [hlatched.2.2.2, hnone] at hp'
    exact absurd hp' List.not_mem_nil
  · exact fun heq => absurd (hlatched.1.symm.trans heq) hknown
  · exact fun hp => absurd (hlatched.2.2.2.trans hnone) hp

/-- Once the true direction is latched, the slot of the side that is spoken holds the target-side
final that is parked, if any. -/
lemma InOrder.spokenSlot_eq_some_iff (h : s.InOrder sp r) (hne : r.userLang ≠ r.otherLang)
    {q : Question} (hq : s.about = some q.sentence) {d : Direction} (htruth : d = sp.dir q.sentence)
    {lang : Lang} (hlang : d.target r.userLang r.otherLang = some lang) {u : Utterance}
    (htidy : u.Tidy) (hlangs : u.userLang = r.userLang ∧ u.otherLang = r.otherLang)
    (hparked : u.parked = s.gate.utterance.parked) (p : Frame) :
    u.spokenSlot lang = some p ↔ p ∈ s.gate.utterance.parked ∧ sp.isTarget r p = true := by
  rw [htidy.spokenSlot_eq_some_iff (hlangs.1.symm ▸ hlangs.2.symm ▸ hne)
    (hlangs.1.symm ▸ hlangs.2.symm ▸ Direction.target_mem hlang), hparked]
  refine and_congr_right fun hp => ?_
  have hsentence : p.sentence = q.sentence :=
    Option.some_inj.mp ((h.waits p hp).2.symm.trans hq)
  rw [Speech.isTarget, hsentence, ← htruth, hlang]
  simp [h.tidy.parked p hp, eq_comm]

/-- **A release settles the sentence**: the final parked on the side that is spoken is sent, unless
it was sent before. -/
lemma InOrder.copies_release (h : s.InOrder sp r) (hne : r.userLang ≠ r.otherLang) {q : Question}
    (hq : s.about = some q.sentence) {d : Direction} (htruth : d = sp.dir q.sentence)
    {u : Utterance} {flushed : List Frame}
    (hcommit : s.gate.utterance.commit d = some (flushed, u))
    (hsent : s'.sent = s.sent ++ (emitDirection r d ++ flushed.map .relay ++
      u.takePendingFinal.1.toList.map .relay)) :
    (∀ k, s'.copies sp r k ≤ 1) ∧ (∀ k, s.copies sp r k = 1 → s'.copies sp r k = 1) ∧
      ∀ p ∈ s.gate.utterance.parked, sp.isTarget r p = true → s'.copies sp r p.sentence = 1 := by
  obtain ⟨⟨hknown, hunknown⟩, -, hu⟩ := Utterance.commit_eq_some.mp hcommit
  obtain ⟨lang, hlang⟩ : ∃ lang, d.target r.userLang r.otherLang = some lang :=
    Option.ne_none_iff_exists'.mp fun hnone => hknown (Direction.target_eq_none_iff.mp hnone)
  have heffect := h.tidy.commit hcommit
  have hlangs : u.userLang = r.userLang ∧ u.otherLang = r.otherLang :=
    ⟨heffect.langs.1.trans h.langs.1, heffect.langs.2.trans h.langs.2⟩
  have hlatched : u.direction = d ∧ u.lastFinal = s.gate.utterance.lastFinal ∧
      u.parked = s.gate.utterance.parked := by
    rw [hu]
    exact ⟨rfl, rfl, rfl⟩
  have hslot := h.spokenSlot_eq_some_iff hne hq htruth hlang heffect.tidy hlangs hlatched.2.2
  have htarget : u.target = some lang := by
    rw [Utterance.target, hlatched.1, hlangs.1, hlangs.2, hlang]
  have hreleased := Utterance.takePendingFinal_fst htarget
  rw [hlatched.2.1] at hreleased
  have hcopies : ∀ k, s'.copies sp r k = s.copies sp r k +
      (u.takePendingFinal.1.toList.map Outgoing.relay).countP (sp.isCopy r k) := by
    intro k
    have hzero : (emitDirection r d ++ flushed.map Outgoing.relay).countP (sp.isCopy r k) = 0 :=
      (noCopy_commit h.tidy hcommit).countP k
    rw [copies, hsent, List.countP_append, List.countP_append, hzero, Nat.zero_add, copies]
  cases hout : u.takePendingFinal.1 with
  | none =>
    have hsame : ∀ k, s'.copies sp r k = s.copies sp r k := by
      intro k
      rw [hcopies, hout]
      rfl
    refine ⟨fun k => hsame k ▸ h.once k, fun k hk => (hsame k).trans hk, fun p hp hptarget => ?_⟩
    -- what is parked and not released was sent before
    have hlast : s.gate.utterance.lastFinal = some p.msg := by
      rw [hout, (hslot p).mpr ⟨hp, hptarget⟩] at hreleased
      by_contra hfresh
      rw [Option.filter_some_pos (by simpa using hfresh)] at hreleased
      cases hreleased
    rw [hsame]
    exact ((h.again p hp hptarget).resolve_left fun hzero => hzero.2 hlast).1
  | some p₀ =>
    obtain ⟨hparked, hfresh⟩ := Option.filter_eq_some_iff.mp (hreleased.symm.trans hout)
    obtain ⟨hp₀, htarget₀⟩ := (hslot p₀).mp hparked
    have hzero : s.copies sp r p₀.sentence = 0 :=
      ((h.again p₀ hp₀ htarget₀).resolve_right fun hone => by simp [hone.2] at hfresh).1
    have hadd : ∀ k, s'.copies sp r k = s.copies sp r k + if p₀.sentence = k then 1 else 0 := by
      intro k
      rw [hcopies, hout]
      simp [Speech.isCopy, htarget₀, List.countP_singleton]
    refine ⟨fun k => ?_, fun k hk => ?_, fun p hp hptarget => ?_⟩
    · rw [hadd]
      split_ifs with hk
      · rw [← hk, hzero]
      · exact h.once k
    · have hk' : p₀.sentence ≠ k := by
        rintro rfl
        rw [hzero] at hk
        cases hk
      rw [hadd, if_neg hk', hk]
    · have honly : p = p₀ :=
        Option.some_inj.mp (((hslot p).mpr ⟨hp, hptarget⟩).symm.trans hparked)
      rw [honly, hadd, if_pos rfl, hzero]

/-- A verdict that releases what is parked. -/
lemma InOrder.released (h : s.InOrder sp r) (hne : r.userLang ≠ r.otherLang) {q : Question}
    (hq : s.about = some q.sentence) {d : Direction} (htruth : d = sp.dir q.sentence)
    {u : Utterance} {flushed : List Frame}
    (hcommit : s.gate.utterance.commit d = some (flushed, u))
    (hwrap : ∀ q ∈ s.inFlight, q.generation ≠ s.gate.generation + 1) {n : Nat} {prior : Direction}
    (hs' : s' = { s with
      gate := { s.gate with
        resolving := false, lastDirection := prior, generation := s.gate.generation + 1
        utterance := s.gate.utterance.reset }
      classifyFailures := n
      inFlight := s.inFlight.erase q
      sent := s.sent ++ (emitDirection r d ++ flushed.map .relay ++
        u.takePendingFinal.1.toList.map .relay)
      words := [] }) : s'.InOrder sp r := by
  obtain ⟨honce, hkept, hreleased⟩ :
      (∀ k, s'.copies sp r k ≤ 1) ∧ (∀ k, s.copies sp r k = 1 → s'.copies sp r k = 1) ∧
        ∀ p ∈ s.gate.utterance.parked, sp.isTarget r p = true → s'.copies sp r p.sentence = 1 :=
    h.copies_release hne hq htruth hcommit (by rw [hs'])
  have hsettled : ∀ g ∈ s'.finals, sp.isTarget r g = true → s'.copies sp r g.sentence = 1 := by
    intro g hg htarget
    rw [hs'] at hg
    rcases h.kept g hg htarget with hone | ⟨p, hp, hsentence, hptarget⟩
    · exact hkept _ hone
    · rw [← hsentence]
      exact hreleased p hp hptarget
  have htidy : s.gate.utterance.reset.Tidy := (s.gate.utterance.reset_effect).tidy
  subst hs'
  refine ⟨htidy, h.langs, fun hdrains => absurd hdrains Bool.false_ne_true,
    fun hlatched => absurd rfl hlatched, fun p hp => absurd hp List.not_mem_nil, ?_,
    fun hdrains => absurd hdrains Bool.false_ne_true, fun hp => absurd rfl hp, honce,
    fun p hp => absurd hp List.not_mem_nil, fun g hg htarget => .inl (hsettled g hg htarget)⟩
  intro _ q' hq' hgeneration
  exact absurd hgeneration (hwrap q' (List.mem_of_mem_erase hq'))

lemma InOrder.verdict (h : s.InOrder sp r) (hne : r.userLang ≠ r.otherLang) {q : Question}
    (hq : q ∈ s.inFlight) {resolution : Resolution}
    (htruth : resolution.direction = sp.dir q.sentence)
    (hwrap : ∀ q ∈ s.inFlight, q.generation ≠ s.gate.generation + 1) :
    (s.handleVerdict r q (.ok resolution)).InOrder sp r := by
  have hknown : resolution.direction ≠ .unknown := htruth ▸ sp.known q.sentence
  by_cases hstale : q.generation = s.gate.generation
  · by_cases hunknown : s.gate.utterance.direction = .unknown
    · obtain ⟨⟨flushed, u⟩, hcommit⟩ :
          ∃ latched, s.gate.utterance.commit resolution.direction = some latched :=
        ⟨(_, _), Utterance.commit_eq_some.mpr ⟨⟨hknown, hunknown⟩, rfl, rfl⟩⟩
      obtain ⟨prior, heq⟩ := Gate.handleVerdict_of_current (r := r) hcommit s.classifyFailures
      have habout := h.asked hunknown q hq hstale
      by_cases hpending : s.gate.utterance.hasPendingFinal = true
      · have hreset : s.gate.utterance.reset.hasPendingFinal = false := rfl
        have hreleased : s.handleVerdict r q (.ok resolution) = { s with
            gate := { s.gate with
              resolving := false, lastDirection := prior, generation := s.gate.generation + 1
              utterance := s.gate.utterance.reset }
            classifyFailures := 0
            inFlight := s.inFlight.erase q
            sent := s.sent ++ (emitDirection r resolution.direction ++ flushed.map .relay ++
              u.takePendingFinal.1.toList.map .relay)
            words := [] } := by
          simp only [handleVerdict, hstale, heq, hpending, hreset, Bool.not_false,
            Bool.and_self, if_true]
        exact h.released hne habout htruth hcommit hwrap hreleased
      · have hnone : s.gate.utterance.parked = [] :=
          Utterance.hasPendingFinal_eq_false.mp (by simpa using hpending)
        have hkept : s.handleVerdict r q (.ok resolution) = { s with
            gate := { s.gate with resolving := false, lastDirection := prior, utterance := u }
            classifyFailures := 0
            inFlight := s.inFlight.erase q
            sent := s.sent ++
              (emitDirection r resolution.direction ++ flushed.map .relay) } := by
          simp only [handleVerdict, hstale, heq, hpending, Bool.false_and,
            Bool.false_eq_true, if_false]
        rw [hkept]
        exact h.latched habout htruth hcommit hnone
    · have hnone : Gate.commit { s.gate with resolving := false } resolution = none :=
        Gate.commit_eq_none_iff.mpr (.inr hunknown)
      have hkept : s.handleVerdict r q (.ok resolution) = { s with
          gate := { s.gate with resolving := false }
          classifyFailures := 0
          inFlight := s.inFlight.erase q } := by
        simp only [handleVerdict, Gate.handleVerdict, hstale, hknown, hnone, ne_eq,
          not_true_eq_false, if_false, List.append_nil, Bool.and_not_self, Bool.false_eq_true]
      rw [hkept]
      exact h.unanswered (.inr hunknown)
  · have hkept : s.handleVerdict r q (.ok resolution) = { s with
        gate := { s.gate with resolving := false }
        classifyFailures := 0
        inFlight := s.inFlight.erase q } := by
      simp only [handleVerdict, Gate.handleVerdict, ne_eq, hstale, not_false_eq_true, if_true,
        List.append_nil, Bool.and_not_self, Bool.false_eq_true, if_false]
    rw [hkept]
    exact h.unanswered (.inl hstale)

/-- Hearing asks in the current generation, and releases no final. -/
lemma InOrder.afterHear_frame (h : s.InOrder sp r) (f : Frame) (text : Text) :
    (s.afterHear r f text).gate.generation = s.gate.generation ∧
      (∀ q ∈ (s.afterHear r f text).inFlight,
        q ∈ s.inFlight ∨ q.generation = s.gate.generation) ∧
      ∀ k, (s.afterHear r f text).copies sp r k = s.copies sp r k := by
  have heffect := h.tidy.noteOriginal f.lang text
  have hheard := Gate.hear_spec r s.gate f text
  have hsent : NoCopy sp r (s.gate.hear r f text).sent →
      ∀ k, (s.afterHear r f text).copies sp r k = s.copies sp r k := copies_append rfl
  simp only [afterHear] at hsent ⊢
  generalize s.gate.hear r f text = heard at hheard hsent ⊢
  cases hheard with
  | latched flushed hunknown hhint hflushed =>
    have hcommit := Utterance.commit_eq_some.mpr ⟨⟨hhint, hunknown⟩, hflushed, rfl⟩
    refine ⟨rfl, fun q hq => .inl (by simpa using hq), hsent ?_⟩
    exact noCopy_commit heffect.tidy hcommit
  | shown previewed resolving captions asked _ hasked =>
    refine ⟨rfl, fun q hq => ?_, hsent (noCopy_own captions)⟩
    exact (List.mem_append.mp hq).imp id fun hq => (hasked q hq).2.1

lemma InOrder.frame (h : s.InOrder sp r) (hlang : f.lang = r.userLang ∨ f.lang = r.otherLang)
    (hturn : s.inTurn sp r (.frame f) = true) : (s.routeFrame r f).InOrder sp r := by
  rw [inTurn, Bool.and_eq_true, List.all_eq_true] at hturn
  simp only [decide_eq_true_eq] at hturn
  obtain ⟨hwrap, hturn⟩ := hturn
  cases htext : f.msg.originalText with
  | none =>
    simp only [htext, decide_eq_true_eq] at hturn
    rw [routeFrame_of_none htext]
    exact h.deliver hlang hturn
  | some text =>
    simp only [htext, Bool.and_eq_true, Bool.or_eq_true, Bool.not_eq_true', recalls] at hturn
    obtain ⟨hheard, hrecalls⟩ := hturn
    by_cases hhears : s.hears f = true
    · have hecho : s.gate.utterance.isTrailingEcho f.lang text = false := by
        rw [hears_of_words htext] at hhears
        simpa using hhears
      obtain ⟨hin, habout, horiginal, hdraining, hlast⟩ :=
        h.hear htext hhears (hheard.resolve_left (by simp [hhears]))
      obtain ⟨hgeneration, hasked, hcopies⟩ := h.afterHear_frame f text
      rw [routeFrame_of_words htext fun hboth => by simp [hecho] at hboth]
      by_cases hkind : f.kind = .subtitleFinal
      · obtain ⟨htrim, hne⟩ := ServerMessage.originalText_eq_some htext
        refine hin.deliver_final hlang hkind habout ?_ hdraining ?_ ?_ ?_
        · rw [horiginal, htrim]
          exact hne
        · intro htarget hzero
          rw [hcopies] at hzero
          rw [hlast]
          have hnew := hrecalls.resolve_left (by simp [htarget])
          simp only [hzero, if_true, Bool.and_eq_true, decide_eq_true_eq] at hnew
          exact hnew.2
        · intro htarget hsent
          rw [hcopies] at hsent
          rw [hlast]
          have hold := hrecalls.resolve_left (by simp [htarget])
          simpa [hsent, hhears] using hold
        · intro q hq
          rw [hgeneration]
          rcases hasked q hq with hq | hcurrent
          · exact hwrap q hq
          · rw [hcurrent]
            simp
      · exact hin.deliver hlang hkind
    · have hecho : s.hears f = false := by simpa using hhears
      by_cases hkind : f.kind = .subtitleFinal
      · -- the copy of a sentence that was just sent
        have htrailing : s.gate.utterance.isTrailingEcho f.lang text = true := by
          rw [hears_of_words htext] at hecho
          simpa using hecho
        have hdropped : s.routeFrame r f = { s with
            arrivals := s.arrivals + 1, finals := f :: s.finals } := by
          simp only [routeFrame, Gate.routeFrame, htext, hkind, htrailing, and_self, if_true,
            wordsAfter, hecho, Bool.false_eq_true, if_false, List.append_nil]
        rw [hdropped]
        refine { h with kept := fun g hg htarget => ?_ }
        rcases List.mem_cons.mp hg with rfl | hg
        · have hold := hrecalls.resolve_left (by simp [htarget])
          have hsent : s.copies sp r g.sentence ≠ 0 := by
            intro hzero
            simp [hzero, hecho] at hold
          exact .inl (h.copies_eq_one hsent)
        · exact h.kept g hg htarget
      · rw [routeFrame_of_words htext fun hboth => hkind hboth.1]
        exact (h.hear_echo htext hecho).deliver hlang hkind

lemma InOrder.step (h : s.InOrder sp r) (hne : r.userLang ≠ r.otherLang) {a : TalkAction}
    (htruth : sp.answersTruly a = true) (hturn : s.inTurn sp r a = true)
    (hstep : s.step r a = some s') : s'.InOrder sp r := by
  have hwrap : ∀ q ∈ s.inFlight, q.generation ≠ s.gate.generation + 1 := by
    simp only [inTurn, Bool.and_eq_true, List.all_eq_true, decide_eq_true_eq] at hturn
    exact hturn.1
  cases a with
  | frame f =>
    simp only [Conversation.step, Option.ite_none_right_eq_some, Option.some.injEq] at hstep
    obtain ⟨⟨hlang, -⟩, rfl⟩ := hstep
    exact h.frame hlang hturn
  | verdict q answer =>
    simp only [Conversation.step, Option.ite_none_right_eq_some, Option.some.injEq] at hstep
    obtain ⟨hq, rfl⟩ := hstep
    cases answer with
    | ok resolution => exact h.verdict hne hq (by simpa [Speech.answersTruly] using htruth) hwrap
    | err => cases htruth
  | close => cases htruth

/-- **The target side's final of every sentence is sent exactly once** in every conversation whose
sentences take turns, once every question is answered; it is never sent twice; and no sentence
inherits the direction of another. -/
theorem sent_once_of_run (sp : Speech) (r : Resolver) (sourceId : String) (as : List TalkAction)
    (s : Conversation) (hne : r.userLang ≠ r.otherLang)
    (htruth : ∀ a ∈ as, sp.answersTruly a = true)
    (hrun : Run (Guarded (Step r) fun s a => s.inTurn sp r a = true) (init r sourceId) as s) :
    (s.inFlight = [] → ∀ f ∈ s.finals, sp.isTarget r f = true → s.copies sp r f.sentence = 1) ∧
      (∀ k, s.copies sp r k ≤ 1) ∧
      (s.gate.utterance.direction ≠ .unknown →
        ∃ k, s.about = some k ∧ s.gate.utterance.direction = sp.dir k) := by
  have hin : s.InOrder sp r := by
    refine hrun.invariant (InOrder sp r) ?_ (init_inOrder sourceId)
    rintro s a ha s' hs ⟨hturn, hstep⟩
    exact hs.step hne (htruth a ha) hturn hstep
  refine ⟨fun hanswered f hf htarget => ?_, hin.once, hin.own⟩
  rcases hin.kept f hf htarget with hone | ⟨p, hp, -⟩
  · exact hone
  · obtain ⟨q, hq, -⟩ := hin.answer (List.ne_nil_of_mem hp)
    rw [hanswered] at hq
    exact absurd hq List.not_mem_nil

/-- A question in Italian, answered in Spanish. -/
def exchange : Speech where
  dir k := if k = 0 then .userToOther else .otherToUser
  known k := by
    split_ifs <;> decide

/-- The first sentence is parked on both sides before its verdict; the second has a direction
before it is over, and the losing side finalises it once more. -/
def twoTurns : List TalkAction :=
  [.frame (interimOf "es" "Vorrei andare" 0 0), .frame (finalOf "it" "Vorrei andare" 0 1),
    .frame (finalOf "es" "Vorrei andare" 0 2),
    .verdict (questionOf 0 .unknown "Vorrei andare" .finalText 0) (.ok ⟨.userToOther, true⟩),
    .verdict (questionOf 0 .unknown "Vorrei andare" .partialText 0) (.ok ⟨.userToOther, true⟩),
    .verdict (questionOf 0 .unknown "Vorrei andare" .finalText 0) (.ok ⟨.userToOther, true⟩),
    .frame (interimOf "it" "Dónde está" 1 3),
    .verdict (questionOf 1 .userToOther "Dónde está" .partialText 1) (.ok ⟨.otherToUser, true⟩),
    .frame (finalOf "es" "Dónde está" 1 4), .frame (finalOf "it" "Dónde está" 1 5),
    .frame (finalOf "es" "Dónde está" 1 6)]

theorem sent_once_in_turn :
    ∃ s, Run (Step itEs) (init itEs "src") twoTurns s ∧ s.inFlight = [] ∧
      s.copies exchange itEs 0 = 1 ∧ s.copies exchange itEs 1 = 1 := by
  obtain ⟨s, hrun, hanswered, hfirst, hsecond⟩ : ∃ s, Run (Guarded (Step itEs) fun s a =>
      s.inTurn exchange itEs a = true) (init itEs "src") twoTurns s ∧ s.inFlight = [] ∧
      finalOf "es" "Vorrei andare" 0 2 ∈ s.finals ∧ finalOf "it" "Dónde está" 1 5 ∈ s.finals :=
    Run.exists_guarded_of_decide (by decide +kernel)
  have hsent := (sent_once_of_run exchange itEs "src" twoTurns s (by decide +kernel)
    (by decide +kernel) hrun).1 hanswered
  exact ⟨s, hrun.ofGuarded, hanswered, hsent _ hfirst (by decide +kernel),
    hsent _ hsecond (by decide +kernel)⟩

/-- Two sentences in Italian. -/
def twoItalian : Speech := ⟨fun _ => .userToOther, fun _ => by decide⟩

/-- The second sentence is finalised while the first is still parked. -/
def overtaking : List TalkAction :=
  [.frame (finalOf "es" "Vorrei andare" 0 0), .frame (finalOf "it" "Vorrei andare" 0 1),
    .frame (finalOf "es" "Dove siamo" 1 2), .frame (finalOf "it" "Dove siamo" 1 3),
    .verdict (questionOf 0 .unknown "Vorrei andare" .finalText 0) (.ok ⟨.userToOther, true⟩),
    .verdict (questionOf 0 .unknown "Vorrei andare" .partialText 0) (.ok ⟨.userToOther, true⟩),
    .verdict (questionOf 0 .unknown "Vorrei andare" .finalText 0) (.ok ⟨.userToOther, true⟩),
    .verdict (questionOf 0 .unknown "Dove siamo" .finalText 1) (.ok ⟨.userToOther, true⟩),
    .verdict (questionOf 0 .unknown "Dove siamo" .finalText 1) (.ok ⟨.userToOther, true⟩)]

/-- Its final finds the slot taken, and the second sentence is never sent. -/
theorem sentence_lost :
    (∀ a ∈ overtaking, twoItalian.answersTruly a = true) ∧
      ∃ s, Run (Step itEs) (init itEs "src") overtaking s ∧ s.inFlight = [] ∧
        finalOf "es" "Dove siamo" 1 2 ∈ s.finals ∧
        twoItalian.isTarget itEs (finalOf "es" "Dove siamo" 1 2) = true ∧
        s.copies twoItalian itEs 0 = 1 ∧ s.copies twoItalian itEs 1 = 0 := by
  exact ⟨by decide +kernel, Run.exists_of_decide (by decide +kernel)⟩

end Conversation

end VoxTranslate.Talk
