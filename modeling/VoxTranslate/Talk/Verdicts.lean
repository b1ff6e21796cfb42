import VoxTranslate.Talk.Gate

/-!
# What a verdict steers

A verdict carries the generation it was asked in, and an answer of another generation is
discarded: unless the classifier failed, which is dealt with before the generation is looked at.
Within a generation a verdict is about whatever the utterance has heard, and the generation is
not bumped while a sentence is parked.
-/

namespace VoxTranslate.Talk

open Lib

namespace Conversation

/-- Nothing about the sentence changed, and no frame was sent: at most the notice that the
classifier is down. -/
structure Untouched (s s' : Conversation) : Prop where
  utterance : s'.gate.utterance = s.gate.utterance
  lastDirection : s'.gate.lastDirection = s.gate.lastDirection
  generation : s'.gate.generation = s.gate.generation
  sent : s'.sent = s.sent ∨
    (s.classifyFailures + 1 = maxSilentClassifyFailures ∧ s'.sent = s.sent ++ [.own unavailable])

/-- Words of the utterance arrived after the final of another sentence was parked. -/
def mixed (s : Conversation) : Bool :=
  s.words.any fun w =>
    s.gate.utterance.parked.any fun p => p.sentence ≠ w.sentence && p.arrival < w.arrival

/-- No other sentence is heard while a final is parked, and no failure of an earlier generation
comes back then. -/
def keepsApart (s : Conversation) : TalkAction → Bool
  | .frame f => !s.hears f || s.gate.utterance.parked.all fun p => p.sentence = f.sentence
  | .verdict q (.err _) => q.generation = s.gate.generation || !s.gate.utterance.hasPendingFinal
  | _ => true

variable {r : Resolver} {s s' : Conversation} {a : TalkAction} {q : Question} {answer : Answer}
  {f : Frame}

lemma mixed_eq_false : s.mixed = false ↔ ∀ w ∈ s.words, ∀ p ∈ s.gate.utterance.parked,
    p.arrival < w.arrival → p.sentence = w.sentence := by
  simp only [mixed, List.any_eq_false]
  refine forall₂_congr fun w _ => ?_
  simp only [Bool.not_eq_true, List.any_eq_false, Bool.and_eq_true, decide_eq_true_eq, not_and]
  refine forall₂_congr fun p _ => ?_
  tauto

/-- The words and what is parked are of one sentence, as far as the order of arrival tells. -/
structure Apart (s : Conversation) : Prop where
  arrivals : ∀ w ∈ s.words, w.arrival < s.arrivals
  unmixed : s.mixed = false

lemma init_apart (r : Resolver) (sourceId : String) : (init r sourceId).Apart :=
  ⟨by simp [init], by simp [init, mixed]⟩

lemma mem_wordsAfter {w : Frame} (h : w ∈ s.wordsAfter f) :
    w ∈ s.words ∨ (w = f ∧ s.hears f = true) := by
  rw [wordsAfter] at h
  split_ifs at h with hhears
  · exact .inr ⟨List.mem_singleton.mp h, hhears⟩
  · exact (List.mem_cons.mp h).symm.imp id fun hw => ⟨hw, hhears⟩
  · exact .inl h

lemma Apart.frame (h : s.Apart) (hguard : s.keepsApart (.frame f) = true)
    (harrival : f.arrival = s.arrivals) : (s.routeFrame r f).Apart := by
  refine ⟨?_, mixed_eq_false.mpr ?_⟩
  · intro w hw
    show w.arrival < s.arrivals + 1
    rcases mem_wordsAfter hw with hw | ⟨rfl, -⟩
    · exact Nat.lt_succ_of_lt (h.arrivals w hw)
    · exact harrival ▸ Nat.lt_succ_self _
  · intro w hw p hp hlt
    rcases mem_wordsAfter hw with hold | ⟨rfl, hhears⟩
    · rcases Gate.mem_parked_routeFrame hp with hp | rfl
      · exact mixed_eq_false.mp h.unmixed w hold p hp hlt
      · -- the frame that is parked now came after every word
        have hbefore := h.arrivals w hold
        omega
    · rcases Gate.mem_parked_routeFrame hp with hp | rfl
      · simp only [keepsApart, hhears, Bool.not_true, Bool.false_or, List.all_eq_true,
          decide_eq_true_eq] at hguard
        exact hguard p hp
      · rfl

lemma Apart.verdict (h : s.Apart) : (s.handleVerdict r q answer).Apart := by
  have hwords : ∀ w ∈ (s.handleVerdict r q answer).words, w ∈ s.words := by
    intro w hw
    simp only [handleVerdict] at hw
    split_ifs at hw
    · exact absurd hw List.not_mem_nil
    · exact hw
  refine ⟨fun w hw => h.arrivals w (hwords w hw), mixed_eq_false.mpr ?_⟩
  intro w hw p hp hlt
  have hjudged := Gate.handleVerdict_judged r s.gate s.classifyFailures q.generation answer
  rcases hjudged.parked with hparked | hparked
  · exact mixed_eq_false.mp h.unmixed w (hwords w hw) p (hparked ▸ hp) hlt
  · exact absurd (hparked ▸ hp) List.not_mem_nil

lemma Apart.step (h : s.Apart) (hguard : s.keepsApart a = true) (hstep : s.step r a = some s') :
    s'.Apart := by
  cases a with
  | frame f =>
    simp only [Conversation.step, Option.ite_none_right_eq_some, Option.some.injEq] at hstep
    obtain ⟨⟨-, harrival⟩, rfl⟩ := hstep
    exact h.frame hguard harrival
  | verdict q answer =>
    simp only [Conversation.step, Option.ite_none_right_eq_some, Option.some.injEq] at hstep
    obtain ⟨-, rfl⟩ := hstep
    exact h.verdict
  | close =>
    obtain rfl := Option.some_inj.mp hstep
    exact ⟨fun w hw => absurd hw List.not_mem_nil, rfl⟩

/-- **A stale verdict touches nothing exactly when it closes no sentence**: when it is an answer,
or a failure with nothing parked. -/
lemma untouched_iff (hstale : q.generation ≠ s.gate.generation) :
    Untouched s (s.handleVerdict r q answer) ↔
      s.keepsApart (.verdict q answer) = true := by
  cases answer with
  | ok resolution =>
    refine iff_of_true ?_ rfl
    constructor <;> simp [handleVerdict, Gate.handleVerdict, hstale]
  | err error =>
    rw [keepsApart, decide_eq_false hstale, Bool.false_or, Bool.not_eq_true']
    constructor
    · intro h
      by_contra hpending
      have hgeneration := h.generation
      -- a failure with a final parked closes the utterance, and that bumps the generation
      simp only [handleVerdict, Gate.handleVerdict, if_pos (by simpa using hpending)] at hgeneration
      exact absurd hgeneration (by simp [Gate.endUtterance])
    · intro hpending
      refine ⟨?_, ?_, ?_, ?_⟩ <;> simp only [handleVerdict, Gate.handleVerdict, hpending,
        Bool.false_eq_true, if_false]
      split_ifs with hthird
      · exact .inr ⟨hthird, rfl⟩
      · exact .inl (List.append_nil _)

/-- **A verdict steers the sentence it was asked about**, after every run in which no other
sentence is heard while a final is parked and no old failure comes back then: a stale one changes
nothing, and a current one acts on an utterance whose words are of the sentence that is parked. -/
theorem steers_own_of_run (r : Resolver) (sourceId : String) (as : List TalkAction)
    (s s' : Conversation) (q : Question) (answer : Answer)
    (hrun : Run (Guarded (Step r) fun s a => s.keepsApart a = true) (init r sourceId) as s)
    (hguard : s.keepsApart (.verdict q answer) = true)
    (hstep : s.step r (.verdict q answer) = some s') :
    (q.generation ≠ s.gate.generation → Untouched s s') ∧
      (q.generation = s.gate.generation → s'.gate.utterance ≠ s.gate.utterance →
        s.mixed = false) := by
  have hapart : s.Apart := by
    refine hrun.invariant Apart ?_ (init_apart r sourceId)
    rintro s a - s' hs ⟨hguard, hstep⟩
    exact hs.step hguard hstep
  simp only [Conversation.step, Option.ite_none_right_eq_some, Option.some.injEq] at hstep
  obtain ⟨-, rfl⟩ := hstep
  exact ⟨fun hstale => (untouched_iff hstale).mpr hguard, fun _ _ => hapart.unmixed⟩

/-- A conversation between Italian and Spanish. -/
def itEs : Resolver := ⟨"it".toList, "es".toList⟩

/-- A final of one of two sessions, for the sentence `original`. -/
def finalOf (lang original : String) (sentence arrival : Nat) : Frame :=
  ⟨.subtitleFinal "src" "Microphone" original.toList "auto".toList [(lang.toList, "…".toList)],
    lang.toList, sentence, arrival⟩

/-- A partial of one of two sessions, for the sentence `original`. -/
def interimOf (lang original : String) (sentence arrival : Nat) : Frame :=
  ⟨.subtitleInterim "src" "Microphone" "…".toList lang.toList (some original.toList),
    lang.toList, sentence, arrival⟩

/-- The question that the `n`-th generation asks about a sentence. -/
def questionOf (generation : UInt64) (prior : Direction) (original : String) (stage : Stage)
    (sentence : Nat) : Question :=
  ⟨generation, prior, original.toList, stage, sentence⟩

/-- A sentence that is asked about while it is spoken, and again when it is over. -/
def askedTwice : List TalkAction :=
  [.frame (interimOf "es" "Vorrei andare" 0 0), .frame (finalOf "es" "Vorrei andare" 0 1),
    .verdict (questionOf 0 .unknown "Vorrei andare" .finalText 0) (.ok ⟨.userToOther, true⟩)]

/-- The question asked while it is spoken. -/
def firstQuestion : Question := questionOf 0 .unknown "Vorrei andare" .partialText 0

/-- The first answer closes the sentence; the second one fails, and finds nothing to close. -/
theorem steers_own_late_failure :
    ∃ s s', Run (Step itEs) (init itEs "src") askedTwice s ∧
      s.step itEs (.verdict firstQuestion (.err "timeout")) = some s' ∧
      firstQuestion.generation ≠ s.gate.generation ∧ Untouched s s' := by
  obtain ⟨s, hrun, hstale, hguard, hasked⟩ : ∃ s, Run (Guarded (Step itEs) fun s a =>
      s.keepsApart a = true) (init itEs "src") askedTwice s ∧
      firstQuestion.generation ≠ s.gate.generation ∧
      s.keepsApart (.verdict firstQuestion (.err "timeout")) = true ∧
      firstQuestion ∈ s.inFlight := Run.exists_guarded_of_decide (by decide +kernel)
  have hstep : s.step itEs (.verdict firstQuestion (.err "timeout")) =
      some (s.handleVerdict itEs firstQuestion (.err "timeout")) := if_pos hasked
  exact ⟨s, _, hrun.ofGuarded, hstep, hstale,
    (steers_own_of_run itEs "src" _ s _ firstQuestion _ hrun hguard hstep).1 hstale⟩

/-- The second answer fails while the next sentence is parked, and closes that one; and a verdict
about a parked sentence is applied to an utterance that has heard the next one. -/
theorem steers_another :
    (∃ s s', Run (Step itEs) (init itEs "src")
        (askedTwice ++ [.frame (finalOf "es" "Dove siamo" 1 2)]) s ∧
      s.step itEs (.verdict firstQuestion (.err "timeout")) = some s' ∧
      firstQuestion.generation ≠ s.gate.generation ∧
      s.gate.utterance.parked = [finalOf "es" "Dove siamo" 1 2] ∧
      s'.gate.utterance.parked = [] ∧ ¬ Untouched s s') ∧
    ∃ s s', Run (Step itEs) (init itEs "src")
        [.frame (finalOf "es" "Vorrei andare" 0 0), .frame (interimOf "it" "¿Dónde?" 1 1)] s ∧
      s.step itEs (.verdict (questionOf 0 .unknown "Vorrei andare" .finalText 0)
        (.ok ⟨.userToOther, true⟩)) = some s' ∧
      s.gate.generation = 0 ∧ s'.gate.utterance ≠ s.gate.utterance ∧ s.mixed = true := by
  constructor
  · obtain ⟨s, hrun, hasked, hstale, hparked, hclosed⟩ : ∃ s, Run (Step itEs) (init itEs "src")
        (askedTwice ++ [.frame (finalOf "es" "Dove siamo" 1 2)]) s ∧
        firstQuestion ∈ s.inFlight ∧ firstQuestion.generation ≠ s.gate.generation ∧
        s.gate.utterance.parked = [finalOf "es" "Dove siamo" 1 2] ∧
        (s.handleVerdict itEs firstQuestion (.err "timeout")).gate.utterance.parked = [] :=
      Run.exists_of_decide (by decide +kernel)
    refine ⟨s, _, hrun, if_pos hasked, hstale, hparked, hclosed, fun h => ?_⟩
    rw [h.utterance, hparked] at hclosed
    cases hclosed
  · obtain ⟨s, hrun, hasked, hgeneration, hchanged, hmixed⟩ : ∃ s,
        Run (Step itEs) (init itEs "src")
          [.frame (finalOf "es" "Vorrei andare" 0 0), .frame (interimOf "it" "¿Dónde?" 1 1)] s ∧
        questionOf 0 .unknown "Vorrei andare" .finalText 0 ∈ s.inFlight ∧
        s.gate.generation = 0 ∧
        (s.handleVerdict itEs (questionOf 0 .unknown "Vorrei andare" .finalText 0)
          (.ok ⟨.userToOther, true⟩)).gate.utterance ≠ s.gate.utterance ∧ s.mixed = true :=
      Run.exists_of_decide (by decide +kernel)
    exact ⟨s, _, hrun, if_pos hasked, hgeneration, hchanged, hmixed⟩

end Conversation

end VoxTranslate.Talk
