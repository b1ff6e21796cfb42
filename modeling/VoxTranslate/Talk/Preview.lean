import VoxTranslate.Talk.Verdicts

/-!
# The caption ahead of a direction

While nobody knows which way a sentence goes, the browser is shown the words that were spoken.
Both sessions report them, so the gate remembers the last words it showed and does not show them
twice.  They are forgotten where an utterance is closed unheard, but not where its final is spoken:
somebody who says the same again is not captioned.
-/

namespace VoxTranslate.Talk

open Lib Engine

namespace Conversation

/-- The words with which the frame begins an utterance. -/
def opens (s : Conversation) (f : Frame) : Option Text :=
  f.msg.originalText.filter fun text =>
    s.gate.utterance.original = [] && !s.gate.utterance.isTrailingEcho f.lang text

/-- The direction of the utterance after these words: neither is it latched nor does the script
tell. -/
def undecided (r : Resolver) (s : Conversation) (f : Frame) (text : Text) : Bool :=
  (s.gate.utterance.noteOriginal f.lang text).1.direction = .unknown &&
    r.resolveLocal text = .unknown

/-- The caption of the spoken words alone. -/
def caption (s : Conversation) (text : Text) : Outgoing :=
  .own (.subtitleInterim s.gate.sourceId "Microphone" [] "auto".toList (some text))

/-- An utterance that begins undecided has its first words captioned at once. -/
def Captioned (r : Resolver) (s : Conversation) (a : TalkAction) (t : Conversation) : Prop :=
  ∀ f text, a = .frame f → s.opens f = some text → s.undecided r f text = true →
    (∃ rest, t.sent = s.sent ++ s.caption text :: rest) ∧ t.gate.utterance.direction = .unknown

/-- An utterance does not begin, undecided, with the words that were captioned last. -/
def newWords (r : Resolver) (s : Conversation) : TalkAction → Bool
  | .frame f =>
    (s.opens f).all fun text => !s.undecided r f text || text ≠ s.gate.previewed
  | _ => true

variable {r : Resolver} {s t : Conversation} {a : TalkAction} {f : Frame} {text : Text}

/-! ## The first words -/

/-- The first words are noted, and the sentence before has drained. -/
lemma noteOriginal_opens (h : s.opens f = some text) :
    (s.gate.utterance.noteOriginal f.lang text).1.original = text := by
  obtain ⟨htext, hopens⟩ := Option.filter_eq_some_iff.mp h
  obtain ⟨htrim, hne⟩ := ServerMessage.originalText_eq_some htext
  simp only [Bool.and_eq_true, decide_eq_true_eq, Bool.not_eq_true'] at hopens
  have hheard : s.gate.utterance.Heard _ (s.gate.utterance.noteOriginal f.lang text).1 :=
    Utterance.noteOriginal_heard (by rw [htrim]; exact hne) hopens.2 fun _ => hopens.1
  rw [hheard.original, htrim]

lemma kind_of_originalText {m : ServerMessage} (h : m.originalText = some text) :
    FrameKind.classify m = .subtitleInterim ∨ FrameKind.classify m = .subtitleFinal := by
  unfold ServerMessage.originalText at h
  split at h
  · exact .inl rfl
  · exact .inr rfl
  · cases h

/-- Words that are undecided are captioned unless they are those captioned last. -/
lemma hear_undecided (hopens : s.opens f = some text) (hundecided : s.undecided r f text = true) :
    (s.gate.hear r f text).sent = (if text = s.gate.previewed then [] else [s.caption text]) ∧
      (s.gate.hear r f text).gate.utterance.direction = .unknown := by
  have hne : text ≠ [] := 
    (ServerMessage.originalText_eq_some (Option.filter_eq_some_iff.mp hopens).1).2
  have horiginal := noteOriginal_opens hopens
  simp only [undecided, Bool.and_eq_true, decide_eq_true_eq] at hundecided
  obtain ⟨hdirection, hlocal⟩ := hundecided
  have hcommit : Gate.commit { s.gate with
      utterance := (s.gate.utterance.noteOriginal f.lang text).1 } (.anchored .unknown) = none :=
    Gate.commit_eq_none_iff.mpr (.inl rfl)
  have hshown : Gate.showWords { s.gate with
      utterance := (s.gate.utterance.noteOriginal f.lang text).1 } =
      if text = s.gate.previewed then
        ({ s.gate with utterance := (s.gate.utterance.noteOriginal f.lang text).1 }, [])
      else ({ s.gate with
        utterance := (s.gate.utterance.noteOriginal f.lang text).1, previewed := text },
          [s.caption text]) := by
    simp only [Gate.showWords, hdirection, horiginal, Gate.preview, hne, false_or, if_true]
    split_ifs <;> rfl
  simp only [Gate.hear, hdirection, horiginal, hlocal, if_true, hcommit, hshown]
  split_ifs <;> exact ⟨rfl, hdirection⟩

/-- Nothing of a subtitle goes out while the direction is unknown. -/
lemma deliver_undecided {g : Gate} (hdirection : g.utterance.direction = .unknown)
    (hkind : f.kind = .subtitleInterim ∨ f.kind = .subtitleFinal) :
    (g.deliver f).sent = [] ∧ (g.deliver f).gate.utterance.direction = .unknown := by
  have hframe : (g.utterance.onFrame f).2 = .hold ∧
      (g.utterance.onFrame f).1.direction = .unknown := by
    rcases hkind with hkind | hkind
    · have hinterim : g.utterance.onFrame f = (g.utterance, .hold) := by
        rw [Utterance.onFrame, hkind]
        exact if_pos hdirection
      rw [hinterim]
      exact ⟨rfl, hdirection⟩
    · rw [Utterance.onFrame, hkind]
      simp only [Utterance.onFinal, hdirection, if_true]
      split_ifs <;> exact ⟨rfl, rfl⟩
  refine ⟨?_, by rw [Gate.deliver_utterance]; exact hframe.2⟩
  simp only [Gate.deliver, hframe.1]
  split_ifs <;> rfl

/-- **The frame that begins an utterance.** -/
lemma routeFrame_undecided (hopens : s.opens f = some text)
    (hundecided : s.undecided r f text = true) :
    (s.routeFrame r f).sent =
        s.sent ++ (if text = s.gate.previewed then [] else [s.caption text]) ∧
      (s.routeFrame r f).gate.utterance.direction = .unknown := by
  obtain ⟨htext, hfresh⟩ := Option.filter_eq_some_iff.mp hopens
  simp only [Bool.and_eq_true, decide_eq_true_eq, Bool.not_eq_true'] at hfresh
  obtain ⟨hsent, hdirection⟩ := hear_undecided hopens hundecided
  obtain ⟨hnothing, hunknown⟩ := deliver_undecided hdirection (kind_of_originalText htext)
  have hrouted : s.gate.routeFrame r f =
      ⟨((s.gate.hear r f text).gate.deliver f).gate,
        (s.gate.hear r f text).sent ++ ((s.gate.hear r f text).gate.deliver f).sent,
        (s.gate.hear r f text).asked ++ ((s.gate.hear r f text).gate.deliver f).asked⟩ := by
    rw [Gate.routeFrame, htext]
    exact if_neg (by simp [hfresh.2])
  simp only [routeFrame, hrouted]
  rw [hsent, hnothing, List.append_nil]
  exact ⟨rfl, hunknown⟩

lemma captioned_iff (hstep : s.step r a = some t) :
    s.Captioned r a t ↔ s.newWords r a = true := by
  cases a with
  | verdict q answer => exact iff_of_true (fun f text h => by cases h) rfl
  | close => exact iff_of_true (fun f text h => by cases h) rfl
  | frame f =>
    simp only [Conversation.step, Option.ite_none_right_eq_some, Option.some.injEq] at hstep
    obtain ⟨-, rfl⟩ := hstep
    rw [newWords, Option.all_eq_true]
    constructor
    · intro hcaptioned text hopens
      cases hundecided : s.undecided r f text with
      | false => rfl
      | true =>
        obtain ⟨⟨rest, hsent⟩, -⟩ := hcaptioned f text rfl hopens hundecided
        rw [(routeFrame_undecided hopens hundecided).1, List.append_cancel_left_eq] at hsent
        split_ifs at hsent with hsame
        simpa using hsame
    · intro hnew f' text hf hopens hundecided
      cases hf
      obtain ⟨hsent, hunknown⟩ := routeFrame_undecided hopens hundecided
      have hne := hnew text hopens
      simp only [hundecided, Bool.not_true, Bool.false_or, decide_eq_true_eq] at hne
      rw [if_neg hne] at hsent
      exact ⟨⟨[], hsent⟩, hunknown⟩

/-- **The preview.**  In every run each utterance that begins undecided has its first words
captioned before it is resolved, exactly if none begins with the words that were captioned last. -/
theorem captioned_iff_of_run (r : Resolver) (sourceId : String) {as : List TalkAction}
    (hrun : Run (Step r) (init r sourceId) as s) :
    Run (Guarded (Step r) fun s a => s.newWords r a = true) (init r sourceId) as s ↔
      ∀ pre a u v, pre ++ [a] <+: as → Run (Step r) (init r sourceId) pre u →
        u.step r a = some v → u.Captioned r a v :=
  Run.guarded_iff_steps (I := fun _ => True) (fun _ _ _ _ _ => trivial)
    (fun _ _ _ _ hstep => captioned_iff hstep) hrun trivial

/-- An interim, the verdict on it and the final that is spoken. -/
def spoken (original : String) : List TalkAction :=
  [.frame (interimOf "es" original 0 0),
    .verdict (questionOf 0 .unknown original .partialText 0) (.ok ⟨.userToOther, true⟩),
    .frame (finalOf "es" original 0 1)]

/-- After one sentence another one is captioned. -/
theorem other_words_are_captioned : ∃ s,
    Run (Step itEs) (init itEs "src")
      (spoken "Vorrei andare" ++ [.frame (interimOf "es" "Dove siamo" 1 2)]) s ∧
    ∀ pre a u v, pre ++ [a] <+: spoken "Vorrei andare" ++
        [.frame (interimOf "es" "Dove siamo" 1 2)] →
      Run (Step itEs) (init itEs "src") pre u → u.step itEs a = some v → u.Captioned itEs a v := by
  obtain ⟨s, hguarded⟩ : ∃ s, Run (Guarded (Step itEs) fun s a => s.newWords itEs a = true)
      (init itEs "src") (spoken "Vorrei andare" ++ [.frame (interimOf "es" "Dove siamo" 1 2)]) s :=
    Run.exists_guarded_of_isSome (by decide +kernel)
  exact ⟨s, hguarded.ofGuarded,
    (captioned_iff_of_run itEs "src" hguarded.ofGuarded).mp hguarded⟩

/-- After its final was spoken the same sentence is said again, and is not captioned. -/
theorem repeated_words_are_not_captioned : ∃ s f t,
    Run (Step itEs) (init itEs "src") (spoken "Vorrei andare") s ∧
      s.step itEs (.frame f) = some t ∧ ¬ s.Captioned itEs (.frame f) t := by
  obtain ⟨s, hrun, hnext, hold⟩ : ∃ s, Run (Step itEs) (init itEs "src") (spoken "Vorrei andare") s ∧
      (s.step itEs (.frame (interimOf "es" "Vorrei andare" 1 2))).isSome = true ∧
      s.newWords itEs (.frame (interimOf "es" "Vorrei andare" 1 2)) = false :=
    Run.exists_of_decide (by decide +kernel)
  obtain ⟨t, hstep⟩ := Option.isSome_iff_exists.mp hnext
  refine ⟨s, _, t, hrun, hstep, ?_⟩
  rw [captioned_iff hstep, hold]
  exact Bool.false_ne_true

end Conversation

end VoxTranslate.Talk
