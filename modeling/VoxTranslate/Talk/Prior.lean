import VoxTranslate.Talk.Sentences

/-!
# The prior of a conversation

The model answers with one of the two languages and a confidence.  A confident answer decides; a
weak one is taken only where it agrees with the direction the conversation last settled on with
evidence, and does not become that direction itself.  So no side is favoured, and a sentence that
was only carried along leaves no trace.
-/

namespace VoxTranslate.Talk

open Lib Engine

/-! ## The classifier's verdict -/

/-- `MIN_RESOLVE_CHARS`. -/
def minResolveChars : Nat := 12

/-- `MIN_FINAL_RESOLVE_CHARS`: the sentence is complete. -/
def minFinalResolveChars : Nat := 4

/-- `MIN_CONFIDENCE`: commits a direction on its own. -/
def minConfidence : ℚ := f32 (3 / 5)

/-- `WEAK_CONFIDENCE`: commits a direction that agrees with the prior. -/
def weakConfidence : ℚ := f32 (7 / 20)

/-- An `f32` that the model calls its confidence. -/
inductive Confidence where
  | number (value : ℚ)
  | infinite (isNegative : Bool)
  | notANumber
  deriving DecidableEq, Repr

namespace Confidence

/-- Whether it lies in `lo..=hi`. -/
def isWithin (lo hi : ℚ) : Confidence → Bool
  | number value => lo ≤ value && value ≤ hi
  | infinite _ | notANumber => false

/-- Whether it lies in `lo..hi`. -/
def isBelow (lo hi : ℚ) : Confidence → Bool
  | number value => lo ≤ value && value < hi
  | infinite _ | notANumber => false

end Confidence

/-- What the classifier is asked to return. -/
structure Verdict where
  lang : Lang
  confidence : Confidence
  deriving DecidableEq, Repr

section Interpret

variable (lower : Text → Text)

/-- Turn a verdict into a direction; `lower` is `str::to_lowercase`. -/
def interpret (lang : Lang) (confidence : Confidence) (userLang otherLang : Lang)
    (prior : Direction) : Resolution :=
  let lang := lower lang.trim
  if lang = [] ∨ lang = "other".toList then .UNKNOWN
  else
    let direction := Direction.fromSpoken lang userLang otherLang
    if direction = .unknown then .UNKNOWN
    else if confidence.isWithin minConfidence 1 then .anchored direction
    else if confidence.isBelow weakConfidence minConfidence ∧ direction = prior then
      .corroborated direction
    else .UNKNOWN

/-- `resolve_with_floor`.  The question that the model replies to, or fails to, is the text alone:
the prior is no part of it. -/
def Resolver.resolveWithFloor (r : Resolver) (text : Text) (floor : Nat) (prior : Direction)
    (reply : Except String Verdict) : Answer :=
  let hint := r.resolveLocal text
  if hint ≠ .unknown then .ok (.anchored hint)
  else if text.trim.length < floor then .ok .UNKNOWN
  else
    match reply with
    | .ok verdict =>
      .ok (interpret lower verdict.lang verdict.confidence r.userLang r.otherLang prior)
    | .error e => .err e

/-- `resolve` and `resolve_final`. -/
def Resolver.resolve (r : Resolver) (text : Text) (stage : Stage) (prior : Direction)
    (reply : Except String Verdict) : Answer :=
  r.resolveWithFloor lower text
    (match stage with
      | .partialText => minResolveChars
      | .finalText => minFinalResolveChars) prior reply

end Interpret

/-! ## The two sides -/

/-- The same with the two sides exchanged. -/
def Direction.mirror : Direction → Direction
  | userToOther => otherToUser
  | otherToUser => userToOther
  | unknown => unknown

def Resolution.mirror (resolution : Resolution) : Resolution :=
  { resolution with direction := resolution.direction.mirror }

section Mirror

variable {lower : Text → Text} {text : Text} {lang userLang otherLang : Lang}
  {confidence : Confidence} {prior d d' : Direction} {hits others : Nat}

@[simp] lemma Direction.mirror_mirror (d : Direction) : d.mirror.mirror = d := by
  cases d <;> rfl

lemma Direction.mirror_injective : Function.Injective Direction.mirror :=
  Function.LeftInverse.injective mirror_mirror

@[simp] lemma Direction.mirror_eq_unknown_iff : d.mirror = .unknown ↔ d = .unknown := by
  cases d <;> simp [mirror]

@[simp] lemma Direction.mirror_inj : d.mirror = d'.mirror ↔ d = d' := mirror_injective.eq_iff

lemma Resolution.mirror_anchored (d : Direction) :
    (Resolution.anchored d).mirror = .anchored d.mirror := by
  cases d <;> rfl

/-- The hits of one side are more than half of the evidence. -/
lemma half_of_reachesMargin (hpos : 0 < hits + others)
    (h : reachesMargin hits (hits + others) = true) : others < hits := by
  have hbits : 4 ≤ 24 := by decide
  have hmargin : (3 / 4 : ℚ) ≤ scriptMargin := by decide +kernel
  have hevidence : (0 : ℚ) < (hits + others : ℕ) := by exact_mod_cast hpos
  obtain ⟨hlo, -⟩ := roundTo_bounds hbits hevidence.le
  obtain ⟨hnonneg, hhi⟩ := roundTo_bounds hbits (Nat.cast_nonneg (α := ℚ) hits)
  have hrounded : (0 : ℚ) < f32 (hits + others : ℕ) := by
    rw [f32]
    linarith
  have hhits : (0 : ℚ) ≤ f32 hits := by
    have := Nat.cast_nonneg (α := ℚ) hits
    rw [f32]
    linarith
  have hshare : 16 * f32 (f32 hits / f32 (hits + others : ℕ)) ≤
      17 * (f32 hits / f32 (hits + others : ℕ)) :=
    (roundTo_bounds hbits (div_nonneg hhits hrounded.le)).2
  have hreached : scriptMargin ≤ f32 (f32 hits / f32 (hits + others : ℕ)) := of_decide_eq_true h
  have hquotient : (12 / 17 : ℚ) ≤ f32 hits / f32 (hits + others : ℕ) := by linarith
  rw [le_div_iff₀ hrounded] at hquotient
  have hcount : ((hits + others : ℕ) : ℚ) < 2 * hits := by
    simp only [f32] at hquotient
    linarith
  have hnat : hits + others < 2 * hits := by exact_mod_cast hcount
  omega

/-- **Neither side of the script hint is favoured.** -/
lemma scriptHint_mirror (text : Text) (userLang otherLang : Lang) :
    scriptHint text otherLang userLang = (scriptHint text userLang otherLang).mirror := by
  rw [scriptHint, scriptHint]
  cases langScripts userLang with
  | none =>
    cases langScripts otherLang <;> rfl
  | some userScripts =>
    cases langScripts otherLang with
    | none => rfl
    | some otherScripts =>
      simp only [Nat.add_comm (scriptHits text otherScripts userScripts)]
      split_ifs with hfew hother huser huser
      · rfl
      · -- both sides cannot reach the margin
        have hpos : 0 < scriptHits text userScripts otherScripts +
            scriptHits text otherScripts userScripts := by
          rw [minScriptEvidence] at hfew
          omega
        have hmore := half_of_reachesMargin hpos huser
        rw [Nat.add_comm] at hother hpos
        have hless := half_of_reachesMargin hpos hother
        omega
      all_goals rfl

lemma Direction.fromSpoken_mirror (hne : baseCode userLang ≠ baseCode otherLang) :
    fromSpoken lang otherLang userLang = (fromSpoken lang userLang otherLang).mirror := by
  rw [fromSpoken, fromSpoken]
  split_ifs with hother huser huser
  · exact absurd (huser.symm.trans hother) hne
  all_goals rfl

/-- **Nor is either side of the classifier's verdict.** -/
lemma interpret_mirror (hne : baseCode userLang ≠ baseCode otherLang) :
    interpret lower lang confidence otherLang userLang prior.mirror =
      (interpret lower lang confidence userLang otherLang prior).mirror := by
  simp only [interpret, Direction.fromSpoken_mirror hne, Direction.mirror_eq_unknown_iff,
    Direction.mirror_inj]
  split_ifs
  · rfl
  · rfl
  · rw [Resolution.mirror_anchored]
  · rfl
  · rfl

/-- A third language has no direction. -/
lemma interpret_foreign (huser : baseCode (lower lang.trim) ≠ baseCode userLang)
    (hother : baseCode (lower lang.trim) ≠ baseCode otherLang) :
    interpret lower lang confidence userLang otherLang prior = .UNKNOWN := by
  simp only [interpret, Direction.fromSpoken, if_neg huser, if_neg hother, if_true, ite_self]

end Mirror

/-! ## Evidence -/

/-- A weak verdict, carried by the prior. -/
def Answer.isCorroborated : Answer → Bool
  | .ok resolution => !resolution.isAnchored && resolution.direction ≠ .unknown
  | .err _ => false

section Evidence

variable (lower : Text → Text) (r : Resolver)

/-- The script tells the direction, or a verdict at the floor or above it does. -/
def Resolver.Decides (text : Text) (reply : Except String Verdict) (d : Direction) : Prop :=
  r.resolveLocal text = d ∨ ∃ verdict, reply = .ok verdict ∧
    verdict.confidence.isWithin minConfidence 1 = true ∧
    Direction.fromSpoken (lower verdict.lang.trim) r.userLang r.otherLang = d

/-- The answers in a conversation are the resolver's. -/
def Resolver.IsAnswered : TalkAction → Prop
  | .verdict q answer => ∃ reply, answer = r.resolve lower q.text q.stage q.prior reply
  | .frame _ | .close => True

variable {lower r} {text : Text} {stage : Stage} {prior : Direction} {reply : Except String Verdict}
  {resolution : Resolution} {lang : Lang} {confidence : Confidence} {userLang otherLang : Lang}

/-- What is anchored was decided by a confident verdict, and what is not agrees with the prior. -/
lemma interpret_spec (h : interpret lower lang confidence userLang otherLang prior = resolution) :
    (resolution.isAnchored = true → resolution.direction ≠ .unknown ∧
      confidence.isWithin minConfidence 1 = true ∧
        Direction.fromSpoken (lower lang.trim) userLang otherLang = resolution.direction) ∧
      (resolution.isAnchored = false →
        resolution.direction = .unknown ∨ resolution.direction = prior) := by
  subst h
  simp only [interpret]
  split_ifs with hblank hforeign hconfident hweak
  · exact ⟨fun h => absurd h Bool.false_ne_true, fun _ => .inl rfl⟩
  · exact ⟨fun h => absurd h Bool.false_ne_true, fun _ => .inl rfl⟩
  · exact ⟨fun _ => ⟨hforeign, hconfident, rfl⟩,
      fun h => absurd hforeign (of_decide_eq_false h)⟩
  · exact ⟨fun h => absurd h Bool.false_ne_true, fun _ => .inr hweak.2⟩
  · exact ⟨fun h => absurd h Bool.false_ne_true, fun _ => .inl rfl⟩

lemma resolve_spec (h : r.resolve lower text stage prior reply = .ok resolution) :
    (resolution.isAnchored = true →
      resolution.direction ≠ .unknown ∧ r.Decides lower text reply resolution.direction) ∧
      (resolution.isAnchored = false →
        resolution.direction = .unknown ∨ resolution.direction = prior) := by
  simp only [Resolver.resolve, Resolver.resolveWithFloor] at h
  split_ifs at h with hhint hshort
  · cases h
    exact ⟨fun _ => ⟨hhint, .inl rfl⟩, fun h => absurd hhint (of_decide_eq_false h)⟩
  · cases h
    exact ⟨fun h => absurd h Bool.false_ne_true, fun _ => .inl rfl⟩
  · split at h
    · next verdict =>
      cases h
      have hverdict : interpret lower verdict.lang verdict.confidence r.userLang r.otherLang prior =
        _ := rfl
      obtain ⟨hanchored, hfree⟩ := interpret_spec hverdict
      refine ⟨fun h => ?_, hfree⟩
      obtain ⟨hknown, hconfident, hspoken⟩ := hanchored h
      exact ⟨hknown, .inr ⟨verdict, rfl, hconfident, hspoken⟩⟩
    · cases h

end Evidence

/-! ## The prior in a conversation -/

namespace Gate

variable {r : Resolver} {g g' : Gate} {f : Frame} {text : Text}

lemma deliver_lastDirection (g : Gate) (f : Frame) :
    (g.deliver f).gate.lastDirection = g.lastDirection := by
  simp only [deliver]
  split_ifs <;> rfl

/-- Words change the prior where their script tells the direction. -/
lemma hear_lastDirection (hne : text ≠ []) (htrim : text.trim = text) :
    (g.hear r f text).gate.lastDirection = g.lastDirection ∨
      (r.resolveLocal text ≠ .unknown ∧
        (g.hear r f text).gate.lastDirection = r.resolveLocal text) := by
  have horiginal : (g.utterance.noteOriginal f.lang text).1.original = text ∨
      (g.utterance.noteOriginal f.lang text).1.original = [] := by
    simp only [Utterance.noteOriginal, htrim, hne, false_or]
    split_ifs with hsame hecho
    · exact .inl hsame.symm
    · rw [Utterance.isTrailingEcho, Bool.and_eq_true, Bool.and_eq_true, decide_eq_true_eq] at hecho
      exact .inr hecho.1.1
    all_goals exact .inl rfl
  have hheard := hear_spec r g f text
  generalize (g.utterance.noteOriginal f.lang text).1 = u at hheard horiginal
  generalize (g.utterance.noteOriginal f.lang text).2 = wants at hheard
  generalize g.hear r f text = heard at hheard ⊢
  cases hheard with
  | shown => exact .inl rfl
  | latched flushed hunknown hhint hflushed =>
    rcases horiginal with horiginal | horiginal
    · rw [horiginal] at hhint ⊢
      exact .inr ⟨hhint, rfl⟩
    · exact absurd (by rw [horiginal, Resolver.resolveLocal_nil]) hhint

lemma routeFrame_lastDirection (g : Gate) (f : Frame) :
    (g.routeFrame r f).gate.lastDirection = g.lastDirection ∨
      ∃ text, f.msg.originalText = some text ∧ r.resolveLocal text ≠ .unknown ∧
        (g.routeFrame r f).gate.lastDirection = r.resolveLocal text := by
  rw [routeFrame]
  split
  · next text htext =>
    obtain ⟨htrim, hne⟩ := ServerMessage.originalText_eq_some htext
    by_cases hecho : f.kind = .subtitleFinal ∧ g.utterance.isTrailingEcho f.lang text
    · rw [if_pos hecho]
      exact .inl rfl
    · rw [if_neg hecho]
      simp only [deliver_lastDirection]
      exact (hear_lastDirection hne htrim).imp id fun h => ⟨text, htext, h⟩
  · exact .inl (deliver_lastDirection g f)

/-- A verdict changes the prior where evidence anchors it. -/
lemma handleVerdict_lastDirection (g : Gate) (failures : Nat) (generation : UInt64)
    (answer : Answer) :
    (g.handleVerdict r failures generation answer).1.lastDirection = g.lastDirection ∨
      ∃ resolution, answer = .ok resolution ∧ resolution.isAnchored = true ∧
        (g.handleVerdict r failures generation answer).1.lastDirection = resolution.direction := by
  cases answer with
  | err error =>
    simp only [handleVerdict]
    split_ifs <;> exact .inl rfl
  | ok resolution =>
    by_cases hstale : generation = g.generation
    · subst hstale
      cases hcommit : g.utterance.commit resolution.direction with
      | none =>
        simp only [handleVerdict, commit, hcommit]
        split_ifs <;> exact .inl rfl
      | some latched =>
        obtain ⟨flushed, u⟩ := latched
        obtain ⟨⟨hknown, -⟩, -⟩ := Utterance.commit_eq_some.mp hcommit
        cases hanchored : resolution.isAnchored with
        | false =>
          left
          simp only [handleVerdict, commit, hcommit, ne_eq, not_true_eq_false, if_false, hknown,
            hanchored, Bool.false_eq_true, bump]
          split_ifs <;> rfl
        | true =>
          refine .inr ⟨resolution, rfl, hanchored, ?_⟩
          simp only [handleVerdict, commit, hcommit, ne_eq, not_true_eq_false, if_false, hknown,
            hanchored, if_true, bump]
          split_ifs <;> rfl
    · simp only [handleVerdict, ne_eq, hstale, not_false_eq_true, if_true]
      exact .inl trivial

end Gate

namespace Conversation

variable {lower : Text → Text} {r : Resolver} {s t : Conversation} {a : TalkAction}

/-- What decided the prior that the step leaves behind. -/
def PriorDecided (lower : Text → Text) (r : Resolver) (t : Conversation) : TalkAction → Prop
  | .frame f => ∃ text, f.msg.originalText = some text ∧ r.resolveLocal text ≠ .unknown ∧
      t.gate.lastDirection = r.resolveLocal text
  | .verdict q answer => ∃ reply, answer = r.resolve lower q.text q.stage q.prior reply ∧
      r.Decides lower q.text reply t.gate.lastDirection
  -- the conversation is over, and nothing is known about the next one
  | .close => t.gate.lastDirection = .unknown

lemma priorDecided_of_step (hanswered : r.IsAnswered lower a) (hstep : s.step r a = some t)
    (hchanged : t.gate.lastDirection ≠ s.gate.lastDirection) : PriorDecided lower r t a := by
  cases a with
  | frame f =>
    simp only [Conversation.step, Option.ite_none_right_eq_some, Option.some.injEq] at hstep
    obtain ⟨-, rfl⟩ := hstep
    exact (s.gate.routeFrame_lastDirection f).resolve_left hchanged
  | verdict q answer =>
    simp only [Conversation.step, Option.ite_none_right_eq_some, Option.some.injEq] at hstep
    obtain ⟨-, rfl⟩ := hstep
    obtain ⟨resolution, rfl, hanchored, heq⟩ := (s.gate.handleVerdict_lastDirection
      s.classifyFailures q.generation answer).resolve_left hchanged
    obtain ⟨reply, hreply⟩ := hanswered
    have hdecides := ((resolve_spec hreply.symm).1 hanchored).2
    refine ⟨reply, hreply, ?_⟩
    simp only [handleVerdict, heq]
    exact hdecides
  | close =>
    obtain rfl := Option.some_inj.mp hstep
    rfl

/-- A verdict that may still be applied was asked with the prior of the moment. -/
structure Timely (s : Conversation) : Prop where
  quiet : s.gate.utterance.draining = true → s.gate.utterance.original = []
  current : ∀ q ∈ s.inFlight, q.generation = s.gate.generation →
    s.gate.utterance.direction = .unknown → q.prior = s.gate.lastDirection
  drained : s.gate.utterance.draining = true →
    ∀ q ∈ s.inFlight, q.generation ≠ s.gate.generation

/-- No answer is out for as long as it takes the generation to wrap around. -/
def keepsPace (s : Conversation) : Bool :=
  s.inFlight.all fun q => q.generation ≠ s.gate.generation + 1

lemma init_timely (r : Resolver) (sourceId : String) : (init r sourceId).Timely :=
  ⟨fun _ => rfl, by simp [init], by simp [init]⟩

/-- A new generation has no answers out. -/
lemma Timely.bump (hpace : s.keepsPace = true) (hflight : ∀ q ∈ t.inFlight, q ∈ s.inFlight)
    (hgeneration : t.gate.generation = s.gate.generation + 1)
    (hquiet : t.gate.utterance.draining = true → t.gate.utterance.original = []) : t.Timely := by
  have hnone : ∀ q ∈ t.inFlight, q.generation ≠ t.gate.generation := by
    intro q hq
    rw [hgeneration]
    exact of_decide_eq_true (List.all_eq_true.mp hpace q (hflight q hq))
  exact ⟨hquiet, fun q hq hcurrent => absurd hcurrent (hnone q hq), fun _ => hnone⟩

/-- The same generation, with the same or fewer answers out. -/
lemma Timely.congr (h : s.Timely) (hflight : ∀ q ∈ t.inFlight, q ∈ s.inFlight)
    (hgeneration : t.gate.generation = s.gate.generation)
    (hprior : t.gate.lastDirection = s.gate.lastDirection)
    (hdirection : t.gate.utterance.direction = s.gate.utterance.direction)
    (horiginal : t.gate.utterance.original = s.gate.utterance.original)
    (hdraining : t.gate.utterance.draining = s.gate.utterance.draining) : t.Timely where
  quiet := by
    rw [hdraining, horiginal]
    exact h.quiet
  current q hq := by
    rw [hgeneration, hdirection, hprior]
    exact h.current q (hflight q hq)
  drained hdrains q hq := by
    rw [hgeneration]
    exact h.drained (hdraining ▸ hdrains) q (hflight q hq)

lemma prior_of_asked (r : Resolver) (f : Frame) (text : Text) (g : Gate) :
    ∀ q ∈ (g.hear r f text).asked, q.prior = (g.hear r f text).gate.lastDirection := by
  intro q hq
  simp only [Gate.hear] at hq ⊢
  split at hq
  · cases hq
  · split_ifs at hq ⊢
    · obtain rfl := List.mem_singleton.mp hq
      rfl
    · cases hq

lemma Timely.hear {f : Frame} {text : Text} (h : s.Timely)
    (htext : f.msg.originalText = some text) : (s.afterHear r f text).Timely := by
  have hasked := prior_of_asked r f text s.gate
  have hheard := Gate.hear_spec r s.gate f text
  simp only [afterHear]
  cases hecho : s.gate.utterance.isTrailingEcho f.lang text with
  | true =>
    have hnil : s.gate.utterance.original = [] := by
      simp only [Utterance.isTrailingEcho, Bool.and_eq_true, decide_eq_true_eq] at hecho
      exact hecho.1.1
    rw [Utterance.noteOriginal_of_isTrailingEcho hecho] at hheard
    generalize s.gate.hear r f text = heard at hheard hasked ⊢
    cases hheard with
    | latched _ _ hhint => exact absurd (by rw [hnil, Resolver.resolveLocal_nil]) hhint
    | shown previewed resolving captions asked _ hwanted =>
      obtain rfl : asked = [] := by
        refine List.eq_nil_iff_forall_not_mem.mpr fun q hq => ?_
        exact absurd (hwanted q hq).1 Bool.false_ne_true
      refine h.congr ?_ rfl rfl rfl rfl rfl
      simp
  | false =>
    obtain ⟨htrim, hne⟩ := ServerMessage.originalText_eq_some htext
    have hnoted := Utterance.noteOriginal_heard (by rwa [htrim]) hecho h.quiet
    generalize (s.gate.utterance.noteOriginal f.lang text).1 = u at hheard hnoted
    generalize (s.gate.utterance.noteOriginal f.lang text).2 = wants at hheard
    generalize s.gate.hear r f text = heard at hheard hasked ⊢
    cases hheard with
    | latched flushed hunknown hhint hflushed =>
      refine ⟨fun hdrains => ?_, fun q _ _ hlatched => ?_, fun hdrains => ?_⟩
      · exact absurd (hnoted.draining.symm.trans hdrains) Bool.false_ne_true
      · exact absurd hlatched hhint
      · exact absurd (hnoted.draining.symm.trans hdrains) Bool.false_ne_true
    | shown previewed resolving captions asked hundecided hwanted =>
      refine ⟨fun hdrains => ?_, fun q hq hcurrent hunknown => ?_, fun hdrains => ?_⟩
      · exact absurd (hnoted.draining.symm.trans hdrains) Bool.false_ne_true
      · rcases List.mem_append.mp hq with hq | hq
        · -- the sentence before drains without a question of this generation
          have hdraining : s.gate.utterance.draining = false := by
            by_contra hdrains
            exact h.drained (Bool.not_eq_false _ ▸ hdrains) q hq hcurrent
          have hdirection := hnoted.direction
          rw [hdraining] at hdirection
          exact h.current q hq hcurrent (hdirection.symm.trans hunknown)
        · exact hasked q hq
      · exact absurd (hnoted.draining.symm.trans hdrains) Bool.false_ne_true

/-- What hears words asks in the generation of the moment. -/
lemma keepsPace_afterHear {f : Frame} {text : Text} (hpace : s.keepsPace = true) :
    (s.afterHear r f text).keepsPace = true := by
  have hheard := Gate.hear_spec r s.gate f text
  simp only [keepsPace, List.all_eq_true, decide_eq_true_eq] at hpace ⊢
  simp only [afterHear]
  generalize (s.gate.utterance.noteOriginal f.lang text).1 = u at hheard
  generalize (s.gate.utterance.noteOriginal f.lang text).2 = wants at hheard
  generalize s.gate.hear r f text = heard at hheard ⊢
  cases hheard with
  | latched =>
    simp only [List.append_nil]
    exact hpace
  | shown previewed resolving captions asked _ hwanted =>
    intro q hq
    rcases List.mem_append.mp hq with hq | hq
    · exact hpace q hq
    · rw [(hwanted q hq).2.1]
      simp

lemma Timely.deliver {f : Frame} (h : s.Timely) (hpace : s.keepsPace = true) :
    (s.afterDeliver f).Timely := by
  by_cases hkind : f.kind = .subtitleFinal
  · have hframe : s.gate.utterance.onFrame f = s.gate.utterance.onFinal f := by
      rw [Utterance.onFrame, hkind]
    have hquiet : (s.gate.utterance.onFinal f).1.draining = true →
        (s.gate.utterance.onFinal f).1.original = [] := by
      rw [Utterance.onFinal]
      split_ifs
      all_goals first | exact h.quiet | exact fun _ => rfl
    simp only [afterDeliver, Gate.deliver, hkind, hframe, ne_eq, not_true_eq_false, if_false]
    split_ifs with hover hblank
    · exact Timely.bump hpace (by simp) rfl hquiet
    · exact Timely.bump hpace (by simp) rfl hquiet
    · push Not at hover
      obtain ⟨hunknown, -⟩ := hover
      -- the sentence is parked, and is asked about with the prior of the moment
      have hbefore : s.gate.utterance.direction = .unknown := by
        by_contra hknown
        rw [Utterance.onFinal, if_neg hknown] at hunknown
        split_ifs at hunknown <;> exact hknown hunknown
      have hparked : (s.gate.utterance.onFinal f).1.draining = s.gate.utterance.draining := by
        rw [Utterance.onFinal, if_pos hbefore]
        split_ifs <;> rfl
      refine ⟨hquiet, fun q hq hcurrent _ => ?_, fun hdrains q hq => ?_⟩
      · rcases List.mem_append.mp hq with hq | hq
        · exact h.current q hq hcurrent hbefore
        · obtain rfl := List.mem_singleton.mp hq
          rfl
      · rw [hparked] at hdrains
        -- what drains has no words to ask about
        have hnil := hquiet (hparked.trans hdrains)
        exact absurd (by rw [hnil]; rfl) hblank
  · obtain ⟨heldUser, heldOther, hheld⟩ := Utterance.onFrame_of_ne_final (u := s.gate.utterance)
      hkind
    have hdeliver : s.gate.deliver f =
        ⟨{ s.gate with utterance := { s.gate.utterance with heldUser, heldOther } },
          (s.gate.utterance.onFrame f).2.frames.map .relay, []⟩ := by
      simp only [Gate.deliver, if_pos hkind, hheld]
    simp only [afterDeliver, hdeliver]
    exact h.congr (by simp) rfl rfl rfl rfl rfl

/-- The verdict ends the utterance. -/
lemma Timely.closed (hpace : s.keepsPace = true) (hflight : ∀ q ∈ t.inFlight, q ∈ s.inFlight)
    (hgate : t.gate = Gate.endUtterance { s.gate with resolving := false }) : t.Timely := by
  refine Timely.bump hpace hflight ?_ ?_ <;> rw [hgate]
  · rfl
  · exact fun _ => rfl

/-- The verdict decides nothing. -/
lemma Timely.undecided (h : s.Timely) (hflight : ∀ q ∈ t.inFlight, q ∈ s.inFlight)
    (hgate : t.gate = { s.gate with resolving := false }) : t.Timely := by
  refine h.congr hflight ?_ ?_ ?_ ?_ ?_ <;> rw [hgate]

lemma Timely.verdict {q : Question} {answer : Answer} (h : s.Timely)
    (hpace : s.keepsPace = true) : (s.handleVerdict r q answer).Timely := by
  have hflight : ∀ q' ∈ (s.handleVerdict r q answer).inFlight, q' ∈ s.inFlight :=
    fun _ => List.mem_of_mem_erase
  cases answer with
  | err error =>
    by_cases hpending : s.gate.utterance.hasPendingFinal = true
    · exact Timely.closed hpace hflight
        (by simp only [handleVerdict, Gate.handleVerdict, if_pos hpending])
    · exact h.undecided hflight
        (by simp only [handleVerdict, Gate.handleVerdict, if_neg hpending])
  | ok resolution =>
    by_cases hstale : q.generation = s.gate.generation
    · cases hcommit : s.gate.utterance.commit resolution.direction with
      | none =>
        by_cases hunknown : resolution.direction = .unknown
        · by_cases hpending : s.gate.utterance.hasPendingFinal = true
          · exact Timely.closed hpace hflight (by
              simp only [handleVerdict, Gate.handleVerdict, hstale, ne_eq, not_true_eq_false,
                if_false, hunknown, if_true, if_pos hpending])
          · exact h.undecided hflight (by
              simp only [handleVerdict, Gate.handleVerdict, hstale, ne_eq, not_true_eq_false,
                if_false, hunknown, if_true, if_neg hpending])
        · exact h.undecided hflight (by
            simp only [handleVerdict, Gate.handleVerdict, Gate.commit, hcommit, hstale, ne_eq,
              not_true_eq_false, if_false, hunknown])
      | some latched =>
        obtain ⟨flushed, u⟩ := latched
        obtain ⟨lastDirection, heq⟩ :=
          Gate.handleVerdict_of_current (r := r) hcommit s.classifyFailures
        obtain ⟨⟨hknown, -⟩, -, rfl⟩ := Utterance.commit_eq_some.mp hcommit
        simp only [handleVerdict, hstale, heq] at hflight ⊢
        by_cases hpending : s.gate.utterance.hasPendingFinal = true
        · simp only [if_pos hpending]
          exact Timely.bump hpace hflight rfl fun _ => rfl
        · simp only [if_neg hpending]
          refine ⟨h.quiet, fun _ _ _ hlatched => absurd hlatched hknown, fun hdrains q' hq' => ?_⟩
          exact h.drained hdrains q' (hflight q' hq')
    · exact h.undecided hflight (by
        simp only [handleVerdict, Gate.handleVerdict, ne_eq, hstale, not_false_eq_true, if_true])

lemma Timely.step (h : s.Timely) (hpace : s.keepsPace = true) (hstep : s.step r a = some t) :
    t.Timely := by
  cases a with
  | frame f =>
    simp only [Conversation.step, Option.ite_none_right_eq_some, Option.some.injEq] at hstep
    obtain ⟨-, rfl⟩ := hstep
    cases htext : f.msg.originalText with
    | none =>
      rw [routeFrame_of_none htext]
      exact h.deliver hpace
    | some text =>
      by_cases hecho : f.kind = .subtitleFinal ∧ s.gate.utterance.isTrailingEcho f.lang text = true
      · have hrouted : s.gate.routeFrame r f = ⟨s.gate, [], []⟩ := by
          rw [Gate.routeFrame, htext]
          exact if_pos hecho
        simp only [routeFrame, hrouted]
        exact h.congr (by simp) rfl rfl rfl rfl rfl
      · rw [routeFrame_of_words htext hecho]
        exact (h.hear htext).deliver (keepsPace_afterHear hpace)
  | verdict q answer =>
    simp only [Conversation.step, Option.ite_none_right_eq_some, Option.some.injEq] at hstep
    obtain ⟨-, rfl⟩ := hstep
    exact h.verdict hpace
  | close =>
    obtain rfl := Option.some_inj.mp hstep
    exact Timely.bump hpace (fun _ hq => hq) rfl fun _ => rfl

lemma timely_of_run (sourceId : String) {as : List TalkAction}
    (hrun : Run (Guarded (Step r) fun s _ => s.keepsPace = true) (init r sourceId) as s) :
    s.Timely :=
  hrun.invariant Timely (fun _ _ _ _ h hstep => h.step hstep.1 hstep.2) (init_timely r sourceId)

end Conversation

/-! ## Runs of resolutions -/

/-- One resolution: the words, the stage, and what the model replies to them. -/
structure Exchange where
  text : Text
  stage : Stage
  reply : Except String Verdict

/-- The resolution is committed, and ends the sentence if it decides it. -/
def Gate.settle (g : Gate) : Answer → Gate
  | .ok resolution =>
    match g.commit resolution with
    | some (_, g') => g'.endUtterance
    | none => g
  | .err _ => g

section Exchanges

variable (lower : Text → Text) (r : Resolver)

/-- What the words are resolved to: the prior of the moment travels with the question. -/
def Gate.answer (g : Gate) (x : Exchange) : Answer :=
  r.resolve lower x.text x.stage g.lastDirection x.reply

/-- The resolutions of a conversation, one after the other. -/
def Gate.resolutions : Gate → List Exchange → List Answer
  | _, [] => []
  | g, x :: xs => g.answer lower r x :: (g.settle (g.answer lower r x)).resolutions xs

/-- The exchanges of the conversation but those that the prior carried. -/
def Gate.uncorroborated : Gate → List Exchange → List Exchange
  | _, [] => []
  | g, x :: xs =>
    let rest := (g.settle (g.answer lower r x)).uncorroborated xs
    if (g.answer lower r x).isCorroborated then rest else x :: rest

variable {lower r} {g g' : Gate} {answer : Answer} {xs : List Exchange}

/-- **A conversation is a run of resolutions.**  The prior that a verdict was asked with is that of
the gate it is applied to. -/
theorem Conversation.answer_of_run (sourceId : String) {as : List TalkAction} {s : Conversation}
    (hrun : Run (Guarded (Step r) fun s _ => s.keepsPace = true) (init r sourceId) as s)
    {q : Question} (hq : q ∈ s.inFlight) (hcurrent : q.generation = s.gate.generation)
    (hunknown : s.gate.utterance.direction = .unknown) (reply : Except String Verdict) :
    r.resolve lower q.text q.stage q.prior reply =
      s.gate.answer lower r ⟨q.text, q.stage, reply⟩ := by
  rw [Gate.answer, (timely_of_run sourceId hrun).current q hq hcurrent hunknown]

/-- A resolution leaves the next sentence to be decided, and a corroborated one leaves the prior. -/
lemma Gate.settle_spec (hfresh : g.utterance.direction = .unknown) (answer : Answer) :
    (g.settle answer).utterance.direction = .unknown ∧
      (g.settle answer).lastDirection =
        match answer with
        | .ok resolution =>
          if resolution.isAnchored ∧ resolution.direction ≠ .unknown then resolution.direction
          else g.lastDirection
        | .err _ => g.lastDirection := by
  cases answer with
  | err error => exact ⟨hfresh, rfl⟩
  | ok resolution =>
    simp only [settle]
    split
    · next flushed g' hcommit =>
      obtain ⟨u, hu, rfl⟩ := commit_eq_some.mp hcommit
      have hknown := (Utterance.commit_eq_some.mp hu).1.1
      refine ⟨rfl, ?_⟩
      simp only [endUtterance, hknown, ne_eq, not_false_eq_true, and_true]
    · next hcommit =>
      rcases commit_eq_none_iff.mp hcommit with hunknown | hlatched
      · exact ⟨hfresh, by simp [hunknown]⟩
      · exact absurd hfresh hlatched

lemma Gate.resolutions_uncorroborated (hfresh : g.utterance.direction = .unknown)
    (hfresh' : g'.utterance.direction = .unknown) (hprior : g'.lastDirection = g.lastDirection) :
    g'.resolutions lower r (g.uncorroborated lower r xs) =
      (g.resolutions lower r xs).filter fun answer => !answer.isCorroborated := by
  induction xs generalizing g g' with
  | nil => rfl
  | cons x xs ih =>
    have hanswer : g'.answer lower r x = g.answer lower r x := by
      rw [answer, answer, hprior]
    obtain ⟨hnext, hafter⟩ := settle_spec hfresh (g.answer lower r x)
    obtain ⟨hnext', hafter'⟩ := settle_spec hfresh' (g.answer lower r x)
    rw [uncorroborated, resolutions]
    by_cases hcorroborated : (g.answer lower r x).isCorroborated = true
    · -- the prior is as if the sentence had not been said
      rw [if_pos hcorroborated, List.filter_cons_of_neg (by simp [hcorroborated])]
      refine ih hnext hfresh' ?_
      cases hok : g.answer lower r x with
      | err error => rw [hok] at hcorroborated; cases hcorroborated
      | ok resolution =>
        rw [hok] at hcorroborated hafter
        simp only [Answer.isCorroborated, Bool.and_eq_true, Bool.not_eq_true'] at hcorroborated
        rw [hprior, hafter]
        simp [hcorroborated.1]
    · rw [if_neg hcorroborated, List.filter_cons_of_pos (by simp [hcorroborated]), resolutions,
        hanswer]
      congr 1
      refine ih hnext hnext' ?_
      rw [hafter, hafter', hprior]

end Exchanges

/-- **Directions are resolved fairly and without a ratchet.**  Exchanging the languages exchanges
the sides; a verdict that names neither is no direction; the prior changes only where the script or
a confident verdict decided; and the other resolutions do not notice those that it carried. -/
theorem resolved_fairly (lower : Text → Text) :
    (∀ text userLang otherLang,
      scriptHint text otherLang userLang = (scriptHint text userLang otherLang).mirror) ∧
    (∀ lang confidence userLang otherLang prior, baseCode userLang ≠ baseCode otherLang →
      interpret lower lang confidence otherLang userLang prior.mirror =
        (interpret lower lang confidence userLang otherLang prior).mirror) ∧
    (∀ lang confidence userLang otherLang prior, baseCode (lower lang.trim) ≠ baseCode userLang →
      baseCode (lower lang.trim) ≠ baseCode otherLang →
      interpret lower lang confidence userLang otherLang prior = .UNKNOWN) ∧
    (∀ r sourceId as s, Run (Guarded (Conversation.Step r) fun _ a => r.IsAnswered lower a)
        (.init r sourceId) as s →
      ∀ pre a u v, pre ++ [a] <+: as → Run (Conversation.Step r) (.init r sourceId) pre u →
        u.step r a = some v → v.gate.lastDirection ≠ u.gate.lastDirection →
        Conversation.PriorDecided lower r v a) ∧
    ∀ r (g : Gate) xs, g.utterance.direction = .unknown →
      (∀ x, (g.settle (g.answer lower r x)).lastDirection ≠ g.lastDirection →
        r.Decides lower x.text x.reply (g.settle (g.answer lower r x)).lastDirection) ∧
      g.resolutions lower r (g.uncorroborated lower r xs) =
        (g.resolutions lower r xs).filter fun answer => !answer.isCorroborated := by
  refine ⟨scriptHint_mirror, fun _ _ _ _ _ => interpret_mirror, fun _ _ _ _ _ => interpret_foreign,
    fun r sourceId as s hrun pre a u v hpre hu hstep => ?_, fun r g xs hfresh => ⟨?_, ?_⟩⟩
  · have hanswered := Run.guard_of_step hpre hrun hu hstep
    exact Conversation.priorDecided_of_step hanswered hstep
  · intro x hchanged
    obtain ⟨-, hafter⟩ := Gate.settle_spec hfresh (g.answer lower r x)
    cases hanswer : g.answer lower r x with
    | err error =>
      rw [hanswer] at hafter hchanged
      exact absurd hafter hchanged
    | ok resolution =>
      rw [hanswer] at hafter hchanged
      simp only at hafter
      rw [hafter] at hchanged ⊢
      split_ifs at hchanged ⊢ with hanchored
      · exact ((resolve_spec hanswer).1 hanchored.1).2
      · exact absurd rfl hchanged
  · exact Gate.resolutions_uncorroborated hfresh hfresh rfl

end VoxTranslate.Talk
