import VoxTranslate.Talk.Utterance
import VoxTranslate.Lib.Run

/-!
# The gate of a conversation

The gate feeds one utterance with the frames of the two listener channels and with the verdicts
of the classifier.  A verdict is slower than speech: it is asked about one sentence and may come
back during another, and the generation it carries is what tells the two apart.
-/

namespace VoxTranslate.Talk

open Lib Engine

/-- Which floor a classification runs against. -/
inductive Stage where
  | partialText | finalText
  deriving DecidableEq, Repr

/-- A classification that is under way.  The sentence of the frame that asked for it is for the
reader only. -/
structure Question where
  generation : UInt64
  prior : Direction
  text : Text
  stage : Stage
  sentence : Nat
  deriving DecidableEq, Repr

/-- What the classifier says: a resolution, or that it failed. -/
inductive Answer where
  | ok (resolution : Resolution)
  | err (error : String)
  deriving DecidableEq, Repr

/-- What the browser is sent: frames of the channels, and messages of the gate's own. -/
inductive Outgoing where
  | relay (f : Frame)
  | own (m : ServerMessage)
  deriving DecidableEq, Repr

/-- The state the frame gate carries from one frame to the next. -/
structure Gate where
  utterance : Utterance
  /-- Bumped at every utterance boundary. -/
  generation : UInt64
  /-- One classification at a time for partials. -/
  resolving : Bool
  /-- The direction the conversation last settled on with evidence. -/
  lastDirection : Direction
  sourceId : String
  /-- The last original that was shown ahead of a direction. -/
  previewed : Text
  deriving DecidableEq, Repr

/-- The gate after a frame, what was sent, and what was asked. -/
structure Routed where
  gate : Gate
  sent : List Outgoing
  asked : List Question
  deriving DecidableEq, Repr

/-- `MAX_SILENT_CLASSIFY_FAILURES`. -/
def maxSilentClassifyFailures : Nat := 3

/-- What the client is told when the classifier is down. -/
def unavailable : ServerMessage :=
  .error "translation is unavailable right now" (some "provider_unavailable")

/-- `emit_direction`. -/
def emitDirection (r : Resolver) (d : Direction) : List Outgoing :=
  match d.source r.userLang r.otherLang, d.target r.userLang r.otherLang with
  | some spoken, some target => [.own (.talkDirection spoken target)]
  | _, _ => []

/-- `release_pending`: the sentence a verdict unblocked, and whether the utterance is over. -/
def releasePending (u : Utterance) : Option Frame × Bool × Utterance :=
  if u.hasPendingFinal then
    let released := u.takePendingFinal
    (released.1, true, released.2.reset)
  else (none, false, u)

namespace Gate

def new (userLang otherLang : Lang) (sourceId : String) : Gate where
  utterance := .new userLang otherLang
  generation := 0
  resolving := false
  lastDirection := .unknown
  sourceId
  previewed := []

/-- A caption of the spoken words alone. -/
def preview (g : Gate) (text : Text) : Option (ServerMessage × Gate) :=
  if text = [] ∨ text = g.previewed then none
  else
    some (.subtitleInterim g.sourceId "Microphone" [] "auto".toList (some text),
      { g with previewed := text })

/-- Latch a direction; only an anchored resolution becomes the prior. -/
def commit (g : Gate) (resolution : Resolution) : Option (List Frame × Gate) :=
  match g.utterance.commit resolution.direction with
  | none => none
  | some (flushed, u) =>
    some (flushed, { g with
      utterance := u
      lastDirection := if resolution.isAnchored then resolution.direction else g.lastDirection })

def bump (g : Gate) : Gate := { g with generation := g.generation + 1 }

/-- End the current sentence. -/
def endUtterance (g : Gate) : Gate :=
  { g with generation := g.generation + 1, previewed := [], utterance := g.utterance.reset }

/-- End the conversation: the prior goes with it. -/
def close (g : Gate) : Gate := { g.endUtterance with lastDirection := .unknown }

/-- `spawn_resolve`: ask about the utterance as it stands. -/
def spawnResolve (g : Gate) (stage : Stage) (sentence : Nat) : Question :=
  ⟨g.generation, g.lastDirection, g.utterance.original, stage, sentence⟩

/-- Show the words while the side is still being worked out. -/
def showWords (g : Gate) : Gate × List Outgoing :=
  if g.utterance.direction = .unknown then
    match g.preview g.utterance.original with
    | some (caption, g') => (g', [.own caption])
    | none => (g, [])
  else (g, [])

/-- What `route_frame` does with the words of a subtitle, before the frame itself is routed. -/
def hear (r : Resolver) (g : Gate) (f : Frame) (text : Text) : Routed :=
  let noted := g.utterance.noteOriginal f.lang text
  let g := { g with utterance := noted.1 }
  let hint :=
    if g.utterance.direction = .unknown then r.resolveLocal g.utterance.original else .unknown
  match g.commit (.anchored hint) with
  | some (flushed, g) => ⟨g, emitDirection r hint ++ flushed.map .relay, []⟩
  | none =>
    let shown := g.showWords
    if noted.2 && !shown.1.resolving then
      ⟨{ shown.1 with resolving := true }, shown.2, [shown.1.spawnResolve .partialText f.sentence]⟩
    else ⟨shown.1, shown.2, []⟩

/-- What `route_frame` does with the frame itself. -/
def deliver (g : Gate) (f : Frame) : Routed :=
  let routed := g.utterance.onFrame f
  let g := { g with utterance := routed.1 }
  let sent := routed.2.frames.map .relay
  if f.kind ≠ .subtitleFinal then ⟨g, sent, []⟩
  else if g.utterance.direction ≠ .unknown ∨ g.utterance.hasPendingFinal = false then
    ⟨g.bump, sent, []⟩
  else if g.utterance.original.trim = [] then ⟨g.bump, sent, []⟩
  else
    -- the answer will be about this sentence, so the generation stays
    ⟨{ g with resolving := true }, sent, [g.spawnResolve .finalText f.sentence]⟩

/-- `route_frame`. -/
def routeFrame (r : Resolver) (g : Gate) (f : Frame) : Routed :=
  match f.msg.originalText with
  | some text =>
    if f.kind = .subtitleFinal ∧ g.utterance.isTrailingEcho f.lang text then ⟨g, [], []⟩
    else
      let heard := g.hear r f text
      let delivered := heard.gate.deliver f
      ⟨delivered.gate, heard.sent ++ delivered.sent, heard.asked ++ delivered.asked⟩
  | none => g.deliver f

/-- The verdict arm of `handle_talk_session`: the gate, the failures in a row, what is sent. -/
def handleVerdict (r : Resolver) (g : Gate) (classifyFailures : Nat) (generation : UInt64) :
    Answer → Gate × Nat × List Outgoing
  | .err _ =>
    let g := { g with resolving := false }
    let failures := classifyFailures + 1
    let sent := if failures = maxSilentClassifyFailures then [.own unavailable] else []
    (if g.utterance.hasPendingFinal then g.endUtterance else g, failures, sent)
  | .ok resolution =>
    let g := { g with resolving := false }
    if generation ≠ g.generation then (g, 0, [])
    else if resolution.direction = .unknown then
      (if g.utterance.hasPendingFinal then g.endUtterance else g, 0, [])
    else
      match g.commit resolution with
      | none => (g, 0, [])
      | some (flushed, g) =>
        let released := releasePending g.utterance
        let g := { g with utterance := released.2.2 }
        (if released.2.1 then g.bump else g, 0,
          emitDirection r resolution.direction ++ flushed.map .relay ++
            released.1.toList.map .relay)

variable {r : Resolver} {g g' : Gate} {f : Frame} {text : Text}

lemma commit_eq_some {resolution : Resolution} {flushed : List Frame} :
    g.commit resolution = some (flushed, g') ↔
      ∃ u, g.utterance.commit resolution.direction = some (flushed, u) ∧ g' = { g with
        utterance := u
        lastDirection := if resolution.isAnchored then resolution.direction
          else g.lastDirection } := by
  rw [commit]
  split
  · next h => simp [h]
  · next flushed' u h =>
    rw [Option.some_inj, Prod.mk.injEq]
    constructor
    · rintro ⟨rfl, rfl⟩
      exact ⟨u, h, rfl⟩
    · rintro ⟨u', hu', rfl⟩
      cases h.symm.trans hu'
      exact ⟨rfl, rfl⟩

lemma commit_eq_none_iff {resolution : Resolution} : g.commit resolution = none ↔
    resolution.direction = .unknown ∨ g.utterance.direction ≠ .unknown := by
  rw [commit]
  split
  · next h =>
    refine iff_of_true rfl ?_
    rw [Utterance.commit] at h
    by_contra hne
    rw [if_neg hne] at h
    cases h
  · next h =>
    obtain ⟨⟨hd, hunknown⟩, -⟩ := Utterance.commit_eq_some.mp h
    exact iff_of_false (by simp) fun hor => hor.elim hd (absurd hunknown)

/-- What hearing words does to the gate: the script decides and latches a direction, or the
words are shown and perhaps asked about. -/
inductive Heard (r : Resolver) (g : Gate) (f : Frame) (u : Utterance) (wants : Bool) :
    Routed → Prop where
  | latched (flushed : List Frame) (hunknown : u.direction = .unknown)
      (hhint : r.resolveLocal u.original ≠ .unknown)
      (hflushed : flushed = if r.resolveLocal u.original = .userToOther then u.heldOther
        else u.heldUser) :
      Heard r g f u wants
        ⟨{ g with
            utterance := { u with
              direction := r.resolveLocal u.original, heldUser := [], heldOther := [] }
            lastDirection := r.resolveLocal u.original },
          emitDirection r (r.resolveLocal u.original) ++ flushed.map .relay, []⟩
  | shown (previewed : Text) (resolving : Bool) (captions : List ServerMessage)
      (asked : List Question)
      (hundecided : u.direction ≠ .unknown ∨ r.resolveLocal u.original = .unknown)
      (hasked : ∀ q ∈ asked,
        wants = true ∧ q.generation = g.generation ∧ q.sentence = f.sentence) :
      Heard r g f u wants
        ⟨{ g with utterance := u, previewed, resolving }, captions.map .own, asked⟩

lemma showWords_eq (g : Gate) : ∃ (previewed : Text) (captions : List ServerMessage),
    g.showWords = ({ g with previewed }, captions.map .own) := by
  rw [showWords]
  split_ifs
  · rw [preview]
    split_ifs
    · exact ⟨g.previewed, [], rfl⟩
    · exact ⟨_, [_], rfl⟩
  · exact ⟨g.previewed, [], rfl⟩

lemma hear_spec (r : Resolver) (g : Gate) (f : Frame) (text : Text) :
    Heard r g f (g.utterance.noteOriginal f.lang text).1 (g.utterance.noteOriginal f.lang text).2
      (g.hear r f text) := by
  obtain ⟨u, wants, hnoted⟩ : ∃ u wants, g.utterance.noteOriginal f.lang text = (u, wants) :=
    ⟨_, _, rfl⟩
  simp only [hear, hnoted]
  split
  · next flushed g' hcommit =>
    obtain ⟨u', hu', rfl⟩ := commit_eq_some.mp hcommit
    obtain ⟨⟨hhint, hunknown⟩, hflushed, rfl⟩ := Utterance.commit_eq_some.mp hu'
    have hdirection : u.direction = .unknown := hunknown
    simp only [Resolution.anchored, hdirection, if_true] at hhint hflushed ⊢
    simp only [ne_eq, hhint, not_false_eq_true, decide_true, if_true]
    exact .latched flushed hdirection hhint hflushed
  · next hcommit =>
    have hundecided : u.direction ≠ .unknown ∨ r.resolveLocal u.original = .unknown := by
      by_cases hunknown : u.direction = .unknown
      · rcases commit_eq_none_iff.mp hcommit with hhint | hne
        · exact .inr (by simpa [Resolution.anchored, hunknown] using hhint)
        · exact absurd hunknown hne
      · exact .inl hunknown
    obtain ⟨previewed, captions, hshown⟩ := showWords_eq { g with utterance := u }
    rw [hshown]
    split_ifs with hask
    · refine .shown previewed true captions _ hundecided ?_
      simp only [Bool.and_eq_true] at hask
      simp [spawnResolve, hask.1]
    · exact .shown previewed g.resolving captions [] hundecided (by simp)

lemma Heard.parked {u : Utterance} {wants : Bool} {heard : Routed} (h : Heard r g f u wants heard) :
    heard.gate.utterance.parked = u.parked := by
  cases h <;> rfl

lemma deliver_utterance (g : Gate) (f : Frame) :
    (g.deliver f).gate.utterance = (g.utterance.onFrame f).1 := by
  simp only [deliver]
  split_ifs <;> rfl

lemma mem_parked_routeFrame {p : Frame} (h : p ∈ (g.routeFrame r f).gate.utterance.parked) :
    p ∈ g.utterance.parked ∨ p = f := by
  rw [routeFrame] at h
  split at h
  · next text _ =>
    split_ifs at h
    · exact .inl h
    · simp only [deliver_utterance] at h
      have hheard := (hear_spec r g f text).parked
      rw [Utterance.parked_noteOriginal] at hheard
      exact hheard ▸ Utterance.mem_parked_onFrame h
  · rw [deliver_utterance] at h
    exact Utterance.mem_parked_onFrame h

/-- What a verdict does to the utterance. -/
inductive Judged (g : Gate) : Utterance → Prop where
  /-- Nothing: it is stale, or has nothing to decide. -/
  | kept : Judged g g.utterance
  /-- It closes a sentence that is parked. -/
  | closed (hpending : g.utterance.hasPendingFinal = true) : Judged g g.utterance.reset
  /-- It latches a direction while the sentence is being spoken. -/
  | latched {u : Utterance} {d : Direction} {flushed : List Frame}
      (hcommit : g.utterance.commit d = some (flushed, u))
      (hpending : g.utterance.hasPendingFinal = false) : Judged g u

lemma reset_commit {u u' : Utterance} {d : Direction} {flushed : List Frame}
    (h : u.commit d = some (flushed, u')) : u'.takePendingFinal.2.reset = u.reset := by
  obtain ⟨-, -, rfl⟩ := Utterance.commit_eq_some.mp h
  rcases Utterance.takePendingFinal_cases { u with direction := d, heldUser := [], heldOther := [] }
    with heq | ⟨_, _, -, -, -, heq⟩ <;> rw [heq] <;> rfl

/-- The direction is latched; what is parked is released, and the utterance is over then. -/
lemma handleVerdict_of_current {resolution : Resolution} {flushed : List Frame} {u : Utterance}
    (hcommit : g.utterance.commit resolution.direction = some (flushed, u)) (failures : Nat) :
    ∃ lastDirection, g.handleVerdict r failures g.generation (.ok resolution) =
      if g.utterance.hasPendingFinal then
        ({ g with
            resolving := false, lastDirection, generation := g.generation + 1
            utterance := g.utterance.reset }, 0,
          emitDirection r resolution.direction ++ flushed.map .relay ++
            u.takePendingFinal.1.toList.map .relay)
      else
        ({ g with resolving := false, lastDirection, utterance := u }, 0,
          emitDirection r resolution.direction ++ flushed.map .relay) := by
  have hpending : u.hasPendingFinal = g.utterance.hasPendingFinal := by
    obtain ⟨-, -, rfl⟩ := Utterance.commit_eq_some.mp hcommit
    rfl
  have hknown : resolution.direction ≠ .unknown := (Utterance.commit_eq_some.mp hcommit).1.1
  refine ⟨if resolution.isAnchored then resolution.direction else g.lastDirection, ?_⟩
  simp only [handleVerdict, ne_eq, not_true_eq_false, if_false, hknown, commit, hcommit]
  by_cases h : g.utterance.hasPendingFinal = true
  · have hreleased : releasePending u = (u.takePendingFinal.1, true, g.utterance.reset) := by
      rw [releasePending, if_pos (hpending.trans h), ← reset_commit hcommit]
    simp only [hreleased, if_pos h, if_true]
    rfl
  · have hreleased : releasePending u = (none, false, u) := by
      rw [releasePending, if_neg (hpending ▸ h)]
    simp only [hreleased, if_neg h, Bool.false_eq_true, if_false, Option.toList_none, List.map_nil,
      List.append_nil]

lemma handleVerdict_judged (r : Resolver) (g : Gate) (failures : Nat) (generation : UInt64)
    (answer : Answer) :
    Judged g (g.handleVerdict r failures generation answer).1.utterance := by
  cases answer with
  | err =>
    simp only [handleVerdict]
    split_ifs with hpending
    · exact .closed hpending
    · exact .kept
  | ok resolution =>
    by_cases hstale : generation = g.generation
    · subst hstale
      cases hcommit : g.utterance.commit resolution.direction with
      | none =>
        simp only [handleVerdict, commit, hcommit, ne_eq, not_true_eq_false, if_false]
        split_ifs with hunknown hpending
        · exact .closed hpending
        · exact .kept
        · exact .kept
      | some latched =>
        obtain ⟨flushed, u⟩ := latched
        obtain ⟨lastDirection, heq⟩ := handleVerdict_of_current hcommit failures
        rw [heq]
        split_ifs with hpending
        · exact .closed hpending
        · exact .latched hcommit (Bool.not_eq_true _ ▸ hpending)
    · simp only [handleVerdict, ne_eq, hstale, not_false_eq_true, if_true]
      exact .kept

lemma Judged.parked {u : Utterance} (h : Judged g u) : u.parked = g.utterance.parked ∨ u.parked = [] := by
  cases h with
  | kept => exact .inl rfl
  | closed => exact .inr rfl
  | latched hcommit =>
    obtain ⟨-, -, rfl⟩ := Utterance.commit_eq_some.mp hcommit
    exact .inl rfl

end Gate

/-! ## Conversations -/

/-- What happens in a conversation, in any order. -/
inductive TalkAction where
  /-- A frame on one of the two channels. -/
  | frame (f : Frame)
  /-- A classification comes back. -/
  | verdict (q : Question) (answer : Answer)
  /-- Stop, or the credits ran out. -/
  | close
  deriving DecidableEq, Repr

structure Conversation where
  gate : Gate
  classifyFailures : Nat
  /-- The classifications under way. -/
  inFlight : List Question
  sent : List Outgoing
  /-- How many frames have arrived. -/
  arrivals : Nat
  /-- The finals that have arrived. -/
  finals : List Frame
  /-- The frames whose words the current utterance has heard, the newest first. -/
  words : List Frame
  deriving DecidableEq, Repr

namespace Conversation

def init (r : Resolver) (sourceId : String) : Conversation where
  gate := .new r.userLang r.otherLang sourceId
  classifyFailures := 0
  inFlight := []
  sent := []
  arrivals := 0
  finals := []
  words := []

/-- The utterance hears the words of the frame. -/
def hears (s : Conversation) (f : Frame) : Bool :=
  match f.msg.originalText with
  | some text => !s.gate.utterance.isTrailingEcho f.lang text
  | none => false

/-- The words heard so far, with those of one more frame: they are the first of a new utterance
when the sentence before is only draining. -/
def wordsAfter (s : Conversation) (f : Frame) : List Frame :=
  if s.hears f then (if s.gate.utterance.draining then [f] else f :: s.words) else s.words

def routeFrame (r : Resolver) (s : Conversation) (f : Frame) : Conversation :=
  let routed := s.gate.routeFrame r f
  { s with
    gate := routed.gate
    inFlight := s.inFlight ++ routed.asked
    sent := s.sent ++ routed.sent
    arrivals := s.arrivals + 1
    finals := if f.kind = .subtitleFinal then f :: s.finals else s.finals
    words := s.wordsAfter f }

def handleVerdict (r : Resolver) (s : Conversation) (q : Question) (answer : Answer) : Conversation :=
  let handled := s.gate.handleVerdict r s.classifyFailures q.generation answer
  { s with
    gate := handled.1
    classifyFailures := handled.2.1
    inFlight := s.inFlight.erase q
    sent := s.sent ++ handled.2.2
    -- a verdict ends the utterance exactly when it clears what is parked
    words := if s.gate.utterance.hasPendingFinal && !handled.1.utterance.hasPendingFinal then []
      else s.words }

def step (r : Resolver) (s : Conversation) : TalkAction → Option Conversation
  | .frame f =>
    if (f.lang = r.userLang ∨ f.lang = r.otherLang) ∧ f.arrival = s.arrivals then
      some (s.routeFrame r f)
    else none
  | .verdict q answer => if q ∈ s.inFlight then some (s.handleVerdict r q answer) else none
  | .close => some { s with gate := s.gate.close, words := [] }

abbrev Step (r : Resolver) : Conversation → TalkAction → Conversation → Prop := ofPartial (step r)

end Conversation

end VoxTranslate.Talk
