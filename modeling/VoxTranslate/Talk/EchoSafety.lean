import VoxTranslate.Talk.Utterance
import VoxTranslate.Lib.Run

/-!
# No echo is handed out

Whatever the order in which frames, words, directions and resets reach an utterance, it hands
out frames of the latched side only, each at most once and the audio in order.  Every operation
passes on or keeps what it was given: it makes no frame up and doubles none.
-/

namespace VoxTranslate.Talk

open Lib Engine

/-- What happens to an utterance. -/
inductive UtteranceAction where
  | onFrame (f : Frame)
  | noteOriginal (lang : Lang) (text : Text)
  | commit (d : Direction)
  | takePendingFinal
  | reset
  deriving DecidableEq, Repr

namespace UtteranceAction

/-- The frame that arrives. -/
def arrived : UtteranceAction → List Frame
  | onFrame f => [f]
  | _ => []

/-- The utterance afterwards, and the frames it hands out. -/
def act (u : Utterance) : UtteranceAction → Utterance × List Frame
  | onFrame f => ((u.onFrame f).1, (u.onFrame f).2.frames)
  | noteOriginal lang text => ((u.noteOriginal lang text).1, [])
  | commit d =>
    match u.commit d with
    | some (flushed, u') => (u', flushed)
    | none => (u, [])
  | takePendingFinal => (u.takePendingFinal.2, u.takePendingFinal.1.toList)
  | reset => (u.reset, [])

end UtteranceAction

namespace Utterance

/-- The frames that wait for a direction. -/
def waiting (u : Utterance) : List Frame :=
  u.heldUser ++ u.heldOther ++ (u.pendingUser.toList ++ u.pendingOther.toList)

/-- The frame is of the side that lost. -/
def loses (u : Utterance) (f : Frame) : Bool :=
  u.direction ≠ .unknown && f.kind ≠ .other && !u.isTarget f.lang

/-- Where the frames that wait came from, and when none does. -/
structure Tidy (u : Utterance) : Prop where
  /-- Audio is held only without a direction. -/
  held : u.direction ≠ .unknown → u.heldUser = [] ∧ u.heldOther = []
  /-- While a sentence drains, its direction is known and nothing is parked. -/
  draining : u.draining = true →
    u.direction ≠ .unknown ∧ u.pendingUser = none ∧ u.pendingOther = none
  user : ∀ f ∈ u.heldUser ++ u.pendingUser.toList, f.lang = u.userLang
  other : ∀ f ∈ u.heldOther ++ u.pendingOther.toList, f.lang = u.otherLang
  parked : ∀ f ∈ u.pendingUser.toList ++ u.pendingOther.toList, f.kind = .subtitleFinal
  heldAudio : ∀ f ∈ u.heldUser ++ u.heldOther, f.kind = .translatedAudio

/-- The audio among some frames. -/
def audio (l : List Frame) : List Frame := l.filter fun f => f.kind = .translatedAudio

/-- What an operation does with the frames that wait and the one that arrives. -/
structure Effect (u : Utterance) (arrived : List Frame) (u' : Utterance) (out : List Frame) :
    Prop where
  langs : u'.userLang = u.userLang ∧ u'.otherLang = u.otherLang
  tidy : u'.Tidy
  /-- No frame is made up, or doubled. -/
  conserve : (out ++ u'.waiting).Subperm (arrived ++ u.waiting)
  /-- What is handed out is of the side that is spoken. -/
  target : ∀ f ∈ out, f.kind ≠ .other → u'.target = some f.lang
  /-- A latched direction ends with everything that waits. -/
  latched : u.direction ≠ .unknown → u'.direction = u.direction ∨ out = [] ∧ u'.waiting = []
  /-- Audio keeps its order: it goes on being held, or one side of it is handed out. -/
  order : (audio out = [] ∧ u'.heldUser.Sublist (u.heldUser ++ audio arrived) ∧
      u'.heldOther.Sublist (u.heldOther ++ audio arrived)) ∨
    (u'.heldUser = [] ∧ u'.heldOther = [] ∧
      ((audio out).Sublist (u.heldUser ++ audio arrived) ∨
        (audio out).Sublist (u.heldOther ++ audio arrived)))

variable {u u' : Utterance} {lang : Lang} {text : Text} {d : Direction} {f : Frame}

lemma audio_append (l l' : List Frame) : audio (l ++ l') = audio l ++ audio l' := List.filter_append ..

lemma push_sublist (held : List Frame) (f : Frame) : (push held f).Sublist (held ++ [f]) := by
  rw [push]
  split_ifs
  · exact (List.tail_sublist held).append (List.Sublist.refl _)
  · exact List.Sublist.refl _

lemma mem_push {held : List Frame} {g : Frame} (h : g ∈ push held f) : g ∈ held ∨ g = f := by
  simpa using (push_sublist held f).subset h

lemma audio_singleton (h : f.kind = .translatedAudio) : audio [f] = [f] := by
  simp [audio, h]

lemma audio_singleton_of_ne (h : f.kind ≠ .translatedAudio) : audio [f] = [] := by
  simp [audio, h]

lemma new_tidy (userLang otherLang : Lang) : (new userLang otherLang).Tidy := by
  constructor <;> simp [new]

/-- An operation that changes nothing about what waits. -/
lemma Effect.still (hu : u'.Tidy) (hlangs : u'.userLang = u.userLang ∧ u'.otherLang = u.otherLang)
    (hdirection : u'.direction = u.direction) (hheldUser : u'.heldUser = u.heldUser)
    (hheldOther : u'.heldOther = u.heldOther) (hpendingUser : u'.pendingUser = u.pendingUser)
    (hpendingOther : u'.pendingOther = u.pendingOther) (arrived : List Frame) :
    Effect u arrived u' [] := by
  have hwaiting : u'.waiting = u.waiting := by
    rw [waiting, waiting, hheldUser, hheldOther, hpendingUser, hpendingOther]
  refine ⟨hlangs, hu, ?_, ?_, fun _ => .inl hdirection, .inl ⟨rfl, ?_, ?_⟩⟩
  · rw [List.nil_append, hwaiting]
    exact (List.sublist_append_right _ _).subperm
  · simp
  · rw [hheldUser]
    exact List.sublist_append_left _ _
  · rw [hheldOther]
    exact List.sublist_append_left _ _

/-- An operation that forgets everything that waits. -/
lemma Effect.forget (hu : u'.Tidy) (hlangs : u'.userLang = u.userLang ∧ u'.otherLang = u.otherLang)
    (hheldUser : u'.heldUser = []) (hheldOther : u'.heldOther = [])
    (hpendingUser : u'.pendingUser = none) (hpendingOther : u'.pendingOther = none)
    (arrived : List Frame) : Effect u arrived u' [] := by
  have hwaiting : u'.waiting = [] := by
    rw [waiting, hheldUser, hheldOther, hpendingUser, hpendingOther]
    rfl
  refine ⟨hlangs, hu, ?_, ?_, fun _ => .inr ⟨rfl, hwaiting⟩, .inl ⟨rfl, ?_, ?_⟩⟩
  · rw [hwaiting]
    exact List.nil_subperm
  · simp
  · rw [hheldUser]
    exact List.nil_sublist _
  · rw [hheldOther]
    exact List.nil_sublist _

/-- A frame of the side that is spoken passes. -/
lemma Tidy.pass (h : u.Tidy) (htarget : f.kind ≠ .other → u.target = some f.lang)
    (hlatched : f.kind ≠ .other → u.direction ≠ .unknown) : Effect u [f] u [f] := by
  refine ⟨⟨rfl, rfl⟩, h, (List.Perm.refl _).subperm, ?_, fun _ => .inl rfl, ?_⟩
  · simpa using htarget
  · by_cases hkind : f.kind = .translatedAudio
    · obtain ⟨hheldUser, hheldOther⟩ := h.held (hlatched (by simp [hkind]))
      exact .inr ⟨hheldUser, hheldOther, .inl (by rw [hheldUser, List.nil_append])⟩
    · exact .inl ⟨audio_singleton_of_ne hkind, List.sublist_append_left _ _,
        List.sublist_append_left _ _⟩

/-! ## What each operation does -/

lemma reset_effect (u : Utterance) : Effect u [] u.reset [] := by
  have htidy : u.reset.Tidy := u.reset_eq ▸ new_tidy _ _
  refine .forget htidy ?_ rfl rfl rfl rfl []
  exact ⟨rfl, rfl⟩

lemma Tidy.endDrain (h : u.Tidy) : Effect u [] u.endDrain [] := by
  rw [Utterance.endDrain]
  split_ifs with hdraining
  · obtain ⟨-, huser, hother⟩ := h.draining hdraining
    have htidy : Tidy { u with
        draining := false, direction := .unknown, heldUser := [], heldOther := [] } := by
      constructor <;> simp [huser, hother]
    refine .forget htidy ?_ rfl rfl huser hother []
    exact ⟨rfl, rfl⟩
  · exact Effect.still h ⟨rfl, rfl⟩ rfl rfl rfl rfl rfl []

lemma Effect.congr {out arrived : List Frame} {u'' : Utterance} (h : Effect u arrived u' out)
    (hlangs : u''.userLang = u'.userLang ∧ u''.otherLang = u'.otherLang)
    (hdirection : u''.direction = u'.direction) (hdraining : u''.draining = u'.draining)
    (hheldUser : u''.heldUser = u'.heldUser) (hheldOther : u''.heldOther = u'.heldOther)
    (hpendingUser : u''.pendingUser = u'.pendingUser)
    (hpendingOther : u''.pendingOther = u'.pendingOther) : Effect u arrived u'' out := by
  have hwaiting : u''.waiting = u'.waiting := by
    rw [waiting, waiting, hheldUser, hheldOther, hpendingUser, hpendingOther]
  have htarget : u''.target = u'.target := by
    rw [Utterance.target, Utterance.target, hdirection, hlangs.1, hlangs.2]
  have htidy := h.tidy
  refine ⟨⟨hlangs.1.trans h.langs.1, hlangs.2.trans h.langs.2⟩, ⟨?_, ?_, ?_, ?_, ?_, ?_⟩,
    ?_, ?_, ?_, ?_⟩
  · rw [hdirection, hheldUser, hheldOther]
    exact htidy.held
  · rw [hdraining, hdirection, hpendingUser, hpendingOther]
    exact htidy.draining
  · rw [hheldUser, hpendingUser, hlangs.1]
    exact htidy.user
  · rw [hheldOther, hpendingOther, hlangs.2]
    exact htidy.other
  · rw [hpendingUser, hpendingOther]
    exact htidy.parked
  · rw [hheldUser, hheldOther]
    exact htidy.heldAudio
  · rw [hwaiting]
    exact h.conserve
  · rw [htarget]
    exact h.target
  · rw [hdirection, hwaiting]
    exact h.latched
  · rw [hheldUser, hheldOther]
    exact h.order

lemma Tidy.noteOriginal (h : u.Tidy) (lang : Lang) (text : Text) :
    Effect u [] (u.noteOriginal lang text).1 [] := by
  have hsame := Effect.still h ⟨rfl, rfl⟩ rfl rfl rfl rfl rfl []
  simp only [Utterance.noteOriginal]
  split_ifs
  · exact hsame
  · exact hsame
  all_goals exact h.endDrain.congr ⟨rfl, rfl⟩ rfl rfl rfl rfl rfl rfl

/-- One side's buffer takes one more frame of that side. -/
lemma push_subperm (held rest : List Frame) (f : Frame) :
    (push held f ++ rest).Subperm (f :: (held ++ rest)) := by
  have h := (push_sublist held f).append (List.Sublist.refl rest)
  rw [List.append_assoc, List.singleton_append] at h
  exact h.subperm.trans List.perm_middle.subperm

section Takes

variable {P : Frame → Prop} {old new rest : List Frame}

/-- What holds of a buffer's frames and of the frame it takes, holds of them afterwards. -/
lemma forall_takes_left (h : ∀ g ∈ old ++ rest, P g) (hnew : ∀ g ∈ new, g ∈ old ∨ g = f)
    (hf : P f) : ∀ g ∈ new ++ rest, P g := by
  intro g hg
  rcases List.mem_append.mp hg with hg | hg
  · obtain hold | rfl := hnew g hg
    · exact h g (List.mem_append_left _ hold)
    · exact hf
  · exact h g (List.mem_append_right _ hg)

lemma forall_takes_right (h : ∀ g ∈ rest ++ old, P g) (hnew : ∀ g ∈ new, g ∈ old ∨ g = f)
    (hf : P f) : ∀ g ∈ rest ++ new, P g := by
  intro g hg
  rcases List.mem_append.mp hg with hg | hg
  · exact h g (List.mem_append_left _ hg)
  · obtain hold | rfl := hnew g hg
    · exact h g (List.mem_append_right _ hold)
    · exact hf

end Takes

lemma Tidy.onAudio (h : u.Tidy) (hf : f.lang = u.userLang ∨ f.lang = u.otherLang)
    (hkind : f.kind = .translatedAudio) :
    Effect u [f] (u.onAudio f).1 (u.onAudio f).2.frames := by
  rw [Utterance.onAudio]
  split_ifs with hdirection huser htarget
  · have htidy : Tidy { u with heldUser := push u.heldUser f } := by
      refine ⟨fun hne => absurd hdirection hne, h.draining, ?_, h.other, h.parked, ?_⟩
      · exact forall_takes_left h.user (fun g => mem_push) huser
      · exact forall_takes_left h.heldAudio (fun g => mem_push) hkind
    refine ⟨⟨rfl, rfl⟩, htidy, ?_, by simp [Outcome.frames], fun _ => .inl rfl,
      .inl ⟨rfl, ?_, List.sublist_append_left _ _⟩⟩
    · simp only [Outcome.frames, waiting, List.nil_append, List.append_assoc, List.singleton_append]
      exact push_subperm _ _ _
    · rw [audio_singleton hkind]
      exact push_sublist _ _
  · have htidy : Tidy { u with heldOther := push u.heldOther f } := by
      refine ⟨fun hne => absurd hdirection hne, h.draining, h.user, ?_, h.parked, ?_⟩
      · exact forall_takes_left h.other (fun g => mem_push) (hf.resolve_left huser)
      · exact forall_takes_right h.heldAudio (fun g => mem_push) hkind
    refine ⟨⟨rfl, rfl⟩, htidy, ?_, by simp [Outcome.frames], fun _ => .inl rfl,
      .inl ⟨rfl, List.sublist_append_left _ _, ?_⟩⟩
    · simp only [Outcome.frames, waiting, List.nil_append, List.append_assoc, List.singleton_append]
      have hpush := (List.subperm_append_left u.heldUser).mpr
        (push_subperm u.heldOther (u.pendingUser.toList ++ u.pendingOther.toList) f)
      exact hpush.trans List.perm_middle.subperm
    · rw [audio_singleton hkind]
      exact push_sublist _ _
  · exact h.pass (fun _ => isTarget_iff.mp htarget) fun _ => hdirection
  · exact .still h ⟨rfl, rfl⟩ rfl rfl rfl rfl rfl _

lemma Tidy.onInterim (h : u.Tidy) : Effect u [f] (u.onInterim f).1 (u.onInterim f).2.frames := by
  have hstill : Effect u [f] u [] := .still h ⟨rfl, rfl⟩ rfl rfl rfl rfl rfl _
  rw [Utterance.onInterim]
  split_ifs with hdirection htarget
  · exact hstill
  · exact h.pass (fun _ => isTarget_iff.mp htarget) fun _ => hdirection
  · exact hstill

/-- A final that is parked: the slot of its side takes it, or is taken. -/
lemma or_some_toList_subperm (slot : Option Frame) (rest : List Frame) (f : Frame) :
    ((slot.or (some f)).toList ++ rest).Subperm (f :: (slot.toList ++ rest)) := by
  cases slot with
  | none => exact List.Subperm.refl _
  | some g => exact (List.sublist_cons_self f _).subperm

lemma mem_or_some {slot : Option Frame} {g : Frame} (h : g ∈ (slot.or (some f)).toList) :
    g ∈ slot.toList ∨ g = f := by
  cases slot with
  | none => exact .inr (by simpa using h)
  | some g' => exact .inl h

lemma mem_or_some_of_mem {slot : Option Frame} {g : Frame} (h : g ∈ slot.toList) :
    g ∈ (slot.or (some f)).toList := by
  cases slot with
  | none => cases h
  | some g' => exact h

/-- A slot that was offered a final of its side has one of that side. -/
lemma exists_mem_or_some {slot : Option Frame} (hside : ∀ p ∈ slot.toList, p.lang = f.lang) :
    ∃ p ∈ (slot.or (some f)).toList, p.lang = f.lang := by
  cases slot with
  | none => exact ⟨f, List.mem_singleton_self f, rfl⟩
  | some g => exact ⟨g, List.mem_singleton_self g, hside g (List.mem_singleton_self g)⟩

lemma Tidy.onFinal (h : u.Tidy) (hf : f.lang = u.userLang ∨ f.lang = u.otherLang)
    (hkind : f.kind = .subtitleFinal) :
    Effect u [f] (u.onFinal f).1 (u.onFinal f).2.frames := by
  have hstill : Effect u [f] u [] := .still h ⟨rfl, rfl⟩ rfl rfl rfl rfl rfl _
  rw [Utterance.onFinal]
  split_ifs with hdirection huser htarget hrepeat
  · have htidy : Tidy { u with pendingUser := u.pendingUser.or (some f) } := by
      refine ⟨h.held, fun hdraining => absurd hdirection (h.draining hdraining).1, ?_, h.other, ?_,
        h.heldAudio⟩
      · exact forall_takes_right h.user (fun g => mem_or_some) huser
      · exact forall_takes_left h.parked (fun g => mem_or_some) hkind
    refine ⟨⟨rfl, rfl⟩, htidy, ?_, by simp [Outcome.frames], fun _ => .inl rfl,
      .inl ⟨rfl, List.sublist_append_left _ _, List.sublist_append_left _ _⟩⟩
    simp only [Outcome.frames, waiting, List.nil_append]
    have hpark := (List.subperm_append_left (u.heldUser ++ u.heldOther)).mpr
      (or_some_toList_subperm u.pendingUser u.pendingOther.toList f)
    exact hpark.trans List.perm_middle.subperm
  · have htidy : Tidy { u with pendingOther := u.pendingOther.or (some f) } := by
      refine ⟨h.held, fun hdraining => absurd hdirection (h.draining hdraining).1, h.user, ?_, ?_,
        h.heldAudio⟩
      · exact forall_takes_right h.other (fun g => mem_or_some) (hf.resolve_left huser)
      · exact forall_takes_right h.parked (fun g => mem_or_some) hkind
    refine ⟨⟨rfl, rfl⟩, htidy, ?_, by simp [Outcome.frames], fun _ => .inl rfl,
      .inl ⟨rfl, List.sublist_append_left _ _, List.sublist_append_left _ _⟩⟩
    simp only [Outcome.frames, waiting, List.nil_append, ← List.append_assoc]
    have hpark := (List.subperm_append_left (u.heldUser ++ u.heldOther ++ u.pendingUser.toList)).mpr
      (or_some_toList_subperm u.pendingOther [] f)
    simp only [List.append_nil] at hpark
    exact hpark.trans List.perm_middle.subperm
  · exact hstill
  · exact hstill
  · -- the sentence is forwarded, and everything that waited for it goes
    have hlatched : (finishSentence { u with lastFinal := some f.msg }).direction = u.direction := rfl
    have htidy : (finishSentence { u with lastFinal := some f.msg }).Tidy := by
      constructor <;> simp [finishSentence, hdirection]
    have hwaiting : (finishSentence { u with lastFinal := some f.msg }).waiting = [] := rfl
    refine ⟨⟨rfl, rfl⟩, htidy, ?_, ?_, fun _ => .inl rfl, ?_⟩
    · rw [hwaiting, List.append_nil]
      exact (List.sublist_append_left _ _).subperm
    · intro g hg _
      obtain rfl : g = f := by simpa [Outcome.frames] using hg
      show u.target = some g.lang
      exact isTarget_iff.mp (by simpa using htarget)
    · refine .inl ⟨audio_singleton_of_ne (by simp [hkind]), ?_, ?_⟩ <;> exact List.nil_sublist _

/-- A final that has no direction yet is parked, or its side has one already. -/
structure Parks (u : Utterance) (f : Frame) (u' : Utterance) : Prop where
  direction : u'.direction = u.direction
  draining : u'.draining = u.draining
  original : u'.original = u.original
  lastFinal : u'.lastFinal = u.lastFinal
  old : ∀ p ∈ u.parked, p ∈ u'.parked
  new : ∀ p ∈ u'.parked, p ∈ u.parked ∨ p = f
  side : ∃ p ∈ u'.parked, p.lang = f.lang

lemma Tidy.parks (h : u.Tidy) (hf : f.lang = u.userLang ∨ f.lang = u.otherLang)
    (hkind : f.kind = .subtitleFinal) (hunknown : u.direction = .unknown) :
    (u.onFrame f).2 = .hold ∧ u.Parks f (u.onFrame f).1 := by
  have hnew : ∀ p ∈ (u.onFrame f).1.parked, p ∈ u.parked ∨ p = f := fun p hp =>
    mem_parked_onFrame hp
  have hframe : u.onFrame f = u.onFinal f := by
    rw [Utterance.onFrame, hkind]
  rw [hframe] at hnew ⊢
  rw [Utterance.onFinal, if_pos hunknown] at hnew ⊢
  split_ifs at hnew ⊢ with huser
  · have hslot : ∀ p ∈ u.pendingUser.toList, p.lang = f.lang := fun p hp => by
      rw [h.user p (List.mem_append_right _ hp), huser]
    obtain ⟨p, hp, hside⟩ := exists_mem_or_some hslot
    refine ⟨rfl, rfl, rfl, rfl, rfl, ?_, hnew, p, List.mem_append_left _ hp, hside⟩
    intro p hp
    exact List.mem_append.mpr ((List.mem_append.mp hp).imp mem_or_some_of_mem id)
  · have hslot : ∀ p ∈ u.pendingOther.toList, p.lang = f.lang := fun p hp => by
      rw [h.other p (List.mem_append_right _ hp), hf.resolve_left huser]
    obtain ⟨p, hp, hside⟩ := exists_mem_or_some hslot
    refine ⟨rfl, rfl, rfl, rfl, rfl, ?_, hnew, p, List.mem_append_right _ hp, hside⟩
    intro p hp
    exact List.mem_append.mpr ((List.mem_append.mp hp).imp id mem_or_some_of_mem)

lemma Tidy.onFrame (h : u.Tidy) (hf : f.lang = u.userLang ∨ f.lang = u.otherLang) :
    Effect u [f] (u.onFrame f).1 (u.onFrame f).2.frames := by
  rw [Utterance.onFrame]
  split
  · next hkind => exact h.onAudio hf hkind
  · next hkind => exact h.onFinal hf hkind
  · exact h.onInterim
  · next hkind => exact h.pass (fun hne => absurd hkind hne) fun hne => absurd hkind hne

lemma Tidy.commit (h : u.Tidy) {flushed : List Frame} (hcommit : u.commit d = some (flushed, u')) :
    Effect u [] u' flushed := by
  obtain ⟨⟨hd, hunknown⟩, hflushed, rfl⟩ := commit_eq_some.mp hcommit
  have htidy : Tidy { u with direction := d, heldUser := [], heldOther := [] } := by
    refine ⟨fun _ => ⟨rfl, rfl⟩, fun hdraining => ⟨hd, (h.draining hdraining).2⟩, ?_, ?_, h.parked,
      fun f hf => absurd hf List.not_mem_nil⟩
    · exact fun f hf => h.user f (List.mem_append_right _ hf)
    · exact fun f hf => h.other f (List.mem_append_right _ hf)
  -- one side is handed out and the other side's audio is lost, but nothing is doubled
  have hconserve : ∀ held, held.Sublist (u.heldUser ++ u.heldOther) →
      (held ++ ([] ++ [] ++ (u.pendingUser.toList ++ u.pendingOther.toList))).Subperm
        ([] ++ u.waiting) := by
    intro held hheld
    exact (hheld.append (List.Sublist.refl _)).subperm
  cases d with
  | unknown => exact absurd rfl hd
  | userToOther =>
    obtain rfl : flushed = u.heldOther := hflushed
    refine ⟨⟨rfl, rfl⟩, htidy, ?_, ?_, fun hne => absurd hunknown hne, .inr ⟨rfl, rfl, .inr ?_⟩⟩
    · exact hconserve _ (List.sublist_append_right _ _)
    · intro f hf _
      show some u.otherLang = some f.lang
      rw [h.other f (List.mem_append_left _ hf)]
    · exact (List.filter_sublist).trans (List.sublist_append_left _ _)
  | otherToUser =>
    obtain rfl : flushed = u.heldUser := hflushed
    refine ⟨⟨rfl, rfl⟩, htidy, ?_, ?_, fun hne => absurd hunknown hne, .inr ⟨rfl, rfl, .inl ?_⟩⟩
    · exact hconserve _ (List.sublist_append_left _ _)
    · intro f hf _
      show some u.userLang = some f.lang
      rw [h.user f (List.mem_append_left _ hf)]
    · exact (List.filter_sublist).trans (List.sublist_append_left _ _)

/-- A slot holds the final that is parked on its side. -/
lemma Tidy.spokenSlot_eq_some_iff (h : u.Tidy) (hne : u.userLang ≠ u.otherLang)
    (hlang : lang = u.userLang ∨ lang = u.otherLang) :
    u.spokenSlot lang = some f ↔ f ∈ u.parked ∧ f.lang = lang := by
  have huser : ∀ g ∈ u.pendingUser, g.lang = u.userLang := fun g hg =>
    h.user g (List.mem_append_right _ (Option.mem_toList.mpr hg))
  have hother : ∀ g ∈ u.pendingOther, g.lang = u.otherLang := fun g hg =>
    h.other g (List.mem_append_right _ (Option.mem_toList.mpr hg))
  simp only [spokenSlot, Utterance.parked, List.mem_append, Option.mem_toList]
  split_ifs with hside
  · constructor
    · exact fun hf => ⟨.inl hf, (huser f hf).trans hside.symm⟩
    · rintro ⟨hf | hf, heq⟩
      · exact hf
      · exact absurd (hside.symm.trans (heq.symm.trans (hother f hf))) hne
  · have hlang' := hlang.resolve_left hside
    constructor
    · exact fun hf => ⟨.inr hf, (hother f hf).trans hlang'.symm⟩
    · rintro ⟨hf | hf, heq⟩
      · exact absurd (heq.symm.trans (huser f hf)) hside
      · exact hf

/-- A commit hands out audio only. -/
lemma Tidy.flushed_audio (h : u.Tidy) {flushed : List Frame}
    (hcommit : u.commit d = some (flushed, u')) : ∀ f ∈ flushed, f.kind = .translatedAudio := by
  obtain ⟨-, rfl, -⟩ := commit_eq_some.mp hcommit
  intro f hf
  refine h.heldAudio f ?_
  split_ifs at hf
  · exact List.mem_append_right _ hf
  · exact List.mem_append_left _ hf

lemma Tidy.takePendingFinal (h : u.Tidy) :
    Effect u [] u.takePendingFinal.2 u.takePendingFinal.1.toList := by
  have htidy : ∀ last, Tidy { u with
      pendingUser := none, pendingOther := none, lastFinal := last } := by
    intro last
    refine ⟨h.held, fun hdraining => ⟨(h.draining hdraining).1, rfl, rfl⟩, ?_, ?_, by simp, h.heldAudio⟩
    · intro f hf
      exact h.user f (List.mem_append_left _ (by simpa using hf))
    · intro f hf
      exact h.other f (List.mem_append_left _ (by simpa using hf))
  have horder : ∀ held : List Frame, held.Sublist (held ++ audio []) := fun held =>
    List.sublist_append_left _ _
  rcases u.takePendingFinal_cases with heq | ⟨f, lang, htarget, hparked, -, heq⟩
  · rw [heq]
    refine ⟨⟨rfl, rfl⟩, htidy _, ?_, by simp, fun _ => .inl rfl, .inl ⟨rfl, horder _, horder _⟩⟩
    simp only [Option.toList_none, List.nil_append, waiting, List.append_nil]
    exact (List.sublist_append_left _ _).subperm
  · rw [heq]
    have hmem : f ∈ u.pendingUser.toList ++ u.pendingOther.toList := by
      split_ifs at hparked with huser <;> simp [hparked]
    have hside : f.lang = lang := by
      split_ifs at hparked with huser
      · rw [huser]
        exact h.user f (List.mem_append_right _ (by simp [hparked]))
      · rw [h.other f (List.mem_append_right _ (by simp [hparked]))]
        exact ((Direction.target_mem htarget).resolve_left huser).symm
    refine ⟨⟨rfl, rfl⟩, htidy _, ?_, ?_, fun _ => .inl rfl, .inl ⟨?_, horder _, horder _⟩⟩
    · have hsingle : [f].Sublist (u.pendingUser.toList ++ u.pendingOther.toList) :=
        List.singleton_sublist.mpr hmem
      have hheld := hsingle.append (List.Sublist.refl (u.heldUser ++ u.heldOther))
      simp only [Option.toList_some, Option.toList_none, waiting, List.append_nil, List.nil_append]
      exact hheld.subperm.trans List.perm_append_comm.subperm
    · intro g hg _
      obtain rfl : g = f := by simpa using hg
      show u.target = some g.lang
      rw [htarget, hside]
    · exact audio_singleton_of_ne (by simp [h.parked f hmem])

/-- **Every operation keeps an utterance tidy, and hands out or keeps what it was given.** -/
theorem Tidy.act (h : u.Tidy) (a : UtteranceAction)
    (hsession : ∀ f ∈ a.arrived, f.lang = u.userLang ∨ f.lang = u.otherLang) :
    Effect u a.arrived (a.act u).1 (a.act u).2 := by
  cases a with
  | onFrame f => exact h.onFrame (hsession f List.mem_cons_self)
  | noteOriginal lang text => exact h.noteOriginal lang text
  | commit d =>
    rw [UtteranceAction.act]
    split
    · next flushed u' hcommit => exact h.commit hcommit
    · exact .still h ⟨rfl, rfl⟩ rfl rfl rfl rfl rfl _
  | takePendingFinal => exact h.takePendingFinal
  | reset => exact u.reset_effect

end Utterance

/-! ## Runs -/

/-- An utterance, and what went through it. -/
structure Feed where
  utterance : Utterance
  /-- How many frames have arrived. -/
  arrivals : Nat
  /-- The frames handed out, each with the direction latched at the time. -/
  handed : List (Direction × Frame)
  /-- The frames whose side lost: a direction was latched that was not theirs, as they arrived or
  while they waited. -/
  lost : List Frame
  deriving DecidableEq, Repr

namespace Feed

def init (userLang otherLang : Lang) : Feed := ⟨.new userLang otherLang, 0, [], []⟩

/-- Frames come from the two sessions, and are numbered as they arrive. -/
def admits (s : Feed) (f : Frame) : Bool :=
  (f.lang = s.utterance.userLang || f.lang = s.utterance.otherLang) && f.arrival = s.arrivals

def step (s : Feed) (a : UtteranceAction) : Option Feed :=
  if a.arrived.all s.admits then
    let after := a.act s.utterance
    some
      { utterance := after.1
        arrivals := s.arrivals + a.arrived.length
        handed := s.handed ++ after.2.map fun f => (after.1.direction, f)
        lost := s.lost ++ (a.arrived ++ s.utterance.waiting).filter after.1.loses }
  else none

abbrev Step : Feed → UtteranceAction → Feed → Prop := ofPartial step

/-- The frames handed out. -/
def frames (s : Feed) : List Frame := s.handed.map Prod.snd

/-- The first frame arrived before the second. -/
def Before (f g : Frame) : Prop := f.arrival < g.arrival

instance : DecidableRel Before := fun f g => inferInstanceAs (Decidable (f.arrival < g.arrival))

/-- No echo is handed out. -/
structure EchoSafe (s : Feed) : Prop where
  /-- What is handed out arrived on the side that is spoken. -/
  target : ∀ h ∈ s.handed, h.2.kind ≠ .other →
    h.1.target s.utterance.userLang s.utterance.otherLang = some h.2.lang
  /-- Audio is handed out in the order in which it arrived. -/
  ordered : (Utterance.audio s.frames).Pairwise Before
  /-- No frame is handed out twice. -/
  once : s.frames.Nodup
  /-- What lost is never handed out. -/
  lost : ∀ f ∈ s.lost, f ∉ s.frames

/-- The invariant behind it. -/
structure Sound (s : Feed) : Prop where
  tidy : s.utterance.Tidy
  target : ∀ h ∈ s.handed, h.2.kind ≠ .other →
    h.1.target s.utterance.userLang s.utterance.otherLang = some h.2.lang
  /-- A frame was handed out or waits, and only one of the two. -/
  once : (s.frames ++ s.utterance.waiting).Nodup
  fresh : ∀ f ∈ s.lost ++ (s.frames ++ s.utterance.waiting), f.arrival < s.arrivals
  orderedUser : (Utterance.audio s.frames ++ s.utterance.heldUser).Pairwise Before
  orderedOther : (Utterance.audio s.frames ++ s.utterance.heldOther).Pairwise Before
  /-- What lost was not handed out, and waits only as long as the direction is against it. -/
  lost : ∀ f ∈ s.lost, f ∉ s.frames ∧ (f ∈ s.utterance.waiting → s.utterance.loses f = true)

variable {s s' : Feed} {a : UtteranceAction} {f : Frame}

lemma init_sound (userLang otherLang : Lang) : (init userLang otherLang).Sound where
  tidy := Utterance.new_tidy userLang otherLang
  target := by simp [init]
  once := List.nodup_nil
  fresh _ hf := absurd hf List.not_mem_nil
  orderedUser := List.Pairwise.nil
  orderedOther := List.Pairwise.nil
  lost _ hf := absurd hf List.not_mem_nil

lemma Sound.echoSafe (h : s.Sound) : s.EchoSafe where
  target := h.target
  ordered := h.orderedUser.sublist (List.sublist_append_left _ _)
  once := h.once.sublist (List.sublist_append_left _ _)
  lost f hf := (h.lost f hf).1

/-- Audio that was handed out, then held, then arrives, is in order. -/
lemma ordered_arrived {handed held arrived : List Frame} {n : Nat}
    (hordered : (handed ++ held).Pairwise Before) (hold : ∀ f ∈ handed ++ held, f.arrival < n)
    (harrived : ∀ f ∈ arrived, f.arrival = n) (hone : arrived.length ≤ 1) :
    (handed ++ (held ++ Utterance.audio arrived)).Pairwise Before := by
  rw [← List.append_assoc, List.pairwise_append]
  refine ⟨hordered, ?_, ?_⟩
  · have hlength : (Utterance.audio arrived).length ≤ 1 := (List.length_filter_le _ _).trans hone
    rcases Nat.le_one_iff_eq_zero_or_eq_one.mp hlength with hzero | hone
    · rw [List.length_eq_zero_iff.mp hzero]
      exact .nil
    · obtain ⟨f, hf⟩ := List.length_eq_one_iff.mp hone
      rw [hf]
      exact List.pairwise_singleton _ _
  · intro f hf g hg
    show f.arrival < g.arrival
    rw [harrived g (List.mem_of_mem_filter hg)]
    exact hold f hf

lemma loses_iff {u : Utterance} : u.loses f = true ↔
    u.direction ≠ .unknown ∧ f.kind ≠ .other ∧ u.target ≠ some f.lang := by
  simp [Utterance.loses, Utterance.isTarget, and_assoc]

section Next

variable {arrived out : List Frame} {u' : Utterance}

lemma Sound.once_next (h : s.Sound) (heffect : s.utterance.Effect arrived u' out)
    (harrived : arrived.Nodup) (hnew : ∀ f ∈ arrived, f ∉ s.frames ++ s.utterance.waiting) :
    (s.frames ++ out ++ u'.waiting).Nodup := by
  have hold := List.nodup_append.mp h.once
  have hnodup : (arrived ++ s.utterance.waiting).Nodup := by
    refine List.nodup_append.mpr ⟨harrived, hold.2.1, ?_⟩
    rintro f hf g hg rfl
    exact hnew f hf (List.mem_append_right _ hg)
  obtain ⟨l, hperm, hsub⟩ := heffect.conserve
  rw [List.append_assoc]
  refine List.nodup_append.mpr ⟨hold.1, hperm.nodup_iff.mp (hnodup.sublist hsub), ?_⟩
  rintro f hf g hg rfl
  rcases List.mem_append.mp (heffect.conserve.subset hg) with hg | hg
  · exact hnew f hg (List.mem_append_left _ hf)
  · exact hold.2.2 f hf f hg rfl

lemma Sound.ordered_next (h : s.Sound) (heffect : s.utterance.Effect arrived u' out)
    (harrived : ∀ f ∈ arrived, f.arrival = s.arrivals) (hone : arrived.length ≤ 1) :
    (Utterance.audio (s.frames ++ out) ++ u'.heldUser).Pairwise Before ∧
      (Utterance.audio (s.frames ++ out) ++ u'.heldOther).Pairwise Before := by
  have hordered : ∀ held, held ⊆ s.utterance.waiting →
      (Utterance.audio s.frames ++ held).Pairwise Before →
      (Utterance.audio s.frames ++ (held ++ Utterance.audio arrived)).Pairwise Before := by
    intro held hheld hpair
    refine ordered_arrived hpair (fun f hf => h.fresh f (List.mem_append_right _ ?_)) harrived hone
    rcases List.mem_append.mp hf with hf | hf
    · exact List.mem_append_left _ (List.mem_of_mem_filter hf)
    · exact List.mem_append_right _ (hheld hf)
  have huser := hordered s.utterance.heldUser (by simp [Utterance.waiting]) h.orderedUser
  have hother := hordered s.utterance.heldOther (by simp [Utterance.waiting]) h.orderedOther
  rw [Utterance.audio_append]
  rcases heffect.order with ⟨hout, hheldUser, hheldOther⟩ | ⟨hheldUser, hheldOther, hout⟩
  · rw [hout, List.append_nil]
    exact ⟨huser.sublist (hheldUser.append_left _), hother.sublist (hheldOther.append_left _)⟩
  · rw [hheldUser, hheldOther, List.append_nil, and_self_iff]
    rcases hout with hout | hout
    · exact huser.sublist (hout.append_left _)
    · exact hother.sublist (hout.append_left _)

lemma Sound.lost_next (h : s.Sound) (heffect : s.utterance.Effect arrived u' out)
    (hnew : ∀ f ∈ arrived, f ∉ s.lost ++ (s.frames ++ s.utterance.waiting)) :
    ∀ f ∈ s.lost ++ (arrived ++ s.utterance.waiting).filter u'.loses,
      f ∉ s.frames ++ out ∧ (f ∈ u'.waiting → u'.loses f = true) := by
  have htarget : ∀ f, u'.loses f = true → f ∉ out := by
    intro f hloses hout
    obtain ⟨-, hkind, hne⟩ := loses_iff.mp hloses
    exact hne (heffect.target f hout hkind)
  intro f hf
  rcases List.mem_append.mp hf with hf | hf
  · -- what had lost before: the direction that was against it still is
    obtain ⟨hframes, hwaiting⟩ := h.lost f hf
    have hstill : f ∈ out ++ u'.waiting → u'.loses f = true := by
      intro hmem
      have hold : f ∈ s.utterance.waiting := by
        rcases List.mem_append.mp (heffect.conserve.subset hmem) with harrived | hold
        · exact absurd (List.mem_append_left _ hf) (hnew f harrived)
        · exact hold
      obtain ⟨hdirection, hkind, hne⟩ := loses_iff.mp (hwaiting hold)
      rcases heffect.latched hdirection with hsame | ⟨hout, hnone⟩
      · refine loses_iff.mpr ⟨hsame ▸ hdirection, hkind, ?_⟩
        rwa [Utterance.target, hsame, heffect.langs.1, heffect.langs.2]
      · rw [hout, hnone] at hmem
        exact absurd hmem List.not_mem_nil
    refine ⟨?_, fun hmem => hstill (List.mem_append_right _ hmem)⟩
    intro hmem
    rcases List.mem_append.mp hmem with hmem | hmem
    · exact hframes hmem
    · exact htarget f (hstill (List.mem_append_left _ hmem)) hmem
  · obtain ⟨hhand, hloses⟩ := List.mem_filter.mp hf
    refine ⟨?_, fun _ => hloses⟩
    intro hmem
    rcases List.mem_append.mp hmem with hmem | hmem
    · rcases List.mem_append.mp hhand with harrived | hold
      · exact hnew f harrived (List.mem_append_right _ (List.mem_append_left _ hmem))
      · exact (List.nodup_append.mp h.once).2.2 f hmem f hold rfl
    · exact htarget f hloses hmem

end Next

lemma Sound.step (h : s.Sound) (hstep : s.step a = some s') : s'.Sound := by
  rw [Feed.step] at hstep
  simp only [Option.ite_none_right_eq_some, Option.some.injEq] at hstep
  obtain ⟨hadmits, rfl⟩ := hstep
  simp only [List.all_eq_true, admits, Bool.and_eq_true, Bool.or_eq_true, decide_eq_true_eq]
    at hadmits
  have heffect := h.tidy.act a fun f hf => (hadmits f hf).1
  have hone : a.arrived.length ≤ 1 := by
    cases a <;> simp [UtteranceAction.arrived]
  have hnodup : a.arrived.Nodup := by
    cases a <;> simp [UtteranceAction.arrived]
  have hnew : ∀ f ∈ a.arrived, f ∉ s.lost ++ (s.frames ++ s.utterance.waiting) := by
    intro f hf hold
    have hlt := h.fresh f hold
    rw [(hadmits f hf).2] at hlt
    exact absurd hlt (lt_irrefl _)
  obtain ⟨u', out, hact⟩ : ∃ u' out, a.act s.utterance = (u', out) := ⟨_, _, rfl⟩
  rw [hact] at heffect ⊢
  have hframes : (s.handed ++ out.map fun f => (u'.direction, f)).map Prod.snd =
      s.frames ++ out := by
    rw [List.map_append, List.map_map]
    exact congrArg _ (List.map_id out)
  have hordered := h.ordered_next heffect (fun f hf => (hadmits f hf).2) hone
  rw [← hframes] at hordered
  refine ⟨heffect.tidy, ?_, ?_, ?_, hordered.1, hordered.2, ?_⟩
  · intro p hp hkind
    show p.1.target u'.userLang u'.otherLang = some p.2.lang
    rcases List.mem_append.mp hp with hp | hp
    · rw [heffect.langs.1, heffect.langs.2]
      exact h.target p hp hkind
    · obtain ⟨f, hf, rfl⟩ := List.mem_map.mp hp
      exact heffect.target f hf hkind
  · rw [frames, hframes]
    exact h.once_next heffect hnodup fun f hf hold => hnew f hf (List.mem_append_right _ hold)
  · rw [frames, hframes]
    intro f hf
    show f.arrival < s.arrivals + a.arrived.length
    have hhand : f ∈ a.arrived ∨ f ∈ s.lost ++ (s.frames ++ s.utterance.waiting) := by
      have hsub := heffect.conserve.subset
      simp only [List.mem_append, List.mem_filter] at hf ⊢
      rcases hf with (hf | ⟨hf | hf, -⟩) | (hf | hf) | hf
      · exact .inr (.inl hf)
      · exact .inl hf
      · exact .inr (.inr (.inr hf))
      · exact .inr (.inr (.inl hf))
      · exact (List.mem_append.mp (hsub (List.mem_append_left _ hf))).imp id fun h => .inr (.inr h)
      · exact (List.mem_append.mp (hsub (List.mem_append_right _ hf))).imp id fun h => .inr (.inr h)
    rcases hhand with hf | hf
    · rw [(hadmits f hf).2]
      exact Nat.lt_add_of_pos_right (List.length_pos_of_mem hf)
    · exact Nat.lt_add_right _ (h.fresh f hf)
  · rw [frames, hframes]
    exact h.lost_next heffect hnew

/-- **Echo safety**: in every state of every run of frames from the two sessions, words, commits,
releases and resets. -/
theorem echoSafe_of_run (userLang otherLang : Lang) (as : List UtteranceAction) (t : Feed)
    (hrun : Run Step (init userLang otherLang) as t) : t.EchoSafe := by
  have hsound : t.Sound := by
    refine hrun.invariant Sound ?_ (init_sound userLang otherLang)
    intro s a _ s' hs hstep
    exact hs.step hstep
  exact hsound.echoSafe

/-- A final of the sentence "Sì", as the session of `lang` translates it. -/
def sampleFinal (lang : Lang) (arrival : Nat) : Frame :=
  ⟨.subtitleFinal "src" "Microphone" "Sì".toList "auto".toList [(lang, "ok".toList)], lang, 0, arrival⟩

def sampleAudio (lang : Lang) (arrival : Nat) : Frame :=
  ⟨.translatedAudio "src" lang arrival "AAAA", lang, 0, arrival⟩

/-- Both sides speak and finalise before the direction is known: one side of it comes out. -/
theorem echoSafe_late_verdict :
    ∃ t, Run Step (init "it".toList "es".toList)
        [.onFrame (sampleAudio "it".toList 0), .onFrame (sampleAudio "es".toList 1),
          .onFrame (sampleFinal "it".toList 2), .onFrame (sampleFinal "es".toList 3),
          .onFrame (sampleAudio "es".toList 4), .commit .userToOther, .takePendingFinal, .reset] t ∧
      t.frames.map Frame.arrival = [1, 4, 3] ∧ t.EchoSafe := by
  obtain ⟨t, hrun, hframes⟩ : ∃ t, Run Step (init "it".toList "es".toList)
      [.onFrame (sampleAudio "it".toList 0), .onFrame (sampleAudio "es".toList 1),
        .onFrame (sampleFinal "it".toList 2), .onFrame (sampleFinal "es".toList 3),
        .onFrame (sampleAudio "es".toList 4), .commit .userToOther, .takePendingFinal, .reset] t ∧
      t.frames.map Frame.arrival = [1, 4, 3] := Run.exists_of_decide (by decide +kernel)
  exact ⟨t, hrun, hframes, echoSafe_of_run _ _ _ t hrun⟩

end Feed

end VoxTranslate.Talk
