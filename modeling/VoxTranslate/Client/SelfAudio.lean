import VoxTranslate.Client.Microphone
import VoxTranslate.Lib.Run

/-!
# When the gate is closed (`self-audio-guard.ts`)

The gate is closed at the edges of the playback and at the explicit end of speech, and only then is
it looked whether speech is over.  The speech window also runs out by itself, and the mode can be
switched, while audio plays: nobody looks then, and the microphone hears the translation until the
next edge.
-/

namespace VoxTranslate.Client

open Lib

/-- What the guard is told. -/
inductive GuardEvent where
  | setMode (mode : GuardMode)
  | playback (playing : Bool)
  | speech (active : Bool)
  /-- A sample of the input level; `loud` where it may be a human voice. -/
  | level (loud : Bool)
  | reset
  deriving DecidableEq, Repr

/-- An event, and the clock at it. -/
structure GuardAction where
  event : GuardEvent
  now : Nat
  deriving DecidableEq, Repr

/-- The guard, and what happened to it. -/
structure GuardHistory where
  guard : SelfAudioGuard
  clock : Nat
  /-- When it last looked, in mode `gate`, whether speech is over. -/
  looked : Option Nat
  /-- Someone barged in since the last edge of the playback. -/
  barged : Bool
  deriving DecidableEq, Repr

namespace GuardHistory

def init : GuardHistory := ⟨.new .gate, 0, none, false⟩

def handle (s : GuardHistory) (now : Nat) : GuardEvent → GuardHistory
  | .setMode mode =>
    { s with
      guard := s.guard.setMode mode
      clock := now
      looked := if mode = .gate then s.looked else none }
  | .playback playing =>
    { guard := s.guard.onPlaybackChange playing now
      clock := now
      looked := if playing && s.guard.mode = .gate then some now else s.looked
      barged := false }
  | .speech active =>
    { s with
      guard := s.guard.setSpeechActive active now
      clock := now
      looked := if !active && s.guard.playing && s.guard.mode = .gate then some now else s.looked }
  | .level loud =>
    { s with
      guard := s.guard.onLevel loud now
      clock := now
      barged := s.barged || s.guard.bargeCount < (s.guard.onLevel loud now).bargeCount }
  | .reset => { s with guard := s.guard.reset, clock := now }

/-- The clock does not go back. -/
def step (s : GuardHistory) (a : GuardAction) : Option GuardHistory :=
  if s.clock ≤ a.now then some (s.handle a.now a.event) else none

abbrev Step : GuardHistory → GuardAction → GuardHistory → Prop := ofPartial step

/-- Translated audio plays in mode `gate`, nobody is believed to speak, and nobody barged in. -/
def shouldGate (s : GuardHistory) (now : Nat) : Bool :=
  s.guard.mode = .gate && s.guard.playing && !s.guard.isSpeechActive now && !s.barged

/-- At a sample of the level the microphone is gated where it should be. -/
def GatedAtLevel (s : GuardHistory) (a : GuardAction) (_ : GuardHistory) : Prop :=
  ∀ loud, a.event = .level loud → s.shouldGate a.now = true → s.guard.gated = true

/-- When the guard last looked, the speech that it knows of was over. -/
def informed (s : GuardHistory) : Bool := s.looked.any fun t => s.guard.speechActiveUntil ≤ t

/-- No sample of the level finds that speech ran out, or the mode was switched, since the guard last
looked. -/
def looksInTime (s : GuardHistory) (a : GuardAction) : Bool :=
  match a.event with
  | .level _ => !s.shouldGate a.now || s.informed
  | _ => true

/-- The gate follows what the guard saw when it last looked. -/
structure Coherent (s : GuardHistory) : Prop where
  gated : s.guard.gated = true →
    s.guard.mode = .gate ∧ s.guard.playing = true ∧ s.informed = true
  closed : s.guard.mode = .gate → s.guard.playing = true → s.barged = false →
    s.informed = true → s.guard.gated = true
  looked : ∀ t, s.looked = some t → t ≤ s.clock
  /-- Where the gate was opened for good nobody looked since. -/
  opened : s.guard.mode = .open → s.looked = none

variable {s t : GuardHistory} {a : GuardAction} {now : Nat}

lemma init_coherent : init.Coherent := by
  refine ⟨?_, ?_, ?_, ?_⟩ <;> simp [init, SelfAudioGuard.new]

lemma close_eq (g : SelfAudioGuard) :
    ∃ gateCount, g.close = { g with gated := true, gateCount } := by
  rw [SelfAudioGuard.close]
  split_ifs with h
  · exact ⟨g.gateCount, by rw [← h]⟩
  · exact ⟨_, rfl⟩

section Guard

variable {g : SelfAudioGuard}

lemma mode_open (hmode : g.mode ≠ .gate) : g.mode = .open := by
  cases h : g.mode with
  | gate => exact absurd h hmode
  | «open» => rfl

lemma onPlaybackChange_open (hmode : g.mode = .open) :
    g.onPlaybackChange true now = { g with playing := true } := by
  simp [SelfAudioGuard.onPlaybackChange, hmode]

lemma onPlaybackChange_speaking (hlater : now < g.speechActiveUntil) :
    g.onPlaybackChange true now = { g with playing := true } := by
  simp [SelfAudioGuard.onPlaybackChange, SelfAudioGuard.isSpeechActive, hlater]

lemma onPlaybackChange_over (hmode : g.mode = .gate) (hover : g.speechActiveUntil ≤ now) :
    ∃ gateCount, g.onPlaybackChange true now =
      { g with playing := true, gated := true, gateCount } := by
  obtain ⟨gateCount, hclose⟩ := close_eq { g with playing := true }
  refine ⟨gateCount, ?_⟩
  rw [← hclose]
  simp [SelfAudioGuard.onPlaybackChange, SelfAudioGuard.isSpeechActive, hmode, hover]

lemma setSpeechActive_look (hplaying : g.playing = true) (hmode : g.mode = .gate) (now : Nat) :
    ∃ gateCount, g.setSpeechActive false now =
      { g with speechActiveUntil := 0, gated := true, gateCount } := by
  obtain ⟨gateCount, hclose⟩ := close_eq { g with speechActiveUntil := 0 }
  refine ⟨gateCount, ?_⟩
  rw [← hclose]
  simp [SelfAudioGuard.setSpeechActive, hplaying, hmode]

lemma setSpeechActive_skip (hlook : ¬ (g.playing = true ∧ g.mode = .gate)) :
    g.setSpeechActive false now = { g with speechActiveUntil := 0 } := by
  simp [SelfAudioGuard.setSpeechActive, hlook]

end Guard

/-- An open gate that nobody looked at. -/
lemma Coherent.of_open {guard : SelfAudioGuard} {barged : Bool}
    (hgated : guard.gated = false) : Coherent ⟨guard, now, none, barged⟩ where
  gated h := absurd (hgated.symm.trans h) Bool.false_ne_true
  closed _ _ _ hinformed := absurd hinformed Bool.false_ne_true
  looked t ht := by cases ht
  opened _ := rfl

lemma Coherent.gated_of_open (h : s.Coherent) (hmode : s.guard.mode = .open) :
    s.guard.gated = false := by
  by_contra hclosed
  have hgate := (h.gated (Bool.not_eq_false _ ▸ hclosed)).1
  rw [hmode] at hgate
  cases hgate

/-- A gate that is closed was closed after the speech it knows of. -/
lemma Coherent.until_le (h : s.Coherent) (hgated : s.guard.gated = true) :
    s.guard.speechActiveUntil ≤ s.clock := by
  obtain ⟨-, -, hinformed⟩ := h.gated hgated
  obtain ⟨t, ht, hover⟩ := (Option.any_eq_true _ _).mp hinformed
  exact Nat.le_trans (of_decide_eq_true hover) (h.looked t ht)

/-- The guard looks, and finds that speech is over or that it goes on. -/
lemma Coherent.look {guard : SelfAudioGuard} {barged : Bool} (hmode : guard.mode = .gate)
    (hplaying : guard.playing = true)
    (hgated : guard.gated = true ↔ guard.speechActiveUntil ≤ now) :
    Coherent ⟨guard, now, some now, barged⟩ where
  gated h := ⟨hmode, hplaying, decide_eq_true (hgated.mp h)⟩
  closed _ _ _ hinformed := hgated.mpr (of_decide_eq_true hinformed)
  looked t ht := Nat.le_of_eq (Option.some_inj.mp ht).symm
  opened hopen := by
    rw [hmode] at hopen
    cases hopen

/-- The gate is open, and nothing says that it should be closed. -/
lemma Coherent.released {guard : SelfAudioGuard} {looked : Option Nat} {barged : Bool}
    (h : s.Coherent) (hclock : s.clock ≤ now) (hgated : guard.gated = false)
    (hlooked : looked = s.looked) (hmode : guard.mode = s.guard.mode)
    (hopen : guard.playing = false ∨ barged = true ∨ now < guard.speechActiveUntil) :
    Coherent ⟨guard, now, looked, barged⟩ where
  gated h := absurd (hgated.symm.trans h) Bool.false_ne_true
  closed _ hplaying hbarged hinformed := by
    rcases hopen with hopen | hopen | hopen
    · exact absurd (hopen.symm.trans hplaying) Bool.false_ne_true
    · exact absurd (hbarged.symm.trans hopen) Bool.false_ne_true
    · obtain ⟨t, ht, hover⟩ := (Option.any_eq_true _ _).mp hinformed
      have hbefore := h.looked t (hlooked ▸ ht)
      have hle := of_decide_eq_true hover
      simp only at hle
      omega
  looked t ht := Nat.le_trans (h.looked t (hlooked ▸ ht)) hclock
  opened hmodes := hlooked.trans (h.opened (hmode.symm.trans hmodes))

/-- Nothing but the clock changes. -/
lemma Coherent.congr {guard : SelfAudioGuard} {barged : Bool} (h : s.Coherent)
    (hclock : s.clock ≤ now) (hmode : guard.mode = s.guard.mode)
    (hplaying : guard.playing = s.guard.playing) (hgated : guard.gated = s.guard.gated)
    (huntil : guard.speechActiveUntil = s.guard.speechActiveUntil)
    (hbarged : barged = false → s.barged = false) :
    Coherent ⟨guard, now, s.looked, barged⟩ where
  gated hclosed := by
    rw [hmode, hplaying, informed, huntil]
    exact h.gated (hgated.symm.trans hclosed)
  closed := by
    rw [hmode, hplaying, informed, huntil, hgated]
    exact fun hgate hplays hnone hinformed => h.closed hgate hplays (hbarged hnone) hinformed
  looked t ht := Nat.le_trans (h.looked t ht) hclock
  opened := by
    rw [hmode]
    exact h.opened

lemma Coherent.setMode (h : s.Coherent) (hclock : s.clock ≤ now) (mode : GuardMode) :
    (s.handle now (.setMode mode)).Coherent := by
  cases mode with
  | «open» => exact Coherent.of_open rfl
  | gate =>
    cases hmode : s.guard.mode with
    | gate =>
      have hsame : s.guard.setMode .gate = s.guard := by
        rw [SelfAudioGuard.setMode, if_neg (by simp), ← hmode]
      simp only [handle, hsame, if_true]
      exact h.congr hclock rfl rfl rfl rfl id
    | «open» =>
      -- nobody looks: the gate stays open
      simp only [handle, h.opened hmode, ite_self]
      exact Coherent.of_open (h.gated_of_open hmode)

lemma Coherent.playback (h : s.Coherent) (hclock : s.clock ≤ now) (playing : Bool) :
    (s.handle now (.playback playing)).Coherent := by
  cases playing with
  | false => exact h.released hclock rfl rfl rfl (.inl rfl)
  | true =>
    by_cases hmode : s.guard.mode = .gate
    · simp only [handle, hmode, decide_true, Bool.true_and, if_true]
      rcases Nat.lt_or_ge now s.guard.speechActiveUntil with hlater | hover
      · rw [onPlaybackChange_speaking hlater]
        refine Coherent.look hmode rfl (iff_of_false (fun hgated => ?_) (by simpa using hlater))
        have hbefore := h.until_le hgated
        omega
      · obtain ⟨gateCount, hclose⟩ := onPlaybackChange_over hmode hover
        rw [hclose]
        exact Coherent.look hmode rfl (iff_of_true rfl hover)
    · have hopen := mode_open hmode
      simp only [handle, hmode, decide_false, Bool.and_false, Bool.false_eq_true, if_false,
        h.opened hopen, onPlaybackChange_open hopen]
      exact Coherent.of_open (h.gated_of_open hopen)

lemma Coherent.speech (h : s.Coherent) (hclock : s.clock ≤ now) (active : Bool) :
    (s.handle now (.speech active)).Coherent := by
  cases active with
  | true =>
    refine h.released hclock rfl rfl rfl (.inr (.inr ?_))
    show now < now + speechActiveTtlMs
    exact Nat.lt_add_of_pos_right (by decide)
  | false =>
    by_cases hlook : s.guard.playing = true ∧ s.guard.mode = .gate
    · obtain ⟨gateCount, hclose⟩ := setSpeechActive_look hlook.1 hlook.2 now
      simp only [handle, hlook.1, hlook.2, hclose, Bool.not_false, Bool.true_and, decide_true,
        if_true]
      exact Coherent.look rfl rfl (iff_of_true rfl (Nat.zero_le _))
    · have hskip : (!false && s.guard.playing && decide (s.guard.mode = .gate)) = false := by
        simpa using hlook
      have hgated : s.guard.gated = false := by
        by_contra hclosed
        obtain ⟨hmode, hplaying, -⟩ := h.gated (Bool.not_eq_false _ ▸ hclosed)
        exact hlook ⟨hplaying, hmode⟩
      simp only [handle, setSpeechActive_skip hlook, hskip, Bool.false_eq_true, if_false]
      by_cases hmode : s.guard.mode = .gate
      · refine h.released hclock hgated rfl rfl (.inl ?_)
        exact Bool.not_eq_true _ ▸ fun hplaying => hlook ⟨hplaying, hmode⟩
      · rw [h.opened (mode_open hmode)]
        exact Coherent.of_open hgated

lemma Coherent.level (h : s.Coherent) (hclock : s.clock ≤ now) (loud : Bool) :
    (s.handle now (.level loud)).Coherent := by
  simp only [handle, SelfAudioGuard.onLevel]
  split_ifs
  · exact h.congr hclock rfl rfl rfl rfl (by simp)
  · exact h.congr hclock rfl rfl rfl rfl (by simp)
  · split
    · exact h.congr hclock rfl rfl rfl rfl (by simp)
    · split_ifs
      · exact h.congr hclock rfl rfl rfl rfl (by simp)
      · -- the barge-in
        exact h.released hclock rfl rfl rfl (.inr (.inl (by simp [SelfAudioGuard.release])))

lemma Coherent.step (h : s.Coherent) (hstep : s.step a = some t) : t.Coherent := by
  rw [GuardHistory.step, Option.ite_none_right_eq_some, Option.some_inj] at hstep
  obtain ⟨hclock, rfl⟩ := hstep
  cases a.event with
  | setMode mode => exact h.setMode hclock mode
  | playback playing => exact h.playback hclock playing
  | speech active => exact h.speech hclock active
  | level loud => exact h.level hclock loud
  | reset => exact h.released hclock rfl rfl rfl (.inl rfl)

/-- **A sample of the level finds the gate as it should be exactly if the guard has looked.** -/
lemma gatedAtLevel_iff (h : s.Coherent) :
    s.GatedAtLevel a t ↔ s.looksInTime a = true := by
  rw [GatedAtLevel, looksInTime]
  cases hevent : a.event with
  | level loud =>
    simp only [Bool.or_eq_true, Bool.not_eq_true', GuardEvent.level.injEq]
    constructor
    · intro hgated
      cases hshould : s.shouldGate a.now with
      | false => exact .inl rfl
      | true => exact .inr (h.gated (hgated loud rfl hshould)).2.2
    · rintro hlooked loud' - hshould
      have hinformed := hlooked.resolve_left (by rw [hshould]; exact Bool.noConfusion)
      simp only [shouldGate, Bool.and_eq_true, decide_eq_true_eq, Bool.not_eq_true'] at hshould
      obtain ⟨⟨⟨hmode, hplaying⟩, -⟩, hbarged⟩ := hshould
      exact h.closed hmode hplaying hbarged hinformed
  | setMode | playback | speech | reset => simp

/-- **The guard.**  In every run the microphone is gated only while audio plays in mode `gate`; and
every sample of the level finds it gated where it should be exactly if no sample finds that speech
ran out, or the mode was switched, since the guard last looked. -/
theorem gated_iff_of_run {as : List GuardAction} (hrun : Run Step init as s) :
    (s.guard.gated = true → s.guard.mode = .gate ∧ s.guard.playing = true) ∧
      (Run (Guarded Step fun s a => s.looksInTime a = true) init as s ↔
        ∀ pre a u v, pre ++ [a] <+: as → Run Step init pre u → u.step a = some v →
          u.GatedAtLevel a v) := by
  have hcoherent : s.Coherent :=
    hrun.invariant Coherent (fun _ _ _ _ h hstep => h.step hstep) init_coherent
  constructor
  · intro hgated
    obtain ⟨hmode, hplaying, -⟩ := hcoherent.gated hgated
    exact ⟨hmode, hplaying⟩
  · exact Run.guarded_iff_steps (fun _ _ _ h hstep => h.step hstep)
      (fun _ _ _ h _ => gatedAtLevel_iff h) hrun init_coherent

/-- Speech is followed by its translation, and then by an explicit end. -/
def translated : List GuardAction :=
  [⟨.speech true, 1000⟩, ⟨.playback true, 2000⟩, ⟨.level false, 2050⟩, ⟨.speech false, 2100⟩,
    ⟨.level true, 2150⟩]

theorem gated_after_the_end : ∃ s, Run Step init translated s ∧ s.guard.gated = true ∧
    ∀ pre a u v, pre ++ [a] <+: translated → Run Step init pre u → u.step a = some v →
      u.GatedAtLevel a v := by
  obtain ⟨s, hguarded, hgated⟩ : ∃ s, Run (Guarded Step fun s a => s.looksInTime a = true) init
      translated s ∧ s.guard.gated = true := Run.exists_guarded_of_decide (by decide +kernel)
  exact ⟨s, hguarded.ofGuarded, hgated, (gated_iff_of_run hguarded.ofGuarded).2.mp hguarded⟩

/-- The end of the speech never comes: its window runs out while the translation plays, and the
microphone stays open. -/
theorem open_after_the_window : ∃ s t,
    Run Step init [⟨.speech true, 1000⟩, ⟨.playback true, 2000⟩] s ∧
      s.step ⟨.level false, 3600⟩ = some t ∧ ¬ s.GatedAtLevel ⟨.level false, 3600⟩ t := by
  obtain ⟨s, hrun, hnext, hlate⟩ : ∃ s,
      Run Step init [⟨.speech true, 1000⟩, ⟨.playback true, 2000⟩] s ∧
      (s.step ⟨.level false, 3600⟩).isSome = true ∧
      s.looksInTime ⟨.level false, 3600⟩ = false := Run.exists_of_decide (by decide +kernel)
  obtain ⟨t, hstep⟩ := Option.isSome_iff_exists.mp hnext
  have hcoherent : s.Coherent :=
    hrun.invariant Coherent (fun _ _ _ _ h hstep => h.step hstep) init_coherent
  refine ⟨s, t, hrun, hstep, ?_⟩
  rw [gatedAtLevel_iff hcoherent, hlate]
  exact Bool.false_ne_true

end GuardHistory

end VoxTranslate.Client
