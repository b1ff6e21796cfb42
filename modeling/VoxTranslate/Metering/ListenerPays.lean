import VoxTranslate.Metering.Connection

/-!
# The meter of a listener

Where the listeners pay, a peer with a payer is metered for the whole connection.  The meter is
lost in two ways: a `Stop` drops the handle whenever the peer is not signed in, although in a
sponsored room such a peer has a payer; and a charge that fails ends the meter without a word.
-/

namespace VoxTranslate.Metering.Connection

open Lib Engine Rooms

/-- A meter of what the peer receives is running. -/
def listening (s : Connection) : Bool := s.meterCancel.any Meter.isListening

/-- A listener meter is running, until the connection ends or a meter reports exhaustion. -/
def ListenerMetered (s : Connection) : Prop :=
  s.closed = true ∨ 0 < s.balanceExhausted ∨ s.listening = true

instance (s : Connection) : Decidable s.ListenerMetered := inferInstanceAs (Decidable (_ ∨ _))

/-- The step does not lose the meter: no `Stop` of a peer that is not signed in, and no charge
that fails for another reason than the account, while a meter has to be running. -/
def keepsListenerMeter (cfg : PeerConfig) (s : Connection) : PeerEvent → Bool
  | .stop => s.closed || 0 < s.balanceExhausted || cfg.billedUser.isSome
  | .tick .failed => s.closed || 0 < s.balanceExhausted
  | _ => true

section Step

variable {cfg : PeerConfig} {s s' : Connection}

/-- Signals of exhaustion come from meters that reported it. -/
def SignalsReported (s : Connection) : Prop := 0 < s.exhaust → 0 < s.balanceExhausted

/-- What a `Start` leaves alone, where the listeners pay and the peer has a payer. -/
lemma startFeeds_eq (hpayer : cfg.payer.isSome = true) (env : StartEnv) :
    ∃ feeds, s.startFeeds cfg env = { s with audioFeeds := feeds } := by
  have hne : cfg.payer ≠ none := by
    rw [← Option.isSome_iff_ne_none]
    exact hpayer
  rw [startFeeds]
  split_ifs with hidle
  · rw [if_neg fun h => hne h.2.1]
    exact ⟨_, rfl⟩
  · exact ⟨s.audioFeeds, rfl⟩

/-- What was reported stays reported, and a signal comes with a report. -/
lemma afterTick_reported (late : Bool) (e : TickEffect) :
    s.balanceExhausted ≤ (s.afterTick late e).balanceExhausted ∧
      (s.SignalsReported → (s.afterTick late e).SignalsReported) := by
  refine ⟨Nat.le_add_right _ _, fun hsig => ?_⟩
  intro hunread
  simp only [afterTick] at hunread ⊢
  split_ifs at hunread ⊢ with hexhausted
  · omega
  · exact hsig hunread

/-- **A step that keeps the meter.** -/
lemma ListenerMetered.step (hlp : cfg.listenerPays = true) (hpayer : cfg.payer.isSome = true)
    {a : PeerEvent} (h : s.ListenerMetered) (hsig : s.SignalsReported)
    (hkeeps : keepsListenerMeter cfg s a = true) (hstep : s.step cfg a = some s') :
    s'.ListenerMetered ∧ s'.SignalsReported := by
  cases a with
  | start env =>
    obtain ⟨-, rfl⟩ := step_spec hstep
    obtain ⟨feeds, hfeeds⟩ := startFeeds_eq hpayer env
    rw [if_pos hlp, hfeeds]
    exact ⟨h, hsig⟩
  | stop =>
    obtain ⟨hlive, rfl⟩ := step_spec hstep
    rw [stopped, if_pos hlp]
    split_ifs with hguest
    · simp only [keepsListenerMeter, hlive, Bool.false_or, Bool.or_eq_true, decide_eq_true_eq] at hkeeps
      have hreported : 0 < s.balanceExhausted := by
        refine hkeeps.resolve_right fun hbilled => ?_
        rw [Option.isNone_iff_eq_none.mp hguest] at hbilled
        cases hbilled
      exact ⟨.inr (.inl hreported), fun _ => hreported⟩
    · exact ⟨h, hsig⟩
  | audio accepts =>
    obtain ⟨-, rfl⟩ := step_spec hstep
    rw [chunk, if_pos hlp]
    exact ⟨h, hsig⟩
  | enhancedFallback peerEngine =>
    obtain ⟨-, rfl⟩ := step_spec hstep
    simp only [fallback, hlp, hpayer, Bool.and_true]
    split_ifs
    · exact ⟨.inr (.inr rfl), hsig⟩
    · exact ⟨h, hsig⟩
  | other =>
    obtain ⟨-, rfl⟩ := step_spec hstep
    exact ⟨h, hsig⟩
  | exhausted =>
    obtain ⟨hunread, rfl⟩ := step_spec hstep
    have hreported : 0 < s.balanceExhausted := hsig hunread
    rw [readExhausted, if_pos hlp]
    exact ⟨.inr (.inl hreported), fun _ => hreported⟩
  | close =>
    obtain ⟨-, rfl⟩ := step_spec hstep
    exact ⟨.inl rfl, hsig⟩
  | tick outcome =>
    obtain ⟨m, hm, -, -, rfl⟩ := step_spec hstep
    obtain ⟨hmono, hsig'⟩ := s.afterTick_reported false (s.tickEffect cfg m outcome)
    refine ⟨?_, hsig' hsig⟩
    rcases h with hclosed | hreported | hlistening
    · exact .inl hclosed
    · exact .inr (.inl (Nat.lt_of_lt_of_le hreported hmono))
    · rw [listening, hm, Option.any_some, Meter.isListening_iff] at hlistening
      obtain ⟨-, engine, hkind⟩ := hlistening
      cases outcome with
      | skipped =>
        refine .inr (.inr (Meter.isListening_iff.mpr ⟨?_, engine, hkind⟩))
        rw [tickEffect, hkind]
        rfl
      | charged =>
        refine .inr (.inr (Meter.isListening_iff.mpr ⟨?_, engine, hkind⟩))
        rw [tickEffect, hkind]
        rfl
      | insufficient =>
        refine .inr (.inl ?_)
        rw [tickEffect, hkind]
        exact Nat.succ_pos _
      | failed =>
        simp only [keepsListenerMeter, Bool.or_eq_true, decide_eq_true_eq] at hkeeps
        exact hkeeps.imp id fun hreported => .inl (Nat.lt_of_lt_of_le hreported hmono)
  | lateTick i outcome =>
    obtain ⟨m, -, cancelled, -, rfl⟩ := step_spec hstep
    obtain ⟨hmono, hsig'⟩ := s.afterTick_reported true (s.tickEffect cfg m outcome)
    refine ⟨?_, hsig' hsig⟩
    exact h.imp_right (.imp_left fun hreported => Nat.lt_of_lt_of_le hreported hmono)
  | noticed i =>
    cases step_spec hstep
    exact ⟨h, hsig⟩
  | elapse ms =>
    cases step_spec hstep
    refine ⟨h.imp_right (.imp_right fun hlistening => ?_), hsig⟩
    rw [listening, Option.any_map]
    exact hlistening

/-- **A step that loses the meter.** -/
lemma not_listenerMetered_step (hlp : cfg.listenerPays = true) {a : PeerEvent}
    (h : s.ListenerMetered) (hkeeps : keepsListenerMeter cfg s a = false)
    (hstep : s.step cfg a = some s') : ¬ s'.ListenerMetered := by
  cases a with
  | stop =>
    simp only [keepsListenerMeter, Bool.or_eq_false_iff, decide_eq_false_iff_not] at hkeeps
    obtain ⟨⟨hopen, hunreported⟩, hguest⟩ := hkeeps
    have hnone : cfg.billedUser.isNone = true := by
      rw [← Option.not_isSome, hguest]
      rfl
    obtain ⟨-, rfl⟩ := step_spec hstep
    rw [stopped, if_pos hlp, if_pos hnone]
    rintro (hclosed | hreported | hlistening)
    · exact Bool.noConfusion (hclosed.symm.trans hopen)
    · exact hunreported hreported
    · cases hlistening
  | tick outcome =>
    cases outcome with
    | failed =>
      simp only [keepsListenerMeter, Bool.or_eq_false_iff, decide_eq_false_iff_not] at hkeeps
      obtain ⟨hopen, hunreported⟩ := hkeeps
      have hlistening : s.listening = true :=
        (h.resolve_left (by simp [hopen])).resolve_left hunreported
      obtain ⟨m, hm, -, -, rfl⟩ := step_spec hstep
      rw [listening, hm, Option.any_some, Meter.isListening_iff] at hlistening
      obtain ⟨-, engine, hkind⟩ := hlistening
      rw [tickEffect, hkind]
      rintro (hclosed | hreported | hlistening)
      · exact absurd (hclosed.symm.trans hopen) (by decide)
      · exact hunreported hreported
      · cases hlistening
    | skipped | charged | insufficient => cases hkeeps
  | start | audio | enhancedFallback | other | exhausted | close | lateTick | noticed | elapse =>
    cases hkeeps

end Step

/-- The connection of a peer with a payer is metered from the start. -/
lemma join_listenerMetered {cfg : PeerConfig} (hlp : cfg.listenerPays = true)
    (hpayer : cfg.payer.isSome = true) (engineId : Option String) (spent : Nat) :
    (join cfg engineId spent).ListenerMetered ∧ (join cfg engineId spent).SignalsReported := by
  refine ⟨.inr (.inr ?_), fun h => absurd h (Nat.lt_irrefl 0)⟩
  simp only [listening, join, hlp, hpayer, Bool.and_true, if_true]
  rfl

/-- **The listener meter.**  Where the listeners pay, the connection of a peer with a payer is
metered in every state a run passes through exactly when no step of the run loses the meter. -/
theorem listenerMetered_iff {cfg : PeerConfig} {engineId : Option String} {spent : Nat}
    {as : List PeerEvent} {s : Connection} (hlp : cfg.listenerPays = true)
    (hpayer : cfg.payer.isSome = true) (h : Run (Step cfg) (join cfg engineId spent) as s) :
    Run (Guarded (Step cfg) fun s a => keepsListenerMeter cfg s a = true)
        (join cfg engineId spent) as s ↔
      ∀ pre u, pre <+: as → Run (Step cfg) (join cfg engineId spent) pre u → u.ListenerMetered := by
  refine Run.guarded_iff_prefixes (I := fun s => s.ListenerMetered ∧ s.SignalsReported) ?_
    (fun _ hs => hs.1) ?_ h (join_listenerMetered hlp hpayer engineId spent)
  · intro u a v hu hkeeps hstep
    exact hu.1.step hlp hpayer hu.2 hkeeps hstep
  · intro u a v hu hkeeps hstep
    exact not_listenerMetered_step hlp hu.1 hkeeps hstep

/-- A signed-in peer of a room in which the listeners pay, ticking once a second. -/
def subscriber : PeerConfig :=
  ⟨threeEngines, "r", "s", "it", true, none, some 1, some 2, some 3, some 10, 1⟩

/-- A guest of a room that an organization sponsors. -/
def sponsoredGuest : PeerConfig :=
  ⟨threeEngines, "r", "s", "it", true, some 7, none, none, some 3, some 10, 1⟩

/-- A turn of a subscriber. -/
def subscriberTurn : List PeerEvent :=
  [.start .allOpen, .audio fun _ => true, .elapse 1000, .tick .charged, .stop, .start .allOpen]

/-- The law on that turn. -/
theorem listenerMetered_subscriberTurn :
    ∃ s, Run (Step subscriber) (join subscriber none 0) subscriberTurn s ∧
      ∀ pre u, pre <+: subscriberTurn → Run (Step subscriber) (join subscriber none 0) pre u →
        u.ListenerMetered := by
  obtain ⟨s, hrun⟩ : ∃ s, Run (Guarded (Step subscriber) fun s a =>
      keepsListenerMeter subscriber s a = true) (join subscriber none 0) subscriberTurn s :=
    Run.exists_guarded_of_isSome (by decide +kernel)
  exact ⟨s, hrun.ofGuarded, (listenerMetered_iff rfl rfl hrun.ofGuarded).mp hrun⟩

/-- A sponsored guest that stops and starts again speaks without a meter. -/
theorem sponsoredGuest_unmetered :
    sponsoredGuest.listenerPays = true ∧ sponsoredGuest.payer.isSome = true ∧
    ∃ s, Run (Step sponsoredGuest) (join sponsoredGuest none 0) [.start .allOpen, .stop, .start .allOpen] s ∧
      s.speaking = true ∧ ¬ s.ListenerMetered :=
  ⟨rfl, rfl, Run.exists_of_decide (by decide +kernel)⟩

end VoxTranslate.Metering.Connection
