import Mathlib.Algebra.Order.Floor.Div
import VoxTranslate.Metering.Connection

/-!
# The speaking cap of a guest

The counter of an address grows by one interval at each tick of a guest meter.  What a burst of
speech has begun of an interval when its meter is cancelled is never counted; a burst that is
started with a full counter runs for another interval; and where the listeners pay, running out
does not end the speech.

A guest leaves and comes back under one counter, until the window of the counter has passed and
it starts over with a new one.  The cap is a cap on what is spoken under one counter.
-/

namespace VoxTranslate.Metering

open Lib Engine Rooms

/-- A guest and the books kept of it, since its counter was started. -/
structure Guest where
  conn : Connection
  /-- Milliseconds its audio was forwarded. -/
  forwarded : Nat
  /-- Seconds its own meters have counted. -/
  counted : Nat
  /-- Milliseconds its meters had begun of an interval when they were cancelled. -/
  cutOff : Nat

/-- What may happen to a guest. -/
inductive GuestEvent where
  | conn (e : PeerEvent)
  /-- The guest connects again, before or after the window of its counter has passed. -/
  | rejoin (engineId : Option String) (expired : Bool)
  /-- Another connection of the address counts. -/
  | shared (secs : Nat)

namespace Connection

/-- Milliseconds the running meter has begun of its interval. -/
def begun (s : Connection) : Nat := (s.meterCancel.filter Meter.isRunning).elim 0 Meter.sinceTick

/-- The speech of a guest is metered. -/
structure Capped (cfg : PeerConfig) (cap : Nat) (s : Connection) : Prop where
  /-- One of the two models is in use. -/
  oneModel : if cfg.listenerPays then s.audioTx = none else s.audioFeeds = []
  /-- A guest who speaks has a running meter, or one whose signal is on its way. -/
  speaking_metered : s.speaking = true → s.metered = true ∨ 0 < s.exhaust
  /-- A meter that has returned has found the counter full. -/
  returned : ∀ m, s.meterCancel = some m → m.isRunning = false → cap ≤ s.spent
  closed_idle : s.closed = true → s.meterCancel = none
  fit : s.MetersFit cfg

section Capped

variable {cfg : PeerConfig} {cap : Nat} {s s' : Connection}

lemma begun_of_not_metered (h : s.metered = false) : s.begun = 0 := by
  rw [metered] at h
  rw [begun]
  cases hm : s.meterCancel with
  | none => rfl
  | some m =>
    rw [hm, Option.any_some] at h
    rw [Option.filter_some, h]
    rfl

/-- The meters of a guest are guest meters. -/
lemma Capped.kind_guest (hcap : cfg.guestCap = some cap) (h : s.Capped cfg cap) {m : Meter}
    (hm : m ∈ s.meters) : m.kind = .guest :=
  (h.fit m hm).mpr (PeerConfig.payer_of_guestCap hcap)

/-- A guest who does not speak need not be metered. -/
lemma Capped.of_silent (hfit : s.MetersFit cfg) (haudio : s.audioTx = none) (hfeeds : s.audioFeeds = [])
    (hnone : s.meterCancel = none) : s.Capped cfg cap where
  oneModel := by
    split_ifs
    · exact haudio
    · exact hfeeds
  speaking_metered := by
    intro hspeaking
    rw [speaking, haudio, hfeeds] at hspeaking
    cases hspeaking
  returned := by
    intro m hm
    rw [hnone] at hm
    cases hm
  closed_idle := fun _ => hnone
  fit := hfit

/-- What becomes of the handle of a guest's meter, unless time passes: it stays as it is, or it
is dropped, or a new meter is spawned, with a counter that is not full. -/
def Handled (cap : Nat) (s t : Connection) : Prop :=
  t.meterCancel = s.meterCancel ∨ t.meterCancel = none ∨
    s.spent < cap ∧ t.meterCancel = some (.spawn .guest)

lemma opened_capped (hcap : cfg.guestCap = some cap) (hsp : cfg.listenerPays = false)
    (h : s.Capped cfg cap) (hlive : s.closed = false) (engine : EngineMetadata)
    (hspent : s.spent < cap) :
    (s.opened cfg engine).Capped cfg cap ∧ Handled cap s (s.opened cfg engine) := by
  have hmeter : spawnMeter cfg.payer cfg.guestCap engine = some (.spawn .guest) := by
    rw [PeerConfig.payer_of_guestCap hcap, hcap]
    rfl
  refine ⟨⟨?_, fun _ => .inl ?_, fun m hm hnot => ?_, fun hclosed => ?_, ?_⟩,
    .inr (.inr ⟨hspent, hmeter⟩)⟩
  · have hone := h.oneModel
    rw [hsp] at hone ⊢
    exact hone
  · rw [opened, hmeter]
    rfl
  · rw [opened, hmeter] at hm
    cases hm
    cases hnot
  · cases hclosed.symm.trans hlive
  · exact MetersFit.setHandle (s := { s with audioTx := some ⟨engine.id, false⟩ }) h.fit spawnMeter_fits

/-- `Start` of a guest, where speakers pay. -/
lemma startSession_capped (hcap : cfg.guestCap = some cap) (hsp : cfg.listenerPays = false)
    (h : s.Capped cfg cap) (hlive : s.closed = false)
    (hspent : s.speaking = true ∨ s.spent < cap) (env : StartEnv) :
    (s.startSession cfg env).Capped cfg cap ∧ Handled cap s (s.startSession cfg env) := by
  rw [startSession]
  split_ifs with hopen
  · exact ⟨h, .inl rfl⟩
  · have hone := h.oneModel
    rw [hsp] at hone
    -- with no channel open the guest is silent, so the guard says that the cap is not used up
    have hsilent : s.speaking = false := by
      rw [speaking, hone, Bool.not_eq_true] at *
      rw [hopen]
      rfl
    have hlt : s.spent < cap := hspent.resolve_left (by simp [hsilent])
    have h' : Capped cfg cap { s with activeEngine := cfg.registry.defaultEngine } :=
      ⟨h.oneModel, h.speaking_metered, h.returned, h.closed_idle, h.fit⟩
    cases env.outcome s.activeEngine.id false with
    | started => exact opened_capped hcap hsp h hlive _ hlt
    | failed => exact ⟨h, .inl rfl⟩
    | atCapacity =>
      cases env.retry with
      | started => exact opened_capped hcap hsp h' hlive _ hlt
      | atCapacity => exact ⟨h', .inl rfl⟩
      | failed => exact ⟨h', .inl rfl⟩

/-- `Start` of a guest, where the listeners pay. -/
lemma startFeeds_capped (hcap : cfg.guestCap = some cap) (hlp : cfg.listenerPays = true)
    (h : s.Capped cfg cap) (hlive : s.closed = false)
    (hspent : s.speaking = true ∨ s.spent < cap) (env : StartEnv) :
    (s.startFeeds cfg env).Capped cfg cap ∧ Handled cap s (s.startFeeds cfg env) := by
  have hfit := startFeeds_metersFit h.fit env
  rw [startFeeds] at hfit ⊢
  split_ifs at hfit ⊢ with hidle
  · have hone := h.oneModel
    rw [hlp, if_pos rfl] at hone
    have hsilent : s.speaking = false := by
      rw [speaking, hone, hidle]
      rfl
    have hlt : s.spent < cap := hspent.resolve_left (by simp [hsilent])
    have hpayer := PeerConfig.payer_of_guestCap hcap
    dsimp only at hfit ⊢
    split_ifs at hfit ⊢ with hguest
    · have hmeter : spawnMeter none cfg.guestCap s.activeEngine = some (.spawn .guest) := by
        rw [hcap]
        rfl
      rw [hmeter] at hfit ⊢
      refine ⟨⟨?_, fun _ => .inl rfl, fun m hm hnot => ?_, fun hclosed => ?_, hfit⟩,
        .inr (.inr ⟨hlt, rfl⟩)⟩
      · rw [hlp]
        exact hone
      · cases hm
        cases hnot
      · cases hclosed.symm.trans hlive
    · -- no feed was opened, or the meter of an earlier burst is still there and running
      refine ⟨⟨?_, fun hspeaking => .inl ?_, h.returned, h.closed_idle, hfit⟩, .inl rfl⟩
      · rw [hlp]
        exact hone
      · rw [speaking, hone] at hspeaking
        have hfeeds : (startTurn cfg.registry env.rooms cfg.room cfg.id
            ((env.rooms.peerLang cfg.room cfg.id).getD cfg.lang) env.outcome).feeds ≠ [] := by
          intro hnil
          rw [hnil] at hspeaking
          cases hspeaking
        cases hm : s.meterCancel with
        | none => exact absurd ⟨hfeeds, hpayer, hm⟩ hguest
        -- a meter that has returned has found the cap used up, which the guard excludes
        | some m =>
          show m.isRunning = true
          by_contra hnot
          have hfull := h.returned m hm (by simpa using hnot)
          omega
  · exact ⟨h, .inl rfl⟩

/-- `Stop` of a guest. -/
lemma stopped_capped (hcap : cfg.guestCap = some cap) (h : s.Capped cfg cap) :
    (s.stopped cfg).Capped cfg cap ∧ (s.stopped cfg).meterCancel = none := by
  have hguest : cfg.billedUser.isNone = true := by
    have hsome := hcap
    rw [PeerConfig.guestCap, guestCapSecs] at hsome
    split_ifs at hsome with hlift
    simp only [Bool.or_eq_true, Bool.not_eq_true', not_or, Bool.not_eq_false] at hlift
    exact hlift.1
  have hone := h.oneModel
  rw [stopped]
  split_ifs at hone ⊢ with hlp
  · exact ⟨.of_silent (MetersFit.dropHandle (s := { s with audioFeeds := [] }) h.fit) hone rfl rfl, rfl⟩
  · exact ⟨.of_silent (MetersFit.dropHandle (s := { s with audioTx := none }) h.fit) rfl hone rfl, rfl⟩

/-- A chunk of a guest: fewer channels are left. -/
lemma chunk_capped (h : s.Capped cfg cap) (accepts : EngineSession → Bool) :
    (s.chunk cfg accepts).Capped cfg cap ∧ (s.chunk cfg accepts).meterCancel = s.meterCancel := by
  have hone := h.oneModel
  rw [chunk]
  split_ifs at hone ⊢ with hlp
  · refine ⟨⟨?_, fun hspeaking => h.speaking_metered ?_, h.returned, h.closed_idle, h.fit⟩, rfl⟩
    · rw [if_pos hlp]
      exact hone
    · simp only [speaking, hone] at hspeaking ⊢
      cases hfeeds : s.audioFeeds with
      | nil => simp [hfeeds] at hspeaking
      | cons session feeds => rfl
  · refine ⟨⟨?_, fun hspeaking => h.speaking_metered ?_, h.returned, h.closed_idle, h.fit⟩, rfl⟩
    · rw [if_neg hlp]
      exact hone
    · simp only [speaking, hone] at hspeaking ⊢
      cases haudio : s.audioTx with
      | none => simp [haudio] at hspeaking
      | some session => rfl

/-- A signal of exhaustion reaches a guest: it does not speak any more, if it did not speak or
the speaker pays. -/
lemma readExhausted_capped (h : s.Capped cfg cap)
    (hsilent : cfg.listenerPays = true → s.speaking = false) :
    (s.readExhausted cfg).Capped cfg cap ∧ (s.readExhausted cfg).meterCancel = none := by
  have hone := h.oneModel
  have hfit : ({ s with exhaust := s.exhaust - 1 } : Connection).dropHandle.MetersFit cfg :=
    MetersFit.dropHandle (s := { s with exhaust := s.exhaust - 1 }) h.fit
  rw [readExhausted]
  split_ifs at hone ⊢ with hlp
  · have hidle := hsilent hlp
    rw [speaking, hone] at hidle
    have hnil : s.audioFeeds = [] := by simpa using hidle
    exact ⟨.of_silent hfit hone hnil rfl, rfl⟩
  · exact ⟨.of_silent hfit rfl hone rfl, rfl⟩
  · exact ⟨.of_silent hfit rfl hone rfl, rfl⟩

/-- A tick of a guest's meter. -/
lemma tick_capped (hcap : cfg.guestCap = some cap) (h : s.Capped cfg cap) {outcome : TickOutcome}
    (hstep : s.step cfg (.tick outcome) = some s') :
    s'.Capped cfg cap ∧ s.metered = true ∧ cfg.intervalMs ≤ s.begun ∧
      s'.begun ≤ s.begun - cfg.intervalMs ∧ s'.spent = s.spent + cfg.interval ∧
      (s'.metered = true → s'.spent < cap) := by
  have hfit := h.fit.step hstep
  obtain ⟨m, hm, hrunning, hdue, rfl⟩ := step_spec hstep
  have hkind : m.kind = .guest := h.kind_guest hcap (by simp [meters, hm])
  have hmetered : s.metered = true := by
    rw [metered, hm]
    exact hrunning
  have hbegun : s.begun = m.sinceTick := by
    rw [begun, hm, Option.filter_some, hrunning]
    rfl
  have heffect : s.tickEffect cfg m outcome =
      if cap ≤ s.spent + cfg.interval then ⟨.exhausted, s.spent + cfg.interval, false⟩
      else ⟨.running, s.spent + cfg.interval, false⟩ := by
    rw [tickEffect, hkind, hcap]
    rfl
  rw [heffect] at hfit ⊢
  refine ⟨⟨h.oneModel, ?_, ?_, fun hclosed => ?_, hfit⟩, hmetered, hbegun ▸ hdue, ?_, ?_, ?_⟩
  · intro _
    split_ifs
    · exact .inr (Nat.succ_pos _)
    · exact .inl rfl
  · intro m' hm' hnot
    cases hm'
    split_ifs at hnot ⊢ with hfull
    · exact hfull
    · cases hnot
  · rw [h.closed_idle hclosed] at hm
    cases hm
  · rw [hbegun]
    split_ifs
    · exact Nat.zero_le _
    · exact Nat.le_refl _
  · split_ifs <;> rfl
  · intro hm'
    split_ifs at hm' ⊢ with hfull
    · cases hm'
    · exact Nat.lt_of_not_le hfull

/-- A late tick of a meter that was cancelled fills the counter. -/
lemma lateTick_capped (hcap : cfg.guestCap = some cap) (h : s.Capped cfg cap) {i : Nat}
    {outcome : TickOutcome} (hstep : s.step cfg (.lateTick i outcome) = some s') :
    s'.Capped cfg cap ∧ s'.meterCancel = s.meterCancel ∧ s.spent ≤ s'.spent := by
  have hfit := h.fit.step hstep
  obtain ⟨m, hm, cancelled, -, rfl⟩ := step_spec hstep
  have hkind : m.kind = .guest := h.kind_guest hcap (List.mem_append_right _ hm)
  have hspent : s.spent ≤ (s.tickEffect cfg m outcome).spent := by
    rw [tickEffect, hkind, MeterKind.tick]
    split_ifs <;> exact Nat.le_add_right _ _
  refine ⟨⟨h.oneModel, fun hspeaking => ?_, fun m' hm' hnot => ?_, h.closed_idle, hfit⟩, rfl, hspent⟩
  · exact (h.speaking_metered hspeaking).imp_right fun hsignal => Nat.lt_of_lt_of_le hsignal (Nat.le_add_right _ _)
  · exact Nat.le_trans (h.returned m' hm' hnot) hspent

/-- Time passes. -/
lemma elapse_capped (h : s.Capped cfg cap) {ms : Nat} (hstep : s.step cfg (.elapse ms) = some s') :
    s'.Capped cfg cap ∧ s'.metered = s.metered ∧ s'.spent = s.spent ∧
      s'.begun = s.begun + if s.metered then ms else 0 := by
  have hfit := h.fit.step hstep
  cases hstep
  have hmetered : (s.meterCancel.map fun m => { m with sinceTick := m.sinceTick + ms }).any
      Meter.isRunning = s.metered := by
    rw [Option.any_map]
    rfl
  refine ⟨⟨h.oneModel, fun hspeaking => ?_, fun m hm hnot => ?_, fun hclosed => ?_, hfit⟩, hmetered,
    rfl, ?_⟩
  · exact (h.speaking_metered hspeaking).imp_left hmetered.trans
  · obtain ⟨m', hm', rfl⟩ := Option.map_eq_some_iff.mp hm
    exact h.returned m' hm' hnot
  · rw [h.closed_idle hclosed]
    rfl
  · rcases hm : s.meterCancel with _ | ⟨kind, state, sinceTick⟩
    · simp [begun, metered, hm]
    · cases state <;> simp [begun, metered, hm, Meter.isRunning, Option.filter]

lemma startSession_spent (env : StartEnv) : (s.startSession cfg env).spent = s.spent := by
  rw [startSession]
  split_ifs
  · rfl
  · cases env.outcome s.activeEngine.id false with
    | started | failed => rfl
    | atCapacity => cases env.retry <;> rfl

lemma startFeeds_spent (env : StartEnv) : (s.startFeeds cfg env).spent = s.spent := by
  rw [startFeeds]
  split_ifs
  · dsimp only
    split_ifs <;> rfl
  · rfl

/-- **What a step of the handler does to a guest.** -/
lemma quiet_capped (hcap : cfg.guestCap = some cap) (h : s.Capped cfg cap) {e : PeerEvent}
    (hstart : ∀ env, e = .start env → s.speaking = true ∨ s.spent < cap)
    (hexhausted : e = .exhausted → cfg.listenerPays = true → s.speaking = false)
    (htick : ∀ outcome, e ≠ .tick outcome) (helapse : ∀ ms, e ≠ .elapse ms)
    (hstep : s.step cfg e = some s') :
    s'.Capped cfg cap ∧ Handled cap s s' ∧ s.spent ≤ s'.spent := by
  cases e with
  | start env =>
    obtain ⟨hlive, rfl⟩ := step_spec hstep
    split_ifs with hlp
    · obtain ⟨hcapped, hhandled⟩ := startFeeds_capped hcap hlp h hlive (hstart env rfl) env
      exact ⟨hcapped, hhandled, (startFeeds_spent env).ge⟩
    · obtain ⟨hcapped, hhandled⟩ :=
        startSession_capped hcap (by simpa using hlp) h hlive (hstart env rfl) env
      exact ⟨hcapped, hhandled, (startSession_spent env).ge⟩
  | stop =>
    obtain ⟨-, rfl⟩ := step_spec hstep
    obtain ⟨hcapped, hnone⟩ := stopped_capped hcap h
    refine ⟨hcapped, .inr (.inl hnone), ?_⟩
    rw [stopped]
    split_ifs <;> exact Nat.le_refl _
  | audio accepts =>
    obtain ⟨-, rfl⟩ := step_spec hstep
    obtain ⟨hcapped, hsame⟩ := chunk_capped h accepts
    refine ⟨hcapped, .inl hsame, ?_⟩
    rw [chunk]
    split_ifs <;> exact Nat.le_refl _
  | enhancedFallback peerEngine =>
    obtain ⟨-, rfl⟩ := step_spec hstep
    have hsame : s.fallback cfg peerEngine = s := by
      simp [fallback, PeerConfig.payer_of_guestCap hcap]
    rw [hsame]
    exact ⟨h, .inl rfl, Nat.le_refl _⟩
  | other =>
    obtain ⟨-, rfl⟩ := step_spec hstep
    exact ⟨h, .inl rfl, Nat.le_refl _⟩
  | exhausted =>
    obtain ⟨-, rfl⟩ := step_spec hstep
    obtain ⟨hcapped, hnone⟩ := readExhausted_capped h (hexhausted rfl)
    refine ⟨hcapped, .inr (.inl hnone), ?_⟩
    rw [readExhausted]
    split_ifs <;> exact Nat.le_refl _
  | close =>
    obtain ⟨-, rfl⟩ := step_spec hstep
    exact ⟨.of_silent h.fit.dropHandle rfl rfl rfl, .inr (.inl rfl), Nat.le_refl _⟩
  | tick outcome => exact absurd rfl (htick outcome)
  | lateTick i outcome =>
    obtain ⟨hcapped, hsame, hspent⟩ := lateTick_capped hcap h hstep
    exact ⟨hcapped, .inl hsame, hspent⟩
  | noticed i =>
    have hfit := h.fit.step hstep
    cases step_spec hstep
    exact ⟨⟨h.oneModel, h.speaking_metered, h.returned, h.closed_idle, hfit⟩, .inl rfl, Nat.le_refl _⟩
  | elapse ms => exact absurd rfl (helapse ms)

lemma join_capped (hcap : cfg.guestCap = some cap) (engineId : Option String) (spent : Nat) :
    (join cfg engineId spent).Capped cfg cap ∧ (join cfg engineId spent).meterCancel = none := by
  have hnone : (join cfg engineId spent).meterCancel = none := by
    simp [join, PeerConfig.payer_of_guestCap hcap]
  exact ⟨.of_silent (join_metersFit engineId spent) rfl rfl hnone, hnone⟩

end Capped

end Connection

namespace Guest

section Steps

variable (cfg : PeerConfig)

/-- A guest on its first connection. -/
def init (engineId : Option String) : Guest := ⟨.join cfg engineId 0, 0, 0, 0⟩

/-- The books after a step of the connection. -/
def after (g : Guest) (c : Connection) : PeerEvent → Guest
  | .elapse ms => { g with conn := c, forwarded := g.forwarded + if g.conn.speaking then ms else 0 }
  | .tick _ => { g with conn := c, counted := g.counted + cfg.interval }
  | _ =>
    { g with
      conn := c
      cutOff := g.cutOff + if c.meterCancel = g.conn.meterCancel then 0 else g.conn.begun }

/-- The step function; `none` where the step cannot be taken. -/
def step (g : Guest) : GuestEvent → Option Guest
  | .conn e => (g.conn.step cfg e).map fun c => g.after cfg c e
  | .rejoin engineId expired =>
    if g.conn.closed then
      some (if expired then init cfg engineId
        else { g with conn := .join cfg engineId g.conn.spent })
    else none
  | .shared secs => some { g with conn := { g.conn with spent := g.conn.spent + secs } }

/-- The transition relation. -/
abbrev Step : Guest → GuestEvent → Guest → Prop := ofPartial (step cfg)

/-- What may be cut off, in milliseconds, without going over the cap by more than an interval. -/
def slack (cap : Nat) : Nat := 1000 * (cap + cfg.interval - cfg.interval * (cap ⌈/⌉ cfg.interval))

/-- The step of the connection keeps the cap.  No burst is started with a full counter; where
the listeners pay, no signal of exhaustion finds the guest speaking; and the runtime is prompt:
no time passes over a timer, or while a signal waits for a guest who speaks. -/
def keepsMetered (cap : Nat) (s : Connection) : PeerEvent → Bool
  | .start _ => s.speaking || s.spent < cap
  | .exhausted => !(cfg.listenerPays && s.speaking)
  | .elapse ms =>
    (!s.metered || s.begun + ms ≤ cfg.intervalMs) && (!s.speaking || s.exhaust = 0)
  | _ => true

/-- The step keeps the cap, and what was cut off stays within the slack. -/
def keepsCap (cap : Nat) (g : Guest) : GuestEvent → Bool
  | .conn e =>
    keepsMetered cfg cap g.conn e &&
      (g.step cfg (.conn e)).all fun g' => g'.cutOff ≤ slack cfg cap
  | .rejoin _ _ | .shared _ => true

end Steps

section Cap

variable {cfg : PeerConfig} {cap : Nat} {g g' : Guest}

/-- The cap in milliseconds, and one interval more. -/
def WithinCap (cfg : PeerConfig) (cap : Nat) (g : Guest) : Prop :=
  g.forwarded ≤ 1000 * (cap + cfg.interval)

/-- What was forwarded was counted, cut off, or is of the interval that has begun. -/
structure Accounted (cfg : PeerConfig) (cap : Nat) (g : Guest) : Prop where
  capped : g.conn.Capped cfg cap
  forwarded_le : g.forwarded ≤ 1000 * g.counted + g.cutOff + g.conn.begun
  begun_le : g.conn.begun ≤ cfg.intervalMs
  counted_dvd : cfg.interval ∣ g.counted
  counted_le_spent : g.counted ≤ g.conn.spent
  /-- A meter is running only while the counter is not full. -/
  counted_lt : g.conn.metered = true → g.counted < cap
  counted_le : g.counted ≤ cfg.interval * (cap ⌈/⌉ cfg.interval)
  cutOff_le : g.cutOff ≤ slack cfg cap

lemma interval_pos (cfg : PeerConfig) : 0 < cfg.interval := Nat.le_max_right _ _

/-- One more interval fits under the cap, rounded up. -/
lemma add_interval_le (hdvd : cfg.interval ∣ g.counted) (hlt : g.counted < cap) :
    g.counted + cfg.interval ≤ cfg.interval * (cap ⌈/⌉ cfg.interval) := by
  obtain ⟨k, hk⟩ := hdvd
  have hpos := interval_pos cfg
  have hceil : cap ≤ cfg.interval * (cap ⌈/⌉ cfg.interval) := le_smul_ceilDiv hpos
  have hk' : k < cap ⌈/⌉ cfg.interval := by
    by_contra hge
    have hmul : cfg.interval * (cap ⌈/⌉ cfg.interval) ≤ cfg.interval * k :=
      Nat.mul_le_mul_left _ (Nat.le_of_not_lt hge)
    omega
  calc g.counted + cfg.interval = cfg.interval * (k + 1) := by rw [hk, Nat.mul_succ]
    _ ≤ cfg.interval * (cap ⌈/⌉ cfg.interval) := Nat.mul_le_mul_left _ hk'

/-- The books bound what was forwarded. -/
lemma Accounted.withinCap (h : g.Accounted cfg cap) : g.WithinCap cfg cap := by
  have hforwarded := h.forwarded_le
  have hcut := h.cutOff_le
  have hbegun := h.begun_le
  have hround : cfg.interval * (cap ⌈/⌉ cfg.interval) ≤ cap + cfg.interval := by
    have := Nat.div_mul_le_self (cap + cfg.interval - 1) cfg.interval
    rw [Nat.ceilDiv_eq_add_pred_div, Nat.mul_comm]
    omega
  rw [slack] at hcut
  rw [PeerConfig.intervalMs] at hbegun
  rw [WithinCap]
  by_cases hm : g.conn.metered = true
  · have hone := add_interval_le h.counted_dvd (h.counted_lt hm)
    omega
  · rw [Connection.begun_of_not_metered (by simpa using hm)] at hforwarded
    have hcounted := h.counted_le
    omega

/-- A step of the handler cuts off what the meter has begun, and only that. -/
lemma Accounted.quiet (hcap : cfg.guestCap = some cap) (h : g.Accounted cfg cap) {e : PeerEvent}
    {c : Connection} (hkeeps : keepsMetered cfg cap g.conn e = true)
    (htick : ∀ outcome, e ≠ .tick outcome) (helapse : ∀ ms, e ≠ .elapse ms)
    (hstep : g.conn.step cfg e = some c)
    (hcut : g.cutOff + (if c.meterCancel = g.conn.meterCancel then 0 else g.conn.begun) ≤ slack cfg cap) :
    Accounted cfg cap { g with
      conn := c
      cutOff := g.cutOff + if c.meterCancel = g.conn.meterCancel then 0 else g.conn.begun } := by
  have hstart : ∀ env, e = .start env → g.conn.speaking = true ∨ g.conn.spent < cap := by
    rintro env rfl
    simpa [keepsMetered] using hkeeps
  have hexhausted : e = .exhausted → cfg.listenerPays = true → g.conn.speaking = false := by
    rintro rfl hlp
    simpa [keepsMetered, hlp] using hkeeps
  obtain ⟨hcapped, hhandled, hspent⟩ :=
    Connection.quiet_capped hcap h.capped hstart hexhausted htick helapse hstep
  have hforwarded := h.forwarded_le
  refine ⟨hcapped, ?_, ?_, h.counted_dvd, Nat.le_trans h.counted_le_spent hspent, ?_, h.counted_le, hcut⟩
  · show g.forwarded ≤ 1000 * g.counted + (g.cutOff + if c.meterCancel = g.conn.meterCancel then 0
      else g.conn.begun) + c.begun
    split_ifs with hsame
    · have hbegun : c.begun = g.conn.begun := by rw [Connection.begun, hsame, Connection.begun]
      omega
    · omega
  · rcases hhandled with hsame | hnone | ⟨-, hspawn⟩
    · have hbegun : c.begun = g.conn.begun := by rw [Connection.begun, hsame, Connection.begun]
      exact hbegun ▸ h.begun_le
    · rw [Connection.begun, hnone]
      exact Nat.zero_le _
    · rw [Connection.begun, hspawn]
      exact Nat.zero_le _
  · intro hmetered
    rcases hhandled with hsame | hnone | ⟨hlt, -⟩
    · refine h.counted_lt ?_
      rw [Connection.metered, ← hsame]
      exact hmetered
    · rw [Connection.metered, hnone] at hmetered
      cases hmetered
    · exact Nat.lt_of_le_of_lt h.counted_le_spent hlt

/-- A tick counts the interval that is over. -/
lemma Accounted.tick (hcap : cfg.guestCap = some cap) (h : g.Accounted cfg cap)
    {outcome : TickOutcome} {c : Connection} (hstep : g.conn.step cfg (.tick outcome) = some c) :
    Accounted cfg cap { g with conn := c, counted := g.counted + cfg.interval } := by
  obtain ⟨hcapped, hmetered, hdue, hbegun, hspent, hlt⟩ :=
    Connection.tick_capped hcap h.capped hstep
  have hforwarded := h.forwarded_le
  have hle := h.begun_le
  have hcounted := h.counted_le_spent
  rw [PeerConfig.intervalMs] at hdue hle hbegun
  refine ⟨hcapped, ?_, ?_, (Nat.dvd_add_right h.counted_dvd).mpr (dvd_refl _), ?_, fun hm => ?_, ?_,
    h.cutOff_le⟩
  · show g.forwarded ≤ 1000 * (g.counted + cfg.interval) + g.cutOff + c.begun
    omega
  · show c.begun ≤ cfg.intervalMs
    rw [PeerConfig.intervalMs]
    omega
  · show g.counted + cfg.interval ≤ c.spent
    omega
  · have hfree := hlt hm
    show g.counted + cfg.interval < cap
    omega
  · exact add_interval_le h.counted_dvd (h.counted_lt hmetered)

/-- Time that passes is of the interval that has begun. -/
lemma Accounted.elapse (h : g.Accounted cfg cap) {ms : Nat} {c : Connection}
    (hkeeps : keepsMetered cfg cap g.conn (.elapse ms) = true)
    (hstep : g.conn.step cfg (.elapse ms) = some c) :
    Accounted cfg cap { g with
      conn := c, forwarded := g.forwarded + if g.conn.speaking then ms else 0 } := by
  obtain ⟨hcapped, hmetered, hspent, hbegun⟩ := Connection.elapse_capped h.capped hstep
  simp only [keepsMetered, Bool.and_eq_true, Bool.or_eq_true, Bool.not_eq_true', decide_eq_true_eq]
    at hkeeps
  obtain ⟨htimer, hsignal⟩ := hkeeps
  have hforwarded := h.forwarded_le
  refine ⟨hcapped, ?_, ?_, h.counted_dvd, hspent ▸ h.counted_le_spent, ?_, h.counted_le, h.cutOff_le⟩
  · show g.forwarded + (if g.conn.speaking then ms else 0) ≤ 1000 * g.counted + g.cutOff + c.begun
    rw [hbegun]
    split_ifs with hspeaking hm hm
    · omega
    · -- who speaks without a meter has a signal waiting, and no time passes
      have hread := hsignal.resolve_left (by simp [hspeaking])
      have hwaiting := (h.capped.speaking_metered hspeaking).resolve_left hm
      omega
    · omega
    · omega
  · rw [hbegun]
    split_ifs with hm
    · exact htimer.resolve_left (by simp [hm])
    · exact h.begun_le
  · intro hm
    exact h.counted_lt (hmetered ▸ hm)

/-- The books of a new counter. -/
lemma init_accounted (hcap : cfg.guestCap = some cap) (engineId : Option String) :
    (init cfg engineId).Accounted cfg cap := by
  obtain ⟨hcapped, hnone⟩ := Connection.join_capped hcap engineId 0
  refine ⟨hcapped, Nat.zero_le _, ?_, ⟨0, rfl⟩, Nat.zero_le _, fun hm => ?_, Nat.zero_le _, Nat.zero_le _⟩
  · rw [Connection.begun, init, hnone]
    exact Nat.zero_le _
  · rw [Connection.metered, init, hnone] at hm
    cases hm

/-- **Every step that keeps the cap keeps the books.** -/
theorem Accounted.step (hcap : cfg.guestCap = some cap) (h : g.Accounted cfg cap) {a : GuestEvent}
    (hkeeps : keepsCap cfg cap g a = true) (hstep : g.step cfg a = some g') :
    g'.Accounted cfg cap := by
  cases a with
  | conn e =>
    rw [keepsCap, Bool.and_eq_true, hstep, Option.all_some, decide_eq_true_eq] at hkeeps
    obtain ⟨hmetered, hcut⟩ := hkeeps
    obtain ⟨c, hc, rfl⟩ := Option.map_eq_some_iff.mp hstep
    cases e with
    | tick outcome => exact h.tick hcap hc
    | elapse ms => exact h.elapse hmetered hc
    | start | stop | audio | enhancedFallback | other | exhausted | close | lateTick | noticed =>
      exact h.quiet hcap hmetered (by simp) (by simp) hc hcut
  | rejoin engineId expired =>
    simp only [Guest.step] at hstep
    split_ifs at hstep with hclosed hexpired
    · cases hstep
      exact init_accounted hcap engineId
    · cases hstep
      obtain ⟨hcapped, hnone⟩ := Connection.join_capped hcap engineId g.conn.spent
      have hforwarded := h.forwarded_le
      rw [Connection.begun, h.capped.closed_idle hclosed] at hforwarded
      refine ⟨hcapped, ?_, ?_, h.counted_dvd, h.counted_le_spent, fun hm => ?_, h.counted_le, h.cutOff_le⟩
      · exact Nat.le_trans hforwarded (Nat.add_le_add_left (Nat.zero_le _) _)
      · rw [Connection.begun, hnone]
        exact Nat.zero_le _
      · rw [Connection.metered, hnone] at hm
        cases hm
  | shared secs =>
    cases hstep
    have hcapped := h.capped
    refine ⟨⟨hcapped.oneModel, hcapped.speaking_metered, fun m hm hnot => ?_, hcapped.closed_idle,
      hcapped.fit⟩, h.forwarded_le, h.begun_le, h.counted_dvd, ?_, h.counted_lt, h.counted_le, h.cutOff_le⟩
    · exact Nat.le_trans (hcapped.returned m hm hnot) (Nat.le_add_right _ _)
    · exact Nat.le_trans h.counted_le_spent (Nat.le_add_right _ _)

end Cap

/-- **The guest cap.**  On every run whose steps keep the cap, the audio of a guest is forwarded
for no longer than the cap and one interval, under one counter. -/
theorem withinCap_of_run {cfg : PeerConfig} {cap : Nat} {engineId : Option String}
    {as : List GuestEvent} {g : Guest} (hcap : cfg.guestCap = some cap)
    (h : Run (Guarded (Step cfg) fun g a => keepsCap cfg cap g a = true) (init cfg engineId) as g) :
    g.WithinCap cfg cap := by
  have hbooks : g.Accounted cfg cap :=
    h.invariant (Accounted cfg cap) (fun _ _ _ _ hg hstep => hg.step hcap hstep.1 hstep.2)
      (init_accounted hcap engineId)
  exact hbooks.withinCap

/-- A guest with a minute to speak, counted in half minutes; `listenerPays` is the model. -/
def visitor (listenerPays : Bool) : PeerConfig :=
  ⟨threeEngines, "r", "s", "it", listenerPays, none, none, none, some 3, some 1, 30⟩

/-- A burst that is stopped, another after the guest has come back, until it runs out. -/
def twoBursts : List GuestEvent :=
  [.conn (.start .allOpen), .conn (.elapse 30000), .conn (.tick .skipped), .conn (.elapse 10000),
    .conn .stop, .conn .close, .rejoin none false, .conn (.start .allOpen), .conn (.elapse 30000),
    .conn (.tick .skipped), .conn .exhausted]

/-- The law on these bursts: seventy seconds under a cap of sixty. -/
theorem withinCap_twoBursts :
    ∃ g, Run (Step (visitor false)) (init (visitor false) none) twoBursts g ∧
      g.forwarded = 70000 ∧ g.WithinCap (visitor false) 60 := by
  obtain ⟨g, hrun, hforwarded⟩ : ∃ g, Run (Guarded (Step (visitor false)) fun g a =>
      keepsCap (visitor false) 60 g a = true) (init (visitor false) none) twoBursts g ∧
      g.forwarded = 70000 := Run.exists_guarded_of_decide (by decide +kernel)
  exact ⟨g, hrun.ofGuarded, hforwarded, withinCap_of_run rfl hrun⟩

/-- A guest that runs out where the listeners pay, and speaks on. -/
def speaksOn : List GuestEvent :=
  [.conn (.start .allOpen), .conn (.elapse 30000), .conn (.tick .skipped), .conn (.elapse 30000),
    .conn (.tick .skipped), .conn .exhausted, .conn (.elapse 60000)]

/-- Two minutes are forwarded, under a cap of one and an interval of a half. -/
theorem speaksOn_over :
    (visitor true).guestCap = some 60 ∧
    ∃ g, Run (Step (visitor true)) (init (visitor true) none) speaksOn g ∧
      g.forwarded = 120000 ∧ ¬ g.WithinCap (visitor true) 60 := by
  refine ⟨rfl, ?_⟩
  obtain ⟨g, hrun, hforwarded⟩ : ∃ g, Run (Step (visitor true)) (init (visitor true) none)
      speaksOn g ∧ g.forwarded = 120000 := Run.exists_of_decide (by decide +kernel)
  refine ⟨g, hrun, hforwarded, fun hwithin => ?_⟩
  rw [WithinCap, hforwarded] at hwithin
  exact absurd hwithin (by decide)

end Guest

end VoxTranslate.Metering
