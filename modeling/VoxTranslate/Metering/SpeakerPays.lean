import VoxTranslate.Metering.Connection

/-!
# The meter of a speaker

Where the speaker pays, the session and the meter are opened and closed together, but for two
branches: a chunk that the channel of the engine refuses closes the session and leaves the meter
running, and a charge that fails ends the meter and leaves the session open.
-/

namespace VoxTranslate.Metering.Connection

open Lib Engine Rooms

/-- The session and its meter agree: a running meter belongs to an open session; an open session
has a running meter, or one that has run out and whose signal is on its way; and no meter has
charged after it was cancelled. -/
structure Matched (s : Connection) : Prop where
  meter_open : s.metered = true → s.audioTx.isSome = true
  open_meter : s.audioTx.isSome = true → s.metered = true ∨ 0 < s.exhaust
  onTime : s.lateCharges = 0

/-- The step keeps them in agreement: no chunk is refused while the meter is running, no charge
fails while no signal of exhaustion is on its way, and no cancelled meter charges. -/
def keepsMatched (s : Connection) : PeerEvent → Bool
  | .audio accepts => !s.metered || s.audioTx.all accepts
  | .tick .failed => 0 < s.exhaust
  | .lateTick _ .charged => false
  | _ => true

section Step

variable {cfg : PeerConfig} {s s' : Connection}

/-- A session that was opened is metered, when somebody pays. -/
lemma opened_matched (hpayer : cfg.payer.isSome = true) (h : s.Matched) (engine : EngineMetadata) :
    (s.opened cfg engine).Matched := by
  obtain ⟨payer, hp⟩ := Option.isSome_iff_exists.mp hpayer
  refine ⟨fun _ => rfl, fun _ => .inl ?_, h.onTime⟩
  rw [opened, hp]
  rfl

/-- `Start` where the speaker pays. -/
lemma startSession_matched (hpayer : cfg.payer.isSome = true) (h : s.Matched) (env : StartEnv) :
    (s.startSession cfg env).Matched := by
  rw [startSession]
  split_ifs
  · exact h
  · cases env.outcome s.activeEngine.id false with
    | started => exact opened_matched hpayer h _
    | failed => exact h
    | atCapacity =>
      have h' : Matched { s with activeEngine := cfg.registry.defaultEngine } :=
        ⟨h.meter_open, h.open_meter, h.onTime⟩
      cases env.retry with
      | started => exact opened_matched hpayer h' _
      | atCapacity => exact h'
      | failed => exact h'

/-- There is neither a session nor a meter. -/
lemma matched_of_idle (hmeter : s.metered = false) (hsession : s.audioTx = none)
    (honTime : s.lateCharges = 0) : s.Matched := by
  refine ⟨fun hm => ?_, fun hopen => ?_, honTime⟩
  · cases hm.symm.trans hmeter
  · rw [hsession] at hopen
    cases hopen

/-- The chunk that is refused. -/
lemma chunk_matched (hsp : cfg.listenerPays = false) (h : s.Matched) {accepts : EngineSession → Bool} :
    (s.chunk cfg accepts).Matched ↔ keepsMatched s (.audio accepts) = true := by
  simp only [chunk, hsp, keepsMatched, Bool.or_eq_true, Bool.not_eq_true']
  constructor
  · intro h'
    by_cases hm : s.metered = true
    · have hopen := h'.meter_open hm
      cases haudio : s.audioTx with
      | none => exact .inr rfl
      | some session =>
        right
        simp only [haudio, Bool.false_eq_true, if_false, Option.filter_some] at hopen
        split_ifs at hopen with haccept
        · exact haccept
        · cases hopen
    · exact .inl (by simpa using hm)
  · intro hkeeps
    refine ⟨fun hm => ?_, fun hopen => ?_, h.onTime⟩
    · have hall := hkeeps.resolve_left fun hfalse => Bool.noConfusion (hfalse.symm.trans hm)
      have hopen := h.meter_open hm
      obtain ⟨session, haudio⟩ := Option.isSome_iff_exists.mp hopen
      rw [haudio, Option.all_some] at hall
      simp [haudio, hall]
    · refine h.open_meter ?_
      cases haudio : s.audioTx with
      | none => simp [haudio] at hopen
      | some session => rfl

/-- The meters of a peer with a payer are usage meters. -/
lemma usage_of_metersFit (hpayer : cfg.payer.isSome = true) (hfit : s.MetersFit cfg) {m : Meter}
    (hm : m ∈ s.meters) : ∃ scope engine, m.kind = .usage scope engine := by
  have hkind := hfit m hm
  rw [Option.isSome_iff_ne_none] at hpayer
  cases hk : m.kind with
  | usage scope engine => exact ⟨scope, engine, rfl⟩
  | guest => exact absurd (hkind.mp hk) hpayer

/-- A tick of the meter. -/
lemma tick_matched (hpayer : cfg.payer.isSome = true) (hfit : s.MetersFit cfg) (h : s.Matched)
    {outcome : TickOutcome} (hstep : s.step cfg (.tick outcome) = some s') :
    s'.Matched ↔ keepsMatched s (.tick outcome) = true := by
  obtain ⟨m, hm, hrunning, -, rfl⟩ := step_spec hstep
  obtain ⟨scope, engine, hkind⟩ := usage_of_metersFit hpayer hfit (m := m) (by simp [meters, hm])
  have hmetered : s.metered = true := by
    rw [metered, hm]
    exact hrunning
  have hopen := h.meter_open hmetered
  rw [tickEffect, hkind]
  cases outcome with
  | skipped => exact iff_of_true ⟨fun _ => hopen, fun _ => .inl rfl, h.onTime⟩ rfl
  | charged => exact iff_of_true ⟨fun _ => hopen, fun _ => .inl rfl, h.onTime⟩ rfl
  | insufficient =>
    refine iff_of_true ⟨fun hm' => ?_, fun _ => .inr (Nat.succ_pos _), h.onTime⟩ rfl
    cases hm'
  | failed =>
    rw [keepsMatched, decide_eq_true_eq]
    constructor
    · intro h'
      refine (h'.open_meter hopen).resolve_left fun hm' => ?_
      cases hm'
    · intro hsignal
      refine ⟨fun hm' => ?_, fun _ => .inr hsignal, h.onTime⟩
      cases hm'

/-- A tick of a meter that was cancelled. -/
lemma lateTick_matched (hpayer : cfg.payer.isSome = true) (hfit : s.MetersFit cfg) (h : s.Matched)
    {i : Nat} {outcome : TickOutcome} (hstep : s.step cfg (.lateTick i outcome) = some s') :
    s'.Matched ↔ keepsMatched s (.lateTick i outcome) = true := by
  obtain ⟨m, hm, cancelled, -, rfl⟩ := step_spec hstep
  obtain ⟨scope, engine, hkind⟩ := usage_of_metersFit hpayer hfit (List.mem_append_right _ hm)
  rw [tickEffect, hkind]
  cases outcome with
  | skipped => exact iff_of_true ⟨h.meter_open, h.open_meter, h.onTime⟩ rfl
  | charged =>
    refine iff_of_false (fun h' => ?_) Bool.false_ne_true
    cases h'.onTime
  | insufficient =>
    exact iff_of_true ⟨h.meter_open, fun _ => .inr (Nat.succ_pos _), h.onTime⟩ rfl
  | failed => exact iff_of_true ⟨h.meter_open, h.open_meter, h.onTime⟩ rfl

/-- **Which steps keep the session and its meter in agreement.** -/
lemma Matched.step_iff (hsp : cfg.listenerPays = false) (hpayer : cfg.payer.isSome = true)
    (hfit : s.MetersFit cfg) (h : s.Matched) {a : PeerEvent} (hstep : s.step cfg a = some s') :
    s'.Matched ↔ keepsMatched s a = true := by
  cases a with
  | tick outcome => exact tick_matched hpayer hfit h hstep
  | lateTick i outcome => exact lateTick_matched hpayer hfit h hstep
  | audio accepts =>
    obtain ⟨-, rfl⟩ := step_spec hstep
    exact chunk_matched hsp h
  | start env =>
    obtain ⟨-, rfl⟩ := step_spec hstep
    rw [hsp]
    exact iff_of_true (startSession_matched hpayer h env) rfl
  | stop =>
    obtain ⟨-, rfl⟩ := step_spec hstep
    rw [stopped, hsp]
    exact iff_of_true (matched_of_idle rfl rfl h.onTime) rfl
  | enhancedFallback peerEngine =>
    obtain ⟨-, rfl⟩ := step_spec hstep
    have hsame : s.fallback cfg peerEngine = s := by simp [fallback, hsp]
    rw [hsame]
    exact iff_of_true h rfl
  | other =>
    obtain ⟨-, rfl⟩ := step_spec hstep
    exact iff_of_true h rfl
  | exhausted =>
    obtain ⟨-, rfl⟩ := step_spec hstep
    rw [readExhausted, hsp]
    exact iff_of_true (matched_of_idle rfl rfl h.onTime) rfl
  | close =>
    obtain ⟨-, rfl⟩ := step_spec hstep
    exact iff_of_true (matched_of_idle rfl rfl h.onTime) rfl
  | noticed i =>
    cases step_spec hstep
    exact iff_of_true ⟨h.meter_open, h.open_meter, h.onTime⟩ rfl
  | elapse ms =>
    cases step_spec hstep
    have hmetered : ∀ t : Connection, t.meterCancel = s.meterCancel.map
        (fun m => { m with sinceTick := m.sinceTick + ms }) → t.metered = s.metered := by
      intro t ht
      rw [metered, ht, Option.any_map]
      rfl
    refine iff_of_true ⟨fun hm => h.meter_open ?_, fun hopen => ?_, h.onTime⟩ rfl
    · exact (hmetered _ rfl).symm.trans hm
    · exact (h.open_meter hopen).imp_left (hmetered _ rfl).trans

end Step

lemma join_matched {cfg : PeerConfig} (hsp : cfg.listenerPays = false) (engineId : Option String)
    (spent : Nat) : (join cfg engineId spent).Matched := by
  refine ⟨fun hm => ?_, fun hopen => ?_, rfl⟩
  · simp only [metered, join, hsp, Bool.false_and, Bool.false_eq_true, if_false] at hm
    cases hm
  · cases hopen

/-- **The speaker's meter.**  Where the speaker pays, the session and the meter of a peer with a
payer agree in every state a run passes through exactly when every step of the run keeps them
in agreement. -/
theorem matched_iff {cfg : PeerConfig} {engineId : Option String} {spent : Nat}
    {as : List PeerEvent} {s : Connection} (hsp : cfg.listenerPays = false)
    (hpayer : cfg.payer.isSome = true) (h : Run (Step cfg) (join cfg engineId spent) as s) :
    Run (Guarded (Step cfg) fun s a => keepsMatched s a = true) (join cfg engineId spent) as s ↔
      ∀ pre u, pre <+: as → Run (Step cfg) (join cfg engineId spent) pre u → u.Matched := by
  refine Run.guarded_iff_prefixes (I := fun s => s.Matched ∧ s.MetersFit cfg) ?_
    (fun _ hs => hs.1) ?_ h ⟨join_matched hsp engineId spent, join_metersFit engineId spent⟩
  · intro u a v hu hkeeps hstep
    exact ⟨(hu.1.step_iff hsp hpayer hu.2 hstep).mpr hkeeps, hu.2.step hstep⟩
  · intro u a v hu hkeeps hstep hv
    rw [(hu.1.step_iff hsp hpayer hu.2 hstep).mp hv] at hkeeps
    cases hkeeps

/-- A signed-in speaker who pays, ticking once a second. -/
def caller : PeerConfig :=
  ⟨threeEngines, "r", "s", "it", false, none, some 1, some 2, some 3, some 10, 1⟩

/-- A turn that is stopped, and one whose account runs out. -/
def callerTurns : List PeerEvent :=
  [.start .allOpen, .audio fun _ => true, .elapse 1000, .tick .charged, .stop, .noticed 0,
    .start .allOpen, .elapse 1000, .tick .insufficient, .exhausted]

/-- The law on these turns. -/
theorem matched_callerTurns :
    ∃ s, Run (Step caller) (join caller none 0) callerTurns s ∧
      ∀ pre u, pre <+: callerTurns → Run (Step caller) (join caller none 0) pre u → u.Matched := by
  obtain ⟨s, hrun⟩ : ∃ s, Run (Guarded (Step caller) fun s a => keepsMatched s a = true)
      (join caller none 0) callerTurns s := Run.exists_guarded_of_isSome (by decide +kernel)
  exact ⟨s, hrun.ofGuarded, (matched_iff rfl rfl hrun.ofGuarded).mp hrun⟩

/-- A chunk is refused: the meter runs on, and charges, without a session. -/
theorem saturation_unmatched :
    caller.listenerPays = false ∧ caller.payer.isSome = true ∧
    ∃ s, Run (Step caller) (join caller none 0)
        [.start .allOpen, .audio fun _ => false, .elapse 1000, .tick .charged] s ∧
      s.audioTx = none ∧ s.metered = true ∧ ¬ s.Matched := by
  refine ⟨rfl, rfl, ?_⟩
  obtain ⟨s, hrun, hclosed, hmetered⟩ : ∃ s, Run (Step caller) (join caller none 0)
      [.start .allOpen, .audio fun _ => false, .elapse 1000, .tick .charged] s ∧
      s.audioTx = none ∧ s.metered = true := Run.exists_of_decide (by decide +kernel)
  refine ⟨s, hrun, hclosed, hmetered, fun h => ?_⟩
  have hopen := h.meter_open hmetered
  rw [hclosed] at hopen
  cases hopen

end VoxTranslate.Metering.Connection
