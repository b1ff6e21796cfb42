import VoxTranslate.Engine.Turn
import VoxTranslate.Lib.Run
import VoxTranslate.Metering.Meter

/-!
# The metering of a connection

What the handler of a peer's socket keeps of its speaking session and of its meter.  In either
billing model the two are separate variables, written by different branches of one loop; the
meter is a task of its own, and only the handle that cancels it belongs to the loop.  When the
handle is dropped the meter is cancelled, but it has yet to notice.

The loop and the meters take their steps in any order, and time passes between them.
-/

namespace VoxTranslate.Metering

open Engine Rooms

/-- What is known of a connection once it has joined. -/
structure PeerConfig where
  registry : EngineRegistry
  room : String
  id : String
  lang : String
  listenerPays : Bool
  /-- The organization that sponsors the room. -/
  sponsorOrg : Option Uuid
  /-- The signed-in user. -/
  billedUser : Option Uuid
  usageSession : Option Uuid
  /-- The row of the call, when it is known to exist. -/
  callSession : Option Uuid
  guestMaxMinutes : Option Nat
  usageUpdateInterval : Nat

namespace PeerConfig

variable (cfg : PeerConfig)

/-- Who pays for translation. -/
def payer : Option Payer :=
  match cfg.sponsorOrg with
  | some orgId => some (.org orgId cfg.callSession)
  | none =>
    match cfg.billedUser, cfg.usageSession with
    | some userId, some sessionId => some (.user userId sessionId)
    | _, _ => none

/-- The speaking cap of a guest nobody pays for, in seconds. -/
def guestCap : Option Nat :=
  guestCapSecs cfg.guestMaxMinutes cfg.billedUser.isNone cfg.sponsorOrg.isSome

/-- Seconds between two ticks of a meter. -/
def interval : Nat := max cfg.usageUpdateInterval 1

def intervalMs : Nat := 1000 * cfg.interval

/-- Nobody pays for a guest with a cap. -/
lemma payer_of_guestCap {cfg : PeerConfig} {cap : Nat} (h : cfg.guestCap = some cap) :
    cfg.payer = none := by
  rw [guestCap, guestCapSecs] at h
  split_ifs at h with hlift
  have hguest : cfg.billedUser = none := by
    cases hb : cfg.billedUser with
    | none => rfl
    | some userId => simp [hb] at hlift
  have hunsponsored : cfg.sponsorOrg = none := by
    cases ho : cfg.sponsorOrg with
    | none => rfl
    | some orgId => simp [ho] at hlift
  rw [payer, hunsponsored, hguest]

end PeerConfig

/-- The variables of the handler, and the meters it has spawned. -/
structure Connection where
  activeEngine : EngineMetadata
  /-- The speaking session, when the speaker pays. -/
  audioTx : Option EngineSession
  /-- The feeds of the speaking session, when the listeners pay. -/
  audioFeeds : List EngineSession
  /-- The meter that the handle `meter_cancel` cancels. -/
  meterCancel : Option Meter
  /-- The meters that were cancelled and have not noticed yet. -/
  cancelled : List Meter
  /-- Signals of exhaustion that were not read yet. -/
  exhaust : Nat
  /-- How often the peer was told that its balance or its cap is exhausted. -/
  balanceExhausted : Nat
  /-- Charges by meters that had been cancelled. -/
  lateCharges : Nat
  /-- The seconds the guest's address has used. -/
  spent : Nat
  /-- The loop has ended. -/
  closed : Bool
  deriving DecidableEq, Repr

/-- What a `Start` meets: the rooms, and what the engines answer. -/
structure StartEnv where
  rooms : RoomManager
  outcome : String → Bool → SessionOutcome
  /-- The answer of the default engine, after the active one was at capacity. -/
  retry : SessionOutcome

/-- Every engine opens for the speaker of `twoListeners`. -/
def StartEnv.allOpen : StartEnv := ⟨twoListeners, roomy, .started⟩

/-- A step of the handler or of one of its meters. -/
inductive PeerEvent where
  | start (env : StartEnv)
  | stop
  /-- A chunk of audio; `accepts` says which channels take it. -/
  | audio (accepts : EngineSession → Bool)
  /-- `EnhancedFallback`, with the engine the room knows of the peer. -/
  | enhancedFallback (peerEngine : Option String)
  /-- Any other frame. -/
  | other
  /-- The loop reads a signal of exhaustion. -/
  | exhausted
  /-- The loop ends, and the handler tears down. -/
  | close
  /-- The timer of the meter fires. -/
  | tick (outcome : TickOutcome)
  /-- The timer of a cancelled meter fires, and wins against the cancellation. -/
  | lateTick (i : Nat) (outcome : TickOutcome)
  /-- A cancelled meter notices, and returns. -/
  | noticed (i : Nat)
  /-- Milliseconds pass. -/
  | elapse (ms : Nat)

namespace Connection

/-- The audio of the peer is forwarded. -/
def speaking (s : Connection) : Bool := s.audioTx.isSome || !s.audioFeeds.isEmpty

/-- The meter that can be cancelled is running. -/
def metered (s : Connection) : Bool := s.meterCancel.any Meter.isRunning

/-- Drop the handle of the meter, which cancels it. -/
def dropHandle (s : Connection) : Connection :=
  { s with
    meterCancel := none
    cancelled := (s.meterCancel.filter Meter.isRunning).toList ++ s.cancelled }

/-- Replace the handle of the meter. -/
def setHandle (s : Connection) (m : Option Meter) : Connection :=
  { s.dropHandle with meterCancel := m }

/-- `spawn_meter`, where billing is configured. -/
def spawnMeter (payer : Option Payer) (guestCap : Option Nat) (engine : EngineMetadata) : Option Meter :=
  match payer with
  | some _ => some (.spawn (.usage (.speaker engine.capabilities.costScalesPerLanguage) engine.id))
  | none => guestCap.map fun _ => .spawn .guest

/-- `spawn_listener_meter`, for a peer with a payer. -/
def spawnListenerMeter (engine : EngineMetadata) : Meter := .spawn (.usage .listener engine.id)

section Steps

variable (cfg : PeerConfig)

/-- The connection when its loop starts; `spent` is what its address has used before. -/
def join (engineId : Option String) (spent : Nat) : Connection :=
  let engine := cfg.registry.resolve engineId
  let engine := if cfg.billedUser.isNone then cfg.registry.defaultEngine else engine
  let engine :=
    if !cfg.listenerPays && engine.capabilities.clientDirect then cfg.registry.defaultEngine
    else engine
  { activeEngine := engine
    audioTx := none
    audioFeeds := []
    meterCancel :=
      if cfg.listenerPays && cfg.payer.isSome then some (spawnListenerMeter engine) else none
    cancelled := []
    exhaust := 0
    balanceExhausted := 0
    lateCharges := 0
    spent
    closed := false }

/-- `Start`, when the listeners pay: the engines they demand are opened on the one stream, and
a guest nobody pays for gets its cap. -/
def startFeeds (s : Connection) (env : StartEnv) : Connection :=
  if s.audioFeeds = [] then
    let liveLang := (env.rooms.peerLang cfg.room cfg.id).getD cfg.lang
    let feeds := (startTurn cfg.registry env.rooms cfg.room cfg.id liveLang env.outcome).feeds
    let s' := { s with audioFeeds := feeds }
    -- the handle of an earlier burst counts, also when its meter has returned
    if feeds ≠ [] ∧ cfg.payer = none ∧ s.meterCancel = none then
      s'.setHandle (spawnMeter none cfg.guestCap s.activeEngine)
    else s'
  else s

/-- A speaking session was opened, when the speaker pays. -/
def opened (s : Connection) (engine : EngineMetadata) : Connection :=
  { s with audioTx := some ⟨engine.id, false⟩ }.setHandle (spawnMeter cfg.payer cfg.guestCap engine)

/-- `Start`, when the speaker pays: the active engine, or the default one when that is at
capacity. -/
def startSession (s : Connection) (env : StartEnv) : Connection :=
  if s.audioTx.isSome then s
  else
    match env.outcome s.activeEngine.id false with
    | .started => s.opened cfg s.activeEngine
    | .failed => s
    | .atCapacity =>
      let s' := { s with activeEngine := cfg.registry.defaultEngine }
      match env.retry with
      | .started => s'.opened cfg cfg.registry.defaultEngine
      | .atCapacity | .failed => s'

/-- `Stop`. -/
def stopped (s : Connection) : Connection :=
  if cfg.listenerPays then
    let s' := { s with audioFeeds := [] }
    -- the listener meter of a payer runs on: it counts what the others say
    if cfg.billedUser.isNone then s'.dropHandle else s'
  else { s with audioTx := none }.dropHandle

/-- A chunk of audio: a channel that refuses it is dropped. -/
def chunk (s : Connection) (accepts : EngineSession → Bool) : Connection :=
  if cfg.listenerPays then { s with audioFeeds := s.audioFeeds.filter accepts }
  else { s with audioTx := s.audioTx.filter accepts }

/-- `EnhancedFallback`. -/
def fallback (s : Connection) (peerEngine : Option String) : Connection :=
  let onClientDirect := (peerEngine.bind cfg.registry.get).any fun e => e.capabilities.clientDirect
  if onClientDirect && cfg.listenerPays && cfg.payer.isSome then
    s.setHandle (some (spawnListenerMeter cfg.registry.defaultEngine))
  else s

/-- A signal of exhaustion was read. -/
def readExhausted (s : Connection) : Connection :=
  let s' := { s with exhaust := s.exhaust - 1 }.dropHandle
  -- the feeds stay open: the listeners pay for them
  if cfg.listenerPays then s'
  else
    { s' with
      audioTx := none
      activeEngine :=
        if cfg.registry.defaultEngine.id ≠ s.activeEngine.id then cfg.registry.defaultEngine
        else s.activeEngine }

/-- The teardown. -/
def tornDown (s : Connection) : Connection :=
  { s.dropHandle with audioTx := none, audioFeeds := [], closed := true }

/-- What a tick does outside the meter. -/
def afterTick (s : Connection) (late : Bool) (e : TickEffect) : Connection :=
  { s with
    spent := e.spent
    exhaust := s.exhaust + (if e.state = .exhausted then 1 else 0)
    balanceExhausted := s.balanceExhausted + (if e.state = .exhausted then 1 else 0)
    lateCharges := s.lateCharges + (if late && e.charged then 1 else 0) }

/-- A tick of a meter. -/
def tickEffect (s : Connection) (m : Meter) (outcome : TickOutcome) : TickEffect :=
  m.kind.tick cfg.interval (cfg.guestCap.getD 0) s.spent outcome

/-- The step function; `none` where the step cannot be taken. -/
def step (s : Connection) : PeerEvent → Option Connection
  | .start env =>
    if s.closed then none
    else some (if cfg.listenerPays then s.startFeeds cfg env else s.startSession cfg env)
  | .stop => if s.closed then none else some (s.stopped cfg)
  | .audio accepts => if s.closed then none else some (s.chunk cfg accepts)
  | .enhancedFallback peerEngine => if s.closed then none else some (s.fallback cfg peerEngine)
  | .other => if s.closed then none else some s
  | .exhausted => if s.closed || s.exhaust = 0 then none else some (s.readExhausted cfg)
  | .close => if s.closed then none else some s.tornDown
  | .tick outcome =>
    match s.meterCancel with
    | none => none
    | some m =>
      if m.isRunning && cfg.intervalMs ≤ m.sinceTick then
        let e := s.tickEffect cfg m outcome
        some { s.afterTick false e with
          meterCancel := some { m with state := e.state, sinceTick := m.sinceTick - cfg.intervalMs } }
      else none
  | .lateTick i outcome =>
    match s.cancelled[i]? with
    | none => none
    | some m =>
      if cfg.intervalMs ≤ m.sinceTick then
        let e := s.tickEffect cfg m outcome
        some { s.afterTick true e with
          cancelled :=
            if e.state = .running then
              s.cancelled.set i { m with sinceTick := m.sinceTick - cfg.intervalMs }
            else s.cancelled.eraseIdx i }
      else none
  | .noticed i =>
    if i < s.cancelled.length then some { s with cancelled := s.cancelled.eraseIdx i } else none
  | .elapse ms =>
    let wait := fun m : Meter => { m with sinceTick := m.sinceTick + ms }
    some { s with meterCancel := s.meterCancel.map wait, cancelled := s.cancelled.map wait }

/-- The transition relation. -/
abbrev Step : Connection → PeerEvent → Connection → Prop := Lib.ofPartial (step cfg)

end Steps

/-- **What a step is.**  The handler takes its steps until the loop has ended; the meters and
the clock take theirs at any time. -/
lemma step_spec {cfg : PeerConfig} {s s' : Connection} {e : PeerEvent} (h : s.step cfg e = some s') :
    match e with
    | .start env => s.closed = false ∧
        s' = if cfg.listenerPays then s.startFeeds cfg env else s.startSession cfg env
    | .stop => s.closed = false ∧ s' = s.stopped cfg
    | .audio accepts => s.closed = false ∧ s' = s.chunk cfg accepts
    | .enhancedFallback peerEngine => s.closed = false ∧ s' = s.fallback cfg peerEngine
    | .other => s.closed = false ∧ s' = s
    | .exhausted => 0 < s.exhaust ∧ s' = s.readExhausted cfg
    | .close => s.closed = false ∧ s' = s.tornDown
    | .tick outcome => ∃ m, s.meterCancel = some m ∧ m.isRunning = true ∧
        cfg.intervalMs ≤ m.sinceTick ∧
        s' = { s.afterTick false (s.tickEffect cfg m outcome) with
          meterCancel := some { m with
            state := (s.tickEffect cfg m outcome).state
            sinceTick := m.sinceTick - cfg.intervalMs } }
    | .lateTick _ outcome => ∃ m ∈ s.cancelled, ∃ cancelled,
        (∀ m' ∈ cancelled, ∃ m ∈ s.cancelled, m'.kind = m.kind) ∧
        s' = { s.afterTick true (s.tickEffect cfg m outcome) with cancelled := cancelled }
    | .noticed i => s' = { s with cancelled := s.cancelled.eraseIdx i }
    | .elapse ms =>
        s' = { s with
          meterCancel := s.meterCancel.map fun m => { m with sinceTick := m.sinceTick + ms }
          cancelled := s.cancelled.map fun m => { m with sinceTick := m.sinceTick + ms } } := by
  cases e with
  | tick outcome =>
    rw [step] at h
    split at h
    · cases h
    · next m hm =>
      simp only [Option.ite_none_right_eq_some, Bool.and_eq_true, decide_eq_true_eq,
        Option.some.injEq] at h
      exact ⟨m, hm, h.1.1, h.1.2, h.2.symm⟩
  | lateTick i outcome =>
    rw [step] at h
    split at h
    · cases h
    · next m hm =>
      have hmem : m ∈ s.cancelled := List.mem_of_getElem? hm
      simp only [Option.ite_none_right_eq_some, Option.some.injEq] at h
      refine ⟨m, hmem, _, ?_, h.2.symm⟩
      intro m' hm'
      split_ifs at hm'
      · rcases List.mem_or_eq_of_mem_set hm' with hm' | rfl
        · exact ⟨m', hm', rfl⟩
        · exact ⟨m, hmem, rfl⟩
      · exact ⟨m', (List.eraseIdx_sublist _ _).subset hm', rfl⟩
  | exhausted =>
    simp only [step, Option.ite_none_left_eq_some, Bool.or_eq_true, decide_eq_true_eq, not_or,
      Option.some.injEq] at h
    exact ⟨Nat.pos_of_ne_zero h.1.2, h.2.symm⟩
  | noticed i =>
    simp only [step, Option.ite_none_right_eq_some, Option.some.injEq] at h
    exact h.2.symm
  | elapse ms => exact (Option.some.inj h).symm
  | start | stop | audio | enhancedFallback | other | close =>
    simp only [step, Option.ite_none_left_eq_some, Bool.not_eq_true, Option.some.injEq] at h
    exact ⟨h.1, h.2.symm⟩

/-! ## The meters of a connection -/

/-- The meters the connection has spawned and that have not returned unnoticed. -/
def meters (s : Connection) : List Meter := s.meterCancel.toList ++ s.cancelled

/-- Guest meters run exactly where nobody pays. -/
def MetersFit (cfg : PeerConfig) (s : Connection) : Prop :=
  ∀ m ∈ s.meters, m.kind = .guest ↔ cfg.payer = none

section Meters

variable {cfg : PeerConfig} {s s' : Connection}

/-- Meters with the kinds of others fit as these do. -/
lemma MetersFit.of_kinds (h : s.MetersFit cfg)
    (hkinds : ∀ m ∈ s'.meters, ∃ m' ∈ s.meters, m.kind = m'.kind) : s'.MetersFit cfg := by
  intro m hm
  obtain ⟨m', hm', hkind⟩ := hkinds m hm
  rw [hkind]
  exact h m' hm'

lemma meters_dropHandle : ∀ m ∈ s.dropHandle.meters, m ∈ s.meters := by
  intro m hm
  simp only [meters, dropHandle, Option.toList_none, List.nil_append, List.mem_append,
    Option.mem_toList, Option.filter_eq_some_iff] at hm ⊢
  exact hm.imp_left And.left

lemma MetersFit.dropHandle (h : s.MetersFit cfg) : s.dropHandle.MetersFit cfg := by
  intro m hm
  exact h m (meters_dropHandle m hm)

lemma MetersFit.setHandle (h : s.MetersFit cfg) {m : Option Meter}
    (hm : ∀ m' ∈ m, m'.kind = .guest ↔ cfg.payer = none) : (s.setHandle m).MetersFit cfg := by
  intro m' hm'
  simp only [meters, Connection.setHandle, List.mem_append, Option.mem_toList] at hm'
  rcases hm' with hm' | hm'
  · exact hm m' hm'
  · exact h m' (meters_dropHandle m' (List.mem_append_right _ hm'))

/-- What `spawn_meter` spawns. -/
lemma spawnMeter_fits {payer : Option Payer} {guestCap : Option Nat} {engine : EngineMetadata} :
    ∀ m ∈ spawnMeter payer guestCap engine, m.kind = .guest ↔ payer = none := by
  intro m hm
  cases payer with
  | some payer =>
    cases hm
    simp [Meter.spawn]
  | none =>
    obtain ⟨cap, -, rfl⟩ := Option.map_eq_some_iff.mp hm
    simp [Meter.spawn]

/-- The listener meter of a peer with a payer. -/
lemma spawnListenerMeter_fits (hpayer : cfg.payer.isSome = true) (engine : EngineMetadata) :
    ∀ m ∈ some (spawnListenerMeter engine), m.kind = .guest ↔ cfg.payer = none := by
  rintro m ⟨⟩
  rw [Option.isSome_iff_ne_none] at hpayer
  simp [spawnListenerMeter, Meter.spawn, hpayer]

lemma join_metersFit (engineId : Option String) (spent : Nat) :
    (join cfg engineId spent).MetersFit cfg := by
  intro m hm
  simp only [meters, join, List.append_nil, Option.mem_toList] at hm
  split_ifs at hm with hlp <;>
  · rw [Bool.and_eq_true] at hlp
    exact spawnListenerMeter_fits hlp.2 _ m hm

lemma startSession_metersFit (h : s.MetersFit cfg) (env : StartEnv) :
    (s.startSession cfg env).MetersFit cfg := by
  rw [startSession]
  split_ifs
  · exact h
  · have hopened : ∀ t : Connection, t.MetersFit cfg → ∀ engine, (t.opened cfg engine).MetersFit cfg :=
      fun t ht engine => MetersFit.setHandle (s := { t with audioTx := some ⟨engine.id, false⟩ }) ht
        spawnMeter_fits
    cases env.outcome s.activeEngine.id false with
    | started => exact hopened s h _
    | failed => exact h
    | atCapacity =>
      cases env.retry with
      | started => exact hopened { s with activeEngine := cfg.registry.defaultEngine } h _
      | atCapacity => exact h
      | failed => exact h

lemma startFeeds_metersFit (h : s.MetersFit cfg) (env : StartEnv) :
    (s.startFeeds cfg env).MetersFit cfg := by
  rw [startFeeds]
  split_ifs with hidle
  · dsimp only
    split_ifs with hguest
    · refine MetersFit.setHandle (s := { s with audioFeeds := _ }) h fun m hm => ?_
      exact (spawnMeter_fits m hm).trans (iff_of_true rfl hguest.2.1)
    · exact h
  · exact h

/-- **Every step keeps the kinds of the meters.** -/
lemma MetersFit.step (h : s.MetersFit cfg) {a : PeerEvent} (hstep : s.step cfg a = some s') :
    s'.MetersFit cfg := by
  cases a with
  | start env =>
    obtain ⟨-, rfl⟩ := step_spec hstep
    split_ifs
    · exact startFeeds_metersFit h env
    · exact startSession_metersFit h env
  | stop =>
    obtain ⟨-, rfl⟩ := step_spec hstep
    rw [stopped]
    split_ifs
    · exact MetersFit.dropHandle (s := { s with audioFeeds := [] }) h
    · exact h
    · exact MetersFit.dropHandle (s := { s with audioTx := none }) h
  | audio accepts =>
    obtain ⟨-, rfl⟩ := step_spec hstep
    rw [chunk]
    split_ifs <;> exact h
  | enhancedFallback peerEngine =>
    obtain ⟨-, rfl⟩ := step_spec hstep
    simp only [fallback]
    split_ifs with hpaid
    · rw [Bool.and_eq_true] at hpaid
      exact h.setHandle (spawnListenerMeter_fits hpaid.2 _)
    · exact h
  | other =>
    obtain ⟨-, rfl⟩ := step_spec hstep
    exact h
  | exhausted =>
    obtain ⟨-, rfl⟩ := step_spec hstep
    rw [readExhausted]
    split_ifs <;> exact MetersFit.dropHandle (s := { s with exhaust := s.exhaust - 1 }) h
  | close =>
    obtain ⟨-, rfl⟩ := step_spec hstep
    exact h.dropHandle
  | tick outcome =>
    obtain ⟨m, hm, -, -, rfl⟩ := step_spec hstep
    refine h.of_kinds fun m' hm' => ?_
    simp only [meters, Option.toList_some, List.singleton_append, List.mem_cons] at hm'
    rcases hm' with rfl | hm'
    · exact ⟨m, by simp [meters, hm], rfl⟩
    · exact ⟨m', List.mem_append_right _ hm', rfl⟩
  | lateTick i outcome =>
    obtain ⟨m, hm, cancelled, hkinds, rfl⟩ := step_spec hstep
    refine h.of_kinds fun m' hm' => ?_
    rcases List.mem_append.mp hm' with hm' | hm'
    · exact ⟨m', List.mem_append_left _ hm', rfl⟩
    · obtain ⟨m'', hm'', hkind⟩ := hkinds m' hm'
      exact ⟨m'', List.mem_append_right _ hm'', hkind⟩
  | noticed i =>
    cases step_spec hstep
    refine h.of_kinds fun m hm => ⟨m, ?_, rfl⟩
    simp only [meters, List.mem_append] at hm ⊢
    exact hm.imp_right fun hm => (List.eraseIdx_sublist _ _).subset hm
  | elapse ms =>
    cases step_spec hstep
    refine h.of_kinds fun m hm => ?_
    simp only [meters, List.mem_append, Option.mem_toList, Option.map_eq_some_iff, List.mem_map] at hm
    rcases hm with ⟨m', hm', rfl⟩ | ⟨m', hm', rfl⟩
    · exact ⟨m', List.mem_append_left _ (Option.mem_toList.mpr hm'), rfl⟩
    · exact ⟨m', List.mem_append_right _ hm', rfl⟩

end Meters

end Connection

end VoxTranslate.Metering
