import VoxTranslate.Client.Reconnect

/-!
# What a conversation releases

Only `end` releases the microphone, the timer, the socket and the level monitor.  A session that
gives up reconnecting goes into the error phase without it, and two starts that wait at the same
time share the fields the streams are kept in.
-/

namespace VoxTranslate.Client.TalkConversation

open Lib

/-- A session that holds nothing, with no start under way, has released what it acquired. -/
def Released (s : TalkConversation) : Prop :=
  holdsResources s.ctx = false → s.starts = [] →
    (∀ i < s.granted, i ∈ s.stopped) ∧ s.reconnectTimer = false ∧ s.socket = none ∧ s.monitors = 0

instance (s : TalkConversation) : Decidable s.Released :=
  inferInstanceAs (Decidable (_ → _ → _))

/-- The retries are not given up while reconnecting, and no microphone is granted while an earlier
one is held. -/
def keepsHold (s : TalkConversation) : TalkEvent → Bool
  | .micGranted _ _ _ => s.rawStream.isNone
  | .timerFired constructs => constructs || s.ctx.phase ≠ .reconnecting || !s.exhausted
  | .socketClosed i => s.socket ≠ some i || !s.ctx.phase.trying || !s.exhausted
  | _ => true

/-- The invariant: a device that was not stopped is the one held, a monitor that runs can be
stopped, and before and after a session only a start under way holds anything. -/
structure Held (s : TalkConversation) : Prop where
  unreleased : ∀ i < s.granted, i ∈ s.stopped ∨ s.rawStream = some i
  monitored : s.monitors = if s.stopLevelMonitor then 1 else 0
  resting : s.ctx.phase.resting = true → s.socket = none ∧ s.reconnectTimer = false ∧
    s.monitors = 0 ∧ ∀ d, s.rawStream = some d → .denoiser d ∈ s.starts

variable {s t : TalkConversation}

lemma resting_of_holds {ctx : SessionContext} (h : holdsResources ctx = false) :
    ctx.phase.resting = true := by
  revert h
  rw [holdsResources]
  cases ctx.phase <;> simp [Phase.holds, Phase.resting]

lemma Held.released (h : s.Held) : s.Released := by
  intro hholds hstarts
  obtain ⟨hsocket, htimer, hmonitors, hraw⟩ := h.resting (resting_of_holds hholds)
  refine ⟨fun i hi => ?_, htimer, hsocket, hmonitors⟩
  rcases h.unreleased i hi with hstopped | hheld
  · exact hstopped
  · have hmem := hraw i hheld
    rw [hstarts] at hmem
    cases hmem

/-- What the invariant reads of the devices and the monitors. -/
def holdings (s : TalkConversation) : Nat × List Nat × Option Nat × Nat × Bool :=
  (s.granted, s.stopped, s.rawStream, s.monitors, s.stopLevelMonitor)

lemma holdings_eq (h : t.holdings = s.holdings) : t.granted = s.granted ∧ t.stopped = s.stopped ∧
    t.rawStream = s.rawStream ∧ t.monitors = s.monitors ∧
    t.stopLevelMonitor = s.stopLevelMonitor := by
  simpa [holdings] using h

/-- A change outside the devices and the monitors, that brings no session to rest. -/
lemma Held.of_eq (h : s.Held) (hholdings : t.holdings = s.holdings) (hsocket : t.socket = s.socket)
    (htimer : t.reconnectTimer = s.reconnectTimer)
    (hstarts : ∀ d, .denoiser d ∈ s.starts → .denoiser d ∈ t.starts)
    (hresting : t.ctx.phase.resting = true → s.ctx.phase.resting = true) : t.Held := by
  obtain ⟨hgranted, hstopped, hraw, hmonitors, hhandle⟩ := holdings_eq hholdings
  refine ⟨?_, by rw [hmonitors, hhandle]; exact h.monitored, fun hr => ?_⟩
  · rw [hgranted, hstopped, hraw]
    exact h.unreleased
  · obtain ⟨h₁, h₂, h₃, h₄⟩ := h.resting (hresting hr)
    refine ⟨hsocket.trans h₁, htimer.trans h₂, hmonitors.trans h₃, fun d hd => ?_⟩
    exact hstarts d (h₄ d (hraw ▸ hd))

/-- A change outside the devices and the monitors, after which the session is not at rest. -/
lemma Held.of_busy (h : s.Held) (hholdings : t.holdings = s.holdings)
    (hresting : t.ctx.phase.resting = false) : t.Held := by
  obtain ⟨hgranted, hstopped, hraw, hmonitors, hhandle⟩ := holdings_eq hholdings
  refine ⟨?_, by rw [hmonitors, hhandle]; exact h.monitored, fun hr => ?_⟩
  · rw [hgranted, hstopped, hraw]
    exact h.unreleased
  · exact absurd (hresting.symm.trans hr) Bool.false_ne_true

/-! ## The parts of the handlers -/

/-- Releasing the streams stops every device. -/
lemma stopped_releaseStream (h : ∀ i < s.granted, i ∈ s.stopped ∨ s.rawStream = some i) :
    ∀ i < s.granted, i ∈ s.releaseStream.stopped := by
  intro i hi
  rw [releaseStream]
  dsimp only
  rw [List.append_assoc, List.mem_append, List.mem_append]
  rcases h i hi with hstopped | hheld
  · exact .inr (.inr hstopped)
  · exact .inl (by rw [hheld]; exact List.mem_singleton_self i)

lemma Held.releaseStream (h : s.Held) : s.releaseStream.Held := by
  refine ⟨fun i hi => .inl (stopped_releaseStream h.unreleased i hi), h.monitored, fun hr => ?_⟩
  obtain ⟨hsocket, htimer, hmonitors, -⟩ := h.resting hr
  exact ⟨hsocket, htimer, hmonitors, nofun⟩

/-- The end of a conversation releases everything, in any phase. -/
lemma held_end (hunreleased : ∀ i < s.granted, i ∈ s.stopped ∨ s.rawStream = some i)
    (hmonitored : s.monitors = if s.stopLevelMonitor then 1 else 0) : s.end.Held := by
  have hmonitors : (if s.stopLevelMonitor then s.monitors - 1 else s.monitors) = 0 := by
    rw [hmonitored]
    split_ifs <;> rfl
  refine ⟨fun i hi => .inl ?_, hmonitors, fun _ => ⟨rfl, rfl, hmonitors, nofun⟩⟩
  exact stopped_releaseStream hunreleased i hi

lemma Held.scheduleReconnect (h : s.Held) (hresting : s.ctx.phase.resting = false)
    (hleft : s.ctx.phase = .reconnecting → s.exhausted = false) : s.scheduleReconnect.Held := by
  rw [TalkConversation.scheduleReconnect]
  split_ifs with hover hspent
  · exact h
  · have hspent' : s.exhausted = true := decide_eq_true hspent
    have hnot : s.ctx.phase ≠ .reconnecting := fun hp =>
      Bool.false_ne_true ((hleft hp).symm.trans hspent')
    refine h.of_busy rfl ?_
    rw [dispatch, SessionContext.phase_after_reconnectExhausted, if_neg hnot]
    exact hresting
  · exact h.of_busy rfl hresting

lemma Held.connect (h : s.Held) (hresting : s.ctx.phase.resting = false) {constructs : Bool}
    (hleft : constructs = false → s.ctx.phase = .reconnecting → s.exhausted = false) :
    (s.connect constructs).Held := by
  rw [TalkConversation.connect]
  split_ifs with hconstructs
  · exact h.of_busy rfl hresting
  · exact h.scheduleReconnect hresting (hleft (by simpa using hconstructs))

/-- A start that has its stream, and holds a device that only it knows of. -/
structure Ready (s : TalkConversation) : Prop where
  unreleased : ∀ i < s.granted, i ∈ s.stopped ∨ s.rawStream = some i
  monitored : s.monitors = if s.stopLevelMonitor then 1 else 0
  resting : s.ctx.phase.resting = true → s.socket = none ∧ s.reconnectTimer = false ∧ s.monitors = 0
  streaming : s.stream.isSome = true

/-- The end of a start: the stream is released, or the session goes on with it. -/
lemma Ready.proceed (h : s.Ready) {boot : Boot} : (s.proceed boot).Held := by
  rw [TalkConversation.proceed]
  split_ifs with hphase
  · refine ⟨fun i hi => .inl (stopped_releaseStream h.unreleased i hi), h.monitored, fun hr => ?_⟩
    obtain ⟨hsocket, htimer, hmonitors⟩ := h.resting hr
    exact ⟨hsocket, htimer, hmonitors, by simp [releaseStream]⟩
  · have hmic : s.ctx.phase = .requestingMic := not_not.mp hphase
    obtain ⟨-, -, hmonitors⟩ := h.resting (by rw [hmic]; rfl)
    have hafter : (s.ctx.after .micGranted none).phase = .connecting := by
      rw [SessionContext.phase_after_micGranted, if_pos hmic]
    let u := (s.dispatch .micGranted).startLevelWatch boot.analyser
    have hbusy : u.ctx.phase.resting = false := congrArg Phase.resting hafter
    have hu : u.Held := by
      refine ⟨h.unreleased, ?_, fun hr => absurd (hbusy.symm.trans hr) Bool.false_ne_true⟩
      simp only [u, startLevelWatch, dispatch, h.streaming, hmonitors, Bool.true_and, if_true]
    refine hu.connect hbusy fun _ hrec => ?_
    cases (show u.ctx.phase = .connecting from hafter).symm.trans hrec

lemma Held.start (h : s.Held) {sessionId : String} : (s.start sessionId).Held := by
  rw [TalkConversation.start]
  split
  next ctx hctx =>
    have hholds : holdsResources s.ctx = false := (SessionContext.start_accepted hctx).1
    refine h.of_eq rfl rfl rfl (fun d hd => List.mem_append_left _ hd) fun _ => ?_
    exact resting_of_holds hholds
  next => exact h

/-- A start that waits for its denoiser is not the one that is answered. -/
lemma mem_eraseIdx_of_mic {starts : List PendingStart} {pending d : Nat}
    (hpending : starts[pending]? = some .mic) (hd : .denoiser d ∈ starts) :
    .denoiser d ∈ starts.eraseIdx pending := by
  obtain ⟨j, hj⟩ := List.mem_iff_getElem?.mp hd
  rw [List.mem_eraseIdx_iff_getElem?]
  refine ⟨j, ?_, hj⟩
  rintro rfl
  cases hpending.symm.trans hj

lemma Held.micDenied (h : s.Held) {pending : Nat} {kind : FailureKind}
    (hpending : s.starts[pending]? = some .mic) : (s.micDenied pending kind).Held := by
  have hphase := SessionContext.phase_after_micDenied s.ctx kind
  refine h.of_eq rfl rfl rfl (fun d hd => mem_eraseIdx_of_mic hpending hd) ?_
  rw [TalkConversation.micDenied, dispatch, hphase]
  split_ifs with hmic
  · rw [hmic]
    exact fun _ => rfl
  · exact id

lemma Held.micGranted (h : s.Held) {pending : Nat} {noisyEnv : Bool} {boot : Boot}
    (hpending : s.starts[pending]? = some .mic) (hraw : s.rawStream = none) :
    (s.micGranted pending noisyEnv boot).Held := by
  have hstopped : ∀ i < s.granted + 1, i ∈ s.stopped ∨ some s.granted = some i := by
    intro i hi
    rcases Nat.lt_succ_iff_lt_or_eq.mp hi with hlt | rfl
    · rcases h.unreleased i hlt with hstop | hheld
      · exact .inl hstop
      · cases hraw.symm.trans hheld
    · exact .inr rfl
  rw [TalkConversation.micGranted]
  dsimp only
  split_ifs
  · refine ⟨hstopped, h.monitored, fun hr => ?_⟩
    obtain ⟨hsocket, htimer, hmonitors, -⟩ := h.resting hr
    refine ⟨hsocket, htimer, hmonitors, fun d hd => ?_⟩
    cases hd
    have hlt := (List.getElem?_eq_some_iff.mp hpending).1
    exact List.mem_iff_getElem?.mpr ⟨pending, by simp [hlt]⟩
  · apply Ready.proceed
    refine ⟨hstopped, h.monitored, fun hr => ?_, rfl⟩
    obtain ⟨hsocket, htimer, hmonitors, -⟩ := h.resting hr
    exact ⟨hsocket, htimer, hmonitors⟩

lemma Held.denoiserReady (h : s.Held) {pending device : Nat} {active : Bool} {boot : Boot} :
    (s.denoiserReady pending device active boot).Held := by
  rw [TalkConversation.denoiserReady]
  apply Ready.proceed
  refine ⟨h.unreleased, h.monitored, fun hr => ?_, rfl⟩
  obtain ⟨hsocket, htimer, hmonitors, -⟩ := h.resting hr
  exact ⟨hsocket, htimer, hmonitors⟩

lemma Held.onopen (h : s.Held) (i : Nat) : (s.onopen i).Held := by
  rw [TalkConversation.onopen]
  dsimp only
  split_ifs with hrec
  · refine h.of_busy rfl ?_
    have hphase : (s.ctx.after .reconnectSucceeded none).phase = .live := by
      rw [SessionContext.phase_after_reconnectSucceeded, if_pos hrec]
    exact congrArg Phase.resting hphase
  · refine h.of_eq rfl rfl rfl (fun _ => id) fun hr => ?_
    have hphase := SessionContext.phase_after_socketOpen s.ctx
    have hresting := (congrArg Phase.resting hphase).symm.trans hr
    split_ifs at hresting with hconn
    · cases hresting
    · exact hresting

lemma Held.onclose (h : s.Held) {i : Nat}
    (hleft : s.socket = some i → s.ctx.phase.trying = true → s.exhausted = false) :
    (s.onclose i).Held := by
  rw [TalkConversation.onclose]
  split_ifs with hother
  · exact h
  · have hheld : s.socket = some i := not_not.mp hother
    have hbusy : s.ctx.phase.resting = false := by
      by_contra hr
      have hnone := (h.resting (by simpa using hr)).1
      cases hnone.symm.trans hheld
    have hphase := SessionContext.phase_after_drop s.ctx
    have hafter : (s.ctx.after (.socketClosed true) none).phase.resting = false := by
      rw [hphase]
      split_ifs
      · rfl
      · exact hbusy
    apply Held.scheduleReconnect
    · exact h.of_busy rfl hafter
    · exact hafter
    · intro hrec
      refine hleft hheld ?_
      have hrec' := hphase.symm.trans hrec
      split_ifs at hrec' with hconn
      · rcases hconn with hconn | hconn <;> rw [hconn] <;> rfl
      · rw [hrec']
        rfl

lemma Held.dispatch_activity (h : s.Held) {event : SessionEvent} (hevent : event.isActivity = true)
    (g : SelfAudioGuard) : ((s.setGuard g).dispatch event).Held := by
  refine h.of_eq rfl rfl rfl (fun _ => id) fun hr => ?_
  exact (congrArg Phase.resting (SessionContext.phase_after_activity hevent)).symm.trans hr

lemma Held.handleFrame (h : s.Held) {now : Nat} {frame : ServerFrame} :
    (s.handleFrame now frame).Held := by
  cases frame with
  | talkDirection => exact h.dispatch_activity rfl _
  | subtitleInterim => exact h.dispatch_activity rfl _
  | subtitleFinal => exact h.dispatch_activity rfl _
  | balanceExhausted => exact held_end h.unreleased h.monitored
  | error code =>
    rw [TalkConversation.handleFrame]
    split_ifs
    · exact held_end h.unreleased h.monitored
    · exact held_end h.unreleased h.monitored
    · exact h
  | other => exact h

lemma Held.pause (h : s.Held) : s.pause.Held := by
  rw [TalkConversation.pause]
  split_ifs with haccepted
  · have hphase := SessionContext.phase_after_pause s.ctx
    refine h.of_eq rfl rfl rfl (fun _ => id) fun hr => ?_
    have hresting := (congrArg Phase.resting hphase).symm.trans hr
    split_ifs at hresting
    · cases hresting
    · exact hresting
  · exact h

lemma Held.resume (h : s.Held) : s.resume.Held := by
  rw [TalkConversation.resume]
  split_ifs with haccepted
  · have hphase := SessionContext.phase_after_resume (SessionContext.resume_accepted.mp haccepted)
    exact h.of_busy rfl (congrArg Phase.resting hphase)
  · exact h

lemma Held.timerFired (h : s.Held) (htimer : s.reconnectTimer = true) {constructs : Bool}
    (hleft : constructs = false → s.ctx.phase = .reconnecting → s.exhausted = false) :
    (s.clearReconnect.connect constructs).Held := by
  have hbusy : s.ctx.phase.resting = false := by
    by_contra hr
    have hoff := (h.resting (by simpa using hr)).2.1
    exact absurd (hoff.symm.trans htimer) Bool.false_ne_true
  have hcleared : s.clearReconnect.Held := h.of_busy rfl hbusy
  exact hcleared.connect hbusy hleft

/-- **One event** of a conversation that keeps hold of what it acquired. -/
lemma Held.step (h : s.Held) {e : TalkEvent} (hguard : s.keepsHold e = true)
    (hstep : s.step e = some t) : t.Held := by
  cases moves_of_step hstep with
  | start sessionId => exact h.start
  | micGranted pending noisyEnv boot hpending =>
    exact h.micGranted hpending (Option.isNone_iff_eq_none.mp hguard)
  | micDenied pending kind hpending => exact h.micDenied hpending
  | denoiserReady pending device active boot => exact h.denoiserReady
  | pause => exact h.pause
  | resume => exact h.resume
  | setMuted muted => exact h.of_eq rfl rfl rfl (fun _ => id) id
  | «end» => exact held_end h.unreleased h.monitored
  | socketOpened i handled hk =>
    have hopen : Held (s.setReady i ⟨.connecting, handled⟩ .open) :=
      h.of_eq rfl rfl rfl (fun _ => id) id
    split_ifs
    · exact hopen.onopen i
    · exact hopen
  | socketClosed i sock =>
    have hclosed : Held (s.setReady i sock .closed) := h.of_eq rfl rfl rfl (fun _ => id) id
    split_ifs
    · refine hclosed.onclose fun hheld htrying => ?_
      have hheld' : s.socket = some i := hheld
      have htrying' : s.ctx.phase.trying = true := htrying
      have hleft : s.exhausted = false := by
        simpa [keepsHold, hheld', htrying'] using hguard
      exact hleft
    · exact hclosed
  | timerFired constructs htimer =>
    refine h.timerFired htimer fun hfails hrec => ?_
    simpa [keepsHold, hfails, hrec] using hguard
  | workletReady loaded => exact h.of_eq rfl rfl rfl (fun _ => id) id
  | frame i frame now => exact h.handleFrame
  | playback playing now =>
    refine h.dispatch_activity ?_ _
    cases playing <;> rfl
  | level loud now => exact h.of_eq rfl rfl rfl (fun _ => id) id

lemma held_new (needsPcm : Bool) (mode : GuardMode) : (new needsPcm mode).Held :=
  ⟨nofun, rfl, fun _ => ⟨rfl, rfl, rfl, nofun⟩⟩

/-- **A session that holds nothing has released what it acquired**, in any state of a run in which
the retries are not given up while reconnecting, and no microphone is granted while an earlier one
is held. -/
theorem released_of_run (needsPcm : Bool) (mode : GuardMode) {events : List TalkEvent}
    (h : Run (Guarded (ofPartial step) fun s e => s.keepsHold e = true) (new needsPcm mode)
      events s) : s.Released := by
  have hheld : s.Held := h.invariant Held
    (fun _ _ _ _ hs hstep => hs.step hstep.1 hstep.2) (held_new needsPcm mode)
  exact hheld.released

/-- A session that gives up reconnecting keeps the microphone, and so does a start that was ended
while it waited, once a second start has its own. -/
theorem given_up_holds :
    (∃ s, Run (ofPartial step) (new true .gate)
      (goLive ++ [.socketClosed 0] ++ List.replicate 6 (.timerFired false)) s ∧
      s.ctx.phase = .error ∧ 0 ∉ s.stopped ∧ ¬ s.Released) ∧
    ∃ s, Run (ofPartial step) (new true .gate)
      [.start "s", .end, .start "t", .micGranted 0 false ⟨true, true⟩,
        .micGranted 0 false ⟨true, true⟩, .end] s ∧
      s.ctx.phase = .ended ∧ 0 ∉ s.stopped ∧ ¬ s.Released :=
  ⟨Run.exists_of_decide (by decide), Run.exists_of_decide (by decide)⟩

/-- A start that is ended while it waits, a second one, a drop, and the end. -/
theorem released_sample : ∃ s,
    Run (Guarded (ofPartial step) fun s e => s.keepsHold e = true) (new true .gate)
      [.start "s", .end, .micGranted 0 false ⟨true, true⟩, .start "t",
        .micGranted 0 true ⟨true, true⟩, .denoiserReady 0 true ⟨true, true⟩, .socketOpened 0,
        .socketClosed 0, .timerFired false, .end] s ∧
    s.granted = 2 ∧ holdsResources s.ctx = false ∧ s.Released := by
  obtain ⟨s, hrun, hgranted, hholds⟩ : ∃ s,
      Run (Guarded (ofPartial step) fun s e => s.keepsHold e = true) (new true .gate)
        [.start "s", .end, .micGranted 0 false ⟨true, true⟩, .start "t",
          .micGranted 0 true ⟨true, true⟩, .denoiserReady 0 true ⟨true, true⟩, .socketOpened 0,
          .socketClosed 0, .timerFired false, .end] s ∧
      s.granted = 2 ∧ holdsResources s.ctx = false := Run.exists_guarded_of_decide (by decide)
  exact ⟨s, hrun, hgranted, hholds, released_of_run true .gate hrun⟩

end VoxTranslate.Client.TalkConversation
