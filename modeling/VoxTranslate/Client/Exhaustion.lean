import VoxTranslate.Client.Reconnect

/-!
# Running out of credits

The server says it in two ways.  An exhausted balance takes the session to `stopping` with its
failure, and the teardown that follows ends it in `error`; an error frame takes it to `error` at
once, and the same teardown then finds a session that holds nothing, and ends it.
-/

namespace VoxTranslate.Client

open Lib

/-- Between the microphone and the end. -/
def Phase.engaged : Phase → Bool
  | .connecting | .live | .reconnecting | .paused => true
  | _ => false

/-- The frame says that the credits do not suffice. -/
def ServerFrame.reportsNoCredits : ServerFrame → Bool
  | .balanceExhausted => true
  | .error code => code = "insufficient_balance"
  | _ => false

/-- The user did it. -/
def TalkEvent.byUser : TalkEvent → Bool
  | .start _ | .pause | .resume | .setMuted _ | .end => true
  | _ => false

namespace SessionContext

variable {ctx : SessionContext} {event : SessionEvent}

/-- A session in `error` takes a start, a stop or a fatal error, and nothing else. -/
lemma after_of_error (h : ctx.phase = .error) (hstop : event ≠ .stopRequested)
    (hstart : event ≠ .startRequested) (hfatal : ∀ kind, event ≠ .fatal kind) :
    ctx.after event none = ctx := by
  obtain ⟨phase, activity, sessionId, failure⟩ := ctx
  cases h
  cases event with
  | fatal kind => exact absurd rfl (hfatal kind)
  | stopRequested => exact absurd rfl hstop
  | startRequested => exact absurd rfl hstart
  | _ => rfl

/-- The teardown of a session that ran out of credits. -/
lemma end_of_exhausted (h : ctx.phase.engaged = true) :
    (((ctx.after .creditsExhausted none).after .stopRequested none).after .teardownComplete none) =
      ⟨.error, .listening, none, some .credits⟩ := by
  obtain ⟨phase, activity, sessionId, failure⟩ := ctx
  cases phase <;> first | rfl | cases h

/-- The teardown after a fatal error finds nothing to stop. -/
lemma end_of_fatal (ctx : SessionContext) (kind : FailureKind) :
    (((ctx.after (.fatal kind) none).after .stopRequested none).after .teardownComplete none) =
      ⟨.ended, .listening, none, some kind⟩ := rfl

end SessionContext

namespace TalkConversation

/-- The session is in `error`, and says why. -/
def OutOfCredits (s : TalkConversation) : Prop :=
  s.ctx.phase = .error ∧ s.ctx.failure = some .credits

instance (s : TalkConversation) : Decidable s.OutOfCredits := inferInstanceAs (Decidable (_ ∧ _))

/-- The invariant of every run: only an engaged session holds a socket or a timer. -/
structure Placed (s : TalkConversation) : Prop extends Wired s where
  unengaged : s.ctx.phase.engaged = false → s.socket = none ∧ s.reconnectTimer = false

variable {s t : TalkConversation} {i : Nat} {k : TalkSocket}

lemma Placed.engaged_of_socket (h : s.Placed) (hsocket : s.socket = some i) :
    s.ctx.phase.engaged = true := by
  by_contra hphase
  have hnone := (h.unengaged (by simpa using hphase)).1
  cases hnone.symm.trans hsocket

lemma Placed.engaged_of_timer (h : s.Placed) (htimer : s.reconnectTimer = true) :
    s.ctx.phase.engaged = true := by
  by_contra hphase
  have hoff := (h.unengaged (by simpa using hphase)).2
  exact absurd (hoff.symm.trans htimer) Bool.false_ne_true

/-- A change that touches neither sockets nor timer, and disengages no session. -/
lemma Placed.of_eq (h : s.Placed) (hsockets : t.sockets = s.sockets)
    (hsocket : t.socket = s.socket) (htimer : t.reconnectTimer = s.reconnectTimer)
    (hphase : s.ctx.phase.engaged = true → t.ctx.phase.engaged = true) : t.Placed := by
  refine ⟨h.toWired.of_eq hsockets hsocket htimer, fun ht => ?_⟩
  rw [hsocket, htimer]
  refine h.unengaged ?_
  by_contra hs
  exact absurd (ht.symm.trans (hphase (by simpa using hs))) Bool.false_ne_true

/-! ## The parts of the handlers -/

lemma Wired.placed_of_free (h : s.Wired) (hsocket : s.socket = none)
    (htimer : s.reconnectTimer = false) : s.Placed := ⟨h, fun _ => ⟨hsocket, htimer⟩⟩

lemma Wired.placed_end (h : s.Wired) : s.end.Placed := h.end.toWired.placed_of_free rfl rfl

lemma Wired.placed_scheduleReconnect (h : s.Wired) (hsocket : s.socket = none)
    (htimer : s.reconnectTimer = false) (hengaged : s.ctx.phase.engaged = true) :
    s.scheduleReconnect.Placed := by
  rw [TalkConversation.scheduleReconnect]
  split_ifs
  · exact h.placed_of_free hsocket htimer
  · exact Wired.placed_of_free (h.of_eq rfl rfl rfl) hsocket htimer
  · refine ⟨⟨?_, h.only, fun _ => hsocket⟩, fun hoff => ?_⟩
    · intro i hi
      cases hsocket.symm.trans hi
    · exact absurd (hoff.symm.trans hengaged) Bool.false_ne_true

lemma Wired.placed_connect (h : s.Wired) (hsocket : s.socket = none)
    (htimer : s.reconnectTimer = false) (hengaged : s.ctx.phase.engaged = true)
    (constructs : Bool) : (s.connect constructs).Placed := by
  cases constructs with
  | false => exact h.placed_scheduleReconnect hsocket htimer hengaged
  | true =>
    have hresting : s.ctx.phase.resting = false := by
      revert hengaged
      cases s.ctx.phase <;> simp [Phase.engaged, Phase.resting]
    have hlinked : (s.connect true).Linked := h.connect hsocket htimer hresting (by simp)
    refine ⟨hlinked.toWired, fun hoff => ?_⟩
    exact absurd (hoff.symm.trans hengaged) Bool.false_ne_true

lemma Placed.proceed (h : s.Placed) (boot : Boot) : (s.proceed boot).Placed := by
  rw [TalkConversation.proceed]
  split_ifs with hphase
  · exact h.of_eq rfl rfl rfl id
  · have hmic : s.ctx.phase = .requestingMic := not_not.mp hphase
    obtain ⟨hsocket, htimer⟩ := h.unengaged (by rw [hmic]; rfl)
    have hafter : (s.ctx.after .micGranted none).phase = .connecting := by
      rw [SessionContext.phase_after_micGranted, if_pos hmic]
    have hw : ((s.dispatch .micGranted).startLevelWatch boot.analyser).Wired :=
      h.toWired.of_eq rfl rfl rfl
    exact hw.placed_connect hsocket htimer (congrArg Phase.engaged hafter) boot.socket

lemma Placed.onopen (h : s.Placed) : (s.onopen i).Placed := by
  rw [TalkConversation.onopen]
  dsimp only
  split_ifs with hrec
  · refine h.of_eq rfl rfl rfl fun _ => ?_
    have hphase : (s.ctx.after .reconnectSucceeded none).phase = .live := by
      rw [SessionContext.phase_after_reconnectSucceeded, if_pos hrec]
    exact congrArg Phase.engaged hphase
  · refine h.of_eq rfl rfl rfl fun hengaged => ?_
    have hphase := SessionContext.phase_after_socketOpen s.ctx
    refine (congrArg Phase.engaged hphase).trans ?_
    split_ifs
    · rfl
    · exact hengaged

lemma Placed.socketClosed (h : s.Placed) (hk : s.sockets[i]? = some k)
    (hopen : k.readyState ≠ .closed) :
    Placed (if k.handled then (s.setReady i k .closed).onclose i else s.setReady i k .closed) := by
  split_ifs with hhandled
  · have hheld : s.socket = some i := h.only i k hk (by simp [TalkSocket.delivers, hhandled, hopen])
    have htimer : s.reconnectTimer = false := by
      by_contra ht
      have hnone := h.timer (by simpa using ht)
      cases hnone.symm.trans hheld
    have hw := h.toWired.drop hk hheld
    rw [onclose, if_neg (by simp [setReady, hheld])]
    refine hw.placed_scheduleReconnect rfl htimer ?_
    refine (congrArg Phase.engaged (SessionContext.phase_after_drop s.ctx)).trans ?_
    split_ifs
    · rfl
    · exact h.engaged_of_socket hheld
  · exact ⟨h.toWired.setReady hk (by simp [TalkSocket.delivers, hhandled]), h.unengaged⟩

lemma Placed.timerFired (h : s.Placed) (htimer : s.reconnectTimer = true) (constructs : Bool) :
    (s.clearReconnect.connect constructs).Placed := by
  have hw : s.clearReconnect.Wired := ⟨h.held, h.only, fun _ => h.timer htimer⟩
  exact hw.placed_connect (h.timer htimer) rfl (h.engaged_of_timer htimer) constructs

lemma Placed.activity (h : s.Placed) {event : SessionEvent} (hevent : event.isActivity = true)
    (g : SelfAudioGuard) : ((s.setGuard g).dispatch event).Placed :=
  h.of_eq rfl rfl rfl
    (congrArg Phase.engaged (SessionContext.phase_after_activity hevent)).trans

lemma Placed.handleFrame (h : s.Placed) {now : Nat} {frame : ServerFrame} :
    (s.handleFrame now frame).Placed := by
  cases frame with
  | talkDirection => exact h.activity rfl _
  | subtitleInterim => exact h.activity rfl _
  | subtitleFinal => exact h.activity rfl _
  | balanceExhausted =>
    have hw : (s.dispatch .creditsExhausted).Wired := h.toWired.of_eq rfl rfl rfl
    exact hw.placed_end
  | error code =>
    rw [TalkConversation.handleFrame]
    split_ifs
    · exact Wired.placed_end (h.toWired.of_eq rfl rfl rfl)
    · exact Wired.placed_end (h.toWired.of_eq rfl rfl rfl)
    · exact h
  | other => exact h

lemma Placed.start (h : s.Placed) {sessionId : String} : (s.start sessionId).Placed := by
  rw [TalkConversation.start]
  split
  next ctx hctx =>
    have hholds := (SessionContext.start_accepted hctx).1
    refine h.of_eq rfl rfl rfl fun hengaged => ?_
    revert hholds hengaged
    cases s.ctx.phase <;> simp [Phase.holds, Phase.engaged]
  next => exact h

lemma Placed.micDenied (h : s.Placed) {pending : Nat} {kind : FailureKind} :
    (s.micDenied pending kind).Placed := by
  refine h.of_eq rfl rfl rfl fun hengaged => ?_
  refine (congrArg Phase.engaged (SessionContext.phase_after_micDenied s.ctx kind)).trans ?_
  split_ifs with hmic
  · rw [hmic] at hengaged
    cases hengaged
  · exact hengaged

lemma Placed.pause (h : s.Placed) : s.pause.Placed := by
  rw [TalkConversation.pause]
  split_ifs
  · refine h.of_eq rfl rfl rfl fun hengaged => ?_
    refine (congrArg Phase.engaged (SessionContext.phase_after_pause s.ctx)).trans ?_
    split_ifs
    · rfl
    · exact hengaged
  · exact h

lemma Placed.resume (h : s.Placed) : s.resume.Placed := by
  rw [TalkConversation.resume]
  split_ifs with haccepted
  · refine h.of_eq rfl rfl rfl fun _ => ?_
    have hpaused := SessionContext.resume_accepted.mp haccepted
    exact congrArg Phase.engaged (SessionContext.phase_after_resume hpaused)
  · exact h

/-- **One event**, whatever it is. -/
lemma Placed.step {e : TalkEvent} (h : s.Placed) (hstep : s.step e = some t) : t.Placed := by
  cases moves_of_step hstep with
  | start sessionId => exact h.start
  | micGranted pending noisyEnv boot =>
    rw [micGranted]
    dsimp only
    split_ifs
    · exact h.of_eq rfl rfl rfl id
    · apply Placed.proceed
      exact h.of_eq rfl rfl rfl id
  | micDenied => exact h.micDenied
  | denoiserReady pending device active boot =>
    rw [denoiserReady]
    apply Placed.proceed
    exact h.of_eq rfl rfl rfl id
  | pause => exact h.pause
  | resume => exact h.resume
  | setMuted muted => exact h.of_eq rfl rfl rfl id
  | «end» => exact h.toWired.placed_end
  | socketOpened i handled hk =>
    have hopen : Placed (s.setReady i ⟨.connecting, handled⟩ .open) :=
      ⟨h.toWired.setReady hk rfl, h.unengaged⟩
    split_ifs
    · exact hopen.onopen
    · exact hopen
  | socketClosed i sock hk hopen => exact h.socketClosed hk hopen
  | timerFired constructs htimer => exact h.timerFired htimer constructs
  | workletReady loaded => exact h.of_eq rfl rfl rfl id
  | frame i frame now => exact h.handleFrame
  | playback playing now => exact h.activity (by cases playing <;> rfl) _
  | level loud now => exact h.of_eq rfl rfl rfl id

/-! ## Until the user acts -/

/-- Of a session in `error` no socket delivers, and no timer runs. -/
lemma Placed.silent (h : s.Placed) (hphase : s.ctx.phase = .error) :
    s.reconnectTimer = false ∧
      ∀ (i : Nat) (k : TalkSocket), s.sockets[i]? = some k → k.delivers = false := by
  obtain ⟨hsocket, htimer⟩ := h.unengaged (by rw [hphase]; rfl)
  refine ⟨htimer, fun i k hk => ?_⟩
  by_contra hdelivers
  have hheld := h.only i k hk (by simpa using hdelivers)
  cases hsocket.symm.trans hheld

/-- **One event** that the user has not caused leaves the state of a session in `error` alone. -/
lemma Placed.ctx_step {e : TalkEvent} (h : s.Placed) (hphase : s.ctx.phase = .error)
    (hevent : e.byUser = false) (hstep : s.step e = some t) : t.ctx = s.ctx := by
  obtain ⟨htimer, hsilent⟩ := h.silent hphase
  have hmic : ¬ s.ctx.phase = .requestingMic := by simp [hphase]
  cases moves_of_step hstep with
  | micGranted pending noisyEnv boot =>
    rw [micGranted]
    dsimp only
    split_ifs
    · rfl
    · rw [TalkConversation.proceed, if_pos hmic]
      rfl
  | micDenied => exact SessionContext.after_of_error hphase (by simp) (by simp) (by simp)
  | denoiserReady pending device active boot =>
    rw [denoiserReady, TalkConversation.proceed, if_pos hmic]
    rfl
  | socketOpened i handled hk =>
    cases handled with
    | true => cases hsilent i _ hk
    | false => rfl
  | socketClosed i sock hk hopen =>
    -- a socket that delivers nothing is closed or not listened to
    have hdelivers := hsilent i _ hk
    obtain ⟨state, handled⟩ := sock
    cases handled with
    | true => simp [TalkSocket.delivers, hopen] at hdelivers
    | false => rfl
  | timerFired constructs hfires => exact absurd (htimer.symm.trans hfires) Bool.false_ne_true
  | workletReady loaded => rfl
  | frame i frame now hopen => cases hsilent i _ hopen
  | playback playing now =>
    cases playing with
    | true => exact SessionContext.after_of_error hphase (by simp) (by simp) (by simp)
    | false => exact SessionContext.after_of_error hphase (by simp) (by simp) (by simp)
  | level loud now => rfl
  | _ => cases hevent

/-- A session that is out of credits stays so until the user acts. -/
lemma Placed.outOfCredits_run {es : List TalkEvent} (h : s.Placed) (hout : s.OutOfCredits)
    (hrun : Run (ofPartial TalkConversation.step) s es t) (hevents : ∀ e ∈ es, e.byUser = false) :
    t.OutOfCredits := by
  have hboth : t.Placed ∧ t.OutOfCredits := by
    refine hrun.invariant (fun s => s.Placed ∧ s.OutOfCredits) ?_ ⟨h, hout⟩
    rintro u e he v ⟨hu, hphase, hfailure⟩ hstep
    have hctx := hu.ctx_step hphase (hevents e he) hstep
    exact ⟨hu.step hstep, by rw [hctx, hphase], by rw [hctx, hfailure]⟩
  exact hboth.2

lemma placed_new (needsPcm : Bool) (mode : GuardMode) : (new needsPcm mode).Placed :=
  (linked_new needsPcm mode).toWired.placed_of_free rfl rfl

lemma placed_of_run {needsPcm : Bool} {mode : GuardMode} {events : List TalkEvent}
    (h : Run (ofPartial TalkConversation.step) (new needsPcm mode) events s) : s.Placed :=
  h.invariant Placed (fun _ _ _ _ hu hstep => hu.step hstep) (placed_new needsPcm mode)

/-- **Out of credits stays visible.**  A report that the credits do not suffice, in any run, leaves
the session in `error` with the failure `credits`, until the user acts, exactly when it is that of
an exhausted balance. -/
theorem outOfCredits_iff (needsPcm : Bool) (mode : GuardMode) (events : List TalkEvent)
    (s t : TalkConversation) (i now : Nat) (frame : ServerFrame)
    (h : Run (ofPartial step) (new needsPcm mode) events s)
    (hreport : frame.reportsNoCredits = true) (hstep : s.step (.frame i frame now) = some t) :
    (t.OutOfCredits ∧ ∀ es u, Run (ofPartial step) t es u → (∀ e ∈ es, e.byUser = false) →
      u.OutOfCredits) ↔ frame = .balanceExhausted := by
  have hplaced := placed_of_run h
  have hplaced' := hplaced.step hstep
  obtain ⟨hopen, ⟨⟩⟩ := Option.ite_none_right_eq_some.mp hstep
  constructor
  · rintro ⟨⟨hphase, -⟩, -⟩
    cases frame with
    | balanceExhausted => rfl
    | error code =>
      have hcode : code = "insufficient_balance" := of_decide_eq_true hreport
      subst hcode
      have hctx : (s.handleFrame now (.error "insufficient_balance")).ctx =
          ⟨.ended, .listening, none, some .credits⟩ := SessionContext.end_of_fatal s.ctx .credits
      rw [hctx] at hphase
      cases hphase
    | _ => cases hreport
  · rintro rfl
    have hengaged := hplaced.engaged_of_socket (hplaced.only i _ hopen rfl)
    have hctx : (s.handleFrame now .balanceExhausted).ctx =
        ⟨.error, .listening, none, some .credits⟩ := SessionContext.end_of_exhausted hengaged
    have hout : (s.handleFrame now .balanceExhausted).OutOfCredits := by
      rw [OutOfCredits, hctx]
      exact ⟨rfl, rfl⟩
    exact ⟨hout, fun es u hrun hevents => hplaced'.outOfCredits_run hout hrun hevents⟩

/-- The balance runs out during a pause. -/
theorem outOfCredits_sample : ∃ s t,
    Run (ofPartial step) (new true .gate) (goLive ++ [.pause]) s ∧
    s.step (.frame 0 .balanceExhausted 7) = some t ∧ t.OutOfCredits := by
  obtain ⟨s, hrun, hstep⟩ : ∃ s, Run (ofPartial step) (new true .gate) (goLive ++ [.pause]) s ∧
      (s.step (.frame 0 .balanceExhausted 7)).isSome = true := Run.exists_of_decide (by decide)
  obtain ⟨t, ht⟩ := Option.isSome_iff_exists.mp hstep
  exact ⟨s, t, hrun, ht, ((outOfCredits_iff true .gate _ s t 0 7 _ hrun rfl ht).mpr rfl).1⟩

/-- An error frame says that the balance is insufficient: the session ends as if nothing had
happened. -/
theorem insufficient_balance_ends : ∃ s,
    Run (ofPartial step) (new true .gate)
      (goLive ++ [.frame 0 (.error "insufficient_balance") 7]) s ∧
    s.ctx.phase = .ended ∧ ¬ s.OutOfCredits := Run.exists_of_decide (by decide)

end TalkConversation

end VoxTranslate.Client
