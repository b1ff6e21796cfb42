import VoxTranslate.Client.Conversation

/-!
# A session that is live is connected, or is trying to be

The retry counter and the timer run outside the session state, which takes the end of the retries
only while it is reconnecting.  Where they run out in another phase, nothing is left that would
open a socket again.
-/

namespace VoxTranslate.Client

open Lib

/-- The session is connected, or is about to be. -/
def Phase.trying : Phase → Bool
  | .connecting | .live | .reconnecting => true
  | _ => false

/-- Before the session has a socket, and after. -/
def Phase.resting : Phase → Bool
  | .idle | .requestingMic | .ended | .error => true
  | _ => false

namespace TalkConversation

/-- The conversation holds a socket that is open or opening. -/
def HoldsSocket (s : TalkConversation) : Prop :=
  ∃ i k, s.socket = some i ∧ s.sockets[i]? = some k ∧ k.readyState ≠ .closed

/-- A session that tries has a socket or a timer, and one socket at most can deliver frames. -/
def Connected (s : TalkConversation) : Prop :=
  (s.ctx.phase.trying = true → s.HoldsSocket ∨ s.reconnectTimer = true) ∧
    ∀ (i j : Nat) (k l : TalkSocket), s.sockets[i]? = some k → s.sockets[j]? = some l →
      k.delivers = true → l.delivers = true → i = j

/-- The attempts are used up. -/
def exhausted (s : TalkConversation) : Bool := reconnectMaxAttempts ≤ s.attempt

/-- The event leaves a way back to the server: the attempts do not run out while the session is
connecting or live, and a paused session that has neither socket nor timer is not resumed. -/
def keepsTrying (s : TalkConversation) : TalkEvent → Bool
  | .micGranted _ noisyEnv boot =>
    noisyEnv || boot.socket || s.ctx.phase ≠ .requestingMic || !s.exhausted
  | .denoiserReady _ _ boot => boot.socket || s.ctx.phase ≠ .requestingMic || !s.exhausted
  | .timerFired constructs =>
    constructs || !(s.ctx.phase = .connecting || s.ctx.phase = .live) || !s.exhausted
  | .resume => s.ctx.phase ≠ .paused || s.socket.isSome || s.reconnectTimer
  | _ => true

/-- The socket the conversation holds is the one that delivers, and a timer runs only while it
holds none. -/
structure Wired (s : TalkConversation) : Prop where
  held : ∀ i, s.socket = some i → ∃ k, s.sockets[i]? = some k ∧ k.delivers = true
  only : ∀ i k, s.sockets[i]? = some k → k.delivers = true → s.socket = some i
  timer : s.reconnectTimer = true → s.socket = none

/-- The invariant: the sockets and the timer fit the phase. -/
structure Linked (s : TalkConversation) : Prop extends Wired s where
  resting : s.ctx.phase.resting = true → s.socket = none ∧ s.reconnectTimer = false
  trying : s.ctx.phase.trying = true → s.socket.isSome = true ∨ s.reconnectTimer = true

variable {s t : TalkConversation} {i : Nat} {k : TalkSocket}

lemma Linked.connected (h : s.Linked) : s.Connected := by
  refine ⟨fun htrying => ?_, fun i j k l hi hj hk hl => ?_⟩
  · rcases h.trying htrying with hsock | htimer
    · obtain ⟨i, hi⟩ := Option.isSome_iff_exists.mp hsock
      obtain ⟨k, hk, hdelivers⟩ := h.held i hi
      refine .inl ⟨i, k, hi, hk, ?_⟩
      rw [TalkSocket.delivers, Bool.and_eq_true, decide_eq_true_eq] at hdelivers
      exact hdelivers.2
    · exact .inr htimer
  · exact Option.some.inj ((h.only i k hi hk).symm.trans (h.only j l hj hl))

lemma Wired.of_eq (h : s.Wired) (hsockets : t.sockets = s.sockets) (hsocket : t.socket = s.socket)
    (htimer : t.reconnectTimer = s.reconnectTimer) : t.Wired := by
  refine ⟨?_, ?_, ?_⟩
  · rw [hsocket, hsockets]
    exact h.held
  · rw [hsocket, hsockets]
    exact h.only
  · rw [hsocket, htimer]
    exact h.timer

/-- Without a socket and a timer nothing is left to be said of a session that does not try. -/
lemma Wired.linked_of_free (h : s.Wired) (hsocket : s.socket = none)
    (htimer : s.reconnectTimer = false) (htrying : s.ctx.phase.trying = false) : s.Linked :=
  ⟨h, fun _ => ⟨hsocket, htimer⟩, fun ht => absurd (htrying.symm.trans ht) Bool.false_ne_true⟩

/-- A change that touches neither sockets nor timer, and keeps the phase. -/
lemma Linked.of_eq (h : s.Linked) (hsockets : t.sockets = s.sockets)
    (hsocket : t.socket = s.socket) (htimer : t.reconnectTimer = s.reconnectTimer)
    (hphase : t.ctx.phase = s.ctx.phase) : t.Linked := by
  refine ⟨h.toWired.of_eq hsockets hsocket htimer, ?_, ?_⟩
  · rw [hphase, hsocket, htimer]
    exact h.resting
  · rw [hphase, hsocket, htimer]
    exact h.trying

/-- A change of phase that makes no new demand. -/
lemma Linked.of_phase (h : s.Linked) (hsockets : t.sockets = s.sockets)
    (hsocket : t.socket = s.socket) (htimer : t.reconnectTimer = s.reconnectTimer)
    (hresting : t.ctx.phase.resting = true → s.ctx.phase.resting = true)
    (htrying : t.ctx.phase.trying = true → s.ctx.phase.trying = true) : t.Linked := by
  refine ⟨h.toWired.of_eq hsockets hsocket htimer, ?_, ?_⟩
  · rw [hsocket, htimer]
    exact fun hr => h.resting (hresting hr)
  · rw [hsocket, htimer]
    exact fun ht => h.trying (htrying ht)

/-! ## The parts of the handlers -/

lemma Wired.dropSocket (h : s.Wired) : s.dropSocket.Wired := by
  refine ⟨nofun, ?_, fun _ => rfl⟩
  intro j k hj hk
  rw [TalkConversation.dropSocket] at hj
  dsimp only at hj
  split at hj
  next hsock =>
    have hheld := h.only j k hj hk
    cases hsock.symm.trans hheld
  next i hsock =>
    rw [List.getElem?_set] at hj
    split_ifs at hj with hij hlt
    · cases hj
      cases hk
    · exact absurd (Option.some.inj (hsock.symm.trans (h.only j k hj hk))) hij

/-- The end of a conversation, whatever it was in. -/
lemma Wired.end (h : s.Wired) : s.end.Linked := by
  have hdrop := h.dropSocket
  have hend : s.end.Wired := ⟨hdrop.held, hdrop.only, fun _ => rfl⟩
  refine hend.linked_of_free rfl rfl ?_
  have hctx : s.end.ctx = (s.ctx.after .stopRequested none).after .teardownComplete none := rfl
  rw [hctx]
  rcases SessionContext.phase_after_end s.ctx with hphase | hphase
  · rw [hphase]
    rfl
  · rw [hphase]
    rfl

/-- A drop, or a socket that could not be made: the conversation holds none, and no timer. -/
lemma Wired.scheduleReconnect (h : s.Wired) (hsocket : s.socket = none)
    (htimer : s.reconnectTimer = false) (hresting : s.ctx.phase.resting = false)
    (hleft : s.ctx.phase = .connecting ∨ s.ctx.phase = .live → s.exhausted = false) :
    s.scheduleReconnect.Linked := by
  rw [TalkConversation.scheduleReconnect]
  split_ifs with hover hspent
  · refine h.linked_of_free hsocket htimer ?_
    rcases hover with hphase | hphase
    · rw [hphase]
      rfl
    · rw [hphase]
      rfl
  · have hspent' : s.exhausted = true := decide_eq_true hspent
    have hw : (s.dispatch .reconnectExhausted).Wired := h.of_eq rfl rfl rfl
    refine hw.linked_of_free hsocket htimer ?_
    have hnot : ¬ (s.ctx.phase = .connecting ∨ s.ctx.phase = .live) := fun hp =>
      Bool.false_ne_true ((hleft hp).symm.trans hspent')
    rw [dispatch, SessionContext.phase_after_reconnectExhausted]
    revert hnot
    cases s.ctx.phase <;> simp [Phase.trying]
  · refine ⟨⟨?_, h.only, fun _ => hsocket⟩, fun hr => ?_, fun _ => .inr rfl⟩
    · intro i hi
      cases hsocket.symm.trans hi
    · exact absurd (hresting.symm.trans hr) Bool.false_ne_true

/-- A new socket, or the retry after a constructor that throws. -/
lemma Wired.connect (h : s.Wired) (hsocket : s.socket = none) (htimer : s.reconnectTimer = false)
    (hresting : s.ctx.phase.resting = false) {constructs : Bool}
    (hleft : constructs = false → s.ctx.phase = .connecting ∨ s.ctx.phase = .live →
      s.exhausted = false) : (s.connect constructs).Linked := by
  rw [TalkConversation.connect]
  split_ifs with hconstructs
  · have hnone : ∀ (j : Nat) (k : TalkSocket), s.sockets[j]? = some k → k.delivers = false := by
      intro j k hj
      by_contra hk
      have hheld := h.only j k hj (by simpa using hk)
      cases hsocket.symm.trans hheld
    refine ⟨⟨?_, ?_, fun ht => ?_⟩, fun hr => ?_, fun _ => .inl rfl⟩
    · intro i hi
      cases hi
      exact ⟨⟨.connecting, true⟩, by simp, rfl⟩
    · intro j k hj hk
      rw [List.getElem?_append] at hj
      split_ifs at hj with hlt
      · rw [hnone j k hj] at hk
        cases hk
      · have hzero : j - s.sockets.length = 0 := by
          by_contra hne
          rw [List.getElem?_eq_none (by simp; omega)] at hj
          cases hj
        have hj' : s.sockets.length = j := by omega
        exact congrArg some hj'
    · exact absurd (htimer.symm.trans ht) Bool.false_ne_true
    · exact absurd (hresting.symm.trans hr) Bool.false_ne_true
  · exact h.scheduleReconnect hsocket htimer hresting (hleft (by simpa using hconstructs))

/-- The end of a start. -/
lemma Linked.proceed (h : s.Linked) {boot : Boot}
    (hleft : s.ctx.phase = .requestingMic → boot.socket = false → s.exhausted = false) :
    (s.proceed boot).Linked := by
  rw [TalkConversation.proceed]
  split_ifs with hphase
  · exact h.of_eq rfl rfl rfl rfl
  · have hmic : s.ctx.phase = .requestingMic := not_not.mp hphase
    obtain ⟨hsocket, htimer⟩ := h.resting (by rw [hmic]; rfl)
    have hafter : (s.ctx.after .micGranted none).phase = .connecting := by
      rw [SessionContext.phase_after_micGranted, if_pos hmic]
    let u := (s.dispatch .micGranted).startLevelWatch boot.analyser
    have hw : u.Wired := h.toWired.of_eq rfl rfl rfl
    have hconn : u.ctx.phase = .connecting := hafter
    refine hw.connect hsocket htimer ?_ fun hboot _ => hleft hmic hboot
    rw [hconn]
    rfl

/-! ## The events -/

/-- A socket that does not deliver before or after a change of its state. -/
lemma Wired.setReady (h : s.Wired) (hk : s.sockets[i]? = some k) {state : ReadyState}
    (hdelivers : TalkSocket.delivers { k with readyState := state } = k.delivers) :
    (s.setReady i k state).Wired := by
  have hlt : i < s.sockets.length := (List.getElem?_eq_some_iff.mp hk).1
  refine ⟨fun j hj => ?_, fun j l hl hdel => ?_, h.timer⟩
  · obtain ⟨l, hl, hdel⟩ := h.held j hj
    rcases eq_or_ne i j with rfl | hne
    · refine ⟨{ k with readyState := state }, by simp [TalkConversation.setReady, hlt], ?_⟩
      rw [hdelivers, Option.some.inj (hk.symm.trans hl)]
      exact hdel
    · exact ⟨l, by simpa [TalkConversation.setReady, List.getElem?_set_ne hne] using hl, hdel⟩
  · rcases eq_or_ne i j with rfl | hne
    · rw [TalkConversation.setReady] at hl
      simp only [List.getElem?_set_self hlt, Option.some.injEq] at hl
      subst hl
      exact h.only i k hk (hdelivers ▸ hdel)
    · rw [TalkConversation.setReady] at hl
      simp only [List.getElem?_set_ne hne] at hl
      exact h.only j l hl hdel

lemma Linked.onopen (h : s.Linked) : (s.onopen i).Linked := by
  rw [TalkConversation.onopen]
  dsimp only
  split_ifs with hrec
  · have hphase : (s.ctx.after .reconnectSucceeded none).phase = .live := by
      rw [SessionContext.phase_after_reconnectSucceeded, if_pos hrec]
    refine h.of_phase rfl rfl rfl (fun hr => ?_) fun _ => ?_
    · exact absurd ((congrArg Phase.resting hphase).symm.trans hr) Bool.false_ne_true
    · rw [hrec]
      rfl
  · have hphase := SessionContext.phase_after_socketOpen s.ctx
    have hafter : (TalkConversation.attachCapture
        (dispatch { s with attempt := 0 } .socketOpen) i).ctx.phase =
        if s.ctx.phase = .connecting then .live else s.ctx.phase := hphase
    refine h.of_phase rfl rfl rfl ?_ ?_
    · rw [hafter]
      split_ifs with hconn
      · simp [Phase.resting]
      · exact id
    · rw [hafter]
      split_ifs with hconn
      · simp [hconn, Phase.trying]
      · exact id

/-- The drop of the socket that the conversation holds. -/
lemma Wired.drop (h : s.Wired) (hk : s.sockets[i]? = some k) (hheld : s.socket = some i) :
    Wired (dispatch { s.setReady i k .closed with socket := none }.detachCapture
      (.socketClosed true)) := by
  have hlt : i < s.sockets.length := (List.getElem?_eq_some_iff.mp hk).1
  refine ⟨nofun, fun j l hl hdel => ?_, fun _ => rfl⟩
  simp only [dispatch, detachCapture, TalkConversation.setReady] at hl
  rcases eq_or_ne i j with rfl | hne
  · simp only [List.getElem?_set_self hlt, Option.some.injEq] at hl
    subst hl
    simp [TalkSocket.delivers] at hdel
  · simp only [List.getElem?_set_ne hne] at hl
    exact absurd (Option.some.inj (hheld.symm.trans (h.only j l hl hdel))) hne

/-- A socket that is closed is the one the conversation holds, or none that delivers. -/
lemma Linked.socketClosed (h : s.Linked) (hk : s.sockets[i]? = some k)
    (hopen : k.readyState ≠ .closed) :
    Linked (if k.handled then (s.setReady i k .closed).onclose i else s.setReady i k .closed) := by
  split_ifs with hhandled
  · have hheld : s.socket = some i := by
      refine h.only i k hk ?_
      simp [TalkSocket.delivers, hhandled, hopen]
    have htimer : s.reconnectTimer = false := by
      by_contra ht
      have hnone := h.timer (by simpa using ht)
      cases hnone.symm.trans hheld
    have hresting : s.ctx.phase.resting = false := by
      by_contra hr
      have hnone := (h.resting (by simpa using hr)).1
      cases hnone.symm.trans hheld
    have hw := h.toWired.drop hk hheld
    rw [onclose, if_neg (by simp [setReady, hheld])]
    have hphase := SessionContext.phase_after_drop s.ctx
    refine hw.scheduleReconnect rfl htimer ?_ fun hp => ?_
    · simp only [dispatch, detachCapture, setReady, hphase]
      split_ifs
      · rfl
      · exact hresting
    · -- after the drop the session is neither connecting nor live
      simp only [dispatch, detachCapture, setReady, hphase] at hp
      split_ifs at hp with hphase'
      · simp at hp
      · exact absurd hp hphase'
  · refine ⟨h.toWired.setReady hk ?_, h.resting, h.trying⟩
    simp [TalkSocket.delivers, hhandled]

lemma Linked.timerFired (h : s.Linked) (htimer : s.reconnectTimer = true) {constructs : Bool}
    (hleft : constructs = false → s.ctx.phase = .connecting ∨ s.ctx.phase = .live →
      s.exhausted = false) : (s.clearReconnect.connect constructs).Linked := by
  have hresting : s.ctx.phase.resting = false := by
    by_contra hr
    have hoff := (h.resting (by simpa using hr)).2
    exact absurd (hoff.symm.trans htimer) Bool.false_ne_true
  have hw : s.clearReconnect.Wired := ⟨h.held, h.only, fun _ => h.timer htimer⟩
  exact hw.connect (h.timer htimer) rfl hresting hleft

lemma Linked.handleFrame (h : s.Linked) {now : Nat} {frame : ServerFrame} :
    (s.handleFrame now frame).Linked := by
  cases frame with
  | talkDirection => exact h.of_eq rfl rfl rfl (SessionContext.phase_after_activity rfl)
  | subtitleInterim => exact h.of_eq rfl rfl rfl (SessionContext.phase_after_activity rfl)
  | subtitleFinal => exact h.of_eq rfl rfl rfl (SessionContext.phase_after_activity rfl)
  | balanceExhausted =>
    have hw : (s.dispatch .creditsExhausted).Wired := h.toWired.of_eq rfl rfl rfl
    exact hw.end
  | error code =>
    have hw : ∀ kind, (s.dispatch (.fatal kind)).Wired := fun _ => h.toWired.of_eq rfl rfl rfl
    rw [TalkConversation.handleFrame]
    split_ifs
    · exact (hw _).end
    · exact (hw _).end
    · exact h
  | other => exact h

lemma Linked.start (h : s.Linked) {sessionId : String} : (s.start sessionId).Linked := by
  rw [TalkConversation.start]
  split
  next ctx hctx =>
    obtain ⟨hholds, hphase⟩ := SessionContext.start_accepted hctx
    refine h.of_phase rfl rfl rfl (fun _ => ?_) fun htrying => ?_
    · revert hholds
      cases s.ctx.phase <;> simp [Phase.holds, Phase.resting]
    · simp [hphase, Phase.trying] at htrying
  next => exact h

lemma Linked.micDenied (h : s.Linked) {pending : Nat} {kind : FailureKind} :
    (s.micDenied pending kind).Linked := by
  have hphase := SessionContext.phase_after_micDenied s.ctx kind
  refine h.of_phase rfl rfl rfl ?_ ?_
  · simp only [TalkConversation.micDenied, dispatch, hphase]
    split_ifs with hmic
    · simp [hmic, Phase.resting]
    · exact id
  · simp only [TalkConversation.micDenied, dispatch, hphase]
    split_ifs with hmic
    · simp [Phase.trying]
    · exact id

lemma Linked.pause (h : s.Linked) : s.pause.Linked := by
  rw [TalkConversation.pause]
  split_ifs with haccepted
  · have hphase := SessionContext.phase_after_pause s.ctx
    refine h.of_phase rfl rfl rfl ?_ ?_
    · simp only [TalkConversation.setGuard, TalkConversation.setMuted, dispatch, hphase]
      split_ifs
      · simp [Phase.resting]
      · exact id
    · simp only [TalkConversation.setGuard, TalkConversation.setMuted, dispatch, hphase]
      split_ifs
      · simp [Phase.trying]
      · exact id
  · exact h

lemma Linked.resume (h : s.Linked)
    (hway : s.ctx.phase = .paused → s.socket.isSome = true ∨ s.reconnectTimer = true) :
    s.resume.Linked := by
  rw [TalkConversation.resume]
  split_ifs with haccepted
  · have hpaused := SessionContext.resume_accepted.mp haccepted
    have hphase := SessionContext.phase_after_resume hpaused
    refine ⟨h.toWired.of_eq rfl rfl rfl, fun hr => ?_, fun _ => hway hpaused⟩
    simp [TalkConversation.setMuted, dispatch, hphase, Phase.resting] at hr
  · exact h

/-- **One event** that leaves a way back. -/
lemma Linked.step (h : s.Linked) {e : TalkEvent} (hguard : s.keepsTrying e = true)
    (hstep : s.step e = some t) : t.Linked := by
  cases moves_of_step hstep with
  | start sessionId => exact h.start
  | micGranted pending noisyEnv boot =>
    rw [micGranted]
    dsimp only
    split_ifs with hnoisy
    · exact h.of_eq rfl rfl rfl rfl
    · apply Linked.proceed
      · exact h.of_eq rfl rfl rfl rfl
      · intro hmic hboot
        have hmic' : s.ctx.phase = .requestingMic := hmic
        simpa [keepsTrying, hnoisy, hboot, hmic', exhausted] using hguard
  | micDenied => exact h.micDenied
  | denoiserReady pending device active boot =>
    rw [denoiserReady]
    apply Linked.proceed
    · exact h.of_eq rfl rfl rfl rfl
    · intro hmic hboot
      have hmic' : s.ctx.phase = .requestingMic := hmic
      simpa [keepsTrying, hboot, hmic', exhausted] using hguard
  | pause => exact h.pause
  | resume =>
    refine h.resume fun hpaused => ?_
    simpa [keepsTrying, hpaused, Bool.or_eq_true] using hguard
  | setMuted muted => exact h.of_eq rfl rfl rfl rfl
  | «end» => exact h.toWired.end
  | socketOpened i handled hk =>
    have hopen : Linked (s.setReady i ⟨.connecting, handled⟩ .open) :=
      ⟨h.toWired.setReady hk rfl, h.resting, h.trying⟩
    split_ifs
    · exact hopen.onopen
    · exact hopen
  | socketClosed i sock hk hopen => exact h.socketClosed hk hopen
  | timerFired constructs htimer =>
    refine h.timerFired htimer fun hfails hphase => ?_
    rw [keepsTrying, hfails] at hguard
    rcases hphase with hphase | hphase
    · simpa [hphase] using hguard
    · simpa [hphase] using hguard
  | workletReady loaded => exact h.of_eq rfl rfl rfl rfl
  | frame i frame now => exact h.handleFrame
  | playback playing now =>
    refine h.of_eq rfl rfl rfl (SessionContext.phase_after_activity ?_)
    cases playing <;> rfl
  | level loud now => exact h.of_eq rfl rfl rfl rfl

/-! ## Where no way back is left -/

/-- A session that tries, without a socket and without a timer. -/
lemma not_connected (htrying : s.ctx.phase.trying = true) (hsocket : s.socket = none)
    (htimer : s.reconnectTimer = false) : ¬ s.Connected := by
  intro h
  rcases h.1 htrying with ⟨i, k, hi, -, -⟩ | ht
  · cases hsocket.symm.trans hi
  · exact absurd (htimer.symm.trans ht) Bool.false_ne_true

/-- The end of the retries is ignored while connecting or live. -/
lemma not_connected_of_spent (hspent : s.exhausted = true)
    (hphase : s.ctx.phase = .connecting ∨ s.ctx.phase = .live) (hsocket : s.socket = none)
    (htimer : s.reconnectTimer = false) : ¬ s.scheduleReconnect.Connected := by
  have hover : ¬ (s.ctx.phase = .stopping ∨ s.ctx.phase = .ended) := by
    rcases hphase with hphase | hphase <;> simp [hphase]
  have hafter : (s.ctx.after .reconnectExhausted none).phase = s.ctx.phase := by
    rw [SessionContext.phase_after_reconnectExhausted, if_neg]
    rcases hphase with hphase | hphase <;> simp [hphase]
  rw [scheduleReconnect, if_neg hover, if_pos (of_decide_eq_true hspent)]
  refine not_connected ?_ hsocket htimer
  rw [dispatch, hafter]
  rcases hphase with hphase | hphase <;> rw [hphase] <;> rfl

lemma not_connected_of_proceed (h : s.Linked) {boot : Boot} (hmic : s.ctx.phase = .requestingMic)
    (hboot : boot.socket = false) (hspent : s.exhausted = true) :
    ¬ (s.proceed boot).Connected := by
  obtain ⟨hsocket, htimer⟩ := h.resting (by rw [hmic]; rfl)
  have hafter : (s.ctx.after .micGranted none).phase = .connecting := by
    rw [SessionContext.phase_after_micGranted, if_pos hmic]
  rw [TalkConversation.proceed, if_neg (not_not.mpr hmic), hboot, connect,
    if_neg Bool.false_ne_true]
  exact not_connected_of_spent hspent (.inl hafter) hsocket htimer

/-- **One event** that leaves no way back. -/
lemma not_connected_of_step (h : s.Linked) {e : TalkEvent} (hguard : s.keepsTrying e = false)
    (hstep : s.step e = some t) : ¬ t.Connected := by
  cases moves_of_step hstep with
  | micGranted pending noisyEnv boot =>
    simp only [keepsTrying, Bool.or_eq_false_iff, Bool.not_eq_false', decide_eq_false_iff_not,
      not_not, ne_eq] at hguard
    obtain ⟨⟨⟨hnoisy, hboot⟩, hmic⟩, hspent⟩ := hguard
    rw [micGranted]
    dsimp only
    rw [if_neg (by simp [hnoisy])]
    apply not_connected_of_proceed
    · exact h.of_eq rfl rfl rfl rfl
    · exact hmic
    · exact hboot
    · exact hspent
  | denoiserReady pending device active boot =>
    simp only [keepsTrying, Bool.or_eq_false_iff, Bool.not_eq_false', decide_eq_false_iff_not,
      not_not, ne_eq] at hguard
    obtain ⟨⟨hboot, hmic⟩, hspent⟩ := hguard
    rw [denoiserReady]
    apply not_connected_of_proceed
    · exact h.of_eq rfl rfl rfl rfl
    · exact hmic
    · exact hboot
    · exact hspent
  | timerFired constructs htimer =>
    simp only [keepsTrying, Bool.or_eq_false_iff, Bool.not_eq_false', Bool.or_eq_true,
      decide_eq_true_eq] at hguard
    obtain ⟨⟨hfails, hphase⟩, hspent⟩ := hguard
    rw [hfails, connect, if_neg Bool.false_ne_true]
    exact not_connected_of_spent hspent hphase (h.timer htimer) rfl
  | resume =>
    simp only [keepsTrying, Bool.or_eq_false_iff, decide_eq_false_iff_not, not_not, ne_eq] at hguard
    obtain ⟨⟨hpaused, hsocket⟩, htimer⟩ := hguard
    rw [TalkConversation.resume, if_pos (SessionContext.resume_accepted.mpr hpaused)]
    have hnone : s.socket = none := by simpa using hsocket
    refine not_connected ?_ hnone htimer
    simp [TalkConversation.setMuted, dispatch, SessionContext.phase_after_resume hpaused,
      Phase.trying]
  | _ => cases hguard

lemma linked_new (needsPcm : Bool) (mode : GuardMode) : (new needsPcm mode).Linked :=
  ⟨⟨nofun, nofun, fun _ => rfl⟩, fun _ => ⟨rfl, rfl⟩, nofun⟩

/-- **Live means connected, or trying to be.**  It holds in every state of a run exactly when the
attempts never run out while the session is connecting or live, and no paused session is resumed
that has neither socket nor timer. -/
theorem connected_of_run_iff (needsPcm : Bool) (mode : GuardMode) {events : List TalkEvent}
    (h : Run (ofPartial step) (new needsPcm mode) events s) :
    Run (Guarded (ofPartial step) fun s e => s.keepsTrying e = true) (new needsPcm mode) events s ↔
      ∀ pre u, pre <+: events → Run (ofPartial step) (new needsPcm mode) pre u → u.Connected :=
  Run.guarded_iff_prefixes (fun _ _ _ hs hG hstep => hs.step hG hstep) (fun _ => Linked.connected)
    (fun _ _ _ hs hG hstep => not_connected_of_step hs hG hstep) h (linked_new needsPcm mode)

/-- A conversation that has become live. -/
def goLive : List TalkEvent := [.start "s", .micGranted 0 false ⟨true, true⟩, .socketOpened 0]

/-- The attempts run out during a pause: the resumed session is live, and cut off. -/
theorem resume_after_exhaustion : ∃ events s,
    Run (ofPartial step) (new true .gate) events s ∧ ¬ s.Connected := by
  obtain ⟨s, hrun, hphase, hsocket, htimer⟩ : ∃ s, Run (ofPartial step) (new true .gate)
      (goLive ++ [.pause, .socketClosed 0] ++ List.replicate 6 (.timerFired false) ++ [.resume])
      s ∧ s.ctx.phase.trying = true ∧ s.socket = none ∧ s.reconnectTimer = false :=
    Run.exists_of_decide (by decide)
  exact ⟨_, s, hrun, not_connected hphase hsocket htimer⟩

/-- A pause with a drop, resumed while the timer runs. -/
theorem connected_sample : ∃ s, Run (ofPartial step) (new true .gate)
      (goLive ++ [.pause, .socketClosed 0, .timerFired false, .resume, .timerFired true]) s ∧
    ∀ pre u, pre <+: goLive ++ [.pause, .socketClosed 0, .timerFired false, .resume,
      .timerFired true] → Run (ofPartial step) (new true .gate) pre u → u.Connected := by
  obtain ⟨s, hrun⟩ : ∃ s, Run (Guarded (ofPartial step) fun s e => s.keepsTrying e = true)
      (new true .gate)
      (goLive ++ [.pause, .socketClosed 0, .timerFired false, .resume, .timerFired true]) s :=
    Run.exists_guarded_of_isSome (by decide)
  exact ⟨s, hrun.ofGuarded, (connected_of_run_iff true .gate hrun.ofGuarded).mp hrun⟩

end TalkConversation

end VoxTranslate.Client
