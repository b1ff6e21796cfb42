import VoxTranslate.Client.Reconnect

/-!
# When the microphone may be sent

Mute and the gate live in the capture, and the capture is made anew on every socket that opens.
A conversation that is paused, muted or gated at that moment forgets it.
-/

namespace VoxTranslate.Client.TalkConversation

open Lib

/-- A chunk that the microphone delivers now is written to a socket. -/
def writesMic (s : TalkConversation) : Bool :=
  match s.capture with
  | some (.pcm c) => c.passes && (s.sockets[c.ws]?).any fun k => k.readyState = .open
  | _ => false

/-- The microphone is sent only by a live session that is neither muted nor gated. -/
def MicClosed (s : TalkConversation) : Prop :=
  s.writesMic = true → isCapturing s.ctx = true ∧ s.muted = false ∧ s.guard.gated = false

instance (s : TalkConversation) : Decidable s.MicClosed :=
  inferInstanceAs (Decidable (_ → _ ∧ _ ∧ _))

/-- No socket opens for a conversation that is paused, muted or gated, and a session that is not
live is not unmuted. -/
def opensInForce (s : TalkConversation) : TalkEvent → Bool
  | .socketOpened _ => s.stream.isNone || s.ctx.phase.trying && !s.muted && !s.guard.gated
  | .setMuted false => s.capture.isNone || s.ctx.phase = .live
  | _ => true

/-- The invariant: the capture has the gate of the guard, and runs only where it may. -/
def Obeys (s : TalkConversation) : Prop :=
  ∀ c, s.capture = some (.pcm c) → c.gated = s.guard.gated ∧
    (c.running = true → s.ctx.phase = .live ∧ s.muted = false)

variable {s t : TalkConversation}

lemma Obeys.micClosed (h : s.Obeys) : s.MicClosed := by
  intro hwrites
  rw [writesMic] at hwrites
  split at hwrites
  next c hcapture =>
    obtain ⟨hgated, hruns⟩ := h c hcapture
    simp only [PcmCapture.passes, Bool.and_eq_true, Bool.not_eq_true'] at hwrites
    obtain ⟨⟨hactive, hopen⟩, -⟩ := hwrites
    obtain ⟨hlive, hmuted⟩ := hruns (by simp [PcmCapture.running, hactive])
    exact ⟨by simp [isCapturing, hlive], hmuted, hgated ▸ hopen⟩
  next => cases hwrites

/-- Without a capture nothing is sent. -/
lemma obeys_of_none (h : s.capture = none) : s.Obeys := by
  intro c hc
  cases h.symm.trans hc

/-- A change that leaves the capture alone, and a live session live. -/
lemma Obeys.of_eq (h : s.Obeys) (hcapture : t.capture = s.capture)
    (hgated : t.guard.gated = s.guard.gated) (hmuted : t.muted = s.muted)
    (hlive : s.ctx.phase = .live → t.ctx.phase = .live) : t.Obeys := by
  intro c hc
  obtain ⟨hgate, hruns⟩ := h c (hcapture ▸ hc)
  refine ⟨hgate.trans hgated.symm, fun hrun => ?_⟩
  obtain ⟨hphase, hmute⟩ := hruns hrun
  exact ⟨hlive hphase, hmuted.trans hmute⟩

lemma Obeys.setGuard (h : s.Obeys) (g : SelfAudioGuard) : (s.setGuard g).Obeys := by
  intro c hc
  rw [TalkConversation.setGuard] at hc
  dsimp only at hc
  split_ifs at hc with hsame
  · obtain ⟨hgate, hruns⟩ := h c hc
    exact ⟨hgate.trans hsame.symm, hruns⟩
  · obtain ⟨cap, hcap, hset⟩ := Option.map_eq_some_iff.mp hc
    cases cap with
    | audio _ => cases hset
    | pcm old =>
      cases hset
      exact ⟨rfl, (h old hcap).2⟩

/-- A mute stops the capture; an unmute starts it, and needs a live session. -/
lemma Obeys.setMuted (h : s.Obeys) {muted : Bool}
    (hlive : muted = false → s.capture.isSome = true → s.ctx.phase = .live) :
    (s.setMuted muted).Obeys := by
  intro c hc
  obtain ⟨cap, hcap, hset⟩ := Option.map_eq_some_iff.mp hc
  cases cap with
  | audio _ => cases hset
  | pcm old =>
    cases hset
    refine ⟨(PcmCapture.gated_setMuted old muted).trans (h old hcap).1, fun hrun => ?_⟩
    cases muted with
    | true => simp [PcmCapture.setMuted] at hrun
    | false => exact ⟨hlive rfl (by rw [hcap]; rfl), rfl⟩

lemma Obeys.workletReady (h : s.Obeys) (loaded : Bool) :
    Obeys { s with capture := s.capture.map (Capture.workletReady loaded) } := by
  intro c hc
  obtain ⟨cap, hcap, hready⟩ := Option.map_eq_some_iff.mp hc
  cases cap with
  | audio _ => cases hready
  | pcm old =>
    cases hready
    obtain ⟨hgate, hruns⟩ := h old hcap
    exact ⟨(PcmCapture.gated_workletReady old loaded).trans hgate,
      fun hrun => hruns (PcmCapture.running_workletReady old loaded hrun)⟩

/-- A new capture is ungated and runs. -/
lemma Obeys.attachCapture (h : s.Obeys) (i : Nat) (hopen : s.stream.isSome = true →
    s.ctx.phase = .live ∧ s.muted = false ∧ s.guard.gated = false) :
    (s.attachCapture i).Obeys := by
  intro c hc
  rw [TalkConversation.attachCapture] at hc
  cases hstream : s.stream with
  | none =>
    rw [hstream] at hc
    exact h c hc
  | some stream =>
    obtain ⟨hlive, hmuted, hgated⟩ := hopen (by rw [hstream]; rfl)
    rw [hstream] at hc
    refine ⟨?_, fun _ => ⟨hlive, hmuted⟩⟩
    simp only [newCapture] at hc
    split_ifs at hc
    · cases hc
      exact hgated.symm
    · cases hc

lemma obeys_end : s.end.Obeys := by
  refine obeys_of_none ?_
  change (if _ then none else Option.map _ none) = none
  split_ifs <;> rfl

lemma Obeys.scheduleReconnect (h : s.Obeys) : s.scheduleReconnect.Obeys := by
  rw [TalkConversation.scheduleReconnect]
  split_ifs
  · exact h
  · refine h.of_eq rfl rfl rfl fun hlive => ?_
    rw [dispatch, SessionContext.phase_after_reconnectExhausted, hlive]
    rfl
  · exact h.of_eq rfl rfl rfl id

lemma Obeys.connect (h : s.Obeys) (constructs : Bool) : (s.connect constructs).Obeys := by
  rw [TalkConversation.connect]
  split_ifs
  · exact h.of_eq rfl rfl rfl id
  · exact h.scheduleReconnect

lemma Obeys.proceed (h : s.Obeys) (boot : Boot) : (s.proceed boot).Obeys := by
  rw [TalkConversation.proceed]
  split_ifs with hphase
  · exact h.of_eq rfl rfl rfl id
  · apply Obeys.connect
    refine h.of_eq rfl rfl rfl fun hlive => ?_
    exact absurd (hlive.symm.trans (not_not.mp hphase)) (by decide)

lemma Obeys.onopen (h : s.Obeys) (i : Nat)
    (hopen : s.stream.isSome = true →
      s.ctx.phase.trying = true ∧ s.muted = false ∧ s.guard.gated = false) :
    (s.onopen i).Obeys := by
  rw [TalkConversation.onopen]
  dsimp only
  split_ifs with hrec
  · have hphase : (s.ctx.after .reconnectSucceeded none).phase = .live := by
      rw [SessionContext.phase_after_reconnectSucceeded, if_pos hrec]
    apply Obeys.attachCapture
    · exact h.of_eq rfl rfl rfl fun _ => hphase
    · exact fun hstream => ⟨hphase, (hopen hstream).2⟩
  · have hphase := SessionContext.phase_after_socketOpen s.ctx
    apply Obeys.attachCapture
    · refine h.of_eq rfl rfl rfl fun hlive => ?_
      rw [dispatch, hphase, hlive]
      rfl
    · intro hstream
      obtain ⟨htrying, hrest⟩ := hopen hstream
      refine ⟨hphase.trans ?_, hrest⟩
      revert htrying hrec
      cases s.ctx.phase <;> simp [Phase.trying]

lemma Obeys.handleFrame (h : s.Obeys) {now : Nat} {frame : ServerFrame} :
    (s.handleFrame now frame).Obeys := by
  have hactivity : ∀ {u : TalkConversation} {event : SessionEvent}, u.Obeys →
      event.isActivity = true → (u.dispatch event).Obeys := fun hu hevent =>
    hu.of_eq rfl rfl rfl fun hlive => (SessionContext.phase_after_activity hevent).trans hlive
  cases frame with
  | talkDirection => exact hactivity (h.setGuard _) rfl
  | subtitleInterim => exact hactivity (h.setGuard _) rfl
  | subtitleFinal => exact hactivity (h.setGuard _) rfl
  | balanceExhausted => exact obeys_end
  | error code =>
    rw [TalkConversation.handleFrame]
    split_ifs
    · exact obeys_end
    · exact obeys_end
    · exact h
  | other => exact h

lemma Obeys.start (h : s.Obeys) {sessionId : String} : (s.start sessionId).Obeys := by
  rw [TalkConversation.start]
  split
  next ctx hctx =>
    refine h.of_eq rfl rfl rfl fun hlive => ?_
    have hholds := (SessionContext.start_accepted hctx).1
    rw [hlive] at hholds
    cases hholds
  next => exact h

lemma Obeys.pause (h : s.Obeys) : s.pause.Obeys := by
  rw [TalkConversation.pause]
  split_ifs
  · -- the mute comes before the guard: whatever runs is stopped
    refine Obeys.setGuard ?_ _
    intro c hc
    obtain ⟨cap, hcap, hset⟩ := Option.map_eq_some_iff.mp hc
    cases cap with
    | audio _ => cases hset
    | pcm old =>
      cases hset
      refine ⟨(PcmCapture.gated_setMuted old true).trans (h old hcap).1, fun hrun => ?_⟩
      simp [PcmCapture.setMuted] at hrun
  · exact h

lemma Obeys.resume (h : s.Obeys) : s.resume.Obeys := by
  rw [TalkConversation.resume]
  split_ifs with haccepted
  · have hpaused := SessionContext.resume_accepted.mp haccepted
    have hlive := SessionContext.phase_after_resume hpaused
    apply Obeys.setMuted
    · exact h.of_eq rfl rfl rfl fun _ => hlive
    · exact fun _ _ => hlive
  · exact h

lemma Obeys.setReady (h : s.Obeys) (i : Nat) (k : TalkSocket) (state : ReadyState) :
    (s.setReady i k state).Obeys := h.of_eq rfl rfl rfl id

lemma Obeys.onclose (h : s.Obeys) (i : Nat) : (s.onclose i).Obeys := by
  rw [TalkConversation.onclose]
  split_ifs
  · exact h
  · exact Obeys.scheduleReconnect (obeys_of_none rfl)

/-- **One event** that leaves mute, pause and gate in force. -/
lemma Obeys.step (h : s.Obeys) {e : TalkEvent} (hguard : s.opensInForce e = true)
    (hstep : s.step e = some t) : t.Obeys := by
  cases moves_of_step hstep with
  | start sessionId => exact h.start
  | micGranted pending noisyEnv boot =>
    rw [micGranted]
    dsimp only
    split_ifs
    · exact h.of_eq rfl rfl rfl id
    · apply Obeys.proceed
      exact h.of_eq rfl rfl rfl id
  | micDenied =>
    refine h.of_eq rfl rfl rfl fun hlive => ?_
    rw [micDenied, dispatch, SessionContext.phase_after_micDenied, hlive]
    rfl
  | denoiserReady pending device active boot =>
    rw [denoiserReady]
    apply Obeys.proceed
    exact h.of_eq rfl rfl rfl id
  | pause => exact h.pause
  | resume => exact h.resume
  | setMuted muted =>
    refine h.setMuted fun hmuted hcapture => ?_
    subst hmuted
    rw [Option.isSome_iff_ne_none] at hcapture
    simpa [opensInForce, hcapture] using hguard
  | «end» => exact obeys_end
  | socketOpened i handled hk =>
    split_ifs
    · refine (h.setReady i _ _).onopen i fun hstream => ?_
      have hstream' : s.stream.isSome = true := hstream
      rw [Option.isSome_iff_ne_none] at hstream'
      have hforce : s.ctx.phase.trying = true ∧ s.muted = false ∧ s.guard.gated = false := by
        simpa [opensInForce, hstream', and_assoc] using hguard
      exact hforce
    · exact h.setReady i _ _
  | socketClosed i sock =>
    split_ifs
    · exact (h.setReady i _ _).onclose i
    · exact h.setReady i _ _
  | timerFired constructs =>
    apply Obeys.connect
    exact h.of_eq rfl rfl rfl id
  | workletReady loaded => exact h.workletReady loaded
  | frame i frame now => exact h.handleFrame
  | playback playing now =>
    refine (h.setGuard _).of_eq rfl rfl rfl fun hlive => ?_
    refine (SessionContext.phase_after_activity ?_).trans hlive
    cases playing <;> rfl
  | level loud now => exact h.setGuard _

/-- **The microphone is not sent when it must be closed**, in any state of a run in which no socket
opens for a conversation that is paused, muted or gated, and no session that is not live is
unmuted. -/
theorem micClosed_of_run (mode : GuardMode) {events : List TalkEvent}
    (h : Run (Guarded (ofPartial step) fun s e => s.opensInForce e = true) (new true mode)
      events s) : s.MicClosed := by
  have hobeys : s.Obeys := h.invariant Obeys
    (fun _ _ _ _ hs hstep => hs.step hstep.1 hstep.2) (obeys_of_none rfl)
  exact hobeys.micClosed

/-- A drop, and a reconnect whose capture has its worklet. -/
def dropAndReconnect : List TalkEvent :=
  [.socketClosed 0, .timerFired true, .socketOpened 1, .workletReady true]

/-- The capture of a reconnect sends while the session is paused, while it is muted, and while
translated speech plays. -/
theorem reconnect_forgets :
    (∃ s, Run (ofPartial step) (new true .gate) (goLive ++ [.pause] ++ dropAndReconnect) s ∧
      s.ctx.phase = .paused ∧ ¬ s.MicClosed) ∧
    (∃ s, Run (ofPartial step) (new true .gate) (goLive ++ [.setMuted true] ++ dropAndReconnect)
      s ∧ s.muted = true ∧ ¬ s.MicClosed) ∧
    ∃ s, Run (ofPartial step) (new true .gate) (goLive ++ [.playback true 0] ++ dropAndReconnect)
      s ∧ s.guard.gated = true ∧ ¬ s.MicClosed :=
  ⟨Run.exists_of_decide (by decide), Run.exists_of_decide (by decide),
    Run.exists_of_decide (by decide)⟩

/-- A pause and a drop with nothing in force when the socket opens. -/
theorem micClosed_sample : ∃ s,
    Run (Guarded (ofPartial step) fun s e => s.opensInForce e = true) (new true .gate)
      (goLive ++ [.workletReady true, .pause, .resume] ++ dropAndReconnect) s ∧
    s.writesMic = true ∧ s.MicClosed := by
  obtain ⟨s, hrun, hwrites⟩ : ∃ s,
      Run (Guarded (ofPartial step) fun s e => s.opensInForce e = true) (new true .gate)
        (goLive ++ [.workletReady true, .pause, .resume] ++ dropAndReconnect) s ∧
      s.writesMic = true := Run.exists_guarded_of_decide (by decide)
  exact ⟨s, hrun, hwrites, micClosed_of_run .gate hrun⟩

end VoxTranslate.Client.TalkConversation
