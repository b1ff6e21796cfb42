import VoxTranslate.Engine.Fanout

/-!
# Who writes the transcript

The writer of a turn keeps its claim for as long as its task runs, also while it reconnects.
What it misses nobody writes; and a session that takes the role over writes down whatever it
finalises from then on, also an utterance its predecessor had written.
-/

namespace VoxTranslate.Engine

open Lib

namespace SpeakingTurn

/-- The utterances the transcript has, one entry for each time they were stored. -/
def storedUtterances (s : SpeakingTurn) : List Nat := s.stored.map Prod.snd

/-- Some session has finalised the utterance. -/
def finalised (s : SpeakingTurn) (u : Nat) : Bool := s.finals.any fun f => f.2 = u

/-- Every utterance that is over, worth recording and was finalised is stored exactly once. -/
def StoredOnce (cfg : TurnConfig) (s : SpeakingTurn) : Prop :=
  ∀ u ∈ s.settled, cfg.worthRecording u = true → s.finalised u = true →
    s.storedUtterances.count u = 1

instance (cfg : TurnConfig) (s : SpeakingTurn) : Decidable (s.StoredOnce cfg) :=
  inferInstanceAs (Decidable (∀ u ∈ s.settled, _))

/-- The utterance was finalised by a session, and may yet be by another. -/
def isOpen (cfg : TurnConfig) (s : SpeakingTurn) (u : Nat) : Bool :=
  cfg.worthRecording u && s.finalised u && u ∉ s.settled

/-- A session has finalised every utterance that is open. -/
def caughtUp (cfg : TurnConfig) (s : SpeakingTurn) (id : Uuid) : Bool :=
  s.finals.all fun f => !s.isOpen cfg f.2 || (id, f.2) ∈ s.finals

/-- The session has a live upstream connection. -/
def connected (s : SpeakingTurn) (id : Uuid) : Bool :=
  s.tasks.any fun t => t.id = id && t.phase = .connected

/-- The writer does not lose its connection, nor end, behind the others; while it has no
connection nobody finalises what it has not; and who takes the role over is not behind either. -/
def keepsWriter (cfg : TurnConfig) (s : SpeakingTurn) : TurnAction → Bool
  | .task id ev =>
    !(s.writer.held = some id && (ev = .dropped || ev = .audioClosed)) || s.caughtUp cfg id
  | .recordSegment id u =>
    !cfg.worthRecording u ||
      match s.writer.held with
      | none => !s.finalised u && s.caughtUp cfg id
      | some h => h = id || s.connected h || (h, u) ∈ s.finals
  | _ => true

variable {cfg : TurnConfig} {s s' : SpeakingTurn} {a : TurnAction} {u : Nat} {id h : Uuid}

lemma finalised_iff : s.finalised u = true ↔ ∃ id, (id, u) ∈ s.finals := by
  simp [finalised]

lemma isOpen_iff : s.isOpen cfg u = true ↔
    cfg.worthRecording u = true ∧ s.finalised u = true ∧ u ∉ s.settled := by
  simp [isOpen, and_assoc]

lemma connected_iff : s.connected id = true ↔ ∃ t ∈ s.tasks, t.id = id ∧ t.phase = .connected := by
  simp [connected]

lemma caughtUp_iff : s.caughtUp cfg id = true ↔ ∀ u, s.isOpen cfg u = true → (id, u) ∈ s.finals := by
  simp only [caughtUp, List.all_eq_true, Bool.or_eq_true, Bool.not_eq_true', decide_eq_true_eq]
  constructor
  · intro hall u hopen
    obtain ⟨i, hi⟩ := finalised_iff.mp (isOpen_iff.mp hopen).2.1
    refine (hall (i, u) hi).resolve_left ?_
    simp [hopen]
  · intro hall f _
    by_cases hopen : s.isOpen cfg f.2 = true
    · exact .inr (hall f.2 hopen)
    · exact .inl (by simpa using hopen)

/-- The invariant of the transcript. -/
structure Recorded (cfg : TurnConfig) (s : SpeakingTurn) : Prop where
  numbered : s.Numbered
  /-- What is stored was finalised, and is worth it. -/
  stored : ∀ u ∈ s.storedUtterances, cfg.worthRecording u = true ∧ s.finalised u = true
  /-- Nothing is stored twice. -/
  once : s.storedUtterances.Nodup
  /-- Without a writer, every open utterance is stored. -/
  vacant : s.writer.held = none → ∀ u, s.isOpen cfg u = true → u ∈ s.storedUtterances
  /-- An open utterance is stored once the writer has finalised it, and not before. -/
  held : ∀ h, s.writer.held = some h → ∀ u, s.isOpen cfg u = true →
    (u ∈ s.storedUtterances ↔ (h, u) ∈ s.finals)
  /-- A writer that is behind is connected. -/
  behind : ∀ h, s.writer.held = some h → s.connected h = true ∨ s.caughtUp cfg h = true
  /-- What is over is stored. -/
  settled : ∀ u ∈ s.settled, cfg.worthRecording u = true → s.finalised u = true →
    u ∈ s.storedUtterances

lemma init_recorded : init.Recorded cfg := by
  refine ⟨init_numbered, ?_, List.nodup_nil, ?_, ?_, ?_, ?_⟩ <;>
    simp [init, storedUtterances, isOpen, finalised, SessionClaim.vacant]

lemma Recorded.storedOnce (hs : s.Recorded cfg) : s.StoredOnce cfg := by
  intro u hu hworth hfinal
  exact List.count_eq_one_of_mem hs.once (hs.settled u hu hworth hfinal)

/-- Steps that neither finalise nor settle nor move the claim, and disconnect no writer that is
behind. -/
lemma Recorded.congr (hs : s.Recorded cfg) (hnumbered : s'.Numbered) (hwriter : s'.writer = s.writer)
    (hfinals : s'.finals = s.finals) (hstored : s'.stored = s.stored)
    (hsettled : s'.settled = s.settled)
    (hbehind : ∀ h, s.writer.held = some h → s'.connected h = true ∨ s.caughtUp cfg h = true) :
    s'.Recorded cfg := by
  have hfinalised : s'.finalised = s.finalised := by
    funext u
    rw [finalised, finalised, hfinals]
  have hopen : s'.isOpen cfg = s.isOpen cfg := by
    funext u
    rw [isOpen, isOpen, hfinalised, hsettled]
  have hutterances : s'.storedUtterances = s.storedUtterances := by
    rw [storedUtterances, storedUtterances, hstored]
  have hcaught : s'.caughtUp cfg = s.caughtUp cfg := by
    funext id
    rw [caughtUp, caughtUp, hfinals, hopen]
  refine ⟨hnumbered, ?_, ?_, ?_, ?_, ?_, ?_⟩
  · rw [hutterances, hfinalised]
    exact hs.stored
  · rw [hutterances]
    exact hs.once
  · rw [hwriter, hopen, hutterances]
    exact hs.vacant
  · rw [hwriter, hopen, hutterances, hfinals]
    exact hs.held
  · rw [hwriter, hcaught]
    exact hbehind
  · rw [hsettled, hfinalised, hutterances]
    exact hs.settled

/-! ## What each step keeps -/

/-- A step of one session disconnects no other. -/
lemma connected_setTask {t' : LangTask} (hne : h ≠ t'.id) (hh : s.connected h = true) :
    (s.setTask t').connected h = true := by
  obtain ⟨r, hr, rfl, hphase⟩ := connected_iff.mp hh
  exact connected_iff.mpr ⟨r, Table.mem_update.mpr (.inr ⟨hr, hne⟩), rfl, hphase⟩

/-- A connected session stays so unless its connection drops or its feed is closed. -/
lemma connected_setTask_self {t t' : LangTask} {fed : Bool} {ev : TaskEvent} (ht : t ∈ s.tasks)
    (hphase : t.phase = .connected) (hstep : t.step fed ev = some t') (hev : ev ≠ .dropped)
    (hev' : ev ≠ .audioClosed) : (s.setTask t').connected t.id = true := by
  have hid := (LangTask.step_keys hstep).1
  refine connected_iff.mpr ⟨t', Table.mem_update.mpr (.inl ⟨t, ht, hid.symm, rfl⟩), hid, ?_⟩
  cases ev with
  | openOk | openFailed | wake => simp [LangTask.step, hphase] at hstep
  | forward =>
    simp only [LangTask.step, Option.ite_none_right_eq_some, Option.some.injEq] at hstep
    rw [← hstep.2]
    exact hphase
  | audioClosed => exact absurd rfl hev'
  | dropped => exact absurd rfl hev

lemma Recorded.runTask (hs : s.Recorded cfg) {t t' : LangTask} {ev : TaskEvent} (ht : t ∈ s.tasks)
    (hev : t.step (s.fed t) ev = some t') (hguard : s.keepsWriter cfg (.task t.id ev) = true)
    (hnumbered : (s.runTask t' ev).Numbered) : (s.runTask t' ev).Recorded cfg := by
  have hbehind : ∀ h, s.writer.held = some h →
      (s.setTask t').connected h = true ∨ s.caughtUp cfg h = true := by
    intro h hheld
    rcases hs.behind h hheld with hconn | hcaught
    -- the guard speaks of the writer only, and no other session disconnects it
    · by_cases hid : h = t.id
      · subst hid
        simp only [keepsWriter, hheld, decide_true, Bool.true_and, Bool.or_eq_true, Bool.not_eq_true',
          Bool.or_eq_false_iff, decide_eq_false_iff_not] at hguard
        rcases hguard with ⟨hdropped, hclosed⟩ | hcaught
        · obtain ⟨r, hr, hrid, hphase⟩ := connected_iff.mp hconn
          rw [hs.numbered.eq_of_id hr ht hrid] at hphase
          exact .inl (connected_setTask_self ht hphase hev hdropped hclosed)
        · exact .inr hcaught
      · refine .inl (connected_setTask ?_ hconn)
        rwa [(LangTask.step_keys hev).1]
    · exact .inr hcaught
  rw [SpeakingTurn.runTask] at hnumbered ⊢
  split_ifs at hnumbered ⊢
  · exact hs.congr hnumbered rfl rfl rfl rfl hbehind
  · exact hs.congr hnumbered rfl rfl rfl rfl hbehind

/-- A session that has ended is not connected: if it was the writer, it was not behind. -/
lemma Recorded.giveBack (hs : s.Recorded cfg) {t : LangTask} (ht : t ∈ s.tasks)
    (hlive : t.isLive = false) (hnumbered : (s.giveBack t).Numbered) :
    (s.giveBack t).Recorded cfg := by
  have hwriter : (s.giveBack t).writer = s.writer.release t.id := rfl
  refine ⟨hnumbered, hs.stored, hs.once, ?_, ?_, ?_, hs.settled⟩
  · intro hnone u hopen
    rw [hwriter, SessionClaim.release] at hnone
    split_ifs at hnone with hheld
    -- the writer that has ended is not connected, so it was not behind
    · refine (hs.held t.id hheld u hopen).mpr ?_
      refine caughtUp_iff.mp ((hs.behind t.id hheld).resolve_left fun hconn => ?_) u hopen
      obtain ⟨r, hr, hrid, hphase⟩ := connected_iff.mp hconn
      rw [hs.numbered.eq_of_id hr ht hrid] at hphase
      rw [LangTask.isLive, hphase] at hlive
      cases hlive
    · exact hs.vacant hnone u hopen
  · intro h hheld
    exact hs.held h (SessionClaim.held_release hheld)
  · intro h hheld
    have hne : h ≠ t.id := by
      rintro rfl
      rw [hwriter, SessionClaim.release] at hheld
      split_ifs at hheld with hself
      · cases hheld
      · exact hself hheld
    refine (hs.behind h (SessionClaim.held_release hheld)).imp ?_ id
    intro hconn
    obtain ⟨r, hr, rfl, hphase⟩ := connected_iff.mp hconn
    exact connected_iff.mpr ⟨r, List.mem_filter.mpr ⟨hr, decide_eq_true hne⟩, rfl, hphase⟩

/-- What is finalised after one more final. -/
lemma finalised_record {v : Nat} (hfinals : s'.finals = (id, u) :: s.finals) :
    s'.finalised v = true ↔ v = u ∨ s.finalised v = true := by
  rw [finalised_iff, finalised_iff, hfinals]
  constructor
  · rintro ⟨i, hi⟩
    rcases List.mem_cons.mp hi with heq | hi
    · exact .inl (congrArg Prod.snd heq)
    · exact .inr ⟨i, hi⟩
  · rintro (rfl | ⟨i, hi⟩)
    · exact ⟨id, List.mem_cons_self⟩
    · exact ⟨i, List.mem_cons_of_mem _ hi⟩

/-- What is open after one more final. -/
lemma isOpen_record {v : Nat} (hfinals : s'.finals = (id, u) :: s.finals)
    (hsettled : s'.settled = s.settled) (hopen : s'.isOpen cfg v = true) :
    v = u ∨ s.isOpen cfg v = true := by
  rw [isOpen_iff, finalised_record hfinals, hsettled] at hopen
  obtain ⟨hworth, hfinal, hnot⟩ := hopen
  exact hfinal.imp_right fun hfinal => isOpen_iff.mpr ⟨hworth, hfinal, hnot⟩

/-- A final that nobody records. -/
lemma Recorded.unrecorded (hs : s.Recorded cfg) (hnumbered : s'.Numbered)
    (hsettled : u ∉ s.settled) (hs' : s' = { s with finals := (id, u) :: s.finals })
    (hskip : cfg.worthRecording u = true → ∃ h, s.writer.held = some h ∧ h ≠ id ∧
      (s.connected h = true ∨ (h, u) ∈ s.finals)) : s'.Recorded cfg := by
  have hfinals : s'.finals = (id, u) :: s.finals := by rw [hs']
  have hold : ∀ v, s'.isOpen cfg v = true → (v = u ∧ cfg.worthRecording u = true) ∨
      s.isOpen cfg v = true := by
    intro v hopen
    rcases isOpen_record hfinals (by rw [hs']) hopen with rfl | hopen'
    · exact .inl ⟨rfl, (isOpen_iff.mp hopen).1⟩
    · exact .inr hopen'
  subst hs'
  refine ⟨hnumbered, ?_, hs.once, ?_, ?_, ?_, ?_⟩
  · exact fun v hv => (hs.stored v hv).imp_right fun hfinal => (finalised_record hfinals).mpr (.inr hfinal)
  · intro hnone v hopen
    rcases hold v hopen with ⟨rfl, hworth⟩ | hopen
    · obtain ⟨h, hheld, -⟩ := hskip hworth
      exact absurd (hnone.symm.trans hheld) (by simp)
    · exact hs.vacant hnone v hopen
  · intro h hheld v hopen
    rcases hold v hopen with ⟨rfl, hworth⟩ | hopen
    · obtain ⟨h', hheld', hne, -⟩ := hskip hworth
      cases hheld.symm.trans hheld'
      rw [List.mem_cons, or_iff_right (by simp [hne])]
      by_cases hfinal : s.finalised v = true
      · exact hs.held h hheld v (isOpen_iff.mpr ⟨hworth, hfinal, hsettled⟩)
      · -- the first final of an utterance is not the writer's
        refine iff_of_false (fun hmem => hfinal (hs.stored v hmem).2) fun hmem => ?_
        exact hfinal (finalised_iff.mpr ⟨h, hmem⟩)
    · show v ∈ s.storedUtterances ↔ (h, v) ∈ (id, u) :: s.finals
      rw [hs.held h hheld v hopen, List.mem_cons]
      refine ⟨.inr, ?_⟩
      rintro (heq | hmem)
      · obtain ⟨rfl, rfl⟩ := Prod.mk.injEq .. ▸ heq
        obtain ⟨h', hheld', hne, -⟩ := hskip (isOpen_iff.mp hopen).1
        cases hheld.symm.trans hheld'
        exact absurd rfl hne
      · exact hmem
  · intro h hheld
    rcases hs.behind h hheld with hconn | hcaught
    · exact .inl hconn
    · by_cases hworth : cfg.worthRecording u = true
      · obtain ⟨h', hheld', -, hconn | hmem⟩ := hskip hworth
        · cases hheld.symm.trans hheld'
          exact .inl hconn
        · cases hheld.symm.trans hheld'
          refine .inr (caughtUp_iff.mpr fun v hopen => List.mem_cons_of_mem _ ?_)
          rcases hold v hopen with ⟨rfl, -⟩ | hopen
          · exact hmem
          · exact caughtUp_iff.mp hcaught v hopen
      · refine .inr (caughtUp_iff.mpr fun v hopen => List.mem_cons_of_mem _ ?_)
        rcases hold v hopen with ⟨-, hworth'⟩ | hopen
        · exact absurd hworth' hworth
        · exact caughtUp_iff.mp hcaught v hopen
  · intro v hv hworth hfinal
    rcases (finalised_record hfinals).mp hfinal with rfl | hfinal
    · exact absurd hv hsettled
    · exact hs.settled v hv hworth hfinal

/-- A final that is stored: by the writer, or by a session that takes the vacant role without
being behind. -/
lemma Recorded.recorded (hs : s.Recorded cfg) (hnumbered : s'.Numbered)
    (hconn : s.connected id = true) (hsettled : u ∉ s.settled) (hnew : (id, u) ∉ s.finals)
    (hworth : cfg.worthRecording u = true)
    (hs' : s' = { s with
      finals := (id, u) :: s.finals
      writer := ⟨some id⟩
      stored := (id, u) :: s.stored })
    (hclaim : s.writer.held = some id ∨
      (s.writer.held = none ∧ s.finalised u = false ∧ s.caughtUp cfg id = true)) :
    s'.Recorded cfg := by
  have hfinals : s'.finals = (id, u) :: s.finals := by rw [hs']
  have hold : ∀ v, s'.isOpen cfg v = true → v = u ∨ s.isOpen cfg v = true := fun v hopen =>
    isOpen_record hfinals (by rw [hs']) hopen
  -- the writer has not finalised it before; a new writer finds it never finalised
  have hfresh : u ∉ s.storedUtterances := by
    intro hmem
    rcases hclaim with hheld | ⟨-, hfinal, -⟩
    · refine hnew ((hs.held id hheld u ?_).mp hmem)
      exact isOpen_iff.mpr ⟨hworth, (hs.stored u hmem).2, hsettled⟩
    · rw [(hs.stored u hmem).2] at hfinal
      cases hfinal
  have hutterances : s'.storedUtterances = u :: s.storedUtterances := by
    rw [hs']
    rfl
  have hconn' : s'.connected id = true := by rwa [hs']
  have hwriter : s'.writer.held = some id := by rw [hs']
  have hself : ∀ v, s'.isOpen cfg v = true → (v ∈ s'.storedUtterances ↔ (id, v) ∈ s'.finals) := by
    intro v hopen
    rw [hutterances, hfinals, List.mem_cons, List.mem_cons]
    rcases hold v hopen with rfl | hopen
    · simp
    · rcases hclaim with hheld | ⟨hnone, -, hcaught⟩
      · rw [hs.held id hheld v hopen]
        simp
      · exact iff_of_true (.inr (hs.vacant hnone v hopen))
          (.inr (caughtUp_iff.mp hcaught v hopen))
  refine ⟨hnumbered, ?_, ?_, ?_, ?_, ?_, ?_⟩
  · intro v hv
    rw [hutterances] at hv
    rw [finalised_record hfinals]
    rcases List.mem_cons.mp hv with rfl | hv
    · exact ⟨hworth, .inl rfl⟩
    · exact (hs.stored v hv).imp_right .inr
  · rw [hutterances]
    exact List.nodup_cons.mpr ⟨hfresh, hs.once⟩
  · intro hnone
    rw [hwriter] at hnone
    cases hnone
  · intro h hheld
    cases hwriter.symm.trans hheld
    exact hself
  · intro h hheld
    cases hwriter.symm.trans hheld
    exact .inl hconn'
  · intro v hv hworth' hfinal
    rw [hutterances]
    by_cases hvu : v = u
    · exact hvu ▸ List.mem_cons_self
    · refine List.mem_cons_of_mem _ (hs.settled v (by rwa [hs'] at hv) hworth' ?_)
      exact ((finalised_record hfinals).mp hfinal).resolve_left hvu

lemma Recorded.record (hs : s.Recorded cfg) {t : LangTask} (ht : t ∈ s.tasks)
    (hphase : t.phase = .connected) (hsettled : u ∉ s.settled) (hnew : (t.id, u) ∉ s.finals)
    (hguard : s.keepsWriter cfg (.recordSegment t.id u) = true)
    (hnumbered : (s.record cfg t.id u).Numbered) : (s.record cfg t.id u).Recorded cfg := by
  have hconn : s.connected t.id = true := connected_iff.mpr ⟨t, ht, rfl, hphase⟩
  by_cases hworth : cfg.worthRecording u = true
  · cases hheld : s.writer.held with
    | none =>
      have heq : s.record cfg t.id u = { s with
          finals := (t.id, u) :: s.finals
          writer := ⟨some t.id⟩
          stored := (t.id, u) :: s.stored } := by
        simp [SpeakingTurn.record, hworth, SessionClaim.owns, hheld]
      simp only [keepsWriter, hworth, Bool.not_true, Bool.false_or, hheld, Bool.and_eq_true,
        Bool.not_eq_true'] at hguard
      exact hs.recorded hnumbered hconn hsettled hnew hworth heq (.inr ⟨hheld, hguard⟩)
    | some h =>
      by_cases hid : h = t.id
      · have heq : s.record cfg t.id u = { s with
            finals := (t.id, u) :: s.finals
            writer := ⟨some t.id⟩
            stored := (t.id, u) :: s.stored } := by
          have hclaim : s.writer = ⟨some t.id⟩ := by
            rw [← hid, ← hheld]
          simp [SpeakingTurn.record, hworth, SessionClaim.owns, hclaim]
        exact hs.recorded hnumbered hconn hsettled hnew hworth heq (.inl (hid ▸ hheld))
      · have heq : s.record cfg t.id u = { s with finals := (t.id, u) :: s.finals } := by
          simp [SpeakingTurn.record, hworth, SessionClaim.owns, hheld, hid]
        simp only [keepsWriter, hworth, Bool.not_true, Bool.false_or, hheld, decide_eq_true_eq, hid,
          decide_false, Bool.or_eq_true] at hguard
        exact hs.unrecorded hnumbered hsettled heq fun _ => ⟨h, hheld, hid, hguard⟩
  · have heq : s.record cfg t.id u = { s with finals := (t.id, u) :: s.finals } := by
      simp [SpeakingTurn.record, hworth]
    exact hs.unrecorded hnumbered hsettled heq fun hworth' => absurd hworth' hworth

/-- An utterance is over once every connected session has finalised it; the writer is one of
them, or was not behind. -/
lemma Recorded.settle (hs : s.Recorded cfg)
    (hall : ∀ t ∈ s.tasks, t.phase = .connected → (t.id, u) ∈ s.finals)
    (hnumbered : s'.Numbered) (hs' : s' = { s with settled := u :: s.settled }) :
    s'.Recorded cfg := by
  subst hs'
  have hopen : ∀ v, isOpen cfg { s with settled := u :: s.settled } v = true →
      s.isOpen cfg v = true := by
    intro v hv
    obtain ⟨hworth, hfinal, hnot⟩ := isOpen_iff.mp hv
    exact isOpen_iff.mpr ⟨hworth, hfinal, fun hmem => hnot (List.mem_cons_of_mem _ hmem)⟩
  refine ⟨hnumbered, hs.stored, hs.once, ?_, ?_, ?_, ?_⟩
  · exact fun hnone v hv => hs.vacant hnone v (hopen v hv)
  · exact fun h hheld v hv => hs.held h hheld v (hopen v hv)
  · intro h hheld
    -- fewer utterances are open, so whoever had caught up still has
    refine (hs.behind h hheld).imp id fun hcaught => ?_
    exact caughtUp_iff.mpr fun v hv => caughtUp_iff.mp hcaught v (hopen v hv)
  · intro v hv hworth hfinal
    by_cases hmem : v ∈ s.settled
    · exact hs.settled v hmem hworth hfinal
    · obtain rfl : v = u := (List.mem_cons.mp hv).resolve_right hmem
      have hvopen : s.isOpen cfg v = true := isOpen_iff.mpr ⟨hworth, hfinal, hmem⟩
      cases hheld : s.writer.held with
      | none => exact hs.vacant hheld v hvopen
      | some h =>
        refine (hs.held h hheld v hvopen).mpr ?_
        rcases hs.behind h hheld with hconn | hcaught
        · obtain ⟨t, ht, rfl, hphase⟩ := connected_iff.mp hconn
          exact hall t ht hphase
        · exact caughtUp_iff.mp hcaught v hvopen

lemma Recorded.step (hs : s.Recorded cfg) (hguard : s.keepsWriter cfg a = true)
    (hstep : s.step cfg a = some s') : s'.Recorded cfg := by
  have hnumbered := hs.numbered.step hstep
  cases step_spec hstep with
  | spawn cid lang _ _ =>
    refine hs.congr hnumbered rfl rfl rfl rfl fun h hheld => (hs.behind h hheld).imp ?_ id
    intro hconn
    obtain ⟨t, ht, hid, hphase⟩ := connected_iff.mp hconn
    exact connected_iff.mpr ⟨t, List.mem_cons_of_mem _ ht, hid, hphase⟩
  | chunk cid =>
    refine hs.congr hnumbered rfl rfl rfl rfl fun h hheld => (hs.behind h hheld).imp ?_ id
    intro hconn
    obtain ⟨t, ht, hid, hphase⟩ := connected_iff.mp hconn
    refine connected_iff.mpr ⟨_, List.mem_map_of_mem ht, ?_, ?_⟩
    · exact (congrArg Prod.fst (seat_push s cid t)).trans hid
    · split_ifs
      · rwa [LangTask.push_phase]
      · exact hphase
  | task t t' ev ht hev => exact hs.runTask ht hev hguard hnumbered
  | handBack t ht hlive => exact hs.giveBack ht hlive hnumbered
  | recordSegment t u ht hphase hsettled hnew =>
    exact hs.record ht hphase hsettled hnew hguard hnumbered
  | settle u hall => exact hs.settle hall hnumbered rfl
  | unfeed | release | stop | isPrimary => exact hs.congr hnumbered rfl rfl rfl rfl hs.behind

/-- **Every utterance of a turn is stored exactly once**, in every state of every run in which
the writer is never behind when its connection or its task ends, nobody finalises more than it
has while it has no connection, and nobody takes the role over while behind. -/
theorem stored_once_of_run (cfg : TurnConfig) (as : List TurnAction) (t : SpeakingTurn)
    (hrun : Run (Guarded (Step cfg) fun s a => s.keepsWriter cfg a = true) init as t) :
    t.StoredOnce cfg := by
  have hrecorded : t.Recorded cfg := by
    refine hrun.invariant (Recorded cfg) ?_ init_recorded
    rintro s a - s' hs ⟨hguard, hstep⟩
    exact hs.step hguard hstep
  exact hrecorded.storedOnce

/-- A turn whose every utterance is one word. -/
def oneWordTurn : TurnConfig := ⟨fun _ => "ciao".toList, true⟩

/-- Two languages, of two engines: the writer finalises last, and drops only after that. -/
theorem stored_once_steady :
    ∃ t, Run (Step oneWordTurn) init
        [.spawn 0 "es", .spawn 1 "fr", .task 0 .openOk, .task 1 .openOk,
          .recordSegment 0 0, .recordSegment 1 0, .settle 0,
          .recordSegment 1 1, .recordSegment 0 1, .settle 1, .task 0 .dropped] t ∧
      t.storedUtterances = [1, 0] ∧ t.StoredOnce oneWordTurn := by
  obtain ⟨t, hrun, hstored⟩ : ∃ t, Run (Guarded (Step oneWordTurn) fun s a =>
      s.keepsWriter oneWordTurn a = true) init
      [.spawn 0 "es", .spawn 1 "fr", .task 0 .openOk, .task 1 .openOk,
        .recordSegment 0 0, .recordSegment 1 0, .settle 0,
        .recordSegment 1 1, .recordSegment 0 1, .settle 1, .task 0 .dropped] t ∧
      t.storedUtterances = [1, 0] := Run.exists_guarded_of_decide (by decide +kernel)
  exact ⟨t, hrun.ofGuarded, hstored, stored_once_of_run oneWordTurn _ t hrun⟩

/-- The writer reconnects while the other session finalises: the utterance is lost. -/
theorem utterance_lost :
    ∃ t, Run (Step oneWordTurn) init
        [.spawn 0 "es", .spawn 0 "fr", .task 0 .openOk, .task 1 .openOk,
          .recordSegment 0 0, .recordSegment 1 0, .settle 0, .task 0 .dropped,
          .recordSegment 1 1, .settle 1] t ∧
      t.finalised 1 = true ∧ t.storedUtterances = [0] ∧ ¬ t.StoredOnce oneWordTurn :=
  Run.exists_of_decide (by decide +kernel)

end SpeakingTurn

end VoxTranslate.Engine
