import VoxTranslate.Engine.Fanout

/-!
# Who echoes the speaker

The echo role of an engine is keyed by language.  As long as the sessions of an engine speak
different languages that is as good as keying it by session; a session whose language was
dropped lives on until it has flushed, and the language may be added again meanwhile.
-/

namespace VoxTranslate.Engine

open Lib

namespace SpeakingTurn

/-- No two live sessions of an engine were both told they are primary. -/
def OneEcho (s : SpeakingTurn) : Prop :=
  ∀ t ∈ s.tasks, ∀ t' ∈ s.tasks, t.owner = t'.owner → t.id ∈ s.echoing → t'.id ∈ s.echoing →
    t.id = t'.id

instance (s : SpeakingTurn) : Decidable s.OneEcho :=
  inferInstanceAs (Decidable (∀ t ∈ s.tasks, ∀ t' ∈ s.tasks, _))

/-- A language is added while an old session of it has yet to give its roles back. -/
def respawns (s : SpeakingTurn) : TurnAction → Bool
  | .spawn cid lang => s.tasks.any fun t => t.owner = cid && t.lang = lang
  | _ => false

/-- The echo roles of sessions that all differ in their engine or their language. -/
structure EchoSound (s : SpeakingTurn) : Prop where
  numbered : s.Numbered
  /-- An engine has one session for each language. -/
  langs : ∀ k ∈ s.seats, ∀ k' ∈ s.seats, k.2 = k'.2 → k = k'
  /-- A session that was told it is primary holds the claim of its engine. -/
  echo : ∀ id ∈ s.echoing, ∃ k ∈ s.seats, k.1 = id ∧ (s.primary k.2.1).held = some k.2.2
  /-- A feed is that of the session of its language. -/
  feeds : ∀ cid lang id, (s.feeds cid).lookup lang = some id →
    ∀ k ∈ s.seats, k.2 = (cid, lang) → k.1 = id
  /-- So is the session whose echo a coordinator is about to release. -/
  releasing : ∀ cid lang id, s.releasing cid = some (lang, id) →
    ∀ k ∈ s.seats, k.2 = (cid, lang) → k.1 = id

variable {cfg : TurnConfig} {s s' : SpeakingTurn} {a : TurnAction}

lemma init_echoSound : init.EchoSound :=
  ⟨init_numbered, by simp [init, seats], by simp [init], by simp [init], by simp [init]⟩

lemma mem_seats {t : LangTask} (h : t ∈ s.tasks) : seat t ∈ s.seats := List.mem_map_of_mem h

/-- **One engine has one echo** as long as its sessions differ in language. -/
lemma EchoSound.oneEcho (h : s.EchoSound) : s.OneEcho := by
  intro t ht t' ht' howner hecho hecho'
  have hclaim : ∀ r ∈ s.tasks, r.id ∈ s.echoing → (s.primary r.owner).held = some r.lang := by
    intro r hr hmem
    obtain ⟨k, hk, hid, hheld⟩ := h.echo r.id hmem
    obtain ⟨q, hq, rfl⟩ := List.mem_map.mp hk
    rw [h.numbered.eq_of_id hr hq hid.symm]
    exact hheld
  -- both hold the one claim of their engine, which names a language
  have hlang : t.lang = t'.lang := by
    have h₁ := hclaim t ht hecho
    have h₂ := hclaim t' ht' hecho'
    rw [howner, h₂, Option.some_inj] at h₁
    exact h₁.symm
  have hseat := h.langs _ (mem_seats ht) _ (mem_seats ht') (Prod.ext howner hlang)
  exact congrArg Prod.fst hseat

/-- Releasing the echo of one session leaves the claims of the others alone, when no other
session of its engine speaks its language. -/
lemma echo_letGo (hecho : ∀ id ∈ s.echoing, ∃ k ∈ s.seats, k.1 = id ∧ (s.primary k.2.1).held = some k.2.2)
    {cid : Uuid} {lang : String} {id : Uuid}
    (honly : ∀ k ∈ s.seats, k.2 = (cid, lang) → k.1 = id) {i : Uuid}
    (hi : i ∈ (s.letGo cid lang id).echoing) :
    i ≠ id ∧ ∃ k ∈ s.seats, k.1 = i ∧ ((s.letGo cid lang id).primary k.2.1).held = some k.2.2 := by
  obtain ⟨hi, hne⟩ := List.mem_filter.mp hi
  rw [decide_eq_true_eq] at hne
  obtain ⟨k, hk, rfl, hheld⟩ := hecho i hi
  refine ⟨hne, k, hk, rfl, ?_⟩
  simp only [letGo, Function.update_apply]
  split_ifs with hcid
  · subst hcid
    refine SessionClaim.held_release_of_ne hheld fun hlang => ?_
    exact hne (honly k hk (Prod.ext rfl hlang))
  · exact hheld

/-- The session of a seat is the only one of its language. -/
lemma EchoSound.only (h : s.EchoSound) {t : LangTask} (ht : t ∈ s.tasks) :
    ∀ k ∈ s.seats, k.2 = (t.owner, t.lang) → k.1 = t.id := fun k hk heq =>
  congrArg Prod.fst (h.langs k hk _ (mem_seats ht) heq)

/-- Steps that change no seat, feed or claim. -/
lemma EchoSound.congr (h : s.EchoSound) (hnumbered : s'.Numbered) (hseats : s'.seats = s.seats)
    (hfeeds : s'.feeds = s.feeds) (hreleasing : s'.releasing = s.releasing)
    (hecho : ∀ id ∈ s'.echoing, ∃ k ∈ s.seats, k.1 = id ∧ (s'.primary k.2.1).held = some k.2.2) :
    s'.EchoSound where
  numbered := hnumbered
  langs := by
    rw [hseats]
    exact h.langs
  echo := by
    rw [hseats]
    exact hecho
  feeds := by
    rw [hseats, hfeeds]
    exact h.feeds
  releasing := by
    rw [hseats, hreleasing]
    exact h.releasing

/-! ## What each step keeps -/

/-- A session in a language nobody else has. -/
lemma EchoSound.spawn (h : s.EchoSound) {cid : Uuid} {lang : String} (hidle : s.idle cid = true)
    (hnone : ∀ k ∈ s.seats, k.2 ≠ (cid, lang)) (hnumbered : (s.spawn cid lang).Numbered) :
    (s.spawn cid lang).EchoSound := by
  refine ⟨hnumbered, ?_, ?_, ?_, ?_⟩
  · intro k hk k' hk' heq
    rcases List.mem_cons.mp hk with rfl | hk <;> rcases List.mem_cons.mp hk' with rfl | hk'
    · rfl
    · exact absurd heq.symm (hnone k' hk')
    · exact absurd heq (hnone k hk)
    · exact h.langs k hk k' hk' heq
  · intro id hid
    obtain ⟨k, hk, hkid⟩ := h.echo id hid
    exact ⟨k, List.mem_cons_of_mem _ hk, hkid⟩
  · intro cid' lang' id hid k hk heq
    by_cases hfeed : cid' = cid ∧ lang' = lang
    · obtain ⟨rfl, rfl⟩ := hfeed
      have hnew : s.nextTask = id := by simpa [SpeakingTurn.spawn] using hid
      rcases List.mem_cons.mp hk with rfl | hk
      · exact hnew
      · exact absurd heq (hnone k hk)
    · -- the feed of another engine or language is the one it was
      have hold : (s.feeds cid').lookup lang' = some id := by
        simp only [SpeakingTurn.spawn, Function.update_apply] at hid
        split_ifs at hid with hcid
        · subst hcid
          rwa [AList.lookup_insert_ne fun hlang => hfeed ⟨rfl, hlang⟩] at hid
        · exact hid
      rcases List.mem_cons.mp hk with rfl | hk
      · rw [seat, Prod.mk.injEq] at heq
        exact absurd ⟨heq.1.symm, heq.2.symm⟩ hfeed
      · exact h.feeds cid' lang' id hold k hk heq
  · intro cid' lang' id hid k hk heq
    rcases List.mem_cons.mp hk with rfl | hk
    · -- a coordinator that is about to release adds nothing
      have hcid : cid = cid' := congrArg Prod.fst heq
      subst hcid
      rw [idle, Bool.and_eq_true, Option.isNone_iff_eq_none] at hidle
      exact absurd (hidle.2.symm.trans hid) (by simp)
    · exact h.releasing cid' lang' id hid k hk heq

lemma EchoSound.unfeed (h : s.EchoSound) {cid : Uuid} {lang : String} {id : Uuid}
    (hid : (s.feeds cid).lookup lang = some id) (hnumbered : s'.Numbered)
    (hs' : s' = { s with
      feeds := Function.update s.feeds cid ((s.feeds cid).erase lang)
      releasing := Function.update s.releasing cid (some (lang, id)) }) : s'.EchoSound := by
  subst hs'
  refine ⟨hnumbered, h.langs, h.echo, ?_, ?_⟩
  · intro cid' lang' id' hid'
    simp only [Function.update_apply] at hid'
    split_ifs at hid' with hcid
    · subst hcid
      by_cases hlang : lang' = lang
      · subst hlang
        rw [AList.lookup_erase] at hid'
        cases hid'
      · rw [AList.lookup_erase_ne hlang] at hid'
        exact h.feeds cid' lang' id' hid'
    · exact h.feeds cid' lang' id' hid'
  · intro cid' lang' id' hid'
    simp only [Function.update_apply] at hid'
    split_ifs at hid' with hcid
    · subst hcid
      cases hid'
      exact h.feeds cid' lang id hid
    · exact h.releasing cid' lang' id' hid'

/-- A coordinator releases the echo of the session it has dropped. -/
lemma EchoSound.release (h : s.EchoSound) {cid : Uuid} {lang : String} {id : Uuid}
    (hid : s.releasing cid = some (lang, id)) (hnumbered : s'.Numbered)
    (hs' : s' = { s.letGo cid lang id with releasing := Function.update s.releasing cid none }) :
    s'.EchoSound := by
  subst hs'
  -- whoever still echoes is another session, and of another language
  refine ⟨hnumbered, h.langs, fun i hi => ?_, h.feeds, ?_⟩
  · exact (echo_letGo h.echo (h.releasing cid lang id hid) hi).2
  · intro cid' lang' id' hid'
    simp only [Function.update_apply] at hid'
    split_ifs at hid' with hcid
    exact h.releasing cid' lang' id' hid'

lemma EchoSound.stop (h : s.EchoSound) (cid : Uuid) (hnumbered : s'.Numbered)
    (hs' : s' = { s with
      feeds := Function.update s.feeds cid ∅
      stopped := Function.update s.stopped cid true }) : s'.EchoSound := by
  subst hs'
  refine ⟨hnumbered, h.langs, h.echo, ?_, h.releasing⟩
  intro cid' lang' id' hid'
  simp only [Function.update_apply] at hid'
  split_ifs at hid' with hcid
  · rw [AList.lookup_empty] at hid'
    cases hid'
  · exact h.feeds cid' lang' id' hid'

lemma EchoSound.giveBack (h : s.EchoSound) {t : LangTask} (ht : t ∈ s.tasks)
    (hnumbered : (s.giveBack t).Numbered) : (s.giveBack t).EchoSound := by
  -- the session that leaves is the only one of its language, so no claim of another goes with it
  have hmem : ∀ k ∈ (s.giveBack t).seats, k ∈ s.seats := by
    intro k hk
    obtain ⟨r, hr, rfl⟩ := List.mem_map.mp hk
    exact mem_seats (List.mem_of_mem_filter hr)
  refine ⟨hnumbered, ?_, ?_, ?_, ?_⟩
  · exact fun k hk k' hk' => h.langs k (hmem k hk) k' (hmem k' hk')
  · intro i hi
    obtain ⟨hne, k, hk, rfl, hheld⟩ := echo_letGo h.echo (h.only ht) hi
    refine ⟨k, ?_, rfl, hheld⟩
    obtain ⟨r, hr, rfl⟩ := List.mem_map.mp hk
    exact List.mem_map_of_mem (List.mem_filter.mpr ⟨hr, decide_eq_true hne⟩)
  · exact fun cid lang id hid k hk => h.feeds cid lang id hid k (hmem k hk)
  · exact fun cid lang id hid k hk => h.releasing cid lang id hid k (hmem k hk)

/-- A session that asks is told so only if it holds the claim; the holder stays the holder. -/
lemma EchoSound.askPrimary (h : s.EchoSound) {t : LangTask} (ht : t ∈ s.tasks)
    (hnumbered : (s.askPrimary t).Numbered) : (s.askPrimary t).EchoSound := by
  refine h.congr hnumbered rfl rfl rfl fun id hid => ?_
  have hprimary : ∀ cid, (s.askPrimary t).primary cid =
      if cid = t.owner then ((s.primary t.owner).owns t.lang).1 else s.primary cid := by
    intro cid
    simp only [SpeakingTurn.askPrimary, Function.update_apply]
  simp only [SpeakingTurn.askPrimary] at hid
  by_cases hmem : id ∈ s.echoing
  · obtain ⟨k, hk, hkid, hheld⟩ := h.echo id hmem
    refine ⟨k, hk, hkid, ?_⟩
    rw [hprimary]
    split_ifs with howner
    · rw [howner] at hheld
      rw [SessionClaim.owns_of_held hheld, hheld]
    · exact hheld
  · split_ifs at hid with hmine
    · obtain rfl : id = t.id := (List.mem_cons.mp hid).resolve_right hmem
      refine ⟨seat t, mem_seats ht, rfl, ?_⟩
      rw [hprimary, if_pos (show (seat t).2.1 = t.owner from rfl)]
      exact SessionClaim.owns_iff.mp hmine
    · exact absurd hid hmem

lemma EchoSound.step (h : s.EchoSound) (hguard : s.respawns a = false)
    (hstep : s.step cfg a = some s') : s'.EchoSound := by
  have hnumbered := h.numbered.step hstep
  cases step_spec hstep with
  | spawn cid lang hidle _ =>
    refine h.spawn hidle (fun k hk heq => ?_) hnumbered
    obtain ⟨t, ht, rfl⟩ := List.mem_map.mp hk
    rw [seat, Prod.mk.injEq] at heq
    rw [respawns, List.any_eq_false] at hguard
    exact hguard t ht (by simp [heq.1, heq.2])
  | unfeed cid lang id hid => exact h.unfeed hid hnumbered rfl
  | release cid lang id hid => exact h.release hid hnumbered rfl
  | chunk cid =>
    refine h.congr hnumbered ?_ rfl rfl h.echo
    rw [seats, seats, List.map_map]
    exact List.map_congr_left fun r _ => seat_push s cid r
  | stop cid => exact h.stop cid hnumbered rfl
  | task t t' ev ht hev =>
    have hseats : (s.runTask t' ev).seats = s.seats := by
      rw [seats, tasks_runTask]
      exact seats_setTask h.numbered ht (seat_step hev)
    -- a dropped connection releases the echo of its own session
    have honly : ∀ k ∈ s.seats, k.2 = (t'.owner, t'.lang) → k.1 = t'.id := by
      obtain ⟨hid, howner, hlang⟩ := LangTask.step_keys hev
      rw [hid, howner, hlang]
      exact h.only ht
    rw [runTask] at hnumbered hseats ⊢
    split_ifs at hnumbered hseats ⊢
    · exact h.congr hnumbered hseats rfl rfl fun i hi => (echo_letGo h.echo honly hi).2
    · exact h.congr hnumbered hseats rfl rfl h.echo
  | handBack t ht _ => exact h.giveBack ht hnumbered
  | isPrimary t ht _ => exact h.askPrimary ht hnumbered
  | recordSegment t u _ _ _ _ =>
    have hsame : (s.record cfg t.id u).feeds = s.feeds ∧
        (s.record cfg t.id u).releasing = s.releasing ∧
        (s.record cfg t.id u).echoing = s.echoing ∧
        (s.record cfg t.id u).primary = s.primary := by
      rw [record]
      split <;> exact ⟨rfl, rfl, rfl, rfl⟩
    obtain ⟨hfeeds, hreleasing, hechoing, hprimary⟩ := hsame
    refine h.congr hnumbered ?_ hfeeds hreleasing ?_
    · rw [seats, tasks_record, seats]
    · rw [hechoing, hprimary]
      exact h.echo
  | settle u _ => exact h.congr hnumbered rfl rfl rfl h.echo

/-- **At most one session of an engine is told it echoes**, in every state of every run in
which no language is added while an old session of it lives on. -/
theorem one_echo_of_run (cfg : TurnConfig) (as : List TurnAction) (t : SpeakingTurn)
    (hrun : Run (Guarded (Step cfg) fun s a => (!s.respawns a) = true) init as t) : t.OneEcho := by
  have hsound : t.EchoSound := by
    refine hrun.invariant EchoSound ?_ init_echoSound
    rintro s a - s' hs ⟨hguard, hstep⟩
    exact hs.step (by simpa using hguard) hstep
  exact hsound.oneEcho

/-- A turn where nothing is written down. -/
def silentTurn : TurnConfig := ⟨fun _ => [], false⟩

/-- A language leaves while its session is connected, comes back once the session is gone, and
its new session takes the role. -/
theorem one_echo_handed_on :
    ∃ t, Run (Step silentTurn) init
        [.spawn 0 "es", .task 0 .openOk, .isPrimary 0, .unfeed 0 "es", .release 0,
          .task 0 .audioClosed, .handBack 0, .spawn 0 "es", .task 1 .openOk, .isPrimary 1] t ∧
      t.echoing = [1] ∧ t.OneEcho := by
  obtain ⟨t, hrun, hecho⟩ : ∃ t, Run (Guarded (Step silentTurn) fun s a =>
      (!s.respawns a) = true) init
      [.spawn 0 "es", .task 0 .openOk, .isPrimary 0, .unfeed 0 "es", .release 0,
        .task 0 .audioClosed, .handBack 0, .spawn 0 "es", .task 1 .openOk, .isPrimary 1] t ∧
      t.echoing = [1] := Run.exists_guarded_of_decide (by decide +kernel)
  exact ⟨t, hrun.ofGuarded, hecho, one_echo_of_run silentTurn _ t hrun⟩

/-- A language leaves and comes back while its old session still has events to handle: both
sessions are told they are primary. -/
theorem two_echoes :
    ∃ t, Run (Step silentTurn) init
        [.spawn 0 "es", .task 0 .openOk, .isPrimary 0, .unfeed 0 "es", .release 0, .spawn 0 "es",
          .task 1 .openOk, .isPrimary 1, .isPrimary 0] t ∧
      t.echoing = [0, 1] ∧ t.tasks.map LangTask.id = [1, 0] ∧ ¬ t.OneEcho :=
  Run.exists_of_decide (by decide +kernel)

end SpeakingTurn

end VoxTranslate.Engine
