import VoxTranslate.Engine.Pool

/-!
# Sessions follow the room

What a reconcile tick reaches, and what is left of a turn after its speaker has stopped: over
every interleaving of the rooms, the coordinators and their tasks.
-/

namespace VoxTranslate.Engine

open Lib Rooms

namespace EnginePool

/-! ## The reconcile tick -/

/-- A session of the language is running and fed. -/
def Served (s : EnginePool) (cid : Uuid) (lang : String) : Prop :=
  ∃ t ∈ s.tasks, t.owner = cid ∧ t.lang = lang ∧ t.isLive = true ∧ s.fed t = true

/-- The session of the language gave up on its upstream, and its feed is still in the map. -/
def GaveUp (s : EnginePool) (cid : Uuid) (lang : String) : Prop :=
  ∃ t ∈ s.tasks, t.owner = cid ∧ t.lang = lang ∧ t.phase = .gaveUp ∧ s.fed t = true

instance (s : EnginePool) (cid : Uuid) (lang : String) : Decidable (s.Served cid lang) :=
  inferInstanceAs (Decidable (∃ t ∈ s.tasks, _))

instance (s : EnginePool) (cid : Uuid) (lang : String) : Decidable (s.GaveUp cid lang) :=
  inferInstanceAs (Decidable (∃ t ∈ s.tasks, _))

section Tick

variable {total : Nat} {s s' : EnginePool} {kind : EngineKind} {cid : Uuid} {c : Coordinator}

/-- Whether a task is fed is read off the map of its coordinator. -/
lemma fed_iff (hc : s.running cid = some c) {t : LangTask} (ht : t.owner = cid) :
    s.fed t = true ↔ c.active.lookup t.lang = some t.id := by
  rw [fed, ht, (running_eq_some.mp hc).1]
  simp

/-- **With enough permits every language gets a session**, and the others keep theirs. -/
lemma addLangs_spec (langs : List String) (hc : s.running cid = some c)
    (hroom : langs.length ≤ s.available) :
    ∃ c', (addLangs cid langs s).running cid = some c' ∧
      (∀ lang ∈ langs, ∃ t ∈ (addLangs cid langs s).tasks, t.owner = cid ∧ t.lang = lang ∧
        t.isLive = true ∧ c'.active.lookup lang = some t.id) ∧
      (∀ lang ∉ langs, c'.active.lookup lang = c.active.lookup lang) ∧
      ∀ t ∈ s.tasks, t ∈ (addLangs cid langs s).tasks := by
  induction langs generalizing s c with
  | nil => exact ⟨c, hc, by simp, fun _ _ => rfl, fun _ ht => ht⟩
  | cons lang langs ih =>
    rw [List.length_cons] at hroom
    have hpos : s.available ≠ 0 := by omega
    have hroom' : langs.length ≤ (s.spawnLang cid lang).available := by
      show langs.length ≤ s.available - 1
      omega
    rw [addLangs, if_neg hpos]
    obtain ⟨c', hc', hadded, hkept, htasks⟩ := ih (running_spawnLang hc lang) hroom'
    refine ⟨c', hc', ?_, ?_, ?_⟩
    · intro lang' hmem
      by_cases hlater : lang' ∈ langs
      · exact hadded lang' hlater
      · -- no later spawn replaces the feed of this one
        have hlang : lang' = lang := (List.mem_cons.mp hmem).resolve_right hlater
        subst hlang
        have hfeed := hkept lang' hlater
        rw [AList.lookup_insert] at hfeed
        exact ⟨_, htasks _ List.mem_cons_self, rfl, rfl, rfl, hfeed⟩
    · intro lang' hmem
      rw [List.mem_cons, not_or] at hmem
      rw [hkept lang' hmem.2]
      exact AList.lookup_insert_ne hmem.1
    · intro t ht
      exact htasks t (List.mem_cons_of_mem _ ht)

/-- **The tick law.**  Right after a tick with enough permits, a language is served exactly
when it is wanted and its session has not given up. -/
theorem Sound.served_tick (h : s.Sound total) (hc : s.running cid = some c)
    (hroom : (reconcileLangs c.active.keys (s.wanted kind c.ctx)).2.length ≤ s.available)
    (hstep : s.step kind (.tick cid) = some s') (lang : String) :
    s'.Served cid lang ↔ lang ∈ s.wanted kind c.ctx ∧ ¬ s.GaveUp cid lang := by
  have hs' := h.step hstep
  simp only [EnginePool.step, hc, Option.map_some, Option.some.injEq] at hstep
  obtain ⟨c', hc', hadded, hkept, htasks⟩ := addLangs_spec
    (reconcileLangs c.active.keys (s.wanted kind c.ctx)).2
    (running_setActive hc fun active =>
      active.eraseAll (reconcileLangs c.active.keys (s.wanted kind c.ctx)).1) hroom
  rw [hstep] at hc' hadded htasks
  simp only [reconcileLangs, List.mem_filter, decide_eq_true_eq, Assoc.lookup_eraseAll]
    at hadded hkept
  have hgaveUp : ∀ t ∈ s.tasks, t.owner = cid → t.lang = lang → t.phase = .gaveUp →
      c.active.lookup lang = some t.id → s.GaveUp cid lang := by
    intro t ht howner hlang hphase hlook
    exact ⟨t, ht, howner, hlang, hphase, (fed_iff hc howner).mpr (hlang ▸ hlook)⟩
  by_cases hactive : lang ∈ c.active
  · -- the language had a feed: it keeps it exactly when it is wanted
    obtain ⟨id, hid⟩ := Option.isSome_iff_exists.mp (AList.lookup_isSome.mpr hactive)
    obtain ⟨t, ht, rfl, howner, hlang⟩ :=
      h.feeds cid c lang id (running_eq_some.mp hc).1 hid
    have hlook := hkept lang fun hmem => hmem.2 hactive
    by_cases hwant : lang ∈ s.wanted kind c.ctx
    · rw [if_neg fun hmem => hmem.2 hwant, hid] at hlook
      have hfed' : s'.fed t = true := (fed_iff hc' howner).mpr (hlang ▸ hlook)
      constructor
      · rintro ⟨r, hr, hrowner, hrlang, hrlive, hrfed⟩
        refine ⟨hwant, ?_⟩
        rintro ⟨q, hq, hqowner, hqlang, hqphase, hqfed⟩
        -- the map holds one task for the language, so the two are the same
        have hrid := (fed_iff hc' hrowner).mp hrfed
        have hqid := (fed_iff hc hqowner).mp hqfed
        rw [hrlang, hlook, Option.some.injEq] at hrid
        rw [hqlang, hid, Option.some.injEq] at hqid
        have hsame : r = q := List.inj_on_of_nodup_map hs'.ids_nodup hr (htasks q hq)
          (hrid.symm.trans hqid)
        rw [hsame, LangTask.isLive, hqphase] at hrlive
        cases hrlive
      · rintro ⟨-, hnot⟩
        refine ⟨t, htasks t ht, howner, hlang, ?_, hfed'⟩
        have hfed : s.fed t = true := (fed_iff hc howner).mpr (hlang ▸ hid)
        cases hphase : t.phase with
        | connecting | connected | backoff => rw [LangTask.isLive, hphase]
        | gaveUp => exact absurd (hgaveUp t ht howner hlang hphase hid) hnot
        | finished =>
          rw [h.finished t ht hphase] at hfed
          cases hfed
    · rw [if_pos ⟨hactive, hwant⟩] at hlook
      refine iff_of_false ?_ fun hwanted => hwant hwanted.1
      rintro ⟨r, -, hrowner, hrlang, -, hrfed⟩
      have hrid := (fed_iff hc' hrowner).mp hrfed
      rw [hrlang, hlook] at hrid
      cases hrid
  · -- the language had no feed: it gets one exactly when it is wanted
    have hnone : c.active.lookup lang = none := AList.lookup_eq_none.mpr hactive
    have hnot : ¬ s.GaveUp cid lang := by
      rintro ⟨q, -, hqowner, hqlang, -, hqfed⟩
      have hqid := (fed_iff hc hqowner).mp hqfed
      rw [hqlang, hnone] at hqid
      cases hqid
    by_cases hwant : lang ∈ s.wanted kind c.ctx
    · obtain ⟨t, ht, howner, hlang, hlive, hlook⟩ := hadded lang ⟨hwant, hactive⟩
      refine iff_of_true ⟨t, ht, howner, hlang, hlive, ?_⟩ ⟨hwant, hnot⟩
      exact (fed_iff hc' howner).mpr (hlang ▸ hlook)
    · refine iff_of_false ?_ fun hwanted => hwant hwanted.1
      rintro ⟨r, -, hrowner, hrlang, -, hrfed⟩
      have hlook := hkept lang fun hmem => hwant hmem.1
      rw [if_neg fun hmem => hactive hmem.1, hnone] at hlook
      have hrid := (fed_iff hc' hrowner).mp hrfed
      rw [hrlang, hlook] at hrid
      cases hrid

end Tick

/-! ## After the speaker has stopped -/

/-- The speaker of the turn has stopped. -/
def Stopped (s : EnginePool) (cid : Uuid) : Prop :=
  ∃ c, s.coordinators.lookup cid = some c ∧ c.stopped = true

/-- The steps the tasks of a coordinator can still take once it has stopped. -/
def remaining (s : EnginePool) (cid : Uuid) : Nat :=
  ((s.tasks.filter fun t => t.owner = cid).map LangTask.remaining).sum

section Stop

variable {total : Nat} {s s' : EnginePool} {kind : EngineKind} {cid : Uuid}

lemma Stopped.running (h : s.Stopped cid) : s.running cid = none := by
  obtain ⟨c, hc, hstopped⟩ := h
  rw [EnginePool.running, hc, Option.filter_some, hstopped]
  rfl

/-- No task of a coordinator that has stopped is fed. -/
lemma Sound.unfed (h : s.Sound total) (hstop : s.Stopped cid) {t : LangTask} (ht : t.owner = cid) :
    s.fed t = false := by
  obtain ⟨c, hc, hstopped⟩ := hstop
  rw [fed, ht, hc, Option.any_some, h.stopped cid c hc hstopped, AList.lookup_empty]
  rfl

/-- Spawning for one turn leaves the others alone. -/
lemma addLangs_other {cid' : Uuid} (hne : cid ≠ cid') (langs : List String) (s : EnginePool) :
    (addLangs cid' langs s).coordinators.lookup cid = s.coordinators.lookup cid ∧
      (addLangs cid' langs s).tasks.filter (fun t => t.owner = cid) =
        s.tasks.filter fun t => t.owner = cid := by
  induction langs generalizing s with
  | nil => exact ⟨rfl, rfl⟩
  | cons lang langs ih =>
    rw [addLangs]
    split_ifs
    · exact ⟨rfl, rfl⟩
    · obtain ⟨hcoord, htasks⟩ := ih (s.spawnLang cid' lang)
      constructor
      · rw [hcoord, spawnLang, lookup_alter, if_neg hne]
      · rw [htasks, spawnLang, List.filter_cons_of_neg (by simpa using hne.symm)]

/-- **A turn that has stopped is touched by its own tasks only.** -/
lemma Stopped.other (hstop : s.Stopped cid) {a : PoolAction} (hstep : s.step kind a = some s')
    (ha : ∀ id ev, a ≠ .task id ev) :
    s'.coordinators.lookup cid = s.coordinators.lookup cid ∧
      s'.tasks.filter (fun t => t.owner = cid) = s.tasks.filter fun t => t.owner = cid := by
  have hnotRunning : ∀ {cid' c}, s.running cid' = some c → cid ≠ cid' := by
    rintro cid' c hc rfl
    rw [hstop.running] at hc
    cases hc
  cases a with
  | room a =>
    cases hstep
    exact ⟨rfl, rfl⟩
  | start cid' ctx =>
    simp only [EnginePool.step] at hstep
    split_ifs at hstep with hnew hfull
    · cases hstep
      exact ⟨rfl, rfl⟩
    · cases hstep
      obtain ⟨c, hc, -⟩ := hstop
      have hne : cid ≠ cid' := by
        rintro rfl
        exact absurd (hc.symm.trans (not_not.mp hnew)) (by simp)
      obtain ⟨hcoord, htasks⟩ := addLangs_other hne (s.wanted kind ctx)
        { s with coordinators := s.coordinators.alter cid' fun _ => some ⟨ctx, ∅, false⟩ }
      refine ⟨?_, htasks⟩
      rw [hcoord, lookup_alter, if_neg hne]
  | tick cid' =>
    obtain ⟨c, hc, rfl⟩ := Option.map_eq_some_iff.mp hstep
    have hne := hnotRunning hc
    obtain ⟨hcoord, htasks⟩ := addLangs_other hne (reconcileLangs c.active.keys (s.wanted kind c.ctx)).2
      (s.setActive cid' fun active =>
        active.eraseAll (reconcileLangs c.active.keys (s.wanted kind c.ctx)).1)
    refine ⟨?_, htasks⟩
    refine hcoord.trans ?_
    rw [setActive, lookup_alter, if_neg hne]
  | chunk cid' =>
    obtain ⟨c, hc, rfl⟩ := Option.map_eq_some_iff.mp hstep
    have hne := hnotRunning hc
    refine ⟨rfl, ?_⟩
    refine Table.filter_map_of_fixed (fun t => ?_) fun t ht => ?_
    · split_ifs
      · exact t.push_owner
      · rfl
    · rw [if_neg]
      simp [ht, hne]
  | stop cid' =>
    obtain ⟨c, hc, rfl⟩ := Option.map_eq_some_iff.mp hstep
    refine ⟨?_, rfl⟩
    rw [lookup_alter, if_neg (hnotRunning hc)]
  | task id ev => exact absurd rfl (ha id ev)

/-- What a task's step does to the tasks and the coordinators. -/
lemma Sound.step_task (h : s.Sound total) {id : Uuid} {ev : TaskEvent}
    (hstep : s.step kind (.task id ev) = some s') :
    ∃ t t' l₁ l₂, t.id = id ∧ t.step (s.fed t) ev = some t' ∧ s.tasks = l₁ ++ t :: l₂ ∧
      s'.tasks = l₁ ++ t' :: l₂ ∧ s'.coordinators = s.coordinators := by
  obtain ⟨t, hget, hstep⟩ := Option.bind_eq_some_iff.mp hstep
  obtain ⟨t', hstep', rfl⟩ := Option.map_eq_some_iff.mp hstep
  have hid : t.id = id := Table.key_of_get hget
  obtain ⟨l₁, l₂, htasks, hupd⟩ := h.tasks_eq (hid ▸ hget) hstep'
  refine ⟨t, t', l₁, l₂, hid, hstep', htasks, ?_, ?_⟩
  · rw [← hupd]
    dsimp only
    split_ifs <;> rfl
  · dsimp only
    split_ifs <;> rfl

/-- A speaker that has stopped stays so. -/
lemma Stopped.step (h : s.Sound total) (hstop : s.Stopped cid) {a : PoolAction}
    (hstep : s.step kind a = some s') : s'.Stopped cid := by
  have hcoord : s'.coordinators.lookup cid = s.coordinators.lookup cid := by
    by_cases ha : ∃ id ev, a = .task id ev
    · obtain ⟨id, ev, rfl⟩ := ha
      obtain ⟨t, t', l₁, l₂, -, -, -, -, hcoord⟩ := h.step_task hstep
      rw [hcoord]
    · push Not at ha
      exact (hstop.other hstep ha).1
  obtain ⟨c, hc, hstopped⟩ := hstop
  exact ⟨c, hcoord.trans hc, hstopped⟩

/-- **No step gives a turn that has stopped more to do.** -/
lemma Stopped.remaining_le (h : s.Sound total) (hstop : s.Stopped cid) {a : PoolAction}
    (hstep : s.step kind a = some s') : s'.remaining cid ≤ s.remaining cid := by
  by_cases ha : ∃ id ev, a = .task id ev
  · obtain ⟨id, ev, rfl⟩ := ha
    obtain ⟨t, t', l₁, l₂, -, hstep', htasks, htasks', -⟩ := h.step_task hstep
    have howner := (LangTask.step_keys hstep').2.1
    rw [EnginePool.remaining, EnginePool.remaining, htasks, htasks']
    by_cases hcid : t.owner = cid
    · rw [h.unfed hstop hcid] at hstep'
      have hless := LangTask.step_remaining hstep'
      simp only [List.filter_append, List.filter_cons, howner, hcid, decide_true, if_true,
        List.map_append, List.map_cons, List.sum_append, List.sum_cons]
      omega
    · simp [howner, hcid]
  · push Not at ha
    rw [EnginePool.remaining, EnginePool.remaining, (hstop.other hstep ha).2]

/-- The steps of its own tasks leave it less. -/
lemma Stopped.remaining_lt (h : s.Sound total) (hstop : s.Stopped cid) {t : LangTask}
    (ht : t ∈ s.tasks) (hcid : t.owner = cid) {ev : TaskEvent}
    (hstep : s.step kind (.task t.id ev) = some s') : s'.remaining cid < s.remaining cid := by
  obtain ⟨r, r', l₁, l₂, hid, hstep', htasks, htasks', -⟩ := h.step_task hstep
  have hr : r ∈ s.tasks := by
    rw [htasks]
    exact List.mem_append_right _ List.mem_cons_self
  have hsame : r = t := List.inj_on_of_nodup_map h.ids_nodup hr ht hid
  subst hsame
  have howner := (LangTask.step_keys hstep').2.1
  rw [h.unfed hstop hcid] at hstep'
  have hless := LangTask.step_remaining hstep'
  rw [EnginePool.remaining, EnginePool.remaining, htasks, htasks']
  simp only [List.filter_append, List.filter_cons, howner, hcid, decide_true, if_true,
    List.map_append, List.map_cons, List.sum_append, List.sum_cons]
  omega

/-- Tasks are never forgotten. -/
lemma Sound.task_persists (h : s.Sound total) {a : PoolAction} (hstep : s.step kind a = some s')
    (hstop : s.Stopped cid) {t : LangTask} (ht : t ∈ s.tasks) (hcid : t.owner = cid) :
    ∃ t' ∈ s'.tasks, t'.id = t.id ∧ t'.owner = cid := by
  by_cases ha : ∃ id ev, a = .task id ev
  · obtain ⟨id, ev, rfl⟩ := ha
    obtain ⟨r, r', l₁, l₂, -, hstep', htasks, htasks', -⟩ := h.step_task hstep
    obtain ⟨hid, howner, -⟩ := LangTask.step_keys hstep'
    rw [htasks, List.mem_append, List.mem_cons] at ht
    rw [htasks']
    rcases ht with ht | rfl | ht
    · exact ⟨t, List.mem_append_left _ ht, rfl, hcid⟩
    · exact ⟨r', List.mem_append_right _ List.mem_cons_self, hid, howner.trans hcid⟩
    · exact ⟨t, List.mem_append_right _ (List.mem_cons_of_mem _ ht), rfl, hcid⟩
  · push Not at ha
    have hmem : t ∈ s.tasks.filter fun t => t.owner = cid :=
      List.mem_filter.mpr ⟨ht, by simpa using hcid⟩
    rw [← (hstop.other hstep ha).2] at hmem
    exact ⟨t, (List.mem_filter.mp hmem).1, rfl, hcid⟩

/-- A turn has nothing left to do exactly when its tasks have returned. -/
lemma remaining_eq_zero :
    s.remaining cid = 0 ↔ ∀ t ∈ s.tasks, t.owner = cid → t.isLive = false := by
  simp only [remaining, List.sum_eq_zero_iff_forall_eq_nat, List.mem_map, List.mem_filter,
    decide_eq_true_eq]
  constructor
  · intro hzero t ht hcid
    exact LangTask.remaining_eq_zero.mp (hzero _ ⟨t, ⟨ht, hcid⟩, rfl⟩)
  · rintro hdone n ⟨t, ⟨ht, hcid⟩, rfl⟩
    exact LangTask.remaining_eq_zero.mpr (hdone t ht hcid)

/-- **A turn that has stopped ends**: on every infinite run on which none of its tasks hangs,
all of them return. -/
theorem Stopped.ends {run : Nat → EnginePool} {acts : Nat → PoolAction}
    (h : (run 0).Sound total) (hstop : (run 0).Stopped cid)
    (hrun : ∀ n, Step kind (run n) (acts n) (run (n + 1)))
    (hfair : ∀ n, ∀ t ∈ (run n).tasks, t.owner = cid → t.isLive = true →
      ∃ m, n ≤ m ∧ ∃ ev, acts m = .task t.id ev) :
    ∃ n, ∀ m, n ≤ m → ∀ t ∈ (run m).tasks, t.owner = cid → t.isLive = false := by
  have hinv : ∀ n, (run n).Sound total ∧ (run n).Stopped cid := by
    intro n
    induction n with
    | zero => exact ⟨h, hstop⟩
    | succ n ih => exact ⟨ih.1.step (hrun n), ih.2.step ih.1 (hrun n)⟩
  have hpersists : ∀ {n m}, n ≤ m → ∀ t ∈ (run n).tasks, t.owner = cid →
      ∃ t' ∈ (run m).tasks, t'.id = t.id ∧ t'.owner = cid := by
    intro n m hnm t ht hcid
    induction hnm with
    | refl => exact ⟨t, ht, rfl, hcid⟩
    | step _ ih =>
      obtain ⟨t₁, ht₁, hid₁, hcid₁⟩ := ih
      obtain ⟨t₂, ht₂, hid₂, hcid₂⟩ := (hinv _).1.task_persists (hrun _) (hinv _).2 ht₁ hcid₁
      exact ⟨t₂, ht₂, hid₂.trans hid₁, hcid₂⟩
  have hlt : ∀ n, (∃ t ∈ (run n).tasks, t.owner = cid ∧ ∃ ev, acts n = .task t.id ev) →
      (run (n + 1)).remaining cid < (run n).remaining cid := by
    rintro n ⟨t, ht, hcid, ev, hact⟩
    have hstep := hrun n
    rw [hact] at hstep
    exact (hinv n).2.remaining_lt (hinv n).1 ht hcid hstep
  have hcomes : ∀ n, 0 < (run n).remaining cid →
      ∃ m, n ≤ m ∧ ∃ t ∈ (run m).tasks, t.owner = cid ∧ ∃ ev, acts m = .task t.id ev := by
    intro n hpos
    have hlive : ¬ ∀ t ∈ (run n).tasks, t.owner = cid → t.isLive = false := by
      rw [← remaining_eq_zero]
      exact hpos.ne'
    push Not at hlive
    obtain ⟨t, ht, hcid, hlive⟩ := hlive
    obtain ⟨m, hm, ev, hact⟩ := hfair n t ht hcid (by simpa using hlive)
    obtain ⟨t', ht', hid, hcid'⟩ := hpersists hm t ht hcid
    exact ⟨m, hm, t', ht', hcid', ev, hid ▸ hact⟩
  obtain ⟨n, hn⟩ := @eventually_zero _ run (fun s => s.remaining cid) _
    (fun n => (hinv n).2.remaining_le (hinv n).1 (hrun n)) hlt hcomes
  exact ⟨n, fun m hm => remaining_eq_zero.mp (hn m hm)⟩

/-- A task of a turn that has stopped can always go on. -/
lemma Sound.exists_step (h : s.Sound total) (hstop : s.Stopped cid) {t : LangTask}
    (ht : t ∈ s.tasks) (hcid : t.owner = cid) (hlive : t.isLive = true) :
    ∃ ev, (s.step kind (.task t.id ev)).isSome = true := by
  obtain ⟨ev, hev⟩ := LangTask.exists_step hlive
  have hunique : Table.Unique LangTask.id s.tasks := by
    intro r hr r' hr' heq
    exact List.inj_on_of_nodup_map h.ids_nodup hr hr' heq
  refine ⟨ev, ?_⟩
  rw [EnginePool.step, Table.get_of_mem hunique ht, Option.bind_some, h.unfed hstop hcid,
    Option.isSome_map]
  exact hev

end Stop

/-! ## The life of a pool -/

/-- **Sessions follow the room.**  Over every interleaving from an unused pool: the permits in
use are those of the tasks that have not returned; right after a tick with enough permits the
languages that are served are the wanted ones, but for those whose task gave up while its
language stayed wanted; and the tasks of a turn that has stopped can all go on, and return
unless one of them hangs. -/
theorem sessions_follow_room {kind : EngineKind} {maxSessions : Nat} {rooms : RoomManager}
    {as : List PoolAction} {s : EnginePool} (h : Run (Step kind) (init maxSessions rooms) as s) :
    s.available + s.inUse = max maxSessions 1 ∧
    (∀ cid c s', s.running cid = some c →
      (reconcileLangs c.active.keys (s.wanted kind c.ctx)).2.length ≤ s.available →
      s.step kind (.tick cid) = some s' →
      ∀ lang, s'.Served cid lang ↔ lang ∈ s.wanted kind c.ctx ∧ ¬ s.GaveUp cid lang) ∧
    ∀ cid, s.Stopped cid →
      (∀ t ∈ s.tasks, t.owner = cid → t.isLive = true →
        ∃ ev, (s.step kind (.task t.id ev)).isSome = true) ∧
      ∀ (run : Nat → EnginePool) (acts : Nat → PoolAction), run 0 = s →
        (∀ n, Step kind (run n) (acts n) (run (n + 1))) →
        (∀ n, ∀ t ∈ (run n).tasks, t.owner = cid → t.isLive = true →
          ∃ m, n ≤ m ∧ ∃ ev, acts m = .task t.id ev) →
        ∃ n, ∀ m, n ≤ m → ∀ t ∈ (run m).tasks, t.owner = cid → t.isLive = false := by
  have hsound : s.Sound (max maxSessions 1) :=
    h.invariant (Sound (max maxSessions 1)) (fun _ _ _ _ hs hstep => hs.step hstep)
      (init_sound maxSessions rooms)
  refine ⟨hsound.permits, ?_, ?_⟩
  · intro cid c s' hc hroom hstep lang
    exact hsound.served_tick hc hroom hstep lang
  · intro cid hstop
    constructor
    · intro t ht hcid hlive
      exact hsound.exists_step hstop ht hcid hlive
    · rintro run acts rfl hrun hfair
      exact hstop.ends hsound hrun hfair

/-- The speaker of `twoListeners` starts, and a listener changes its language. -/
def languageChange : List PoolAction :=
  [.start 0 ⟨"r", "s", "it", false⟩, .room (.setPeerLang "r" "b" "de")]

/-- The law after the change: the tick serves the new language and drops the old one. -/
theorem languageChange_followed :
    ∃ s s', Run (Step standardKind) (init 3 twoListeners) languageChange s ∧
      s.available + s.inUse = 3 ∧ s.step standardKind (.tick 0) = some s' ∧
      ∀ lang, s'.Served 0 lang ↔ lang ∈ ["en", "de"] := by
  have heval : (languageChange.foldlM (step standardKind) (init 3 twoListeners)).any (fun s =>
      (s.running 0).any fun c => (s.step standardKind (.tick 0)).isSome &&
        decide ((reconcileLangs c.active.keys (s.wanted standardKind c.ctx)).2.length ≤ s.available ∧
          s.wanted standardKind c.ctx = ["en", "de"] ∧ ∀ t ∈ s.tasks, t.phase ≠ .gaveUp)) = true := by
    decide +kernel
  simp only [Option.any_eq_true, Bool.and_eq_true, decide_eq_true_eq] at heval
  obtain ⟨s, hrun, c, hc, hsome, hroom, hwanted, hnone⟩ := heval
  obtain ⟨s', hs'⟩ := Option.isSome_iff_exists.mp hsome
  obtain ⟨hpermits, htick, -⟩ := sessions_follow_room (Run.ofPartial_iff.mpr hrun)
  refine ⟨s, s', Run.ofPartial_iff.mpr hrun, hpermits, hs', fun lang => ?_⟩
  rw [htick 0 c s' hc hroom hs' lang, hwanted, and_iff_left]
  rintro ⟨t, ht, -, -, hphase, -⟩
  exact hnone t ht hphase

/-- The speaker starts, and the upstream of one language fails to open six times. -/
def upstreamDown : List PoolAction :=
  .start 0 ⟨"r", "s", "it", false⟩ ::
    ((List.replicate 5 [PoolAction.task 1 .openFailed, .task 1 .wake]).flatten ++
      [.task 1 .openFailed])

/-- After that, a tick with enough permits leaves a wanted language without a session. -/
theorem upstreamDown_not_followed :
    ∃ s c s', Run (Step standardKind) (init 3 twoListeners) upstreamDown s ∧
      s.running 0 = some c ∧
      (reconcileLangs c.active.keys (s.wanted standardKind c.ctx)).2.length ≤ s.available ∧
      s.step standardKind (.tick 0) = some s' ∧
      ¬ ∀ lang, s'.Served 0 lang ↔ lang ∈ s.wanted standardKind c.ctx := by
  have heval : (upstreamDown.foldlM (step standardKind) (init 3 twoListeners)).any (fun s =>
      (s.running 0).any fun c => (s.step standardKind (.tick 0)).any fun s' =>
        decide ((reconcileLangs c.active.keys (s.wanted standardKind c.ctx)).2.length ≤ s.available ∧
          "fr" ∈ s.wanted standardKind c.ctx ∧ ¬ s'.Served 0 "fr")) = true := by
    decide +kernel
  simp only [Option.any_eq_true, decide_eq_true_eq] at heval
  obtain ⟨s, hrun, c, hc, s', hs', hroom, hwanted, hnot⟩ := heval
  refine ⟨s, c, s', Run.ofPartial_iff.mpr hrun, hc, hroom, hs', fun hall => hnot ?_⟩
  exact (hall "fr").mpr hwanted

end EnginePool

end VoxTranslate.Engine
