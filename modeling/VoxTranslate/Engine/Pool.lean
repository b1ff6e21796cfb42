import VoxTranslate.Engine.Sessions

/-!
# Coordinators over one pool of permits

The state of one engine: the rooms, the permits that are free, and the coordinators with the
tasks they have spawned.  A coordinator that has stopped is kept, without feeds, so that a
turn is never confused with a later one.
-/

namespace VoxTranslate.Engine

open Lib Rooms

/-- What distinguishes the engines here: their id, and whether a turn starts with all its
languages or with as many as there are permits. -/
structure EngineKind where
  id : String
  allOrNothing : Bool
  deriving DecidableEq, Repr

def standardKind : EngineKind := ⟨standardId, false⟩
def premiumKind : EngineKind := ⟨geminiId, true⟩
def proKind : EngineKind := ⟨openaiId, true⟩

/-- Who speaks, where, and for whom. -/
structure SpeakerCtx where
  room : String
  speakerId : String
  speakerLang : String
  listenerPays : Bool
  deriving DecidableEq, Repr

/-- `run_session`: the context of the turn and its map of feeds. -/
structure Coordinator where
  ctx : SpeakerCtx
  /-- The task behind the feed of a language. -/
  active : Assoc String Uuid
  stopped : Bool

structure EnginePool where
  rooms : RoomManager
  available : Nat
  tasks : List LangTask
  coordinators : Assoc Uuid Coordinator
  nextTask : Uuid

/-- A step of the system. -/
inductive PoolAction where
  /-- Something happens to the rooms. -/
  | room (a : RoomAction)
  /-- A speaker starts. -/
  | start (cid : Uuid) (ctx : SpeakerCtx)
  /-- The reconcile timer of a coordinator ticks. -/
  | tick (cid : Uuid)
  /-- A coordinator receives a chunk of audio. -/
  | chunk (cid : Uuid)
  /-- The speaker stops. -/
  | stop (cid : Uuid)
  /-- A task takes a step. -/
  | task (id : Uuid) (ev : TaskEvent)

/-- A pool nobody uses. -/
def EnginePool.init (maxSessions : Nat) (rooms : RoomManager) : EnginePool :=
  ⟨rooms, max maxSessions 1, [], ∅, 0⟩

namespace EnginePool

/-- The languages a turn translates into, by the room as it is now. -/
def wanted (s : EnginePool) (kind : EngineKind) (ctx : SpeakerCtx) : List String :=
  EngineSession.targets s.rooms ctx.room ctx.speakerId ctx.speakerLang ⟨kind.id, ctx.listenerPays⟩

/-- The feed of a task is open: its coordinator has it in the map. -/
def fed (s : EnginePool) (t : LangTask) : Bool :=
  (s.coordinators.lookup t.owner).any fun c => c.active.lookup t.lang = some t.id

/-- The permits that are in use. -/
def inUse (s : EnginePool) : Nat := s.tasks.countP LangTask.isLive

/-- `spawn_lang_session`, with a permit that was acquired. -/
def spawnLang (s : EnginePool) (cid : Uuid) (lang : String) : EnginePool where
  rooms := s.rooms
  available := s.available - 1
  tasks := ⟨s.nextTask, cid, lang, .connecting, 0, 0⟩ :: s.tasks
  coordinators := s.coordinators.alter cid
    (Option.map fun c => { c with active := c.active.insert lang s.nextTask })
  nextTask := s.nextTask + 1

/-- Spawn a session for one language after the other, until no permit is left. -/
def addLangs (cid : Uuid) : List String → EnginePool → EnginePool
  | [], s => s
  | lang :: langs, s => if s.available = 0 then s else addLangs cid langs (s.spawnLang cid lang)

/-- Change the map of feeds of a coordinator. -/
def setActive (s : EnginePool) (cid : Uuid) (f : Assoc String Uuid → Assoc String Uuid) :
    EnginePool :=
  { s with coordinators := s.coordinators.alter cid (Option.map fun c => { c with active := f c.active }) }

/-- Change a task. -/
def setTask (s : EnginePool) (t : LangTask) : EnginePool :=
  { s with tasks := Table.update LangTask.id s.tasks t.id fun _ => t }

/-- The coordinator of a turn that has not stopped. -/
def running (s : EnginePool) (cid : Uuid) : Option Coordinator :=
  (s.coordinators.lookup cid).filter fun c => !c.stopped

/-- The step function; `none` where the step cannot be taken. -/
def step (kind : EngineKind) (s : EnginePool) : PoolAction → Option EnginePool
  | .room a => some { s with rooms := s.rooms.step a }
  | .start cid ctx =>
    if s.coordinators.lookup cid ≠ none then none
    else
      let targets := s.wanted kind ctx
      if kind.allOrNothing = true ∧ s.available < targets.length then some s
      else some (addLangs cid targets
        { s with coordinators := s.coordinators.alter cid fun _ => some ⟨ctx, ∅, false⟩ })
  | .tick cid => (s.running cid).map fun c =>
      let (toDrop, toAdd) := reconcileLangs c.active.keys (s.wanted kind c.ctx)
      addLangs cid toAdd (s.setActive cid fun active => active.eraseAll toDrop)
  | .chunk cid => (s.running cid).map fun _ =>
      { s with tasks := s.tasks.map fun t => if t.owner = cid && s.fed t then t.push else t }
  | .stop cid => (s.running cid).map fun _ =>
      { s with
        coordinators := s.coordinators.alter cid
          (Option.map fun c => { c with active := ∅, stopped := true }) }
  | .task id ev =>
    (Table.get LangTask.id s.tasks id).bind fun t => (t.step (s.fed t) ev).map fun t' =>
      -- a task that returns drops its permit
      let s' := s.setTask t'
      if t'.isLive then s' else { s' with available := s'.available + 1 }

/-- The transition relation. -/
abbrev Step (kind : EngineKind) : EnginePool → PoolAction → EnginePool → Prop := ofPartial (step kind)

/-! ## The invariant -/

/-- The invariant of a pool of `total` permits. -/
structure Sound (total : Nat) (s : EnginePool) : Prop where
  /-- The permits in use are those of the tasks that have not returned. -/
  permits : s.available + s.inUse = total
  ids_lt : ∀ t ∈ s.tasks, t.id < s.nextTask
  ids_nodup : (s.tasks.map LangTask.id).Nodup
  /-- Every feed belongs to a task of its coordinator and language. -/
  feeds : ∀ cid c lang id, s.coordinators.lookup cid = some c → c.active.lookup lang = some id →
    ∃ t ∈ s.tasks, t.id = id ∧ t.owner = cid ∧ t.lang = lang
  /-- A task that returned for want of a feed has none. -/
  finished : ∀ t ∈ s.tasks, t.phase = .finished → s.fed t = false
  /-- A coordinator that has stopped feeds nobody. -/
  stopped : ∀ cid c, s.coordinators.lookup cid = some c → c.stopped = true → c.active = ∅
  /-- Every task was spawned by a coordinator. -/
  owners : ∀ t ∈ s.tasks, (s.coordinators.lookup t.owner).isSome = true

lemma init_sound (maxSessions : Nat) (rooms : RoomManager) :
    (init maxSessions rooms).Sound (max maxSessions 1) where
  permits := rfl
  ids_lt := by simp [init]
  ids_nodup := List.nodup_nil
  feeds := by simp [init]
  finished := by simp [init]
  stopped := by simp [init]
  owners := by simp [init]

section Coordinators

variable {total : Nat} {s : EnginePool} {cid : Uuid}

lemma lookup_alter (f : Option Coordinator → Option Coordinator) (k : Uuid) :
    (s.coordinators.alter cid f).lookup k =
      if k = cid then f (s.coordinators.lookup cid) else s.coordinators.lookup k := by
  split_ifs with h
  · subst h
    exact Assoc.lookup_alter_self _ _ _
  · exact Assoc.lookup_alter_of_ne h _ _

lemma running_eq_some {c : Coordinator} :
    s.running cid = some c ↔ s.coordinators.lookup cid = some c ∧ c.stopped = false := by
  simp [running, Option.filter_eq_some_iff]

/-- A coordinator that feeds fewer tasks, and other ones not at all, keeps the invariant. -/
lemma Sound.setCoordinator (h : s.Sound total) {f : Option Coordinator → Option Coordinator}
    (hsub : ∀ c', f (s.coordinators.lookup cid) = some c' → ∀ lang id,
      c'.active.lookup lang = some id →
        ∃ c, s.coordinators.lookup cid = some c ∧ c.active.lookup lang = some id)
    (hstop : ∀ c', f (s.coordinators.lookup cid) = some c' → c'.stopped = true → c'.active = ∅)
    (hsome : (s.coordinators.lookup cid).isSome = true → (f (s.coordinators.lookup cid)).isSome = true) :
    Sound total { s with coordinators := s.coordinators.alter cid f } where
  permits := h.permits
  ids_lt := h.ids_lt
  ids_nodup := h.ids_nodup
  feeds := by
    intro cid' c' lang id hc' hid
    rw [lookup_alter] at hc'
    split_ifs at hc' with heq
    · obtain ⟨c, hc, hid'⟩ := hsub c' hc' lang id hid
      exact h.feeds cid' c lang id (heq ▸ hc) hid'
    · exact h.feeds cid' c' lang id hc' hid
  finished := by
    intro t ht hphase
    have hunfed := h.finished t ht hphase
    rw [Bool.eq_false_iff] at hunfed ⊢
    intro hfed
    apply hunfed
    simp only [fed, Option.any_eq_true, decide_eq_true_eq] at hfed ⊢
    obtain ⟨c', hc', hid⟩ := hfed
    rw [lookup_alter] at hc'
    split_ifs at hc' with heq
    · obtain ⟨c, hc, hid'⟩ := hsub c' hc' _ _ hid
      exact ⟨c, heq ▸ hc, hid'⟩
    · exact ⟨c', hc', hid⟩
  stopped := by
    intro cid' c' hc' hstopped
    rw [lookup_alter] at hc'
    split_ifs at hc' with heq
    · exact hstop c' hc' hstopped
    · exact h.stopped cid' c' hc' hstopped
  owners := by
    intro t ht
    have hold := h.owners t ht
    rw [lookup_alter]
    split_ifs with heq
    · exact hsome (heq ▸ hold)
    · exact hold

/-- The feeds of a coordinator after a spawn. -/
lemma lookup_spawnLang {c : Coordinator} (hc : s.coordinators.lookup cid = some c) (lang : String)
    (k : Uuid) :
    (s.spawnLang cid lang).coordinators.lookup k =
      if k = cid then some { c with active := c.active.insert lang s.nextTask }
      else s.coordinators.lookup k := by
  rw [spawnLang, lookup_alter, hc]
  rfl

/-- A spawn feeds the new task, closes the feed its language had, and touches no other. -/
lemma fed_spawnLang {c : Coordinator} (hc : s.coordinators.lookup cid = some c) {lang : String}
    {t : LangTask} (hid : t.id ≠ s.nextTask) (h : (s.spawnLang cid lang).fed t = true) :
    s.fed t = true := by
  simp only [fed, Option.any_eq_true, decide_eq_true_eq] at h ⊢
  obtain ⟨c', hc', hact⟩ := h
  rw [lookup_spawnLang hc] at hc'
  split_ifs at hc' with heq
  · cases hc'
    by_cases hlang : t.lang = lang
    · dsimp only at hact
      rw [hlang, AList.lookup_insert, Option.some.injEq] at hact
      exact absurd hact.symm hid
    · dsimp only at hact
      rw [AList.lookup_insert_ne hlang] at hact
      exact ⟨c, heq ▸ hc, hact⟩
  · exact ⟨c', hc', hact⟩

/-- A spawn under a permit keeps the invariant. -/
lemma Sound.spawnLang (h : s.Sound total) {c : Coordinator} (hc : s.running cid = some c)
    (hpos : 0 < s.available) (lang : String) : (s.spawnLang cid lang).Sound total := by
  obtain ⟨hlook, hrunning⟩ := running_eq_some.mp hc
  refine ⟨?_, ?_, ?_, ?_, ?_, ?_, ?_⟩
  · have hcount : (s.spawnLang cid lang).inUse = s.inUse + 1 := by
      rw [inUse, EnginePool.spawnLang, List.countP_cons_of_pos rfl]
      rfl
    have hpermits := h.permits
    rw [hcount]
    show s.available - 1 + (s.inUse + 1) = total
    omega
  · intro t ht
    rcases List.mem_cons.mp ht with rfl | ht
    · exact Nat.lt_succ_self _
    · exact Nat.lt_succ_of_lt (h.ids_lt t ht)
  · refine List.nodup_cons.mpr ⟨fun hmem => ?_, h.ids_nodup⟩
    obtain ⟨t, ht, hid⟩ := List.mem_map.mp hmem
    exact absurd (h.ids_lt t ht) (by rw [hid]; exact Nat.lt_irrefl _)
  · intro cid' c' lang' id hc' hid
    have hold : ∀ c₀, s.coordinators.lookup cid' = some c₀ → c₀.active.lookup lang' = some id →
        ∃ t ∈ (s.spawnLang cid lang).tasks, t.id = id ∧ t.owner = cid' ∧ t.lang = lang' := by
      intro c₀ hc₀ hid₀
      obtain ⟨t, ht, hkeys⟩ := h.feeds cid' c₀ lang' id hc₀ hid₀
      exact ⟨t, List.mem_cons_of_mem _ ht, hkeys⟩
    rw [lookup_spawnLang hlook] at hc'
    split_ifs at hc' with heq
    · cases hc'
      by_cases hlang : lang' = lang
      · dsimp only at hid
        rw [hlang, AList.lookup_insert, Option.some.injEq] at hid
        exact ⟨_, List.mem_cons_self, hid, heq.symm, hlang.symm⟩
      · dsimp only at hid
        rw [AList.lookup_insert_ne hlang] at hid
        exact hold c (heq ▸ hlook) hid
    · exact hold c' hc' hid
  · intro t ht hphase
    rcases List.mem_cons.mp ht with rfl | ht
    · cases hphase
    · rw [Bool.eq_false_iff]
      intro hfed
      have hid : t.id ≠ s.nextTask := (h.ids_lt t ht).ne
      have hfed' := fed_spawnLang hlook hid hfed
      rw [h.finished t ht hphase] at hfed'
      cases hfed'
  · intro cid' c' hc' hstopped
    rw [lookup_spawnLang hlook] at hc'
    split_ifs at hc' with heq
    · cases hc'
      rw [hrunning] at hstopped
      cases hstopped
    · exact h.stopped cid' c' hc' hstopped
  · intro t ht
    rw [lookup_spawnLang hlook]
    split_ifs with heq
    · rfl
    · rcases List.mem_cons.mp ht with rfl | ht
      · exact absurd rfl heq
      · exact h.owners t ht

/-- The coordinator is still running after a spawn. -/
lemma running_spawnLang {c : Coordinator} (hc : s.running cid = some c) (lang : String) :
    (s.spawnLang cid lang).running cid =
      some { c with active := c.active.insert lang s.nextTask } := by
  obtain ⟨hlook, hrunning⟩ := running_eq_some.mp hc
  exact running_eq_some.mpr ⟨by rw [lookup_spawnLang hlook, if_pos rfl], hrunning⟩

/-- Spawning sessions keeps the invariant, whether the permits last or not. -/
lemma Sound.addLangs (langs : List String) (h : s.Sound total) {c : Coordinator}
    (hc : s.running cid = some c) : (addLangs cid langs s).Sound total := by
  induction langs generalizing s c with
  | nil => exact h
  | cons lang langs ih =>
    rw [EnginePool.addLangs]
    split_ifs with hnone
    · exact h
    · exact ih (h.spawnLang hc (Nat.pos_of_ne_zero hnone) lang) (running_spawnLang hc lang)

end Coordinators

/-! ## One step -/

section Step

variable {total : Nat} {s s' : EnginePool} {kind : EngineKind}

/-- Changing tasks in place keeps what the invariant says of the feeds. -/
lemma Sound.mapTasks (h : s.Sound total) {f : LangTask → LangTask} {available : Nat}
    (hkeys : ∀ t ∈ s.tasks, (f t).id = t.id ∧ (f t).owner = t.owner ∧ (f t).lang = t.lang)
    (hphase : ∀ t ∈ s.tasks, (f t).phase = .finished → s.fed t = false)
    (hpermits : available + (s.tasks.map f).countP LangTask.isLive = total) :
    Sound total { s with tasks := s.tasks.map f, available } where
  permits := hpermits
  ids_lt := by
    intro t ht
    obtain ⟨t₀, ht₀, rfl⟩ := List.mem_map.mp ht
    rw [(hkeys t₀ ht₀).1]
    exact h.ids_lt t₀ ht₀
  ids_nodup := by
    have hids : (s.tasks.map f).map LangTask.id = s.tasks.map LangTask.id := by
      rw [List.map_map]
      exact List.map_congr_left fun t ht => (hkeys t ht).1
    rw [hids]
    exact h.ids_nodup
  feeds := by
    intro cid c lang id hc hid
    obtain ⟨t, ht, h₁, h₂, h₃⟩ := h.feeds cid c lang id hc hid
    obtain ⟨k₁, k₂, k₃⟩ := hkeys t ht
    exact ⟨f t, List.mem_map_of_mem ht, k₁.trans h₁, k₂.trans h₂, k₃.trans h₃⟩
  finished := by
    intro t ht hfin
    obtain ⟨t₀, ht₀, rfl⟩ := List.mem_map.mp ht
    obtain ⟨k₁, k₂, k₃⟩ := hkeys t₀ ht₀
    have hfed := hphase t₀ ht₀ hfin
    rw [fed] at hfed ⊢
    rw [k₁, k₂, k₃]
    exact hfed
  stopped := h.stopped
  owners := by
    intro t ht
    obtain ⟨t₀, ht₀, rfl⟩ := List.mem_map.mp ht
    rw [(hkeys t₀ ht₀).2.1]
    exact h.owners t₀ ht₀

/-- The coordinator a turn starts with has no feeds. -/
lemma Sound.newCoordinator (h : s.Sound total) (cid : Uuid) (ctx : SpeakerCtx) :
    Sound total { s with coordinators := s.coordinators.alter cid fun _ => some ⟨ctx, ∅, false⟩ } := by
  refine h.setCoordinator ?_ ?_ ?_
  · intro c' hc' lang id hid
    cases hc'
    cases hid
  · intro c' hc' hstopped
    cases hc'
    cases hstopped
  · exact fun _ => rfl

/-- Dropping feeds keeps the invariant. -/
lemma Sound.eraseFeeds (h : s.Sound total) (cid : Uuid) (langs : List String) :
    (s.setActive cid fun active => active.eraseAll langs).Sound total := by
  refine h.setCoordinator ?_ ?_ ?_
  · intro c' hc' lang id hid
    obtain ⟨c, hc, rfl⟩ := Option.map_eq_some_iff.mp hc'
    dsimp only at hid
    rw [Assoc.lookup_eraseAll] at hid
    split_ifs at hid
    exact ⟨c, hc, hid⟩
  · intro c' hc' hstopped
    obtain ⟨c, hc, rfl⟩ := Option.map_eq_some_iff.mp hc'
    have hempty : c.active = ∅ := h.stopped cid c hc hstopped
    dsimp only
    rw [hempty, Assoc.eraseAll_empty]
  · intro hsome
    rw [Option.isSome_map]
    exact hsome

/-- A coordinator goes on after its feeds have changed. -/
lemma running_setActive {cid : Uuid} {c : Coordinator} (hc : s.running cid = some c)
    (f : Assoc String Uuid → Assoc String Uuid) :
    (s.setActive cid f).running cid = some { c with active := f c.active } := by
  obtain ⟨hlook, hrunning⟩ := running_eq_some.mp hc
  refine running_eq_some.mpr ⟨?_, hrunning⟩
  rw [setActive, lookup_alter, if_pos rfl, hlook]
  rfl

/-- A coordinator that stops feeds nobody. -/
lemma Sound.stopCoordinator (h : s.Sound total) (cid : Uuid) :
    Sound total { s with
      coordinators := s.coordinators.alter cid
        (Option.map fun c => { c with active := ∅, stopped := true }) } := by
  refine h.setCoordinator ?_ ?_ ?_
  · intro c' hc' lang id hid
    obtain ⟨c, -, rfl⟩ := Option.map_eq_some_iff.mp hc'
    cases hid
  · intro c' hc' _
    obtain ⟨c, -, rfl⟩ := Option.map_eq_some_iff.mp hc'
    rfl
  · intro hsome
    rw [Option.isSome_map]
    exact hsome

/-- What a task's step does to the list of the tasks. -/
lemma Sound.tasks_eq (h : s.Sound total) {t t' : LangTask} {ev : TaskEvent}
    (hget : Table.get LangTask.id s.tasks t.id = some t) (hstep : t.step (s.fed t) ev = some t') :
    ∃ l₁ l₂, s.tasks = l₁ ++ t :: l₂ ∧
      s.tasks.map (fun r => if r.id = t'.id then t' else r) = l₁ ++ t' :: l₂ := by
  have hid := (LangTask.step_keys hstep).1
  obtain ⟨l₁, l₂, htasks, hupd⟩ := Table.update_eq_of_nodup h.ids_nodup hget fun _ => t'
  refine ⟨l₁, l₂, htasks, ?_⟩
  rw [hid]
  exact hupd

/-- A task's step keeps the invariant, with its permit back when it returns. -/
lemma Sound.taskStep (h : s.Sound total) {t t' : LangTask} {ev : TaskEvent}
    (hget : Table.get LangTask.id s.tasks t.id = some t) (hstep : t.step (s.fed t) ev = some t') :
    Sound total (if t'.isLive then s.setTask t'
      else { s.setTask t' with available := (s.setTask t').available + 1 }) := by
  have hlive := LangTask.step_live hstep
  obtain ⟨hid, howner, hlang⟩ := LangTask.step_keys hstep
  have hmem := Table.mem_of_get hget
  have hsame : ∀ r ∈ s.tasks, r.id = t'.id → r = t := by
    intro r hr hrid
    exact List.inj_on_of_nodup_map h.ids_nodup hr hmem (hrid.trans hid)
  have hkeys : ∀ r ∈ s.tasks, (if r.id = t'.id then t' else r).id = r.id ∧
      (if r.id = t'.id then t' else r).owner = r.owner ∧
      (if r.id = t'.id then t' else r).lang = r.lang := by
    intro r hr
    split_ifs with heq
    · rw [hsame r hr heq]
      exact ⟨hid, howner, hlang⟩
    · exact ⟨rfl, rfl, rfl⟩
  have hphase : ∀ r ∈ s.tasks, (if r.id = t'.id then t' else r).phase = .finished →
      s.fed r = false := by
    intro r hr hfin
    split_ifs at hfin with heq
    · rw [hsame r hr heq]
      exact LangTask.step_finished hstep hfin
    · exact h.finished r hr hfin
  obtain ⟨l₁, l₂, htasks, hupd⟩ := h.tasks_eq hget hstep
  have hpermits := h.permits
  rw [inUse, htasks, List.countP_append, List.countP_cons_of_pos hlive] at hpermits
  split_ifs with hlive'
  · refine h.mapTasks hkeys hphase ?_
    rw [hupd, List.countP_append, List.countP_cons_of_pos hlive']
    exact hpermits
  · refine h.mapTasks hkeys hphase ?_
    rw [hupd, List.countP_append, List.countP_cons_of_neg hlive']
    show s.available + 1 + _ = total
    omega

/-- A chunk of audio keeps the invariant. -/
lemma Sound.chunk (h : s.Sound total) (cid : Uuid) :
    Sound total { s with
      tasks := s.tasks.map fun t => if t.owner = cid && s.fed t then t.push else t } := by
  have hkeys : ∀ t : LangTask, ∀ b : Bool, (if b then t.push else t).id = t.id ∧
      (if b then t.push else t).owner = t.owner ∧ (if b then t.push else t).lang = t.lang ∧
      (if b then t.push else t).phase = t.phase := by
    intro t b
    cases b with
    | true => exact ⟨t.push_id, t.push_owner, t.push_lang, t.push_phase⟩
    | false => exact ⟨rfl, rfl, rfl, rfl⟩
  refine h.mapTasks (fun t _ => ?_) (fun t ht hfin => ?_) ?_
  · obtain ⟨h₁, h₂, h₃, -⟩ := hkeys t (t.owner = cid && s.fed t)
    exact ⟨h₁, h₂, h₃⟩
  · obtain ⟨-, -, -, h₄⟩ := hkeys t (t.owner = cid && s.fed t)
    exact h.finished t ht (h₄.symm.trans hfin)
  · rw [List.countP_map]
    have hlive : LangTask.isLive ∘ (fun t => if t.owner = cid && s.fed t then t.push else t) =
        LangTask.isLive := by
      funext t
      obtain ⟨-, -, -, h₄⟩ := hkeys t (t.owner = cid && s.fed t)
      rw [Function.comp_apply, LangTask.isLive, h₄, LangTask.isLive]
    rw [hlive]
    exact h.permits

/-- **Every step keeps the invariant.** -/
theorem Sound.step (h : s.Sound total) {a : PoolAction} (hstep : s.step kind a = some s') :
    s'.Sound total := by
  cases a with
  | room a =>
    cases hstep
    exact ⟨h.permits, h.ids_lt, h.ids_nodup, h.feeds, h.finished, h.stopped, h.owners⟩
  | start cid ctx =>
    simp only [EnginePool.step] at hstep
    split_ifs at hstep with hnew hfull
    · cases hstep
      exact h
    · cases hstep
      have hnewest : running { s with
          coordinators := s.coordinators.alter cid fun _ => some ⟨ctx, ∅, false⟩ } cid =
            some ⟨ctx, ∅, false⟩ :=
        running_eq_some.mpr ⟨Assoc.lookup_alter_self _ _ _, rfl⟩
      exact (h.newCoordinator cid ctx).addLangs _ hnewest
  | tick cid =>
    obtain ⟨c, hc, rfl⟩ := Option.map_eq_some_iff.mp hstep
    exact (h.eraseFeeds cid _).addLangs _ (running_setActive hc _)
  | chunk cid =>
    obtain ⟨c, hc, rfl⟩ := Option.map_eq_some_iff.mp hstep
    exact h.chunk cid
  | stop cid =>
    obtain ⟨c, hc, rfl⟩ := Option.map_eq_some_iff.mp hstep
    exact h.stopCoordinator cid
  | task id ev =>
    obtain ⟨t, hget, hstep⟩ := Option.bind_eq_some_iff.mp hstep
    obtain ⟨t', hstep', rfl⟩ := Option.map_eq_some_iff.mp hstep
    have hid : t.id = id := Table.key_of_get hget
    exact h.taskStep (hid ▸ hget) hstep'

end Step

end EnginePool

end VoxTranslate.Engine
