import VoxTranslate.Engine.Qwen
import VoxTranslate.Engine.Sessions
import Mathlib.Logic.Function.Basic

/-!
# The fan-out of a speaking turn

A speaker's audio goes to one session for each engine and target language.  Two jobs must be
done once however many sessions run: within an engine, echoing the speaker's own words, and
across engines, writing the transcript.  Each is a claim that a session takes when it finds it
vacant and gives back on its way out.  Coordinators and sessions take their steps in any order;
a reconcile tick is its single steps.
-/

namespace VoxTranslate.Engine

open Lib

/-- `SessionClaim`: a role that one session at a time may hold. -/
structure SessionClaim (κ : Type) where
  held : Option κ
  deriving DecidableEq

namespace SessionClaim

variable {κ : Type} [DecidableEq κ] {c : SessionClaim κ} {key : κ}

def vacant : SessionClaim κ := ⟨none⟩

/-- Whether `key` holds the role, taking it when it is vacant. -/
def owns (c : SessionClaim κ) (key : κ) : SessionClaim κ × Bool :=
  match c.held with
  | some h => (c, h = key)
  -- a vacant role goes to whoever asks first
  | none => (⟨some key⟩, true)

/-- Give the role back if `key` held it. -/
def release (c : SessionClaim κ) (key : κ) : SessionClaim κ :=
  if c.held = some key then vacant else c

lemma owns_iff : (c.owns key).2 = true ↔ (c.owns key).1.held = some key := by
  rw [owns]
  split
  · next h => simp [h]
  · simp

lemma owns_of_held {k : κ} (h : c.held = some k) : (c.owns key).1 = c := by
  rw [owns, h]

lemma held_release_of_ne {k : κ} (h : c.held = some k) (hne : k ≠ key) :
    (c.release key).held = some k := by
  rw [release, if_neg, h]
  rw [h, Option.some_inj]
  exact hne

lemma held_release {k : κ} (h : (c.release key).held = some k) : c.held = some k := by
  rw [release] at h
  split_ifs at h
  · cases h
  · exact h

end SessionClaim

/-- What the sessions of a turn hear, utterance by utterance, and whether it is kept. -/
structure TurnConfig where
  /-- The original every session finalises for an utterance. -/
  spoken : Nat → Text
  /-- A transcript service is configured. -/
  transcripts : Bool

/-- The utterance has words, and there is somewhere to write them. -/
def TurnConfig.worthRecording (cfg : TurnConfig) (u : Nat) : Bool :=
  cfg.transcripts && (cfg.spoken u).trim ≠ []

/-- A speaking turn: its coordinators, one for each engine, and all their sessions. -/
structure SpeakingTurn where
  /-- The sessions that have not yet given their roles back. -/
  tasks : List LangTask
  /-- The feeds of each coordinator. -/
  feeds : Uuid → Assoc String Uuid
  /-- A coordinator has dropped this language and session, and is about to release its echo. -/
  releasing : Uuid → Option (String × Uuid)
  stopped : Uuid → Bool
  /-- Who echoes the speaker, for each engine: by language. -/
  primary : Uuid → SessionClaim String
  /-- Who writes the transcript: by session. -/
  writer : SessionClaim Uuid
  nextTask : Uuid
  /-- The sessions that were told they are primary, and have not been released since. -/
  echoing : List Uuid
  /-- Which session finalised which utterance. -/
  finals : List (Uuid × Nat)
  /-- The stored transcript: which session recorded which utterance. -/
  stored : List (Uuid × Nat)
  /-- The utterances that are over: no session will finalise them any more. -/
  settled : List Nat

/-- Who finalised which utterance is looked up by equality. -/
instance : LawfulBEq (Uuid × Nat) := Prod.instLawfulBEq

/-- A step of a turn. -/
inductive TurnAction where
  /-- A coordinator adds a language. -/
  | spawn (cid : Uuid) (lang : String)
  /-- A coordinator takes the feed of a language out of its map. -/
  | unfeed (cid : Uuid) (lang : String)
  /-- It then releases the echo role of that language. -/
  | release (cid : Uuid)
  | chunk (cid : Uuid)
  /-- The speaker stops, and the coordinator returns. -/
  | stop (cid : Uuid)
  /-- A session takes a step of its reconnect loop. -/
  | task (id : Uuid) (ev : TaskEvent)
  /-- The loop of a session has returned: it gives both roles back. -/
  | handBack (id : Uuid)
  /-- A session asks whether it is primary. -/
  | isPrimary (id : Uuid)
  /-- A session finalises an utterance. -/
  | recordSegment (id : Uuid) (u : Nat)
  /-- Every connected session has finalised the utterance, and none will any more. -/
  | settle (u : Nat)
  deriving DecidableEq

namespace SpeakingTurn

/-- Before the first language. -/
def init : SpeakingTurn where
  tasks := []
  feeds := fun _ => ∅
  releasing := fun _ => none
  stopped := fun _ => false
  primary := fun _ => .vacant
  writer := .vacant
  nextTask := 0
  echoing := []
  finals := []
  stored := []
  settled := []

/-- The feed of a session is open. -/
def fed (s : SpeakingTurn) (t : LangTask) : Bool := (s.feeds t.owner).lookup t.lang = some t.id

/-- The coordinator may take its next step. -/
def idle (s : SpeakingTurn) (cid : Uuid) : Bool := !s.stopped cid && (s.releasing cid).isNone

/-- `spawn_lang_session`. -/
def spawn (s : SpeakingTurn) (cid : Uuid) (lang : String) : SpeakingTurn :=
  { s with
    tasks := ⟨s.nextTask, cid, lang, .connecting, 0, 0⟩ :: s.tasks
    feeds := Function.update s.feeds cid ((s.feeds cid).insert lang s.nextTask)
    nextTask := s.nextTask + 1 }

/-- Release the echo role of a session. -/
def letGo (s : SpeakingTurn) (cid : Uuid) (lang : String) (id : Uuid) : SpeakingTurn :=
  { s with
    primary := Function.update s.primary cid ((s.primary cid).release lang)
    echoing := s.echoing.filter fun i => i ≠ id }

def setTask (s : SpeakingTurn) (t : LangTask) : SpeakingTurn :=
  { s with tasks := Table.update LangTask.id s.tasks t.id fun _ => t }

/-- A step of `reconnect_loop`: a dropped connection gives the echo role back, and keeps the
transcript. -/
def runTask (s : SpeakingTurn) (t' : LangTask) (ev : TaskEvent) : SpeakingTurn :=
  if ev = .dropped then (s.setTask t').letGo t'.owner t'.lang t'.id else s.setTask t'

/-- The end of `session_task`. -/
def giveBack (s : SpeakingTurn) (t : LangTask) : SpeakingTurn :=
  let s := s.letGo t.owner t.lang t.id
  { s with
    writer := s.writer.release t.id
    tasks := s.tasks.filter fun r => r.id ≠ t.id }

/-- `is_primary`. -/
def askPrimary (s : SpeakingTurn) (t : LangTask) : SpeakingTurn :=
  let (claim, mine) := (s.primary t.owner).owns t.lang
  { s with
    primary := Function.update s.primary t.owner claim
    echoing := if mine then t.id :: s.echoing else s.echoing }

/-- `record_segment` of one final: only the writer stores it. -/
def record (s : SpeakingTurn) (cfg : TurnConfig) (id : Uuid) (u : Nat) : SpeakingTurn :=
  let s := { s with finals := (id, u) :: s.finals }
  if cfg.worthRecording u then
    let (claim, mine) := s.writer.owns id
    { s with writer := claim, stored := if mine then (id, u) :: s.stored else s.stored }
  else s

/-- The step function; `none` where the step cannot be taken. -/
def step (cfg : TurnConfig) (s : SpeakingTurn) : TurnAction → Option SpeakingTurn
  | .spawn cid lang =>
    if s.idle cid = true ∧ lang ∉ (s.feeds cid).keys then some (s.spawn cid lang) else none
  | .unfeed cid lang =>
    if s.idle cid = true then ((s.feeds cid).lookup lang).map fun id =>
      { s with
        feeds := Function.update s.feeds cid ((s.feeds cid).erase lang)
        releasing := Function.update s.releasing cid (some (lang, id)) }
    else none
  | .release cid => (s.releasing cid).map fun e =>
      { s.letGo cid e.1 e.2 with releasing := Function.update s.releasing cid none }
  | .chunk cid =>
    if s.idle cid = true then
      some { s with tasks := s.tasks.map fun t => if t.owner = cid && s.fed t then t.push else t }
    else none
  | .stop cid =>
    if s.idle cid = true then
      some { s with
        feeds := Function.update s.feeds cid ∅
        stopped := Function.update s.stopped cid true }
    else none
  | .task id ev => (Table.get LangTask.id s.tasks id).bind fun t =>
      (t.step (s.fed t) ev).map fun t' => s.runTask t' ev
  -- the reconnect loop has returned; until this step the roles are still held
  | .handBack id => (Table.get LangTask.id s.tasks id).bind fun t =>
      if t.isLive then none else some (s.giveBack t)
  -- only a session with a connection handles upstream events
  | .isPrimary id => (Table.get LangTask.id s.tasks id).bind fun t =>
      if t.phase = .connected then some (s.askPrimary t) else none
  | .recordSegment id u => (Table.get LangTask.id s.tasks id).bind fun t =>
      if t.phase = .connected ∧ u ∉ s.settled ∧ (id, u) ∉ s.finals then some (s.record cfg id u)
      else none
  -- from here on nobody finalises the utterance any more
  | .settle u =>
    if u ∉ s.settled ∧ ∀ t ∈ s.tasks, t.phase = .connected → (t.id, u) ∈ s.finals then
      some { s with settled := u :: s.settled }
    else none

/-- The transition relation. -/
abbrev Step (cfg : TurnConfig) : SpeakingTurn → TurnAction → SpeakingTurn → Prop := ofPartial (step cfg)

/-- **What a step does.** -/
inductive StepSpec (cfg : TurnConfig) (s : SpeakingTurn) : TurnAction → SpeakingTurn → Prop
  | spawn (cid : Uuid) (lang : String) : s.idle cid = true → lang ∉ (s.feeds cid).keys →
      StepSpec cfg s (.spawn cid lang) (s.spawn cid lang)
  | unfeed (cid : Uuid) (lang : String) (id : Uuid) : (s.feeds cid).lookup lang = some id →
      StepSpec cfg s (.unfeed cid lang)
        { s with
          feeds := Function.update s.feeds cid ((s.feeds cid).erase lang)
          releasing := Function.update s.releasing cid (some (lang, id)) }
  | release (cid : Uuid) (lang : String) (id : Uuid) : s.releasing cid = some (lang, id) →
      StepSpec cfg s (.release cid)
        { s.letGo cid lang id with releasing := Function.update s.releasing cid none }
  | chunk (cid : Uuid) : StepSpec cfg s (.chunk cid)
      { s with tasks := s.tasks.map fun t => if t.owner = cid && s.fed t then t.push else t }
  | stop (cid : Uuid) : StepSpec cfg s (.stop cid)
      { s with
        feeds := Function.update s.feeds cid ∅
        stopped := Function.update s.stopped cid true }
  | task (t t' : LangTask) (ev : TaskEvent) : t ∈ s.tasks → t.step (s.fed t) ev = some t' →
      StepSpec cfg s (.task t.id ev) (s.runTask t' ev)
  | handBack (t : LangTask) : t ∈ s.tasks → t.isLive = false →
      StepSpec cfg s (.handBack t.id) (s.giveBack t)
  | isPrimary (t : LangTask) : t ∈ s.tasks → t.phase = .connected →
      StepSpec cfg s (.isPrimary t.id) (s.askPrimary t)
  | recordSegment (t : LangTask) (u : Nat) : t ∈ s.tasks → t.phase = .connected →
      u ∉ s.settled → (t.id, u) ∉ s.finals →
      StepSpec cfg s (.recordSegment t.id u) (s.record cfg t.id u)
  | settle (u : Nat) : (∀ t ∈ s.tasks, t.phase = .connected → (t.id, u) ∈ s.finals) →
      StepSpec cfg s (.settle u) { s with settled := u :: s.settled }

variable {cfg : TurnConfig} {s s' : SpeakingTurn} {a : TurnAction}

lemma step_spec (h : s.step cfg a = some s') : StepSpec cfg s a s' := by
  cases a with
  | spawn cid lang =>
    simp only [step, Option.ite_none_right_eq_some, Option.some.injEq] at h
    obtain ⟨⟨hidle, hnew⟩, rfl⟩ := h
    exact .spawn cid lang hidle hnew
  | unfeed cid lang =>
    simp only [step, Option.ite_none_right_eq_some, Option.map_eq_some_iff] at h
    obtain ⟨-, id, hid, rfl⟩ := h
    exact .unfeed cid lang id hid
  | release cid =>
    simp only [step, Option.map_eq_some_iff] at h
    obtain ⟨⟨lang, id⟩, hid, rfl⟩ := h
    exact .release cid lang id hid
  | chunk cid =>
    simp only [step, Option.ite_none_right_eq_some, Option.some.injEq] at h
    obtain ⟨-, rfl⟩ := h
    exact .chunk cid
  | stop cid =>
    simp only [step, Option.ite_none_right_eq_some, Option.some.injEq] at h
    obtain ⟨-, rfl⟩ := h
    exact .stop cid
  | task id ev =>
    simp only [step, Option.bind_eq_some_iff, Option.map_eq_some_iff] at h
    obtain ⟨t, ht, t', hstep, rfl⟩ := h
    rw [← Table.key_of_get ht]
    exact .task t t' ev (Table.mem_of_get ht) hstep
  | handBack id =>
    simp only [step, Option.bind_eq_some_iff, Option.ite_none_left_eq_some, Option.some.injEq] at h
    obtain ⟨t, ht, hlive, rfl⟩ := h
    rw [← Table.key_of_get ht]
    exact .handBack t (Table.mem_of_get ht) (by simpa using hlive)
  | isPrimary id =>
    simp only [step, Option.bind_eq_some_iff, Option.ite_none_right_eq_some, Option.some.injEq] at h
    obtain ⟨t, ht, hphase, rfl⟩ := h
    rw [← Table.key_of_get ht]
    exact .isPrimary t (Table.mem_of_get ht) hphase
  | recordSegment id u =>
    simp only [step, Option.bind_eq_some_iff, Option.ite_none_right_eq_some, Option.some.injEq] at h
    obtain ⟨t, ht, ⟨hphase, hsettled, hnew⟩, rfl⟩ := h
    cases Table.key_of_get ht
    exact .recordSegment t u (Table.mem_of_get ht) hphase hsettled hnew
  | settle u =>
    simp only [step, Option.ite_none_right_eq_some, Option.some.injEq] at h
    obtain ⟨⟨-, hall⟩, rfl⟩ := h
    exact .settle u hall

/-! ## What the steps keep of the sessions -/

/-- What identifies a session. -/
def seat (t : LangTask) : Uuid × Uuid × String := (t.id, t.owner, t.lang)

/-- The sessions that have not given their roles back. -/
def seats (s : SpeakingTurn) : List (Uuid × Uuid × String) := s.tasks.map seat

/-- No two sessions share an identifier. -/
structure Numbered (s : SpeakingTurn) : Prop where
  ids_lt : ∀ t ∈ s.tasks, t.id < s.nextTask
  ids_nodup : (s.tasks.map LangTask.id).Nodup

lemma init_numbered : init.Numbered := ⟨by simp [init], List.nodup_nil⟩

lemma Numbered.eq_of_id (h : s.Numbered) {t t' : LangTask} (ht : t ∈ s.tasks) (ht' : t' ∈ s.tasks)
    (hid : t.id = t'.id) : t = t' := List.inj_on_of_nodup_map h.ids_nodup ht ht' hid

lemma ids_setTask (s : SpeakingTurn) (t : LangTask) :
    (s.setTask t).tasks.map LangTask.id = s.tasks.map LangTask.id := by
  simp only [setTask, Table.update, List.map_map]
  refine List.map_congr_left fun r _ => ?_
  simp only [Function.comp_apply]
  split_ifs with h
  · exact h.symm
  · rfl

lemma seats_setTask (h : s.Numbered) {t t' : LangTask} (ht : t ∈ s.tasks) (hseat : seat t' = seat t) :
    (s.setTask t').seats = s.seats := by
  simp only [seats, setTask, Table.update, List.map_map]
  refine List.map_congr_left fun r hr => ?_
  simp only [Function.comp_apply]
  split_ifs with hid
  · rw [hseat]
    exact congrArg seat (h.eq_of_id ht hr ((congrArg Prod.fst hseat).symm.trans hid.symm))
  · rfl

lemma seat_push (s : SpeakingTurn) (cid : Uuid) (t : LangTask) :
    seat (if t.owner = cid && s.fed t then t.push else t) = seat t := by
  split_ifs
  · rw [seat, LangTask.push_id, LangTask.push_owner, LangTask.push_lang, seat]
  · rfl

lemma seat_step {t t' : LangTask} {fed : Bool} {ev : TaskEvent} (h : t.step fed ev = some t') :
    seat t' = seat t := by
  obtain ⟨hid, howner, hlang⟩ := LangTask.step_keys h
  rw [seat, hid, howner, hlang, seat]

@[simp] lemma tasks_runTask (t : LangTask) (ev : TaskEvent) :
    (s.runTask t ev).tasks = (s.setTask t).tasks := by
  rw [runTask]
  split_ifs <;> rfl

@[simp] lemma nextTask_runTask (t : LangTask) (ev : TaskEvent) :
    (s.runTask t ev).nextTask = s.nextTask := by
  rw [runTask]
  split_ifs <;> rfl

@[simp] lemma tasks_record (cfg : TurnConfig) (id : Uuid) (u : Nat) :
    (s.record cfg id u).tasks = s.tasks := by
  rw [record]
  split <;> rfl

@[simp] lemma nextTask_record (cfg : TurnConfig) (id : Uuid) (u : Nat) :
    (s.record cfg id u).nextTask = s.nextTask := by
  rw [record]
  split <;> rfl

lemma Numbered.step (h : s.Numbered) (hstep : s.step cfg a = some s') : s'.Numbered := by
  cases step_spec hstep with
  | spawn cid lang _ _ =>
    refine ⟨fun t ht => ?_, ?_⟩
    · rcases List.mem_cons.mp ht with rfl | ht
      · exact Nat.lt_succ_self _
      · exact Nat.lt_succ_of_lt (h.ids_lt t ht)
    · refine List.nodup_cons.mpr ⟨fun hmem => ?_, h.ids_nodup⟩
      obtain ⟨t, ht, hid⟩ := List.mem_map.mp hmem
      exact absurd (h.ids_lt t ht) (by rw [hid]; exact Nat.lt_irrefl _)
  | chunk cid =>
    refine ⟨fun t ht => ?_, ?_⟩
    · obtain ⟨r, hr, rfl⟩ := List.mem_map.mp ht
      rw [show LangTask.id _ = r.id from congrArg Prod.fst (seat_push s cid r)]
      exact h.ids_lt r hr
    · have hids : (s.tasks.map fun t => if t.owner = cid && s.fed t then t.push else t).map LangTask.id =
          s.tasks.map LangTask.id := by
        rw [List.map_map]
        exact List.map_congr_left fun r _ => congrArg Prod.fst (seat_push s cid r)
      rw [hids]
      exact h.ids_nodup
  | task t t' ev ht hev =>
    have hid := (LangTask.step_keys hev).1
    refine ⟨fun r hr => ?_, ?_⟩
    · rw [tasks_runTask, setTask, Table.mem_update] at hr
      rw [nextTask_runTask]
      rcases hr with ⟨_, _, _, rfl⟩ | ⟨hr, _⟩
      · rw [hid]
        exact h.ids_lt t ht
      · exact h.ids_lt r hr
    · rw [tasks_runTask, ids_setTask]
      exact h.ids_nodup
  | handBack t ht _ =>
    exact ⟨fun r hr => h.ids_lt r (List.mem_of_mem_filter hr),
      (List.filter_sublist.map _).nodup h.ids_nodup⟩
  | recordSegment t u _ _ _ _ =>
    refine ⟨fun r hr => ?_, ?_⟩
    · rw [tasks_record] at hr
      rw [nextTask_record]
      exact h.ids_lt r hr
    · rw [tasks_record]
      exact h.ids_nodup
  | unfeed | release | stop | isPrimary | settle => exact ⟨h.ids_lt, h.ids_nodup⟩

end SpeakingTurn

end VoxTranslate.Engine
