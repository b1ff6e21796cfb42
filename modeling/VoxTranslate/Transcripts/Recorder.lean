import VoxTranslate.Base
import VoxTranslate.Lib.Assoc
import VoxTranslate.Lib.Place
import VoxTranslate.Lib.Run
import VoxTranslate.Lib.Table
import VoxTranslate.Transcripts.Export

/-!
# The transcript recorder (`transcripts.rs`)

What is said in a call goes onto a channel, and one task takes it from there into the database,
a batch at a time.  A batch that fails is gone, and an event whose session has no row is left out
of its batch.  When a call ends its session is deleted unless a signed-in user took part, while
the channel may still hold events of it.
-/

namespace VoxTranslate.Transcripts

open Lib

/-- The batch is inserted as soon as it is as long as this. -/
def BATCH_MAX : Nat := 64

/-- One captured utterance. -/
structure TranscriptEvent where
  sessionId : Uuid
  kind : EventKind
  speakerPeerId : String
  /-- `none` for guests. -/
  speakerUserId : Option Uuid
  speakerName : String
  originalText : String
  originalLang : String
  translations : Assoc String String
  ts : Timestamp
  deriving DecidableEq

inductive RecorderMsg where
  | event (event : TranscriptEvent)
  /-- The barrier of call `ack` of `flush`. -/
  | flush (ack : Nat)
  deriving DecidableEq

/-- `call_sessions.kind`. -/
inductive SessionKind where
  | call
  | voiceMessage
  | phone
  deriving DecidableEq, Repr

/-- A row of `room_business_bindings`. -/
structure RoomBinding where
  orgId : Uuid
  projectId : Option Uuid
  cloudRecordingEnabled : Bool
  deriving DecidableEq, Repr

/-- A row of `call_sessions`. -/
structure CallSession where
  id : Uuid
  room : String
  orgId : Option Uuid
  projectId : Option Uuid
  cloudRecordingEnabled : Bool
  kind : SessionKind
  endedAt : Option Timestamp
  deriving DecidableEq, Repr

/-- A row of `session_participants`. -/
structure SessionParticipant where
  id : Uuid
  sessionId : Uuid
  peerId : String
  userId : Option Uuid
  name : String
  lang : String
  leftAt : Option Timestamp
  deriving DecidableEq, Repr

/-- What became of an event that a batch was built from. -/
inductive Fate where
  | stored
  /-- Its session had no row. -/
  | dropped
  /-- Its batch failed. -/
  | lost
  /-- It was stored, and deleted with its session or with the account of its speaker. -/
  | deleted
  deriving DecidableEq, Repr

/-- A call of `finalize_session`, at what it does next. -/
inductive FinalizeTask where
  /-- Waits for its barrier. -/
  | flushing (ack : Nat) (sessionId : Uuid)
  | stamping (ack : Nat) (sessionId : Uuid)
  | purging (ack : Nat) (sessionId : Uuid)
  | finalized (ack : Nat) (sessionId : Uuid)
  | failed
  deriving DecidableEq, Repr

namespace FinalizeTask

def isEnded : FinalizeTask → Bool
  | .finalized _ _ | .failed => true
  | _ => false

/-- The barrier that the call has waited for. -/
def waited : FinalizeTask → Option Nat
  | .stamping ack _ | .purging ack _ | .finalized ack _ => some ack
  | _ => none

end FinalizeTask

/-- The tables that the service reads and writes. -/
structure Db where
  users : List Uuid
  sessions : List CallSession
  participants : List SessionParticipant
  events : List TranscriptEvent
  nextParticipant : Uuid

/-- The service with its database and its recorder. -/
structure Recorder where
  db : Db
  queue : List RecorderMsg
  buf : List TranscriptEvent
  /-- The barriers that were acknowledged. -/
  acked : List Nat
  finalizing : List FinalizeTask
  /-- Somebody holds the service. -/
  isOpen : Bool
  stopped : Bool
  /-- Every event that was ever recorded. -/
  recorded : List TranscriptEvent
  /-- Every event that a batch was built from. -/
  handled : List (TranscriptEvent × Fate)
  /-- How many events had been recorded at each call of `flush`. -/
  marks : List Nat

/-- A statement that writes no event. -/
inductive Statement where
  | userCreated (userId : Uuid)
  | sessionStarted (sessionId : Uuid) (room : String)
  /-- The row of a telephone call or of a voice message. -/
  | sessionInserted (row : CallSession)
  | participantJoined (sessionId : Uuid) (peerId : String) (userId : Option Uuid)
      (name lang : String)
  | updateParticipantLang (participantId : Uuid) (lang : String)
  | participantLeft (participantId : Uuid) (now : Timestamp)

inductive RecorderAction where
  | execute (statement : Statement)
  /-- The rows that refer to the user go with them. -/
  | userDeleted (userId : Uuid)
  | record (event : TranscriptEvent)
  | flush
  | finalizeSession (sessionId : Uuid)
  /-- The next statement of call `i` of `finalize_session`. -/
  | advance (i : Nat) (ok : Bool) (now : Timestamp)
  /-- The recorder takes what the channel holds next, and a batch that it inserts succeeds or
  not. -/
  | recv (ok : Bool)
  | tick (ok : Bool)
  /-- The last handle of the service is dropped. -/
  | closed

namespace RecorderAction

/-- The session that gets a row. -/
def starts : RecorderAction → Option Uuid
  | .execute (.sessionStarted sessionId _) => some sessionId
  | .execute (.sessionInserted row) => some row.id
  | _ => none

end RecorderAction

namespace RecorderMsg

def event? : RecorderMsg → Option TranscriptEvent
  | .event ev => some ev
  | .flush _ => none

end RecorderMsg

namespace Db

def hasSession (db : Db) (sessionId : Uuid) : Bool :=
  db.sessions.any fun row => row.id = sessionId

/-- `REFERENCES users(id)`. -/
def hasUser (db : Db) (userId : Option Uuid) : Bool := userId.all fun u => db.users.contains u

/-- `EXISTS (SELECT 1 FROM session_participants ... user_id IS NOT NULL)`. -/
def signedIn (db : Db) (sessionId : Uuid) : Bool :=
  db.participants.any fun p => p.sessionId = sessionId && p.userId.isSome

/-- What the `DELETE` of `finalize_session` asks of a row. -/
def isGuestOnly (db : Db) (row : CallSession) : Bool := row.kind ≠ .phone && !db.signedIn row.id

/-- What a row of `transcript_events` refers to is there. -/
def admits (db : Db) (ev : TranscriptEvent) : Bool :=
  db.hasSession ev.sessionId && db.hasUser ev.speakerUserId

/-- `DELETE FROM users`.  The rows that refer to the user cascade. -/
def deleteUser (db : Db) (userId : Uuid) : Db :=
  { db with
    users := db.users.filter fun u => u ≠ userId
    participants := db.participants.filter fun p => p.userId ≠ some userId
    events := db.events.filter fun ev => ev.speakerUserId ≠ some userId }

/-- `DELETE FROM call_sessions`.  The rows that refer to the session cascade. -/
def deleteSession (db : Db) (sessionId : Uuid) : Db :=
  { db with
    sessions := db.sessions.filter fun row => row.id ≠ sessionId
    participants := db.participants.filter fun p => p.sessionId ≠ sessionId
    events := db.events.filter fun ev => ev.sessionId ≠ sessionId }

/-- Whether the `DELETE` of `finalize_session` finds a row. -/
def purges (db : Db) (sessionId : Uuid) : Bool :=
  db.sessions.any fun row => row.id = sessionId && db.isGuestOnly row

/-- `UPDATE call_sessions SET ended_at = now() WHERE id = $1 AND ended_at IS NULL`. -/
def stamp (db : Db) (sessionId : Uuid) (now : Timestamp) : Db :=
  { db with
    sessions := Table.update CallSession.id db.sessions sessionId fun row =>
      { row with endedAt := some (row.endedAt.getD now) } }

def updateParticipant (db : Db) (participantId : Uuid)
    (f : SessionParticipant → SessionParticipant) : Db :=
  { db with participants := Table.update SessionParticipant.id db.participants participantId f }

end Db

namespace Recorder

def empty : Recorder := ⟨⟨[], [], [], [], 0⟩, [], [], [], [], true, false, [], [], []⟩

/-- The events that the channel holds. -/
def queued (queue : List RecorderMsg) : List TranscriptEvent := queue.filterMap RecorderMsg.event?

/-- `insert_batch`.  The events join their sessions, and a speaker without an account fails the
whole of the statement. -/
def insertBatch (s : Recorder) (ok : Bool) : Recorder :=
  let rows := s.buf.filter fun ev => s.db.hasSession ev.sessionId
  if ok && rows.all fun ev => s.db.hasUser ev.speakerUserId then
    { s with
      db := { s.db with events := s.db.events ++ rows }
      buf := []
      handled := s.handled ++
        s.buf.map fun ev => (ev, if s.db.hasSession ev.sessionId then .stored else .dropped) }
  else { s with buf := [], handled := s.handled ++ s.buf.map fun ev => (ev, .lost) }

/-- The rows of `transcript_events` that meet `gone` are deleted. -/
def forget (gone : TranscriptEvent → Bool) (handled : List (TranscriptEvent × Fate)) :
    List (TranscriptEvent × Fate) :=
  handled.map fun e => if e.2 = .stored ∧ gone e.1 = true then (e.1, .deleted) else e

/-- The `DELETE` of `finalize_session`. -/
def purge (s : Recorder) (sessionId : Uuid) : Recorder :=
  if s.db.purges sessionId then
    { s with
      db := s.db.deleteSession sessionId
      handled := forget (fun ev => ev.sessionId = sessionId) s.handled }
  else s

def setTask (s : Recorder) (i : Nat) (task : FinalizeTask) : Recorder :=
  { s with finalizing := s.finalizing.set i task }

/-- A call of `finalize_session` goes on.  The error of a statement ends it. -/
def advance (s : Recorder) (i : Nat) (ok : Bool) (now : Timestamp) :
    FinalizeTask → Option Recorder
  | .flushing ack sessionId =>
    if ack ∈ s.acked then some (s.setTask i (.stamping ack sessionId)) else none
  | .stamping ack sessionId =>
    some (if ok then { s with db := s.db.stamp sessionId now }.setTask i (.purging ack sessionId)
      else s.setTask i .failed)
  | .purging ack sessionId =>
    some (if ok then (s.purge sessionId).setTask i (.finalized ack sessionId)
      else s.setTask i .failed)
  | .finalized _ _ | .failed => none

/-- The row that `session_started` inserts. -/
def newSession (bindings : String → Option RoomBinding) (sessionId : Uuid) (room : String) :
    CallSession where
  id := sessionId
  room := room
  orgId := (bindings room).map (·.orgId)
  projectId := (bindings room).bind (·.projectId)
  cloudRecordingEnabled := ((bindings room).map (·.cloudRecordingEnabled)).getD false
  kind := .call
  endedAt := none

/-- `run_recorder`: what is done with a message. -/
def receive (s : Recorder) (ok : Bool) : Option Recorder :=
  match s.queue with
  | .event ev :: rest =>
    let t := { s with queue := rest, buf := s.buf ++ [ev] }
    some (if BATCH_MAX ≤ t.buf.length then t.insertBatch ok else t)
  | .flush ack :: rest =>
    some { ({ s with queue := rest }.insertBatch ok) with acked := s.acked ++ [ack] }
  | [] => if s.isOpen then none else some { s.insertBatch ok with stopped := true }

/-- What a statement does to the tables, unless the database refuses it. -/
def execute (bindings : String → Option RoomBinding) (db : Db) : Statement → Option Db
  | .userCreated userId =>
    if userId ∈ db.users then none else some { db with users := userId :: db.users }
  | .sessionStarted sessionId room =>
    some (if db.hasSession sessionId then db
      else { db with sessions := db.sessions ++ [newSession bindings sessionId room] })
  | .sessionInserted row =>
    if db.hasSession row.id then none else some { db with sessions := db.sessions ++ [row] }
  | .participantJoined sessionId peerId userId name lang =>
    if db.hasSession sessionId && db.hasUser userId then
      some { db with
        participants := db.participants ++
          [⟨db.nextParticipant, sessionId, peerId, userId, name, lang, none⟩]
        nextParticipant := db.nextParticipant + 1 }
    else none
  | .updateParticipantLang participantId lang =>
    some (db.updateParticipant participantId fun p => { p with lang := lang })
  | .participantLeft participantId now =>
    some (db.updateParticipant participantId fun p => { p with leftAt := some (p.leftAt.getD now) })

-- the rows of `room_business_bindings`
variable (bindings : String → Option RoomBinding)

def step (s : Recorder) : RecorderAction → Option Recorder
  | .execute statement => (execute bindings s.db statement).map fun db => { s with db := db }
  | .userDeleted userId =>
    some { s with
      db := s.db.deleteUser userId
      handled := forget (fun ev => ev.speakerUserId = some userId) s.handled }
  | .record ev =>
    if s.isOpen then
      some { s with queue := s.queue ++ [.event ev], recorded := s.recorded ++ [ev] }
    else none
  | .flush =>
    if s.isOpen then
      some { s with
        queue := s.queue ++ [.flush s.marks.length]
        marks := s.marks ++ [s.recorded.length] }
    else none
  | .finalizeSession sessionId =>
    if s.isOpen then
      some { s with
        queue := s.queue ++ [.flush s.marks.length]
        marks := s.marks ++ [s.recorded.length]
        finalizing := s.finalizing ++ [.flushing s.marks.length sessionId] }
    else none
  | .advance i ok now => do
    let task ← s.finalizing[i]?
    s.advance i ok now task
  | .recv ok => if s.stopped then none else s.receive ok
  | .tick ok => if s.stopped then none else some (s.insertBatch ok)
  -- a call in progress holds the service
  | .closed =>
    if s.finalizing.all FinalizeTask.isEnded then some { s with isOpen := false } else none

variable {bindings} {s t u v : Recorder} {a : RecorderAction} {as bs : List RecorderAction}
  {ok : Bool} {ack i : Nat} {sessionId userId : Uuid} {ev : TranscriptEvent}

/-! ## Where an event is -/

/-- The events of which the rows are there. -/
def stored (handled : List (TranscriptEvent × Fate)) : List TranscriptEvent :=
  (handled.filter fun e => e.2 = .stored).map Prod.fst

@[simp] lemma stored_append (handled handled' : List (TranscriptEvent × Fate)) :
    stored (handled ++ handled') = stored handled ++ stored handled' := by
  simp [stored]

@[simp] lemma queued_append (queue queue' : List RecorderMsg) :
    queued (queue ++ queue') = queued queue ++ queued queue' := List.filterMap_append

@[simp] lemma queued_event (ev : TranscriptEvent) (queue : List RecorderMsg) :
    queued (.event ev :: queue) = ev :: queued queue := rfl

@[simp] lemma queued_flush (ack : Nat) (queue : List RecorderMsg) :
    queued (.flush ack :: queue) = queued queue := rfl

@[simp] lemma queued_nil : queued [] = [] := rfl

/-- The events of a batch that succeeds. -/
lemma stored_joined (buf : List TranscriptEvent) (p : TranscriptEvent → Bool) :
    stored (buf.map fun ev => (ev, if p ev then Fate.stored else .dropped)) = buf.filter p := by
  induction buf with
  | nil => rfl
  | cons ev buf ih =>
    rw [List.filter_cons, ← ih]
    by_cases hp : p ev <;> simp [stored, hp]

lemma stored_lost (buf : List TranscriptEvent) : stored (buf.map fun ev => (ev, Fate.lost)) = [] := by
  simp [stored]

lemma stored_forget (handled : List (TranscriptEvent × Fate)) (gone : TranscriptEvent → Bool) :
    stored (forget gone handled) = (stored handled).filter fun ev => !gone ev := by
  induction handled with
  | nil => rfl
  | cons e handled ih =>
    obtain ⟨ev, fate⟩ := e
    simp only [stored, forget] at ih ⊢
    by_cases hfate : fate = .stored
    · by_cases hgone : gone ev = true <;> simp [hfate, hgone, ih]
    · simp [hfate, ih]

@[simp] lemma fst_forget (handled : List (TranscriptEvent × Fate)) (gone : TranscriptEvent → Bool) :
    (forget gone handled).map Prod.fst = handled.map Prod.fst := by
  rw [forget, List.map_map]
  refine List.map_congr_left fun e _ => ?_
  rw [Function.comp_apply]
  split_ifs <;> rfl

@[simp] lemma length_forget (handled : List (TranscriptEvent × Fate))
    (gone : TranscriptEvent → Bool) : (forget gone handled).length = handled.length :=
  List.length_map _

/-- Every event that was recorded is on the channel, in the buffer or was put into a batch, in the
order in which they were recorded, and the table holds those of which the fate says so. -/
structure Accounted (s : Recorder) : Prop where
  order : s.recorded = s.handled.map Prod.fst ++ (s.buf ++ queued s.queue)
  table : s.db.events = stored s.handled
  /-- What was recorded before the call of a barrier is what comes before it on the channel. -/
  barrier : ∀ pre ack post, s.queue = pre ++ .flush ack :: post →
    s.marks[ack]? = some (s.handled.length + (s.buf.length + (queued pre).length))
  acked : ∀ ack ∈ s.acked, ∃ mark, s.marks[ack]? = some mark ∧ mark ≤ s.handled.length
  waited : ∀ task ∈ s.finalizing, ∀ ack, task.waited = some ack → ack ∈ s.acked

lemma accounted_empty : empty.Accounted where
  order := rfl
  table := rfl
  barrier := by simp [empty]
  acked := by simp [empty]
  waited := by simp [empty]

/-- A batch is built from the buffer, whether it succeeds or not. -/
lemma insertBatch_cases (s : Recorder) (ok : Bool) :
    ∃ fates, fates.map Prod.fst = s.buf ∧ (∀ ev ∈ stored fates, s.db.admits ev = true) ∧
      s.insertBatch ok = { s with
        db := { s.db with events := s.db.events ++ stored fates }
        buf := []
        handled := s.handled ++ fates } := by
  rw [insertBatch]
  split_ifs with hok
  · refine ⟨s.buf.map fun ev => (ev, if s.db.hasSession ev.sessionId then .stored else .dropped),
      ?_, ?_, ?_⟩
    · simp [Function.comp_def]
    · intro ev hev
      rw [stored_joined] at hev
      have husers := (Bool.and_eq_true_iff.mp hok).2
      exact Bool.and_eq_true_iff.mpr
        ⟨(List.mem_filter.mp hev).2, List.all_eq_true.mp husers ev hev⟩
    · rw [stored_joined]
  · refine ⟨s.buf.map fun ev => (ev, .lost), ?_, ?_, ?_⟩
    · simp [Function.comp_def]
    · simp [stored_lost]
    · rw [stored_lost, List.append_nil]

lemma Accounted.insertBatch (h : s.Accounted) (ok : Bool) : (s.insertBatch ok).Accounted := by
  obtain ⟨fates, hfates, -, heq⟩ := insertBatch_cases s ok
  have hlength : fates.length = s.buf.length := by rw [← hfates, List.length_map]
  rw [heq]
  refine ⟨?_, ?_, ?_, ?_, h.waited⟩
  · simp [h.order, hfates]
  · simp [h.table]
  · intro pre ack post hqueue
    rw [h.barrier pre ack post hqueue]
    simp only [List.length_append, List.length_nil, hlength]
    congr 1
    omega
  · intro ack hack
    obtain ⟨mark, hmark, hle⟩ := h.acked ack hack
    refine ⟨mark, hmark, hle.trans ?_⟩
    rw [List.length_append]
    omega

/-- Rows are deleted. -/
lemma Accounted.forget (h : s.Accounted) (gone : TranscriptEvent → Bool) {db : Db}
    (hevents : db.events = s.db.events.filter fun ev => !gone ev) :
    ({ s with db := db, handled := Recorder.forget gone s.handled } : Recorder).Accounted := by
  refine ⟨?_, ?_, ?_, ?_, h.waited⟩
  · rw [fst_forget]
    exact h.order
  · rw [stored_forget, hevents, h.table]
  · rw [length_forget]
    exact h.barrier
  · rw [length_forget]
    exact h.acked

/-- No row of `transcript_events` is touched. -/
lemma Accounted.setDb (h : s.Accounted) {db : Db} (hevents : db.events = s.db.events) :
    ({ s with db := db } : Recorder).Accounted :=
  ⟨h.order, hevents.trans h.table, h.barrier, h.acked, h.waited⟩

lemma Accounted.purge (h : s.Accounted) (sessionId : Uuid) : (s.purge sessionId).Accounted := by
  rw [Recorder.purge]
  split_ifs
  · exact h.forget _ (by simp [Db.deleteSession])
  · exact h

lemma acked_purge (s : Recorder) (sessionId : Uuid) : (s.purge sessionId).acked = s.acked := by
  rw [Recorder.purge]
  split_ifs <;> rfl

/-- A call of `finalize_session` goes on. -/
lemma Accounted.setTask (h : s.Accounted) (i : Nat) {task : FinalizeTask}
    (htask : ∀ ack, task.waited = some ack → ack ∈ s.acked) : (s.setTask i task).Accounted := by
  refine ⟨h.order, h.table, h.barrier, h.acked, ?_⟩
  intro task' htask'
  rcases List.mem_or_eq_of_mem_set htask' with hold | rfl
  · exact h.waited task' hold
  · exact htask

lemma Accounted.advance (h : s.Accounted) {task : FinalizeTask} {now : Timestamp}
    (htask : task ∈ s.finalizing) (hstep : s.advance i ok now task = some t) : t.Accounted := by
  have hnone : ∀ ack, FinalizeTask.failed.waited = some ack → ack ∈ s.acked := nofun
  cases task with
  | flushing ack sessionId =>
    obtain ⟨hack, heq⟩ := Option.ite_none_right_eq_some.mp hstep
    cases heq
    refine h.setTask i ?_
    rintro _ ⟨⟩
    exact hack
  | stamping ack sessionId =>
    have hold := h.waited _ htask
    cases hstep
    split_ifs
    · have hstamp : ({ s with db := s.db.stamp sessionId now } : Recorder).Accounted := h.setDb rfl
      exact hstamp.setTask i hold
    · exact h.setTask i hnone
  | purging ack sessionId =>
    have hold := h.waited _ htask
    cases hstep
    split_ifs
    · refine (h.purge sessionId).setTask i ?_
      rw [acked_purge]
      exact hold
    · exact h.setTask i hnone
  | finalized ack sessionId => cases hstep
  | failed => cases hstep

/-- A message leaves the channel, and an event goes into the buffer. -/
lemma Accounted.event (h : s.Accounted) {rest : List RecorderMsg}
    (hqueue : s.queue = .event ev :: rest) :
    ({ s with queue := rest, buf := s.buf ++ [ev] } : Recorder).Accounted := by
  refine ⟨?_, h.table, ?_, h.acked, h.waited⟩
  · simp [h.order, hqueue]
  · intro pre ack post hrest
    have hrest : rest = pre ++ .flush ack :: post := hrest
    rw [h.barrier (.event ev :: pre) ack post (by rw [hqueue, hrest, List.cons_append])]
    simp only [queued_event, List.length_cons, List.length_append, List.length_nil]
    congr 1
    omega

/-- A barrier is acknowledged once the buffer before it was put into a batch. -/
lemma Accounted.flushed (h : s.Accounted) (ok : Bool) {rest : List RecorderMsg}
    (hqueue : s.queue = .flush ack :: rest) :
    ({ ({ s with queue := rest }.insertBatch ok) with
      acked := s.acked ++ [ack] } : Recorder).Accounted := by
  -- what stood ahead of the barrier has left the queue: its mark counts the fates and the buffer
  have hmark := h.barrier [] ack rest hqueue
  have hrest : ({ s with queue := rest } : Recorder).Accounted := by
    refine ⟨?_, h.table, ?_, h.acked, h.waited⟩
    · rw [h.order, hqueue, queued_flush]
    · intro pre ack' post hrest
      have hrest : rest = pre ++ .flush ack' :: post := hrest
      have hall := h.barrier (.flush ack :: pre) ack' post (by rw [hqueue, hrest, List.cons_append])
      rwa [queued_flush] at hall
  obtain ⟨fates, hfates, -, heq⟩ := insertBatch_cases { s with queue := rest } ok
  have hbatch := hrest.insertBatch ok
  have hlength : fates.length = s.buf.length := by rw [← hfates, List.length_map]
  rw [heq] at hbatch ⊢
  refine ⟨hbatch.order, hbatch.table, hbatch.barrier, ?_, ?_⟩
  · intro ack' hack'
    rcases List.mem_append.mp hack' with hold | hnew
    · exact hbatch.acked ack' hold
    · rw [List.mem_singleton] at hnew
      refine ⟨_, hnew ▸ hmark, ?_⟩
      simp only [queued_nil, List.length_append, List.length_nil, hlength]
      omega
  · intro task htask ack' hwaited
    exact List.mem_append_left _ (hbatch.waited task htask ack' hwaited)

lemma Accounted.receive (h : s.Accounted) (hstep : s.receive ok = some t) : t.Accounted := by
  rw [Recorder.receive] at hstep
  split at hstep
  · next ev rest hqueue =>
    cases hstep
    split_ifs
    · exact (h.event hqueue).insertBatch ok
    · exact h.event hqueue
  · next ack rest hqueue =>
    cases hstep
    exact h.flushed ok hqueue
  · next hqueue =>
    split_ifs at hstep
    cases hstep
    have hbatch := h.insertBatch ok
    exact ⟨hbatch.order, hbatch.table, hbatch.barrier, hbatch.acked, hbatch.waited⟩

/-- An event is put on the channel. -/
lemma Accounted.record (h : s.Accounted) (ev : TranscriptEvent) :
    ({ s with queue := s.queue ++ [.event ev], recorded := s.recorded ++ [ev] } :
      Recorder).Accounted := by
  refine ⟨?_, h.table, ?_, h.acked, h.waited⟩
  · simp [h.order]
  · intro pre ack post hqueue
    have hqueue : s.queue ++ [.event ev] = pre ++ .flush ack :: post := hqueue
    rcases List.append_eq_append_iff.mp hqueue with ⟨mid, hpre, hmid⟩ | ⟨mid, hs, hmid⟩
    · cases mid with
      | nil => cases hmid
      | cons m mid => simp at hmid
    · cases mid with
      | nil => cases hmid
      | cons m mid =>
        cases hmid
        exact h.barrier pre ack mid hs

/-- A barrier is put on the channel. -/
lemma Accounted.flush (h : s.Accounted) :
    ({ s with
      queue := s.queue ++ [.flush s.marks.length]
      marks := s.marks ++ [s.recorded.length] } : Recorder).Accounted := by
  have hmarks : ∀ {ack mark : Nat}, s.marks[ack]? = some mark →
      (s.marks ++ [s.recorded.length])[ack]? = some mark := fun hmark =>
    Place.getElem?_concat_of_some hmark
  refine ⟨?_, h.table, ?_, ?_, h.waited⟩
  · simp [h.order]
  · intro pre ack post hqueue
    have hqueue : s.queue ++ [.flush s.marks.length] = pre ++ .flush ack :: post := hqueue
    -- the barrier is the new one, at the end, or one that stood in the queue
    rcases List.append_eq_append_iff.mp hqueue with ⟨mid, hpre, hmid⟩ | ⟨mid, hs, hmid⟩
    · cases mid with
      | nil =>
        cases hmid
        rw [List.append_nil] at hpre
        rw [List.getElem?_concat_length, h.order, hpre]
        simp
      | cons m mid => simp at hmid
    · cases mid with
      | nil =>
        cases hmid
        rw [List.append_nil] at hs
        rw [List.getElem?_concat_length, h.order, hs]
        simp
      | cons m mid =>
        cases hmid
        exact hmarks (h.barrier pre ack mid hs)
  · intro ack hack
    obtain ⟨mark, hmark, hle⟩ := h.acked ack hack
    exact ⟨mark, hmarks hmark, hle⟩

/-- A statement of another table leaves the events. -/
lemma events_execute {db db' : Db} {statement : Statement}
    (hstep : execute bindings db statement = some db') : db'.events = db.events := by
  cases statement with
  | userCreated userId =>
    obtain ⟨-, heq⟩ := Option.ite_none_left_eq_some.mp hstep
    cases heq
    rfl
  | sessionStarted sessionId room =>
    cases hstep
    split_ifs <;> rfl
  | sessionInserted row =>
    obtain ⟨-, heq⟩ := Option.ite_none_left_eq_some.mp hstep
    cases heq
    rfl
  | participantJoined sessionId peerId userId name lang =>
    obtain ⟨-, heq⟩ := Option.ite_none_right_eq_some.mp hstep
    cases heq
    rfl
  | updateParticipantLang participantId lang =>
    cases hstep
    rfl
  | participantLeft participantId now =>
    cases hstep
    rfl

lemma Accounted.step (h : s.Accounted) (hstep : step bindings s a = some t) : t.Accounted := by
  cases a with
  | execute statement =>
    obtain ⟨db, hdb, heq⟩ := Option.map_eq_some_iff.mp hstep
    cases heq
    exact h.setDb (events_execute hdb)
  | userDeleted userId =>
    cases hstep
    exact h.forget _ (by simp [Db.deleteUser])
  | record ev =>
    obtain ⟨-, heq⟩ := Option.ite_none_right_eq_some.mp hstep
    cases heq
    exact h.record ev
  | flush =>
    obtain ⟨-, heq⟩ := Option.ite_none_right_eq_some.mp hstep
    cases heq
    exact h.flush
  | finalizeSession sessionId =>
    obtain ⟨-, heq⟩ := Option.ite_none_right_eq_some.mp hstep
    cases heq
    -- the task is new and has waited for nothing yet
    have hflush := h.flush
    refine ⟨hflush.order, hflush.table, hflush.barrier, hflush.acked, ?_⟩
    intro task htask ack hwaited
    rcases List.mem_append.mp htask with hold | hnew
    · exact h.waited task hold ack hwaited
    · rw [List.mem_singleton] at hnew
      rw [hnew] at hwaited
      cases hwaited
  | advance i ok now =>
    obtain ⟨task, htask, hstep⟩ := Option.bind_eq_some_iff.mp hstep
    exact h.advance (List.mem_of_getElem? htask) hstep
  | recv ok =>
    obtain ⟨-, hstep⟩ := Option.ite_none_left_eq_some.mp hstep
    exact h.receive hstep
  | tick ok =>
    obtain ⟨-, heq⟩ := Option.ite_none_left_eq_some.mp hstep
    cases heq
    exact h.insertBatch ok
  | closed =>
    obtain ⟨-, heq⟩ := Option.ite_none_right_eq_some.mp hstep
    cases heq
    exact ⟨h.order, h.table, h.barrier, h.acked, h.waited⟩

/-! ## Over whole runs -/

/-- The runs of the service. -/
abbrev Runs (bindings : String → Option RoomBinding) := Run (ofPartial (step bindings))

lemma accounted_of_run (hrun : Runs bindings empty as s) : s.Accounted :=
  hrun.invariant Accounted (fun _ _ _ _ h hstep => h.step hstep) accounted_empty

/-- What was recorded, and what the barriers know of it. -/
def Extends (s t : Recorder) : Prop := s.recorded <+: t.recorded ∧ s.marks <+: t.marks

lemma extends_of_eq (hrecorded : t.recorded = s.recorded) (hmarks : t.marks = s.marks) :
    Extends s t := by
  rw [Extends, hrecorded, hmarks]
  exact ⟨List.prefix_rfl, List.prefix_rfl⟩

lemma extends_insertBatch (s : Recorder) (ok : Bool) : Extends s (s.insertBatch ok) := by
  obtain ⟨fates, -, -, heq⟩ := insertBatch_cases s ok
  rw [heq]
  exact extends_of_eq rfl rfl

lemma extends_receive (hstep : s.receive ok = some t) : Extends s t := by
  rw [receive] at hstep
  split at hstep
  · next ev rest hqueue =>
    cases hstep
    split_ifs
    · exact extends_insertBatch { s with queue := rest, buf := s.buf ++ [ev] } ok
    · exact extends_of_eq rfl rfl
  · next ack rest hqueue =>
    cases hstep
    exact extends_insertBatch { s with queue := rest } ok
  · obtain ⟨-, heq⟩ := Option.ite_none_left_eq_some.mp hstep
    cases heq
    exact extends_insertBatch s ok

lemma extends_advance {now : Timestamp} {task : FinalizeTask}
    (hstep : s.advance i ok now task = some t) : Extends s t := by
  cases task with
  | flushing ack sessionId =>
    obtain ⟨-, heq⟩ := Option.ite_none_right_eq_some.mp hstep
    cases heq
    exact extends_of_eq rfl rfl
  | stamping ack sessionId =>
    cases hstep
    split_ifs <;> exact extends_of_eq rfl rfl
  | purging ack sessionId =>
    cases hstep
    split_ifs
    · have hpurge : Extends s (s.purge sessionId) := by
        rw [purge]
        split_ifs <;> exact extends_of_eq rfl rfl
      exact hpurge
    · exact extends_of_eq rfl rfl
  | finalized ack sessionId => cases hstep
  | failed => cases hstep

lemma extends_step (hstep : step bindings s a = some t) : Extends s t := by
  cases a with
  | execute statement =>
    obtain ⟨db, -, heq⟩ := Option.map_eq_some_iff.mp hstep
    cases heq
    exact extends_of_eq rfl rfl
  | userDeleted userId =>
    cases hstep
    exact extends_of_eq rfl rfl
  | record ev =>
    obtain ⟨-, heq⟩ := Option.ite_none_right_eq_some.mp hstep
    cases heq
    exact ⟨List.prefix_append _ _, List.prefix_rfl⟩
  | flush =>
    obtain ⟨-, heq⟩ := Option.ite_none_right_eq_some.mp hstep
    cases heq
    exact ⟨List.prefix_rfl, List.prefix_append _ _⟩
  | finalizeSession sessionId =>
    obtain ⟨-, heq⟩ := Option.ite_none_right_eq_some.mp hstep
    cases heq
    exact ⟨List.prefix_rfl, List.prefix_append _ _⟩
  | advance i ok now =>
    obtain ⟨task, -, hstep⟩ := Option.bind_eq_some_iff.mp hstep
    exact extends_advance hstep
  | recv ok =>
    obtain ⟨-, hstep⟩ := Option.ite_none_left_eq_some.mp hstep
    exact extends_receive hstep
  | tick ok =>
    obtain ⟨-, heq⟩ := Option.ite_none_left_eq_some.mp hstep
    cases heq
    exact extends_insertBatch s ok
  | closed =>
    obtain ⟨-, heq⟩ := Option.ite_none_right_eq_some.mp hstep
    cases heq
    exact extends_of_eq rfl rfl

lemma extends_run (hrun : Runs bindings s as t) : Extends s t :=
  hrun.related (I := fun _ => True) (fun _ => extends_of_eq rfl rfl)
    (fun _ _ _ h h' => ⟨h.1.trans h'.1, h.2.trans h'.2⟩)
    (fun _ _ _ _ hstep => ⟨trivial, extends_step hstep⟩) trivial

/-- What a guest says in a room. -/
def greeting : TranscriptEvent := ⟨1, .speech, "p", none, "Ada", "ciao", "it", ∅, 0⟩

/-- A guest has said something. -/
def greeted : Recorder :=
  { empty with
    db := { empty.db with sessions := [newSession (fun _ => none) 1 "room"] }
    queue := [.event greeting]
    recorded := [greeting] }

end Recorder

end VoxTranslate.Transcripts
