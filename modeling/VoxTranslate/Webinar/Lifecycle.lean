import VoxTranslate.Business.Credits
import VoxTranslate.Engine.Qwen
import VoxTranslate.Lib.Place
import VoxTranslate.Lib.Run
import VoxTranslate.Webinar.Metrics

/-!
# The lifecycle of a webinar (`webinar/routes.rs`)

A webinar is scheduled, goes on air and off air, and may be cancelled.  Each request reads the
row in one statement and writes it in another.  The statement that takes a webinar off the air
asks again whether it is live; the statements of the other requests ask for the id only, so
that what they have read may be out of date when they write.

The request that takes the webinar off the air also writes its session down and charges the
organisation of its host, and this is tried once.
-/

namespace VoxTranslate.Webinar

open Lib Business

/-! ## The row -/

inductive WebinarStatus where
  | scheduled
  | live
  | ended
  | cancelled
  deriving DecidableEq, Repr

inductive WebinarTier where
  | standard
  | enhanced
  deriving DecidableEq, Repr

inductive Visibility where
  | isPrivate
  | isPublic
  deriving DecidableEq, Repr

/-- The columns that a patch may write. -/
structure WebinarFields where
  title : String
  description : Option String
  tier : WebinarTier
  recordVideo : Bool
  recordTranscript : Bool
  voiceClone : Bool
  chatEnabled : Bool
  scheduledStart : Option Timestamp
  scheduledEnd : Option Timestamp
  projectId : Option Uuid
  visibility : Visibility
  membersOnly : Bool
  reminderMinutesBefore : Int
  sourceLanguage : String
  notifyFriends : Bool
  deriving DecidableEq, Repr

/-- A row of `webinars`. -/
structure WebinarRow where
  id : Uuid
  orgId : Uuid
  hostUserId : Option Uuid
  code : String
  status : WebinarStatus
  actualStart : Option Timestamp
  actualEnd : Option Timestamp
  fields : WebinarFields
  deriving DecidableEq, Repr

/-- `status == "ended" || status == "cancelled"`. -/
def WebinarStatus.isTerminal : WebinarStatus → Bool
  | .ended | .cancelled => true
  | _ => false

/-! ## What a patch asks for -/

/-- What a request is answered. -/
inductive Response where
  /-- `host_view`. -/
  | view (w : WebinarRow)
  | error (status : Nat) (message : String)
  deriving DecidableEq, Repr

def badRequest (message : String) : Response := .error 400 message

def notFound (message : String) : Response := .error 404 message

def conflict (message : String) : Response := .error 409 message

def dbErr : Response := .error 500 "db error"

def maxReminderMinutes : Int := 1440

/-- `SCHEDULE_PAST_TOLERANCE`. -/
def schedulePastTolerance : Int := 2 * 60 * 1000000

/-- The body of a patch. -/
structure PatchWebinar where
  title : Option String
  description : Option String
  tier : Option String
  recordVideo : Option Bool
  recordTranscript : Option Bool
  voiceClone : Option Bool
  chatEnabled : Option Bool
  visibility : Option String
  scheduledStart : Option Timestamp
  scheduledEnd : Option Timestamp
  projectId : Option Uuid
  membersOnly : Option Bool
  reminderMinutesBefore : Option Int
  sourceLanguage : Option String
  notifyFriends : Option Bool
  deriving DecidableEq, Repr

/-- What is bound to the statement of a patch. -/
structure WebinarEdit where
  title : Option String
  description : Option String
  tier : Option WebinarTier
  recordVideo : Option Bool
  recordTranscript : Option Bool
  voiceClone : Option Bool
  chatEnabled : Option Bool
  scheduledStart : Option Timestamp
  scheduledEnd : Option Timestamp
  projectId : Option Uuid
  visibility : Option Visibility
  membersOnly : Option Bool
  reminderMinutesBefore : Option Int
  sourceLanguage : Option String
  notifyFriends : Option Bool
  deriving DecidableEq, Repr

def validTitle (raw : String) : Except Response String :=
  let t := Engine.Text.trim raw.toList
  if t.isEmpty || t.length > 200 then .error (badRequest "title is required (max 200 chars)")
  else .ok (String.ofList t)

def validLang (raw : String) : Except Response String :=
  let l := Engine.Text.trim raw.toList
  if l.isEmpty || l.length > 32 || !l.all (fun c => c.isAlphanum || c = '-') then
    .error (badRequest "source_language must be a language code")
  else .ok (String.ofList l)

def validTier (raw : Option String) : Except Response WebinarTier :=
  match raw.map fun t => String.ofList (Engine.Text.trim t.toList) with
  | none | some "" | some "enhanced" => .ok .enhanced
  | some "standard" => .ok .standard
  | _ => .error (badRequest "tier must be 'standard' or 'enhanced'")

def validVisibility (raw : Option String) : Except Response Visibility :=
  match raw.map fun t => String.ofList (Engine.Text.trim t.toList) with
  | none | some "" | some "private" => .ok .isPrivate
  | some "public" => .ok .isPublic
  | _ => .error (badRequest "visibility must be 'public' or 'private'")

def validSchedule (start stop : Option Timestamp) (now : Timestamp) : Except Response Unit :=
  if start.any fun start => start < now - schedulePastTolerance then
    .error (badRequest "scheduled_start must be in the future")
  else
    match start, stop with
    | some start, some stop =>
      if stop ≤ start then .error (badRequest "scheduled_end must be after scheduled_start")
      else .ok ()
    | _, _ => .ok ()

namespace PatchWebinar

/-- The checks before the project is looked up, and what is bound after them. -/
def validate (body : PatchWebinar) : Except Response WebinarEdit := do
  let title ← body.title.mapM validTitle
  let tier ← body.tier.mapM fun t => validTier (some t)
  let visibility ← body.visibility.mapM fun v => validVisibility (some v)
  let sourceLanguage ← body.sourceLanguage.mapM validLang
  return {
    title := title
    description := body.description
    tier := tier
    recordVideo := body.recordVideo
    recordTranscript := body.recordTranscript
    voiceClone := body.voiceClone
    chatEnabled := body.chatEnabled
    scheduledStart := body.scheduledStart
    scheduledEnd := body.scheduledEnd
    projectId := body.projectId
    visibility := visibility
    membersOnly := body.membersOnly
    reminderMinutesBefore :=
      body.reminderMinutesBefore.map fun m => min (max m 0) maxReminderMinutes
    sourceLanguage := sourceLanguage
    notifyFriends := body.notifyFriends }

end PatchWebinar

namespace WebinarEdit

/-- The checks after the project was looked up. -/
def checkSchedule (edit : WebinarEdit) (w : WebinarRow) (now : Timestamp) :
    Except Response Unit := do
  validSchedule edit.scheduledStart none now
  match edit.scheduledEnd, edit.scheduledStart.or w.fields.scheduledStart with
  | some stop, some start =>
    if stop ≤ start then throw (badRequest "scheduled_end must be after scheduled_start")
  | _, _ => pure ()

/-- `COALESCE` of every column. -/
def apply (edit : WebinarEdit) (f : WebinarFields) : WebinarFields where
  title := edit.title.getD f.title
  description := edit.description.or f.description
  tier := edit.tier.getD f.tier
  recordVideo := edit.recordVideo.getD f.recordVideo
  recordTranscript := edit.recordTranscript.getD f.recordTranscript
  voiceClone := edit.voiceClone.getD f.voiceClone
  chatEnabled := edit.chatEnabled.getD f.chatEnabled
  scheduledStart := edit.scheduledStart.or f.scheduledStart
  scheduledEnd := edit.scheduledEnd.or f.scheduledEnd
  projectId := edit.projectId.or f.projectId
  visibility := edit.visibility.getD f.visibility
  membersOnly := edit.membersOnly.getD f.membersOnly
  reminderMinutesBefore := edit.reminderMinutesBefore.getD f.reminderMinutesBefore
  sourceLanguage := edit.sourceLanguage.getD f.sourceLanguage
  notifyFriends := edit.notifyFriends.getD f.notifyFriends

end WebinarEdit

/-! ## The four writes -/

namespace WebinarRow

/-- `INSERT INTO webinars`. -/
def created (id orgId : Uuid) (hostUserId : Option Uuid) (code : String) (fields : WebinarFields) :
    WebinarRow :=
  ⟨id, orgId, hostUserId, code, .scheduled, none, none, fields⟩

/-- `status = 'live', actual_start = COALESCE(actual_start, now()) WHERE id = $1`. -/
def publishStarted (now : Timestamp) (w : WebinarRow) : WebinarRow :=
  { w with status := .live, actualStart := w.actualStart.or (some now) }

/-- `status = 'ended', actual_end = now() WHERE id = $1 AND status = 'live'`. -/
def publishStopped (now : Timestamp) (w : WebinarRow) : WebinarRow :=
  if w.status = .live then { w with status := .ended, actualEnd := some now } else w

/-- `status = 'cancelled' WHERE id = $1`. -/
def cancel (w : WebinarRow) : WebinarRow := { w with status := .cancelled }

/-- The update of a patch, `WHERE id = $1`. -/
def patch (edit : WebinarEdit) (w : WebinarRow) : WebinarRow :=
  { w with fields := edit.apply w.fields }

/-- What is over stays over, what was stamped stays stamped, and what was locked stays as it
was. -/
structure Forward (u v : WebinarRow) : Prop where
  status : u.status.isTerminal = true → v.status = u.status
  actualStart : ∀ x, u.actualStart = some x → v.actualStart = some x
  actualEnd : ∀ x, u.actualEnd = some x → v.actualEnd = some x
  fields : u.actualStart.isSome = true → v.fields = u.fields

/-- Only a webinar that has ended bears the stamp of its end. -/
def Stamped (w : WebinarRow) : Prop := w.actualEnd.isSome = true → w.status = .ended

namespace Forward

variable {u v w : WebinarRow}

lemma refl (u : WebinarRow) : Forward u u where
  status := fun _ => rfl
  actualStart := fun _ h => h
  actualEnd := fun _ h => h
  fields := fun _ => rfl

lemma trans (h : Forward u v) (h' : Forward v w) : Forward u w where
  status := by
    intro hu
    have hv := h.status hu
    rw [← hv] at hu ⊢
    exact h'.status hu
  actualStart := fun x hx => h'.actualStart x (h.actualStart x hx)
  actualEnd := fun x hx => h'.actualEnd x (h.actualEnd x hx)
  fields := by
    intro hu
    obtain ⟨x, hx⟩ := Option.isSome_iff_exists.mp hu
    have hv : v.actualStart.isSome = true := by rw [h.actualStart x hx]; rfl
    exact (h'.fields hv).trans (h.fields hu)

lemma publishStarted_iff {now : Timestamp} :
    Forward u (u.publishStarted now) ↔ u.status.isTerminal = false := by
  constructor
  · intro h
    rw [Bool.eq_false_iff]
    intro hover
    have hlive : WebinarStatus.live = u.status := h.status hover
    rw [← hlive] at hover
    cases hover
  · intro hlive
    refine ⟨fun hover => ?_, fun x hx => ?_, fun _ h => h, fun _ => rfl⟩
    · rw [hlive] at hover
      cases hover
    · rw [publishStarted, hx]
      rfl

lemma publishStopped (h : u.Stamped) (now : Timestamp) : Forward u (u.publishStopped now) := by
  rw [WebinarRow.publishStopped]
  split_ifs with hlive
  · refine ⟨fun hover => ?_, fun _ h => h, fun x hx => ?_, fun _ => rfl⟩
    · rw [hlive] at hover
      cases hover
    · have hended := h (by rw [hx]; rfl)
      rw [hlive] at hended
      cases hended
  · exact refl u

lemma cancel_iff : Forward u u.cancel ↔ u.status ≠ .ended := by
  constructor
  · intro h hended
    have hcancelled : WebinarStatus.cancelled = u.status := h.status (by rw [hended]; rfl)
    rw [hended] at hcancelled
    cases hcancelled
  · intro hne
    refine ⟨fun hover => ?_, fun _ h => h, fun _ h => h, fun _ => rfl⟩
    show WebinarStatus.cancelled = u.status
    cases hstatus : u.status with
    | ended => exact absurd hstatus hne
    | cancelled => rfl
    | scheduled =>
      rw [hstatus] at hover
      cases hover
    | live =>
      rw [hstatus] at hover
      cases hover

lemma patch_iff {edit : WebinarEdit} :
    Forward u (u.patch edit) ↔ u.actualStart = none ∨ edit.apply u.fields = u.fields := by
  constructor
  · intro h
    cases hstart : u.actualStart with
    | none => exact .inl rfl
    | some x => exact .inr (h.fields (by rw [hstart]; rfl))
  · rintro hfields
    refine ⟨fun _ => rfl, fun _ h => h, fun _ h => h, fun hstarted => ?_⟩
    rcases hfields with hnone | hsame
    · rw [hnone] at hstarted
      cases hstarted
    · exact hsame

end Forward

end WebinarRow

/-! ## The requests -/

/-- What the two tiers are charged for, where it is configured. -/
structure WebinarPrices where
  /-- `billing.pricing.user_rate_per_minute`. -/
  userRatePerMinute : Option ℚ
  /-- `cost_per_minute * (1 + markup)`. -/
  cartesia : Option ℚ

/-- `WEBINAR_DEFAULT_STANDARD_RATE_USD`. -/
def webinarDefaultStandardRateUsd : ℚ := 1 / 100

/-- The rates of a tier. -/
def WebinarPrices.rates (prices : WebinarPrices) (tier : WebinarTier) : WebinarRates :=
  let standardRate := prices.userRatePerMinute.getD webinarDefaultStandardRateUsd
  match tier with
  | .enhanced => ⟨prices.cartesia.getD standardRate, 100⟩
  | .standard => ⟨standardRate, 100⟩

/-- A row of `webinar_sessions`. -/
structure SessionRecord where
  id : Uuid
  webinarId : Uuid
  orgId : Uuid
  hostUserId : Option Uuid
  actualStart : Timestamp
  actualEnd : Timestamp
  durationSeconds : Int
  scheduledStart : Option Timestamp
  scheduledEnd : Option Timestamp
  hostOnlineSeconds : Int
  peakViewers : Nat
  translatedLanguageCount : Nat
  costCredits : Int
  deriving DecidableEq, Repr

inductive LifecycleRequest where
  | publishStarted
  | publishStopped
  | cancel
  | patch (body : PatchWebinar)
  deriving DecidableEq, Repr

/-- A request at the statement that it sends next. -/
inductive LifecycleTask where
  /-- `find_by_id`. -/
  | read (request : LifecycleRequest)
  /-- `require_role`, with the row that was read. -/
  | role (request : LifecycleRequest) (w : WebinarRow)
  | startWrite
  | stopWrite
  /-- `find_by_id` after the update, which took the webinar off the air or did not. -/
  | stopFind (flipped : Bool)
  | cancelWrite
  | patchProject (edit : WebinarEdit) (w : WebinarRow)
  | patchWrite (edit : WebinarEdit)
  /-- `finalize_webinar_run` asks whether the run was written down. -/
  | sessionFind (current : WebinarRow)
  | loadEvents (current : WebinarRow)
  /-- The transaction that writes the run down and charges for it. -/
  | sessionInsert (current : WebinarRow) (m : WebinarMetrics)
  | responded (response : Response)
  deriving DecidableEq, Repr

/-- What the database says to a statement. -/
inductive DbAnswer where
  | ok
  /-- There is no row that was asked for. -/
  | absent
  | error
  deriving DecidableEq, Repr

/-- One webinar with what its requests work on. -/
structure WebinarDb where
  webinar : WebinarRow
  /-- `webinar_events`. -/
  log : List WebinarEvent
  /-- `webinar_sessions`, newest first. -/
  sessions : List SessionRecord
  credits : Credits
  now : Timestamp
  tasks : List LifecycleTask
  deriving DecidableEq, Repr

inductive LifecycleAction where
  | elapse (d : Nat)
  /-- A connection of the audience opens or closes. -/
  | audience (participantId : Uuid) (kind : EventKind) (languageCode : Option String)
  | request (request : LifecycleRequest)
  /-- The next statement of request `i`. -/
  | advance (i : Nat) (answer : DbAnswer)

/-- The record of a run. -/
def recordOf (w : WebinarRow) (actualStart actualEnd : Timestamp) (m : WebinarMetrics) (id : Uuid) :
    SessionRecord where
  id := id
  webinarId := w.id
  orgId := w.orgId
  hostUserId := w.hostUserId
  actualStart := actualStart
  actualEnd := actualEnd
  durationSeconds := asI32 m.durationSeconds
  scheduledStart := w.fields.scheduledStart
  scheduledEnd := w.fields.scheduledEnd
  hostOnlineSeconds := asI32 m.hostOnlineSeconds
  peakViewers := m.peakViewers
  translatedLanguageCount := m.translatedLanguageCount
  costCredits := m.costCredits

namespace WebinarDb

open WebinarRow

/-- A webinar that was just created. -/
def start (w : WebinarRow) (credits : Credits) (now : Timestamp) : WebinarDb :=
  ⟨w, [], [], credits, now, []⟩

def setTask (s : WebinarDb) (i : Nat) (task : LifecycleTask) : WebinarDb :=
  { s with tasks := s.tasks.set i task }

def respond (s : WebinarDb) (i : Nat) (response : Response) : WebinarDb :=
  s.setTask i (.responded response)

/-- An update that returns the row. -/
def write (s : WebinarDb) (i : Nat) (f : WebinarRow → WebinarRow) : WebinarDb :=
  { s with webinar := f s.webinar }.respond i (.view (f s.webinar))

/-- What a patch does after the project was looked up. -/
def patchSchedule (edit : WebinarEdit) (w : WebinarRow) (now : Timestamp) : LifecycleTask :=
  match edit.checkSchedule w now with
  | .error response => .responded response
  | .ok () => .patchWrite edit

/-- What a request does with the row it has read, for a member of the organisation. -/
def dispatch (w : WebinarRow) (now : Timestamp) : LifecycleRequest → LifecycleTask
  | .publishStarted =>
    if w.status.isTerminal then .responded (conflict "webinar has already ended") else .startWrite
  | .publishStopped => .stopWrite
  | .cancel =>
    if w.status.isTerminal then .responded (conflict "webinar already ended") else .cancelWrite
  | .patch body =>
    if w.status ≠ .scheduled then
      .responded (conflict "webinar already started; fields are locked")
    else
      match body.validate with
      | .error response => .responded response
      | .ok edit =>
        if edit.projectId.isSome then .patchProject edit w else patchSchedule edit w now

/-- What `publish_stopped` does with the row after its update. -/
def afterStop (current : WebinarRow) (flipped : Bool) : LifecycleTask :=
  if flipped && current.actualStart.isSome && current.actualEnd.isSome then .sessionFind current
  else .responded (.view current)

/-- The metrics of a run. -/
def metricsOf (prices : WebinarPrices) (w : WebinarRow) (log : List WebinarEvent)
    (actualStart actualEnd : Timestamp) : WebinarMetrics :=
  finalizeWebinarMetrics w.fields.sourceLanguage log actualStart actualEnd
    (prices.rates w.fields.tier)

/-- The description of a charge. -/
def chargeDescription (w : WebinarRow) (id : Uuid) : String :=
  s!"webinar broadcast {w.code} (session {id})"

/-- The charge of a run. -/
def chargeRun (credits : Credits) (w : WebinarRow) (m : WebinarMetrics) (id : Uuid) :
    Option Credits :=
  if 0 < m.costCredits then
    (credits.deductOrgCreditsTx w.orgId m.costCredits "webinar" none w.hostUserId
      (chargeDescription w id)).map Prod.snd
  else some credits

/-- The transaction of `finalize_webinar_run`; `none` is an error, which rolls it back. -/
def recordRun (s : WebinarDb) (w : WebinarRow) (actualStart actualEnd : Timestamp)
    (m : WebinarMetrics) : Option WebinarDb :=
  if s.sessions.any fun row => row.webinarId = w.id then some s
  else
    (chargeRun s.credits w m s.sessions.length).map fun credits =>
      { s with
        sessions := recordOf w actualStart actualEnd m s.sessions.length :: s.sessions
        credits := credits }

variable (prices : WebinarPrices)

/-- The next statement of a request. -/
def runTask (s : WebinarDb) (i : Nat) : LifecycleTask → DbAnswer → Option WebinarDb
  | .responded _, _ => none
  | .read request, .ok => some (s.setTask i (.role request s.webinar))
  | .role request w, .ok => some (s.setTask i (dispatch w s.now request))
  | .role _ _, .absent => some (s.respond i (notFound "organization not found"))
  | .startWrite, .ok => some (s.write i (WebinarRow.publishStarted s.now))
  | .cancelWrite, .ok => some (s.write i WebinarRow.cancel)
  | .patchProject edit w, .ok => some (s.setTask i (patchSchedule edit w s.now))
  | .patchProject _ _, .absent =>
    some (s.respond i (badRequest "project does not belong to this org"))
  | .patchWrite edit, .ok => some (s.write i (WebinarRow.patch edit))
  | .stopWrite, .ok =>
    some ({ s with webinar := s.webinar.publishStopped s.now }.setTask i
      (.stopFind (s.webinar.status = WebinarStatus.live)))
  | .stopFind flipped, .ok => some (s.setTask i (afterStop s.webinar flipped))
  | .sessionFind current, .ok =>
    some (s.setTask i (if s.sessions.any fun row => row.webinarId = current.id then
      .responded (.view current) else .loadEvents current))
  | .loadEvents current, .ok =>
    some (s.setTask i (match current.actualStart, current.actualEnd with
      | some actualStart, some actualEnd =>
        .sessionInsert current (metricsOf prices current s.log actualStart actualEnd)
      | _, _ => .responded (.view current)))
  | .sessionInsert current m, .ok =>
    match current.actualStart, current.actualEnd with
    | some actualStart, some actualEnd =>
      some (((s.recordRun current actualStart actualEnd m).getD s).respond i (.view current))
    | _, _ => some (s.respond i (.view current))
  -- the failure of a finalisation is logged
  | .sessionFind current, .error => some (s.respond i (.view current))
  | .loadEvents current, .error => some (s.respond i (.view current))
  | .sessionInsert current _, .error => some (s.respond i (.view current))
  | _, .error => some (s.respond i dbErr)
  | _, .absent => none

def step (s : WebinarDb) : LifecycleAction → Option WebinarDb
  | .elapse d => some { s with now := s.now + d }
  | .audience participantId kind languageCode =>
    some { s with log := s.log ++ [⟨participantId, kind, languageCode, s.now⟩] }
  | .request request => some { s with tasks := s.tasks ++ [.read request] }
  | .advance i answer => do
    let task ← s.tasks[i]?
    s.runTask prices i task answer

/-! ## Forward only -/

/-- The writes that find what their request has read, as far as it still matters. -/
def upToDate (s : WebinarDb) : LifecycleAction → Bool
  | .advance i .ok =>
    match s.tasks[i]? with
    | some .startWrite => !s.webinar.status.isTerminal
    | some .cancelWrite => s.webinar.status ≠ .ended
    | some (.patchWrite edit) =>
      s.webinar.actualStart = none || edit.apply s.webinar.fields = s.webinar.fields
    | _ => true
  | _ => true

variable {prices} {s t : WebinarDb} {i : Nat}

/-- What a step does to the row. -/
inductive Writes (s : WebinarDb) (a : LifecycleAction) : WebinarRow → Prop
  | start (hG : s.upToDate a = !s.webinar.status.isTerminal) :
    Writes s a (s.webinar.publishStarted s.now)
  | cancel (hG : s.upToDate a = decide (s.webinar.status ≠ .ended)) : Writes s a s.webinar.cancel
  | patch (edit : WebinarEdit)
    (hG : s.upToDate a =
      (s.webinar.actualStart = none || edit.apply s.webinar.fields = s.webinar.fields)) :
    Writes s a (s.webinar.patch edit)
  | stop (hG : s.upToDate a = true) : Writes s a (s.webinar.publishStopped s.now)
  | nothing (hG : s.upToDate a = true) : Writes s a s.webinar

lemma webinar_getD_recordRun (w : WebinarRow) (actualStart actualEnd : Timestamp)
    (m : WebinarMetrics) :
    ((s.recordRun w actualStart actualEnd m).getD s).webinar = s.webinar := by
  rw [recordRun]
  split_ifs
  · rfl
  · cases chargeRun s.credits w m s.sessions.length <;> rfl

lemma runTask_writes {task : LifecycleTask} {answer : DbAnswer} (htask : s.tasks[i]? = some task)
    (h : s.runTask prices i task answer = some t) : s.Writes (.advance i answer) t.webinar := by
  cases answer with
  | error =>
    cases task <;> cases h <;> exact .nothing rfl
  | absent =>
    cases task <;> cases h <;> exact .nothing rfl
  | ok =>
    cases task with
    | startWrite =>
      cases h
      exact .start (by simp [upToDate, htask])
    | cancelWrite =>
      cases h
      exact .cancel (by simp [upToDate, htask])
    | patchWrite edit =>
      cases h
      exact .patch edit (by simp [upToDate, htask])
    | stopWrite =>
      cases h
      exact .stop (by simp [upToDate, htask])
    | sessionInsert current m =>
      have hwebinar : t.webinar = s.webinar := by
        rw [runTask] at h
        split at h
        · cases h
          exact webinar_getD_recordRun _ _ _ _
        · cases h
          rfl
      rw [hwebinar]
      exact .nothing (by simp [upToDate, htask])
    | responded response => cases h
    | _ =>
      cases h
      exact .nothing (by simp [upToDate, htask])

lemma step_writes {a : LifecycleAction} (h : s.step prices a = some t) : s.Writes a t.webinar := by
  cases a with
  | advance i answer =>
    obtain ⟨task, htask, h⟩ := Option.bind_eq_some_iff.mp h
    exact runTask_writes htask h
  | _ =>
    cases h
    exact .nothing rfl

/-- **One step moves the webinar forward exactly when it is up to date.** -/
lemma step_forward_iff {a : LifecycleAction} (hs : s.webinar.Stamped)
    (h : s.step prices a = some t) : s.webinar.Forward t.webinar ↔ s.upToDate a = true := by
  have hwrites := step_writes h
  generalize t.webinar = w at hwrites
  cases hwrites with
  | start hG => rw [hG, Forward.publishStarted_iff, Bool.not_eq_true']
  | cancel hG => rw [hG, Forward.cancel_iff, decide_eq_true_iff]
  | patch edit hG => simp [hG, Forward.patch_iff]
  | stop hG => simp [hG, Forward.publishStopped hs]
  | nothing hG => simp [hG, Forward.refl]

/-- A step that is up to date stamps the end of nothing that has not ended. -/
lemma step_stamped {a : LifecycleAction} (hs : s.webinar.Stamped) (hG : s.upToDate a = true)
    (h : s.step prices a = some t) : t.webinar.Stamped := by
  have hwrites := step_writes h
  generalize t.webinar = w at hwrites
  intro hend
  cases hwrites with
  | start hlive =>
    have hended : s.webinar.status = .ended := hs hend
    rw [hG, hended] at hlive
    cases hlive
  | cancel hne =>
    have hended : s.webinar.status = .ended := hs hend
    rw [hG, hended] at hne
    cases hne
  | patch edit _ => exact hs hend
  | stop _ =>
    rw [publishStopped] at hend ⊢
    split_ifs at hend ⊢
    · rfl
    · exact hs hend
  | nothing _ => exact hs hend

/-- Any two states that a run passes through, the first one first, are moved forward. -/
def OnlyForward (prices : WebinarPrices) (s : WebinarDb) (as : List LifecycleAction) : Prop :=
  ∀ pre mid u v, pre ++ mid <+: as → Run (ofPartial (step prices)) s pre u →
    Run (ofPartial (step prices)) u mid v → u.webinar.Forward v.webinar

/-- **The lifecycle moves only forward exactly when no write is out of date.** -/
theorem onlyForward_iff {id orgId : Uuid} {hostUserId : Option Uuid} {code : String}
    {fields : WebinarFields} {credits : Credits} {now : Timestamp} {as : List LifecycleAction}
    (h : Run (ofPartial (step prices))
      (start (.created id orgId hostUserId code fields) credits now) as t) :
    OnlyForward prices (start (.created id orgId hostUserId code fields) credits now) as ↔
      Run (Guarded (ofPartial (step prices)) fun s a => s.upToDate a = true)
        (start (.created id orgId hostUserId code fields) credits now) as t := by
  refine (Run.guarded_iff_related (I := fun s => s.webinar.Stamped)
    (R := fun u v : WebinarDb => u.webinar.Forward v.webinar) (fun s => Forward.refl _)
    (fun s t u h h' => h.trans h') (fun s a t hs hG hst => step_stamped hs hG hst)
    (fun s a t hs hst => step_forward_iff hs hst) h ?_).symm
  intro hend
  cases hend

section Samples

/-- A webinar that was created without a schedule. -/
def sampleRow : WebinarRow :=
  .created 1 7 (some 3) "abcd" {
    title := "Launch"
    description := none
    tier := .standard
    recordVideo := false
    recordTranscript := false
    voiceClone := false
    chatEnabled := false
    scheduledStart := none
    scheduledEnd := none
    projectId := none
    visibility := .isPrivate
    membersOnly := false
    reminderMinutesBefore := 10
    sourceLanguage := "en"
    notifyFriends := true }

def sampleDb : WebinarDb := start sampleRow ⟨[⟨7, 1000⟩], []⟩ 0

/-- The statements of request `i` up to its write. -/
def upToWrite (i : Nat) : List LifecycleAction := [.advance i .ok, .advance i .ok]

/-- A webinar that is started once. -/
def startOnce : List LifecycleAction :=
  [.request .publishStarted] ++ upToWrite 0 ++ [.advance 0 .ok]

theorem onlyForward_sample :
    ∃ t, Run (ofPartial (step ⟨none, none⟩)) sampleDb startOnce t ∧
      (OnlyForward ⟨none, none⟩ sampleDb startOnce ↔
        Run (Guarded (ofPartial (step ⟨none, none⟩)) fun s a => s.upToDate a = true) sampleDb
          startOnce t) := by
  have hrun : ∃ t, Run (ofPartial (step ⟨none, none⟩)) sampleDb startOnce t ∧
      t.webinar.status = .live := Run.exists_of_decide (by decide)
  obtain ⟨t, hrun, -⟩ := hrun
  exact ⟨t, hrun, onlyForward_iff hrun⟩

/-- A start and a cancellation that both read the scheduled row. -/
def cancelOverStart : List LifecycleAction :=
  [.request .publishStarted, .request .cancel] ++ upToWrite 0 ++ upToWrite 1 ++ [.advance 1 .ok]

/-- **A webinar is cancelled, and the start that has read it before puts it on the air.** -/
theorem cancelled_goes_live :
    ∃ u v, Run (ofPartial (step ⟨none, none⟩)) sampleDb cancelOverStart u ∧
      Run (ofPartial (step ⟨none, none⟩)) u [.advance 0 .ok] v ∧
      u.webinar.status = .cancelled ∧ v.webinar.status = .live ∧
      ¬ OnlyForward ⟨none, none⟩ sampleDb (cancelOverStart ++ [.advance 0 .ok]) := by
  have hu : ∃ u, Run (ofPartial (step ⟨none, none⟩)) sampleDb cancelOverStart u ∧
      u.webinar.status = .cancelled ∧
        (step ⟨none, none⟩ u (.advance 0 .ok)).any fun v => v.webinar.status = .live :=
    Run.exists_of_decide (by decide)
  obtain ⟨u, hu, hcancelled, hany⟩ := hu
  obtain ⟨v, hstep, hlive⟩ := (Option.any_eq_true _ _).mp hany
  have hv : Run (ofPartial (step ⟨none, none⟩)) u [.advance 0 .ok] v :=
    .cons hstep (.nil v)
  refine ⟨u, v, hu, hv, hcancelled, of_decide_eq_true hlive, fun hforward => ?_⟩
  have hstatus := (hforward _ _ u v (List.prefix_refl _) hu hv).status (by rw [hcancelled]; rfl)
  rw [hcancelled, of_decide_eq_true hlive] at hstatus
  cases hstatus

end Samples

end WebinarDb

end VoxTranslate.Webinar
