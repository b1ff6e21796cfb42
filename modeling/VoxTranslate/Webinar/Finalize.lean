import VoxTranslate.Webinar.Lifecycle

/-!
# Billing a broadcast once (`webinar/routes.rs`)

The request whose update takes the webinar off the air writes the run down and charges for it.
That the run is written once is what the unique key of `webinar_sessions` is for; that it is
written at all hangs on this one request.
-/

namespace VoxTranslate.Webinar

open Lib Business

namespace LifecycleTask

/-- The request has taken the webinar off the air and has yet to write the run down. -/
def finalizes : LifecycleTask → Bool
  | .stopFind flipped => flipped
  | .sessionFind _ | .loadEvents _ | .sessionInsert _ _ => true
  | _ => false

/-- The request was answered. -/
def isResponded : LifecycleTask → Bool
  | .responded _ => true
  | _ => false

/-- The request is a patch. -/
def patches : LifecycleTask → Bool
  | .read (.patch _) | .role (.patch _) _ | .patchProject _ _ | .patchWrite _ => true
  | _ => false

end LifecycleTask

/-- The row of the ledger that a run is charged by. -/
def chargeRow (w : WebinarRow) (cost : Int) (id : Uuid) : CreditTransaction where
  orgId := w.orgId
  amount := -cost
  type := "webinar"
  description := WebinarDb.chargeDescription w id
  sessionId := none
  actorId := w.hostUserId
  stripePaymentIntentId := none

/-- An organisation that can pay is charged once, and another not at all. -/
def ChargedOnce (w : WebinarRow) (record : SessionRecord) (before after : Credits) : Prop :=
  ∀ b, before.balance w.orgId = some b →
    after =
      if 0 < record.costCredits ∧ record.costCredits ≤ b then
        (before.setBalance w.orgId (b - record.costCredits)).insertTransaction
          (chargeRow w record.costCredits record.id)
      else before

namespace WebinarDb

/-- Every request was answered. -/
def Settled (s : WebinarDb) : Prop := ∀ task ∈ s.tasks, task.isResponded = true

instance (s : WebinarDb) : Decidable s.Settled :=
  inferInstanceAs (Decidable (∀ task ∈ s.tasks, task.isResponded = true))

/-- There is one record of the run, it spans the broadcast, and its cost was charged. -/
structure BilledBy (prices : WebinarPrices) (credits₀ : Credits) (s : WebinarDb)
    (record : SessionRecord) : Prop where
  only : s.sessions = [record]
  webinarId : record.webinarId = s.webinar.id
  orgId : record.orgId = s.webinar.orgId
  actualStart : s.webinar.actualStart = some record.actualStart
  actualEnd : s.webinar.actualEnd = some record.actualEnd
  cost : record.costCredits =
    (metricsOf prices s.webinar s.log record.actualStart record.actualEnd).costCredits
  charged : ChargedOnce s.webinar record credits₀ s.credits

/-- The requests start, stop and cancel the webinar; no finalisation fails before it has
committed; a webinar is not cancelled on the air and not started again. -/
def airsOnce (s : WebinarDb) : LifecycleAction → Bool
  | .request (.patch _) => false
  | .advance i .ok =>
    match s.tasks[i]? with
    | some .startWrite => !(s.webinar.actualStart.isSome && s.webinar.status.isTerminal)
    | some .cancelWrite => s.webinar.status ≠ .live
    | _ => true
  | .advance i .error =>
    match s.tasks[i]? with
    | some task => !task.finalizes
    | none => true
  | _ => true

/-! ## What a step leaves -/

/-- Two rows of the webinar that differ in the status at most. -/
def SameRun (w w' : WebinarRow) : Prop := { w with status := w'.status } = w'

variable {prices : WebinarPrices} {credits₀ : Credits} {s t : WebinarDb} {i : Nat}
  {task task' : LifecycleTask} {answer : DbAnswer}

/-- The same requests have yet to write the run down. -/
def SameFinalizers (s t : WebinarDb) : Prop :=
  ∀ (j : Nat) (task : LifecycleTask), task.finalizes = true →
    (t.tasks[j]? = some task ↔ s.tasks[j]? = some task)

/-- No request has yet to write the run down. -/
def Idle (s : WebinarDb) : Prop :=
  ∀ (j : Nat) (task : LifecycleTask), s.tasks[j]? = some task → task.finalizes = false

/-- No request is a patch. -/
def NoPatch (s : WebinarDb) : Prop :=
  ∀ (j : Nat) (task : LifecycleTask), s.tasks[j]? = some task → task.patches = false

/-- A step that neither puts the webinar on the air, nor takes it off, nor goes on with writing
the run down. -/
structure Calm (s t : WebinarDb) : Prop where
  run : SameRun t.webinar s.webinar
  status : t.webinar.status = s.webinar.status ∨
    s.webinar.status ≠ .live ∧ t.webinar.status = .cancelled
  log : ∃ later, t.log = s.log ++ later ∧ ∀ e ∈ later, s.now ≤ e.time
  now : s.now ≤ t.now
  sessions : t.sessions = s.sessions
  credits : t.credits = s.credits
  finalizers : SameFinalizers s t

lemma sameFinalizers_set (htask : s.tasks[i]? = some task) (hold : task.finalizes = false)
    (hnew : task'.finalizes = false) {w : WebinarRow} :
    SameFinalizers s ({ s with webinar := w }.setTask i task') := by
  intro j other hother
  show (s.tasks.set i task')[j]? = some other ↔ s.tasks[j]? = some other
  constructor
  · intro h
    rcases Place.getElem?_set_cases h with ⟨-, rfl⟩ | ⟨-, h⟩
    · rw [hother] at hnew
      cases hnew
    · exact h
  · intro h
    have hne : i ≠ j := by
      rintro rfl
      rw [htask] at h
      cases h
      rw [hother] at hold
      cases hold
    rw [List.getElem?_set_ne hne]
    exact h

lemma noPatch_set (h : s.NoPatch) (ht : t.tasks = s.tasks.set i task')
    (hnew : task'.patches = false) : t.NoPatch := by
  intro j other hother
  rw [ht] at hother
  rcases Place.getElem?_set_cases hother with ⟨-, rfl⟩ | ⟨-, hother⟩
  · exact hnew
  · exact h j other hother

/-- A request goes on; the row may have been cancelled. -/
lemma calm_set (htask : s.tasks[i]? = some task) (hold : task.finalizes = false)
    (hnew : task'.finalizes = false) {w : WebinarRow} (hrun : SameRun w s.webinar)
    (hstatus : w.status = s.webinar.status ∨ s.webinar.status ≠ .live ∧ w.status = .cancelled) :
    Calm s ({ s with webinar := w }.setTask i task') where
  run := hrun
  status := hstatus
  log := ⟨[], (List.append_nil _).symm, by simp⟩
  now := le_refl s.now
  sessions := rfl
  credits := rfl
  finalizers := sameFinalizers_set htask hold hnew

lemma calm_setTask (htask : s.tasks[i]? = some task) (hold : task.finalizes = false)
    (hnew : task'.finalizes = false) : Calm s (s.setTask i task') :=
  calm_set htask hold hnew rfl (.inl rfl)

lemma dispatch_quiet (w : WebinarRow) (now : Timestamp) {request : LifecycleRequest}
    (h : (LifecycleTask.read request).patches = false) :
    (dispatch w now request).finalizes = false ∧ (dispatch w now request).patches = false := by
  cases request with
  | publishStarted =>
    rw [dispatch]
    split_ifs <;> exact ⟨rfl, rfl⟩
  | publishStopped => exact ⟨rfl, rfl⟩
  | cancel =>
    rw [dispatch]
    split_ifs <;> exact ⟨rfl, rfl⟩
  | patch body => cases h

/-- What a step does in a run of starts, stops and cancellations. -/
inductive Airs (prices : WebinarPrices) (s t : WebinarDb) : Prop
  | calm (h : Calm s t)
  | goesLive (i : Nat) (response : Response) (hstart : s.webinar.actualStart = none)
    (ht : t = { s with webinar := s.webinar.publishStarted s.now }.setTask i (.responded response))
    (hsame : SameFinalizers s t)
  | goesOff (i : Nat) (htask : s.tasks[i]? = some .stopWrite) (hlive : s.webinar.status = .live)
    (ht : t = { s with webinar := s.webinar.publishStopped s.now }.setTask i (.stopFind true))
  | finalizes (i : Nat) (task : LifecycleTask) (htask : s.tasks[i]? = some task)
    (hfinalizes : task.finalizes = true) (h : s.runTask prices i task .ok = some t)

/-- Once started, the webinar is live or over. -/
def Started (s : WebinarDb) : Prop :=
  s.webinar.actualStart.isSome = true →
    s.webinar.status = .live ∨ s.webinar.status.isTerminal = true

lemma airs_startWrite (hstarted : s.Started) (htask : s.tasks[i]? = some .startWrite)
    (hG : s.airsOnce (.advance i .ok) = true) :
    Airs prices s (s.write i (WebinarRow.publishStarted s.now)) := by
  simp only [airsOnce, htask] at hG
  cases hstart : s.webinar.actualStart with
  | none => exact .goesLive i _ hstart rfl (sameFinalizers_set htask rfl rfl)
  | some x =>
    -- a webinar that is live is started again
    have hlive : s.webinar.status = .live := by
      rcases hstarted (by rw [hstart]; rfl) with hlive | hover
      · exact hlive
      · simp [hstart, hover] at hG
    refine .calm (calm_set htask rfl rfl ?_ (.inl hlive.symm))
    simp only [SameRun, WebinarRow.publishStarted, hstart, Option.some_or]
    rw [← hstart]

lemma airs_cancelWrite (htask : s.tasks[i]? = some .cancelWrite)
    (hG : s.airsOnce (.advance i .ok) = true) : Airs prices s (s.write i WebinarRow.cancel) := by
  simp only [airsOnce, htask, decide_eq_true_eq] at hG
  exact .calm (calm_set htask rfl rfl rfl (.inr ⟨hG, rfl⟩))

lemma airs_stopWrite (htask : s.tasks[i]? = some .stopWrite)
    (h : s.runTask prices i .stopWrite .ok = some t) : Airs prices s t := by
  cases h
  by_cases hlive : s.webinar.status = .live
  · refine .goesOff i htask hlive ?_
    simp [hlive]
  · refine .calm (calm_set htask rfl ?_ ?_ (.inl ?_))
    · simp [LifecycleTask.finalizes, hlive]
    · simp [SameRun, WebinarRow.publishStopped, hlive]
    · simp [WebinarRow.publishStopped, hlive]

/-- A request that is not a patch becomes none. -/
lemma noPatch_runTask (hpatch : s.NoPatch) (htask : s.tasks[i]? = some task)
    (h : s.runTask prices i task answer = some t) : t.NoPatch := by
  have hold := hpatch i task htask
  cases answer with
  | error => cases task <;> cases h <;> exact noPatch_set hpatch rfl rfl
  | absent =>
    cases task <;> cases h <;> exact noPatch_set hpatch rfl rfl
  | ok =>
    cases task with
    | responded response => cases h
    | read request =>
      cases h
      refine noPatch_set hpatch rfl ?_
      cases request with
      | patch body => cases hold
      | _ => rfl
    | role request w =>
      cases h
      refine noPatch_set hpatch rfl (dispatch_quiet w s.now ?_).2
      cases request with
      | patch body => cases hold
      | _ => rfl
    | patchProject edit w => cases hold
    | patchWrite edit => cases hold
    | stopFind flipped =>
      cases h
      refine noPatch_set hpatch rfl ?_
      rw [afterStop]
      split_ifs <;> rfl
    | sessionFind current =>
      cases h
      refine noPatch_set hpatch rfl ?_
      split_ifs <;> rfl
    | loadEvents current =>
      cases h
      refine noPatch_set hpatch rfl ?_
      split <;> rfl
    | sessionInsert current m =>
      rw [runTask] at h
      split at h
      · cases h
        rw [recordRun]
        split_ifs
        · exact noPatch_set hpatch rfl rfl
        · cases chargeRun s.credits current m s.sessions.length <;> exact noPatch_set hpatch rfl rfl
      · cases h
        exact noPatch_set hpatch rfl rfl
    | _ =>
      cases h
      exact noPatch_set hpatch rfl rfl

lemma runTask_airs (hstarted : s.Started) (hpatch : s.NoPatch) (htask : s.tasks[i]? = some task)
    (hG : s.airsOnce (.advance i answer) = true) (h : s.runTask prices i task answer = some t) :
    Airs prices s t := by
  have hold := hpatch i task htask
  by_cases hfinalizes : task.finalizes = true
  · cases answer with
    | ok => exact .finalizes i task htask hfinalizes h
    | error =>
      simp only [airsOnce, htask, hfinalizes] at hG
      cases hG
    | absent => cases task <;> cases h <;> cases hfinalizes
  · rw [Bool.not_eq_true] at hfinalizes
    cases answer with
    | error => cases task <;> cases h <;> exact .calm (calm_setTask htask hfinalizes rfl)
    | absent => cases task <;> cases h <;> exact .calm (calm_setTask htask hfinalizes rfl)
    | ok =>
      cases task with
      | responded response => cases h
      | read request =>
        cases h
        exact .calm (calm_setTask htask rfl rfl)
      | role request w =>
        cases h
        refine .calm (calm_setTask htask rfl (dispatch_quiet w s.now ?_).1)
        cases request with
        | patch body => cases hold
        | _ => rfl
      | startWrite =>
        cases h
        exact airs_startWrite hstarted htask hG
      | cancelWrite =>
        cases h
        exact airs_cancelWrite htask hG
      | stopWrite => exact airs_stopWrite htask h
      | stopFind flipped =>
        cases h
        have hnot : flipped = false := hfinalizes
        refine .calm (calm_setTask htask hfinalizes ?_)
        simp [afterStop, hnot, LifecycleTask.finalizes]
      | patchProject edit w => cases hold
      | patchWrite edit => cases hold
      | sessionFind current => cases hfinalizes
      | loadEvents current => cases hfinalizes
      | sessionInsert current m => cases hfinalizes

/-- A step that leaves the tasks as they are, but for a request that arrives. -/
lemma calm_of_tasks (hwebinar : t.webinar = s.webinar) (hsessions : t.sessions = s.sessions)
    (hcredits : t.credits = s.credits) (hnow : s.now ≤ t.now)
    (hlog : ∃ later, t.log = s.log ++ later ∧ ∀ e ∈ later, s.now ≤ e.time)
    (htasks : SameFinalizers s t) : Calm s t where
  run := by rw [hwebinar]; rfl
  status := .inl (by rw [hwebinar])
  log := hlog
  now := hnow
  sessions := hsessions
  credits := hcredits
  finalizers := htasks

/-- **What a step of such a run does.** -/
lemma step_airs {a : LifecycleAction} (hstarted : s.Started) (hpatch : s.NoPatch)
    (hG : s.airsOnce a = true) (h : s.step prices a = some t) : Airs prices s t ∧ t.NoPatch := by
  have hnil : ∃ later, s.log = s.log ++ later ∧ ∀ e ∈ later, s.now ≤ e.time :=
    ⟨[], (List.append_nil _).symm, by simp⟩
  cases a with
  | elapse d =>
    cases h
    refine ⟨.calm (calm_of_tasks rfl rfl rfl ?_ hnil fun _ _ _ => Iff.rfl), hpatch⟩
    show s.now ≤ s.now + (d : Int)
    exact Int.le_add_of_nonneg_right (Int.natCast_nonneg d)
  | audience participantId kind languageCode =>
    cases h
    refine ⟨.calm (calm_of_tasks rfl rfl rfl (le_refl s.now) ⟨_, rfl, ?_⟩ fun _ _ _ => Iff.rfl),
      hpatch⟩
    intro e he
    rw [List.mem_singleton.mp he]
  | request request =>
    cases h
    constructor
    · refine .calm (calm_of_tasks rfl rfl rfl (le_refl s.now) hnil fun j task hfinalizes => ?_)
      constructor
      · intro hj
        rcases Place.getElem?_concat_cases hj with ⟨-, rfl⟩ | hj
        · cases hfinalizes
        · exact hj
      · exact Place.getElem?_concat_of_some
    · intro j task hj
      rcases Place.getElem?_concat_cases hj with ⟨-, rfl⟩ | hj
      · cases request with
        | patch body => cases hG
        | _ => rfl
      · exact hpatch j task hj
  | advance i answer =>
    obtain ⟨task, htask, h⟩ := Option.bind_eq_some_iff.mp h
    exact ⟨runTask_airs hstarted hpatch htask hG h, noPatch_runTask hpatch htask h⟩

/-! ## How far the run is written down -/

/-- A request that has yet to write the run down knows of the run what the row says. -/
def Ready (prices : WebinarPrices) (s : WebinarDb) (x y : Timestamp) : LifecycleTask → Prop
  | .stopFind _ => True
  | .sessionFind current | .loadEvents current => SameRun current s.webinar
  | .sessionInsert current m =>
    SameRun current s.webinar ∧
      m.costCredits = (metricsOf prices s.webinar s.log x y).costCredits
  | _ => False

/-- How far a run has come: it waits, it is on the air, one request is about to write it down, or
it is written down. -/
inductive Phase (prices : WebinarPrices) (credits₀ : Credits) (s : WebinarDb) : Prop
  | waiting (hstart : s.webinar.actualStart = none) (hend : s.webinar.actualEnd = none)
    (hstatus : s.webinar.status ≠ .live) (hidle : s.Idle) (hsessions : s.sessions = [])
    (hcredits : s.credits = credits₀)
  | onAir (x : Timestamp) (hstart : s.webinar.actualStart = some x)
    (hend : s.webinar.actualEnd = none) (hx : x ≤ s.now) (hlive : s.webinar.status = .live)
    (hidle : s.Idle) (hsessions : s.sessions = []) (hcredits : s.credits = credits₀)
  | finalizing (x y : Timestamp) (i : Nat) (task : LifecycleTask)
    (hstart : s.webinar.actualStart = some x) (hend : s.webinar.actualEnd = some y)
    (hxy : x ≤ y) (hy : y ≤ s.now) (hover : s.webinar.status.isTerminal = true)
    (htask : s.tasks[i]? = some task) (hfinalizes : task.finalizes = true)
    (hready : Ready prices s x y task)
    (honly : ∀ (j : Nat) (task : LifecycleTask), s.tasks[j]? = some task →
      task.finalizes = true → j = i)
    (hsessions : s.sessions = []) (hcredits : s.credits = credits₀)
  | recorded (record : SessionRecord) (hspan : record.actualStart ≤ record.actualEnd)
    (hend : record.actualEnd ≤ s.now) (hover : s.webinar.status.isTerminal = true)
    (hidle : s.Idle) (hbilled : BilledBy prices credits₀ s record)

namespace SameRun

variable {w w' w'' : WebinarRow}

lemma fields (h : SameRun w w') : w.fields = w'.fields := by rw [← h]

lemma id (h : SameRun w w') : w.id = w'.id := by rw [← h]

lemma orgId (h : SameRun w w') : w.orgId = w'.orgId := by rw [← h]

lemma actualStart (h : SameRun w w') : w.actualStart = w'.actualStart := by rw [← h]

lemma actualEnd (h : SameRun w w') : w.actualEnd = w'.actualEnd := by rw [← h]

lemma trans (h : SameRun w w') (h' : SameRun w' w'') : SameRun w w'' := by
  rw [SameRun, ← h', ← h]

lemma symm (h : SameRun w w') : SameRun w' w := by
  rw [SameRun, ← h]

lemma metricsOf (h : SameRun w w') (log : List WebinarEvent) (x y : Timestamp) :
    metricsOf prices w log x y = metricsOf prices w' log x y := by
  rw [WebinarDb.metricsOf, WebinarDb.metricsOf, h.fields]

lemma chargedOnce (h : SameRun w w') {record : SessionRecord} {before after : Credits}
    (hcharged : ChargedOnce w' record before after) : ChargedOnce w record before after := by
  rw [← h] at hcharged
  exact hcharged

end SameRun

namespace Calm

variable {x y : Timestamp}

lemma idle (h : Calm s t) (hidle : s.Idle) : t.Idle := by
  intro j task hj
  by_contra hfinalizes
  rw [Bool.not_eq_false] at hfinalizes
  rw [hidle j task ((h.finalizers j task hfinalizes).mp hj)] at hfinalizes
  cases hfinalizes

/-- A log that grows off the air costs what it did. -/
lemma cost (h : Calm s t) (hxy : x ≤ y) (hy : y ≤ s.now) :
    (metricsOf prices t.webinar t.log x y).costCredits =
      (metricsOf prices s.webinar s.log x y).costCredits := by
  obtain ⟨later, hlog, hlater⟩ := h.log
  rw [h.run.metricsOf, hlog]
  exact costCredits_append hxy fun e he => hy.trans (hlater e he)

lemma terminal (h : Calm s t) (hover : s.webinar.status.isTerminal = true) :
    t.webinar.status.isTerminal = true := by
  rcases h.status with hsame | ⟨-, hcancelled⟩
  · rw [hsame]
    exact hover
  · rw [hcancelled]
    rfl

lemma ready (h : Calm s t) (hxy : x ≤ y) (hy : y ≤ s.now) (hready : Ready prices s x y task) :
    Ready prices t x y task := by
  cases task with
  | stopFind flipped => trivial
  | sessionFind current => exact SameRun.trans hready h.run.symm
  | loadEvents current => exact SameRun.trans hready h.run.symm
  | sessionInsert current m =>
    exact ⟨hready.1.trans h.run.symm, hready.2.trans (h.cost hxy hy).symm⟩
  | _ => exact hready

lemma billedBy (h : Calm s t) {record : SessionRecord}
    (hspan : record.actualStart ≤ record.actualEnd) (hend : record.actualEnd ≤ s.now)
    (hbilled : BilledBy prices credits₀ s record) : BilledBy prices credits₀ t record where
  only := h.sessions.trans hbilled.only
  webinarId := hbilled.webinarId.trans h.run.id.symm
  orgId := hbilled.orgId.trans h.run.orgId.symm
  actualStart := h.run.actualStart.trans hbilled.actualStart
  actualEnd := h.run.actualEnd.trans hbilled.actualEnd
  cost := hbilled.cost.trans (h.cost hspan hend).symm
  charged := by
    rw [h.credits]
    exact h.run.chargedOnce hbilled.charged

/-- A calm step leaves the run as far as it has come. -/
lemma phase (h : Calm s t) (hs : Phase prices credits₀ s) : Phase prices credits₀ t := by
  cases hs with
  | waiting hstart hend hstatus hidle hsessions hcredits =>
    refine .waiting (h.run.actualStart.trans hstart) (h.run.actualEnd.trans hend) ?_
      (h.idle hidle) (h.sessions.trans hsessions) (h.credits.trans hcredits)
    rcases h.status with hsame | ⟨-, hcancelled⟩
    · rw [hsame]
      exact hstatus
    · rw [hcancelled]
      simp
  | onAir x hstart hend hx hlive hidle hsessions hcredits =>
    refine .onAir x (h.run.actualStart.trans hstart) (h.run.actualEnd.trans hend)
      (hx.trans h.now) ?_ (h.idle hidle) (h.sessions.trans hsessions) (h.credits.trans hcredits)
    rcases h.status with hsame | ⟨hne, -⟩
    · exact hsame.trans hlive
    · exact absurd hlive hne
  | finalizing x y i task hstart hend hxy hy hover htask hfinalizes hready honly hsessions
      hcredits =>
    refine .finalizing x y i task (h.run.actualStart.trans hstart) (h.run.actualEnd.trans hend)
      hxy (hy.trans h.now) (h.terminal hover) ((h.finalizers i task hfinalizes).mpr htask) hfinalizes
      (h.ready hxy hy hready) ?_ (h.sessions.trans hsessions) (h.credits.trans hcredits)
    intro j other hj hother
    exact honly j other ((h.finalizers j other hother).mp hj) hother
  | recorded record hspan hend hover hidle hbilled =>
    exact .recorded record hspan (hend.trans h.now) (h.terminal hover) (h.idle hidle)
      (h.billedBy hspan hend hbilled)

end Calm

/-! ## Writing the run down -/

/-- Nobody is left to write the run down once the one request has gone on. -/
lemma idle_set (honly : ∀ (j : Nat) (task : LifecycleTask), s.tasks[j]? = some task →
      task.finalizes = true → j = i) (ht : t.tasks = s.tasks.set i task')
    (hnew : task'.finalizes = false) : t.Idle := by
  intro j other hj
  rw [ht] at hj
  rcases Place.getElem?_set_cases hj with ⟨-, rfl⟩ | ⟨hne, hj⟩
  · exact hnew
  · by_contra hother
    exact hne (honly j other hj (by simpa using hother))

lemma only_set (honly : ∀ (j : Nat) (task : LifecycleTask), s.tasks[j]? = some task →
      task.finalizes = true → j = i) (ht : t.tasks = s.tasks.set i task') (j : Nat)
    (other : LifecycleTask) (hj : t.tasks[j]? = some other) (hother : other.finalizes = true) :
    j = i := by
  rw [ht] at hj
  rcases Place.getElem?_set_cases hj with ⟨rfl, -⟩ | ⟨-, hj⟩
  · rfl
  · exact honly j other hj hother

/-- An organisation of the pool is charged, or left alone where it cannot pay. -/
lemma chargeRun_spec {w : WebinarRow} {m : WebinarMetrics} {b : Int}
    (hb : credits₀.balance w.orgId = some b) (hmax : b ≤ i32Max)
    (hcost : m.costCredits ≤ i32Max) (id : Uuid) (x y : Timestamp) :
    ∃ credits, chargeRun credits₀ w m id = some credits ∧
      ChargedOnce w (recordOf w x y m id) credits₀ credits := by
  rw [chargeRun]
  split_ifs with hpos
  · have hneg : asI32 (-m.costCredits) = -m.costCredits :=
      asI32_eq ⟨by unfold i32Min i32Max at *; omega, by unfold i32Max at *; omega⟩
    simp only [Credits.deductOrgCreditsTx, hb, Option.bind_eq_bind, Option.bind_some]
    by_cases hpays : m.costCredits ≤ b
    · rw [if_neg (by omega), hneg, asI32_of_le (by omega) (by omega)]
      refine ⟨_, rfl, fun b' hb' => ?_⟩
      cases hb.symm.trans hb'
      rw [if_pos ⟨hpos, hpays⟩]
      rfl
    · rw [if_pos ⟨hpos, by omega⟩]
      refine ⟨_, rfl, fun b' hb' => ?_⟩
      cases hb.symm.trans hb'
      rw [if_neg fun h => hpays h.2]
  · refine ⟨credits₀, rfl, fun b' _ => ?_⟩
    rw [if_neg fun h => hpos h.1]

/-- The organisation of the webinar has a pool. -/
def Funded (credits₀ : Credits) (w : WebinarRow) : Prop :=
  ∃ b, credits₀.balance w.orgId = some b ∧ b ≤ i32Max

/-- The one request goes on with writing the run down. -/
lemma phase_finalizes {x y : Timestamp} (hfunded : Funded credits₀ s.webinar)
    (hstart : s.webinar.actualStart = some x) (hend : s.webinar.actualEnd = some y)
    (hxy : x ≤ y) (hy : y ≤ s.now) (hover : s.webinar.status.isTerminal = true)
    (htask : s.tasks[i]? = some task) (hfinalizes : task.finalizes = true)
    (hready : Ready prices s x y task)
    (honly : ∀ (j : Nat) (task : LifecycleTask), s.tasks[j]? = some task →
      task.finalizes = true → j = i)
    (hsessions : s.sessions = []) (hcredits : s.credits = credits₀)
    (h : s.runTask prices i task .ok = some t) : Phase prices credits₀ t := by
  cases task with
  | stopFind flipped =>
    cases h
    have hflipped : flipped = true := hfinalizes
    have hafter : afterStop s.webinar flipped = .sessionFind s.webinar := by
      simp [afterStop, hflipped, hstart, hend]
    rw [hafter]
    exact .finalizing x y i _ hstart hend hxy hy hover (Place.getElem?_set_here htask) rfl rfl
      (only_set honly rfl) hsessions hcredits
  | sessionFind current =>
    cases h
    rw [hsessions]
    exact .finalizing x y i _ hstart hend hxy hy hover (Place.getElem?_set_here htask) rfl hready
      (only_set honly rfl) hsessions hcredits
  | loadEvents current =>
    have hcurrent : SameRun current s.webinar := hready
    rw [runTask, hcurrent.actualStart, hcurrent.actualEnd, hstart, hend] at h
    cases h
    refine .finalizing x y i _ hstart hend hxy hy hover (Place.getElem?_set_here htask) rfl
      ⟨hready, ?_⟩ (only_set honly rfl) hsessions hcredits
    rw [hcurrent.metricsOf]
    rfl
  | sessionInsert current m =>
    obtain ⟨hcurrent, hcost⟩ := hready
    obtain ⟨b, hb, hmax⟩ := hfunded
    rw [← hcurrent.orgId] at hb
    obtain ⟨credits, hcharge, hcharged⟩ := chargeRun_spec hb hmax
      (hcost ▸ costCredits_range.2) 0 x y
    simp only [runTask, hcurrent.actualStart, hcurrent.actualEnd, hstart, hend, recordRun,
      hsessions, hcredits, List.any_nil, Bool.false_eq_true, if_false, List.length_nil, hcharge,
      Option.map_some, Option.getD_some, Option.some.injEq] at h
    subst h
    refine .recorded (recordOf current x y m 0) hxy hy hover (idle_set honly rfl rfl) ?_
    exact {
      only := rfl
      webinarId := hcurrent.id
      orgId := hcurrent.orgId
      actualStart := hstart
      actualEnd := hend
      cost := hcost
      charged := hcurrent.symm.chargedOnce hcharged }
  | _ => cases hfinalizes

lemma Phase.started (hs : Phase prices credits₀ s) : s.Started := by
  intro hstarted
  cases hs with
  | waiting hstart _ _ _ _ _ =>
    rw [hstart] at hstarted
    cases hstarted
  | onAir x _ _ _ hlive _ _ _ => exact .inl hlive
  | finalizing x y i task _ _ _ _ hover _ _ _ _ _ _ => exact .inr hover
  | recorded record _ _ hover _ _ => exact .inr hover

/-- A webinar that goes on the air for the first time. -/
lemma Phase.goesLive {response : Response} (hs : Phase prices credits₀ s)
    (hstart : s.webinar.actualStart = none)
    (ht : t = { s with webinar := s.webinar.publishStarted s.now }.setTask i (.responded response))
    (hsame : SameFinalizers s t) : Phase prices credits₀ t := by
  cases hs with
  | waiting _ hend _ hidle hsessions hcredits =>
    have hidle' : t.Idle := by
      intro j task hj
      by_contra hfinalizes
      rw [Bool.not_eq_false] at hfinalizes
      rw [hidle j task ((hsame j task hfinalizes).mp hj)] at hfinalizes
      cases hfinalizes
    subst ht
    refine .onAir s.now ?_ hend (le_refl s.now) rfl hidle' hsessions hcredits
    show s.webinar.actualStart.or (some s.now) = some s.now
    rw [hstart]
    rfl
  | onAir x hstart' _ _ _ _ _ _ =>
    rw [hstart] at hstart'
    cases hstart'
  | finalizing x y i task hstart' _ _ _ _ _ _ _ _ _ _ =>
    rw [hstart] at hstart'
    cases hstart'
  | recorded record _ _ _ _ hbilled =>
    have hstart' := hbilled.actualStart
    rw [hstart] at hstart'
    cases hstart'

/-- A webinar that goes off the air. -/
lemma Phase.goesOff (hs : Phase prices credits₀ s) (htask : s.tasks[i]? = some .stopWrite)
    (hlive : s.webinar.status = .live)
    (ht : t = { s with webinar := s.webinar.publishStopped s.now }.setTask i (.stopFind true)) :
    Phase prices credits₀ t := by
  have hstopped : s.webinar.publishStopped s.now =
      { s.webinar with status := .ended, actualEnd := some s.now } := by
    rw [WebinarRow.publishStopped, if_pos hlive]
  rw [hstopped] at ht
  cases hs with
  | waiting _ _ hstatus _ _ _ => exact absurd hlive hstatus
  | onAir x hstart _ hx _ hidle hsessions hcredits =>
    subst ht
    refine .finalizing x s.now i (.stopFind true) hstart rfl hx (le_refl s.now) rfl
      (Place.getElem?_set_here htask) rfl trivial ?_ hsessions hcredits
    refine only_set (fun j task hj hfinalizes => ?_) rfl
    rw [hidle j task hj] at hfinalizes
    cases hfinalizes
  | finalizing x y i task _ _ _ _ hover _ _ _ _ _ _ =>
    rw [hlive] at hover
    cases hover
  | recorded record _ _ hover _ _ =>
    rw [hlive] at hover
    cases hover

/-- The step of a run keeps track of how far the run has come. -/
lemma phase_airs (hfunded : Funded credits₀ s.webinar) (hs : Phase prices credits₀ s)
    (h : Airs prices s t) : Phase prices credits₀ t := by
  cases h with
  | calm h => exact h.phase hs
  | goesLive i response hstart ht hsame => exact hs.goesLive hstart ht hsame
  | goesOff i htask hlive ht => exact hs.goesOff htask hlive ht
  | finalizes i task htask hfinalizes h =>
    cases hs with
    | waiting _ _ _ hidle _ _ =>
      rw [hidle i task htask] at hfinalizes
      cases hfinalizes
    | onAir x _ _ _ _ hidle _ _ =>
      rw [hidle i task htask] at hfinalizes
      cases hfinalizes
    | recorded record _ _ _ hidle _ =>
      rw [hidle i task htask] at hfinalizes
      cases hfinalizes
    | finalizing x y p other hstart hend hxy hy hover hother _ hready honly hsessions hcredits =>
      obtain rfl := honly i task htask hfinalizes
      cases htask.symm.trans hother
      exact phase_finalizes hfunded hstart hend hxy hy hover htask hfinalizes hready honly
        hsessions hcredits h

/-- No step gives the webinar to another organisation. -/
lemma orgId_step {a : LifecycleAction} (h : s.step prices a = some t) :
    t.webinar.orgId = s.webinar.orgId := by
  have hwrites := step_writes h
  generalize t.webinar = w at hwrites
  cases hwrites with
  | stop _ =>
    rw [WebinarRow.publishStopped]
    split_ifs <;> rfl
  | _ => rfl

/-- **A webinar that is not cancelled on the air, not started again and not let down by the
database is billed once.** -/
theorem billed_of_run {id orgId : Uuid} {hostUserId : Option Uuid} {code : String}
    {fields : WebinarFields} {credits : Credits} {now : Timestamp} {as : List LifecycleAction}
    {b : Int} (hb : credits.balance orgId = some b) (hmax : b ≤ i32Max)
    (h : Run (Guarded (ofPartial (step prices)) fun s a => s.airsOnce a = true)
      (start (.created id orgId hostUserId code fields) credits now) as t)
    (haired : t.webinar.actualStart.isSome = true) (hover : t.webinar.status.isTerminal = true)
    (hsettled : t.Settled) : ∃ record, BilledBy prices credits t record := by
  have hinv : Phase prices credits t ∧ t.NoPatch ∧ Funded credits t.webinar := by
    refine h.invariant (fun s => Phase prices credits s ∧ s.NoPatch ∧ Funded credits s.webinar)
      ?_ ⟨?_, ?_, b, hb, hmax⟩
    · rintro s a - t ⟨hphase, hpatch, hfunded⟩ ⟨hG, hstep⟩
      obtain ⟨hairs, hpatch'⟩ := step_airs hphase.started hpatch hG hstep
      refine ⟨phase_airs hfunded hphase hairs, hpatch', ?_⟩
      rw [Funded, orgId_step hstep]
      exact hfunded
    · refine .waiting rfl rfl (by simp [start, WebinarRow.created]) ?_ rfl rfl
      intro j task hj
      cases hj
    · intro j task hj
      cases hj
  cases hinv.1 with
  | waiting hstart _ _ _ _ _ =>
    rw [hstart] at haired
    cases haired
  | onAir x _ _ _ hlive _ _ _ =>
    rw [hlive] at hover
    cases hover
  | finalizing x y i task _ _ _ _ _ htask hfinalizes _ _ _ _ =>
    have hresponded := hsettled task (List.mem_of_getElem? htask)
    cases task with
    | responded response => cases hfinalizes
    | _ => cases hresponded
  | recorded record _ _ _ _ hbilled => exact ⟨record, hbilled⟩

section Samples

/-- A request up to its last statement, of which there are `n`. -/
def statements (i n : Nat) : List LifecycleAction := List.replicate n (.advance i .ok)

/-- A webinar is ten minutes on the air, with one listener who needs a translation. -/
def aired : List LifecycleAction :=
  [.request .publishStarted] ++ statements 0 3 ++
    [.audience 5 .join (some "it"), .elapse 600000000, .request .publishStopped] ++ statements 1 4

theorem billed_sample :
    ∃ t, Run (Guarded (ofPartial (step ⟨none, none⟩)) fun s a => s.airsOnce a = true) sampleDb
        (aired ++ statements 1 3) t ∧
      ∃ record, BilledBy ⟨none, none⟩ ⟨[⟨7, 1000⟩], []⟩ t record := by
  have hrun : ∃ t, Run (Guarded (ofPartial (step ⟨none, none⟩)) fun s a => s.airsOnce a = true)
      sampleDb (aired ++ statements 1 3) t ∧
      t.webinar.actualStart.isSome = true ∧ t.webinar.status.isTerminal = true ∧ t.Settled :=
    Run.exists_guarded_of_decide (by decide +kernel)
  obtain ⟨t, hrun, haired, hover, hsettled⟩ := hrun
  exact ⟨t, hrun, billed_of_run rfl (by decide) hrun haired hover hsettled⟩

/-- **The finalisation fails, the host stops again and nobody is ever charged.** -/
theorem failed_run_unbilled :
    ∃ t, Run (ofPartial (step ⟨none, none⟩)) sampleDb
        (aired ++ [.advance 1 .error, .request .publishStopped] ++ statements 2 4) t ∧
      t.webinar.actualStart.isSome = true ∧ t.webinar.status.isTerminal = true ∧ t.Settled ∧
      ¬ ∃ record, BilledBy ⟨none, none⟩ ⟨[⟨7, 1000⟩], []⟩ t record := by
  have hrun : ∃ t, Run (ofPartial (step ⟨none, none⟩)) sampleDb
      (aired ++ [.advance 1 .error, .request .publishStopped] ++ statements 2 4) t ∧
      t.webinar.actualStart.isSome = true ∧ t.webinar.status.isTerminal = true ∧ t.Settled ∧
        t.sessions = [] := Run.exists_of_decide (by decide +kernel)
  obtain ⟨t, hrun, haired, hover, hsettled, hnone⟩ := hrun
  refine ⟨t, hrun, haired, hover, hsettled, ?_⟩
  rintro ⟨record, hbilled⟩
  have honly := hbilled.only
  rw [hnone] at honly
  cases honly

end Samples

end WebinarDb

end VoxTranslate.Webinar
