import Mathlib.Data.List.Basic
import VoxTranslate.Lib.Json
import VoxTranslate.Lib.Run

/-!
# AI job slots (`ai/jobs.rs`)

A heavy AI feature runs in a background task.  The row of `ai_jobs` for its (session,
feature, parameters) is a slot: a request claims it, runs the work and writes the outcome
into it.  The row carries no owner.  Ownership is its status and a time that the heartbeat of
the running task keeps fresh: a row that is pending and fresh refuses the claim, any other
row is claimed again under its old id.  The heartbeat stops at the first update that fails,
whatever the reason, and the final write asks for the id only.

The module follows the slot of one key, with every task that was ever granted it.  Times are
microseconds.
-/

namespace VoxTranslate.Ai.Jobs

open Lib (Json Run ofPartial Guarded)

/-- `STALE_MINUTES`: a pending row this old may be claimed again. -/
def staleMicros : Nat := 3 * 60 * 1000000

/-- `HEARTBEAT`: the pause between two touches. -/
def heartbeatMicros : Nat := 60 * 1000000

/-- `PRUNE_AFTER`: a terminal row this old is deleted. -/
def pruneMicros : Nat := 60 * 60 * 1000000

/-- The `status` column. -/
inductive JobStatus where
  | pending
  | done
  | failed
  deriving DecidableEq, Repr

/-- The row of a slot.  Its session, feature and parameters are the key the module fixes. -/
structure AiJob where
  id : Nat
  userId : Nat
  status : JobStatus
  error : Option String
  resultJson : Option Json
  updatedAt : Nat

/-- Why a job failed, with the body its client gets. -/
structure JobFailure where
  reason : String
  payload : Option Json

/-- What the work of a job comes to. -/
abbrev Outcome := Except JobFailure Json

/-- The answer to a claim. -/
inductive Claim where
  | owned (id : Nat)
  | alreadyRunning (id : Nat)
  deriving DecidableEq, Repr

/-! ## The statements -/

namespace AiJob

/-- The `WHERE` of the upsert. -/
def isReclaimable (job : AiJob) (now : Nat) : Bool :=
  job.status ≠ .pending || job.updatedAt + staleMicros < now

/-- The `SET` of the upsert. -/
def reclaim (job : AiJob) (userId now : Nat) : AiJob :=
  { job with
    status := .pending, error := none, resultJson := none, userId := userId, updatedAt := now }

def complete (job : AiJob) (result : Json) (now : Nat) : AiJob :=
  { job with status := .done, resultJson := some result, error := none, updatedAt := now }

def fail (job : AiJob) (failure : JobFailure) (now : Nat) : AiJob :=
  { job with
    status := .failed, error := some failure.reason, resultJson := failure.payload,
    updatedAt := now }

/-- The last statement of `run_on`. -/
def write (job : AiJob) (outcome : Outcome) (now : Nat) : AiJob :=
  match outcome with
  | .ok result => job.complete result now
  | .error failure => job.fail failure now

/-- The row shows this outcome to its client. -/
def Stores (job : AiJob) : Outcome → Prop
  | .ok result => job.status = .done ∧ job.resultJson = some result ∧ job.error = none
  | .error failure =>
    job.status = .failed ∧ job.error = some failure.reason ∧ job.resultJson = failure.payload

lemma write_stores (job : AiJob) (outcome : Outcome) (now : Nat) :
    (job.write outcome now).Stores outcome := by
  cases outcome <;> exact ⟨rfl, rfl, rfl⟩

end AiJob

/-- The upsert of `claim`, with the select that names the running job where it touched no row. -/
def claim (slot : Option AiJob) (userId newId now : Nat) : Option AiJob × Claim :=
  match slot with
  | none =>
    (some ⟨newId, userId, .pending, none, none, now⟩, .owned newId)
  | some job =>
    if job.isReclaimable now then (some (job.reclaim userId now), .owned job.id)
    else (some job, .alreadyRunning job.id)

/-- The housekeeping of `claim`, a statement of its own. -/
def prune (slot : Option AiJob) (now : Nat) : Option AiJob :=
  slot.filter fun job => !(job.status ≠ .pending && job.updatedAt + pruneMicros < now)

/-- The row `touch` may update. -/
def touchable (slot : Option AiJob) (jobId : Nat) : Option AiJob :=
  slot.filter fun job => job.id = jobId && job.status = .pending

/-! ## The tasks of one slot -/

/-- How far `run_on` is: its work runs, the work is over and the write is to come, or nothing
is to come any more, with the outcome that was written. -/
inductive Stage where
  | working
  | finished (outcome : Outcome)
  | ended (written : Option Outcome)

/-- A task that was granted the slot, with its heartbeat and the time that one went to sleep. -/
structure Owner where
  jobId : Nat
  stage : Stage
  beating : Bool
  sleptAt : Nat

namespace Owner

/-- The work runs. -/
def isWorking (o : Owner) : Bool :=
  match o.stage with
  | .working => true
  | _ => false

/-- The work runs, or its outcome is still to be written. -/
def isUnderWay (o : Owner) : Bool :=
  match o.stage with
  | .ended _ => false
  | _ => true

lemma isUnderWay_of_isWorking {o : Owner} (h : o.isWorking = true) : o.isUnderWay = true := by
  cases hstage : o.stage <;> simp_all [isWorking, isUnderWay]

end Owner

/-- The slot of one key: its row, the tasks that were granted it, oldest first, the next id
the database would give and its clock. -/
structure Slot where
  job : Option AiJob
  owners : List Owner
  nextId : Nat
  now : Nat

/-- The actions of the system.  A task is named by its place in the order of the grants; it
may also panic (`unwind`) or die with its process (`crash`). -/
inductive Action where
  | claim (userId : Nat)
  | prune
  | touch (i : Nat) (dbOk : Bool)
  | finish (i : Nat) (outcome : Outcome)
  | write (i : Nat) (dbOk : Bool)
  | unwind (i : Nat)
  | crash (i : Nat)
  | elapse (d : Nat)

namespace Slot

/-- A slot nobody asked for yet. -/
def start (now : Nat) : Slot := ⟨none, [], 0, now⟩

/-- The task the slot was granted to last. -/
def holder (s : Slot) : Option Owner := s.owners.getLast?

def setOwner (s : Slot) (i : Nat) (f : Owner → Owner) : Slot :=
  { s with owners := s.owners.modify i f }

/-- An `UPDATE ... WHERE id = $1`. -/
def updateJob (s : Slot) (jobId : Nat) (f : AiJob → AiJob) : Slot :=
  { s with job := s.job.map fun job => if job.id = jobId then f job else job }

/-- What `claim` does: a granted one starts a task, which starts its heartbeat. -/
def claimBy (s : Slot) (userId : Nat) : Slot :=
  match Jobs.claim s.job userId s.nextId s.now with
  | (job, .owned jobId) =>
    { s with
      job := job, owners := s.owners ++ [⟨jobId, .working, true, s.now⟩], nextId := s.nextId + 1 }
  | (job, .alreadyRunning _) => { s with job := job }

/-- One round of `heartbeat`, the sleep over: it goes on only after an update of one row. -/
def touchBy (s : Slot) (i : Nat) (o : Owner) (dbOk : Bool) : Slot :=
  if dbOk = true ∧ (touchable s.job o.jobId).isSome = true then
    (s.updateJob o.jobId fun job => { job with updatedAt := s.now }).setOwner i
      fun o => { o with sleptAt := s.now }
  else s.setOwner i fun o => { o with beating := false }

/-- The write that ends `run_on`; an error of the database is only logged. -/
def writeBy (s : Slot) (i : Nat) (o : Owner) (outcome : Outcome) (dbOk : Bool) : Slot :=
  if dbOk then
    (s.updateJob o.jobId fun job => job.write outcome s.now).setOwner i
      fun o => { o with stage := .ended (some outcome) }
  else s.setOwner i fun o => { o with stage := .ended none }

/-- One action, refused where the task it names is not at that point. -/
def step (s : Slot) : Action → Option Slot
  | .claim userId => some (s.claimBy userId)
  | .prune => some { s with job := Jobs.prune s.job s.now }
  | .touch i dbOk => do
    let o ← s.owners[i]?
    if o.beating = true ∧ o.sleptAt + heartbeatMicros ≤ s.now then some (s.touchBy i o dbOk)
    else none
  | .finish i outcome => do
    let o ← s.owners[i]?
    match o.stage with
    | .working =>
      some (s.setOwner i fun o => { o with stage := .finished outcome, beating := false })
    | _ => none
  | .write i dbOk => do
    let o ← s.owners[i]?
    match o.stage with
    | .finished outcome => some (s.writeBy i o outcome dbOk)
    | _ => none
  | .unwind i => do
    -- the handle of the heartbeat is dropped, which does not stop it
    let o ← s.owners[i]?
    match o.stage with
    | .working => some (s.setOwner i fun o => { o with stage := .ended none })
    | _ => none
  | .crash i => do
    let o ← s.owners[i]?
    match o.stage with
    | .ended _ => none
    | _ => some (s.setOwner i fun o => { o with stage := .ended none, beating := false })
  | .elapse d => some { s with now := s.now + d }

/-! ## One live owner -/

/-- At most one task works. -/
def OneWorking (s : Slot) : Prop :=
  ∀ i j : Nat, ∀ o o' : Owner, s.owners[i]? = some o → s.owners[j]? = some o' →
    o.isWorking = true → o'.isWorking = true → i = j

/-- A terminal row shows the outcome its holder wrote. -/
def StoresHolders (s : Slot) : Prop :=
  ∀ job, s.job = some job → job.status ≠ .pending →
    ∃ o outcome, s.holder = some o ∧ o.stage = .ended (some outcome) ∧ job.Stores outcome

/-- A claim is granted now. -/
def grants (s : Slot) : Bool :=
  match s.job with
  | none => true
  | some job => job.isReclaimable s.now

/-- While a task is under way, no claim comes more than three minutes after the last touch of
the row. -/
def inTime (s : Slot) : Action → Bool
  | .claim _ => !s.owners.any Owner.isUnderWay ||
      s.job.all fun job => s.now ≤ job.updatedAt + staleMicros
  | _ => true

/-! ### What a step leaves -/

variable {s t : Slot} {i j : Nat} {o : Owner} {f : Owner → Owner}

lemma holder_eq (s : Slot) : s.holder = s.owners[s.owners.length - 1]? :=
  List.getLast?_eq_getElem?

/-- The owner at a place after one owner was rewritten. -/
lemma getElem?_setOwner (h : (s.setOwner i f).owners[j]? = some o) :
    (j ≠ i ∧ s.owners[j]? = some o) ∨ (j = i ∧ ∃ o', s.owners[i]? = some o' ∧ o = f o') := by
  rw [setOwner, List.getElem?_modify] at h
  by_cases hji : j = i
  · subst hji
    obtain ⟨o', ho', heq⟩ := Option.map_eq_some_iff.mp h
    rw [if_pos rfl] at heq
    exact .inr ⟨rfl, o', ho', heq.symm⟩
  · obtain ⟨o', ho', heq⟩ := Option.map_eq_some_iff.mp h
    rw [if_neg (Ne.symm hji)] at heq
    exact .inl ⟨hji, heq ▸ ho'⟩

lemma getElem?_setOwner_self (ho : s.owners[i]? = some o) :
    (s.setOwner i f).owners[i]? = some (f o) := by
  rw [setOwner, List.getElem?_modify, ho]
  simp

lemma getElem?_setOwner_of_ne (hne : j ≠ i) : (s.setOwner i f).owners[j]? = s.owners[j]? := by
  rw [setOwner, List.getElem?_modify]
  simp [Ne.symm hne]

@[simp] lemma length_setOwner : (s.setOwner i f).owners.length = s.owners.length :=
  List.length_modify ..

@[simp] lemma job_setOwner : (s.setOwner i f).job = s.job := rfl

@[simp] lemma owners_updateJob {jobId : Nat} {g : AiJob → AiJob} :
    (s.updateJob jobId g).owners = s.owners := rfl

/-- The last owner alone may be under way, and then the row is its pending one; a terminal row
shows what its holder wrote. -/
structure Inv (s : Slot) : Prop where
  last : ∀ i o, s.owners[i]? = some o → o.isUnderWay = true → i + 1 = s.owners.length ∧
    ∃ job, s.job = some job ∧ job.id = o.jobId ∧ job.status = .pending
  stores : s.StoresHolders

namespace Inv

lemma oneWorking (hI : s.Inv) : s.OneWorking := by
  intro i j o o' ho ho' hw hw'
  have hi := (hI.last i o ho (Owner.isUnderWay_of_isWorking hw)).1
  have hj := (hI.last j o' ho' (Owner.isUnderWay_of_isWorking hw')).1
  omega

/-- A claim in time is granted only where nothing is under way. -/
lemma idle_of_grants (hI : s.Inv) {userId : Nat} (hG : s.inTime (.claim userId) = true)
    (hg : s.grants = true) : ∀ o ∈ s.owners, o.isUnderWay = false := by
  intro o ho
  by_contra hu
  rw [Bool.not_eq_false] at hu
  obtain ⟨i, hi⟩ := List.mem_iff_getElem?.mp ho
  obtain ⟨-, job, hjob, -, hpending⟩ := hI.last i o hi hu
  have hfresh : s.now ≤ job.updatedAt + staleMicros := by
    have hany : s.owners.any Owner.isUnderWay = true := List.any_eq_true.mpr ⟨o, ho, hu⟩
    simpa [inTime, hany, hjob] using hG
  rw [grants, hjob] at hg
  simp only [AiJob.isReclaimable, hpending] at hg
  simp at hg
  omega

/-- The row is pending while a task is under way. -/
lemma stores_of_underWay (hI : s.Inv) (ho : s.owners[i]? = some o) (hu : o.isUnderWay = true)
    (hjob : t.job = s.job) : t.StoresHolders := by
  intro job hj hne
  obtain ⟨-, job', hj', -, hpending⟩ := hI.last i o ho hu
  rw [hjob, hj'] at hj
  cases hj
  exact absurd hpending hne

/-- A task under way goes to a stage that is not under way, or stays under way, with the row
left alone. -/
lemma setOwner (hI : s.Inv) (ho : s.owners[i]? = some o) (hu : o.isUnderWay = true)
    (hf : (f o).jobId = o.jobId) : (s.setOwner i f).Inv where
  stores := hI.stores_of_underWay ho hu rfl
  last := by
    intro j o' ho' hu'
    rw [length_setOwner, job_setOwner]
    obtain ⟨-, hold⟩ | ⟨rfl, o'', ho'', rfl⟩ := getElem?_setOwner ho'
    · exact hI.last j o' hold hu'
    · cases ho.symm.trans ho''
      rw [hf]
      exact hI.last j o ho hu

/-- A task whose stage stays, with a row that keeps its id and status and, where it is
terminal, everything. -/
lemma beat (hI : s.Inv) {slot : Option AiJob}
    (hf : ∀ o, (f o).stage = o.stage ∧ (f o).jobId = o.jobId)
    (hslot : ∀ job, s.job = some job → job.status = .pending →
      ∃ job', slot = some job' ∧ job'.id = job.id ∧ job'.status = .pending)
    (hterminal : ∀ job, slot = some job → job.status ≠ .pending → s.job = some job) :
    Inv ({ s with job := slot }.setOwner i f) where
  last := by
    intro j o' ho' hu'
    rw [length_setOwner, job_setOwner]
    obtain ⟨o, ho, hstage, hid⟩ :
        ∃ o, s.owners[j]? = some o ∧ o.stage = o'.stage ∧ o.jobId = o'.jobId := by
      obtain ⟨-, hold⟩ | ⟨rfl, o, ho, rfl⟩ := getElem?_setOwner ho'
      · exact ⟨o', hold, rfl, rfl⟩
      · exact ⟨o, ho, (hf o).1.symm, (hf o).2.symm⟩
    have hu : o.isUnderWay = true := by
      rw [Owner.isUnderWay, hstage]
      exact hu'
    obtain ⟨hlast, job, hjob, hidjob, hpending⟩ := hI.last j o ho hu
    obtain ⟨job', hjob', hid', hpending'⟩ := hslot job hjob hpending
    exact ⟨hlast, job', hjob', hid'.trans (hidjob.trans hid), hpending'⟩
  stores := by
    intro job hjob hne
    obtain ⟨o, outcome, hholder, hstage, hstores⟩ := hI.stores job (hterminal job hjob hne) hne
    rw [holder_eq] at hholder
    have hlen : ({ s with job := slot }.setOwner i f).owners.length = s.owners.length :=
      length_setOwner
    by_cases hi : s.owners.length - 1 = i
    · refine ⟨f o, outcome, ?_, (hf o).1.trans hstage, hstores⟩
      rw [holder_eq, hlen, hi]
      exact getElem?_setOwner_self (hi ▸ hholder)
    · refine ⟨o, outcome, ?_, hstage, hstores⟩
      rw [holder_eq, hlen]
      exact (getElem?_setOwner_of_ne hi).trans hholder

/-- A granted claim, where nothing is under way. -/
lemma grant (hidle : ∀ o ∈ s.owners, o.isUnderWay = false) {job : AiJob} {newId : Nat}
    (hpending : job.status = .pending) :
    Inv ⟨some job, s.owners ++ [⟨job.id, .working, true, s.now⟩], newId, s.now⟩ where
  last := by
    intro j o ho hu
    rw [List.getElem?_append] at ho
    split_ifs at ho with hj
    · rw [hidle o (List.mem_of_getElem? ho)] at hu
      cases hu
    · obtain ⟨hj', ho'⟩ : j - s.owners.length = 0 ∧ ⟨job.id, .working, true, s.now⟩ = o := by
        simpa [List.getElem?_singleton] using ho
      refine ⟨?_, job, rfl, ?_, hpending⟩
      · rw [List.length_append, List.length_singleton]
        omega
      · rw [← ho']
  stores := by
    intro job' hjob' hne
    cases hjob'
    exact absurd hpending hne

/-- The final write, made by the task the row belongs to. -/
lemma write (hI : s.Inv) {outcome : Outcome} (ho : s.owners[i]? = some o)
    (hstage : o.stage = .finished outcome) (dbOk : Bool) : (s.writeBy i o outcome dbOk).Inv := by
  have hu : o.isUnderWay = true := by simp [Owner.isUnderWay, hstage]
  rw [writeBy]
  cases dbOk with
  | false => exact hI.setOwner ho hu rfl
  | true =>
    obtain ⟨hlast, job, hjob, hid, -⟩ := hI.last i o ho hu
    have hwritten : (s.updateJob o.jobId fun job => job.write outcome s.now).job =
        some (job.write outcome s.now) := by
      simp [updateJob, hjob, hid]
    rw [if_pos rfl]
    constructor
    · intro j o' ho' hu'
      obtain ⟨hne, hold⟩ | ⟨-, o'', -, rfl⟩ := getElem?_setOwner ho'
      · rw [owners_updateJob] at hold
        have hj := (hI.last j o' hold hu').1
        omega
      · cases hu'
    · intro job' hjob' _
      rw [job_setOwner, hwritten] at hjob'
      cases hjob'
      refine ⟨{ o with stage := .ended (some outcome) }, outcome, ?_, rfl,
        job.write_stores outcome s.now⟩
      rw [holder_eq, length_setOwner, owners_updateJob, ← hlast, Nat.add_sub_cancel]
      exact getElem?_setOwner_self ho

end Inv

lemma claimBy_of_grants (hg : s.grants = true) (userId : Nat) :
    ∃ job : AiJob, job.status = .pending ∧ s.claimBy userId =
      ⟨some job, s.owners ++ [⟨job.id, .working, true, s.now⟩], s.nextId + 1, s.now⟩ := by
  obtain ⟨job, owners, nextId, now⟩ := s
  cases job with
  | none => exact ⟨⟨nextId, userId, .pending, none, none, now⟩, rfl, rfl⟩
  | some job =>
    have hclaim : claim (some job) userId nextId now =
        (some (job.reclaim userId now), .owned job.id) := if_pos hg
    rw [claimBy, hclaim]
    exact ⟨job.reclaim userId now, rfl, rfl⟩

lemma claimBy_of_not_grants (hg : s.grants = false) (userId : Nat) : s.claimBy userId = s := by
  obtain ⟨job, owners, nextId, now⟩ := s
  cases job with
  | none => cases hg
  | some job =>
    have hclaim : claim (some job) userId nextId now = (some job, .alreadyRunning job.id) :=
      if_neg (by simpa [grants] using hg)
    rw [claimBy, hclaim]

/-- One touch: the row keeps its id and its status, and the task its stage. -/
lemma Inv.touch (hI : s.Inv) (i : Nat) (o : Owner) (dbOk : Bool) : (s.touchBy i o dbOk).Inv := by
  rw [touchBy]
  split_ifs with hok
  · refine hI.beat (fun _ => ⟨rfl, rfl⟩) ?_ ?_
    · intro job hjob hpending
      rw [hjob, Option.map_some]
      refine ⟨_, rfl, ?_, ?_⟩ <;> split_ifs <;> first | rfl | exact hpending
    · intro job hjob hne
      -- the row that was touched is pending
      obtain ⟨job', hjob', hfound⟩ := Option.map_eq_some_iff.mp hjob
      rw [touchable, hjob', Option.isSome_filter] at hok
      simp only [Option.any_some, Bool.and_eq_true, decide_eq_true_eq] at hok
      rw [if_pos hok.2.1] at hfound
      rw [← hfound] at hne
      exact absurd hok.2.2 hne
  · exact hI.beat (fun _ => ⟨rfl, rfl⟩) (fun job hjob hpending => ⟨job, hjob, rfl, hpending⟩)
      fun job hjob _ => hjob

/-- The rows the housekeeping deletes are terminal. -/
lemma Inv.prune (hI : s.Inv) : Inv { s with job := Jobs.prune s.job s.now } where
  last := by
    intro j o ho hu
    obtain ⟨hlast, job, hjob, hid, hpending⟩ := hI.last j o ho hu
    refine ⟨hlast, job, ?_, hid, hpending⟩
    show Jobs.prune s.job s.now = some job
    rw [Jobs.prune, hjob]
    simp [hpending]
  stores := by
    intro job hjob hne
    exact hI.stores job (Option.filter_eq_some_iff.mp hjob).1 hne

/-- A step in time keeps the invariant. -/
lemma Inv.step {a : Action} (hI : s.Inv) (hG : s.inTime a = true) (h : s.step a = some t) :
    t.Inv := by
  cases a with
  | claim userId =>
    cases h
    cases hg : s.grants with
    | true =>
      obtain ⟨job, hpending, heq⟩ := claimBy_of_grants hg userId
      rw [heq]
      exact Inv.grant (hI.idle_of_grants hG hg) hpending
    | false =>
      rw [claimBy_of_not_grants hg]
      exact hI
  | prune =>
    cases h
    exact hI.prune
  | touch i dbOk =>
    obtain ⟨o, -, h⟩ := Option.bind_eq_some_iff.mp h
    split_ifs at h
    cases h
    exact hI.touch i o dbOk
  | finish i outcome =>
    obtain ⟨o, ho, h⟩ := Option.bind_eq_some_iff.mp h
    cases hstage : o.stage <;> rw [hstage] at h <;> cases h
    exact hI.setOwner ho (by simp [Owner.isUnderWay, hstage]) rfl
  | write i dbOk =>
    obtain ⟨o, ho, h⟩ := Option.bind_eq_some_iff.mp h
    cases hstage : o.stage <;> rw [hstage] at h <;> cases h
    exact hI.write ho hstage dbOk
  | unwind i =>
    obtain ⟨o, ho, h⟩ := Option.bind_eq_some_iff.mp h
    cases hstage : o.stage <;> rw [hstage] at h <;> cases h
    exact hI.setOwner ho (by simp [Owner.isUnderWay, hstage]) rfl
  | crash i =>
    obtain ⟨o, ho, h⟩ := Option.bind_eq_some_iff.mp h
    cases hstage : o.stage <;> rw [hstage] at h <;> cases h <;>
      exact hI.setOwner ho (by simp [Owner.isUnderWay, hstage]) rfl
  | elapse d =>
    cases h
    exact ⟨hI.last, hI.stores⟩

lemma Inv.start (now : Nat) : (start now).Inv where
  last := by
    intro i o ho
    cases ho
  stores := by
    intro job hjob
    cases hjob

end Slot

/-- In a run whose claims are in time the slot has one live owner: at most one task works, a
claim is granted only where no task works, and the outcome the row shows is the one its
holder wrote. -/
theorem oneLiveOwner_of_run {now : Nat} {as : List Action} {s : Slot}
    (h : Run (Guarded (ofPartial Slot.step) fun s a => s.inTime a = true) (Slot.start now) as s) :
    s.OneWorking ∧ s.StoresHolders ∧
      ∀ userId, s.inTime (.claim userId) = true → s.grants = true →
        ∀ o ∈ s.owners, o.isWorking = false := by
  have hI : s.Inv :=
    h.invariant Slot.Inv (fun s a _ t hI hst => hI.step hst.1 hst.2) (Slot.Inv.start now)
  refine ⟨hI.oneWorking, hI.stores, fun userId hG hg o ho => ?_⟩
  by_contra hw
  rw [Bool.not_eq_false] at hw
  have hidle := hI.idle_of_grants hG hg o ho
  rw [Owner.isUnderWay_of_isWorking hw] at hidle
  cases hidle

/-- A minute of work with a touch, a second request on the way, the outcome, and a claim
after it. -/
theorem oneLiveOwner_sample :
    ∃ s, Run (ofPartial Slot.step) (Slot.start 0)
        [.claim 1, .elapse heartbeatMicros, .touch 0 true, .claim 2, .finish 0 (.ok .null),
          .write 0 true, .claim 2] s ∧
      s.OneWorking ∧ s.StoresHolders ∧
        ∀ userId, s.inTime (.claim userId) = true → s.grants = true →
          ∀ o ∈ s.owners, o.isWorking = false := by
  obtain ⟨s, h⟩ : ∃ s, Run (Guarded (ofPartial Slot.step) fun s a => s.inTime a = true)
      (Slot.start 0)
      [.claim 1, .elapse heartbeatMicros, .touch 0 true, .claim 2, .finish 0 (.ok .null),
        .write 0 true, .claim 2] s := ⟨_, Run.guarded_ofPartial_iff.mpr rfl⟩
  exact ⟨s, h.ofGuarded, oneLiveOwner_of_run h⟩

/-- The request of user 1 works; its first touch fails, and three minutes later user 2 is
granted the slot as well.  The first task's late outcome then stands in the slot of the
second. -/
theorem claim_displaces_live_owner :
    ∃ s t, Run (ofPartial Slot.step) (Slot.start 0)
        [.claim 1, .elapse heartbeatMicros, .touch 0 false, .elapse (staleMicros + 1), .claim 2] s ∧
      ¬ s.OneWorking ∧
      Run (ofPartial Slot.step) s [.finish 0 (.ok (.str "first")), .write 0 true] t ∧
      ¬ t.StoresHolders := by
  refine ⟨_, _, Run.ofPartial_iff.mpr rfl, ?_, Run.ofPartial_iff.mpr rfl, ?_⟩
  · intro h
    exact absurd (h 0 1 _ _ rfl rfl rfl rfl) (by decide)
  · intro h
    obtain ⟨o, outcome, hholder, hstage, -⟩ := h _ rfl (by decide)
    cases hholder
    cases hstage

end VoxTranslate.Ai.Jobs
