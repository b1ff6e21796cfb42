import VoxTranslate.Lib.Place
import VoxTranslate.Lib.Run
import VoxTranslate.Voip.Numbers

/-!
# The life of one number (`numbers.rs`, `regulatory.rs`)

A number is released, renewed every month, submitted to the regulator and moved by what the
carrier reports of the review.  Each of these reads the row, may call the carrier, and writes
the row back.  The writers of the review ask for a status of the review in the same statement;
a renewal and a submission ask for the id only.

The module follows one number with every request and sweep that works on it.
-/

namespace VoxTranslate.Voip

open Lib Business

/-- `CLAIM_HOLD_SECS`. -/
def claimHoldSecs : Int := 10 * 60

/-- `PENDING_RECHECK_SECS`. -/
def pendingRecheckSecs : Int := 30 * 60

/-- `UNSUPPORTED_RECHECK_SECS`. -/
def unsupportedRecheckSecs : Int := 24 * 60 * 60

/-- Five minutes, doubled with each failure up to six hours. -/
def backoffSecs (failuresAfter : Nat) : Int :=
  min (5 * 60 * 2 ^ (min (failuresAfter - 1) 32)) (6 * 60 * 60)

/-- `KIND_RENEWAL`. -/
def kindRenewal : String := "voip_number_renewal"

namespace NumberRow

/-- `status IN ('pending_regulatory', 'regulatory_review', 'regulatory_rejected')`. -/
def ifInReview (f : NumberRow → NumberRow) (row : NumberRow) : NumberRow :=
  if row.status.inReview then f row else row

/-- The update of `nudge`. -/
def nudge (now : Timestamp) (row : NumberRow) : NumberRow :=
  { row with regulatoryNextCheckAt := some now }

/-- The `WHERE` of the renewal sweep. -/
def isDue (row : NumberRow) (now : Timestamp) : Bool :=
  row.status.isRenewed && row.nextRenewalAt.any fun due => due ≤ now

/-- `gate_regulatable`. -/
def isRegulatable (row : NumberRow) : Bool :=
  row.regulatoryRequirement.isSome && row.providerSubOrderId.isSome

/-- The `WHERE` of the review's sweep. -/
def isCheckDue (row : NumberRow) (now : Timestamp) : Bool :=
  row.status.inReview && row.providerSubOrderId.isSome &&
    row.regulatoryNextCheckAt.any fun check => check ≤ now

/-- A released row cannot be called out of and has no renewal to come. -/
def IsOff (row : NumberRow) : Prop :=
  row.status = .released → row.outboundEnabled = false ∧ row.nextRenewalAt = none

/-- A write that renews nothing: it keeps a released row released and off, and leaves no
earlier renewal to come. -/
structure Gentle (row row' : NumberRow) : Prop where
  absorbs : row.status = .released → row'.status = .released
  off : row.IsOff → row'.IsOff
  later : ∀ n, row'.nextRenewalAt = some n → ∃ m ≤ n, row.nextRenewalAt = some m
  org : row'.orgId = row.orgId

namespace Gentle

variable {row row' : NumberRow}

/-- The row differs in what neither the release nor the renewals read. -/
lemma of_same (hstatus : row'.status = row.status)
    (houtbound : row'.outboundEnabled = row.outboundEnabled)
    (hnext : row'.nextRenewalAt = row.nextRenewalAt) (horg : row'.orgId = row.orgId) :
    Gentle row row' where
  absorbs := fun h => hstatus.trans h
  off := by
    intro hoff hreleased
    rw [houtbound, hnext]
    exact hoff (hstatus.symm.trans hreleased)
  later := fun n hn => ⟨n, le_refl n, hnext.symm.trans hn⟩
  org := horg

lemma refl (row : NumberRow) : Gentle row row := of_same rfl rfl rfl rfl

lemma release (row : NumberRow) : Gentle row row.release where
  absorbs := fun _ => rfl
  off := fun _ _ => ⟨rfl, rfl⟩
  later := fun n hn => by cases hn
  org := rfl

/-- A row that was not released moves to a state that is not. -/
lemma of_moved (h : row.status ≠ .released) (h' : row'.status ≠ .released)
    (hlater : ∀ n, row'.nextRenewalAt = some n → ∃ m ≤ n, row.nextRenewalAt = some m)
    (horg : row'.orgId = row.orgId) : Gentle row row' where
  absorbs := fun hr => absurd hr h
  off := fun _ hr => absurd hr h'
  later := hlater
  org := horg

lemma submit (h : row.status ≠ .released) (now : Timestamp) : Gentle row (row.submit now) :=
  of_moved h (by simp [NumberRow.submit]) (fun n hn => ⟨n, le_refl n, hn⟩) rfl

lemma suspend (h : row.status ≠ .released) (now : Timestamp) : Gentle row (row.suspend now) := by
  refine of_moved h (by simp [NumberRow.suspend]) (fun n hn => ?_) rfl
  obtain ⟨m, hm, rfl⟩ := Option.map_eq_some_iff.mp hn
  exact ⟨m, by simp [days, seconds], hm⟩

/-- The writers of the review leave a released row alone. -/
lemma inReview {f : NumberRow → NumberRow} {t : Transition}
    (hstatus : ∀ row, (f row).status = t.status)
    (hnext : ∀ row, (f row).nextRenewalAt = row.nextRenewalAt)
    (horg : ∀ row, (f row).orgId = row.orgId) (row : NumberRow) :
    Gentle row (row.ifInReview f) := by
  rw [ifInReview]
  split_ifs with hreview
  · refine of_moved ?_ ?_ (fun n hn => ⟨n, le_refl n, (hnext row).symm.trans hn⟩) (horg row)
    · intro h
      rw [h] at hreview
      cases hreview
    · rw [hstatus]
      intro h
      have hlands := t.lands
      rw [h] at hlands
      simp [NumberStatus.inReview] at hlands
  · exact refl row

end Gentle

end NumberRow

/-! ## The tasks -/

/-- What the carrier answers about a sub-order. -/
inductive SubOrderReply where
  | known (state : SubOrderState)
  | unknown
  | rateLimited
  | unsupported
  | failed
  deriving DecidableEq, Repr

/-- What comes back from outside: a statement or a call that went well, one that did not, or an
answer about the sub-order. -/
inductive LifeAnswer where
  | ok
  | error
  | reply (reply : SubOrderReply)
  deriving DecidableEq, Repr

/-- A request or a sweep at the point it has reached. -/
inductive LifeTask where
  | releaseRead
  | releaseCarrier
  | releaseWrite
  /-- The row was selected with this date, at this price. -/
  | renewal (due : Timestamp) (charge : Int)
  | submitRead
  /-- The group is ensured, linked, complete and attached. -/
  | submitCarrier
  | submitWrite
  | refreshRead
  | refreshAsk
  | refreshWrite (t : Transition)
  /-- The row was claimed in this status, after so many failures. -/
  | reconcileAsk (status : NumberStatus) (failures : Nat)
  | reconcileWrite (t : Transition)
  | reschedule (secs : Int) (failures : Option Nat)
  /-- The renewal of this date was charged. -/
  | renewed (due : Timestamp) (charge : Int)
  | ended
  deriving DecidableEq, Repr

namespace LifeTask

/-- The due date that was charged. -/
def renewedFor : LifeTask → Option Timestamp
  | .renewed due _ => some due
  | _ => none

/-- What that took from the credits. -/
def charge : LifeTask → Int
  | .renewed _ charge => max charge 0
  | _ => 0

lemma charge_of_renewedFor {task : LifeTask} (h : task.renewedFor = none) : task.charge = 0 := by
  cases task with
  | renewed due charge => cases h
  | _ => rfl

end LifeTask

/-- The number with its organisation's credits, the clock of the database and the tasks. -/
structure NumberLife where
  credits : Credits
  number : NumberRow
  now : Timestamp
  tasks : List LifeTask
  deriving DecidableEq, Repr

inductive LifeAction where
  | elapse (d : Nat)
  /-- A webhook brings the next check forward. -/
  | nudge
  | release
  | submit
  | refresh
  /-- The selection of the renewal sweep. -/
  | renewDue
  /-- The claim of the review's sweep. -/
  | reconcileDue
  /-- The next step of task `i`. -/
  | advance (i : Nat) (answer : LifeAnswer)

namespace NumberLife

def addTask (s : NumberLife) (task : LifeTask) : NumberLife := { s with tasks := s.tasks ++ [task] }

def setTask (s : NumberLife) (i : Nat) (task : LifeTask) : NumberLife :=
  { s with tasks := s.tasks.set i task }

/-- An update of the row that ends its task. -/
def write (s : NumberLife) (i : Nat) (f : NumberRow → NumberRow) : NumberLife :=
  { s with number := f s.number }.setTask i .ended

/-- The transaction of a renewal. -/
def renewBy (s : NumberLife) (i : Nat) (due : Timestamp) (charge : Int) : NumberLife :=
  match chargeTx s.credits s.number.orgId charge kindRenewal none s.number.e164 with
  | some (.charged _, credits) =>
    { s with credits := credits, number := s.number.renew }.setTask i (.renewed due charge)
  | some (.insufficient _ _, _) => s.write i (NumberRow.suspend s.now)
  | none => s.setTask i .ended

/-- What the review's sweep does with an answer. -/
def reconcileWith (status : NumberStatus) (failures : Nat) : SubOrderReply → LifeTask
  | .known state =>
    match transition state with
    | some t => .reconcileWrite t
    | none => .reschedule ((recheckSecsFor status).getD pendingRecheckSecs) (some 0)
  | .unknown | .failed => .reschedule (backoffSecs (failures + 1)) (some (failures + 1))
  | .rateLimited => .ended
  | .unsupported => .reschedule unsupportedRecheckSecs none

/-- What a refresh does with an answer. -/
def refreshWith : SubOrderReply → LifeTask
  | .known state =>
    match transition state with
    | some t => .refreshWrite t
    | none => .ended
  | _ => .ended

/-- The next step of a task; an error ends it. -/
def runTask (s : NumberLife) (i : Nat) : LifeTask → LifeAnswer → Option NumberLife
  | .ended, _ => none
  | .renewed _ _, _ => none
  | _, .error => some (s.setTask i .ended)
  | .releaseRead, .ok =>
    some (s.setTask i (if s.number.providerNumberId.isSome then .releaseCarrier else .releaseWrite))
  | .releaseCarrier, .ok => some (s.setTask i .releaseWrite)
  | .releaseWrite, .ok => some (s.write i NumberRow.release)
  | .renewal due charge, .ok => some (s.renewBy i due charge)
  | .submitRead, .ok =>
    some (s.setTask i (if s.number.isRegulatable && (s.number.status = .pendingRegulatory ||
      s.number.status = .regulatoryRejected) then .submitCarrier else .ended))
  | .submitCarrier, .ok => some (s.setTask i .submitWrite)
  | .submitWrite, .ok => some (s.write i (NumberRow.submit s.now))
  | .refreshRead, .ok =>
    some (s.setTask i (if s.number.isRegulatable && s.number.status.inReview then .refreshAsk
      else .ended))
  | .refreshAsk, .reply reply => some (s.setTask i (refreshWith reply))
  | .refreshWrite t, .ok => some (s.write i (NumberRow.ifInReview (NumberRow.reconcile t)))
  | .reconcileAsk status failures, .reply reply =>
    some (s.setTask i (reconcileWith status failures reply))
  | .reconcileWrite t, .ok =>
    some (s.write i (NumberRow.ifInReview (NumberRow.applyTransition t s.now)))
  | .reschedule secs failures, .ok => some (s.write i (NumberRow.reschedule secs failures s.now))
  | _, _ => none

def step (s : NumberLife) : LifeAction → Option NumberLife
  | .elapse d => some { s with now := s.now + d }
  | .nudge =>
    some { s with number := s.number.ifInReview (NumberRow.nudge s.now) }
  | .release => some (s.addTask .releaseRead)
  | .submit => some (s.addTask .submitRead)
  | .refresh => some (s.addTask .refreshRead)
  | .renewDue =>
    match s.number.nextRenewalAt with
    | some due =>
      if s.number.isDue s.now then some (s.addTask (.renewal due s.number.renewalCharge))
      else some s
    | none => some s
  | .reconcileDue =>
    if s.number.isCheckDue s.now then
      some ({ s with
        number := { s.number with
          regulatoryNextCheckAt := some (s.now + seconds claimHoldSecs) } }.addTask
        (.reconcileAsk s.number.status s.number.regulatoryFailures))
    else some s
  | .advance i answer => do
    let task ← s.tasks[i]?
    s.runTask i task answer

/-! ## Released numbers -/

/-- What the renewals of the number took. -/
def spent (s : NumberLife) : Int := (s.tasks.map LifeTask.charge).sum

/-- The due date that task `i` charged. -/
def renewedAt (s : NumberLife) (i : Nat) : Option Timestamp := s.tasks[i]?.bind LifeTask.renewedFor

/-- Every due date is charged once, and the pool has paid for these and for nothing else since
`s₀`. -/
structure ChargedOnce (s₀ s : NumberLife) : Prop where
  once : ∀ i j due, s.renewedAt i = some due → s.renewedAt j = some due → i = j
  paid : s.credits.balance s₀.number.orgId =
    (s₀.credits.balance s₀.number.orgId).map fun b => b - s.spent

/-- A released number stays released, cannot be called out of and is charged nothing. -/
def StaysReleased (s t : NumberLife) : Prop :=
  s.number.status = .released →
    t.number.status = .released ∧ t.number.outboundEnabled = false ∧ t.credits = s.credits

/-- A renewal finds the date its sweep selected, and a submission a number that was not
released. -/
def upToDate (s : NumberLife) : LifeAction → Bool
  | .advance i .ok =>
    match s.tasks[i]? with
    | some (.renewal due _) => s.number.nextRenewalAt = some due
    | some .submitWrite => s.number.status ≠ .released
    | _ => true
  | _ => true

/-! ### What a step leaves -/

variable {s₀ s t : NumberLife} {i j : Nat} {task task' : LifeTask}

lemma renewedAt_setTask (htask : s.tasks[i]? = some task) :
    (s.setTask i task').renewedAt j = if j = i then task'.renewedFor else s.renewedAt j := by
  rw [renewedAt, renewedAt, setTask]
  split_ifs with hji
  · rw [hji, Place.getElem?_set_here htask, Option.bind_some]
  · rw [List.getElem?_set_ne (Ne.symm hji)]

/-- A step that renews nothing. -/
structure Quiet (s t : NumberLife) : Prop where
  credits : t.credits = s.credits
  renewals : ∀ j, t.renewedAt j = s.renewedAt j
  spent : t.spent = s.spent
  number : s.number.Gentle t.number

/-- A task that renewed nothing goes on to one that renewed nothing. -/
lemma quiet_setTask (htask : s.tasks[i]? = some task) (hold : task.renewedFor = none)
    (hnew : task'.renewedFor = none) {row : NumberRow} (hrow : s.number.Gentle row) :
    Quiet s ({ s with number := row }.setTask i task') where
  credits := rfl
  renewals := by
    intro j
    rw [renewedAt_setTask (s := { s with number := row }) htask, hnew]
    split_ifs with hji
    · rw [hji, renewedAt, htask, Option.bind_some, hold]
    · rfl
  spent := by
    refine (Place.sum_map_set htask LifeTask.charge).trans ?_
    rw [LifeTask.charge_of_renewedFor hold, LifeTask.charge_of_renewedFor hnew, sub_zero, add_zero]
    rfl
  number := hrow

/-- A task arrives. -/
lemma quiet_addTask (hnew : task.renewedFor = none) {row : NumberRow}
    (hrow : s.number.Gentle row) : Quiet s ({ s with number := row }.addTask task) where
  credits := rfl
  renewals := by
    intro j
    rw [renewedAt, renewedAt, addTask]
    cases hold : s.tasks[j]? with
    | some old =>
      rw [Place.getElem?_concat_of_some hold]
    | none =>
      cases hadded : (s.tasks ++ [task])[j]? with
      | none => rfl
      | some added =>
        obtain ⟨-, rfl⟩ | hsome := Place.getElem?_concat_cases hadded
        · exact hnew
        · rw [hold] at hsome
          cases hsome
  spent := by
    rw [NumberLife.spent, NumberLife.spent, addTask, List.map_append, List.sum_append]
    simp [LifeTask.charge_of_renewedFor hnew]
  number := hrow

lemma renewedFor_reconcileWith (status : NumberStatus) (failures : Nat) (reply : SubOrderReply) :
    (reconcileWith status failures reply).renewedFor = none := by
  cases reply with
  | known state =>
    rw [reconcileWith]
    split <;> rfl
  | _ => rfl

lemma renewedFor_refreshWith (reply : SubOrderReply) : (refreshWith reply).renewedFor = none := by
  cases reply with
  | known state =>
    rw [refreshWith]
    split <;> rfl
  | _ => rfl

/-- Task `i` charges its renewal. -/
structure Renews (s t : NumberLife) (i : Nat) (due : Timestamp) (charge : Int) : Prop where
  task : s.tasks[i]? = some (.renewal due charge)
  found : s.number.nextRenewalAt = some due
  charged : ∃ b credits,
    chargeTx s.credits s.number.orgId charge kindRenewal none s.number.e164 =
      some (.charged b, credits) ∧
    t = { s with credits := credits, number := s.number.renew }.setTask i (.renewed due charge)

/-- The transaction of a renewal that finds its date. -/
lemma renewBy_cases (hoff : s.number.IsOff) {due : Timestamp} {charge : Int}
    (htask : s.tasks[i]? = some (.renewal due charge)) (hdue : s.number.nextRenewalAt = some due) :
    Quiet s (s.renewBy i due charge) ∨ Renews s (s.renewBy i due charge) i due charge := by
  have hlive : s.number.status ≠ .released := by
    intro hreleased
    rw [(hoff hreleased).2] at hdue
    cases hdue
  cases hcharge : chargeTx s.credits s.number.orgId charge kindRenewal none s.number.e164 with
  | none =>
    rw [renewBy, hcharge]
    exact .inl (quiet_setTask htask rfl rfl (.refl _))
  | some out =>
    obtain ⟨outcome, credits⟩ := out
    cases outcome with
    | charged b =>
      refine .inr ⟨htask, hdue, b, credits, hcharge, ?_⟩
      rw [renewBy, hcharge]
    | insufficient b required =>
      rw [renewBy, hcharge]
      exact .inl (quiet_setTask htask rfl rfl (.suspend hlive s.now))

/-- What an up-to-date step of a task does. -/
lemma runTask_cases {task : LifeTask} {answer : LifeAnswer} (hoff : s.number.IsOff)
    (htask : s.tasks[i]? = some task) (hG : s.upToDate (.advance i answer) = true)
    (h : s.runTask i task answer = some t) :
    Quiet s t ∨ ∃ i due charge, Renews s t i due charge := by
  cases answer with
  | error =>
    -- an error ends a task that is not over
    cases task <;> cases h <;> exact .inl (quiet_setTask htask rfl rfl (.refl _))
  | reply reply =>
    cases task with
    | refreshAsk =>
      cases h
      exact .inl (quiet_setTask htask rfl (renewedFor_refreshWith _) (.refl _))
    | reconcileAsk status failures =>
      cases h
      exact .inl (quiet_setTask htask rfl (renewedFor_reconcileWith _ _ _) (.refl _))
    | _ => cases h
  | ok =>
    cases task with
    | renewal due charge =>
      cases h
      rw [upToDate, htask] at hG
      exact (renewBy_cases hoff htask (by simpa using hG)).imp_right
        fun hr => ⟨i, due, charge, hr⟩
    | releaseRead | submitRead | refreshRead =>
      cases h
      refine .inl (quiet_setTask htask rfl ?_ (.refl _))
      split_ifs <;> rfl
    | releaseCarrier | submitCarrier =>
      cases h
      exact .inl (quiet_setTask htask rfl rfl (.refl _))
    | releaseWrite =>
      cases h
      exact .inl (quiet_setTask htask rfl rfl (.release _))
    | submitWrite =>
      cases h
      rw [upToDate, htask] at hG
      exact .inl (quiet_setTask htask rfl rfl (.submit (by simpa using hG) s.now))
    | refreshWrite t | reconcileWrite t =>
      cases h
      refine .inl (quiet_setTask htask rfl rfl (.inReview (t := t) ?_ ?_ ?_ _)) <;>
        exact fun _ => rfl
    | reschedule secs failures =>
      cases h
      exact .inl (quiet_setTask htask rfl rfl (.of_same rfl rfl rfl rfl))
    | ended | renewed | refreshAsk | reconcileAsk => cases h

/-- **What an up-to-date step does.**  It charges a renewal at the date its sweep selected, or
it renews nothing and leaves a released number as it is. -/
theorem step_cases {a : LifeAction} (hoff : s.number.IsOff) (hG : s.upToDate a = true)
    (h : s.step a = some t) : Quiet s t ∨ ∃ i due charge, Renews s t i due charge := by
  cases a with
  | elapse d =>
    cases h
    exact .inl ⟨rfl, fun _ => rfl, rfl, .refl _⟩
  | nudge =>
    cases h
    refine .inl ⟨rfl, fun _ => rfl, rfl, ?_⟩
    show s.number.Gentle (s.number.ifInReview (NumberRow.nudge s.now))
    rw [NumberRow.ifInReview]
    split_ifs
    · exact .of_same rfl rfl rfl rfl
    · exact .refl _
  | release | submit | refresh =>
    cases h
    exact .inl (quiet_addTask rfl (.refl _))
  | renewDue =>
    rw [step] at h
    split at h
    · split_ifs at h <;> cases h
      · exact .inl (quiet_addTask rfl (.refl _))
      · exact .inl ⟨rfl, fun _ => rfl, rfl, .refl _⟩
    · cases h
      exact .inl ⟨rfl, fun _ => rfl, rfl, .refl _⟩
  | reconcileDue =>
    rw [step] at h
    split_ifs at h <;> cases h
    · exact .inl (quiet_addTask rfl (.of_same rfl rfl rfl rfl))
    · exact .inl ⟨rfl, fun _ => rfl, rfl, .refl _⟩
  | advance i answer =>
    obtain ⟨task, htask, h⟩ := Option.bind_eq_some_iff.mp h
    exact runTask_cases hoff htask hG h

/-- Released rows are off, and the dates that were charged are over. -/
structure Inv (s₀ s : NumberLife) : Prop where
  off : s.number.IsOff
  past : ∀ i due, s.renewedAt i = some due → ∀ n, s.number.nextRenewalAt = some n → due < n
  once : ∀ i j due, s.renewedAt i = some due → s.renewedAt j = some due → i = j
  org : s.number.orgId = s₀.number.orgId
  paid : s.credits.balance s₀.number.orgId =
    (s₀.credits.balance s₀.number.orgId).map fun b => b - s.spent
  range : ∀ b, s.credits.balance s₀.number.orgId = some b → b ≤ i32Max

namespace Inv

lemma quiet (hI : Inv s₀ s) (h : Quiet s t) : Inv s₀ t where
  off := h.number.off hI.off
  past := by
    intro i due hi n hn
    obtain ⟨m, hle, hm⟩ := h.number.later n hn
    exact (hI.past i due ((h.renewals i).symm.trans hi) m hm).trans_le hle
  once := fun i j due hi hj =>
    hI.once i j due ((h.renewals i).symm.trans hi) ((h.renewals j).symm.trans hj)
  org := h.number.org.trans hI.org
  paid := by
    rw [h.credits, h.spent]
    exact hI.paid
  range := by
    rw [h.credits]
    exact hI.range

lemma renews (hI : Inv s₀ s) {due : Timestamp} {charge : Int} (h : Renews s t i due charge) :
    Inv s₀ t := by
  obtain ⟨b, credits, hcharge, rfl⟩ := h.charged
  have hrenewed : ∀ j, (setTask { s with credits := credits, number := s.number.renew } i
      (.renewed due charge)).renewedAt j = if j = i then some due else s.renewedAt j :=
    fun j => renewedAt_setTask (s := { s with credits := credits, number := s.number.renew }) h.task
  have hspent : (setTask { s with credits := credits, number := s.number.renew } i
      (.renewed due charge)).spent = s.spent + max charge 0 := by
    refine (Place.sum_map_set h.task LifeTask.charge).trans ?_
    show s.spent - 0 + max charge 0 = _
    rw [sub_zero]
  -- the date was not charged before, since what was charged is over
  have hfresh : ∀ j, s.renewedAt j ≠ some due := fun j hj =>
    lt_irrefl due (hI.past j due hj due h.found)
  have hpaid : credits.balance s₀.number.orgId =
      (s.credits.balance s₀.number.orgId).map fun b => b - max charge 0 := by
    have hrange := hI.range
    rw [← hI.org] at hrange ⊢
    obtain ⟨hnone, -⟩ | ⟨b', hshort⟩ | ⟨b', credits', hcharged, -, hbalance⟩ :=
      chargeTx_cases hrange charge kindRenewal none s.number.e164
    · rw [hnone] at hcharge
      cases hcharge
    · rw [hshort] at hcharge
      cases hcharge
    · rw [hcharged] at hcharge
      cases hcharge
      exact hbalance
  refine ⟨fun hr => (by cases hr), ?_, ?_, hI.org, ?_, ?_⟩
  · intro j d hj n hn
    obtain ⟨m, hm, rfl⟩ := Option.map_eq_some_iff.mp hn
    cases hm.symm.trans h.found
    have hlater : due < due + days 30 := by simp [days, seconds]
    rw [hrenewed] at hj
    split_ifs at hj
    · cases hj
      exact hlater
    · exact (hI.past j d hj due h.found).trans hlater
  · intro j k d hj hk
    rw [hrenewed] at hj hk
    split_ifs at hj hk with hji hki hki
    · rw [hji, hki]
    · cases hj
      exact absurd hk (hfresh k)
    · cases hk
      exact absurd hj (hfresh j)
    · exact hI.once j k d hj hk
  · rw [hspent]
    refine hpaid.trans ?_
    rw [hI.paid, Option.map_map]
    congr 1
    funext b
    show b - s.spent - max charge 0 = b - (s.spent + max charge 0)
    omega
  · intro b hb
    obtain ⟨b', hb', rfl⟩ := Option.map_eq_some_iff.mp (hpaid.symm.trans hb)
    have hle := hI.range b' hb'
    have hmax := le_max_right charge 0
    omega

lemma step (hI : Inv s₀ s) {a : LifeAction} (hG : s.upToDate a = true) (h : s.step a = some t) :
    Inv s₀ t := by
  obtain hquiet | ⟨i, due, charge, hrenews⟩ := step_cases hI.off hG h
  · exact hI.quiet hquiet
  · exact hI.renews hrenews

/-- A released number has no renewal that could find its date. -/
lemma staysReleased (hI : Inv s₀ s) {a : LifeAction} (hG : s.upToDate a = true)
    (h : s.step a = some t) (hr : s.number.status = .released) :
    t.number.status = .released ∧ t.credits = s.credits := by
  obtain hquiet | ⟨i, due, charge, hrenews⟩ := step_cases hI.off hG h
  · exact ⟨hquiet.number.absorbs hr, hquiet.credits⟩
  · have hfound := hrenews.found
    rw [(hI.off hr).2] at hfound
    cases hfound

lemma start (hquiet : s₀.tasks = []) (hoff : s₀.number.IsOff)
    (hrange : ∀ b, s₀.credits.balance s₀.number.orgId = some b → b ≤ i32Max) : Inv s₀ s₀ where
  off := hoff
  past := by simp [renewedAt, hquiet]
  once := by simp [renewedAt, hquiet]
  org := rfl
  paid := by simp [spent, hquiet]
  range := hrange

end Inv

end NumberLife

/-- In a run whose writes are up to date a released number stays released, cannot be called
out of and is charged nothing, and every due date is charged once. -/
theorem released_absorbing_of_run {s₀ s t : NumberLife} {as bs : List LifeAction}
    (hs : Run (Guarded (ofPartial NumberLife.step) fun s a => s.upToDate a = true) s₀ as s)
    (ht : Run (Guarded (ofPartial NumberLife.step) fun s a => s.upToDate a = true) s bs t)
    (hquiet : s₀.tasks = []) (hoff : s₀.number.IsOff)
    (hrange : ∀ b, s₀.credits.balance s₀.number.orgId = some b → b ≤ i32Max) :
    s.StaysReleased t ∧ s₀.ChargedOnce t := by
  have hstep : ∀ (s : NumberLife) (a : LifeAction) (t : NumberLife), NumberLife.Inv s₀ s →
      Guarded (ofPartial NumberLife.step) (fun s a => s.upToDate a = true) s a t →
      NumberLife.Inv s₀ t := fun s a t hI hst => hI.step hst.1 hst.2
  have hI : NumberLife.Inv s₀ s :=
    hs.invariant _ (fun s a _ t => hstep s a t) (.start hquiet hoff hrange)
  have hIt : NumberLife.Inv s₀ t := ht.invariant _ (fun s a _ t => hstep s a t) hI
  refine ⟨fun hreleased => ?_, hIt.once, hIt.paid⟩
  have hstays : NumberLife.Inv s₀ t ∧ t.number.status = .released ∧ t.credits = s.credits := by
    refine ht.invariant
      (fun u => NumberLife.Inv s₀ u ∧ u.number.status = .released ∧ u.credits = s.credits) ?_
      ⟨hI, hreleased, rfl⟩
    rintro u a - v ⟨hIu, hu, hcredits⟩ hst
    obtain ⟨hv, hv'⟩ := hIu.staysReleased hst.1 hst.2 hu
    exact ⟨hIu.step hst.1 hst.2, hv, hv'.trans hcredits⟩
  exact ⟨hstays.2.1, (hIt.off hstays.2.1).1, hstays.2.2⟩

namespace NumberLife

/-- A number at a dollar a month whose renewal is due now. -/
def milanLine : NumberRow where
  id := 9
  orgId := 0
  providerNumberId := some "n1"
  e164 := "+39020"
  inboundEnabled := false
  outboundEnabled := true
  isDefault := false
  status := .active
  statusReason := none
  customerMonthlyUsd := some 1
  purchaseKey := some "k1"
  nextRenewalAt := some 0
  suspendedAt := none
  regulatoryRequirement := none
  providerSubOrderId := none
  regulatoryFailures := 0
  regulatoryNextCheckAt := none

/-- Its organisation has a thousand credits. -/
def milanLife : NumberLife := ⟨⟨[⟨0, 1000⟩], []⟩, milanLine, 0, []⟩

/-- The ledger row of its renewal. -/
def milanRenewal : CreditTransaction := ⟨0, -100, kindRenewal, "+39020", none, none, none⟩

/-- The number renewed for its first month. -/
def renewedLife : NumberLife :=
  ⟨⟨[⟨0, 900⟩], [milanRenewal]⟩, milanLine.renew, 0, [.renewed 0 100]⟩

/-- And released after it. -/
def releasedLife : NumberLife :=
  { renewedLife with number := milanLine.renew.release, tasks := [.renewed 0 100, .ended] }

/-- It is renewed and released; a submission and a refresh come too late. -/
theorem released_absorbing_sample :
    Run (ofPartial step) milanLife
      [.renewDue, .advance 0 .ok, .release, .advance 1 .ok, .advance 1 .ok, .advance 1 .ok]
      releasedLife ∧
    Run (ofPartial step) releasedLife
      [.renewDue, .submit, .advance 2 .ok, .refresh, .advance 3 .ok]
      { releasedLife with tasks := [.renewed 0 100, .ended, .ended, .ended] } ∧
    releasedLife.StaysReleased
      { releasedLife with tasks := [.renewed 0 100, .ended, .ended, .ended] } ∧
    milanLife.ChargedOnce
      { releasedLife with tasks := [.renewed 0 100, .ended, .ended, .ended] } := by
  have hs : Run (Guarded (ofPartial step) fun s a => s.upToDate a = true) milanLife
      [.renewDue, .advance 0 .ok, .release, .advance 1 .ok, .advance 1 .ok, .advance 1 .ok]
      releasedLife := Run.guarded_ofPartial_iff.mpr (by decide +kernel)
  have ht : Run (Guarded (ofPartial step) fun s a => s.upToDate a = true) releasedLife
      [.renewDue, .submit, .advance 2 .ok, .refresh, .advance 3 .ok]
      { releasedLife with tasks := [.renewed 0 100, .ended, .ended, .ended] } :=
    Run.guarded_ofPartial_iff.mpr (by decide +kernel)
  refine ⟨hs.ofGuarded, ht.ofGuarded,
    released_absorbing_of_run hs ht rfl (fun h => ?_) fun b hb => ?_⟩
  · cases h
  · cases hb
    decide

/-- A sweep selects the number, whose owner then gives it back; the transaction charges the
month and makes the number active again.  Two sweeps that select it together charge the same
month twice. -/
theorem renewal_outlives_release :
    (∃ s t, Run (ofPartial step) milanLife
        [.renewDue, .release, .advance 1 .ok, .advance 1 .ok, .advance 1 .ok] s ∧
      Run (ofPartial step) s [.advance 0 .ok] t ∧ s.number.status = .released ∧
      t.number.status = .active ∧ t.number.outboundEnabled = true ∧
      s.credits.balance 0 = some 1000 ∧ t.credits.balance 0 = some 900) ∧
    ∃ u, Run (ofPartial step) milanLife [.renewDue, .renewDue, .advance 0 .ok, .advance 1 .ok] u ∧
      u.credits.balance 0 = some 800 ∧ u.renewedAt 0 = some 0 ∧ u.renewedAt 1 = some 0 := by
  refine ⟨⟨{ milanLife with number := milanLine.release, tasks := [.renewal 0 100, .ended] },
    ⟨renewedLife.credits, milanLine.release.renew, 0, [.renewed 0 100, .ended]⟩,
    Run.ofPartial_iff.mpr (by decide +kernel), Run.ofPartial_iff.mpr (by decide +kernel), rfl, rfl,
    rfl, rfl, rfl⟩, ⟨⟨[⟨0, 800⟩], [milanRenewal, milanRenewal]⟩, milanLine.renew.renew, 0,
    [.renewed 0 100, .renewed 0 100]⟩, Run.ofPartial_iff.mpr (by decide +kernel), rfl, rfl, rfl⟩

end NumberLife

end VoxTranslate.Voip
