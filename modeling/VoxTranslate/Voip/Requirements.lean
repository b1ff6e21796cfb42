import VoxTranslate.Voip.Overrun
import VoxTranslate.Voip.Release

/-!
# Requirement groups (`regulatory.rs`)

A number that needs papers is cleared through a requirement group at the provider, one for all
numbers of an organisation that share a country and a kind.  `ensure_group` claims the
combination with an insert, asks the provider for a group and writes down the answer.  The sweep
over the numbers reads their sub-orders, and attaches an approved group to a number that has
none.

The status of a group is written when the group is made, and by nothing else.

One provider serves a deployment and `ordering` is the only action, so these two columns of the
combination are left out.
-/

namespace VoxTranslate.Voip

open Lib

/-- What kind of number. -/
inductive NumberKind where
  | «local»
  | national
  | tollFree
  | mobile
  deriving DecidableEq, Repr

/-- Where a group is in the provider's approval. -/
inductive GroupStatus where
  | unapproved
  | pendingApproval
  | approved
  | declined
  | expired
  | noLongerEligible
  | unknown
  deriving DecidableEq, Repr

/-- The group is of no use any more. -/
def GroupStatus.isOver : GroupStatus → Bool
  | .declined | .expired | .noLongerEligible => true
  | _ => false

/-- The column `status`: `creating` is the claim, and the rest is what the provider said. -/
inductive StoredStatus where
  | creating
  | said (status : GroupStatus)
  deriving DecidableEq, Repr

/-- `status NOT IN ('expired', 'no_longer_eligible')`, the rows of the partial unique index. -/
def StoredStatus.holdsSlot : StoredStatus → Bool
  | .said .expired | .said .noLongerEligible => false
  | _ => true

/-- What a group is for. -/
structure Combination where
  orgId : Uuid
  country : String
  numberKind : NumberKind
  deriving DecidableEq, Repr

/-- The provider's handle of a group. -/
abbrev RequirementGroupId := String

/-- A row of `voip_requirement_groups`. -/
structure GroupRow where
  id : Uuid
  combination : Combination
  providerGroupId : Option RequirementGroupId
  status : StoredStatus
  createdAt : Timestamp
  deriving DecidableEq, Repr

def GroupRow.key (row : GroupRow) : Uuid := row.id

/-- A group at the provider. -/
structure ProviderGroup where
  id : RequirementGroupId
  /-- The status in the answer that created it. -/
  created : GroupStatus
  /-- The status the provider reports for it. -/
  reported : GroupStatus
  deriving DecidableEq, Repr

/-- A call of `create_requirement_group`, for a claim. -/
structure Creation where
  claim : Uuid
  combination : Combination
  /-- What the provider made of it. -/
  group : Option ProviderGroup
  /-- The request still waits for the answer. -/
  waiting : Bool
  deriving DecidableEq, Repr

def Creation.key (c : Creation) : Uuid := c.claim

/-- A row of `voip_numbers` with what the papers read of it.  A number with a sub-order was
bought with its kind. -/
structure RegulatedNumber extends NumberRow where
  country : String
  numberKind : Option NumberKind
  requirementGroupId : Option Uuid
  kind_known : providerSubOrderId.isSome = true → numberKind.isSome = true
  deriving DecidableEq

/-- The statements that write the columns of the row. -/
inductive NumberWrite where
  | release
  | renew
  | suspend
  | submit
  /-- `reconcile_one`. -/
  | reconcile (t : Transition)
  | nudge
  /-- The claim of the sweep. -/
  | hold
  | applyTransition (t : Transition)
  | reschedule (secs : Int) (failures : Option Nat)

def NumberWrite.apply (now : Timestamp) : NumberWrite → NumberRow → NumberRow
  | .release, row => row.release
  | .renew, row => row.renew
  | .suspend, row => row.suspend now
  | .submit, row => row.submit now
  | .reconcile t, row => row.ifInReview (NumberRow.reconcile t)
  | .nudge, row => row.ifInReview (NumberRow.nudge now)
  | .hold, row => { row with regulatoryNextCheckAt := some (now + seconds claimHoldSecs) }
  | .applyTransition t, row => row.ifInReview (NumberRow.applyTransition t now)
  | .reschedule secs failures, row => row.reschedule secs failures now

/-- No statement writes what tells which number it is. -/
lemma NumberWrite.apply_same (w : NumberWrite) (now : Timestamp) (row : NumberRow) :
    (w.apply now row).id = row.id ∧ (w.apply now row).orgId = row.orgId ∧
      (w.apply now row).providerSubOrderId = row.providerSubOrderId := by
  cases w with
  | reconcile t | nudge | applyTransition t =>
    simp only [NumberWrite.apply, NumberRow.ifInReview]
    split_ifs <;> exact ⟨rfl, rfl, rfl⟩
  | _ => exact ⟨rfl, rfl, rfl⟩

namespace RegulatedNumber

def key (n : RegulatedNumber) : Uuid := n.id

/-- The combination that `ensure_group` asks for. -/
def combination (n : RegulatedNumber) : Combination :=
  ⟨n.orgId, n.country, n.numberKind.getD .local⟩

def write (now : Timestamp) (w : NumberWrite) (n : RegulatedNumber) : RegulatedNumber :=
  { n with
    toNumberRow := w.apply now n.toNumberRow
    kind_known := fun h => n.kind_known (by rwa [(w.apply_same now _).2.2] at h) }

/-- The claim of the sweep. -/
def hold (now : Timestamp) (ids : List Uuid) (n : RegulatedNumber) : RegulatedNumber :=
  if n.id ∈ ids then n.write now .hold else n

/-- The update of `link_group` and of the sweep, which asks for a number without a group. -/
def link (group : Uuid) (n : RegulatedNumber) : RegulatedNumber :=
  { n with requirementGroupId := n.requirementGroupId.or (some group) }

/-- `ON DELETE SET NULL`. -/
def unlink (deleted : Uuid → Bool) (n : RegulatedNumber) : RegulatedNumber :=
  { n with requirementGroupId := n.requirementGroupId.filter fun group => !deleted group }

end RegulatedNumber

/-- The two tables, the provider and the clock of the database. -/
structure Paperwork where
  groups : List GroupRow
  numbers : List RegulatedNumber
  creations : List Creation
  /-- The calls of `attach_requirement_group`. -/
  attached : List (Option String × RequirementGroupId)
  now : Timestamp
  deriving DecidableEq

/-- One pass of `reconcile_due`: the rows it claims, in the order they are returned, and what
the provider answers about each.  Rows that are locked are skipped, so any that are due may be
claimed. -/
structure ReconcilePass where
  batch : Int
  claimed : List Uuid
  reply : Uuid → SubOrderReply

namespace Paperwork

def start (numbers : List RegulatedNumber) (now : Timestamp) : Paperwork :=
  ⟨[], numbers, [], [], now⟩

/-- The groups at the provider. -/
def providerGroups (s : Paperwork) : List ProviderGroup := s.creations.filterMap Creation.group

def number (s : Paperwork) (id : Uuid) : Option RegulatedNumber :=
  Table.get RegulatedNumber.key s.numbers id

def creation (s : Paperwork) (claim : Uuid) : Option Creation :=
  Table.get Creation.key s.creations claim

def updateNumber (s : Paperwork) (id : Uuid) (f : RegulatedNumber → RegulatedNumber) :
    Paperwork :=
  { s with numbers := Table.update RegulatedNumber.key s.numbers id f }

def updateCreation (s : Paperwork) (claim : Uuid) (f : Creation → Creation) : Paperwork :=
  { s with creations := Table.update Creation.key s.creations claim f }

def deleteGroups (s : Paperwork) (deleted : GroupRow → Bool) : Paperwork :=
  { s with
    groups := s.groups.filter fun row => !deleted row
    numbers := s.numbers.map (RegulatedNumber.unlink fun group =>
      s.groups.any fun row => row.id = group && deleted row) }

/-! ## `ensure_group` -/

/-- The row that a second insert for the combination conflicts with. -/
def slot (s : Paperwork) (combination : Combination) : Option GroupRow :=
  s.groups.find? fun row => row.combination = combination && row.status.holdsSlot

/-- The insert that wins the claim; the provider is called. -/
def claim (s : Paperwork) (combination : Combination) (id : Uuid) : Option Paperwork :=
  if (s.slot combination).isSome || (s.creation id).isSome then none
  else some { s with
    groups := ⟨id, combination, none, .creating, s.now⟩ :: s.groups
    creations := ⟨id, combination, none, true⟩ :: s.creations }

/-- The provider makes a group of a call. -/
def opened (s : Paperwork) (claim : Uuid) (id : RequirementGroupId) (status : GroupStatus) :
    Option Paperwork := do
  let c ← s.creation claim
  if c.group.isSome || s.providerGroups.any (fun g => g.id = id) then none
  else return s.updateCreation claim fun c => { c with group := some ⟨id, status, status⟩ }

/-- Nobody waits for the answer any more. -/
def answered (s : Paperwork) (claim : Uuid) : Paperwork :=
  s.updateCreation claim fun c => { c with waiting := false }

/-- The answer is written down. -/
def recordGroup (s : Paperwork) (claim : Uuid) : Option Paperwork := do
  let c ← s.creation claim
  let g ← c.group
  if c.waiting then
    return { s.answered claim with
      groups := Table.update GroupRow.key s.groups claim fun row =>
        { row with providerGroupId := some g.id, status := .said g.created } }
  else none

/-- The call failed: the claim is released. -/
def releaseClaim (s : Paperwork) (claim : Uuid) : Option Paperwork := do
  let c ← s.creation claim
  if c.waiting then
    return (s.answered claim).deleteGroups fun row => row.id = claim && row.providerGroupId.isNone
  else none

/-- The request died, or its statement failed. -/
def abandon (s : Paperwork) (claim : Uuid) : Option Paperwork := do
  let c ← s.creation claim
  if c.waiting then return s.answered claim else none

/-- `link_group`, for the group that `ensure_group` returned: it was recorded just now, or holds
the slot. -/
def linkGroup (s : Paperwork) (numberId groupId : Uuid) : Option Paperwork := do
  let n ← s.number numberId
  if s.groups.any fun row =>
      row.id = groupId && row.combination = n.combination && row.providerGroupId.isSome then
    return s.updateNumber numberId (.link groupId)
  else none

/-! ## The sweep -/

/-- The query for a group to reuse. -/
def reusable (s : Paperwork) (row : RegulatedNumber) : Option GroupRow :=
  s.groups.find? fun group =>
    group.combination.orgId = row.orgId && group.combination.country = row.country &&
      some group.combination.numberKind = row.numberKind &&
      group.status = .said .approved && group.providerGroupId.isSome

def attachReusableGroupIfAny (s : Paperwork) (row : RegulatedNumber) : Paperwork :=
  match s.reusable row with
  | none => s
  | some group =>
    { s.updateNumber row.id (.link group.id) with
      attached :=
        group.providerGroupId.toList.map (fun g => (row.providerSubOrderId, g)) ++ s.attached }

def attachUnlinked (s : Paperwork) (row : RegulatedNumber) : Paperwork :=
  if row.requirementGroupId.isNone then s.attachReusableGroupIfAny row else s

/-- What the sweep writes to a number; nothing where the provider limits the rate. -/
def sweepWrite (row : RegulatedNumber) : SubOrderReply → Option NumberWrite
  | .known state =>
    match transition state with
    | some t => some (.applyTransition t)
    | none => some (.reschedule ((recheckSecsFor row.status).getD pendingRecheckSecs) (some 0))
  | .unknown | .failed =>
    let failures := row.regulatoryFailures + 1
    some (.reschedule (backoffSecs failures) (some failures))
  | .unsupported => some (.reschedule unsupportedRecheckSecs none)
  | .rateLimited => none

/-- A rate limit ends the pass. -/
def reconcileRows (reply : Uuid → SubOrderReply) (s : Paperwork) :
    List RegulatedNumber → Paperwork
  | [] => s
  | row :: rows =>
    match sweepWrite row (reply row.id) with
    | none => s.attachUnlinked row
    | some w =>
      reconcileRows reply ((s.attachUnlinked row).updateNumber row.id (.write s.now w)) rows

/-- The claim of `reconcile_due`. -/
def holdRows (s : Paperwork) (ids : List Uuid) : Paperwork :=
  { s with numbers := s.numbers.map (.hold s.now ids) }

def reconcileDue (s : Paperwork) (pass : ReconcilePass) : Option Paperwork :=
  if pass.claimed.Nodup ∧ pass.claimed.length ≤ batchSize pass.batch ∧
      ∀ id ∈ pass.claimed, (s.number id).any fun n => n.isCheckDue s.now then
    let s' := s.holdRows pass.claimed
    some (s'.reconcileRows pass.reply (pass.claimed.filterMap s'.number))
  else none

/-- A claim older than ten minutes. -/
def isStale (now : Timestamp) (row : GroupRow) : Bool :=
  row.status = .creating && row.providerGroupId.isNone && row.createdAt < now - seconds (10 * 60)

def reclaimStaleGroups (s : Paperwork) : Paperwork := s.deleteGroups (isStale s.now)

/-! ## Steps -/

inductive Action where
  | elapse (d : Nat)
  | claim (combination : Combination) (id : Uuid)
  | opened (claim : Uuid) (id : RequirementGroupId) (status : GroupStatus)
  | recordGroup (claim : Uuid)
  | releaseClaim (claim : Uuid)
  | abandon (claim : Uuid)
  /-- What the provider reports for a group from now on. -/
  | report (id : RequirementGroupId) (status : GroupStatus)
  | linkGroup (number group : Uuid)
  /-- The call of `submit_requirements`; its write follows. -/
  | attach (subOrder : Option String) (id : RequirementGroupId)
  /-- A request or another sweep writes a number. -/
  | write (number : Uuid) (w : NumberWrite)
  | buy (number : RegulatedNumber)
  | reconcileDue (pass : ReconcilePass)
  | reclaimStaleGroups

/-- The step function.  Filling in values and uploading documents write neither table; what the
provider makes of them is a report. -/
def step (s : Paperwork) : Action → Option Paperwork
  | .elapse d => some { s with now := s.now + d }
  | .claim combination id => s.claim combination id
  | .opened claim id status => s.opened claim id status
  | .recordGroup claim => s.recordGroup claim
  | .releaseClaim claim => s.releaseClaim claim
  | .abandon claim => s.abandon claim
  | .report id status =>
    some { s with
      creations := s.creations.map fun c =>
        { c with group := c.group.map fun g =>
            if g.id = id then { g with reported := status } else g } }
  | .linkGroup number group => s.linkGroup number group
  | .attach subOrder id => some { s with attached := (subOrder, id) :: s.attached }
  | .write number w => some (s.updateNumber number (.write s.now w))
  | .buy n => if (s.number n.id).isSome then none else some { s with numbers := n :: s.numbers }
  | .reconcileDue pass => s.reconcileDue pass
  | .reclaimStaleGroups => some s.reclaimStaleGroups

end Paperwork

end VoxTranslate.Voip
