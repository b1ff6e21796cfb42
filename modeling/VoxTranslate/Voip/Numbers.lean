import VoxTranslate.Business.Credits
import VoxTranslate.Voip.Pricing

/-!
# Telephone numbers (`voip_numbers`)

The row of a number the organisation bought, with what each of its writers makes of it: a
release, a renewal that was paid or was not, a submission to the regulator, and the outcome
the carrier reports for the regulator's review.  The writers are plain updates of the columns;
which rows a statement touches is up to its `WHERE`, and stands with the operation that makes
it.
-/

namespace VoxTranslate.Voip

open Lib Business

/-- Where a number is in its life. -/
inductive NumberStatus where
  | ordering
  | pendingRegulatory
  | regulatoryReview
  | regulatoryRejected
  | active
  | suspended
  | releasing
  | released
  | failed
  deriving DecidableEq, Repr

/-- The three states of the regulatory pipeline, the guard of the review's writers. -/
def NumberStatus.inReview : NumberStatus → Bool
  | .pendingRegulatory | .regulatoryReview | .regulatoryRejected => true
  | _ => false

/-- The renewal sweep takes numbers in these states. -/
def NumberStatus.isRenewed : NumberStatus → Bool
  | .active | .suspended => true
  | _ => false

/-- A row of `voip_numbers`. -/
structure NumberRow where
  id : Uuid
  orgId : Uuid
  providerNumberId : Option String
  e164 : String
  inboundEnabled : Bool
  outboundEnabled : Bool
  isDefault : Bool
  status : NumberStatus
  statusReason : Option String
  customerMonthlyUsd : Option Usd
  purchaseKey : Option String
  nextRenewalAt : Option Timestamp
  suspendedAt : Option Timestamp
  regulatoryRequirement : Option String
  providerSubOrderId : Option String
  regulatoryFailures : Nat
  regulatoryNextCheckAt : Option Timestamp
  deriving DecidableEq, Repr

/-- Seconds on the clock of the database. -/
def seconds (n : Int) : Int := n * 1000000

def days (n : Int) : Int := seconds (n * 24 * 60 * 60)

/-! ## The regulator's review -/

inductive OrderStatus where
  | pending
  | success
  | failure
  | cancelled
  | deleted
  | unknown
  deriving DecidableEq, Repr

/-- Where the requirements side of a sub-order sits. -/
inductive RequirementsStatus where
  | infoPending
  | underReview
  | exception (reason : Option String)
  | approved
  | unknown
  deriving DecidableEq, Repr

/-- What the carrier reports of a sub-order. -/
structure SubOrderState where
  order : OrderStatus
  requirements : RequirementsStatus
  deriving DecidableEq, Repr

/-- What a report changes in a number: it enables calls out of an active number only, and leads
nowhere but to these states. -/
structure Transition where
  status : NumberStatus
  reason : Option String
  outbound : Bool
  outbound_iff : outbound = true ↔ status = .active
  lands : status.inReview = true ∨ status = .active ∨ status = .failed
  deriving DecidableEq, Repr

/-- The longest reason that is stored. -/
def maxReasonChars : Nat := 500

def truncateReason (reason : String) : String := String.ofList (reason.toList.take maxReasonChars)

/-- The projection of a report onto the number, `none` where it decides nothing. -/
def transition (s : SubOrderState) : Option Transition :=
  if s.order = .cancelled ∨ s.order = .deleted then
    some ⟨.failed, none, false, by decide, by decide⟩
  else if s.requirements = .approved ∨ s.order = .success then
    some ⟨.active, none, true, by decide, by decide⟩
  else
    match s.requirements with
    | .exception reason =>
      some ⟨.regulatoryRejected, reason.map truncateReason, false, by decide, by decide⟩
    | .underReview => some ⟨.regulatoryReview, none, false, by decide, by decide⟩
    | .infoPending => some ⟨.pendingRegulatory, none, false, by decide, by decide⟩
    | .approved | .unknown => none

/-- The cadence an outcome earns, in seconds. -/
def recheckSecsFor : NumberStatus → Option Int
  | .regulatoryReview => some (5 * 60)
  | .pendingRegulatory | .regulatoryRejected => some (30 * 60)
  | _ => none

/-! ## The writers -/

namespace NumberRow

/-- The update of `release`. -/
def release (row : NumberRow) : NumberRow :=
  { row with
    status := .released, outboundEnabled := false, inboundEnabled := false, isDefault := false,
    nextRenewalAt := none }

/-- The update of a renewal that was charged. -/
def renew (row : NumberRow) : NumberRow :=
  { row with
    nextRenewalAt := row.nextRenewalAt.map (· + days 30), status := .active, suspendedAt := none,
    statusReason := none, outboundEnabled := true }

/-- The update of a renewal the wallet did not cover. -/
def suspend (now : Timestamp) (row : NumberRow) : NumberRow :=
  { row with
    status := .suspended, suspendedAt := row.suspendedAt.or (some now),
    statusReason := some "insufficient_credits", outboundEnabled := false,
    nextRenewalAt := row.nextRenewalAt.map (· + days 1) }

/-- The update of `submit_requirements`. -/
def submit (now : Timestamp) (row : NumberRow) : NumberRow :=
  { row with
    status := .regulatoryReview, statusReason := none, outboundEnabled := false,
    regulatoryNextCheckAt := some (now + seconds (2 * 60)) }

/-- The update of `reconcile_one`. -/
def reconcile (t : Transition) (row : NumberRow) : NumberRow :=
  { row with status := t.status, statusReason := t.reason, outboundEnabled := t.outbound }

/-- The update of `apply_transition`. -/
def applyTransition (t : Transition) (now : Timestamp) (row : NumberRow) : NumberRow :=
  { row.reconcile t with
    regulatoryFailures := 0
    regulatoryNextCheckAt := (recheckSecsFor t.status).map fun secs => now + seconds secs }

/-- The update of `reschedule`, which moves no status. -/
def reschedule (secs : Int) (failures : Option Nat) (now : Timestamp) (row : NumberRow) :
    NumberRow :=
  { row with
    regulatoryNextCheckAt := some (now + seconds secs)
    regulatoryFailures := failures.getD row.regulatoryFailures }

/-- What a renewal of the number costs, at the price kept in the row. -/
def renewalCharge (row : NumberRow) : Int := (row.customerMonthlyUsd.map creditsCeil).getD 0

end NumberRow

/-! ## What a number is charged -/

/-- The charge of a transaction, which takes nothing where nothing is owed. -/
def chargeTx (credits : Credits) (orgId : Uuid) (charge : Int) (kind : String)
    (actorId : Option Uuid) (description : String) : Option (OrgCharge × Credits) :=
  if 0 < charge then credits.deductOrgCreditsTx orgId charge kind none actorId description
  else some (.charged 0, credits)

/-- What it comes to: no organisation, too few credits, or the charge. -/
lemma chargeTx_cases {credits : Credits} {orgId : Uuid}
    (hrange : ∀ b, credits.balance orgId = some b → b ≤ i32Max) (charge : Int) (kind : String)
    (actorId : Option Uuid) (description : String) :
    (chargeTx credits orgId charge kind actorId description = none ∧
      credits.balance orgId = none ∧ 0 < charge) ∨
    (∃ b, chargeTx credits orgId charge kind actorId description =
        some (.insufficient b charge, credits)) ∨
    ∃ b credits', chargeTx credits orgId charge kind actorId description =
        some (.charged b, credits') ∧
      (∀ b, credits.balance orgId = some b → 0 < charge → charge ≤ b) ∧
      credits'.balance orgId = (credits.balance orgId).map fun b => b - max charge 0 := by
  rw [chargeTx]
  by_cases hpos : 0 < charge
  · rw [if_pos hpos, max_eq_left hpos.le]
    cases hb : credits.balance orgId with
    | none =>
      refine .inl ⟨?_, rfl, hpos⟩
      rw [Credits.deductOrgCreditsTx, hb]
      rfl
    | some b =>
      obtain hshort | hcovers := lt_or_ge b charge
      · refine .inr (.inl ⟨b, ?_⟩)
        simp [Credits.deductOrgCreditsTx, hb, hpos, hshort]
      · have hb_le := hrange b hb
        obtain ⟨hlt, -⟩ | ⟨-, credits', hdeduct, hmoves⟩ := Credits.deduct_spec kind none actorId
          description hpos.le (hcovers.trans hb_le) hb ⟨by omega, hb_le⟩
        · omega
        · refine .inr (.inr ⟨_, credits', hdeduct, ?_, ?_⟩)
          · rintro _ ⟨⟩ -
            exact hcovers
          · rw [hmoves.balance_self hb]
            rfl
  · refine .inr (.inr ⟨0, credits, if_neg hpos, fun _ _ h => absurd h hpos, ?_⟩)
    rw [max_eq_right (not_lt.mp hpos)]
    simp

end VoxTranslate.Voip
