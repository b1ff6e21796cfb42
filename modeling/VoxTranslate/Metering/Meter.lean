import VoxTranslate.Base

/-!
# Usage meters

A meter is a task that ticks once an interval: the usage meter charges whoever pays, the guest
meter counts the speaking time of an address.  Each runs until it is cancelled or has run out,
and says so when it has run out.
-/

namespace VoxTranslate.Metering

/-- Who a metered tick is charged to. -/
inductive Payer where
  | user (userId sessionId : Uuid)
  /-- The organization that sponsors the room. -/
  | org (orgId : Uuid) (sessionId : Option Uuid)
  deriving DecidableEq, Repr

/-- How the streams of a tick are counted. -/
inductive MeterScope where
  | speaker (scaleByTargetCount : Bool)
  | listener
  deriving DecidableEq, Repr

/-- The largest `u64`. -/
def u64Max : Nat := 18446744073709551615

/-- The cumulative speaking cap of a peer, in seconds: lifted for who is signed in, and in a
sponsored room. -/
def guestCapSecs (guestMaxMinutes : Option Nat) (isGuest sponsored : Bool) : Option Nat :=
  if !isGuest || sponsored then none else guestMaxMinutes.map fun m => min (m * 60) u64Max

inductive MeterKind where
  /-- `run_usage_meter`, at the rate of an engine. -/
  | usage (scope : MeterScope) (engine : String)
  /-- `run_guest_meter`. -/
  | guest
  deriving DecidableEq, Repr

inductive MeterState where
  | running
  /-- Returned, after it signalled that the account or the cap is used up. -/
  | exhausted
  /-- Returned because a charge failed. -/
  | failed
  deriving DecidableEq, Repr

/-- The task of a meter. -/
structure Meter where
  kind : MeterKind
  state : MeterState
  /-- Milliseconds since its timer fired last. -/
  sinceTick : Nat
  deriving DecidableEq, Repr

def Meter.isRunning (m : Meter) : Bool := m.state = .running

/-- A running meter of what a listener receives. -/
def Meter.isListening (m : Meter) : Bool :=
  m.isRunning && match m.kind with
    | .usage .listener _ => true
    | .usage (.speaker _) _ | .guest => false

lemma Meter.isListening_iff {m : Meter} :
    m.isListening = true ↔ m.isRunning = true ∧ ∃ engine, m.kind = .usage .listener engine := by
  obtain ⟨kind, state, sinceTick⟩ := m
  rw [isListening, Bool.and_eq_true]
  refine and_congr_right fun _ => ?_
  rcases kind with ⟨_ | _, engine⟩ | _ <;> simp

/-- A meter whose first tick, which is immediate, was consumed. -/
def Meter.spawn (kind : MeterKind) : Meter := ⟨kind, .running, 0⟩

/-- What a tick of a usage meter meets. -/
inductive TickOutcome where
  /-- Nothing is translated, or less than a cent is due. -/
  | skipped
  | charged
  | insufficient
  /-- The charge failed for another reason. -/
  | failed
  deriving DecidableEq, Repr

/-- What a tick does. -/
structure TickEffect where
  state : MeterState
  /-- The seconds the guest's address has used. -/
  spent : Nat
  charged : Bool
  deriving DecidableEq, Repr

/-- The body of the loop of a meter, for an interval and a cap in seconds. -/
def MeterKind.tick (interval cap spent : Nat) : MeterKind → TickOutcome → TickEffect
  | .usage _ _, .skipped => ⟨.running, spent, false⟩
  | .usage _ _, .charged => ⟨.running, spent, true⟩
  | .usage _ _, .insufficient => ⟨.exhausted, spent, false⟩
  | .usage _ _, .failed => ⟨.failed, spent, false⟩
  | .guest, _ =>
    let total := spent + interval
    if cap ≤ total then ⟨.exhausted, total, false⟩ else ⟨.running, total, false⟩

end VoxTranslate.Metering
