import Mathlib.Order.Basic

/-!
# The call lifecycle

Provider webhooks are duplicated, delayed and delivered out of business order, so the
lifecycle is a pure function `next` of the stored state and one normalised event.  It is
total, monotonic (a transition never lowers the rank) and absorbing (nothing follows
`completed` or `failed`).  The states are persisted as text; `parse_asStr` is why the rest
of the development may store the state itself.
-/

namespace VoxTranslate.Voip

/-- Where a call is in its life, persisted in `voip_calls.status`. -/
inductive CallState where
  /-- The row exists and credits are reserved, but nothing has been dialed. -/
  | created
  /-- Handed to the provider; no carrier response yet. -/
  | dialing
  | ringing
  /-- The first state in which the customer can be charged. -/
  | answered
  /-- Media is streaming and translation is live in both directions. -/
  | bridged
  /-- Teardown started. -/
  | ending
  /-- Terminal, and the call happened. -/
  | completed
  /-- Terminal, and the call did not happen or could not continue. -/
  | failed
  deriving DecidableEq, Repr

namespace CallState

/-- The persisted name. -/
def asStr : CallState → String
  | created => "created"
  | dialing => "dialing"
  | ringing => "ringing"
  | answered => "answered"
  | bridged => "bridged"
  | ending => "ending"
  | completed => "completed"
  | failed => "failed"

/-- Read a persisted name back.  Unknown values are refused. -/
def parse (raw : String) : Option CallState :=
  match raw with
  | "created" => some created
  | "dialing" => some dialing
  | "ringing" => some ringing
  | "answered" => some answered
  | "bridged" => some bridged
  | "ending" => some ending
  | "completed" => some completed
  | "failed" => some failed
  | _ => none

/-- The lifecycle order.  Both terminal states share the top rank, so neither can follow
the other. -/
def rank : CallState → Nat
  | created => 0
  | dialing => 1
  | ringing => 2
  | answered => 3
  | bridged => 4
  | ending => 5
  | completed | failed => 6

/-- Nothing follows a terminal state. -/
def isTerminal : CallState → Bool
  | completed | failed => true
  | _ => false

/-- The call was answered at some point, which decides whether a hangup completes the call
or fails it. -/
def wasAnswered (s : CallState) : Bool := decide (answered.rank ≤ s.rank) && !s.isTerminal

/-- Every stored name is read back as the state it was written from. -/
@[simp] lemma parse_asStr (s : CallState) : parse s.asStr = some s := by
  cases s <;> rfl

/-- The column holds nothing else: a name that parses is the name of what it parses to. -/
lemma asStr_of_parse {raw : String} {s : CallState} (h : parse raw = some s) :
    s.asStr = raw := by
  unfold parse at h
  split at h <;> first | (cases h; rfl) | cases h

lemma rank_le_six (s : CallState) : s.rank ≤ 6 := by
  cases s <;> decide

lemma isTerminal_iff_rank (s : CallState) : s.isTerminal = true ↔ s.rank = 6 := by
  cases s <;> decide

end CallState

/-- Why a call ended or could not start. -/
inductive FailureReason where
  | busy
  | rejected
  | noAnswer
  | unallocated
  | destinationNotAllowed
  | destinationTooExpensive
  | rateUnavailable
  | insufficientCredits
  | creditsExhausted
  | euProcessingUnavailable
  | concurrencyLimit
  | maxDurationReached
  | mediaLost
  | providerUnavailable
  | engineUnavailable
  | consentDeclined
  | unmapped
  deriving DecidableEq, Repr

/-- The value persisted in `voip_calls.failure_reason`. -/
def FailureReason.asStr : FailureReason → String
  | busy => "busy"
  | rejected => "rejected"
  | noAnswer => "no_answer"
  | unallocated => "unallocated_number"
  | destinationNotAllowed => "destination_not_allowed"
  | destinationTooExpensive => "destination_too_expensive"
  | rateUnavailable => "rate_unavailable"
  | insufficientCredits => "insufficient_credits"
  | creditsExhausted => "credits_exhausted"
  | euProcessingUnavailable => "eu_processing_unavailable"
  | concurrencyLimit => "concurrency_limit"
  | maxDurationReached => "max_duration_reached"
  | mediaLost => "media_lost"
  | providerUnavailable => "provider_unavailable"
  | engineUnavailable => "engine_unavailable"
  | consentDeclined => "consent_declined"
  | unmapped => "unmapped"

/-- A lifecycle-relevant thing that happened, out of provider vocabulary. -/
inductive CallEvent where
  | dialed
  | ringing
  | answered
  | mediaEstablished
  | ending
  /-- The call is over; no reason for an ordinary hangup. -/
  | hangup (reason : Option FailureReason)
  /-- The call cannot proceed. -/
  | failed (reason : FailureReason)
  deriving DecidableEq, Repr

/-- The candidate is taken only if it lies strictly later than the state. -/
def advance (state candidate : CallState) : Option CallState :=
  if state.rank < candidate.rank then some candidate else none

/-- The lifecycle function: the new state, or `none` when the event does not move the
lifecycle. -/
def next (state : CallState) (event : CallEvent) : Option CallState :=
  if state.isTerminal then none
  else match event with
    | .dialed => advance state .dialing
    | .ringing => advance state .ringing
    | .answered => advance state .answered
    | .mediaEstablished => advance state .bridged
    | .ending => advance state .ending
    -- terminal from wherever it lands: the one event that bypasses the rank check
    | .hangup _ => some (if state.wasAnswered then .completed else .failed)
    | .failed _ => some .failed

lemma advance_eq_some {s c t : CallState} : advance s c = some t ↔ s.rank < c.rank ∧ t = c := by
  unfold advance
  split_ifs with h
  · simp [h, eq_comm]
  · simp [h]

/-- **Absorbing.**  Nothing moves a terminal state. -/
lemma next_of_isTerminal {s : CallState} (h : s.isTerminal = true) (e : CallEvent) :
    next s e = none := by
  simp [next, h]

/-- **Monotonic.**  A transition starts at a state that is not terminal and raises the
rank. -/
lemma next_rank {s t : CallState} {e : CallEvent} (h : next s e = some t) :
    s.isTerminal = false ∧ s.rank < t.rank := by
  cases hs : s.isTerminal with
  | true => rw [next_of_isTerminal hs] at h; cases h
  | false =>
    refine ⟨rfl, ?_⟩
    have hlt : s.rank < 6 := by
      have := CallState.isTerminal_iff_rank s
      have := CallState.rank_le_six s
      simp only [hs, Bool.false_eq_true, false_iff] at *
      omega
    simp only [next, hs, Bool.false_eq_true, if_false] at h
    cases e with
    | dialed | ringing | answered | mediaEstablished | ending =>
      obtain ⟨hr, rfl⟩ := advance_eq_some.mp h
      exact hr
    | hangup r =>
      cases h
      split_ifs <;> exact hlt
    | failed r =>
      cases h
      exact hlt

/-- A hangup ends every call that is not already over, as completed exactly when it was
answered. -/
lemma next_hangup {s : CallState} (h : s.isTerminal = false) (r : Option FailureReason) :
    next s (.hangup r) = some (if s.wasAnswered then .completed else .failed) := by
  simp [next, h]

end VoxTranslate.Voip
