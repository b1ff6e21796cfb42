import VoxTranslate.Business.Credits

/-!
# Credit holds

A hold is a real deduction at dial time, so two simultaneous dials cannot both spend the
same balance.  Closing a hold gives back what the call did not use, or charges what it used
beyond the hold; what the pool can no longer cover is recorded as a shortfall.  Closing is
idempotent: a hold that is no longer open reports its first settlement and moves nothing.

The rows of `voip_credit_reservations` are kept newest first, which is what
`ORDER BY created_at DESC` reads.  The credits of a hold lie between `0` and the largest
`i32`, so the arithmetic of this module does not wrap; that of the pool may.
-/

namespace VoxTranslate.Voip

open Lib Business

/-- The column `state` of a hold. -/
inductive HoldState where
  | held
  | settled
  | released
  deriving DecidableEq, Repr

/-- A row of `voip_credit_reservations`. -/
structure Reservation where
  id : Uuid
  callId : Uuid
  orgId : Uuid
  heldCredits : Int
  settledCredits : Int
  releasedCredits : Int
  shortfallCredits : Int
  state : HoldState
  deriving DecidableEq, Repr

/-- What a closed hold did to the pool. -/
structure Settlement where
  held : Int
  /-- What the org paid for this call, in total. -/
  settled : Int
  /-- What came back to the pool. -/
  released : Int
  /-- What the call owed that the pool could not cover. -/
  shortfall : Int
  deriving DecidableEq, Repr

/-- The accounting identities of a settlement. -/
def Settlement.isCoherent (s : Settlement) (actual : Int) : Bool :=
  decide (s.released = s.held - max (min actual s.held) 0) &&
    decide (s.settled + s.shortfall = max actual 0)

/-- The settlement stored in a row. -/
def Reservation.settlement (r : Reservation) : Settlement where
  held := r.heldCredits
  settled := r.settledCredits
  released := r.releasedCredits
  shortfall := r.shortfallCredits

/-- The row closed with settlement `s`. -/
def Reservation.closeWith (finalState : HoldState) (s : Settlement) (r : Reservation) :
    Reservation :=
  { r with
    state := finalState
    settledCredits := s.settled
    releasedCredits := s.released
    shortfallCredits := s.shortfall }

/-- The pool with its holds, newest hold first. -/
structure Reservations extends Credits where
  reservations : List Reservation
  deriving DecidableEq, Repr

/-- Outcome of trying to take a hold. -/
inductive ReserveOutcome where
  | held (row : Reservation)
  | insufficient (balance required : Int)
  deriving DecidableEq, Repr

def kindHold : String := "voip_hold"
def kindRelease : String := "voip_hold_release"
def kindExtra : String := "voip_overage"

namespace Reservations

/-- The latest hold of a call. -/
def latest (db : Reservations) (callId : Uuid) : Option Reservation :=
  Table.get Reservation.callId db.reservations callId

/-- `INSERT INTO voip_credit_reservations`.  The primary key and the index that allows one
open hold per call refuse the row. -/
def insertReservation (db : Reservations) (row : Reservation) : Option Reservations :=
  if ∃ r ∈ db.reservations, r.id = row.id ∨ (r.callId = row.callId ∧ r.state = .held) then none
  else some { db with reservations := row :: db.reservations }

/-- Take a hold of `credits` for a call; `newId` is the identifier the database draws. -/
def reserve (db : Reservations) (orgId callId sessionId : Uuid) (actorId : Option Uuid)
    (credits : Int) (newId : Uuid) : Option (ReserveOutcome × Reservations) := do
  let credits := max credits 0
  let (charge, pool) ← db.toCredits.deductOrgCreditsTx orgId credits kindHold (some sessionId)
    actorId "Hold for a translated phone call"
  match charge with
  | .charged _ =>
    let row : Reservation :=
      { id := newId, callId, orgId, heldCredits := credits, settledCredits := 0,
        releasedCredits := 0, shortfallCredits := 0, state := .held }
    let db ← insertReservation { db with toCredits := pool } row
    return (.held row, db)
  | .insufficient balance required => return (.insufficient balance required, db)

/-- The unused part of a hold goes back to the pool. -/
def returnUnused (pool : Credits) (orgId sessionId : Uuid) (released : Int) : Option Credits :=
  if 0 < released then
    (pool.addOrgCreditsTx orgId released kindRelease
      "Unused hold returned after a translated phone call" none (some sessionId)).map Prod.snd
  else some pool

/-- What a call used beyond its hold: charged in full, or as far as the pool goes, with the
rest as a shortfall.  The pair is what was charged and what was not. -/
def chargeExtra (pool : Credits) (orgId sessionId : Uuid) (extra : Int) :
    Option ((Int × Int) × Credits) :=
  if 0 < extra then do
    let (charge, pool) ← pool.deductOrgCreditsTx orgId extra kindExtra (some sessionId) none
      "Translated phone call exceeded its credit hold"
    match charge with
    | .charged _ => return ((extra, 0), pool)
    | .insufficient balance _ =>
      let part := max balance 0
      if 0 < part then
        let (_, pool) ← pool.deductOrgCreditsTx orgId part kindExtra (some sessionId) none
          "Translated phone call exceeded its credit hold (partial)"
        return ((part, extra - part), pool)
      else return ((0, extra - part), pool)
  else some ((0, 0), pool)

/-- Close the latest hold of a call against what the call actually consumed. -/
def close (db : Reservations) (callId sessionId : Uuid) (actual : Int)
    (finalState : HoldState) : Option (Option Settlement × Reservations) :=
  match db.latest callId with
  | none => some (none, db)
  | some res =>
    -- already closed: report what happened, change nothing
    if res.state ≠ .held then some (some res.settlement, db)
    else do
      let held := res.heldCredits
      let covered := min actual held
      let released := held - covered
      let pool ← returnUnused db.toCredits res.orgId sessionId released
      let ((charged, shortfall), pool) ←
        chargeExtra pool res.orgId sessionId (actual - covered)
      let s : Settlement := { held, settled := covered + charged, released, shortfall }
      return (some s,
        { db with
          toCredits := pool
          reservations := Table.update Reservation.id db.reservations res.id
            (Reservation.closeWith finalState s) })

/-- Close a hold at the cost of a completed call. -/
def settleTx (db : Reservations) (callId sessionId : Uuid) (actualCredits : Int) :
    Option (Option Settlement × Reservations) :=
  db.close callId sessionId (max actualCredits 0) .settled

/-- Give the whole hold back. -/
def releaseTx (db : Reservations) (callId sessionId : Uuid) :
    Option (Option Settlement × Reservations) :=
  db.close callId sessionId 0 .released

end Reservations

lemma Reservation.closeWith_keepsId (st : HoldState) (s : Settlement) :
    Table.KeepsKey Reservation.id (Reservation.closeWith st s) := fun _ => rfl

lemma Reservation.closeWith_keepsCall (st : HoldState) (s : Settlement) :
    Table.KeepsKey Reservation.callId (Reservation.closeWith st s) := fun _ => rfl

namespace Reservations

variable {db db' : Reservations} {pool pool' : Credits} {orgId callId sessionId : Uuid}
  {b actual released extra : Int} {finalState : HoldState}

/-! ## The two halves of a closing -/

lemma returnUnused_spec (sessionId : Uuid) (h₀ : 0 ≤ released)
    (hb : pool.balance orgId = some b) (hfits : FitsI32 (b + released)) :
    ∃ pool', returnUnused pool orgId sessionId released = some pool' ∧
      pool.Moves pool' orgId released := by
  unfold returnUnused
  split_ifs with hpos
  · obtain ⟨pool', hadd, hmoves⟩ := Credits.add_spec kindRelease
      "Unused hold returned after a translated phone call" none (some sessionId) hb hfits
    exact ⟨pool', by rw [hadd, Option.map_some], hmoves⟩
  · have hzero : released = 0 := by omega
    subst hzero
    exact ⟨pool, rfl, Credits.Moves.refl pool orgId⟩

lemma chargeExtra_spec (sessionId : Uuid) (h₀ : 0 ≤ extra) (hmax : extra ≤ i32Max)
    (hb : pool.balance orgId = some b) (hrange : Credits.InRange b) :
    ∃ charged shortfall pool',
      chargeExtra pool orgId sessionId extra = some ((charged, shortfall), pool') ∧
      0 ≤ charged ∧ 0 ≤ shortfall ∧ charged + shortfall = extra ∧ charged ≤ b ∧
      pool.Moves pool' orgId (-charged) := by
  have hb₀ := hrange.1
  unfold chargeExtra
  split_ifs with hpos
  · rcases Credits.deduct_spec kindExtra (some sessionId) none
      "Translated phone call exceeded its credit hold" h₀ hmax hb hrange with
      ⟨hshort, hd⟩ | ⟨hle, pool', hd, hmoves⟩
    · simp only [hd, Option.pure_def, Option.bind_eq_bind, Option.bind_some, max_eq_left hb₀]
      split_ifs with hpart
      · rcases Credits.deduct_spec kindExtra (some sessionId) none
          "Translated phone call exceeded its credit hold (partial)" hb₀ hrange.2 hb hrange with
          ⟨hlt, _⟩ | ⟨_, pool', hd', hmoves⟩
        · exact absurd hlt (lt_irrefl b)
        · rw [hd']
          exact ⟨b, extra - b, pool', rfl, hb₀, by omega, by omega, le_refl b, hmoves⟩
      · exact ⟨0, extra - b, pool, rfl, le_refl 0, by omega, by omega, hb₀,
          by simpa using Credits.Moves.refl pool orgId⟩
    · simp only [hd, Option.pure_def, Option.bind_eq_bind, Option.bind_some]
      exact ⟨extra, 0, pool', rfl, h₀, le_refl 0, by omega, hle, hmoves⟩
  · exact ⟨0, 0, pool, rfl, le_refl 0, le_refl 0, by omega, hb₀,
      by simpa using Credits.Moves.refl pool orgId⟩

/-! ## Taking and closing a hold -/

lemma insertReservation_eq_some {row : Reservation} :
    db.insertReservation row = some db' ↔
      (∀ r ∈ db.reservations, r.id ≠ row.id) ∧
      (∀ r ∈ db.reservations, r.callId = row.callId → r.state ≠ .held) ∧
      db' = { db with reservations := row :: db.reservations } := by
  unfold insertReservation
  split_ifs with h
  · obtain ⟨r, hr, hid | ⟨hcall, hheld⟩⟩ := h
    · simpa using fun hids => absurd hid (hids r hr)
    · simpa using fun _ hopen => absurd hheld (hopen r hr hcall)
  · push Not at h
    simp only [Option.some.injEq, eq_comm (a := db')]
    exact ⟨fun heq => ⟨fun r hr => (h r hr).1, fun r hr => (h r hr).2, heq⟩, fun heq => heq.2.2⟩

/-- **What taking a hold does**, when it does not fail: it refuses without a trace, or moves
the held credits out of the pool and opens a hold of that amount. -/
theorem reserve_spec {actorId : Option Uuid} {credits : Int} {newId : Uuid}
    {out : ReserveOutcome} (hmax : credits ≤ i32Max)
    (hb : db.balance orgId = some b) (hrange : Credits.InRange b)
    (h : db.reserve orgId callId sessionId actorId credits newId = some (out, db')) :
    (out = .insufficient b (max credits 0) ∧ db' = db) ∨
    ∃ row : Reservation, out = .held row ∧ row.id = newId ∧ row.callId = callId ∧
      row.orgId = orgId ∧ row.heldCredits = max credits 0 ∧ row.state = .held ∧
      (∀ r ∈ db.reservations, r.id ≠ newId) ∧
      (∀ r ∈ db.reservations, r.callId = callId → r.state ≠ .held) ∧
      db'.reservations = row :: db.reservations ∧ row.heldCredits ≤ b ∧
      db.toCredits.Moves db'.toCredits orgId (-row.heldCredits) := by
  have hmax' : max credits 0 ≤ i32Max := by
    unfold i32Max at *
    omega
  unfold reserve at h
  rcases Credits.deduct_spec kindHold (some sessionId) actorId "Hold for a translated phone call"
    (le_max_right credits 0) hmax' hb hrange with ⟨hshort, hd⟩ | ⟨hle, pool, hd, hmoves⟩
  · simp only [hd, Option.pure_def, Option.bind_eq_bind, Option.bind_some,
      Option.some.injEq, Prod.mk.injEq] at h
    exact .inl ⟨h.1.symm, h.2.symm⟩
  · simp only [hd, Option.pure_def, Option.bind_eq_bind, Option.bind_some] at h
    obtain ⟨db₁, hins, heq⟩ := Option.bind_eq_some_iff.mp h
    cases heq
    obtain ⟨hids, hopen, rfl⟩ := insertReservation_eq_some.mp hins
    exact .inr ⟨_, rfl, rfl, rfl, rfl, rfl, rfl, hids, hopen, rfl, hle, hmoves⟩

lemma close_of_latest_none (h : db.latest callId = none) :
    db.close callId sessionId actual finalState = some (none, db) := by
  simp [close, h]

/-- **Closing is idempotent.**  A hold that is no longer open reports its settlement. -/
theorem close_of_not_held {res : Reservation} (h : db.latest callId = some res)
    (hstate : res.state ≠ .held) :
    db.close callId sessionId actual finalState = some (some res.settlement, db) := by
  simp [close, h, hstate]

/-- What closing the open hold `res` at the cost `actual` does. -/
structure Closing (db db' : Reservations) (res : Reservation) (actual : Int)
    (finalState : HoldState) (s : Settlement) : Prop where
  held : s.held = res.heldCredits
  released : s.released = res.heldCredits - min actual res.heldCredits
  settled_nonneg : 0 ≤ s.settled
  shortfall_nonneg : 0 ≤ s.shortfall
  /-- What was owed was paid or recorded. -/
  cost : s.settled + s.shortfall = actual
  /-- With the hold taken at dial time, the call has moved exactly `-settled`. -/
  moves : db.toCredits.Moves db'.toCredits res.orgId (res.heldCredits - s.settled)
  rows : db'.reservations =
    Table.update Reservation.id db.reservations res.id (Reservation.closeWith finalState s)

/-- The identities the code checks in its own tests hold of every closing. -/
lemma Closing.isCoherent {res : Reservation} {s : Settlement} (ha : 0 ≤ actual)
    (hheld : 0 ≤ res.heldCredits) (h : Closing db db' res actual finalState s) :
    s.isCoherent actual = true := by
  have hheld' := h.held
  have hreleased := h.released
  have hcost := h.cost
  simp only [Settlement.isCoherent, Bool.and_eq_true, decide_eq_true_eq]
  omega

/-- **What closing an open hold does**, where the pool can take back the unused part. -/
theorem close_of_held {res : Reservation} (sessionId : Uuid) (finalState : HoldState) (h : db.latest callId = some res)
    (hstate : res.state = .held) (hheld : 0 ≤ res.heldCredits) (ha : 0 ≤ actual)
    (hamax : actual ≤ i32Max) (hb : db.balance res.orgId = some b) (hrange : Credits.InRange b)
    (hfits : b + (res.heldCredits - min actual res.heldCredits) ≤ i32Max) :
    ∃ s db', db.close callId sessionId actual finalState = some (some s, db') ∧
      Closing db db' res actual finalState s ∧
      Credits.InRange (b + (res.heldCredits - s.settled)) := by
  have hb₀ := hrange.1
  have hreleased : 0 ≤ res.heldCredits - min actual res.heldCredits := by omega
  have hextra : 0 ≤ actual - min actual res.heldCredits := by omega
  obtain ⟨pool₁, hret, hmoves₁⟩ := returnUnused_spec sessionId hreleased hb
    ⟨by unfold i32Min; omega, hfits⟩
  obtain ⟨charged, shortfall, pool₂, hcharge, hc₀, hs₀, hsum, hle, hmoves₂⟩ :=
    chargeExtra_spec sessionId hextra (by omega) (hmoves₁.balance_self hb) ⟨by omega, hfits⟩
  let s : Settlement := ⟨res.heldCredits, min actual res.heldCredits + charged,
    res.heldCredits - min actual res.heldCredits, shortfall⟩
  refine ⟨s, ⟨pool₂, Table.update Reservation.id db.reservations res.id
    (Reservation.closeWith finalState s)⟩, ?_, ⟨rfl, rfl, ?_, hs₀, ?_, ?_, rfl⟩, ?_⟩
  · simp only [close, h, hstate, hret, hcharge, ne_eq, not_true_eq_false, if_false,
      Option.pure_def, Option.bind_eq_bind, Option.bind_some]
    rfl
  · change 0 ≤ min actual res.heldCredits + charged
    omega
  · change min actual res.heldCredits + charged + shortfall = actual
    omega
  · have htotal := hmoves₁.trans hmoves₂
    rwa [show res.heldCredits - min actual res.heldCredits + -charged =
      res.heldCredits - (min actual res.heldCredits + charged) by omega] at htotal
  · change 0 ≤ b + (res.heldCredits - (min actual res.heldCredits + charged)) ∧
      b + (res.heldCredits - (min actual res.heldCredits + charged)) ≤ i32Max
    omega

/-! ## Closing never fails -/

/-- Every hold belongs to an organisation that exists: the foreign key of the table. -/
def HoldsHaveOrg (db : Reservations) : Prop :=
  ∀ r ∈ db.reservations, (db.balance r.orgId).isSome = true

lemma returnUnused_total (sessionId : Uuid) (released : Int)
    (h : (pool.balance orgId).isSome = true) :
    ∃ pool', returnUnused pool orgId sessionId released = some pool' ∧
      pool.SameOrgs pool' := by
  unfold returnUnused
  split_ifs with hpos
  · obtain ⟨out, pool', hadd, hsame⟩ := Credits.add_total kindRelease
      "Unused hold returned after a translated phone call" none (some sessionId) h
    exact ⟨pool', by rw [hadd, Option.map_some], hsame⟩
  · exact ⟨pool, rfl, .refl pool⟩

lemma chargeExtra_total (sessionId : Uuid) (extra : Int)
    (h : (pool.balance orgId).isSome = true) :
    ∃ out pool', chargeExtra pool orgId sessionId extra = some (out, pool') ∧
      pool.SameOrgs pool' := by
  unfold chargeExtra
  split_ifs with hpos
  · obtain ⟨charge, pool₁, hd, hsame⟩ := Credits.deduct_total extra kindExtra (some sessionId)
      none "Translated phone call exceeded its credit hold" h
    rw [hd]
    cases charge with
    | charged after => exact ⟨_, pool₁, rfl, hsame⟩
    | insufficient balance required =>
      simp only [Option.pure_def, Option.bind_eq_bind, Option.bind_some]
      split_ifs with hpart
      · obtain ⟨charge', pool₂, hd', hsame'⟩ := Credits.deduct_total (max balance 0) kindExtra
          (some sessionId) none "Translated phone call exceeded its credit hold (partial)"
          ((hsame orgId).trans h)
        rw [hd']
        exact ⟨_, pool₂, rfl, hsame.trans hsame'⟩
      · exact ⟨_, pool₁, rfl, hsame⟩
  · exact ⟨_, pool, rfl, .refl pool⟩

/-- **Closing never fails**, and leaves every hold with its organisation. -/
theorem close_total (callId sessionId : Uuid) (actual : Int) (finalState : HoldState)
    (h : db.HoldsHaveOrg) :
    ∃ s db', db.close callId sessionId actual finalState = some (s, db') ∧ db'.HoldsHaveOrg := by
  unfold close
  cases hl : db.latest callId with
  | none => exact ⟨none, db, rfl, h⟩
  | some res =>
    have horg : (db.balance res.orgId).isSome = true := h res (Table.mem_of_get hl)
    obtain ⟨pool₁, hret, hsame₁⟩ :=
      returnUnused_total sessionId (res.heldCredits - min actual res.heldCredits) horg
    obtain ⟨⟨charged, shortfall⟩, pool₂, hcharge, hsame₂⟩ :=
      chargeExtra_total sessionId (actual - min actual res.heldCredits)
        ((hsame₁ res.orgId).trans horg)
    simp only [hret, hcharge, Option.pure_def, Option.bind_eq_bind, Option.bind_some]
    split_ifs with hstate
    · exact ⟨_, db, rfl, h⟩
    · refine ⟨_, _, rfl, fun r hr => ?_⟩
      have hsome : ∀ r ∈ db.reservations, (pool₂.balance r.orgId).isSome = true :=
        fun r hr => (hsame₁.trans hsame₂ r.orgId).trans (h r hr)
      rcases Table.mem_update.mp hr with ⟨r', hr', -, rfl⟩ | ⟨hr, -⟩
      · exact hsome r' hr'
      · exact hsome r hr

/-- Taking a hold leaves every hold with its organisation. -/
theorem reserve_holds {actorId : Option Uuid} {credits : Int} {newId : Uuid}
    {out : ReserveOutcome} (hdb : db.HoldsHaveOrg)
    (h : db.reserve orgId callId sessionId actorId credits newId = some (out, db')) :
    db'.HoldsHaveOrg := by
  cases hb : db.balance orgId with
  | none => simp [reserve, Credits.deductOrgCreditsTx, hb] at h
  | some b =>
    obtain ⟨charge, pool, hd, hsame⟩ := Credits.deduct_total (max credits 0) kindHold
      (some sessionId) actorId "Hold for a translated phone call" (Option.isSome_iff_exists.mpr ⟨b, hb⟩)
    simp only [reserve, hd, Option.pure_def, Option.bind_eq_bind, Option.bind_some] at h
    cases charge with
    | insufficient balance required =>
      cases h
      exact hdb
    | charged after =>
      obtain ⟨db₁, hins, heq⟩ := Option.bind_eq_some_iff.mp h
      cases heq
      obtain ⟨-, -, rfl⟩ := insertReservation_eq_some.mp hins
      have hsome : ∀ org, (db.balance org).isSome = true → (pool.balance org).isSome = true :=
        fun org h => (hsame org).trans h
      refine List.forall_mem_cons.mpr ⟨hsome orgId (Option.isSome_iff_exists.mpr ⟨b, hb⟩), ?_⟩
      exact fun r hr => hsome r.orgId (hdb r hr)

end Reservations

end VoxTranslate.Voip
