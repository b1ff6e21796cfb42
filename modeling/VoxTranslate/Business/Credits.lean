import VoxTranslate.Base
import VoxTranslate.Lib.Arith
import VoxTranslate.Lib.Table

/-!
# The organisation credit pool

Each organisation has an integer balance, and every movement of it appends a signed row to
the ledger in the same transaction.  A transaction that fails on an SQL error is `none`: it
is rolled back and leaves nothing behind.  Balances are `i32`, and addition wraps where it
overflows, as the release build does.
-/

namespace VoxTranslate.Business

open Lib

/-- The columns of `organizations` the pool uses. -/
structure Organization where
  id : Uuid
  creditsBalance : Int
  deriving DecidableEq, Repr

/-- The row with another balance. -/
def Organization.withBalance (newBalance : Int) (o : Organization) : Organization :=
  { o with creditsBalance := newBalance }

lemma Organization.withBalance_keepsKey (b : Int) :
    Table.KeepsKey Organization.id (Organization.withBalance b) := fun _ => rfl

/-- A row of `organization_credits_transactions`. -/
structure CreditTransaction where
  orgId : Uuid
  /-- Signed: a charge is negative, a grant positive. -/
  amount : Int
  type : String
  description : String
  sessionId : Option Uuid
  actorId : Option Uuid
  stripePaymentIntentId : Option String
  deriving DecidableEq, Repr

/-- The two tables of the pool. -/
structure Credits where
  organizations : List Organization
  transactions : List CreditTransaction
  deriving DecidableEq, Repr

/-- Outcome of an attempted deduction. -/
inductive OrgCharge where
  /-- Charged, with the new balance. -/
  | charged (balanceAfter : Int)
  /-- Not enough credits; nothing was deducted. -/
  | insufficient (balance required : Int)
  deriving DecidableEq, Repr

namespace Credits

variable {db db' : Credits} {orgId org : Uuid} {b amount : Int}

/-- `SELECT credits_balance FROM organizations WHERE id = $1`. -/
def balance (db : Credits) (orgId : Uuid) : Option Int :=
  (Table.get Organization.id db.organizations orgId).map Organization.creditsBalance

/-- `UPDATE organizations SET credits_balance = $2 WHERE id = $1`. -/
def setBalance (db : Credits) (orgId : Uuid) (newBalance : Int) : Credits :=
  { db with
    organizations := Table.update Organization.id db.organizations orgId
      (Organization.withBalance newBalance) }

/-- `INSERT INTO organization_credits_transactions`. -/
def insertTransaction (db : Credits) (row : CreditTransaction) : Credits :=
  { db with transactions := row :: db.transactions }

/-- Deduct `amount` credits from the pool, with a negative ledger row. -/
def deductOrgCreditsTx (db : Credits) (orgId : Uuid) (amount : Int) (kind : String)
    (sessionId actorId : Option Uuid) (description : String) : Option (OrgCharge × Credits) := do
  let balance ← db.balance orgId
  if 0 < amount ∧ balance < amount then
    return (.insufficient balance amount, db)
  let newBalance := asI32 (balance - amount)
  let db := db.setBalance orgId newBalance
  let db := db.insertTransaction
    { orgId, amount := asI32 (-amount), type := kind, description, sessionId, actorId,
      stripePaymentIntentId := none }
  return (.charged newBalance, db)

/-- Add `amount` credits to the pool, with a positive ledger row. -/
def addOrgCreditsTx (db : Credits) (orgId : Uuid) (amount : Int) (kind description : String)
    (stripePaymentIntentId : Option String) (sessionId : Option Uuid) :
    Option (Int × Credits) := do
  let balance ← db.balance orgId
  let newBalance := asI32 (balance + amount)
  let db := db.setBalance orgId newBalance
  let db := db.insertTransaction
    { orgId, amount, type := kind, description, sessionId, actorId := none,
      stripePaymentIntentId }
  return (newBalance, db)

/-! ## What the writes do to the balances and the ledger -/

lemma balance_setBalance_self :
    (db.setBalance orgId b).balance orgId = (db.balance orgId).map fun _ => b := by
  simp only [balance, setBalance, Table.get_update_self (Organization.withBalance_keepsKey b), Option.map_map]
  rfl

lemma balance_setBalance_of_ne (h : org ≠ orgId) :
    (db.setBalance orgId b).balance org = db.balance org := by
  simp only [balance, setBalance, Table.get_update_of_ne (Organization.withBalance_keepsKey b) h]

@[simp] lemma balance_insertTransaction {row : CreditTransaction} :
    (db.insertTransaction row).balance org = db.balance org := rfl

/-- The sum of an organisation's rows in a stretch of the ledger. -/
def sumOfRows (rows : List CreditTransaction) (orgId : Uuid) : Int :=
  Table.sumOf CreditTransaction.orgId CreditTransaction.amount rows orgId

/-- The ledger only grows, and every balance has moved by the sum of the new rows. -/
def Accounted (db db' : Credits) : Prop :=
  ∃ rows, db'.transactions = rows ++ db.transactions ∧
    ∀ org, db'.balance org = (db.balance org).map fun b => b + sumOfRows rows org

/-- One movement of `delta` credits of `orgId`: its balance and its ledger move together,
and no other organisation is touched. -/
def Moves (db db' : Credits) (orgId : Uuid) (delta : Int) : Prop :=
  ∃ rows, db'.transactions = rows ++ db.transactions ∧
    (∀ org, sumOfRows rows org = if org = orgId then delta else 0) ∧
    ∀ org, db'.balance org = (db.balance org).map fun b => b + if org = orgId then delta else 0

lemma Accounted.refl (db : Credits) : Accounted db db :=
  ⟨[], rfl, fun org => by simp [sumOfRows]⟩

lemma Accounted.trans {db'' : Credits} (h : Accounted db db') (h' : Accounted db' db'') :
    Accounted db db'' := by
  obtain ⟨rows, hrows, hbal⟩ := h
  obtain ⟨rows', hrows', hbal'⟩ := h'
  refine ⟨rows' ++ rows, by rw [hrows', hrows, List.append_assoc], fun org => ?_⟩
  rw [hbal', hbal, Option.map_map]
  congr 1
  funext b
  simp only [Function.comp, sumOfRows, Table.sumOf_append]
  omega

lemma Moves.accounted {d : Int} (h : Moves db db' orgId d) : Accounted db db' := by
  obtain ⟨rows, hrows, hsum, hbal⟩ := h
  exact ⟨rows, hrows, fun org => by rw [hbal, hsum]⟩

lemma Moves.refl (db : Credits) (orgId : Uuid) : Moves db db orgId 0 :=
  ⟨[], rfl, fun org => by simp [sumOfRows], fun org => by simp⟩

lemma Moves.trans {db'' : Credits} {d d' : Int} (h : Moves db db' orgId d)
    (h' : Moves db' db'' orgId d') : Moves db db'' orgId (d + d') := by
  obtain ⟨rows, hrows, hsum, hbal⟩ := h
  obtain ⟨rows', hrows', hsum', hbal'⟩ := h'
  refine ⟨rows' ++ rows, by rw [hrows', hrows, List.append_assoc], fun org => ?_, fun org => ?_⟩
  · have := hsum org
    have := hsum' org
    simp only [sumOfRows, Table.sumOf_append] at *
    split_ifs at * <;> omega
  · rw [hbal', hbal, Option.map_map]
    congr 1
    funext b
    simp only [Function.comp]
    split_ifs <;> omega

lemma Moves.balance_self {d : Int} (h : Moves db db' orgId d) (hb : db.balance orgId = some b) :
    db'.balance orgId = some (b + d) := by
  obtain ⟨rows, -, -, hbal⟩ := h
  simp [hbal, hb]

lemma Moves.balance_of_ne {d : Int} (h : Moves db db' orgId d) (hne : org ≠ orgId) :
    db'.balance org = db.balance org := by
  obtain ⟨rows, -, -, hbal⟩ := h
  simp [hbal, hne]

/-- A balance update and a ledger row of the same amount are one movement. -/
lemma moves_write {row : CreditTransaction} {delta : Int} (hb : db.balance orgId = some b)
    (horg : row.orgId = orgId) (hamount : row.amount = delta) :
    Moves db ((db.setBalance orgId (b + delta)).insertTransaction row) orgId delta := by
  refine ⟨[row], rfl, fun org => ?_, fun org => ?_⟩
  · simp only [sumOfRows, Table.sumOf_cons, Table.sumOf_nil, horg, hamount, eq_comm]
    split_ifs <;> omega
  · rw [balance_insertTransaction]
    by_cases h : org = orgId
    · subst h
      simp [balance_setBalance_self, hb]
    · simp [balance_setBalance_of_ne h, h]

/-! ## No operation fails on an organisation that exists -/

/-- The same organisations exist. -/
def SameOrgs (db db' : Credits) : Prop :=
  ∀ org, (db'.balance org).isSome = (db.balance org).isSome

lemma SameOrgs.refl (db : Credits) : SameOrgs db db := fun _ => rfl

lemma SameOrgs.trans {db'' : Credits} (h : SameOrgs db db') (h' : SameOrgs db' db'') :
    SameOrgs db db'' := fun org => (h' org).trans (h org)

lemma sameOrgs_setBalance : SameOrgs db (db.setBalance orgId b) := by
  intro org
  by_cases h : org = orgId
  · subst h
    rw [balance_setBalance_self, Option.isSome_map]
  · rw [balance_setBalance_of_ne h]

lemma deduct_total (amount : Int) (kind : String) (sessionId actorId : Option Uuid) (description : String)
    (h : (db.balance orgId).isSome = true) :
    ∃ out db', db.deductOrgCreditsTx orgId amount kind sessionId actorId description
      = some (out, db') ∧ SameOrgs db db' := by
  obtain ⟨b, hb⟩ := Option.isSome_iff_exists.mp h
  simp only [deductOrgCreditsTx, hb, Option.pure_def, Option.bind_eq_bind, Option.bind_some]
  split_ifs with hshort
  · exact ⟨_, _, rfl, .refl db⟩
  · exact ⟨_, _, rfl, sameOrgs_setBalance⟩

lemma add_total (kind description : String) (stripe : Option String) (sessionId : Option Uuid)
    (h : (db.balance orgId).isSome = true) :
    ∃ out db', db.addOrgCreditsTx orgId amount kind description stripe sessionId
      = some (out, db') ∧ SameOrgs db db' := by
  obtain ⟨b, hb⟩ := Option.isSome_iff_exists.mp h
  simp only [addOrgCreditsTx, hb, Option.pure_def, Option.bind_eq_bind, Option.bind_some]
  exact ⟨_, _, rfl, sameOrgs_setBalance⟩

/-! ## The two operations -/

/-- The balance is what an `i32` column can hold without being in debt. -/
def InRange (b : Int) : Prop := 0 ≤ b ∧ b ≤ i32Max

instance (b : Int) : Decidable (InRange b) := inferInstanceAs (Decidable (_ ∧ _))

/-- **What a deduction does.**  It refuses without a trace when the pool is short, and
otherwise moves exactly `-amount`. -/
theorem deduct_spec (kind : String) (sessionId actorId : Option Uuid) (description : String)
    (ha : 0 ≤ amount) (hamax : amount ≤ i32Max) (hb : db.balance orgId = some b)
    (hrange : InRange b) :
    (b < amount ∧ db.deductOrgCreditsTx orgId amount kind sessionId actorId description
      = some (.insufficient b amount, db)) ∨
    (amount ≤ b ∧ ∃ db', db.deductOrgCreditsTx orgId amount kind sessionId actorId description
      = some (.charged (b - amount), db') ∧ Moves db db' orgId (-amount)) := by
  obtain ⟨hb₀, hb₁⟩ := hrange
  simp only [deductOrgCreditsTx, hb, Option.pure_def, Option.bind_eq_bind, Option.bind_some]
  rcases lt_or_ge b amount with hshort | hle
  · refine .inl ⟨hshort, ?_⟩
    rw [if_pos ⟨by omega, hshort⟩]
  · refine .inr ⟨hle, ?_⟩
    have hnew : asI32 (b - amount) = b + -amount := by
      rw [asI32_of_le (by omega) (by omega)]
      omega
    -- only the least `i32` has no negation, and the amount is not negative
    have hneg : asI32 (-amount) = -amount :=
      asI32_eq ⟨by unfold i32Min i32Max at *; omega, by unfold i32Max at *; omega⟩
    rw [if_neg (by omega), hnew]
    exact ⟨_, rfl, moves_write hb rfl hneg⟩

/-- **What a grant does** where the sum fits the column: it moves exactly `amount`. -/
theorem add_spec (kind description : String) (stripe : Option String) (sessionId : Option Uuid)
    (hb : db.balance orgId = some b) (hfits : FitsI32 (b + amount)) :
    ∃ db', db.addOrgCreditsTx orgId amount kind description stripe sessionId
      = some (b + amount, db') ∧ Moves db db' orgId amount := by
  simp only [addOrgCreditsTx, hb, Option.pure_def, Option.bind_eq_bind, Option.bind_some,
    asI32_eq hfits]
  exact ⟨_, rfl, moves_write hb rfl rfl⟩

end Credits

end VoxTranslate.Business
