import VoxTranslate.Base
import VoxTranslate.Lib.Json
import VoxTranslate.Lib.Ledger
import VoxTranslate.Lib.Run

/-!
# The credits of a consumer

Every user has a balance in dollars, and each of the four operations that move it appends a
signed row to the ledger in the same transaction, under a lock on the user's row.  Amounts of at
most six decimal places are whole numbers of micro-dollars, which sums and differences stay, so
the rounding to six places changes nothing.  A transaction that fails is rolled back.
-/

namespace VoxTranslate.Metering

open Lib

/-- The columns of `users` the ledger uses, the balance in micro-dollars. -/
structure User where
  id : Uuid
  balance : Int
  deriving DecidableEq, Repr

/-- A row of `credit_transactions`, the amounts in micro-dollars. -/
structure CreditTransaction where
  userId : Uuid
  /-- Signed: a deduction is negative. -/
  amount : Int
  kind : String
  balanceAfter : Int
  description : Option String
  stripeEventId : Option String
  feature : Option String
  sessionId : Option Uuid
  metadata : Option Json

/-- A row of `stripe_events`. -/
structure StripeEvent where
  id : String
  type : String
  deriving DecidableEq, Repr

/-- The columns of `usage_sessions` a deduction accumulates, the cost in micro-dollars. -/
structure UsageSession where
  id : Uuid
  speakingSeconds : Int
  cost : Int
  deriving DecidableEq, Repr

/-- The tables of the ledger. -/
structure Wallet where
  users : List User
  transactions : List CreditTransaction
  stripeEvents : List StripeEvent
  sessions : List UsageSession

/-- Why an operation fails; `db` is any error of the database. -/
inductive BillingError where
  | insufficientFunds
  | db
  deriving DecidableEq, Repr

/-- A `DECIMAL(10, 6)` column holds the amount. -/
def FitsNumeric (micros : Int) : Prop := -10000000000 < micros ∧ micros < 10000000000

instance (micros : Int) : Decidable (FitsNumeric micros) := inferInstanceAs (Decidable (_ ∧ _))

/-- The row with another balance. -/
def User.withBalance (newBalance : Int) (u : User) : User := { u with balance := newBalance }

lemma User.withBalance_keepsKey (n : Int) : Table.KeepsKey User.id (User.withBalance n) :=
  fun _ => rfl

/-- The session with a stretch of speech more. -/
def UsageSession.accrue (seconds amount : Int) (s : UsageSession) : UsageSession :=
  { s with speakingSeconds := s.speakingSeconds + seconds, cost := s.cost + amount }

lemma UsageSession.accrue_keepsKey (seconds amount : Int) :
    Table.KeepsKey UsageSession.id (UsageSession.accrue seconds amount) := fun _ => rfl

namespace Wallet

variable {db db' : Wallet} {userId : Uuid} {b amount : Int}

/-- `SELECT balance FROM users WHERE id = $1`. -/
def balance (db : Wallet) (userId : Uuid) : Option Int :=
  (Table.get User.id db.users userId).map User.balance

/-- The cost column of a session. -/
def cost (db : Wallet) (sessionId : Uuid) : Option Int :=
  (Table.get UsageSession.id db.sessions sessionId).map UsageSession.cost

/-- `SELECT balance FROM users WHERE id = $1 FOR UPDATE`, which fails without a row. -/
def lockBalance (db : Wallet) (userId : Uuid) : Except BillingError Int :=
  match db.balance userId with
  | some b => .ok b
  | none => .error .db

/-- `UPDATE users SET balance = $2 WHERE id = $1`. -/
def setBalance (db : Wallet) (userId : Uuid) (newBalance : Int) : Except BillingError Wallet :=
  if FitsNumeric newBalance then
    .ok { db with users := Table.update User.id db.users userId (User.withBalance newBalance) }
  else .error .db

/-- `INSERT INTO credit_transactions`. -/
def insertTransaction (db : Wallet) (row : CreditTransaction) : Except BillingError Wallet :=
  if FitsNumeric row.amount ∧ FitsNumeric row.balanceAfter then
    .ok { db with transactions := row :: db.transactions }
  else .error .db

/-- `UPDATE usage_sessions SET speaking_seconds = speaking_seconds + $2, cost = cost + $3`. -/
def accrue (db : Wallet) (sessionId : Uuid) (seconds amount : Int) : Except BillingError Wallet :=
  if ∀ s ∈ db.sessions, s.id = sessionId →
      FitsI32 (s.speakingSeconds + seconds) ∧ FitsNumeric (s.cost + amount) then
    .ok { db with
      sessions := Table.update UsageSession.id db.sessions sessionId
        (UsageSession.accrue seconds amount) }
  else .error .db

/-- Add credit: a purchase, a free grant, a refund, or an adjustment by an administrator. -/
def addCredits (db : Wallet) (userId : Uuid) (amount : Int) (kind : String)
    (description stripeEventId : Option String) : Except BillingError (Int × Wallet) := do
  let balance ← db.lockBalance userId
  let newBalance := balance + amount
  let db ← db.setBalance userId newBalance
  let db ← db.insertTransaction
    { userId, amount, kind, balanceAfter := newBalance, description, stripeEventId,
      feature := none, sessionId := none, metadata := none }
  return (newBalance, db)

/-- Record a Stripe event and credit the user; `false` for an event that is recorded already. -/
def creditFromStripeEvent (db : Wallet) (eventId eventType : String) (userId : Uuid) (amount : Int)
    (description : String) : Except BillingError (Bool × Wallet) := do
  -- `ON CONFLICT (id) DO NOTHING`
  if ∃ event ∈ db.stripeEvents, event.id = eventId then
    return (false, db)
  let db := { db with stripeEvents := ⟨eventId, eventType⟩ :: db.stripeEvents }
  let balance ← db.lockBalance userId
  let newBalance := balance + amount
  let db ← db.setBalance userId newBalance
  let db ← db.insertTransaction
    { userId, amount, kind := "purchase", balanceAfter := newBalance,
      description := some description, stripeEventId := some eventId, feature := none,
      sessionId := none, metadata := none }
  return (true, db)

/-- Deduct the cost of speaking time, and accumulate it in the session where there is one. -/
def deductUsage (db : Wallet) (userId : Uuid) (sessionId : Option Uuid) (seconds amount : Int) :
    Except BillingError (Int × Wallet) := do
  let balance ← db.lockBalance userId
  if balance < amount then throw .insufficientFunds else
  let newBalance := balance - amount
  let db ← db.setBalance userId newBalance
  let db ← db.insertTransaction
    { userId, amount := -amount, kind := "usage", balanceAfter := newBalance,
      description := some "Speaking time", stripeEventId := none, feature := none,
      sessionId := none, metadata := none }
  match sessionId with
  | some sid =>
    let db ← db.accrue sid seconds amount
    return (newBalance, db)
  | none => return (newBalance, db)

/-- Deduct the cost of an AI feature. -/
def deductFeature (db : Wallet) (userId : Uuid) (sessionId : Option Uuid) (feature : String)
    (amount : Int) (description : String) (metadata : Json) :
    Except BillingError (Int × Wallet) := do
  let balance ← db.lockBalance userId
  if balance < amount then throw .insufficientFunds else
  let newBalance := balance - amount
  let db ← db.setBalance userId newBalance
  let db ← db.insertTransaction
    { userId, amount := -amount, kind := feature, balanceAfter := newBalance,
      description := some description, stripeEventId := none, feature := some feature, sessionId,
      metadata := some metadata }
  return (newBalance, db)

end Wallet

/-! ## Runs -/

/-- A call of one of the four operations. -/
inductive WalletCall where
  | addCredits (userId : Uuid) (amount : Int) (kind : String)
      (description stripeEventId : Option String)
  | creditFromStripeEvent (eventId eventType : String) (userId : Uuid) (amount : Int)
      (description : String)
  | deductUsage (userId : Uuid) (sessionId : Option Uuid) (seconds amount : Int)
  | deductFeature (userId : Uuid) (sessionId : Option Uuid) (feature : String) (amount : Int)
      (description : String) (metadata : Json)

/-- What a call returns. -/
inductive WalletReply where
  | balance (newBalance : Int)
  | credited (fresh : Bool)
  | error (e : BillingError)
  deriving DecidableEq, Repr

namespace Wallet

/-- The reply, and the tables after the commit or the rollback. -/
def settle {α : Type} (db : Wallet) (reply : α → WalletReply) :
    Except BillingError (α × Wallet) → WalletReply × Wallet
  | .ok (a, db') => (reply a, db')
  | .error e => (.error e, db)

/-- One call, as a transaction. -/
def perform (db : Wallet) : WalletCall → WalletReply × Wallet
  | .addCredits userId amount kind description stripeEventId =>
    db.settle .balance (db.addCredits userId amount kind description stripeEventId)
  | .creditFromStripeEvent eventId eventType userId amount description =>
    db.settle .credited (db.creditFromStripeEvent eventId eventType userId amount description)
  | .deductUsage userId sessionId seconds amount =>
    db.settle .balance (db.deductUsage userId sessionId seconds amount)
  | .deductFeature userId sessionId feature amount description metadata =>
    db.settle .balance (db.deductFeature userId sessionId feature amount description metadata)

/-- A call with its reply, as one step. -/
def Step (db : Wallet) (call : WalletCall × WalletReply) (db' : Wallet) : Prop :=
  db.perform call.1 = (call.2, db')

end Wallet

/-! ## What a call is about -/

namespace WalletCall

/-- The user whose balance the call moves. -/
def userId : WalletCall → Uuid
  | .addCredits userId .. => userId
  | .creditFromStripeEvent _ _ userId .. => userId
  | .deductUsage userId .. => userId
  | .deductFeature userId .. => userId

/-- What the call moves the balance by. -/
def delta : WalletCall → Int
  | .addCredits _ amount .. => amount
  | .creditFromStripeEvent _ _ _ amount _ => amount
  | .deductUsage _ _ _ amount => -amount
  | .deductFeature _ _ _ amount .. => -amount

/-- The call looks whether the balance covers it. -/
def deducts : WalletCall → Bool
  | .deductUsage .. => true
  | .deductFeature .. => true
  | _ => false

/-- The Stripe event the call records. -/
def event : WalletCall → Option StripeEvent
  | .creditFromStripeEvent eventId eventType .. => some ⟨eventId, eventType⟩
  | _ => none

/-- The sessions after the call. -/
def bill (sessions : List UsageSession) : WalletCall → List UsageSession
  | .deductUsage _ (some sid) seconds amount =>
    Table.update UsageSession.id sessions sid (UsageSession.accrue seconds amount)
  | _ => sessions

/-- What the call charges to a session. -/
def usageOf (sessionId : Uuid) : WalletCall → Int
  | .deductUsage _ sid _ amount => if sid = some sessionId then amount else 0
  | _ => 0

end WalletCall

/-- The call changed the tables. -/
def WalletReply.commits : WalletReply → Bool
  | .balance _ => true
  | .credited fresh => fresh
  | .error _ => false

/-- What a call that is committed has written. -/
structure Committed (db : Wallet) (call : WalletCall) (db' : Wallet) : Prop where
  balance : ∃ b, db.balance call.userId = some b ∧ (call.deducts = true → 0 ≤ b + call.delta) ∧
    db'.users = Table.update User.id db.users call.userId (User.withBalance (b + call.delta))
  row : ∃ r, db'.transactions = r :: db.transactions ∧ r.userId = call.userId ∧
    r.amount = call.delta
  events : db'.stripeEvents = call.event.toList ++ db.stripeEvents
  fresh : ∀ e ∈ call.event, ∀ e' ∈ db.stripeEvents, e'.id ≠ e.id
  sessions : db'.sessions = call.bill db.sessions

namespace Wallet

section Commits

variable {db db' : Wallet} {userId : Uuid} {b amount n : Int} {row : CreditTransaction}

lemma bind_eq_ok {α β ε : Type} {x : Except ε α} {f : α → Except ε β} {c : β} :
    (x >>= f) = .ok c ↔ ∃ a, x = .ok a ∧ f a = .ok c := by
  cases x <;> simp [bind, Except.bind]

lemma lockBalance_eq_ok : db.lockBalance userId = .ok b ↔ db.balance userId = some b := by
  rw [lockBalance]
  split
  next h => simp [h]
  next h => simp [h]

lemma setBalance_ok (h : db.setBalance userId n = .ok db') :
    { db with users := Table.update User.id db.users userId (User.withBalance n) } = db' := by
  rw [setBalance] at h
  split_ifs at h
  exact Except.ok.inj h

lemma insertTransaction_ok (h : db.insertTransaction row = .ok db') :
    { db with transactions := row :: db.transactions } = db' := by
  rw [insertTransaction] at h
  split_ifs at h
  exact Except.ok.inj h

lemma accrue_ok {sid : Uuid} {seconds : Int} (h : db.accrue sid seconds amount = .ok db') :
    { db with
      sessions := Table.update UsageSession.id db.sessions sid
        (UsageSession.accrue seconds amount) } = db' := by
  rw [accrue] at h
  split_ifs at h
  exact Except.ok.inj h

lemma addCredits_ok {kind : String} {description stripeEventId : Option String}
    (h : db.addCredits userId amount kind description stripeEventId = .ok (n, db')) :
    Committed db (.addCredits userId amount kind description stripeEventId) db' := by
  simp only [addCredits, bind_eq_ok, lockBalance_eq_ok] at h
  obtain ⟨b, hb, db₁, hset, db₂, hins, hret⟩ := h
  cases hret
  cases setBalance_ok hset
  cases insertTransaction_ok hins
  exact ⟨⟨b, hb, nofun, rfl⟩, ⟨_, rfl, rfl, rfl⟩, rfl, nofun, rfl⟩

lemma creditFromStripeEvent_ok {eventId eventType description : String} {fresh : Bool}
    (h : db.creditFromStripeEvent eventId eventType userId amount description
      = .ok (fresh, db')) :
    fresh = false ∧ db' = db ∨ fresh = true ∧
      Committed db (.creditFromStripeEvent eventId eventType userId amount description) db' := by
  rw [creditFromStripeEvent] at h
  split_ifs at h with hseen
  · cases h
    exact .inl ⟨rfl, rfl⟩
  · simp only [bind_eq_ok, lockBalance_eq_ok] at h
    obtain ⟨b, hb, db₁, hset, db₂, hins, hret⟩ := h
    cases hret
    cases setBalance_ok hset
    cases insertTransaction_ok hins
    refine .inr ⟨rfl, ⟨b, hb, nofun, rfl⟩, ⟨_, rfl, rfl, rfl⟩, rfl, ?_, rfl⟩
    intro e he e' he' heq
    cases he
    exact hseen ⟨e', he', heq⟩

lemma deductUsage_ok {sid : Option Uuid} {seconds : Int}
    (h : db.deductUsage userId sid seconds amount = .ok (n, db')) :
    Committed db (.deductUsage userId sid seconds amount) db' := by
  simp only [deductUsage, bind_eq_ok, lockBalance_eq_ok] at h
  obtain ⟨b, hb, h⟩ := h
  split_ifs at h with hshort
  simp only [bind_eq_ok] at h
  obtain ⟨db₁, hset, db₂, hins, hret⟩ := h
  cases setBalance_ok hset
  cases insertTransaction_ok hins
  have hle : 0 ≤ b + -amount := by omega
  cases sid with
  | none =>
    cases hret
    exact ⟨⟨b, hb, fun _ => hle, rfl⟩, ⟨_, rfl, rfl, rfl⟩, rfl, nofun, rfl⟩
  | some sid =>
    obtain ⟨db₃, hacc, hret⟩ := bind_eq_ok.mp hret
    cases hret
    cases accrue_ok hacc
    exact ⟨⟨b, hb, fun _ => hle, rfl⟩, ⟨_, rfl, rfl, rfl⟩, rfl, nofun, rfl⟩

lemma deductFeature_ok {sid : Option Uuid} {feature description : String} {metadata : Json}
    (h : db.deductFeature userId sid feature amount description metadata = .ok (n, db')) :
    Committed db (.deductFeature userId sid feature amount description metadata) db' := by
  simp only [deductFeature, bind_eq_ok, lockBalance_eq_ok] at h
  obtain ⟨b, hb, h⟩ := h
  split_ifs at h with hshort
  simp only [bind_eq_ok] at h
  obtain ⟨db₁, hset, db₂, hins, hret⟩ := h
  cases hret
  cases setBalance_ok hset
  cases insertTransaction_ok hins
  have hle : 0 ≤ b + -amount := by omega
  exact ⟨⟨b, hb, fun _ => hle, rfl⟩, ⟨_, rfl, rfl, rfl⟩, rfl, nofun, rfl⟩

lemma step_perform (db : Wallet) (call : WalletCall) :
    db.Step (call, (db.perform call).1) (db.perform call).2 := rfl

lemma settle_cases {α : Type} {f : α → WalletReply} {x : Except BillingError (α × Wallet)}
    {reply : WalletReply} (h : db.settle f x = (reply, db')) :
    (∃ e, reply = .error e ∧ db' = db) ∨ ∃ a, x = .ok (a, db') ∧ reply = f a := by
  cases x with
  | error e =>
    cases h
    exact .inl ⟨e, rfl, rfl⟩
  | ok out =>
    cases h
    exact .inr ⟨out.1, rfl, rfl⟩

/-- A call is committed, or leaves no trace. -/
lemma step_cases {call : WalletCall} {reply : WalletReply} (h : db.Step (call, reply) db') :
    reply.commits = false ∧ db' = db ∨ reply.commits = true ∧ Committed db call db' := by
  cases call with
  | addCredits userId amount kind description stripeEventId =>
    rcases settle_cases h with ⟨e, rfl, rfl⟩ | ⟨n, hok, rfl⟩
    · exact .inl ⟨rfl, rfl⟩
    · exact .inr ⟨rfl, addCredits_ok hok⟩
  | creditFromStripeEvent eventId eventType userId amount description =>
    rcases settle_cases h with ⟨e, rfl, rfl⟩ | ⟨fresh, hok, rfl⟩
    · exact .inl ⟨rfl, rfl⟩
    · exact creditFromStripeEvent_ok hok
  | deductUsage userId sessionId seconds amount =>
    rcases settle_cases h with ⟨e, rfl, rfl⟩ | ⟨n, hok, rfl⟩
    · exact .inl ⟨rfl, rfl⟩
    · exact .inr ⟨rfl, deductUsage_ok hok⟩
  | deductFeature userId sessionId feature amount description metadata =>
    rcases settle_cases h with ⟨e, rfl, rfl⟩ | ⟨n, hok, rfl⟩
    · exact .inl ⟨rfl, rfl⟩
    · exact .inr ⟨rfl, deductFeature_ok hok⟩

end Commits

/-! ## What every run keeps -/

/-- How the tables show the balances and the ledger. -/
def ledger : Ledger Wallet Uuid CreditTransaction where
  balance := balance
  rows := transactions
  account := CreditTransaction.userId
  amount := CreditTransaction.amount

/-- Nobody is in debt. -/
def Solvent (db : Wallet) : Prop := ∀ userId b, db.balance userId = some b → 0 ≤ b

/-- The call takes no more than the balance it finds, or looks whether the balance covers it. -/
def Covered (db : Wallet) (call : WalletCall × WalletReply) : Prop :=
  call.1.deducts = true ∨ ∀ b, db.balance call.1.userId = some b → 0 ≤ b + call.1.delta

/-- How often a run credits an event. -/
def timesCredited (eventId : String) (calls : List (WalletCall × WalletReply)) : Nat :=
  calls.countP fun c => c.2.commits && c.1.event.any (·.id = eventId)

/-- What a run charges to a session. -/
def charged (sessionId : Uuid) (calls : List (WalletCall × WalletReply)) : Int :=
  ((calls.filter fun c => c.2.commits).map fun c => c.1.usageOf sessionId).sum

section Runs

variable {db db' : Wallet} {call : WalletCall} {reply : WalletReply}
  {calls : List (WalletCall × WalletReply)} {userId sessionId : Uuid} {eventId : String}

/-- The balance that a committed call moves. -/
lemma balance_self_of_committed (h : Committed db call db') :
    db'.balance call.userId = (db.balance call.userId).map fun b => b + call.delta := by
  obtain ⟨b, hb, -, husers⟩ := h.balance
  obtain ⟨u, hget, rfl⟩ := Option.map_eq_some_iff.mp hb
  rw [hb, balance, husers, Table.get_update_self (User.withBalance_keepsKey _), hget]
  rfl

lemma balance_of_ne_of_committed (h : Committed db call db') (hne : userId ≠ call.userId) :
    db'.balance userId = db.balance userId := by
  obtain ⟨b, -, -, husers⟩ := h.balance
  rw [balance, husers, Table.get_update_of_ne (User.withBalance_keepsKey _) hne, balance]

lemma accounted_of_committed (h : Committed db call db') : ledger.Accounted db db' := by
  obtain ⟨r, hrows, huser, hamount⟩ := h.row
  refine Ledger.accounted_of_row hrows ?_ fun k hk => ?_
  · have hself := balance_self_of_committed h
    rw [← huser, ← hamount] at hself
    exact hself
  · refine balance_of_ne_of_committed h ?_
    rw [← huser]
    exact hk

/-- Every balance is the initial one plus the sum of the rows written since. -/
lemma accounted_of_run (h : Run Step db calls db') : ledger.Accounted db db' := by
  refine h.related (I := fun _ => True) Ledger.Accounted.refl (fun s t u => Ledger.Accounted.trans)
    (fun s c t _ hstep => ⟨trivial, ?_⟩) trivial
  rcases step_cases hstep with ⟨-, rfl⟩ | ⟨-, hcommit⟩
  · exact .refl _
  · exact accounted_of_committed hcommit

/-- The event is recorded. -/
def Recorded (db : Wallet) (eventId : String) : Prop := ∃ e ∈ db.stripeEvents, e.id = eventId

lemma recorded_of_committed (h : Committed db call db') :
    db'.Recorded eventId ↔ call.event.any (·.id = eventId) = true ∨ db.Recorded eventId := by
  rw [Recorded, Recorded, h.events]
  cases call.event <;> simp

/-- An event that is recorded is credited no more, another one at most once. -/
lemma timesCredited_of_run (h : Run Step db calls db') (eventId : String) :
    timesCredited eventId calls ≤ 1 ∧ (db.Recorded eventId → timesCredited eventId calls = 0) := by
  induction h with
  | nil => exact ⟨Nat.zero_le _, fun _ => rfl⟩
  | @cons s t u c cs hstep _ ih =>
    have hcount : timesCredited eventId (c :: cs) = timesCredited eventId cs
        + if c.2.commits && c.1.event.any (·.id = eventId) then 1 else 0 := List.countP_cons
    rw [hcount]
    rcases step_cases hstep with ⟨hreply, rfl⟩ | ⟨hreply, hcommit⟩
    · simpa [hreply] using ih
    · have hrec : t.Recorded eventId ↔ _ := recorded_of_committed hcommit
      cases hevent : c.1.event.any (·.id = eventId) with
      | false =>
        rw [hevent] at hrec
        simp only [hreply, Bool.and_false, Bool.false_eq_true, if_false, Nat.add_zero]
        exact ⟨ih.1, fun hs => ih.2 (hrec.mpr (.inr hs))⟩
      | true =>
        -- this is the one credit: the event was not recorded before, and is from now on
        have hrest := ih.2 (hrec.mpr (.inl hevent))
        obtain ⟨e, he, hid⟩ := (Option.any_eq_true _ _).mp hevent
        have hfresh : ¬ s.Recorded eventId := by
          rintro ⟨e', he', hid'⟩
          exact hcommit.fresh e he e' he' (hid'.trans (of_decide_eq_true hid).symm)
        simp only [hreply, Bool.and_true, if_true, hrest]
        exact ⟨Nat.le_refl 1, fun hs => absurd hs hfresh⟩

/-- What a call does to the cost of a session. -/
lemma cost_of_committed (h : Committed db call db') :
    db'.cost sessionId = (db.cost sessionId).map fun c => c + call.usageOf sessionId := by
  have hkeep : ∀ c : Option Int, c = c.map fun n => n + 0 := fun c => by simp
  rw [cost, cost, h.sessions]
  cases call with
  | deductUsage userId sid seconds amount =>
    cases sid with
    | none => exact hkeep _
    | some sid =>
      by_cases hsid : sid = sessionId
      · subst hsid
        rw [WalletCall.bill, WalletCall.usageOf, if_pos rfl,
          Table.get_update_self (UsageSession.accrue_keepsKey _ _), Option.map_map, Option.map_map]
        rfl
      · rw [WalletCall.bill, WalletCall.usageOf, if_neg fun h => hsid (Option.some.inj h),
          Table.get_update_of_ne (UsageSession.accrue_keepsKey _ _) fun h => hsid h.symm]
        exact hkeep _
  | addCredits _ _ _ _ _ => exact hkeep _
  | creditFromStripeEvent _ _ _ _ _ => exact hkeep _
  | deductFeature _ _ _ _ _ _ => exact hkeep _

/-- The cost of a session is the initial one plus what was charged to it. -/
lemma cost_of_run (h : Run Step db calls db') (sessionId : Uuid) :
    db'.cost sessionId = (db.cost sessionId).map fun c => c + charged sessionId calls := by
  induction h with
  | nil => simp [charged]
  | @cons s t u c cs hstep _ ih =>
    rw [ih]
    rcases step_cases hstep with ⟨hreply, rfl⟩ | ⟨hreply, hcommit⟩
    · simp [charged, hreply]
    · rw [cost_of_committed hcommit, Option.map_map]
      congr 1
      funext n
      simp only [Function.comp, charged, List.filter_cons, hreply, if_true, List.map_cons,
        List.sum_cons]
      omega

/-- A covered call puts nobody into debt. -/
lemma solvent_of_step (h : Guarded Step Covered db (call, reply) db') (hs : db.Solvent) :
    db'.Solvent := by
  obtain ⟨hcovered, hstep⟩ := h
  rcases step_cases hstep with ⟨-, rfl⟩ | ⟨-, hcommit⟩
  · exact hs
  · intro userId n hn
    by_cases huser : userId = call.userId
    · subst huser
      obtain ⟨b, hb, hdeducts, -⟩ := hcommit.balance
      rw [balance_self_of_committed hcommit, hb] at hn
      cases hn
      rcases hcovered with hded | hle
      · exact hdeducts hded
      · exact hle b hb
    · rw [balance_of_ne_of_committed hcommit huser] at hn
      exact hs userId n hn

end Runs

/-- **The ledger of the consumers.**  In every run each balance is the initial one plus the sum
of the rows written since, a Stripe event is credited at most once, a refusal leaves no trace,
and the cost of a session is what was charged to it; and nobody is in debt as long as no credit
takes more than the balance it finds. -/
theorem runs_keep_ledger {db db' : Wallet} {calls : List (WalletCall × WalletReply)}
    (h : Run Step db calls db') :
    ledger.Accounted db db' ∧
    (∀ eventId, timesCredited eventId calls ≤ 1) ∧
    (∀ s t call, Step s (call, .error .insufficientFunds) t → t = s) ∧
    (∀ sessionId,
      db'.cost sessionId = (db.cost sessionId).map fun c => c + charged sessionId calls) ∧
    (Run (Guarded Step Covered) db calls db' → db.Solvent → db'.Solvent) := by
  refine ⟨accounted_of_run h, fun eventId => (timesCredited_of_run h eventId).1, ?_,
    cost_of_run h, ?_⟩
  · intro s t call hstep
    rcases step_cases hstep with ⟨-, rfl⟩ | ⟨hcommits, -⟩
    · rfl
    · cases hcommits
  · intro hguarded hs
    exact hguarded.invariant Solvent (fun s c _ t hs hstep => solvent_of_step hstep hs) hs

/-- One user without credit, and nothing else. -/
def penniless : Wallet := ⟨[⟨1, 0⟩], [], [], []⟩

lemma penniless_solvent : penniless.Solvent := by
  intro userId b hb
  obtain ⟨u, hget, rfl⟩ := Option.map_eq_some_iff.mp hb
  have hmem := Table.mem_of_get hget
  simp only [penniless, List.mem_singleton] at hmem
  subst hmem
  exact Int.le_refl 0

/-- A manual adjustment may put a user into debt; and an event id that an addition of credit is
given is written to the ledger as often as it is given. -/
theorem adjustment_overdraws :
    (∃ calls db, penniless.Solvent ∧ Run Step penniless calls db ∧
      db.balance 1 = some (-1000000)) ∧
    ∃ calls db, Run Step penniless calls db ∧
      (db.transactions.filter fun r => r.userId = 1 ∧ r.stripeEventId = some "evt").length = 2 := by
  constructor
  · exact ⟨[(.addCredits 1 (-1000000) "admin_adjust" none none, _)], _, penniless_solvent,
      .cons (step_perform _ _) (.nil _), rfl⟩
  · exact ⟨[(.addCredits 1 1000000 "purchase" none (some "evt"), _),
      (.addCredits 1 1000000 "purchase" none (some "evt"), _)], _,
      .cons (step_perform _ _) (.cons (step_perform _ _) (.nil _)), rfl⟩

/-- A purchase, its replay, and a deduction. -/
theorem runs_keep_ledger_sample :
    ∃ calls db, Run (Guarded Step Covered) penniless calls db ∧ db.balance 1 = some 750000 ∧
      timesCredited "evt" calls = 1 ∧ db.Solvent := by
  let purchase : WalletCall := .creditFromStripeEvent "evt" "checkout" 1 1000000 "Top-up"
  let minute : WalletCall := .deductUsage 1 none 60 250000
  have hguarded : Run (Guarded Step Covered) penniless
      [(purchase, .credited true), (purchase, .credited false), (minute, .balance 750000)]
      (((penniless.perform purchase).2.perform purchase).2.perform minute).2 := by
    refine .cons ⟨.inr ?_, step_perform _ _⟩
      (.cons ⟨.inr ?_, step_perform _ _⟩ (.cons ⟨.inl rfl, step_perform _ _⟩ (.nil _)))
    · intro b hb
      cases hb
      decide
    · intro b hb
      cases hb
      decide
  have hall := runs_keep_ledger hguarded.ofGuarded
  exact ⟨_, _, hguarded, rfl, rfl, hall.2.2.2.2 hguarded penniless_solvent⟩

end Wallet

end VoxTranslate.Metering
