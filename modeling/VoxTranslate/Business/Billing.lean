import VoxTranslate.Business.Credits
import VoxTranslate.Lib.Json

/-!
# Organisation billing by webhook

What the payment provider's events do to the organisations.  `handleEvent` dispatches on the
event's type: a finished checkout links an organisation to its customer and subscription or
grants the credits it bought, a paid invoice grants the allowance of the plan it prices, and
the remaining events mirror the subscription's state.  Only `grant` goes through the ledger
of processed events; the other branches write the organisation's row directly.
-/

namespace VoxTranslate.Business.Billing

open Lib

/-! ## Plans and their allowances -/

/-- The price ids of the plans, and what a month of each grants. -/
structure OrgBillingConfig where
  businessMonthlyPriceId : String
  businessAnnualPriceId : String
  enterpriseMonthlyPriceId : String
  enterpriseAnnualPriceId : String
  businessMonthlyCredits : Int
  enterpriseMonthlyCredits : Int

/-- The plan and interval of a price id. -/
def OrgBillingConfig.planIntervalForPrice (cfg : OrgBillingConfig) (priceId : String) :
    Option (String × String) :=
  -- a price that is not configured is empty, and must not match
  if priceId = "" then none
  else if priceId = cfg.businessMonthlyPriceId then some ("business", "month")
  else if priceId = cfg.businessAnnualPriceId then some ("business", "year")
  else if priceId = cfg.enterpriseMonthlyPriceId then some ("enterprise", "month")
  else if priceId = cfg.enterpriseAnnualPriceId then some ("enterprise", "year")
  else none

/-- The credits one paid invoice grants; a year grants twelve months at once. -/
def OrgBillingConfig.grantCredits (cfg : OrgBillingConfig) (plan interval : String) : Int :=
  let monthly :=
    if plan = "enterprise" then cfg.enterpriseMonthlyCredits else cfg.businessMonthlyCredits
  if interval = "year" then asI32 (monthly * 12) else monthly

/-- What the handler is given: its configuration, and the libraries' reading of identifiers
and of Unix times. -/
structure Env where
  orgCfg : OrgBillingConfig
  parseUuid : String → Option Uuid
  fromTimestamp : Int → Option Timestamp

/-! ## The tables -/

/-- The states of a subscription. -/
inductive SubscriptionStatus where
  | none
  | active
  | pastDue
  | canceled
  deriving DecidableEq, Repr

/-- The columns of `organizations` that billing reads and writes. -/
structure Organization where
  id : Uuid
  creditsBalance : Int
  stripeCustomerId : Option String
  stripeSubscriptionId : Option String
  plan : String
  subscriptionInterval : Option String
  subscriptionStatus : SubscriptionStatus
  currentPeriodEnd : Option Timestamp
  cancelAtPeriodEnd : Bool
  deriving DecidableEq, Repr

/-- A row of `stripe_events`: an event whose grant was made. -/
structure StripeEvent where
  id : String
  type : String
  deriving DecidableEq, Repr

/-- The tables of billing. -/
structure Tables where
  organizations : List Organization
  transactions : List CreditTransaction
  stripeEvents : List StripeEvent
  deriving DecidableEq, Repr

namespace Organization

/-- What a finished subscription checkout writes. -/
def linkSubscription (customer subscription plan interval : Option String) (o : Organization) :
    Organization :=
  { o with
    stripeCustomerId := customer
    stripeSubscriptionId := subscription
    plan := plan.getD o.plan
    subscriptionInterval := interval
    subscriptionStatus := .active }

/-- What a finished top-up writes: the customer, where there is none yet. -/
def claimCustomer (customer : String) (o : Organization) : Organization :=
  if o.stripeCustomerId = Option.none then { o with stripeCustomerId := some customer } else o

/-- Credits added to the balance. -/
def addCredits (credits : Int) (o : Organization) : Organization :=
  { o with creditsBalance := o.creditsBalance + credits }

/-- What a plan invoice writes beside the credits. -/
def activate (periodEnd : Option Timestamp) (plan interval : String) (o : Organization) :
    Organization :=
  { o with
    subscriptionStatus := .active
    currentPeriodEnd := periodEnd.or o.currentPeriodEnd
    plan := plan
    subscriptionInterval := some interval }

/-- What a change of the subscription writes. -/
def mirror (status : SubscriptionStatus) (cancelAtPeriodEnd : Option Bool)
    (periodEnd : Option Timestamp) (o : Organization) : Organization :=
  { o with
    subscriptionStatus := status
    cancelAtPeriodEnd := cancelAtPeriodEnd.getD o.cancelAtPeriodEnd
    currentPeriodEnd := periodEnd.or o.currentPeriodEnd }

/-- Another status. -/
def withStatus (status : SubscriptionStatus) (o : Organization) : Organization :=
  { o with subscriptionStatus := status }

end Organization

namespace Tables

variable (db : Tables)

/-- The row of an organisation. -/
def org (orgId : Uuid) : Option Organization :=
  Table.get Organization.id db.organizations orgId

/-- `SELECT id, plan FROM organizations WHERE stripe_customer_id = $1`. -/
def orgOfCustomer (customer : String) : Option Organization :=
  Table.get Organization.stripeCustomerId db.organizations (some customer)

/-- `UPDATE organizations SET ... WHERE id = $1`. -/
def updateOrg (orgId : Uuid) (f : Organization → Organization) : Tables :=
  { db with organizations := Table.update Organization.id db.organizations orgId f }

/-- `UPDATE organizations SET ... WHERE stripe_subscription_id = $1`. -/
def updateBySubscription (subscription : String) (f : Organization → Organization) : Tables :=
  { db with
    organizations :=
      Table.update Organization.stripeSubscriptionId db.organizations (some subscription) f }

/-- `UPDATE organizations SET ... WHERE stripe_customer_id = $1`. -/
def updateByCustomer (customer : String) (f : Organization → Organization) : Tables :=
  { db with
    organizations :=
      Table.update Organization.stripeCustomerId db.organizations (some customer) f }

/-- The event is in the ledger of processed events. -/
def Processed (eventId : String) : Prop := ∃ row ∈ db.stripeEvents, row.id = eventId

instance (eventId : String) : Decidable (db.Processed eventId) :=
  inferInstanceAs (Decidable (∃ row ∈ db.stripeEvents, _))

/-- The database accepts the movement: the organisation of the ledger row exists, and its new
balance fits the column. -/
def CanCredit (orgId : Uuid) (credits : Int) : Prop :=
  ∃ o ∈ db.org orgId, FitsI32 (o.creditsBalance + credits)

instance (orgId : Uuid) (credits : Int) : Decidable (db.CanCredit orgId credits) :=
  inferInstanceAs (Decidable (∃ o ∈ db.org orgId, _))

/-- `INSERT INTO stripe_events`. -/
def insertEvent (eventId eventType : String) : Tables :=
  { db with stripeEvents := { id := eventId, type := eventType } :: db.stripeEvents }

/-- The balance and the ledger row of a grant, written together. -/
def creditOrg (orgId : Uuid) (credits : Int) (kind : String) : Tables :=
  let db := db.updateOrg orgId (Organization.addCredits credits)
  { db with
    transactions :=
      { orgId, amount := credits, type := kind, description := "stripe grant",
        sessionId := none, actorId := none, stripePaymentIntentId := none } :: db.transactions }

end Tables

/-! ## What an update does to a later lookup -/

namespace Organization

variable {customer subscription plan interval : Option String} {b : Int} {name name' : String}
  {status : SubscriptionStatus} {cancel : Option Bool} {periodEnd : Option Timestamp}

lemma linkSubscription_keepsId :
    Table.KeepsKey id (linkSubscription customer subscription plan interval) := fun _ => rfl

lemma claimCustomer_keepsId : Table.KeepsKey id (claimCustomer name) := by
  intro o
  rw [claimCustomer]
  split_ifs <;> rfl

lemma addCredits_keepsId : Table.KeepsKey id (addCredits b) := fun _ => rfl

lemma addCredits_keepsCustomer : Table.KeepsKey stripeCustomerId (addCredits b) := fun _ => rfl

lemma activate_keepsId : Table.KeepsKey id (activate periodEnd name name') := fun _ => rfl

lemma activate_keepsCustomer :
    Table.KeepsKey stripeCustomerId (activate periodEnd name name') := fun _ => rfl

lemma mirror_keepsId : Table.KeepsKey id (mirror status cancel periodEnd) := fun _ => rfl

lemma mirror_keepsCustomer :
    Table.KeepsKey stripeCustomerId (mirror status cancel periodEnd) := fun _ => rfl

lemma mirror_keepsSubscription :
    Table.KeepsKey stripeSubscriptionId (mirror status cancel periodEnd) := fun _ => rfl

lemma withStatus_keepsSubscription :
    Table.KeepsKey stripeSubscriptionId (withStatus status) := fun _ => rfl

lemma withStatus_keepsCustomer :
    Table.KeepsKey stripeCustomerId (withStatus status) := fun _ => rfl

end Organization

namespace Tables

variable {db : Tables} {orgId : Uuid} {customer subscription : String}
  {f : Organization → Organization} {o : Organization}

lemma id_of_org (h : db.org orgId = some o) : o.id = orgId := Table.key_of_get h

lemma org_updateOrg (hf : Table.KeepsKey Organization.id f) :
    (db.updateOrg orgId f).org orgId = (db.org orgId).map f := Table.get_update_self hf

lemma org_updateBySubscription (hf : Table.KeepsKey Organization.id f) :
    (db.updateBySubscription subscription f).org orgId = (db.org orgId).map fun o =>
      if o.stripeSubscriptionId = some subscription then f o else o := Table.get_update_by hf

lemma orgOfCustomer_updateOrg (hf : Table.KeepsKey Organization.stripeCustomerId f) :
    (db.updateOrg orgId f).orgOfCustomer customer = (db.orgOfCustomer customer).map fun o =>
      if o.id = orgId then f o else o := Table.get_update_by hf

lemma orgOfCustomer_updateBySubscription (hf : Table.KeepsKey Organization.stripeCustomerId f) :
    (db.updateBySubscription subscription f).orgOfCustomer customer =
      (db.orgOfCustomer customer).map fun o =>
        if o.stripeSubscriptionId = some subscription then f o else o := Table.get_update_by hf

/-- A customer that nobody carries yet is the organisation's that it is given to. -/
lemma orgOfCustomer_updateOrg_fresh
    (hfresh : db.orgOfCustomer customer = none)
    (hf : ∀ o, (f o).stripeCustomerId = some customer) :
    (db.updateOrg orgId f).orgOfCustomer customer = (db.org orgId).map f :=
  Table.get_update_fresh (Table.get_eq_none.mp hfresh) hf

end Tables

/-! ## Reading an event's object -/

/-- The organisation of a checkout: from its metadata, or else the client reference. -/
def objOrgId (env : Env) (obj : Json) : Option Uuid :=
  (((obj.get "metadata").get "org_id").asStr.or (obj.get "client_reference_id").asStr).bind
    env.parseUuid

/-- The places a price id has had on an invoice's first line, newest first. -/
def priceIdPaths : List (List String) :=
  [["lines", "data", "0", "pricing", "price_details", "price"],
    ["lines", "data", "0", "price", "id"],
    ["lines", "data", "0", "plan", "id"]]

/-- The price id of an invoice's first line. -/
def invoiceLinePriceId (obj : Json) : Option String :=
  (priceIdPaths.findSome? fun path => (obj.pointer path).bind Json.asStr).filter fun id => id ≠ ""

/-- The plan and interval an invoice is for. -/
def invoicePlan (env : Env) (obj : Json) : Option (String × String) :=
  (invoiceLinePriceId obj).bind env.orgCfg.planIntervalForPrice

/-- The end of the period an invoice pays, in Unix time. -/
def invoicePeriodEnd (obj : Json) : Option Int :=
  ((obj.pointer ["lines", "data", "0", "period", "end"]).or (obj.get? "period_end")).bind Json.asI64

/-- The subscription's own status, coarsened. -/
def mapStatus : Option String → SubscriptionStatus
  | some status =>
    if status = "active" ∨ status = "trialing" then .active
    else if status = "past_due" ∨ status = "unpaid" then .pastDue
    else if status = "canceled" ∨ status = "incomplete_expired" then .canceled
    -- a status not listed, `incomplete` among them, counts as active
    else .active
  | none => .active

/-! ## Handling an event -/

/-- Whether the handler answered the event or failed on the database. -/
inductive Outcome where
  | ok
  | error
  deriving DecidableEq, Repr

/-- The status, period, plan and interval that a grant for a plan writes. -/
def applyPlan (env : Env) (tx : Tables) (orgId : Uuid) (periodEndUnix : Option Int) :
    Option (String × String) → Tables
  | some (plan, interval) =>
    tx.updateOrg orgId (Organization.activate (periodEndUnix.bind env.fromTimestamp) plan interval)
  | none => tx

/-- The credit grant, once for each event id and all in one transaction. -/
def grant (env : Env) (db : Tables) (eventId eventType : String) (orgId : Uuid) (credits : Int)
    (kind : String) (periodEndUnix : Option Int) (planInterval : Option (String × String)) :
    Outcome × Tables :=
  if db.Processed eventId then (.ok, db)
  else if 0 < credits ∧ ¬ db.CanCredit orgId credits then
    -- the transaction is rolled back, the event's row with it
    (.error, db)
  else
    let tx := db.insertEvent eventId eventType
    let tx := if 0 < credits then tx.creditOrg orgId credits kind else tx
    (.ok, applyPlan env tx orgId periodEndUnix planInterval)

section Grant

variable {env : Env} {db : Tables} {eventId eventType : String} {orgId : Uuid} {credits : Int}
  {kind : String} {periodEndUnix : Option Int} {planInterval : Option (String × String)}

lemma grant_processed (h : db.Processed eventId) :
    grant env db eventId eventType orgId credits kind periodEndUnix planInterval = (.ok, db) :=
  if_pos h

lemma grant_refused (hnew : ¬ db.Processed eventId) (hpos : 0 < credits)
    (hcan : ¬ db.CanCredit orgId credits) :
    grant env db eventId eventType orgId credits kind periodEndUnix planInterval = (.error, db) := by
  rw [grant, if_neg hnew, if_pos ⟨hpos, hcan⟩]

lemma grant_credited (hnew : ¬ db.Processed eventId) (hpos : 0 < credits)
    (hcan : db.CanCredit orgId credits) :
    grant env db eventId eventType orgId credits kind periodEndUnix planInterval =
      (.ok, applyPlan env ((db.insertEvent eventId eventType).creditOrg orgId credits kind) orgId
        periodEndUnix planInterval) := by
  have haccepted : ¬ (0 < credits ∧ ¬ db.CanCredit orgId credits) := fun h => h.2 hcan
  simp only [grant, if_neg hnew, if_neg haccepted, if_pos hpos]

lemma grant_nothing (hnew : ¬ db.Processed eventId) (hle : ¬ 0 < credits) :
    grant env db eventId eventType orgId credits kind periodEndUnix planInterval =
      (.ok, applyPlan env (db.insertEvent eventId eventType) orgId periodEndUnix planInterval) := by
  have haccepted : ¬ (0 < credits ∧ ¬ db.CanCredit orgId credits) := fun h => hle h.1
  simp only [grant, if_neg hnew, if_neg haccepted, if_neg hle]

end Grant

/-- A checkout of mode `subscription`. -/
def checkoutSubscription (env : Env) (db : Tables) (obj : Json) : Tables :=
  match objOrgId env obj with
  | some orgId =>
    db.updateOrg orgId (Organization.linkSubscription (obj.get "customer").asStr
      (obj.get "subscription").asStr ((obj.get "metadata").get "plan").asStr
      ((obj.get "metadata").get "interval").asStr)
  | none => db

/-- The credits a top-up bought. -/
def purchasedCredits (obj : Json) : Int :=
  (((obj.get "metadata").get "credits").asStr.bind parseI32).getD 0

/-- The customer of a top-up is kept for an organisation that has none. -/
def claimCustomer (db : Tables) (orgId : Uuid) : Option String → Tables
  | some customer => db.updateOrg orgId (Organization.claimCustomer customer)
  | none => db

/-- A checkout of mode `payment`. -/
def checkoutPayment (env : Env) (db : Tables) (eventId eventType : String) (obj : Json) :
    Outcome × Tables :=
  -- a delayed method completes unpaid and settles by a later event
  if (obj.get "payment_status").asStr ≠ some "paid" then (.ok, db)
  else
    let credits := purchasedCredits obj
    match objOrgId env obj with
    | some orgId =>
      let db := claimCustomer db orgId (obj.get "customer").asStr
      if 0 < credits then grant env db eventId eventType orgId credits "purchase" none none
      else (.ok, db)
    | none => (.ok, db)

/-- An invoice, finalised or paid. -/
def handleInvoice (env : Env) (db : Tables) (eventId eventType : String) (obj : Json) :
    Outcome × Tables :=
  match (obj.get "customer").asStr.bind db.orgOfCustomer with
  | some org =>
    -- a finalised invoice is kept as a document only
    if eventType ≠ "invoice.payment_succeeded" then (.ok, db)
    else
      match invoicePlan env obj with
      | some (plan, interval) =>
        grant env db eventId eventType org.id (env.orgCfg.grantCredits plan interval)
          "subscription_grant" (invoicePeriodEnd obj) (some (plan, interval))
      -- a top-up's invoice has no configured price, and neither has one whose price drifted
      | none => (.ok, db)
  | none => (.ok, db)

/-- A change of the subscription. -/
def subscriptionUpdated (env : Env) (db : Tables) (obj : Json) : Tables :=
  match (obj.get "id").asStr with
  | some subscription =>
    db.updateBySubscription subscription (Organization.mirror (mapStatus (obj.get "status").asStr)
      (obj.get "cancel_at_period_end").asBool
      ((obj.get "current_period_end").asI64.bind env.fromTimestamp))
  | none => db

/-- The end of the subscription. -/
def subscriptionDeleted (db : Tables) (obj : Json) : Tables :=
  match (obj.get "id").asStr with
  | some subscription => db.updateBySubscription subscription (Organization.withStatus .canceled)
  | none => db

/-- An invoice that was not paid. -/
def invoicePaymentFailed (db : Tables) (obj : Json) : Tables :=
  match (obj.get "customer").asStr with
  | some customer => db.updateByCustomer customer (Organization.withStatus .pastDue)
  | none => db

/-- The types of event the handler tells apart. -/
inductive EventKind where
  | checkout
  | invoice
  | subscriptionUpdated
  | subscriptionDeleted
  | invoicePaymentFailed
  | other
  deriving DecidableEq, Repr

/-- The kind of an event's type. -/
def EventKind.of (eventType : String) : EventKind :=
  if eventType = "checkout.session.completed"
      ∨ eventType = "checkout.session.async_payment_succeeded" then .checkout
  else if eventType = "invoice.payment_succeeded" ∨ eventType = "invoice.finalized" then .invoice
  else if eventType = "customer.subscription.updated" then .subscriptionUpdated
  else if eventType = "customer.subscription.deleted" then .subscriptionDeleted
  else if eventType = "invoice.payment_failed" then .invoicePaymentFailed
  else .other

/-- The webhook's work on a verified event. -/
def handleEvent (env : Env) (db : Tables) (eventId eventType : String) (obj : Json) :
    Outcome × Tables :=
  match EventKind.of eventType with
  | .checkout =>
    if (obj.get "mode").asStr = some "subscription" then (.ok, checkoutSubscription env db obj)
    else if (obj.get "mode").asStr = some "payment" then
      checkoutPayment env db eventId eventType obj
    else (.ok, db)
  | .invoice => handleInvoice env db eventId eventType obj
  | .subscriptionUpdated => (.ok, subscriptionUpdated env db obj)
  | .subscriptionDeleted => (.ok, subscriptionDeleted db obj)
  | .invoicePaymentFailed => (.ok, invoicePaymentFailed db obj)
  | .other => (.ok, db)

/-- An event as the provider sends it. -/
structure Event where
  id : String
  type : String
  object : Json

/-- The tables after one delivery. -/
def deliver (env : Env) (db : Tables) (e : Event) : Tables :=
  (handleEvent env db e.id e.type e.object).2

/-- The tables after a sequence of deliveries. -/
def deliverAll (env : Env) (db : Tables) (events : List Event) : Tables :=
  events.foldl (deliver env) db

end VoxTranslate.Business.Billing
