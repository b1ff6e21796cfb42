import VoxTranslate.Business.FirstSubscription

/-!
# Events delivered again

A provider delivers an event again whenever it did not see the answer.  A grant is made once
for each event id, but the other branches of the handler write the organisation's row whenever
the event arrives: delivered again after later events, an old one overwrites what they wrote.
So a redelivery is inert exactly when what the event writes is still in place.
-/

namespace VoxTranslate.Business.Billing

open Lib

/-! ## The columns a replay must leave alone -/

/-- What an organisation has bought: its balance, plan, status, subscription and period. -/
structure Billed where
  id : Uuid
  creditsBalance : Int
  plan : String
  subscriptionStatus : SubscriptionStatus
  stripeSubscriptionId : Option String
  currentPeriodEnd : Option Timestamp
  deriving DecidableEq, Repr

/-- The billed columns of a row. -/
def Organization.billed (o : Organization) : Billed :=
  { id := o.id, creditsBalance := o.creditsBalance, plan := o.plan
    subscriptionStatus := o.subscriptionStatus, stripeSubscriptionId := o.stripeSubscriptionId
    currentPeriodEnd := o.currentPeriodEnd }

/-- The billed columns of every organisation. -/
def Tables.billed (db : Tables) : List Billed := db.organizations.map Organization.billed

/-- Delivered now, the event leaves the billed columns of every organisation as they are. -/
def Inert (env : Env) (db : Tables) (e : Event) : Prop := (deliver env db e).billed = db.billed

instance (env : Env) (db : Tables) (e : Event) : Decidable (Inert env db e) :=
  inferInstanceAs (Decidable (_ = _))

namespace Organization

variable {o : Organization} {customer subscription plan interval : Option String}
  {name name' : String} {status : SubscriptionStatus} {cancel : Option Bool}
  {periodEnd : Option Timestamp}

lemma billed_linkSubscription_iff :
    (o.linkSubscription customer subscription plan interval).billed = o.billed ↔
      o.stripeSubscriptionId = subscription ∧ (∀ p ∈ plan, o.plan = p)
        ∧ o.subscriptionStatus = .active := by
  cases plan <;> simp [billed, linkSubscription, eq_comm] <;> tauto

@[simp] lemma billed_claimCustomer : (o.claimCustomer name).billed = o.billed := by
  rw [claimCustomer]
  split_ifs <;> rfl

lemma billed_activate_iff :
    (o.activate periodEnd name name').billed = o.billed ↔
      o.subscriptionStatus = .active ∧ (∀ t ∈ periodEnd, o.currentPeriodEnd = some t)
        ∧ o.plan = name := by
  cases periodEnd <;> simp [billed, activate, eq_comm] <;> tauto

lemma billed_mirror_iff :
    (o.mirror status cancel periodEnd).billed = o.billed ↔
      o.subscriptionStatus = status ∧ ∀ t ∈ periodEnd, o.currentPeriodEnd = some t := by
  cases periodEnd <;> simp [billed, mirror, eq_comm]

lemma billed_withStatus_iff :
    (o.withStatus status).billed = o.billed ↔ o.subscriptionStatus = status := by
  simp [billed, withStatus, eq_comm]

end Organization

/-! ## What is still in place -/

/-- The rows addressed carry what a subscription checkout writes. -/
def CheckoutSettled (env : Env) (db : Tables) (obj : Json) : Prop :=
  ∀ orgId ∈ objOrgId env obj, ∀ o ∈ db.organizations, o.id = orgId →
    o.stripeSubscriptionId = (obj.get "subscription").asStr
      ∧ (∀ plan ∈ ((obj.get "metadata").get "plan").asStr, o.plan = plan)
      ∧ o.subscriptionStatus = .active

/-- The grant was made; or the database refuses its credits; or it grants none, and the row
carries the plan it writes. -/
def GrantSettled (env : Env) (db : Tables) (eventId : String) (orgId : Uuid) (credits : Int)
    (periodEndUnix : Option Int) (planInterval : Option (String × String)) : Prop :=
  db.Processed eventId ∨
    (0 < credits ∧ ¬ db.CanCredit orgId credits) ∨
    (¬ 0 < credits ∧ ∀ p ∈ planInterval, ∀ o ∈ db.organizations, o.id = orgId →
      o.subscriptionStatus = .active
        ∧ (∀ t ∈ periodEndUnix.bind env.fromTimestamp, o.currentPeriodEnd = some t)
        ∧ o.plan = p.1)

/-- A paid top-up of an organisation has its grant settled. -/
def TopUpSettled (env : Env) (db : Tables) (eventId : String) (obj : Json) : Prop :=
  (obj.get "payment_status").asStr = some "paid" → 0 < purchasedCredits obj →
    ∀ orgId ∈ objOrgId env obj,
      GrantSettled env db eventId orgId (purchasedCredits obj) none none

/-- A paid plan invoice of a customer has its grant settled. -/
def InvoiceSettled (env : Env) (db : Tables) (eventId : String) (obj : Json) : Prop :=
  ∀ org ∈ (obj.get "customer").asStr.bind db.orgOfCustomer, ∀ p ∈ invoicePlan env obj,
    GrantSettled env db eventId org.id (env.orgCfg.grantCredits p.1 p.2) (invoicePeriodEnd obj)
      (some p)

/-- The rows of the subscription carry what a change of it writes. -/
def UpdateSettled (env : Env) (db : Tables) (obj : Json) : Prop :=
  ∀ subscription ∈ (obj.get "id").asStr, ∀ o ∈ db.organizations,
    o.stripeSubscriptionId = some subscription →
      o.subscriptionStatus = mapStatus (obj.get "status").asStr
        ∧ ∀ t ∈ (obj.get "current_period_end").asI64.bind env.fromTimestamp,
            o.currentPeriodEnd = some t

/-- **What the event writes is in place.** -/
def Settled (env : Env) (db : Tables) (e : Event) : Prop :=
  match EventKind.of e.type with
  | .checkout =>
    ((e.object.get "mode").asStr = some "subscription" → CheckoutSettled env db e.object)
      ∧ ((e.object.get "mode").asStr = some "payment" → TopUpSettled env db e.id e.object)
  | .invoice => e.type = "invoice.payment_succeeded" → InvoiceSettled env db e.id e.object
  | .subscriptionUpdated => UpdateSettled env db e.object
  | .subscriptionDeleted =>
    ∀ subscription ∈ (e.object.get "id").asStr, ∀ o ∈ db.organizations,
      o.stripeSubscriptionId = some subscription → o.subscriptionStatus = .canceled
  | .invoicePaymentFailed =>
    ∀ customer ∈ (e.object.get "customer").asStr, ∀ o ∈ db.organizations,
      o.stripeCustomerId = some customer → o.subscriptionStatus = .pastDue
  | .other => True

/-! ## A grant is inert exactly when it is settled -/

section Grant

variable {env : Env} {db db' : Tables} {eventId eventType kind customer : String} {orgId : Uuid}
  {credits : Int} {periodEndUnix : Option Int} {planInterval : Option (String × String)}
  {f : Organization → Organization}

lemma billed_updateOrg_iff :
    (db.updateOrg orgId f).billed = db.billed ↔
      ∀ o ∈ db.organizations, o.id = orgId → (f o).billed = o.billed := Table.map_update_eq_iff

lemma billed_updateBySubscription_iff {subscription : String} :
    (db.updateBySubscription subscription f).billed = db.billed ↔
      ∀ o ∈ db.organizations, o.stripeSubscriptionId = some subscription →
        (f o).billed = o.billed := Table.map_update_eq_iff

lemma billed_updateByCustomer_iff :
    (db.updateByCustomer customer f).billed = db.billed ↔
      ∀ o ∈ db.organizations, o.stripeCustomerId = some customer →
        (f o).billed = o.billed := Table.map_update_eq_iff

lemma billed_applyPlan_iff :
    (applyPlan env db orgId periodEndUnix planInterval).billed = db.billed ↔
      ∀ p ∈ planInterval, ∀ o ∈ db.organizations, o.id = orgId →
        o.subscriptionStatus = .active
          ∧ (∀ t ∈ periodEndUnix.bind env.fromTimestamp, o.currentPeriodEnd = some t)
          ∧ o.plan = p.1 := by
  cases planInterval with
  | none => simp [applyPlan]
  | some p =>
    simp only [applyPlan, billed_updateOrg_iff, Organization.billed_activate_iff, Option.mem_def,
      Option.some.injEq, forall_eq']

/-- The balances of the organisations. -/
def Tables.balances (db : Tables) : List Int := db.organizations.map Organization.creditsBalance

lemma balances_eq : db.balances = db.billed.map Billed.creditsBalance := by
  rw [Tables.billed, List.map_map]
  rfl

@[simp] lemma balances_applyPlan :
    (applyPlan env db orgId periodEndUnix planInterval).balances = db.balances := by
  cases planInterval with
  | none => rfl
  | some p => exact Table.map_update_eq_iff.mpr fun _ _ _ => rfl

/-- Credits that the database accepts change a balance. -/
lemma balances_creditOrg_ne (hpos : 0 < credits) (hcan : db.CanCredit orgId credits) :
    (db.creditOrg orgId credits kind).balances ≠ db.balances := by
  obtain ⟨o, ho, -⟩ := hcan
  intro heq
  have hsame : o.creditsBalance + credits = o.creditsBalance :=
    Table.map_update_eq_iff.mp heq o (Table.mem_of_get ho) (Table.key_of_get ho)
  omega

lemma billed_grant_iff :
    (grant env db eventId eventType orgId credits kind periodEndUnix planInterval).2.billed =
        db.billed ↔
      GrantSettled env db eventId orgId credits periodEndUnix planInterval := by
  by_cases hold : db.Processed eventId
  · simp [grant_processed hold, GrantSettled, hold]
  by_cases hpos : 0 < credits
  · by_cases hcan : db.CanCredit orgId credits
    · rw [grant_credited hold hpos hcan]
      -- accepted credits change a balance, and the plan's columns do not change it back
      have hne : ((db.insertEvent eventId eventType).creditOrg orgId credits kind).balances ≠
          (db.insertEvent eventId eventType).balances := balances_creditOrg_ne hpos hcan
      refine iff_of_false (fun h => hne ?_) (by simp [GrantSettled, hold, hpos, hcan])
      rw [← balances_applyPlan, balances_eq]
      exact (congrArg (List.map Billed.creditsBalance) h).trans balances_eq.symm
    · simp [grant_refused hold hpos hcan, GrantSettled, hpos, hcan]
  -- the event's row is no billed column
  · rw [grant_nothing hold hpos]
    show (applyPlan env (db.insertEvent eventId eventType) orgId periodEndUnix planInterval).billed =
      (db.insertEvent eventId eventType).billed ↔ _
    rw [billed_applyPlan_iff]
    simp only [GrantSettled, hold, hpos, false_or, false_and, not_false_eq_true, true_and]
    rfl

/-! ## Each kind of event -/

lemma billed_claimCustomer {customer : Option String} :
    (claimCustomer db orgId customer).billed = db.billed := by
  cases customer with
  | none => rfl
  | some name => exact billed_updateOrg_iff.mpr fun o _ _ => Organization.billed_claimCustomer

/-- The customer plays no part in whether credits are accepted. -/
lemma canCredit_claimCustomer_iff {customer : Option String} :
    (claimCustomer db orgId customer).CanCredit orgId credits ↔ db.CanCredit orgId credits := by
  cases customer with
  | none => rfl
  | some name =>
    have hbal : ∀ o : Organization, (o.claimCustomer name).creditsBalance = o.creditsBalance :=
      fun o => congrArg Billed.creditsBalance Organization.billed_claimCustomer
    simp [Tables.CanCredit, claimCustomer, hbal,
      Tables.org_updateOrg Organization.claimCustomer_keepsId]

lemma processed_claimCustomer_iff {customer : Option String} :
    (claimCustomer db orgId customer).Processed eventId ↔ db.Processed eventId := by
  cases customer <;> rfl

lemma grantSettled_claimCustomer_iff {customer : Option String} :
    GrantSettled env (claimCustomer db orgId customer) eventId orgId credits none none ↔
      GrantSettled env db eventId orgId credits none none := by
  simp [GrantSettled, canCredit_claimCustomer_iff, processed_claimCustomer_iff]

variable {obj : Json}

lemma billed_checkoutSubscription_iff :
    (checkoutSubscription env db obj).billed = db.billed ↔ CheckoutSettled env db obj := by
  rw [checkoutSubscription, CheckoutSettled]
  cases objOrgId env obj with
  | none => simp
  | some orgId =>
    simp only [billed_updateOrg_iff, Organization.billed_linkSubscription_iff, Option.mem_def,
      Option.some.injEq, forall_eq']

lemma billed_checkoutPayment_iff :
    (checkoutPayment env db eventId eventType obj).2.billed = db.billed ↔
      TopUpSettled env db eventId obj := by
  rw [checkoutPayment, TopUpSettled]
  by_cases hpaid : (obj.get "payment_status").asStr = some "paid"
  · rw [if_neg (not_not.mpr hpaid)]
    cases objOrgId env obj with
    | none => simp
    | some orgId =>
      by_cases hpos : 0 < purchasedCredits obj
      · simp only [hpaid, hpos, true_imp_iff, if_true, Option.mem_def, Option.some.injEq, forall_eq']
        -- the customer claimed before the grant is no billed column either
        have hclaim : (claimCustomer db orgId (obj.get "customer").asStr).billed = db.billed :=
          billed_claimCustomer
        rw [← hclaim, billed_grant_iff]
        exact grantSettled_claimCustomer_iff
      · simp [hpos, billed_claimCustomer]
  · simp [hpaid]

lemma billed_handleInvoice_iff :
    (handleInvoice env db eventId eventType obj).2.billed = db.billed ↔
      (eventType = "invoice.payment_succeeded" → InvoiceSettled env db eventId obj) := by
  rw [handleInvoice, InvoiceSettled]
  cases (obj.get "customer").asStr.bind db.orgOfCustomer with
  | none => simp
  | some org =>
    by_cases htype : eventType = "invoice.payment_succeeded"
    · simp only [htype, ne_eq, not_true_eq_false, if_false, true_imp_iff, Option.mem_def,
        Option.some.injEq, forall_eq']
      cases invoicePlan env obj with
      | none => simp
      | some p => simp only [billed_grant_iff, Option.some.injEq, forall_eq']
    · simp [htype]

lemma billed_subscriptionUpdated_iff :
    (subscriptionUpdated env db obj).billed = db.billed ↔ UpdateSettled env db obj := by
  rw [subscriptionUpdated, UpdateSettled]
  cases (obj.get "id").asStr with
  | none => simp
  | some subscription =>
    simp only [billed_updateBySubscription_iff, Organization.billed_mirror_iff, Option.mem_def,
      Option.some.injEq, forall_eq']

lemma billed_subscriptionDeleted_iff :
    (subscriptionDeleted db obj).billed = db.billed ↔
      ∀ subscription ∈ (obj.get "id").asStr, ∀ o ∈ db.organizations,
        o.stripeSubscriptionId = some subscription → o.subscriptionStatus = .canceled := by
  rw [subscriptionDeleted]
  cases (obj.get "id").asStr with
  | none => simp
  | some subscription =>
    simp only [billed_updateBySubscription_iff, Organization.billed_withStatus_iff,
      Option.mem_def, Option.some.injEq, forall_eq']

lemma billed_invoicePaymentFailed_iff :
    (invoicePaymentFailed db obj).billed = db.billed ↔
      ∀ customer ∈ (obj.get "customer").asStr, ∀ o ∈ db.organizations,
        o.stripeCustomerId = some customer → o.subscriptionStatus = .pastDue := by
  rw [invoicePaymentFailed]
  cases (obj.get "customer").asStr with
  | none => simp
  | some customer =>
    simp only [billed_updateByCustomer_iff, Organization.billed_withStatus_iff,
      Option.mem_def, Option.some.injEq, forall_eq']

end Grant

/-- **A delivery is inert exactly when what the event writes is in place.** -/
lemma inert_iff_settled {env : Env} {db : Tables} {e : Event} :
    Inert env db e ↔ Settled env db e := by
  rw [Inert, deliver, handleEvent, Settled]
  cases EventKind.of e.type with
  | checkout =>
    dsimp only
    split_ifs with hsub hpay
    · simp [hsub, billed_checkoutSubscription_iff]
    · simp [hpay, billed_checkoutPayment_iff]
    · simp [hsub, hpay]
  | invoice => exact billed_handleInvoice_iff
  | subscriptionUpdated => exact billed_subscriptionUpdated_iff
  | subscriptionDeleted => exact billed_subscriptionDeleted_iff
  | invoicePaymentFailed => exact billed_invoicePaymentFailed_iff
  | other => simp

/-! ## A retry finds everything in place -/

section Retry

variable {env : Env} {db : Tables} {eventId eventType kind : String} {orgId : Uuid}
  {credits : Int} {periodEndUnix : Option Int} {planInterval : Option (String × String)}
  {obj : Json} {e : Event}

lemma processed_applyPlan_iff :
    (applyPlan env db orgId periodEndUnix planInterval).Processed eventId ↔
      db.Processed eventId := by
  cases planInterval <;> rfl

/-- After a grant its event is in the ledger, or nothing happened and nothing will. -/
lemma grant_settles :
    (grant env db eventId eventType orgId credits kind periodEndUnix planInterval).2.Processed
        eventId ∨
      ((grant env db eventId eventType orgId credits kind periodEndUnix planInterval).2 = db
        ∧ GrantSettled env db eventId orgId credits periodEndUnix planInterval) := by
  have hinserted : (db.insertEvent eventId eventType).Processed eventId :=
    ⟨_, List.mem_cons_self, rfl⟩
  by_cases hold : db.Processed eventId
  · rw [grant_processed hold]
    exact .inl hold
  by_cases hpos : 0 < credits
  · by_cases hcan : db.CanCredit orgId credits
    · rw [grant_credited hold hpos hcan]
      exact .inl (processed_applyPlan_iff.mpr hinserted)
    · rw [grant_refused hold hpos hcan]
      exact .inr ⟨rfl, .inr (.inl ⟨hpos, hcan⟩)⟩
  · rw [grant_nothing hold hpos]
    exact .inl (processed_applyPlan_iff.mpr hinserted)

/-- Where a grant was just tried, it is settled. -/
lemma grantSettled_grant :
    GrantSettled env
      (grant env db eventId eventType orgId credits kind periodEndUnix planInterval).2 eventId
      orgId credits periodEndUnix planInterval := by
  obtain hprocessed | ⟨heq, hsettled⟩ := @grant_settles env db eventId eventType kind orgId
    credits periodEndUnix planInterval
  · exact .inl hprocessed
  · rwa [heq]

lemma checkoutSettled_checkoutSubscription :
    CheckoutSettled env (checkoutSubscription env db obj) obj := by
  intro orgId horg
  rw [checkoutSubscription, Option.mem_def.mp horg]
  refine (Table.forall_update_iff Organization.linkSubscription_keepsId).mpr fun o _ _ => ?_
  refine ⟨rfl, fun plan hplan => ?_, rfl⟩
  rw [Organization.linkSubscription, Option.mem_def.mp hplan, Option.getD_some]

lemma topUpSettled_checkoutPayment :
    TopUpSettled env (checkoutPayment env db eventId eventType obj).2 eventId obj := by
  intro hpaid hpos orgId horg
  rw [checkoutPayment, if_neg (not_not.mpr hpaid), Option.mem_def.mp horg]
  simp only [if_pos hpos]
  exact grantSettled_grant

lemma invoiceSettled_handleInvoice :
    InvoiceSettled env (handleInvoice env db eventId "invoice.payment_succeeded" obj).2 eventId
      obj := by
  intro org horg p hp
  rw [handleInvoice] at horg ⊢
  cases hdb : (obj.get "customer").asStr.bind db.orgOfCustomer with
  | none =>
    rw [hdb] at horg
    exact absurd (hdb.symm.trans horg) (by simp)
  | some r =>
    simp only [hdb, ne_eq, not_true_eq_false, if_false, Option.mem_def.mp hp] at horg ⊢
    obtain hprocessed | ⟨heq, hsettled⟩ := @grant_settles env db eventId
      "invoice.payment_succeeded" "subscription_grant" r.id
      (env.orgCfg.grantCredits p.1 p.2) (invoicePeriodEnd obj) (some p)
    · exact .inl hprocessed
    · -- nothing was written, so the customer still resolves to the same organisation
      rw [heq] at horg ⊢
      rw [Option.mem_def, hdb, Option.some.injEq] at horg
      exact horg ▸ hsettled

lemma updateSettled_subscriptionUpdated :
    UpdateSettled env (subscriptionUpdated env db obj) obj := by
  intro subscription hid
  rw [subscriptionUpdated, Option.mem_def.mp hid]
  refine (Table.forall_update_iff Organization.mirror_keepsSubscription).mpr fun o _ _ => ?_
  refine ⟨rfl, fun t ht => ?_⟩
  rw [Organization.mirror, Option.mem_def.mp ht, Option.some_or]

/-- **A retry is inert**: right after its delivery, what an event writes is in place. -/
lemma settled_deliver : Settled env (deliver env db e) e := by
  rw [deliver, handleEvent, Settled]
  cases EventKind.of e.type with
  | checkout =>
    constructor
    · intro hmode
      rw [if_pos hmode]
      exact checkoutSettled_checkoutSubscription
    · intro hmode
      have hne : (e.object.get "mode").asStr ≠ some "subscription" := by rw [hmode]; decide
      rw [if_neg hne, if_pos hmode]
      exact topUpSettled_checkoutPayment
  | invoice =>
    intro htype
    rw [htype]
    exact invoiceSettled_handleInvoice
  | subscriptionUpdated => exact updateSettled_subscriptionUpdated
  | subscriptionDeleted =>
    intro subscription hid
    dsimp only
    rw [subscriptionDeleted, Option.mem_def.mp hid]
    exact (Table.forall_update_iff Organization.withStatus_keepsSubscription).mpr fun _ _ _ => rfl
  | invoicePaymentFailed =>
    intro customer hid
    dsimp only
    rw [invoicePaymentFailed, Option.mem_def.mp hid]
    exact (Table.forall_update_iff Organization.withStatus_keepsCustomer).mpr fun _ _ _ => rfl
  | other => trivial

end Retry

/-! ## The ledger of processed events only grows -/

section Ledger

variable {env : Env} {db : Tables} {eventId eventType kind id : String} {orgId : Uuid}
  {credits : Int} {periodEndUnix : Option Int} {planInterval : Option (String × String)}
  {obj : Json} {e : Event}

lemma processed_grant (h : db.Processed id) :
    (grant env db eventId eventType orgId credits kind periodEndUnix planInterval).2.Processed
      id := by
  obtain ⟨row, hrow, hid⟩ := h
  have hinserted : (db.insertEvent eventId eventType).Processed id :=
    ⟨row, List.mem_cons_of_mem _ hrow, hid⟩
  by_cases hold : db.Processed eventId
  · rw [grant_processed hold]
    exact ⟨row, hrow, hid⟩
  by_cases hpos : 0 < credits
  · by_cases hcan : db.CanCredit orgId credits
    · rw [grant_credited hold hpos hcan]
      exact processed_applyPlan_iff.mpr hinserted
    · rw [grant_refused hold hpos hcan]
      exact ⟨row, hrow, hid⟩
  · rw [grant_nothing hold hpos]
    exact processed_applyPlan_iff.mpr hinserted

lemma processed_checkoutPayment (h : db.Processed id) :
    (checkoutPayment env db eventId eventType obj).2.Processed id := by
  rw [checkoutPayment]
  split_ifs with hpaid
  · exact h
  · cases objOrgId env obj with
    | none => exact h
    | some orgId =>
      have hclaim : (claimCustomer db orgId (obj.get "customer").asStr).Processed id :=
        processed_claimCustomer_iff.mpr h
      dsimp only
      split_ifs
      · exact processed_grant hclaim
      · exact hclaim

lemma processed_handleInvoice (h : db.Processed id) :
    (handleInvoice env db eventId eventType obj).2.Processed id := by
  rw [handleInvoice]
  cases (obj.get "customer").asStr.bind db.orgOfCustomer with
  | none => exact h
  | some org =>
    dsimp only
    split_ifs with htype
    · exact h
    · cases invoicePlan env obj with
      | none => exact h
      | some p => exact processed_grant h

/-- No delivery takes an event out of the ledger. -/
lemma processed_deliver (h : db.Processed id) : (deliver env db e).Processed id := by
  rw [deliver, handleEvent]
  cases EventKind.of e.type with
  | checkout =>
    dsimp only
    split_ifs
    · rw [checkoutSubscription]
      cases objOrgId env e.object <;> exact h
    · exact processed_checkoutPayment h
    · exact h
  | invoice => exact processed_handleInvoice h
  | subscriptionUpdated =>
    rw [subscriptionUpdated]
    cases (e.object.get "id").asStr <;> exact h
  | subscriptionDeleted =>
    rw [subscriptionDeleted]
    cases (e.object.get "id").asStr <;> exact h
  | invoicePaymentFailed =>
    rw [invoicePaymentFailed]
    cases (e.object.get "customer").asStr <;> exact h
  | other => exact h

/-- The events whose only effect is a grant. -/
def Event.Grants (e : Event) : Prop :=
  EventKind.of e.type = .invoice ∨
    (EventKind.of e.type = .checkout ∧ (e.object.get "mode").asStr = some "payment")

lemma settled_of_processed (hgrants : e.Grants) (h : db.Processed e.id) : Settled env db e := by
  obtain hkind | ⟨hkind, hmode⟩ := hgrants
  · simp only [Settled, hkind]
    exact fun _ _ _ _ _ => .inl h
  · simp only [Settled, hkind, hmode]
    exact ⟨fun hsub => absurd hsub (by decide), fun _ _ _ _ _ => .inl h⟩

end Ledger

/-! ## Redeliveries in a run -/

/-- **A grant that was made is never made again**, whatever is delivered in between. -/
theorem granted_redelivery_inert {env : Env} {db : Tables} {pre later : List Event} {e : Event}
    (hgrants : e.Grants) (h : (deliverAll env db pre).Processed e.id) :
    Inert env (deliverAll env db (pre ++ later)) e := by
  have hlater : (deliverAll env db (pre ++ later)).Processed e.id := by
    rw [deliverAll, List.foldl_append]
    exact foldl_invariant (I := fun db : Tables => db.Processed e.id)
      (fun _ _ _ hprocessed => processed_deliver hprocessed) h
  exact inert_iff_settled.mpr (settled_of_processed hgrants hlater)

/-- **An event that was delivered is inert when it comes again exactly when what it writes is
still in place, as it is right after the delivery.** -/
theorem redelivery_inert_iff (env : Env) (db : Tables) (pre : List Event) (e : Event)
    (later : List Event) :
    (Inert env (deliverAll env db (pre ++ e :: later)) e ↔
        Settled env (deliverAll env db (pre ++ e :: later)) e)
      ∧ Settled env (deliverAll env db (pre ++ [e])) e := by
  refine ⟨inert_iff_settled, ?_⟩
  rw [deliverAll, List.foldl_append, List.foldl_cons, List.foldl_nil]
  exact settled_deliver

/-- The end of the subscription. -/
def sampleDeleted : Event where
  id := "evt_deleted"
  type := "customer.subscription.deleted"
  object := .obj [("id", .str "sub_1"), ("status", .str "canceled")]

/-- An old checkout, delivered again after the subscription was cancelled, makes it active. -/
theorem redelivered_checkout_reactivates :
    let db := deliverAll sampleEnv sampleDb [sampleCheckout, sampleDeleted]
    ¬ Inert sampleEnv db sampleCheckout
      ∧ (db.org 1).map Organization.subscriptionStatus = some .canceled
      ∧ ((deliver sampleEnv db sampleCheckout).org 1).map Organization.subscriptionStatus =
          some .active := by
  decide +kernel

end VoxTranslate.Business.Billing
