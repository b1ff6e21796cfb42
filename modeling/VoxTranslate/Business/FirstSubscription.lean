import VoxTranslate.Business.Billing
import VoxTranslate.Lib.Run
import Mathlib.Data.List.Perm.Basic

/-!
# The first subscription

Four events report an organisation's first paid subscription, and they are delivered in any
order.  Only the checkout names the organisation; the invoice is resolved through the customer
id that the checkout writes, and an invoice of an unknown customer is answered as handled.  So
the credits follow exactly when the checkout is delivered before the paid invoice.
-/

namespace VoxTranslate.Business.Billing

open Lib

/-- Two letters come in this order exactly when the second comes after the first's only place. -/
lemma pair_sublist_iff {α : Type*} {a b : α} {pre post : List α} (h : a ∉ pre) :
    [a, b].Sublist (pre ++ a :: post) ↔ b ∈ post := by
  constructor
  · intro hsub
    obtain ⟨l, l', heq, hl, hl'⟩ := List.sublist_append_iff.mp hsub
    cases l with
    | nil =>
      rw [List.nil_append] at heq
      rw [← heq, List.cons_sublist_cons] at hl'
      exact List.singleton_sublist.mp hl'
    -- a prefix that is not empty starts with `a`, which is not in it
    | cons c l =>
      rw [List.cons_append, List.cons.injEq] at heq
      exact absurd (hl.subset (heq.1 ▸ List.mem_cons_self)) h
  · intro hmem
    exact ((List.singleton_sublist.mpr hmem).cons_cons a).trans (List.sublist_append_right _ _)

/-- The events of a first paid subscription of the organisation `o`, and what they say. -/
structure FirstSubscription (env : Env) (db : Tables) (o : Organization) where
  plan : String
  interval : String
  customer : String
  subscription : String
  checkout : Event
  finalized : Event
  paid : Event
  updated : Event
  found : db.org o.id = some o
  unlinked : o.stripeCustomerId = none
  /-- The checkout created the customer, so no organisation carries it. -/
  customer_new : db.orgOfCustomer customer = none
  checkout_type : checkout.type = "checkout.session.completed"
  checkout_mode : (checkout.object.get "mode").asStr = some "subscription"
  checkout_org : objOrgId env checkout.object = some o.id
  checkout_customer : (checkout.object.get "customer").asStr = some customer
  checkout_subscription : (checkout.object.get "subscription").asStr = some subscription
  checkout_plan : ((checkout.object.get "metadata").get "plan").asStr = some plan
  checkout_interval : ((checkout.object.get "metadata").get "interval").asStr = some interval
  finalized_type : finalized.type = "invoice.finalized"
  finalized_customer : (finalized.object.get "customer").asStr = some customer
  paid_type : paid.type = "invoice.payment_succeeded"
  paid_customer : (paid.object.get "customer").asStr = some customer
  /-- The invoice's price is configured, and it is the plan's. -/
  paid_plan : invoicePlan env paid.object = some (plan, interval)
  /-- The event was not delivered before. -/
  paid_new : ¬ db.Processed paid.id
  updated_type : updated.type = "customer.subscription.updated"
  updated_subscription : (updated.object.get "id").asStr = some subscription
  updated_status : (updated.object.get "status").asStr = some "active"

namespace FirstSubscription

variable {env : Env} {db db' : Tables} {o r : Organization} (s : FirstSubscription env db o)
  {b : Int} {e : Event}

/-- The four events, in the order they are meant to come. -/
def events : List Event := [s.checkout, s.finalized, s.paid, s.updated]

/-- The credits of the plan. -/
def credits : Int := env.orgCfg.grantCredits s.plan s.interval

/-- The row says that the organisation subscribes to the plan. -/
def Subscribes (r : Organization) : Prop :=
  r.plan = s.plan ∧ r.subscriptionInterval = some s.interval ∧ r.subscriptionStatus = .active

/-- What a first paid subscription should leave: the plan's credits, the plan, and its interval,
active. -/
def Honoured (db' : Tables) : Prop :=
  ∃ r ∈ db'.org o.id, r.creditsBalance = o.creditsBalance + s.credits ∧ s.Subscribes r

instance (r : Organization) : Decidable (s.Subscribes r) := inferInstanceAs (Decidable (_ ∧ _))

instance (db' : Tables) : Decidable (s.Honoured db') :=
  inferInstanceAs (Decidable (∃ r ∈ db'.org o.id, _))

/-! ## Before the checkout -/

/-- Nothing ties the organisation to the customer yet. -/
structure Waiting (db' : Tables) : Prop where
  org : ∃ r ∈ db'.org o.id, r.creditsBalance = o.creditsBalance
  unresolved : db'.orgOfCustomer s.customer = none
  unprocessed : ¬ db'.Processed s.paid.id

lemma waiting_init : s.Waiting db :=
  ⟨⟨o, s.found, rfl⟩, s.customer_new, s.paid_new⟩

lemma deliver_finalized : deliver env db' s.finalized = db' := by
  have hkind : EventKind.of s.finalized.type = .invoice := by rw [s.finalized_type]; rfl
  rw [deliver, handleEvent, hkind]
  dsimp only
  rw [handleInvoice]
  split
  · rw [if_pos (by rw [s.finalized_type]; decide)]
  · rfl

lemma deliver_updated :
    deliver env db' s.updated = db'.updateBySubscription s.subscription
      (Organization.mirror .active (s.updated.object.get "cancel_at_period_end").asBool
        ((s.updated.object.get "current_period_end").asI64.bind env.fromTimestamp)) := by
  have hkind : EventKind.of s.updated.type = .subscriptionUpdated := by rw [s.updated_type]; rfl
  rw [deliver, handleEvent, hkind]
  dsimp only
  rw [subscriptionUpdated, s.updated_subscription, s.updated_status]
  rfl

lemma deliver_checkout :
    deliver env db' s.checkout = db'.updateOrg o.id (Organization.linkSubscription
      (some s.customer) (some s.subscription) (some s.plan) (some s.interval)) := by
  have hkind : EventKind.of s.checkout.type = .checkout := by rw [s.checkout_type]; rfl
  rw [deliver, handleEvent, hkind]
  dsimp only
  rw [if_pos s.checkout_mode, checkoutSubscription, s.checkout_org, s.checkout_customer,
    s.checkout_subscription, s.checkout_plan, s.checkout_interval]

lemma deliver_paid : deliver env db' s.paid =
    match db'.orgOfCustomer s.customer with
    | some r => (grant env db' s.paid.id s.paid.type r.id s.credits "subscription_grant"
        (invoicePeriodEnd s.paid.object) (some (s.plan, s.interval))).2
    | none => db' := by
  have hkind : EventKind.of s.paid.type = .invoice := by rw [s.paid_type]; rfl
  rw [deliver, handleEvent, hkind]
  dsimp only
  rw [handleInvoice, s.paid_customer, Option.bind_some, s.paid_plan]
  cases db'.orgOfCustomer s.customer with
  | none => rfl
  | some r => exact congrArg Prod.snd (if_neg (by simp [s.paid_type]))

variable {s}

/-- Whatever is delivered before the checkout changes nothing that matters. -/
lemma Waiting.step (h : s.Waiting db') (he : e = s.finalized ∨ e = s.paid ∨ e = s.updated) :
    s.Waiting (deliver env db' e) := by
  obtain rfl | rfl | rfl := he
  · rwa [s.deliver_finalized]
  · -- the invoice of a customer nobody carries is acknowledged and dropped
    rwa [s.deliver_paid, h.unresolved]
  · rw [s.deliver_updated]
    obtain ⟨r, hr, hbal⟩ := h.org
    refine ⟨?_, ?_, h.unprocessed⟩
    · rw [Tables.org_updateBySubscription Organization.mirror_keepsId, Option.mem_def.mp hr]
      refine ⟨_, rfl, ?_⟩
      dsimp only
      split_ifs <;> exact hbal
    · rw [Tables.orgOfCustomer_updateBySubscription Organization.mirror_keepsCustomer,
        h.unresolved, Option.map_none]

/-! ## After the checkout -/

variable (s) in
/-- The organisation's row, found by its id and by its customer. -/
def Carries (db' : Tables) (r : Organization) : Prop :=
  db'.org o.id = some r ∧ db'.orgOfCustomer s.customer = some r

variable (s) in
/-- The organisation is tied to the customer, subscribes, and has the balance `b`. -/
def Linked (b : Int) (db' : Tables) : Prop :=
  ∃ r, s.Carries db' r ∧ r.creditsBalance = b ∧ s.Subscribes r

lemma Carries.updateOrg {f : Organization → Organization} (h : s.Carries db' r)
    (hid : Table.KeepsKey Organization.id f)
    (hcustomer : Table.KeepsKey Organization.stripeCustomerId f) :
    s.Carries (db'.updateOrg o.id f) (f r) := by
  constructor
  · rw [Tables.org_updateOrg hid, h.1, Option.map_some]
  · rw [Tables.orgOfCustomer_updateOrg hcustomer, h.2, Option.map_some,
      if_pos (Tables.id_of_org h.1)]

lemma Carries.updateBySubscription {f : Organization → Organization} (h : s.Carries db' r)
    (hid : Table.KeepsKey Organization.id f)
    (hcustomer : Table.KeepsKey Organization.stripeCustomerId f) :
    s.Carries (db'.updateBySubscription s.subscription f)
      (if r.stripeSubscriptionId = some s.subscription then f r else r) := by
  constructor
  · rw [Tables.org_updateBySubscription hid, h.1, Option.map_some]
  · rw [Tables.orgOfCustomer_updateBySubscription hcustomer, h.2, Option.map_some]

lemma Waiting.checkout (h : s.Waiting db') :
    s.Linked o.creditsBalance (deliver env db' s.checkout) := by
  obtain ⟨r, hr, hbal⟩ := h.org
  rw [s.deliver_checkout]
  refine ⟨r.linkSubscription (some s.customer) (some s.subscription) (some s.plan)
    (some s.interval), ⟨?_, ?_⟩, hbal, rfl, rfl, rfl⟩
  · rw [Tables.org_updateOrg Organization.linkSubscription_keepsId, Option.mem_def.mp hr,
      Option.map_some]
  · rw [Tables.orgOfCustomer_updateOrg_fresh h.unresolved fun _ => rfl, Option.mem_def.mp hr,
      Option.map_some]

lemma Linked.updated (h : s.Linked b db') : s.Linked b (deliver env db' s.updated) := by
  obtain ⟨r, hr, hbal, hplan, hinterval, hstatus⟩ := h
  rw [s.deliver_updated]
  refine ⟨_, hr.updateBySubscription Organization.mirror_keepsId
    Organization.mirror_keepsCustomer, ?_⟩
  -- the event says `active`, as the row already does
  split_ifs
  · exact ⟨hbal, hplan, hinterval, rfl⟩
  · exact ⟨hbal, hplan, hinterval, hstatus⟩

/-- Events other than the checkout and the paid invoice leave what the checkout wrote. -/
lemma Linked.step (h : s.Linked b db') (he : e = s.finalized ∨ e = s.updated) :
    s.Linked b (deliver env db' e) := by
  obtain rfl | rfl := he
  · rwa [s.deliver_finalized]
  · exact h.updated

variable (s) in
/-- What the paid invoice adds to a balance. -/
def paidCredits : Int :=
  if 0 < s.credits ∧ FitsI32 (o.creditsBalance + s.credits) then s.credits else 0

lemma Carries.canCredit_iff (h : s.Carries db' r) :
    db'.CanCredit o.id s.credits ↔ FitsI32 (r.creditsBalance + s.credits) := by
  simp [Tables.CanCredit, h.1]

lemma Carries.linked_applyPlan {periodEndUnix : Option Int} (h : s.Carries db' r)
    (hbal : r.creditsBalance = b) :
    s.Linked b (applyPlan env db' o.id periodEndUnix (some (s.plan, s.interval))) :=
  ⟨r.activate (periodEndUnix.bind env.fromTimestamp) s.plan s.interval,
    h.updateOrg Organization.activate_keepsId Organization.activate_keepsCustomer,
    hbal, rfl, rfl, rfl⟩

lemma Linked.paid (h : s.Linked o.creditsBalance db') (hnew : ¬ db'.Processed s.paid.id) :
    s.Linked (o.creditsBalance + s.paidCredits) (deliver env db' s.paid) := by
  obtain ⟨r, hr, hbal, hsub⟩ := h
  have hcan : db'.CanCredit o.id s.credits ↔ FitsI32 (o.creditsBalance + s.credits) := by
    rw [hr.canCredit_iff, hbal]
  rw [s.deliver_paid, hr.2]
  dsimp only
  rw [Tables.id_of_org hr.1]
  by_cases hpos : 0 < s.credits
  · by_cases hfits : FitsI32 (o.creditsBalance + s.credits)
    · rw [grant_credited hnew hpos (hcan.mpr hfits), paidCredits, if_pos ⟨hpos, hfits⟩]
      have hcredited : s.Carries (db'.updateOrg o.id (Organization.addCredits s.credits))
          (r.addCredits s.credits) :=
        hr.updateOrg Organization.addCredits_keepsId Organization.addCredits_keepsCustomer
      exact hcredited.linked_applyPlan (congrArg (· + s.credits) hbal)
    · -- the balance would leave its column: the transaction is rolled back
      rw [grant_refused hnew hpos (hfits ∘ hcan.mp), paidCredits, if_neg fun h => hfits h.2,
        Int.add_zero]
      exact ⟨r, hr, hbal, hsub⟩
  · rw [grant_nothing hnew hpos, paidCredits, if_neg fun h => hpos h.1, Int.add_zero]
    exact hr.linked_applyPlan hbal

/-! ## The orders of delivery -/

lemma processed_step (he : e = s.finalized ∨ e = s.updated) {eventId : String} :
    (deliver env db' e).Processed eventId ↔ db'.Processed eventId := by
  obtain rfl | rfl := he
  · rw [s.deliver_finalized]
  · rw [s.deliver_updated]
    rfl

/-- A stretch of deliveries without the checkout and the paid invoice. -/
lemma Linked.deliverAll {es : List Event} (h : s.Linked b db')
    (hes : ∀ e ∈ es, e = s.finalized ∨ e = s.updated) :
    s.Linked b (deliverAll env db' es) :=
  foldl_invariant (fun _ e he hlinked => hlinked.step (hes e he)) h

lemma processed_deliverAll {es : List Event} {eventId : String}
    (hes : ∀ e ∈ es, e = s.finalized ∨ e = s.updated) (h : ¬ db'.Processed eventId) :
    ¬ (Billing.deliverAll env db' es).Processed eventId :=
  foldl_invariant (I := fun db' : Tables => ¬ db'.Processed eventId)
    (fun _ e he hnew => by rwa [processed_step (hes e he)]) h

lemma checkout_ne (he : e = s.finalized ∨ e = s.paid ∨ e = s.updated) : s.checkout ≠ e := by
  intro heq
  have htype := congrArg Event.type heq
  obtain rfl | rfl | rfl := he
  · simp [s.checkout_type, s.finalized_type] at htype
  · simp [s.checkout_type, s.paid_type] at htype
  · simp [s.checkout_type, s.updated_type] at htype

/-- Every order splits at the checkout. -/
lemma exists_split {order : List Event} (h : order.Perm s.events) :
    ∃ pre post, order = pre ++ s.checkout :: post ∧
      (pre ++ post).Perm [s.finalized, s.paid, s.updated] := by
  obtain ⟨pre, post, rfl⟩ := List.append_of_mem (h.mem_iff.mpr (List.mem_cons_self ..))
  exact ⟨pre, post, rfl, (List.perm_middle.symm.trans h).cons_inv⟩

/-- With the paid invoice taken out, only the two events that grant nothing remain. -/
lemma mem_rest {l l' : List Event} (h : (l ++ s.paid :: l').Perm [s.finalized, s.paid, s.updated])
    (he : e ∈ l ++ l') : e = s.finalized ∨ e = s.updated := by
  have hrest : (l ++ l').Perm [s.finalized, s.updated] :=
    (List.perm_middle.symm.trans (h.trans (.swap ..))).cons_inv
  simpa using hrest.mem_iff.mp he

/-- Reached by the deliveries before the checkout and by the checkout. -/
lemma linked_checkout {pre : List Event}
    (hpre : ∀ e ∈ pre, e = s.finalized ∨ e = s.paid ∨ e = s.updated) :
    s.Linked o.creditsBalance (deliver env (Billing.deliverAll env db pre) s.checkout) ∧
      ¬ (deliver env (Billing.deliverAll env db pre) s.checkout).Processed s.paid.id := by
  have hwaiting : s.Waiting (Billing.deliverAll env db pre) :=
    foldl_invariant (fun _ e he hwaiting => hwaiting.step (hpre e he)) s.waiting_init
  refine ⟨hwaiting.checkout, ?_⟩
  rw [s.deliver_checkout]
  exact hwaiting.unprocessed

/-- After a checkout, the paid invoice finds its organisation. -/
lemma linked_of_paid_after {pre post : List Event} (hmem : s.paid ∈ post)
    (hperm : (pre ++ post).Perm [s.finalized, s.paid, s.updated]) :
    s.Linked (o.creditsBalance + s.paidCredits)
      (Billing.deliverAll env db (pre ++ s.checkout :: post)) := by
  -- the run is cut at the checkout and at the invoice
  obtain ⟨mid, post, rfl⟩ := List.append_of_mem hmem
  rw [← List.append_assoc] at hperm
  have hrest : ∀ e ∈ pre ++ mid ++ post, e = s.finalized ∨ e = s.updated :=
    fun e he => mem_rest hperm he
  simp only [List.mem_append, or_imp, forall_and] at hrest
  obtain ⟨⟨hpre, hmid⟩, hpost⟩ := hrest
  obtain ⟨hlinked, hnew⟩ := linked_checkout (s := s) fun e he => (hpre e he).imp_right .inr
  have hpaid := (hlinked.deliverAll hmid).paid (processed_deliverAll hmid hnew)
  have hall : Billing.deliverAll env db (pre ++ s.checkout :: (mid ++ s.paid :: post)) =
      Billing.deliverAll env (deliver env (Billing.deliverAll env
        (deliver env (Billing.deliverAll env db pre) s.checkout) mid) s.paid) post := by
    simp only [Billing.deliverAll, List.foldl_append, List.foldl_cons]
  rw [hall]
  exact hpaid.deliverAll hpost

/-- Before the checkout, the paid invoice is dropped. -/
lemma linked_of_paid_before {pre post : List Event} (hmem : s.paid ∈ pre)
    (hperm : (pre ++ post).Perm [s.finalized, s.paid, s.updated]) :
    s.Linked o.creditsBalance (Billing.deliverAll env db (pre ++ s.checkout :: post)) := by
  have hpre : ∀ e ∈ pre, e = s.finalized ∨ e = s.paid ∨ e = s.updated := fun e he => by
    simpa using hperm.mem_iff.mp (List.mem_append_left post he)
  -- the invoice came before and comes only once
  have hpost : ∀ e ∈ post, e = s.finalized ∨ e = s.updated := by
    intro e he
    obtain ⟨l, l', rfl⟩ := List.append_of_mem hmem
    rw [List.append_assoc, List.cons_append] at hperm
    exact mem_rest hperm (by simp [he])
  have hall : Billing.deliverAll env db (pre ++ s.checkout :: post) = Billing.deliverAll env
      (deliver env (Billing.deliverAll env db pre) s.checkout) post := by
    simp only [Billing.deliverAll, List.foldl_append, List.foldl_cons]
  rw [hall]
  exact (linked_checkout hpre).1.deliverAll hpost

lemma Linked.honoured_iff (h : s.Linked b db') :
    s.Honoured db' ↔ b = o.creditsBalance + s.credits := by
  obtain ⟨r, hr, hbal, hsub⟩ := h
  simp only [Honoured, hr.1, Option.mem_def, Option.some.injEq, exists_eq_left', hbal]
  exact and_iff_left hsub

end FirstSubscription

open FirstSubscription in
/-- **The first subscription is honoured exactly when the plan grants nothing, or its credits
fit the balance and the checkout is delivered before the paid invoice.** -/
theorem firstSubscription_honoured_iff {env : Env} {db : Tables} {o : Organization}
    (s : FirstSubscription env db o) {order : List Event} (h : order.Perm s.events) :
    s.Honoured (deliverAll env db order) ↔
      s.credits = 0 ∨ (0 < s.credits ∧ FitsI32 (o.creditsBalance + s.credits)
        ∧ [s.checkout, s.paid].Sublist order) := by
  obtain ⟨pre, post, rfl, hperm⟩ := exists_split h
  have hcheckout : s.checkout ∉ pre := fun hmem =>
    checkout_ne (by simpa using hperm.mem_iff.mp (List.mem_append_left post hmem)) rfl
  rw [pair_sublist_iff hcheckout]
  have hpaid : s.paid ∈ pre ++ post := hperm.mem_iff.mpr (by simp)
  obtain hbefore | hafter := List.mem_append.mp hpaid
  · have hpost : s.paid ∉ post := by
      intro hmem
      obtain ⟨l, l', rfl⟩ := List.append_of_mem hbefore
      rw [List.append_assoc, List.cons_append] at hperm
      have htype := (mem_rest (e := s.paid) hperm (by simp [hmem])).imp (congrArg Event.type)
        (congrArg Event.type)
      simp [s.paid_type, s.finalized_type, s.updated_type] at htype
    rw [(linked_of_paid_before hbefore hperm).honoured_iff]
    simp only [hpost, and_false, or_false]
    omega
  · rw [(linked_of_paid_after hafter hperm).honoured_iff, FirstSubscription.paidCredits]
    simp only [hafter, and_true]
    split_ifs with hif
    · simp [hif]
    · rw [or_iff_left hif]
      omega

/-! ## A first subscription -/

/-- Prices for both plans, and one organisation's identifier. -/
def sampleEnv : Env where
  orgCfg :=
    { businessMonthlyPriceId := "price_bm", businessAnnualPriceId := "price_ba"
      enterpriseMonthlyPriceId := "price_em", enterpriseAnnualPriceId := "price_ea"
      businessMonthlyCredits := 1000, enterpriseMonthlyCredits := 5000 }
  parseUuid text :=
    if text = "00000000-0000-0000-0000-000000000001" then some 1 else none
  fromTimestamp seconds := some (seconds * 1000000)

/-- An organisation that never paid. -/
def sampleOrg : Organization where
  id := 1
  creditsBalance := 10
  stripeCustomerId := none
  stripeSubscriptionId := none
  plan := "business"
  subscriptionInterval := none
  subscriptionStatus := .none
  currentPeriodEnd := none
  cancelAtPeriodEnd := false

/-- Its tables. -/
def sampleDb : Tables := { organizations := [sampleOrg], transactions := [], stripeEvents := [] }

/-- The checkout of an annual plan. -/
def sampleCheckout : Event where
  id := "evt_checkout"
  type := "checkout.session.completed"
  object := .obj
    [("mode", .str "subscription"), ("customer", .str "cus_1"), ("subscription", .str "sub_1"),
      ("client_reference_id", .str "00000000-0000-0000-0000-000000000001"),
      ("metadata", .obj
        [("org_id", .str "00000000-0000-0000-0000-000000000001"), ("plan", .str "enterprise"),
          ("interval", .str "year")])]

/-- The invoice of the plan. -/
def sampleInvoice : Json := .obj
  [("customer", .str "cus_1"),
    ("lines", .obj [("data", .arr [.obj
      [("pricing", .obj [("price_details", .obj [("price", .str "price_ea")])]),
        ("period", .obj [("end", .int 1798761600)])]])])]

/-- The subscription's own report. -/
def sampleUpdated : Event where
  id := "evt_updated"
  type := "customer.subscription.updated"
  object := .obj
    [("id", .str "sub_1"), ("status", .str "active"), ("cancel_at_period_end", .bool false),
      ("current_period_end", .int 1798761600)]

/-- A first subscription to the annual plan. -/
def sampleFirst : FirstSubscription sampleEnv sampleDb sampleOrg where
  plan := "enterprise"
  interval := "year"
  customer := "cus_1"
  subscription := "sub_1"
  checkout := sampleCheckout
  finalized := { id := "evt_finalized", type := "invoice.finalized", object := sampleInvoice }
  paid := { id := "evt_paid", type := "invoice.payment_succeeded", object := sampleInvoice }
  updated := sampleUpdated
  found := rfl
  unlinked := rfl
  customer_new := by decide
  checkout_type := rfl
  checkout_mode := rfl
  checkout_org := by decide
  checkout_customer := rfl
  checkout_subscription := rfl
  checkout_plan := rfl
  checkout_interval := rfl
  finalized_type := rfl
  finalized_customer := rfl
  paid_type := rfl
  paid_customer := rfl
  paid_plan := by decide +kernel
  paid_new := by decide
  updated_type := rfl
  updated_subscription := rfl
  updated_status := rfl

/-- Delivered in the order of the events, it is honoured. -/
theorem firstSubscription_honoured_sample :
    sampleFirst.Honoured (deliverAll sampleEnv sampleDb sampleFirst.events) := by
  refine (firstSubscription_honoured_iff sampleFirst (.refl _)).mpr (.inr ⟨?_, ?_, ?_⟩)
  · decide +kernel
  · decide +kernel
  · exact .cons_cons _ (.cons _ (.cons_cons _ (List.nil_sublist _)))

/-- Delivered with the paid invoice first, it leaves the organisation without its credits. -/
theorem paid_before_checkout_not_honoured :
    [sampleFirst.paid, sampleFirst.checkout, sampleFirst.finalized, sampleFirst.updated].Perm
        sampleFirst.events ∧
      ¬ sampleFirst.Honoured (deliverAll sampleEnv sampleDb
        [sampleFirst.paid, sampleFirst.checkout, sampleFirst.finalized, sampleFirst.updated]) := by
  constructor
  · exact (List.Perm.swap _ _ _).trans ((List.Perm.swap _ _ _).cons _)
  · decide +kernel

end VoxTranslate.Business.Billing
