import VoxTranslate.Lib.Place
import VoxTranslate.Lib.Run
import VoxTranslate.Voip.Numbers

/-!
# Buying a number (`numbers.rs`)

A request asks for a number under a purchase key of its own making.  The server looks the key
up, asks the carrier for the price, buys the number from the carrier, and then charges the
setup fee and inserts the row in one transaction.  Where the credits are short it gives the
number back to the carrier; where the transaction fails in any other way it does not.

The module follows the requests of one organisation.  Each statement or transaction and each
call to the carrier is one step.
-/

namespace VoxTranslate.Voip

open Lib Business

/-! ## Offers and numbers -/

/-- What is added to the carrier's price of a number. -/
structure NumberMarkupPolicy where
  markup : ℚ
  markup_nonneg : 0 ≤ markup

def NumberMarkupPolicy.customerPrice (policy : NumberMarkupPolicy) (providerCost : Usd) :
    Option Usd :=
  if providerCost < 0 then none else some (roundUp (providerCost * (1 + policy.markup)) moneyDp)

/-- A number on offer. -/
structure NumberOffer where
  e164 : String
  monthlyCost : Usd
  setupCost : Usd

/-- A number the carrier sold, which it does not call given back. -/
structure PurchasedNumber where
  providerNumberId : String
  status : NumberStatus
  regulatoryRequirement : Option String
  subOrderId : Option String
  status_ne : status ≠ .released
  deriving DecidableEq, Repr

namespace PurchasedNumber

/-- The status of the row. -/
def rowStatus (n : PurchasedNumber) : NumberStatus :=
  if n.regulatoryRequirement.isSome then .pendingRegulatory else n.status

/-- `initial_regulatory_check_at`. -/
def initialRegulatoryCheckAt (n : PurchasedNumber) (now : Timestamp) : Option Timestamp :=
  if n.rowStatus = .pendingRegulatory ∧ n.subOrderId.isSome then some (now + seconds (2 * 60))
  else none

lemma rowStatus_ne (n : PurchasedNumber) : n.rowStatus ≠ .released := by
  rw [rowStatus]
  split_ifs
  · decide
  · exact n.status_ne

end PurchasedNumber

/-- The numbers the carrier sold and did not get back, by the idempotency key of the sale. -/
structure Carrier where
  sold : List (String × PurchasedNumber)
  keys : (sold.map Prod.fst).Nodup
  deriving DecidableEq, Repr

namespace Carrier

lemma keys_cons {c : Carrier} {key : String} (h : c.sold.lookup key = none) :
    (key :: c.sold.map Prod.fst).Nodup := by
  refine List.nodup_cons.mpr ⟨fun hmem => ?_, c.keys⟩
  obtain ⟨e, he, rfl⟩ := List.mem_map.mp hmem
  simpa using List.lookup_eq_none_iff.mp h e he

/-- `purchase_number`: a key buys once, and is answered with what it bought. -/
def purchase (c : Carrier) (key : String) (answer : PurchasedNumber) : PurchasedNumber × Carrier :=
  match h : c.sold.lookup key with
  | some number => (number, c)
  | none => (answer, ⟨(key, answer) :: c.sold, keys_cons h⟩)

/-- `release_number`. -/
def release (c : Carrier) (id : String) : Carrier where
  sold := c.sold.filter fun e => e.2.providerNumberId ≠ id
  keys := c.keys.sublist (List.filter_sublist.map _)

/-- The carrier holds the number for us. -/
def Has (c : Carrier) (id : String) : Prop := ∃ e ∈ c.sold, e.2.providerNumberId = id

variable {c : Carrier} {key id id' : String} {answer : PurchasedNumber}

/-- The number a purchase answers with stands under its key, with what stood there before. -/
lemma purchase_spec (c : Carrier) (key : String) (answer : PurchasedNumber) :
    (key, (c.purchase key answer).1) ∈ (c.purchase key answer).2.sold ∧
    (∀ e ∈ c.sold, e ∈ (c.purchase key answer).2.sold) ∧
    ∀ e ∈ (c.purchase key answer).2.sold, e ∈ c.sold ∨ e = (key, (c.purchase key answer).1) := by
  rw [purchase]
  split
  next number h =>
    obtain ⟨l₁, l₂, heq, -⟩ := List.lookup_eq_some_iff.mp h
    refine ⟨?_, fun e he => he, fun e he => .inl he⟩
    show (key, number) ∈ c.sold
    rw [heq]
    exact List.mem_append_right _ List.mem_cons_self
  next h =>
    refine ⟨List.mem_cons_self, fun e he => List.mem_cons_of_mem _ he, fun e he => ?_⟩
    obtain rfl | he := List.mem_cons.mp he
    · exact .inr rfl
    · exact .inl he

lemma has_release : (c.release id).Has id' ↔ c.Has id' ∧ id' ≠ id := by
  constructor
  · rintro ⟨e, he, rfl⟩
    obtain ⟨he, hne⟩ := List.mem_filter.mp he
    exact ⟨⟨e, he, rfl⟩, by simpa using hne⟩
  · rintro ⟨⟨e, he, rfl⟩, hne⟩
    exact ⟨e, List.mem_filter.mpr ⟨he, by simpa using hne⟩, rfl⟩

end Carrier

/-! ## Requests -/

/-- What a request asks for: the number as it was written, as it reads, and as the ledger
shows it. -/
structure BuyBody where
  e164 : String
  dest : String
  masked : String
  purchaseKey : String
  userId : Uuid
  deriving DecidableEq, Repr

/-- What the customer pays. -/
structure NumberPrice where
  monthly : Usd
  setup : Usd
  deriving DecidableEq, Repr

/-- How a request ended. -/
inductive BuyOutcome where
  /-- The key had bought this number already. -/
  | existing (id : Uuid)
  /-- Nothing was bought. -/
  | refused
  /-- The credits were short. -/
  | insufficientCredits
  /-- An error of the database, after the carrier had sold the number. -/
  | failed
  | created (charge : Int)
  deriving DecidableEq, Repr

/-- How far a request is. -/
inductive BuyStage where
  | arrived
  /-- No row has the key. -/
  | unknownKey
  | priced (price : NumberPrice)
  | bought (price : NumberPrice) (number : PurchasedNumber)
  /-- The number is to be given back. -/
  | unpaid (number : PurchasedNumber)
  | ended (outcome : BuyOutcome)
  deriving DecidableEq, Repr

/-- The number the request bought and neither recorded nor gave back. -/
def BuyStage.held : BuyStage → Option PurchasedNumber
  | .bought _ number | .unpaid number => some number
  | _ => none

/-- What the organisation was charged. -/
def BuyStage.charge : BuyStage → Int
  | .ended (.created charge) => charge
  | _ => 0

def BuyStage.isCreated : BuyStage → Bool
  | .ended (.created _) => true
  | _ => false

lemma BuyStage.charge_of_not_created {stage : BuyStage} (h : stage.isCreated = false) :
    stage.charge = 0 := by
  cases stage with
  | ended outcome =>
    cases outcome with
    | created charge => cases h
    | _ => rfl
  | _ => rfl

structure BuyRequest where
  body : BuyBody
  stage : BuyStage
  deriving DecidableEq, Repr

namespace BuyRequest

/-- `KIND_PURCHASE`. -/
def kindPurchase : String := "voip_number_purchase"

/-- The row of `buy`; the columns it does not name take their defaults. -/
def row (org : Uuid) (body : BuyBody) (price : NumberPrice) (number : PurchasedNumber) (id : Uuid)
    (now : Timestamp) : NumberRow where
  id := id
  orgId := org
  providerNumberId := some number.providerNumberId
  e164 := body.dest
  inboundEnabled := false
  outboundEnabled := number.rowStatus = .active
  isDefault := false
  status := number.rowStatus
  statusReason := number.regulatoryRequirement
  customerMonthlyUsd := some price.monthly
  purchaseKey := some body.purchaseKey
  nextRenewalAt := some (now + days 30)
  suspendedAt := none
  regulatoryRequirement := number.regulatoryRequirement
  providerSubOrderId := number.subOrderId
  regulatoryFailures := 0
  regulatoryNextCheckAt := number.initialRegulatoryCheckAt now

/-- `offer_for` and the customer's prices. -/
def quote (policy : NumberMarkupPolicy) (body : BuyBody) (offers : List NumberOffer) :
    Option NumberPrice := do
  let offer ← offers.find? fun o => o.e164 = body.e164
  let monthly ← policy.customerPrice offer.monthlyCost
  let setup ← policy.customerPrice offer.setupCost
  return ⟨monthly, setup⟩

end BuyRequest

/-! ## The system -/

/-- The tables and the carrier, with the requests of one organisation. -/
structure Shop where
  credits : Credits
  numbers : List NumberRow
  carrier : Carrier
  requests : List BuyRequest
  deriving DecidableEq, Repr

/-- A request is named by its place.  The search and the purchase carry what the carrier
answers, `none` for an error; a flag says whether the database or the carrier does its part. -/
inductive ShopAction where
  | arrive (body : BuyBody)
  | lookup (i : Nat) (dbOk : Bool)
  | search (i : Nat) (offers : Option (List NumberOffer))
  | purchase (i : Nat) (answer : Option PurchasedNumber)
  | transact (i : Nat) (id : Uuid) (now : Timestamp) (dbOk : Bool)
  | giveBack (i : Nat) (carrierOk : Bool)

namespace Shop

/-- A row of the organisation with the key. -/
def keyTaken (numbers : List NumberRow) (org : Uuid) (key : String) : Option NumberRow :=
  numbers.find? fun row => row.orgId = org && row.purchaseKey = some key

/-- The unique indexes refuse the row. -/
def isTaken (numbers : List NumberRow) (org : Uuid) (body : BuyBody) : Bool :=
  numbers.any fun row =>
    row.e164 = body.dest || (row.orgId = org && row.purchaseKey = some body.purchaseKey)

/-- The credits do not cover the setup fee. -/
def isShort (s : Shop) (org : Uuid) (price : NumberPrice) : Bool :=
  (s.credits.balance org).any fun balance =>
    0 < creditsCeil price.setup && balance < creditsCeil price.setup

def setStage (s : Shop) (i : Nat) (body : BuyBody) (stage : BuyStage) : Shop :=
  { s with requests := s.requests.set i ⟨body, stage⟩ }

/-- The first statement: has the key bought already? -/
def lookupBy (s : Shop) (org : Uuid) (body : BuyBody) (dbOk : Bool) : BuyStage :=
  if dbOk then
    match keyTaken s.numbers org body.purchaseKey with
    | some row => .ended (.existing row.id)
    | none => .unknownKey
  else .ended .refused

/-- The charge of the transaction. -/
def charge (s : Shop) (org : Uuid) (body : BuyBody) (price : NumberPrice) :
    Option (OrgCharge × Credits) :=
  chargeTx s.credits org (creditsCeil price.setup) BuyRequest.kindPurchase (some body.userId)
    body.masked

/-- The tables after the transaction. -/
def record (s : Shop) (org : Uuid) (body : BuyBody) (price : NumberPrice)
    (number : PurchasedNumber) (id : Uuid) (now : Timestamp) (credits : Credits) : Shop :=
  { s with
    credits := credits, numbers := BuyRequest.row org body price number id now :: s.numbers }

/-- The transaction: the charge and the insert, or neither. -/
def transactBy (s : Shop) (org : Uuid) (i : Nat) (body : BuyBody) (price : NumberPrice)
    (number : PurchasedNumber) (id : Uuid) (now : Timestamp) (dbOk : Bool) : Shop :=
  if dbOk then
    match s.charge org body price with
    | some (.charged _, credits) =>
      if isTaken s.numbers org body then s.setStage i body (.ended .failed)
      else
        (s.record org body price number id now credits).setStage i body
          (.ended (.created (creditsCeil price.setup)))
    | some (.insufficient _ _, _) => s.setStage i body (.unpaid number)
    | none => s.setStage i body (.ended .failed)
  else s.setStage i body (.ended .failed)

/-- The purchase at the carrier. -/
def purchaseBy (s : Shop) (i : Nat) (body : BuyBody) (price : NumberPrice)
    (answer : Option PurchasedNumber) : Shop :=
  match answer with
  | none => s.setStage i body (.ended .refused)
  | some answer =>
    let (number, carrier) := s.carrier.purchase body.purchaseKey answer
    { s with carrier := carrier }.setStage i body (.bought price number)

/-- The release at the carrier, whose failure is ignored. -/
def giveBackBy (s : Shop) (i : Nat) (body : BuyBody) (number : PurchasedNumber)
    (carrierOk : Bool) : Shop :=
  { s with
    carrier := if carrierOk then s.carrier.release number.providerNumberId else s.carrier }.setStage
    i body (.ended .insufficientCredits)

/-- One step of `buy` for organisation `org`, refused where the request is not at that
point. -/
def step (org : Uuid) (policy : NumberMarkupPolicy) (s : Shop) : ShopAction → Option Shop
  | .arrive body => some { s with requests := s.requests ++ [⟨body, .arrived⟩] }
  | .lookup i dbOk => do
    let r ← s.requests[i]?
    match r.stage with
    | .arrived => some (s.setStage i r.body (s.lookupBy org r.body dbOk))
    | _ => none
  | .search i offers => do
    let r ← s.requests[i]?
    match r.stage with
    | .unknownKey =>
      some (s.setStage i r.body (match offers.bind (BuyRequest.quote policy r.body) with
        | some price => .priced price
        | none => .ended .refused))
    | _ => none
  | .purchase i answer => do
    let r ← s.requests[i]?
    match r.stage with
    | .priced price => some (s.purchaseBy i r.body price answer)
    | _ => none
  | .transact i id now dbOk => do
    let r ← s.requests[i]?
    match r.stage with
    | .bought price number => some (s.transactBy org i r.body price number id now dbOk)
    | _ => none
  | .giveBack i carrierOk => do
    let r ← s.requests[i]?
    match r.stage with
    | .unpaid number => some (s.giveBackBy i r.body number carrierOk)
    | _ => none

/-! ## The law -/

/-- The number stands in the table as owned. -/
def Recorded (s : Shop) (id : String) : Prop :=
  ∃ row ∈ s.numbers, row.providerNumberId = some id ∧ row.status ≠ .released

/-- Request `i` holds the number. -/
def Holds (s : Shop) (i : Nat) (id : String) : Prop :=
  ∃ r n, s.requests[i]? = some r ∧ r.stage.held = some n ∧ n.providerNumberId = id

/-- The carrier holds for us what the table records. -/
def Balanced (s : Shop) : Prop := ∀ id, s.carrier.Has id ↔ s.Recorded id

/-- The rows of the organisation have keys of their own. -/
def KeysUnique (s : Shop) (org : Uuid) : Prop :=
  ∀ row ∈ s.numbers, ∀ row' ∈ s.numbers, row.orgId = org → row'.orgId = org →
    row.purchaseKey.isSome → row.purchaseKey = row'.purchaseKey → row = row'

/-- What the requests were charged. -/
def spent (s : Shop) : Int := (s.requests.map fun r => r.stage.charge).sum

/-- What buying a number from state `s₀` on promises of a later state. -/
structure Law (org : Uuid) (s₀ s : Shop) : Prop where
  /-- A key is charged once, and not for a number it had bought before. -/
  chargedOnce : ∀ (i j : Nat) (r r' : BuyRequest), s.requests[i]? = some r →
    s.requests[j]? = some r' → r.stage.isCreated = true → r'.stage.isCreated = true →
    r.body.purchaseKey = r'.body.purchaseKey → i = j
  notBefore : ∀ r ∈ s.requests, r.stage.isCreated = true →
    keyTaken s₀.numbers org r.body.purchaseKey = none
  /-- The pool pays for these charges and nothing else. -/
  paid : s.credits.balance org = (s₀.credits.balance org).map fun b => b - s.spent
  /-- A key buys one number. -/
  boughtOnce : s.KeysUnique org
  /-- What is recorded is not given back. -/
  kept : ∀ id, s.Recorded id → s.carrier.Has id
  /-- Nothing is bought and lost. -/
  settled : (∀ r ∈ s.requests, r.stage.held = none) → s.Balanced

/-- The number is recorded, or another request holds it. -/
def keptWithout (s : Shop) (i : Nat) (id : String) : Bool :=
  (s.numbers.any fun row => row.providerNumberId = some id && row.status ≠ .released) ||
  (List.range s.requests.length).any fun j =>
    j ≠ i && (s.requests[j]?.bind fun r => r.stage.held).any fun n => n.providerNumberId = id

/-- The transaction charges and inserts, or finds the credits short. -/
def goesThrough (s : Shop) (org : Uuid) (body : BuyBody) (price : NumberPrice) (dbOk : Bool) :
    Bool :=
  dbOk && ((s.credits.balance org).isSome || creditsCeil price.setup ≤ 0) &&
    (s.isShort org price || !isTaken s.numbers org body)

/-- A transaction fails only where the number is kept without its request, and a number is
given back exactly where it is not. -/
def careful (s : Shop) (org : Uuid) : ShopAction → Bool
  | .transact i _ _ dbOk =>
    match s.requests[i]? with
    | some ⟨body, .bought price number⟩ =>
      s.goesThrough org body price dbOk || s.keptWithout i number.providerNumberId
    | _ => true
  | .giveBack i carrierOk =>
    match s.requests[i]? with
    | some ⟨_, .unpaid number⟩ => carrierOk != s.keptWithout i number.providerNumberId
    | _ => true
  | _ => true

/-! ### The invariant -/

variable {org : Uuid} {policy : NumberMarkupPolicy} {s₀ s t : Shop} {i j : Nat} {body : BuyBody}
  {stage : BuyStage} {id : String} {r : BuyRequest}

lemma keptWithout_iff : s.keptWithout i id = true ↔ s.Recorded id ∨ ∃ j, j ≠ i ∧ s.Holds j id := by
  rw [keptWithout, Bool.or_eq_true]
  refine or_congr ?_ ?_
  · simp [Recorded]
  · rw [List.any_eq_true]
    constructor
    · rintro ⟨j, -, hj⟩
      rw [Bool.and_eq_true, decide_eq_true_eq, Option.any_eq_true] at hj
      obtain ⟨hne, n, hn, hid⟩ := hj
      obtain ⟨r, hr, hheld⟩ := Option.bind_eq_some_iff.mp hn
      exact ⟨j, hne, r, n, hr, hheld, by simpa using hid⟩
    · rintro ⟨j, hne, r, n, hr, hheld, hid⟩
      refine ⟨j, List.mem_range.mpr (List.getElem?_eq_some_iff.mp hr).1, ?_⟩
      simp [hne, hr, hheld, hid]

/-- What the carrier holds is recorded or held by a request, and both are the carrier's; a
charged request has its row. -/
structure Inv (org : Uuid) (s₀ s : Shop) : Prop where
  kept : ∀ id, s.Recorded id → s.carrier.Has id
  held : ∀ i id, s.Holds i id → s.carrier.Has id
  covered : ∀ id, s.carrier.Has id → s.Recorded id ∨ ∃ i, s.Holds i id
  keys : s.KeysUnique org
  older : ∀ row ∈ s₀.numbers, row ∈ s.numbers
  created : ∀ (i : Nat) (r : BuyRequest), s.requests[i]? = some r → r.stage.isCreated = true →
    keyTaken s₀.numbers org r.body.purchaseKey = none ∧
    (keyTaken s.numbers org r.body.purchaseKey).isSome
  once : ∀ (i j : Nat) (r r' : BuyRequest), s.requests[i]? = some r →
    s.requests[j]? = some r' → r.stage.isCreated = true → r'.stage.isCreated = true →
    r.body.purchaseKey = r'.body.purchaseKey → i = j
  paid : s.credits.balance org = (s₀.credits.balance org).map fun b => b - s.spent
  range : ∀ b, s.credits.balance org = some b → b ≤ i32Max

lemma getElem?_setStage (h : (s.setStage i body stage).requests[j]? = some r) :
    (j = i ∧ r = ⟨body, stage⟩) ∨ (j ≠ i ∧ s.requests[j]? = some r) :=
  Place.getElem?_set_cases h

/-- Who holds a number after request `i` moved. -/
lemma holds_setStage (hr : s.requests[i]? = some r) : (s.setStage i body stage).Holds j id ↔
    (j = i ∧ ∃ n, stage.held = some n ∧ n.providerNumberId = id) ∨ (j ≠ i ∧ s.Holds j id) := by
  constructor
  · rintro ⟨r', n, hr', hheld, hid⟩
    obtain ⟨rfl, rfl⟩ | ⟨hne, hold⟩ := getElem?_setStage hr'
    · exact .inl ⟨rfl, n, hheld, hid⟩
    · exact .inr ⟨hne, r', n, hold, hheld, hid⟩
  · rintro (⟨rfl, n, hheld, hid⟩ | ⟨hne, r', n, hr', hheld, hid⟩)
    · exact ⟨⟨body, stage⟩, n, Place.getElem?_set_here hr, hheld, hid⟩
    · exact ⟨r', n, (List.getElem?_set_ne (Ne.symm hne)).trans hr', hheld, hid⟩

/-- A request that arrives holds nothing. -/
lemma holds_arrive : Holds { s with requests := s.requests ++ [⟨body, .arrived⟩] } i id ↔
    s.Holds i id := by
  constructor
  · rintro ⟨r, n, hr, hheld, hid⟩
    obtain ⟨-, rfl⟩ | hr := Place.getElem?_concat_cases hr
    · cases hheld
    · exact ⟨r, n, hr, hheld, hid⟩
  · rintro ⟨r, n, hr, hheld, hid⟩
    exact ⟨r, n, Place.getElem?_concat_of_some hr, hheld, hid⟩

/-- What the requests were charged after request `i` moved. -/
lemma spent_setStage (hr : s.requests[i]? = some r) :
    (s.setStage i body stage).spent = s.spent - r.stage.charge + stage.charge :=
  Place.sum_map_set hr fun r => r.stage.charge

lemma keyTaken_eq_none {numbers : List NumberRow} {key : String} :
    keyTaken numbers org key = none ↔
      ∀ row ∈ numbers, row.orgId = org → row.purchaseKey ≠ some key := by
  simp [keyTaken]

lemma keyTaken_isSome {numbers : List NumberRow} {key : String} :
    (keyTaken numbers org key).isSome ↔
      ∃ row ∈ numbers, row.orgId = org ∧ row.purchaseKey = some key := by
  simp [keyTaken]

lemma not_isTaken {numbers : List NumberRow} (h : isTaken numbers org body = false) :
    ∀ row ∈ numbers, row.orgId = org → row.purchaseKey ≠ some body.purchaseKey := by
  intro row hrow horg hkey
  have hrow' := List.any_eq_false.mp h row hrow
  simp [horg, hkey] at hrow'

namespace Inv

variable {price : NumberPrice} {number : PurchasedNumber}

/-- A request arrives. -/
lemma arrive (hI : Inv org s₀ s) (body : BuyBody) :
    Inv org s₀ { s with requests := s.requests ++ [⟨body, .arrived⟩] } where
  kept := hI.kept
  held := fun i id hi => hI.held i id (holds_arrive.mp hi)
  covered := fun id hid =>
    (hI.covered id hid).imp_right fun ⟨i, hi⟩ => ⟨i, holds_arrive.mpr hi⟩
  keys := hI.keys
  older := hI.older
  created := by
    intro i r hr hc
    obtain ⟨-, rfl⟩ | hr := Place.getElem?_concat_cases hr
    · cases hc
    · exact hI.created i r hr hc
  once := by
    intro i j r r' hr hr' hc hc' hkey
    obtain ⟨-, rfl⟩ | hr := Place.getElem?_concat_cases hr
    · cases hc
    obtain ⟨-, rfl⟩ | hr' := Place.getElem?_concat_cases hr'
    · cases hc'
    exact hI.once i j r r' hr hr' hc hc' hkey
  paid := by
    have hspent : spent { s with requests := s.requests ++ [⟨body, .arrived⟩] } = s.spent := by
      simp [spent, BuyStage.charge]
    rw [hspent]
    exact hI.paid
  range := hI.range

/-- A request moves to a stage in which nothing is charged, over a carrier that holds what is
recorded or held and nothing else. -/
lemma move (hI : Inv org s₀ s) (hr : s.requests[i]? = some r) {c : Carrier}
    (hcharge : r.stage.charge = 0) (hcreated : stage.isCreated = false)
    (hkept : ∀ id, s.Recorded id → c.Has id) (hothers : ∀ j ≠ i, ∀ id, s.Holds j id → c.Has id)
    (hmine : ∀ n, stage.held = some n → c.Has n.providerNumberId)
    (hcovered : ∀ id, c.Has id → s.Recorded id ∨ (∃ j, j ≠ i ∧ s.Holds j id) ∨
      ∃ n, stage.held = some n ∧ n.providerNumberId = id) :
    Inv org s₀ ({ s with carrier := c }.setStage i r.body stage) where
  kept := hkept
  held := by
    intro j id hholds
    obtain ⟨-, n, hn, rfl⟩ | ⟨hne, hold⟩ :=
      (holds_setStage (s := { s with carrier := c }) hr).mp hholds
    · exact hmine n hn
    · exact hothers j hne id hold
  covered := by
    intro id hid
    obtain hrec | ⟨j, hne, hold⟩ | hn := hcovered id hid
    · exact .inl hrec
    · exact .inr ⟨j, (holds_setStage (s := { s with carrier := c }) hr).mpr (.inr ⟨hne, hold⟩)⟩
    · exact .inr ⟨i, (holds_setStage (s := { s with carrier := c }) hr).mpr (.inl ⟨rfl, hn⟩)⟩
  keys := hI.keys
  older := hI.older
  created := by
    intro j r' hr' hc
    obtain ⟨-, rfl⟩ | ⟨-, hold⟩ := getElem?_setStage hr'
    · rw [hcreated] at hc
      cases hc
    · exact hI.created j r' hold hc
  once := by
    intro j k r₁ r₂ h₁ h₂ hc₁ hc₂ hkey
    obtain ⟨-, rfl⟩ | ⟨-, hold₁⟩ := getElem?_setStage h₁
    · rw [hcreated] at hc₁
      cases hc₁
    obtain ⟨-, rfl⟩ | ⟨-, hold₂⟩ := getElem?_setStage h₂
    · rw [hcreated] at hc₂
      cases hc₂
    exact hI.once j k r₁ r₂ hold₁ hold₂ hc₁ hc₂ hkey
  paid := by
    have hspent : ({ s with carrier := c }.setStage i r.body stage).spent = s.spent := by
      rw [spent_setStage (s := { s with carrier := c }) hr, hcharge,
        BuyStage.charge_of_not_created hcreated, add_zero, sub_zero]
      rfl
    rw [hspent]
    exact hI.paid
  range := hI.range

/-- What the carrier holds is recorded, held by another request, or held by this one. -/
lemma covered_cases (hI : Inv org s₀ s) (hr : s.requests[i]? = some r)
    (h : s.carrier.Has id) : s.Recorded id ∨ (∃ j, j ≠ i ∧ s.Holds j id) ∨
      ∃ n, r.stage.held = some n ∧ n.providerNumberId = id := by
  obtain hrec | ⟨j, hj⟩ := hI.covered id h
  · exact .inl hrec
  · by_cases hji : j = i
    · subst hji
      obtain ⟨r', n, hr', hheld, hid⟩ := hj
      cases hr.symm.trans hr'
      exact .inr (.inr ⟨n, hheld, hid⟩)
    · exact .inr (.inl ⟨j, hji, hj⟩)

/-- A request gives up what it holds, if anything, where that is kept without it. -/
lemma drop (hI : Inv org s₀ s) (hr : s.requests[i]? = some r) (hcharge : r.stage.charge = 0)
    (hcreated : stage.isCreated = false) (hnew : stage.held = none)
    (hkept : ∀ n, r.stage.held = some n → s.keptWithout i n.providerNumberId = true) :
    Inv org s₀ (s.setStage i r.body stage) := by
  refine hI.move hr hcharge hcreated hI.kept (fun j _ => hI.held j) (by simp [hnew]) ?_
  intro id hid
  obtain hrec | hother | ⟨n, hn, rfl⟩ := hI.covered_cases hr hid
  · exact .inl hrec
  · exact .inr (.inl hother)
  · obtain hrec | hother := keptWithout_iff.mp (hkept n hn)
    · exact .inl hrec
    · exact .inr (.inl hother)

/-- The number of a purchase is the request's. -/
lemma buy (hI : Inv org s₀ s) (hr : s.requests[i]? = some r) (hcharge : r.stage.charge = 0)
    (hold : r.stage.held = none) (answer : PurchasedNumber) :
    Inv org s₀ (s.purchaseBy i r.body price (some answer)) := by
  obtain ⟨hmine, hgrow, hnew⟩ := s.carrier.purchase_spec r.body.purchaseKey answer
  have hhas : ∀ id, s.carrier.Has id → (s.carrier.purchase r.body.purchaseKey answer).2.Has id :=
    fun id ⟨e, he, hid⟩ => ⟨e, hgrow e he, hid⟩
  refine hI.move hr hcharge rfl (fun id hid => hhas id (hI.kept id hid))
    (fun j _ id hj => hhas id (hI.held j id hj)) ?_ ?_
  · intro n hn
    cases hn
    exact ⟨_, hmine, rfl⟩
  · rintro id ⟨e, he, rfl⟩
    obtain he | rfl := hnew e he
    · obtain hrec | hother | ⟨n, hn, -⟩ := hI.covered_cases hr ⟨e, he, rfl⟩
      · exact .inl hrec
      · exact .inr (.inl hother)
      · rw [hold] at hn
        cases hn
    · exact .inr (.inr ⟨_, rfl, rfl⟩)

/-- A request that found the credits short still holds its number. -/
lemma refuse (hI : Inv org s₀ s) (hr : s.requests[i]? = some r)
    (hstage : r.stage = .bought price number) :
    Inv org s₀ (s.setStage i r.body (.unpaid number)) := by
  have hheld : r.stage.held = some number := by rw [hstage, BuyStage.held]
  refine hI.move hr (by rw [hstage, BuyStage.charge]; simp) rfl hI.kept (fun j _ => hI.held j) ?_ ?_
  · intro n hn
    cases hn
    exact hI.held i _ ⟨r, number, hr, hheld, rfl⟩
  · intro id hid
    obtain hrec | hother | ⟨n, hn, rfl⟩ := hI.covered_cases hr hid
    · exact .inl hrec
    · exact .inr (.inl hother)
    · exact .inr (.inr ⟨n, hheld.symm.trans hn, rfl⟩)

/-- A number that nobody else keeps is given back. -/
lemma release (hI : Inv org s₀ s) (hr : s.requests[i]? = some r)
    (hstage : r.stage = .unpaid number)
    (hkept : s.keptWithout i number.providerNumberId = false) :
    Inv org s₀ (s.giveBackBy i r.body number true) := by
  have hnot : ¬ (s.Recorded number.providerNumberId ∨
      ∃ j, j ≠ i ∧ s.Holds j number.providerNumberId) := by
    rw [← keptWithout_iff, hkept]
    exact Bool.false_ne_true
  refine hI.move hr (by rw [hstage]; rfl) rfl ?_ ?_ (fun n hn => by cases hn) ?_
  · intro id hrec
    refine Carrier.has_release.mpr ⟨hI.kept id hrec, ?_⟩
    rintro rfl
    exact hnot (.inl hrec)
  · intro j hj id hholds
    refine Carrier.has_release.mpr ⟨hI.held j id hholds, ?_⟩
    rintro rfl
    exact hnot (.inr ⟨j, hj, hholds⟩)
  · intro id hid
    obtain ⟨hid, hne⟩ := Carrier.has_release.mp hid
    obtain hrec | hother | ⟨n, hn, rfl⟩ := hI.covered_cases hr hid
    · exact .inl hrec
    · exact .inr (.inl hother)
    · rw [hstage] at hn
      cases hn
      exact absurd rfl hne

/-- The row of a request that was charged refuses another of its key. -/
lemma purchaseKey_ne (hI : Inv org s₀ s) (hr : s.requests[i]? = some r)
    (hcreated : r.stage.isCreated = true) (hfree : isTaken s.numbers org body = false) :
    r.body.purchaseKey ≠ body.purchaseKey := by
  intro hkey
  obtain ⟨row, hrow, horg, hrowKey⟩ := keyTaken_isSome.mp (hI.created i r hr hcreated).2
  exact not_isTaken hfree row hrow horg (hrowKey.trans (congrArg some hkey))

/-- The transaction: the row stands, and its price is paid. -/
lemma create (hI : Inv org s₀ s) (hr : s.requests[i]? = some r)
    (hstage : r.stage = .bought price number) (hfree : isTaken s.numbers org r.body = false)
    {credits : Credits}
    (hpaid : credits.balance org = (s.credits.balance org).map fun b => b - creditsCeil price.setup)
    (rowId : Uuid) (now : Timestamp) :
    Inv org s₀ ((s.record org r.body price number rowId now credits).setStage i r.body
      (.ended (.created (creditsCeil price.setup)))) where
  kept := by
    rintro id ⟨row, hrow, hid, hstatus⟩
    obtain rfl | hrow := List.mem_cons.mp hrow
    · cases hid
      exact hI.held i _ ⟨r, number, hr, by rw [hstage]; rfl, rfl⟩
    · exact hI.kept id ⟨row, hrow, hid, hstatus⟩
  held := by
    intro j id hholds
    obtain ⟨-, n, hn, -⟩ | ⟨-, hold⟩ := (holds_setStage hr).mp hholds
    · cases hn
    · exact hI.held j id hold
  covered := by
    intro id hid
    obtain ⟨row, hrow, hrec⟩ | ⟨j, hne, hold⟩ | ⟨n, hn, rfl⟩ := hI.covered_cases hr hid
    · exact .inl ⟨row, List.mem_cons_of_mem _ hrow, hrec⟩
    · exact .inr ⟨j, (holds_setStage hr).mpr (.inr ⟨hne, hold⟩)⟩
    · rw [hstage] at hn
      cases hn
      exact .inl ⟨_, List.mem_cons_self, rfl, number.rowStatus_ne⟩
  keys := by
    intro row hrow row' hrow' horg horg' hsome hkey
    obtain rfl | hrow := List.mem_cons.mp hrow
    · obtain rfl | hrow' := List.mem_cons.mp hrow'
      · rfl
      · exact absurd hkey.symm (not_isTaken hfree row' hrow' horg')
    · obtain rfl | hrow' := List.mem_cons.mp hrow'
      · exact absurd hkey (not_isTaken hfree row hrow horg)
      · exact hI.keys row hrow row' hrow' horg horg' hsome hkey
  older := fun row hrow => List.mem_cons_of_mem _ (hI.older row hrow)
  created := by
    intro j r' hr' hc
    obtain ⟨-, rfl⟩ | ⟨-, hold⟩ := getElem?_setStage hr'
    · refine ⟨keyTaken_eq_none.mpr fun row hrow => not_isTaken hfree row (hI.older row hrow), ?_⟩
      exact keyTaken_isSome.mpr ⟨_, List.mem_cons_self, rfl, rfl⟩
    · obtain ⟨hbefore, hnow⟩ := hI.created j r' hold hc
      obtain ⟨row, hrow, hmine⟩ := keyTaken_isSome.mp hnow
      exact ⟨hbefore, keyTaken_isSome.mpr ⟨row, List.mem_cons_of_mem _ hrow, hmine⟩⟩
  once := by
    intro j k r₁ r₂ h₁ h₂ hc₁ hc₂ hkey
    obtain ⟨rfl, rfl⟩ | ⟨-, hold₁⟩ := getElem?_setStage h₁
    · obtain ⟨rfl, rfl⟩ | ⟨-, hold₂⟩ := getElem?_setStage h₂
      · rfl
      · exact absurd hkey.symm (hI.purchaseKey_ne hold₂ hc₂ hfree)
    · obtain ⟨rfl, rfl⟩ | ⟨-, hold₂⟩ := getElem?_setStage h₂
      · exact absurd hkey (hI.purchaseKey_ne hold₁ hc₁ hfree)
      · exact hI.once j k r₁ r₂ hold₁ hold₂ hc₁ hc₂ hkey
  paid := by
    have hspent : ((s.record org r.body price number rowId now credits).setStage i r.body
        (.ended (.created (creditsCeil price.setup)))).spent =
          s.spent + creditsCeil price.setup := by
      rw [spent_setStage (s := s.record org r.body price number rowId now credits) hr, hstage]
      show s.spent - 0 + _ = _
      rw [sub_zero]
      rfl
    refine hpaid.trans ?_
    rw [hI.paid, Option.map_map, hspent]
    congr 1
    funext b
    show b - s.spent - creditsCeil price.setup = b - (s.spent + creditsCeil price.setup)
    omega
  range := by
    intro b hb
    obtain ⟨b', hb', rfl⟩ := Option.map_eq_some_iff.mp (hpaid.symm.trans hb)
    have hle := hI.range b' hb'
    have hcharge := creditsCeil_nonneg price.setup
    omega

end Inv

/-- A transaction that goes through, or whose number is kept without it. -/
lemma Inv.transact (hI : Inv org s₀ s) {price : NumberPrice} {number : PurchasedNumber}
    (hr : s.requests[i]? = some r) (hstage : r.stage = .bought price number) {dbOk : Bool}
    (hG : (s.goesThrough org r.body price dbOk ||
      s.keptWithout i number.providerNumberId) = true) (rowId : Uuid) (now : Timestamp) :
    Inv org s₀ (s.transactBy org i r.body price number rowId now dbOk) := by
  have hcharge : r.stage.charge = 0 := by rw [hstage]; rfl
  have hfail : s.goesThrough org r.body price dbOk = false →
      Inv org s₀ (s.setStage i r.body (.ended .failed)) := by
    intro hthrough
    rw [hthrough, Bool.false_or] at hG
    refine hI.drop hr hcharge rfl rfl fun n hn => ?_
    rw [hstage] at hn
    cases hn
    exact hG
  rw [transactBy]
  cases dbOk with
  | false => exact hfail rfl
  | true =>
    rw [if_pos rfl]
    obtain ⟨hnone, hb, hpos⟩ | ⟨b, hinsufficient⟩ | ⟨b, credits, hcharged, hcovers, hpaid⟩ :=
      chargeTx_cases hI.range (creditsCeil price.setup) BuyRequest.kindPurchase
        (some r.body.userId) r.body.masked
    · rw [charge, hnone]
      refine hfail ?_
      simp [goesThrough, hb, hpos]
    · rw [charge, hinsufficient]
      exact hI.refuse hr hstage
    · have hshort : s.isShort org price = false := by
        rw [isShort, Option.any_eq_false_iff_get]
        intro hsome
        have hcovered := hcovers _ (Option.some_get hsome).symm
        simpa using hcovered
      rw [max_eq_left (creditsCeil_nonneg price.setup)] at hpaid
      rw [charge, hcharged]
      dsimp only
      split_ifs with htaken
      · refine hfail ?_
        simp [goesThrough, hshort, htaken]
      · exact hI.create hr hstage (by simpa using htaken) hpaid rowId now

/-- A careful step keeps the invariant. -/
lemma Inv.step {a : ShopAction} (hI : Inv org s₀ s) (hG : s.careful org a = true)
    (h : step org policy s a = some t) : Inv org s₀ t := by
  cases a with
  | arrive body =>
    cases h
    exact hI.arrive body
  | lookup i dbOk =>
    obtain ⟨r, hr, h⟩ := Option.bind_eq_some_iff.mp h
    cases hstage : r.stage <;> rw [hstage] at h <;> cases h
    refine hI.drop hr (by rw [hstage]; rfl) ?_ ?_ fun n hn => by rw [hstage] at hn; cases hn
    · rw [lookupBy]
      split_ifs
      · split <;> rfl
      · rfl
    · rw [lookupBy]
      split_ifs
      · split <;> rfl
      · rfl
  | search i offers =>
    obtain ⟨r, hr, h⟩ := Option.bind_eq_some_iff.mp h
    cases hstage : r.stage <;> rw [hstage] at h <;> cases h
    refine hI.drop hr (by rw [hstage]; rfl) ?_ ?_ fun n hn => by rw [hstage] at hn; cases hn
    · split <;> rfl
    · split <;> rfl
  | purchase i answer =>
    obtain ⟨r, hr, h⟩ := Option.bind_eq_some_iff.mp h
    cases hstage : r.stage <;> rw [hstage] at h <;> cases h
    cases answer with
    | none =>
      exact hI.drop hr (by rw [hstage]; rfl) rfl rfl fun n hn => by rw [hstage] at hn; cases hn
    | some answer => exact hI.buy hr (by rw [hstage]; rfl) (by rw [hstage]; rfl) answer
  | transact i id now dbOk =>
    obtain ⟨r, hr, h⟩ := Option.bind_eq_some_iff.mp h
    obtain ⟨body, stage⟩ := r
    cases stage <;> cases h
    rw [careful, hr] at hG
    exact hI.transact hr rfl hG id now
  | giveBack i carrierOk =>
    obtain ⟨r, hr, h⟩ := Option.bind_eq_some_iff.mp h
    obtain ⟨body, stage⟩ := r
    cases stage <;> cases h
    rw [careful, hr, bne_iff_ne] at hG
    cases carrierOk with
    | true => exact hI.release hr rfl (by simpa using hG.symm)
    | false =>
      refine hI.drop hr rfl rfl rfl fun n hn => ?_
      cases hn
      simpa using hG.symm

lemma Inv.start (hquiet : s₀.requests = []) (hbalanced : s₀.Balanced) (hkeys : s₀.KeysUnique org)
    (hrange : ∀ b, s₀.credits.balance org = some b → b ≤ i32Max) : Inv org s₀ s₀ where
  kept := fun id => (hbalanced id).mpr
  held := by
    rintro i id ⟨r, n, hr, -⟩
    rw [hquiet] at hr
    cases hr
  covered := fun id hid => .inl ((hbalanced id).mp hid)
  keys := hkeys
  older := fun row hrow => hrow
  created := by
    intro i r hr
    rw [hquiet] at hr
    cases hr
  once := by
    intro i j r r' hr
    rw [hquiet] at hr
    cases hr
  paid := by simp [spent, hquiet]
  range := hrange

end Shop

/-- In a run whose failures are careful, a key is charged once and buys one number, a recorded
number is not given back, and once every request has ended the carrier holds what the table
records. -/
theorem purchase_atomic_of_run {org : Uuid} {policy : NumberMarkupPolicy} {s₀ s : Shop}
    {as : List ShopAction}
    (h : Run (Guarded (ofPartial (Shop.step org policy)) fun s a => s.careful org a = true) s₀ as s)
    (hquiet : s₀.requests = []) (hbalanced : s₀.Balanced) (hkeys : s₀.KeysUnique org)
    (hrange : ∀ b, s₀.credits.balance org = some b → b ≤ i32Max) : Shop.Law org s₀ s := by
  have hI : Shop.Inv org s₀ s := h.invariant (Shop.Inv org s₀)
    (fun s a _ t hI hst => hI.step hst.1 hst.2) (.start hquiet hbalanced hkeys hrange)
  refine ⟨hI.once, fun r hr hc => ?_, hI.paid, hI.keys, hI.kept, fun hidle id => ⟨fun hid => ?_,
    hI.kept id⟩⟩
  · obtain ⟨i, hi⟩ := List.mem_iff_getElem?.mp hr
    exact (hI.created i r hi hc).1
  · obtain hrec | ⟨i, r, n, hr, hheld, -⟩ := hI.covered id hid
    · exact hrec
    · rw [hidle r (List.mem_of_getElem? hr)] at hheld
      cases hheld

namespace Shop

/-- Request for the Milan number, and for another one. -/
def milanBody : BuyBody := ⟨"+39020", "+39020", "+39••••", "k1", 3⟩

def romeBody : BuyBody := ⟨"+39060", "+39060", "+39••••", "k2", 3⟩

/-- The numbers on offer cost a dollar to set up. -/
def offers : List NumberOffer := [⟨"+39020", 1, 1⟩, ⟨"+39060", 1, 1⟩]

def quarterMarkup : NumberMarkupPolicy := ⟨1 / 4, by norm_num⟩

def milanNumber : PurchasedNumber := ⟨"n1", .active, none, none, by decide⟩

def romeNumber : PurchasedNumber := ⟨"n2", .active, none, none, by decide⟩

/-- An organisation with two hundred credits that has no number. -/
def emptyShop : Shop := ⟨⟨[⟨0, 200⟩], []⟩, [], ⟨[], List.nodup_nil⟩, []⟩

/-- The Milan number is asked for twice under one key, and the Rome number when the credits do
not reach any more. -/
def twiceThenShort : List ShopAction :=
  [.arrive milanBody, .arrive milanBody, .arrive romeBody, .lookup 0 true, .lookup 1 true,
    .lookup 2 true, .search 0 (some offers), .search 1 (some offers), .search 2 (some offers),
    .purchase 0 (some milanNumber), .purchase 1 (some romeNumber), .purchase 2 (some romeNumber),
    .transact 1 11 0 true, .transact 0 10 0 true, .transact 2 12 0 true, .giveBack 2 true]

theorem purchase_atomic_sample :
    ∃ s, Run (ofPartial (step 0 quarterMarkup)) emptyShop twiceThenShort s ∧
      Law 0 emptyShop s := by
  obtain ⟨s, hrun⟩ : ∃ s, Run (Guarded (ofPartial (step 0 quarterMarkup)) fun s a =>
      s.careful 0 a = true) emptyShop twiceThenShort s :=
    Run.exists_guarded_of_isSome (by decide +kernel)
  refine ⟨s, hrun.ofGuarded, purchase_atomic_of_run hrun rfl ?_ ?_ ?_⟩
  · intro id
    simp [emptyShop, Carrier.Has, Recorded]
  · intro row hrow
    cases hrow
  · intro b hb
    cases hb
    decide

/-- The Milan number was given back a while ago; its row stays. -/
def formerShop : Shop :=
  { emptyShop with
    numbers :=
      [(BuyRequest.row 0 milanBody ⟨1, 1⟩ ⟨"n0", .active, none, none, by decide⟩ 9 0).release] }

/-- It is on offer again. -/
def againBody : BuyBody := { milanBody with purchaseKey := "k3" }

def lostShop : Shop :=
  { formerShop with
    carrier := ⟨[("k3", milanNumber)], by simp⟩
    requests := [⟨againBody, .ended .failed⟩] }

/-- The number is bought under a new key: the carrier sells it, the row cannot be inserted, and
nobody gives the number back. -/
theorem rebought_number_is_lost :
    formerShop.requests = [] ∧ formerShop.Balanced ∧ formerShop.KeysUnique 0 ∧
    Run (ofPartial (step 0 quarterMarkup)) formerShop
      [.arrive againBody, .lookup 0 true, .search 0 (some offers), .purchase 0 (some milanNumber),
        .transact 0 10 0 true] lostShop ∧
    (∀ r ∈ lostShop.requests, r.stage.held = none) ∧ lostShop.carrier.Has "n1" ∧
    ¬ lostShop.Recorded "n1" := by
  refine ⟨rfl, ?_, ?_, Run.ofPartial_iff.mpr (by decide +kernel), ?_,
    ⟨_, List.mem_singleton_self _, rfl⟩, ?_⟩
  · intro id
    simp [formerShop, emptyShop, Carrier.Has, Recorded, NumberRow.release]
  · intro row hrow row' hrow' _ _ _ _
    rw [List.mem_singleton.mp hrow, List.mem_singleton.mp hrow']
  · intro r hr
    rw [List.mem_singleton.mp hr]
    rfl
  · rintro ⟨row, hrow, hid, -⟩
    rw [List.mem_singleton.mp hrow] at hid
    exact absurd hid (by decide)

end Shop

end VoxTranslate.Voip
