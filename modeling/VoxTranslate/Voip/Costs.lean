import Mathlib.Algebra.BigOperators.Group.List.Basic
import Mathlib.Data.List.Dedup
import Mathlib.Data.List.Sort
import VoxTranslate.Lib.Run
import VoxTranslate.Voip.Overrun

/-!
# What a finished call cost us

The sweep over completed calls asks the carrier for the record of each leg, adds up what it
gets and writes the sum.  It selects the calls whose cost is `NULL`, so the first sum it writes
is the last: a sweep that comes to a call when only some of its legs are rated writes a part of
the cost for good.
-/

namespace VoxTranslate.Voip

open Lib

/-- The column types `NUMERIC(precision, scale)`: a value is rounded to the scale, half away from
zero, and refused when it has too many digits. -/
def numeric (precision scale : Nat) (v : ℚ) : Option ℚ :=
  let units := if 0 ≤ v then ⌊v * 10 ^ scale + 1 / 2⌋ else ⌈v * 10 ^ scale - 1 / 2⌉
  if units.natAbs < 10 ^ precision then some (units / 10 ^ scale) else none

/-- Realised gross margin, where anything was charged. -/
def realisedMargin (charge cost : Usd) : Option ℚ :=
  if charge ≤ 0 then none else some (roundDp ((charge - cost) / charge) moneyDp)

/-- A row of `voip_calls` with the two columns of the reconciliation. -/
structure CostedCall extends CallRow where
  actualProviderCostUsd : Option Usd
  grossMargin : Option ℚ
  deriving DecidableEq

/-- What `fetch_cdr` answers for a leg. -/
inductive CdrAnswer where
  | rated (cost : Usd)
  /-- Not rated yet. -/
  | unrated
  /-- The provider cannot tell. -/
  | error
  deriving DecidableEq, Repr

/-- The answers for the legs of a call: the sum of what is rated and whether anything is, or
nothing if the provider fails. -/
def legCosts (cdr : LegId → CdrAnswer) : List LegId → Option (Usd × Bool)
  | [] => some (0, false)
  | leg :: legs =>
    match cdr leg with
    | .rated cost => (legCosts cdr legs).map fun (sum, _) => (cost + sum, true)
    | .unrated => legCosts cdr legs
    | .error => none

namespace CostedCall

/-- The primary key. -/
def key (c : CostedCall) : Uuid := c.id

/-- The statement that writes the cost; `none` when a column overflows. -/
def record (cost : Usd) (c : CostedCall) : Option CostedCall := do
  let stored ← numeric 12 6 cost
  match realisedMargin (c.customerChargeUsd.getD 0) cost with
  | none => return { c with actualProviderCostUsd := some stored, grossMargin := none }
  | some m =>
    let margin ← numeric 6 4 m
    return { c with actualProviderCostUsd := some stored, grossMargin := some margin }

/-- Seven days, in microseconds. -/
def reconcileWindow : Int := 7 * 24 * 3600 * 1000000

/-- Completed within the window and without a cost. -/
def isUnreconciled (now : Timestamp) (c : CostedCall) : Bool :=
  c.status = .completed && c.actualProviderCostUsd.isNone &&
    c.endedAt.any fun ended => now - reconcileWindow < ended

end CostedCall

/-- The calls that a sweep takes, `ORDER BY ended_at DESC`. -/
def unreconciled (calls : List CostedCall) (now : Timestamp) (limit : Int) : List CostedCall :=
  ((calls.insertionSort fun a b => b.endedAt.getD 0 ≤ a.endedAt.getD 0).filter
    (CostedCall.isUnreconciled now)).take (batchSize limit)

/-- What the sweep does with one call: nothing, a write, or an error that ends the sweep. -/
inductive CostStep where
  | skip
  | write (row : CostedCall)
  | stop

def costStep (cdr : LegId → CdrAnswer) (row : CostedCall) : CostStep :=
  match legCosts cdr row.providerLegIds with
  | none => .stop
  | some (_, false) => .skip
  | some (cost, true) =>
    match row.record cost with
    | none => .stop
    | some row' => .write row'

/-- The columns that the write sets, in the row that is stored. -/
def CostedCall.setCost (row : CostedCall) (c : CostedCall) : CostedCall :=
  { c with actualProviderCostUsd := row.actualProviderCostUsd, grossMargin := row.grossMargin }

/-- The loop of the sweep. -/
def reconcileLoop (cdr : LegId → CdrAnswer) (calls : List CostedCall) :
    List CostedCall → List CostedCall
  | [] => calls
  | row :: rows =>
    match costStep cdr row with
    | .stop => calls
    | .skip => reconcileLoop cdr calls rows
    | .write row' =>
      reconcileLoop cdr (Table.update CostedCall.key calls row.id row'.setCost) rows

/-- Record what finished calls cost; without a margin policy the sweep does nothing. -/
def reconcileCosts (margin : Option MarginPolicy) (calls : List CostedCall) (now : Timestamp)
    (limit : Int) (cdr : LegId → CdrAnswer) : List CostedCall :=
  match margin with
  | none => calls
  | some _ => reconcileLoop cdr calls (unreconciled calls now limit)

/-- The loop comes to the call: it is among the rows, and none before it ends the sweep. -/
def comesTo (cdr : LegId → CdrAnswer) (c : Uuid) : List CostedCall → Bool
  | [] => false
  | row :: rows =>
    if row.id = c then true
    else match costStep cdr row with
      | .stop => false
      | _ => comesTo cdr c rows

/-- The sweep comes to the call. -/
def Reconciles (margin : Option MarginPolicy) (calls : List CostedCall) (now : Timestamp)
    (limit : Int) (cdr : LegId → CdrAnswer) (c : Uuid) : Bool :=
  margin.isSome && comesTo cdr c (unreconciled calls now limit)

/-! ## One sweep -/

section Sweep

variable {cdr : LegId → CdrAnswer} {calls rows : List CostedCall} {c : Uuid} {r r₀ r₁ : CostedCall}
  {cost : LegId → Usd} {legs : List LegId} {sum : Usd} {now : Timestamp} {limit : Int}

def CdrAnswer.isRated : CdrAnswer → Bool
  | .rated _ => true
  | _ => false

lemma legCosts_of_rated (h : ∀ leg ∈ legs, cdr leg = .rated (cost leg)) (hne : legs ≠ []) :
    legCosts cdr legs = some ((legs.map cost).sum, true) := by
  induction legs with
  | nil => exact absurd rfl hne
  | cons leg legs ih =>
    obtain ⟨hleg, hlegs⟩ := List.forall_mem_cons.mp h
    rw [legCosts, hleg]
    cases legs with
    | nil => simp [legCosts]
    | cons leg' legs => simp [ih hlegs (by simp)]

/-- A sum is found only where some leg is rated. -/
lemma rated_of_legCosts (h : legCosts cdr legs = some (sum, true)) :
    ∃ leg ∈ legs, (cdr leg).isRated = true := by
  induction legs generalizing sum with
  | nil => simp [legCosts] at h
  | cons leg legs ih =>
    cases hleg : cdr leg with
    | rated x => exact ⟨leg, List.mem_cons_self, by rw [hleg]; rfl⟩
    | unrated =>
      simp only [legCosts, hleg] at h
      obtain ⟨leg', hmem, hrated⟩ := ih h
      exact ⟨leg', List.mem_cons_of_mem leg hmem, hrated⟩
    | error =>
      simp only [legCosts, hleg] at h
      cases h

lemma CostedCall.record_eq (h : r.record sum = some r₁) :
    r₁ = { r with
      actualProviderCostUsd := r₁.actualProviderCostUsd
      grossMargin := r₁.grossMargin } ∧ r₁.actualProviderCostUsd ≠ none := by
  unfold record at h
  obtain ⟨stored, -, h⟩ := Option.bind_eq_some_iff.mp h
  split at h
  · cases h
    exact ⟨rfl, by simp⟩
  · obtain ⟨margin, -, h⟩ := Option.bind_eq_some_iff.mp h
    cases h
    exact ⟨rfl, by simp⟩

lemma setCost_keepsId (row : CostedCall) :
    Table.KeepsKey CostedCall.key row.setCost := fun _ => rfl

/-- The loop leaves a call alone that none of its rows writes. -/
lemma reconcileLoop_frame
    (h : ∀ row ∈ rows, row.id = c → ∀ row', costStep cdr row ≠ .write row') :
    Table.get CostedCall.key (reconcileLoop cdr calls rows) c =
      Table.get CostedCall.key calls c := by
  induction rows generalizing calls with
  | nil => rfl
  | cons row rows ih =>
    obtain ⟨hrow, hrows⟩ := List.forall_mem_cons.mp h
    rw [reconcileLoop]
    cases hstep : costStep cdr row with
    | stop => rfl
    | skip => exact ih hrows
    | write row' =>
      refine (ih hrows).trans (Table.get_update_of_ne (setCost_keepsId row') ?_)
      exact fun hid => hrow hid.symm row' hstep

/-- The loop leaves a call alone that it does not come to. -/
lemma reconcileLoop_missed (h : comesTo cdr c rows = false) :
    Table.get CostedCall.key (reconcileLoop cdr calls rows) c =
      Table.get CostedCall.key calls c := by
  induction rows generalizing calls with
  | nil => rfl
  | cons row rows ih =>
    rw [comesTo] at h
    rw [reconcileLoop]
    split_ifs at h with hid
    cases hstep : costStep cdr row with
    | stop => rfl
    | skip => exact ih (by simpa only [hstep] using h)
    | write row' =>
      refine (ih (by simpa only [hstep] using h)).trans ?_
      exact Table.get_update_of_ne (setCost_keepsId row') fun hid' => hid hid'.symm

/-- The loop writes a call that it comes to. -/
lemma reconcileLoop_write (hrows : ∀ row ∈ rows, row.id = c → row = r₀)
    (hwrite : costStep cdr r₀ = .write r₁) (h₀ : r₁.setCost r₀ = r₁)
    (hget : Table.get CostedCall.key calls c = some r₀ ∨
      Table.get CostedCall.key calls c = some r₁) :
    Table.get CostedCall.key (reconcileLoop cdr calls rows) c =
      if comesTo cdr c rows then some r₁ else Table.get CostedCall.key calls c := by
  induction rows generalizing calls with
  | nil => rfl
  | cons row rows ih =>
    obtain ⟨hrow, hrows⟩ := List.forall_mem_cons.mp hrows
    rw [reconcileLoop, comesTo]
    by_cases hid : row.id = c
    · obtain rfl := hrow hid
      have hget' : Table.get CostedCall.key
          (Table.update CostedCall.key calls row.id r₁.setCost) c = some r₁ := by
        rw [← hid] at hget ⊢
        rw [Table.get_update_self (setCost_keepsId r₁)]
        rcases hget with hget | hget
        · rw [hget, Option.map_some, h₀]
        · rw [hget, Option.map_some]
          rfl
      simp only [hwrite, hid, if_true]
      rw [hid] at hget'
      rw [ih hrows (.inr hget'), hget', ite_self]
    · simp only [hid, if_false]
      cases hstep : costStep cdr row with
      | stop => rfl
      | skip => exact ih hrows hget
      | write row' =>
        have hframe : Table.get CostedCall.key
            (Table.update CostedCall.key calls row.id row'.setCost) c =
            Table.get CostedCall.key calls c :=
          Table.get_update_of_ne (setCost_keepsId row') fun h => hid h.symm
        simp only
        rw [ih hrows (by rwa [hframe]), hframe]

lemma reconcileLoop_unique (h : Table.Unique CostedCall.key calls) :
    Table.Unique CostedCall.key (reconcileLoop cdr calls rows) := by
  induction rows generalizing calls with
  | nil => exact h
  | cons row rows ih =>
    rw [reconcileLoop]
    split
    · exact h
    · exact ih h
    next row' _ => exact ih (h.update (setCost_keepsId row'))

/-- The rows a sweep takes are rows of the table, and unreconciled. -/
lemma mem_unreconciled (h : r ∈ unreconciled calls now limit) :
    r ∈ calls ∧ r.actualProviderCostUsd = none := by
  obtain ⟨hmem, hnone⟩ := List.mem_filter.mp (List.mem_of_mem_take h)
  refine ⟨(List.perm_insertionSort _ calls).mem_iff.mp hmem, ?_⟩
  unfold CostedCall.isUnreconciled at hnone
  simp only [Bool.and_eq_true, Option.isNone_iff_eq_none] at hnone
  exact hnone.1.2

end Sweep

/-! ## Any sequence of sweeps -/

/-- A step of the table, as call `c` sees it: another call is written in any way, or a sweep
runs. -/
inductive CostAction where
  | put (row : CostedCall)
  | sweep (now : Timestamp) (limit : Int) (cdr : LegId → CdrAnswer)

namespace CostedCall

/-- The step function of the table. -/
def step (margin : Option MarginPolicy) (c : Uuid) (calls : List CostedCall) :
    CostAction → Option (List CostedCall)
  | .put row =>
    if row.id = c then none else some (row :: calls.filter fun r => r.id ≠ row.id)
  | .sweep now limit cdr => some (reconcileCosts margin calls now limit cdr)

/-- The call has no cost yet. -/
def isOpen (calls : List CostedCall) (c : Uuid) : Bool :=
  (Table.get CostedCall.key calls c).any fun r => r.actualProviderCostUsd.isNone

/-- A sweep that comes to the call finds all of its legs rated or none, and a sweep at which all
are comes to a call that has no cost yet. -/
def sweepsWhole (margin : Option MarginPolicy) (c : Uuid) (legs : List LegId)
    (calls : List CostedCall) : CostAction → Bool
  | .put _ => true
  | .sweep now limit cdr =>
    let comes := Reconciles margin calls now limit cdr c
    let whole := legs.all fun leg => (cdr leg).isRated
    (!comes || !(legs.any fun leg => (cdr leg).isRated) || whole) &&
      (!isOpen calls c || !whole || comes)

section Run

variable {margin : Option MarginPolicy} {c : Uuid} {calls calls' : List CostedCall}
  {r₀ r₁ : CostedCall} {cost : LegId → Usd} {cdr : LegId → CdrAnswer} {now : Timestamp}
  {limit : Int} {acts : List CostAction}

/-- The row of the call is as it was, or has the whole cost. -/
structure Whole (c : Uuid) (r₀ r₁ : CostedCall) (calls : List CostedCall) : Prop where
  ids : Table.Unique CostedCall.key calls
  row : Table.get CostedCall.key calls c = some r₀ ∨ Table.get CostedCall.key calls c = some r₁

lemma reconcileCosts_unique (h : Table.Unique CostedCall.key calls) :
    Table.Unique CostedCall.key (reconcileCosts margin calls now limit cdr) := by
  unfold reconcileCosts
  split
  · exact h
  · exact reconcileLoop_unique h

/-- A call that has a cost is left alone. -/
lemma sweep_closed (hids : Table.Unique CostedCall.key calls)
    (hrow : Table.get CostedCall.key calls c = some r₁)
    (hcost : r₁.actualProviderCostUsd ≠ none) :
    Table.get CostedCall.key (reconcileCosts margin calls now limit cdr) c = some r₁ := by
  unfold reconcileCosts
  split
  · exact hrow
  · rw [reconcileLoop_frame fun row hmem hid row' _ => ?_, hrow]
    obtain ⟨hmem, hnone⟩ := mem_unreconciled hmem
    have hkey : r₁.key = c := Table.key_of_get hrow
    obtain rfl := hids row hmem r₁ (Table.mem_of_get hrow) (hid.trans hkey.symm)
    exact hcost hnone

/-- A sweep that finds the legs of an open call all rated or none: it writes the whole cost if it
comes to the call and they are, and leaves the row otherwise. -/
lemma sweep_open (hids : Table.Unique CostedCall.key calls)
    (hrow : Table.get CostedCall.key calls c = some r₀) (hlegs : r₀.providerLegIds ≠ [])
    (hfits : r₀.record (r₀.providerLegIds.map cost).sum = some r₁)
    (hcdr : ∀ leg ∈ r₀.providerLegIds, ∀ x, cdr leg = .rated x → x = cost leg)
    (hall : Reconciles margin calls now limit cdr c = true →
      (∃ leg ∈ r₀.providerLegIds, (cdr leg).isRated = true) →
      ∀ leg ∈ r₀.providerLegIds, (cdr leg).isRated = true) :
    Table.get CostedCall.key (reconcileCosts margin calls now limit cdr) c =
      if Reconciles margin calls now limit cdr c = true ∧
        ∀ leg ∈ r₀.providerLegIds, (cdr leg).isRated = true then some r₁ else some r₀ := by
  have hrows : ∀ row ∈ unreconciled calls now limit, row.id = c → row = r₀ := by
    intro row hmem hid
    have hkey : r₀.key = c := Table.key_of_get hrow
    exact hids row (mem_unreconciled hmem).1 r₀ (Table.mem_of_get hrow) (hid.trans hkey.symm)
  cases margin with
  | none => simpa [reconcileCosts, Reconciles] using hrow
  | some m =>
    rw [reconcileCosts]
    have hcomes : Reconciles (some m) calls now limit cdr c =
        comesTo cdr c (unreconciled calls now limit) := by
      simp [Reconciles]
    rw [hcomes] at hall ⊢
    by_cases hrated : ∀ leg ∈ r₀.providerLegIds, (cdr leg).isRated = true
    · have hanswers : ∀ leg ∈ r₀.providerLegIds, cdr leg = .rated (cost leg) := by
        intro leg hleg
        cases h : cdr leg with
        | rated x => rw [hcdr leg hleg x h]
        | unrated | error =>
          have := hrated leg hleg
          rw [h] at this
          cases this
      have hwrite : costStep cdr r₀ = .write r₁ := by
        rw [costStep, legCosts_of_rated hanswers hlegs]
        simp only [hfits]
      have hset : r₁.setCost r₀ = r₁ := (record_eq hfits).1.symm
      rw [reconcileLoop_write hrows hwrite hset (.inl hrow), hrow]
      exact if_congr (and_iff_left hrated).symm rfl rfl
    · rw [if_neg fun h => hrated h.2, ← hrow]
      -- the loop writes the call only if it comes to it and some leg is rated
      cases hc : comesTo cdr c (unreconciled calls now limit) with
      | false => exact reconcileLoop_missed hc
      | true =>
        refine reconcileLoop_frame fun row hmem hid row' hstep => ?_
        obtain rfl := hrows row hmem hid
        rw [costStep] at hstep
        split at hstep
        · cases hstep
        · cases hstep
        next hcosts => exact hrated (hall hc (rated_of_legCosts hcosts))

/-- The guard of a sweep at an open call. -/
lemma sweepsWhole_iff {legs : List LegId} (hopen : isOpen calls c = true) :
    sweepsWhole margin c legs calls (.sweep now limit cdr) = true ↔
      (Reconciles margin calls now limit cdr c = true →
        (∃ leg ∈ legs, (cdr leg).isRated = true) → ∀ leg ∈ legs, (cdr leg).isRated = true) ∧
      ((∀ leg ∈ legs, (cdr leg).isRated = true) →
        Reconciles margin calls now limit cdr c = true) := by
  rw [← List.all_eq_true, ← List.any_eq_true, sweepsWhole, hopen]
  cases Reconciles margin calls now limit cdr c <;>
    cases legs.any (fun leg => (cdr leg).isRated) <;>
      cases legs.all (fun leg => (cdr leg).isRated) <;> decide

/-- **A step keeps the cost whole.** -/
lemma whole_step (hlegs : r₀.providerLegIds ≠ []) (hopen : r₀.actualProviderCostUsd = none)
    (hfits : r₀.record (r₀.providerLegIds.map cost).sum = some r₁) {act : CostAction}
    (hcdr : ∀ now limit cdr, act = .sweep now limit cdr →
      ∀ leg ∈ r₀.providerLegIds, ∀ x, cdr leg = .rated x → x = cost leg)
    (hI : Whole c r₀ r₁ calls) (hguard : sweepsWhole margin c r₀.providerLegIds calls act = true)
    (hstep : step margin c calls act = some calls') :
    Whole c r₀ r₁ calls' ∧
      (Table.get CostedCall.key calls c = some r₁ →
        Table.get CostedCall.key calls' c = some r₁) ∧
      (∀ now limit cdr, act = .sweep now limit cdr →
        (∀ leg ∈ r₀.providerLegIds, (cdr leg).isRated = true) →
        Table.get CostedCall.key calls' c = some r₁) := by
  cases act with
  | put row =>
    rw [step] at hstep
    split_ifs at hstep with hid
    cases hstep
    have hget : Table.get key (row :: calls.filter fun r => r.id ≠ row.id) c =
        Table.get key calls c := by
      have hne : key row ≠ c := hid
      rw [Table.get_cons_of_ne hne]
      exact Table.get_filter_ne fun h => hid h.symm
    exact ⟨⟨hI.ids.put, by rw [hget]; exact hI.row⟩, by rw [hget]; exact id, by simp⟩
  | sweep now limit cdr =>
    cases hstep
    obtain ⟨hids, hrow⟩ := hI
    have hids' := @reconcileCosts_unique margin calls cdr now limit hids
    rcases hrow with hrow | hrow
    · have hopen' : isOpen calls c = true := by
        rw [isOpen, hrow]
        simp [hopen]
      obtain ⟨hall, hreach⟩ := (sweepsWhole_iff hopen').mp hguard
      have hswept := sweep_open hids hrow hlegs hfits (hcdr now limit cdr rfl) hall
      refine ⟨⟨hids', ?_⟩, fun hdone => ?_, fun now' limit' cdr' heq hrated => ?_⟩
      · rw [hswept]
        split_ifs
        · exact .inr rfl
        · exact .inl rfl
      · rw [hrow] at hdone
        cases hdone
        exact absurd hopen (record_eq hfits).2
      · cases heq
        rw [hswept, if_pos ⟨hreach hrated, hrated⟩]
    · have hkept := @sweep_closed margin c calls r₁ cdr now limit hids hrow (record_eq hfits).2
      exact ⟨⟨hids', .inr hkept⟩, fun _ => hkept, fun _ _ _ _ _ => hkept⟩

/-- **Reconciliation is whole and does not depend on the order.**  In every run of sweeps and of
writes to other calls, in whatever order the records of a completed call's legs become available:
if no sweep that comes to the call finds some of them only, and a sweep at which all are available
comes to it while it has no cost, then the cost that is written is the sum over its legs, and it
is written once all were available at a sweep. -/
theorem cost_whole_of_run
    (hids : Table.Unique key calls) (hrow : Table.get key calls c = some r₀)
    (hstatus : r₀.status = .completed) (hopen : r₀.actualProviderCostUsd = none)
    (hlegs : r₀.providerLegIds ≠ []) (hset : r₀.providerLegIds.Nodup)
    (hfits : r₀.record (r₀.providerLegIds.map cost).sum = some r₁)
    (hexact : r₁.actualProviderCostUsd = some (r₀.providerLegIds.map cost).sum)
    (hcdr : ∀ now limit cdr, CostAction.sweep now limit cdr ∈ acts →
      ∀ leg ∈ r₀.providerLegIds, ∀ x, cdr leg = .rated x → x = cost leg)
    (hrun : Lib.Run (Guarded (ofPartial (step margin c)) fun calls act =>
      sweepsWhole margin c r₀.providerLegIds calls act = true) calls acts calls') :
    ∃ r, Table.get key calls' c = some r ∧ r.status = .completed ∧
      (r.actualProviderCostUsd = none ∨
        r.actualProviderCostUsd = some (r₀.providerLegIds.dedup.map cost).sum) ∧
      ((∃ now limit cdr, CostAction.sweep now limit cdr ∈ acts ∧
          ∀ leg ∈ r₀.providerLegIds, (cdr leg).isRated = true) →
        r.actualProviderCostUsd = some (r₀.providerLegIds.dedup.map cost).sum) := by
  have hstep : ∀ s, ∀ a ∈ acts, ∀ t, Whole c r₀ r₁ s →
      Guarded (ofPartial (step margin c)) (fun calls act =>
        sweepsWhole margin c r₀.providerLegIds calls act = true) s a t → _ :=
    fun s a ha t hs h => whole_step hlegs hopen hfits
      (fun now limit cdr heq => hcdr now limit cdr (heq ▸ ha)) hs h.1 h.2
  have hwhole : Whole c r₀ r₁ calls := ⟨hids, .inl hrow⟩
  have hend := hrun.invariant (Whole c r₀ r₁) (fun s a ha t hs h => (hstep s a ha t hs h).1) hwhole
  have hdone : (∃ now limit cdr, CostAction.sweep now limit cdr ∈ acts ∧
      ∀ leg ∈ r₀.providerLegIds, (cdr leg).isRated = true) →
      Table.get key calls' c = some r₁ := by
    rintro ⟨now, limit, cdr, hmem, hrated⟩
    obtain ⟨pre, post, rfl⟩ := List.append_of_mem hmem
    obtain ⟨s, hpre, hrest⟩ := Lib.Run.append_iff.mp hrun
    obtain ⟨t, hsweep, hpost⟩ := Lib.Run.cons_iff.mp hrest
    have hmid := hpre.invariant (Whole c r₀ r₁)
      (fun s a ha t hs h => (hstep s a (List.mem_append_left _ ha) t hs h).1) hwhole
    obtain ⟨hwhole', -, hswept⟩ := hstep s _ hmem t hmid hsweep
    refine (hpost.invariant (fun s => Whole c r₀ r₁ s ∧ Table.get key s c = some r₁)
      (fun s a ha t hs h => ?_) ⟨hwhole', hswept now limit cdr rfl hrated⟩).2
    obtain ⟨hwhole'', hkept, -⟩ := hstep s a
      (List.mem_append_right _ (List.mem_cons_of_mem _ ha)) t hs.1 h
    exact ⟨hwhole'', hkept hs.2⟩
  rw [hset.dedup]
  rcases hend.row with hget | hget
  · refine ⟨r₀, hget, hstatus, .inl hopen, fun h => ?_⟩
    have hget' := hdone h
    rw [hget] at hget'
    cases hget'
    exact hexact
  · have hstatus' : r₁.status = .completed := by
      rw [(record_eq hfits).1]
      exact hstatus
    exact ⟨r₁, hget, hstatus', .inr hexact, fun _ => hexact⟩

end Run

/-- A completed call of a dollar with two legs. -/
def twoLegs : CostedCall where
  toCallRow := { VoipDb.dialedCall with
    providerLegIds := ["a", "b"]
    status := .completed
    endedAt := some 0
    customerChargeUsd := some 1 }
  actualProviderCostUsd := none
  grossMargin := none

/-- Another call, completed later. -/
def oneLeg : CostedCall where
  toCallRow := { twoLegs.toCallRow with
    id := 8
    providerLegIds := ["d"]
    endedAt := some 5 }
  actualProviderCostUsd := none
  grossMargin := none

def tenthMargin : MarginPolicy where
  minGrossMargin := 1 / 10
  safetyBuffer := 1 / 20
  margin_nonneg := by norm_num
  margin_lt_one := by norm_num
  buffer_nonneg := by norm_num

/-- Two cents for the first leg and three for any other. -/
def legCost (leg : LegId) : Usd := if leg = "a" then 2 / 100 else 3 / 100

/-- The carrier once it has rated the legs of `done`. -/
def carrier (done : List LegId) (leg : LegId) : CdrAnswer :=
  if leg ∈ done then .rated (legCost leg) else .unrated

/-- The law on a call whose legs are rated between two sweeps, beside another call. -/
theorem cost_whole_sample :
    ∃ r calls', [CostAction.sweep 10 50 (carrier []), .put oneLeg,
        .sweep 20 50 (carrier ["b", "d", "a"])].foldlM (step (some tenthMargin) 7) [twoLegs] =
        some calls' ∧
      Table.get key calls' 7 = some r ∧ r.actualProviderCostUsd = some (5 / 100) := by
  obtain ⟨calls', hrun⟩ : ∃ calls', Lib.Run (Guarded (ofPartial (step (some tenthMargin) 7))
      fun calls act => sweepsWhole (some tenthMargin) 7 ["a", "b"] calls act = true) [twoLegs]
      [CostAction.sweep 10 50 (carrier []), .put oneLeg,
        .sweep 20 50 (carrier ["b", "d", "a"])] calls' :=
    Run.exists_guarded_of_isSome (by decide +kernel)
  have hids : Table.Unique key [twoLegs] := by simp [Table.Unique]
  have hrow : Table.get key [twoLegs] 7 = some twoLegs := by decide +kernel
  have hfits : twoLegs.record (twoLegs.providerLegIds.map legCost).sum =
      some { twoLegs with
        actualProviderCostUsd := some (5 / 100)
        grossMargin := some (19 / 20) } := by decide +kernel
  have hcdr : ∀ now limit cdr, CostAction.sweep now limit cdr ∈
      [CostAction.sweep 10 50 (carrier []), .put oneLeg, .sweep 20 50 (carrier ["b", "d", "a"])] →
      ∀ leg ∈ twoLegs.providerLegIds, ∀ x, cdr leg = .rated x → x = legCost leg := by
    intro now limit cdr hmem leg _ x hx
    obtain ⟨done, rfl⟩ : ∃ done, cdr = carrier done := by
      simp only [List.mem_cons, CostAction.sweep.injEq, List.not_mem_nil, or_false,
        reduceCtorEq, false_or] at hmem
      rcases hmem with ⟨-, -, rfl⟩ | ⟨-, -, rfl⟩
      · exact ⟨_, rfl⟩
      · exact ⟨_, rfl⟩
    unfold carrier at hx
    split_ifs at hx
    cases hx
    rfl
  obtain ⟨r, hget, -, -, hcost⟩ := cost_whole_of_run hids hrow rfl rfl (by decide) (by decide)
    hfits (by decide +kernel) hcdr hrun
  have hlast : CostAction.sweep 20 50 (carrier ["b", "d", "a"]) ∈
      [CostAction.sweep 10 50 (carrier []), .put oneLeg,
        .sweep 20 50 (carrier ["b", "d", "a"])] := by simp
  refine ⟨r, calls', Run.ofPartial_iff.mp hrun.ofGuarded, hget, ?_⟩
  rw [hcost ⟨20, 50, _, hlast, by decide +kernel⟩]
  decide +kernel

/-- A sweep that comes when only the first leg is rated writes its two cents, and the sweep after
the second is rated too leaves them.  And a leg that is listed twice is counted twice. -/
theorem first_record_is_final :
    ((([CostAction.sweep 10 50 (carrier ["a"]), .sweep 20 50 (carrier ["a", "b"])].foldlM
        (step (some tenthMargin) 7) [twoLegs]).bind fun calls => Table.get key calls 7).map
      actualProviderCostUsd) = some (some (2 / 100)) ∧
    (twoLegs.providerLegIds.map legCost).sum = 5 / 100 ∧
    ((([CostAction.sweep 20 50 (carrier ["a"])].foldlM
        (step (some tenthMargin) 7) [{ twoLegs with providerLegIds := ["a", "a"] }]).bind
          fun calls => Table.get key calls 7).map actualProviderCostUsd) =
      some (some (4 / 100)) := by
  decide +kernel

end CostedCall

end VoxTranslate.Voip
