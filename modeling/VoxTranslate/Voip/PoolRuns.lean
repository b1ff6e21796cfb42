import VoxTranslate.Voip.Reservation
import VoxTranslate.Lib.Run

/-!
# Every run of the pool conserves credits

The transactions of the whole system that touch an organisation's pool are five: taking a
hold, closing one as settled or released, a debit and a grant.  Each is atomic, so any
interleaving of any number of calls is a sequence of them, and a transaction that fails is
rolled back.

`effect_of` says once what a transaction can do to a coherent state; the invariants and the
laws of conservation are read off it.  The one thing the pool does not check is that a
credit added to it still fits the column, so the laws are about runs in which it does.
-/

namespace VoxTranslate.Voip

open Lib Business

/-- A transaction on the pool. -/
inductive PoolOp where
  | reserve (orgId callId sessionId : Uuid) (actorId : Option Uuid) (credits : Int) (newId : Uuid)
  | settle (callId sessionId : Uuid) (actualCredits : Int)
  | release (callId sessionId : Uuid)
  | deduct (orgId : Uuid) (amount : Int) (kind : String) (sessionId actorId : Option Uuid)
      (description : String)
  | add (orgId : Uuid) (amount : Int) (kind description : String)
      (stripePaymentIntentId : Option String) (sessionId : Option Uuid)
  deriving DecidableEq, Repr

/-- What a transaction returned. -/
inductive PoolOutcome where
  | reserved (out : ReserveOutcome)
  | closed (settlement : Option Settlement)
  | charged (out : OrgCharge)
  | added (balance : Int)
  deriving DecidableEq, Repr

namespace PoolOp

/-- The call a closing transaction is about and what it says the call has cost. -/
def cost : PoolOp → Option (Uuid × Int)
  | settle callId _ actualCredits => some (callId, max actualCredits 0)
  | release callId _ => some (callId, 0)
  | _ => none

/-- The call a transaction takes a hold for. -/
def holdsFor : PoolOp → Option Uuid
  | reserve _ callId _ _ _ _ => some callId
  | _ => none

/-- The amounts are `i32`; those of a debit and of a grant are documented as not negative. -/
def WellFormed : PoolOp → Prop
  | reserve _ _ _ _ credits _ => FitsI32 credits
  | settle _ _ actualCredits => FitsI32 actualCredits
  | release _ _ => True
  | deduct _ amount _ _ _ _ => 0 ≤ amount ∧ amount ≤ i32Max
  | add _ amount _ _ _ _ => 0 ≤ amount ∧ amount ≤ i32Max

instance : DecidablePred WellFormed
  | reserve _ _ _ _ credits _ => inferInstanceAs (Decidable (FitsI32 credits))
  | settle _ _ actualCredits => inferInstanceAs (Decidable (FitsI32 actualCredits))
  | release _ _ => inferInstanceAs (Decidable True)
  | deduct _ amount _ _ _ _ => inferInstanceAs (Decidable (0 ≤ amount ∧ amount ≤ i32Max))
  | add _ amount _ _ _ _ => inferInstanceAs (Decidable (0 ≤ amount ∧ amount ≤ i32Max))

end PoolOp

namespace Reservations

/-- Run one transaction; `none` is a rollback. -/
def exec (db : Reservations) : PoolOp → Option (PoolOutcome × Reservations)
  | .reserve orgId callId sessionId actorId credits newId =>
    (db.reserve orgId callId sessionId actorId credits newId).map fun (out, db) =>
      (.reserved out, db)
  | .settle callId sessionId actualCredits =>
    (db.settleTx callId sessionId actualCredits).map fun (s, db) => (.closed s, db)
  | .release callId sessionId =>
    (db.releaseTx callId sessionId).map fun (s, db) => (.closed s, db)
  | .deduct orgId amount kind sessionId actorId description =>
    (db.deductOrgCreditsTx orgId amount kind sessionId actorId description).map
      fun (out, pool) => (.charged out, { db with toCredits := pool })
  | .add orgId amount kind description stripe sessionId =>
    (db.addOrgCreditsTx orgId amount kind description stripe sessionId).map
      fun (balance, pool) => (.added balance, { db with toCredits := pool })

/-- The state after a transaction, committed or rolled back. -/
def commit (db : Reservations) (op : PoolOp) : Reservations :=
  match db.exec op with
  | some (_, db') => db'
  | none => db

/-- The credits a transaction puts back into a pool. -/
def returns (db : Reservations) : PoolOp → Option (Uuid × Int)
  | .add orgId amount _ _ _ _ => some (orgId, amount)
  | op => do
    let (callId, actual) ← op.cost
    let res ← db.latest callId
    if res.state = .held then some (res.orgId, res.heldCredits - min actual res.heldCredits)
    else none

/-- What the transaction adds to a pool still fits the column. -/
def Fits (db : Reservations) (op : PoolOp) : Prop :=
  ∀ orgId amount b, db.returns op = some (orgId, amount) → db.balance orgId = some b →
    b + amount ≤ i32Max

instance (db : Reservations) (op : PoolOp) : Decidable (db.Fits op) :=
  decidable_of_iff (∀ p ∈ db.returns op, ∀ b ∈ db.balance p.1, b + p.2 ≤ i32Max)
    ⟨fun h orgId amount b hp hb => h (orgId, amount) hp b hb,
      fun h p hp b hb => h p.1 p.2 b hp hb⟩

/-- The transactions the laws are about. -/
def Admissible (db : Reservations) (op : PoolOp) : Prop := op.WellFormed ∧ db.Fits op

instance (db : Reservations) (op : PoolOp) : Decidable (db.Admissible op) :=
  inferInstanceAs (Decidable (_ ∧ _))

/-- A coherent state: no balance is in debt, every hold belongs to an organisation and has
its own identifier, and an open hold is the latest of its call. -/
structure Coherent (db : Reservations) : Prop where
  balances : ∀ org b, db.balance org = some b → Credits.InRange b
  holds : ∀ r ∈ db.reservations, 0 ≤ r.heldCredits ∧ r.heldCredits ≤ i32Max
  orgs : ∀ r ∈ db.reservations, ∃ b, db.balance r.orgId = some b
  ids : Table.Unique Reservation.id db.reservations
  latest_open : ∀ r ∈ db.reservations, r.state = .held → db.latest r.callId = some r

/-! ## What one transaction can do -/

/-- The effects of a transaction that commits. -/
inductive Effect (db : Reservations) : PoolOp → PoolOutcome → Reservations → Prop
  /-- The pool was short: nothing is written. -/
  | short {op out} : op.cost = none → (∀ row, out ≠ .reserved (.held row)) → Effect db op out db
  /-- There is no open hold to close: the latest settlement is reported. -/
  | replayed {op callId actual} : op.cost = some (callId, actual) →
      (∀ res, db.latest callId = some res → res.state ≠ .held) →
      Effect db op (.closed ((db.latest callId).map Reservation.settlement)) db
  /-- A hold is taken. -/
  | opened {orgId callId sessionId actorId credits newId row b db'} :
      row.id = newId → row.callId = callId → row.orgId = orgId → row.state = .held →
      0 ≤ row.heldCredits → row.heldCredits ≤ i32Max →
      (∀ r ∈ db.reservations, r.id ≠ row.id) →
      (∀ r ∈ db.reservations, r.callId = row.callId → r.state ≠ .held) →
      db'.reservations = row :: db.reservations →
      db.balance orgId = some b → Credits.InRange (b + -row.heldCredits) →
      db.toCredits.Moves db'.toCredits orgId (-row.heldCredits) →
      Effect db (.reserve orgId callId sessionId actorId credits newId)
        (.reserved (.held row)) db'
  /-- An open hold is closed. -/
  | closed {op callId actual res finalState s db'} : op.cost = some (callId, actual) →
      db.latest callId = some res → res.state = .held → finalState ≠ .held →
      Closing db db' res actual finalState s →
      (∀ b, db.balance res.orgId = some b →
        Credits.InRange (b + (res.heldCredits - s.settled))) →
      Effect db op (.closed (some s)) db'
  /-- A debit or a grant. -/
  | moved {op out orgId d db'} : op.cost = none → (∀ row, out ≠ .reserved (.held row)) →
      db'.reservations = db.reservations →
      (∀ b, db.balance orgId = some b → Credits.InRange (b + d)) →
      db.toCredits.Moves db'.toCredits orgId d → Effect db op out db'

variable {db db' : Reservations} {op : PoolOp} {out : PoolOutcome}

lemma latest_mem {callId : Uuid} {res : Reservation} (h : db.latest callId = some res) :
    res ∈ db.reservations := Table.mem_of_get h

/-- A closing transaction on a coherent state does not fail: it closes the open hold, or
reports the settlement of the latest one, if the call has any. -/
lemma close_cases (hc : Coherent db) {callId : Uuid} (sessionId : Uuid) {actual : Int}
    (finalState : HoldState) (ha : 0 ≤ actual) (hamax : actual ≤ i32Max)
    (hfits : ∀ res b, db.latest callId = some res → res.state = .held →
      db.balance res.orgId = some b →
      b + (res.heldCredits - min actual res.heldCredits) ≤ i32Max) :
    ((∀ res, db.latest callId = some res → res.state ≠ .held) ∧
      db.close callId sessionId actual finalState =
        some ((db.latest callId).map Reservation.settlement, db)) ∨
    (∃ res s db', db.latest callId = some res ∧ res.state = .held ∧
      db.close callId sessionId actual finalState = some (some s, db') ∧
      Closing db db' res actual finalState s ∧
      ∀ b, db.balance res.orgId = some b →
        Credits.InRange (b + (res.heldCredits - s.settled))) := by
  cases hl : db.latest callId with
  | none => exact .inl ⟨by simp, close_of_latest_none hl⟩
  | some res =>
    by_cases hstate : res.state = .held
    · refine .inr ⟨res, ?_⟩
      obtain ⟨b, hb⟩ := hc.orgs res (latest_mem hl)
      obtain ⟨h₀, hmax⟩ := hc.holds res (latest_mem hl)
      obtain ⟨s, db', hclose, hclosing, hrange⟩ := close_of_held sessionId finalState hl hstate
        h₀ ha hamax hb (hc.balances _ b hb) (hfits res b hl hstate hb)
      refine ⟨s, db', rfl, hstate, hclose, hclosing, fun b' hb' => ?_⟩
      rw [hb] at hb'
      cases hb'
      exact hrange
    · exact .inl ⟨fun res' h => Option.some.inj h ▸ hstate, close_of_not_held hl hstate⟩

lemma fits_of_cost (h : db.Fits op) {callId : Uuid} {actual : Int}
    (hcost : op.cost = some (callId, actual)) :
    ∀ res b, db.latest callId = some res → res.state = .held →
      db.balance res.orgId = some b →
      b + (res.heldCredits - min actual res.heldCredits) ≤ i32Max := by
  intro res b hl hstate hb
  refine h res.orgId _ b ?_ hb
  cases op with
  | settle | release => simp_all [returns]
  | reserve | deduct | add => simp [PoolOp.cost] at hcost

/-- **The effect of a transaction.**  Every admissible transaction on a coherent state that
commits has one of the five effects. -/
theorem effect_of (hc : Coherent db) (ha : db.Admissible op)
    (h : db.exec op = some (out, db')) : Effect db op out db' := by
  obtain ⟨hwf, hfits⟩ := ha
  cases op with
  | reserve orgId callId sessionId actorId credits newId =>
    obtain ⟨⟨out', db₁⟩, hres, heq⟩ := Option.map_eq_some_iff.mp h
    cases heq
    cases hb : db.balance orgId with
    | none => simp [reserve, Credits.deductOrgCreditsTx, hb] at hres
    | some b =>
      rcases reserve_spec hwf.2 hb (hc.balances _ b hb) hres with ⟨rfl, rfl⟩ |
        ⟨row, rfl, hid, hcall, horg, hheld, hstate, hids, hopen, hrows, hle, hmoves⟩
      · exact .short rfl (by simp)
      · have hrange := hc.balances _ b hb
        refine .opened hid hcall horg hstate ?_ ?_ ?_ ?_ hrows hb ?_ hmoves
        · omega
        · exact le_trans hle hrange.2
        · rwa [hid]
        · rwa [hcall]
        · unfold Credits.InRange at *
          omega
  | settle callId sessionId actual =>
    obtain ⟨⟨s, db₁⟩, hclose, heq⟩ := Option.map_eq_some_iff.mp h
    cases heq
    rcases close_cases hc sessionId .settled (le_max_right actual 0)
      (max_le hwf.2 (by decide)) (fits_of_cost hfits rfl) with ⟨hopen, hidle⟩ |
      ⟨res, s', db₂, hl, hstate, hclose', hclosing, hrange⟩
    · rw [settleTx, hidle] at hclose
      cases hclose
      exact .replayed rfl hopen
    · rw [settleTx, hclose'] at hclose
      cases hclose
      exact .closed rfl hl hstate (by decide) hclosing hrange
  | release callId sessionId =>
    obtain ⟨⟨s, db₁⟩, hclose, heq⟩ := Option.map_eq_some_iff.mp h
    cases heq
    rcases close_cases hc sessionId .released (le_refl 0) (by decide)
      (fits_of_cost hfits rfl) with ⟨hopen, hidle⟩ |
      ⟨res, s', db₂, hl, hstate, hclose', hclosing, hrange⟩
    · rw [releaseTx, hidle] at hclose
      cases hclose
      exact .replayed rfl hopen
    · rw [releaseTx, hclose'] at hclose
      cases hclose
      exact .closed rfl hl hstate (by decide) hclosing hrange
  | deduct orgId amount kind sessionId actorId description =>
    obtain ⟨⟨charge, pool⟩, hd, heq⟩ := Option.map_eq_some_iff.mp h
    cases heq
    cases hb : db.balance orgId with
    | none => simp [Credits.deductOrgCreditsTx, hb] at hd
    | some b =>
      have hrange := hc.balances _ b hb
      rcases Credits.deduct_spec kind sessionId actorId description hwf.1 hwf.2 hb hrange with
        ⟨_, hd'⟩ | ⟨hle, pool', hd', hmoves⟩
      · rw [hd'] at hd
        cases hd
        exact .short rfl (by simp)
      · rw [hd'] at hd
        cases hd
        refine .moved rfl (by simp) rfl (fun b' hb' => ?_) hmoves
        rw [hb] at hb'
        cases hb'
        have := hwf.1
        unfold Credits.InRange at *
        omega
  | add orgId amount kind description stripe sessionId =>
    obtain ⟨⟨balance, pool⟩, hadd, heq⟩ := Option.map_eq_some_iff.mp h
    cases heq
    cases hb : db.balance orgId with
    | none => simp [Credits.addOrgCreditsTx, hb] at hadd
    | some b =>
      have hrange := hc.balances _ b hb
      have hfit : b + amount ≤ i32Max := hfits orgId amount b rfl hb
      have hnonneg : 0 ≤ b + amount := by
        have := hwf.1
        have := hrange.1
        omega
      obtain ⟨pool', hadd', hmoves⟩ := Credits.add_spec kind description stripe sessionId hb
        ⟨le_trans (by decide) hnonneg, hfit⟩
      rw [hadd'] at hadd
      cases hadd
      refine .moved rfl (by simp) rfl (fun b' hb' => ?_) hmoves
      rw [hb] at hb'
      cases hb'
      exact ⟨hnonneg, hfit⟩

/-- To show something of the state after a transaction, show it after a rollback and after
each effect. -/
lemma commit_induction (P : Reservations → Prop) (hc : Coherent db) (ha : db.Admissible op)
    (hidle : P db) (heffect : ∀ out db', db.exec op = some (out, db') → Effect db op out db' → P db') :
    P (db.commit op) := by
  unfold commit
  cases h : db.exec op with
  | none => exact hidle
  | some res => exact heffect res.1 res.2 h (effect_of hc ha h)

/-! ## Coherence -/

lemma balances_of_moves {orgId : Uuid} {d : Int} (hc : Coherent db)
    (hmoves : db.toCredits.Moves db'.toCredits orgId d)
    (hrange : ∀ b, db.balance orgId = some b → Credits.InRange (b + d)) :
    ∀ org b, db'.balance org = some b → Credits.InRange b := by
  intro org b hb
  by_cases h : org = orgId
  · subst h
    cases hb₀ : db.balance org with
    | none =>
      obtain ⟨rows, -, -, hbal⟩ := hmoves
      simp [hbal, hb₀] at hb
    | some b₀ =>
      rw [hmoves.balance_self hb₀] at hb
      cases hb
      exact hrange b₀ hb₀
  · rw [hmoves.balance_of_ne h] at hb
    exact hc.balances org b hb

lemma orgs_of_moves {orgId org : Uuid} {d : Int}
    (hmoves : db.toCredits.Moves db'.toCredits orgId d) (h : ∃ b, db.balance org = some b) :
    ∃ b, db'.balance org = some b := by
  obtain ⟨b, hb⟩ := h
  obtain ⟨rows, -, -, hbal⟩ := hmoves
  exact ⟨_, by rw [hbal, hb, Option.map_some]⟩

lemma latest_closing {callId : Uuid} {res : Reservation} {actual : Int} {finalState : HoldState}
    {s : Settlement} (h : Closing db db' res actual finalState s) :
    db'.latest callId = (db.latest callId).map fun r =>
      if r.id = res.id then r.closeWith finalState s else r := by
  unfold latest
  rw [h.rows, Table.get_update_by (Reservation.closeWith_keepsCall finalState s)]

lemma coherent_opened {orgId : Uuid} {row : Reservation} {b : Int} (hc : Coherent db)
    (horg : row.orgId = orgId) (hb : db.balance orgId = some b)
    (h₀ : 0 ≤ row.heldCredits) (hmax : row.heldCredits ≤ i32Max)
    (hids : ∀ r ∈ db.reservations, r.id ≠ row.id)
    (hopen : ∀ r ∈ db.reservations, r.callId = row.callId → r.state ≠ .held)
    (hrows : db'.reservations = row :: db.reservations)
    (hrange : Credits.InRange (b + -row.heldCredits))
    (hmoves : db.toCredits.Moves db'.toCredits orgId (-row.heldCredits)) : Coherent db' where
  balances := by
    refine balances_of_moves hc hmoves fun b' hb' => ?_
    rw [hb] at hb'
    cases hb'
    exact hrange
  holds := by
    rw [hrows]
    exact List.forall_mem_cons.mpr ⟨⟨h₀, hmax⟩, hc.holds⟩
  orgs := by
    rw [hrows]
    refine List.forall_mem_cons.mpr ⟨orgs_of_moves hmoves ⟨b, horg ▸ hb⟩, fun r hr => ?_⟩
    exact orgs_of_moves hmoves (hc.orgs r hr)
  ids := by
    rw [hrows]
    intro r hr r' hr' hid
    rcases List.mem_cons.mp hr with h | h <;> rcases List.mem_cons.mp hr' with h' | h'
    · rw [h, h']
    · exact absurd (h ▸ hid).symm (hids r' h')
    · exact absurd (h' ▸ hid) (hids r h)
    · exact hc.ids r h r' h' hid
  latest_open := by
    unfold latest
    rw [hrows]
    intro r hr hheld
    rcases List.mem_cons.mp hr with rfl | hr
    · exact Table.get_cons_self rfl
    · rw [Table.get_cons_of_ne fun hcall => hopen r hr hcall.symm hheld]
      exact hc.latest_open r hr hheld

lemma coherent_closed {res : Reservation} {actual : Int} {finalState : HoldState}
    {s : Settlement} (hc : Coherent db) (hfinal : finalState ≠ .held)
    (hclosing : Closing db db' res actual finalState s)
    (hrange : ∀ b, db.balance res.orgId = some b →
      Credits.InRange (b + (res.heldCredits - s.settled))) : Coherent db' := by
  have hmem : ∀ r ∈ db'.reservations,
      (∃ r' ∈ db.reservations, r = r'.closeWith finalState s) ∨
        (r ∈ db.reservations ∧ r.id ≠ res.id) := by
    intro r hr
    rw [hclosing.rows] at hr
    rcases Table.mem_update.mp hr with ⟨r', hr', -, rfl⟩ | h
    · exact .inl ⟨r', hr', rfl⟩
    · exact .inr h
  refine ⟨balances_of_moves hc hclosing.moves hrange, ?_, ?_, ?_, ?_⟩
  · intro r hr
    rcases hmem r hr with ⟨r', hr', rfl⟩ | ⟨hr, -⟩
    · exact hc.holds r' hr'
    · exact hc.holds r hr
  · intro r hr
    rcases hmem r hr with ⟨r', hr', rfl⟩ | ⟨hr, -⟩
    · exact orgs_of_moves hclosing.moves (hc.orgs r' hr')
    · exact orgs_of_moves hclosing.moves (hc.orgs r hr)
  · intro r hr r' hr' hid
    rw [hclosing.rows] at hr hr'
    rcases Table.mem_update.mp hr with ⟨r₁, hr₁, hk, rfl⟩ | ⟨hr, hk⟩ <;>
      rcases Table.mem_update.mp hr' with ⟨r₂, hr₂, hk', rfl⟩ | ⟨hr', hk'⟩
    · rw [hc.ids r₁ hr₁ r₂ hr₂ hid]
    · exact absurd (hid.symm.trans hk) hk'
    · exact absurd (hid.trans hk') hk
    · exact hc.ids r hr r' hr' hid
  · intro r hr hheld
    rcases hmem r hr with ⟨r', hr', rfl⟩ | ⟨hr, hk⟩
    · exact absurd hheld hfinal
    · rw [latest_closing hclosing, hc.latest_open r hr hheld, Option.map_some, if_neg hk]

/-- **A step keeps coherence.** -/
theorem coherent_commit (hc : Coherent db) (ha : db.Admissible op) : Coherent (db.commit op) := by
  refine commit_induction Coherent hc ha hc fun out db' _ heffect => ?_
  cases heffect with
  | short | replayed => exact hc
  | opened hid hcall horg hstate h₀ hmax hids hopen hrows hb hrange hmoves =>
    exact coherent_opened hc horg hb h₀ hmax hids hopen hrows hrange hmoves
  | closed hcost hl hstate hfinal hclosing hrange =>
    exact coherent_closed hc hfinal hclosing hrange
  | moved hcost hout hrows hrange hmoves =>
    refine ⟨balances_of_moves hc hmoves hrange, ?_, ?_, ?_, ?_⟩
    · exact hrows ▸ hc.holds
    · exact hrows ▸ fun r hr => orgs_of_moves hmoves (hc.orgs r hr)
    · exact hrows ▸ hc.ids
    · unfold latest
      exact hrows ▸ hc.latest_open

/-! ## What stays as it is -/

/-- The hold with identifier `id`. -/
def hold (db : Reservations) (id : Uuid) : Option Reservation :=
  Table.get Reservation.id db.reservations id

/-- The hold with identifier `id` is open. -/
def isOpen (db : Reservations) (id : Uuid) : Bool :=
  (db.hold id).any fun r => r.state = .held

lemma hold_closing {id : Uuid} {res : Reservation} {actual : Int} {finalState : HoldState}
    {s : Settlement} (h : Closing db db' res actual finalState s) :
    db'.hold id = (db.hold id).map fun r =>
      if r.id = res.id then r.closeWith finalState s else r := by
  unfold hold
  rw [h.rows, Table.get_update_by (Reservation.closeWith_keepsId finalState s)]

/-- Two holds of one identifier are one hold. -/
lemma hold_unique (hc : Coherent db) {id : Uuid} {r res : Reservation} (h : db.hold id = some r)
    (hres : res ∈ db.reservations) (hid : r.id = res.id) : r = res :=
  hc.ids r (Table.mem_of_get h) res hres hid

/-- **A closed hold is never written again.** -/
theorem hold_commit_of_closed (hc : Coherent db) (ha : db.Admissible op) {id : Uuid}
    {r : Reservation} (h : db.hold id = some r) (hstate : r.state ≠ .held) :
    (db.commit op).hold id = some r := by
  refine commit_induction (hold · id = some r) hc ha h fun out db' _ heffect => ?_
  cases heffect with
  | short | replayed => exact h
  | opened hid hcall horg hheld h₀ hmax hids hopen hrows hb hrange hmoves =>
    have hne : r.id ≠ _ := hids r (Table.mem_of_get h)
    have hrid : r.id = id := Table.key_of_get h
    unfold hold at h ⊢
    rw [hrows, Table.get_cons_of_ne fun heq => hne (hrid.trans heq.symm), h]
  | closed hcost hl hheld hfinal hclosing hrange =>
    rw [hold_closing hclosing, h, Option.map_some, if_neg]
    exact fun hid => hstate (hold_unique hc h (latest_mem hl) hid ▸ hheld)
  | moved hcost hout hrows hrange hmoves =>
    unfold hold at h ⊢
    rw [hrows, h]

/-- The latest hold of a call, once closed, stays the latest while no other is taken. -/
theorem latest_commit_of_closed (hc : Coherent db) (ha : db.Admissible op) {callId : Uuid}
    {r : Reservation} (h : db.latest callId = some r) (hstate : r.state ≠ .held)
    (hop : op.holdsFor ≠ some callId) : (db.commit op).latest callId = some r := by
  refine commit_induction (latest · callId = some r) hc ha h fun out db' _ heffect => ?_
  cases heffect with
  | short | replayed => exact h
  | opened hid hcall horg hheld h₀ hmax hids hopen hrows hb hrange hmoves =>
    unfold latest at h ⊢
    rw [hrows, Table.get_cons_of_ne, h]
    rintro rfl
    exact hop (by rw [PoolOp.holdsFor, hcall])
  | closed hcost hl hheld hfinal hclosing hrange =>
    rw [latest_closing hclosing, h, Option.map_some, if_neg]
    intro hid
    exact hstate (hc.ids r (latest_mem h) _ (latest_mem hl) hid ▸ hheld)
  | moved hcost hout hrows hrange hmoves =>
    unfold latest at h ⊢
    rw [hrows, h]

/-- A hold keeps its organisation and its amount. -/
theorem hold_commit_amount (hc : Coherent db) (ha : db.Admissible op) {id : Uuid}
    {r : Reservation} (h : db.hold id = some r) :
    ∃ r', (db.commit op).hold id = some r' ∧ r'.orgId = r.orgId ∧
      r'.heldCredits = r.heldCredits := by
  refine commit_induction (fun t => ∃ r', t.hold id = some r' ∧ r'.orgId = r.orgId ∧
    r'.heldCredits = r.heldCredits) hc ha ⟨r, h, rfl, rfl⟩ fun out db' _ heffect => ?_
  cases heffect with
  | short | replayed => exact ⟨r, h, rfl, rfl⟩
  | opened hid hcall horg hheld h₀ hmax hids hopen hrows hb hrange hmoves =>
    have hne : r.id ≠ _ := hids r (Table.mem_of_get h)
    have hrid : r.id = id := Table.key_of_get h
    unfold hold at h ⊢
    rw [hrows, Table.get_cons_of_ne fun heq => hne (hrid.trans heq.symm), h]
    exact ⟨r, rfl, rfl, rfl⟩
  | closed hcost hl hheld hfinal hclosing hrange =>
    rw [hold_closing hclosing, h, Option.map_some]
    refine ⟨_, rfl, ?_, ?_⟩ <;> split_ifs <;> rfl
  | moved hcost hout hrows hrange hmoves =>
    unfold hold at h ⊢
    rw [hrows, h]
    exact ⟨r, rfl, rfl, rfl⟩

/-- **The books balance.**  A step moves every balance by the sum of the rows it appends. -/
theorem accounted_commit (hc : Coherent db) (ha : db.Admissible op) :
    db.toCredits.Accounted (db.commit op).toCredits := by
  refine commit_induction (fun t => db.toCredits.Accounted t.toCredits) hc ha (.refl _) fun out db' _ heffect => ?_
  cases heffect with
  | short | replayed => exact .refl _
  | opened hid hcall horg hheld h₀ hmax hids hopen hrows hb hrange hmoves =>
    exact hmoves.accounted
  | closed hcost hl hheld hfinal hclosing hrange => exact hclosing.moves.accounted
  | moved hcost hout hrows hrange hmoves => exact hmoves.accounted

/-! ## Closing steps -/

/-- What a transaction moves in a pool. -/
def movement (db : Reservations) (op : PoolOp) (orgId : Uuid) : Int :=
  ((db.commit op).balance orgId).getD 0 - (db.balance orgId).getD 0

lemma commit_of_exec (h : db.exec op = some (out, db')) : db.commit op = db' := by
  simp [commit, h]

lemma movement_of_moves {orgId : Uuid} {d b : Int} (hb : db.balance orgId = some b)
    (h : db.toCredits.Moves (db.commit op).toCredits orgId d) : db.movement op orgId = d := by
  rw [movement, h.balance_self hb, hb, Option.getD_some, Option.getD_some]
  omega

/-- A closing transaction never fails. -/
lemma exec_of_cost (hc : Coherent db) (ha : db.Admissible op) {callId : Uuid} {actual : Int}
    (hcost : op.cost = some (callId, actual)) : ∃ s db', db.exec op = some (.closed s, db') := by
  obtain ⟨hwf, hfits⟩ := ha
  have hclose : ∀ (sessionId : Uuid) (finalState : HoldState), 0 ≤ actual → actual ≤ i32Max →
      ∃ s db', db.close callId sessionId actual finalState = some (s, db') := by
    intro sessionId finalState h₀ hmax
    rcases close_cases hc sessionId finalState h₀ hmax (fits_of_cost hfits hcost) with
      ⟨-, h⟩ | ⟨res, s, db', -, -, h, -⟩
    · exact ⟨_, _, h⟩
    · exact ⟨_, _, h⟩
  cases op with
  | settle callId' sessionId actual' =>
    cases hcost
    obtain ⟨s, db', h⟩ := hclose sessionId .settled (le_max_right actual' 0)
      (max_le hwf.2 (by decide))
    exact ⟨s, db', by simp [exec, settleTx, h]⟩
  | release callId' sessionId =>
    cases hcost
    obtain ⟨s, db', h⟩ := hclose sessionId .released (le_refl 0) (by decide)
    exact ⟨s, db', by simp [exec, releaseTx, h]⟩
  | reserve | deduct | add => cases hcost

/-- **The closing step.**  It pays or records what the call cost, and gives the pool back
what of the hold it did not pay. -/
theorem closing_step (hc : Coherent db) (ha : db.Admissible op) {callId : Uuid} {actual : Int}
    {res : Reservation} (hcost : op.cost = some (callId, actual))
    (hl : db.latest callId = some res) (hheld : res.state = .held) :
    ∃ s, db.exec op = some (.closed (some s), db.commit op) ∧ s.settled + s.shortfall = actual ∧
      db.movement op res.orgId = res.heldCredits - s.settled := by
  obtain ⟨out, db', h⟩ := exec_of_cost hc ha hcost
  have heffect := effect_of hc ha h
  have hdb' := commit_of_exec h
  cases heffect with
  | short hnone _ => rw [hcost] at hnone; cases hnone
  | replayed hcost' hclosed =>
    rw [hcost] at hcost'
    cases hcost'
    exact absurd hheld (hclosed res hl)
  | @closed _ callId' actual' res' _ s _ hcost' hl' hheld' hfinal hclosing hrange =>
    rw [hcost] at hcost'
    cases hcost'
    rw [hl] at hl'
    cases hl'
    obtain ⟨b, hb⟩ := hc.orgs res (latest_mem hl)
    exact ⟨s, by rw [hdb', h], hclosing.cost, movement_of_moves hb (hdb' ▸ hclosing.moves)⟩
  | moved hnone _ => rw [hcost] at hnone; cases hnone

/-- A closing transaction that finds no open hold reports the settlement of the latest one
and changes nothing. -/
theorem replay_step (hc : Coherent db) (ha : db.Admissible op) {callId : Uuid} {actual : Int}
    {res : Reservation} (hcost : op.cost = some (callId, actual))
    (hl : db.latest callId = some res) (hstate : res.state ≠ .held) :
    db.exec op = some (.closed (some res.settlement), db) := by
  obtain ⟨out, db', h⟩ := exec_of_cost hc ha hcost
  have heffect := effect_of hc ha h
  cases heffect with
  | short hnone _ => rw [hcost] at hnone; cases hnone
  | replayed hcost' hclosed =>
    rw [hcost] at hcost'
    cases hcost'
    rw [h, hl, Option.map_some]
  | closed hcost' hl' hheld' hfinal hclosing hrange =>
    rw [hcost] at hcost'
    cases hcost'
    rw [hl] at hl'
    cases hl'
    exact absurd hheld' hstate
  | moved hnone _ => rw [hcost] at hnone; cases hnone

/-- After a closing transaction that reported a settlement, the latest hold of the call is
closed and holds that settlement. -/
theorem latest_of_closed (hc : Coherent db) (ha : db.Admissible op) {callId : Uuid}
    {actual : Int} {s : Settlement} (hcost : op.cost = some (callId, actual))
    (h : db.exec op = some (.closed (some s), db')) :
    ∃ res, db'.latest callId = some res ∧ res.state ≠ .held ∧ res.settlement = s := by
  generalize hout : PoolOutcome.closed (some s) = out at h
  have heffect := effect_of hc ha h
  cases heffect with
  | short hnone _ => rw [hcost] at hnone; cases hnone
  | replayed hcost' hclosed =>
    rw [hcost] at hcost'
    cases hcost'
    obtain ⟨res, hl, hs⟩ := Option.map_eq_some_iff.mp (PoolOutcome.closed.inj hout).symm
    exact ⟨res, hl, hclosed res hl, hs⟩
  | opened => cases hout
  | @closed _ callId' actual' res' finalState s' _ hcost' hl' hheld' hfinal hclosing hrange =>
    cases hout
    rw [hcost] at hcost'
    cases hcost'
    refine ⟨res'.closeWith finalState s, ?_, hfinal, ?_⟩
    · rw [latest_closing hclosing, hl', Option.map_some, if_pos rfl]
    · cases s
      simp only [Reservation.settlement, Reservation.closeWith, Settlement.mk.injEq]
      exact ⟨hclosing.held.symm, trivial, trivial, trivial⟩
  | moved hnone _ => rw [hcost] at hnone; cases hnone

/-- **The opening step** moves the held credits out of the pool. -/
theorem opening_step (hc : Coherent db) (ha : db.Admissible op) {row : Reservation}
    (h : db.exec op = some (.reserved (.held row), db')) :
    db'.hold row.id = some row ∧ db.movement op row.orgId = -row.heldCredits := by
  generalize hout : PoolOutcome.reserved (.held row) = out at h
  have heffect := effect_of hc ha h
  have hdb' := commit_of_exec h
  cases heffect with
  | short _ hne => exact absurd hout.symm (hne row)
  | replayed => cases hout
  | opened hid hcall horg hheld h₀ hmax hids hopen hrows hb hrange hmoves =>
    cases hout
    refine ⟨?_, ?_⟩
    · unfold hold
      rw [hrows, Table.get_cons_self rfl]
    · subst horg
      exact movement_of_moves hb (hdb' ▸ hmoves)
  | closed => cases hout
  | moved _ hne => exact absurd hout.symm (hne row)

/-! ## Runs -/

/-- A run of admissible transactions. -/
def PoolRun (db : Reservations) (ops : List PoolOp) (db' : Reservations) : Prop :=
  Run (Guarded (ofFun commit) Admissible) db ops db'

/-- The state after a sequence of transactions. -/
def after (db : Reservations) (ops : List PoolOp) : Reservations := ops.foldl commit db

/-- How often the hold `id` goes from open to not open in a run. -/
def closings (id : Uuid) : Reservations → List PoolOp → Nat
  | _, [] => 0
  | db, op :: ops =>
    (if db.isOpen id ∧ ¬ (db.commit op).isOpen id then 1 else 0) + closings id (db.commit op) ops

variable {ops : List PoolOp}

lemma PoolRun.eq_after (h : PoolRun db ops db') : db' = db.after ops :=
  (Run.ofFun_iff.mp h.ofGuarded).symm

/-- A run keeps what an admissible transaction on a coherent state keeps. -/
lemma PoolRun.keeps (P : Reservations → Prop) (hrun : PoolRun db ops db') (hc : Coherent db)
    (hstep : ∀ d, ∀ o ∈ ops, Coherent d → d.Admissible o → P d → P (d.commit o)) (hp : P db) :
    Coherent db' ∧ P db' := by
  refine Run.invariant (fun d => Coherent d ∧ P d) hrun ?_ ⟨hc, hp⟩
  rintro d o ho _ ⟨hd, hpd⟩ ⟨ha, rfl⟩
  exact ⟨coherent_commit hd ha, hstep d o ho hd ha hpd⟩

lemma PoolRun.coherent (hrun : PoolRun db ops db') (hc : Coherent db) : Coherent db' :=
  (hrun.keeps (fun _ => True) hc (fun _ _ _ _ _ _ => trivial) trivial).1

/-- Along a run, the state before each transaction is coherent and the transaction is
admissible there. -/
lemma PoolRun.split {pre post : List PoolOp} {o : PoolOp} (hc : Coherent db)
    (hrun : PoolRun db (pre ++ o :: post) db') :
    PoolRun db pre (db.after pre) ∧ Coherent (db.after pre) ∧ (db.after pre).Admissible o ∧
      PoolRun ((db.after pre).commit o) post db' := by
  obtain ⟨d, hpre, hrest⟩ := Run.append_iff.mp hrun
  obtain ⟨d', ⟨ha, rfl⟩, hpost⟩ := Run.cons_iff.mp hrest
  have hd : d = db.after pre := PoolRun.eq_after hpre
  subst hd
  exact ⟨hpre, PoolRun.coherent hpre hc, ha, hpost⟩

lemma closings_of_closed {id : Uuid} {r : Reservation} (hrun : PoolRun db ops db')
    (hc : Coherent db) (h : db.hold id = some r) (hstate : r.state ≠ .held) :
    closings id db ops = 0 := by
  induction ops generalizing db with
  | nil => rfl
  | cons op ops ih =>
    obtain ⟨d, ⟨ha, rfl⟩, hrun⟩ := Run.cons_iff.mp hrun
    rw [closings, ih hrun (coherent_commit hc ha) (hold_commit_of_closed hc ha h hstate),
      if_neg (by simp [isOpen, h, hstate])]

/-- **Every hold is closed at most once.** -/
theorem closings_le_one {id : Uuid} (hrun : PoolRun db ops db') (hc : Coherent db) :
    closings id db ops ≤ 1 := by
  induction ops generalizing db with
  | nil => exact Nat.zero_le 1
  | cons op ops ih =>
    obtain ⟨d, ⟨ha, rfl⟩, hrun⟩ := Run.cons_iff.mp hrun
    rw [closings]
    split_ifs with h
    · -- the hold is closed here, and from here on it stays as it is
      obtain ⟨hopen, hclosed⟩ := h
      cases hr : db.hold id with
      | none => simp [isOpen, hr] at hopen
      | some r =>
        obtain ⟨r', hr', -⟩ := hold_commit_amount hc ha hr
        have hstate : r'.state ≠ .held := by
          intro hheld
          exact hclosed (by simp [isOpen, hr', hheld])
        rw [closings_of_closed hrun (coherent_commit hc ha) hr' hstate]
    · rw [zero_add]
      exact ih hrun (coherent_commit hc ha)

/-- **The organisation pool conserves credits.**  In every run of admissible transactions
from a coherent state: no balance is ever in debt; every balance is the initial one plus the
ledger rows written since; every hold is closed at most once; a closing step pays or records
the cost of the call, and together with the hold taken for it has moved exactly what was
settled; and closing the same call again, while no new hold was taken for it, reports the
same settlement and moves nothing. -/
theorem credits_conserved (hc : Coherent db) (hrun : PoolRun db ops db') :
    (∀ org b, db'.balance org = some b → 0 ≤ b) ∧
    db.toCredits.Accounted db'.toCredits ∧
    (∀ id, closings id db ops ≤ 1) ∧
    (∀ pre op post, ops = pre ++ op :: post → ∀ callId actual res,
      op.cost = some (callId, actual) → (db.after pre).latest callId = some res →
      res.state = .held →
      ∃ s, (db.after pre).exec op = some (.closed (some s), (db.after pre).commit op) ∧
        s.settled + s.shortfall = actual) ∧
    (∀ pre op mid op' post, ops = pre ++ op :: (mid ++ op' :: post) → ∀ row d,
      (db.after pre).exec op = some (.reserved (.held row), d) → ∀ callId actual res,
      op'.cost = some (callId, actual) → (d.after mid).latest callId = some res →
      res.id = row.id → res.state = .held →
      ∃ s d', (d.after mid).exec op' = some (.closed (some s), d') ∧
        (db.after pre).movement op row.orgId + (d.after mid).movement op' row.orgId
          = -s.settled) ∧
    (∀ pre op mid op' post, ops = pre ++ op :: (mid ++ op' :: post) → ∀ s d,
      (db.after pre).exec op = some (.closed (some s), d) → ∀ callId actual actual',
      op.cost = some (callId, actual) → op'.cost = some (callId, actual') →
      (∀ o ∈ mid, o.holdsFor ≠ some callId) →
      (d.after mid).exec op' = some (.closed (some s), d.after mid)) := by
  refine ⟨?_, ?_, fun id => closings_le_one hrun hc, ?_, ?_, ?_⟩
  · intro org b hb
    exact ((hrun.coherent hc).balances org b hb).1
  · exact (hrun.keeps (fun d => db.toCredits.Accounted d.toCredits) hc
      (fun d o _ hd ha h => h.trans (accounted_commit hd ha)) (.refl _)).2
  · rintro pre op post rfl callId actual res hcost hl hheld
    obtain ⟨-, hcp, ha, -⟩ := hrun.split hc
    obtain ⟨s, hexec, hsum, -⟩ := closing_step hcp ha hcost hl hheld
    exact ⟨s, hexec, hsum⟩
  · rintro pre op mid op' post rfl row d hexec callId actual res hcost hl hid hheld
    obtain ⟨-, hcp, ha, hrest⟩ := hrun.split hc
    obtain ⟨hrow, hopened⟩ := opening_step hcp ha hexec
    rw [commit_of_exec hexec] at hrest
    have hcd : Coherent d := commit_of_exec hexec ▸ coherent_commit hcp ha
    obtain ⟨hmid, hcm, ha', -⟩ := hrest.split hcd
    -- between the two steps the hold keeps its organisation and its amount
    obtain ⟨-, r, hr, horg, hamount⟩ := hmid.keeps (fun t => ∃ r, t.hold row.id = some r ∧
      r.orgId = row.orgId ∧ r.heldCredits = row.heldCredits) hcd (by
        rintro t o - ht hao ⟨r, hr, horg, hamount⟩
        obtain ⟨r', hr', horg', hamount'⟩ := hold_commit_amount ht hao hr
        exact ⟨r', hr', horg'.trans horg, hamount'.trans hamount⟩) ⟨row, hrow, rfl, rfl⟩
    have hres : r = res :=
      hold_unique hcm hr (latest_mem hl) ((Table.key_of_get hr).trans hid.symm)
    subst hres
    obtain ⟨s, hexec', -, hclosed⟩ := closing_step hcm ha' hcost hl hheld
    refine ⟨s, _, hexec', ?_⟩
    rw [hopened, ← horg, hclosed, hamount]
    omega
  · rintro pre op mid op' post rfl s d hexec callId actual actual' hcost hcost' hfree
    obtain ⟨-, hcp, ha, hrest⟩ := hrun.split hc
    obtain ⟨res, hl, hstate, rfl⟩ := latest_of_closed hcp ha hcost hexec
    rw [commit_of_exec hexec] at hrest
    have hcd : Coherent d := commit_of_exec hexec ▸ coherent_commit hcp ha
    obtain ⟨hmid, hcm, ha', -⟩ := hrest.split hcd
    obtain ⟨-, hl'⟩ := hmid.keeps (fun t => t.latest callId = some res) hcd
      (fun t o ho ht hao h => latest_commit_of_closed ht hao h hstate (hfree o ho)) hl
    exact replay_step hcm ha' hcost' hl' hstate

/-- One organisation with a balance and no call. -/
def poolOf (balance : Int) : Reservations :=
  { organizations := [⟨0, balance⟩], transactions := [], reservations := [] }

lemma balance_poolOf {balance b : Int} {org : Uuid} (h : (poolOf balance).balance org = some b) :
    org = 0 ∧ b = balance := by
  by_cases horg : org = 0
  · subst horg
    exact ⟨rfl, (Option.some.inj h).symm⟩
  · have hnone : (poolOf balance).balance org = none := by
      simp [poolOf, Credits.balance, eq_comm (a := 0), horg]
    rw [hnone] at h
    cases h

lemma coherent_poolOf {balance : Int} (h : Credits.InRange balance) : Coherent (poolOf balance) where
  balances := fun org b hb => (balance_poolOf hb).2 ▸ h
  holds := by simp [poolOf]
  orgs := by simp [poolOf]
  ids := by simp [poolOf, Table.Unique]
  latest_open := by simp [poolOf]

/-- A call that is held at ten credits and costs four, closed twice. -/
def callOfFour : List PoolOp :=
  [.reserve 0 7 1 none 10 1, .settle 7 1 4, .settle 7 1 4]

/-- The laws on the run of one call. -/
theorem credits_conserved_callOfFour :
    (poolOf 100).after callOfFour =
      { organizations := [⟨0, 96⟩]
        transactions :=
          [⟨0, 6, kindRelease, "Unused hold returned after a translated phone call", some 1, none,
            none⟩,
           ⟨0, -10, kindHold, "Hold for a translated phone call", some 1, none, none⟩]
        reservations := [⟨1, 7, 0, 10, 4, 6, 0, .settled⟩] } ∧
    (poolOf 100).toCredits.Accounted ((poolOf 100).after callOfFour).toCredits ∧
    closings 1 (poolOf 100) callOfFour ≤ 1 := by
  have hc : Coherent (poolOf 100) := coherent_poolOf (by decide)
  have hrun : PoolRun (poolOf 100) callOfFour ((poolOf 100).after callOfFour) :=
    .cons ⟨by decide, rfl⟩ (.cons ⟨by decide, rfl⟩ (.cons ⟨by decide, rfl⟩ (.nil _)))
  have h := credits_conserved hc hrun
  exact ⟨by decide, h.2.1, h.2.2.1 1⟩

/-- Without the two conditions the laws fail: a grant on a full pool wraps into debt, and a
call that is held again after a release is settled a second time, differently. -/
theorem credits_not_conserved :
    (Coherent (poolOf i32Max) ∧
      ((poolOf i32Max).after [.add 0 1 "grant" "" none none]).balance 0 = some (-2147483648)) ∧
    (Coherent (poolOf 100) ∧
      ((poolOf 100).after [.reserve 0 7 1 none 10 1]).exec (.release 7 1) =
        some (.closed (some ⟨10, 0, 10, 0⟩),
          (poolOf 100).after [.reserve 0 7 1 none 10 1, .release 7 1]) ∧
      (((poolOf 100).after [.reserve 0 7 1 none 10 1, .release 7 1,
        .reserve 0 7 1 none 10 2]).exec (.settle 7 1 4)).map Prod.fst =
        some (.closed (some ⟨10, 4, 6, 0⟩))) := by
  refine ⟨⟨coherent_poolOf (by decide), by decide⟩, coherent_poolOf (by decide), ?_, ?_⟩ <;> decide

end Reservations

end VoxTranslate.Voip
