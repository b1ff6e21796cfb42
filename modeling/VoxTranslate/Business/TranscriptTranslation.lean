import VoxTranslate.Business.Credits
import VoxTranslate.Business.SpeakerNames
import VoxTranslate.Lib.Place
import VoxTranslate.Lib.Run

/-!
# Translating a transcript on demand (`business/transcripts.rs`)

A member asks for the transcript of a call in another language.  A translation that is cached is
free; otherwise the organisation is charged first, the translation is made, and it is written to
the cache.  Requests come at any time and know nothing of each other: what keeps their charges
apart is the lock that a transaction takes on the row of the organisation.
-/

namespace VoxTranslate.Business

open Lib

/-- `ceil_div`. -/
def ceilDiv (n d : Int) : Int := (max n 0 + d - 1) / d

/-- `translation_credits`: two for each thousand words. -/
def translationCredits (wordCount : Int) : Int := asI32 (ceilDiv wordCount 1000 * 2)

def flatten (segments : List Segment) : List Char :=
  List.intercalate ['\n'] (segments.map fun s => s.speakerName.toList ++ ':' :: ' ' :: s.text)

/-- A row of `transcripts`; of the cache, the entries that are strings. -/
structure TranscriptRow where
  sourceLanguage : String
  segments : List Segment
  translations : Assoc String (List Char)
  wordCount : Option Int
  /-- The column is an INTEGER. -/
  fits : ∀ n, wordCount = some n → FitsI32 n

namespace TranscriptRow

/-- What a translation costs. -/
def cost (t : TranscriptRow) : Int := translationCredits (t.wordCount.getD 0)

/-- `jsonb_set(translations, ...)`. -/
def withTranslation (t : TranscriptRow) (target : String) (translated : List Char) :
    TranscriptRow :=
  { t with translations := t.translations.insert target translated }

end TranscriptRow

structure TranslateResponse where
  language : String
  text : List Char
  cached : Bool
  creditsDeducted : Int
  deriving DecidableEq, Repr

inductive TranslateError where
  /-- The call is not the caller's to read, or reading it failed. -/
  | denied
  /-- 404, `transcript not ready`. -/
  | notReady
  /-- 500, `db error`. -/
  | db
  /-- 402, `insufficient_org_credits`. -/
  | insufficient (balance required : Int)
  /-- 502, `translation failed`. -/
  | translationFailed
  deriving DecidableEq, Repr

/-- How far a transaction on the row of the organisation has come. -/
inductive TxStage where
  /-- `BEGIN` is next. -/
  | new
  /-- `SELECT credits_balance ... FOR UPDATE` is next. -/
  | begun
  /-- The balance does not suffice; the empty transaction is committed. -/
  | refused (balance : Int)
  /-- The row is locked, and `UPDATE organizations` is next. -/
  | locked (balance : Int)
  /-- `INSERT INTO organization_credits_transactions` is next. -/
  | updated (work : Credits)
  /-- `COMMIT` is next. -/
  | inserted (work : Credits)
  deriving DecidableEq, Repr

inductive TranslatePhase where
  /-- `require_call_role`. -/
  | authorize
  /-- `SELECT ... FROM transcripts`. -/
  | load
  /-- `segments_with_names`. -/
  | names (t : TranscriptRow)
  /-- `deduct_org_credits`. -/
  | charge (cost : Int) (tx : TxStage)
  /-- `translate_fanout`. -/
  | translate (cost : Int)
  /-- `add_org_credits`. -/
  | refund (cost : Int) (tx : TxStage)
  /-- `UPDATE transcripts`. -/
  | store (translated : List Char) (cost : Int)
  | done (outcome : Except TranslateError TranslateResponse)

/-- A request, with what it has taken from the pool on balance. -/
structure TranslateRequest where
  userId : Uuid
  phase : TranslatePhase
  net : Int

/-- The call and the language that is asked for; it has passed `valid_lang`. -/
structure TranslateCall where
  orgId : Uuid
  sessionId : Uuid
  target : String
  deriving DecidableEq, Repr

structure Translations where
  db : Credits
  transcript : TranscriptRow
  /-- The row of the transcript is there. -/
  ready : Bool
  /-- The request whose transaction holds the row of the organisation. -/
  lock : Option Nat
  requests : List TranslateRequest

/-- A step of one request; `ok` is false where the database fails. -/
inductive TranslateStep where
  | authorize (allowed : Bool)
  | load (ok : Bool)
  /-- The names are looked up by two reads. -/
  | names (segments : Option (List Segment))
  /-- The next statement of the transaction. -/
  | statement (ok : Bool)
  /-- The translation, empty where the call failed. -/
  | translated (text : List Char)
  | store (ok : Bool)

inductive TranslateEvent where
  | request (userId : Uuid)
  | step (i : Nat) (a : TranslateStep)

/-! ## The transaction -/

/-- What the next statement of a transaction leads to. -/
inductive TxResult where
  | pending (tx : TxStage) (lock : Option Nat)
  | insufficient (balance : Int)
  | committed (db : Credits)

/-- The next statement, where it does not fail: the `i`-th request moves `delta` credits, of which
the ledger gets `row`.  It has to wait for the lock. -/
def TxStage.next (call : TranslateCall) (s : Translations) (i : Nat) (delta : Int)
    (row : CreditTransaction) : TxStage → Option TxResult
  | .new => some (.pending .begun s.lock)
  | .begun =>
    if s.lock = none then
      (s.db.balance call.orgId).map fun balance =>
        if delta < 0 ∧ balance < -delta then .pending (.refused balance) (some i)
        else .pending (.locked balance) (some i)
    else none
  | .refused balance => some (.insufficient balance)
  | .locked balance =>
    some (.pending (.updated (s.db.setBalance call.orgId (asI32 (balance + delta)))) s.lock)
  | .updated work => some (.pending (.inserted (work.insertTransaction row)) s.lock)
  | .inserted work => some (.committed work)

namespace TranslateCall

/-- The ledger row of a charge. -/
def chargeRow (call : TranslateCall) (userId : Uuid) (cost : Int) : CreditTransaction where
  orgId := call.orgId
  amount := asI32 (-cost)
  type := "translation"
  description := "transcript translation"
  sessionId := some call.sessionId
  actorId := some userId
  stripePaymentIntentId := none

/-- The ledger row of a refund. -/
def refundRow (call : TranslateCall) (cost : Int) : CreditTransaction where
  orgId := call.orgId
  amount := cost
  type := "translation"
  description := "refund"
  sessionId := none
  actorId := none
  stripePaymentIntentId := none

end TranslateCall

namespace Translations

variable (call : TranslateCall)

def new (db : Credits) (transcript : TranscriptRow) (ready : Bool) : Translations :=
  ⟨db, transcript, ready, none, []⟩

/-- The language is in the cache. -/
def cached (s : Translations) : Bool :=
  (s.transcript.translations.lookup call.target).isSome

/-- The request goes on to a phase. -/
def put (s : Translations) (i : Nat) (r : TranslateRequest) (phase : TranslatePhase) :
    Translations :=
  { s with requests := s.requests.set i { r with phase := phase } }

/-- The transaction of the request is over. -/
def release (s : Translations) (i : Nat) : Translations :=
  { s with lock := if s.lock = some i then none else s.lock }

/-- What is done with the transcript and its names: the language of the call and a cached one are
free. -/
def answer (t : TranscriptRow) (segments : List Segment) : TranslatePhase :=
  if call.target = t.sourceLanguage then .done (.ok ⟨call.target, flatten segments, true, 0⟩)
  else match t.translations.lookup call.target with
    | some text => .done (.ok ⟨call.target, text, true, 0⟩)
    | none => .charge t.cost .new

/-- A statement of the charge. -/
def chargeStep (s : Translations) (i : Nat) (r : TranslateRequest) (cost : Int) (tx : TxStage) :
    Bool → Option Translations
  | false => some ((s.release i).put i r (.done (.error .db)))
  | true =>
    (tx.next call s i (-cost) (call.chargeRow r.userId cost)).map fun
      | .pending tx lock => { s with lock := lock }.put i r (.charge cost tx)
      | .insufficient balance =>
        (s.release i).put i r (.done (.error (.insufficient balance cost)))
      | .committed db =>
        ({ s with db := db }.release i).put i { r with net := r.net + cost } (.translate cost)

/-- A statement of the refund; that it fails is ignored. -/
def refundStep (s : Translations) (i : Nat) (r : TranslateRequest) (cost : Int) (tx : TxStage) :
    Bool → Option Translations
  | false => some ((s.release i).put i r (.done (.error .translationFailed)))
  | true =>
    (tx.next call s i cost (call.refundRow cost)).map fun
      | .pending tx lock => { s with lock := lock }.put i r (.refund cost tx)
      | .insufficient _ => (s.release i).put i r (.done (.error .translationFailed))
      | .committed db =>
        ({ s with db := db }.release i).put i { r with net := r.net - cost }
          (.done (.error .translationFailed))

/-- The translation is written to the cache. -/
def storeStep (s : Translations) (i : Nat) (r : TranslateRequest) (translated : List Char)
    (cost : Int) : Bool → Translations
  | false => s.put i r (.done (.error .db))
  | true =>
    { s with
      transcript := s.transcript.withTranslation call.target translated }.put i r
        (.done (.ok ⟨call.target, translated, false, cost⟩))

/-- `translate`, one step of a request after the other. -/
def advance (s : Translations) (i : Nat) (r : TranslateRequest) :
    TranslatePhase → TranslateStep → Option Translations
  | .authorize, .authorize allowed =>
    some (s.put i r (if allowed then .load else .done (.error .denied)))
  | .load, .load true =>
    some (s.put i r (if s.ready then .names s.transcript else .done (.error .notReady)))
  | .load, .load false => some (s.put i r (.done (.error .db)))
  | .names _, .names none => some (s.put i r (.done (.error .db)))
  | .names t, .names (some segments) => some (s.put i r (answer call t segments))
  | .charge cost tx, .statement ok => s.chargeStep call i r cost tx ok
  | .translate cost, .translated text =>
    some (s.put i r (if text = [] then .refund cost .new else .store text cost))
  | .refund cost tx, .statement ok => s.refundStep call i r cost tx ok
  | .store translated cost, .store ok => some (s.storeStep call i r translated cost ok)
  | _, _ => none

/-- What a step does in a phase. -/
inductive Advances (s : Translations) (i : Nat) (r : TranslateRequest) :
    TranslatePhase → TranslateStep → Translations → Prop
  | authorize (allowed : Bool) : Advances s i r .authorize (.authorize allowed)
      (s.put i r (if allowed then .load else .done (.error .denied)))
  | load : Advances s i r .load (.load true)
      (s.put i r (if s.ready then .names s.transcript else .done (.error .notReady)))
  | loadFailed : Advances s i r .load (.load false) (s.put i r (.done (.error .db)))
  | namesFailed (row : TranscriptRow) :
      Advances s i r (.names row) (.names none) (s.put i r (.done (.error .db)))
  | names (row : TranscriptRow) (segments : List Segment) :
      Advances s i r (.names row) (.names (some segments)) (s.put i r (answer call row segments))
  | charge (cost : Int) (tx : TxStage) (ok : Bool) (t : Translations)
      (hstep : s.chargeStep call i r cost tx ok = some t) :
      Advances s i r (.charge cost tx) (.statement ok) t
  | translate (cost : Int) (text : List Char) : Advances s i r (.translate cost) (.translated text)
      (s.put i r (if text = [] then .refund cost .new else .store text cost))
  | refund (cost : Int) (tx : TxStage) (ok : Bool) (t : Translations)
      (hstep : s.refundStep call i r cost tx ok = some t) :
      Advances s i r (.refund cost tx) (.statement ok) t
  | store (text : List Char) (cost : Int) (ok : Bool) :
      Advances s i r (.store text cost) (.store ok) (s.storeStep call i r text cost ok)

variable {call} in
lemma advances_of_advance {s t : Translations} {i : Nat} {r : TranslateRequest}
    {phase : TranslatePhase} {a : TranslateStep} (h : s.advance call i r phase a = some t) :
    s.Advances call i r phase a t := by
  unfold advance at h
  split at h
  · cases h
    exact .authorize _
  · cases h
    exact .load
  · cases h
    exact .loadFailed
  · cases h
    exact .namesFailed _
  · cases h
    exact .names _ _
  · exact .charge _ _ _ _ h
  · cases h
    exact .translate _ _
  · exact .refund _ _ _ _ h
  · cases h
    exact .store _ _ _
  · cases h

def step (s : Translations) : TranslateEvent → Option Translations
  | .request userId => some { s with requests := s.requests ++ [⟨userId, .authorize, 0⟩] }
  | .step i a => (s.requests[i]?).bind fun r => s.advance call i r r.phase a

end Translations

/-! ## What a translation costs -/

lemma TranscriptRow.cost_range (t : TranscriptRow) : Credits.InRange t.cost := by
  have hwords : t.wordCount.getD 0 ≤ i32Max := by
    cases hn : t.wordCount with
    | none => decide
    | some n => exact (t.fits n hn).2
  unfold i32Max at hwords
  have hceil : 0 ≤ ceilDiv (t.wordCount.getD 0) 1000 * 2 ∧
      ceilDiv (t.wordCount.getD 0) 1000 * 2 ≤ i32Max := by
    unfold ceilDiv i32Max
    omega
  rw [cost, translationCredits, asI32_of_le hceil.1 hceil.2]
  exact hceil

/-! ## What a transaction holds -/

/-- A transaction that has read the balance holds the lock, and what it has read and written so far
still fits the pool. -/
def TxStage.Sound (orgId : Uuid) (delta : Int) (db : Credits) (holds : Prop) : TxStage → Prop
  | .new => True
  | .begun => True
  | .refused _ => holds ∧ delta < 0
  | .locked b => holds ∧ db.balance orgId = some b ∧ FitsI32 (b + delta)
  | .updated work => holds ∧ ∃ b, db.balance orgId = some b ∧ FitsI32 (b + delta) ∧
      work = db.setBalance orgId (b + delta)
  | .inserted work => holds ∧ ∃ b, db.balance orgId = some b ∧ FitsI32 (b + delta) ∧
      Credits.Moves db work orgId delta

/-- A request that has been charged has the cost on its account, until it is refunded. -/
def TranslateRequest.Sound (orgId : Uuid) (cost : Int) (db : Credits) (holds : Prop)
    (r : TranslateRequest) : Prop :=
  match r.phase with
  | .authorize => r.net = 0
  | .load => r.net = 0
  | .names t => r.net = 0 ∧ t.cost = cost
  | .charge c tx => r.net = 0 ∧ c = cost ∧ tx.Sound orgId (-cost) db holds
  | .translate c => r.net = cost ∧ c = cost
  | .refund c tx => r.net = cost ∧ c = cost ∧ tx.Sound orgId cost db holds
  | .store _ c => r.net = cost ∧ c = cost
  | .done (.ok response) => r.net = response.creditsDeducted ∧ (r.net = 0 ∨ r.net = cost)
  | .done (.error _) => r.net = 0 ∨ r.net = cost

variable {orgId : Uuid} {cost delta initial : Int} {db db' : Credits} {holds holds' : Prop}
  {tx : TxStage} {r r' : TranslateRequest} {call : TranslateCall} {s t : Translations} {i : Nat}

lemma TxStage.Sound.imp (h : tx.Sound orgId delta db holds) (himp : holds → holds') :
    tx.Sound orgId delta db holds' := by
  cases tx with
  | new => trivial
  | begun => trivial
  | refused b => exact ⟨himp h.1, h.2⟩
  | locked b => exact ⟨himp h.1, h.2⟩
  | updated work => exact ⟨himp h.1, h.2⟩
  | inserted work => exact ⟨himp h.1, h.2⟩

/-- A transaction without the lock has read nothing. -/
lemma TxStage.Sound.of_not (h : tx.Sound orgId delta db holds) (hnot : ¬ holds) :
    tx.Sound orgId delta db' holds' := by
  cases tx with
  | new => trivial
  | begun => trivial
  | refused b => exact absurd h.1 hnot
  | locked b => exact absurd h.1 hnot
  | updated work => exact absurd h.1 hnot
  | inserted work => exact absurd h.1 hnot

namespace TranslateRequest

/-- What a request is sound by, its transaction apart. -/
lemma Sound.map (h : r.Sound orgId cost db holds)
    (htx : ∀ delta (tx : TxStage),
      tx.Sound orgId delta db holds → tx.Sound orgId delta db' holds') :
    r.Sound orgId cost db' holds' := by
  obtain ⟨userId, phase, net⟩ := r
  cases phase with
  | charge c tx => exact ⟨h.1, h.2.1, htx _ tx h.2.2⟩
  | refund c tx => exact ⟨h.1, h.2.1, htx _ tx h.2.2⟩
  | done outcome =>
    cases outcome with
    | ok response => exact h
    | error e => exact h
  | _ => exact h

lemma Sound.net_cases (h : r.Sound orgId cost db holds) : r.net = 0 ∨ r.net = cost := by
  obtain ⟨userId, phase, net⟩ := r
  cases phase with
  | authorize => exact .inl h
  | load => exact .inl h
  | names t => exact .inl h.1
  | charge c tx => exact .inl h.1
  | translate c => exact .inr h.1
  | refund c tx => exact .inr h.1
  | store text c => exact .inr h.1
  | done outcome =>
    cases outcome with
    | ok response => exact h.2
    | error e => exact h

end TranslateRequest

namespace Translations

/-- What the requests have taken from the pool. -/
def taken (s : Translations) : Int := (s.requests.map TranslateRequest.net).sum

/-- Every request is sound, and the pool has what it had before less what was taken. -/
structure Booked (call : TranslateCall) (cost initial : Int) (s : Translations) : Prop where
  transcript : s.transcript.cost = cost
  balance : s.db.balance call.orgId = some (initial - s.taken)
  solvent : FitsI32 (initial - s.taken)
  sound : ∀ (i : Nat) (r : TranslateRequest), s.requests[i]? = some r →
    r.Sound call.orgId cost s.db (s.lock = some i)

lemma lock_release_of_ne {j : Nat} (hj : j ≠ i) (h : s.lock = some j) :
    (s.release i).lock = some j := by
  rw [release, if_neg]
  · exact h
  · rw [h]
    exact fun heq => hj (Option.some.inj heq)

/-- A step that moves no credits, and gives the lock to no one else. -/
lemma Booked.keep (h : s.Booked call cost initial) (hr : s.requests[i]? = some r)
    (hdb : t.db = s.db) (hrequests : t.requests = s.requests.set i r') (hnet : r'.net = r.net)
    (htranscript : t.transcript.cost = cost)
    (hlock : ∀ j, j ≠ i → s.lock = some j → t.lock = some j)
    (hsound : r'.Sound call.orgId cost s.db (t.lock = some i)) : t.Booked call cost initial := by
  have htaken : t.taken = s.taken := by
    rw [taken, taken, hrequests, Place.sum_map_set hr, hnet]
    omega
  refine ⟨htranscript, ?_, ?_, fun j b hj => ?_⟩
  · rw [hdb, htaken]
    exact h.balance
  · rw [htaken]
    exact h.solvent
  · rw [hrequests] at hj
    rw [hdb]
    rcases Place.getElem?_set_cases hj with ⟨rfl, rfl⟩ | ⟨hne, hold⟩
    · exact hsound
    · exact (h.sound j b hold).map fun _ _ htx => htx.imp (hlock j hne)

/-- A commit moves the credits of its request. -/
lemma Booked.commit {b : Int} (h : s.Booked call cost initial) (hr : s.requests[i]? = some r)
    (hrequests : t.requests = s.requests.set i r') (hnet : r'.net = r.net - delta)
    (htranscript : t.transcript = s.transcript) (hholds : s.lock = some i)
    (hbalance : s.db.balance call.orgId = some b) (hrange : FitsI32 (b + delta))
    (hmoves : Credits.Moves s.db t.db call.orgId delta)
    (hsound : r'.Sound call.orgId cost t.db (t.lock = some i)) : t.Booked call cost initial := by
  have htaken : t.taken = s.taken - delta := by
    rw [taken, taken, hrequests, Place.sum_map_set hr, hnet]
    omega
  have hb : b = initial - s.taken := Option.some.inj (hbalance.symm.trans h.balance)
  have hnew : b + delta = initial - t.taken := by
    rw [hb, htaken]
    omega
  refine ⟨htranscript ▸ h.transcript, ?_, hnew ▸ hrange, fun j r₀ hj => ?_⟩
  · rw [hmoves.balance_self hbalance, hnew]
  · rw [hrequests] at hj
    rcases Place.getElem?_set_cases hj with ⟨rfl, rfl⟩ | ⟨hne, hold⟩
    · exact hsound
    · refine (h.sound j r₀ hold).map fun _ _ htx => htx.of_not ?_
      rw [hholds]
      exact fun heq => hne (Option.some.inj heq).symm

/-- A pending transaction is sound, and takes the lock from no one; a commit is by the holder of the
lock, and moves the credits. -/
def Leads (call : TranslateCall) (s : Translations) (i : Nat) (delta : Int) : TxResult → Prop
  | .pending tx lock => tx.Sound call.orgId delta s.db (lock = some i) ∧
      ∀ j, j ≠ i → s.lock = some j → lock = some j
  | .insufficient _ => delta < 0
  | .committed db => s.lock = some i ∧ ∃ b, s.db.balance call.orgId = some b ∧
      FitsI32 (b + delta) ∧ Credits.Moves s.db db call.orgId delta

lemma next_spec {row : CreditTransaction} {result : TxResult}
    (htx : tx.Sound call.orgId delta s.db (s.lock = some i)) (horg : row.orgId = call.orgId)
    (hamount : row.amount = delta)
    (hroom : ∀ b, s.db.balance call.orgId = some b → ¬ (delta < 0 ∧ b < -delta) →
      FitsI32 (b + delta))
    (hnext : tx.next call s i delta row = some result) : Leads call s i delta result := by
  cases tx with
  | new =>
    cases hnext
    exact ⟨trivial, fun _ _ hj => hj⟩
  | begun =>
    obtain ⟨hfree, hnext⟩ := Option.ite_none_right_eq_some.mp hnext
    obtain ⟨b, hb, rfl⟩ := Option.map_eq_some_iff.mp hnext
    have hothers : ∀ j, j ≠ i → s.lock = some j → some i = some j := by
      intro j _ hj
      rw [hfree] at hj
      cases hj
    by_cases hshort : delta < 0 ∧ b < -delta
    · rw [if_pos hshort]
      exact ⟨⟨rfl, hshort.1⟩, hothers⟩
    · rw [if_neg hshort]
      exact ⟨⟨rfl, hb, hroom b hb hshort⟩, hothers⟩
  | refused b =>
    cases hnext
    exact htx.2
  | locked b =>
    obtain ⟨hholds, hb, hrange⟩ := htx
    cases hnext
    refine ⟨⟨hholds, b, hb, hrange, ?_⟩, fun _ _ hj => hj⟩
    rw [asI32_eq hrange]
  | updated work =>
    obtain ⟨hholds, b, hb, hrange, rfl⟩ := htx
    cases hnext
    exact ⟨⟨hholds, b, hb, hrange, Credits.moves_write hb horg hamount⟩, fun _ _ hj => hj⟩
  | inserted work =>
    cases hnext
    exact htx

/-- A transaction that is over leaves the pool alone. -/
lemma Booked.released {phase : TranslatePhase} (h : s.Booked call cost initial)
    (hr : s.requests[i]? = some r)
    (hsound : ∀ holds, ({ r with phase := phase } : TranslateRequest).Sound call.orgId cost s.db
      holds) : ((s.release i).put i r phase).Booked call cost initial :=
  h.keep hr rfl rfl rfl h.transcript (fun _ hj => lock_release_of_ne hj) (hsound _)

lemma Booked.chargeStep {c : Int} {ok : Bool} (h : s.Booked call cost initial)
    (hr : s.requests[i]? = some r) (hphase : r.phase = .charge c tx)
    (hstep : s.chargeStep call i r c tx ok = some t) : t.Booked call cost initial := by
  have hsound := h.sound i r hr
  rw [TranslateRequest.Sound, hphase] at hsound
  obtain ⟨hnet, rfl, htx⟩ := hsound
  have hcost : Credits.InRange c := h.transcript ▸ s.transcript.cost_range
  cases ok with
  | false =>
    cases hstep
    exact h.released hr fun _ => .inl hnet
  | true =>
    obtain ⟨result, hnext, rfl⟩ := Option.map_eq_some_iff.mp hstep
    have hrow : (call.chargeRow r.userId c).amount = -c := by
      have hfits : FitsI32 (-c) := by
        unfold Credits.InRange FitsI32 i32Min i32Max at *
        omega
      exact asI32_eq hfits
    have hroom : ∀ b, s.db.balance call.orgId = some b → ¬ (-c < 0 ∧ b < - -c) →
        FitsI32 (b + -c) := by
      intro b hb hshort
      have hsolvent := h.solvent
      rw [← Option.some.inj (hb.symm.trans h.balance)] at hsolvent
      unfold Credits.InRange FitsI32 i32Min i32Max at *
      omega
    have hspec := next_spec htx rfl hrow hroom hnext
    cases result with
    | pending tx' lock =>
      exact h.keep hr rfl rfl rfl h.transcript hspec.2 ⟨hnet, rfl, hspec.1⟩
    | insufficient b => exact h.released hr fun _ => .inl hnet
    | committed db =>
      obtain ⟨hholds, b, hb, hrange, hmoves⟩ := hspec
      refine h.commit hr rfl ?_ rfl hholds hb hrange hmoves ⟨?_, rfl⟩
      · exact (sub_neg_eq_add _ _).symm
      · show r.net + c = c
        rw [hnet, zero_add]

/-- A request that was charged is among those that have taken from the pool. -/
lemma Booked.net_le_taken (h : s.Booked call cost initial) (hr : s.requests[i]? = some r) :
    r.net ≤ s.taken := by
  have hcost : 0 ≤ cost := (h.transcript ▸ s.transcript.cost_range : Credits.InRange cost).1
  refine List.single_le_sum (fun x hx => ?_) _ (List.mem_map_of_mem (List.mem_of_getElem? hr))
  obtain ⟨r', hr', rfl⟩ := List.mem_map.mp hx
  obtain ⟨j, hj⟩ := List.mem_iff_getElem?.mp hr'
  rcases (h.sound j r' hj).net_cases with hnet | hnet
  · exact hnet.ge
  · exact hcost.trans hnet.ge

lemma Booked.refundStep {c : Int} {ok : Bool} (h : s.Booked call cost initial)
    (hinitial : initial ≤ i32Max) (hr : s.requests[i]? = some r) (hphase : r.phase = .refund c tx)
    (hstep : s.refundStep call i r c tx ok = some t) : t.Booked call cost initial := by
  have hsound := h.sound i r hr
  rw [TranslateRequest.Sound, hphase] at hsound
  obtain ⟨hnet, rfl, htx⟩ := hsound
  have hcost : Credits.InRange c := h.transcript ▸ s.transcript.cost_range
  cases ok with
  | false =>
    cases hstep
    exact h.released hr fun _ => .inr hnet
  | true =>
    obtain ⟨result, hnext, rfl⟩ := Option.map_eq_some_iff.mp hstep
    have hroom : ∀ b, s.db.balance call.orgId = some b → ¬ (c < 0 ∧ b < -c) →
        FitsI32 (b + c) := by
      intro b hb _
      have hsolvent := h.solvent
      have htaken := h.net_le_taken hr
      have hb' := Option.some.inj (hb.symm.trans h.balance)
      unfold Credits.InRange FitsI32 i32Min i32Max at *
      omega
    have hspec := next_spec htx rfl rfl hroom hnext
    cases result with
    | pending tx' lock =>
      exact h.keep hr rfl rfl rfl h.transcript hspec.2 ⟨hnet, rfl, hspec.1⟩
    | insufficient b => exact absurd hspec (not_lt.mpr hcost.1)
    | committed db =>
      obtain ⟨hholds, b, hb, hrange, hmoves⟩ := hspec
      refine h.commit hr rfl rfl rfl hholds hb hrange hmoves (.inl ?_)
      show r.net - c = 0
      rw [hnet, sub_self]

/-- A step that only moves its request on. -/
lemma Booked.put {phase : TranslatePhase} (h : s.Booked call cost initial)
    (hr : s.requests[i]? = some r)
    (hsound : ({ r with phase := phase } : TranslateRequest).Sound call.orgId cost s.db
      (s.lock = some i)) : (s.put i r phase).Booked call cost initial :=
  h.keep hr rfl rfl rfl h.transcript (fun _ _ hj => hj) hsound

lemma Booked.request (h : s.Booked call cost initial) (userId : Uuid) :
    ({ s with requests := s.requests ++ [⟨userId, .authorize, 0⟩] } : Translations).Booked call
      cost initial := by
  have htaken : taken { s with requests := s.requests ++ [⟨userId, .authorize, 0⟩] } = s.taken := by
    simp [taken]
  refine ⟨h.transcript, htaken ▸ h.balance, htaken ▸ h.solvent, fun i r hi => ?_⟩
  rcases Place.getElem?_concat_cases hi with ⟨-, rfl⟩ | hold
  · exact (rfl : (0 : Int) = 0)
  · exact h.sound i r hold

lemma Booked.step {e : TranslateEvent} (h : s.Booked call cost initial)
    (hinitial : initial ≤ i32Max) (hstep : s.step call e = some t) :
    t.Booked call cost initial := by
  cases e with
  | request userId =>
    cases hstep
    exact h.request userId
  | step i a =>
    obtain ⟨r, hr, hadvance⟩ := Option.bind_eq_some_iff.mp hstep
    have hsound := h.sound i r hr
    rw [TranslateRequest.Sound] at hsound
    generalize hphase : r.phase = phase at hadvance hsound
    cases advances_of_advance hadvance with
    | authorize allowed =>
      refine h.put hr ?_
      cases allowed with
      | true => exact hsound
      | false => exact .inl hsound
    | load =>
      refine h.put hr ?_
      by_cases hready : s.ready = true
      · rw [if_pos hready]
        exact ⟨hsound, h.transcript⟩
      · rw [if_neg hready]
        exact .inl hsound
    | loadFailed => exact h.put hr (.inl hsound)
    | namesFailed row => exact h.put hr (.inl hsound.1)
    | names row segments =>
      refine h.put hr ?_
      rw [answer]
      by_cases hsource : call.target = row.sourceLanguage
      · rw [if_pos hsource]
        exact ⟨hsound.1, .inl hsound.1⟩
      · rw [if_neg hsource]
        cases row.translations.lookup call.target with
        | some text => exact ⟨hsound.1, .inl hsound.1⟩
        | none => exact ⟨hsound.1, hsound.2, trivial⟩
    | charge c tx ok t hcharge => exact h.chargeStep hr hphase hcharge
    | translate c text =>
      refine h.put hr ?_
      split_ifs
      · exact ⟨hsound.1, hsound.2, trivial⟩
      · exact hsound
    | refund c tx ok t hrefund => exact h.refundStep hinitial hr hphase hrefund
    | store text c ok =>
      cases ok with
      | false => exact h.put hr (.inr hsound.1)
      | true =>
        refine h.keep hr rfl rfl rfl h.transcript (fun _ _ hj => hj) ⟨?_, .inr hsound.1⟩
        exact hsound.1.trans hsound.2.symm

end Translations

/-! ## What the charges come to -/

namespace TranslateRequest

/-- The request has been answered. -/
def answered (r : TranslateRequest) : Bool := r.phase matches .done _

/-- What a request has taken in the end. -/
def settled (r : TranslateRequest) : Int := if r.answered then r.net else 0

/-- What the answer says. -/
def reported (r : TranslateRequest) : Int :=
  match r.phase with
  | .done (.ok response) => response.creditsDeducted
  | _ => 0

/-- What was taken for an error. -/
def lost (r : TranslateRequest) : Int :=
  match r.phase with
  | .done (.error _) => r.net
  | _ => 0

lemma Sound.settled_eq (h : r.Sound orgId cost db holds) : r.settled = r.reported + r.lost := by
  obtain ⟨userId, phase, net⟩ := r
  cases phase with
  | done outcome =>
    cases outcome with
    | ok response => exact h.1.trans (add_zero _).symm
    | error e => exact (zero_add net).symm
  | _ => rfl

end TranslateRequest

namespace Translations

variable (call) in
/-- The charges that are settled come to the cost of one translation if there is one, and to
nothing otherwise; nothing was taken for an error, and what was taken is what the answers say. -/
structure Fair (cost : Int) (s : Translations) : Prop where
  charged : (s.requests.map TranslateRequest.settled).sum = if s.cached call then cost else 0
  errors : ∀ r ∈ s.requests, r.lost = 0
  reported : (s.requests.map TranslateRequest.reported).sum =
    (s.requests.map TranslateRequest.settled).sum

/-- No refund fails, no cache write fails, and what is written was not there yet; or a translation
costs nothing. -/
def fairAdvance (cached : Bool) : TranslatePhase → TranslateStep → Bool
  | .refund cost _, .statement ok => cost = 0 || ok
  | .store _ cost, .store ok => cost = 0 || ok && !cached
  | _, _ => true

variable (call) in
def fairStep (s : Translations) : TranslateEvent → Bool
  | .request _ => true
  | .step i a => (s.requests[i]?).all fun r => fairAdvance (s.cached call) r.phase a

/-- What a step does to the charges that are settled. -/
inductive Effect (call : TranslateCall) (cost : Int) (s t : Translations) (r' : TranslateRequest)
    (fair : Bool) : Prop
  | quiet (hcached : t.cached call = s.cached call) (hsettled : r'.settled = 0)
      (hlost : r'.lost = 0)
      (hfair : fair = true)
  /-- An error is not free. -/
  | lost (hcached : t.cached call = s.cached call) (hsettled : r'.settled = cost)
      (hlost : r'.lost = cost) (hfair : fair = true ↔ cost = 0)
  /-- A translation is cached, maybe again. -/
  | stored (hcached : t.cached call = true) (hsettled : r'.settled = cost) (hlost : r'.lost = 0)
      (hfair : fair = true ↔ cost = 0 ∨ s.cached call = false)

lemma Effect.of_free {fair : Bool} (htranscript : t.transcript = s.transcript) (hnet : r'.net = 0)
    (hfair : fair = true) : Effect call cost s t r' fair := by
  refine .quiet (by rw [cached, cached, htranscript]) ?_ ?_ hfair
  · rw [TranslateRequest.settled, hnet, ite_self]
  · obtain ⟨userId, phase, net⟩ := r'
    cases phase with
    | done outcome => cases outcome with
      | ok response => rfl
      | error e => exact hnet
    | _ => rfl

lemma Effect.of_active {fair : Bool} (htranscript : t.transcript = s.transcript)
    (hactive : r'.answered = false) (hfair : fair = true) : Effect call cost s t r' fair := by
  refine .quiet (by rw [cached, cached, htranscript]) ?_ ?_ hfair
  · rw [TranslateRequest.settled, hactive]
    rfl
  · obtain ⟨userId, phase, net⟩ := r'
    cases phase with
    | done outcome => cases hactive
    | _ => rfl

/-- A statement of the charge takes nothing that is not given back or answered. -/
lemma Booked.effect_charge {c : Int} {ok : Bool} (h : s.Booked call cost initial)
    (hr : s.requests[i]? = some r) (hphase : r.phase = .charge c tx)
    (hstep : s.chargeStep call i r c tx ok = some t) :
    ∃ r', t.requests = s.requests.set i r' ∧ Effect call cost s t r' true := by
  have hsound := h.sound i r hr
  rw [TranslateRequest.Sound, hphase] at hsound
  cases ok with
  | false =>
    cases hstep
    exact ⟨_, rfl, .of_free rfl hsound.1 rfl⟩
  | true =>
    obtain ⟨result, -, rfl⟩ := Option.map_eq_some_iff.mp hstep
    cases result with
    | pending tx' lock => exact ⟨_, rfl, .of_active rfl rfl rfl⟩
    | insufficient b => exact ⟨_, rfl, .of_free rfl hsound.1 rfl⟩
    | committed db => exact ⟨_, rfl, .of_active rfl rfl rfl⟩

lemma Booked.effect_refund {c : Int} {ok : Bool} (h : s.Booked call cost initial)
    (hr : s.requests[i]? = some r) (hphase : r.phase = .refund c tx)
    (hstep : s.refundStep call i r c tx ok = some t) :
    ∃ r', t.requests = s.requests.set i r' ∧ Effect call cost s t r' (c = 0 || ok) := by
  have hsound := h.sound i r hr
  rw [TranslateRequest.Sound, hphase] at hsound
  obtain ⟨hnet, rfl, htx⟩ := hsound
  cases ok with
  | false =>
    cases hstep
    exact ⟨_, rfl, .lost rfl hnet hnet (by simp)⟩
  | true =>
    obtain ⟨result, hnext, rfl⟩ := Option.map_eq_some_iff.mp hstep
    cases result with
    | pending tx' lock => exact ⟨_, rfl, .of_active rfl rfl (by simp)⟩
    | insufficient b =>
      have hcost : Credits.InRange c := h.transcript ▸ s.transcript.cost_range
      cases tx with
      | refused b' => exact absurd htx.2 (not_lt.mpr hcost.1)
      | begun =>
        obtain ⟨-, hnext⟩ := Option.ite_none_right_eq_some.mp hnext
        obtain ⟨b', -, heq⟩ := Option.map_eq_some_iff.mp hnext
        split_ifs at heq
      | _ => cases hnext
    | committed db =>
      refine ⟨_, rfl, .of_free rfl ?_ (by simp)⟩
      show r.net - c = 0
      rw [hnet, sub_self]

lemma Booked.effect_store {c : Int} {text : List Char} {ok : Bool}
    (h : s.Booked call cost initial) (hr : s.requests[i]? = some r)
    (hphase : r.phase = .store text c) : ∃ r',
      (s.storeStep call i r text c ok).requests = s.requests.set i r' ∧
      Effect call cost s (s.storeStep call i r text c ok) r' (c = 0 || ok && !s.cached call) := by
  have hsound := h.sound i r hr
  rw [TranslateRequest.Sound, hphase] at hsound
  obtain ⟨hnet, rfl⟩ := hsound
  cases ok with
  | false => exact ⟨_, rfl, .lost rfl hnet hnet (by simp)⟩
  | true =>
    refine ⟨_, rfl, .stored ?_ hnet rfl (by simp)⟩
    simp [cached, storeStep, Translations.put, TranscriptRow.withTranslation]

lemma Booked.effect_step {a : TranslateStep} (h : s.Booked call cost initial)
    (hr : s.requests[i]? = some r) (hadvance : s.advance call i r r.phase a = some t) :
    r.answered = false ∧ ∃ r', t.requests = s.requests.set i r' ∧
      Effect call cost s t r' (s.fairStep call (.step i a)) := by
  have hsound := h.sound i r hr
  rw [TranslateRequest.Sound] at hsound
  have hguard : s.fairStep call (.step i a) = fairAdvance (s.cached call) r.phase a := by
    rw [fairStep, hr]
    rfl
  rw [hguard, TranslateRequest.answered]
  generalize hphase : r.phase = phase at hadvance hsound ⊢
  cases advances_of_advance hadvance with
  | authorize allowed => exact ⟨rfl, _, rfl, .of_free rfl hsound rfl⟩
  | load => exact ⟨rfl, _, rfl, .of_free rfl hsound rfl⟩
  | loadFailed => exact ⟨rfl, _, rfl, .of_free rfl hsound rfl⟩
  | namesFailed row => exact ⟨rfl, _, rfl, .of_free rfl hsound.1 rfl⟩
  | names row segments => exact ⟨rfl, _, rfl, .of_free rfl hsound.1 rfl⟩
  | charge c tx ok t hcharge => exact ⟨rfl, h.effect_charge hr hphase hcharge⟩
  | translate c text =>
    refine ⟨rfl, _, rfl, .of_active rfl ?_ rfl⟩
    rw [TranslateRequest.answered]
    split_ifs <;> rfl
  | refund c tx ok t hrefund => exact ⟨rfl, h.effect_refund hr hphase hrefund⟩
  | store text c ok => exact ⟨rfl, h.effect_store hr hphase⟩

/-- **A step keeps the charges fair** exactly when it is a fair one. -/
lemma Booked.fair_step_iff {e : TranslateEvent} (h : s.Booked call cost initial)
    (hinitial : initial ≤ i32Max) (hfair : s.Fair call cost) (hstep : s.step call e = some t) :
    t.Fair call cost ↔ s.fairStep call e = true := by
  have hreported : (t.requests.map TranslateRequest.reported).sum +
      (t.requests.map TranslateRequest.lost).sum =
        (t.requests.map TranslateRequest.settled).sum := by
    have hbooked := h.step hinitial hstep
    rw [← List.sum_map_add]
    refine congrArg List.sum (List.map_congr_left fun r hr => ?_)
    obtain ⟨i, hi⟩ := List.mem_iff_getElem?.mp hr
    exact (hbooked.sound i r hi).settled_eq.symm
  cases e with
  | request userId =>
    cases hstep
    let r : TranslateRequest := ⟨userId, .authorize, 0⟩
    have hsettled : ((s.requests ++ [r]).map TranslateRequest.settled).sum =
        (s.requests.map TranslateRequest.settled).sum := by
      simp [r, TranslateRequest.settled]
    refine iff_of_true ⟨hsettled.trans hfair.charged, ?_, ?_⟩ rfl
    · intro r hr
      rcases List.mem_append.mp hr with hr | hr
      · exact hfair.errors r hr
      · rw [List.mem_singleton.mp hr]
        rfl
    · refine Eq.trans ?_ hsettled.symm
      rw [← hfair.reported]
      simp [TranslateRequest.reported]
  | step i a =>
    obtain ⟨r, hr, hadvance⟩ := Option.bind_eq_some_iff.mp hstep
    obtain ⟨hactive, r', hrequests, heffect⟩ := h.effect_step hr hadvance
    have hzero : r.settled = 0 := by
      rw [TranslateRequest.settled, hactive]
      rfl
    have hsettled : (t.requests.map TranslateRequest.settled).sum =
        (s.requests.map TranslateRequest.settled).sum + r'.settled := by
      rw [hrequests, Place.sum_map_set hr, hzero, sub_zero]
    have hmem : r' ∈ t.requests := by
      rw [hrequests]
      exact List.mem_iff_getElem?.mpr ⟨i, Place.getElem?_set_here hr⟩
    have herrors : (∀ r₀ ∈ t.requests, r₀.lost = 0) ↔ r'.lost = 0 := by
      refine ⟨fun hall => hall r' hmem, fun hlost r₀ hr₀ => ?_⟩
      rw [hrequests] at hr₀
      rcases List.mem_or_eq_of_mem_set hr₀ with hold | rfl
      · exact hfair.errors r₀ hold
      · exact hlost
    have hfair_iff : t.Fair call cost ↔ r'.lost = 0 ∧
        (s.requests.map TranslateRequest.settled).sum + r'.settled =
          if t.cached call then cost else 0 := by
      rw [← hsettled]
      constructor
      · intro ht
        exact ⟨herrors.mp ht.errors, ht.charged⟩
      · rintro ⟨hlost, hcharged⟩
        have hall := herrors.mpr hlost
        have hnothing : (t.requests.map TranslateRequest.lost).sum = 0 := by
          refine List.sum_eq_zero fun x hx => ?_
          obtain ⟨r₀, hr₀, rfl⟩ := List.mem_map.mp hx
          exact hall r₀ hr₀
        rw [hnothing, add_zero] at hreported
        exact ⟨hcharged, hall, hreported⟩
    rw [hfair_iff, hfair.charged]
    cases heffect with
    | quiet hcached hsettled' hlost hfair' => simp [hcached, hsettled', hlost, hfair']
    | lost hcached hsettled' hlost hfair' =>
      rw [hcached, hsettled', hlost, hfair']
      constructor
      · exact fun hboth => hboth.1
      · intro hcost
        simp [hcost]
    | stored hcached hsettled' hlost hfair' =>
      rw [hcached, hsettled', hlost, hfair']
      cases s.cached call <;> simp

lemma booked_new {db : Credits} {transcript : TranscriptRow} {ready : Bool}
    (hbalance : db.balance call.orgId = some initial) (hrange : FitsI32 initial) :
    (new db transcript ready).Booked call transcript.cost initial := by
  have htaken : initial - (new db transcript ready).taken = initial := sub_zero initial
  refine ⟨rfl, htaken.symm ▸ hbalance, htaken.symm ▸ hrange, fun i r hr => ?_⟩
  cases hr

lemma fair_new {db : Credits} {transcript : TranscriptRow} {ready : Bool}
    (hnew : transcript.translations.lookup call.target = none) :
    (new db transcript ready).Fair call transcript.cost := by
  refine ⟨?_, fun r hr => ?_, rfl⟩
  · rw [cached, new, hnew]
    rfl
  · cases hr

/-- Once all requests are answered, what they took is what is settled. -/
lemma taken_of_answered (h : ∀ r ∈ s.requests, r.answered = true) :
    s.taken = (s.requests.map TranslateRequest.settled).sum := by
  refine congrArg List.sum (List.map_congr_left fun r hr => ?_)
  rw [TranslateRequest.settled, if_pos (h r hr)]

/-- **A translation is charged once, and only for a result.**  In any run the balance is what it was
less what the requests took; and the charges are fair in every state exactly when every step is a
fair one.  Once all requests are answered, the organisation has then paid one translation if the
language is cached and nothing otherwise, no error has cost anything, and the answers say what was
paid. -/
theorem charged_once_iff (call : TranslateCall) (db : Credits) (transcript : TranscriptRow)
    (ready : Bool) (initial : Int) (es : List TranslateEvent) (t : Translations)
    (hbalance : db.balance call.orgId = some initial) (hrange : FitsI32 initial)
    (hnew : transcript.translations.lookup call.target = none)
    (h : Run (ofPartial (step call)) (new db transcript ready) es t) :
    (∀ pre u, pre <+: es → Run (ofPartial (step call)) (new db transcript ready) pre u →
      u.db.balance call.orgId = some (initial - u.taken)) ∧
    (Run (Guarded (ofPartial (step call)) fun s e => s.fairStep call e = true)
        (new db transcript ready) es t ↔
      ∀ pre u, pre <+: es → Run (ofPartial (step call)) (new db transcript ready) pre u →
        u.Fair call transcript.cost ∧ ((∀ r ∈ u.requests, r.answered = true) →
          u.taken = (if u.cached call then transcript.cost else 0) ∧
          u.taken = (u.requests.map TranslateRequest.reported).sum)) := by
  have hbooked : Booked call transcript.cost initial (new db transcript ready) :=
    booked_new hbalance hrange
  have hkeep : ∀ s e t, Booked call transcript.cost initial s → s.step call e = some t →
      Booked call transcript.cost initial t := fun _ _ _ hs => hs.step hrange.2
  refine ⟨fun pre u _ hu => ?_, ?_⟩
  · have hu' : Booked call transcript.cost initial u :=
      hu.invariant (Booked call transcript.cost initial) (fun s e _ t hs => hkeep s e t hs) hbooked
    exact hu'.balance
  · refine Run.guarded_iff_prefixes
      (I := fun s => Booked call transcript.cost initial s ∧ s.Fair call transcript.cost)
      ?_ ?_ ?_ h ⟨hbooked, fair_new hnew⟩
    · rintro s e t ⟨hs, hfair⟩ hguard hstep
      exact ⟨hkeep s e t hs hstep, (hs.fair_step_iff hrange.2 hfair hstep).mpr hguard⟩
    · rintro s ⟨-, hfair⟩
      refine ⟨hfair, fun hanswered => ?_⟩
      rw [taken_of_answered hanswered, hfair.reported]
      exact ⟨hfair.charged, rfl⟩
    · rintro s e t ⟨hs, hfair⟩ hguard hstep ⟨ht, -⟩
      rw [(hs.fair_step_iff hrange.2 hfair hstep).mp ht] at hguard
      cases hguard

/-- A transcript of five hundred words, which nobody has translated. -/
def sampleTranscript : TranscriptRow where
  sourceLanguage := "en"
  segments := []
  translations := ∅
  wordCount := some 500
  fits := by
    rintro n ⟨⟩
    decide

/-- An organisation with a hundred credits. -/
def samplePool : Credits := ⟨[⟨1, 100⟩], []⟩

def sampleCall : TranslateCall := ⟨1, 5, "it"⟩

/-- A request reads the transcript. -/
def reads (i : Nat) : List TranslateEvent :=
  [.request 7, .step i (.authorize true), .step i (.load true), .step i (.names (some []))]

/-- A request is charged, and has its translation. -/
def pays (i : Nat) : List TranslateEvent :=
  List.replicate 5 (.step i (.statement true)) ++ [.step i (.translated ['c'])]

theorem charged_once_sample : ∃ t,
    Run (ofPartial (step sampleCall)) (new samplePool sampleTranscript true)
      (reads 0 ++ pays 0 ++ [.step 0 (.store true)] ++ reads 1) t ∧
    t.db.balance 1 = some 98 ∧ t.taken = 2 ∧
      t.taken = (t.requests.map TranslateRequest.reported).sum := by
  let es := reads 0 ++ pays 0 ++ [.step 0 (.store true)] ++ reads 1
  have hrun : ∃ t, Run (Guarded (ofPartial (step sampleCall))
      fun s e => s.fairStep sampleCall e = true) (new samplePool sampleTranscript true) es t ∧
      (∀ r ∈ t.requests, r.answered = true) ∧ t.cached sampleCall = true :=
    Run.exists_guarded_of_decide (by decide)
  obtain ⟨t, hrun, hanswered, hcached⟩ := hrun
  obtain ⟨hbalance, hiff⟩ := charged_once_iff sampleCall samplePool sampleTranscript true 100 es t
    rfl (by decide) rfl hrun.ofGuarded
  obtain ⟨-, hsettled⟩ := hiff.mp hrun es t (List.prefix_refl es) hrun.ofGuarded
  obtain ⟨htaken, hreported⟩ := hsettled hanswered
  rw [if_pos hcached] at htaken
  have hbalance' := hbalance es t (List.prefix_refl es) hrun.ofGuarded
  rw [htaken] at hbalance'
  exact ⟨t, hrun.ofGuarded, hbalance', htaken, hreported⟩

/-- Two requests that come together both pay; and a request whose translation cannot be cached has
paid for an error. -/
theorem both_requests_pay :
    (∃ t, Run (ofPartial (step sampleCall)) (new samplePool sampleTranscript true)
      (reads 0 ++ reads 1 ++ pays 0 ++ pays 1 ++
        [.step 0 (.store true), .step 1 (.store true)]) t ∧
      (∀ r ∈ t.requests, r.answered = true) ∧ t.cached sampleCall = true ∧
      sampleTranscript.cost = 2 ∧ t.db.balance 1 = some 96) ∧
    ∃ t, Run (ofPartial (step sampleCall)) (new samplePool sampleTranscript true)
      (reads 0 ++ pays 0 ++ [.step 0 (.store false)]) t ∧
      (∀ r ∈ t.requests, r.answered = true) ∧ t.cached sampleCall = false ∧
      t.db.balance 1 = some 98 :=
  ⟨Run.exists_of_decide (by decide), Run.exists_of_decide (by decide)⟩

end Translations

end VoxTranslate.Business
