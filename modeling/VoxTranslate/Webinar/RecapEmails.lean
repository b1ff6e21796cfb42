import Mathlib.Algebra.Order.Floor.Ring
import Mathlib.Data.Rat.Floor
import VoxTranslate.Business.Credits
import VoxTranslate.Engine.Qwen
import VoxTranslate.Lib.Assoc
import VoxTranslate.Lib.Place
import VoxTranslate.Lib.Run

/-!
# Recap emails (`webinar/routes.rs`, `webinar/ai.rs`)

After a webinar every participant with an address is sent a recap.  A run claims the row of a
participant before it sends: the row says `sent` from then on, and is set to `failed` where the
send was not accepted, so that a later run claims it again.  The organisation is charged for an
email once it is on its way.
-/

namespace VoxTranslate.Webinar

open Lib Business
open Engine (Text)

/-- A row of `webinar_participants`, with the account of the participant. -/
structure ParticipantRow where
  participantId : Uuid
  userLanguage : Option Text
  participantLanguage : Option Text
  /-- None for guests. -/
  email : Option Text
  deriving DecidableEq, Repr

structure EmailTarget where
  participantId : Uuid
  email : Text
  lang : Text
  deriving DecidableEq, Repr

/-- A text that is there and not blank. -/
def nonBlank (t : Option Text) : Option Text := (t.map Text.trim).filter fun t => t ≠ []

/-- `plan_email_targets`. -/
def planEmailTargets (toLowercase : Text → Text) (rows : List ParticipantRow)
    (fallbackLang : Text) : List EmailTarget :=
  rows.filterMap fun r => (nonBlank r.email).map fun email =>
    { participantId := r.participantId
      email := toLowercase email
      lang := ((nonBlank r.userLanguage).or (nonBlank r.participantLanguage)).getD fallbackLang }

/-- The languages of the targets. -/
def langsOf (targets : List EmailTarget) : List Text := (targets.map EmailTarget.lang).eraseDups

/-- `group_targets_by_lang`, walked through in some order of the languages. -/
def groupTargetsByLang (targets : List EmailTarget) (order : List Text) :
    List (Text × List EmailTarget) :=
  order.map fun lang => (lang, targets.filter fun t => t.lang = lang)

/-- `usd_to_org_credits`. -/
def usdToOrgCredits (usd : ℚ) : Int :=
  if usd ≤ 0 then 0 else if ⌈usd * 100⌉ ≤ i32Max then ⌈usd * 100⌉ else 0

inductive EmailStatus where
  | sent
  | failed
  deriving DecidableEq, Repr

/-- A row of `webinar_emails`. -/
structure EmailRow where
  lang : Text
  subject : Text
  status : EmailStatus
  resendId : Option Text
  error : Option Text
  deriving DecidableEq, Repr

/-- An email that was accepted for delivery. -/
structure Delivery where
  participantId : Uuid
  address : Text
  subject : Text
  deriving DecidableEq, Repr

structure Counts where
  sent : Nat
  skipped : Nat
  failed : Nat
  deriving DecidableEq, Repr

/-- What a run answers: never an address. -/
structure RecapSummary where
  total : Counts
  languages : List (Text × Counts)
  deriving DecidableEq, Repr

/-- The email of one language, and what is left to do after the current target. -/
structure Batch where
  lang : Text
  subject : Text
  targets : List EmailTarget
  groups : List (Text × List EmailTarget)
  deriving DecidableEq, Repr

inductive RecapPhase where
  /-- The participants are loaded. -/
  | load
  /-- The transcript is loaded. -/
  | transcript (targets : List EmailTarget)
  /-- `generate_draft`. -/
  | draft (lang : Text) (targets : List EmailTarget) (groups : List (Text × List EmailTarget))
  /-- `INSERT INTO webinar_emails ... ON CONFLICT`. -/
  | claim (b : Batch) (t : EmailTarget)
  /-- `resend.send`. -/
  | send (b : Batch) (t : EmailTarget)
  /-- `UPDATE webinar_emails SET resend_id`. -/
  | note (b : Batch) (t : EmailTarget) (resendId : Text)
  /-- `deduct_org_credits`. -/
  | charge (b : Batch) (t : EmailTarget)
  /-- `UPDATE webinar_emails SET status = 'failed'`. -/
  | mark (b : Batch) (t : EmailTarget) (error : Text)
  /-- The job is over, with a summary or as a failure. -/
  | done (ok : Bool)
  | stopped
  deriving DecidableEq, Repr

structure RecapRun where
  hostUserId : Uuid
  phase : RecapPhase
  /-- The counts of the language at hand. -/
  current : Counts
  summary : RecapSummary
  deriving DecidableEq, Repr

/-- The webinar, and what an email costs in USD. -/
structure RecapConfig where
  webinarId : Uuid
  orgId : Uuid
  sourceLanguage : Text
  participants : List ParticipantRow
  emailPrice : ℚ
  toLowercase : Text → Text

/-- The tables, with everything that was sent so far. -/
structure Recaps where
  db : Credits
  /-- The rows of the webinar, by participant. -/
  rows : Assoc Uuid EmailRow
  deliveries : List Delivery
  /-- The participants whose email was charged. -/
  charged : List Uuid
  /-- Those for whose email the balance did not suffice. -/
  short : List Uuid
  runs : List RecapRun

inductive RecapStep where
  | load (ok : Bool)
  /-- The transcript, and the order in which the languages come. -/
  | transcript (order : Option (List Text))
  /-- The subject that was drafted. -/
  | draft (subject : Option Text)
  | claim (ok : Bool)
  /-- An identifier, or why the email was not accepted. -/
  | send (outcome : Except Text Text)
  | note (ok : Bool)
  | charge (ok : Bool)
  | mark (ok : Bool)
  | stop

inductive RecapEvent where
  | start (hostUserId : Uuid)
  | step (k : Nat) (a : RecapStep)

namespace RecapConfig

def targets (cfg : RecapConfig) : List EmailTarget :=
  planEmailTargets cfg.toLowercase cfg.participants cfg.sourceLanguage

/-- `per_email_cost`. -/
def cost (cfg : RecapConfig) : Int := usdToOrgCredits cfg.emailPrice

end RecapConfig

namespace Counts

def zero : Counts := ⟨0, 0, 0⟩

def add (a b : Counts) : Counts :=
  ⟨a.sent + b.sent, a.skipped + b.skipped, a.failed + b.failed⟩

end Counts

namespace RecapRun

def start (hostUserId : Uuid) : RecapRun := ⟨hostUserId, .load, .zero, ⟨.zero, []⟩⟩

def count (r : RecapRun) (c : Counts) : RecapRun := { r with current := r.current.add c }

/-- A language is finished. -/
def report (r : RecapRun) (lang : Text) (c : Counts) : RecapRun :=
  { r with
    current := .zero
    summary := ⟨r.summary.total.add c, r.summary.languages ++ [(lang, c)]⟩ }

def nextGroup (r : RecapRun) : List (Text × List EmailTarget) → RecapRun
  | [] => { r with phase := .done true }
  | (lang, targets) :: groups => { r with phase := .draft lang targets groups }

def nextTarget (r : RecapRun) (b : Batch) : RecapRun :=
  match b.targets with
  | t :: targets => { r with phase := .claim { b with targets := targets } t }
  | [] => (r.report b.lang r.current).nextGroup b.groups

/-- The run is over. -/
def isOver (r : RecapRun) : Bool :=
  match r.phase with
  | .done _ => true
  | .stopped => true
  | _ => false

/-- The participant whose row is claimed and whose email is not on its way. -/
def sending (r : RecapRun) : Option Uuid :=
  match r.phase with
  | .send _ t => some t.participantId
  | .mark _ t _ => some t.participantId
  | _ => none

/-- The participant whose email is on its way and not charged. -/
def paying (r : RecapRun) : Option Uuid :=
  match r.phase with
  | .note _ t _ => some t.participantId
  | .charge _ t => some t.participantId
  | _ => none

/-- The participant whose row the run has claimed. -/
def holding (r : RecapRun) : Option Uuid := r.sending.or r.paying

lemma holding_of_phase {r : RecapRun} {phase : RecapPhase} (h : r.phase = phase) :
    r.holding = { r with phase := phase }.holding := by rw [← h]

end RecapRun

namespace Recaps

variable (cfg : RecapConfig)

def new (db : Credits) : Recaps := ⟨db, ∅, [], [], [], []⟩

/-- The participants who were sent an email. -/
def served (s : Recaps) : List Uuid := s.deliveries.map Delivery.participantId

def put (s : Recaps) (k : Nat) (r : RecapRun) : Recaps := { s with runs := s.runs.set k r }

/-- A change of the row of a participant. -/
def update (s : Recaps) (p : Uuid) (f : EmailRow → EmailRow) : Recaps :=
  { s with rows := s.rows.alter p (Option.map f) }

/-- The row is there and was not given up. -/
def claimed (s : Recaps) (p : Uuid) : Bool := (s.rows.lookup p).any fun row => row.status = .sent

/-- The upsert claims a row that is not there, or was given up. -/
def claimStep (s : Recaps) (k : Nat) (r : RecapRun) (b : Batch) (t : EmailTarget) : Recaps :=
  if s.claimed t.participantId then s.put k ((r.count ⟨0, 1, 0⟩).nextTarget b)
  else
    { s with rows := s.rows.insert t.participantId ⟨b.lang, b.subject, .sent, none, none⟩ }.put k
      { r with phase := .send b t }

def sendStep (s : Recaps) (k : Nat) (r : RecapRun) (b : Batch) (t : EmailTarget) :
    Except Text Text → Recaps
  | .ok resendId =>
    let email : Delivery := ⟨t.participantId, t.email, b.subject⟩
    { s with deliveries := s.deliveries ++ [email] }.put k { r with phase := .note b t resendId }
  | .error e => s.put k { r with phase := .mark b t e }

def noteStep (s : Recaps) (k : Nat) (r : RecapRun) (b : Batch) (t : EmailTarget) (resendId : Text)
    (ok : Bool) : Recaps :=
  (if ok then s.update t.participantId fun row => { row with resendId := some resendId }
    else s).put k
    (if 0 < cfg.cost then { r with phase := .charge b t }
      else (r.count ⟨1, 0, 0⟩).nextTarget b)

/-- The charge of an email, as one transaction. -/
def chargeStep (s : Recaps) (k : Nat) (r : RecapRun) (b : Batch) (t : EmailTarget) :
    Bool → Option Recaps
  | false => some (s.put k ((r.count ⟨1, 0, 0⟩).nextTarget b))
  | true =>
    (s.db.deductOrgCreditsTx cfg.orgId cfg.cost "webinar_ai_email" none (some r.hostUserId)
      ("webinar AI recap email (" ++ String.ofList b.lang ++ ") — " ++ toString cfg.webinarId)).map
      fun
      | (.charged _, db) =>
        { s with db := db, charged := s.charged ++ [t.participantId] }.put k
          ((r.count ⟨1, 0, 0⟩).nextTarget b)
      | (.insufficient _ _, db) =>
        { s with db := db, short := s.short ++ [t.participantId] }.put k
          ((r.count ⟨1, 0, 0⟩).nextTarget b)

def markStep (s : Recaps) (k : Nat) (r : RecapRun) (b : Batch) (t : EmailTarget) (e : Text)
    (ok : Bool) : Recaps :=
  (if ok then
    s.update t.participantId fun row => { row with status := .failed, error := some (e.take 500) }
    else s).put k ((r.count ⟨0, 0, 1⟩).nextTarget b)

/-- `run_webinar_email_inner`, one step of a run after the other; a run may stop anywhere. -/
def advance (s : Recaps) (k : Nat) (r : RecapRun) : RecapPhase → RecapStep → Option Recaps
  | .load, .load false => some (s.put k { r with phase := .done false })
  | .load, .load true =>
    some (s.put k { r with
      phase := if cfg.targets = [] then .done true else .transcript cfg.targets })
  | .transcript _, .transcript none => some (s.put k { r with phase := .done false })
  | .transcript targets, .transcript (some order) =>
    if order.Perm (langsOf targets) then
      some (s.put k (r.nextGroup (groupTargetsByLang targets order)))
    else none
  | .draft lang targets groups, .draft none =>
    some (s.put k ((r.report lang ⟨0, 0, targets.length⟩).nextGroup groups))
  | .draft lang targets groups, .draft (some subject) =>
    some (s.put k (r.nextTarget ⟨lang, subject, targets, groups⟩))
  | .claim b _, .claim false => some (s.put k ((r.count ⟨0, 0, 1⟩).nextTarget b))
  | .claim b t, .claim true => some (s.claimStep k r b t)
  | .send b t, .send outcome => some (s.sendStep k r b t outcome)
  | .note b t resendId, .note ok => some (s.noteStep cfg k r b t resendId ok)
  | .charge b t, .charge ok => s.chargeStep cfg k r b t ok
  | .mark b t e, .mark ok => some (s.markStep k r b t e ok)
  | _, .stop => if r.isOver then none else some (s.put k { r with phase := .stopped })
  | _, _ => none

/-- What a step does in a phase. -/
inductive Advances (s : Recaps) (k : Nat) (r : RecapRun) : RecapPhase → RecapStep → Recaps → Prop
  | loadFailed : Advances s k r .load (.load false) (s.put k { r with phase := .done false })
  | load : Advances s k r .load (.load true)
      (s.put k { r with
        phase := if cfg.targets = [] then .done true else .transcript cfg.targets })
  | transcriptFailed (targets : List EmailTarget) :
      Advances s k r (.transcript targets) (.transcript none)
        (s.put k { r with phase := .done false })
  | transcript (targets : List EmailTarget) (order : List Text)
      (hperm : order.Perm (langsOf targets)) :
      Advances s k r (.transcript targets) (.transcript (some order))
        (s.put k (r.nextGroup (groupTargetsByLang targets order)))
  | draftFailed (lang : Text) (targets : List EmailTarget)
      (groups : List (Text × List EmailTarget)) :
      Advances s k r (.draft lang targets groups) (.draft none)
        (s.put k ((r.report lang ⟨0, 0, targets.length⟩).nextGroup groups))
  | draft (lang : Text) (targets : List EmailTarget) (groups : List (Text × List EmailTarget))
      (subject : Text) :
      Advances s k r (.draft lang targets groups) (.draft (some subject))
        (s.put k (r.nextTarget ⟨lang, subject, targets, groups⟩))
  | claimFailed (b : Batch) (e : EmailTarget) : Advances s k r (.claim b e) (.claim false)
      (s.put k ((r.count ⟨0, 0, 1⟩).nextTarget b))
  | claim (b : Batch) (e : EmailTarget) :
      Advances s k r (.claim b e) (.claim true) (s.claimStep k r b e)
  | send (b : Batch) (e : EmailTarget) (outcome : Except Text Text) :
      Advances s k r (.send b e) (.send outcome) (s.sendStep k r b e outcome)
  | note (b : Batch) (e : EmailTarget) (resendId : Text) (ok : Bool) :
      Advances s k r (.note b e resendId) (.note ok) (s.noteStep cfg k r b e resendId ok)
  | charge (b : Batch) (e : EmailTarget) (ok : Bool) (t : Recaps)
      (hcharge : s.chargeStep cfg k r b e ok = some t) :
      Advances s k r (.charge b e) (.charge ok) t
  | mark (b : Batch) (e : EmailTarget) (error : Text) (ok : Bool) :
      Advances s k r (.mark b e error) (.mark ok) (s.markStep k r b e error ok)
  | stop (phase : RecapPhase) (hactive : r.isOver = false) :
      Advances s k r phase .stop (s.put k { r with phase := .stopped })

variable {cfg} in
lemma advances_of_advance {s t : Recaps} {k : Nat} {r : RecapRun} {phase : RecapPhase}
    {a : RecapStep} (h : s.advance cfg k r phase a = some t) : s.Advances cfg k r phase a t := by
  unfold advance at h
  split at h
  · cases h
    exact .loadFailed
  · cases h
    exact .load
  · cases h
    exact .transcriptFailed _
  · obtain ⟨hperm, ⟨⟩⟩ := Option.ite_none_right_eq_some.mp h
    exact .transcript _ _ hperm
  · cases h
    exact .draftFailed _ _ _
  · cases h
    exact .draft _ _ _ _
  · cases h
    exact .claimFailed _ _
  · cases h
    exact .claim _ _
  · cases h
    exact .send _ _ _
  · cases h
    exact .note _ _ _ _
  · exact .charge _ _ _ _ h
  · cases h
    exact .mark _ _ _ _
  · obtain ⟨hactive, ⟨⟩⟩ := Option.ite_none_left_eq_some.mp h
    exact .stop _ (by simpa using hactive)
  · cases h

def step (s : Recaps) : RecapEvent → Option Recaps
  | .start hostUserId => some { s with runs := s.runs ++ [.start hostUserId] }
  | .step k a => (s.runs[k]?).bind fun r => s.advance cfg k r r.phase a

end Recaps

/-! ## What a step does -/

variable {cfg : RecapConfig} {s t : Recaps} {k : Nat} {r r' : RecapRun} {p : Uuid} {b : Batch}
  {fair : Bool} {initial : Int}

namespace RecapRun

lemma holding_of_isOver (h : r.isOver = true) : r.holding = none := by
  obtain ⟨hostUserId, phase, current, summary⟩ := r
  cases phase with
  | done ok => rfl
  | stopped => rfl
  | _ => cases h

lemma holding_nextGroup (r : RecapRun) (groups : List (Text × List EmailTarget)) :
    (r.nextGroup groups).holding = none := by
  cases groups <;> rfl

lemma holding_nextTarget (r : RecapRun) (b : Batch) : (r.nextTarget b).holding = none := by
  rw [nextTarget]
  cases b.targets with
  | nil => exact holding_nextGroup _ _
  | cons t targets => rfl

lemma holding_of_sending (h : r.sending = some p) : r.holding = some p := by
  rw [holding, h]
  rfl

lemma holding_of_paying (h : r.paying = some p) : r.holding = some p := by
  obtain ⟨hostUserId, phase, current, summary⟩ := r
  cases phase with
  | note b t resendId => exact h
  | charge b t => exact h
  | _ => cases h

lemma sending_or_paying (h : r.holding = some p) : r.sending = some p ∨ r.paying = some p := by
  rw [holding, Option.or_eq_some_iff] at h
  exact h.imp id And.right

lemma paying_of_sending (h : r.sending = some p) : r.paying = none := by
  obtain ⟨hostUserId, phase, current, summary⟩ := r
  cases phase with
  | send b t => rfl
  | mark b t error => rfl
  | _ => cases h

lemma sending_of_paying (h : r.paying = some p) : r.sending = none := by
  cases hsending : r.sending with
  | none => rfl
  | some q =>
    rw [paying_of_sending hsending] at h
    cases h

lemma sending_of_holding_none (h : r.holding = none) : r.sending = none ∧ r.paying = none :=
  Option.or_eq_none_iff.mp h

end RecapRun

/-- No run stops between a claim and what comes of it, an email that is not accepted is given up,
and one that is accepted is charged. -/
def fairAdvance (cost : Int) : RecapPhase → RecapStep → Bool
  | .send _ _, .stop => false
  | .mark _ _ _, .stop => false
  | .mark _ _ _, .mark ok => ok
  | .note _ _ _, .stop => cost ≤ 0
  | .charge _ _, .stop => cost ≤ 0
  | .charge _ _, .charge ok => ok || cost ≤ 0
  | _, _ => true

lemma RecapConfig.cost_range (cfg : RecapConfig) : Credits.InRange cfg.cost := by
  rw [cost, usdToOrgCredits]
  split_ifs with hfree hfits
  · decide
  · exact ⟨Int.ceil_nonneg (mul_nonneg (le_of_lt (not_le.mp hfree)) (by norm_num)), hfits⟩
  · decide

namespace Recaps

variable (cfg) in
def fairStep (s : Recaps) : RecapEvent → Bool
  | .start _ => true
  | .step k a => (s.runs[k]?).all fun r => fairAdvance cfg.cost r.phase a

/-- What a step of a run does to the tables. -/
inductive Move (cfg : RecapConfig) (s : Recaps) (k : Nat) (r r' : RecapRun) : Recaps → Bool → Prop
  | plain (h : r.holding = none) (h' : r'.holding = none) : Move cfg s k r r' (s.put k r') true
  | claim (p : Uuid) (row : EmailRow) (hrow : row.status = .sent) (hfree : s.claimed p = false)
      (h : r.holding = none) (h' : r'.sending = some p) (hpaying : r'.paying = none) :
      Move cfg s k r r' ({ s with rows := s.rows.insert p row }.put k r') true
  | deliver (d : Delivery) (h : r.sending = some d.participantId)
      (h' : r'.paying = some d.participantId) (hsending : r'.sending = none) :
      Move cfg s k r r' ({ s with deliveries := s.deliveries ++ [d] }.put k r') true
  | refused (p : Uuid) (h : r.sending = some p) (h' : r'.sending = some p)
      (hpaying : r'.paying = none) : Move cfg s k r r' (s.put k r') true
  | note (p : Uuid) (rows : Assoc Uuid EmailRow)
      (hrows : ∀ q, claimed { s with rows := rows } q = s.claimed q) (h : r.paying = some p)
      (h' : r'.paying = some p ∨ cfg.cost ≤ 0 ∧ r'.paying = none) (hsending : r'.sending = none) :
      Move cfg s k r r' ({ s with rows := rows }.put k r') true
  | charged (p : Uuid) (kind description : String) (actorId : Option Uuid) (after : Int)
      (db : Credits) (hdeduct : s.db.deductOrgCreditsTx cfg.orgId cfg.cost kind none actorId
        description = some (.charged after, db)) (h : r.paying = some p) (h' : r'.holding = none) :
      Move cfg s k r r' ({ s with db := db, charged := s.charged ++ [p] }.put k r') true
  | short (p : Uuid) (kind description : String) (actorId : Option Uuid) (balance required : Int)
      (db : Credits) (hdeduct : s.db.deductOrgCreditsTx cfg.orgId cfg.cost kind none actorId
        description = some (.insufficient balance required, db)) (h : r.paying = some p)
      (h' : r'.holding = none) :
      Move cfg s k r r' ({ s with db := db, short := s.short ++ [p] }.put k r') true
  | giveUp (p : Uuid) (rows : Assoc Uuid EmailRow)
      (hself : claimed { s with rows := rows } p = false)
      (hother : ∀ q, q ≠ p → claimed { s with rows := rows } q = s.claimed q)
      (h : r.sending = some p) (h' : r'.holding = none) :
      Move cfg s k r r' ({ s with rows := rows }.put k r') true
  | drop (p : Uuid) (fair : Bool) (h : r.holding = some p) (h' : r'.holding = none)
      (hfair : fair = true ↔ r.sending = none ∧ cfg.cost ≤ 0) :
      Move cfg s k r r' (s.put k r') fair

lemma claimed_update (s : Recaps) (p q : Uuid) (f : EmailRow → EmailRow) :
    (s.update p f).claimed q =
      if q = p then (s.rows.lookup p).any fun row => (f row).status = .sent else s.claimed q := by
  rw [claimed, update]
  split_ifs with hq
  · rw [hq, Assoc.lookup_alter_self]
    cases s.rows.lookup p <;> rfl
  · rw [Assoc.lookup_alter_of_ne hq]
    rfl

lemma move_claim (s : Recaps) (k : Nat) (hr : r.holding = none) (b : Batch) (t : EmailTarget) :
    ∃ r', (s.claimStep k r b t).runs = s.runs.set k r' ∧
      Move cfg s k r r' (s.claimStep k r b t) true := by
  rw [claimStep]
  split_ifs with hclaimed
  · exact ⟨_, rfl, .plain hr (RecapRun.holding_nextTarget _ _)⟩
  · exact ⟨_, rfl, .claim t.participantId _ rfl (by simpa using hclaimed) hr rfl rfl⟩

lemma move_note {resendId : Text} {ok : Bool} {t : EmailTarget}
    (hphase : r.phase = .note b t resendId) : ∃ r',
      (s.noteStep cfg k r b t resendId ok).runs = s.runs.set k r' ∧
      Move cfg s k r r' (s.noteStep cfg k r b t resendId ok) true := by
  have hpaying : r.paying = some t.participantId := by
    rw [RecapRun.paying, hphase]
  let r' : RecapRun := if 0 < cfg.cost then { r with phase := .charge b t }
    else (r.count ⟨1, 0, 0⟩).nextTarget b
  have hr' : (r'.paying = some t.participantId ∨ cfg.cost ≤ 0 ∧ r'.paying = none) ∧
      r'.sending = none := by
    simp only [r']
    split_ifs with hcost
    · exact ⟨.inl rfl, rfl⟩
    · have hnone := RecapRun.sending_of_holding_none
        (RecapRun.holding_nextTarget (r.count ⟨1, 0, 0⟩) b)
      exact ⟨.inr ⟨not_lt.mp hcost, hnone.2⟩, hnone.1⟩
  refine ⟨r', ?_, ?_⟩
  · cases ok <;> rfl
  · cases ok with
    | false => exact .note t.participantId s.rows (fun _ => rfl) hpaying hr'.1 hr'.2
    | true =>
      refine .note t.participantId (s.update t.participantId _).rows (fun q => ?_) hpaying
        hr'.1 hr'.2
      refine (claimed_update s t.participantId q _).trans ?_
      split_ifs with hq
      · rw [hq]
        rfl
      · rfl

lemma move_charge {ok : Bool} {e : EmailTarget} (hphase : r.phase = .charge b e)
    (h : s.chargeStep cfg k r b e ok = some t) : ∃ r', t.runs = s.runs.set k r' ∧
      Move cfg s k r r' t (ok || cfg.cost ≤ 0) := by
  have hpaying : r.paying = some e.participantId := by
    rw [RecapRun.paying, hphase]
  have hsending : r.sending = none := by
    rw [RecapRun.sending, hphase]
  have hnext := RecapRun.holding_nextTarget (r.count ⟨1, 0, 0⟩) b
  cases ok with
  | false =>
    cases h
    refine ⟨_, rfl, .drop e.participantId _ (RecapRun.holding_of_paying hpaying) hnext ?_⟩
    simp [hsending]
  | true =>
    obtain ⟨⟨outcome, db⟩, hdeduct, rfl⟩ := Option.map_eq_some_iff.mp h
    cases outcome with
    | charged after => exact ⟨_, rfl, .charged _ _ _ _ after db hdeduct hpaying hnext⟩
    | insufficient balance required =>
      exact ⟨_, rfl, .short _ _ _ _ balance required db hdeduct hpaying hnext⟩

lemma move_mark {ok : Bool} {e : EmailTarget} {error : Text} (hphase : r.phase = .mark b e error) :
    ∃ r', (s.markStep k r b e error ok).runs = s.runs.set k r' ∧
      Move cfg s k r r' (s.markStep k r b e error ok) ok := by
  have hsending : r.sending = some e.participantId := by
    rw [RecapRun.sending, hphase]
  have hnext := RecapRun.holding_nextTarget (r.count ⟨0, 0, 1⟩) b
  cases ok with
  | false =>
    refine ⟨_, rfl, .drop e.participantId _ (RecapRun.holding_of_sending hsending) hnext ?_⟩
    simp [hsending]
  | true =>
    refine ⟨_, rfl, .giveUp e.participantId (s.update e.participantId _).rows ?_ (fun q hq => ?_)
      hsending hnext⟩
    · refine (claimed_update s e.participantId e.participantId _).trans ?_
      rw [if_pos rfl]
      cases s.rows.lookup e.participantId <;> rfl
    · exact (claimed_update s e.participantId q _).trans (if_neg hq)

lemma move_stop (s : Recaps) (k : Nat) (r : RecapRun) : ∃ r',
    (s.put k { r with phase := .stopped }).runs = s.runs.set k r' ∧
      Move cfg s k r r' (s.put k { r with phase := .stopped })
        (fairAdvance cfg.cost r.phase .stop) := by
  refine ⟨_, rfl, ?_⟩
  cases hphase : r.phase with
  | send b e =>
    have hsending : r.sending = some e.participantId := by rw [RecapRun.sending, hphase]
    exact .drop _ _ (RecapRun.holding_of_sending hsending) rfl (by simp [fairAdvance, hsending])
  | mark b e error =>
    have hsending : r.sending = some e.participantId := by rw [RecapRun.sending, hphase]
    exact .drop _ _ (RecapRun.holding_of_sending hsending) rfl (by simp [fairAdvance, hsending])
  | note b e resendId =>
    have hsending : r.sending = none := by rw [RecapRun.sending, hphase]
    have hpaying : r.paying = some e.participantId := by rw [RecapRun.paying, hphase]
    exact .drop _ _ (RecapRun.holding_of_paying hpaying) rfl (by simp [fairAdvance, hsending])
  | charge b e =>
    have hsending : r.sending = none := by rw [RecapRun.sending, hphase]
    have hpaying : r.paying = some e.participantId := by rw [RecapRun.paying, hphase]
    exact .drop _ _ (RecapRun.holding_of_paying hpaying) rfl (by simp [fairAdvance, hsending])
  | _ => exact .plain (RecapRun.holding_of_phase hphase) rfl

/-- Every step of a run is one of the moves. -/
lemma exists_move {a : RecapStep} (h : s.advance cfg k r r.phase a = some t) :
    ∃ r', t.runs = s.runs.set k r' ∧ Move cfg s k r r' t (fairAdvance cfg.cost r.phase a) := by
  generalize hphase : r.phase = phase at h ⊢
  cases advances_of_advance h with
  | loadFailed => exact ⟨_, rfl, .plain (RecapRun.holding_of_phase hphase) rfl⟩
  | load =>
    refine ⟨_, rfl, .plain (RecapRun.holding_of_phase hphase) ?_⟩
    split_ifs <;> rfl
  | transcriptFailed targets => exact ⟨_, rfl, .plain (RecapRun.holding_of_phase hphase) rfl⟩
  | transcript targets order =>
    exact ⟨_, rfl, .plain (RecapRun.holding_of_phase hphase) (RecapRun.holding_nextGroup _ _)⟩
  | draftFailed lang targets groups =>
    exact ⟨_, rfl, .plain (RecapRun.holding_of_phase hphase) (RecapRun.holding_nextGroup _ _)⟩
  | draft lang targets groups subject =>
    exact ⟨_, rfl, .plain (RecapRun.holding_of_phase hphase) (RecapRun.holding_nextTarget _ _)⟩
  | claimFailed b e =>
    exact ⟨_, rfl, .plain (RecapRun.holding_of_phase hphase) (RecapRun.holding_nextTarget _ _)⟩
  | claim b e => exact move_claim s k (RecapRun.holding_of_phase hphase) b e
  | send b e outcome =>
    have hsending : r.sending = some e.participantId := by rw [RecapRun.sending, hphase]
    cases outcome with
    | ok resendId =>
      exact ⟨_, rfl, .deliver ⟨e.participantId, e.email, b.subject⟩ hsending rfl rfl⟩
    | error error => exact ⟨_, rfl, .refused e.participantId hsending rfl rfl⟩
  | note b e resendId ok => exact move_note hphase
  | charge b e ok t hcharge => exact move_charge hphase hcharge
  | mark b e error ok => exact move_mark hphase
  | stop =>
    rw [← hphase]
    exact move_stop s k r

/-! ## At most once -/

/-- A row is claimed by one run at a time, nobody is sent or charged anything twice, and the balance
is what it was less what was charged. -/
structure Held (cfg : RecapConfig) (initial : Int) (s : Recaps) : Prop where
  keyed : Place.Keyed RecapRun.holding s.runs
  sending : ∀ (k : Nat) (r : RecapRun) (p : Uuid), s.runs[k]? = some r → r.sending = some p →
    s.claimed p = true ∧ p ∉ s.served
  paying : ∀ (k : Nat) (r : RecapRun) (p : Uuid), s.runs[k]? = some r → r.paying = some p →
    p ∈ s.served ∧ p ∉ s.charged ∧ p ∉ s.short
  served : ∀ p ∈ s.served, s.claimed p = true
  once : s.served.Nodup
  chargedOnce : s.charged.Nodup
  chargedServed : ∀ p ∈ s.charged, p ∈ s.served
  shortServed : ∀ p ∈ s.short, p ∈ s.served
  balance : s.db.balance cfg.orgId = some (initial - cfg.cost * s.charged.length)
  solvent : Credits.InRange (initial - cfg.cost * s.charged.length)

lemma Held.claimed_of_holding (h : s.Held cfg initial) (hr : s.runs[k]? = some r)
    (hp : r.holding = some p) : s.claimed p = true := by
  rcases RecapRun.sending_or_paying hp with hsending | hpaying
  · exact (h.sending k r p hr hsending).1
  · exact h.served p (h.paying k r p hr hpaying).1

/-- Another run holds another row. -/
lemma Held.ne_of_holding {j : Nat} {r₀ : RecapRun} {q : Uuid} (h : s.Held cfg initial)
    (hr : s.runs[k]? = some r) (hp : r.holding = some p) (hj : s.runs[j]? = some r₀)
    (hne : j ≠ k) (hq : r₀.holding = some q) : q ≠ p := by
  rintro rfl
  exact hne (h.keyed j k r₀ r q hj hr hq hp)

/-- A step that neither claims nor sends nor charges. -/
lemma Held.quiet (h : s.Held cfg initial) (hr : s.runs[k]? = some r)
    (hruns : t.runs = s.runs.set k r') (hclaimed : ∀ q, t.claimed q = s.claimed q)
    (hdeliveries : t.deliveries = s.deliveries) (hcharged : t.charged = s.charged)
    (hshort : t.short = s.short) (hdb : t.db = s.db)
    (hsending : r'.sending = none ∨ r'.sending = r.sending)
    (hpaying : r'.paying = none ∨ r'.paying = r.paying)
    (hholding : r'.holding = none ∨ r'.holding = r.holding) : t.Held cfg initial := by
  have hserved : t.served = s.served := by rw [Recaps.served, Recaps.served, hdeliveries]
  refine ⟨?_, fun j r₀ q hj hq => ?_, fun j r₀ q hj hq => ?_, ?_, hserved ▸ h.once,
    hcharged ▸ h.chargedOnce, ?_, ?_, ?_, ?_⟩
  · rw [hruns]
    exact h.keyed.set hr hholding
  · rw [hclaimed, hserved]
    rw [hruns] at hj
    rcases Place.getElem?_set_cases hj with ⟨-, rfl⟩ | ⟨-, hold⟩
    · rcases hsending with hnone | hsame
      · rw [hnone] at hq
        cases hq
      · exact h.sending k r q hr (hsame ▸ hq)
    · exact h.sending j r₀ q hold hq
  · rw [hserved, hcharged, hshort]
    rw [hruns] at hj
    rcases Place.getElem?_set_cases hj with ⟨-, rfl⟩ | ⟨-, hold⟩
    · rcases hpaying with hnone | hsame
      · rw [hnone] at hq
        cases hq
      · exact h.paying k r q hr (hsame ▸ hq)
    · exact h.paying j r₀ q hold hq
  · intro q hq
    rw [hclaimed]
    exact h.served q (hserved ▸ hq)
  · rw [hcharged, hserved]
    exact h.chargedServed
  · rw [hshort, hserved]
    exact h.shortServed
  · rw [hdb, hcharged]
    exact h.balance
  · rw [hcharged]
    exact h.solvent

lemma Held.claim {row : EmailRow} (h : s.Held cfg initial)
    (hrow : row.status = .sent) (hfree : s.claimed p = false) (hsending : r'.sending = some p)
    (hpaying : r'.paying = none) :
    ({ s with rows := s.rows.insert p row }.put k r' : Recaps).Held cfg initial := by
  have hclaimed : ∀ q, s.claimed q = true →
      ({ s with rows := s.rows.insert p row }.put k r' : Recaps).claimed q = true := by
    intro q hq
    have hne : q ≠ p := by
      rintro rfl
      rw [hfree] at hq
      cases hq
    show ((s.rows.insert p row).lookup q).any _ = true
    rw [AList.lookup_insert_ne hne]
    exact hq
  have hself : ({ s with rows := s.rows.insert p row }.put k r' : Recaps).claimed p = true := by
    show ((s.rows.insert p row).lookup p).any _ = true
    rw [AList.lookup_insert, Option.any_some, hrow]
    rfl
  refine ⟨?_, fun j r₀ q hj hq => ?_, fun j r₀ q hj hq => ?_,
    fun q hq => hclaimed q (h.served q hq),
    h.once, h.chargedOnce, h.chargedServed, h.shortServed, h.balance, h.solvent⟩
  · refine h.keyed.set_fresh fun j r₀ q hj _ hq hr₀ => ?_
    rw [RecapRun.holding_of_sending hsending] at hq
    cases hq
    have hheld := h.claimed_of_holding hj hr₀
    rw [hfree] at hheld
    cases hheld
  · rcases Place.getElem?_set_cases hj with ⟨-, rfl⟩ | ⟨-, hold⟩
    · rw [hsending] at hq
      cases hq
      refine ⟨hself, fun hserved => ?_⟩
      have hheld := h.served p hserved
      rw [hfree] at hheld
      cases hheld
    · obtain ⟨hq', hserved⟩ := h.sending j r₀ q hold hq
      exact ⟨hclaimed q hq', hserved⟩
  · rcases Place.getElem?_set_cases hj with ⟨-, rfl⟩ | ⟨-, hold⟩
    · rw [hpaying] at hq
      cases hq
    · exact h.paying j r₀ q hold hq

lemma Held.deliver {d : Delivery} (h : s.Held cfg initial) (hr : s.runs[k]? = some r)
    (hsending : r.sending = some d.participantId) (hpaying' : r'.paying = some d.participantId)
    (hsending' : r'.sending = none) :
    ({ s with deliveries := s.deliveries ++ [d] }.put k r' : Recaps).Held cfg initial := by
  obtain ⟨hclaimed, hnew⟩ := h.sending k r _ hr hsending
  have hserved : ({ s with deliveries := s.deliveries ++ [d] }.put k r' : Recaps).served =
      s.served ++ [d.participantId] := List.map_append
  have hholding := RecapRun.holding_of_sending hsending
  refine ⟨?_, fun j r₀ q hj hq => ?_, fun j r₀ q hj hq => ?_, fun q hq => ?_, ?_, h.chargedOnce,
    fun q hq => ?_, fun q hq => ?_, h.balance, h.solvent⟩
  · exact h.keyed.set hr (.inr ((RecapRun.holding_of_paying hpaying').trans hholding.symm))
  · rcases Place.getElem?_set_cases hj with ⟨-, rfl⟩ | ⟨hne, hold⟩
    · rw [hsending'] at hq
      cases hq
    · obtain ⟨hq', hnot⟩ := h.sending j r₀ q hold hq
      rw [hserved, List.mem_append, List.mem_singleton, not_or]
      exact ⟨hq', hnot, h.ne_of_holding hr hholding hold hne (RecapRun.holding_of_sending hq)⟩
  · rw [hserved, List.mem_append]
    rcases Place.getElem?_set_cases hj with ⟨-, rfl⟩ | ⟨-, hold⟩
    · rw [hpaying'] at hq
      cases hq
      refine ⟨.inr (List.mem_singleton_self _), fun hcharged => ?_, ?_⟩
      · exact hnew (h.chargedServed _ hcharged)
      · exact fun hshort => hnew (h.shortServed _ hshort)
    · obtain ⟨hq', hrest⟩ := h.paying j r₀ q hold hq
      exact ⟨.inl hq', hrest⟩
  · rw [hserved, List.mem_append, List.mem_singleton] at hq
    rcases hq with hq | rfl
    · exact h.served q hq
    · exact hclaimed
  · rw [hserved, List.nodup_append']
    exact ⟨h.once, List.nodup_singleton _, List.disjoint_singleton.mpr hnew⟩
  · rw [hserved, List.mem_append]
    exact .inl (h.chargedServed q hq)
  · rw [hserved, List.mem_append]
    exact .inl (h.shortServed q hq)

/-- What a charge does to the pool. -/
lemma Held.deduct {kind description : String} {actorId : Option Uuid} {outcome : OrgCharge}
    {db : Credits} (h : s.Held cfg initial)
    (hdeduct : s.db.deductOrgCreditsTx cfg.orgId cfg.cost kind none actorId description =
      some (outcome, db)) :
    (∃ balance required, outcome = .insufficient balance required ∧ db = s.db) ∨
    (∃ after, outcome = .charged after ∧ cfg.cost ≤ initial - cfg.cost * s.charged.length ∧
      Credits.Moves s.db db cfg.orgId (-cfg.cost)) := by
  have hcost := cfg.cost_range
  rcases Credits.deduct_spec kind none actorId description hcost.1 hcost.2 h.balance h.solvent with
    ⟨-, hshort⟩ | ⟨hle, db', hmoved, hmoves⟩
  · rw [hshort] at hdeduct
    cases hdeduct
    exact .inl ⟨_, _, rfl, rfl⟩
  · rw [hmoved] at hdeduct
    cases hdeduct
    exact .inr ⟨_, rfl, hle, hmoves⟩

lemma Held.charge {db : Credits} (h : s.Held cfg initial) (hr : s.runs[k]? = some r)
    (hpaying : r.paying = some p) (hnone : r'.holding = none)
    (hle : cfg.cost ≤ initial - cfg.cost * s.charged.length)
    (hmoves : Credits.Moves s.db db cfg.orgId (-cfg.cost)) :
    ({ s with db := db, charged := s.charged ++ [p] }.put k r' : Recaps).Held cfg initial := by
  obtain ⟨hserved, hnot, -⟩ := h.paying k r p hr hpaying
  have hlength : initial - cfg.cost * s.charged.length + -cfg.cost =
      initial - cfg.cost * ((s.charged ++ [p]).length : Nat) := by
    rw [List.length_append, List.length_singleton]
    push_cast
    ring
  have hholding := RecapRun.holding_of_paying hpaying
  refine ⟨h.keyed.set hr (.inl hnone), fun j r₀ q hj hq => ?_, fun j r₀ q hj hq => ?_, h.served,
    h.once, ?_, fun q hq => ?_, h.shortServed, ?_, ?_⟩
  · rcases Place.getElem?_set_cases hj with ⟨-, rfl⟩ | ⟨-, hold⟩
    · rw [(RecapRun.sending_of_holding_none hnone).1] at hq
      cases hq
    · exact h.sending j r₀ q hold hq
  · rcases Place.getElem?_set_cases hj with ⟨-, rfl⟩ | ⟨hne, hold⟩
    · rw [(RecapRun.sending_of_holding_none hnone).2] at hq
      cases hq
    · obtain ⟨hq', hcharged, hshort⟩ := h.paying j r₀ q hold hq
      have hqp := h.ne_of_holding hr hholding hold hne (RecapRun.holding_of_paying hq)
      exact ⟨hq', List.not_mem_append hcharged (by simpa using hqp), hshort⟩
  · exact h.chargedOnce.append (List.nodup_singleton p) (List.disjoint_singleton.mpr hnot)
  · rcases List.mem_append.mp hq with hq | hq
    · exact h.chargedServed q hq
    · rw [List.mem_singleton.mp hq]
      exact hserved
  · exact (hmoves.balance_self h.balance).trans (congrArg some hlength)
  · refine hlength ▸ (⟨by omega, ?_⟩ : Credits.InRange _)
    have hcost := cfg.cost_range.1
    have hsolvent := h.solvent.2
    omega

lemma Held.shorten (h : s.Held cfg initial) (hr : s.runs[k]? = some r)
    (hpaying : r.paying = some p) (hnone : r'.holding = none) :
    ({ s with short := s.short ++ [p] }.put k r' : Recaps).Held cfg initial := by
  obtain ⟨hserved, -⟩ := h.paying k r p hr hpaying
  have hholding := RecapRun.holding_of_paying hpaying
  refine ⟨h.keyed.set hr (.inl hnone), fun j r₀ q hj hq => ?_, fun j r₀ q hj hq => ?_, h.served,
    h.once, h.chargedOnce, h.chargedServed, fun q hq => ?_, h.balance, h.solvent⟩
  · rcases Place.getElem?_set_cases hj with ⟨-, rfl⟩ | ⟨-, hold⟩
    · rw [(RecapRun.sending_of_holding_none hnone).1] at hq
      cases hq
    · exact h.sending j r₀ q hold hq
  · rcases Place.getElem?_set_cases hj with ⟨-, rfl⟩ | ⟨hne, hold⟩
    · rw [(RecapRun.sending_of_holding_none hnone).2] at hq
      cases hq
    · obtain ⟨hq', hcharged, hshort⟩ := h.paying j r₀ q hold hq
      have hqp := h.ne_of_holding hr hholding hold hne (RecapRun.holding_of_paying hq)
      exact ⟨hq', hcharged, List.not_mem_append hshort (by simpa using hqp)⟩
  · rcases List.mem_append.mp hq with hq | hq
    · exact h.shortServed q hq
    · rw [List.mem_singleton.mp hq]
      exact hserved

lemma Held.giveUp {rows : Assoc Uuid EmailRow} (h : s.Held cfg initial)
    (hr : s.runs[k]? = some r)
    (hother : ∀ q, q ≠ p → claimed { s with rows := rows } q = s.claimed q)
    (hsending : r.sending = some p) (hnone : r'.holding = none) :
    ({ s with rows := rows }.put k r' : Recaps).Held cfg initial := by
  obtain ⟨-, hnew⟩ := h.sending k r p hr hsending
  have hholding := RecapRun.holding_of_sending hsending
  refine ⟨h.keyed.set hr (.inl hnone), fun j r₀ q hj hq => ?_, fun j r₀ q hj hq => ?_,
    fun q hq => ?_, h.once, h.chargedOnce, h.chargedServed, h.shortServed, h.balance, h.solvent⟩
  · rcases Place.getElem?_set_cases hj with ⟨-, rfl⟩ | ⟨hne, hold⟩
    · rw [(RecapRun.sending_of_holding_none hnone).1] at hq
      cases hq
    · obtain ⟨hclaimed, hnot⟩ := h.sending j r₀ q hold hq
      have hqp := h.ne_of_holding hr hholding hold hne (RecapRun.holding_of_sending hq)
      exact ⟨(hother q hqp).trans hclaimed, hnot⟩
  · rcases Place.getElem?_set_cases hj with ⟨-, rfl⟩ | ⟨-, hold⟩
    · rw [(RecapRun.sending_of_holding_none hnone).2] at hq
      cases hq
    · exact h.paying j r₀ q hold hq
  · have hqp : q ≠ p := by
      rintro rfl
      exact hnew hq
    exact (hother q hqp).trans (h.served q hq)

lemma Held.move (h : s.Held cfg initial) (hr : s.runs[k]? = some r)
    (hmove : Move cfg s k r r' t fair) : t.Held cfg initial := by
  cases hmove with
  | plain hnone hnone' =>
    obtain ⟨hsending, hpaying⟩ := RecapRun.sending_of_holding_none hnone'
    exact h.quiet hr rfl (fun _ => rfl) rfl rfl rfl rfl (.inl hsending) (.inl hpaying) (.inl hnone')
  | claim p row hrow hfree hnone hsending hpaying => exact h.claim hrow hfree hsending hpaying
  | deliver d hsending hpaying' hsending' => exact h.deliver hr hsending hpaying' hsending'
  | refused p hsending hsending' hpaying' =>
    refine h.quiet hr rfl (fun _ => rfl) rfl rfl rfl rfl (.inr (hsending'.trans hsending.symm))
      (.inl hpaying') (.inr ?_)
    exact (RecapRun.holding_of_sending hsending').trans (RecapRun.holding_of_sending hsending).symm
  | note p rows hrows hpaying hpaying' hsending' =>
    rcases hpaying' with hsame | ⟨-, hnone⟩
    · refine h.quiet hr rfl hrows rfl rfl rfl rfl (.inl hsending')
        (.inr (hsame.trans hpaying.symm)) (.inr ?_)
      exact (RecapRun.holding_of_paying hsame).trans (RecapRun.holding_of_paying hpaying).symm
    · refine h.quiet hr rfl hrows rfl rfl rfl rfl (.inl hsending') (.inl hnone) (.inl ?_)
      rw [RecapRun.holding, hsending', hnone]
      rfl
  | charged p kind description actorId after db hdeduct hpaying hnone =>
    rcases h.deduct hdeduct with ⟨_, _, heq, -⟩ | ⟨_, -, hle, hmoves⟩
    · cases heq
    · exact h.charge hr hpaying hnone hle hmoves
  | short p kind description actorId balance required db hdeduct hpaying hnone =>
    rcases h.deduct hdeduct with ⟨_, _, -, rfl⟩ | ⟨_, heq, -⟩
    · exact h.shorten hr hpaying hnone
    · cases heq
  | giveUp p rows hself hother hsending hnone => exact h.giveUp hr hother hsending hnone
  | drop p fair hholding hnone hfair =>
    obtain ⟨hsending, hpaying⟩ := RecapRun.sending_of_holding_none hnone
    exact h.quiet hr rfl (fun _ => rfl) rfl rfl rfl rfl (.inl hsending) (.inl hpaying) (.inl hnone)

lemma Held.request (h : s.Held cfg initial) (hostUserId : Uuid) :
    ({ s with runs := s.runs ++ [.start hostUserId] } : Recaps).Held cfg initial := by
  refine ⟨h.keyed.concat rfl, fun j r₀ q hj hq => ?_, fun j r₀ q hj hq => ?_, h.served, h.once,
    h.chargedOnce, h.chargedServed, h.shortServed, h.balance, h.solvent⟩
  · rcases Place.getElem?_concat_cases hj with ⟨-, rfl⟩ | hold
    · cases hq
    · exact h.sending j r₀ q hold hq
  · rcases Place.getElem?_concat_cases hj with ⟨-, rfl⟩ | hold
    · cases hq
    · exact h.paying j r₀ q hold hq

lemma Held.step {e : RecapEvent} (h : s.Held cfg initial) (hstep : s.step cfg e = some t) :
    t.Held cfg initial := by
  cases e with
  | start hostUserId =>
    cases hstep
    exact h.request hostUserId
  | step k a =>
    obtain ⟨r, hr, hadvance⟩ := Option.bind_eq_some_iff.mp hstep
    obtain ⟨r', -, hmove⟩ := exists_move hadvance
    exact h.move hr hmove

lemma held_new {db : Credits} (hbalance : db.balance cfg.orgId = some initial)
    (hrange : Credits.InRange initial) : (new db).Held cfg initial := by
  have hnothing : initial - cfg.cost * (([] : List Uuid).length : Nat) = initial := by simp
  refine ⟨Place.Keyed.nil, fun j r₀ q hj => ?_, fun j r₀ q hj => ?_, fun q hq => ?_, List.nodup_nil,
    List.nodup_nil, fun q hq => ?_, fun q hq => ?_, ?_, ?_⟩
  · cases hj
  · cases hj
  · cases hq
  · cases hq
  · cases hq
  · exact hbalance.trans (congrArg some hnothing.symm)
  · exact hnothing.symm ▸ hrange

/-! ## Nothing is left behind -/

/-- What was sent is charged, or will be, unless the balance did not suffice; and a row that is
claimed stands for an email that is on its way, or will be. -/
structure Fair (cfg : RecapConfig) (s : Recaps) : Prop where
  paid : 0 < cfg.cost → ∀ p ∈ s.served, p ∈ s.charged ∨ p ∈ s.short ∨
    ∃ (k : Nat) (r : RecapRun), s.runs[k]? = some r ∧ r.paying = some p
  claimed : ∀ p, s.claimed p = true → p ∈ s.served ∨
    ∃ (k : Nat) (r : RecapRun), s.runs[k]? = some r ∧ r.sending = some p

/-- What another run does is still being done. -/
lemma exists_other {f : RecapRun → Option Uuid} {q : Uuid} (hr : s.runs[k]? = some r)
    (hruns : t.runs = s.runs.set k r') (hne : f r ≠ some q ∨ f r' = some q)
    (h : ∃ (j : Nat) (r₀ : RecapRun), s.runs[j]? = some r₀ ∧ f r₀ = some q) :
    ∃ (j : Nat) (r₀ : RecapRun), t.runs[j]? = some r₀ ∧ f r₀ = some q := by
  obtain ⟨j, r₀, hj, hq⟩ := h
  by_cases hjk : j = k
  · rw [hjk, hr] at hj
    cases hj
    refine ⟨k, r', ?_, hne.resolve_left fun hnot => hnot hq⟩
    rw [hruns]
    exact Place.getElem?_set_here hr
  · refine ⟨j, r₀, ?_, hq⟩
    rw [hruns, List.getElem?_set_ne (Ne.symm hjk)]
    exact hj

lemma exists_of_ne {f : RecapRun → Option Uuid} {q : Uuid} (hr : s.runs[k]? = some r)
    (hruns : t.runs = s.runs.set k r') (hp : f r = some p) (hqp : q ≠ p) :
    (∃ (j : Nat) (r₀ : RecapRun), s.runs[j]? = some r₀ ∧ f r₀ = some q) →
      ∃ (j : Nat) (r₀ : RecapRun), t.runs[j]? = some r₀ ∧ f r₀ = some q := by
  refine exists_other hr hruns (.inl ?_)
  rw [hp]
  exact fun heq => hqp (Option.some.inj heq).symm

/-- What a run that is not charging does leaves every email charged or in hand. -/
lemma Fair.paid_elsewhere {q : Uuid} (h : s.Fair cfg) (hr : s.runs[k]? = some r)
    (hruns : t.runs = s.runs.set k r') (hpaying : r.paying = none) (hcost : 0 < cfg.cost)
    (hq : q ∈ s.served) : q ∈ s.charged ∨ q ∈ s.short ∨
      ∃ (j : Nat) (r₀ : RecapRun), t.runs[j]? = some r₀ ∧ r₀.paying = some q :=
  (h.paid hcost q hq).imp_right (Or.imp_right
    (exists_other hr hruns (.inl (by simp [hpaying]))))

/-- What a run that is not sending does leaves every claimed row served or in hand. -/
lemma Fair.claimed_elsewhere {q : Uuid} (h : s.Fair cfg) (hr : s.runs[k]? = some r)
    (hruns : t.runs = s.runs.set k r') (hsending : r.sending = none) (hq : s.claimed q = true) :
    q ∈ s.served ∨
      ∃ (j : Nat) (r₀ : RecapRun), t.runs[j]? = some r₀ ∧ r₀.sending = some q :=
  (h.claimed q hq).imp_right (exists_other hr hruns (.inl (by simp [hsending])))

lemma exists_here {f : RecapRun → Option Uuid} {q : Uuid} (hr : s.runs[k]? = some r)
    (hruns : t.runs = s.runs.set k r') (hq : f r' = some q) :
    ∃ (j : Nat) (r₀ : RecapRun), t.runs[j]? = some r₀ ∧ f r₀ = some q :=
  ⟨k, r', by rw [hruns]; exact Place.getElem?_set_here hr, hq⟩

/-- A run that does not hold what it held is replaced by none. -/
lemma Held.not_exists (h : s.Held cfg initial) (hr : s.runs[k]? = some r)
    (hholding : r.holding = some p) (hruns : t.runs = s.runs.set k r') (hnone : r'.holding = none) :
    ¬ ∃ (j : Nat) (r₀ : RecapRun), t.runs[j]? = some r₀ ∧ r₀.holding = some p := by
  rintro ⟨j, r₀, hj, hp⟩
  rw [hruns] at hj
  rcases Place.getElem?_set_cases hj with ⟨-, rfl⟩ | ⟨hne, hold⟩
  · rw [hnone] at hp
    cases hp
  · exact h.ne_of_holding hr hholding hold hne hp rfl

/-- **A step leaves nothing behind** exactly when it is a fair one. -/
lemma Held.fair_move_iff (h : s.Held cfg initial) (hfair : s.Fair cfg) (hr : s.runs[k]? = some r)
    (hruns : t.runs = s.runs.set k r') (hmove : Move cfg s k r r' t fair) :
    t.Fair cfg ↔ fair = true := by
  cases hmove with
  | plain hnone hnone' =>
    obtain ⟨hsending, hpaying⟩ := RecapRun.sending_of_holding_none hnone
    refine iff_of_true ⟨fun hcost q hq => ?_, fun q hq => ?_⟩ rfl
    · exact hfair.paid_elsewhere hr hruns hpaying hcost hq
    · exact hfair.claimed_elsewhere hr hruns hsending hq
  | claim p row hrow hfree hnone hsending hpaying =>
    obtain ⟨hsending₀, hpaying₀⟩ := RecapRun.sending_of_holding_none hnone
    refine iff_of_true ⟨fun hcost q hq => ?_, fun q hq => ?_⟩ rfl
    · exact hfair.paid_elsewhere hr hruns hpaying₀ hcost hq
    · by_cases hqp : q = p
      · rw [hqp]
        exact .inr (exists_here hr hruns hsending)
      · have hold : s.claimed q = true := by
          have hlookup :
              ((s.rows.insert p row).lookup q).any (fun row => row.status = .sent) = true :=
            hq
          rw [AList.lookup_insert_ne hqp] at hlookup
          exact hlookup
        exact hfair.claimed_elsewhere hr hruns hsending₀ hold
  | deliver d hsending hpaying' hsending' =>
    have hpaying := RecapRun.paying_of_sending hsending
    refine iff_of_true ⟨fun hcost q hq => ?_, fun q hq => ?_⟩ rfl
    · rw [Recaps.served, Recaps.put, List.map_append, List.mem_append] at hq
      rcases hq with hq | hq
      · exact hfair.paid_elsewhere hr hruns hpaying hcost hq
      · rw [List.mem_singleton.mp hq]
        exact .inr (.inr (exists_here hr hruns hpaying'))
    · rw [Recaps.served, Recaps.put, List.map_append, List.mem_append]
      by_cases hqd : q = d.participantId
      · exact .inl (.inr (List.mem_singleton.mpr hqd))
      · exact (hfair.claimed q hq).imp .inl (exists_of_ne hr hruns hsending hqd)
  | refused p hsending hsending' hpaying' =>
    have hsame : ∀ q, r.sending ≠ some q ∨ r'.sending = some q := by
      intro q
      rw [hsending, hsending']
      exact (em _).symm
    have hpaying := RecapRun.paying_of_sending hsending
    refine iff_of_true ⟨fun hcost q hq => ?_, fun q hq => ?_⟩ rfl
    · exact hfair.paid_elsewhere hr hruns hpaying hcost hq
    · exact (hfair.claimed q hq).imp_right (exists_other hr hruns (hsame q))
  | note p rows hrows hpaying hpaying' hsending' =>
    have hsending := RecapRun.sending_of_paying hpaying
    refine iff_of_true ⟨fun hcost q hq => ?_, fun q hq => ?_⟩ rfl
    · have hsame := hpaying'.resolve_right fun hfree => absurd hcost (not_lt.mpr hfree.1)
      refine (hfair.paid hcost q hq).imp_right (Or.imp_right (exists_other hr hruns ?_))
      rw [hpaying, hsame]
      exact (em _).symm
    · exact hfair.claimed_elsewhere hr hruns hsending ((hrows q).symm.trans hq)
  | charged p kind description actorId after db hdeduct hpaying hnone =>
    have hsending := RecapRun.sending_of_paying hpaying
    refine iff_of_true ⟨fun hcost q hq => ?_, fun q hq => ?_⟩ rfl
    · by_cases hqp : q = p
      · exact .inl (List.mem_append_right _ (by simpa using hqp))
      · exact (hfair.paid hcost q hq).imp (List.mem_append_left _)
          (Or.imp_right (exists_of_ne hr hruns hpaying hqp))
    · exact hfair.claimed_elsewhere hr hruns hsending hq
  | short p kind description actorId balance required db hdeduct hpaying hnone =>
    have hsending := RecapRun.sending_of_paying hpaying
    refine iff_of_true ⟨fun hcost q hq => ?_, fun q hq => ?_⟩ rfl
    · by_cases hqp : q = p
      · exact .inr (.inl (List.mem_append_right _ (by simpa using hqp)))
      · exact (hfair.paid hcost q hq).imp_right
          (Or.imp (List.mem_append_left _) (exists_of_ne hr hruns hpaying hqp))
    · exact hfair.claimed_elsewhere hr hruns hsending hq
  | giveUp p rows hself hother hsending hnone =>
    have hpaying := RecapRun.paying_of_sending hsending
    refine iff_of_true ⟨fun hcost q hq => ?_, fun q hq => ?_⟩ rfl
    · exact hfair.paid_elsewhere hr hruns hpaying hcost hq
    · have hqp : q ≠ p := by
        rintro rfl
        exact Bool.false_ne_true (hself.symm.trans hq)
      exact (hfair.claimed q ((hother q hqp).symm.trans hq)).imp_right
        (exists_of_ne hr hruns hsending hqp)
  | drop p fair hholding hnone hfair' =>
    rw [hfair']
    have hgone := h.not_exists hr hholding hruns hnone
    constructor
    · -- what the run held is left to no one
      intro ht
      cases hsending : r.sending with
      | some q =>
        cases (RecapRun.holding_of_sending hsending).symm.trans hholding
        obtain ⟨hclaimed, hnot⟩ := h.sending k r _ hr hsending
        obtain ⟨j, r₀, hj, hp⟩ := (ht.claimed _ hclaimed).resolve_left hnot
        exact absurd ⟨j, r₀, hj, RecapRun.holding_of_sending hp⟩ hgone
      | none =>
        refine ⟨rfl, not_lt.mp fun hcost => ?_⟩
        have hpaying := (RecapRun.sending_or_paying hholding).resolve_left (by simp [hsending])
        obtain ⟨hserved, hcharged, hshort⟩ := h.paying k r p hr hpaying
        obtain ⟨j, r₀, hj, hp⟩ :=
          ((ht.paid hcost p hserved).resolve_left hcharged).resolve_left hshort
        exact hgone ⟨j, r₀, hj, RecapRun.holding_of_paying hp⟩
    · rintro ⟨hsending, hfree⟩
      refine ⟨fun hcost => absurd hcost (not_lt.mpr hfree), fun q hq => ?_⟩
      exact hfair.claimed_elsewhere hr hruns hsending hq

lemma Held.fair_step_iff {e : RecapEvent} (h : s.Held cfg initial) (hfair : s.Fair cfg)
    (hstep : s.step cfg e = some t) : t.Fair cfg ↔ s.fairStep cfg e = true := by
  cases e with
  | start hostUserId =>
    cases hstep
    have hkeep : ∀ {f : RecapRun → Option Uuid} {q : Uuid},
        (∃ (k : Nat) (r : RecapRun), s.runs[k]? = some r ∧ f r = some q) →
        ∃ (k : Nat) (r : RecapRun),
          (s.runs ++ [RecapRun.start hostUserId])[k]? = some r ∧ f r = some q := by
      rintro f q ⟨k, r, hr, hq⟩
      exact ⟨k, r, Place.getElem?_concat_of_some hr, hq⟩
    refine iff_of_true ⟨fun hcost q hq => ?_, fun q hq => ?_⟩ rfl
    · exact (hfair.paid hcost q hq).imp_right (Or.imp_right hkeep)
    · exact (hfair.claimed q hq).imp_right hkeep
  | step k a =>
    obtain ⟨r, hr, hadvance⟩ := Option.bind_eq_some_iff.mp hstep
    obtain ⟨r', hruns, hmove⟩ := exists_move hadvance
    rw [h.fair_move_iff hfair hr hruns hmove, fairStep, hr]
    rfl

lemma fair_new (db : Credits) : (new db).Fair cfg := by
  refine ⟨fun _ q hq => ?_, fun q hq => ?_⟩
  · cases hq
  · cases hq

end Recaps

/-! ## One more run -/

/-- A step at which nothing fails. -/
def RecapStep.smooth : RecapStep → Bool
  | .load ok => ok
  | .transcript order => order.isSome
  | .draft subject => subject.isSome
  | .claim ok => ok
  | .send (.ok _) => true
  | .send (.error _) => false
  | .note ok => ok
  | .charge ok => ok
  | .mark ok => ok
  | .stop => false

/-- A step of the `n`-th run at which nothing fails. -/
def RecapEvent.smooth (n : Nat) : RecapEvent → Bool
  | .start _ => false
  | .step k a => k = n && a.smooth

/-- The steps that some groups take, at most. -/
def groupsWork (groups : List (Text × List EmailTarget)) : Nat :=
  (groups.map fun g => 1 + 4 * g.2.length).sum

namespace Batch

def rest (b : Batch) : List EmailTarget := b.targets ++ b.groups.flatMap Prod.snd

def work (b : Batch) : Nat := 4 * b.targets.length + groupsWork b.groups

end Batch

namespace RecapRun

/-- No step has failed so far. -/
def clean (r : RecapRun) : Bool :=
  match r.phase with
  | .mark _ _ _ => false
  | .stopped => false
  | .done ok => ok
  | _ => true

variable (cfg) in
/-- The targets that the run has not come to. -/
def remaining (r : RecapRun) : List EmailTarget :=
  match r.phase with
  | .load => cfg.targets
  | .transcript targets => targets
  | .draft _ targets groups => targets ++ groups.flatMap Prod.snd
  | .claim b t => t :: b.rest
  | .send b t => t :: b.rest
  | .note b _ _ => b.rest
  | .charge b _ => b.rest
  | .mark b _ _ => b.rest
  | .done _ => []
  | .stopped => []

variable (cfg) in
/-- The steps that are left, at most. -/
def work (r : RecapRun) : Nat :=
  match r.phase with
  | .load => 2 + groupsWork (groupTargetsByLang cfg.targets (langsOf cfg.targets))
  | .transcript targets => 1 + groupsWork (groupTargetsByLang targets (langsOf targets))
  | .draft _ targets groups => 1 + 4 * targets.length + groupsWork groups
  | .claim b _ => 4 + b.work
  | .send b _ => 3 + b.work
  | .note b _ _ => 2 + b.work
  | .charge b _ => 1 + b.work
  | .mark b _ _ => 1 + b.work
  | .done _ => 0
  | .stopped => 0

lemma nextGroup_spec (r : RecapRun) (groups : List (Text × List EmailTarget)) :
    (r.nextGroup groups).clean = true ∧ (r.nextGroup groups).work cfg = groupsWork groups ∧
      (r.nextGroup groups).remaining cfg = groups.flatMap Prod.snd := by
  cases groups with
  | nil => exact ⟨rfl, rfl, rfl⟩
  | cons g groups =>
    refine ⟨rfl, ?_, rfl⟩
    rw [groupsWork, List.map_cons, List.sum_cons]
    rfl

lemma nextTarget_spec (r : RecapRun) (b : Batch) :
    (r.nextTarget b).clean = true ∧ (r.nextTarget b).work cfg = b.work ∧
      (r.nextTarget b).remaining cfg = b.rest := by
  obtain ⟨lang, subject, targets, groups⟩ := b
  cases targets with
  | nil =>
    obtain ⟨hclean, hwork, hremaining⟩ :=
      @nextGroup_spec cfg (r.report lang r.current) groups
    refine ⟨hclean, hwork.trans ?_, hremaining⟩
    simp [Batch.work]
  | cons t targets =>
    refine ⟨rfl, ?_, rfl⟩
    show 4 + (4 * targets.length + groupsWork groups) = 4 * (targets.length + 1) + groupsWork groups
    omega

end RecapRun

lemma groupsWork_perm {targets : List EmailTarget} {order order' : List Text}
    (h : order.Perm order') : groupsWork (groupTargetsByLang targets order) =
      groupsWork (groupTargetsByLang targets order') :=
  ((h.map _).map _).sum_eq

/-- No target is left out of the groups. -/
lemma mem_groupTargetsByLang {targets : List EmailTarget} {order : List Text} {e : EmailTarget}
    (h : order.Perm (langsOf targets)) (he : e ∈ targets) :
    e ∈ (groupTargetsByLang targets order).flatMap Prod.snd := by
  have hlang : e.lang ∈ order :=
    h.symm.subset (List.mem_eraseDups.mpr (List.mem_map_of_mem he))
  rw [List.mem_flatMap]
  refine ⟨_, List.mem_map_of_mem hlang, List.mem_filter.mpr ⟨he, ?_⟩⟩
  exact decide_eq_true rfl

namespace Recaps

/-- Where nothing fails, a run comes to an end, and leaves out no target whose row is free. -/
lemma smooth_advance {a : RecapStep} (hclean : r.clean = true) (ha : a.smooth = true)
    (h : s.advance cfg k r r.phase a = some t) : ∃ r', t.runs = s.runs.set k r' ∧
      r'.clean = true ∧ r'.work cfg < r.work cfg ∧ (∀ p ∈ s.served, p ∈ t.served) ∧
      ∀ e ∈ r.remaining cfg, e ∈ r'.remaining cfg ∨ e.participantId ∈ t.served ∨
        r.holding = none ∧ s.claimed e.participantId = true := by
  generalize hphase : r.phase = phase at h
  cases advances_of_advance h with
  | load =>
    have hwork : r.work cfg =
        2 + groupsWork (groupTargetsByLang cfg.targets (langsOf cfg.targets)) := by
      rw [RecapRun.work, hphase]
    have hremaining : r.remaining cfg = cfg.targets := by rw [RecapRun.remaining, hphase]
    rw [hwork, hremaining]
    by_cases htargets : cfg.targets = []
    · rw [if_pos htargets]
      refine ⟨_, rfl, rfl, ?_, fun _ hp => hp, fun e he => ?_⟩
      · exact Nat.lt_add_right _ Nat.two_pos
      · rw [htargets] at he
        cases he
    · rw [if_neg htargets]
      refine ⟨_, rfl, rfl, ?_, fun _ hp => hp, fun e he => .inl he⟩
      exact Nat.add_lt_add_right (by decide) _
  | transcript targets order hperm =>
    have hwork : r.work cfg =
        1 + groupsWork (groupTargetsByLang targets (langsOf targets)) := by
      rw [RecapRun.work, hphase]
    have hremaining : r.remaining cfg = targets := by rw [RecapRun.remaining, hphase]
    obtain ⟨hclean', hwork', hremaining'⟩ :=
      @RecapRun.nextGroup_spec cfg r (groupTargetsByLang targets order)
    refine ⟨_, rfl, hclean', ?_, fun _ hp => hp, fun e he => .inl ?_⟩
    · rw [hwork, hwork', groupsWork_perm hperm]
      exact Nat.lt_add_of_pos_left Nat.one_pos
    · rw [hremaining']
      exact mem_groupTargetsByLang hperm (hremaining ▸ he)
  | draft lang targets groups subject =>
    have hwork : r.work cfg = 1 + 4 * targets.length + groupsWork groups := by
      rw [RecapRun.work, hphase]
    have hremaining : r.remaining cfg = targets ++ groups.flatMap Prod.snd := by
      rw [RecapRun.remaining, hphase]
    obtain ⟨hclean', hwork', hremaining'⟩ :=
      @RecapRun.nextTarget_spec cfg r ⟨lang, subject, targets, groups⟩
    refine ⟨_, rfl, hclean', ?_, fun _ hp => hp, fun e he => .inl ?_⟩
    · have hless : 4 * targets.length + groupsWork groups <
          1 + 4 * targets.length + groupsWork groups := by omega
      rw [hwork, hwork']
      exact hless
    · rw [hremaining']
      rw [hremaining] at he
      exact he
  | claim b e =>
    have hwork : r.work cfg = 4 + b.work := by rw [RecapRun.work, hphase]
    have hremaining : r.remaining cfg = e :: b.rest := by rw [RecapRun.remaining, hphase]
    have hnone : r.holding = none := RecapRun.holding_of_phase hphase
    rw [hwork, hremaining, claimStep]
    by_cases hclaimed : s.claimed e.participantId = true
    · rw [if_pos hclaimed]
      obtain ⟨hclean', hwork', hremaining'⟩ :=
        @RecapRun.nextTarget_spec cfg (r.count ⟨0, 1, 0⟩) b
      refine ⟨_, rfl, hclean', ?_, fun _ hp => hp, fun e' he' => ?_⟩
      · rw [hwork']
        exact Nat.lt_add_of_pos_left (by decide)
      · rcases List.mem_cons.mp he' with rfl | he'
        · exact .inr (.inr ⟨hnone, hclaimed⟩)
        · exact .inl (hremaining' ▸ he')
    · rw [if_neg hclaimed]
      refine ⟨_, rfl, rfl, ?_, fun _ hp => hp, fun e' he' => .inl he'⟩
      exact Nat.add_lt_add_right (by decide) _
  | send b e outcome =>
    have hwork : r.work cfg = 3 + b.work := by rw [RecapRun.work, hphase]
    have hremaining : r.remaining cfg = e :: b.rest := by rw [RecapRun.remaining, hphase]
    cases outcome with
    | error error => cases ha
    | ok resendId =>
      rw [hwork, hremaining]
      refine ⟨_, rfl, rfl, Nat.add_lt_add_right (by decide) _, fun p hp => ?_, fun e' he' => ?_⟩
      · rw [served, sendStep, put, List.map_append]
        exact List.mem_append_left _ hp
      · rcases List.mem_cons.mp he' with rfl | he'
        · refine .inr (.inl ?_)
          rw [served, sendStep, put, List.map_append]
          exact List.mem_append_right _ (List.mem_singleton_self _)
        · exact .inl he'
  | note b e resendId ok =>
    have hwork : r.work cfg = 2 + b.work := by rw [RecapRun.work, hphase]
    have hremaining : r.remaining cfg = b.rest := by rw [RecapRun.remaining, hphase]
    obtain rfl : ok = true := ha
    rw [hwork, hremaining, noteStep]
    by_cases hcost : 0 < cfg.cost
    · rw [if_pos hcost]
      refine ⟨_, rfl, rfl, Nat.add_lt_add_right (by decide) _, fun _ hp => hp, fun e' he' => ?_⟩
      exact .inl he'
    · rw [if_neg hcost]
      obtain ⟨hclean', hwork', hremaining'⟩ :=
        @RecapRun.nextTarget_spec cfg (r.count ⟨1, 0, 0⟩) b
      refine ⟨_, rfl, hclean', ?_, fun _ hp => hp, fun e' he' => .inl (hremaining' ▸ he')⟩
      rw [hwork']
      exact Nat.lt_add_of_pos_left (by decide)
  | charge b e ok t hcharge =>
    have hwork : r.work cfg = 1 + b.work := by rw [RecapRun.work, hphase]
    have hremaining : r.remaining cfg = b.rest := by rw [RecapRun.remaining, hphase]
    obtain rfl : ok = true := ha
    obtain ⟨⟨outcome, db⟩, -, rfl⟩ := Option.map_eq_some_iff.mp hcharge
    obtain ⟨hclean', hwork', hremaining'⟩ :=
      @RecapRun.nextTarget_spec cfg (r.count ⟨1, 0, 0⟩) b
    rw [hwork, hremaining]
    have hless : ((r.count ⟨1, 0, 0⟩).nextTarget b).work cfg < 1 + b.work := by
      rw [hwork']
      exact Nat.lt_add_of_pos_left Nat.one_pos
    cases outcome with
    | charged after =>
      exact ⟨_, rfl, hclean', hless, fun _ hp => hp, fun e' he' => .inl (hremaining' ▸ he')⟩
    | insufficient balance required =>
      exact ⟨_, rfl, hclean', hless, fun _ hp => hp, fun e' he' => .inl (hremaining' ▸ he')⟩
  | mark b e error ok =>
    -- a run in which nothing has failed marks nothing
    rw [RecapRun.clean, hphase] at hclean
    cases hclean
  | _ => cases ha

lemma fair_of_smooth {a : RecapStep} (cost : Int) (phase : RecapPhase) (ha : a.smooth = true) :
    fairAdvance cost phase a = true := by
  cases a with
  | charge ok =>
    obtain rfl : ok = true := ha
    cases phase <;> rfl
  | mark ok =>
    obtain rfl : ok = true := ha
    cases phase <;> rfl
  | stop => cases ha
  | _ => cases phase <;> rfl

/-- The `n`-th run is alone, nothing has failed in it, and whoever is not served is still to
come. -/
structure Further (cfg : RecapConfig) (initial : Int) (n : Nat) (r : RecapRun) (s : Recaps) :
    Prop where
  held : s.Held cfg initial
  fair : s.Fair cfg
  here : s.runs[n]? = some r
  alone : ∀ (k : Nat) (r₀ : RecapRun), s.runs[k]? = some r₀ → k ≠ n → r₀.isOver = true
  clean : r.clean = true
  served : ∀ e ∈ cfg.targets, e.participantId ∈ s.served ∨ e ∈ r.remaining cfg

lemma Further.advance {n : Nat} {a : RecapStep} (h : s.Further cfg initial n r)
    (ha : a.smooth = true) (hstep : s.step cfg (.step n a) = some t) :
    ∃ r', t.Further cfg initial n r' ∧ r'.work cfg < r.work cfg := by
  obtain ⟨r₀, hr₀, hadvance⟩ := Option.bind_eq_some_iff.mp hstep
  cases h.here.symm.trans hr₀
  obtain ⟨r', hruns, hclean, hless, hserved, hremaining⟩ := smooth_advance h.clean ha hadvance
  have hfair : s.fairStep cfg (.step n a) = true := by
    rw [fairStep, h.here]
    exact fair_of_smooth cfg.cost r.phase ha
  refine ⟨r', ⟨h.held.step hstep, (h.held.fair_step_iff h.fair hstep).mpr hfair, ?_,
    fun k r₀ hk hne => ?_, hclean, fun e he => ?_⟩, hless⟩
  · rw [hruns]
    exact Place.getElem?_set_here h.here
  · rw [hruns, List.getElem?_set_ne (Ne.symm hne)] at hk
    exact h.alone k r₀ hk hne
  · rcases h.served e he with hold | hleft
    · exact .inl (hserved _ hold)
    · rcases hremaining e hleft with hleft | hnew | ⟨hnone, hclaimed⟩
      · exact .inr hleft
      · exact .inl hnew
      · -- a claimed row is not in the hands of this run, and the others are over
        refine .inl (hserved _ ((h.fair.claimed _ hclaimed).resolve_right ?_))
        rintro ⟨k, r₀, hk, hsending⟩
        have hnone₀ : r₀.holding = none := by
          by_cases hkn : k = n
          · rw [hkn, h.here] at hk
            cases hk
            exact hnone
          · exact RecapRun.holding_of_isOver (h.alone k r₀ hk hkn)
        rw [RecapRun.holding_of_sending hsending] at hnone₀
        cases hnone₀

lemma Further.run {n : Nat} {es : List RecapEvent} (h : s.Further cfg initial n r)
    (hsmooth : ∀ e ∈ es, e.smooth n = true) (hrun : Run (ofPartial (step cfg)) s es t) :
    ∃ r', t.Further cfg initial n r' := by
  induction hrun generalizing r with
  | nil => exact ⟨r, h⟩
  | @cons s u t e es hstep _ ih =>
    have he := hsmooth e List.mem_cons_self
    cases e with
    | start hostUserId => cases he
    | step k a =>
      obtain ⟨hk, ha⟩ := Bool.and_eq_true_iff.mp he
      obtain rfl : k = n := of_decide_eq_true hk
      obtain ⟨r', hu, -⟩ := h.advance ha hstep
      exact ih hu fun e' he' => hsmooth e' (List.mem_cons_of_mem _ he')

/-- A run that is not over has a next step. -/
lemma Further.exists_step {n : Nat} (h : s.Further cfg initial n r) (hover : r.isOver = false) :
    ∃ a t, a.smooth = true ∧ s.step cfg (.step n a) = some t := by
  suffices hadvance : ∃ a t, a.smooth = true ∧ s.advance cfg n r r.phase a = some t by
    obtain ⟨a, t, ha, ht⟩ := hadvance
    refine ⟨a, t, ha, ?_⟩
    rw [step, h.here]
    exact ht
  have hclean := h.clean
  rw [RecapRun.clean] at hclean
  rw [RecapRun.isOver] at hover
  cases hphase : r.phase with
  | load => exact ⟨.load true, _, rfl, rfl⟩
  | transcript targets =>
    exact ⟨.transcript (some (langsOf targets)), _, rfl, if_pos (List.Perm.refl _)⟩
  | draft lang targets groups => exact ⟨.draft (some []), _, rfl, rfl⟩
  | claim b e => exact ⟨.claim true, _, rfl, rfl⟩
  | send b e => exact ⟨.send (.ok []), _, rfl, rfl⟩
  | note b e resendId => exact ⟨.note true, _, rfl, rfl⟩
  | charge b e =>
    have horg : (s.db.balance cfg.orgId).isSome = true := by rw [h.held.balance]; rfl
    obtain ⟨outcome, db, hdeduct, -⟩ := Credits.deduct_total cfg.cost "webinar_ai_email" none
      (some r.hostUserId)
      ("webinar AI recap email (" ++ String.ofList b.lang ++ ") — " ++ toString cfg.webinarId) horg
    have hcharge : (s.chargeStep cfg n r b e true).isSome = true := by
      rw [chargeStep, Option.isSome_map, hdeduct]
      rfl
    obtain ⟨t, ht⟩ := Option.isSome_iff_exists.mp hcharge
    exact ⟨.charge true, t, rfl, ht⟩
  | mark b e error =>
    rw [hphase] at hclean
    cases hclean
  | done ok =>
    rw [hphase] at hover
    cases hover
  | stopped =>
    rw [hphase] at hover
    cases hover

lemma Further.exists_end {n : Nat} (h : s.Further cfg initial n r) : ∃ es t r',
    (∀ e ∈ es, RecapEvent.smooth n e = true) ∧ Run (ofPartial (step cfg)) s es t ∧
      t.runs[n]? = some r' ∧ r'.isOver = true := by
  induction hm : r.work cfg using Nat.strongRecOn generalizing s r with
  | ind m ih =>
    cases hover : r.isOver with
    | true => exact ⟨[], s, r, by simp, .nil s, h.here, hover⟩
    | false =>
      obtain ⟨a, u, ha, hstep⟩ := h.exists_step hover
      obtain ⟨r', hu, hless⟩ := h.advance ha hstep
      obtain ⟨es, t, r₀, hsmooth, hrun, hend⟩ := ih _ (hm ▸ hless) hu rfl
      refine ⟨.step n a :: es, t, r₀, fun e he => ?_, Run.cons_iff.mpr ⟨u, hstep, hrun⟩, hend⟩
      rcases List.mem_cons.mp he with rfl | he
      · rw [RecapEvent.smooth, ha, decide_eq_true rfl]
        rfl
      · exact hsmooth e he

/-- One more run at which nothing fails can be made, and serves every target. -/
def Completes (cfg : RecapConfig) (s : Recaps) : Prop :=
  ∀ hostUserId, (∃ es t r, (∀ e ∈ es, RecapEvent.smooth s.runs.length e = true) ∧
      Run (ofPartial (step cfg)) s (.start hostUserId :: es) t ∧
      t.runs[s.runs.length]? = some r ∧ r.isOver = true) ∧
    ∀ es t r, (∀ e ∈ es, RecapEvent.smooth s.runs.length e = true) →
      Run (ofPartial (step cfg)) s (.start hostUserId :: es) t →
      t.runs[s.runs.length]? = some r → r.isOver = true →
      ∀ e ∈ cfg.targets, e.participantId ∈ t.served

lemma completes_of_fair (h : s.Held cfg initial) (hfair : s.Fair cfg)
    (hover : ∀ r ∈ s.runs, r.isOver = true) : s.Completes cfg := by
  intro hostUserId
  let s' : Recaps := { s with runs := s.runs ++ [.start hostUserId] }
  have hstart : s.step cfg (.start hostUserId) = some s' := rfl
  have hfurther : s'.Further cfg initial s.runs.length (.start hostUserId) := by
    refine ⟨h.step hstart, (h.fair_step_iff hfair hstart).mpr rfl, ?_, fun k r hk hne => ?_, rfl,
      fun e he => .inr he⟩
    · exact List.getElem?_concat_length
    · rcases Place.getElem?_concat_cases hk with ⟨hlength, -⟩ | hold
      · exact absurd hlength hne
      · exact hover r (List.mem_of_getElem? hold)
  constructor
  · obtain ⟨es, t, r, hsmooth, hrun, hend⟩ := hfurther.exists_end
    exact ⟨es, t, r, hsmooth, Run.cons_iff.mpr ⟨s', hstart, hrun⟩, hend⟩
  · intro es t r hsmooth hrun hr hend e he
    obtain ⟨u, hu, hrest⟩ := Run.cons_iff.mp hrun
    cases hstart.symm.trans hu
    obtain ⟨r', ht⟩ := hfurther.run hsmooth hrest
    cases hr.symm.trans ht.here
    refine (ht.served e he).resolve_right fun hleft => ?_
    have hclean := ht.clean
    rw [RecapRun.isOver] at hend
    rw [RecapRun.clean] at hclean
    rw [RecapRun.remaining] at hleft
    cases hphase : r.phase with
    | done ok =>
      rw [hphase] at hleft
      cases hleft
    | stopped =>
      rw [hphase] at hclean
      cases hclean
    | _ =>
      rw [hphase] at hend
      cases hend

/-- **Recap emails.**  In any runs nobody is sent two emails or charged twice, and what was charged
is gone from the balance.  Every state of the runs leaves nothing behind exactly when every step is
a fair one: what was sent is charged unless the balance did not suffice, and once all runs are over
one more serves every target. -/
theorem recap_emails_iff (cfg : RecapConfig) (db : Credits) (initial : Int) (es : List RecapEvent)
    (t : Recaps) (hbalance : db.balance cfg.orgId = some initial)
    (hrange : Credits.InRange initial) (h : Run (ofPartial (step cfg)) (new db) es t) :
    (t.served.Nodup ∧ t.charged.Nodup ∧ (∀ p ∈ t.charged, p ∈ t.served) ∧
      t.db.balance cfg.orgId = some (initial - cfg.cost * t.charged.length)) ∧
    (Run (Guarded (ofPartial (step cfg)) fun s e => s.fairStep cfg e = true) (new db) es t ↔
      ∀ pre u, pre <+: es → Run (ofPartial (step cfg)) (new db) pre u →
        u.Fair cfg ∧ ((∀ r ∈ u.runs, r.isOver = true) →
          (0 < cfg.cost → ∀ p ∈ u.served, p ∈ u.charged ∨ p ∈ u.short) ∧ u.Completes cfg)) := by
  have hheld : (new db).Held cfg initial := held_new hbalance hrange
  constructor
  · have ht : t.Held cfg initial :=
      h.invariant (Held cfg initial) (fun s e _ t hs hstep => hs.step hstep) hheld
    exact ⟨ht.once, ht.chargedOnce, ht.chargedServed, ht.balance⟩
  · refine Run.guarded_iff_prefixes (I := fun s => s.Held cfg initial ∧ s.Fair cfg) ?_ ?_ ?_ h
      ⟨hheld, fair_new db⟩
    · rintro s e t ⟨hs, hfair⟩ hguard hstep
      exact ⟨hs.step hstep, (hs.fair_step_iff hfair hstep).mpr hguard⟩
    · rintro s ⟨hs, hfair⟩
      refine ⟨hfair, fun hover => ⟨fun hcost p hp => ?_, completes_of_fair hs hfair hover⟩⟩
      refine (hfair.paid hcost p hp).imp_right fun hrest => hrest.resolve_right ?_
      rintro ⟨k, r, hr, hpaying⟩
      have hnone := RecapRun.holding_of_isOver (hover r (List.mem_of_getElem? hr))
      rw [RecapRun.holding_of_paying hpaying] at hnone
      cases hnone
    · rintro s e t ⟨hs, hfair⟩ hguard hstep ⟨ht, -⟩
      rw [(hs.fair_step_iff hfair hstep).mp ht] at hguard
      cases hguard

/-- One participant, and emails that cost a dollar. -/
def sampleRecap : RecapConfig where
  webinarId := 3
  orgId := 1
  sourceLanguage := ['e', 'n']
  participants := [⟨7, none, none, some ['a', '@', 'b']⟩]
  emailPrice := 1
  toLowercase := id

/-- The `k`-th run comes to the claim of the only target. -/
def toClaim (k : Nat) : List RecapEvent :=
  [.step k (.load true), .step k (.transcript (some [['e', 'n']])),
    .step k (.draft (some ['r'])), .step k (.claim true)]

theorem recap_emails_sample : ∃ t,
    Run (ofPartial (step sampleRecap)) (new ⟨[⟨1, 250⟩], []⟩)
      (.start 9 :: toClaim 0 ++ [.step 0 (.send (.ok ['i'])), .step 0 (.note true),
        .step 0 (.charge true)]) t ∧
      t.served = [7] ∧ t.charged = [7] ∧ t.db.balance 1 = some 150 ∧ t.Completes sampleRecap := by
  let es : List RecapEvent := .start 9 :: toClaim 0 ++ [.step 0 (.send (.ok ['i'])),
    .step 0 (.note true), .step 0 (.charge true)]
  have hrun : ∃ t, Run (Guarded (ofPartial (step sampleRecap))
      fun s e => s.fairStep sampleRecap e = true) (new ⟨[⟨1, 250⟩], []⟩) es t ∧
      t.served = [7] ∧ t.charged = [7] ∧ t.db.balance 1 = some 150 ∧
      ∀ r ∈ t.runs, r.isOver = true := Run.exists_guarded_of_decide (by decide +kernel)
  obtain ⟨t, hrun, hserved, hcharged, hbalance, hover⟩ := hrun
  have hiff := (recap_emails_iff sampleRecap ⟨[⟨1, 250⟩], []⟩ 250 es t rfl (by decide)
    hrun.ofGuarded).2
  have hall := (hiff.mp hrun es t (List.prefix_refl es) hrun.ofGuarded).2 hover
  exact ⟨t, hrun.ofGuarded, hserved, hcharged, hbalance, hall.2⟩

/-- A run that stops after its claim leaves the participant without an email, however often the
recap is run; and one that stops after the send leaves the email without a charge. -/
theorem stopped_run_strands :
    (∃ t, Run (ofPartial (step sampleRecap)) (new ⟨[⟨1, 250⟩], []⟩)
      (.start 9 :: toClaim 0 ++ [.step 0 .stop, .start 9] ++ toClaim 1) t ∧
      (∀ r ∈ t.runs, r.isOver = true) ∧ (∀ e ∈ toClaim 1, RecapEvent.smooth 1 e = true) ∧
      sampleRecap.targets.map EmailTarget.participantId = [7] ∧ t.served = []) ∧
    ∃ t, Run (ofPartial (step sampleRecap)) (new ⟨[⟨1, 250⟩], []⟩)
      (.start 9 :: toClaim 0 ++ [.step 0 (.send (.ok ['i'])), .step 0 .stop]) t ∧
      (∀ r ∈ t.runs, r.isOver = true) ∧ sampleRecap.cost = 100 ∧ t.served = [7] ∧
      t.db.balance 1 = some 250 :=
  ⟨Run.exists_of_decide (by decide +kernel), Run.exists_of_decide (by decide +kernel)⟩

end Recaps

end VoxTranslate.Webinar
