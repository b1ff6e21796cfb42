import VoxTranslate.Voip.Calls
import VoxTranslate.Voip.Numbers

/-!
# Incoming calls (`inbound.rs`, `hours.rs`)

A stranger rings one of the numbers.  `admit` decides whether the number takes calls, whether
the office is open, who is rung and in what language the caller is answered, and creates the
row of the call.  A refusal writes nothing.  Number formats and time zones are read by
parameters; the model follows the path on which the database answers.
-/

namespace VoxTranslate.Voip

open Lib Business

/-! ## Office hours -/

/-- A week of opening times, Monday first, as minutes from midnight. -/
structure Week where
  opensAt : List (Option Int)
  closesAt : List (Option Int)
  deriving DecidableEq, Repr

namespace Week

/-- Seven days from the two arrays; a day that is missing or negative is closed. -/
def fromArrays (opens closes : List Int) : Week :=
  let pick (v : List Int) (i : Nat) : Option Int := v[i]?.filter fun m => 0 ≤ m
  ⟨(List.range 7).map (pick opens), (List.range 7).map (pick closes)⟩

def isEmpty (w : Week) : Bool := w.opensAt.all Option.isNone

end Week

/-- Is the office open at this day of the week and minute of the day?  A week without opening
times is open. -/
def isOpen (day : Nat) (minutes : Int) : Option Week → Bool
  | none => true
  | some week =>
    if week.isEmpty then true
    else
      match week.opensAt[day]?.join, week.closesAt[day]?.join with
      | some opening, some closing =>
        if opening < closing then opening ≤ minutes && minutes < closing
        -- the window crosses midnight
        else opening ≤ minutes || minutes < closing
      | _, _ => false

/-! ## The tables -/

/-- Who is rung. -/
inductive RingMode where
  | owners
  | users
  | team
  deriving DecidableEq, Repr

/-- What happens when nobody answers, or when the office is closed. -/
inductive NoAnswerAction where
  | voicemail
  | forward
  | refuse
  deriving DecidableEq, Repr

/-- A row of `voip_number_routing`. -/
structure RoutingRow where
  ringMode : RingMode
  ringUserIds : List Uuid
  ringTeamId : Option Uuid
  ringSeconds : Int
  noAnswerAction : NoAnswerAction
  forwardTo : Option String
  strangerLanguage : Option String
  deriving DecidableEq, Repr

/-- What happens to a number nobody has configured. -/
def RoutingRow.defaultFor (ringSeconds : Int) : RoutingRow where
  ringMode := .owners
  ringUserIds := []
  ringTeamId := none
  ringSeconds := ringSeconds
  noAnswerAction := .voicemail
  forwardTo := none
  strangerLanguage := none

/-- A row of `voip_business_hours`. -/
structure HoursRow where
  timezone : String
  opensAt : List Int
  closesAt : List Int
  closedAction : NoAnswerAction
  deriving DecidableEq, Repr

/-- A contact's number, joined with its contact. -/
structure ContactNumber where
  orgId : Uuid
  e164 : String
  contactId : Uuid
  name : String
  language : Option String
  deriving DecidableEq, Repr

/-- A row of `organization_members`. -/
structure OrgMember where
  orgId : Uuid
  userId : Uuid
  role : String
  deriving DecidableEq, Repr

/-- The columns of `voip_calls` that only an incoming call has. -/
structure InboundCall where
  callId : Uuid
  inboundNumberId : Uuid
  contactId : Option Uuid
  rangUserIds : List Uuid
  /-- `failure_reason = 'outside_business_hours'`, which later writers keep. -/
  outsideHours : Bool
  deriving DecidableEq, Repr

/-- The tables `admit` reads, with those of the calls.  Routing and hours are keyed by the
number, team members by their team; `subscribed` lists the organisations with a live
subscription. -/
structure InboundDb extends VoipDb where
  numbers : List NumberRow
  routing : List (Uuid × RoutingRow)
  hours : List (Uuid × HoursRow)
  contactNumbers : List ContactNumber
  teamMembers : List (Uuid × Uuid)
  orgMembers : List OrgMember
  subscribed : List Uuid
  inbound : List InboundCall

/-! ## The decisions -/

/-- Why an incoming call is turned away. -/
inductive Refusal where
  /-- The deployment takes no calls. -/
  | disabled
  /-- Not a number of ours. -/
  | unknownNumber
  /-- Ours, but not taking calls. -/
  | inboundOff
  /-- The organisation's subscription has lapsed. -/
  | notEntitled
  deriving DecidableEq, Repr

/-- What the routing decided. -/
structure Ring where
  userIds : List Uuid
  seconds : Int
  noAnswerAction : NoAnswerAction
  forwardTo : Option String
  strangerLanguage : Option String
  deriving DecidableEq, Repr

namespace InboundDb

/-- The number that was rung, if it is ours and takes calls. -/
def numberFor (db : InboundDb) (dest : String) : Except Refusal NumberRow :=
  match Table.get NumberRow.e164 db.numbers dest with
  | none => .error .unknownNumber
  | some row =>
    if row.inboundEnabled = false ∨ row.status ≠ .active then .error .inboundOff else .ok row

/-- The owners and admins of an organisation. -/
def ownersOf (db : InboundDb) (orgId : Uuid) : List Uuid :=
  (db.orgMembers.filter fun m =>
    m.orgId = orgId && (m.role = "owner" || m.role = "admin")).map OrgMember.userId

/-- The users a routing row names. -/
def routedUsers (db : InboundDb) (row : RoutingRow) : List Uuid :=
  match row.ringMode with
  | .users => row.ringUserIds
  | .team =>
    match row.ringTeamId with
    | some teamId => (db.teamMembers.filter fun m => m.1 = teamId).map Prod.snd
    | none => []
  | .owners => []

/-- The people to ring; the owners where the routing names nobody. -/
def resolveRing (db : InboundDb) (numberId orgId : Uuid) (defaultSeconds : Int) : Ring :=
  let row := (db.routing.lookup numberId).getD (RoutingRow.defaultFor defaultSeconds)
  let routed := db.routedUsers row
  { userIds := if routed = [] then db.ownersOf orgId else routed
    seconds := row.ringSeconds
    noAnswerAction := row.noAnswerAction
    forwardTo := row.forwardTo
    strangerLanguage := row.strangerLanguage }

/-- Who is calling, and the language to answer in. -/
def identifyCaller (db : InboundDb) (orgId : Uuid) (source : String)
    (strangerLanguage : Option String) : Option Uuid × Option String × String :=
  match db.contactNumbers.find? fun n => n.orgId = orgId && n.e164 = source with
  | some n => (some n.contactId, some n.name, (n.language.or strangerLanguage).getD "en")
  | none => (none, none, strangerLanguage.getD "en")

end InboundDb

/-- How long to ring, clamped to what the schema allows. -/
def ringDeadline (secs : Int) (now : Timestamp) : Timestamp := now + seconds (max 5 (min secs 120))

/-! ## Admission -/

/-- The deployment's settings. -/
structure InboundConfig where
  inboundEnabled : Bool
  ringSecondsDefault : Int
  deriving DecidableEq, Repr

/-- What `admit` takes from outside the database: the settings, the reading of numbers
(`E164::parse`), and the day and minute an instant has in a time zone. -/
structure InboundEnv where
  config : Option InboundConfig
  parseE164 : String → Option String
  localTime : String → Timestamp → Nat × Int

/-- One incoming call, with the identifiers that are drawn for it.  `roomFree` says whether its
room can be created. -/
structure InboundRequest where
  leg : LegId
  fromRaw : String
  toRaw : String
  now : Timestamp
  callId : Uuid
  sessionId : Uuid
  roomFree : Bool

namespace InboundEnv

/-- The settings of a deployment that takes calls. -/
def settings (env : InboundEnv) : Except Refusal InboundConfig :=
  match env.config with
  | some cfg => if cfg.inboundEnabled then .ok cfg else .error .disabled
  | none => .error .disabled

/-- Who rings, and which number. -/
def parties (env : InboundEnv) (r : InboundRequest) : Except Refusal (String × String) :=
  match env.parseE164 r.fromRaw, env.parseE164 r.toRaw with
  | some source, some dest => .ok (source, dest)
  | _, _ => .error .unknownNumber

end InboundEnv

/-- An admitted call: what was decided about it. -/
structure Admission where
  callId : Uuid
  number : NumberRow
  isOpen : Bool
  ring : Ring
  closedAction : NoAnswerAction

/-- The action that `admit` resolved for a call nobody answers. -/
def Admission.action (a : Admission) : NoAnswerAction :=
  if a.isOpen then a.ring.noAnswerAction else a.closedAction

/-- The row `admit` inserts; the columns it does not name take their defaults. -/
def InboundRequest.callRow (r : InboundRequest) (orgId : Uuid) (language : String)
    (deadline : Timestamp) : CallRow where
  id := r.callId
  sessionId := r.sessionId
  orgId := orgId
  userId := none
  providerLegIds := [r.leg]
  direction := .inbound
  targetLanguage := language
  status := .ringing
  failureReason := none
  answeredAt := none
  endedAt := none
  durationSeconds := none
  recordingStatus := .none
  transcriptionStatus := .none
  consentPolicy := .noticeOnly
  consentStatus := .notRequired
  disclosurePlayedAt := none
  disclosureLanguage := none
  consentReceivedAt := none
  recordingStartedAt := none
  transcriptionStartedAt := none
  quotedPricePerMin := none
  customerChargeUsd := none
  creditsConsumed := 0
  providerRecordingId := none
  providerRecordingUrl := none
  answeredBy := none
  ringDeadlineAt := some deadline
  missed := false

namespace InboundDb

/-- Is the number's office open?  A number without hours is always open. -/
def openAt (db : InboundDb) (env : InboundEnv) (numberId : Uuid) (now : Timestamp) : Bool :=
  match db.hours.lookup numberId with
  | none => true
  | some h =>
    let (day, minutes) := env.localTime h.timezone now
    isOpen day minutes (some (Week.fromArrays h.opensAt h.closesAt))

/-- The insert of the call; the primary key refuses a row that is there. -/
def insertInbound (db : InboundDb) (row : CallRow) (call : InboundCall) : Option InboundDb :=
  if ∃ c ∈ db.calls, c.id = row.id then none
  else some { db with calls := row :: db.calls, inbound := call :: db.inbound }

/-- After hours nobody is rung, and the deadline is brought forward. -/
def closeForNow (db : InboundDb) (callId : Uuid) (now : Timestamp) : InboundDb :=
  { db with
    toVoipDb := db.toVoipDb.updateCall callId fun c => { c with ringDeadlineAt := some now }
    inbound := Table.update InboundCall.callId db.inbound callId fun c =>
      { c with rangUserIds := [], outsideHours := true } }

/-- `admit`. -/
def admitCall (db : InboundDb) (env : InboundEnv) (r : InboundRequest) :
    Except Refusal (Admission × InboundDb) := do
  let cfg ← env.settings
  let parties ← env.parties r
  let number ← db.numberFor parties.2
  if number.orgId ∉ db.subscribed then .error .notEntitled
  else
    let isOpen := db.openAt env number.id r.now
    let ring := db.resolveRing number.id number.orgId cfg.ringSecondsDefault
    let caller := db.identifyCaller number.orgId parties.1 ring.strangerLanguage
    if r.roomFree = false then .error .notEntitled
    else
      let row := r.callRow number.orgId caller.2.2 (ringDeadline ring.seconds r.now)
      match db.insertInbound row ⟨r.callId, number.id, caller.1, ring.userIds, false⟩ with
      | none => .error .unknownNumber
      | some db =>
        let closedAction := ((db.hours.lookup number.id).map HoursRow.closedAction).getD .voicemail
        .ok (⟨r.callId, number, isOpen, ring, closedAction⟩,
          if isOpen then db else db.closeForNow r.callId r.now)

/-- What an admission did, in full. -/
structure Admitted (db : InboundDb) (env : InboundEnv) (r : InboundRequest) (adm : Admission)
    (db' : InboundDb) : Prop where
  callId : adm.callId = r.callId
  entitled : adm.number.orgId ∈ db.subscribed
  isOpen : adm.isOpen = db.openAt env adm.number.id r.now
  ring : ∃ secs, adm.ring = db.resolveRing adm.number.id adm.number.orgId secs
  closedAction : adm.closedAction =
    ((db.hours.lookup adm.number.id).map HoursRow.closedAction).getD .voicemail
  fresh : ∀ c ∈ db.calls, c.id ≠ r.callId
  call : ∃ language deadline,
    db'.fetchCall r.callId = some (r.callRow adm.number.orgId language deadline)
  others : ∀ c, c ≠ r.callId → db'.fetchCall c = db.fetchCall c
  inboundCall : ∃ contactId rung outside, Table.get InboundCall.callId db'.inbound r.callId =
    some ⟨r.callId, adm.number.id, contactId, rung, outside⟩
  callIds : Table.Unique CallRow.id db.calls → Table.Unique CallRow.id db'.calls
  pool : db'.toReservations = db.toReservations
  events : db'.events = db.events
  routing : db'.routing = db.routing

variable {db db' : InboundDb} {env : InboundEnv} {r : InboundRequest} {adm : Admission}

/-- Bringing the deadline forward rewrites nothing but the deadline. -/
lemma closeForNow_spec (db : InboundDb) (now : Timestamp) (callId : Uuid) :
    (∀ c, (db.closeForNow callId now).fetchCall c = (db.fetchCall c).map fun row =>
      if row.id = callId then { row with ringDeadlineAt := some now } else row) ∧
    (∀ c, Table.get InboundCall.callId (db.closeForNow callId now).inbound c =
      (Table.get InboundCall.callId db.inbound c).map fun call =>
        if call.callId = callId then { call with rangUserIds := [], outsideHours := true }
        else call) := by
  constructor
  · intro c
    exact Table.get_update_by fun _ => rfl
  · intro c
    exact Table.get_update_by fun _ => rfl

/-- The insert of an admission. -/
lemma insertInbound_admitted {db₁ : InboundDb} {number : NumberRow} {language : String}
    {deadline : Timestamp} {contactId : Option Uuid} {rung : List Uuid} (env : InboundEnv)
    (secs : Int) (hentitled : number.orgId ∈ db.subscribed)
    (h : db.insertInbound (r.callRow number.orgId language deadline)
      ⟨r.callId, number.id, contactId, rung, false⟩ = some db₁) :
    Admitted db env r
      ⟨r.callId, number, db.openAt env number.id r.now, db.resolveRing number.id number.orgId secs,
        ((db.hours.lookup number.id).map HoursRow.closedAction).getD .voicemail⟩ db₁ := by
  rw [insertInbound] at h
  split_ifs at h with hfresh
  cases h
  have hnew : ∀ c ∈ db.calls, c.id ≠ r.callId := fun c hc heq => hfresh ⟨c, hc, heq⟩
  exact {
    callId := rfl
    entitled := hentitled
    isOpen := rfl
    ring := ⟨secs, rfl⟩
    closedAction := rfl
    fresh := hnew
    call := ⟨language, deadline, Table.get_cons_self rfl⟩
    others := fun c hc => Table.get_cons_of_ne (Ne.symm hc)
    inboundCall := ⟨contactId, rung, false, Table.get_cons_self rfl⟩
    callIds := fun hu => hu.cons hnew
    pool := rfl
    events := rfl
    routing := rfl }

/-- An admission after hours stays what it was, with a nearer deadline. -/
lemma Admitted.close (h : Admitted db env r adm db') (now : Timestamp) :
    Admitted db env r adm (db'.closeForNow r.callId now) := by
  obtain ⟨hcalls, hinbound⟩ := closeForNow_spec db' now r.callId
  obtain ⟨language, deadline, hcall⟩ := h.call
  obtain ⟨contactId, rung, outside, hinboundCall⟩ := h.inboundCall
  exact { h with
    call := by
      refine ⟨language, now, (hcalls r.callId).trans ?_⟩
      rw [hcall]
      exact congrArg some (if_pos rfl)
    others := by
      intro c hc
      rw [hcalls, h.others c hc]
      cases hrow : db.fetchCall c with
      | none => rfl
      | some row => exact congrArg some (if_neg (by rwa [VoipDb.fetchCall_id hrow]))
    inboundCall := by
      refine ⟨contactId, [], true, (hinbound r.callId).trans ?_⟩
      rw [hinboundCall]
      exact congrArg some (if_pos rfl)
    callIds := fun hu => (h.callIds hu).update fun _ => rfl }

lemma bind_eq_ok {ε α β : Type} {x : Except ε α} {f : α → Except ε β} {b : β}
    (h : (x >>= f) = .ok b) : ∃ a, x = .ok a ∧ f a = .ok b := by
  cases x with
  | error e => cases h
  | ok a => exact ⟨a, rfl, h⟩

/-- **What an admission does.** -/
theorem admitCall_spec (h : db.admitCall env r = .ok (adm, db')) :
    Admitted db env r adm db' := by
  obtain ⟨cfg, -, h⟩ := bind_eq_ok h
  obtain ⟨parties, -, h⟩ := bind_eq_ok h
  obtain ⟨number, -, h⟩ := bind_eq_ok h
  split_ifs at h with hentitled hroom
  dsimp only at h
  split at h
  · cases h
  next db₁ hinsert =>
    have hhours : db₁.hours = db.hours := by
      rw [insertInbound] at hinsert
      split_ifs at hinsert
      cases hinsert
      rfl
    have hadmitted := insertInbound_admitted env cfg.ringSecondsDefault hentitled hinsert
    cases h
    rw [hhours]
    split_ifs
    · exact hadmitted
    · exact hadmitted.close r.now

/-! ## A small office -/

/-- A deployment that takes calls and reads every number as it is written. -/
def officeEnv : InboundEnv where
  config := some ⟨true, 25⟩
  parseE164 := some
  localTime := fun _ _ => (0, 0)

/-- A number that takes calls. -/
def officeNumber : NumberRow where
  id := 5
  orgId := 0
  providerNumberId := some "res"
  e164 := "+390000000"
  inboundEnabled := true
  outboundEnabled := true
  isDefault := true
  status := .active
  statusReason := none
  customerMonthlyUsd := some 1
  purchaseKey := none
  nextRenewalAt := none
  suspendedAt := none
  regulatoryRequirement := none
  providerSubOrderId := none
  regulatoryFailures := 0
  regulatoryNextCheckAt := none

/-- The number belongs to a subscribed organisation with a thousand credits. -/
def officeDb : InboundDb where
  organizations := [⟨0, 1000⟩]
  transactions := []
  reservations := []
  calls := []
  events := []
  numbers := [officeNumber]
  routing := []
  hours := []
  contactNumbers := []
  teamMembers := []
  orgMembers := [⟨0, 3, "owner"⟩]
  subscribed := [0]
  inbound := []

/-- A stranger rings it. -/
def strangerCall : InboundRequest where
  leg := "leg"
  fromRaw := "+391111111"
  toRaw := "+390000000"
  now := 0
  callId := 7
  sessionId := 1
  roomFree := true

end InboundDb

end VoxTranslate.Voip
