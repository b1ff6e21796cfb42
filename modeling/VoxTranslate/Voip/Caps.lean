import VoxTranslate.Voip.Columns

/-!
# The concurrency caps

A dial is admitted in a transaction that counts the live calls under a lock and inserts its row
below the caps.  What moves the row later stands outside that transaction, and most of it ends
calls.  Two writes give a call a live status whatever it had: the message of a missed call, which
is an incoming one, and the dial that returns, which writes `dialing` over a call that its
webhooks may have ended.
-/

namespace VoxTranslate.Voip

open Lib

/-- The limits, which do not change during a run. -/
structure ConcurrencyCaps where
  perUser : Uuid → Nat
  perOrg : Uuid → Nat
  global : Nat

/-- A dial is admitted under these limits. -/
def Action.under (caps : ConcurrencyCaps) : Action → Prop
  | .dial r =>
    r.maxConcurrentPerUser = caps.perUser r.orgId ∧ r.maxConcurrentPerOrg = caps.perOrg r.orgId ∧
      r.maxConcurrentGlobal = caps.global
  | _ => True

namespace VoipDb

/-- The live outbound calls of the owners that `q` selects by organisation and user. -/
def liveOutbound (db : VoipDb) (q : Uuid → Option Uuid → Bool) : Nat :=
  db.calls.countP fun c => c.isLive && (c.direction = .outbound && q c.orgId c.userId)

/-- The live outbound calls are within the limits: those of a user in each organisation and, below
any bound on these limits, in all of them together, those of an organisation, and all. -/
structure WithinCaps (caps : ConcurrencyCaps) (db : VoipDb) : Prop where
  perUser : ∀ org user, db.liveOutbound (fun o u => o = org && u = some user) ≤ caps.perUser org
  perUserOverall : ∀ user bound, (∀ org, caps.perUser org ≤ bound) →
    db.liveOutbound (fun _ u => u = some user) ≤ bound
  perOrg : ∀ org, db.liveOutbound (fun o _ => o = org) ≤ caps.perOrg org
  global : db.liveOutbound (fun _ _ => true) ≤ caps.global

/-! ## What a write leaves of the counts -/

/-- The row `c'` is of the owner and the direction of `c`, and an outbound call that is over
stays over. -/
structure Settled (c c' : CallRow) : Prop where
  orgId : c'.orgId = c.orgId
  userId : c'.userId = c.userId
  direction : c'.direction = c.direction
  stays : c.direction = .outbound → c'.isLive = true → c.isLive = true

/-- One call at most is rewritten, to a row it settles to. -/
def Settles (db db' : VoipDb) : Prop :=
  ∃ k f, db'.calls = Table.update CallRow.id db.calls k f ∧ Table.KeepsKey CallRow.id f ∧
    ∀ c ∈ db.calls, c.id = k → Settled c (f c)

variable {db db' : VoipDb} {caps : ConcurrencyCaps} {r : DialRequest}
  {q : Uuid → Option Uuid → Bool} {bound : Nat}

lemma Settles.of_calls (h : db'.calls = db.calls) : Settles db db' := by
  refine ⟨0, fun c => c, ?_, .id, fun c _ _ => ⟨rfl, rfl, rfl, fun _ h => h⟩⟩
  rw [h, Table.update_id]

lemma Settles.refl (db : VoipDb) : Settles db db := .of_calls rfl

lemma Settles.liveOutbound_le (h : Settles db db') (q : Uuid → Option Uuid → Bool) :
    db'.liveOutbound q ≤ db.liveOutbound q := by
  obtain ⟨k, f, hcalls, -, hf⟩ := h
  rw [liveOutbound, hcalls, Table.update, List.countP_map]
  refine List.countP_mono_left fun c hc hlive => ?_
  rw [Function.comp] at hlive
  split_ifs at hlive with hk
  · have hsettled := hf c hc hk
    rw [hsettled.orgId, hsettled.userId, hsettled.direction] at hlive
    simp only [Bool.and_eq_true, decide_eq_true_eq] at hlive ⊢
    exact ⟨hsettled.stays hlive.2.1 hlive.1, hlive.2⟩
  · exact hlive

lemma Settles.callIds (h : Settles db db') (hids : Table.Unique CallRow.id db.calls) :
    Table.Unique CallRow.id db'.calls := by
  obtain ⟨k, f, hcalls, hkey, -⟩ := h
  rw [hcalls]
  exact hids.update hkey

/-- A call keeps its direction. -/
lemma Settles.exists_direction (h : Settles db db') {c : CallRow} (hc : c ∈ db.calls) :
    ∃ c' ∈ db'.calls, c'.id = c.id ∧ c'.direction = c.direction := by
  obtain ⟨k, f, hcalls, hkey, hf⟩ := h
  refine ⟨if c.id = k then f c else c, ?_, ?_, ?_⟩
  · rw [hcalls]
    exact List.mem_map_of_mem hc
  · split_ifs
    · exact hkey c
    · rfl
  · split_ifs with hk
    · exact (hf c hc hk).direction
    · rfl

lemma Settles.withinCaps (h : Settles db db') (hcaps : WithinCaps caps db) :
    WithinCaps caps db' where
  perUser := fun org user => (h.liveOutbound_le _).trans (hcaps.perUser org user)
  perUserOverall := fun user bound hbound =>
    (h.liveOutbound_le _).trans (hcaps.perUserOverall user bound hbound)
  perOrg := fun org => (h.liveOutbound_le _).trans (hcaps.perOrg org)
  global := (h.liveOutbound_le _).trans hcaps.global

/-! ## Dialing -/

/-- A dial that is admitted adds its row, with fewer live calls than each of its caps. -/
lemma insertDialed_spec (h : db.insertDialed r = some db') :
    db'.calls = r.row :: db.calls ∧ (∀ c ∈ db.calls, c.id ≠ r.callId) ∧
      db.liveOutbound (fun _ u => u = some r.userId) < r.maxConcurrentPerUser ∧
      db.liveOutbound (fun o _ => o = r.orgId) < r.maxConcurrentPerOrg ∧
      db.liveOutbound (fun _ _ => true) < r.maxConcurrentGlobal := by
  rw [insertDialed] at h
  dsimp only [liveCounts] at h
  split_ifs at h with hcaps hid
  cases h
  push Not at hcaps hid
  rw [List.countP_filter, List.countP_filter, ← List.countP_eq_length_filter] at hcaps
  obtain ⟨huser, horg, hglobal⟩ := hcaps
  refine ⟨rfl, hid, lt_of_le_of_lt ?_ huser, lt_of_le_of_lt ?_ horg, lt_of_le_of_lt ?_ hglobal⟩
  · refine List.countP_mono_left fun c _ hc => ?_
    simp only [Bool.and_eq_true] at hc ⊢
    exact ⟨hc.2.2, hc.1⟩
  · refine List.countP_mono_left fun c _ hc => ?_
    simp only [Bool.and_eq_true] at hc ⊢
    exact ⟨hc.2.2, hc.1⟩
  · refine List.countP_mono_left fun c _ hc => ?_
    rw [Bool.and_eq_true] at hc
    exact hc.1

/-- A new row keeps a count within a bound that was not reached where the row is counted. -/
lemma liveOutbound_cons_le (hcalls : db'.calls = r.row :: db.calls)
    (hold : db.liveOutbound q ≤ bound)
    (hnew : q r.orgId (some r.userId) = true → db.liveOutbound q < bound) :
    db'.liveOutbound q ≤ bound := by
  rw [liveOutbound, hcalls, List.countP_cons]
  change db.liveOutbound q + _ ≤ bound
  split_ifs with hcounted
  · have hq : q r.orgId (some r.userId) = true := by
      rw [Bool.and_eq_true, Bool.and_eq_true] at hcounted
      exact hcounted.2.2
    exact hnew hq
  · exact hold

/-- Fewer rows are counted where more is asked. -/
lemma liveOutbound_mono {q' : Uuid → Option Uuid → Bool}
    (h : ∀ o u, q o u = true → q' o u = true) (db : VoipDb) :
    db.liveOutbound q ≤ db.liveOutbound q' := by
  refine List.countP_mono_left fun c _ hc => ?_
  simp only [Bool.and_eq_true] at hc ⊢
  exact ⟨hc.1, hc.2.1, h _ _ hc.2.2⟩

/-- A dial that is admitted under the limits stays within them. -/
lemma WithinCaps.dial (hcaps : WithinCaps caps db) (hunder : (Action.dial r).under caps)
    (h : db.insertDialed r = some db') : WithinCaps caps db' := by
  obtain ⟨hcalls, -, huser, horg, hglobal⟩ := insertDialed_spec h
  obtain ⟨hmaxUser, hmaxOrg, hmaxGlobal⟩ := hunder
  rw [hmaxUser] at huser
  rw [hmaxOrg] at horg
  rw [hmaxGlobal] at hglobal
  constructor
  · intro org user
    refine liveOutbound_cons_le hcalls (hcaps.perUser org user) fun hq => ?_
    obtain ⟨rfl, rfl⟩ : r.orgId = org ∧ r.userId = user := by simpa using hq
    refine lt_of_le_of_lt (liveOutbound_mono (fun o u h => ?_) db) huser
    exact (Bool.and_eq_true _ _ ▸ h).2
  · intro user bound hbound
    refine liveOutbound_cons_le hcalls (hcaps.perUserOverall user bound hbound) fun hq => ?_
    obtain rfl : r.userId = user := by simpa using hq
    exact huser.trans_le (hbound r.orgId)
  · intro org
    refine liveOutbound_cons_le hcalls (hcaps.perOrg org) fun hq => ?_
    obtain rfl : r.orgId = org := by simpa using hq
    exact horg
  · exact liveOutbound_cons_le hcalls hcaps.global fun _ => hglobal

/-! ## The writers -/

/-- An update of a call's row. -/
lemma settles_updateCall {callId : Uuid} {f : CallRow → CallRow} (hf : Table.KeepsKey CallRow.id f)
    (h : ∀ c ∈ db.calls, c.id = callId → Settled c (f c)) :
    Settles db (db.updateCall callId f) := ⟨callId, f, rfl, hf, h⟩

/-- A call that is ended settles, whatever its status was. -/
lemma settles_ending {callId : Uuid} {f : CallRow → CallRow} (hf : Table.KeepsKey CallRow.id f)
    (hsame : ∀ c, (f c).orgId = c.orgId ∧ (f c).userId = c.userId ∧
      (f c).direction = c.direction)
    (hover : ∀ c, (f c).status.isTerminal = true) : Settles db (db.updateCall callId f) := by
  refine settles_updateCall hf fun c _ _ => ?_
  obtain ⟨horg, huser, hdirection⟩ := hsame c
  refine ⟨horg, huser, hdirection, fun _ hlive => ?_⟩
  rw [CallRow.isLive, hover c] at hlive
  cases hlive

/-- A delivery takes no call back. -/
lemma settles_deliver (hids : Table.Unique CallRow.id db.calls) (event : ProviderEvent) :
    Settles db (db.deliver event) := by
  obtain hsame | ⟨call, hcall, f, hcalls, hf⟩ := db.deliver_advances event
  · exact .of_calls hsame
  · refine ⟨call.id, f, hcalls, fun c => (hf c).1.id, fun c hc hid => ?_⟩
    obtain rfl : c = call := hids c hc call hcall hid
    obtain ⟨hsame, hforward⟩ := hf c
    refine ⟨hsame.orgId, hsame.userId, hsame.direction, fun _ hlive => ?_⟩
    by_contra hover
    rw [CallRow.isLive, Bool.not_eq_true', Bool.not_eq_false] at hover
    rw [CallRow.isLive, (hforward rfl).2 hover, hover] at hlive
    cases hlive

lemma settles_overrun (callId : Uuid) : Settles db (db.updateCall callId CallRow.overrun) := by
  refine settles_updateCall CallRow.overrun_id fun c _ _ => ?_
  rw [CallRow.overrun]
  split_ifs with hrunning
  · refine ⟨rfl, rfl, rfl, fun _ _ => ?_⟩
    obtain h | h := hrunning <;> rw [CallRow.isLive, h] <;> rfl
  · exact ⟨rfl, rfl, rfl, fun _ h => h⟩

lemma settles_failStalled (callId : Uuid) (now : Timestamp) :
    Settles db (db.updateCall callId (CallRow.failStalled now)) := by
  refine settles_updateCall (CallRow.failStalled_id now) fun c _ _ => ?_
  rw [CallRow.failStalled]
  split_ifs
  · exact ⟨rfl, rfl, rfl, fun _ h => (by cases h)⟩
  · exact ⟨rfl, rfl, rfl, fun _ h => h⟩

lemma settles_endFromBridge (callId : Uuid) (reason : FailureReason) (now : Timestamp) :
    Settles db (db.updateCall callId (CallRow.endFromBridge reason now)) := by
  refine settles_updateCall (CallRow.endFromBridge_id reason now) fun c _ _ => ?_
  rw [CallRow.endFromBridge]
  split_ifs
  · exact ⟨rfl, rfl, rfl, fun _ h => h⟩
  · exact ⟨rfl, rfl, rfl, fun _ h => (by cases h)⟩

end VoipDb

/-! ## Runs -/

/-- The call that a task treats as missed. -/
def Task.missedCall : Task → Option Uuid
  | .markMissed callId _ | .finishMissed callId _ => some callId
  | _ => none

namespace Telephony

/-- A dial that returns finds its call not yet over. -/
def revivesNothing (s : Telephony) : Action → Bool
  | .run (.awaitDial callId _) env =>
    match env.dialResult with
    | .ok _ => (s.db.fetchCall callId).all CallRow.isLive
    | .error _ => true
  | _ => true

/-- The live calls are within the limits, and only incoming calls are treated as missed. -/
structure CapsInv (caps : ConcurrencyCaps) (s : Telephony) : Prop where
  callIds : Table.Unique CallRow.id s.db.calls
  withinCaps : s.db.WithinCaps caps
  missed : ∀ task ∈ s.tasks, ∀ callId, task.missedCall = some callId →
    ∃ c ∈ s.db.calls, c.id = callId ∧ c.direction = .inbound

variable {caps : ConcurrencyCaps} {s t : Telephony} {db : VoipDb} {tasks : List Task}

namespace CapsInv

/-- A step that settles its call, and treats no other call as missed. -/
lemma settles (hI : CapsInv caps s) (h : s.db.Settles db)
    (htasks : ∀ task ∈ tasks, ∀ callId, task.missedCall = some callId →
      ∃ c ∈ s.db.calls, c.id = callId ∧ c.direction = .inbound) : CapsInv caps ⟨db, tasks⟩ where
  callIds := h.callIds hI.callIds
  withinCaps := h.withinCaps hI.withinCaps
  missed := by
    intro task htask callId hmissed
    obtain ⟨c, hc, rfl, hinbound⟩ := htasks task htask callId hmissed
    obtain ⟨c', hc', hid, hdirection⟩ := h.exists_direction hc
    exact ⟨c', hc', hid, hdirection.trans hinbound⟩

/-- A new task, that treats no call as missed or an incoming one. -/
lemma cons (hI : CapsInv caps s) {task : Task}
    (htask : ∀ callId, task.missedCall = some callId →
      ∃ c ∈ s.db.calls, c.id = callId ∧ c.direction = .inbound) :
    CapsInv caps { s with tasks := task :: s.tasks } := by
  refine hI.settles (.refl s.db) fun task' htask' => ?_
  obtain rfl | htask' := List.mem_cons.mp htask'
  · exact htask
  · exact hI.missed task' htask'

lemma dial (hI : CapsInv caps s) {r : DialRequest} (hunder : (Action.dial r).under caps)
    (h : s.db.insertDialed r = some db) : CapsInv caps ⟨db, .reserve r :: s.tasks⟩ := by
  obtain ⟨hcalls, hfresh, -⟩ := VoipDb.insertDialed_spec h
  refine ⟨?_, hI.withinCaps.dial hunder h, fun task htask callId hmissed => ?_⟩
  · change Table.Unique CallRow.id db.calls
    rw [hcalls]
    exact hI.callIds.cons hfresh
  · obtain rfl | htask := List.mem_cons.mp htask
    · cases hmissed
    · obtain ⟨c, hc, hid⟩ := hI.missed task htask callId hmissed
      refine ⟨c, ?_, hid⟩
      change c ∈ db.calls
      rw [hcalls]
      exact List.mem_cons_of_mem _ hc

/-- The write of a task settles its call. -/
lemma settles_runTask (hI : CapsInv caps s) {task : Task} {env : Env} (htask : task ∈ s.tasks)
    (hG : s.revivesNothing (.run task env) = true) :
    s.db.Settles (runTask s.db env task).1 := by
  cases task with
  | reserve r =>
    dsimp only [runTask]
    split <;> exact .of_calls rfl
  | refuse callId =>
    exact VoipDb.settles_ending (fun _ => rfl) (fun _ => ⟨rfl, rfl, rfl⟩) fun _ => rfl
  | awaitDial callId sessionId =>
    rw [revivesNothing] at hG
    rw [runTask]
    cases hresult : env.dialResult with
    | ok leg =>
      rw [hresult] at hG
      refine VoipDb.settles_updateCall (fun _ => rfl) fun c hc hid => ⟨rfl, rfl, rfl, fun _ _ => ?_⟩
      have hfetch : s.db.fetchCall callId = some c := hid ▸ Table.get_of_mem hI.callIds hc
      rw [hfetch] at hG
      exact hG
    | error reason =>
      exact VoipDb.settles_ending (fun _ => rfl) (fun _ => ⟨rfl, rfl, rfl⟩) fun _ => rfl
  | release callId sessionId =>
    dsimp only [runTask]
    split <;> exact .of_calls rfl
  | closeVoicemail callId =>
    exact VoipDb.settles_ending (fun _ => rfl) (fun _ => ⟨rfl, rfl, rfl⟩) fun _ => rfl
  | markMissed callId leaves =>
    exact VoipDb.settles_updateCall (fun _ => rfl) fun _ _ _ => ⟨rfl, rfl, rfl, fun _ h => h⟩
  | finishMissed callId leaves =>
    cases leaves with
    | false => exact VoipDb.settles_ending (fun _ => rfl) (fun _ => ⟨rfl, rfl, rfl⟩) fun _ => rfl
    | true =>
      -- the one write that may take a call back is made to an incoming one
      obtain ⟨c', hc', hid', hinbound⟩ := hI.missed _ htask callId rfl
      refine VoipDb.settles_updateCall (fun _ => rfl) fun c hc hid => ?_
      obtain rfl : c = c' := hI.callIds c hc c' hc' (hid.trans hid'.symm)
      refine ⟨rfl, rfl, rfl, fun houtbound _ => ?_⟩
      rw [hinbound] at houtbound
      cases houtbound
  | reap callId => exact VoipDb.settles_overrun callId

/-- What is left of a task treats the same call as missed. -/
lemma missedCall_runTask {env : Env} {task rest : Task} {callId : Uuid}
    (h : (runTask db env task).2 = some rest) (hmissed : rest.missedCall = some callId) :
    task.missedCall = some callId := by
  cases task with
  | reserve r =>
    dsimp only [runTask] at h
    split at h <;> cases h <;> cases hmissed
  | awaitDial id sessionId =>
    dsimp only [runTask] at h
    split at h <;> cases h
    cases hmissed
  | release id sessionId =>
    dsimp only [runTask] at h
    split at h <;> cases h
  | markMissed id leaves =>
    cases h
    exact hmissed
  | finishMissed id leaves => cases leaves <;> cases h
  | refuse | closeVoicemail | reap => cases h

/-- A step that revives nothing keeps the invariant. -/
lemma step {a : Action} (hI : CapsInv caps s) (hunder : a.under caps)
    (hG : s.revivesNothing a = true) (h : s.step a = some t) : CapsInv caps t := by
  cases a with
  | dial r =>
    obtain ⟨db, hinsert, rfl⟩ := Option.map_eq_some_iff.mp h
    exact hI.dial hunder hinsert
  | deliver event =>
    cases h
    exact hI.settles (VoipDb.settles_deliver hI.callIds event) hI.missed
  | selectUnanswered callId now noAnswerAction org deployment =>
    rw [Telephony.step] at h
    split at h
    · next c hfetch =>
      split_ifs at h with hdue
      cases h
      refine hI.cons fun id hmissed => ⟨c, Table.mem_of_get hfetch, ?_⟩
      rw [unansweredTask] at hmissed
      split_ifs at hmissed
      · cases hmissed
      · cases hmissed
        simp only [CallRow.isUnanswered, Bool.and_eq_true, decide_eq_true_eq] at hdue
        exact ⟨rfl, hdue.1.1.1⟩
    · cases h
  | selectOverrun callId now maxCallMinutes =>
    rw [Telephony.step] at h
    split at h
    · split_ifs at h
      cases h
      exact hI.cons fun id hmissed => (by cases hmissed)
    · cases h
  | failStalled callId now =>
    cases h
    exact hI.settles (VoipDb.settles_failStalled callId now) hI.missed
  | endCall callId reason now =>
    rw [Telephony.step] at h
    split at h
    · cases h
      refine hI.settles (VoipDb.settles_endFromBridge callId reason now) fun task htask => ?_
      obtain hreleased | htask := List.mem_append.mp htask
      · split_ifs at hreleased
        · cases hreleased
        · rw [List.mem_singleton.mp hreleased]
          exact fun id hmissed => (by cases hmissed)
      · exact hI.missed task htask
    · cases h
      exact hI
  | run task env =>
    rw [Telephony.step] at h
    split_ifs at h with htask
    cases h
    refine hI.settles (hI.settles_runTask htask hG) fun task' htask' callId hmissed => ?_
    obtain hrest | htask' := List.mem_append.mp htask'
    · have hmissed' := missedCall_runTask (Option.mem_toList.mp hrest) hmissed
      exact hI.missed task htask callId hmissed'
    · exact hI.missed task' (List.mem_of_mem_erase htask') callId hmissed
  | abandon task =>
    cases h
    exact hI.settles (.refl s.db) fun task' htask' => hI.missed task' (List.mem_of_mem_erase htask')

/-- No task is under way. -/
lemma start (hids : Table.Unique CallRow.id s.db.calls) (hcaps : s.db.WithinCaps caps)
    (hquiet : s.tasks = []) : CapsInv caps s where
  callIds := hids
  withinCaps := hcaps
  missed := by
    intro task htask
    rw [hquiet] at htask
    cases htask

end CapsInv

end Telephony

/-- **The caps hold.**  In a run under constant limits in which no dial that returns finds its
call over, the live outbound calls stay within the limits. -/
theorem outbound_within_caps_of_run {caps : ConcurrencyCaps} {s t : Telephony} {as : List Action}
    (h : Run (Guarded Telephony.Step fun s a => s.revivesNothing a = true) s as t)
    (hunder : ∀ a ∈ as, a.under caps) (hids : Table.Unique CallRow.id s.db.calls)
    (hcaps : s.db.WithinCaps caps) (hquiet : s.tasks = []) : t.db.WithinCaps caps := by
  have hI : Telephony.CapsInv caps t := h.invariant (Telephony.CapsInv caps)
    (fun s a ha t hI hst => hI.step (hunder a ha) hst.1 hst.2) (.start hids hcaps hquiet)
  exact hI.withinCaps

namespace Telephony

/-- An organisation with credits, and no calls. -/
def quietOffice : Telephony := ⟨⟨⟨⟨[⟨0, 200⟩], []⟩, []⟩, [], []⟩, []⟩

/-- One call at a time. -/
def oneCall : ConcurrencyCaps := ⟨fun _ => 1, fun _ => 1, 1⟩

/-- The same user's next call. -/
def secondRequest : DialRequest := { dialRequest with callId := 8, sessionId := 2 }

/-- A call is dialed, answered and hung up, and the next one is dialed. -/
def oneAfterTheOther : List Action :=
  .dial dialRequest :: dialThenAnswer ++ [.dial secondRequest]

/-- The first call is over before its dial returns, and the next one is dialed in between. -/
def dialReturnsLast : List Action :=
  .dial dialRequest :: answerThenDial.take 3 ++
    [.dial secondRequest, .run (.awaitDial 7 1) dialReturns]

theorem outbound_within_caps_sample : ∃ t,
    Run Step quietOffice oneAfterTheOther t ∧ t.db.WithinCaps oneCall := by
  obtain ⟨t, hrun⟩ : ∃ t, Run (Guarded Step fun s a => s.revivesNothing a = true) quietOffice
      oneAfterTheOther t := Run.exists_guarded_of_isSome (by decide +kernel)
  have hunder : ∀ a ∈ oneAfterTheOther, a.under oneCall := by
    simp [oneAfterTheOther, dialThenAnswer, Action.under, secondRequest, dialRequest, oneCall]
  have hcaps : quietOffice.db.WithinCaps oneCall := by
    constructor <;> simp [VoipDb.liveOutbound, quietOffice]
  exact ⟨t, hrun.ofGuarded,
    outbound_within_caps_of_run hrun hunder (by simp [Table.Unique, quietOffice]) hcaps rfl⟩

/-- The dial that returns last takes its completed call back beside the next one: two calls are
live where each limit is one. -/
theorem revived_call_exceeds_caps :
    (∀ a ∈ dialReturnsLast, a.under oneCall) ∧
      ∃ t, Run Step quietOffice dialReturnsLast t ∧
        t.db.liveOutbound (fun o u => o = 0 && u = some 3) = 2 ∧
        t.db.liveOutbound (fun o _ => o = 0) = 2 ∧ t.db.liveOutbound (fun _ _ => true) = 2 :=
  ⟨by simp [dialReturnsLast, answerThenDial, Action.under, secondRequest, dialRequest, oneCall],
    Run.exists_of_decide (by decide +kernel)⟩

end Telephony

end VoxTranslate.Voip
