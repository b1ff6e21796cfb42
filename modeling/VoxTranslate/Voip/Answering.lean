import VoxTranslate.Lib.Place
import VoxTranslate.Voip.Columns

/-!
# Answered or missed (`answer_inbound`, `sweep_unanswered`)

A member answers an incoming call by a single update, which asks that nobody has answered it.
The sweep over unanswered calls works on rows it selected earlier: it marks the call missed,
speaks to the carrier, and closes the call or lets the caller leave a message, each of these by
the id alone.

The module follows one incoming call, with the members that were given it and what the sweeps
did to it.
-/

namespace VoxTranslate.Voip

open Lib

namespace CallRow

/-- The `WHERE` of `answer_inbound`. -/
def acceptsAnswer (orgId : Uuid) (c : CallRow) : Bool :=
  c.orgId = orgId && c.direction = .inbound && c.answeredBy.isNone

/-- The `SET` of `answer_inbound`. -/
def answer (userId : Uuid) (c : CallRow) : CallRow :=
  { c with answeredBy := some userId, ringDeadlineAt := none, userId := some userId }

end CallRow

/-- How far a sweep is with the call it selected. -/
inductive SweepStage where
  /-- To be marked missed. -/
  | mark (leavesAMessage : Bool)
  /-- The prompt and the recording, or the hangup. -/
  | carrier (leavesAMessage : Bool)
  | finish (leavesAMessage : Bool)
  /-- The message is over: stop the recording and hang up. -/
  | stop
  | close
  | ended
  deriving DecidableEq, Repr

/-- The call was missed before the sweep came to this. -/
def SweepStage.isPastMark : SweepStage → Bool
  | .mark _ | .ended => false
  | _ => true

/-- The first thing to do for a call the sweep selected. -/
def firstStage (c : CallRow) (noAnswerAction : Option String)
    (orgAllowsRecording deploymentAllowsRecording : Bool) : SweepStage :=
  if c.missed then .stop
  else
    .mark (noAnswerAction = some "voicemail" && (orgAllowsRecording && deploymentAllowsRecording))

/-- The tables and the sweeps, with the members who were given the call and the rows at which a
sweep acted, each with the row it found. -/
structure Ringing where
  db : VoipDb
  sweeps : List SweepStage
  answers : List (Uuid × CallRow)
  cuts : List CallRow
  deriving DecidableEq

inductive RingAction where
  | answer (orgId userId : Uuid)
  | select (now : Timestamp) (noAnswerAction : Option String)
      (orgAllowsRecording deploymentAllowsRecording : Bool)
  /-- The next step of sweep `i`; an error of the database ends the sweep. -/
  | sweep (i : Nat) (now : Timestamp) (dbOk : Bool)
  | deliver (event : ProviderEvent)

namespace Ringing

def setSweep (s : Ringing) (i : Nat) (stage : SweepStage) : Ringing :=
  { s with sweeps := s.sweeps.set i stage }

/-- A sweep acts on the call. -/
def cut (s : Ringing) (callId : Uuid) (f : CallRow → CallRow) : Ringing :=
  { s with db := s.db.updateCall callId f, cuts := s.cuts ++ (s.db.fetchCall callId).toList }

/-- An update of a sweep. -/
def update (s : Ringing) (callId : Uuid) (i : Nat) (f : CallRow → CallRow) (stage : SweepStage)
    (dbOk : Bool) : Ringing :=
  if dbOk then (s.cut callId f).setSweep i stage else s.setSweep i .ended

/-- One step of a sweep; the carrier's errors are ignored. -/
def runSweep (s : Ringing) (callId : Uuid) (i : Nat) (now : Timestamp) (dbOk : Bool) :
    SweepStage → Option Ringing
  | .mark leaves => some (s.update callId i CallRow.markMissed (.carrier leaves) dbOk)
  | .carrier leaves => some ((s.cut callId fun c => c).setSweep i (.finish leaves))
  | .finish true => some (s.update callId i (CallRow.takeMessage now) .ended dbOk)
  | .finish false => some (s.update callId i (CallRow.closeMissed now) .ended dbOk)
  | .stop => some ((s.cut callId fun c => c).setSweep i .close)
  | .close => some (s.update callId i (CallRow.closeVoicemail now) .ended dbOk)
  | .ended => none

def step (callId : Uuid) (s : Ringing) : RingAction → Option Ringing
  | .answer orgId userId =>
    match s.db.fetchCall callId with
    | some row =>
      if row.acceptsAnswer orgId then
        some { s with
          db := s.db.updateCall callId (CallRow.answer userId)
          answers := s.answers ++ [(userId, row)] }
      else some s
    | none => some s
  | .select now noAnswerAction org deployment =>
    match s.db.fetchCall callId with
    | some row =>
      if row.isUnanswered now then
        some { s with sweeps := s.sweeps ++ [firstStage row noAnswerAction org deployment] }
      else some s
    | none => some s
  | .sweep i now dbOk => do
    let stage ← s.sweeps[i]?
    s.runSweep callId i now dbOk stage
  | .deliver event => some { s with db := s.db.deliver event }

/-! ## Either answered or missed -/

/-- One member is given the call, while it rings, and no sweep acts on an answered call. -/
structure Law (s : Ringing) : Prop where
  oneAnswerer : s.answers.length ≤ 1
  live : ∀ a ∈ s.answers, a.2.missed = false ∧ a.2.status.isTerminal = false
  unanswered : ∀ row ∈ s.cuts, row.answeredBy = none
  eitherOr : s.answers = [] ∨ s.cuts = []

/-- An answer to a call that nobody answered finds it ringing, and no sweep at work on it. -/
def inTime (callId : Uuid) (s : Ringing) : RingAction → Bool
  | .answer orgId _ =>
    match s.db.fetchCall callId with
    | some row =>
      !row.acceptsAnswer orgId ||
        (!row.missed && !row.status.isTerminal && s.sweeps.all fun stage => stage = .ended)
    | none => true
  | _ => true

/-- What holds of the call's row: who answered it, and that the sweeps work on unanswered calls
and act on missed ones. -/
structure Inv (callId : Uuid) (s : Ringing) (row : CallRow) : Prop where
  fetch : s.db.fetchCall callId = some row
  free : row.answeredBy = none ↔ s.answers = []
  settled : s.answers ≠ [] → row.missed = false ∧ ∀ stage ∈ s.sweeps, stage = .ended
  marked : s.cuts ≠ [] → row.missed = true
  past : ∀ stage ∈ s.sweeps, stage.isPastMark = true → row.missed = true
  oneAnswerer : s.answers.length ≤ 1
  live : ∀ a ∈ s.answers, a.2.missed = false ∧ a.2.status.isTerminal = false
  unanswered : ∀ row ∈ s.cuts, row.answeredBy = none

variable {callId : Uuid} {s t : Ringing} {row row' : CallRow} {i : Nat} {stage stage' : SweepStage}

namespace Inv

lemma law (hI : Inv callId s row) : s.Law where
  oneAnswerer := hI.oneAnswerer
  live := hI.live
  unanswered := hI.unanswered
  eitherOr := by
    by_cases hanswers : s.answers = []
    · exact .inl hanswers
    · refine .inr (by_contra fun hcuts => ?_)
      have hmissed := hI.marked hcuts
      rw [(hI.settled hanswers).1] at hmissed
      cases hmissed

/-- Nobody answered a call that a sweep is at work on. -/
lemma answers_eq_nil (hI : Inv callId s row) (hstage : s.sweeps[i]? = some stage)
    (hne : stage ≠ .ended) : s.answers = [] := by
  by_contra hanswers
  exact hne ((hI.settled hanswers).2 stage (List.mem_of_getElem? hstage))

/-- A sweep goes on. -/
lemma setSweep (hI : Inv callId s row) (hstage : s.sweeps[i]? = some stage)
    (hne : stage ≠ .ended) (hpast : stage'.isPastMark = true → row.missed = true) :
    Inv callId (s.setSweep i stage') row where
  fetch := hI.fetch
  free := hI.free
  settled := fun hanswers => absurd (hI.answers_eq_nil hstage hne) hanswers
  marked := hI.marked
  past := by
    intro st hst hpastMark
    obtain hst | rfl := List.mem_or_eq_of_mem_set hst
    · exact hI.past st hst hpastMark
    · exact hpast hpastMark
  oneAnswerer := hI.oneAnswerer
  live := hI.live
  unanswered := hI.unanswered

/-- A sweep acts on the call, which is missed from then on. -/
lemma cut (hI : Inv callId s row) (hanswers : s.answers = []) {f : CallRow → CallRow}
    (hf : Table.KeepsKey CallRow.id f) (hanswered : (f row).answeredBy = row.answeredBy)
    (hmissed : (f row).missed = true) : Inv callId (s.cut callId f) (f row) where
  fetch := by
    refine (VoipDb.fetchCall_updateCall_self hf).trans ?_
    rw [hI.fetch, Option.map_some]
  free := by
    rw [hanswered]
    exact hI.free
  settled := fun h => absurd hanswers h
  marked := fun _ => hmissed
  past := fun _ _ _ => hmissed
  oneAnswerer := hI.oneAnswerer
  live := hI.live
  unanswered := by
    intro row' hrow'
    rw [Ringing.cut, hI.fetch] at hrow'
    obtain hold | hnew := List.mem_append.mp hrow'
    · exact hI.unanswered row' hold
    · obtain rfl : row = row' := Option.some.inj (Option.mem_toList.mp hnew)
      exact hI.free.mpr hanswers

/-- An update of a sweep that is at work on the call. -/
lemma update (hI : Inv callId s row) (hstage : s.sweeps[i]? = some stage) (hne : stage ≠ .ended)
    {f : CallRow → CallRow} (hf : Table.KeepsKey CallRow.id f)
    (hanswered : (f row).answeredBy = row.answeredBy) (hmissed : (f row).missed = true)
    (dbOk : Bool) : ∃ row', Inv callId (s.update callId i f stage' dbOk) row' := by
  have hanswers := hI.answers_eq_nil hstage hne
  cases dbOk with
  | true =>
    exact ⟨f row, (hI.cut hanswers hf hanswered hmissed).setSweep hstage hne fun _ => hmissed⟩
  | false => exact ⟨row, hI.setSweep hstage hne fun h => (by cases h)⟩

/-- A member is given the call. -/
lemma answer (hI : Inv callId s row) {orgId : Uuid} (userId : Uuid)
    (haccepts : row.acceptsAnswer orgId = true) (hmissed : row.missed = false)
    (hlive : row.status.isTerminal = false) (hidle : ∀ stage ∈ s.sweeps, stage = .ended) :
    Inv callId { s with
      db := s.db.updateCall callId (CallRow.answer userId)
      answers := s.answers ++ [(userId, row)] } (row.answer userId) := by
  have hfree : row.answeredBy = none := by
    rw [CallRow.acceptsAnswer, Bool.and_eq_true] at haccepts
    exact Option.isNone_iff_eq_none.mp haccepts.2
  have hanswers := hI.free.mp hfree
  refine ⟨?_, ?_, fun _ => ⟨hmissed, hidle⟩, hI.marked, hI.past, ?_, ?_, hI.unanswered⟩
  · have hkeeps : Table.KeepsKey CallRow.id (CallRow.answer userId) := fun _ => rfl
    refine (VoipDb.fetchCall_updateCall_self hkeeps).trans ?_
    rw [hI.fetch, Option.map_some]
  · simp [CallRow.answer]
  · simp [hanswers]
  · intro a ha
    rw [hanswers, List.nil_append, List.mem_singleton] at ha
    rw [ha]
    exact ⟨hmissed, hlive⟩

/-- A sweep selects the call. -/
lemma select (hI : Inv callId s row) {now : Timestamp} (hdue : row.isUnanswered now = true)
    (noAnswerAction : Option String) (org deployment : Bool) :
    Inv callId { s with sweeps := s.sweeps ++ [firstStage row noAnswerAction org deployment] }
      row := by
  have hanswers : s.answers = [] := by
    simp only [CallRow.isUnanswered, Bool.and_eq_true, Option.isNone_iff_eq_none] at hdue
    exact hI.free.mp hdue.1.1.2
  refine ⟨hI.fetch, hI.free, fun h => absurd hanswers h, hI.marked, ?_, hI.oneAnswerer, hI.live,
    hI.unanswered⟩
  intro stage hstage hpast
  obtain hold | hnew := List.mem_append.mp hstage
  · exact hI.past stage hold hpast
  · rw [List.mem_singleton.mp hnew, firstStage] at hpast
    split_ifs at hpast with hmissed
    · exact hmissed
    · cases hpast

lemma sweep (hI : Inv callId s row) (hstage : s.sweeps[i]? = some stage) {now : Timestamp}
    {dbOk : Bool} (h : s.runSweep callId i now dbOk stage = some t) :
    ∃ row', Inv callId t row' := by
  have hpast : stage.isPastMark = true → row.missed = true :=
    hI.past stage (List.mem_of_getElem? hstage)
  cases stage with
  | mark leaves =>
    cases h
    exact hI.update (f := CallRow.markMissed) hstage (by simp) (fun _ => rfl) rfl rfl dbOk
  | carrier leaves =>
    cases h
    have hanswers := hI.answers_eq_nil hstage (by simp)
    exact ⟨row, (hI.cut hanswers .id rfl (hpast rfl)).setSweep hstage (by simp) fun _ => hpast rfl⟩
  | finish leaves =>
    cases leaves <;> cases h
    · exact hI.update (f := CallRow.closeMissed now) hstage (by simp) (fun _ => rfl) rfl
        (hpast rfl) dbOk
    · exact hI.update (f := CallRow.takeMessage now) hstage (by simp) (fun _ => rfl) rfl
        (hpast rfl) dbOk
  | stop =>
    cases h
    have hanswers := hI.answers_eq_nil hstage (by decide)
    exact ⟨row, (hI.cut hanswers .id rfl (hpast rfl)).setSweep hstage (by decide)
      fun _ => hpast rfl⟩
  | close =>
    cases h
    exact hI.update (f := CallRow.closeVoicemail now) hstage (by simp) (fun _ => rfl) rfl
      (hpast rfl) dbOk
  | ended => cases h

/-- A step in time keeps the invariant. -/
lemma step {a : RingAction} (hI : Inv callId s row) (hG : s.inTime callId a = true)
    (h : s.step callId a = some t) : ∃ row', Inv callId t row' := by
  cases a with
  | answer orgId userId =>
    rw [Ringing.step, hI.fetch] at h
    rw [inTime, hI.fetch] at hG
    dsimp only at h hG
    split_ifs at h with haccepts
    · cases h
      simp only [haccepts, Bool.not_true, Bool.false_or, Bool.and_eq_true, Bool.not_eq_true',
        List.all_eq_true, decide_eq_true_eq] at hG
      exact ⟨_, hI.answer userId haccepts hG.1.1 hG.1.2 hG.2⟩
    · cases h
      exact ⟨row, hI⟩
  | select now noAnswerAction org deployment =>
    rw [Ringing.step, hI.fetch] at h
    dsimp only at h
    split_ifs at h with hdue
    · cases h
      exact ⟨row, hI.select hdue noAnswerAction org deployment⟩
    · cases h
      exact ⟨row, hI⟩
  | sweep i now dbOk =>
    obtain ⟨stage, hstage, h⟩ := Option.bind_eq_some_iff.mp h
    exact hI.sweep hstage h
  | deliver event =>
    cases h
    obtain ⟨row', hfetch, hsame⟩ := VoipDb.fetchCall_deliver event hI.fetch
    refine ⟨row', hfetch, ?_, ?_, ?_, ?_, hI.oneAnswerer, hI.live, hI.unanswered⟩
    · rw [hsame.answeredBy]
      exact hI.free
    · rw [hsame.missed]
      exact hI.settled
    · rw [hsame.missed]
      exact hI.marked
    · rw [hsame.missed]
      exact hI.past

/-- A call nobody has answered. -/
lemma start {db : VoipDb} (hrow : db.fetchCall callId = some row)
    (hanswered : row.answeredBy = none) : Inv callId ⟨db, [], [], []⟩ row where
  fetch := hrow
  free := by simp [hanswered]
  settled := fun h => absurd rfl h
  marked := fun h => absurd rfl h
  past := by simp
  oneAnswerer := by simp
  live := by simp
  unanswered := by simp

end Inv

end Ringing

/-- In a run whose answers are in time an incoming call has one answerer, who was given it while
it rang, or it is missed, and no sweep acts on an answered call. -/
theorem answered_or_missed_of_run {callId : Uuid} {db : VoipDb} {row : CallRow} {s : Ringing}
    {as : List RingAction}
    (h : Run (Guarded (ofPartial (Ringing.step callId)) fun s a => s.inTime callId a = true)
      ⟨db, [], [], []⟩ as s)
    (hrow : db.fetchCall callId = some row) (hanswered : row.answeredBy = none) : s.Law := by
  obtain ⟨row', hI⟩ := h.invariant (fun s => ∃ row, Ringing.Inv callId s row)
    (fun s a _ t ⟨row, hI⟩ hst => hI.step hst.1 hst.2) ⟨row, .start hrow hanswered⟩
  exact hI.law

namespace Ringing

/-- An incoming call past its deadline, on its way to member 3 and member 4. -/
def ringingCall : CallRow :=
  { VoipDb.dialedCall with
    userId := none, direction := .inbound, status := .ringing, quotedPricePerMin := none,
    ringDeadlineAt := some 0 }

def ringingNow : Ringing := ⟨⟨⟨⟨[⟨0, 100⟩], []⟩, []⟩, [ringingCall], []⟩, [], [], []⟩

/-- Both members press, the carrier reports the answer and the hangup, and a sweep comes. -/
def answeredInTime : List RingAction :=
  [.answer 0 3, .answer 0 4, .deliver VoipDb.answerEvent, .select 10 none false false,
    .deliver VoipDb.hangupEvent]

theorem answered_or_missed_sample : ∃ s,
    Run (ofPartial (step 7)) ringingNow answeredInTime s ∧ s.Law := by
  obtain ⟨s, hrun⟩ : ∃ s, Run (Guarded (ofPartial (step 7)) fun s a => s.inTime 7 a = true)
      ringingNow answeredInTime s := Run.exists_guarded_of_isSome (by decide +kernel)
  have hrow : ringingNow.db.fetchCall 7 = some ringingCall := rfl
  exact ⟨s, hrun.ofGuarded, answered_or_missed_of_run hrun hrow rfl⟩

/-- A sweep has selected the call when member 3 takes it: the member is given the call, and the
sweep marks it missed, hangs up and closes it.  And a call whose caller hung up is given to the
member who presses then. -/
theorem sweep_cuts_answered_call :
    (∃ s, Run (ofPartial (step 7)) ringingNow
        [.select 10 none false false, .answer 0 3, .sweep 0 11 true, .sweep 0 12 true,
          .sweep 0 13 true] s ∧
      s.answers.map Prod.fst = [3] ∧ s.cuts.map CallRow.answeredBy = [some 3, some 3, some 3] ∧
      (s.db.fetchCall 7).map (fun c => (c.missed, c.status)) = some (true, .completed)) ∧
    ∃ s, Run (ofPartial (step 7)) ringingNow [.deliver VoipDb.hangupEvent, .answer 0 3] s ∧
      s.answers.map (fun a => (a.1, a.2.status)) = [(3, .failed)] :=
  ⟨Run.exists_of_decide (by decide +kernel), Run.exists_of_decide (by decide +kernel)⟩

end Ringing

end VoxTranslate.Voip
