import Mathlib.Data.List.Perm.Basic
import VoxTranslate.Lib.Entries

/-!
# The quiz of a call (`quiz.ts`)

The client that starts a quiz is its host.  It makes every state of the quiz and sends all of it;
the others send their answers.  Whoever a state comes to takes it for its own, and is the host when
the state says so.

Three things are told of a quiz that no client reads: the number of its start, the correct options
of its questions, and the answers that came to its host in time.
-/

namespace VoxTranslate.Client

open Lib

/-- The correct options of the built-in questions. -/
def PACK : List Nat :=
  [1, 2, 3, 2, 2, 2, 1, 2, 2, 1, 1, 1, 0, 2, 2, 1, 1, 1, 1, 2, 0, 1, 1, 2, 1, 1, 2, 2, 0, 2, 2,
    1, 1, 1, 1, 1, 2, 1, 0, 1]

def ROUND_QS : Nat := 8

structure QuizPlayer where
  name : String
  score : Nat
  answered : Nat
  deriving DecidableEq, Repr

inductive QuizPhase where
  | question
  | reveal
  | done
  | cancelled
  deriving DecidableEq, Repr

/-- What came of one question. -/
structure QuizOutcome (ι : Type*) where
  packIndex : Option Nat
  correct : Nat
  choices : List (ι × Nat)
  deriving DecidableEq

structure AnswerMsg (ι : Type*) where
  q : Nat
  choice : Nat
  /-- Who answers (`by`). -/
  author : ι
  name : String
  serial : Nat
  deriving DecidableEq

structure QuizState (ι : Type*) where
  phase : QuizPhase
  hostId : ι
  players : List (ι × QuizPlayer)
  qIndex : Nat
  total : Nat
  packIndex : Option Nat
  answeredIds : List ι
  correct : Option Nat
  choices : Option (List (ι × Nat))
  /-- The correct options of a generated quiz. -/
  pack : Option (List Nat)
  history : Option (List (QuizOutcome ι))
  serial : Nat
  asked : List Nat
  heard : List (AnswerMsg ι)
  deriving DecidableEq

inductive QuizFrame (ι : Type*) where
  | state (m : QuizState ι)
  | answer (a : AnswerMsg ι)
  deriving DecidableEq

/-- A quiz is live in its question and reveal phases. -/
def QuizPhase.isLive : QuizPhase → Bool
  | .question | .reveal => true
  | .done | .cancelled => false

def isQuizActive {ι : Type*} (state : Option (QuizState ι)) : Bool := state.any (·.phase.isLive)

/-- The quiz of a client. -/
structure Quiz (ι : Type*) where
  state : Option (QuizState ι)
  myChoice : Option Nat
  /-- The host's built-in questions. -/
  round : List Nat
  /-- The answers to the present question that the host has. -/
  pending : List (ι × Nat)
  log : List (QuizOutcome ι)
  /-- The answers to this quiz that came to the host while their question was open, newest
  first. -/
  heard : List (AnswerMsg ι)

namespace Quiz

variable {ι : Type*} [DecidableEq ι]

def new : Quiz ι := ⟨none, none, [], [], [], []⟩

def reset (_ : Quiz ι) : Quiz ι := new

def isHost (t : Quiz ι) (me : ι) : Bool := t.state.any fun s => s.hostId = me

/-- The state is shown and sent. -/
def setState (t : Quiz ι) (s : QuizState ι) : Quiz ι × List (QuizFrame ι) :=
  ({ t with state := some s }, [.state s])

/-- The correct option of the present question, if there is such a question (`item(s).answer`). -/
def correctOption (s : QuizState ι) : Option Nat :=
  match s.pack with
  | some pack => pack[s.qIndex]?
  | none => s.packIndex.bind fun i => PACK[i]?

/-- The first state of a quiz. -/
def firstState (me : ι) (name : String) (packIndex : Option Nat) (pack : Option (List Nat))
    (asked : List Nat) (serial : Nat) : QuizState ι where
  phase := .question
  hostId := me
  players := [(me, ⟨name, 0, 0⟩)]
  qIndex := 0
  total := asked.length
  packIndex
  answeredIds := []
  correct := none
  choices := none
  pack
  history := none
  serial
  asked
  heard := []

/-- A quiz is started with the first of the built-in questions in the order they were shuffled
to. -/
def startNew (t : Quiz ι) (me : ι) (name : String) (order : List Nat) (serial : Nat) :
    Quiz ι × List (QuizFrame ι) :=
  if isQuizActive t.state then (t, [])
  else
    let round := order.take (min ROUND_QS PACK.length)
    setState { t with round, pending := [], log := [], myChoice := none, heard := [] }
      (firstState me name round[0]? none (round.map fun i => PACK.getD i 0) serial)

/-- A generated quiz is started. -/
def startAiQuiz (t : Quiz ι) (me : ι) (name : String) (questions : List Nat) (serial : Nat) :
    Quiz ι × List (QuizFrame ι) :=
  if isQuizActive t.state then (t, [])
  else
    setState { t with round := [], pending := [], log := [], myChoice := none, heard := [] }
      (firstState me name (some 0) (some questions) questions serial)

def recordAnswer (t : Quiz ι) (me : ι) (a : AnswerMsg ι) : Quiz ι × List (QuizFrame ι) :=
  match t.state with
  | none => (t, [])
  | some s =>
    if s.hostId ≠ me ∨ s.phase ≠ .question ∨ a.q ≠ s.qIndex then (t, [])
    else
      let isUpdate := (Entries.get t.pending a.author).isSome
      let pending := Entries.put t.pending a.author a.choice
      let t := { t with pending, heard := if a.serial = s.serial then a :: t.heard else t.heard }
      if isUpdate then (t, [])
      else
        let prev := (Entries.get s.players a.author).getD ⟨a.name, 0, 0⟩
        let players := Entries.put s.players a.author { prev with answered := prev.answered + 1 }
        t.setState { s with players, answeredIds := pending.map Prod.fst }

/-- A click on an option. -/
def choose (t : Quiz ι) (me : ι) (name : String) (i : Nat) : Quiz ι × List (QuizFrame ι) :=
  match t.state with
  | none => (t, [])
  | some s =>
    if s.phase ≠ .question ∨ t.myChoice = some i then (t, [])
    else
      let a : AnswerMsg ι := ⟨s.qIndex, i, me, name, s.serial⟩
      let t := { t with myChoice := some i }
      if s.hostId = me then t.recordAnswer me a else (t, [.answer a])

/-- The players whose answer is the correct option score. -/
def reward (correct : Nat) (players : List (ι × QuizPlayer)) (answers : List (ι × Nat)) :
    List (ι × QuizPlayer) :=
  answers.foldl (fun players answer =>
    if answer.2 = correct then
      let prev := (Entries.get players answer.1).getD ⟨"", 0, 0⟩
      Entries.put players answer.1 { prev with score := prev.score + 1 }
    else players) players

def reveal (t : Quiz ι) (s : QuizState ι) : Quiz ι × List (QuizFrame ι) :=
  match correctOption s with
  -- there is no such question, and the handler throws
  | none => (t, [])
  | some correct =>
    let log :=
      if t.log.length = s.qIndex then t.log ++ [⟨s.packIndex, correct, t.pending⟩] else t.log
    setState { t with log }
      { s with
        phase := .reveal
        correct := some correct
        choices := some t.pending
        players := reward correct s.players t.pending }

def next (t : Quiz ι) (s : QuizState ι) : Quiz ι × List (QuizFrame ι) :=
  let t := { t with myChoice := none, pending := [] }
  if s.total ≤ s.qIndex + 1 then
    t.setState { s with
      phase := .done
      answeredIds := []
      correct := none
      choices := none
      history := some t.log
      heard := t.heard }
  else
    t.setState { s with
      phase := .question
      qIndex := s.qIndex + 1
      packIndex := if s.pack.isSome then s.packIndex else t.round[s.qIndex + 1]?
      answeredIds := []
      correct := none
      choices := none }

/-- A click on the button of the quiz. -/
def onAction (t : Quiz ι) (me : ι) (name : String) (order : List Nat) (serial : Nat) :
    Quiz ι × List (QuizFrame ι) :=
  match t.state with
  | none => t.startNew me name order serial
  | some s =>
    if s.hostId ≠ me then
      if s.phase = .done then t.startNew me name order serial else (t, [])
    else
      match s.phase with
      | .question => t.reveal s
      | .reveal => t.next s
      | .done | .cancelled => t.startNew me name order serial

def cancel (t : Quiz ι) (me : ι) : Quiz ι × List (QuizFrame ι) :=
  match t.state with
  | none => (t, [])
  | some s =>
    if s.hostId ≠ me ∨ s.phase.isLive = false then (t, [])
    else
      (t.reset, [.state { s with
        phase := .cancelled, answeredIds := [], correct := none, choices := none }])

/-- A frame comes to a client. -/
def applyRemote (t : Quiz ι) (me : ι) : QuizFrame ι → Quiz ι × List (QuizFrame ι)
  | .answer a => if t.isHost me then t.recordAnswer me a else (t, [])
  | .state m =>
    if m.phase = .cancelled then (t.reset, [])
    else
      let moved := t.state.any fun prev => prev.qIndex ≠ m.qIndex || prev.phase ≠ m.phase
      ({ t with
        state := some m
        myChoice := if moved && m.phase = .question then none else t.myChoice }, [])

/-! ## Fair scores -/

/-- The last answer of a player to a question. -/
def lastAnswer (heard : List (AnswerMsg ι)) (q : Nat) (player : ι) : Option Nat :=
  (heard.find? fun a => a.q = q && a.author = player).map (·.choice)

/-- The last answer of the player to the question is the correct option. -/
def isRight (asked : List Nat) (heard : List (AnswerMsg ι)) (player : ι) (q : Nat) : Bool :=
  (lastAnswer heard q player).any fun choice => asked[q]? = some choice

/-- How many of the first `n` questions the player has right. -/
def rightAnswers (asked : List Nat) (heard : List (AnswerMsg ι)) (n : Nat) (player : ι) : Nat :=
  (List.range n).countP fun q => isRight asked heard player q

def scoreOf (players : List (ι × QuizPlayer)) (player : ι) : Nat :=
  ((Entries.get players player).map (·.score)).getD 0

end Quiz

/-- In the final state the score of each player is the number of questions whose last answer by
that player is the correct option. -/
def QuizState.IsFair {ι : Type*} [DecidableEq ι] (s : QuizState ι) : Prop :=
  s.phase = .done → ∀ player p, Entries.get s.players player = some p →
    p.score = Quiz.rightAnswers s.asked s.heard s.total player

namespace Quiz

variable {ι : Type*} [DecidableEq ι] {t : Quiz ι} {s : QuizState ι} {me player : ι} {name : String}
  {order questions asked : List Nat} {serial q n : Nat} {a : AnswerMsg ι}
  {heard : List (AnswerMsg ι)} {players : List (ι × QuizPlayer)} {answers : List (ι × Nat)}
  {p : QuizPlayer}

lemma lastAnswer_cons : lastAnswer (a :: heard) q player =
    if a.q = q ∧ a.author = player then some a.choice else lastAnswer heard q player := by
  rw [lastAnswer, List.find?_cons]
  split_ifs with h
  · rw [decide_eq_true h.1, decide_eq_true h.2]
    rfl
  · have hnot : (decide (a.q = q) && decide (a.author = player)) = false := by
      simpa [not_and] using h
    rw [hnot]
    rfl

/-- A question to which nothing was heard has no last answer. -/
lemma lastAnswer_eq_none (h : ∀ a ∈ heard, a.q ≠ q) : lastAnswer heard q player = none := by
  rw [lastAnswer, List.find?_eq_none.mpr fun a ha => by simp [h a ha]]
  rfl

lemma rightAnswers_succ : rightAnswers asked heard (n + 1) player =
    rightAnswers asked heard n player + if isRight asked heard player n then 1 else 0 := by
  rw [rightAnswers, List.range_succ, List.countP_append, List.countP_singleton]
  rfl

/-- An answer to a question does not change what is right of the questions before. -/
lemma rightAnswers_cons (h : n ≤ a.q) :
    rightAnswers asked (a :: heard) n player = rightAnswers asked heard n player := by
  refine List.countP_congr fun q hq => ?_
  have hne : a.q ≠ q := by
    have hlt := List.mem_range.mp hq
    omega
  rw [isRight, isRight, lastAnswer_cons, if_neg fun h => hne h.1]

lemma scoreOf_put_of_score {author : ι} (h : p.score = scoreOf players author) :
    scoreOf (Entries.put players author p) player = scoreOf players player := by
  by_cases hp : player = author
  · rw [hp, ← h, scoreOf, Entries.get_put_self]
    rfl
  · rw [scoreOf, scoreOf, Entries.get_put_of_ne hp]

lemma scoreOf_eq (h : Entries.get players player = some p) : scoreOf players player = p.score := by
  rw [scoreOf, h]
  rfl

/-- The score of a player goes up by one when the player's answer is the correct option. -/
lemma scoreOf_reward {correct : Nat} (h : (answers.map Prod.fst).Nodup) :
    scoreOf (reward correct players answers) player =
      scoreOf players player + if Entries.get answers player = some correct then 1 else 0 := by
  induction answers generalizing players with
  | nil => simp [reward, Entries.get]
  | cons answer answers ih =>
    obtain ⟨author, choice⟩ := answer
    obtain ⟨hnot, hrest⟩ := List.nodup_cons.mp h
    rw [reward, List.foldl_cons, ← reward, ih hrest, Entries.get]
    by_cases hp : author = player
    · subst hp
      have hnone : Entries.get answers author = none := Entries.get_eq_none hnot
      rw [hnone, if_pos rfl]
      by_cases hcorrect : choice = correct
      · rw [if_pos hcorrect, if_pos (congrArg some hcorrect), scoreOf, Entries.get_put_self, scoreOf]
        cases Entries.get players author <;> rfl
      · rw [if_neg hcorrect, if_neg fun h => hcorrect (Option.some.inj h)]
        rfl
    · rw [if_neg hp]
      congr 1
      split_ifs
      · rw [scoreOf, scoreOf, Entries.get_put_of_ne (Ne.symm hp)]
      · rfl

/-! ## What the host keeps -/

/-- How many questions the scores count. -/
def counted (s : QuizState ι) : Nat := if s.phase = .question then s.qIndex else s.qIndex + 1

/-- What the host of a live quiz keeps goes with the state that it shows. -/
structure Hosting (round : List Nat) (pending : List (ι × Nat)) (heard : List (AnswerMsg ι))
    (s : QuizState ι) : Prop where
  total : s.total = s.asked.length
  question : s.qIndex < s.total
  items : s.pack = some s.asked ∨ s.pack = none ∧ s.packIndex = round[s.qIndex]? ∧
    round.map (fun i => PACK[i]?) = s.asked.map some
  keys : (pending.map Prod.fst).Nodup
  present : ∀ a ∈ heard, a.q ≤ s.qIndex
  pending : s.phase = .question →
    ∀ player, Entries.get pending player = lastAnswer heard s.qIndex player
  scores : ∀ player, scoreOf s.players player = rightAnswers s.asked heard (counted s) player

variable {round : List Nat} {pending : List (ι × Nat)}

lemma Hosting.correctOption (h : Hosting round pending heard s) :
    correctOption s = s.asked[s.qIndex]? := by
  rw [Quiz.correctOption]
  rcases h.items with hpack | ⟨hpack, hindex, hround⟩
  · rw [hpack]
  · have hitem : (round.map fun i => PACK[i]?)[s.qIndex]? = (s.asked.map some)[s.qIndex]? := by
      rw [hround]
    rw [List.getElem?_map, List.getElem?_map] at hitem
    rw [hpack, hindex]
    show (round[s.qIndex]?).bind (fun i => PACK[i]?) = s.asked[s.qIndex]?
    cases hr : round[s.qIndex]? with
    | none =>
      rw [hr] at hitem
      cases ha : s.asked[s.qIndex]? with
      | none => rfl
      | some _ =>
        rw [ha] at hitem
        cases hitem
    | some i =>
      rw [hr] at hitem
      cases ha : s.asked[s.qIndex]? with
      | none =>
        rw [ha] at hitem
        cases hitem
      | some c =>
        rw [ha] at hitem
        exact Option.some.inj hitem

/-- An answer to the open question. -/
lemma Hosting.answer (h : Hosting round pending heard s) (hphase : s.phase = .question)
    (hq : a.q = s.qIndex) :
    Hosting round (Entries.put pending a.author a.choice) (a :: heard) s where
  total := h.total
  question := h.question
  items := h.items
  keys := Entries.nodup_put h.keys
  present := by
    intro b hb
    rcases List.mem_cons.mp hb with rfl | hb
    · omega
    · exact h.present b hb
  pending := by
    intro _ player
    rw [lastAnswer_cons]
    by_cases hp : player = a.author
    · rw [if_pos ⟨hq, hp.symm⟩, hp, Entries.get_put_self]
    · rw [if_neg fun hboth => hp hboth.2.symm, Entries.get_put_of_ne hp]
      exact h.pending hphase player
  scores := by
    intro player
    have hcounted : counted s = s.qIndex := if_pos hphase
    rw [h.scores player, hcounted, rightAnswers_cons (Nat.le_of_eq hq.symm)]

/-- The players change and no score does. -/
lemma Hosting.withPlayers (h : Hosting round pending heard s) {ids : List ι}
    (hscores : ∀ player, scoreOf players player = scoreOf s.players player) :
    Hosting round pending heard { s with players, answeredIds := ids } :=
  ⟨h.total, h.question, h.items, h.keys, h.present, h.pending,
    fun player => (hscores player).trans (h.scores player)⟩

/-- The answers to the question are counted. -/
lemma Hosting.reveal (h : Hosting round pending heard s) (hphase : s.phase = .question)
    {correct : Nat} (hcorrect : s.asked[s.qIndex]? = some correct) {shown : Option Nat}
    {choices : Option (List (ι × Nat))} :
    Hosting round pending heard { s with
      phase := .reveal
      correct := shown
      choices
      players := reward correct s.players pending } where
  total := h.total
  question := h.question
  items := h.items
  keys := h.keys
  present := h.present
  pending := fun hopen => by cases hopen
  scores := by
    intro player
    have hbefore : counted s = s.qIndex := if_pos hphase
    show scoreOf (reward correct s.players pending) player =
      rightAnswers s.asked heard (s.qIndex + 1) player
    rw [scoreOf_reward h.keys, h.scores player, hbefore, rightAnswers_succ, h.pending hphase]
    congr 1
    rw [isRight, hcorrect]
    cases lastAnswer heard s.qIndex player with
    | none => simp
    | some choice => simp [eq_comm]

/-- The next question is opened. -/
lemma Hosting.next (h : Hosting round pending heard s) (hphase : s.phase = .reveal)
    (hmore : ¬ s.total ≤ s.qIndex + 1) :
    Hosting round [] heard { s with
      phase := .question
      qIndex := s.qIndex + 1
      packIndex := if s.pack.isSome then s.packIndex else round[s.qIndex + 1]?
      answeredIds := []
      correct := none
      choices := none } where
  total := h.total
  question := Nat.lt_of_not_le hmore
  items := by
    rcases h.items with hpack | ⟨hpack, -, hround⟩
    · exact .inl hpack
    · refine .inr ⟨hpack, ?_, hround⟩
      rw [hpack]
      rfl
  keys := List.nodup_nil
  present := fun a ha => Nat.le_succ_of_le (h.present a ha)
  pending := by
    intro _ player
    refine (lastAnswer_eq_none fun a ha => ?_).symm
    exact Nat.ne_of_lt (Nat.lt_succ_of_le (h.present a ha))
  scores := by
    intro player
    have hbefore : counted s = s.qIndex + 1 := if_neg (by simp [hphase])
    rw [h.scores player, hbefore]
    rfl

/-- After the last question every answer has been counted. -/
lemma Hosting.isFair (h : Hosting round pending heard s) (hphase : s.phase = .reveal)
    (hlast : s.total ≤ s.qIndex + 1) {history : Option (List (QuizOutcome ι))} :
    ({ s with
      phase := .done, answeredIds := [], correct := none, choices := none, history, heard } :
      QuizState ι).IsFair := by
  intro _ player p hp
  have hcounted : counted s = s.qIndex + 1 := if_neg (by simp [hphase])
  have htotal : s.total = s.qIndex + 1 := Nat.le_antisymm hlast h.question
  have hscore := h.scores player
  rw [hcounted, scoreOf_eq hp] at hscore
  show p.score = rightAnswers s.asked heard s.total player
  rw [htotal, hscore]

/-- A quiz with a question is started. -/
lemma Hosting.first {pack : Option (List Nat)} {packIndex : Option Nat} (hasked : asked ≠ [])
    (hitems : pack = some asked ∨ pack = none ∧ packIndex = round[0]? ∧
      round.map (fun i => PACK[i]?) = asked.map some) :
    Hosting round [] [] (firstState me name packIndex pack asked serial) where
  total := rfl
  question := List.length_pos_iff.mpr hasked
  items := hitems
  keys := List.nodup_nil
  present := fun a ha => by cases ha
  pending := fun _ _ => rfl
  scores := by
    intro player
    show scoreOf [(me, ⟨name, 0, 0⟩)] player = 0
    rw [scoreOf, Entries.get, Entries.get]
    split_ifs <;> rfl

/-- The built-in questions are drawn without repetition. -/
lemma Hosting.firstBuiltIn (horder : order.Perm (List.range PACK.length)) :
    Hosting (order.take (min ROUND_QS PACK.length)) [] []
      (firstState me name (order.take (min ROUND_QS PACK.length))[0]? none
        ((order.take (min ROUND_QS PACK.length)).map fun i => PACK.getD i 0) serial) := by
  refine .first ?_ (.inr ⟨rfl, rfl, ?_⟩)
  · have hlength : order.length = 40 := horder.length_eq
    intro hnil
    have hzero := congrArg List.length hnil
    simp [hlength, ROUND_QS, PACK] at hzero
  · rw [List.map_map]
    refine List.map_congr_left fun i hi => ?_
    have hlt : i < PACK.length := List.mem_range.mp (horder.subset (List.mem_of_mem_take hi))
    show PACK[i]? = some (PACK.getD i 0)
    rw [List.getD_eq_getElem?_getD, List.getElem?_eq_getElem hlt]
    rfl

end Quiz

namespace QuizFrame

variable {ι : Type*}

def isAnswer : QuizFrame ι → Bool
  | .state _ => false
  | .answer _ => true

/-- What a client shows when the frame has come to it. -/
def after : QuizFrame ι → Option (QuizState ι) → Option (QuizState ι)
  | .state m, _ => if m.phase = .cancelled then none else some m
  | .answer _, shown => shown

end QuizFrame

/-! ## What a client does -/

namespace Quiz

variable {ι : Type*} [DecidableEq ι] {t : Quiz ι} {s m : QuizState ι} {me : ι} {name : String}
  {order questions : List Nat} {serial choice : Nat} {a : AnswerMsg ι} {may : Prop}

/-- What the client keeps goes with the live quiz that it hosts. -/
def HostsOwn (t : Quiz ι) (me : ι) : Prop :=
  ∀ s, t.state = some s → s.hostId = me → s.phase.isLive = true →
    Hosting t.round t.pending t.heard s

def LiveHost (t : Quiz ι) (me : ι) : Prop :=
  ∃ s, t.state = some s ∧ s.hostId = me ∧ s.phase.isLive = true

/-- A client shows what it has shown and sends answers at most, or, where it may, it sends one
state and shows that. -/
structure Acts (may : Prop) (me : ι) (t : Quiz ι) (r : Quiz ι × List (QuizFrame ι)) : Prop where
  hosts : r.1.HostsOwn me
  sends : (r.1.state = t.state ∧ ∀ f ∈ r.2, f.isAnswer = true) ∨
    may ∧ ∃ m, r.2 = [.state m] ∧ r.1.state = (QuizFrame.state m).after t.state ∧
      m.hostId = me ∧ m.IsFair

lemma acts_nothing (h : t.HostsOwn me) : Acts may me t (t, []) :=
  ⟨h, .inl ⟨rfl, fun _ hf => by cases hf⟩⟩

lemma acts_setState {t' : Quiz ι} (hmay : may) (hhost : m.hostId = me)
    (hphase : m.phase ≠ .cancelled) (hfair : m.IsFair)
    (hhosting : m.phase.isLive = true → Hosting t'.round t'.pending t'.heard m) :
    Acts may me t (t'.setState m) := by
  refine ⟨?_, .inr ⟨hmay, m, rfl, (if_neg hphase).symm, hhost, hfair⟩⟩
  rintro s ⟨⟩ - hlive
  exact hhosting hlive

lemma not_fair_of_ne (h : s.phase ≠ .done) : s.IsFair := fun hdone => absurd hdone h

lemma acts_startNew (h : t.HostsOwn me) (horder : order.Perm (List.range PACK.length)) :
    Acts (isQuizActive t.state = false) me t (t.startNew me name order serial) := by
  rw [startNew]
  split_ifs with hactive
  · exact acts_nothing h
  · exact acts_setState (Bool.eq_false_iff.mpr hactive) rfl (by simp [firstState])
      (not_fair_of_ne (by simp [firstState])) fun _ => .firstBuiltIn horder

lemma acts_startAiQuiz (h : t.HostsOwn me) (hquestions : questions ≠ []) :
    Acts (isQuizActive t.state = false) me t (t.startAiQuiz me name questions serial) := by
  rw [startAiQuiz]
  split_ifs with hactive
  · exact acts_nothing h
  · exact acts_setState (Bool.eq_false_iff.mpr hactive) rfl (by simp [firstState])
      (not_fair_of_ne (by simp [firstState])) fun _ => .first hquestions (.inl rfl)

/-- The host counts an answer to its quiz. -/
lemma acts_recordAnswer (h : t.HostsOwn me)
    (hserial : ∀ s, t.state = some s → s.hostId = me → s.phase = .question → a.q = s.qIndex →
      a.serial = s.serial) : Acts (t.LiveHost me) me t (t.recordAnswer me a) := by
  rw [recordAnswer]
  cases hstate : t.state with
  | none => exact acts_nothing h
  | some s =>
    dsimp only
    by_cases hdrop : s.hostId ≠ me ∨ s.phase ≠ .question ∨ a.q ≠ s.qIndex
    · rw [if_pos hdrop]
      exact acts_nothing h
    · rw [if_neg hdrop]
      obtain ⟨hhost, hphase, hq⟩ : s.hostId = me ∧ s.phase = .question ∧ a.q = s.qIndex := by
        simpa using hdrop
      have hlive : s.phase.isLive = true := by rw [hphase]; rfl
      have hhosting := (h s hstate hhost hlive).answer hphase hq
      rw [if_pos (hserial s hstate hhost hphase hq)]
      by_cases hknown : (Entries.get t.pending a.author).isSome = true
      · rw [if_pos hknown, ← hstate]
        refine ⟨?_, .inl ⟨rfl, fun _ hf => by cases hf⟩⟩
        rintro s' hs' - -
        cases hstate.symm.trans hs'
        exact hhosting
      · rw [if_neg hknown]
        refine acts_setState ⟨s, hstate, hhost, hlive⟩ hhost ?_ (not_fair_of_ne ?_)
          fun _ => hhosting.withPlayers fun player => scoreOf_put_of_score ?_
        · show s.phase ≠ .cancelled
          rw [hphase]
          simp
        · show s.phase ≠ .done
          rw [hphase]
          simp
        · rw [scoreOf]
          cases Entries.get s.players a.author <;> rfl

lemma acts_choose (h : t.HostsOwn me) :
    Acts (t.LiveHost me) me t (t.choose me name choice) := by
  rw [choose]
  cases hstate : t.state with
  | none => exact acts_nothing h
  | some s =>
    dsimp only
    split_ifs with hdrop hhost
    · exact acts_nothing h
    · rw [← hstate]
      have hown : ({ t with myChoice := some choice } : Quiz ι).HostsOwn me := h
      obtain ⟨hhosts, hsends⟩ := acts_recordAnswer (a := ⟨s.qIndex, choice, me, name, s.serial⟩)
        hown fun s' hs' _ _ _ => by
          cases hstate.symm.trans hs'
          rfl
      exact ⟨hhosts, hsends⟩
    · rw [← hstate]
      refine ⟨h, .inl ⟨rfl, fun f hf => ?_⟩⟩
      rw [List.mem_singleton.mp hf]
      rfl

lemma acts_reveal (h : t.HostsOwn me) (hstate : t.state = some s) (hhost : s.hostId = me)
    (hphase : s.phase = .question) : Acts (t.LiveHost me) me t (t.reveal s) := by
  have hlive : s.phase.isLive = true := by rw [hphase]; rfl
  have hhosting := h s hstate hhost hlive
  rw [reveal]
  cases hcorrect : correctOption s with
  | none => exact acts_nothing h
  | some correct =>
    exact acts_setState ⟨s, hstate, hhost, hlive⟩ hhost (by simp) (not_fair_of_ne (by simp))
      fun _ => hhosting.reveal hphase (hhosting.correctOption.symm.trans hcorrect)

lemma acts_next (h : t.HostsOwn me) (hstate : t.state = some s) (hhost : s.hostId = me)
    (hphase : s.phase = .reveal) : Acts (t.LiveHost me) me t (t.next s) := by
  have hlive : s.phase.isLive = true := by rw [hphase]; rfl
  have hhosting := h s hstate hhost hlive
  rw [next]
  dsimp only
  by_cases hlast : s.total ≤ s.qIndex + 1
  · rw [if_pos hlast]
    exact acts_setState ⟨s, hstate, hhost, hlive⟩ hhost (by simp) (hhosting.isFair hphase hlast)
      fun hdone => by cases hdone
  · rw [if_neg hlast]
    exact acts_setState ⟨s, hstate, hhost, hlive⟩ hhost (by simp) (not_fair_of_ne (by simp))
      fun _ => hhosting.next hphase hlast

lemma Acts.mono {may' : Prop} {r : Quiz ι × List (QuizFrame ι)} (h : Acts may me t r)
    (himp : may → may') : Acts may' me t r :=
  ⟨h.hosts, h.sends.imp_right fun hsends => ⟨himp hsends.1, hsends.2⟩⟩

lemma acts_onAction (h : t.HostsOwn me) (horder : order.Perm (List.range PACK.length)) :
    Acts (t.LiveHost me ∨ isQuizActive t.state = false) me t
      (t.onAction me name order serial) := by
  have hstart : Acts (t.LiveHost me ∨ isQuizActive t.state = false) me t
      (t.startNew me name order serial) := (acts_startNew h horder).mono .inr
  rw [onAction]
  cases hstate : t.state with
  | none =>
    rw [hstate] at hstart
    exact hstart
  | some s =>
    rw [hstate] at hstart
    dsimp only
    split_ifs with hother hdone
    · exact hstart
    · exact acts_nothing h
    · have hhost : s.hostId = me := not_not.mp hother
      cases hphase : s.phase with
      | question => exact (acts_reveal h hstate hhost hphase).mono .inl
      | reveal => exact (acts_next h hstate hhost hphase).mono .inl
      | done => exact hstart
      | cancelled => exact hstart

lemma acts_cancel (h : t.HostsOwn me) : Acts (t.LiveHost me) me t (t.cancel me) := by
  rw [cancel]
  cases hstate : t.state with
  | none => exact acts_nothing h
  | some s =>
    dsimp only
    split_ifs with hdrop
    · exact acts_nothing h
    · obtain ⟨hhost, hlive⟩ : s.hostId = me ∧ s.phase.isLive = true := by simpa using hdrop
      refine ⟨?_, .inr ⟨⟨s, hstate, hhost, hlive⟩, _, rfl, ?_, hhost, not_fair_of_ne (by simp)⟩⟩
      · intro s' hs'
        cases hs'
      · rw [QuizFrame.after, if_pos rfl]
        rfl

end Quiz

end VoxTranslate.Client
