import Mathlib.Data.List.Basic

/-!
# Tic-tac-toe

The player whose turn it is computes the next state of the game and sends all of it to the others,
under the next number of its own counter.  A client drops a state whose number is not above the
highest it has produced or seen.  The counter outlives the game: leaving the call drops the state
only.
-/

namespace VoxTranslate.Client

/-- The mark of a player, and whose turn it is; an empty cell has none. -/
inductive Seat where
  | x
  | o
  deriving DecidableEq, Repr

def Seat.other : Seat → Seat
  | .x => .o
  | .o => .x

inductive GameStatus where
  | waiting
  | playing
  | won
  | draw
  deriving DecidableEq, Repr

structure GameState where
  board : List (Option Seat)
  turn : Seat
  status : GameStatus
  winner : Option Seat
  winLine : Option (List Nat)
  xId : String
  xName : String
  oId : Option String
  oName : Option String
  seq : Nat
  deriving DecidableEq, Repr

def winLines : List (List Nat) :=
  [[0, 1, 2], [3, 4, 5], [6, 7, 8], [0, 3, 6], [1, 4, 7], [2, 5, 8], [0, 4, 8], [2, 4, 6]]

/-- The first line that is of one mark. -/
def winningLine (board : List (Option Seat)) : Option (List Nat) :=
  winLines.find? fun line =>
    [Seat.x, .o].any fun seat => line.all fun i => board[i]? = some (some seat)

def isFull (board : List (Option Seat)) : Bool := board.all Option.isSome

/-- A number is not above the highest seen; a missing one is from an older client. -/
def isStaleSeq (incoming : Option Nat) (highestSeen : Nat) : Bool :=
  match incoming with
  | none => false
  | some incoming => incoming ≤ highestSeen

/-- A name that is there and not empty. -/
def present (s : Option String) : Option String := s.filter (· ≠ "")

/-- The next of the participants, in their ring, that is not excluded. -/
def nextOther (parts : List String) (start : Nat) (exclude : String) : Option String :=
  (List.range parts.length).findSome? fun k =>
    (parts[(start + (k + 1)) % parts.length]?).filter (· ≠ exclude)

/-- Who keeps a seat after a finished game. -/
def keptSeat (parts : List String) (prev : Option GameState) : Option (GameState × String) := do
  let prev ← prev
  let keep ← match prev.status with
    | .won => if prev.winner = some .x then some prev.xId else prev.oId
    | .draw => some prev.xId
    | _ => none
  if keep ≠ "" ∧ keep ∈ parts then some (prev, keep) else none

/-- The seats of a new game: the winner stays and the loser rotates out, or the starter plays with
the next participant. -/
def nextSeats (parts : List String) (prev : Option GameState) (starterId : String) :
    String × Option String :=
  if parts.length ≤ 1 then (parts.head?.getD starterId, none)
  else
    match keptSeat parts prev with
    | some (prev, keep) =>
      let loser := if keep = prev.xId then prev.oId else some prev.xId
      let start := (loser.bind parts.idxOf?).getD (parts.idxOf keep)
      (keep, nextOther parts start keep)
    | none =>
      let starter := if starterId ∈ parts then starterId else parts.headD starterId
      (starter, nextOther parts (parts.idxOf starter) starter)

/-- The game of a client. -/
structure TicTacToe where
  state : Option GameState
  /-- The highest number produced or seen. -/
  seq : Nat
  deriving DecidableEq, Repr

namespace TicTacToe

def new : TicTacToe := ⟨none, 0⟩

/-- The mark of a client; a spectator has none. -/
def mark (s : GameState) (myId : String) : Option Seat :=
  if myId = s.xId then some .x else if some myId = s.oId then some .o else none

/-- The state is numbered, shown and sent. -/
def setState (t : TicTacToe) (s : GameState) : TicTacToe × GameState :=
  (⟨some { s with seq := t.seq + 1 }, t.seq + 1⟩, { s with seq := t.seq + 1 })

/-- A click on a cell; a player moves on its turn. -/
def onCell (t : TicTacToe) (myId : String) (i : Nat) : Option (TicTacToe × GameState) := do
  let s ← t.state
  let seat ← mark s myId
  if s.status ≠ .playing ∨ s.turn ≠ seat ∨ s.board[i]? ≠ some none then none
  else
    let board := s.board.set i (some seat)
    let win := winningLine board
    some (t.setState { s with
      board
      turn := s.turn.other
      status := if win.isSome then .won else if isFull board then .draw else .playing
      winner := if win.isSome then some seat else none
      winLine := win })

/-- A fresh game, seated from the participants. -/
def startNew (t : TicTacToe) (myId : String) (nameOf : String → String) (parts : List String) :
    TicTacToe × GameState :=
  let seats := nextSeats parts t.state myId
  t.setState
    { board := List.replicate 9 none, turn := .x
      status := if (present seats.2).isSome then .playing else .waiting
      winner := none, winLine := none
      xId := seats.1, xName := nameOf seats.1
      oId := seats.2, oName := (present seats.2).map nameOf, seq := 0 }

/-- The button: start a game, or take the seat that is free. -/
def onAction (t : TicTacToe) (myId : String) (nameOf : String → String) (parts : List String) :
    TicTacToe × GameState :=
  match t.state with
  | none => t.startNew myId nameOf parts
  | some s =>
    if s.status = .waiting ∧ present s.oId = none ∧ myId ≠ s.xId then
      t.setState { s with oId := some myId, oName := some (nameOf myId), status := .playing }
    else t.startNew myId nameOf parts

/-- A state from another client, or the snapshot; also whether to open the panel. -/
def applyRemote (t : TicTacToe) (incoming : Option GameState) : TicTacToe × Bool :=
  match incoming with
  | none => (⟨none, t.seq⟩, false)
  | some s =>
    if s.board.length ≠ 9 then (t, false)
    else if isStaleSeq (some s.seq) t.seq then (t, false)
    else
      (⟨some s, max t.seq s.seq⟩, t.state.all fun prev => prev.status = .won || prev.status = .draw)

/-- The game is dropped, and the counter stays. -/
def reset (t : TicTacToe) : TicTacToe := { t with state := none }

variable {t : TicTacToe} {myId : String}

/-- A state that is shown has nine cells. -/
def WellFormed (t : TicTacToe) : Prop := ∀ s ∈ t.state, s.board.length = 9

/-- What a client sends: its state under the next number. -/
structure Broadcasts (t : TicTacToe) (r : TicTacToe × GameState) : Prop where
  state : r.1.state = some r.2
  seq : r.1.seq = t.seq + 1
  sent : r.2.seq = t.seq + 1
  board : r.2.board.length = 9

lemma broadcasts_setState {s : GameState} (h : s.board.length = 9) :
    t.Broadcasts (t.setState s) := ⟨rfl, rfl, rfl, h⟩

lemma broadcasts_onCell (h : t.WellFormed) {i : Nat} {r : TicTacToe × GameState}
    (hr : t.onCell myId i = some r) : t.Broadcasts r := by
  obtain ⟨s, hs, hr⟩ := Option.bind_eq_some_iff.mp hr
  obtain ⟨seat, -, hr⟩ := Option.bind_eq_some_iff.mp hr
  split_ifs at hr
  cases hr
  exact broadcasts_setState ((List.length_set ..).trans (h s hs))

lemma broadcasts_startNew {nameOf : String → String} {parts : List String} :
    t.Broadcasts (t.startNew myId nameOf parts) := broadcasts_setState List.length_replicate

lemma broadcasts_onAction (h : t.WellFormed) {nameOf : String → String} {parts : List String} :
    t.Broadcasts (t.onAction myId nameOf parts) := by
  rw [onAction]
  split
  · exact broadcasts_startNew
  next s hs =>
    split_ifs
    · exact broadcasts_setState (h s hs)
    · exact broadcasts_startNew

/-- A state that comes is dropped, or it is the one that is shown. -/
lemma applyRemote_cases {s : GameState} (h : s.board.length = 9) :
    s.seq ≤ t.seq ∧ (t.applyRemote (some s)).1 = t ∨
      t.seq < s.seq ∧ (t.applyRemote (some s)).1 = ⟨some s, s.seq⟩ := by
  rw [applyRemote, if_neg (by simpa using h)]
  by_cases hstale : s.seq ≤ t.seq
  · have hdrop : isStaleSeq (some s.seq) t.seq = true := decide_eq_true hstale
    rw [if_pos hdrop]
    exact .inl ⟨hstale, rfl⟩
  · have hlt : t.seq < s.seq := Nat.lt_of_not_le hstale
    have hkeep : ¬ isStaleSeq (some s.seq) t.seq = true := by simpa [isStaleSeq] using hlt
    rw [if_neg hkeep]
    dsimp only
    rw [Nat.max_eq_right (Nat.le_of_lt hlt)]
    exact .inr ⟨hlt, rfl⟩

end TicTacToe

end VoxTranslate.Client
