import Mathlib.Data.Nat.Basic
import VoxTranslate.Client.TicTacToe
import VoxTranslate.Lib.Run

/-!
# One game in a room

The server relays every state to the others, keeps the last, and gives it to whoever joins.  The
number of a state is a counter of the client that sent it: two clients may send different states
under one number, and each drops the other's; and a client that comes back drops the snapshot that
its counter has seen.
-/

namespace VoxTranslate.Client

open Lib

/-- The clients, what is on the way to each and from each, and what the server keeps. -/
structure GameRoom (ι : Type*) where
  player : ι → TicTacToe
  members : List ι
  inbox : ι → List GameState
  outbox : ι → List GameState
  game : Option GameState

inductive GameEvent (ι : Type*) where
  | enter (i : ι)
  | leave (i : ι)
  /-- A client hears that nobody else is left. -/
  | alone (i : ι)
  | cell (i : ι) (cell : Nat)
  | action (i : ι) (participants : List String)
  | relay (i : ι)
  | deliver (i : ι)
  deriving DecidableEq

namespace GameRoom

variable {ι : Type*} [DecidableEq ι] (ids : ι → String) (nameOf : ι → String → String)

def new : GameRoom ι := ⟨fun _ => .new, [], fun _ => [], fun _ => [], none⟩

/-- A client joins and is given the snapshot, if there is one. -/
def enter (s : GameRoom ι) (i : ι) : GameRoom ι :=
  { s with members := s.members ++ [i], inbox := Function.update s.inbox i s.game.toList }

/-- A client leaves the call; a room with nobody in it is gone, and the game with it. -/
def leave (s : GameRoom ι) (i : ι) : GameRoom ι :=
  let members := s.members.filter (· ≠ i)
  { members
    player := Function.update s.player i (s.player i).reset
    inbox := Function.update s.inbox i []
    outbox := Function.update s.outbox i []
    game := if members = [] then none else s.game }

def broadcast (s : GameRoom ι) (i : ι) (r : TicTacToe × GameState) : GameRoom ι :=
  { s with
    player := Function.update s.player i r.1
    outbox := Function.update s.outbox i (s.outbox i ++ [r.2]) }

/-- The server keeps a state and relays it to the others. -/
def relay (s : GameRoom ι) (i : ι) (state : GameState) (states : List GameState) : GameRoom ι :=
  { s with
    outbox := Function.update s.outbox i states
    game := some state
    inbox := fun j => if j ∈ s.members ∧ j ≠ i then s.inbox j ++ [state] else s.inbox j }

/-- One event; `none` where it cannot happen. -/
def step (s : GameRoom ι) : GameEvent ι → Option (GameRoom ι)
  | .enter i => if i ∈ s.members then none else some (s.enter i)
  | .leave i => if i ∈ s.members then some (s.leave i) else none
  | .alone i =>
    if i ∈ s.members then
      some { s with player := Function.update s.player i (s.player i).reset }
    else none
  | .cell i cell =>
    if i ∈ s.members then ((s.player i).onCell (ids i) cell).map (s.broadcast i) else none
  | .action i participants =>
    if i ∈ s.members then
      some (s.broadcast i ((s.player i).onAction (ids i) (nameOf i) participants))
    else none
  | .relay i =>
    match s.outbox i with
    | [] => none
    | state :: states => some (s.relay i state states)
  | .deliver i =>
    match s.inbox i with
    | [] => none
    | state :: states =>
      some { s with
        player := Function.update s.player i ((s.player i).applyRemote (some state)).1
        inbox := Function.update s.inbox i states }

/-- Every state has been relayed and delivered. -/
def Delivered (s : GameRoom ι) : Prop := ∀ i ∈ s.members, s.inbox i = [] ∧ s.outbox i = []

/-- Every client in the room shows what a late joiner would be given. -/
def InStep (s : GameRoom ι) : Prop := ∀ i ∈ s.members, (s.player i).state = s.game

instance (s : GameRoom ι) : Decidable s.Delivered :=
  inferInstanceAs (Decidable (∀ i ∈ s.members, s.inbox i = [] ∧ s.outbox i = []))

instance (s : GameRoom ι) : Decidable s.InStep :=
  inferInstanceAs (Decidable (∀ i ∈ s.members, (s.player i).state = s.game))

/-- The states come to the server in the order of their numbers, what comes to a client that shows
no game has a number above its counter, and nobody drops the game while in the room. -/
def inOrder (s : GameRoom ι) : GameEvent ι → Bool
  | .relay i => (s.outbox i).head?.all fun state => s.game.all fun game => game.seq < state.seq
  | .deliver i =>
    (s.player i).state.isSome || (s.inbox i).head?.all fun state => (s.player i).seq < state.seq
  | .alone i => (s.player i).state.isNone
  | _ => true

end GameRoom

/-! ## One client -/

/-- What a client shows, and what is on the way to it and from it, beside the state that the server
keeps. -/
structure TicTacToe.Follows (t : TicTacToe) (game : Option GameState)
    (inbox outbox : List GameState) : Prop where
  board : t.WellFormed
  boards : ∀ s ∈ inbox ++ outbox, s.board.length = 9
  /-- What is on the way to the client is the state that is kept, or an older one. -/
  coming : ∀ s ∈ inbox, ∃ g, game = some g ∧ (s.seq < g.seq ∨ s = g)
  /-- The state that is kept has come to the client or is on the way. -/
  latest : ∀ g, game = some g → g ∈ inbox ∨ t.state.isSome = true ∧ g.seq ≤ t.seq
  /-- A client whose counter is at the number of that state shows it, or has one of that number to
  send. -/
  same : ∀ g, game = some g → t.state.isSome = true → t.seq = g.seq →
    t.state = some g ∨ ∃ s ∈ outbox, s.seq = g.seq
  /-- What is shown is not newer than what is kept, or is still to be sent. -/
  shown : t.state.isSome = true →
    (∃ g, game = some g ∧ t.seq ≤ g.seq) ∨ ∃ s ∈ outbox, s.seq = t.seq
  going : ∀ s ∈ outbox, s.seq ≤ t.seq ∧ (s.seq = t.seq → t.state = some s)
  busy : outbox ≠ [] → t.state.isSome = true

namespace TicTacToe.Follows

variable {t : TicTacToe} {game : Option GameState} {inbox outbox : List GameState} {s : GameState}

lemma enter (hstate : t.state = none) (hboard : ∀ g ∈ game, g.board.length = 9) :
    t.Follows game game.toList [] where
  board := by simp [WellFormed, hstate]
  boards := by simpa using hboard
  coming := fun s hs => ⟨s, Option.mem_toList.mp hs, .inr rfl⟩
  latest := fun g hg => .inl (Option.mem_toList.mpr hg)
  same := by simp [hstate]
  shown := by simp [hstate]
  going := by simp
  busy := fun h => absurd rfl h

/-- The client makes a state. -/
lemma broadcast (h : t.Follows game inbox outbox) {r : TicTacToe × GameState}
    (hr : t.Broadcasts r) : r.1.Follows game inbox (outbox ++ [r.2]) where
  board := by
    intro s hs
    rw [hr.state] at hs
    cases hs
    exact hr.board
  boards := by
    intro s hs
    rw [← List.append_assoc] at hs
    rcases List.mem_append.mp hs with hold | hnew
    · exact h.boards s hold
    · rw [List.mem_singleton.mp hnew]
      exact hr.board
  coming := h.coming
  latest := by
    intro g hg
    refine (h.latest g hg).imp_right fun hold => ⟨by rw [hr.state]; rfl, ?_⟩
    rw [hr.seq]
    exact Nat.le_succ_of_le hold.2
  same := by
    intro g _ _ hseq
    refine .inr ⟨r.2, List.mem_append_right _ (List.mem_singleton_self _), ?_⟩
    rw [hr.sent, ← hr.seq, hseq]
  shown := fun _ => .inr ⟨r.2, List.mem_append_right _ (List.mem_singleton_self _),
    hr.sent.trans hr.seq.symm⟩
  going := by
    intro s hs
    rw [hr.seq, hr.state]
    rcases List.mem_append.mp hs with hold | hnew
    · have hle := (h.going s hold).1
      exact ⟨Nat.le_succ_of_le hle, fun heq => absurd heq (Nat.ne_of_lt (Nat.lt_succ_of_le hle))⟩
    · rw [List.mem_singleton.mp hnew]
      exact ⟨Nat.le_of_eq hr.sent, fun _ => rfl⟩
  busy := fun _ => by rw [hr.state]; rfl

/-- The server comes to a state of this client. -/
lemma relay_self (h : t.Follows game inbox (s :: outbox))
    (hnew : ∀ g, game = some g → g.seq < s.seq) : t.Follows (some s) inbox outbox where
  board := h.board
  boards := by
    intro s' hs'
    refine h.boards s' ?_
    rcases List.mem_append.mp hs' with hin | hout
    · exact List.mem_append_left _ hin
    · exact List.mem_append_right _ (List.mem_cons_of_mem _ hout)
  coming := by
    intro s' hs'
    obtain ⟨g, hg, hle⟩ := h.coming s' hs'
    refine ⟨s, rfl, .inl ?_⟩
    rcases hle with hlt | rfl
    · exact hlt.trans (hnew g hg)
    · exact hnew _ hg
  latest := by
    rintro g ⟨⟩
    exact .inr ⟨h.busy (List.cons_ne_nil _ _), (h.going s List.mem_cons_self).1⟩
  same := by
    rintro g ⟨⟩ _ hseq
    exact .inl ((h.going s List.mem_cons_self).2 hseq.symm)
  shown := by
    intro hstate
    rcases h.shown hstate with ⟨g, hg, hle⟩ | ⟨s', hs', hseq⟩
    · exact .inl ⟨s, rfl, hle.trans (Nat.le_of_lt (hnew g hg))⟩
    · rcases List.mem_cons.mp hs' with rfl | hrest
      · exact .inl ⟨s', rfl, Nat.le_of_eq hseq.symm⟩
      · exact .inr ⟨s', hrest, hseq⟩
  going := fun s' hs' => h.going s' (List.mem_cons_of_mem _ hs')
  busy := fun _ => h.busy (List.cons_ne_nil _ _)

/-- The server comes to a state of another client. -/
lemma relay_other (h : t.Follows game inbox outbox) (hboard : s.board.length = 9)
    (hnew : ∀ g, game = some g → g.seq < s.seq) :
    t.Follows (some s) (inbox ++ [s]) outbox where
  board := h.board
  boards := by
    intro s' hs'
    rcases List.mem_append.mp hs' with hin | hout
    · rcases List.mem_append.mp hin with hold | hlast
      · exact h.boards s' (List.mem_append_left _ hold)
      · rw [List.mem_singleton.mp hlast]
        exact hboard
    · exact h.boards s' (List.mem_append_right _ hout)
  coming := by
    intro s' hs'
    rcases List.mem_append.mp hs' with hold | hlast
    · obtain ⟨g, hg, hle⟩ := h.coming s' hold
      refine ⟨s, rfl, .inl ?_⟩
      rcases hle with hlt | rfl
      · exact hlt.trans (hnew g hg)
      · exact hnew _ hg
    · exact ⟨s, rfl, .inr (List.mem_singleton.mp hlast)⟩
  latest := by
    rintro g ⟨⟩
    exact .inl (List.mem_append_right _ (List.mem_singleton_self _))
  same := by
    rintro g ⟨⟩ hstate hseq
    rcases h.shown hstate with ⟨g, hg, hle⟩ | ⟨s', hs', hsame⟩
    · exact absurd hseq (Nat.ne_of_lt (Nat.lt_of_le_of_lt hle (hnew g hg)))
    · exact .inr ⟨s', hs', hsame.trans hseq⟩
  shown := by
    intro hstate
    rcases h.shown hstate with ⟨g, hg, hle⟩ | hout
    · exact .inl ⟨s, rfl, hle.trans (Nat.le_of_lt (hnew g hg))⟩
    · exact .inr hout
  going := h.going
  busy := h.busy

/-- A state comes to the client. -/
lemma deliver (h : t.Follows game (s :: inbox) outbox)
    (hshown : t.state.isSome = true ∨ t.seq < s.seq) :
    (t.applyRemote (some s)).1.Follows game inbox outbox := by
  have hboard : s.board.length = 9 := h.boards s List.mem_cons_self
  have hboards : ∀ s' ∈ inbox ++ outbox, s'.board.length = 9 :=
    fun s' hs' => h.boards s' (List.mem_cons_of_mem _ hs')
  have hinbox : ∀ s' ∈ inbox, ∃ g, game = some g ∧ (s'.seq < g.seq ∨ s' = g) :=
    fun s' hs' => h.coming s' (List.mem_cons_of_mem _ hs')
  obtain ⟨g, hg, hkept⟩ := h.coming s List.mem_cons_self
  rcases TicTacToe.applyRemote_cases (t := t) hboard with ⟨hle, hsame⟩ | ⟨hlt, hnew⟩
  · -- the state is stale
    have hstate := hshown.resolve_right (Nat.not_lt.mpr hle)
    rw [hsame]
    refine ⟨h.board, hboards, hinbox, fun g' hg' => ?_, h.same, h.shown, h.going, h.busy⟩
    rcases h.latest g' hg' with hmem | hold
    · rcases List.mem_cons.mp hmem with rfl | hrest
      · exact .inr ⟨hstate, hle⟩
      · exact .inl hrest
    · exact .inr hold
  · have hle : s.seq ≤ g.seq := hkept.elim Nat.le_of_lt fun heq => by rw [heq]
    have hbelow : ∀ s' ∈ outbox, s'.seq < s.seq :=
      fun s' hs' => Nat.lt_of_le_of_lt (h.going s' hs').1 hlt
    rw [hnew]
    refine ⟨?_, hboards, hinbox, fun g' hg' => ?_, fun g' hg' _ hseq => ?_, fun _ => ?_,
      fun s' hs' => ?_, fun _ => rfl⟩
    · rintro s' ⟨⟩
      exact hboard
    · rcases h.latest g' hg' with hmem | hold
      · rcases List.mem_cons.mp hmem with rfl | hrest
        · exact .inr ⟨rfl, Nat.le_refl _⟩
        · exact .inl hrest
      · exact .inr ⟨rfl, hold.2.trans (Nat.le_of_lt hlt)⟩
    · left
      cases hg.symm.trans hg'
      rcases hkept with hold | rfl
      · exact absurd hseq (Nat.ne_of_lt hold)
      · rfl
    · exact .inl ⟨g, hg, hle⟩
    · have hlt' := hbelow s' hs'
      exact ⟨Nat.le_of_lt hlt', fun heq => absurd heq (Nat.ne_of_lt hlt')⟩

/-- A client with nothing on the way shows what is kept. -/
lemma state_eq (h : t.Follows game [] []) : t.state = game := by
  cases hgame : game with
  | none =>
    by_contra hne
    rcases h.shown (Option.isSome_iff_ne_none.mpr hne) with ⟨g, hg, -⟩ | ⟨s, hs, -⟩
    · cases hgame.symm.trans hg
    · cases hs
  | some g =>
    obtain ⟨hstate, hge⟩ := (h.latest g hgame).resolve_left List.not_mem_nil
    rcases h.shown hstate with ⟨g', hg', hle⟩ | ⟨s, hs, -⟩
    · cases hgame.symm.trans hg'
      refine (h.same g hgame hstate (Nat.le_antisymm hle hge)).resolve_right ?_
      simp
    · cases hs

end TicTacToe.Follows

/-! ## Runs -/

namespace GameRoom

variable {ι : Type*} [DecidableEq ι] {ids : ι → String} {nameOf : ι → String → String}
  {s t : GameRoom ι} {i : ι}

/-- Every member follows the server, and whoever is outside has nothing. -/
structure Inv (s : GameRoom ι) : Prop where
  board : ∀ g ∈ s.game, g.board.length = 9
  member : ∀ i ∈ s.members, (s.player i).Follows s.game (s.inbox i) (s.outbox i)
  outside : ∀ i, i ∉ s.members → (s.player i).state = none ∧ s.inbox i = [] ∧ s.outbox i = []

omit [DecidableEq ι] in
lemma inv_new : (new : GameRoom ι).Inv where
  board := by simp [new]
  member := by simp [new]
  outside _ _ := ⟨rfl, rfl, rfl⟩

lemma Inv.enter (h : s.Inv) (hi : i ∉ s.members) : (s.enter i).Inv := by
  refine ⟨h.board, fun j hj => ?_, fun j hj => ?_⟩
  · rw [GameRoom.enter]
    dsimp only
    by_cases hji : j = i
    · rw [hji, Function.update_self, (h.outside i hi).2.2]
      exact .enter (h.outside i hi).1 h.board
    · rw [Function.update_of_ne hji]
      refine h.member j ((List.mem_append.mp hj).resolve_right fun hlast => ?_)
      exact hji (List.mem_singleton.mp hlast)
  · have hmem : j ∉ s.members ∧ j ≠ i := by simpa [GameRoom.enter] using hj
    have hout := h.outside j hmem.1
    simpa [GameRoom.enter, hmem.2] using hout

lemma Inv.leave (h : s.Inv) : (s.leave i).Inv := by
  rw [GameRoom.leave]
  refine ⟨fun g hg => ?_, fun j hj => ?_, fun j hj => ?_⟩
  · dsimp only at hg
    split_ifs at hg
    · cases hg
    · exact h.board g hg
  · obtain ⟨hmem, hji⟩ := List.mem_filter.mp hj
    have hne : j ≠ i := of_decide_eq_true hji
    have hsome : s.members.filter (· ≠ i) ≠ [] := List.ne_nil_of_mem hj
    dsimp only
    rw [Function.update_of_ne hne, Function.update_of_ne hne, Function.update_of_ne hne,
      if_neg hsome]
    exact h.member j hmem
  · dsimp only at hj ⊢
    by_cases hji : j = i
    · simp [hji, TicTacToe.reset]
    · have hmem : j ∉ s.members := fun hmem => hj (List.mem_filter.mpr ⟨hmem, decide_eq_true hji⟩)
      simpa [hji] using h.outside j hmem

lemma Inv.broadcast (h : s.Inv) (hi : i ∈ s.members) {r : TicTacToe × GameState}
    (hr : (s.player i).Broadcasts r) : (s.broadcast i r).Inv := by
  refine ⟨h.board, fun j hj => ?_, fun j hj => ?_⟩
  · rw [GameRoom.broadcast]
    dsimp only
    by_cases hji : j = i
    · rw [hji, Function.update_self, Function.update_self]
      exact (h.member i hi).broadcast hr
    · rw [Function.update_of_ne hji, Function.update_of_ne hji]
      exact h.member j hj
  · have hji : j ≠ i := fun heq => hj (heq ▸ hi)
    simpa [GameRoom.broadcast, hji] using h.outside j hj

lemma Inv.relay (h : s.Inv) {state : GameState} {states : List GameState}
    (hout : s.outbox i = state :: states) (hnew : ∀ g, s.game = some g → g.seq < state.seq) :
    (s.relay i state states).Inv := by
  have hi : i ∈ s.members := by
    by_contra hi
    cases (h.outside i hi).2.2.symm.trans hout
  have hboard : state.board.length = 9 :=
    (h.member i hi).boards state (List.mem_append_right _ (hout ▸ List.mem_cons_self))
  refine ⟨?_, fun j hj => ?_, fun j hj => ?_⟩
  · rintro g ⟨⟩
    exact hboard
  · have hmem : j ∈ s.members := hj
    rw [GameRoom.relay]
    dsimp only
    by_cases hji : j = i
    · have hself := h.member i hi
      rw [hout] at hself
      simpa [hji] using hself.relay_self hnew
    · simpa [hji, hmem] using (h.member j hmem).relay_other hboard hnew
  · have hmem : j ∉ s.members := hj
    have hji : j ≠ i := fun heq => hmem (heq ▸ hi)
    simpa [GameRoom.relay, hmem, hji] using h.outside j hmem

/-- **One event** in order. -/
lemma Inv.step (h : s.Inv) {event : GameEvent ι} (hguard : s.inOrder event = true)
    (hstep : s.step ids nameOf event = some t) : t.Inv := by
  cases event with
  | enter i =>
    rw [GameRoom.step] at hstep
    split_ifs at hstep with hi
    cases hstep
    exact h.enter hi
  | leave i =>
    rw [GameRoom.step] at hstep
    split_ifs at hstep
    cases hstep
    exact h.leave
  | alone i =>
    rw [GameRoom.step] at hstep
    split_ifs at hstep
    cases hstep
    have hsame : (s.player i).reset = s.player i := by
      rw [TicTacToe.reset, ← Option.isNone_iff_eq_none.mp hguard]
    rw [hsame, Function.update_eq_self]
    exact h
  | cell i cell =>
    rw [GameRoom.step] at hstep
    split_ifs at hstep with hi
    obtain ⟨r, hr, rfl⟩ := Option.map_eq_some_iff.mp hstep
    exact h.broadcast hi (TicTacToe.broadcasts_onCell (h.member i hi).board hr)
  | action i participants =>
    rw [GameRoom.step] at hstep
    split_ifs at hstep with hi
    cases hstep
    exact h.broadcast hi (TicTacToe.broadcasts_onAction (h.member i hi).board)
  | relay i =>
    rw [GameRoom.step] at hstep
    split at hstep
    · cases hstep
    next state states hout =>
      cases hstep
      refine h.relay hout fun g hg => ?_
      simpa [inOrder, hout, hg] using hguard
  | deliver i =>
    rw [GameRoom.step] at hstep
    split at hstep
    · cases hstep
    next state states hin =>
      cases hstep
      have hi : i ∈ s.members := by
        by_contra hi
        cases (h.outside i hi).2.1.symm.trans hin
      have hself := h.member i hi
      rw [hin] at hself
      refine ⟨h.board, fun j hj => ?_, fun j hj => ?_⟩
      · dsimp only
        by_cases hji : j = i
        · rw [hji, Function.update_self, Function.update_self]
          exact hself.deliver (by simpa [inOrder, hin] using hguard)
        · rw [Function.update_of_ne hji, Function.update_of_ne hji]
          exact h.member j hj
      · have hji : j ≠ i := fun heq => hj (heq ▸ hi)
        simpa [hji] using h.outside j hj

/-- **The game converges**: in a run in which the states come in order, when all are delivered
every client in the room shows what the server keeps. -/
theorem inStep_of_run {events : List (GameEvent ι)}
    (h : Run (Guarded (ofPartial (step ids nameOf)) fun s event => s.inOrder event = true)
      (new : GameRoom ι) events s) (hdelivered : s.Delivered) : s.InStep := by
  have hinv : s.Inv := h.invariant Inv (fun _ _ _ _ hs hstep => hs.step hstep.1 hstep.2) inv_new
  intro i hi
  have hself := hinv.member i hi
  rw [(hdelivered i hi).1, (hdelivered i hi).2] at hself
  exact hself.state_eq

/-- The ids of three clients. -/
def sampleIds (i : Fin 3) : String := ["a", "b", "c"].getD i ""

/-- Two clients come, and one starts a game. -/
def firstGame : List (GameEvent (Fin 3)) :=
  [.enter 0, .enter 1, .action 0 ["a", "b"], .relay 0, .deliver 1]

/-- Two clients start a game at the same time; a client comes back to the game it left; and one that
stays alone drops it, before another comes. -/
theorem games_diverge :
    (∃ s, Run (ofPartial (step sampleIds fun _ => id)) new
        (firstGame ++ [.action 0 ["a", "b"], .action 1 ["b", "a"], .relay 0, .relay 1, .deliver 0,
          .deliver 1]) s ∧
      s.Delivered ∧ (s.player 0).state ≠ (s.player 1).state) ∧
    (∃ s, Run (ofPartial (step sampleIds fun _ => id)) new
        (firstGame ++ [.leave 1, .enter 1, .deliver 1]) s ∧
      s.Delivered ∧ (s.player 1).state = none ∧ s.game.isSome = true) ∧
    ∃ s, Run (ofPartial (step sampleIds fun _ => id)) new
        (firstGame ++ [.leave 1, .alone 0, .enter 2, .deliver 2]) s ∧
      s.Delivered ∧ (s.player 0).state = none ∧ s.game.isSome = true :=
  ⟨Run.exists_of_decide (by decide +kernel), Run.exists_of_decide (by decide +kernel),
    Run.exists_of_decide (by decide +kernel)⟩

/-- Three moves, with a spectator that comes after the first. -/
theorem inStep_sample : ∃ s,
    Run (Guarded (ofPartial (step sampleIds fun _ => id)) fun s event => s.inOrder event = true) new
      (firstGame ++ [.cell 0 4, .relay 0, .deliver 1, .enter 2, .cell 1 0, .deliver 2, .relay 1,
        .deliver 0, .deliver 2, .cell 0 8, .relay 0, .deliver 1, .deliver 2]) s ∧
    s.game.isSome = true ∧ s.InStep := by
  obtain ⟨s, hrun, hgame, hdelivered⟩ : ∃ s,
      Run (Guarded (ofPartial (step sampleIds fun _ => id)) fun s event => s.inOrder event = true)
        new
        (firstGame ++ [.cell 0 4, .relay 0, .deliver 1, .enter 2, .cell 1 0, .deliver 2, .relay 1,
          .deliver 0, .deliver 2, .cell 0 8, .relay 0, .deliver 1, .deliver 2]) s ∧
      s.game.isSome = true ∧ s.Delivered := Run.exists_guarded_of_decide (by decide +kernel)
  exact ⟨s, hrun, hgame, inStep_of_run hrun hdelivered⟩

end GameRoom

end VoxTranslate.Client
