import Mathlib.Data.Fintype.EquivFin
import Mathlib.Data.Rat.Defs
import VoxTranslate.Lib.Json
import VoxTranslate.Rooms.Ledger
import VoxTranslate.Rooms.Routing

/-!
# The lifetimes of a room

Beside its peers a room keeps a whiteboard and a game, and a session for the transcript.  All
three begin with the room and go with it: whoever comes to a room with nobody in it is to find
a new one.

`broadcast` drops the peers whose channel is closed and leaves the room standing, also when
that was everybody.  Whoever comes next is taken into the old room.
-/

namespace VoxTranslate.Rooms

open Lib

/-- Cap on the stored whiteboard operations of a room. -/
def maxWhiteboardOps : Nat := 4000

/-- An operation on the whiteboard. -/
inductive WhiteboardOp where
  | draw (id tool color : String) (width : ℚ) (points : List (ℚ × ℚ))
  | clear
  deriving DecidableEq

/-- What a room keeps beside its peers. -/
structure Board where
  whiteboard : List WhiteboardOp
  game : Option Json

namespace Board

def blank : Board := ⟨[], none⟩

/-- `Clear` wipes the whiteboard; anything drawn is appended, and the oldest go past the cap. -/
def apply (board : Board) : WhiteboardOp → Board
  | .clear => { board with whiteboard := [] }
  | op =>
    let whiteboard := board.whiteboard ++ [op]
    { board with whiteboard := whiteboard.drop (whiteboard.length - maxWhiteboardOps) }

/-- JSON `null` ends the game. -/
def setGame (board : Board) : Json → Board
  | .null => { board with game := none }
  | state => { board with game := some state }

end Board

/-- The registry with the whiteboards and the games.  The board of a name counts while a room
of that name stands. -/
structure Hall extends Ledger where
  boards : String → Board

namespace Hall

def start (clientDirectEngines : List String) : Hall where
  toLedger := .start clientDirectEngines
  boards := fun _ => .blank

def whiteboardSnapshot (s : Hall) (room : String) : List WhiteboardOp :=
  if (s.manager.getRoom room).isSome then (s.boards room).whiteboard else []

def gameSnapshot (s : Hall) (room : String) : Option Json :=
  if (s.manager.getRoom room).isSome then (s.boards room).game else none

/-- Hold the lock of a room that exists, and write on its board. -/
def writeBoard (s : Hall) (room : String) (f : Board → Board) : Hall :=
  if (s.manager.getRoom room).isSome then
    { s with boards := Function.update s.boards room (f (s.boards room)) }
  else s

def whiteboardApply (s : Hall) (room : String) (op : WhiteboardOp) : Hall :=
  s.writeBoard room fun board => board.apply op

def gameSet (s : Hall) (room : String) (state : Json) : Hall :=
  s.writeBoard room fun board => board.setGame state

/-- A join; the room it creates has a blank board. -/
def join (s : Hall) (room : String) (peer : Peer) (visibility : Visibility) (newSession : Uuid) :
    Option Hall :=
  (s.toLedger.join room peer visibility newSession).map fun ledger =>
    { toLedger := ledger
      boards := if (s.manager.getRoom room).isNone then Function.update s.boards room .blank
        else s.boards }

def settle (s : Hall) (manager : RoomManager) (ended : List Uuid) : Hall :=
  { s with toLedger := s.toLedger.settle manager ended }

/-- An operation on the registry, as a whole. -/
inductive Operation where
  | join (room : String) (peer : Peer) (visibility : Visibility) (newSession : Uuid)
  | remove (room id : String) (conn : Uuid)
  | broadcast (room : String)
  /-- One of the sends that prune nobody. -/
  | sendTo (room : String) (select : Peer → Bool)
  | prune
  | endOrphanedPhoneRoom (room : String) (sessionId : Uuid)
  | whiteboardApply (room : String) (op : WhiteboardOp)
  | gameSet (room : String) (state : Json)
  /-- A setter of one peer, or what its writer task does to its channel. -/
  | updatePeer (room id : String) (f : Peer → Peer) (hf : ∀ p, (f p).id = p.id)

/-- The step function; `none` where a session is generated a second time. -/
def step (s : Hall) : Operation → Option Hall
  | .join room peer visibility newSession => s.join room peer visibility newSession
  | .remove room id conn =>
    some (s.settle (s.manager.remove room id conn).1 (s.manager.remove room id conn).2.ended)
  | .broadcast room => some (s.settle (s.manager.broadcast room) [])
  | .sendTo room select => some (s.settle (s.manager.sendTo room select) [])
  | .prune => some (s.settle s.manager.prune.1 s.manager.prune.2)
  | .endOrphanedPhoneRoom room sessionId =>
    some (s.settle (s.manager.endOrphanedPhoneRoom room sessionId).1
      (s.manager.endOrphanedPhoneRoom room sessionId).2.toList)
  | .whiteboardApply room op => some (s.whiteboardApply room op)
  | .gameSet room state => some (s.gameSet room state)
  | .updatePeer room id f hf => some (s.settle (s.manager.updatePeer room id f hf) [])

/-- A room of this session stands with somebody in it. -/
def Peopled (s : Hall) (sessionId : Uuid) : Prop :=
  ∃ room r, s.manager.getRoom room = some r ∧ r.sessionId = sessionId ∧ r.peers ≠ []

/-- Whoever joins a room with nobody in it finds a new one, and a session is reported once its
room has nobody left in it, and once only. -/
structure Separated (s : Hall) : Prop where
  fresh : ∀ room peer visibility newSession t, s.manager.peersOf room = [] →
    s.step (.join room peer visibility newSession) = some t →
    ∃ joined, (s.manager.join room peer visibility newSession).2.2 = .ok joined ∧
      joined.created = true ∧ joined.sessionId ∉ s.sessions ∧
      t.whiteboardSnapshot room = [] ∧ t.gameSnapshot room = none
  logged : ∀ room r, s.manager.getRoom room = some r → r.sessionId ∈ s.sessions
  reported : ∀ sessionId ∈ s.sessions,
    (s.Peopled sessionId ∧ s.ended.count sessionId = 0) ∨
      (¬ s.Peopled sessionId ∧ s.ended.count sessionId = 1)

/-- A broadcast to a room finds somebody's channel open. -/
def reachesSomebody (s : Hall) : Operation → Bool
  | .broadcast room => (s.manager.getRoom room).all fun r => r.peers.any fun p => !p.tx.isClosed
  | _ => true

end Hall

/-! ## Rooms with somebody in them -/

namespace RoomManager

variable {m : RoomManager} {room : String}

/-- No room stands empty. -/
def Inhabited (m : RoomManager) : Prop := ∀ room r, m.getRoom room = some r → r.peers ≠ []

/-- No room but this one stands empty. -/
def InhabitedBut (room : String) (m : RoomManager) : Prop :=
  ∀ room' r, room' ≠ room → m.getRoom room' = some r → r.peers ≠ []

lemma Inhabited.but (h : m.Inhabited) : m.InhabitedBut room := fun room' r _ => h room' r

lemma InhabitedBut.alter {f : Option Room → Option Room} (h : m.InhabitedBut room)
    (hf : ∀ r, f (m.getRoom room) = some r → r.peers ≠ []) :
    Inhabited { m with rooms := m.rooms.alter room f } := by
  intro room' r hroom
  rw [getRoom_alter] at hroom
  split_ifs at hroom with heq
  · exact hf r hroom
  · exact h room' r heq hroom

lemma Inhabited.getMut {f : Room → Room} (h : m.Inhabited)
    (hf : ∀ r, m.getRoom room = some r → (f r).peers ≠ []) : (m.getMut room f).Inhabited := by
  refine h.but.alter fun r hr => ?_
  obtain ⟨r', hr', rfl⟩ := Option.map_eq_some_iff.mp hr
  exact hf r' hr'

lemma Inhabited.mapPeers {f : Peer → Peer} (h : m.Inhabited) (hf : ∀ p, (f p).id = p.id) :
    (m.getMut room (Room.mapPeers f hf)).Inhabited := by
  refine h.getMut fun r hr => ?_
  simpa [Room.mapPeers] using h room r hr

lemma Inhabited.removeIf (h : m.Inhabited) (condition : Room → Bool) :
    (m.removeIf room condition).1.Inhabited := by
  rw [RoomManager.removeIf]
  split
  · split_ifs
    · exact h.but.alter fun r hr => by cases hr
    · exact h
  · exact h

lemma InhabitedBut.dropIfEmpty (h : m.InhabitedBut room) : (m.dropIfEmpty room).1.Inhabited := by
  rw [RoomManager.dropIfEmpty, RoomManager.removeIf]
  cases hroom : m.getRoom room with
  | none =>
    intro room' r hr
    by_cases heq : room' = room
    · subst heq
      rw [hroom] at hr
      cases hr
    · exact h room' r heq hr
  | some r =>
    dsimp only
    split_ifs with hempty
    · exact h.alter fun r' hr' => by cases hr'
    · intro room' r' hr'
      by_cases heq : room' = room
      · subst heq
        cases hroom.symm.trans hr'
        simpa using hempty
      · exact h room' r' heq hr'

lemma Inhabited.remove (h : m.Inhabited) (id : String) (conn : Uuid) :
    (m.remove room id conn).1.Inhabited := by
  rw [RoomManager.remove, detach]
  cases hroom : m.getRoom room with
  | none => exact h
  | some r =>
    have hbut : (m.getMut room fun _ => r.without id conn).InhabitedBut room := by
      intro room' r' heq hr'
      rw [getRoom_getMut, if_neg heq] at hr'
      exact h room' r' hr'
    dsimp only
    by_cases hremoved : (r.without id conn).peers.length ≠ r.peers.length
    · by_cases hphones : (r.without id conn).peers ≠ [] ∧ (r.without id conn).allPhones = true
      · rw [if_pos hremoved, if_pos ⟨hremoved, hphones⟩]
        exact h.getMut fun _ _ => hphones.1
      · rw [if_pos hremoved, if_neg fun hall => hphones hall.2]
        exact hbut.dropIfEmpty
    · rw [if_neg hremoved]
      refine h.getMut fun _ _ hnil => h room r hroom ?_
      rw [← List.length_eq_zero_iff, ← not_ne_iff.mp hremoved, hnil]
      rfl

lemma Inhabited.join (h : m.Inhabited) (peer : Peer) (visibility : Visibility)
    (newSession : Uuid) : (m.join room peer visibility newSession).1.Inhabited := by
  obtain ⟨r, -, hpeers, hjoin⟩ := m.join_fst room peer visibility newSession
  rw [hjoin]
  refine h.but.alter fun r' hr' => ?_
  cases hr'
  exact hpeers

lemma inhabited_prune : m.prune.1.Inhabited := by
  intro room r hr
  have hroom : m.prune.1.getRoom room = (m.getRoom room).bind pruneRoom :=
    Assoc.lookup_mapEntries _ _ _
  rw [hroom, Option.bind_eq_some_iff] at hr
  obtain ⟨r', -, hr'⟩ := hr
  simp only [pruneRoom] at hr'
  split_ifs at hr' with hempty
  cases hr'
  simpa using hempty

/-- A broadcast that finds somebody's channel open leaves somebody. -/
lemma peers_broadcast_ne_nil {r : Room} :
    r.broadcast.peers ≠ [] ↔ (r.peers.any fun p => !p.tx.isClosed) = true := by
  simp only [Room.broadcast, Room.mapPeers, Room.retain, ne_eq, List.map_eq_nil_iff,
    List.filter_eq_nil_iff, PeerTx.send_snd, List.any_eq_true]
  push Not
  rfl

/-- Where there is no room, a join succeeds. -/
lemma join_new (peer : Peer) (visibility : Visibility) (newSession : Uuid)
    (h : m.getRoom room = none) :
    ∃ joined, (m.join room peer visibility newSession).2.2 = .ok joined := by
  have hcap : (((m.getRoom room).getD (.empty visibility newSession)).evict peer.id).peers.length
      < maxPeers := by
    rw [h]
    exact Nat.zero_lt_succ 3
  rw [RoomManager.join]
  simp only [dif_pos hcap]
  exact ⟨_, rfl⟩

/-- What a joiner is told of the room. -/
lemma join_created {joined : Joined} {peer : Peer} {visibility : Visibility} {newSession : Uuid}
    (h : (m.join room peer visibility newSession).2.2 = .ok joined) :
    joined.created = (m.getRoom room).isNone ∧
      joined.sessionId = ((m.getRoom room).getD (.empty visibility newSession)).sessionId := by
  rw [RoomManager.join] at h
  dsimp only at h
  split_ifs at h
  cases h
  exact ⟨rfl, rfl⟩

end RoomManager

/-! ## The run -/

namespace Hall

variable {s t : Hall} {op : Operation} {ops : List Operation} {engines : List String}

/-- The ledger is balanced, and no room stands empty. -/
structure Kept (s : Hall) : Prop where
  balanced : s.Balanced
  inhabited : s.manager.Inhabited

lemma start_kept (engines : List String) : (start engines).Kept where
  balanced := Ledger.start_balanced engines
  inhabited := by
    intro room r hroom
    cases hroom

lemma Kept.settle {manager : RoomManager} {ended : List Uuid} (h : s.Kept)
    (hsettles : s.manager.Settles manager ended) (hinhabited : manager.Inhabited) :
    (s.settle manager ended).Kept :=
  ⟨h.balanced.settle hsettles, hinhabited⟩

lemma Kept.writeBoard (h : s.Kept) (room : String) (f : Board → Board) :
    (s.writeBoard room f).Kept := by
  rw [Hall.writeBoard]
  split_ifs
  · exact ⟨h.balanced, h.inhabited⟩
  · exact h

lemma Kept.step (h : s.Kept) (hguard : s.reachesSomebody op = true) (hstep : s.step op = some t) :
    t.Kept := by
  cases op with
  | join room peer visibility newSession =>
    obtain ⟨ledger, hledger, rfl⟩ := Option.map_eq_some_iff.mp hstep
    obtain ⟨-, -, -, hmanager⟩ := Ledger.join_cases hledger
    refine ⟨h.balanced.join hledger, ?_⟩
    rw [hmanager]
    exact h.inhabited.join peer visibility newSession
  | remove room id conn =>
    cases hstep
    exact h.settle (RoomManager.settles_remove id conn) (h.inhabited.remove id conn)
  | broadcast room =>
    cases hstep
    refine h.settle RoomManager.settles_broadcast (h.inhabited.getMut fun r hr => ?_)
    simp only [reachesSomebody, hr, Option.all_some] at hguard
    exact RoomManager.peers_broadcast_ne_nil.mpr hguard
  | sendTo room select =>
    cases hstep
    exact h.settle (RoomManager.settles_sendTo select)
      (h.inhabited.mapPeers (Peer.pushedIf_id select))
  | prune =>
    cases hstep
    exact h.settle RoomManager.settles_prune RoomManager.inhabited_prune
  | endOrphanedPhoneRoom room sessionId =>
    cases hstep
    exact h.settle (s.manager.settles_endOrphanedPhoneRoom _ _) (h.inhabited.removeIf _)
  | whiteboardApply room op =>
    cases hstep
    exact h.writeBoard room _
  | gameSet room state =>
    cases hstep
    exact h.writeBoard room _
  | updatePeer room id f hf =>
    cases hstep
    exact h.settle (RoomManager.settles_updatePeer hf)
      (h.inhabited.mapPeers (Peer.editedIf_id id hf))

/-- Where no room stands empty, a room with nobody in it is none. -/
lemma Kept.getRoom_eq_none {room : String} (h : s.Kept) (hempty : s.manager.peersOf room = []) :
    s.manager.getRoom room = none := by
  cases hroom : s.manager.getRoom room with
  | none => rfl
  | some r =>
    rw [RoomManager.peersOf_of_getRoom hroom] at hempty
    exact absurd hempty (h.inhabited room r hroom)

lemma Kept.separated (h : s.Kept) : s.Separated where
  fresh room peer visibility newSession t hempty hstep := by
    have hnone := h.getRoom_eq_none hempty
    obtain ⟨ledger, hledger, rfl⟩ := Option.map_eq_some_iff.mp hstep
    have hnew := (Ledger.join_cases hledger).1
    obtain ⟨joined, hjoined⟩ := RoomManager.join_new peer visibility newSession hnone
    obtain ⟨hcreated, hsession⟩ := RoomManager.join_created hjoined
    rw [hnone] at hcreated hsession
    refine ⟨joined, hjoined, hcreated, ?_, ?_, ?_⟩
    · rw [hsession]
      exact hnew
    · simp [whiteboardSnapshot, hnone, Board.blank]
    · simp [gameSnapshot, hnone, Board.blank]
  logged room r hroom :=
    h.balanced.mem_sessions.mpr (.inr (RoomManager.mem_sessionIds.mpr ⟨room, r, hroom, rfl⟩))
  reported sessionId hsession := by
    rcases h.balanced.mem_sessions.mp hsession with hended | hstands
    · refine .inr ⟨?_, List.count_eq_one_of_mem h.balanced.nodup_ended hended⟩
      rintro ⟨room, r, hroom, heq, -⟩
      exact h.balanced.ne_of_ended hended hroom heq
    · obtain ⟨room, r, hroom, heq⟩ := RoomManager.mem_sessionIds.mp hstands
      refine .inl ⟨⟨room, r, hroom, heq, h.inhabited room r hroom⟩, ?_⟩
      exact List.count_eq_zero.mpr fun hended => h.balanced.ne_of_ended hended hroom heq

/-- After a broadcast that reaches nobody, whoever joins is taken into the old room. -/
lemma not_separated (hguard : s.reachesSomebody op = false) (hstep : s.step op = some t) :
    ¬ t.Separated := by
  cases op with
  | broadcast room =>
    cases hstep
    simp only [reachesSomebody] at hguard
    cases hroom : s.manager.getRoom room with
    | none =>
      rw [hroom] at hguard
      cases hguard
    | some r =>
      rw [hroom, Option.all_some] at hguard
      have hgone : (s.manager.broadcast room).getRoom room = some r.broadcast := by
        rw [RoomManager.broadcast, RoomManager.getRoom_getMut, if_pos rfl, hroom, Option.map_some]
      have hempty : (s.manager.broadcast room).peersOf room = [] := by
        rw [RoomManager.peersOf_of_getRoom hgone]
        by_contra hne
        rw [RoomManager.peers_broadcast_ne_nil.mp hne] at hguard
        cases hguard
      obtain ⟨newSession, hnew⟩ := Infinite.exists_notMem_finset s.sessions.toFinset
      rw [List.mem_toFinset] at hnew
      intro hseparated
      obtain ⟨joined, hjoined, hcreated, -⟩ :=
        hseparated.fresh room (RoomManager.guest "x" 0 "en") .private newSession _ hempty
          (Option.map_eq_some_iff.mpr ⟨_, if_neg hnew, rfl⟩)
      have hnone := (RoomManager.join_created hjoined).1
      rw [show (s.settle (s.manager.broadcast room) []).manager.getRoom room = some r.broadcast
        from hgone, hcreated] at hnone
      cases hnone
  | _ => cases hguard

/-- The lifetimes of the rooms are separated in every state of a run exactly when every broadcast
to a room finds somebody's channel open. -/
theorem lifetimes_separated_iff (hrun : Run (ofPartial step) (start engines) ops s) :
    Run (Guarded (ofPartial step) fun s op => s.reachesSomebody op = true) (start engines) ops s ↔
      ∀ pre t, pre <+: ops → Run (ofPartial step) (start engines) pre t → t.Separated :=
  Run.guarded_iff_prefixes (fun _ _ _ h hguard hstep => h.step hguard hstep)
    (fun _ h => h.separated) (fun _ _ _ _ => not_separated) hrun (start_kept engines)

/-- The socket of a peer dies. -/
def loseReceiver (p : Peer) : Peer := { p with tx := { p.tx with receiverGone := true } }

lemma loseReceiver_id (p : Peer) : (loseReceiver p).id = p.id := rfl

def Operation.receiverGone (room id : String) : Operation :=
  .updatePeer room id loseReceiver loseReceiver_id

/-- Two lifetimes of one room, each with its own session. -/
theorem lifetimes_separated_sample : ∃ ops s, Run (ofPartial step) (start []) ops s ∧
    (∀ pre t, pre <+: ops → Run (ofPartial step) (start []) pre t → t.Separated) ∧
    s.sessions = [20, 10] ∧ s.ended = [10] ∧ s.whiteboardSnapshot "r" = [] := by
  let ops : List Operation :=
    [.join "r" (RoomManager.guest "a" 1 "it") .private 10,
      .join "r" (RoomManager.guest "b" 2 "en") .private 11,
      .whiteboardApply "r" (.draw "d" "pen" "#000" 2 [(0, 1)]), .gameSet "r" (.int 1),
      .receiverGone "r" "a", .broadcast "r", .remove "r" "a" 1, .remove "r" "b" 2,
      .join "r" (RoomManager.guest "c" 3 "fr") .private 20]
  obtain ⟨s, hguarded, hsample⟩ : ∃ s,
      Run (Guarded (ofPartial step) fun s op => s.reachesSomebody op = true) (start []) ops s ∧
      (s.sessions = [20, 10] ∧ s.ended = [10] ∧ s.whiteboardSnapshot "r" = []) :=
    Run.exists_guarded_of_decide (by decide +kernel)
  have hrun := hguarded.ofGuarded
  exact ⟨ops, s, hrun, (lifetimes_separated_iff hrun).mp hguarded, hsample⟩

/-- The only peer's socket dies and a broadcast meets it, its removal is taken for a reconnect,
and the next peer is taken into the old room: an old session, an old drawing and an old game.
Two lifetimes end, and one is reported. -/
theorem broadcast_leaves_old_room : ∃ ops before s t,
    Run (ofPartial step) (start []) ops before ∧
    before.manager.peersOf "r" = [] ∧ before.sessions = [10] ∧ before.ended = [] ∧
    (before.manager.join "r" (RoomManager.guest "b" 2 "en") .private 20).2.2.toOption =
      some { sessionId := 10, existing := [], «public» := false, created := false } ∧
    before.step (.join "r" (RoomManager.guest "b" 2 "en") .private 20) = some s ∧
    s.whiteboardSnapshot "r" = [.draw "d" "pen" "#000" 2 [(0, 1)]] ∧
    (s.gameSnapshot "r").isSome = true ∧
    s.step (.remove "r" "b" 2) = some t ∧ t.manager.peersOf "r" = [] ∧ t.ended = [10] ∧
    ¬ before.Separated := by
  let ops : List Operation :=
    [.join "r" (RoomManager.guest "a" 1 "it") .private 10,
      .whiteboardApply "r" (.draw "d" "pen" "#000" 2 [(0, 1)]), .gameSet "r" (.int 1),
      .receiverGone "r" "a", .broadcast "r", .remove "r" "a" 1]
  obtain ⟨before, hrun, hempty, hsessions, hended, hjoined, hjoin⟩ : ∃ before,
      Run (ofPartial step) (start []) ops before ∧
      before.manager.peersOf "r" = [] ∧ before.sessions = [10] ∧ before.ended = [] ∧
      (before.manager.join "r" (RoomManager.guest "b" 2 "en") .private 20).2.2.toOption =
        some { sessionId := 10, existing := [], «public» := false, created := false } ∧
      (before.step (.join "r" (RoomManager.guest "b" 2 "en") .private 20)).any (fun s =>
        s.whiteboardSnapshot "r" = [.draw "d" "pen" "#000" 2 [(0, 1)]] ∧
        (s.gameSnapshot "r").isSome = true ∧
        (s.step (.remove "r" "b" 2)).any fun t =>
          t.manager.peersOf "r" = [] ∧ t.ended = [10]) = true :=
    Run.exists_of_decide (by decide +kernel)
  obtain ⟨s, hs, hsample⟩ := (Option.any_eq_true _ _).mp hjoin
  obtain ⟨hboard, hgame, hremove⟩ := of_decide_eq_true hsample
  obtain ⟨t, ht, hgone⟩ := (Option.any_eq_true _ _).mp hremove
  obtain ⟨hempty', hended'⟩ := of_decide_eq_true hgone
  refine ⟨ops, before, s, t, hrun, hempty, hsessions, hended, hjoined, hs, hboard, hgame, ht,
    hempty', hended', fun hseparated => ?_⟩
  obtain ⟨joined, hok, hcreated, -⟩ := hseparated.fresh _ _ _ _ _ hempty hs
  rw [hok] at hjoined
  cases hjoined
  cases hcreated

end Hall

end VoxTranslate.Rooms
