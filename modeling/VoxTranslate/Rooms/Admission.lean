import VoxTranslate.Rooms.Departure
import VoxTranslate.Rooms.Routing

/-!
# Admission to a room

The visibility of a room is only known once it has been joined, so a guest who may not enter
is taken in first and removed again.  Joining evicts the connections of the same identifier
before anything else is looked at, and the removal does not bring them back.
-/

namespace VoxTranslate.Rooms

/-- What the handler of a connection makes of an attempt to join. -/
inductive Admission where
  | admitted (joined : Joined)
  | roomFull
  /-- `ServerMessage::Error`, after which the connection is closed. -/
  | error (message : String) (code : Option String)
  deriving DecidableEq

/-- The answer to a guest at a public room. -/
def Admission.loginRequired : Admission :=
  .error "sign in to use public rooms" (some "login_required")

def Admission.refused : Admission → Bool
  | .admitted _ => false
  | .roomFull | .error _ _ => true

namespace RoomManager

/-- The admission gate of `handle_peer`: with the registry and the answer, the connections that
were told to tear down. -/
def enter (m : RoomManager) (room : String) (peer : Peer) (visibility : Visibility)
    (newSession : Uuid) (hasPool : Bool) : RoomManager × List Uuid × Admission :=
  match m.join room peer visibility newSession with
  | (m', closed, .error ()) => (m', closed, .roomFull)
  | (m', closed, .ok joined) =>
    -- the canonical visibility decides, never the one the client asked for
    if joined.public && peer.userId.isNone && hasPool then
      ((m'.remove room peer.id peer.conn).1, closed, .loginRequired)
    else (m', closed, .admitted joined)

/-- Who is in the room: the identifier and the connection of every peer. -/
def seats (m : RoomManager) (room : String) : List (String × Uuid) :=
  (m.peersOf room).map fun p => (p.id, p.conn)

/-- A guest knocks at a public room under the identifier of somebody who is in it. -/
def Displaces (m : RoomManager) (room : String) (peer : Peer) (hasPool : Bool) : Prop :=
  hasPool = true ∧ peer.userId = none ∧
    ∃ r, m.getRoom room = some r ∧ r.visibility = .public ∧ ∃ p ∈ r.peers, p.id = peer.id

section

variable {m : RoomManager} {room : String} {peer : Peer} {visibility : Visibility}
  {newSession : Uuid} {hasPool : Bool}

/-! ## What a removal leaves -/

/-- The room a joiner meets holds those who are there. -/
lemma peers_getD (m : RoomManager) (room : String) (visibility : Visibility) (newSession : Uuid) :
    ((m.getRoom room).getD (.empty visibility newSession)).peers = m.peersOf room := by
  cases hroom : m.getRoom room with
  | none => simp [peersOf, hroom, Room.empty]
  | some r => simp [peersOf, hroom]

lemma peersOf_alter (f : Option Room → Option Room) :
    peersOf { m with rooms := m.rooms.alter room f } room =
      ((f (m.getRoom room)).map Room.peers).getD [] := by
  rw [peersOf, getRoom, Lib.Assoc.lookup_alter_self, getRoom]

lemma peersOf_dropIfEmpty : (m.dropIfEmpty room).1.peersOf room = m.peersOf room := by
  rw [dropIfEmpty, removeIf]
  split
  · next r hroom =>
    split_ifs with hempty
    · rw [List.isEmpty_iff] at hempty
      rw [peersOf_alter, peersOf_of_getRoom hroom, hempty]
      rfl
    · rfl
  · rfl

/-- **A removal takes out the entry of the connection** and leaves the others where they are. -/
lemma peersOf_remove (id : String) (conn : Uuid) :
    (m.remove room id conn).1.peersOf room = (m.peersOf room).filter fun p => !p.isConn id conn := by
  have hdetach : (m.detach room id conn).1.peersOf room =
      (m.peersOf room).filter fun p => !p.isConn id conn := by
    rw [detach]
    split
    · next r hroom =>
      show (m.getMut room _).peersOf room = _
      rw [getMut, peersOf_alter, hroom, peersOf_of_getRoom hroom]
      rfl
    · next hroom => simp [peersOf, hroom]
  rw [remove]
  split
  · next m' h => rw [← hdetach, h]
  · next m' _ h => rw [← hdetach, h]
  · next m' h =>
    show (m'.dropIfEmpty room).1.peersOf room = _
    rw [peersOf_dropIfEmpty, ← hdetach, h]

/-! ## What joining does to those who are there -/

/-- The peers a joiner finds once their own identifier was cleared. -/
def others (m : RoomManager) (room : String) (peer : Peer) : List Peer :=
  (m.peersOf room).filter fun p => p.id ≠ peer.id

lemma peers_evict :
    (((m.getRoom room).getD (.empty visibility newSession)).evict peer.id).peers =
      m.others room peer := by
  show ((m.getRoom room).getD _).peers.filter _ = _
  rw [peers_getD, others]

/-- Who is in the room after a join, and who was told to close. -/
lemma join_spec (m : RoomManager) (room : String) (peer : Peer) (visibility : Visibility)
    (newSession : Uuid) :
    (m.join room peer visibility newSession).1.peersOf room =
      (if (m.others room peer).length < maxPeers then m.others room peer ++ [peer]
        else m.others room peer) ∧
    (m.join room peer visibility newSession).2.1 =
      ((m.peersOf room).filter fun p => p.id = peer.id).map Peer.conn := by
  simp only [join, peers_evict, peers_getD]
  split_ifs with hroom
  · refine ⟨?_, rfl⟩
    rw [peersOf_alter, Option.map_some, Option.getD_some]
    show (Room.evict _ _).peers ++ [peer] = _
    rw [peers_evict]
  · refine ⟨?_, rfl⟩
    rw [peersOf_alter, Option.map_some, Option.getD_some, peers_evict]

/-- What became of the attempt. -/
lemma join_outcome (m : RoomManager) (room : String) (peer : Peer) (visibility : Visibility)
    (newSession : Uuid) :
    (m.join room peer visibility newSession).2.2.toOption.map Joined.public =
      if (m.others room peer).length < maxPeers then
        some (decide (((m.getRoom room).getD (.empty visibility newSession)).visibility = .public))
      else none := by
  simp only [join, peers_evict]
  split_ifs <;> rfl

/-- The gate refuses when the room is full, and a guest of a public room. -/
lemma refused_enter :
    (m.enter room peer visibility newSession hasPool).2.2.refused = true ↔
      maxPeers ≤ (m.others room peer).length ∨
      (((m.getRoom room).getD (.empty visibility newSession)).visibility = .public ∧
        peer.userId = none ∧ hasPool = true) := by
  have houtcome := join_outcome m room peer visibility newSession
  rw [enter]
  split
  · next m' closed h =>
    rw [h] at houtcome
    refine iff_of_true rfl (.inl ?_)
    by_contra hlt
    rw [if_pos (not_le.mp hlt)] at houtcome
    cases houtcome
  · next m' closed joined h =>
    rw [h] at houtcome
    have hlt : (m.others room peer).length < maxPeers := by
      by_contra hfull
      rw [if_neg hfull] at houtcome
      cases houtcome
    rw [if_pos hlt] at houtcome
    have hpublic : joined.public =
        decide (((m.getRoom room).getD (.empty visibility newSession)).visibility = .public) := by
      simpa [Except.toOption] using houtcome
    rw [hpublic]
    split_ifs with hguest
    · simp only [Bool.and_eq_true, decide_eq_true_eq, Option.isNone_iff_eq_none] at hguest
      exact iff_of_true rfl (.inr ⟨hguest.1.1, hguest.1.2, hguest.2⟩)
    · refine iff_of_false (by simp [Admission.refused]) ?_
      rintro (hfull | ⟨hp, huser, hpool⟩)
      · exact absurd hlt (not_lt.mpr hfull)
      · simp [hp, huser, hpool] at hguest

lemma closed_enter :
    (m.enter room peer visibility newSession hasPool).2.1 =
      ((m.peersOf room).filter fun p => p.id = peer.id).map Peer.conn := by
  rw [← (join_spec m room peer visibility newSession).2, enter]
  split
  · next h => rw [h]
  · next h =>
    rw [h]
    split_ifs <;> rfl

/-- A refused attempt leaves the others where they are. -/
lemma peersOf_enter
    (hrefused : (m.enter room peer visibility newSession hasPool).2.2.refused = true) :
    (m.enter room peer visibility newSession hasPool).1.peersOf room = m.others room peer := by
  have hjoin := (join_spec m room peer visibility newSession).1
  have houtcome := join_outcome m room peer visibility newSession
  rw [enter] at hrefused ⊢
  split at hrefused
  · next m' closed h =>
    rw [h] at hjoin houtcome
    split_ifs at hjoin houtcome with hlt
    · cases houtcome
    · exact hjoin
  · next m' closed joined h =>
    rw [h] at hjoin houtcome
    have hlt : (m.others room peer).length < maxPeers := by
      by_contra hfull
      rw [if_neg hfull] at houtcome
      cases houtcome
    rw [if_pos hlt] at hjoin
    split_ifs at hrefused with hguest
    · -- joined and removed again: the only entry of the connection is the joiner's own
      rw [if_pos hguest]
      show (m'.remove room peer.id peer.conn).1.peersOf room = _
      rw [peersOf_remove, hjoin, List.filter_append, List.filter_eq_self.mpr]
      · simp [Peer.isConn]
      · intro p hp
        have hid : p.id ≠ peer.id := by simpa using (List.mem_filter.mp hp).2
        simp [Peer.isConn, hid]
    · cases hrefused

/-- A room where the joiner's identifier is taken has a seat for the joiner. -/
lemma others_length_lt (h : ∃ p ∈ m.peersOf room, p.id = peer.id) :
    (m.others room peer).length < maxPeers := by
  have hcap : (m.peersOf room).length ≤ maxPeers := by
    rw [← peers_getD m room .public 0]
    exact Room.capacity _
  refine lt_of_lt_of_le ?_ hcap
  rw [others, List.length_filter_lt_length_iff_exists]
  obtain ⟨p, hp, hid⟩ := h
  exact ⟨p, hp, by simpa using hid⟩

/-- **When a refused attempt leaves the room as it was**: nobody is unseated and no connection
is told to close, exactly when the guest does not come under an identifier of the room. -/
theorem refusal_keeps_room_iff (m : RoomManager) (room : String) (peer : Peer)
    (visibility : Visibility) (newSession : Uuid) (hasPool : Bool) :
    ((m.enter room peer visibility newSession hasPool).2.2.refused = true →
      (m.enter room peer visibility newSession hasPool).1.seats room = m.seats room ∧
      (m.enter room peer visibility newSession hasPool).2.1 = []) ↔
    ¬ m.Displaces room peer hasPool := by
  rw [closed_enter, refused_enter]
  by_cases hfree : ∀ p ∈ m.peersOf room, p.id ≠ peer.id
  · refine iff_of_true (fun hrefused => ⟨?_, ?_⟩) ?_
    · rw [seats, peersOf_enter (refused_enter.mpr hrefused), seats, others,
        List.filter_eq_self.mpr fun p hp => decide_eq_true (hfree p hp)]
    · rw [List.map_eq_nil_iff, List.filter_eq_nil_iff]
      intro p hp
      simpa using hfree p hp
    · rintro ⟨-, -, r, hroom, -, p, hp, hid⟩
      exact hfree p (peersOf_of_getRoom hroom ▸ hp) hid
  · push Not at hfree
    obtain ⟨p, hp, hid⟩ := hfree
    have hroom : ∃ r, m.getRoom room = some r := by
      rw [← Option.isSome_iff_exists]
      by_contra hnone
      rw [Option.not_isSome_iff_eq_none] at hnone
      simp [peersOf, hnone] at hp
    obtain ⟨r, hroom⟩ := hroom
    have hclosed : ((m.peersOf room).filter fun p => p.id = peer.id).map Peer.conn ≠ [] :=
      List.ne_nil_of_mem (List.mem_map_of_mem (List.mem_filter.mpr ⟨hp, decide_eq_true hid⟩))
    have hlt := others_length_lt ⟨p, hp, hid⟩
    rw [hroom, Option.getD_some]
    constructor
    · rintro hkept ⟨hpool, huser, r', hr', hpublic, -⟩
      cases hroom.symm.trans hr'
      exact hclosed (hkept (.inr ⟨hpublic, huser, hpool⟩)).2
    · rintro hdisplaces (hfull | ⟨hpublic, huser, hpool⟩)
      · exact absurd hlt (not_lt.mpr hfull)
      · exact absurd ⟨hpool, huser, r, hroom, hpublic, p, peersOf_of_getRoom hroom ▸ hp, hid⟩ hdisplaces

end

/-- A signed-in peer sits alone in a public room. -/
def publicRoom : RoomManager :=
  (RoomManager.mk ∅ []).join "r"
    { guest "x" 1 "en" with userId := some 7 } .public 100 |>.1

/-- A guest who borrows the identifier is turned away, and the signed-in peer goes with them. -/
theorem refusal_unseats :
    (publicRoom.enter "r" (guest "x" 2 "en") .private 200 true).2.2 = .loginRequired ∧
    publicRoom.seats "r" = [("x", 1)] ∧
    (publicRoom.enter "r" (guest "x" 2 "en") .private 200 true).1.seats "r" = [] ∧
    (publicRoom.enter "r" (guest "x" 2 "en") .private 200 true).2.1 = [1] := by
  decide +kernel

end RoomManager

end VoxTranslate.Rooms
