import VoxTranslate.Rooms.Departure

/-!
# The sessions of the rooms

A room is created with a session, keeps it, and is dropped by one of three operations, which
report it: the second half of `remove`, the teardown of an orphaned telephone room, and `prune`.
So what was reported and what still stands is at any time what was ever given out.
-/

namespace VoxTranslate.Rooms

open Lib

/-- The session a removal ended. -/
def LeaveOutcome.ended : LeaveOutcome → List Uuid
  | .left ended => ended.toList
  | .leftPhoneOnly _ | .superseded => []

namespace RoomManager

/-- The sessions of the rooms that stand. -/
def sessionIds (m : RoomManager) : List Uuid := (Assoc.values m.rooms).map Room.sessionId

/-- The operation reports the sessions of the rooms it drops, and leaves the others. -/
def Settles (m m' : RoomManager) (ended : List Uuid) : Prop :=
  (ended ++ m'.sessionIds).Perm m.sessionIds

variable {m m' m'' : RoomManager} {room : String} {sessionId : Uuid}

lemma getRoom_alter (room' : String) (f : Option Room → Option Room) :
    RoomManager.getRoom { m with rooms := m.rooms.alter room f } room' =
      if room' = room then f (m.getRoom room) else m.getRoom room' := by
  split_ifs with h
  · subst h
    exact Assoc.lookup_alter_self _ _ _
  · exact Assoc.lookup_alter_of_ne h _ _

lemma mem_sessionIds :
    sessionId ∈ m.sessionIds ↔ ∃ room r, m.getRoom room = some r ∧ r.sessionId = sessionId := by
  simp only [sessionIds, List.mem_map, Assoc.mem_values]
  constructor
  · rintro ⟨r, ⟨room, hroom⟩, hsession⟩
    exact ⟨room, r, hroom, hsession⟩
  · rintro ⟨room, r, hroom, hsession⟩
    exact ⟨r, ⟨room, hroom⟩, hsession⟩

lemma settles_self (m : RoomManager) : Settles m m [] := List.Perm.refl _

lemma Settles.trans {ended ended' : List Uuid} (h : Settles m m' ended)
    (h' : Settles m' m'' ended') : Settles m m'' (ended ++ ended') := by
  rw [Settles, List.append_assoc]
  exact (h'.append_left ended).trans h

/-- One entry is written, and its session reported if the room is dropped. -/
lemma settles_alter {f : Option Room → Option Room} {ended : List Uuid}
    (h : ended ++ (f (m.getRoom room)).toList.map Room.sessionId =
      (m.getRoom room).toList.map Room.sessionId) :
    Settles m { m with rooms := m.rooms.alter room f } ended := by
  have hperm := (Assoc.values_perm m.rooms room).map Room.sessionId
  rw [List.map_append] at hperm
  rw [Settles, sessionIds, Assoc.values_alter, List.map_append, ← List.append_assoc]
  refine List.Perm.trans ?_ hperm.symm
  rw [getRoom] at h
  rw [h]

lemma settles_getMut {f : Room → Room} (hf : ∀ r, (f r).sessionId = r.sessionId) :
    Settles m (m.getMut room f) [] := by
  refine settles_alter ?_
  cases m.getRoom room with
  | none => rfl
  | some r => simp [hf]

lemma settles_removeIf (condition : Room → Bool) :
    Settles m (m.removeIf room condition).1 (m.removeIf room condition).2.toList := by
  rw [removeIf]
  split
  · next r hroom =>
    split_ifs
    · exact settles_alter (by rw [hroom]; rfl)
    · exact settles_self m
  · exact settles_self m

lemma settles_prune : Settles m m.prune.1 m.prune.2 := by
  have hended : m.prune.2 = ((Assoc.values m.rooms).filter fun r => (pruneRoom r).isNone).map
      Room.sessionId := by
    rw [prune, Assoc.values, List.filter_map, List.map_map, ← List.filterMap_eq_map,
      List.filterMap_filter]
    rfl
  have hstand : m.prune.1.sessionIds =
      ((Assoc.values m.rooms).filter fun r => !(pruneRoom r).isNone).map Room.sessionId := by
    have hvalues : Assoc.values m.prune.1.rooms = (Assoc.values m.rooms).filterMap pruneRoom :=
      Assoc.values_mapEntries _ _
    rw [sessionIds, hvalues, List.map_filterMap, ← List.filterMap_eq_map, List.filterMap_filter]
    congr 1
    funext r
    cases h : pruneRoom r with
    | none => rfl
    | some r' =>
      simp only [pruneRoom] at h
      split_ifs at h
      cases h
      rfl
  rw [Settles, hended, hstand, ← List.map_append]
  exact (List.filter_append_perm _ _).map _

lemma settles_broadcast : Settles m (m.broadcast room) [] := settles_getMut fun _ => rfl

lemma settles_sendTo (select : Peer → Bool) : Settles m (m.sendTo room select) [] :=
  settles_getMut fun _ => rfl

lemma settles_updatePeer {id : String} {f : Peer → Peer} (hf : ∀ p, (f p).id = p.id) :
    Settles m (m.updatePeer room id f hf) [] :=
  settles_getMut fun _ => rfl

lemma settles_detach (m : RoomManager) (room id : String) (conn : Uuid) :
    Settles m (m.detach room id conn).1 [] := by
  rw [detach]
  split
  · next r hroom =>
    refine settles_alter ?_
    rw [hroom]
    rfl
  · exact settles_self m

lemma settles_dropIfEmpty : Settles m (m.dropIfEmpty room).1 (m.dropIfEmpty room).2.toList :=
  settles_removeIf _

lemma settles_endOrphanedPhoneRoom (m : RoomManager) (room : String) (sessionId : Uuid) :
    Settles m (m.endOrphanedPhoneRoom room sessionId).1
      (m.endOrphanedPhoneRoom room sessionId).2.toList :=
  settles_removeIf _

lemma settles_remove (id : String) (conn : Uuid) :
    Settles m (m.remove room id conn).1 (m.remove room id conn).2.ended := by
  have hdetach := m.settles_detach room id conn
  rw [remove]
  split
  · next m' h => rwa [h] at hdetach
  · next m' _ h => rwa [h] at hdetach
  · next m' h =>
    rw [h] at hdetach
    exact hdetach.trans settles_dropIfEmpty

/-- A join writes the entry of its room; nobody is in it already, or the joiner is. -/
lemma join_fst (m : RoomManager) (room : String) (peer : Peer) (visibility : Visibility)
    (newSession : Uuid) :
    ∃ r : Room, r.sessionId = ((m.getRoom room).getD (.empty visibility newSession)).sessionId ∧
      r.peers ≠ [] ∧ (m.join room peer visibility newSession).1 =
        { m with rooms := m.rooms.alter room fun _ => some r } := by
  set r := ((m.getRoom room).getD (.empty visibility newSession)).evict peer.id with hr
  by_cases hcap : r.peers.length < maxPeers
  · refine ⟨r.push peer (Room.evict_ids peer.id _) hcap, rfl, ?_, ?_⟩
    · exact List.append_ne_nil_of_right_ne_nil _ (List.cons_ne_nil _ _)
    · simp only [join, ← hr, dif_pos hcap]
  · refine ⟨r, rfl, fun hnil => hcap ?_, ?_⟩
    · rw [hnil]
      exact Nat.zero_lt_succ 3
    · simp only [join, ← hr, dif_neg hcap]

/-- A join creates a room with the new session where there is none. -/
lemma sessionIds_join (m : RoomManager) (room : String) (peer : Peer) (visibility : Visibility)
    (newSession : Uuid) :
    (m.join room peer visibility newSession).1.sessionIds.Perm
      ((if (m.getRoom room).isNone then [newSession] else []) ++ m.sessionIds) := by
  obtain ⟨r, hsession, -, hjoin⟩ := m.join_fst room peer visibility newSession
  have hperm := (Assoc.values_perm m.rooms room).map Room.sessionId
  rw [List.map_append, ← getRoom] at hperm
  rw [hjoin, sessionIds, Assoc.values_alter, List.map_append, Option.toList_some,
    List.map_singleton, hsession]
  refine List.Perm.trans ?_ (hperm.symm.append_left _)
  cases m.getRoom room <;> exact List.Perm.refl _

end RoomManager

/-- The registry, with the sessions rooms were created with and the sessions that were reported
as ended. -/
structure Ledger where
  manager : RoomManager
  sessions : List Uuid
  ended : List Uuid

namespace Ledger

def start (clientDirectEngines : List String) : Ledger := ⟨⟨∅, clientDirectEngines⟩, [], []⟩

/-- A peer joins.  A session that is generated was never generated before. -/
def join (s : Ledger) (room : String) (peer : Peer) (visibility : Visibility)
    (newSession : Uuid) : Option Ledger :=
  if newSession ∈ s.sessions then none
  else some
    { s with
      manager := (s.manager.join room peer visibility newSession).1
      sessions := if (s.manager.getRoom room).isNone then newSession :: s.sessions else s.sessions }

/-- An operation that reports the sessions it ended. -/
def settle (s : Ledger) (manager : RoomManager) (ended : List Uuid) : Ledger :=
  { s with manager, ended := s.ended ++ ended }

/-- What was reported and what stands is what was given out, each once. -/
structure Balanced (s : Ledger) : Prop where
  nodup : s.sessions.Nodup
  perm : (s.ended ++ s.manager.sessionIds).Perm s.sessions

variable {s t : Ledger} {room : String} {sessionId : Uuid}

lemma start_balanced (clientDirectEngines : List String) : (start clientDirectEngines).Balanced :=
  ⟨List.nodup_nil, List.Perm.refl _⟩

lemma join_cases {peer : Peer} {visibility : Visibility} {newSession : Uuid}
    (hjoin : s.join room peer visibility newSession = some t) :
    newSession ∉ s.sessions ∧ s.sessions ⊆ t.sessions ∧ t.ended = s.ended ∧
      t.manager = (s.manager.join room peer visibility newSession).1 := by
  rw [Ledger.join] at hjoin
  split_ifs at hjoin with hnew
  · cases hjoin
    exact ⟨hnew, List.subset_cons_self _ _, rfl, rfl⟩
  · cases hjoin
    exact ⟨hnew, List.Subset.refl _, rfl, rfl⟩

lemma Balanced.join {peer : Peer} {visibility : Visibility} {newSession : Uuid} (h : s.Balanced)
    (hjoin : s.join room peer visibility newSession = some t) : t.Balanced := by
  have hjoined := s.manager.sessionIds_join room peer visibility newSession
  rw [Ledger.join] at hjoin
  split_ifs at hjoin with hnew hcreated
  · cases hjoin
    rw [if_pos hcreated] at hjoined
    refine ⟨List.nodup_cons.mpr ⟨hnew, h.nodup⟩, (hjoined.append_left s.ended).trans ?_⟩
    exact List.perm_middle.trans (h.perm.cons newSession)
  · cases hjoin
    rw [if_neg hcreated] at hjoined
    exact ⟨h.nodup, (hjoined.append_left s.ended).trans h.perm⟩

lemma Balanced.settle {manager : RoomManager} {ended : List Uuid} (h : s.Balanced)
    (hsettles : s.manager.Settles manager ended) : (s.settle manager ended).Balanced := by
  refine ⟨h.nodup, List.Perm.trans ?_ h.perm⟩
  rw [Ledger.settle, List.append_assoc]
  exact List.Perm.append_left s.ended hsettles

/-- No session is reported twice. -/
lemma Balanced.nodup_ended (h : s.Balanced) : s.ended.Nodup :=
  (List.nodup_append.mp (h.perm.nodup_iff.mpr h.nodup)).1

/-- A session that was reported is the session of no room. -/
lemma Balanced.ne_of_ended {r : Room} (h : s.Balanced) (hended : sessionId ∈ s.ended)
    (hroom : s.manager.getRoom room = some r) : r.sessionId ≠ sessionId := by
  rintro rfl
  have hstands := RoomManager.mem_sessionIds.mpr ⟨room, r, hroom, rfl⟩
  exact (List.nodup_append.mp (h.perm.nodup_iff.mpr h.nodup)).2.2 _ hended _ hstands rfl

/-- A session that was given out was reported, or its room stands. -/
lemma Balanced.mem_sessions (h : s.Balanced) :
    sessionId ∈ s.sessions ↔ sessionId ∈ s.ended ∨ sessionId ∈ s.manager.sessionIds := by
  rw [← h.perm.mem_iff, List.mem_append]

end Ledger

end VoxTranslate.Rooms
