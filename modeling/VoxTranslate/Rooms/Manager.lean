import VoxTranslate.Base
import VoxTranslate.Lib.Assoc

/-!
# The room registry

Rooms live in memory.  A room holds its peers, one entry for each peer identifier, and never
more than four; both facts are carried by the room itself.  The registry is a concurrent map,
and every operation on it holds the lock of one room, so each is one function here.  Only
`remove` takes the lock twice, and its two halves are `detach` and `dropIfEmpty`.
-/

namespace VoxTranslate.Rooms

open Lib

/-- Maximum peers per room. -/
def maxPeers : Nat := 4

/-- Prefix of a telephone leg's peer id. -/
def phonePeerIdPrefix : String := "phone-"

/-- Capacity of a peer's outbound channel. -/
def outChannelCap : Nat := 512

inductive Visibility where
  | «public»
  | «private»
  deriving DecidableEq, Repr

/-- The outbound channel of one connection. -/
structure PeerTx where
  queued : Nat
  receiverGone : Bool
  /-- The handler of the connection was told to tear it down. -/
  overflow : Bool
  deriving DecidableEq, Repr

/-- Queue a frame; `false` only when the receiver is gone.  A full queue drops the frame and
tells the handler to close. -/
def PeerTx.send (tx : PeerTx) : PeerTx × Bool :=
  if tx.receiverGone then (tx, false)
  else if tx.queued < outChannelCap then ({ tx with queued := tx.queued + 1 }, true)
  else ({ tx with overflow := true }, true)

def PeerTx.isClosed (tx : PeerTx) : Bool := tx.receiverGone

lemma PeerTx.send_snd (tx : PeerTx) : tx.send.2 = !tx.isClosed := by
  unfold send isClosed
  split_ifs with h
  · simp [h]
  · simpa using h
  · simpa using h

/-- A connected peer. -/
structure Peer where
  id : String
  /-- Unique for each connection; a reconnect has the same `id` and another `conn`. -/
  conn : Uuid
  name : String
  lang : String
  userId : Option Uuid
  /-- The engine whose quality this peer wants to receive. -/
  engine : String
  avatarUrl : Option String
  cartesiaVoiceId : Option String
  tx : PeerTx
  speaking : Bool
  deriving DecidableEq, Repr

namespace Peer

def isPhone (p : Peer) : Bool := p.id.startsWith phonePeerIdPrefix

/-- The peer after a frame was sent to it. -/
def pushed (p : Peer) : Peer := { p with tx := p.tx.send.1 }

lemma pushed_id (p : Peer) : p.pushed.id = p.id := rfl

/-- The peer after a frame was sent to the peers that `select` names. -/
def pushedIf (select : Peer → Bool) (p : Peer) : Peer := if select p then p.pushed else p

lemma pushedIf_id (select : Peer → Bool) (p : Peer) : (p.pushedIf select).id = p.id := by
  rw [pushedIf]
  split_ifs <;> rfl

/-- The peer after the one of identifier `id` was changed. -/
def editedIf (id : String) (f : Peer → Peer) (p : Peer) : Peer := if p.id = id then f p else p

lemma editedIf_id (id : String) {f : Peer → Peer} (hf : ∀ p, (f p).id = p.id) (p : Peer) :
    (p.editedIf id f).id = p.id := by
  rw [editedIf]
  split_ifs
  · exact hf p
  · rfl

/-- The entry of one connection. -/
def isConn (id : String) (conn : Uuid) (p : Peer) : Bool := p.id = id && p.conn = conn

@[simp] lemma isConn_iff {id : String} {conn : Uuid} {p : Peer} :
    p.isConn id conn = true ↔ p.id = id ∧ p.conn = conn := by
  simp [isConn]

end Peer

/-- What a joiner is told of a peer that is already there. -/
structure PeerInfo where
  id : String
  userName : String
  lang : String
  userId : Option Uuid
  avatarUrl : Option String
  cartesiaVoiceId : Option String
  deriving DecidableEq, Repr

def Peer.info (p : Peer) : PeerInfo := ⟨p.id, p.name, p.lang, p.userId, p.avatarUrl, p.cartesiaVoiceId⟩

/-- A room and its current peers. -/
structure Room where
  visibility : Visibility
  /-- Identity of this lifetime of the room. -/
  sessionId : Uuid
  peers : List Peer
  ids_nodup : (peers.map Peer.id).Nodup
  capacity : peers.length ≤ maxPeers
  deriving DecidableEq

namespace Room

def empty (visibility : Visibility) (sessionId : Uuid) : Room :=
  ⟨visibility, sessionId, [], List.nodup_nil, Nat.zero_le _⟩

/-- `peers.retain`. -/
def retain (keep : Peer → Bool) (room : Room) : Room :=
  { room with
    peers := room.peers.filter keep
    ids_nodup := (List.filter_sublist.map _).nodup room.ids_nodup
    capacity := le_trans (List.length_filter_le _ _) room.capacity }

/-- Change the peers in place; a peer keeps its identifier. -/
def mapPeers (f : Peer → Peer) (hf : ∀ p, (f p).id = p.id) (room : Room) : Room :=
  { room with
    peers := room.peers.map f
    ids_nodup := by
      rw [List.map_map, show Peer.id ∘ f = Peer.id from funext hf]
      exact room.ids_nodup
    capacity := by
      rw [List.length_map]
      exact room.capacity }

/-- `peers.push`, after the stale entry of the same identifier was evicted. -/
def push (peer : Peer) (room : Room) (hid : ∀ p ∈ room.peers, p.id ≠ peer.id)
    (hcap : room.peers.length < maxPeers) : Room :=
  { room with
    peers := room.peers ++ [peer]
    ids_nodup := by
      rw [List.map_append, List.map_singleton, List.nodup_append]
      refine ⟨room.ids_nodup, List.nodup_singleton _, ?_⟩
      intro id hmem id' hmem' heq
      obtain ⟨p, hp, rfl⟩ := List.mem_map.mp hmem
      exact hid p hp (heq.trans (List.mem_singleton.mp hmem'))
    capacity := by
      rw [List.length_append]
      exact hcap }

/-- The entry of an identifier. -/
def find (room : Room) (id : String) : Option Peer := room.peers.find? fun p => p.id = id

lemma find_eq_some {room : Room} {id : String} {p : Peer} :
    room.find id = some p ↔ p ∈ room.peers ∧ p.id = id := by
  constructor
  · intro h
    exact ⟨List.mem_of_find?_eq_some h, by simpa using List.find?_some h⟩
  · rintro ⟨hmem, rfl⟩
    obtain ⟨q, hq⟩ : ∃ q, room.find p.id = some q := by
      rw [← Option.isSome_iff_exists, find, List.find?_isSome]
      exact ⟨p, hmem, by simp⟩
    have hid : q.id = p.id := by simpa using List.find?_some hq
    rw [hq, List.inj_on_of_nodup_map room.ids_nodup (List.mem_of_find?_eq_some hq) hmem hid]

lemma find_retain (keep : Peer → Bool) (room : Room) (id : String) :
    (room.retain keep).find id = (room.find id).filter keep := by
  ext p
  rw [find_eq_some, Option.filter_eq_some_iff, find_eq_some]
  simp only [retain, List.mem_filter]
  tauto

lemma find_mapPeers (f : Peer → Peer) (hf : ∀ p, (f p).id = p.id) (room : Room) (id : String) :
    (room.mapPeers f hf).find id = (room.find id).map f := by
  ext p
  rw [find_eq_some, Option.map_eq_some_iff]
  simp only [mapPeers, List.mem_map, find_eq_some]
  constructor
  · rintro ⟨⟨q, hq, rfl⟩, hid⟩
    exact ⟨q, ⟨hq, (hf q).symm.trans hid⟩, rfl⟩
  · rintro ⟨q, ⟨hq, hid⟩, rfl⟩
    exact ⟨⟨q, hq, rfl⟩, (hf q).trans hid⟩

lemma find_push {peer : Peer} {room : Room} (hid : ∀ p ∈ room.peers, p.id ≠ peer.id)
    (hcap : room.peers.length < maxPeers) {id : String} :
    (room.push peer hid hcap).find id = if peer.id = id then some peer else room.find id := by
  ext p
  rw [find_eq_some]
  simp only [push, List.mem_append, List.mem_singleton]
  split_ifs with h
  · subst h
    constructor
    · rintro ⟨hp | rfl, hpid⟩
      · exact absurd hpid (hid p hp)
      · rfl
    · rintro ⟨⟩
      exact ⟨.inr rfl, rfl⟩
  · rw [find_eq_some]
    constructor
    · rintro ⟨hp | rfl, hpid⟩
      · exact ⟨hp, hpid⟩
      · exact absurd hpid h
    · rintro ⟨hp, hpid⟩
      exact ⟨.inl hp, hpid⟩

/-- Every peer that is left is a telephone leg. -/
def allPhones (room : Room) : Bool := room.peers.all Peer.isPhone

/-- The room without its stale entry of an identifier. -/
def evict (id : String) (room : Room) : Room := room.retain fun p => p.id ≠ id

/-- The room without the entry of one connection. -/
def without (id : String) (conn : Uuid) (room : Room) : Room :=
  room.retain fun p => !p.isConn id conn

lemma evict_ids (id : String) (room : Room) : ∀ p ∈ (room.evict id).peers, p.id ≠ id := by
  intro p hp
  simpa using (List.mem_filter.mp hp).2

/-- Send to every peer, pruning dead channels. -/
def broadcast (room : Room) : Room :=
  (room.retain fun p => p.tx.send.2).mapPeers Peer.pushed Peer.pushed_id

/-- Send to the peers that `select` names and ignore what became of it. -/
def sendTo (select : Peer → Bool) (room : Room) : Room :=
  room.mapPeers (Peer.pushedIf select) (Peer.pushedIf_id select)

end Room

/-- The registry. -/
structure RoomManager where
  rooms : Assoc String Room
  /-- Engines whose listeners translate in the browser. -/
  clientDirectEngines : List String

/-- What a joiner is told. -/
structure Joined where
  sessionId : Uuid
  existing : List PeerInfo
  «public» : Bool
  created : Bool
  deriving DecidableEq, Repr

/-- Outcome of removing a connection from a room on teardown. -/
inductive LeaveOutcome where
  /-- The connection was the live entry; with the session it ended, if it was the last. -/
  | left (ended : Option Uuid)
  /-- The connection was the live entry and left only telephone legs behind. -/
  | leftPhoneOnly (sessionId : Uuid)
  /-- The entry was already gone: nobody left. -/
  | superseded
  deriving DecidableEq, Repr

namespace RoomManager

def getRoom (m : RoomManager) (room : String) : Option Room := m.rooms.lookup room

/-- Hold the lock of a room that exists. -/
def getMut (m : RoomManager) (room : String) (f : Room → Room) : RoomManager :=
  { m with rooms := m.rooms.alter room (Option.map f) }

/-- Drop a room that meets the condition, and report its session. -/
def removeIf (m : RoomManager) (room : String) (condition : Room → Bool) :
    RoomManager × Option Uuid :=
  match m.getRoom room with
  | some r =>
    if condition r then ({ m with rooms := m.rooms.alter room fun _ => none }, some r.sessionId)
    else (m, none)
  | none => (m, none)

/-- Add a peer to a room, creating it if new.  The connections of the same identifier are
evicted first and told to tear down, also when the room turns out to be full. -/
def join (m : RoomManager) (room : String) (peer : Peer) (visibility : Visibility)
    (newSession : Uuid) : RoomManager × List Uuid × Except Unit Joined :=
  let before := m.getRoom room
  let r := before.getD (.empty visibility newSession)
  let stale := (r.peers.filter fun p => p.id = peer.id).map Peer.conn
  let r := r.evict peer.id
  if h : r.peers.length < maxPeers then
    let r' := r.push peer (Room.evict_ids peer.id _) h
    ({ m with rooms := m.rooms.alter room fun _ => some r' }, stale,
      .ok { sessionId := r.sessionId
            existing := r.peers.map Peer.info
            «public» := r.visibility = .public
            created := before.isNone })
  -- the eviction has happened already
  else ({ m with rooms := m.rooms.alter room fun _ => some r }, stale, .error ())

/-- The first half of `remove`: take the entry of the connection out.  `none` when there was
none; `some (some session)` when only telephone legs are left. -/
def detach (m : RoomManager) (room id : String) (conn : Uuid) :
    RoomManager × Option (Option Uuid) :=
  match m.getRoom room with
  | some r =>
    let r' := r.without id conn
    -- an entry replaced by a reconnect carries another connection and stays
    let removed := r'.peers.length ≠ r.peers.length
    let phoneOnly := removed ∧ r'.peers ≠ [] ∧ r'.allPhones = true
    (m.getMut room fun _ => r',
      if removed then some (if phoneOnly then some r'.sessionId else none) else none)
  | none => (m, none)

/-- The second half of `remove`: drop the room if nobody is in it. -/
def dropIfEmpty (m : RoomManager) (room : String) : RoomManager × Option Uuid :=
  m.removeIf room fun r => r.peers.isEmpty

/-- Remove a connection, dropping the room once truly empty. -/
def remove (m : RoomManager) (room id : String) (conn : Uuid) : RoomManager × LeaveOutcome :=
  match m.detach room id conn with
  | (m', none) => (m', .superseded)
  | (m', some (some sessionId)) => (m', .leftPhoneOnly sessionId)
  | (m', some none) =>
    let (m'', ended) := m'.dropIfEmpty room
    (m'', .left ended)

/-- Whether somebody in the room is not a telephone leg. -/
def hasHumanPeer (m : RoomManager) (room : String) : Bool :=
  (m.getRoom room).any fun r => r.peers.any fun p => !p.isPhone

/-- The teardown after the grace window of `LeftPhoneOnly`. -/
def endOrphanedPhoneRoom (m : RoomManager) (room : String) (sessionId : Uuid) :
    RoomManager × Option Uuid :=
  m.removeIf room fun r => r.sessionId = sessionId && (r.peers.isEmpty || r.allPhones)

/-- Send to every peer in the room, pruning dead channels. -/
def broadcast (m : RoomManager) (room : String) : RoomManager := m.getMut room Room.broadcast

/-- The sends that reach some peers of a room and prune nobody. -/
def sendTo (m : RoomManager) (room : String) (select : Peer → Bool) : RoomManager :=
  m.getMut room (Room.sendTo select)

/-- The room without its dead channels, if anybody is left. -/
def pruneRoom (r : Room) : Option Room :=
  let r' := r.retain fun p => !p.tx.isClosed
  if r'.peers.isEmpty then none else some r'

/-- Drop dead channels and the rooms they leave empty; report the sessions of these. -/
def prune (m : RoomManager) : RoomManager × List Uuid :=
  ({ m with rooms := m.rooms.mapEntries pruneRoom },
    m.rooms.entries.filterMap fun e => if (pruneRoom e.2).isNone then some e.2.sessionId else none)

/-- Change one peer in place. -/
def updatePeer (m : RoomManager) (room id : String) (f : Peer → Peer)
    (hf : ∀ p, (f p).id = p.id) : RoomManager :=
  m.getMut room (Room.mapPeers (Peer.editedIf id f) (Peer.editedIf_id id hf))

def setSpeaking (m : RoomManager) (room id : String) (speaking : Bool) : RoomManager :=
  m.updatePeer room id (fun p => { p with speaking }) fun _ => rfl

def setPeerEngine (m : RoomManager) (room id engine : String) : RoomManager :=
  m.updatePeer room id (fun p => { p with engine }) fun _ => rfl

def setPeerLang (m : RoomManager) (room id lang : String) : RoomManager :=
  m.updatePeer room id (fun p => { p with lang }) fun _ => rfl

end RoomManager

end VoxTranslate.Rooms
