import VoxTranslate.Lib.Run
import VoxTranslate.Rooms.Manager

/-!
# Who is told that a peer left

The handler of a connection learns from `remove` whether somebody left: it announces a
departure unless the entry of the connection was gone already, which is taken for a reconnect
that superseded it.  Two more operations delete entries, though: a broadcast and the periodic
`prune`, which drop the peers whose channel is closed.  A live connection is announced exactly
when neither of them met it with its channel closed.
-/

namespace VoxTranslate.Rooms

open Lib

/-- An operation on the registry. -/
inductive RoomAction where
  | join (room : String) (peer : Peer) (visibility : Visibility) (newSession : Uuid)
  /-- The first half of a `remove`. -/
  | detach (room id : String) (conn : Uuid)
  /-- The second half of a `remove`. -/
  | dropIfEmpty (room : String)
  | broadcast (room : String)
  /-- One of the sends that prune nobody. -/
  | sendTo (room : String) (select : Peer → Bool)
  | prune
  | endOrphanedPhoneRoom (room : String) (sessionId : Uuid)
  | setSpeaking (room id : String) (speaking : Bool)
  | setPeerEngine (room id engine : String)
  | setPeerLang (room id lang : String)
  /-- The writer task of a connection died, and its receiver with it. -/
  | receiverGone (room id : String)
  /-- The writer task of a connection wrote everything out. -/
  | drained (room id : String)

namespace RoomManager

/-- The registry after an operation. -/
def step (m : RoomManager) : RoomAction → RoomManager
  | .join room peer visibility newSession => (m.join room peer visibility newSession).1
  | .detach room id conn => (m.detach room id conn).1
  | .dropIfEmpty room => (m.dropIfEmpty room).1
  | .broadcast room => m.broadcast room
  | .sendTo room select => m.sendTo room select
  | .prune => m.prune.1
  | .endOrphanedPhoneRoom room sessionId => (m.endOrphanedPhoneRoom room sessionId).1
  | .setSpeaking room id speaking => m.setSpeaking room id speaking
  | .setPeerEngine room id engine => m.setPeerEngine room id engine
  | .setPeerLang room id lang => m.setPeerLang room id lang
  | .receiverGone room id =>
    m.updatePeer room id (fun p => { p with tx := { p.tx with receiverGone := true } }) fun _ => rfl
  | .drained room id =>
    m.updatePeer room id (fun p => { p with tx := { p.tx with queued := 0 } }) fun _ => rfl

/-- The transition relation. -/
abbrev Step : RoomManager → RoomAction → RoomManager → Prop := ofFun step

/-- The entry of an identifier in a room. -/
def entry (m : RoomManager) (room id : String) : Option Peer :=
  (m.getRoom room).bind fun r => r.find id

/-- The connection is the live one of its peer. -/
def HasConn (m : RoomManager) (room id : String) (conn : Uuid) : Prop :=
  ∃ p, m.entry room id = some p ∧ p.conn = conn

/-! ## What an operation does to an entry -/

section Entry

variable (m : RoomManager) (room id : String)

lemma getRoom_getMut (room' : String) (f : Room → Room) :
    (m.getMut room' f).getRoom room =
      if room = room' then (m.getRoom room).map f else m.getRoom room := by
  unfold getMut getRoom
  split_ifs with h
  · subst h
    exact Assoc.lookup_alter_self _ _ _
  · exact Assoc.lookup_alter_of_ne h _ _

/-- An operation on one room acts on the entry as it acts on the entries of that room. -/
lemma entry_getMut {room' : String} {f : Room → Room} {g : Option Peer → Option Peer}
    (hf : ∀ r : Room, (f r).find id = g (r.find id)) (hg : g none = none) :
    (m.getMut room' f).entry room id =
      if room = room' then g (m.entry room id) else m.entry room id := by
  rw [entry, getRoom_getMut]
  split_ifs with h
  · rw [entry]
    cases m.getRoom room with
    | none => exact hg.symm
    | some r => exact hf r
  · rfl

lemma entry_broadcast (room' : String) :
    (m.broadcast room').entry room id =
      if room = room' then ((m.entry room id).filter fun p => !p.tx.isClosed).map Peer.pushed
      else m.entry room id := by
  refine entry_getMut m room id (g := fun e => (e.filter fun p => !p.tx.isClosed).map Peer.pushed)
    (fun r => ?_) rfl
  rw [Room.broadcast, Room.find_mapPeers, Room.find_retain]
  simp only [PeerTx.send_snd]

lemma entry_prune :
    m.prune.1.entry room id = (m.entry room id).filter fun p => !p.tx.isClosed := by
  have hroom : m.prune.1.getRoom room = (m.getRoom room).bind pruneRoom :=
    Assoc.lookup_mapEntries _ _ _
  rw [entry, entry, hroom]
  cases m.getRoom room with
  | none => rfl
  | some r =>
    simp only [Option.bind_some, pruneRoom]
    split_ifs with h
    · -- the room is dropped, and nobody was left in it
      have hnone : (r.retain fun p => !p.tx.isClosed).find id = none := by
        rw [Room.find, List.isEmpty_iff.mp h]
        rfl
      rw [Room.find_retain] at hnone
      rw [hnone]
      rfl
    · exact Room.find_retain _ r id

/-- An entry is kept under a condition and changed in place. -/
def KeptIf (keep : Peer → Bool) (e e' : Option Peer) : Prop :=
  ∃ f : Peer → Peer, (∀ p, (f p).conn = p.conn) ∧ e' = (e.filter keep).map f

variable {m room id}

lemma filter_true (e : Option Peer) : (e.filter fun _ => true) = e := by
  cases e <;> rfl

lemma keptIf_self {keep : Peer → Bool} {e : Option Peer} (h : ∀ p, e = some p → keep p = true) :
    KeptIf keep e e := by
  refine ⟨fun p => p, fun _ => rfl, ?_⟩
  cases e with
  | none => rfl
  | some p => simp [Option.filter, h p rfl]

lemma keptIf_filter (keep : Peer → Bool) (e : Option Peer) : KeptIf keep e (e.filter keep) :=
  ⟨fun p => p, fun _ => rfl, by simp⟩

lemma keptIf_mapPeers {room' : String} {f : Peer → Peer} (hf : ∀ p, (f p).id = p.id)
    (hconn : ∀ p, (f p).conn = p.conn) :
    KeptIf (fun _ => true) (m.entry room id) ((m.getMut room' (Room.mapPeers f hf)).entry room id) := by
  rw [entry_getMut m room id (g := Option.map f) (fun r => Room.find_mapPeers f hf r id) rfl]
  split_ifs
  · exact ⟨f, hconn, by rw [filter_true]⟩
  · exact keptIf_self fun _ _ => rfl

lemma keptIf_updatePeer {room' id' : String} {f : Peer → Peer} (hf : ∀ p, (f p).id = p.id)
    (hconn : ∀ p, (f p).conn = p.conn) :
    KeptIf (fun _ => true) (m.entry room id) ((m.updatePeer room' id' f hf).entry room id) := by
  refine keptIf_mapPeers _ fun p => ?_
  rw [Peer.editedIf]
  split_ifs
  · exact hconn p
  · rfl

lemma keptIf_sendTo {room' : String} {select : Peer → Bool} :
    KeptIf (fun _ => true) (m.entry room id) ((m.sendTo room' select).entry room id) := by
  refine keptIf_mapPeers (Peer.pushedIf_id select) fun p => ?_
  rw [Peer.pushedIf]
  split_ifs <;> rfl

/-- A room is dropped under a condition; an entry outlives it if the condition fails of its
room. -/
lemma entry_removeIf {room' : String} {condition : Room → Bool}
    (h : ∀ r, room = room' → m.getRoom room = some r → condition r = true → r.find id = none) :
    (m.removeIf room' condition).1.entry room id = m.entry room id := by
  unfold removeIf
  cases hroom : m.getRoom room' with
  | none => rfl
  | some r =>
    dsimp only
    split_ifs with hcond
    · by_cases heq : room = room'
      · subst heq
        have hgone : RoomManager.getRoom { m with rooms := m.rooms.alter room fun _ => none } room =
            none := Assoc.lookup_alter_self _ _ _
        rw [entry, entry, hgone, hroom]
        exact (h r rfl hroom hcond).symm
      · have hsame : RoomManager.getRoom { m with rooms := m.rooms.alter room' fun _ => none } room =
            m.getRoom room := Assoc.lookup_alter_of_ne heq _ _
        rw [entry, entry, hsame]
    · rfl

lemma entry_dropIfEmpty (room' : String) : (m.dropIfEmpty room').1.entry room id = m.entry room id := by
  refine entry_removeIf fun r _ _ hempty => ?_
  rw [Room.find, List.isEmpty_iff.mp hempty]
  rfl

lemma entry_endOrphanedPhoneRoom {room' : String} {sessionId : Uuid}
    (h : room' = room → (m.endOrphanedPhoneRoom room' sessionId).2 = none) :
    (m.endOrphanedPhoneRoom room' sessionId).1.entry room id = m.entry room id := by
  refine entry_removeIf fun r heq hroom hcond => ?_
  subst heq
  have hnone := h rfl
  simp [endOrphanedPhoneRoom, removeIf, hroom, hcond] at hnone

lemma entry_detach {room' id' : String} {conn' : Uuid} :
    (m.detach room' id' conn').1.entry room id =
      if room = room' then (m.entry room id).filter fun p => !p.isConn id' conn'
      else m.entry room id := by
  unfold detach
  cases hroom : m.getRoom room' with
  | none =>
    dsimp only
    split_ifs with h
    · subst h
      rw [entry, hroom]
      rfl
    · rfl
  | some r =>
    rw [entry, getRoom_getMut]
    split_ifs with h
    · subst h
      rw [entry, hroom]
      exact Room.find_retain _ r id
    · rfl

lemma entry_join {room' : String} {peer : Peer} {visibility : Visibility} {newSession : Uuid}
    (h : ¬ (room' = room ∧ peer.id = id)) :
    (m.join room' peer visibility newSession).1.entry room id = m.entry room id := by
  unfold join
  dsimp only
  set r := (m.getRoom room').getD (.empty visibility newSession) with hr
  have hevict : ∀ id, peer.id ≠ id → (r.evict peer.id).find id = r.find id := by
    intro id hne
    rw [Room.evict, Room.find_retain]
    cases hfind : r.find id with
    | none => rfl
    | some p =>
      have hid : p.id = id := (Room.find_eq_some.mp hfind).2
      simp [hid, hne.symm]
  have hempty : m.getRoom room' = none → r.find id = none := by
    intro hnone
    rw [hr, hnone]
    rfl
  have hold : peer.id ≠ id → r.find id = m.entry room' id := by
    intro hne
    cases hroom : m.getRoom room' with
    | none => rw [hempty hroom, entry, hroom, Option.bind_none]
    | some r' => rw [hr, entry, hroom, Option.getD_some, Option.bind_some]
  have hset : ∀ r' : Room, (peer.id ≠ id → r'.find id = r.find id) →
      RoomManager.entry { m with rooms := m.rooms.alter room' fun _ => some r' } room id =
        m.entry room id := by
    intro r' hr'
    by_cases heq : room = room'
    · subst heq
      have hne : peer.id ≠ id := fun hid => h ⟨rfl, hid⟩
      have hlook : RoomManager.getRoom { m with rooms := m.rooms.alter room fun _ => some r' } room =
          some r' := Assoc.lookup_alter_self _ _ _
      rw [entry, hlook, Option.bind_some, hr' hne, hold hne]
    · have hlook : RoomManager.getRoom { m with rooms := m.rooms.alter room' fun _ => some r' } room =
          m.getRoom room := Assoc.lookup_alter_of_ne heq _ _
      rw [entry, entry, hlook]
  split_ifs with hcap
  · refine hset _ fun hne => ?_
    rw [Room.find_push, if_neg hne, hevict id hne]
  · exact hset _ fun hne => hevict id hne

end Entry

/-! ## Where an entry goes -/

/-- Nobody else may take the entry of the connection: no join of its identifier, not its own
removal, and no teardown of the room. -/
def Undisturbed (room id : String) (conn : Uuid) (m : RoomManager) : RoomAction → Prop
  | .join room' peer _ _ => ¬ (room' = room ∧ peer.id = id)
  | .detach room' id' conn' => ¬ (room' = room ∧ id' = id ∧ conn' = conn)
  | .endOrphanedPhoneRoom room' sessionId =>
    room' = room → (m.endOrphanedPhoneRoom room' sessionId).2 = none
  | _ => True

/-- The operation drops the peers of the room whose channel is closed. -/
def prunes (room : String) : RoomAction → Bool
  | .broadcast room' => room = room'
  | .prune => true
  | _ => false

/-- The operation does not meet the peer with its channel closed. -/
def safe (room id : String) (m : RoomManager) (a : RoomAction) : Bool :=
  !(prunes room a && (m.entry room id).any fun p => p.tx.isClosed)

section Departure

variable {m t : RoomManager} {room id : String} {conn : Uuid} {as : List RoomAction}

/-- **What an operation does to the entry of a live connection**: the two pruning operations
drop it if its channel is closed, and all others keep it. -/
theorem step_entry {a : RoomAction} (h : Undisturbed room id conn m a) :
    ∃ keep : Peer → Bool,
      (∀ p, p.id = id → p.conn = conn → keep p = !(prunes room a && p.tx.isClosed)) ∧
      KeptIf keep (m.entry room id) ((m.step a).entry room id) := by
  cases a with
  | join room' peer visibility newSession =>
    rw [step, entry_join h]
    exact ⟨fun _ => true, fun _ _ _ => rfl, keptIf_self fun _ _ => rfl⟩
  | detach room' id' conn' =>
    rw [step, entry_detach]
    split_ifs with hroom
    · refine ⟨_, fun p hid hconn => ?_, keptIf_filter _ _⟩
      -- the removal is not that of the connection
      have hother : p.isConn id' conn' = false := by
        by_contra hp
        obtain ⟨hid', hconn'⟩ := Peer.isConn_iff.mp (by simpa using hp)
        exact h ⟨hroom.symm, hid'.symm.trans hid, hconn'.symm.trans hconn⟩
      simp [prunes, hother]
    · exact ⟨fun _ => true, fun _ _ _ => rfl, keptIf_self fun _ _ => rfl⟩
  | broadcast room' =>
    rw [step, entry_broadcast]
    split_ifs with hroom
    · exact ⟨_, fun p _ _ => by simp [prunes, hroom], Peer.pushed, fun _ => rfl, rfl⟩
    · exact ⟨fun _ => true, fun p _ _ => by simp [prunes, hroom], keptIf_self fun _ _ => rfl⟩
  | prune =>
    rw [step, entry_prune]
    exact ⟨_, fun p _ _ => by simp [prunes], keptIf_filter _ _⟩
  | dropIfEmpty room' =>
    rw [step, entry_dropIfEmpty]
    exact ⟨fun _ => true, fun _ _ _ => rfl, keptIf_self fun _ _ => rfl⟩
  | endOrphanedPhoneRoom room' sessionId =>
    rw [step, entry_endOrphanedPhoneRoom h]
    exact ⟨fun _ => true, fun _ _ _ => rfl, keptIf_self fun _ _ => rfl⟩
  | sendTo room' select =>
    rw [step]
    exact ⟨fun _ => true, fun _ _ _ => rfl, keptIf_sendTo⟩
  | setSpeaking room' id' speaking =>
    rw [step, setSpeaking]
    exact ⟨fun _ => true, fun _ _ _ => rfl, keptIf_updatePeer _ fun _ => rfl⟩
  | setPeerEngine room' id' engine =>
    rw [step, setPeerEngine]
    exact ⟨fun _ => true, fun _ _ _ => rfl, keptIf_updatePeer _ fun _ => rfl⟩
  | setPeerLang room' id' lang =>
    rw [step, setPeerLang]
    exact ⟨fun _ => true, fun _ _ _ => rfl, keptIf_updatePeer _ fun _ => rfl⟩
  | receiverGone room' id' =>
    rw [step]
    exact ⟨fun _ => true, fun _ _ _ => rfl, keptIf_updatePeer _ fun _ => rfl⟩
  | drained room' id' =>
    rw [step]
    exact ⟨fun _ => true, fun _ _ _ => rfl, keptIf_updatePeer _ fun _ => rfl⟩

lemma entry_id {p : Peer} (h : m.entry room id = some p) : p.id = id := by
  obtain ⟨r, -, hfind⟩ := Option.bind_eq_some_iff.mp h
  exact (Room.find_eq_some.mp hfind).2

/-- A live connection stays live through the safe operations only. -/
theorem hasConn_step_iff {a : RoomAction} (h : Undisturbed room id conn m a)
    (hc : m.HasConn room id conn) :
    (m.step a).HasConn room id conn ↔ safe room id m a = true := by
  obtain ⟨p, hp, hconn⟩ := hc
  obtain ⟨keep, hkeep, f, hf, hentry⟩ := step_entry h
  have hsafe : safe room id m a = keep p := by
    rw [hkeep p (entry_id hp) hconn, safe, hp]
    rfl
  rw [HasConn, hentry, hp, hsafe]
  cases hkp : keep p with
  | true => simp [hkp, hf, hconn]
  | false => simp [hkp]

/-- A connection that has lost its entry does not get it back. -/
lemma not_hasConn_step {a : RoomAction} (h : Undisturbed room id conn m a)
    (hc : ¬ m.HasConn room id conn) : ¬ (m.step a).HasConn room id conn := by
  obtain ⟨keep, -, f, hf, hentry⟩ := step_entry h
  rintro ⟨p', hp', hconn⟩
  rw [hentry] at hp'
  obtain ⟨p, hp, rfl⟩ := Option.map_eq_some_iff.mp hp'
  exact hc ⟨p, (Option.filter_eq_some_iff.mp hp).1, (hf p).symm.trans hconn⟩

lemma not_hasConn_run (hc : ¬ m.HasConn room id conn)
    (hrun : Run (Guarded Step (Undisturbed room id conn)) m as t) : ¬ t.HasConn room id conn := by
  refine hrun.invariant (fun m => ¬ m.HasConn room id conn) ?_ hc
  rintro m a - t hm ⟨hund, rfl⟩
  exact not_hasConn_step hund hm

/-- **A live connection has kept its entry exactly when every operation was safe.** -/
theorem hasConn_run_iff (hc : m.HasConn room id conn)
    (hrun : Run (Guarded Step (Undisturbed room id conn)) m as t) :
    t.HasConn room id conn ↔ Run (Guarded Step fun m a => safe room id m a = true) m as t := by
  induction hrun with
  | nil => exact iff_of_true hc (.nil _)
  | cons hstep hrest ih =>
    obtain ⟨hund, rfl⟩ := hstep
    have hiff := hasConn_step_iff hund hc
    constructor
    · intro ht
      have hnext := by_contra fun h => not_hasConn_run h hrest ht
      exact .cons ⟨hiff.mp hnext, rfl⟩ ((ih hnext).mp ht)
    · intro hsafe
      obtain ⟨v, ⟨hs, rfl⟩, hrest'⟩ := Run.cons_iff.mp hsafe
      exact (ih (hiff.mpr hs)).mpr hrest'

/-! ## What the handler is told -/

/-- A room gets smaller by the removal of its live connections only. -/
lemma length_without_ne_iff {r : Room} (hroom : m.getRoom room = some r) :
    (r.without id conn).peers.length ≠ r.peers.length ↔ m.HasConn room id conn := by
  simp only [Room.without, Room.retain, ne_eq, List.length_filter_eq_length_iff, not_forall, HasConn, entry,
    hroom, Option.bind_some]
  constructor
  · rintro ⟨p, hp, hne⟩
    obtain ⟨hid, hconn⟩ := Peer.isConn_iff.mp (by simpa using hne)
    exact ⟨p, Room.find_eq_some.mpr ⟨hp, hid⟩, hconn⟩
  · rintro ⟨p, hp, hconn⟩
    obtain ⟨hmem, hid⟩ := Room.find_eq_some.mp hp
    exact ⟨p, hmem, by rw [Peer.isConn_iff.mpr ⟨hid, hconn⟩]; decide⟩

/-- The live connection is taken out of its room. -/
lemma detach_live {r : Room} (hroom : m.getRoom room = some r) (hc : m.HasConn room id conn) :
    m.detach room id conn = (m.getMut room fun _ => r.without id conn,
      some (if (r.without id conn).peers ≠ [] ∧ (r.without id conn).allPhones = true then some r.sessionId
        else none)) := by
  have hremoved := (length_without_ne_iff hroom).mpr hc
  rw [detach, hroom]
  simp only [ne_eq, hremoved, not_false_eq_true, true_and, if_true]
  rfl

/-- What a live connection is told: the session it ended, or that it left only telephone legs
behind, or just that it left. -/
theorem remove_live {r : Room} (hroom : m.getRoom room = some r) (hc : m.HasConn room id conn) :
    (m.remove room id conn).2 =
      if (r.without id conn).peers = [] then .left (some r.sessionId)
      else if (r.without id conn).allPhones then .leftPhoneOnly r.sessionId
      else .left none := by
  have hgone : (m.getMut room fun _ => r.without id conn).getRoom room = some (r.without id conn) := by
    rw [getRoom_getMut, if_pos rfl, hroom, Option.map_some]
  rw [remove, detach_live hroom hc]
  by_cases hempty : (r.without id conn).peers = []
  · simp only [hempty, ne_eq, not_true_eq_false, false_and, if_false, if_true]
    simp only [dropIfEmpty, removeIf, hgone, hempty, List.isEmpty_nil, if_true]
    rfl
  · by_cases hphones : (r.without id conn).allPhones = true
    · simp [hempty, hphones]
    · simp [hempty, hphones, dropIfEmpty, removeIf, hgone]

/-- `remove` reports a departure exactly for the live connection. -/
theorem remove_superseded_iff :
    (m.remove room id conn).2 = .superseded ↔ ¬ m.HasConn room id conn := by
  cases hroom : m.getRoom room with
  | none => simp [remove, detach, HasConn, entry, hroom]
  | some r =>
    by_cases hc : m.HasConn room id conn
    · rw [remove_live hroom hc]
      split_ifs <;> simpa using hc
    · have hsame := not_ne_iff.mp ((length_without_ne_iff hroom).not.mpr hc)
      refine iff_of_true ?_ hc
      rw [remove, detach, hroom]
      simp [hsame]

/-- **A departure is announced** exactly when no broadcast of the room and no `prune` met the
peer with its channel closed: the live connection of a peer, undisturbed since, is told on its
teardown that it left. -/
theorem departure_announced_iff (hc : m.HasConn room id conn)
    (hrun : Run (Guarded Step (Undisturbed room id conn)) m as t) :
    ((∃ ended, (t.remove room id conn).2 = .left ended) ∨
      ∃ sessionId, (t.remove room id conn).2 = .leftPhoneOnly sessionId) ↔
    Run (Guarded Step fun m a => safe room id m a = true) m as t := by
  rw [← hasConn_run_iff hc hrun, ← not_iff_not, ← remove_superseded_iff]
  cases (t.remove room id conn).2 <;> simp

end Departure

/-! ## A room of two -/

/-- A peer that speaks a language and has just connected. -/
def guest (id : String) (conn : Uuid) (lang : String) : Peer :=
  ⟨id, conn, id, lang, none, "standard", none, none, ⟨0, false, false⟩, false⟩

/-- Two peers in one room. -/
def twoPeers : RoomManager :=
  (((⟨∅, []⟩ : RoomManager).join "r" (guest "a" 1 "it") .private 9).1.join "r" (guest "b" 2 "en")
    .private 10).1

lemma twoPeers_hasConn : twoPeers.HasConn "r" "a" 1 :=
  ⟨guest "a" 1 "it", by decide +kernel, rfl⟩

/-- The law on a socket that dies after the last broadcast before its teardown. -/
theorem departure_announced_late :
    let t := (twoPeers.broadcast "r").step (.receiverGone "r" "a")
    (∃ ended, (t.remove "r" "a" 1).2 = .left ended) ∨
      ∃ sessionId, (t.remove "r" "a" 1).2 = .leftPhoneOnly sessionId := by
  have hundisturbed : Run (Guarded Step (Undisturbed "r" "a" 1)) twoPeers
      [.broadcast "r", .receiverGone "r" "a"]
      ((twoPeers.broadcast "r").step (.receiverGone "r" "a")) :=
    .cons ⟨trivial, rfl⟩ (.cons ⟨trivial, rfl⟩ (.nil _))
  refine (departure_announced_iff twoPeers_hasConn hundisturbed).mpr ?_
  exact .cons ⟨by decide +kernel, rfl⟩ (.cons ⟨by decide +kernel, rfl⟩ (.nil _))

/-- A socket dies, a broadcast meets it, and its teardown is taken for a reconnect: the other
peer is still in the room, and is never told. -/
theorem departure_swallowed :
    let t := (twoPeers.step (.receiverGone "r" "a")).broadcast "r"
    (t.remove "r" "a" 1).2 = .superseded ∧
      (t.getRoom "r").map (fun r => (r.sessionId, r.peers.map Peer.id)) = some (9, ["b"]) :=
  ⟨by decide +kernel, by decide +kernel⟩

end RoomManager

end VoxTranslate.Rooms
