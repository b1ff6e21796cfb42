import VoxTranslate.Rooms.Admission

/-!
# Who is in a room

A client chooses its own identifier, and a reconnect comes with the one it had.  A join therefore
evicts the entry of its identifier before it looks whether the room is full, and the teardown of
the evicted connection, which comes late, names its connection and not only its identifier.
-/

namespace VoxTranslate.Rooms

open Lib

namespace RoomManager

/-- The registry at startup. -/
def new (clientDirectEngines : List String) : RoomManager := ⟨∅, clientDirectEngines⟩

/-- The registry after some operations. -/
def after (engines : List String) (acts : List RoomAction) : RoomManager :=
  acts.foldl step (new engines)

/-- A removal in two halves leaves the entry of another connection alone. -/
structure Spared (m : RoomManager) (room id : String) (conn live : Uuid) : Prop where
  detach : (m.detach room id conn).1.HasConn room id live
  dropIfEmpty : (m.dropIfEmpty room).1.HasConn room id live
  remove : (m.remove room id conn).1.HasConn room id live
  superseded : (m.remove room id conn).2 = .superseded

variable {m : RoomManager} {room id : String} {conn live : Uuid} {peer : Peer}
  {visibility : Visibility} {newSession : Uuid}

/-- The peers of a room have distinct identifiers, and there are not too many. -/
lemma peersOf_spec : ((m.peersOf room).map Peer.id).Nodup ∧ (m.peersOf room).length ≤ maxPeers := by
  rw [peersOf]
  cases m.getRoom room with
  | none => exact ⟨List.nodup_nil, Nat.zero_le _⟩
  | some r => exact ⟨r.ids_nodup, r.capacity⟩

lemma length_others_le : (m.others room peer).length ≤ maxPeers :=
  (List.length_filter_le _ _).trans peersOf_spec.2

/-- **A join fails** exactly where the room is full of other identifiers. -/
lemma join_eq_error_iff : (m.join room peer visibility newSession).2.2 = .error () ↔
    (m.others room peer).length = maxPeers := by
  have houtcome := join_outcome m room peer visibility newSession
  have hle : (m.others room peer).length ≤ maxPeers := length_others_le
  cases hjoin : (m.join room peer visibility newSession).2.2 with
  | error e =>
    rw [hjoin] at houtcome
    refine iff_of_true rfl (Nat.le_antisymm hle ?_)
    by_contra hlt
    rw [if_pos (Nat.lt_of_not_le hlt)] at houtcome
    cases houtcome
  | ok joined =>
    rw [hjoin] at houtcome
    refine iff_of_false (by simp) fun hfull => ?_
    rw [if_neg (Nat.not_lt.mpr hfull.ge)] at houtcome
    cases houtcome

/-- A join that does not fail leaves one entry of its identifier. -/
lemma entries_join (h : (m.others room peer).length ≠ maxPeers) :
    ((m.join room peer visibility newSession).1.peersOf room).filter (fun p => p.id = peer.id) =
      [peer] := by
  have hlt : (m.others room peer).length < maxPeers := Nat.lt_of_le_of_ne length_others_le h
  have hnone : (m.others room peer).filter (fun p => p.id = peer.id) = [] := by
    rw [others, List.filter_filter, List.filter_eq_nil_iff]
    simp
  rw [(join_spec m room peer visibility newSession).1, if_pos hlt, List.filter_append, hnone]
  simp

/-- **The late teardown** of a connection that was replaced. -/
lemma spared (hne : conn ≠ live) (hlive : m.HasConn room id live) :
    m.Spared room id conn live := by
  obtain ⟨p, hp, hconn⟩ := hlive
  have hstale : ¬ m.HasConn room id conn := by
    rintro ⟨q, hq, hq'⟩
    rw [hp] at hq
    cases hq
    exact hne (hq'.symm.trans hconn)
  have hdetach : (m.detach room id conn).1.HasConn room id live := by
    refine ⟨p, ?_, hconn⟩
    rw [entry_detach, if_pos rfl, hp]
    have hother : p.isConn id conn = false := by
      by_contra hcontra
      obtain ⟨-, hconn'⟩ := Peer.isConn_iff.mp (by simpa using hcontra)
      exact hne (hconn'.symm.trans hconn)
    simp [Option.filter, hother]
  have hsuperseded := remove_superseded_iff.mpr hstale
  refine ⟨hdetach, ⟨p, by rw [entry_dropIfEmpty, hp], hconn⟩, ?_, hsuperseded⟩
  rw [remove]
  cases hout : m.detach room id conn with
  | mk m' out =>
    rw [hout] at hdetach
    cases out with
    | none => exact hdetach
    | some ended =>
      rw [remove, hout] at hsuperseded
      cases ended with
      | none => cases hsuperseded
      | some sessionId => cases hsuperseded

/-- **Room membership.**  After any operations on the registry: the identifiers in a room are
pairwise distinct, and there are four peers at most; a join fails exactly where four peers with
other identifiers are present, and else leaves one entry of its identifier, the new connection; and
removing a connection never takes out another connection of its identifier, which replaced it. -/
theorem room_membership (engines : List String) (acts : List RoomAction) (room : String) :
    (((after engines acts).peersOf room).map Peer.id).Nodup ∧
      ((after engines acts).peersOf room).length ≤ maxPeers ∧
      (∀ peer visibility newSession,
        (((after engines acts).join room peer visibility newSession).2.2 = .error () ↔
          ((after engines acts).others room peer).length = maxPeers) ∧
        (((after engines acts).join room peer visibility newSession).2.2 ≠ .error () →
          (((after engines acts).join room peer visibility newSession).1.peersOf room).filter
            (fun p => p.id = peer.id) = [peer])) ∧
      ∀ id conn live, conn ≠ live → (after engines acts).HasConn room id live →
        (after engines acts).Spared room id conn live :=
  ⟨peersOf_spec.1, peersOf_spec.2,
    fun _ _ _ => ⟨join_eq_error_iff, fun hok => entries_join fun h => hok (join_eq_error_iff.mpr h)⟩,
    fun _ _ _ hne hlive => spared hne hlive⟩

end RoomManager

end VoxTranslate.Rooms
