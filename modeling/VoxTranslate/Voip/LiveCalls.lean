import VoxTranslate.Lib.Assoc
import VoxTranslate.Lib.Run
import VoxTranslate.Rooms.Ledger

/-!
# Legs waiting for their media socket

Between the dial and the connection of its media socket a telephone leg is parked.  It is taken
out again by the socket, by the arming of the socket when that fails, or by the reclaim of a
call that is over; it is dropped by a discard, and by another leg that is parked for its call.
-/

namespace VoxTranslate.Voip

open Lib Rooms

/-- Everything the media socket will need. -/
structure PendingLeg where
  callId : Uuid
  sessionId : Uuid
  orgId : Uuid
  userId : Option Uuid
  room : String
  peerId : String
  conn : Uuid
  engineId : String
  phoneLanguage : String
  deriving DecidableEq, Repr

/-- The legs that are parked, each with the number of its parking: a parked leg owns its
receiver, so it is not there twice. -/
structure LiveCalls where
  pending : Assoc Uuid (Nat × PendingLeg)

namespace LiveCalls

/-- Park a leg, replacing what is parked for the same call. -/
def park (calls : LiveCalls) (number : Nat) (leg : PendingLeg) : LiveCalls :=
  ⟨calls.pending.insert leg.callId (number, leg)⟩

/-- Claim a parked leg. -/
def take (calls : LiveCalls) (callId : Uuid) : LiveCalls × Option (Nat × PendingLeg) :=
  (⟨calls.pending.erase callId⟩, calls.pending.lookup callId)

/-- Read a parked leg's room and peer without claiming it. -/
def peek (calls : LiveCalls) (callId : Uuid) : Option (String × String) :=
  (calls.pending.lookup callId).map fun p => (p.2.room, p.2.peerId)

end LiveCalls

/-- The parked legs with the rooms, and what became of each parking. -/
structure LegDesk where
  calls : LiveCalls
  rooms : RoomManager
  /-- How many legs were parked. -/
  parked : Nat
  /-- The parkings that were handed to somebody. -/
  handed : List Nat
  /-- The parkings that were discarded or replaced. -/
  dropped : List Nat

namespace LegDesk

def start (rooms : RoomManager) : LegDesk := ⟨⟨∅⟩, rooms, 0, [], []⟩

/-- The parkings of the legs that wait. -/
def waiting (s : LegDesk) : List Nat := (Assoc.values s.calls.pending).map Prod.fst

inductive Act where
  | park (leg : PendingLeg)
  | take (callId : Uuid)
  | peek (callId : Uuid)
  | discard (callId : Uuid)
  | reclaim (callId : Uuid)
  deriving DecidableEq

/-- Take a leg out of the registry, for whoever asked. -/
def take (s : LegDesk) (callId : Uuid) : LegDesk × Option PendingLeg :=
  let (calls, leg) := s.calls.take callId
  ({ s with calls, handed := s.handed ++ leg.toList.map Prod.fst }, leg.map Prod.snd)

/-- Take a leg out of the registry and its peer out of the room, for a call that is over. -/
def reclaim (s : LegDesk) (callId : Uuid) : LegDesk :=
  match s.take callId with
  | (s', some leg) => { s' with rooms := (s'.rooms.remove leg.room leg.peerId leg.conn).1 }
  | (s', none) => s'

/-- The desk after an operation. -/
def step (s : LegDesk) : Act → LegDesk
  | .park leg =>
    { s with
      calls := s.calls.park s.parked leg
      parked := s.parked + 1
      dropped := s.dropped ++ (s.calls.pending.lookup leg.callId).toList.map Prod.fst }
  | .take callId => (s.take callId).1
  | .peek _ => s
  | .discard callId =>
    { s with
      calls := (s.calls.take callId).1
      dropped := s.dropped ++ (s.calls.take callId).2.toList.map Prod.fst }
  | .reclaim callId => s.reclaim callId

/-- Every parking was handed out, was dropped or waits, and only one of these. -/
def Accounted (s : LegDesk) : Prop :=
  (s.handed ++ s.dropped ++ s.waiting).Perm (List.range s.parked)

variable {s : LegDesk} {a : Act}

lemma start_accounted (rooms : RoomManager) : (start rooms).Accounted := List.Perm.refl _

/-- What waits under one call, and the rest. -/
lemma waiting_perm (s : LegDesk) (callId : Uuid) :
    s.waiting.Perm ((s.calls.pending.lookup callId).toList.map Prod.fst ++
      (Assoc.values (s.calls.pending.erase callId)).map Prod.fst) := by
  rw [← List.map_append]
  exact (Assoc.values_perm s.calls.pending callId).map Prod.fst

lemma Accounted.take (h : s.Accounted) (callId : Uuid) : (s.take callId).1.Accounted := by
  refine List.Perm.trans ?_ h
  refine List.Perm.trans ?_ ((s.waiting_perm callId).symm.append_left _)
  simp only [LegDesk.take, LiveCalls.take, waiting, List.append_assoc]
  refine List.Perm.append_left _ ?_
  rw [← List.append_assoc, ← List.append_assoc]
  exact List.perm_append_comm.append_right _

lemma Accounted.step (h : s.Accounted) (a : Act) : (s.step a).Accounted := by
  cases a with
  | park leg =>
    have hwaiting : (s.step (.park leg)).waiting =
        s.parked :: (Assoc.values (s.calls.pending.erase leg.callId)).map Prod.fst := by
      simp only [LegDesk.step, LiveCalls.park, waiting, Assoc.values_insert, List.map_cons]
    rw [Accounted, hwaiting]
    simp only [LegDesk.step, List.range_succ]
    refine List.perm_middle.trans (List.Perm.trans ?_ List.perm_append_comm)
    refine List.Perm.cons s.parked (List.Perm.trans ?_ h)
    refine List.Perm.trans ?_ ((s.waiting_perm leg.callId).symm.append_left _)
    simp only [List.append_assoc]
    exact List.Perm.refl _
  | take callId => exact h.take callId
  | peek callId => exact h
  | discard callId =>
    refine List.Perm.trans ?_ h
    refine List.Perm.trans ?_ ((s.waiting_perm callId).symm.append_left _)
    simp only [LegDesk.step, LiveCalls.take, waiting, List.append_assoc]
    exact List.Perm.refl _
  | reclaim callId =>
    have htake := h.take callId
    simp only [LegDesk.step, LegDesk.reclaim]
    split
    · next s' leg heq =>
      rw [heq] at htake
      exact htake
    · next s' heq =>
      rw [heq] at htake
      exact htake

/-- Each parking is handed out once, and not after it was dropped. -/
lemma Accounted.handed_once (h : s.Accounted) :
    s.handed.Nodup ∧ ∀ n ∈ s.dropped, n ∉ s.handed := by
  have hnodup : (s.handed ++ s.dropped ++ s.waiting).Nodup :=
    h.nodup_iff.mpr List.nodup_range
  have hboth := (List.nodup_append.mp hnodup).1
  obtain ⟨hhanded, -, hdisjoint⟩ := List.nodup_append.mp hboth
  exact ⟨hhanded, fun n hdropped hmem => hdisjoint n hmem n hdropped rfl⟩

/-- A reclaim that finds no leg, because the socket claimed it or it was dropped, does nothing. -/
lemma reclaim_none {callId : Uuid} (h : s.calls.pending.lookup callId = none) :
    s.reclaim callId = s := by
  have herase : s.calls.pending.erase callId = s.calls.pending := by
    rw [AList.lookup_eq_none] at h
    exact AList.ext (List.kerase_of_notMem_keys h)
  obtain ⟨⟨pending⟩, rooms, parked, handed, dropped⟩ := s
  simp only at h herase
  simp [reclaim, take, LiveCalls.take, h, herase]

end LegDesk

end VoxTranslate.Voip
