import VoxTranslate.Rooms.Ledger

/-!
# Telephone legs that nobody translates for

When the last human leaves a room with a telephone leg in it, the room stays, and a check is
spawned that waits out a grace period for the human to come back.  It polls the room; if nobody
came back, it tears the room down and finalises the session.  By then the room may have gone,
may have been created anew under its name, or may have been joined.

A check is one task among those of the connections, and a removal takes the lock of the registry
twice.  The steps below are the single lock acquisitions.
-/

namespace VoxTranslate.Rooms

open Lib

/-- The registry with the tasks under way on it. -/
structure Orphanage extends Ledger where
  /-- The rooms a removal has taken the entry of a connection out of, to look at once more. -/
  dropping : List String
  /-- The checks within their grace period. -/
  waiting : List (String × Uuid)
  /-- The checks that found nobody back at the end of it. -/
  due : List (String × Uuid)
  /-- The sessions torn down by a check. -/
  tornDown : List Uuid
  /-- The sessions whose transcript was finalised. -/
  finalised : List Uuid

namespace Orphanage

def start (clientDirectEngines : List String) : Orphanage where
  toLedger := .start clientDirectEngines
  dropping := []
  waiting := []
  due := []
  tornDown := []
  finalised := []

def settle (s : Orphanage) (manager : RoomManager) (ended : List Uuid) : Orphanage :=
  { s with toLedger := s.toLedger.settle manager ended }

/-- One acquisition of the lock of the registry. -/
inductive Act where
  /-- A human or a telephone leg joins. -/
  | join (room : String) (peer : Peer) (visibility : Visibility) (newSession : Uuid)
  /-- The first half of `remove`. -/
  | detach (room id : String) (conn : Uuid)
  /-- The second half; the handler of a connection finalises the session it ended, and other
  callers do not. -/
  | dropIfEmpty (room : String) (finalises : Bool)
  /-- A check is spawned. -/
  | schedule (room : String) (sessionId : Uuid)
  /-- A check sees a human and returns. -/
  | returned (room : String) (sessionId : Uuid)
  /-- A check sees no human, and its grace period is over. -/
  | overdue (room : String) (sessionId : Uuid)
  /-- `end_orphaned_phone_room`, and what follows it. -/
  | finish (room : String) (sessionId : Uuid)
  | broadcast (room : String)
  | sendTo (room : String) (select : Peer → Bool)
  | prune
  | updatePeer (room id : String) (f : Peer → Peer) (hf : ∀ p, (f p).id = p.id)

/-- The step function; `none` where no task is at this point. -/
def step (s : Orphanage) : Act → Option Orphanage
  | .join room peer visibility newSession =>
    (s.toLedger.join room peer visibility newSession).map fun ledger =>
      { s with toLedger := ledger }
  | .detach room id conn =>
    let (manager, outcome) := s.manager.detach room id conn
    some { s.settle manager [] with
      dropping := if outcome = some none then room :: s.dropping else s.dropping }
  | .dropIfEmpty room finalises =>
    if room ∈ s.dropping then
      let (manager, ended) := s.manager.dropIfEmpty room
      some { s.settle manager ended.toList with
        dropping := s.dropping.erase room
        finalised := s.finalised ++ if finalises then ended.toList else [] }
    else none
  | .schedule room sessionId => some { s with waiting := (room, sessionId) :: s.waiting }
  | .returned room sessionId =>
    if (room, sessionId) ∈ s.waiting ∧ s.manager.hasHumanPeer room = true then
      some { s with waiting := s.waiting.erase (room, sessionId) }
    else none
  | .overdue room sessionId =>
    if (room, sessionId) ∈ s.waiting ∧ s.manager.hasHumanPeer room = false then
      some { s with
        waiting := s.waiting.erase (room, sessionId)
        due := (room, sessionId) :: s.due }
    else none
  | .finish room sessionId =>
    if (room, sessionId) ∈ s.due then
      let (manager, ended) := s.manager.endOrphanedPhoneRoom room sessionId
      some { s.settle manager ended.toList with
        due := s.due.erase (room, sessionId)
        tornDown := s.tornDown ++ ended.toList
        finalised := s.finalised ++ if ended.isSome then [sessionId] else [] }
    else none
  | .broadcast room => some (s.settle (s.manager.broadcast room) [])
  | .sendTo room select => some (s.settle (s.manager.sendTo room select) [])
  | .prune =>
    some { s.settle s.manager.prune.1 s.manager.prune.2 with
      finalised := s.finalised ++ s.manager.prune.2 }
  | .updatePeer room id f hf => some (s.settle (s.manager.updatePeer room id f hf) [])

end Orphanage

/-! ## What becomes of a room -/

namespace RoomManager

variable {m m' : RoomManager} {room : String} {sessionId : Uuid}

/-- Every room that stands has stood before, with its session. -/
def Descends (m m' : RoomManager) : Prop :=
  ∀ room r', m'.getRoom room = some r' →
    ∃ r, m.getRoom room = some r ∧ r.sessionId = r'.sessionId

lemma descends_self (m : RoomManager) : Descends m m := fun _ r hr => ⟨r, hr, rfl⟩

lemma descends_alter {f : Option Room → Option Room}
    (hf : ∀ r', f (m.getRoom room) = some r' →
      ∃ r, m.getRoom room = some r ∧ r.sessionId = r'.sessionId) :
    Descends m { m with rooms := m.rooms.alter room f } := by
  intro room' r' hr'
  rw [getRoom_alter] at hr'
  split_ifs at hr' with heq
  · rw [heq]
    exact hf r' hr'
  · exact ⟨r', hr', rfl⟩

lemma descends_getMut {f : Room → Room} (hf : ∀ r, (f r).sessionId = r.sessionId) :
    Descends m (m.getMut room f) := by
  refine descends_alter fun r' hr' => ?_
  obtain ⟨r, hr, rfl⟩ := Option.map_eq_some_iff.mp hr'
  exact ⟨r, hr, (hf r).symm⟩

lemma descends_removeIf (condition : Room → Bool) : Descends m (m.removeIf room condition).1 := by
  rw [removeIf]
  split
  · split_ifs
    · exact descends_alter fun r' hr' => by cases hr'
    · exact descends_self m
  · exact descends_self m

lemma descends_detach (id : String) (conn : Uuid) : Descends m (m.detach room id conn).1 := by
  rw [detach]
  split
  · next r hroom =>
    refine descends_alter fun r' hr' => ⟨r, hroom, ?_⟩
    rw [hroom] at hr'
    cases hr'
    rfl
  · exact descends_self m

lemma descends_prune : Descends m m.prune.1 := by
  intro room r' hr'
  have hroom : m.prune.1.getRoom room = (m.getRoom room).bind pruneRoom :=
    Assoc.lookup_mapEntries _ _ _
  rw [hroom, Option.bind_eq_some_iff] at hr'
  obtain ⟨r, hr, hpruned⟩ := hr'
  simp only [pruneRoom] at hpruned
  split_ifs at hpruned
  cases hpruned
  exact ⟨r, hr, rfl⟩

/-- A room that stands after a join stood before, or is the one that was created. -/
lemma getRoom_join {peer : Peer} {visibility : Visibility} {newSession : Uuid} {room' : String}
    {r' : Room} (h : (m.join room peer visibility newSession).1.getRoom room' = some r') :
    (∃ r, m.getRoom room' = some r ∧ r.sessionId = r'.sessionId) ∨ r'.sessionId = newSession := by
  obtain ⟨r, hsession, -, hjoin⟩ := m.join_fst room peer visibility newSession
  rw [hjoin, getRoom_alter] at h
  split_ifs at h with heq
  · cases h
    subst heq
    cases hroom : m.getRoom room' with
    | none =>
      rw [hroom] at hsession
      exact .inr hsession
    | some r₀ =>
      rw [hroom] at hsession
      exact .inl ⟨r₀, rfl, hsession.symm⟩
  · exact .inl ⟨r', h, rfl⟩

/-- The teardown of a room: nothing happens, or the room of the session goes, with telephone
legs in it at most, and every other room stays. -/
lemma endOrphanedPhoneRoom_spec (m : RoomManager) (room : String) (sessionId : Uuid) :
    m.endOrphanedPhoneRoom room sessionId = (m, none) ∨
      (∃ r, m.getRoom room = some r ∧ r.sessionId = sessionId) ∧ m.hasHumanPeer room = false ∧
        (m.endOrphanedPhoneRoom room sessionId).2 = some sessionId ∧
        ∀ room', (m.endOrphanedPhoneRoom room sessionId).1.getRoom room' =
          if room' = room then none else m.getRoom room' := by
  rw [endOrphanedPhoneRoom, removeIf]
  cases hroom : m.getRoom room with
  | none => exact .inl rfl
  | some r =>
    dsimp only
    split_ifs with hcond
    · simp only [Bool.and_eq_true, decide_eq_true_eq, Bool.or_eq_true] at hcond
      obtain ⟨rfl, hphones⟩ := hcond
      refine .inr ⟨⟨r, rfl, rfl⟩, ?_, rfl, fun room' => getRoom_alter room' _⟩
      rw [hasHumanPeer, hroom, Option.any_some]
      rcases hphones with hempty | hall
      · rw [List.isEmpty_iff.mp hempty]
        rfl
      · rw [Room.allPhones, List.all_eq_true] at hall
        simpa using hall
    · exact .inl rfl

end RoomManager

namespace Orphanage

variable {s t u : Orphanage} {a : Act} {acts more : List Act} {room : String} {sessionId : Uuid}
  {engines : List String}

/-- The ledger is balanced, and what a check tore down and what was finalised was reported. -/
structure Kept (s : Orphanage) : Prop where
  balanced : s.Balanced
  tornDown : s.tornDown.Sublist s.ended
  finalised : s.finalised.Sublist s.ended

lemma start_kept (engines : List String) : (start engines).Kept where
  balanced := Ledger.start_balanced engines
  tornDown := List.Sublist.refl _
  finalised := List.Sublist.refl _

/-- An operation that drops no room. -/
lemma Kept.settle {manager : RoomManager} (h : s.Kept) (hsettles : s.manager.Settles manager []) :
    (s.settle manager []).Kept where
  balanced := h.balanced.settle hsettles
  tornDown := h.tornDown.trans (List.sublist_append_left _ _)
  finalised := h.finalised.trans (List.sublist_append_left _ _)

/-- What `finish` does: nothing, or it tears down the room of its session, with telephone legs in
it at most. -/
lemma finish_cases (hstep : s.step (.finish room sessionId) = some t) :
    t = { s.settle s.manager [] with due := s.due.erase (room, sessionId) } ∨
    ∃ manager, t = { s.settle manager [sessionId] with
        due := s.due.erase (room, sessionId)
        tornDown := s.tornDown ++ [sessionId]
        finalised := s.finalised ++ [sessionId] } ∧
      (∃ r, s.manager.getRoom room = some r ∧ r.sessionId = sessionId) ∧
      s.manager.hasHumanPeer room = false ∧ s.manager.Settles manager [sessionId] ∧
      ∀ room', manager.getRoom room' = if room' = room then none else s.manager.getRoom room' := by
  simp only [step] at hstep
  split at hstep
  case isFalse => cases hstep
  case isTrue =>
    have hsettles := s.manager.settles_endOrphanedPhoneRoom room sessionId
    have hspec := s.manager.endOrphanedPhoneRoom_spec room sessionId
    cases hend : s.manager.endOrphanedPhoneRoom room sessionId with
    | mk manager ended =>
      rw [hend] at hstep hsettles hspec
      rcases hspec with hnone | ⟨hroom, hhuman, hsome, hget⟩
      · cases hnone
        left
        simpa [settle] using hstep.symm
      · cases hsome
        right
        exact ⟨manager, by simpa using hstep.symm, hroom, hhuman, hsettles, hget⟩

lemma Kept.step (h : s.Kept) (hstep : s.step a = some t) : t.Kept := by
  cases a with
  | join room peer visibility newSession =>
    obtain ⟨ledger, hledger, rfl⟩ := Option.map_eq_some_iff.mp hstep
    obtain ⟨-, -, hended, -⟩ := Ledger.join_cases hledger
    refine ⟨h.balanced.join hledger, ?_, ?_⟩
    · rw [hended]
      exact h.tornDown
    · rw [hended]
      exact h.finalised
  | detach room id conn =>
    cases hstep
    have hkept := h.settle (s.manager.settles_detach room id conn)
    exact ⟨hkept.balanced, hkept.tornDown, hkept.finalised⟩
  | dropIfEmpty room finalises =>
    simp only [Orphanage.step] at hstep
    split at hstep
    case isFalse => cases hstep
    case isTrue =>
      cases hstep
      refine ⟨h.balanced.settle RoomManager.settles_dropIfEmpty,
        h.tornDown.trans (List.sublist_append_left _ _), h.finalised.append ?_⟩
      split_ifs
      · exact List.Sublist.refl _
      · exact List.nil_sublist _
  | schedule room sessionId =>
    cases hstep
    exact ⟨h.balanced, h.tornDown, h.finalised⟩
  | returned room sessionId =>
    simp only [Orphanage.step] at hstep
    split_ifs at hstep
    cases hstep
    exact ⟨h.balanced, h.tornDown, h.finalised⟩
  | overdue room sessionId =>
    simp only [Orphanage.step] at hstep
    split_ifs at hstep
    cases hstep
    exact ⟨h.balanced, h.tornDown, h.finalised⟩
  | finish room sessionId =>
    rcases finish_cases hstep with rfl | ⟨manager, rfl, -, -, hsettles, -⟩
    · have hkept := h.settle (RoomManager.settles_self s.manager)
      exact ⟨hkept.balanced, hkept.tornDown, hkept.finalised⟩
    · exact ⟨h.balanced.settle hsettles, h.tornDown.append (List.Sublist.refl _),
        h.finalised.append (List.Sublist.refl _)⟩
  | broadcast room =>
    cases hstep
    exact h.settle RoomManager.settles_broadcast
  | sendTo room select =>
    cases hstep
    exact h.settle (RoomManager.settles_sendTo select)
  | prune =>
    cases hstep
    exact ⟨h.balanced.settle RoomManager.settles_prune,
      h.tornDown.trans (List.sublist_append_left _ _), h.finalised.append (List.Sublist.refl _)⟩
  | updatePeer room id f hf =>
    cases hstep
    exact h.settle (RoomManager.settles_updatePeer hf)

/-! ## Later lifetimes -/

/-- The session was given out, and is not that of the room of this name. -/
structure Past (room : String) (sessionId : Uuid) (s : Orphanage) : Prop where
  given : sessionId ∈ s.sessions
  other : ∀ r, s.manager.getRoom room = some r → r.sessionId ≠ sessionId

lemma Past.descends {manager : RoomManager} (h : Past room sessionId s)
    (hdescends : s.manager.Descends manager) :
    ∀ r, manager.getRoom room = some r → r.sessionId ≠ sessionId := by
  intro r' hr'
  obtain ⟨r, hr, heq⟩ := hdescends room r' hr'
  rw [← heq]
  exact h.other r hr

/-- Once a session is not that of the room, it never is again. -/
lemma Past.step (h : Past room sessionId s) (hstep : s.step a = some t) :
    Past room sessionId t := by
  cases a with
  | join room' peer visibility newSession =>
    obtain ⟨ledger, hledger, rfl⟩ := Option.map_eq_some_iff.mp hstep
    obtain ⟨hnew, hsessions, -, hmanager⟩ := Ledger.join_cases hledger
    refine ⟨hsessions h.given, fun r' hr' => ?_⟩
    rw [hmanager] at hr'
    rcases RoomManager.getRoom_join hr' with ⟨r, hr, heq⟩ | hcreated
    · rw [← heq]
      exact h.other r hr
    · rintro rfl
      exact hnew (hcreated ▸ h.given)
  | detach room' id conn =>
    cases hstep
    exact ⟨h.given, h.descends (RoomManager.descends_detach id conn)⟩
  | dropIfEmpty room' finalises =>
    simp only [Orphanage.step] at hstep
    split at hstep
    case isFalse => cases hstep
    case isTrue =>
      cases hstep
      exact ⟨h.given, h.descends (RoomManager.descends_removeIf _)⟩
  | schedule room' sessionId' =>
    cases hstep
    exact ⟨h.given, h.other⟩
  | returned room' sessionId' =>
    simp only [Orphanage.step] at hstep
    split_ifs at hstep
    cases hstep
    exact ⟨h.given, h.other⟩
  | overdue room' sessionId' =>
    simp only [Orphanage.step] at hstep
    split_ifs at hstep
    cases hstep
    exact ⟨h.given, h.other⟩
  | finish room' sessionId' =>
    rcases finish_cases hstep with rfl | ⟨manager, rfl, -, -, -, hget⟩
    · exact ⟨h.given, h.other⟩
    · refine ⟨h.given, fun r' hr' => ?_⟩
      change manager.getRoom room = some r' at hr'
      rw [hget] at hr'
      split_ifs at hr'
      exact h.other r' hr'
  | broadcast room' =>
    cases hstep
    exact ⟨h.given, h.descends (RoomManager.descends_getMut fun _ => rfl)⟩
  | sendTo room' select =>
    cases hstep
    exact ⟨h.given, h.descends (RoomManager.descends_getMut fun _ => rfl)⟩
  | prune =>
    cases hstep
    exact ⟨h.given, h.descends RoomManager.descends_prune⟩
  | updatePeer room' id f hf =>
    cases hstep
    exact ⟨h.given, h.descends (RoomManager.descends_getMut fun _ => rfl)⟩

/-! ## The run -/

/-- **The teardown cuts no live conversation**, in any run.  No session is torn down, or
finalised, twice.  A check changes nothing, or takes out the one room of its name, which has its
session and nobody in it but telephone legs.  And once a room of the name has another session
than that of the check, or is gone, the check never does anything again. -/
theorem orphan_teardown_safe (hrun : Run (ofPartial step) (start engines) acts s) :
    s.tornDown.Nodup ∧ s.finalised.Nodup ∧ s.ended.Nodup ∧
    (∀ room sessionId t, s.step (.finish room sessionId) = some t →
      (t.manager = s.manager ∧ t.tornDown = s.tornDown ∧ t.finalised = s.finalised) ∨
      ((∃ r, s.manager.getRoom room = some r ∧ r.sessionId = sessionId) ∧
        s.manager.hasHumanPeer room = false ∧ t.tornDown = s.tornDown ++ [sessionId] ∧
        t.finalised = s.finalised ++ [sessionId] ∧
        ∀ room', t.manager.getRoom room' =
          if room' = room then none else s.manager.getRoom room')) ∧
    (∀ room sessionId, sessionId ∈ s.sessions →
      (∀ r, s.manager.getRoom room = some r → r.sessionId ≠ sessionId) →
      ∀ more u t, Run (ofPartial step) s more u → u.step (.finish room sessionId) = some t →
        t.manager = u.manager ∧ t.tornDown = u.tornDown ∧ t.finalised = u.finalised) := by
  have hkept : s.Kept :=
    hrun.invariant Kept (fun _ _ _ _ h hstep => h.step hstep) (start_kept engines)
  have hended := hkept.balanced.nodup_ended
  refine ⟨hkept.tornDown.nodup hended, hkept.finalised.nodup hended, hended, ?_, ?_⟩
  · intro room sessionId t hstep
    rcases finish_cases hstep with rfl | ⟨manager, rfl, hroom, hhuman, -, hget⟩
    · exact .inl ⟨rfl, rfl, rfl⟩
    · exact .inr ⟨hroom, hhuman, rfl, rfl, hget⟩
  · intro room sessionId hgiven hother more u t hmore hstep
    have hpast : Past room sessionId u :=
      hmore.invariant (Past room sessionId) (fun _ _ _ _ h hstep => h.step hstep)
        ⟨hgiven, hother⟩
    rcases finish_cases hstep with rfl | ⟨manager, rfl, ⟨r, hr, heq⟩, -⟩
    · exact ⟨rfl, rfl, rfl⟩
    · exact absurd heq (hpast.other r hr)

/-- A human leaves a telephone leg behind, and two checks are spawned.  The first tears the room
down; the second comes due once the room was created anew, and touches nothing. -/
theorem orphan_teardown_sample : ∃ acts s t, Run (ofPartial step) (start []) acts s ∧
    s.tornDown = [10] ∧ s.finalised = [10] ∧ s.sessions = [20, 10] ∧
    (s.manager.getRoom "r").map Room.sessionId = some 20 ∧
    s.step (.finish "r" 10) = some t ∧
    ((t.manager = s.manager ∧ t.tornDown = s.tornDown ∧ t.finalised = s.finalised) ∨
      ((∃ r, s.manager.getRoom "r" = some r ∧ r.sessionId = 10) ∧
        s.manager.hasHumanPeer "r" = false ∧ t.tornDown = s.tornDown ++ [10] ∧
        t.finalised = s.finalised ++ [10] ∧
        ∀ room', t.manager.getRoom room' =
          if room' = "r" then none else s.manager.getRoom room')) := by
  let acts : List Act :=
    [.join "r" (RoomManager.guest "a" 1 "it") .private 10,
      .join "r" (RoomManager.guest "phone-b" 2 "en") .private 11, .detach "r" "a" 1,
      .schedule "r" 10, .schedule "r" 10, .overdue "r" 10, .overdue "r" 10, .finish "r" 10,
      .join "r" (RoomManager.guest "phone-c" 3 "en") .private 20]
  obtain ⟨s, hrun, htorn, hfinalised, hsessions, hroom, hnext⟩ : ∃ s,
      Run (ofPartial step) (start []) acts s ∧ s.tornDown = [10] ∧ s.finalised = [10] ∧
      s.sessions = [20, 10] ∧ (s.manager.getRoom "r").map Room.sessionId = some 20 ∧
      (s.step (.finish "r" 10)).isSome = true := Run.exists_of_decide (by decide +kernel)
  obtain ⟨t, ht⟩ := Option.isSome_iff_exists.mp hnext
  exact ⟨acts, s, t, hrun, htorn, hfinalised, hsessions, hroom, ht,
    (orphan_teardown_safe hrun).2.2.2.1 "r" 10 t ht⟩

end Orphanage

end VoxTranslate.Rooms
