import Mathlib.Logic.Function.Basic
import VoxTranslate.Webinar.Primary

/-!
# Presence in a webinar

Each connection of a webinar joins and leaves an entry of a concurrent map.  Every operation on
the map takes the lock of the entry, and `leave` uses two of them: it removes its connection and
looks whether the entry is empty, drops the lock, and removes the entry.  The state below holds
what each connection's task has done so far, so a step may fall between any two lock
acquisitions.

A connection that joins between the look and the removal is removed with the entry.
-/

namespace VoxTranslate.Webinar

open Lib

/-- Where the task of a connection is. -/
inductive Pc where
  | idle
  /-- `join` has drawn the id. -/
  | drawn (conn : Viewer)
  /-- `join` holds the lock of the entry, which exists. -/
  | entered (conn : Viewer)
  | inserted (conn : Viewer)
  /-- `join` has returned. -/
  | present (conn : Viewer)
  /-- `leave` was called. -/
  | leaving
  /-- `leave` holds the lock of the entry. -/
  | holding
  /-- `leave` has removed the connection and looked whether the entry is empty. -/
  | checked (empty : Bool)
  /-- `leave` found the entry empty and dropped the lock. -/
  | emptied
  | gone
  deriving DecidableEq, Repr

/-- The task holds the lock of the entry. -/
def Pc.holdsLock : Pc → Bool
  | entered _ | inserted _ | holding | checked _ => true
  | _ => false

/-- The task is in `leave`, or past it. -/
def Pc.leaves : Pc → Bool
  | idle | drawn _ | entered _ | inserted _ | present _ => false
  | _ => true

/-- What the task of a connection that does not leave has registered. -/
def Pc.kept : Pc → Option Viewer
  | inserted conn | present conn => some conn
  | _ => none

/-- A frame on the socket of a viewer. -/
inductive Frame where
  | count (audience : Nat)
  | text (payload : String)
  deriving DecidableEq, Repr

/-- The broadcasts of the registry. -/
inductive Broadcast where
  | count
  | subtitle (payload : String)
  | toLang (lang payload : String)
  | chat (payload : String)
  deriving DecidableEq, Repr

/-- Whom a broadcast is for: counts and chat for everyone, subtitles for the viewers, speech for
the viewers of its language. -/
def Broadcast.isFor : Broadcast → Viewer → Bool
  | .count, _ | .chat _, _ => true
  | .subtitle _, v => !v.isHost
  | .toLang lang _, v => !v.isHost && v.lang = some lang

/-- The presence registry, as far as one webinar goes. -/
structure Presence where
  /-- The entry of the webinar in `rooms`. -/
  room : Option (Assoc Nat Viewer)
  next : Nat
  /-- Who holds the lock of the entry. -/
  lock : Option Nat
  pc : Nat → Pc
  /-- The webinar has an entry in `stt_active`. -/
  sttActive : Bool
  /-- The guards that are alive. -/
  guards : Nat
  /-- What was sent to each connection. -/
  received : Nat → List Frame
  /-- What was broadcast for each connection while it was present. -/
  owed : Nat → List Frame

namespace Presence

def init : Presence where
  room := none
  next := 0
  lock := none
  pc := fun _ => .idle
  sttActive := false
  guards := 0
  received := fun _ => []
  owed := fun _ => []

/-- What is registered under an id. -/
def registered (s : Presence) (id : Nat) : Option Viewer := s.room.bind fun r => r.lookup id

/-- The connections of the entry. -/
def conns (s : Presence) : List (Sigma fun _ : Nat => Viewer) :=
  match s.room with
  | some room => room.entries
  | none => []

/-- The connections that are counted. -/
def audience (s : Presence) : List (Sigma fun _ : Nat => Viewer) :=
  s.conns.filter fun e => !e.2.isHost

/-- The audience count. -/
def count (s : Presence) : Nat := s.audience.length

/-- The subtitle languages. -/
def languages (s : Presence) : List String := targetLanguages (s.conns.map Sigma.snd)

/-- The frame of a broadcast. -/
def frame (s : Presence) : Broadcast → Frame
  | .count => .count s.count
  | .subtitle payload | .toLang _ payload | .chat payload => .text payload

/-- The connection whose join is complete and whose leave has not begun. -/
def here (s : Presence) (id : Nat) : Option Viewer :=
  match s.pc id with
  | .present conn => some conn
  | _ => none

def setPc (s : Presence) (id : Nat) (p : Pc) : Presence :=
  { s with pc := Function.update s.pc id p }

/-- One step of one task. -/
inductive Act where
  /-- `fetch_add`. -/
  | connect (conn : Viewer)
  /-- `entry(code).or_default()`. -/
  | joinLock (id : Nat)
  | joinInsert (id : Nat)
  | joinUnlock (id : Nat)
  | disconnect (id : Nat)
  /-- `get_mut(code)`. -/
  | leaveLock (id : Nat)
  /-- `room.remove(&id)` and `room.is_empty()`. -/
  | leaveCheck (id : Nat)
  /-- `drop(room)`. -/
  | leaveUnlock (id : Nat)
  /-- `self.rooms.remove(code)`. -/
  | leaveRemove (id : Nat)
  | broadcast (b : Broadcast)
  | beginStt
  /-- The guard is dropped. -/
  | endStt
  deriving DecidableEq, Repr

/-- The step function; `none` where the task is elsewhere or has to wait for the lock. -/
def step (s : Presence) : Act → Option Presence
  | .connect conn => some { s.setPc s.next (.drawn conn) with next := s.next + 1 }
  | .joinLock id =>
    match s.pc id with
    | .drawn conn =>
      if s.lock = none then
        some { s.setPc id (.entered conn) with room := some (s.room.getD ∅), lock := some id }
      else none
    | _ => none
  | .joinInsert id =>
    match s.pc id with
    | .entered conn =>
      some { s.setPc id (.inserted conn) with room := s.room.map fun r => r.insert id conn }
    | _ => none
  | .joinUnlock id =>
    match s.pc id with
    | .inserted conn => some { s.setPc id (.present conn) with lock := none }
    | _ => none
  | .disconnect id =>
    match s.pc id with
    | .present _ => some (s.setPc id .leaving)
    | _ => none
  | .leaveLock id =>
    match s.pc id with
    | .leaving =>
      if s.lock = none then
        match s.room with
        | some _ => some { s.setPc id .holding with lock := some id }
        | none => some (s.setPc id .gone)
      else none
    | _ => none
  | .leaveCheck id =>
    match s.pc id, s.room with
    | .holding, some room =>
      let room := room.erase id
      some { s.setPc id (.checked room.entries.isEmpty) with room := some room }
    | _, _ => none
  | .leaveUnlock id =>
    match s.pc id with
    | .checked empty => some { s.setPc id (if empty then .emptied else .gone) with lock := none }
    | _ => none
  | .leaveRemove id =>
    match s.pc id with
    | .emptied => if s.lock = none then some { s.setPc id .gone with room := none } else none
    | _ => none
  | .broadcast b =>
    if s.lock = none then
      some { s with
        received := fun id =>
          s.received id ++ if (s.registered id).any b.isFor then [s.frame b] else []
        owed := fun id => s.owed id ++ if (s.here id).any b.isFor then [s.frame b] else [] }
    else none
  | .beginStt =>
    if s.sttActive then some s
    else some { s with sttActive := true, guards := s.guards + 1 }
  | .endStt =>
    if s.guards = 0 then none
    else some { s with sttActive := false, guards := s.guards - 1 }

/-- A leave that removes the entry finds nobody in it whose join is complete. -/
def removesNobody (s : Presence) : Act → Bool
  | .leaveRemove _ => s.conns.all fun e => (s.here e.1).isNone
  | _ => true

/-- Every connection that is here is registered once, is counted once, and has received what was
broadcast for it; and one session of transcription holds the slot at most. -/
structure LosesNobody (s : Presence) : Prop where
  registered : ∀ id conn, s.here id = some conn →
    (s.conns.filter fun e => e.1 = id) = [⟨id, conn⟩]
  counted : ∀ id conn, s.here id = some conn →
    (s.audience.filter fun e => e.1 = id) = if conn.isHost then [] else [⟨id, conn⟩]
  language : ∀ id conn lang, s.here id = some conn → conn.isHost = false →
    conn.lang = some lang → s.languages.count lang = 1
  served : ∀ id, s.owed id <+: s.received id
  slot : s.guards ≤ 1

/-- What the tasks and the registry know of each other. -/
structure Tracks (s : Presence) : Prop where
  fresh : ∀ id, s.next ≤ id → s.pc id = .idle
  locked : ∀ id, (s.pc id).holdsLock = true → s.lock = some id
  entered : ∀ id conn, s.pc id = .entered conn → s.room.isSome = true
  joined : ∀ id, (s.pc id).leaves = false →
    s.registered id = (s.pc id).kept ∧ s.received id = s.owed id
  served : ∀ id, s.owed id <+: s.received id
  slot : s.guards = if s.sttActive then 1 else 0

variable {s t : Presence} {a : Act} {acts : List Act} {id : Nat} {conn : Viewer} {p : Pc}

lemma init_tracks : init.Tracks where
  fresh _ _ := rfl
  locked _ h := by cases h
  entered _ _ h := by cases h
  joined _ _ := ⟨rfl, rfl⟩
  served _ := List.prefix_rfl
  slot := rfl

lemma here_eq_some : s.here id = some conn ↔ s.pc id = .present conn := by
  simp only [here]
  split <;> simp_all

/-! ## What is registered -/

lemma filter_conns (h : s.registered id = some conn) :
    (s.conns.filter fun e => e.1 = id) = [⟨id, conn⟩] := by
  simp only [registered, Option.bind_eq_some_iff] at h
  obtain ⟨room, hroom, hlookup⟩ := h
  simp only [conns, hroom]
  exact Assoc.filter_entries_of_lookup hlookup

lemma mem_conns (h : s.registered id = some conn) : ⟨id, conn⟩ ∈ s.conns := by
  have hmem : (⟨id, conn⟩ : Sigma fun _ : Nat => Viewer) ∈ s.conns.filter fun e => e.1 = id := by
    rw [filter_conns h]
    exact List.mem_singleton_self _
  exact (List.mem_filter.mp hmem).1

lemma filter_audience (h : s.registered id = some conn) :
    (s.audience.filter fun e => e.1 = id) = if conn.isHost then [] else [⟨id, conn⟩] := by
  rw [audience, List.filter_comm, filter_conns h]
  cases hhost : conn.isHost <;> simp [hhost]

lemma count_languages {lang : String} (h : s.registered id = some conn)
    (hhost : conn.isHost = false) (hlang : conn.lang = some lang) :
    s.languages.count lang = 1 := by
  refine List.count_eq_one_of_mem (nodup_eraseDups _) ?_
  rw [languages, targetLanguages, List.mem_eraseDups, List.mem_filterMap]
  refine ⟨conn, List.mem_filter.mpr ⟨?_, by simp [hhost]⟩, hlang⟩
  exact List.mem_map_of_mem (mem_conns h)

lemma Tracks.losesNobody (h : s.Tracks) : s.LosesNobody := by
  have hkept : ∀ id conn, s.here id = some conn → s.registered id = some conn := by
    intro id conn hhere
    have hpc := here_eq_some.mp hhere
    have hjoined := (h.joined id (by rw [hpc]; rfl)).1
    rwa [hpc] at hjoined
  exact
    { registered := fun id conn hhere => filter_conns (hkept id conn hhere)
      counted := fun id conn hhere => filter_audience (hkept id conn hhere)
      language := fun id conn lang hhere => count_languages (hkept id conn hhere)
      served := h.served
      slot := by rw [h.slot]; split <;> decide }

/-! ## One step -/

/-- A task moves on, and of the registry changes only what is its own. -/
lemma Tracks.move {room : Option (Assoc Nat Viewer)} {lock : Option Nat} {next : Nat}
    (h : s.Tracks) (hid : id < next) (hnext : s.next ≤ next)
    (hothers : ∀ j, j ≠ id → (s.pc j).holdsLock = true → lock = s.lock ∧ room = s.room)
    (hroom : ∀ j, j ≠ id → (s.pc j).leaves = false →
      (room.bind fun r => r.lookup j) = s.registered j)
    (hlock : p.holdsLock = true → lock = some id)
    (hentered : ∀ conn, p = .entered conn → room.isSome = true)
    (hself : p.leaves = false →
      (room.bind fun r => r.lookup id) = p.kept ∧ s.received id = s.owed id) :
    { s.setPc id p with room := room, lock := lock, next := next }.Tracks where
  fresh j hj := by
    have hne : j ≠ id := (hid.trans_le hj).ne'
    simp only [setPc, Function.update_of_ne hne]
    exact h.fresh j (hnext.trans hj)
  locked j hj := by
    by_cases heq : j = id
    · subst heq
      simp only [setPc, Function.update_self] at hj
      exact hlock hj
    · simp only [setPc, Function.update_of_ne heq] at hj
      exact (hothers j heq hj).1.trans (h.locked j hj)
  entered j conn hj := by
    by_cases heq : j = id
    · subst heq
      simp only [setPc, Function.update_self] at hj
      exact hentered conn hj
    · simp only [setPc, Function.update_of_ne heq] at hj
      simp only [(hothers j heq (by rw [hj]; rfl)).2]
      exact h.entered j conn hj
  joined j hj := by
    by_cases heq : j = id
    · subst heq
      simp only [setPc, Function.update_self] at hj ⊢
      exact hself hj
    · simp only [setPc, Function.update_of_ne heq] at hj ⊢
      exact ⟨(hroom j heq hj).trans (h.joined j hj).1, (h.joined j hj).2⟩
  served := h.served
  slot := h.slot

/-- While the lock is free, or one's own, no other task is at work. -/
lemma Tracks.alone {β : Prop} (h : s.Tracks) (hfree : s.lock = none ∨ s.lock = some id) :
    ∀ j, j ≠ id → (s.pc j).holdsLock = true → β := by
  intro j hne hj
  have hlock := h.locked j hj
  rcases hfree with hnone | hown
  · rw [hnone] at hlock
    cases hlock
  · rw [hown] at hlock
    cases hlock
    exact absurd rfl hne

lemma Tracks.lt_next (h : s.Tracks) (hpc : s.pc id ≠ .idle) : id < s.next := by
  by_contra hge
  exact hpc (h.fresh id (Nat.le_of_not_lt hge))

lemma Tracks.connect (h : s.Tracks) (hstep : s.step (.connect conn) = some t) : t.Tracks := by
  cases hstep
  have hidle := h.fresh s.next le_rfl
  have hjoined := h.joined s.next (by rw [hidle]; rfl)
  rw [hidle] at hjoined
  exact h.move (Nat.lt_succ_self _) (Nat.le_succ _) (fun _ _ _ => ⟨rfl, rfl⟩)
    (fun _ _ _ => rfl) (fun hp => by cases hp) (fun _ hp => by cases hp) (fun _ => hjoined)

lemma Tracks.joinLock (h : s.Tracks) (hstep : s.step (.joinLock id) = some t) : t.Tracks := by
  simp only [step] at hstep
  split at hstep
  case h_2 => cases hstep
  case h_1 conn hpc =>
    split_ifs at hstep with hlock
    cases hstep
    have hjoined := h.joined id (by rw [hpc]; rfl)
    rw [hpc] at hjoined
    have hlookup : ∀ j, (some (s.room.getD ∅)).bind (fun r => r.lookup j) = s.registered j := by
      intro j
      rw [registered]
      cases s.room <;> rfl
    exact h.move (h.lt_next (by rw [hpc]; simp)) le_rfl (h.alone (.inl hlock))
      (fun j _ _ => hlookup j) (fun _ => rfl) (fun _ _ => rfl)
      (fun _ => ⟨(hlookup id).trans hjoined.1, hjoined.2⟩)

lemma Tracks.joinInsert (h : s.Tracks) (hstep : s.step (.joinInsert id) = some t) : t.Tracks := by
  simp only [step] at hstep
  split at hstep
  case h_2 => cases hstep
  case h_1 conn hpc =>
    cases hstep
    have hown := h.locked id (by rw [hpc]; rfl)
    obtain ⟨room, hroom⟩ := Option.isSome_iff_exists.mp (h.entered id conn hpc)
    have hjoined := h.joined id (by rw [hpc]; rfl)
    rw [hroom, Option.map_some]
    refine h.move (h.lt_next (by rw [hpc]; simp)) le_rfl (h.alone (.inr hown))
      (fun j hne _ => ?_) (fun _ => hown) (fun _ hp => by cases hp)
      (fun _ => ⟨AList.lookup_insert room, hjoined.2⟩)
    rw [registered, hroom]
    exact AList.lookup_insert_ne hne

lemma Tracks.joinUnlock (h : s.Tracks) (hstep : s.step (.joinUnlock id) = some t) : t.Tracks := by
  simp only [step] at hstep
  split at hstep
  case h_2 => cases hstep
  case h_1 conn hpc =>
    cases hstep
    have hown := h.locked id (by rw [hpc]; rfl)
    have hjoined := h.joined id (by rw [hpc]; rfl)
    rw [hpc] at hjoined
    exact h.move (h.lt_next (by rw [hpc]; simp)) le_rfl (h.alone (.inr hown))
      (fun _ _ _ => rfl) (fun hp => by cases hp) (fun _ hp => by cases hp) (fun _ => hjoined)

lemma Tracks.disconnect (h : s.Tracks) (hstep : s.step (.disconnect id) = some t) : t.Tracks := by
  simp only [step] at hstep
  split at hstep
  case h_2 => cases hstep
  case h_1 conn hpc =>
    cases hstep
    exact h.move (h.lt_next (by rw [hpc]; simp)) le_rfl (fun _ _ _ => ⟨rfl, rfl⟩)
      (fun _ _ _ => rfl) (fun hp => by cases hp) (fun _ hp => by cases hp)
      (fun hp => by cases hp)

lemma Tracks.leaveLock (h : s.Tracks) (hstep : s.step (.leaveLock id) = some t) : t.Tracks := by
  simp only [step] at hstep
  split at hstep
  case h_2 => cases hstep
  case h_1 hpc =>
    have hlt : id < s.next := h.lt_next (by rw [hpc]; simp)
    split_ifs at hstep with hlock
    split at hstep
    · cases hstep
      exact h.move hlt le_rfl (h.alone (.inl hlock)) (fun _ _ _ => rfl) (fun _ => rfl)
        (fun _ hp => by cases hp) (fun hp => by cases hp)
    · cases hstep
      exact h.move hlt le_rfl (fun _ _ _ => ⟨rfl, rfl⟩) (fun _ _ _ => rfl)
        (fun hp => by cases hp) (fun _ hp => by cases hp) (fun hp => by cases hp)

lemma Tracks.leaveCheck (h : s.Tracks) (hstep : s.step (.leaveCheck id) = some t) : t.Tracks := by
  simp only [step] at hstep
  split at hstep
  case h_2 => cases hstep
  case h_1 room hpc hroom =>
    cases hstep
    have hown := h.locked id (by rw [hpc]; rfl)
    refine h.move (h.lt_next (by rw [hpc]; simp)) le_rfl (h.alone (.inr hown))
      (fun j hne _ => ?_) (fun _ => hown) (fun _ hp => by cases hp) (fun hp => by cases hp)
    rw [registered, hroom]
    exact AList.lookup_erase_ne hne

lemma Tracks.leaveUnlock (h : s.Tracks) (hstep : s.step (.leaveUnlock id) = some t) : t.Tracks := by
  simp only [step] at hstep
  split at hstep
  case h_2 => cases hstep
  case h_1 empty hpc =>
    cases hstep
    have hown := h.locked id (by rw [hpc]; rfl)
    refine h.move (h.lt_next (by rw [hpc]; simp)) le_rfl (h.alone (.inr hown))
      (fun _ _ _ => rfl) (fun hp => ?_) (fun conn hp => ?_) (fun hp => ?_) <;>
    cases empty <;> cases hp

lemma Tracks.leaveRemove (h : s.Tracks) (hguard : s.removesNobody (.leaveRemove id) = true)
    (hstep : s.step (.leaveRemove id) = some t) : t.Tracks := by
  simp only [step] at hstep
  split at hstep
  case h_2 => cases hstep
  case h_1 hpc =>
    split_ifs at hstep with hlock
    cases hstep
    refine h.move (h.lt_next (by rw [hpc]; simp)) le_rfl (h.alone (.inl hlock))
      (fun j _ hj => ?_) (fun hp => by cases hp) (fun _ hp => by cases hp)
      (fun hp => by cases hp)
    -- Whoever is registered still is here, since nobody holds the lock.
    rw [(h.joined j hj).1]
    cases hpcj : s.pc j with
    | inserted conn =>
      have hheld := h.locked j (by rw [hpcj]; rfl)
      rw [hlock] at hheld
      cases hheld
    | present conn =>
      have hmem := mem_conns ((h.joined j hj).1.trans (by rw [hpcj]; rfl))
      have hnone := List.all_eq_true.mp hguard _ hmem
      rw [here_eq_some.mpr hpcj] at hnone
      cases hnone
    | _ => rfl

/-- A broadcast reaches everyone who is here. -/
lemma Tracks.broadcast {b : Broadcast} (h : s.Tracks)
    (hstep : s.step (.broadcast b) = some t) : t.Tracks := by
  simp only [step] at hstep
  split_ifs at hstep with hlock
  cases hstep
  have hkept : ∀ id, (s.pc id).leaves = false → s.registered id = s.here id := by
    intro id hid
    rw [(h.joined id hid).1, here]
    cases hpc : s.pc id with
    | inserted conn =>
      have hheld := h.locked id (by rw [hpc]; rfl)
      rw [hlock] at hheld
      cases hheld
    | _ => rfl
  refine ⟨h.fresh, h.locked, h.entered, fun id hid => ⟨(h.joined id hid).1, ?_⟩, fun id => ?_,
    h.slot⟩
  · simp only [hkept id hid, (h.joined id hid).2]
  · cases hleaves : (s.pc id).leaves with
    | false =>
      simp only [hkept id hleaves, (h.joined id hleaves).2]
      exact List.prefix_rfl
    | true =>
      have hnone : s.here id = none := by
        cases hpc : s.pc id <;> simp_all [here, Pc.leaves]
      simp only [hnone, Option.any_none, Bool.false_eq_true, if_false, List.append_nil]
      exact (h.served id).trans (List.prefix_append _ _)

/-- The step lemma. -/
lemma Tracks.step (h : s.Tracks) (hguard : s.removesNobody a = true)
    (hstep : s.step a = some t) : t.Tracks := by
  cases a with
  | connect conn => exact h.connect hstep
  | joinLock id => exact h.joinLock hstep
  | joinInsert id => exact h.joinInsert hstep
  | joinUnlock id => exact h.joinUnlock hstep
  | disconnect id => exact h.disconnect hstep
  | leaveLock id => exact h.leaveLock hstep
  | leaveCheck id => exact h.leaveCheck hstep
  | leaveUnlock id => exact h.leaveUnlock hstep
  | leaveRemove id => exact h.leaveRemove hguard hstep
  | broadcast b => exact h.broadcast hstep
  | beginStt =>
    simp only [Presence.step] at hstep
    have hslot := h.slot
    split_ifs at hstep with hactive <;> cases hstep
    · exact h
    · rw [if_neg hactive] at hslot
      exact { h with slot := by simp [hslot] }
  | endStt =>
    simp only [Presence.step] at hstep
    have hslot := h.slot
    split_ifs at hstep with hguards
    cases hstep
    refine { h with slot := ?_ }
    split_ifs at hslot
    · simp [hslot]
    · exact absurd hslot hguards

/-- A removal of the entry with somebody in it loses them. -/
lemma not_losesNobody (hguard : s.removesNobody a = false) (hstep : s.step a = some t) :
    ¬ t.LosesNobody := by
  cases a with
  | leaveRemove id =>
    simp only [Presence.step] at hstep
    split at hstep
    case h_2 => cases hstep
    case h_1 hpc =>
      split_ifs at hstep
      cases hstep
      simp only [removesNobody, List.all_eq_false] at hguard
      obtain ⟨e, -, he⟩ := hguard
      have hsome : s.here e.1 ≠ none := fun hnone => he (by rw [hnone]; rfl)
      obtain ⟨conn, hhere⟩ := Option.ne_none_iff_exists'.mp hsome
      have hne : e.1 ≠ id := by
        rintro rfl
        rw [here_eq_some, hpc] at hhere
        cases hhere
      intro hwhole
      have honce := hwhole.registered e.1 conn ?_
      · cases honce
      · rw [here_eq_some] at hhere ⊢
        simpa only [setPc, Function.update_of_ne hne] using hhere
  | _ => cases hguard

/-! ## The run -/

/-- Nobody is lost in any state of a run, and the slot is held once at most, exactly when no leave
removes the entry with somebody in it whose join is complete. -/
theorem loses_nobody_iff (hrun : Run (ofPartial step) init acts s) :
    Run (Guarded (ofPartial step) fun s a => s.removesNobody a = true) init acts s ↔
      ∀ pre t, pre <+: acts → Run (ofPartial step) init pre t → t.LosesNobody :=
  Run.guarded_iff_prefixes (fun _ _ _ h hguard hstep => h.step hguard hstep)
    (fun _ h => h.losesNobody) (fun _ _ _ _ => not_losesNobody) hrun init_tracks

/-- Two viewers come and the first goes, while a session of transcription is held. -/
theorem loses_nobody_sample : ∃ acts s, Run (ofPartial step) init acts s ∧
    (∀ pre t, pre <+: acts → Run (ofPartial step) init pre t → t.LosesNobody) ∧
    s.received 1 = [.count 2, .text "hello"] := by
  let acts : List Act :=
    [.connect ⟨false, some "en"⟩, .connect ⟨false, some "it"⟩, .joinLock 0, .joinInsert 0,
      .joinUnlock 0, .joinLock 1, .joinInsert 1, .joinUnlock 1, .broadcast .count, .beginStt,
      .beginStt, .disconnect 0, .leaveLock 0, .leaveCheck 0, .leaveUnlock 0,
      .broadcast (.toLang "it" "hello"), .endStt, .disconnect 1, .leaveLock 1, .leaveCheck 1,
      .leaveUnlock 1, .leaveRemove 1]
  obtain ⟨s, hguarded, hreceived⟩ : ∃ s,
      Run (Guarded (ofPartial step) fun s a => s.removesNobody a = true) init acts s ∧
      s.received 1 = [.count 2, .text "hello"] := Run.exists_guarded_of_decide (by decide +kernel)
  have hrun := hguarded.ofGuarded
  exact ⟨acts, s, hrun, (loses_nobody_iff hrun).mp hguarded, hreceived⟩

/-- The second viewer joins after the first found the entry empty, and before it removes it: it is
not registered, is not counted, and hears nothing. -/
theorem join_within_leave_is_lost : ∃ acts s, Run (ofPartial step) init acts s ∧
    s.here 1 = some ⟨false, some "it"⟩ ∧ s.registered 1 = none ∧ s.count = 0 ∧
    s.owed 1 = [.text "hello"] ∧ s.received 1 = [] ∧ ¬ s.LosesNobody := by
  let acts : List Act :=
    [.connect ⟨false, some "en"⟩, .joinLock 0, .joinInsert 0, .joinUnlock 0, .disconnect 0,
      .leaveLock 0, .leaveCheck 0, .leaveUnlock 0, .connect ⟨false, some "it"⟩, .joinLock 1,
      .joinInsert 1, .joinUnlock 1, .leaveRemove 0, .broadcast (.chat "hello")]
  obtain ⟨s, hrun, hhere, hregistered, hcount, howed, hreceived⟩ : ∃ s,
      Run (ofPartial step) init acts s ∧ s.here 1 = some ⟨false, some "it"⟩ ∧
      s.registered 1 = none ∧ s.count = 0 ∧ s.owed 1 = [.text "hello"] ∧ s.received 1 = [] :=
    Run.exists_of_decide (by decide +kernel)
  refine ⟨acts, s, hrun, hhere, hregistered, hcount, howed, hreceived, fun hwhole => ?_⟩
  have hserved := hwhole.served 1
  rw [howed, hreceived] at hserved
  exact absurd hserved (by simp)

end Presence

end VoxTranslate.Webinar
