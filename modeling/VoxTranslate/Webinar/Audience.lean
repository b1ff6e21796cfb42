import VoxTranslate.Lib.Distinct
import VoxTranslate.Webinar.Lifecycle
import VoxTranslate.Webinar.Primary

/-!
# The audience and its log (`webinar/presence.rs`)

The registry counts connections, and the log that a broadcast is billed by speaks of guests.  A
connection that opens logs a join of its guest, one that closes a leave; that the guest may
still be there on another connection is not in the log.
-/

namespace VoxTranslate.Webinar

open Lib

/-- The language of a viewer: what does not look like a language is dropped. -/
def viewerLang (raw : Option String) : Option String := raw.bind fun l => (validLang l).toOption

/-- An open connection of the audience. -/
structure Connection where
  guestId : Uuid
  /-- What `record_join` returned. -/
  participantId : Uuid
  lang : Option String
  deriving DecidableEq, Repr

/-- The registry of a webinar, with its rows in the database. -/
structure Audience where
  /-- The guests of `webinar_participants`; the id of a row is its place. -/
  participants : List Uuid
  conns : Assoc Nat Connection
  nextId : Nat
  log : List WebinarEvent
  /-- The connection of each guest that was the last to open or close.  The code keeps no such
  map. -/
  latest : Assoc Uuid Nat

inductive AudienceOp where
  /-- A guest connects, with a language. -/
  | opened (guestId : Uuid) (lang : Option String)
  | closed (id : Nat)
  deriving DecidableEq, Repr

namespace Audience

def empty : Audience := ⟨[], ∅, 0, [], ∅⟩

/-- `INSERT ... ON CONFLICT (webinar_id, guest_id) DO UPDATE`. -/
def upsert (participants : List Uuid) (guestId : Uuid) : List Uuid :=
  if guestId ∈ participants then participants else participants ++ [guestId]

/-- A connection opens or closes at an instant. -/
def step (s : Audience) : Timestamp × AudienceOp → Option Audience
  | (time, .opened guestId lang) =>
    let participants := upsert s.participants guestId
    let participantId := participants.idxOf guestId
    some {
      participants := participants
      conns := s.conns.insert s.nextId ⟨guestId, participantId, viewerLang lang⟩
      nextId := s.nextId + 1
      log := s.log ++ [⟨participantId, .join, viewerLang lang, time⟩]
      latest := s.latest.insert guestId s.nextId }
  | (time, .closed id) =>
    (s.conns.lookup id).map fun conn =>
      { s with
        conns := s.conns.erase id
        log := s.log ++ [⟨conn.participantId, .leave, none, time⟩]
        latest := s.latest.insert conn.guestId id }

/-- The connections as the registry has them. -/
def viewers (s : Audience) : List Viewer := s.conns.values.map fun c => ⟨false, c.lang⟩

/-- The languages a translation goes into. -/
def streams (source : String) (s : Audience) : List String := WebinarSession.want source s.viewers

/-- In every language that somebody needs a translation into, some connection was the last one of
its guest to open or close. -/
def Heard (source : String) (s : Audience) : Prop :=
  ∀ id c lang, s.conns.lookup id = some c → c.lang = some lang → lang ≠ source →
    ∃ id' c', s.conns.lookup id' = some c' ∧ c'.lang = some lang ∧
      s.latest.lookup c'.guestId = some id'

end Audience

/-! ## A log in order -/

section Log

variable {source : String} {m m' : Assoc Uuid String} {es : List WebinarEvent}
  {events : List WebinarEvent} {actualStart actualEnd t : Timestamp}

/-- What holds of a list only up to some place cuts it in two. -/
lemma filter_append_filter_not {α : Type*} {p : α → Bool} {l : List α}
    (hl : l.Pairwise fun a b => p b = true → p a = true) :
    l = l.filter p ++ l.filter fun a => !p a := by
  induction l with
  | nil => rfl
  | cons a l ih =>
    obtain ⟨ha, hl⟩ := List.pairwise_cons.mp hl
    by_cases hp : p a = true
    · rw [List.filter_cons_of_pos hp, List.filter_cons_of_neg (by simp [hp]), List.cons_append,
        ← ih hl]
    · have hnone : (a :: l).filter p = [] := by
        rw [List.filter_eq_nil_iff]
        rintro b hb hpb
        rcases List.mem_cons.mp hb with rfl | hb
        · exact hp hpb
        · exact hp (ha b hb hpb)
      have hall : (a :: l).filter (fun b => !p b) = a :: l := by
        rw [List.filter_eq_self]
        intro b hb
        have hnot := (List.filter_eq_nil_iff.mp hnone) b hb
        simpa using hnot
      rw [hnone, hall, List.nil_append]

/-- Two audiences that say the same of every participant. -/
def Agree (m m' : Assoc Uuid String) : Prop := ∀ pid, m.lookup pid = m'.lookup pid

lemma Agree.trans {m'' : Assoc Uuid String} (h : Agree m m') (h' : Agree m' m'') : Agree m m'' :=
  fun pid => (h pid).trans (h' pid)

lemma lookup_move (m : Assoc Uuid String) (e : WebinarEvent) (pid : Uuid) :
    (move source m e).lookup pid =
      if pid = e.participantId then
        match e.kind with
        | .join => some (e.languageCode.getD source)
        | .leave => none
        | .other => m.lookup pid
      else m.lookup pid := by
  rw [move]
  split_ifs with hpid
  · subst hpid
    cases e.kind <;> simp
  · cases e.kind with
    | join => exact AList.lookup_insert_ne hpid
    | leave => exact AList.lookup_erase_ne hpid
    | other => rfl

lemma Agree.foldl (h : Agree m m') (es : List WebinarEvent) :
    Agree (es.foldl (move source) m) (es.foldl (move source) m') := by
  induction es generalizing m m' with
  | nil => exact h
  | cons e es ih =>
    refine ih fun pid => ?_
    rw [lookup_move, lookup_move, h pid]

lemma mem_foreign {lang : String} :
    lang ∈ foreign source m ↔ lang ≠ source ∧ ∃ pid, m.lookup pid = some lang := by
  rw [foreign, List.mem_eraseDups, List.mem_filter, Assoc.mem_values, decide_eq_true_iff, and_comm]

lemma Agree.kNow (h : Agree m m') : kNow source m = kNow source m' := by
  refine length_eq_of_mem_iff (nodup_eraseDups _) (nodup_eraseDups _) fun lang => ?_
  have hpid : (∃ pid, m.lookup pid = some lang) ↔ ∃ pid, m'.lookup pid = some lang :=
    exists_congr fun pid => by rw [h pid]
  exact (mem_foreign.trans (and_congr_right fun _ => hpid)).trans mem_foreign.symm

/-- What an event leaves of its participant. -/
def afterEvent (source : String) (e : WebinarEvent) : Option String :=
  if e.kind = .join then some (e.languageCode.getD source) else none

/-- A map of the latest events says who is there. -/
def Says (source : String) (latest : Assoc Uuid WebinarEvent) (m : Assoc Uuid String) : Prop :=
  ∀ pid, m.lookup pid = (latest.lookup pid).bind (afterEvent source)

lemma Says.move {latest : Assoc Uuid WebinarEvent} {e : WebinarEvent} (h : Says source latest m)
    (hkind : e.kind ≠ .other) :
    Says source (latest.insert e.participantId e) (move source m e) := by
  intro pid
  rw [lookup_move]
  split_ifs with hpid
  · rw [hpid, AList.lookup_insert, Option.bind_some, afterEvent]
    cases hk : e.kind with
    | join => rfl
    | leave => rfl
    | other => exact absurd hk hkind
  · rw [AList.lookup_insert_ne hpid]
    exact h pid

/-- Where no event comes before an earlier one, the latest of each participant is the last. -/
lemma foldl_latest (hsorted : es.Pairwise fun a b => a.time < b.time)
    (hkinds : ∀ e ∈ es, e.kind ≠ .other) {latest : Assoc Uuid WebinarEvent}
    (hold : ∀ pid prev, latest.lookup pid = some prev → ∀ e ∈ es, prev.time < e.time)
    (h : Says source latest m) :
    Says source (es.foldl (fun m e =>
      match m.lookup e.participantId with
      | some prev =>
        if prev.time > e.time then m
        else if prev.time = e.time && !(prev.kind = .leave && e.kind = .join) then m
        else m.insert e.participantId e
      | none => m.insert e.participantId e) latest) (es.foldl (move source) m) := by
  induction es generalizing latest m with
  | nil => exact h
  | cons e es ih =>
    obtain ⟨hfirst, hrest⟩ := List.pairwise_cons.mp hsorted
    have hkind := hkinds e List.mem_cons_self
    -- the event replaces whatever its participant did before
    have hstep : (match latest.lookup e.participantId with
        | some prev =>
          if prev.time > e.time then latest
          else if prev.time = e.time && !(prev.kind = .leave && e.kind = .join) then latest
          else latest.insert e.participantId e
        | none => latest.insert e.participantId e) = latest.insert e.participantId e := by
      cases hprev : latest.lookup e.participantId with
      | none => rfl
      | some prev =>
        have hlt := hold _ prev hprev e List.mem_cons_self
        simp [not_lt.mpr hlt.le, hlt.ne]
    rw [List.foldl_cons, List.foldl_cons, hstep]
    refine ih hrest (fun e' he' => hkinds e' (List.mem_cons_of_mem _ he')) ?_ (h.move hkind)
    intro pid prev hprev e' he'
    by_cases hpid : pid = e.participantId
    · rw [hpid, AList.lookup_insert] at hprev
      cases hprev
      exact hfirst e' he'
    · rw [AList.lookup_insert_ne hpid] at hprev
      exact hold pid prev hprev e' (List.mem_cons_of_mem _ he')

/-- The audience that is read off the entries of a map. -/
lemma lookup_foldl_entries {l : List (Sigma fun _ : Uuid => WebinarEvent)} (hl : l.NodupKeys)
    (m : Assoc Uuid String) (hm : ∀ entry ∈ l, m.lookup entry.1 = none) (pid : Uuid) :
    (l.foldl (fun active entry =>
      if entry.2.kind = .join then active.insert entry.1 (entry.2.languageCode.getD source)
      else active) m).lookup pid =
      match l.dlookup pid with
      | some e => afterEvent source e
      | none => m.lookup pid := by
  induction l generalizing m with
  | nil => rfl
  | cons entry l ih =>
    obtain ⟨k, e⟩ := entry
    obtain ⟨hfresh, hl⟩ := List.nodupKeys_cons.mp hl
    have hself : (if e.kind = .join then m.insert k (e.languageCode.getD source) else m).lookup k =
        afterEvent source e := by
      rw [afterEvent]
      split_ifs
      · exact AList.lookup_insert m
      · exact hm ⟨k, e⟩ List.mem_cons_self
    have hother : ∀ k' ≠ k,
        (if e.kind = .join then m.insert k (e.languageCode.getD source) else m).lookup k' =
          m.lookup k' := by
      intro k' hne
      split_ifs
      · exact AList.lookup_insert_ne hne
      · rfl
    rw [List.foldl_cons, ih hl]
    · by_cases hpid : pid = k
      · subst hpid
        rw [List.dlookup_cons_eq, List.dlookup_eq_none.mpr hfresh]
        exact hself
      · rw [List.dlookup_cons_ne l ⟨k, e⟩ hpid, hother pid hpid]
    · rintro ⟨k', e'⟩ hentry
      have hmem : k' ∈ l.keys := (List.mem_keys_of_mem hentry :)
      have hne : k' ≠ k := by
        rintro rfl
        exact hfresh hmem
      rw [hother k' hne]
      exact hm ⟨k', e'⟩ (List.mem_cons_of_mem _ hentry)

/-- Who is there at go-live: what a replay of the log up to then says. -/
lemma seed_agree (hsorted : events.Pairwise fun a b => a.time < b.time)
    (hkinds : ∀ e ∈ events, e.kind ≠ .other) :
    Agree (seed source events actualStart)
      ((events.filter fun e => e.time < actualStart).foldl (move source) ∅) := by
  intro pid
  have hsays : Says source (latestPre events actualStart)
      ((events.filter fun e => e.time < actualStart).foldl (move source) ∅) := by
    refine foldl_latest (hsorted.filter _) (fun e he => hkinds e (List.mem_of_mem_filter he)) ?_ ?_
    · intro pid prev hprev
      cases hprev
    · intro pid
      rfl
  rw [seed, lookup_foldl_entries (latestPre events actualStart).nodupKeys ∅ (fun _ _ => rfl) pid,
    hsays pid]
  show _ = (List.dlookup pid (latestPre events actualStart).entries).bind (afterEvent source)
  cases List.dlookup pid (latestPre events actualStart).entries <;> rfl

/-- **At each instant of the broadcast the sweep has the audience that a replay of the log has.** -/
theorem activeAt_agree (hsorted : events.Pairwise fun a b => a.time < b.time)
    (hkinds : ∀ e ∈ events, e.kind ≠ .other) (hlow : actualStart ≤ t) (hhigh : t ≤ actualEnd) :
    Agree (activeAt source events actualStart actualEnd t)
      ((events.filter fun e => e.time ≤ t).foldl (move source) ∅) := by
  -- the window is in order as it is
  have hwindow : inWindow events actualStart actualEnd =
      events.filter fun e => actualStart ≤ e.time && e.time ≤ actualEnd := by
    refine List.Pairwise.insertionSort_eq ((hsorted.filter _).imp fun h => .inl h)
  have hlate : (inWindow events actualStart actualEnd).filter (fun e => e.time ≤ t) =
      (events.filter fun e => e.time ≤ t).filter fun e => !decide (e.time < actualStart) := by
    rw [hwindow, List.filter_filter, List.filter_filter]
    refine List.filter_congr fun e _ => ?_
    have hnot : (!decide (e.time < actualStart)) = decide (actualStart ≤ e.time) := by
      rw [← decide_not, decide_eq_decide]
      exact not_lt
    rw [hnot]
    by_cases he : e.time ≤ t
    · simp [he, he.trans hhigh]
    · simp [he]
  have hearly : (events.filter fun e => e.time ≤ t).filter
      (fun e => decide (e.time < actualStart)) =
      events.filter fun e => e.time < actualStart := by
    rw [List.filter_filter]
    refine List.filter_congr fun e _ => ?_
    by_cases he : e.time < actualStart
    · simp [he, (he.trans_le hlow).le]
    · simp [he]
  have hcut : events.filter (fun e => e.time ≤ t) =
      (events.filter fun e => e.time < actualStart) ++
        (inWindow events actualStart actualEnd).filter fun e => e.time ≤ t := by
    rw [hlate, ← hearly]
    refine filter_append_filter_not ((hsorted.filter _).imp fun hab hb => ?_)
    simp only [decide_eq_true_eq] at hb ⊢
    exact hab.trans hb
  rw [hcut, List.foldl_append, activeAt]
  exact (seed_agree hsorted hkinds).foldl _

end Log

/-! ## The registry and the log -/

namespace Audience

/-- The audience that a log speaks of. -/
def replay (source : String) (log : List WebinarEvent) : Assoc Uuid String :=
  log.foldl (move source) ∅

/-- The log says of each guest what the connection says that was the last one of the guest to open
or close. -/
structure Tracked (source : String) (s : Audience) : Prop where
  nodup : s.participants.Nodup
  owner : ∀ id c, s.conns.lookup id = some c → c.guestId ∈ s.participants ∧
    c.participantId = s.participants.idxOf c.guestId ∧ id < s.nextId
  latest : ∀ guestId id, s.latest.lookup guestId = some id → id < s.nextId ∧
    ∀ c, s.conns.lookup id = some c → c.guestId = guestId
  heard : ∀ guestId ∈ s.participants,
    (replay source s.log).lookup (s.participants.idxOf guestId) =
      (s.latest.lookup guestId).bind fun id =>
        (s.conns.lookup id).map fun c => c.lang.getD source
  nobody : ∀ pid, s.participants.length ≤ pid → (replay source s.log).lookup pid = none

variable {source : String} {s t u : Audience} {guestId : Uuid} {lang : Option String} {id : Nat}
  {time : Timestamp} {participants : List Uuid}

lemma mem_upsert {g : Uuid} : g ∈ upsert participants guestId ↔ g ∈ participants ∨ g = guestId := by
  rw [upsert]
  split_ifs with h
  · constructor
    · exact .inl
    · rintro (hg | rfl)
      · exact hg
      · exact h
  · simp

lemma idxOf_upsert {g : Uuid} (h : g ∈ participants) :
    (upsert participants guestId).idxOf g = participants.idxOf g := by
  rw [upsert]
  split_ifs
  · rfl
  · exact List.idxOf_append_of_mem h

lemma nodup_upsert (h : participants.Nodup) : (upsert participants guestId).Nodup := by
  rw [upsert]
  split_ifs with hmem
  · exact h
  · refine List.nodup_append'.mpr ⟨h, List.nodup_singleton guestId, ?_⟩
    rw [List.disjoint_singleton]
    exact hmem

lemma length_upsert : participants.length ≤ (upsert participants guestId).length := by
  rw [upsert]
  split_ifs
  · exact le_refl _
  · simp

lemma replay_concat (log : List WebinarEvent) (e : WebinarEvent) :
    replay source (log ++ [e]) = move source (replay source log) e := by
  rw [replay, List.foldl_append]
  rfl

lemma Tracked.opened (h : s.Tracked source) (hstep : s.step (time, .opened guestId lang) = some t) :
    t.Tracked source := by
  cases hstep
  have hguest : guestId ∈ upsert s.participants guestId := mem_upsert.mpr (.inr rfl)
  refine ⟨nodup_upsert h.nodup, ?_, ?_, ?_, ?_⟩
  · intro id c hc
    by_cases hid : id = s.nextId
    · subst hid
      rw [AList.lookup_insert] at hc
      cases hc
      exact ⟨hguest, rfl, Nat.lt_succ_self _⟩
    · rw [AList.lookup_insert_ne hid] at hc
      obtain ⟨hmem, hpid, hlt⟩ := h.owner id c hc
      exact ⟨mem_upsert.mpr (.inl hmem), hpid.trans (idxOf_upsert hmem).symm,
        Nat.lt_succ_of_lt hlt⟩
  · intro g id hid
    by_cases hg : g = guestId
    · subst hg
      rw [AList.lookup_insert] at hid
      cases hid
      refine ⟨Nat.lt_succ_self _, fun c hc => ?_⟩
      rw [AList.lookup_insert] at hc
      cases hc
      rfl
    · rw [AList.lookup_insert_ne hg] at hid
      obtain ⟨hlt, hown⟩ := h.latest g id hid
      refine ⟨Nat.lt_succ_of_lt hlt, fun c hc => hown c ?_⟩
      rw [AList.lookup_insert_ne hlt.ne] at hc
      exact hc
  · intro g hg
    rw [replay_concat, lookup_move]
    by_cases hgg : g = guestId
    · subst hgg
      rw [if_pos rfl, AList.lookup_insert, Option.bind_some, AList.lookup_insert]
      rfl
    · have hmem : g ∈ s.participants := (mem_upsert.mp hg).resolve_right hgg
      rw [if_neg (fun heq => hgg ((List.idxOf_inj hg).mp heq)), AList.lookup_insert_ne hgg,
        idxOf_upsert hmem, h.heard g hmem]
      cases hlatest : s.latest.lookup g with
      | none => rfl
      | some id =>
        rw [Option.bind_some, Option.bind_some, AList.lookup_insert_ne (h.latest g id hlatest).1.ne]
  · intro pid hpid
    rw [replay_concat, lookup_move, if_neg, h.nobody pid (length_upsert.trans hpid)]
    rintro rfl
    exact absurd (List.idxOf_lt_length_of_mem hguest) (not_lt.mpr hpid)

lemma Tracked.closed (h : s.Tracked source) (hstep : s.step (time, .closed id) = some t) :
    t.Tracked source := by
  obtain ⟨conn, hconn, ht⟩ := Option.map_eq_some_iff.mp hstep
  obtain ⟨hguest, hpid, hlt⟩ := h.owner id conn hconn
  subst ht
  refine ⟨h.nodup, ?_, ?_, ?_, ?_⟩
  · intro id' c hc
    by_cases hid : id' = id
    · subst hid
      rw [AList.lookup_erase] at hc
      cases hc
    · rw [AList.lookup_erase_ne hid] at hc
      exact h.owner id' c hc
  · intro g id' hid'
    by_cases hg : g = conn.guestId
    · subst hg
      rw [AList.lookup_insert] at hid'
      cases hid'
      refine ⟨hlt, fun c hc => ?_⟩
      rw [AList.lookup_erase] at hc
      cases hc
    · rw [AList.lookup_insert_ne hg] at hid'
      obtain ⟨hlt', hown⟩ := h.latest g id' hid'
      refine ⟨hlt', fun c hc => ?_⟩
      by_cases hid : id' = id
      · subst hid
        rw [AList.lookup_erase] at hc
        cases hc
      · rw [AList.lookup_erase_ne hid] at hc
        exact hown c hc
  · intro g hg
    rw [replay_concat, lookup_move]
    by_cases hgg : g = conn.guestId
    · subst hgg
      rw [if_pos hpid.symm, AList.lookup_insert, Option.bind_some, AList.lookup_erase]
      rfl
    · rw [if_neg, AList.lookup_insert_ne hgg, h.heard g hg]
      · cases hlatest : s.latest.lookup g with
        | none => rfl
        | some id' =>
          -- the connection of another guest is not the one that closes
          have hid : id' ≠ id := by
            rintro rfl
            exact hgg ((h.latest g id' hlatest).2 conn hconn).symm
          rw [Option.bind_some, Option.bind_some, AList.lookup_erase_ne hid]
      · rw [hpid]
        exact fun heq => hgg ((List.idxOf_inj hg).mp heq)
  · intro pid hlength
    rw [replay_concat, lookup_move]
    split_ifs
    · rfl
    · exact h.nobody pid hlength

lemma Tracked.empty : Audience.empty.Tracked source where
  nodup := List.nodup_nil
  owner := by
    intro id c hc
    cases hc
  latest := by
    intro g id hid
    cases hid
  heard := by
    intro g hg
    cases hg
  nobody := fun _ _ => rfl

lemma Tracked.ofRun {as : List (Timestamp × AudienceOp)}
    (h : Run (ofPartial step) Audience.empty as s) : s.Tracked source := by
  refine h.invariant (fun s => s.Tracked source) ?_ Tracked.empty
  rintro s ⟨time, op⟩ - t hs hstep
  cases op with
  | opened guestId lang => exact hs.opened hstep
  | closed id => exact hs.closed hstep

/-! ## The streams that are billed -/

/-- The log speaks of the connections that were the last of their guests. -/
lemma Tracked.mem_foreign (h : s.Tracked source) {l : String} :
    l ∈ foreign source (replay source s.log) ↔ l ≠ source ∧ ∃ id c,
      s.conns.lookup id = some c ∧ c.lang = some l ∧ s.latest.lookup c.guestId = some id := by
  rw [Webinar.mem_foreign]
  refine and_congr_right fun hl => ?_
  constructor
  · rintro ⟨pid, hpid⟩
    have hlt : pid < s.participants.length := by
      by_contra hge
      rw [h.nobody pid (not_lt.mp hge)] at hpid
      cases hpid
    have hidx : s.participants.idxOf s.participants[pid] = pid := h.nodup.idxOf_getElem pid hlt
    rw [← hidx, h.heard _ (List.getElem_mem hlt), Option.bind_eq_some_iff] at hpid
    obtain ⟨id, hid, hlang⟩ := hpid
    obtain ⟨c, hc, hlang⟩ := Option.map_eq_some_iff.mp hlang
    refine ⟨id, c, hc, ?_, ?_⟩
    · cases hnone : c.lang with
      | none =>
        rw [hnone] at hlang
        exact absurd hlang.symm hl
      | some l' =>
        rw [hnone] at hlang
        exact congrArg some hlang
    · rw [(h.latest _ id hid).2 c hc]
      exact hid
  · rintro ⟨id, c, hc, hlang, hlatest⟩
    refine ⟨s.participants.idxOf c.guestId, ?_⟩
    rw [h.heard _ (h.owner id c hc).1, hlatest, Option.bind_some, hc, Option.map_some, hlang]
    rfl

lemma mem_streams {l : String} :
    l ∈ s.streams source ↔ l ≠ source ∧ ∃ id c, s.conns.lookup id = some c ∧ c.lang = some l := by
  rw [streams, WebinarSession.want, List.mem_filter, decide_eq_true_iff, and_comm]
  refine and_congr_right fun _ => ?_
  simp only [targetLanguages, List.mem_eraseDups, List.mem_filterMap, List.mem_filter, viewers,
    List.mem_map, Assoc.mem_values]
  constructor
  · rintro ⟨-, ⟨⟨c, ⟨id, hid⟩, rfl⟩, -⟩, hlang⟩
    exact ⟨id, c, hid, hlang⟩
  · rintro ⟨id, c, hid, hlang⟩
    exact ⟨⟨false, c.lang⟩, ⟨⟨c, ⟨id, hid⟩, rfl⟩, rfl⟩, hlang⟩

/-- **The log has as many languages as the registry exactly when each of them is heard.** -/
lemma Tracked.kNow_iff (h : s.Tracked source) :
    kNow source (replay source s.log) = (s.streams source).length ↔ s.Heard source := by
  have hsub : foreign source (replay source s.log) ⊆ s.streams source := by
    intro l hl
    obtain ⟨hne, id, c, hc, hlang, -⟩ := h.mem_foreign.mp hl
    exact mem_streams.mpr ⟨hne, id, c, hc, hlang⟩
  have hnodup : (foreign source (replay source s.log)).Nodup := nodup_eraseDups _
  rw [kNow, length_eq_iff_of_subset hnodup hsub WebinarSession.nodup_want]
  constructor
  · intro hsup id c l hc hlang hne
    obtain ⟨-, hlast⟩ := h.mem_foreign.mp (hsup (mem_streams.mpr ⟨hne, id, c, hc, hlang⟩))
    exact hlast
  · intro hheard l hl
    obtain ⟨hne, id, c, hc, hlang⟩ := mem_streams.mp hl
    exact h.mem_foreign.mpr ⟨hne, hheard id c l hc hlang hne⟩

/-- Every opening and closing is one entry of the log, at its instant. -/
lemma log_run {as : List (Timestamp × AudienceOp)} (h : Run (ofPartial step) s as t) :
    ∃ later, t.log = s.log ++ later ∧ later.map WebinarEvent.time = as.map Prod.fst ∧
      ∀ e ∈ later, e.kind ≠ .other := by
  induction h with
  | nil s => exact ⟨[], by simp⟩
  | @cons s u t a as hstep _ ih =>
    obtain ⟨later, hlog, htimes, hkinds⟩ := ih
    have hfirst : ∃ e, u.log = s.log ++ [e] ∧ e.time = a.1 ∧ e.kind ≠ .other := by
      obtain ⟨time, op⟩ := a
      cases op with
      | opened guestId lang =>
        cases hstep
        exact ⟨_, rfl, rfl, by simp⟩
      | closed id =>
        obtain ⟨conn, -, hu⟩ := Option.map_eq_some_iff.mp hstep
        subst hu
        exact ⟨_, rfl, rfl, by simp⟩
    obtain ⟨e, hu, htime, hkind⟩ := hfirst
    refine ⟨e :: later, ?_, ?_, ?_⟩
    · rw [hlog, hu, List.append_assoc]
      rfl
    · rw [List.map_cons, List.map_cons, htimes, htime]
    · intro e' he'
      rcases List.mem_cons.mp he' with rfl | he'
      · exact hkind
      · exact hkinds e' he'

/-- The log at an instant is the part of the log up to then. -/
lemma log_at {as : List (Timestamp × AudienceOp)} {t : Timestamp}
    (hsorted : as.Pairwise fun a b => a.1 < b.1) (h : Run (ofPartial step) Audience.empty as s)
    (hu : Run (ofPartial step) Audience.empty (as.filter fun a => a.1 ≤ t) u) :
    s.log.filter (fun e => e.time ≤ t) = u.log := by
  have hcut : as = as.filter (fun a => a.1 ≤ t) ++ as.filter fun a => !decide (a.1 ≤ t) := by
    refine filter_append_filter_not (hsorted.imp fun hab hb => ?_)
    simp only [decide_eq_true_eq] at hb ⊢
    exact hab.le.trans hb
  rw [hcut] at h
  obtain ⟨u', hu', hrest⟩ := Run.append_iff.mp h
  obtain rfl : u = u' := by
    rw [Run.ofPartial_iff] at hu hu'
    exact Option.some.inj (hu.symm.trans hu')
  obtain ⟨early, hearly, htimes, -⟩ := log_run hu
  obtain ⟨late, hlate, htimes', -⟩ := log_run hrest
  have hbefore : ∀ e ∈ u.log, e.time ≤ t := by
    intro e he
    have hmem : e.time ∈ (as.filter fun a => a.1 ≤ t).map Prod.fst := by
      rw [← htimes]
      refine List.mem_map_of_mem ?_
      rw [hearly] at he
      exact he
    obtain ⟨a, ha, htime⟩ := List.mem_map.mp hmem
    rw [← htime]
    simpa using (List.mem_filter.mp ha).2
  have hafter : ∀ e ∈ late, t < e.time := by
    intro e he
    have hmem : e.time ∈ (as.filter fun a => !decide (a.1 ≤ t)).map Prod.fst := by
      rw [← htimes']
      exact List.mem_map_of_mem he
    obtain ⟨a, ha, htime⟩ := List.mem_map.mp hmem
    rw [← htime]
    simpa using (List.mem_filter.mp ha).2
  have hall : u.log.filter (fun e => e.time ≤ t) = u.log := by
    rw [List.filter_eq_self]
    simpa using hbefore
  have hnone : late.filter (fun e => e.time ≤ t) = [] := by
    rw [List.filter_eq_nil_iff]
    simpa using hafter
  rw [hlate, List.filter_append, hall, hnone, List.append_nil]

/-- **At an instant of the broadcast as many streams are billed as the registry asks for, exactly
when every language of the registry has a connection that was the last one of its guest to open or
close.** -/
theorem streams_billed_iff {as : List (Timestamp × AudienceOp)}
    {actualStart actualEnd t : Timestamp} (hsorted : as.Pairwise fun a b => a.1 < b.1)
    (h : Run (ofPartial step) Audience.empty as s)
    (hu : Run (ofPartial step) Audience.empty (as.filter fun a => a.1 ≤ t) u)
    (hlow : actualStart ≤ t) (hhigh : t ≤ actualEnd) :
    kNow source (activeAt source s.log actualStart actualEnd t) = (u.streams source).length ↔
      u.Heard source := by
  obtain ⟨log, hlog, htimes, hkinds⟩ := log_run h
  rw [show Audience.empty.log ++ log = log from rfl] at hlog
  have hsorted' : s.log.Pairwise fun a b => a.time < b.time := by
    rw [hlog]
    have hmap : (log.map WebinarEvent.time).Pairwise (· < ·) := by
      rw [htimes]
      exact List.pairwise_map.mpr hsorted
    exact List.pairwise_map.mp hmap
  rw [(activeAt_agree hsorted' (hlog ▸ hkinds) hlow hhigh).kNow, log_at hsorted h hu]
  exact (Tracked.ofRun hu).kNow_iff

/-- A guest reconnects, and the old connection closes after the new one has opened. -/
def reconnect : List (Timestamp × AudienceOp) :=
  [(10, .opened 1 (some "it")), (20, .opened 1 (some "it")), (30, .closed 0)]

theorem streams_billed_sample :
    ∃ s u, Run (ofPartial step) Audience.empty reconnect s ∧
      Run (ofPartial step) Audience.empty (reconnect.filter fun a => a.1 ≤ 25) u ∧
      (kNow "en" (activeAt "en" s.log 5 60 25) = (u.streams "en").length ↔ u.Heard "en") := by
  have hs : ∃ s, Run (ofPartial step) Audience.empty reconnect s ∧ s.nextId = 2 :=
    Run.exists_of_decide (by decide)
  have hu : ∃ u, Run (ofPartial step) Audience.empty (reconnect.filter fun a => a.1 ≤ 25) u ∧
      u.nextId = 2 := Run.exists_of_decide (by decide)
  obtain ⟨s, hs, -⟩ := hs
  obtain ⟨u, hu, -⟩ := hu
  exact ⟨s, u, hs, hu, streams_billed_iff (by decide) hs hu (by decide) (by decide)⟩

/-- **The guest still watches in Italian, and nothing is billed for it.** -/
theorem reconnect_unbilled :
    ∃ s, Run (ofPartial step) Audience.empty reconnect s ∧
      Run (ofPartial step) Audience.empty (reconnect.filter fun a => a.1 ≤ 40) s ∧
      kNow "en" (activeAt "en" s.log 5 60 40) = 0 ∧ s.streams "en" = ["it"] := by
  have hs : ∃ s, Run (ofPartial step) Audience.empty reconnect s ∧
      kNow "en" (activeAt "en" s.log 5 60 40) = 0 ∧ s.streams "en" = ["it"] :=
    Run.exists_of_decide (by decide)
  obtain ⟨s, hs, hk, hstreams⟩ := hs
  -- everything has happened by then
  exact ⟨s, hs, hs, hk, hstreams⟩

end Audience

end VoxTranslate.Webinar
