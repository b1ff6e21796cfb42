import VoxTranslate.Transcripts.Recorder

/-!
# What the end of a call deletes (`finalize_session` in `transcripts.rs`)

The rows of a session go when a call ends that nobody had signed in for, and those of an account
when it is erased, while the channel of the recorder may still hold events of either.  An event
finds its way into the table only if its session and its speaker have their rows, so what was
deleted does not come back.
-/

namespace VoxTranslate.Transcripts

namespace Recorder

open Lib

variable {bindings : String → Option RoomBinding} {s t u : Recorder} {a : RecorderAction}
  {as bs : List RecorderAction} {ok : Bool} {ack i : Nat} {sessionId userId : Uuid}
  {now : Timestamp}

/-! ## What an action does to the tables -/

/-- What an action does to the tables. -/
inductive Edit (db : Db) : RecorderAction → Db → Prop
  | addUser (userId : Uuid) :
      Edit db (.execute (.userCreated userId)) { db with users := userId :: db.users }
  | addSession {a : RecorderAction} (row : CallSession) (hstarts : a.starts = some row.id)
      (hfresh : db.hasSession row.id = false) :
      Edit db a { db with sessions := db.sessions ++ [row] }
  | addParticipant {a : RecorderAction} (p : SessionParticipant) (next : Uuid)
      (hsession : db.hasSession p.sessionId = true) (huser : db.hasUser p.userId = true) :
      Edit db a { db with participants := db.participants ++ [p], nextParticipant := next }
  | stamp {a : RecorderAction} (sessionId : Uuid) (now : Timestamp) :
      Edit db a (db.stamp sessionId now)
  | update {a : RecorderAction} (participantId : Uuid) (f : SessionParticipant → SessionParticipant)
      (hsession : ∀ p, (f p).sessionId = p.sessionId) (huser : ∀ p, (f p).userId = p.userId) :
      Edit db a (db.updateParticipant participantId f)
  | addEvents {a : RecorderAction} (rows : List TranscriptEvent)
      (hrows : ∀ ev ∈ rows, db.admits ev = true) :
      Edit db a { db with events := db.events ++ rows }
  | deleteUser (userId : Uuid) : Edit db (.userDeleted userId) (db.deleteUser userId)
  | deleteSession {a : RecorderAction} (sessionId : Uuid) (hpurges : db.purges sessionId = true) :
      Edit db a (db.deleteSession sessionId)
  | same {a : RecorderAction} : Edit db a db

variable {db db' : Db}

lemma edit_execute {statement : Statement}
    (hstep : execute bindings db statement = some db') : Edit db (.execute statement) db' := by
  cases statement with
  | userCreated userId =>
    obtain ⟨-, heq⟩ := Option.ite_none_left_eq_some.mp hstep
    cases heq
    exact .addUser userId
  | sessionStarted sessionId room =>
    cases hstep
    split_ifs with hsession
    · exact .same
    · exact .addSession (newSession bindings sessionId room) rfl (Bool.not_eq_true _ ▸ hsession)
  | sessionInserted row =>
    obtain ⟨hsession, heq⟩ := Option.ite_none_left_eq_some.mp hstep
    cases heq
    exact .addSession row rfl (Bool.not_eq_true _ ▸ hsession)
  | participantJoined sessionId peerId userId name lang =>
    obtain ⟨hthere, heq⟩ := Option.ite_none_right_eq_some.mp hstep
    cases heq
    obtain ⟨hsession, huser⟩ := Bool.and_eq_true_iff.mp hthere
    exact .addParticipant _ _ hsession huser
  | updateParticipantLang participantId lang =>
    cases hstep
    exact .update _ _ (fun _ => rfl) fun _ => rfl
  | participantLeft participantId now =>
    cases hstep
    exact .update _ _ (fun _ => rfl) fun _ => rfl

lemma edit_insertBatch (s : Recorder) (ok : Bool) (a : RecorderAction) :
    Edit s.db a (s.insertBatch ok).db := by
  obtain ⟨fates, -, hrows, heq⟩ := insertBatch_cases s ok
  rw [heq]
  exact .addEvents (stored fates) hrows

lemma edit_receive (hstep : s.receive ok = some t) (a : RecorderAction) : Edit s.db a t.db := by
  rw [receive] at hstep
  split at hstep
  · next ev rest hqueue =>
    cases hstep
    split_ifs
    · exact edit_insertBatch { s with queue := rest, buf := s.buf ++ [ev] } ok a
    · exact .same
  · next ack rest hqueue =>
    cases hstep
    exact edit_insertBatch { s with queue := rest } ok a
  · obtain ⟨-, heq⟩ := Option.ite_none_left_eq_some.mp hstep
    cases heq
    exact edit_insertBatch s ok a

lemma edit_advance {task : FinalizeTask}
    (hstep : s.advance i ok now task = some t) (a : RecorderAction) : Edit s.db a t.db := by
  cases task with
  | flushing ack sessionId =>
    obtain ⟨-, heq⟩ := Option.ite_none_right_eq_some.mp hstep
    cases heq
    exact .same
  | stamping ack sessionId =>
    cases hstep
    split_ifs
    · exact .stamp sessionId now
    · exact .same
  | purging ack sessionId =>
    cases hstep
    split_ifs
    · show Edit s.db a (s.purge sessionId).db
      rw [purge]
      split_ifs with hpurges
      · exact .deleteSession sessionId hpurges
      · exact .same
    · exact .same
  | finalized ack sessionId => cases hstep
  | failed => cases hstep

lemma edit_step (hstep : step bindings s a = some t) : Edit s.db a t.db := by
  cases a with
  | execute statement =>
    obtain ⟨db, hdb, heq⟩ := Option.map_eq_some_iff.mp hstep
    cases heq
    exact edit_execute hdb
  | userDeleted userId =>
    cases hstep
    exact .deleteUser userId
  | record ev =>
    obtain ⟨-, heq⟩ := Option.ite_none_right_eq_some.mp hstep
    cases heq
    exact .same
  | flush =>
    obtain ⟨-, heq⟩ := Option.ite_none_right_eq_some.mp hstep
    cases heq
    exact .same
  | finalizeSession sessionId =>
    obtain ⟨-, heq⟩ := Option.ite_none_right_eq_some.mp hstep
    cases heq
    exact .same
  | advance i ok now =>
    obtain ⟨task, -, hstep⟩ := Option.bind_eq_some_iff.mp hstep
    exact edit_advance hstep _
  | recv ok =>
    obtain ⟨-, hstep⟩ := Option.ite_none_left_eq_some.mp hstep
    exact edit_receive hstep _
  | tick ok =>
    obtain ⟨-, heq⟩ := Option.ite_none_left_eq_some.mp hstep
    cases heq
    exact edit_insertBatch s ok _
  | closed =>
    obtain ⟨-, heq⟩ := Option.ite_none_right_eq_some.mp hstep
    cases heq
    exact .same

/-! ## Rows that refer to rows -/

variable {userId' : Option Uuid} {sessionId' : Uuid}

lemma hasSession_iff : db.hasSession sessionId = true ↔ ∃ row ∈ db.sessions, row.id = sessionId := by
  simp [Db.hasSession]

lemma hasUser_iff : db.hasUser userId' = true ↔ ∀ u, userId' = some u → u ∈ db.users := by
  cases userId' <;> simp [Db.hasUser]

@[simp] lemma hasSession_stamp (now : Timestamp) (sessionId' : Uuid) :
    (db.stamp sessionId now).hasSession sessionId' = db.hasSession sessionId' := by
  rw [Db.hasSession, Db.stamp, Table.update, List.any_map]
  refine congrArg (List.any db.sessions) (funext fun row => ?_)
  rw [Function.comp_apply]
  split_ifs <;> rfl

/-- The rows that an account or a session leaves are those of the others. -/
lemma hasUser_deleteUser (hne : userId' ≠ some userId) (h : db.hasUser userId' = true) :
    (db.deleteUser userId).hasUser userId' = true := by
  rw [hasUser_iff] at h ⊢
  intro u hu
  refine List.mem_filter.mpr ⟨h u hu, decide_eq_true ?_⟩
  rintro rfl
  exact hne hu

lemma hasSession_deleteSession (hne : sessionId' ≠ sessionId)
    (h : db.hasSession sessionId' = true) :
    (db.deleteSession sessionId).hasSession sessionId' = true := by
  rw [hasSession_iff] at h ⊢
  obtain ⟨row, hrow, rfl⟩ := h
  exact ⟨row, List.mem_filter.mpr ⟨hrow, decide_eq_true hne⟩, rfl⟩

lemma hasSession_deleteSession_self : (db.deleteSession sessionId).hasSession sessionId = false := by
  simp [Db.hasSession, Db.deleteSession]

/-- Every row refers to rows that are there. -/
structure Linked (db : Db) : Prop where
  events : ∀ ev ∈ db.events, db.hasSession ev.sessionId = true ∧ db.hasUser ev.speakerUserId = true
  participants : ∀ p ∈ db.participants,
    db.hasSession p.sessionId = true ∧ db.hasUser p.userId = true

/-- Rows are added that others may refer to. -/
lemma Linked.mono (h : Linked db) (hevents : db'.events = db.events)
    (hparticipants : db'.participants = db.participants)
    (hsession : ∀ sid, db.hasSession sid = true → db'.hasSession sid = true)
    (huser : ∀ u, db.hasUser u = true → db'.hasUser u = true) : Linked db' := by
  refine ⟨?_, ?_⟩
  · rw [hevents]
    exact fun ev hev => ⟨hsession _ (h.events ev hev).1, huser _ (h.events ev hev).2⟩
  · rw [hparticipants]
    exact fun p hp => ⟨hsession _ (h.participants p hp).1, huser _ (h.participants p hp).2⟩

lemma Linked.edit (h : Linked db) (hedit : Edit db a db') : Linked db' := by
  cases hedit with
  | addUser userId =>
    refine h.mono rfl rfl (fun _ hs => hs) fun u hu => ?_
    rw [hasUser_iff] at hu ⊢
    exact fun v hv => List.mem_cons_of_mem _ (hu v hv)
  | addSession row =>
    refine h.mono rfl rfl (fun sid hs => ?_) fun _ hu => hu
    rw [hasSession_iff] at hs ⊢
    obtain ⟨row', hrow', hid⟩ := hs
    exact ⟨row', List.mem_append_left _ hrow', hid⟩
  | addParticipant p next hsession huser =>
    refine ⟨h.events, fun q hq => ?_⟩
    rcases List.mem_append.mp hq with hold | hnew
    · exact h.participants q hold
    · rw [List.mem_singleton] at hnew
      rw [hnew]
      exact ⟨hsession, huser⟩
  | stamp sessionId now =>
    exact h.mono rfl rfl (fun sid hs => by rwa [hasSession_stamp]) fun _ hu => hu
  | update participantId f hsession huser =>
    refine ⟨h.events, fun q hq => ?_⟩
    obtain ⟨p, hp, rfl⟩ := List.mem_map.mp hq
    have hold := h.participants p hp
    split_ifs
    · rw [hsession, huser]
      exact hold
    · exact hold
  | addEvents rows hrows =>
    refine ⟨fun ev hev => ?_, h.participants⟩
    rcases List.mem_append.mp hev with hold | hnew
    · exact h.events ev hold
    · exact Bool.and_eq_true_iff.mp (hrows ev hnew)
  | deleteUser userId =>
    -- the rows that named what is deleted are deleted with it
    refine ⟨fun ev hev => ?_, fun p hp => ?_⟩
    · obtain ⟨hold, hne⟩ := List.mem_filter.mp hev
      exact ⟨(h.events ev hold).1, hasUser_deleteUser (of_decide_eq_true hne) (h.events ev hold).2⟩
    · obtain ⟨hold, hne⟩ := List.mem_filter.mp hp
      exact ⟨(h.participants p hold).1,
        hasUser_deleteUser (of_decide_eq_true hne) (h.participants p hold).2⟩
  | deleteSession sessionId =>
    refine ⟨fun ev hev => ?_, fun p hp => ?_⟩
    · obtain ⟨hold, hne⟩ := List.mem_filter.mp hev
      exact ⟨hasSession_deleteSession (of_decide_eq_true hne) (h.events ev hold).1,
        (h.events ev hold).2⟩
    · obtain ⟨hold, hne⟩ := List.mem_filter.mp hp
      exact ⟨hasSession_deleteSession (of_decide_eq_true hne) (h.participants p hold).1,
        (h.participants p hold).2⟩
  | same => exact h

/-- A session without a row gets one when it starts. -/
lemma absent_edit (h : db.hasSession sessionId = false) (hedit : Edit db a db')
    (hstarts : a.starts ≠ some sessionId) : db'.hasSession sessionId = false := by
  cases hedit with
  | addSession row hrow hfresh =>
    rw [hrow] at hstarts
    rw [← Bool.not_eq_true, hasSession_iff] at h ⊢
    rintro ⟨row', hrow', hid⟩
    rcases List.mem_append.mp hrow' with hold | hnew
    · exact h ⟨row', hold, hid⟩
    · rw [List.mem_singleton] at hnew
      exact hstarts (congrArg some (hnew ▸ hid))
  | stamp => rwa [hasSession_stamp]
  | deleteSession sessionId' =>
    rw [← Bool.not_eq_true, hasSession_iff] at h ⊢
    rintro ⟨row, hrow, hid⟩
    exact h ⟨row, (List.mem_filter.mp hrow).1, hid⟩
  | _ => exact h

/-- The end of the call does not delete the session. -/
def Retained (db : Db) (sessionId : Uuid) : Prop :=
  db.hasSession sessionId = true ∧ db.purges sessionId = false

lemma signedIn_iff : db.signedIn sessionId = true ↔
    ∃ p ∈ db.participants, p.sessionId = sessionId ∧ p.userId.isSome = true := by
  simp [Db.signedIn]

lemma retained_iff : Retained db sessionId ↔ (∃ row ∈ db.sessions, row.id = sessionId) ∧
    (db.signedIn sessionId = true ∨
      ∀ row ∈ db.sessions, row.id = sessionId → row.kind = .phone) := by
  rw [Retained, hasSession_iff]
  refine and_congr_right fun _ => ?_
  rw [← Bool.not_eq_true, Db.purges, List.any_eq_true]
  constructor
  · intro h
    by_cases hsigned : db.signedIn sessionId = true
    · exact .inl hsigned
    · refine .inr fun row hrow hid => ?_
      by_contra hkind
      refine h ⟨row, hrow, ?_⟩
      simp [Db.isGuestOnly, hid, hkind, hsigned]
  · rintro (hsigned | hkind) ⟨row, hrow, hpurge⟩
    · simp only [Db.isGuestOnly, Bool.and_eq_true, decide_eq_true_eq, Bool.not_eq_true'] at hpurge
      obtain ⟨hid, -, hguest⟩ := hpurge
      rw [hid, hsigned] at hguest
      cases hguest
    · simp only [Db.isGuestOnly, Bool.and_eq_true, decide_eq_true_eq] at hpurge
      exact hpurge.2.1 (hkind row hrow hpurge.1)

/-- The events of a session. -/
def eventsOf (db : Db) (sessionId : Uuid) : List TranscriptEvent :=
  db.events.filter fun ev => ev.sessionId = sessionId

/-- The sessions and those who are in them change, for better. -/
lemma Retained.mono (h : Retained db sessionId)
    (hsessions : ∃ row ∈ db'.sessions, row.id = sessionId)
    (hkinds : ∀ row' ∈ db'.sessions, row'.id = sessionId →
      ∃ row ∈ db.sessions, row.id = sessionId ∧ row.kind = row'.kind)
    (hsigned : db.signedIn sessionId = true → db'.signedIn sessionId = true) :
    Retained db' sessionId := by
  rw [retained_iff] at h ⊢
  refine ⟨hsessions, h.2.imp hsigned fun hphone row' hrow' hid' => ?_⟩
  obtain ⟨row, hrow, hid, hkind⟩ := hkinds row' hrow' hid'
  exact hkind ▸ hphone row hrow hid

lemma Retained.edit (h : Retained db sessionId) (hedit : Edit db a db')
    (ha : ∀ userId, a ≠ .userDeleted userId) : Retained db' sessionId := by
  have hsame : ∀ row' ∈ db.sessions, row'.id = sessionId →
      ∃ row ∈ db.sessions, row.id = sessionId ∧ row.kind = row'.kind :=
    fun row' hrow' hid' => ⟨row', hrow', hid', rfl⟩
  obtain ⟨row, hrow, hid⟩ := (retained_iff.mp h).1
  cases hedit with
  | addUser | addEvents | same => exact h
  | addSession row' hstarts hfresh =>
    refine h.mono ⟨row, List.mem_append_left _ hrow, hid⟩ (fun row'' hrow'' hid'' => ?_) id
    -- an identifier that is fresh is not that of the session that is kept
    rcases List.mem_append.mp hrow'' with hold | hnew
    · exact hsame row'' hold hid''
    · rw [List.mem_singleton] at hnew
      rw [← hnew, hid''] at hfresh
      rw [h.1] at hfresh
      cases hfresh
  | addParticipant p =>
    refine h.mono ⟨row, hrow, hid⟩ hsame fun hsigned => ?_
    rw [signedIn_iff] at hsigned ⊢
    obtain ⟨q, hq, hq'⟩ := hsigned
    exact ⟨q, List.mem_append_left _ hq, hq'⟩
  | stamp sessionId' now =>
    refine h.mono ⟨_, List.mem_map_of_mem hrow, ?_⟩ (fun row' hrow' hid' => ?_) id
    · split_ifs <;> exact hid
    · obtain ⟨old, hold, rfl⟩ := List.mem_map.mp hrow'
      refine ⟨old, hold, ?_⟩
      split_ifs at hid' ⊢ <;> exact ⟨hid', rfl⟩
  | update participantId f hsession huser =>
    refine h.mono ⟨row, hrow, hid⟩ hsame fun hsigned => ?_
    rw [signedIn_iff] at hsigned ⊢
    obtain ⟨p, hp, hp', hp''⟩ := hsigned
    refine ⟨_, List.mem_map_of_mem hp, ?_⟩
    split_ifs
    · rw [hsession, huser]
      exact ⟨hp', hp''⟩
    · exact ⟨hp', hp''⟩
  | deleteUser userId => exact absurd rfl (ha userId)
  | deleteSession sessionId' hpurges =>
    -- a session that is purged is not retained, so it is another one
    have hne : sessionId ≠ sessionId' := by
      rintro rfl
      rw [h.2] at hpurges
      cases hpurges
    refine h.mono ⟨row, List.mem_filter.mpr ⟨hrow, decide_eq_true (hid ▸ hne)⟩, hid⟩ ?_ ?_
    · intro row' hrow' hid'
      exact hsame row' (List.mem_filter.mp hrow').1 hid'
    · intro hsigned
      rw [signedIn_iff] at hsigned ⊢
      obtain ⟨p, hp, hp', hp''⟩ := hsigned
      exact ⟨p, List.mem_filter.mpr ⟨hp, decide_eq_true (hp' ▸ hne)⟩, hp', hp''⟩

/-- The events of a retained session stay. -/
lemma eventsOf_edit (h : Retained db sessionId) (hedit : Edit db a db')
    (ha : ∀ userId, a ≠ .userDeleted userId) :
    eventsOf db sessionId <+: eventsOf db' sessionId := by
  cases hedit with
  | addEvents rows =>
    rw [eventsOf, eventsOf, List.filter_append]
    exact List.prefix_append _ _
  | deleteUser userId => exact absurd rfl (ha userId)
  | deleteSession sessionId' hpurges =>
    have hne : sessionId ≠ sessionId' := by
      rintro rfl
      rw [h.2] at hpurges
      cases hpurges
    have hkept : eventsOf (db.deleteSession sessionId') sessionId = eventsOf db sessionId := by
      rw [eventsOf, eventsOf, Db.deleteSession, List.filter_filter]
      refine List.filter_congr fun ev _ => ?_
      by_cases hev : ev.sessionId = sessionId <;> simp [hev, hne]
    rw [hkept]
  | _ => exact List.prefix_rfl

/-! ## Over whole runs -/

/-- Nobody has an account that was deleted, unless it is created anew. -/
lemma noUser_edit (h : userId ∉ db.users) (hedit : Edit db a db')
    (hcreated : a ≠ .execute (.userCreated userId)) : userId ∉ db'.users := by
  cases hedit with
  | addUser userId' =>
    rw [List.mem_cons]
    rintro (rfl | hold)
    · exact hcreated rfl
    · exact h hold
  | deleteUser userId' => exact fun hold => h (List.mem_filter.mp hold).1
  | _ => exact h

lemma linked_of_run (hrun : Runs bindings empty as s) : Linked s.db := by
  refine hrun.invariant (fun s => Linked s.db) (fun _ _ _ _ h hstep => h.edit (edit_step hstep)) ?_
  exact ⟨by simp [empty], by simp [empty]⟩

lemma absent_of_run (hrun : Runs bindings s as t) (h : s.db.hasSession sessionId = false)
    (has : ∀ a ∈ as, a.starts ≠ some sessionId) : t.db.hasSession sessionId = false :=
  hrun.invariant (fun s => s.db.hasSession sessionId = false)
    (fun _ a ha _ h hstep => absent_edit h (edit_step hstep) (has a ha)) h

/-- **What a call leaves behind is gone for good.**  Once the end of a call has deleted its
session, no row of any table is about that session again, whatever of it was still on the channel,
until a session starts under that name. -/
theorem purged_for_good (hs : Runs bindings empty as s)
    (htask : s.finalizing[i]? = some (.purging ack sessionId))
    (hpurges : s.db.purges sessionId = true)
    (hstep : step bindings s (.advance i true now) = some t) (hrun : Runs bindings t bs u)
    (hbs : ∀ a ∈ bs, a.starts ≠ some sessionId) :
    (∀ row ∈ u.db.sessions, row.id ≠ sessionId) ∧
      (∀ p ∈ u.db.participants, p.sessionId ≠ sessionId) ∧
      ∀ ev ∈ u.db.events, ev.sessionId ≠ sessionId := by
  have hlinked := linked_of_run (Run.append_iff.mpr ⟨s, hs, Run.cons_iff.mpr ⟨t, hstep, hrun⟩⟩)
  have hgone : t.db.hasSession sessionId = false := by
    obtain ⟨task, htask', hadvance⟩ := Option.bind_eq_some_iff.mp hstep
    rw [htask] at htask'
    cases htask'
    cases hadvance
    show (s.purge sessionId).db.hasSession sessionId = false
    rw [purge, if_pos hpurges]
    exact hasSession_deleteSession_self
  have habsent := absent_of_run hrun hgone hbs
  rw [← Bool.not_eq_true] at habsent
  refine ⟨fun row hrow hid => ?_, fun p hp hid => ?_, fun ev hev hid => ?_⟩
  · exact habsent (hasSession_iff.mpr ⟨row, hrow, hid⟩)
  · exact habsent (hid ▸ (hlinked.participants p hp).1)
  · exact habsent (hid ▸ (hlinked.events ev hev).1)

/-- A guest hangs up, and says something while the end of the call waits for its barrier. -/
def guestCall : List RecorderAction :=
  [.execute (.sessionStarted 1 "room"), .execute (.participantJoined 1 "p" none "Ada" "it"),
    .finalizeSession 1, .record greeting, .recv true, .advance 0 true 4, .advance 0 true 5]

/-- Where a list of actions leads, in a deployment without bindings. -/
def after (as : List RecorderAction) : Recorder :=
  (as.foldlM (step fun _ => none) empty).getD empty

theorem purged_for_good_guest :
    ¬ ∃ ev ∈ (after (guestCall ++ [.advance 0 true 6, .recv true, .tick true])).db.events,
      ev.sessionId = 1 := by
  have hs : Runs (fun _ => none) empty guestCall (after guestCall) := Run.ofPartial_iff.mpr rfl
  have hrun : Runs (fun _ => none) (after (guestCall ++ [.advance 0 true 6]))
      [.recv true, .tick true] (after (guestCall ++ [.advance 0 true 6, .recv true, .tick true])) :=
    Run.ofPartial_iff.mpr rfl
  have hstep : step (fun _ => none) (after guestCall) (.advance 0 true 6) =
      some (after (guestCall ++ [.advance 0 true 6])) := rfl
  rintro ⟨ev, hev, hid⟩
  exact (purged_for_good hs rfl (by decide) hstep hrun (by decide)).2.2 ev hev hid

/-- **What an account leaves behind is gone for good.**  Once an account is deleted, no event and
no participant is theirs again, whatever of it was still on the channel, until there is an account
under that name. -/
theorem erased_for_good (hs : Runs bindings empty as s)
    (hstep : step bindings s (.userDeleted userId) = some t) (hrun : Runs bindings t bs u)
    (hbs : ∀ a ∈ bs, a ≠ .execute (.userCreated userId)) :
    (∀ p ∈ u.db.participants, p.userId ≠ some userId) ∧
      ∀ ev ∈ u.db.events, ev.speakerUserId ≠ some userId := by
  have hlinked := linked_of_run (Run.append_iff.mpr ⟨s, hs, Run.cons_iff.mpr ⟨t, hstep, hrun⟩⟩)
  have hgone : userId ∉ u.db.users := by
    refine hrun.invariant (fun s => userId ∉ s.db.users)
      (fun _ a ha _ h hstep => noUser_edit h (edit_step hstep) (hbs a ha)) ?_
    cases hstep
    simp [Db.deleteUser]
  refine ⟨fun p hp huser => ?_, fun ev hev huser => ?_⟩
  · exact hgone (hasUser_iff.mp (hlinked.participants p hp).2 userId huser)
  · exact hgone (hasUser_iff.mp (hlinked.events ev hev).2 userId huser)

/-- Somebody speaks, and deletes their account while it is on the channel. -/
def leftBehind : List RecorderAction :=
  [.execute (.userCreated 7), .execute (.sessionStarted 1 "room"),
    .execute (.participantJoined 1 "p" (some 7) "Ada" "it"),
    .record { greeting with speakerUserId := some 7 }]

theorem erased_for_good_left :
    ¬ ∃ ev ∈ (after (leftBehind ++ [.userDeleted 7, .recv true, .tick true])).db.events,
      ev.speakerUserId = some 7 := by
  have hs : Runs (fun _ => none) empty leftBehind (after leftBehind) := Run.ofPartial_iff.mpr rfl
  have hrun : Runs (fun _ => none) (after (leftBehind ++ [.userDeleted 7]))
      [.recv true, .tick true] (after (leftBehind ++ [.userDeleted 7, .recv true, .tick true])) :=
    Run.ofPartial_iff.mpr rfl
  rintro ⟨ev, hev, huser⟩
  exact (erased_for_good hs rfl hrun (by simp)).2 ev hev huser

/-- **What somebody can download is kept.**  While no account is deleted, a session that somebody
has signed in for, or that is a telephone call, keeps its row and each of its events, whichever
calls end meanwhile. -/
theorem retained_kept (hrun : Runs bindings s as t)
    (hthere : ∃ row ∈ s.db.sessions, row.id = sessionId)
    (hkept : s.db.signedIn sessionId = true ∨
      ∀ row ∈ s.db.sessions, row.id = sessionId → row.kind = .phone)
    (has : ∀ a ∈ as, ∀ userId, a ≠ .userDeleted userId) :
    (∃ row ∈ t.db.sessions, row.id = sessionId) ∧
      eventsOf s.db sessionId <+: eventsOf t.db sessionId := by
  have hinv : Retained t.db sessionId ∧ eventsOf s.db sessionId <+: eventsOf t.db sessionId := by
    refine hrun.invariant
      (fun t => Retained t.db sessionId ∧ eventsOf s.db sessionId <+: eventsOf t.db sessionId)
      (fun _ a ha _ h hstep => ?_) ⟨retained_iff.mpr ⟨hthere, hkept⟩, List.prefix_rfl⟩
    have hedit := edit_step hstep
    exact ⟨h.1.edit hedit (has a ha), h.2.trans (eventsOf_edit h.1 hedit (has a ha))⟩
  exact ⟨(retained_iff.mp hinv.1).1, hinv.2⟩

theorem retained_kept_signedIn :
    eventsOf (after (leftBehind ++ [.recv true, .tick true])).db 1 <+:
      eventsOf (after (leftBehind ++ [.recv true, .tick true] ++
        [.finalizeSession 1, .recv true, .advance 0 true 4, .advance 0 true 5,
          .advance 0 true 6])).db 1 := by
  have hrun : Runs (fun _ => none) (after (leftBehind ++ [.recv true, .tick true]))
      [.finalizeSession 1, .recv true, .advance 0 true 4, .advance 0 true 5, .advance 0 true 6]
      (after (leftBehind ++ [.recv true, .tick true] ++
        [.finalizeSession 1, .recv true, .advance 0 true 4, .advance 0 true 5,
          .advance 0 true 6])) := Run.ofPartial_iff.mpr rfl
  exact (retained_kept hrun ⟨_, List.mem_cons_self, rfl⟩ (.inl (by decide)) (by simp)).2

end Recorder

end VoxTranslate.Transcripts
