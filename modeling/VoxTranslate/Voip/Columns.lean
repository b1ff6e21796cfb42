import VoxTranslate.Voip.Lifecycle

/-!
# What the webhooks leave alone

A delivery rewrites one row of `voip_calls` and adds none.  Whose call it is, its direction, who
took it and whether it was missed are no business of the webhooks, and the status of the row
goes forward.
-/

namespace VoxTranslate.Voip

open Lib

/-- The columns that the webhooks only read. -/
structure SameCall (c c' : CallRow) : Prop where
  id : c'.id = c.id
  orgId : c'.orgId = c.orgId
  userId : c'.userId = c.userId
  direction : c'.direction = c.direction
  answeredBy : c'.answeredBy = c.answeredBy
  missed : c'.missed = c.missed

namespace SameCall

variable {c c' c'' : CallRow}

lemma refl (c : CallRow) : SameCall c c := ⟨rfl, rfl, rfl, rfl, rfl, rfl⟩

lemma trans (h : SameCall c c') (h' : SameCall c' c'') : SameCall c c'' where
  id := h'.id.trans h.id
  orgId := h'.orgId.trans h.orgId
  userId := h'.userId.trans h.userId
  direction := h'.direction.trans h.direction
  answeredBy := h'.answeredBy.trans h.answeredBy
  missed := h'.missed.trans h.missed

lemma addLeg (leg : LegId) (c : CallRow) : SameCall c (c.addLeg leg) := by
  rw [CallRow.addLeg]
  split_ifs
  · exact refl c
  · exact ⟨rfl, rfl, rfl, rfl, rfl, rfl⟩

lemma noteEvent (event : ProviderEvent) (c : CallRow) : SameCall c (c.noteEvent event) := by
  rw [CallRow.noteEvent]
  split <;> exact ⟨rfl, rfl, rfl, rfl, rfl, rfl⟩

lemma moveTo (newState : CallState) (event : ProviderEvent) (d : Option Int) (c : CallRow) :
    SameCall c (c.moveTo newState event d) := ⟨rfl, rfl, rfl, rfl, rfl, rfl⟩

lemma charge (credits : Int) (c : CallRow) : SameCall c (c.charge credits) :=
  ⟨rfl, rfl, rfl, rfl, rfl, rfl⟩

end SameCall

namespace VoipDb

variable {db db₁ db₂ : VoipDb} {event : ProviderEvent} {call : CallRow}

/-- The row of `call` was rewritten, without its status. -/
def Notes (call : CallRow) (db db' : VoipDb) : Prop :=
  ∃ f : CallRow → CallRow, db'.calls = Table.update CallRow.id db.calls call.id f ∧
    ∀ c, SameCall c (f c) ∧ (f c).status = c.status

/-- The row of `call` was rewritten, and where its status was that of `call` it went forward. -/
def Advances (call : CallRow) (db db' : VoipDb) : Prop :=
  ∃ f : CallRow → CallRow, db'.calls = Table.update CallRow.id db.calls call.id f ∧
    ∀ c, SameCall c (f c) ∧ (c.status = call.status → Forward c.status (f c).status)

lemma Notes.refl (call : CallRow) (db : VoipDb) : Notes call db db := by
  refine ⟨fun c => c, ?_, fun c => ⟨.refl c, rfl⟩⟩
  rw [Table.update_id]

lemma Notes.advances (h : Notes call db db₁) : Advances call db db₁ := by
  obtain ⟨f, hcalls, hf⟩ := h
  refine ⟨f, hcalls, fun c => ⟨(hf c).1, fun _ => ?_⟩⟩
  rw [(hf c).2]
  exact .refl _

lemma Notes.trans (h : Notes call db db₁) (h' : Advances call db₁ db₂) :
    Advances call db db₂ := by
  obtain ⟨f, hcalls, hf⟩ := h
  obtain ⟨g, hcalls', hg⟩ := h'
  refine ⟨g ∘ f, ?_, fun c => ⟨(hf c).1.trans (hg (f c)).1, fun hstatus => ?_⟩⟩
  · rw [hcalls', hcalls, Table.update_update fun c => (hf c).1.id]
  · have hforward := (hg (f c)).2 ((hf c).2.trans hstatus)
    rwa [(hf c).2] at hforward

lemma notes_updateCall {f : CallRow → CallRow}
    (hf : ∀ c, SameCall c (f c) ∧ (f c).status = c.status) :
    Notes call db (db.updateCall call.id f) := ⟨f, rfl, hf⟩

lemma resolveCall_notes (h : db.resolveCall event = (some call, db₁)) :
    call ∈ db.calls ∧ Notes call db db₁ := by
  rw [resolveCall] at h
  cases hs : event.clientState.bind db.fetchCall with
  | some row =>
    rw [hs] at h
    cases h
    obtain ⟨id, -, hid⟩ := Option.bind_eq_some_iff.mp hs
    exact ⟨Table.mem_of_get hid, notes_updateCall fun c =>
      ⟨.addLeg event.legId c, CallRow.addLeg_status event.legId c⟩⟩
  | none =>
    rw [hs] at h
    obtain ⟨hleg, rfl⟩ := Prod.mk.inj h
    exact ⟨List.mem_of_find?_eq_some hleg, .refl call db⟩

lemma insertEvent_calls {callId : Uuid} (h : db.insertEvent event callId = some db₁) :
    db₁.calls = db.calls := by
  rw [insertEvent] at h
  split_ifs at h
  cases h
  rfl

lemma advanceCall_advances {newState : CallState} {ev : CallEvent}
    (hnext : next call.status ev = some newState)
    (h : db.advanceCall call newState event = some db₁) : Advances call db db₁ := by
  have hmove : ∀ d c, SameCall c (CallRow.moveTo newState event d c) ∧
      (c.status = call.status → Forward c.status (CallRow.moveTo newState event d c).status) := by
    refine fun d c => ⟨.moveTo newState event d c, fun hstatus => ?_⟩
    rw [hstatus]
    exact forward_next hnext
  rw [advanceCall] at h
  split_ifs at h
  · rw [settle] at h
    obtain ⟨⟨s, pool⟩, -, hdb⟩ := Option.map_eq_some_iff.mp h
    cases hdb
    let duration := durationOf newState call.answeredAt event.occurredAt
    refine ⟨CallRow.charge (chargeFor newState call.quotedPricePerMin (duration.getD 0)) ∘
      CallRow.moveTo newState event duration, Table.update_update fun c => rfl, fun c => ?_⟩
    exact ⟨(hmove duration c).1.trans (.charge _ _), (hmove duration c).2⟩
  · cases h
    exact ⟨_, rfl, hmove _⟩

/-- **What a delivery leaves.**  It rewrites one call, whose status goes forward, or nothing. -/
theorem deliver_advances (db : VoipDb) (event : ProviderEvent) :
    (db.deliver event).calls = db.calls ∨
      ∃ call ∈ db.calls, Advances call db (db.deliver event) := by
  cases happly : db.apply event with
  | none =>
    left
    rw [deliver, happly]
  | some out =>
    obtain ⟨ingest, db'⟩ := out
    rw [deliver_of_apply happly]
    rw [apply] at happly
    cases hresolve : db.resolveCall event with
    | mk found db₁ =>
      rw [hresolve] at happly
      cases found with
      | none =>
        cases happly
        exact .inl (congrArg VoipDb.calls (resolveCall_none hresolve))
      | some call =>
        obtain ⟨hcall, hnotes⟩ := resolveCall_notes hresolve
        refine .inr ⟨call, hcall, ?_⟩
        cases hinsert : db₁.insertEvent event call.id with
        | none =>
          simp only [hinsert] at happly
          cases happly
          exact hnotes.advances
        | some db₂ =>
          simp only [hinsert] at happly
          have hnoted : Notes call db₁ (db₂.updateCall call.id (CallRow.noteEvent event)) := by
            refine ⟨CallRow.noteEvent event, ?_, fun c => ⟨.noteEvent event c, by simp⟩⟩
            rw [← insertEvent_calls hinsert]
            rfl
          split at happly
          next newState hnext =>
            obtain ⟨ev, -, hnext⟩ := Option.bind_eq_some_iff.mp hnext
            obtain ⟨db₃, hadvance, hdb⟩ := Option.bind_eq_some_iff.mp happly
            cases hdb
            obtain ⟨f, hcalls, hf⟩ := advanceCall_advances hnext hadvance
            exact hnotes.trans (hnoted.trans ⟨f, hcalls, hf⟩)
          next =>
            cases happly
            exact hnotes.trans hnoted.advances

/-- The row of a call after a delivery. -/
lemma fetchCall_deliver (event : ProviderEvent) {callId : Uuid} {row : CallRow}
    (h : db.fetchCall callId = some row) :
    ∃ row', (db.deliver event).fetchCall callId = some row' ∧ SameCall row row' := by
  obtain hsame | ⟨call, -, f, hcalls, hf⟩ := db.deliver_advances event
  · exact ⟨row, by rw [fetchCall, hsame]; exact h, .refl row⟩
  · refine ⟨if row.id = call.id then f row else row, ?_, ?_⟩
    · rw [fetchCall, hcalls, Table.get_update_by fun c => (hf c).1.id]
      exact congrArg (Option.map _) h
    · split_ifs
      · exact (hf row).1
      · exact .refl row

end VoipDb

end VoxTranslate.Voip
