import VoxTranslate.Voip.Settlement

/-!
# Redelivered webhooks

A webhook is delivered again until the server acknowledges it, sometimes afterwards, and a
carrier may repeat an event under a fresh id.  A redelivery meets two traces of the first
delivery, the row in the ledger and the leg on the call, and finds nothing left to write.  A
repetition under a fresh id passes the gate, and is stopped by the lifecycle: only a call that
is not over yet is settled, and settling ends it.
-/

namespace VoxTranslate.Voip

open Lib Business

namespace VoipDb

variable {db db' : VoipDb} {e again : ProviderEvent} {es pre mid post : List ProviderEvent}
  {c : Uuid}

/-! ## The traces of a delivery -/

/-- What the first delivery of an event leaves behind: the event is in the ledger, and the call
that it names knows its leg. -/
structure Absorbed (db : VoipDb) (e : ProviderEvent) : Prop where
  seen : db.Seen e
  leg : ∀ id, e.clientState = some id → ∀ r ∈ db.calls, r.id = id → e.legId ∈ r.providerLegIds

/-- Every row is a row of before, with the legs it had. -/
def KeepsLegs (db db' : VoipDb) : Prop :=
  ∀ r' ∈ db'.calls, ∃ r ∈ db.calls, r.id = r'.id ∧ r.providerLegIds ⊆ r'.providerLegIds

lemma KeepsLegs.refl (db : VoipDb) : KeepsLegs db db :=
  fun r hr => ⟨r, hr, rfl, List.Subset.refl _⟩

lemma KeepsLegs.trans {db'' : VoipDb} (h : KeepsLegs db db') (h' : KeepsLegs db' db'') :
    KeepsLegs db db'' := by
  intro r'' hr''
  obtain ⟨r', hr', hid', hlegs'⟩ := h' r'' hr''
  obtain ⟨r, hr, hid, hlegs⟩ := h r' hr'
  exact ⟨r, hr, hid.trans hid', List.Subset.trans hlegs hlegs'⟩

lemma keepsLegs_updateCall {f : CallRow → CallRow} (hid : Table.KeepsKey CallRow.id f)
    (hf : ∀ r, r.providerLegIds ⊆ (f r).providerLegIds) : KeepsLegs db (db.updateCall c f) := by
  intro r' hr'
  rcases Table.mem_update.mp hr' with ⟨r, hr, -, rfl⟩ | ⟨hr, -⟩
  · exact ⟨r, hr, (hid r).symm, hf r⟩
  · exact ⟨r', hr, rfl, List.Subset.refl _⟩

lemma addLeg_legs (leg : LegId) (r : CallRow) :
    r.providerLegIds ⊆ (r.addLeg leg).providerLegIds := by
  rw [CallRow.addLeg]
  split_ifs
  · exact List.Subset.refl _
  · exact List.subset_append_left _ _

lemma mem_addLeg_legs (leg : LegId) (r : CallRow) : leg ∈ (r.addLeg leg).providerLegIds := by
  rw [CallRow.addLeg]
  split_ifs with h
  · simpa using h
  · simp

lemma noteEvent_legs (e : ProviderEvent) (r : CallRow) :
    (r.noteEvent e).providerLegIds = r.providerLegIds := by
  rw [CallRow.noteEvent]
  split <;> rfl

/-- Resolving takes no leg away, and puts the leg of the event on the call it names. -/
lemma resolveCall_legs : KeepsLegs db (db.resolveCall e).2 ∧
    ∀ id, e.clientState = some id → ∀ r ∈ (db.resolveCall e).2.calls, r.id = id →
      e.legId ∈ r.providerLegIds := by
  rw [resolveCall]
  cases hs : e.clientState.bind db.fetchCall with
  | some row =>
    obtain ⟨id, hid, hrow⟩ := Option.bind_eq_some_iff.mp hs
    refine ⟨keepsLegs_updateCall (CallRow.addLeg_keepsId _) (addLeg_legs _), ?_⟩
    intro id' hid' r hr hr'
    obtain rfl : id' = row.id := by
      rw [hid] at hid'
      cases hid'
      exact (fetchCall_id hrow).symm
    rcases Table.mem_update.mp hr with ⟨r₀, -, -, rfl⟩ | ⟨-, hne⟩
    · exact mem_addLeg_legs e.legId r₀
    · exact absurd hr' hne
  | none =>
    refine ⟨.refl db, fun id hid r hr hr' => ?_⟩
    -- no row carries the id that the event names
    rw [hid, Option.bind_some] at hs
    exact absurd hr' (Table.get_eq_none.mp hs r hr)

lemma insertEvent_keepsLegs (h : db.insertEvent e c = some db') : KeepsLegs db db' := by
  rw [insertEvent] at h
  split_ifs at h
  cases h
  exact .refl db

lemma advanceCall_keepsLegs {call : CallRow} {newState : CallState}
    (h : db.advanceCall call newState e = some db') : KeepsLegs db db' := by
  have hmove := @keepsLegs_updateCall db call.id
    (CallRow.moveTo newState e (durationOf newState call.answeredAt e.occurredAt))
    (CallRow.moveTo_keepsId _ _ _) fun r => List.Subset.refl _
  rw [advanceCall] at h
  split_ifs at h
  · rw [settle] at h
    obtain ⟨⟨s, pool⟩, -, hdb⟩ := Option.map_eq_some_iff.mp h
    cases hdb
    exact hmove.trans (keepsLegs_updateCall (CallRow.charge_keepsId _) fun r =>
      List.Subset.refl _)
  · cases h
    exact hmove

/-- What is applied after the call is resolved takes no leg away. -/
lemma apply_keepsLegs {out : Ingest} (h : db.apply e = some (out, db')) :
    KeepsLegs (db.resolveCall e).2 db' := by
  rw [apply] at h
  cases hresolve : db.resolveCall e with
  | mk found db₁ =>
    rw [hresolve] at h
    cases found with
    | none =>
      cases h
      exact .refl _
    | some call =>
      cases hinsert : db₁.insertEvent e call.id with
      | none =>
        simp only [hinsert] at h
        cases h
        exact .refl _
      | some db₂ =>
        simp only [hinsert] at h
        have hnoted : KeepsLegs db₁ (db₂.updateCall call.id (CallRow.noteEvent e)) := by
          refine (insertEvent_keepsLegs hinsert).trans ?_
          refine keepsLegs_updateCall (CallRow.noteEvent_keepsId e) fun r => ?_
          rw [noteEvent_legs]
          exact List.Subset.refl _
        split at h
        next newState _ =>
          obtain ⟨db₃, hadvance, hdb⟩ := Option.bind_eq_some_iff.mp h
          have hmoved := hnoted.trans (advanceCall_keepsLegs hadvance)
          cases hdb
          exact hmoved
        next =>
          cases h
          exact hnoted

/-- A delivery takes no leg away, committed or rolled back. -/
lemma deliver_keepsLegs (db : VoipDb) (e : ProviderEvent) : KeepsLegs db (db.deliver e) := by
  cases happly : db.apply e with
  | none =>
    rw [deliver, happly]
    exact .refl db
  | some out =>
    rw [deliver_of_apply happly]
    exact resolveCall_legs.1.trans (apply_keepsLegs happly)

/-- A delivery keeps the keys, and enters its event into the ledger if it is resolved. -/
lemma deliver_ledger (hwf : db.WellFormed) (e : ProviderEvent) :
    (db.deliver e).WellFormed ∧ (db.resolves e ≠ none → (db.deliver e).Seen e) ∧
      ∀ e', db.Seen e' → (db.deliver e).Seen e' := by
  cases hres : db.resolves e with
  | none =>
    rw [deliver_unknown hres]
    exact ⟨hwf, fun h => absurd rfl h, fun _ h => h⟩
  | some c =>
    by_cases hseen : db.Seen e
    · obtain ⟨hwf', hledger, -⟩ := deliver_again hwf hres hseen
      exact ⟨hwf', fun _ => (hledger e).mpr hseen, fun e' => (hledger e').mpr⟩
    · obtain ⟨hwf', hledger, -⟩ := deliver_first hwf hres hseen
      exact ⟨hwf', fun _ => (hledger e).mpr (.inr rfl), fun e' h => (hledger e').mpr (.inl h)⟩

lemma Absorbed.keeps (h : db.Absorbed e) (hseen : db'.Seen e) (hlegs : KeepsLegs db db') :
    db'.Absorbed e := by
  refine ⟨hseen, fun id hid r' hr' heq => ?_⟩
  obtain ⟨r, hr, hrid, hsub⟩ := hlegs r' hr'
  exact hsub (h.leg id hid r hr (hrid.trans heq))

/-- The delivery of an event that is resolved to a call leaves the event absorbed. -/
lemma absorbed_deliver (hwf : db.WellFormed) (hres : db.resolves e ≠ none) :
    (db.deliver e).Absorbed e := by
  obtain ⟨-, hseen, -⟩ := deliver_ledger hwf e
  obtain ⟨c, hc⟩ := Option.ne_none_iff_exists'.mp hres
  obtain ⟨call, hcall, -⟩ := Option.map_eq_some_iff.mp hc
  obtain ⟨out, happly⟩ : ∃ out, db.apply e = some (out, db.deliver e) := by
    cases h : db.apply e with
    | some out => exact ⟨out.1, by rw [deliver_of_apply h]⟩
    | none =>
      -- rolled back, so the event was in the ledger before, and the gate stops it
      have hsame : db.deliver e = db := by rw [deliver, h]
      have hstop := apply_seen hcall (hsame ▸ hseen hres)
      rw [h] at hstop
      cases hstop
  refine ⟨hseen hres, fun id hid r' hr' heq => ?_⟩
  obtain ⟨r, hr, hrid, hsub⟩ := apply_keepsLegs happly r' hr'
  exact hsub (resolveCall_legs.2 id hid r hr (hrid.trans heq))

/-- An absorbed event stays absorbed. -/
lemma Absorbed.deliver (hwf : db.WellFormed) (h : db.Absorbed e) (e' : ProviderEvent) :
    (db.deliver e').Absorbed e :=
  h.keeps ((deliver_ledger hwf e').2.2 e h.seen) (deliver_keepsLegs db e')

/-- **A redelivery finds nothing to write.**  It is an event of the same id, with the same leg
and correlation id. -/
lemma Absorbed.inert (h : db.Absorbed e) (hkey : again.key = e.key) (hleg : again.legId = e.legId)
    (hstate : again.clientState = e.clientState) : db.deliver again = db := by
  have hseen : db.Seen again := by
    unfold Seen
    rw [hkey]
    exact h.seen
  have hresolve : (db.resolveCall again).2 = db := by
    rw [resolveCall, hstate, hleg]
    cases hs : e.clientState.bind db.fetchCall with
    | none => rfl
    | some row =>
      obtain ⟨id, hid, hrow⟩ := Option.bind_eq_some_iff.mp hs
      have hlegs : Table.update CallRow.id db.calls row.id (CallRow.addLeg e.legId) = db.calls := by
        refine (List.map_congr_left fun r hr => ?_).trans (List.map_id _)
        split_ifs with heq
        · have hmem := h.leg id hid r hr (heq.trans (fetchCall_id hrow))
          rw [CallRow.addLeg, if_pos (by simpa using hmem)]
          rfl
        · rfl
      simp only [updateCall, hlegs]
  cases hcall : (db.resolveCall again).1 with
  | none => exact deliver_unknown (by rw [resolves, hcall, Option.map_none])
  | some call => rw [deliver_of_apply (apply_seen hcall hseen), hresolve]

lemma wellFormed_deliveries (hwf : db.WellFormed) : (es.foldl deliver db).WellFormed :=
  foldl_invariant (fun _ e _ h => (deliver_ledger h e).1) hwf

/-- **Replay is inert.**  Once an event has been resolved to a call, a redelivery of it at any
later point of any sequence of deliveries leaves the whole database as it is without it. -/
lemma replay_inert (hwf : db.WellFormed) (hkey : again.key = e.key) (hleg : again.legId = e.legId)
    (hstate : again.clientState = e.clientState)
    (hres : (pre.foldl VoipDb.deliver db).resolves e ≠ none) :
    (pre ++ e :: mid ++ again :: post).foldl VoipDb.deliver db =
      (pre ++ e :: mid ++ post).foldl VoipDb.deliver db := by
  have hpre := @wellFormed_deliveries db pre hwf
  have hfirst := absorbed_deliver hpre hres
  have hmid : (mid.foldl VoipDb.deliver ((pre.foldl VoipDb.deliver db).deliver e)).Absorbed e := by
    refine (foldl_invariant (I := fun s : VoipDb => s.WellFormed ∧ s.Absorbed e) ?_ ?_).2
    · exact fun s a _ h => ⟨(deliver_ledger h.1 a).1, h.2.deliver h.1 a⟩
    · exact ⟨(deliver_ledger hpre e).1, hfirst⟩
  simp only [List.append_assoc, List.foldl_append, List.foldl_cons, List.cons_append]
  rw [hmid.inert hkey hleg hstate]

/-! ## Repetitions under fresh ids -/

/-- The holds of a call. -/
def holdsOf (db : VoipDb) (c : Uuid) : List Reservation :=
  db.reservations.filter fun r => r.callId = c

/-- How many deliveries of a sequence write to the holds of a call. -/
def holdWrites (c : Uuid) : VoipDb → List ProviderEvent → Nat
  | _, [] => 0
  | db, e :: es =>
    (if (db.deliver e).holdsOf c = db.holdsOf c then 0 else 1) + holdWrites c (db.deliver e) es

/-- The call is over, or there is no such call. -/
def Over (db : VoipDb) (c : Uuid) : Prop :=
  ∀ l, db.line c = some l → l.status.isTerminal = true

/-- The lifeline of a call that is over no longer moves. -/
lemma Over.line_deliver (hwf : db.WellFormed) (h : db.Over c) (e : ProviderEvent) :
    (db.deliver e).line c = db.line c := by
  by_cases hres : db.resolves e = some c
  · by_cases hseen : db.Seen e
    · exact line_again hwf hres hseen
    · rw [line_first hwf hres hseen]
      cases hl : db.line c with
      | none => rfl
      | some l => rw [Option.map_some, Lifeline.step_of_isTerminal (h l hl)]
  · exact (deliver_other hwf hres).2.1

lemma Over.line_deliveries (hwf : db.WellFormed) (h : db.Over c) :
    (es.foldl VoipDb.deliver db).line c = db.line c := by
  refine (foldl_invariant (I := fun s : VoipDb => s.WellFormed ∧ s.line c = db.line c)
    (fun s e _ hs => ?_) ⟨hwf, rfl⟩).2
  have hover : s.Over c := fun l hl => h l (hs.2 ▸ hl)
  exact ⟨(deliver_ledger hs.1 e).1, (hover.line_deliver hs.1 e).trans hs.2⟩

/-- Closing writes the row of one open hold of the call, or nothing. -/
lemma close_rows {db db' : Reservations} {callId sessionId : Uuid} {actual : Int}
    {finalState : HoldState} {s : Option Settlement}
    (h : db.close callId sessionId actual finalState = some (s, db')) :
    db'.reservations = db.reservations ∨ ∃ res s', db.latest callId = some res ∧
      db'.reservations = Table.update Reservation.id db.reservations res.id
        (Reservation.closeWith finalState s') := by
  rw [Reservations.close] at h
  cases hl : db.latest callId with
  | none =>
    rw [hl] at h
    cases h
    exact .inl rfl
  | some res =>
    rw [hl] at h
    dsimp only at h
    split_ifs at h
    · cases h
      exact .inl rfl
    · obtain ⟨pool, -, h⟩ := Option.bind_eq_some_iff.mp h
      obtain ⟨out, -, h⟩ := Option.bind_eq_some_iff.mp h
      cases h
      exact .inr ⟨res, _, rfl, rfl⟩

/-- Closing the hold of one call keeps the identifiers and leaves the holds of the others. -/
lemma ClosesAtMost.rows {callId : Uuid} (h : db.ClosesAtMost db' callId)
    (hids : Table.Unique Reservation.id db.reservations) :
    Table.Unique Reservation.id db'.reservations ∧
      ∀ c, c ≠ callId → db'.holdsOf c = db.holdsOf c := by
  rcases h with hsame | ⟨sessionId, actual, finalState, s, hclose⟩
  · exact ⟨hsame ▸ hids, fun c _ => by rw [holdsOf, hsame, holdsOf]⟩
  rcases close_rows hclose with hrows | ⟨res, s', hlatest, hrows⟩
  · exact ⟨hrows ▸ hids, fun c _ => by rw [holdsOf, hrows, holdsOf]⟩
  refine ⟨hrows ▸ hids.update (Reservation.closeWith_keepsId _ _), fun c hc => ?_⟩
  have hcall : res.callId = callId := Table.key_of_get hlatest
  rw [holdsOf, hrows, Table.update, List.filter_map, holdsOf]
  have hkeep : ((fun r : Reservation => decide (r.callId = c)) ∘
      fun r => if r.id = res.id then r.closeWith finalState s' else r) =
      fun r => decide (r.callId = c) := by
    funext r
    rw [Function.comp_apply]
    split_ifs <;> rfl
  rw [hkeep]
  refine (List.map_congr_left fun r hr => if_neg fun hid => ?_).trans (List.map_id _)
  obtain ⟨hr, hrc⟩ := List.mem_filter.mp hr
  obtain rfl := hids r hr res (Table.mem_of_get hlatest) hid
  exact hc ((of_decide_eq_true hrc).symm.trans hcall)

/-- The identifiers of the holds stay unique. -/
lemma deliver_holdIds (hids : Table.Unique Reservation.id db.reservations) (e : ProviderEvent) :
    Table.Unique Reservation.id (db.deliver e).reservations := by
  rcases @deliver_closes db e with hsame | ⟨callId, -, hcloses⟩
  · exact hsame ▸ hids
  · exact (hcloses.rows hids).1

/-- A delivery that writes to a hold of a call finds the call going and leaves it over. -/
lemma holdsOf_deliver (hwf : db.WellFormed) (hids : Table.Unique Reservation.id db.reservations)
    (h : (db.deliver e).holdsOf c ≠ db.holdsOf c) : ¬ db.Over c ∧ (db.deliver e).Over c := by
  rcases @deliver_ends db e with hsame | ⟨call, newState, hcall, hnew, hmove, hterm, hcloses⟩
  · exact absurd (by rw [holdsOf, hsame, holdsOf]) h
  obtain rfl : c = call.id := by
    by_contra hne
    exact h ((hcloses.rows hids).2 c hne)
  have hres : db.resolves e = some call.id := by rw [resolves, hcall, Option.map_some]
  have hrow : db.fetchCall call.id = some call :=
    (resolveCall_some hwf (Prod.ext hcall rfl)).1
  have hline : db.line call.id = some call.line := by rw [line, hrow, Option.map_some]
  obtain ⟨ev, -, hnext⟩ := Option.bind_eq_some_iff.mp hmove
  refine ⟨fun hover => ?_, fun l hl => ?_⟩
  · have hgoing := (next_rank hnext).1
    exact absurd (hover _ hline) (by simp [CallRow.line, hgoing])
  · rw [line_first hwf hres hnew, hline, Option.map_some, Lifeline.step] at hl
    simp only [CallRow.line, hmove, Option.some.injEq] at hl
    exact hl ▸ hterm

/-- A call that is over keeps its holds. -/
lemma Over.holdWrites_eq (hwf : db.WellFormed)
    (hids : Table.Unique Reservation.id db.reservations) (h : db.Over c) :
    holdWrites c db es = 0 := by
  induction es generalizing db with
  | nil => rfl
  | cons e es ih =>
    have hover : (db.deliver e).Over c := fun l hl => h l (h.line_deliver hwf e ▸ hl)
    rw [holdWrites, ih (deliver_ledger hwf e).1 (deliver_holdIds hids e) hover, add_zero]
    refine if_pos ?_
    by_contra hne
    exact (holdsOf_deliver hwf hids hne).1 h

/-- **A hold is closed once.**  Of any sequence of deliveries, one at most writes to the holds of
a call. -/
lemma holdWrites_le_one (hwf : db.WellFormed)
    (hids : Table.Unique Reservation.id db.reservations) : holdWrites c db es ≤ 1 := by
  induction es generalizing db with
  | nil => exact Nat.zero_le 1
  | cons e es ih =>
    have hwf' := (deliver_ledger hwf e).1
    have hids' := deliver_holdIds hids e
    rw [holdWrites]
    split_ifs with hsame
    · rw [zero_add]
      exact ih hwf' hids'
    · -- written here, so the call is over from here on
      rw [(holdsOf_deliver hwf hids hsame).2.holdWrites_eq hwf' hids']

/-- **Replay, repetition and settlement.**  A redelivery of an event that was resolved to a call
changes nothing, wherever it comes in a sequence of deliveries; and over every sequence the holds
of a call are written once at most, and what a call that is over was charged stays. -/
theorem redeliveries_inert (hwf : db.WellFormed)
    (hids : Table.Unique Reservation.id db.reservations) :
    (∀ (pre mid post : List ProviderEvent) (e again : ProviderEvent), again.key = e.key →
      again.legId = e.legId → again.clientState = e.clientState →
      (pre.foldl VoipDb.deliver db).resolves e ≠ none →
      (pre ++ e :: mid ++ again :: post).foldl VoipDb.deliver db =
        (pre ++ e :: mid ++ post).foldl VoipDb.deliver db) ∧
    (∀ (es : List ProviderEvent) (c : Uuid), holdWrites c db es ≤ 1) ∧
    (∀ (pre post : List ProviderEvent) (c : Uuid) (row : CallRow),
      (pre.foldl VoipDb.deliver db).fetchCall c = some row → row.status.isTerminal = true →
      ∃ row', ((pre ++ post).foldl VoipDb.deliver db).fetchCall c = some row' ∧
        row'.status = row.status ∧ row'.creditsConsumed = row.creditsConsumed) := by
  refine ⟨fun pre mid post e again hkey hleg hstate hres => ?_, fun es c => ?_,
    fun pre post c row hrow hterm => ?_⟩
  · exact replay_inert hwf hkey hleg hstate hres
  · exact holdWrites_le_one hwf hids
  · have hline : (pre.foldl VoipDb.deliver db).line c = some row.line := by
      rw [line, hrow, Option.map_some]
    have hover : (pre.foldl VoipDb.deliver db).Over c := by
      intro l hl
      rw [hline] at hl
      cases hl
      exact hterm
    have hkept := @Over.line_deliveries _ post c (wellFormed_deliveries hwf) hover
    rw [hline, ← List.foldl_append] at hkept
    obtain ⟨row', hrow', hline'⟩ := Option.map_eq_some_iff.mp hkept
    exact ⟨row', hrow', congrArg Lifeline.status hline',
      congrArg Lifeline.creditsConsumed hline'⟩

/-- The law on a call whose answer is redelivered before the hangup, and whose hangup comes again
under a fresh id. -/
theorem redeliveries_inert_sample :
    [answerEvent, mediaEvent, answerEvent, hangupEvent].foldl VoipDb.deliver dialedDb =
      [answerEvent, mediaEvent, hangupEvent].foldl VoipDb.deliver dialedDb ∧
    holdWrites 7 dialedDb [answerEvent, hangupEvent, { hangupEvent with eventId := "again" }] ≤ 1 ∧
    ∃ row', ([answerEvent, hangupEvent, { hangupEvent with eventId := "again" }].foldl
        VoipDb.deliver dialedDb).fetchCall 7 = some row' ∧
      row'.status = .completed ∧ row'.creditsConsumed = 120 := by
  have hids : Table.Unique Reservation.id dialedDb.reservations := by
    simp [dialedDb, Table.Unique]
  obtain ⟨hreplay, hclosed, hcharged⟩ := redeliveries_inert dialedDb_wellFormed hids
  obtain ⟨row, hrow⟩ : ∃ row,
      ([answerEvent, hangupEvent].foldl VoipDb.deliver dialedDb).fetchCall 7 = some row ∧
        row.status = .completed ∧ row.creditsConsumed = 120 := by
    decide +kernel
  refine ⟨?_, hclosed _ _, ?_⟩
  · exact hreplay [] [mediaEvent] [hangupEvent] answerEvent answerEvent rfl rfl rfl
      (by decide +kernel)
  · obtain ⟨row', hrow', hstatus, hcredits⟩ := hcharged [answerEvent, hangupEvent]
      [{ hangupEvent with eventId := "again" }] 7 row hrow.1 (by rw [hrow.2.1]; rfl)
    exact ⟨row', hrow', hstatus.trans hrow.2.1, hcredits.trans hrow.2.2⟩

end VoipDb

end VoxTranslate.Voip
