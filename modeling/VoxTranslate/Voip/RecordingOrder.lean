import Mathlib.Data.List.Induction
import VoxTranslate.Voip.Settlement

/-!
# The recording of a call and the order of its webhooks

The lifecycle guards the status of a call against webhooks that come late.  The recording
columns stand outside of it: each first delivery of a recording event writes them as it says,
and the last one to come wins.  So a `recording_started` that is overtaken by the
`recording_saved` it announces takes a saved recording back to `recording`, and a
`recording_saved` without a URL clears the one that was reported.
-/

namespace VoxTranslate.Voip

open Lib Business

/-- The event says that the recording is saved. -/
def isSaved (e : ProviderEvent) : Bool :=
  match e.kind with
  | .recordingSaved _ _ _ => true
  | _ => false

/-- The URL that the event reports. -/
def reportedUrl (e : ProviderEvent) : Option String :=
  match e.kind with
  | .recordingSaved url _ _ => if url = "" then none else some url
  | _ => none

/-- The provider's handle that the event reports. -/
def reportedId (e : ProviderEvent) : Option String :=
  match e.kind with
  | .recordingSaved _ recordingId _ => recordingId
  | _ => none

/-- The recording columns of a call. -/
structure RecordingLine where
  status : RecordingStatus
  url : Option String
  recordingId : Option String

def CallRow.recordingLine (c : CallRow) : RecordingLine where
  status := c.recordingStatus
  url := c.providerRecordingUrl
  recordingId := c.providerRecordingId

namespace RecordingLine

/-- What the first delivery of an event does to the recording columns. -/
def step (l : RecordingLine) (e : ProviderEvent) : RecordingLine :=
  match e.kind with
  | .recordingStarted => { l with status := .recording }
  | .recordingSaved url recordingId _ =>
    { status := .saved
      url := if url = "" then none else some url
      recordingId := recordingId.or l.recordingId }
  | _ => l

end RecordingLine

/-- Nothing but the side effects of a webhook touches the recording columns. -/
lemma follows_recordingLine : VoipDb.Follows CallRow.recordingLine RecordingLine.step where
  addLeg leg c := by
    rw [CallRow.addLeg]
    split_ifs <;> rfl
  receive e c := by
    have hnote : (c.noteEvent e).recordingLine = c.recordingLine.step e := by
      rw [CallRow.noteEvent, RecordingLine.step]
      cases e.kind <;> rfl
    rw [← hnote, CallRow.receive]
    cases (lifecycleEvent e.kind).bind (next c.status) with
    | none => rfl
    | some newState =>
      dsimp only
      split_ifs <;> rfl

/-- What is stored is what one of the events reports, if any reports it. -/
def Reported (report : ProviderEvent → Option String) (es : List ProviderEvent)
    (stored : Option String) : Prop :=
  (∃ e ∈ es, report e ≠ none) → stored ≠ none ∧ ∃ e ∈ es, report e = stored

/-- The recording that the events `es` report is kept: it is saved, with its URL and handle. -/
structure KeepsRecording (es : List ProviderEvent) (l : RecordingLine) : Prop where
  status : l.status = .saved
  url : Reported reportedUrl es l.url
  recordingId : Reported reportedId es l.recordingId

/-- The later event `e` takes back what `s` has recorded. -/
def Undoes (s e : ProviderEvent) : Prop :=
  isSaved s = true ∧ e.kind = .recordingStarted ∨
    reportedUrl s ≠ none ∧ isSaved e = true ∧ reportedUrl e = none

instance : DecidableRel Undoes := fun _ _ => inferInstanceAs (Decidable (_ ∨ _))

namespace Reported

variable {report : ProviderEvent → Option String} {es es' : List ProviderEvent}
  {e : ProviderEvent} {stored : Option String}

lemma congr (h : Reported report es stored) (hmem : ∀ e, e ∈ es ↔ e ∈ es') :
    Reported report es' stored := by
  unfold Reported at *
  simpa only [hmem] using h

lemma of_none (h : ∀ e ∈ es, report e = none) : Reported report es stored := by
  rintro ⟨e, he, hne⟩
  exact absurd (h e he) hne

/-- The last event reports what is stored. -/
lemma last (h : report e = stored) (hne : stored ≠ none) : Reported report (es ++ [e]) stored :=
  fun _ => ⟨hne, e, by simp, h⟩

/-- The last event reports nothing. -/
lemma skip (h : Reported report es stored) (hnone : report e = none) :
    Reported report (es ++ [e]) stored := by
  rintro ⟨a, ha, hne⟩
  rcases List.mem_append.mp ha with ha | ha
  · obtain ⟨hstored, b, hb, heq⟩ := h ⟨a, ha, hne⟩
    exact ⟨hstored, b, List.mem_append_left [e] hb, heq⟩
  · rw [List.mem_singleton.mp ha] at hne
    exact absurd hnone hne

end Reported

section

variable {s e : ProviderEvent} {es es' : List ProviderEvent} {l : RecordingLine}

lemma reportedUrl_of_not_saved (h : isSaved e = false) : reportedUrl e = none := by
  unfold isSaved at h
  unfold reportedUrl
  split
  next hk => simp [hk] at h
  next => rfl

lemma reportedId_of_not_saved (h : isSaved e = false) : reportedId e = none := by
  unfold isSaved at h
  unfold reportedId
  split
  next hk => simp [hk] at h
  next => rfl

lemma KeepsRecording.congr (h : KeepsRecording es l) (hmem : ∀ e, e ∈ es ↔ e ∈ es') :
    KeepsRecording es' l := ⟨h.status, h.url.congr hmem, h.recordingId.congr hmem⟩

lemma step_of_saved (h : isSaved e = true) :
    l.step e = ⟨.saved, reportedUrl e, (reportedId e).or l.recordingId⟩ := by
  unfold isSaved at h
  split at h
  next hk => rw [RecordingLine.step, reportedUrl, reportedId, hk]
  next => cases h

lemma step_of_started (h : e.kind = .recordingStarted) :
    l.step e = { l with status := .recording } := by
  rw [RecordingLine.step, h]

lemma step_of_quiet (hsaved : isSaved e = false) (hstarted : e.kind ≠ .recordingStarted) :
    l.step e = l := by
  unfold isSaved at hsaved
  unfold RecordingLine.step
  split
  next hk => exact absurd hk hstarted
  next hk => simp [hk] at hsaved
  next => rfl

/-- An event that saves the recording and undoes nothing keeps it. -/
lemma KeepsRecording.save (hprev : (∃ s ∈ es, isSaved s = true) → KeepsRecording es l)
    (hsaved : isSaved e = true) (hkept : ∀ s ∈ es, ¬ Undoes s e) :
    KeepsRecording (es ++ [e]) (l.step e) := by
  rw [step_of_saved hsaved]
  refine ⟨rfl, ?_, ?_⟩
  · cases hurl : reportedUrl e with
    | some url => exact .last hurl (by simp)
    | none =>
      -- no earlier event has a URL either, or this one would undo it
      refine Reported.skip (.of_none fun s hs => ?_) hurl
      by_contra hne
      exact hkept s hs (.inr ⟨hne, hsaved, hurl⟩)
  · cases hid : reportedId e with
    | some id => exact .last hid (by simp)
    | none =>
      refine Reported.skip ?_ hid
      by_cases hany : ∃ s ∈ es, isSaved s = true
      · exact (hprev hany).recordingId
      · refine .of_none fun s hs => reportedId_of_not_saved ?_
        by_contra hs'
        exact hany ⟨s, hs, by simpa using hs'⟩

/-- **A saved recording that is not undone is kept.** -/
lemma keepsRecording_foldl (hp : es.Pairwise fun s e => ¬ Undoes s e)
    (hsaved : ∃ e ∈ es, isSaved e = true) :
    KeepsRecording es (es.foldl RecordingLine.step l) := by
  induction es using List.reverseRecOn with
  | nil => simp at hsaved
  | append_singleton es e ih =>
    obtain ⟨hp₁, -, hlast⟩ := List.pairwise_append.mp hp
    have hkept : ∀ s ∈ es, ¬ Undoes s e := fun s hs => hlast s hs e List.mem_cons_self
    rw [List.foldl_append, List.foldl_cons, List.foldl_nil]
    cases he : isSaved e with
    | true => exact .save (ih hp₁) he hkept
    | false =>
      obtain ⟨s, hs, hs'⟩ : ∃ s ∈ es, isSaved s = true := by
        obtain ⟨s, hs, hs'⟩ := hsaved
        rcases List.mem_append.mp hs with hs | hs
        · exact ⟨s, hs, hs'⟩
        · rw [List.mem_singleton.mp hs, he] at hs'
          cases hs'
      have hstarted : e.kind ≠ .recordingStarted := fun h => hkept s hs (.inl ⟨hs', h⟩)
      have hprev := ih hp₁ ⟨s, hs, hs'⟩
      rw [step_of_quiet he hstarted]
      exact ⟨hprev.status, hprev.url.skip (reportedUrl_of_not_saved he),
        hprev.recordingId.skip (reportedId_of_not_saved he)⟩

/-- An event that undoes an earlier one leaves the recording lost. -/
lemma not_keepsRecording_of_undoes (hs : s ∈ es) (h : Undoes s e) :
    ¬ KeepsRecording (es ++ [e]) (l.step e) := by
  intro hkeeps
  rcases h with ⟨-, hstarted⟩ | ⟨hurl, hsaved, hnone⟩
  · have hstatus := hkeeps.status
    rw [step_of_started hstarted] at hstatus
    cases hstatus
  · have hlost := (hkeeps.url ⟨s, List.mem_append_left [e] hs, hurl⟩).1
    rw [step_of_saved hsaved] at hlost
    exact hlost hnone

/-- A relation holds of a list if every element stands right with the elements before it. -/
lemma pairwise_of_split {α : Type*} {R : α → α → Prop} {l : List α}
    (h : ∀ l₁ a l₂, l = l₁ ++ a :: l₂ → ∀ b ∈ l₁, R b a) : l.Pairwise R := by
  induction l using List.reverseRecOn with
  | nil => exact .nil
  | append_singleton l a ih =>
    refine List.pairwise_append.mpr ⟨ih fun l₁ b l₂ hl => ?_, List.pairwise_singleton R a, ?_⟩
    · exact h l₁ b (l₂ ++ [a]) (by rw [hl, List.append_assoc, List.cons_append])
    · intro b hb c hc
      rw [List.mem_singleton.mp hc]
      exact h l a [] rfl b hb

end

namespace VoipDb

variable {db : VoipDb} {c : Uuid} {ds es : List ProviderEvent} {row : CallRow}

/-- The recording columns of a call after its deliveries. -/
lemma recordingLine_deliveries (hwf : db.WellFormed) (hrow : db.fetchCall c = some row)
    (haddr : Addressed c db ds es) (hids : ∀ e ∈ es, ∀ e' ∈ es, e.key = e'.key → e = e')
    (hfresh : ∀ e ∈ es, ¬ db.Seen e) :
    ∃ row', (ds.foldl deliver db).fetchCall c = some row' ∧
      row'.recordingLine = (firsts [] es).foldl RecordingLine.step row.recordingLine := by
  have hseen : ∀ e ∈ es, db.Seen e ↔ e ∈ ([] : List ProviderEvent) :=
    fun e he => iff_of_false (hfresh e he) (by simp)
  have hview := follows_recordingLine.deliveries hwf haddr hids hseen
  rw [hrow, Option.map_some, Option.map_some] at hview
  exact Option.map_eq_some_iff.mp hview

/-- **When the recording does not depend on the order.**  However the webhooks of a call are
delivered, repeated and mixed with other deliveries: from the first that says the recording is
saved, at every point, the recording is saved with its URL and its handle, exactly when no first
delivery undoes what an earlier one has recorded. -/
theorem recording_kept_iff (hwf : db.WellFormed) (hrow : db.fetchCall c = some row)
    (haddr : Addressed c db ds es) (hids : ∀ e ∈ es, ∀ e' ∈ es, e.key = e'.key → e = e')
    (hfresh : ∀ e ∈ es, ¬ db.Seen e) :
    (∀ ds₁ ds₂ es₁, ds = ds₁ ++ ds₂ → Addressed c db ds₁ es₁ →
      (∃ e ∈ es₁, isSaved e = true) →
      ∃ row', (ds₁.foldl deliver db).fetchCall c = some row' ∧
        KeepsRecording es₁ row'.recordingLine) ↔
    (firsts [] es).Pairwise fun s e => ¬ Undoes s e := by
  have hmem : ∀ es₁ e, e ∈ firsts [] es₁ ↔ e ∈ es₁ := fun es₁ e =>
    ⟨mem_firsts, fun h => mem_firsts_of_mem h (by simp)⟩
  -- the columns after a prefix of the deliveries
  have hprefix : ∀ ds₁ ds₂ es₁ es₂, ds = ds₁ ++ ds₂ → es = es₁ ++ es₂ →
      Addressed c db ds₁ es₁ → ∃ row', (ds₁.foldl deliver db).fetchCall c = some row' ∧
        row'.recordingLine = (firsts [] es₁).foldl RecordingLine.step row.recordingLine := by
    rintro ds₁ ds₂ es₁ es₂ - rfl haddr₁
    have hsub : ∀ e ∈ es₁, e ∈ es₁ ++ es₂ := fun e he => List.mem_append_left es₂ he
    exact recordingLine_deliveries hwf hrow haddr₁
      (fun e he e' he' => hids e (hsub e he) e' (hsub e' he')) fun e he => hfresh e (hsub e he)
  constructor
  · intro hkept
    refine pairwise_of_split fun l₁ e l₂ hsplit s hs hundoes => ?_
    obtain ⟨es₁, es₂, rfl, hfirsts⟩ := firsts_split hsplit
    obtain ⟨ds₁, ds₂, hds, haddr₁⟩ := haddr.split
    obtain ⟨row', hrow', hline⟩ := hprefix ds₁ ds₂ (es₁ ++ [e]) es₂ hds (by simp) haddr₁
    have hs₁ : s ∈ es₁ ++ [e] := by
      rw [← hmem, hfirsts]
      exact List.mem_append_left [e] hs
    have hsaved : isSaved s = true := by
      rcases hundoes with ⟨h, -⟩ | ⟨h, -⟩
      · exact h
      · by_contra hne
        exact h (reportedUrl_of_not_saved (by simpa using hne))
    obtain ⟨row'', hrow'', hkeeps⟩ := hkept ds₁ ds₂ _ hds haddr₁ ⟨s, hs₁, hsaved⟩
    rw [hrow'] at hrow''
    cases hrow''
    rw [hline, hfirsts, List.foldl_append] at hkeeps
    refine not_keepsRecording_of_undoes hs hundoes (hkeeps.congr fun a => ?_)
    rw [← hmem, hfirsts]
  · intro hp ds₁ ds₂ es₁ hds haddr₁ hsaved
    obtain ⟨es₂, hes⟩ := haddr₁.prefix_of (hds ▸ haddr)
    obtain ⟨row', hrow', hline⟩ := hprefix ds₁ ds₂ es₁ es₂ hds hes haddr₁
    obtain ⟨rest, hrest⟩ := firsts_append [] es₁ es₂
    rw [hes, hrest] at hp
    refine ⟨row', hrow', ?_⟩
    rw [hline]
    refine (keepsRecording_foldl (List.pairwise_append.mp hp).1 ?_).congr (hmem es₁)
    obtain ⟨e, he, hsaved⟩ := hsaved
    exact ⟨e, (hmem es₁ e).mpr he, hsaved⟩

def startedEvent : ProviderEvent := callEvent "s" 2 .recordingStarted
def savedEvent : ProviderEvent :=
  callEvent "r" 121 (.recordingSaved "https://carrier/rec" (some "rec") 118)

/-- The law on a call whose webhooks come in order, with the start delivered again at the end. -/
theorem recording_kept_inOrder :
    ∃ row', ([answerEvent, mediaEvent, startedEvent, hangupEvent, savedEvent, startedEvent].foldl
        deliver dialedDb).fetchCall 7 = some row' ∧
      KeepsRecording [answerEvent, mediaEvent, startedEvent, hangupEvent, savedEvent,
        startedEvent] row'.recordingLine := by
  have haddr : Addressed 7 dialedDb
      [answerEvent, mediaEvent, startedEvent, hangupEvent, savedEvent, startedEvent]
      [answerEvent, mediaEvent, startedEvent, hangupEvent, savedEvent, startedEvent] :=
    .mine (by decide +kernel) (.mine (by decide +kernel) (.mine (by decide +kernel)
      (.mine (by decide +kernel) (.mine (by decide +kernel) (.mine (by decide +kernel)
        (.nil _))))))
  have hrow : dialedDb.fetchCall 7 = some dialedCall := rfl
  refine (recording_kept_iff dialedDb_wellFormed hrow haddr (by decide) ?_).mpr (by decide)
    _ [] _ (List.append_nil _).symm haddr ⟨savedEvent, by simp, rfl⟩
  simp [Seen, dialedDb]

/-- A `recording_started` that is overtaken by everything else takes the saved recording back,
and a saved event without a URL clears the one that was reported. -/
theorem late_start_loses_recording :
    Addressed 7 dialedDb [answerEvent, mediaEvent, hangupEvent, savedEvent, startedEvent]
      [answerEvent, mediaEvent, hangupEvent, savedEvent, startedEvent] ∧
    (([answerEvent, mediaEvent, hangupEvent, savedEvent, startedEvent].foldl deliver
        dialedDb).fetchCall 7).map CallRow.recordingStatus = some .recording ∧
    (([startedEvent, savedEvent, callEvent "r2" 122 (.recordingSaved "" none 118)].foldl deliver
        dialedDb).fetchCall 7).map CallRow.providerRecordingUrl = some none :=
  ⟨.mine (by decide +kernel) (.mine (by decide +kernel) (.mine (by decide +kernel)
      (.mine (by decide +kernel) (.mine (by decide +kernel) (.nil _))))),
    by decide +kernel, by decide +kernel⟩

end VoipDb

end VoxTranslate.Voip
