import VoxTranslate.Base
import VoxTranslate.Engine.Qwen
import VoxTranslate.Lib.OldestFirst

/-!
# Retention (`business/retention.rs`)

Recordings and transcripts that are past the window of their organization are deleted by a sweep
that comes back again and again.  A pass is given at most `batch` expired rows, the oldest first;
of each it deletes the object and then forgets where it was, and it skips a row whose object
cannot be deleted.  Call sessions and phone recordings are swept alike, over different rows and
different storages.
-/

namespace VoxTranslate.Business.Retention

open Lib
open Engine (Text)

inductive OrgPlan where
  | business
  | enterprise
  deriving DecidableEq, Repr

/-- A row of `organizations`. -/
structure OrgRow where
  plan : OrgPlan
  /-- `settings->>'retention_days'`. -/
  retentionDays : Option Text
  complianceMode : Bool

/-- What a text spells that meets `'^[1-9][0-9]*$'`. -/
def positiveInt : Text → Option Nat
  | [] => none
  | c :: cs =>
    if c.isDigit && c ≠ '0' && cs.all Char.isDigit then
      some ((c :: cs).foldl (fun n d => 10 * n + (d.toNat - '0'.toNat)) 0)
    else none

/-- The retention window an organization has set. -/
structure Window where
  orgId : Uuid
  days : Nat
  compliance : Bool
  deriving DecidableEq, Repr

/-- `now() - make_interval(days => ...)`. -/
def Window.edge (w : Window) (now : Timestamp) : Timestamp := now - w.days * 86400000000

/-- What a sweep does, in order. -/
inductive Action where
  /-- The storage has deleted the object. -/
  | deleted (path : Text)
  /-- The row forgets its object. -/
  | cleared (id : Uuid) (pointer : Option Text)
  /-- `retention.purge` in `audit_logs`. -/
  | audited (orgId id : Uuid) (retentionDays : Nat) (deletedRecording : Bool)
  deriving DecidableEq, Repr

/-- A kind of rows a sweep goes through. -/
structure Kind (ρ : Type) where
  id : ρ → Uuid
  /-- The window of the organization, where one is set. -/
  window : ρ → Option Window
  /-- `COALESCE(ended_at, started_at)`. -/
  age : ρ → Timestamp
  /-- There is something to delete. -/
  holds : ρ → Bool
  /-- The name of the object in the storage. -/
  pointer : ρ → Option Text
  clear : ρ → ρ
  id_clear : ∀ r, id (clear r) = id r
  holds_clear : ∀ r, holds (clear r) = false
  clear_clear : ∀ r, clear (clear r) = clear r

variable {ρ : Type} (K : Kind ρ)

/-- The row is selected. -/
def Kind.due (now : Timestamp) (r : ρ) : Bool :=
  match K.window r with
  | none => false
  | some w => K.holds r && decide (K.age r < w.edge now)

/-- The object of the row is not deleted. -/
def Kind.fails (storage : Option (Text → Bool)) (r : ρ) : Bool :=
  match K.pointer r with
  | none => false
  | some path => !storage.any fun delete => delete path

lemma Kind.nodup_clear {l : List ρ} (id : Uuid) (h : (l.map K.id).Nodup) :
    ((l.map fun x => if K.id x = id then K.clear x else x).map K.id).Nodup := by
  have heq : (l.map fun x => if K.id x = id then K.clear x else x).map K.id = l.map K.id := by
    rw [List.map_map]
    refine List.map_congr_left fun x _ => ?_
    by_cases hid : K.id x = id
    · rw [Function.comp_apply, if_pos hid, K.id_clear]
    · rw [Function.comp_apply, if_neg hid]
  rwa [heq]

/-- The table, and what the sweeps have done so far. -/
structure Backlog where
  rows : List ρ
  distinct : (rows.map K.id).Nodup
  log : List Action

namespace Backlog

variable {K}

/-- The answer of the query without its limit. -/
def due (s : Backlog K) (now : Timestamp) : List ρ := s.rows.filter (K.due now)

def note (s : Backlog K) (a : Action) : Backlog K := { s with log := s.log ++ [a] }

/-- `UPDATE ... WHERE id = $1`. -/
def update (s : Backlog K) (r : ρ) : Backlog K where
  rows := s.rows.map fun x => if K.id x = K.id r then K.clear x else x
  distinct := K.nodup_clear (K.id r) s.distinct
  log := s.log ++ [.cleared (K.id r) (K.pointer r)]

/-- The trail of the purge, where the organization keeps one. -/
def audit (s : Backlog K) (r : ρ) : Backlog K :=
  match K.window r with
  | none => s
  | some w =>
    if w.compliance then s.note (.audited w.orgId (K.id r) w.days (K.pointer r).isSome) else s

end Backlog

/-- One row of a pass, with the number of rows purged so far. -/
def sweepRow (storage : Option (Text → Bool)) (acc : Backlog K × Nat) (r : ρ) :
    Backlog K × Nat :=
  match K.pointer r with
  | none => ((acc.1.update r).audit r, acc.2 + 1)
  | some path =>
    match storage with
    -- storage is not configured: skipping
    | none => acc
    | some delete =>
      if delete path then (((acc.1.note (.deleted path)).update r).audit r, acc.2 + 1) else acc

/-- The rows of a pass. -/
def sweepRows (storage : Option (Text → Bool)) (picked : List ρ) (s : Backlog K) :
    Backlog K × Nat :=
  picked.foldl (sweepRow K storage) (s, 0)

/-- A row of `call_sessions`, with the number of its transcripts. -/
structure CallSession where
  id : Uuid
  orgId : Option Uuid
  recordingStoragePath : Option Text
  transcriptStatus : Text
  transcripts : Nat
  startedAt : Timestamp
  endedAt : Option Timestamp
  deriving DecidableEq, Repr

/-- The rows of `sweep_once`. -/
def callSessions (orgs : Uuid → Option OrgRow) : Kind CallSession where
  id := CallSession.id
  window cs := cs.orgId.bind fun orgId => (orgs orgId).bind fun o =>
    if o.plan = .enterprise then
      (o.retentionDays.bind positiveInt).map fun days => ⟨orgId, days, o.complianceMode⟩
    else none
  age cs := cs.endedAt.getD cs.startedAt
  holds cs := cs.recordingStoragePath.isSome || 0 < cs.transcripts
  pointer := CallSession.recordingStoragePath
  clear cs := { cs with
    recordingStoragePath := none
    transcriptStatus := ['e', 'x', 'p', 'i', 'r', 'e', 'd']
    transcripts := 0 }
  id_clear _ := rfl
  holds_clear _ := rfl
  clear_clear _ := rfl

/-- `sweep_once`: where no storage is configured, what has a recording is skipped. -/
def sweepOnce (orgs : Uuid → Option OrgRow) (storage : Option (Text → Bool))
    (picked : List CallSession) (s : Backlog (callSessions orgs)) :
    Backlog (callSessions orgs) × Nat :=
  sweepRows (callSessions orgs) storage picked s

inductive RecordingStatus where
  | none
  | pending
  | recording
  | saved
  | failed
  | deleted
  deriving DecidableEq, Repr

/-- A row of `voip_calls`. -/
structure VoipCall where
  id : Uuid
  orgId : Uuid
  providerRecordingId : Option Text
  providerRecordingUrl : Option Text
  recordingStatus : RecordingStatus
  startedAt : Timestamp
  endedAt : Option Timestamp
  deriving DecidableEq, Repr

/-- The rows of `sweep_voip_recordings_once`: `settings` is `voip_org_settings`. -/
def voipCalls (orgs : Uuid → Option OrgRow) (settings : Uuid → Option (Option Int)) :
    Kind VoipCall where
  id := VoipCall.id
  window c := (orgs c.orgId).bind fun o => (settings c.orgId).join.bind fun days =>
    if 0 < days then some ⟨c.orgId, days.toNat, o.complianceMode⟩ else none
  age c := c.endedAt.getD c.startedAt
  holds c := c.providerRecordingId.isSome && c.recordingStatus = .saved
  pointer := VoipCall.providerRecordingId
  clear c := { c with
    recordingStatus := .deleted
    providerRecordingId := none
    providerRecordingUrl := none }
  id_clear _ := rfl
  holds_clear _ := rfl
  clear_clear _ := rfl

/-- `sweep_voip_recordings_once`: without a provider nothing is done. -/
def sweepVoipRecordingsOnce (orgs : Uuid → Option OrgRow) (settings : Uuid → Option (Option Int))
    (telephony : Option (Text → Bool)) (picked : List VoipCall)
    (s : Backlog (voipCalls orgs settings)) : Backlog (voipCalls orgs settings) × Nat :=
  match telephony with
  | none => (s, 0)
  | some _ => sweepRows (voipCalls orgs settings) telephony picked s

/-- A pass: when it runs, what the storage accepts, and the rows the database answers. -/
structure Pass (ρ : Type) where
  now : Timestamp
  storage : Option (Text → Bool)
  picked : List ρ

/-- A pass over call sessions. -/
def passSessions (orgs : Uuid → Option OrgRow) (batch : Nat) (s : Backlog (callSessions orgs))
    (p : Pass CallSession) : Option (Backlog (callSessions orgs)) :=
  if IsOldest (callSessions orgs).age batch (s.due p.now) p.picked then
    some (sweepOnce orgs p.storage p.picked s).1
  else none

/-- A pass over phone recordings. -/
def passRecordings (orgs : Uuid → Option OrgRow) (settings : Uuid → Option (Option Int))
    (batch : Nat) (s : Backlog (voipCalls orgs settings)) (p : Pass VoipCall) :
    Option (Backlog (voipCalls orgs settings)) :=
  if IsOldest (voipCalls orgs settings).age batch (s.due p.now) p.picked then
    some (sweepVoipRecordingsOnce orgs settings p.storage p.picked s).1
  else none

/-! ### What a pass does -/

section Sweep

variable {K} {s t : Backlog K} {storage : Option (Text → Bool)} {picked : List ρ}
  {now : Timestamp} {r : ρ}

lemma Kind.due_clear (now : Timestamp) (r : ρ) : K.due now (K.clear r) = false := by
  rw [due]
  cases K.window (K.clear r) with
  | none => rfl
  | some w => simp [K.holds_clear]

lemma Backlog.mem_due : r ∈ s.due now ↔ r ∈ s.rows ∧ K.due now r = true := List.mem_filter

lemma Backlog.eq_of_id (s : Backlog K) {x : ρ} (hr : r ∈ s.rows) (hx : x ∈ s.rows)
    (h : K.id r = K.id x) : r = x := List.inj_on_of_nodup_map s.distinct hr hx h

@[simp] lemma Backlog.audit_rows (s : Backlog K) (r : ρ) : (s.audit r).rows = s.rows := by
  rw [audit]
  split
  · rfl
  · split <;> rfl

/-- What a pass does with a row: the object first, and the row only after it. -/
lemma sweepRow_cases (storage : Option (Text → Bool)) (acc : Backlog K × Nat) (r : ρ) :
    K.fails storage r = true ∧ sweepRow K storage acc r = acc ∨
    K.fails storage r = false ∧ ∃ u : Backlog K,
      sweepRow K storage acc r = ((u.update r).audit r, acc.2 + 1) ∧
      (K.pointer r = none ∧ u = acc.1 ∨
        ∃ path, K.pointer r = some path ∧ u = acc.1.note (.deleted path)) := by
  rw [sweepRow, Kind.fails]
  cases K.pointer r with
  | none => exact .inr ⟨rfl, acc.1, rfl, .inl ⟨rfl, rfl⟩⟩
  | some path =>
    cases storage with
    | none => exact .inl ⟨rfl, rfl⟩
    | some delete =>
      cases hdelete : delete path with
      | false => exact .inl ⟨by simp [hdelete], by simp [hdelete]⟩
      | true =>
        exact .inr ⟨by simp [hdelete], acc.1.note (.deleted path), by simp [hdelete],
          .inr ⟨path, rfl, rfl⟩⟩

/-- One row is cleared, where its object does not fail. -/
lemma sweepRow_rows (acc : Backlog K × Nat) : (sweepRow K storage acc r).1.rows =
    acc.1.rows.map fun x =>
      if K.id x = K.id r ∧ K.fails storage r = false then K.clear x else x := by
  rcases sweepRow_cases storage acc r with ⟨hfails, heq⟩ | ⟨hgood, u, heq, hu⟩
  · simp [heq, hfails]
  · have hrows : u.rows = acc.1.rows := by
      rcases hu with ⟨-, rfl⟩ | ⟨path, -, rfl⟩ <;> rfl
    simp [heq, hgood, Backlog.update, hrows]

/-- The rows of a pass whose objects do not fail are cleared, and no others. -/
lemma foldl_sweepRow_rows (acc : Backlog K × Nat) :
    (picked.foldl (sweepRow K storage) acc).1.rows = acc.1.rows.map fun x =>
      if ∃ r ∈ picked, K.id x = K.id r ∧ K.fails storage r = false then K.clear x else x := by
  induction picked generalizing acc with
  | nil => simp
  | cons r picked ih =>
    rw [List.foldl_cons, ih, sweepRow_rows, List.map_map]
    refine List.map_congr_left fun x _ => ?_
    simp only [Function.comp_apply, List.exists_mem_cons_iff]
    by_cases hr : K.id x = K.id r ∧ K.fails storage r = false
    · simp [hr, K.id_clear, K.clear_clear]
    · simp [hr]

/-- A pass in which every deletion fails does nothing. -/
lemma foldl_sweepRow_of_fails {acc : Backlog K × Nat}
    (h : ∀ r ∈ picked, K.fails storage r = true) :
    picked.foldl (sweepRow K storage) acc = acc := by
  induction picked with
  | nil => rfl
  | cons r picked ih =>
    have hr := h r List.mem_cons_self
    rcases sweepRow_cases storage acc r with ⟨-, heq⟩ | ⟨hgood, -⟩
    · rw [List.foldl_cons, heq]
      exact ih fun x hx => h x (List.mem_cons_of_mem _ hx)
    · rw [hr] at hgood
      cases hgood

/-- The number a pass reports. -/
lemma foldl_sweepRow_count (acc : Backlog K × Nat) :
    (picked.foldl (sweepRow K storage) acc).2 =
      acc.2 + picked.countP fun r => !K.fails storage r := by
  induction picked generalizing acc with
  | nil => simp
  | cons r picked ih =>
    rw [List.foldl_cons, ih, List.countP_cons]
    rcases sweepRow_cases storage acc r with ⟨hfails, heq⟩ | ⟨hgood, u, heq, -⟩
    · simp [heq, hfails]
    · simp only [heq, hgood, Bool.not_false, if_true]
      omega

variable [DecidableEq ρ]

/-- A pass over rows of the table clears those of its rows that do not fail. -/
lemma sweepRows_rows (hpicked : ∀ x ∈ picked, x ∈ s.rows) :
    (sweepRows K storage picked s).1.rows =
      s.rows.map fun x => if x ∈ picked ∧ K.fails storage x = false then K.clear x else x := by
  rw [sweepRows, foldl_sweepRow_rows]
  refine List.map_congr_left fun x hx => if_congr ⟨?_, fun h => ⟨x, h.1, rfl, h.2⟩⟩ rfl rfl
  rintro ⟨r, hr, hid, hgood⟩
  rw [s.eq_of_id hx (hpicked r hr) hid]
  exact ⟨hr, hgood⟩

/-- What a pass leaves to be done. -/
lemma due_sweepRows (hpicked : ∀ x ∈ picked, x ∈ s.rows) :
    (sweepRows K storage picked s).1.due now =
      leftover (K.fails storage) picked (s.due now) := by
  rw [Backlog.due, Backlog.due, sweepRows_rows hpicked, leftover, List.filter_map,
    List.filter_filter]
  have hcleared : ∀ x, (K.due now ∘ fun x =>
      if x ∈ picked ∧ K.fails storage x = false then K.clear x else x) x =
        ((K.fails storage x || decide (x ∉ picked)) && K.due now x) := by
    intro x
    rw [Function.comp_apply]
    by_cases hx : x ∈ picked ∧ K.fails storage x = false
    · rw [if_pos hx, K.due_clear]
      simp [hx]
    · rw [if_neg hx]
      cases hfails : K.fails storage x with
      | true => simp
      | false =>
        have hout : x ∉ picked := fun hin => hx ⟨hin, hfails⟩
        simp [hout]
  rw [List.filter_congr fun x _ => hcleared x]
  conv_rhs => rw [← List.map_id (List.filter _ s.rows)]
  refine List.map_congr_left fun x hx => if_neg ?_
  rintro ⟨hin, hgood⟩
  have hleft := (List.mem_filter.mp hx).2
  simp [hin, hgood] at hleft

end Sweep

/-! ### What comes first -/

/-- No row forgets an object that was not deleted before. -/
def Orderly (log : List Action) : Prop :=
  ∀ pre id path, pre ++ [.cleared id (some path)] <+: log → .deleted path ∈ pre

lemma Orderly.concat {log : List Action} {a : Action} (h : Orderly log)
    (ha : ∀ id path, a = .cleared id (some path) → .deleted path ∈ log) :
    Orderly (log ++ [a]) := by
  intro pre id path hpre
  rcases List.prefix_concat_iff.mp hpre with heq | hold
  · obtain ⟨rfl, hlast⟩ := List.append_inj' heq rfl
    exact ha id path (List.singleton_inj.mp hlast).symm
  · exact h pre id path hold

section Order

variable {K}

lemma Backlog.audit_log (s : Backlog K) (r : ρ) :
    (s.audit r).log = s.log ∨ ∃ o d b, (s.audit r).log = s.log ++ [.audited o (K.id r) d b] := by
  rw [audit]
  split
  · exact .inl rfl
  · split
    · exact .inr ⟨_, _, _, rfl⟩
    · exact .inl rfl

lemma orderly_sweepRow (storage : Option (Text → Bool)) (acc : Backlog K × Nat) (r : ρ) :
    (Orderly acc.1.log → Orderly (sweepRow K storage acc r).1.log) ∧
      acc.1.log <+: (sweepRow K storage acc r).1.log ∧
      (K.fails storage r = false → ∀ path, K.pointer r = some path →
        .deleted path ∈ (sweepRow K storage acc r).1.log) := by
  rcases sweepRow_cases storage acc r with ⟨hfails, heq⟩ | ⟨-, u, heq, hu⟩
  · rw [heq, hfails]
    exact ⟨id, List.prefix_rfl, by simp⟩
  rw [heq]
  have hbefore : (Orderly acc.1.log → Orderly u.log) ∧ acc.1.log <+: u.log ∧
      ∀ path, K.pointer r = some path → .deleted path ∈ u.log := by
    rcases hu with ⟨hnone, rfl⟩ | ⟨path, hsome, rfl⟩
    · refine ⟨id, List.prefix_rfl, fun path hpath => ?_⟩
      rw [hnone] at hpath
      cases hpath
    · refine ⟨fun h => h.concat (by simp), List.prefix_append _ _, fun q hq => ?_⟩
      cases hsome.symm.trans hq
      exact List.mem_concat_self
  obtain ⟨hu, hpre, hdeleted⟩ := hbefore
  have hupdated : Orderly acc.1.log → Orderly (u.update r).log := by
    intro h
    refine (hu h).concat fun id path ha => ?_
    injection ha with hid hpointer
    exact hdeleted path hpointer
  have hgrown : u.log <+: (u.update r).log := List.prefix_append _ _
  rcases (u.update r).audit_log r with hlog | ⟨o, d, b, hlog⟩
  · rw [hlog]
    exact ⟨hupdated, hpre.trans hgrown, fun _ path hp => hgrown.subset (hdeleted path hp)⟩
  · rw [hlog]
    have hlonger : u.log <+: (u.update r).log ++ [.audited o (K.id r) d b] :=
      hgrown.trans (List.prefix_append _ _)
    exact ⟨fun h => (hupdated h).concat (by simp), hpre.trans hlonger,
      fun _ path hp => hlonger.subset (hdeleted path hp)⟩

/-- A pass deletes the objects of the rows it clears, and each of them before its row. -/
lemma orderly_foldl (picked : List ρ) (storage : Option (Text → Bool)) (acc : Backlog K × Nat) :
    (Orderly acc.1.log → Orderly (picked.foldl (sweepRow K storage) acc).1.log) ∧
      acc.1.log <+: (picked.foldl (sweepRow K storage) acc).1.log ∧
      ∀ r ∈ picked, K.fails storage r = false → ∀ path, K.pointer r = some path →
        .deleted path ∈ (picked.foldl (sweepRow K storage) acc).1.log := by
  induction picked generalizing acc with
  | nil => exact ⟨id, List.prefix_rfl, by simp⟩
  | cons x picked ih =>
    obtain ⟨hone, hpre, hfirst⟩ := orderly_sweepRow storage acc x
    obtain ⟨hall, hgrown, hrest⟩ := ih (sweepRow K storage acc x)
    refine ⟨fun h => hall (hone h), hpre.trans hgrown, fun r hr hgood path hpath => ?_⟩
    rcases List.mem_cons.mp hr with rfl | hr
    · exact hgrown.subset (hfirst hgood path hpath)
    · exact hrest r hr hgood path hpath

end Order

/-! ### Runs of passes -/

section Runs

variable {K} [DecidableEq ρ] {batch : Nat} {s t : Backlog K} {p : Pass ρ} {ps : List (Pass ρ)}
  {storage : Option (Text → Bool)} {now : Timestamp} {r : ρ}

variable (K) in
/-- A pass over rows of any kind. -/
def Kind.pass (batch : Nat) (s : Backlog K) (p : Pass ρ) : Option (Backlog K) :=
  if IsOldest K.age batch (s.due p.now) p.picked then some (sweepRows K p.storage p.picked s).1
  else none

lemma pass_spec (h : K.pass batch s p = some t) :
    IsOldest K.age batch (s.due p.now) p.picked ∧ (∀ x ∈ p.picked, x ∈ s.rows) ∧
      t = (sweepRows K p.storage p.picked s).1 := by
  obtain ⟨hpicked, ⟨⟩⟩ := Option.ite_none_right_eq_some.mp h
  exact ⟨hpicked, fun x hx => (Backlog.mem_due.mp (hpicked.mem x hx)).1, rfl⟩

lemma pass_rows (h : K.pass batch s p = some t) : t.rows = s.rows.map fun x =>
    if x ∈ p.picked ∧ K.fails p.storage x = false then K.clear x else x := by
  obtain ⟨-, hpicked, rfl⟩ := pass_spec h
  exact sweepRows_rows hpicked

/-- What was done, and what became of every row of `s`: it is unchanged, or cleared with its
object deleted. -/
structure Backlog.Kept (s t : Backlog K) : Prop where
  orderly : Orderly s.log → Orderly t.log
  grown : s.log <+: t.log
  row : ∀ r ∈ s.rows, r ∈ t.rows ∨ K.clear r ∈ t.rows ∧
    ∀ path, K.pointer r = some path → .deleted path ∈ t.log

omit [DecidableEq ρ] in
lemma Backlog.Kept.trans {u : Backlog K} (h : s.Kept t) (h' : t.Kept u) : s.Kept u where
  orderly hlog := h'.orderly (h.orderly hlog)
  grown := h.grown.trans h'.grown
  row := by
    intro r hr
    rcases h.row r hr with hsame | ⟨hclear, hdeleted⟩
    · exact h'.row r hsame
    · have hdeleted' := fun path hpath => h'.grown.subset (hdeleted path hpath)
      rcases h'.row _ hclear with hsame | ⟨hagain, -⟩
      · exact .inr ⟨hsame, hdeleted'⟩
      · rw [K.clear_clear] at hagain
        exact .inr ⟨hagain, hdeleted'⟩

lemma kept_pass (h : K.pass batch s p = some t) : s.Kept t := by
  obtain ⟨horderly, hgrown, hdeleted⟩ := orderly_foldl p.picked p.storage (s, 0)
  have hrows := pass_rows h
  obtain ⟨-, -, rfl⟩ := pass_spec h
  refine ⟨horderly, hgrown, fun r hr => ?_⟩
  have hrow := List.mem_map_of_mem (f := fun x =>
    if x ∈ p.picked ∧ K.fails p.storage x = false then K.clear x else x) hr
  rw [← hrows] at hrow
  by_cases hcleared : r ∈ p.picked ∧ K.fails p.storage r = false
  · rw [if_pos hcleared] at hrow
    exact .inr ⟨hrow, hdeleted r hcleared.1 hcleared.2⟩
  · rw [if_neg hcleared] at hrow
    exact .inl hrow

lemma kept_run (h : Run (ofPartial (K.pass batch)) s ps t) : s.Kept t := by
  induction h with
  | nil s => exact ⟨id, List.prefix_rfl, fun r hr => .inl hr⟩
  | cons hstep _ ih => exact (kept_pass hstep).trans ih

/-- Over the passes, the rows that are due are the same. -/
def Steady (s : Backlog K) (now : Timestamp) (storage : Option (Text → Bool))
    (ps : List (Pass ρ)) : Prop :=
  ∀ p ∈ ps, p.storage = storage ∧ ∀ r ∈ s.rows, K.due p.now r = K.due now r

omit [DecidableEq ρ] in
lemma Steady.due_eq (h : Steady s now storage ps) (hp : p ∈ ps) : s.due p.now = s.due now :=
  List.filter_congr (h p hp).2

lemma Steady.tail (h : Steady s now storage (p :: ps)) (hstep : K.pass batch s p = some t) :
    Steady t now storage ps := by
  intro q hq
  obtain ⟨hstorage, hdue⟩ := h q (List.mem_cons_of_mem _ hq)
  refine ⟨hstorage, fun r hr => ?_⟩
  rw [pass_rows hstep, List.mem_map] at hr
  obtain ⟨x, hx, rfl⟩ := hr
  split
  · rw [K.due_clear, K.due_clear]
  · exact hdue x hx

/-- A pass over the table is a pass over the backlog of what is due. -/
lemma passOver_of_pass (h : K.pass batch s p = some t) (hdue : s.due p.now = s.due now) :
    PassOver K.age batch (K.fails p.storage) (s.due now) p.picked (t.due now) := by
  obtain ⟨hpicked, hrows, rfl⟩ := pass_spec h
  rw [hdue] at hpicked
  exact ⟨hpicked, due_sweepRows hrows⟩

lemma run_passOver (h : Run (ofPartial (K.pass batch)) s ps t) (hsteady : Steady s now storage ps) :
    Run (PassOver K.age batch (K.fails storage)) (s.due now) (ps.map Pass.picked) (t.due now) := by
  induction h with
  | nil s => exact .nil _
  | @cons s u t p ps hstep hrun ih =>
    have hover := passOver_of_pass hstep (hsteady.due_eq List.mem_cons_self)
    rw [(hsteady p List.mem_cons_self).1] at hover
    exact .cons hover (ih (hsteady.tail hstep))

omit [DecidableEq ρ] in
lemma Backlog.due_nodup (s : Backlog K) (now : Timestamp) : (s.due now).Nodup :=
  s.distinct.of_map.filter _

/-- A row that may be left out of one pass may be left out of any number of them. -/
lemma exists_run_without (hr : r ∈ s.due now) (hgood : K.fails storage r = false)
    (hahead : batch ≤ ahead K.age (K.fails storage) (s.due now) r) (k : Nat) :
    ∃ ps t, ps.length = k ∧ (∀ p ∈ ps, p.storage = storage ∧ p.now = now) ∧
      Run (ofPartial (K.pass batch)) s ps t ∧ r ∈ t.due now := by
  induction k generalizing s with
  | zero => exact ⟨[], s, rfl, by simp, .nil s, hr⟩
  | succ k ih =>
    obtain ⟨picked, hpicked, hout⟩ :=
      exists_isOldest_without (s.due_nodup now) hr hgood hahead
    let p : Pass ρ := ⟨now, storage, picked⟩
    have hstep : K.pass batch s p = some (sweepRows K storage picked s).1 := if_pos hpicked
    have hdue : s.due p.now = s.due now := rfl
    have hleft := (passOver_of_pass hstep hdue).2
    have hr' : r ∈ (sweepRows K storage picked s).1.due now := by
      rw [hleft]
      exact mem_leftover.mpr ⟨hr, .inr hout⟩
    obtain ⟨ps, t, hlength, hps, hrun, hend⟩ := ih hr' (by rwa [hleft, ahead_leftover])
    refine ⟨p :: ps, t, by rw [List.length_cons, hlength], ?_, .cons hstep hrun, hend⟩
    intro q hq
    rcases List.mem_cons.mp hq with rfl | hq
    · exact ⟨rfl, rfl⟩
    · exact hps q hq

/-- **Nothing is stranded.**  In every run of passes, whatever the storage accepts, no row forgets
an object that was not deleted before. -/
def Safe (step : Backlog K → Pass ρ → Option (Backlog K)) (s : Backlog K) : Prop :=
  ∀ ps t, Run (ofPartial step) s ps t → Orderly s.log → Orderly t.log ∧
    ∀ r ∈ s.rows, r ∈ t.rows ∨ K.clear r ∈ t.rows ∧
      ∀ path, K.pointer r = some path → .deleted path ∈ t.log

/-- **Nothing is blocked.**  After as many passes as there are rows due, those whose objects do not
fail are purged. -/
def Purges (step : Backlog K → Pass ρ → Option (Backlog K)) (s : Backlog K) (now : Timestamp)
    (storage : Option (Text → Bool)) : Prop :=
  ∀ ps t, Steady s now storage ps → Run (ofPartial step) s ps t → (s.due now).length ≤ ps.length →
    ∀ r ∈ s.due now, K.fails storage r = false → r ∉ t.rows ∧ K.clear r ∈ t.rows

/-- In front of a row whose object does not fail there are fewer than `batch` that do. -/
def Reached (batch : Nat) (s : Backlog K) (now : Timestamp) (storage : Option (Text → Bool)) :
    Prop :=
  ∀ r ∈ s.due now, K.fails storage r = false →
    ahead K.age (K.fails storage) (s.due now) r < batch

lemma safe_pass (batch : Nat) (s : Backlog K) : Safe (K.pass batch) s := by
  intro ps t h hlog
  have hkept := kept_run h
  exact ⟨hkept.orderly hlog, hkept.row⟩

lemma purges_pass_iff : Purges (K.pass batch) s now storage ↔ Reached batch s now storage := by
  constructor
  · intro h r hr hgood
    by_contra hahead
    obtain ⟨ps, t, hlength, hps, hrun, hend⟩ :=
      exists_run_without hr hgood (not_lt.mp hahead) (s.due now).length
    have hsteady : Steady s now storage ps := by
      intro p hp
      obtain ⟨hstorage, hnow⟩ := hps p hp
      exact ⟨hstorage, fun r _ => by rw [hnow]⟩
    exact (h ps t hsteady hrun hlength.ge r hr hgood).1 (Backlog.mem_due.mp hend).1
  · intro h ps t hsteady hrun hlong r hr hgood
    have hgone : r ∉ t.due now := by
      refine not_mem_of_passes (run_passOver hrun hsteady) hgood (h r hr hgood) ?_
      rwa [List.length_map]
    obtain ⟨hrow, hdue⟩ := Backlog.mem_due.mp hr
    have hout : r ∉ t.rows := fun hin => hgone (Backlog.mem_due.mpr ⟨hin, hdue⟩)
    exact ⟨hout, (((kept_run hrun).row r hrow).resolve_left hout).1⟩

end Runs

/-! ### The two sweeps -/

section Sweeps

variable {orgs : Uuid → Option OrgRow} {settings : Uuid → Option (Option Int)} {batch : Nat}

lemma passSessions_eq : passSessions orgs batch = (callSessions orgs).pass batch := rfl

/-- A phone recording that is due names an object of the provider. -/
lemma fails_of_due {now : Timestamp} {c : VoipCall}
    (h : (voipCalls orgs settings).due now c = true) :
    (voipCalls orgs settings).fails none c = true := by
  rw [Kind.due] at h
  cases hwindow : (voipCalls orgs settings).window c with
  | none =>
    rw [hwindow] at h
    cases h
  | some w =>
    rw [hwindow] at h
    have hholds : (voipCalls orgs settings).holds c = true := (Bool.and_eq_true _ _ ▸ h).1
    have hsome : c.providerRecordingId.isSome = true := (Bool.and_eq_true _ _ ▸ hholds).1
    obtain ⟨path, hpath⟩ := Option.isSome_iff_exists.mp hsome
    have hpointer : (voipCalls orgs settings).pointer c = some path := hpath
    simp [Kind.fails, hpointer]

/-- Without a provider every deletion fails, so a pass that is not made changes what a pass that
fails throughout does. -/
lemma passRecordings_eq :
    passRecordings orgs settings batch = (voipCalls orgs settings).pass batch := by
  funext s p
  rw [passRecordings, Kind.pass]
  by_cases hpicked : IsOldest (voipCalls orgs settings).age batch (s.due p.now) p.picked
  · rw [if_pos hpicked, if_pos hpicked]
    cases p.storage with
    | some delete => rfl
    | none =>
      have hfails : ∀ c ∈ p.picked, (voipCalls orgs settings).fails none c = true := by
        intro c hc
        have hdue := (Backlog.mem_due.mp (hpicked.mem c hc)).2
        exact fails_of_due hdue
      rw [sweepRows, foldl_sweepRow_of_fails hfails]
      rfl
  · rw [if_neg hpicked, if_neg hpicked]

/-- **Retention.**  Neither sweep strands an object.  All that is due and can be deleted is purged
within as many passes as there are rows due exactly when each such row has fewer than `batch`
failing ones in front of it. -/
theorem retention_unblocked_iff (orgs : Uuid → Option OrgRow)
    (settings : Uuid → Option (Option Int)) (batch : Nat) :
    (∀ s : Backlog (callSessions orgs), Safe (passSessions orgs batch) s ∧
      ∀ now storage, Purges (passSessions orgs batch) s now storage ↔
        Reached batch s now storage) ∧
    ∀ s : Backlog (voipCalls orgs settings), Safe (passRecordings orgs settings batch) s ∧
      ∀ now telephony, Purges (passRecordings orgs settings batch) s now telephony ↔
        Reached batch s now telephony := by
  rw [passSessions_eq, passRecordings_eq]
  exact ⟨fun s => ⟨safe_pass batch s, fun _ _ => purges_pass_iff⟩,
    fun s => ⟨safe_pass batch s, fun _ _ => purges_pass_iff⟩⟩

/-- An organization that keeps things for a day. -/
def keepsOneDay (_ : Uuid) : Option OrgRow := some ⟨.enterprise, some ['1'], false⟩

/-- Two calls with a recording, the older one first. -/
def twoCalls : Backlog (callSessions keepsOneDay) where
  rows := [⟨1, some 5, some ['a'], [], 0, 0, none⟩, ⟨2, some 5, some ['b'], [], 0, 1, none⟩]
  distinct := by decide
  log := []

/-- With a batch of one, the older recording that cannot be deleted is all that is ever tried. -/
theorem older_failure_blocks :
    ¬ Purges (passSessions keepsOneDay 1) twoCalls 100000000000
      (some fun path => path = ['b']) := by
  intro h
  let pass : Pass CallSession :=
    ⟨100000000000, some fun path => path = ['b'], [⟨1, some 5, some ['a'], [], 0, 0, none⟩]⟩
  obtain ⟨t, hrun, hleft⟩ : ∃ t, Run (ofPartial (passSessions keepsOneDay 1)) twoCalls
      [pass, pass] t ∧ ⟨2, some 5, some ['b'], [], 0, 1, none⟩ ∈ t.rows :=
    Run.exists_of_decide (by decide)
  have hsteady : Steady twoCalls 100000000000 (some fun path => path = ['b']) [pass, pass] := by
    simp [Steady, pass]
  exact (h [pass, pass] t hsteady hrun (by decide) ⟨2, some 5, some ['b'], [], 0, 1, none⟩
    (by decide) (by decide)).1 hleft

end Sweeps

end VoxTranslate.Business.Retention
