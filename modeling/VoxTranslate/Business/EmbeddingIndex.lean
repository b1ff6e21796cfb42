import VoxTranslate.Business.Chunks
import VoxTranslate.Lib.Run

/-!
# The index of the semantic search (`business/transcripts.rs`)

The chunks of a transcript are embedded and stored by a transaction that deletes the rows the
transcript has in the index and inserts them anew: after the call, after a second try, and from the
backfill.  The database reads what is committed, so a transaction deletes the rows that it saw, and
two that run at the same time do not see each other's.
-/

namespace VoxTranslate.Business.Embeddings

open Lib
open Engine (Text)

/-- A row of `transcripts`, with the project of its session. -/
structure Transcript where
  id : Uuid
  sessionId : Uuid
  orgId : Uuid
  projectId : Option Uuid
  /-- The stored JSON, if it is that of segments. -/
  segments : Option (List Segment)
  createdAt : Timestamp
  deriving DecidableEq, Repr

/-- A row of `transcript_embeddings`. -/
structure Row (V : Type) where
  transcriptId : Uuid
  sessionId : Uuid
  orgId : Uuid
  projectId : Option Uuid
  chunkIndex : Nat
  speakerName : String
  startMs : Int
  endMs : Int
  content : Text
  embedding : V
  deriving DecidableEq, Repr

/-- The service that embeds texts; it answers with an error, or with some vectors. -/
abbrev Embedder (V : Type) := List Text → Except Text (List V)

section Rows

variable {V : Type}

/-- The rows of the chunks, with their places. -/
def rowsOf (t : Transcript) (chunks : List Chunk) (vectors : List V) : List (Row V) :=
  (chunks.zip vectors).mapIdx fun i (chunk, vec) =>
    { transcriptId := t.id
      sessionId := t.sessionId
      orgId := t.orgId
      projectId := t.projectId
      chunkIndex := i
      speakerName := chunk.speakerName
      startMs := chunk.startMs
      endMs := chunk.endMs
      content := chunk.content
      embedding := vec }

/-- What `embed_and_store` does before its transaction; without an embedder or chunks there is
nothing to write. -/
def embed (embedder : Option (Embedder V)) (t : Transcript) : Except Text (List (Row V)) :=
  match embedder with
  | none => .ok []
  | some embedder =>
    let chunks := chunkSegments (t.segments.getD [])
    if chunks.isEmpty then .ok []
    else
      match embedder (chunks.map Chunk.content) with
      | .error e => .error e
      | .ok vectors =>
        if vectors.length ≠ chunks.length then .error "embedding count mismatch".toList
        else .ok (rowsOf t chunks vectors)

/-- The rows that a transaction for the transcript inserts, if there is one. -/
def written (embedder : Option (Embedder V)) (t : Transcript) : List (Row V) :=
  (embed embedder t).toOption.getD []

end Rows

/-! ## The database -/

/-- A transaction that has deleted and inserted, and has not committed. -/
structure Tx (V : Type) where
  number : Nat
  transcriptId : Uuid
  /-- The transactions whose rows it saw and has deleted. -/
  deleted : List Nat
  inserted : List (Row V)

structure Db (V : Type) where
  transcripts : List Transcript
  /-- The rows of the index, each with the transaction that has inserted it. -/
  rows : List (Nat × Row V)
  running : List (Tx V)
  /-- The number of the next transaction. -/
  next : Nat
  /-- The identifiers that have been given to transcripts; none is given twice. -/
  issued : List Uuid

inductive Action where
  /-- A transcript is stored. -/
  | stored (t : Transcript)
  /-- A transcript is deleted, and its rows go with it. -/
  | removed (id : Uuid)
  /-- The chunks have been embedded, and the transaction has deleted and inserted. -/
  | began (id : Uuid)
  | committed (number : Nat) (id : Uuid)
  | rolledBack (number : Nat)
  deriving DecidableEq, Repr

namespace Db

variable {V : Type}

def empty : Db V := ⟨[], [], [], 0, []⟩

def ids (db : Db V) : List Uuid := db.transcripts.map Transcript.id

/-- The rows of one transcript. -/
def rowsFor (db : Db V) (id : Uuid) : List (Nat × Row V) :=
  db.rows.filter fun r => r.2.transcriptId = id

def store (db : Db V) (t : Transcript) : Db V :=
  { db with transcripts := db.transcripts ++ [t], issued := t.id :: db.issued }

/-- `ON DELETE CASCADE`. -/
def remove (db : Db V) (id : Uuid) : Db V :=
  { db with
    transcripts := db.transcripts.filter fun t => t.id ≠ id
    rows := db.rows.filter fun r => r.2.transcriptId ≠ id }

/-- `DELETE ... WHERE transcript_id = $1` and the inserts, nothing of which is seen yet. -/
def begin (db : Db V) (id : Uuid) (rows : List (Row V)) : Db V :=
  { db with
    running := db.running ++ [⟨db.next, id, (db.rowsFor id).map Prod.fst, rows⟩]
    next := db.next + 1 }

def endTx (db : Db V) (number : Nat) : Db V :=
  { db with running := db.running.filter fun x => x.number ≠ number }

/-- The rows after a commit; the rows of a transcript that is gone are refused. -/
def commit (db : Db V) (x : Tx V) : Db V :=
  if x.transcriptId ∈ db.ids then
    { db.endTx x.number with
      rows := (db.rows.filter fun r => ¬ (r.2.transcriptId = x.transcriptId ∧ r.1 ∈ x.deleted)) ++
        x.inserted.map fun row => (x.number, row) }
  else db.endTx x.number

end Db

section Step

variable {V : Type} (embedder : Option (Embedder V))

def step (db : Db V) : Action → Option (Db V)
  | .stored t => if t.id ∈ db.issued then none else some (db.store t)
  | .removed id => some (db.remove id)
  | .began id =>
    match db.transcripts.find? fun t => t.id = id with
    | none => none
    | some t =>
      let rows := written embedder t
      if rows.isEmpty then none else some (db.begin id rows)
  | .committed number id =>
    match db.running.find? fun x => x.number = number with
    | none => none
    | some x => if x.transcriptId = id then some (db.commit x) else none
  | .rolledBack number => some (db.endTx number)

variable {embedder} {db db' : Db V} {a : Action}

lemma step_cases (h : step embedder db a = some db') :
    (∃ t, a = .stored t ∧ t.id ∉ db.issued ∧ db' = db.store t) ∨
      (∃ id, a = .removed id ∧ db' = db.remove id) ∨
      (∃ t ∈ db.transcripts, a = .began t.id ∧ written embedder t ≠ [] ∧
        db' = db.begin t.id (written embedder t)) ∨
      (∃ x ∈ db.running, a = .committed x.number x.transcriptId ∧ db' = db.commit x) ∨
      ∃ number, a = .rolledBack number ∧ db' = db.endTx number := by
  cases a with
  | stored t =>
    simp only [step] at h
    split at h
    · cases h
    · next hfresh => exact .inl ⟨t, rfl, hfresh, (Option.some.inj h).symm⟩
  | removed id => exact .inr (.inl ⟨id, rfl, (Option.some.inj h).symm⟩)
  | began id =>
    simp only [step] at h
    split at h
    · cases h
    · next t hfind =>
      have hid : t.id = id := by simpa using List.find?_some hfind
      subst hid
      split at h
      · cases h
      · next hrows =>
        refine .inr (.inr (.inl ⟨t, List.mem_of_find?_eq_some hfind, rfl, ?_, ?_⟩))
        · simpa using hrows
        · exact (Option.some.inj h).symm
  | committed number id =>
    simp only [step] at h
    split at h
    · cases h
    · next x hfind =>
      have hnumber : x.number = number := by simpa using List.find?_some hfind
      split at h
      · next hid =>
        subst hnumber hid
        have hmem := List.mem_of_find?_eq_some hfind
        exact .inr (.inr (.inr (.inl ⟨x, hmem, rfl, (Option.some.inj h).symm⟩)))
      · cases h
  | rolledBack number => exact .inr (.inr (.inr (.inr ⟨number, rfl, (Option.some.inj h).symm⟩)))

end Step

/-! ## The rows of one transcript -/

section Rows

variable {V : Type} {embedder : Option (Embedder V)} {db : Db V} {x : Tx V} {id : Uuid}

lemma written_cases (embedder : Option (Embedder V)) (t : Transcript) :
    written embedder t = [] ∨ ∃ chunks vectors, written embedder t = rowsOf t chunks vectors := by
  unfold written embed
  split
  · exact .inl rfl
  · next embedder =>
    dsimp only
    split
    · exact .inl rfl
    · split
      · exact .inl rfl
      · next vectors _ =>
        split
        · exact .inl rfl
        · exact .inr ⟨_, vectors, rfl⟩

lemma transcriptId_of_mem_written {t : Transcript} {row : Row V} (h : row ∈ written embedder t) :
    row.transcriptId = t.id := by
  rcases written_cases embedder t with hnone | ⟨chunks, vectors, hrows⟩
  · rw [hnone] at h
    cases h
  · rw [hrows] at h
    obtain ⟨i, hi, rfl⟩ := List.mem_mapIdx.mp h
    rfl

namespace Db

lemma rowsFor_remove {id' : Uuid} (h : id ≠ id') : (db.remove id').rowsFor id = db.rowsFor id := by
  simp only [rowsFor, remove, List.filter_filter]
  refine List.filter_congr fun r _ => ?_
  by_cases hid : r.2.transcriptId = id
  · simp [hid, h]
  · simp [hid]

@[simp] lemma transcripts_commit : (db.commit x).transcripts = db.transcripts := by
  unfold commit
  split <;> rfl

@[simp] lemma issued_commit : (db.commit x).issued = db.issued := by
  unfold commit
  split <;> rfl

/-- A commit replaces the rows that the transaction saw. -/
lemma rowsFor_commit (hhere : x.transcriptId ∈ db.ids)
    (hown : ∀ row ∈ x.inserted, row.transcriptId = x.transcriptId) :
    (db.commit x).rowsFor x.transcriptId =
      ((db.rowsFor x.transcriptId).filter fun r => r.1 ∉ x.deleted) ++
        x.inserted.map fun row => (x.number, row) := by
  rw [commit, if_pos hhere, rowsFor, List.filter_append, rowsFor, List.filter_filter,
    List.filter_filter]
  congr 1
  · refine List.filter_congr fun r _ => ?_
    by_cases hid : r.2.transcriptId = x.transcriptId
    · simp [hid]
    · simp [hid]
  · rw [List.filter_eq_self]
    intro r hr
    obtain ⟨row, hrow, rfl⟩ := List.mem_map.mp hr
    simpa using hown row hrow

/-- A commit leaves the rows of the other transcripts alone. -/
lemma rowsFor_commit_of_ne (hne : id ≠ x.transcriptId)
    (hown : ∀ row ∈ x.inserted, row.transcriptId = x.transcriptId) :
    (db.commit x).rowsFor id = db.rowsFor id := by
  unfold commit
  split
  · rw [rowsFor, List.filter_append, List.filter_filter, rowsFor]
    have hnone : (x.inserted.map fun row => (x.number, row)).filter
        (fun r => r.2.transcriptId = id) = [] := by
      rw [List.filter_eq_nil_iff]
      intro r hr
      obtain ⟨row, hrow, rfl⟩ := List.mem_map.mp hr
      simpa [hown row hrow] using hne.symm
    rw [hnone, List.append_nil]
    refine List.filter_congr fun r _ => ?_
    by_cases hid : r.2.transcriptId = id
    · simp [hid, hne]
    · simp [hid]
  · rfl

end Db

end Rows

/-! ## Whole copies -/

section Copies

variable {V : Type}

/-- One copy of the rows for each of the transactions. -/
def copied (ks : List Nat) (rows : List (Row V)) : List (Nat × Row V) :=
  ks.flatMap fun k => rows.map fun row => (k, row)

lemma filter_copied (ks deleted : List Nat) (rows : List (Row V)) :
    ((copied ks rows).filter fun r => r.1 ∉ deleted) =
      copied (ks.filter fun k => k ∉ deleted) rows := by
  induction ks with
  | nil => rfl
  | cons k ks ih =>
    rw [copied, List.flatMap_cons, List.filter_append, ← copied, ih]
    by_cases hk : k ∈ deleted
    · have hnone : (rows.map fun row => (k, row)).filter (fun r => r.1 ∉ deleted) = [] := by
        simp [hk]
      rw [hnone, List.filter_cons_of_neg (by simpa using hk), List.nil_append]
    · have hall : (rows.map fun row => (k, row)).filter (fun r => r.1 ∉ deleted) =
          rows.map fun row => (k, row) := by
        simp [hk]
      rw [hall, List.filter_cons_of_pos (by simpa using hk)]
      rfl

lemma map_snd_copied (ks : List Nat) (rows : List (Row V)) :
    (copied ks rows).map Prod.snd = (List.replicate ks.length rows).flatten := by
  induction ks with
  | nil => rfl
  | cons k ks ih =>
    rw [copied, List.flatMap_cons, List.map_append, ← copied, ih, List.map_map, List.length_cons,
      List.replicate_succ, List.flatten_cons]
    congr 1
    exact List.map_id rows

variable (embedder : Option (Embedder V))

/-- What a transaction that is running will insert. -/
structure Tx.Sound (x : Tx V) (db : Db V) : Prop where
  issued : x.transcriptId ∈ db.issued
  nonempty : x.inserted ≠ []
  own : ∀ row ∈ x.inserted, row.transcriptId = x.transcriptId
  written : ∀ t ∈ db.transcripts, t.id = x.transcriptId → x.inserted = written embedder t

/-- Every transcript has whole copies of its rows in the index, if any. -/
structure Db.Whole (db : Db V) : Prop where
  nodup : db.ids.Nodup
  issued : ∀ id ∈ db.ids, id ∈ db.issued
  home : ∀ r ∈ db.rows, r.2.transcriptId ∈ db.ids
  running : ∀ x ∈ db.running, x.Sound embedder db
  copies : ∀ t ∈ db.transcripts, ∃ ks, db.rowsFor t.id = copied ks (written embedder t)

variable {embedder} {db db' : Db V} {a : Action} {x : Tx V}

lemma Db.whole_empty : (Db.empty : Db V).Whole embedder := by
  constructor <;> simp [Db.empty, Db.ids]

lemma Db.rowsFor_eq_nil (h : db.Whole embedder) {id : Uuid} (hid : id ∉ db.ids) :
    db.rowsFor id = [] := by
  rw [Db.rowsFor, List.filter_eq_nil_iff]
  intro r hr hrow
  exact hid (of_decide_eq_true hrow ▸ h.home r hr)

lemma Db.Whole.store {t : Transcript} (h : db.Whole embedder) (hfresh : t.id ∉ db.issued) :
    (db.store t).Whole embedder := by
  have hnew : t.id ∉ db.ids := fun hid => hfresh (h.issued _ hid)
  refine ⟨?_, ?_, ?_, ?_, ?_⟩
  · rw [ids, Db.store, List.map_append, List.map_singleton]
    exact List.nodup_append.mpr ⟨h.nodup, List.nodup_singleton _, by
      rintro id hid _ hone rfl
      exact hnew (List.mem_singleton.mp hone ▸ hid)⟩
  · intro id hid
    rw [ids, Db.store, List.map_append, List.mem_append] at hid
    rcases hid with hid | hid
    · exact List.mem_cons_of_mem _ (h.issued id hid)
    · exact List.mem_singleton.mp hid ▸ List.mem_cons_self
  · intro r hr
    rw [ids, Db.store, List.map_append]
    exact List.mem_append_left _ (h.home r hr)
  · intro x hx
    have hold := h.running x hx
    refine ⟨List.mem_cons_of_mem _ hold.issued, hold.nonempty, hold.own, ?_⟩
    intro t' ht' hid
    rcases List.mem_append.mp ht' with ht' | ht'
    · exact hold.written t' ht' hid
    · obtain rfl := List.mem_singleton.mp ht'
      exact absurd (hid ▸ hold.issued) hfresh
  · intro t' ht'
    rcases List.mem_append.mp ht' with ht' | ht'
    · exact h.copies t' ht'
    · obtain rfl := List.mem_singleton.mp ht'
      exact ⟨[], rowsFor_eq_nil h hnew⟩

lemma Db.ids_remove (id : Uuid) : (db.remove id).ids = db.ids.filter fun id' => id' ≠ id := by
  rw [ids, Db.remove, ids, List.filter_map]
  rfl

lemma Db.Whole.remove (h : db.Whole embedder) (id : Uuid) : (db.remove id).Whole embedder := by
  refine ⟨?_, ?_, ?_, ?_, ?_⟩
  · rw [ids_remove]
    exact h.nodup.filter _
  · intro id' hid'
    rw [ids_remove] at hid'
    exact h.issued id' (List.mem_filter.mp hid').1
  · intro r hr
    obtain ⟨hr, hne⟩ := List.mem_filter.mp hr
    rw [ids_remove]
    exact List.mem_filter.mpr ⟨h.home r hr, hne⟩
  · intro x hx
    have hold := h.running x hx
    exact ⟨hold.issued, hold.nonempty, hold.own, fun t ht =>
      hold.written t (List.mem_filter.mp ht).1⟩
  · intro t ht
    obtain ⟨ht, hne⟩ := List.mem_filter.mp ht
    rw [rowsFor_remove (of_decide_eq_true hne)]
    exact h.copies t ht

lemma Db.Whole.begin {t : Transcript} (h : db.Whole embedder) (ht : t ∈ db.transcripts)
    (hrows : written embedder t ≠ []) : (db.begin t.id (written embedder t)).Whole embedder := by
  refine ⟨h.nodup, h.issued, h.home, ?_, h.copies⟩
  intro x hx
  rcases List.mem_append.mp hx with hx | hx
  · exact ⟨(h.running x hx).issued, (h.running x hx).nonempty, (h.running x hx).own,
      (h.running x hx).written⟩
  · obtain rfl := List.mem_singleton.mp hx
    refine ⟨h.issued _ (List.mem_map_of_mem ht), hrows, ?_, ?_⟩
    · exact fun row hrow => transcriptId_of_mem_written hrow
    · intro t' ht' hid
      rw [List.inj_on_of_nodup_map h.nodup ht' ht hid]

lemma Db.Whole.endTx (h : db.Whole embedder) (number : Nat) : (db.endTx number).Whole embedder := by
  refine ⟨h.nodup, h.issued, h.home, ?_, h.copies⟩
  intro x hx
  have hold := h.running x (List.mem_filter.mp hx).1
  exact ⟨hold.issued, hold.nonempty, hold.own, hold.written⟩

lemma Db.Whole.commit (h : db.Whole embedder) (hx : x ∈ db.running) :
    (db.commit x).Whole embedder := by
  have hsound := h.running x hx
  have hend := h.endTx x.number
  by_cases hhere : x.transcriptId ∈ db.ids
  · have hdb : (db.commit x).ids = db.ids := by rw [Db.commit, if_pos hhere]; rfl
    refine ⟨hdb ▸ h.nodup, ?_, ?_, ?_, ?_⟩
    · rw [hdb, Db.commit, if_pos hhere]
      exact h.issued
    · rw [hdb, Db.commit, if_pos hhere]
      intro r hr
      rcases List.mem_append.mp hr with hr | hr
      · exact h.home r (List.mem_filter.mp hr).1
      · obtain ⟨row, hrow, rfl⟩ := List.mem_map.mp hr
        exact hsound.own row hrow ▸ hhere
    · rw [Db.commit, if_pos hhere]
      intro y hy
      have hold := hend.running y hy
      exact ⟨hold.issued, hold.nonempty, hold.own, hold.written⟩
    · rw [transcripts_commit]
      intro t ht
      -- the copies the transaction did not delete stay, and its own one is added
      obtain ⟨ks, hks⟩ := h.copies t ht
      by_cases hid : t.id = x.transcriptId
      · refine ⟨ks.filter (fun k => k ∉ x.deleted) ++ [x.number], ?_⟩
        rw [hid, rowsFor_commit hhere hsound.own, ← hid, hks, filter_copied,
          hsound.written t ht hid]
        simp [copied]
      · exact ⟨ks, by rw [rowsFor_commit_of_ne hid hsound.own, hks]⟩
  · -- the transcript is gone: the transaction is rolled back
    rw [Db.commit, if_neg hhere]
    exact hend

lemma Db.Whole.step (h : db.Whole embedder) (hstep : step embedder db a = some db') :
    db'.Whole embedder := by
  rcases step_cases hstep with ⟨t, -, hfresh, rfl⟩ | ⟨id, -, rfl⟩ | ⟨t, ht, -, hrows, rfl⟩ |
    ⟨x, hx, -, rfl⟩ | ⟨number, -, rfl⟩
  · exact h.store hfresh
  · exact h.remove id
  · exact h.begin ht hrows
  · exact h.commit hx
  · exact h.endTx number

lemma Db.Whole.run {as : List Action} (h : db.Whole embedder)
    (hrun : Run (ofPartial (Embeddings.step embedder)) db as db') : db'.Whole embedder :=
  hrun.invariant (Db.Whole embedder) (fun _ _ _ _ hdb hstep => hdb.step hstep) h

/-- **The index never holds a part of a transcript.**  However the transactions overlap, the rows of
a transcript are so many copies of the rows of its chunks, in their order, and no row is left of a
transcript that is gone. -/
theorem index_whole {as : List Action} (h : Run (ofPartial (step embedder)) .empty as db) :
    (∀ t ∈ db.transcripts, ∃ n, (db.rowsFor t.id).map Prod.snd =
        (List.replicate n (written embedder t)).flatten) ∧
      ∀ r ∈ db.rows, ∃ t ∈ db.transcripts, r.2.transcriptId = t.id := by
  have hwhole := Db.whole_empty.run h
  constructor
  · intro t ht
    obtain ⟨ks, hks⟩ := hwhole.copies t ht
    exact ⟨ks.length, by rw [hks, map_snd_copied]⟩
  · intro r hr
    obtain ⟨t, ht, hid⟩ := List.mem_map.mp (hwhole.home r hr)
    exact ⟨t, ht, hid.symm⟩

end Copies

section Example

/-- An embedder that knows of a text how long it is. -/
def byLength : Option (Embedder Nat) := some fun texts => .ok (texts.map List.length)

def sampleTranscript : Transcript :=
  ⟨7, 5, 3, none, some [⟨"0", "Ada", "hello".toList, 0, 900⟩], 100⟩

/-- The call and the backfill embed a transcript at the same time. -/
def overlapping : List Action :=
  [.stored sampleTranscript, .began 7, .began 7, .committed 0 7, .committed 1 7]

theorem index_whole_overlapping :
    ∃ db, overlapping.foldlM (step byLength) .empty = some db ∧
      ∃ t ∈ db.transcripts, ∃ n, (db.rowsFor t.id).map Prod.snd =
        (List.replicate n (written byLength t)).flatten := by
  have hsome : (overlapping.foldlM (step byLength) .empty).isSome = true := by decide +kernel
  obtain ⟨db, hdb⟩ := Option.isSome_iff_exists.mp hsome
  have hmem : sampleTranscript ∈ db.transcripts := by
    have hall : (overlapping.foldlM (step byLength) .empty).all
        (fun db => sampleTranscript ∈ db.transcripts) = true := by decide +kernel
    rw [hdb] at hall
    exact of_decide_eq_true hall
  exact ⟨db, hdb, sampleTranscript, hmem,
    (index_whole (Run.ofPartial_iff.mpr hdb)).1 sampleTranscript hmem⟩

-- each has deleted what it saw, which was nothing
example : (overlapping.foldlM (step byLength) .empty).map (fun db => (db.rowsFor 7).length) =
    some 2 := by decide +kernel

end Example

/-! ## One copy -/

section Healed

variable {V : Type} {embedder : Option (Embedder V)} {db db' : Db V} {a : Action} {id : Uuid}

/-- No transaction for the transcript is begun while another is running. -/
def NoOverlap (id : Uuid) (db : Db V) (a : Action) : Prop :=
  a = .began id → ∀ x ∈ db.running, x.transcriptId ≠ id

/-- One transaction for the transcript is running at most, and has seen all of its rows. -/
structure Db.Serial (db : Db V) (id : Uuid) : Prop where
  one : ∀ x ∈ db.running, ∀ y ∈ db.running, x.transcriptId = id → y.transcriptId = id →
    x.number = y.number
  seen : ∀ x ∈ db.running, x.transcriptId = id → ∀ r ∈ db.rowsFor id, r.1 ∈ x.deleted

/-- The transcript has its rows in the index, once. -/
def Db.Once (embedder : Option (Embedder V)) (db : Db V) (id : Uuid) : Prop :=
  id ∈ db.issued ∧ ∀ t ∈ db.transcripts, t.id = id →
    written embedder t ≠ [] ∧ (db.rowsFor id).map Prod.snd = written embedder t

lemma Db.Serial.step (hwhole : db.Whole embedder) (h : db.Serial id) (hguard : NoOverlap id db a)
    (hstep : step embedder db a = some db') : db'.Serial id := by
  rcases step_cases hstep with ⟨t, -, -, rfl⟩ | ⟨id', -, rfl⟩ | ⟨t, -, rfl, -, rfl⟩ |
    ⟨x, hx, -, rfl⟩ | ⟨number, -, rfl⟩
  · exact ⟨h.one, h.seen⟩
  · refine ⟨h.one, fun y hy hid r hr => h.seen y hy hid r ?_⟩
    obtain ⟨hr, hrow⟩ := List.mem_filter.mp hr
    exact List.mem_filter.mpr ⟨(List.mem_filter.mp hr).1, hrow⟩
  · by_cases hid : t.id = id
    · subst hid
      -- nobody else is at work on the transcript
      have hidle := hguard rfl
      refine ⟨?_, ?_⟩
      · intro y hy z hz hyid hzid
        rcases List.mem_append.mp hy with hy | hy
        · exact absurd hyid (hidle y hy)
        rcases List.mem_append.mp hz with hz | hz
        · exact absurd hzid (hidle z hz)
        rw [List.mem_singleton.mp hy, List.mem_singleton.mp hz]
      · intro y hy hyid r hr
        rcases List.mem_append.mp hy with hy | hy
        · exact absurd hyid (hidle y hy)
        · obtain rfl := List.mem_singleton.mp hy
          exact List.mem_map_of_mem hr
    · have hold : ∀ y ∈ (db.begin t.id (written embedder t)).running, y.transcriptId = id →
          y ∈ db.running := by
        intro y hy hyid
        rcases List.mem_append.mp hy with hy | hy
        · exact hy
        · obtain rfl := List.mem_singleton.mp hy
          exact absurd hyid hid
      exact ⟨fun y hy z hz hyid hzid => h.one y (hold y hy hyid) z (hold z hz hzid) hyid hzid,
        fun y hy hyid => h.seen y (hold y hy hyid) hyid⟩
  · have hrunning : ∀ y ∈ (db.commit x).running, y ∈ db.running ∧ y.number ≠ x.number := by
      intro y hy
      have hy' : y ∈ (db.endTx x.number).running := by
        unfold Db.commit at hy
        split at hy <;> exact hy
      obtain ⟨hmem, hne⟩ := List.mem_filter.mp hy'
      exact ⟨hmem, of_decide_eq_true hne⟩
    refine ⟨fun y hy z hz => h.one y (hrunning y hy).1 z (hrunning z hz).1, ?_⟩
    intro y hy hyid
    by_cases hid : id = x.transcriptId
    · -- the one that was running has ended
      exact absurd (h.one y (hrunning y hy).1 x hx hyid hid.symm) (hrunning y hy).2
    · rw [Db.rowsFor_commit_of_ne hid (hwhole.running x hx).own]
      exact h.seen y (hrunning y hy).1 hyid
  · exact ⟨fun y hy z hz => h.one y (List.mem_filter.mp hy).1 z (List.mem_filter.mp hz).1,
      fun y hy => h.seen y (List.mem_filter.mp hy).1⟩

lemma Db.Serial.once_commit {x : Tx V} (hwhole : db.Whole embedder) (h : db.Serial id)
    (hx : x ∈ db.running) (hid : x.transcriptId = id) : (db.commit x).Once embedder id := by
  subst hid
  have hsound := hwhole.running x hx
  refine ⟨by rw [issued_commit]; exact hsound.issued, ?_⟩
  rw [transcripts_commit]
  intro t ht hid
  have hhere : x.transcriptId ∈ db.ids := hid ▸ List.mem_map_of_mem ht
  have hnone : ((db.rowsFor x.transcriptId).filter fun r => r.1 ∉ x.deleted) = [] := by
    rw [List.filter_eq_nil_iff]
    intro r hr
    simpa using h.seen x hx rfl r hr
  have hsnd : (x.inserted.map fun row => (x.number, row)).map Prod.snd = x.inserted := by
    rw [List.map_map]
    exact List.map_id x.inserted
  rw [rowsFor_commit hhere hsound.own, hnone, List.nil_append, hsnd]
  exact ⟨hsound.written t ht hid ▸ hsound.nonempty, hsound.written t ht hid⟩

lemma Db.Once.step (hwhole : db.Whole embedder) (hserial : db.Serial id) (h : db.Once embedder id)
    (hstep : step embedder db a = some db') : db'.Once embedder id := by
  obtain ⟨hissued, hrows⟩ := h
  rcases step_cases hstep with ⟨t, -, hfresh, rfl⟩ | ⟨id', -, rfl⟩ | ⟨t, -, -, -, rfl⟩ |
    ⟨x, hx, -, rfl⟩ | ⟨number, -, rfl⟩
  · refine ⟨List.mem_cons_of_mem _ hissued, fun t' ht' hid => ?_⟩
    rcases List.mem_append.mp ht' with ht' | ht'
    · exact hrows t' ht' hid
    · obtain rfl := List.mem_singleton.mp ht'
      exact absurd (hid ▸ hissued) hfresh
  · refine ⟨hissued, fun t ht hid => ?_⟩
    obtain ⟨ht, hne⟩ := List.mem_filter.mp ht
    rw [rowsFor_remove (hid ▸ of_decide_eq_true hne)]
    exact hrows t ht hid
  · exact ⟨hissued, hrows⟩
  · by_cases hid : x.transcriptId = id
    · exact hserial.once_commit hwhole hx hid
    · refine ⟨by rw [issued_commit]; exact hissued, ?_⟩
      rw [transcripts_commit, rowsFor_commit_of_ne (Ne.symm hid) (hwhole.running x hx).own]
      exact hrows
  · exact ⟨hissued, hrows⟩

/-- **A copy too many is made good.**  Whatever the index has come to hold, once a transaction for
a transcript has committed while no two of its transactions overlap, the transcript has its rows
once, and keeps them. -/
theorem index_once {before as : List Action}
    (hbefore : Run (ofPartial (step embedder)) .empty before db)
    (hidle : ∀ x ∈ db.running, x.transcriptId ≠ id)
    (h : Run (Guarded (ofPartial (step embedder)) (NoOverlap id)) db as db')
    (hcommit : ∃ number, .committed number id ∈ as) :
    ∀ t ∈ db'.transcripts, t.id = id →
      written embedder t ≠ [] ∧ (db'.rowsFor id).map Prod.snd = written embedder t := by
  have hserial : db.Serial id :=
    ⟨fun x hx _ _ hid => absurd hid (hidle x hx), fun x hx hid => absurd hid (hidle x hx)⟩
  obtain ⟨-, -, honce⟩ : db'.Whole embedder ∧ db'.Serial id ∧
      ((∃ number, .committed number id ∈ as) → db'.Once embedder id) := by
    refine h.history (P := fun as db => db.Whole embedder ∧ db.Serial id ∧
      ((∃ number, .committed number id ∈ as) → db.Once embedder id)) ?_ ?_
    · rintro as db a - db' ⟨hwhole, hserial, honce⟩ ⟨hguard, hstep⟩
      refine ⟨hwhole.step hstep, hserial.step hwhole hguard hstep, ?_⟩
      rintro ⟨number, hmem⟩
      rcases List.mem_append.mp hmem with hmem | hmem
      · exact (honce ⟨number, hmem⟩).step hwhole hserial hstep
      · obtain rfl := List.mem_singleton.mp hmem
        obtain ⟨t, ha, -⟩ | ⟨id', ha, -⟩ | ⟨t, -, ha, -⟩ | ⟨x, hx, ha, rfl⟩ | ⟨number, ha, -⟩ :=
          step_cases hstep
        · cases ha
        · cases ha
        · cases ha
        · obtain ⟨rfl, rfl⟩ := Action.committed.inj ha
          exact hserial.once_commit hwhole hx rfl
        · cases ha
    · exact ⟨Db.whole_empty.run hbefore, hserial, fun ⟨_, hmem⟩ => by cases hmem⟩
  exact (honce hcommit).2

/-- The transcript is embedded once more. -/
def again : List Action := [.began 7, .committed 2 7]

theorem index_once_overlapping :
    ∃ db, (overlapping ++ again).foldlM (step byLength) .empty = some db ∧
      ∃ t ∈ db.transcripts, t.id = 7 ∧
        written byLength t ≠ [] ∧ (db.rowsFor 7).map Prod.snd = written byLength t := by
  have hsome : ((overlapping ++ again).foldlM (step byLength) .empty).any
      (fun db => sampleTranscript ∈ db.transcripts) = true := by decide +kernel
  obtain ⟨db', hrun, hmem⟩ := Run.exists_of_decide hsome
  obtain ⟨db, hdb, hrest⟩ := Run.append_iff.mp hrun
  obtain ⟨mid, hbegan, hlast⟩ := Run.cons_iff.mp hrest
  have hidle : db.running = [] := by
    have hall : (overlapping.foldlM (step byLength) .empty).all
        (fun db => db.running.isEmpty) = true := by decide +kernel
    rw [Run.ofPartial_iff.mp hdb] at hall
    exact List.isEmpty_iff.mp hall
  obtain ⟨last, hcommitted, hnil⟩ := Run.cons_iff.mp hlast
  rw [Run.nil_iff.mp hnil] at hcommitted
  have hguarded : Run (Guarded (ofPartial (step byLength)) (NoOverlap 7)) db again db' :=
    .cons ⟨fun _ => by simp [hidle], hbegan⟩ (.cons ⟨fun h => (by cases h), hcommitted⟩ (.nil _))
  refine ⟨db', Run.ofPartial_iff.mp hrun, sampleTranscript, hmem, rfl, ?_⟩
  exact index_once hdb (by simp [hidle]) hguarded ⟨2, by simp [again]⟩ sampleTranscript hmem rfl

end Healed

end VoxTranslate.Business.Embeddings
