import VoxTranslate.Business.EmbeddingIndex
import VoxTranslate.Lib.OldestFirst

/-!
# The backfill of the index (`business/search.rs`)

A call of the backfill is given the transcripts that have no row in the index, the oldest first and
as many as its limit, and embeds them one after another, while transcripts come and go and others
embed as well.  It is to be called again until nothing remains.  A transcript of which nothing can
be written stays without a row, and is given to every call.
-/

namespace VoxTranslate.Business.Embeddings

open Lib

section Calls

variable {V : Type} (embedder : Option (Embedder V))

/-- The transcripts without a row; `remaining` is how many there are. -/
def Db.backlog (db : Db V) : List Transcript :=
  db.transcripts.filter fun t => (db.rowsFor t.id).isEmpty

/-- The limit of a call. -/
def batchLimit (limit : Option Int) : Nat := (max 1 (min (limit.getD 50) 500)).toNat

/-- Nothing is written of the transcript: it has no chunks, or the embedder refuses them. -/
def unembeddable (t : Transcript) : Bool := (written embedder t).isEmpty

/-- A call of the backfill, with what happens to the database before it and while it lasts. -/
structure Call where
  before : List Action
  limit : Option Int
  during : List Action

/-- A call has embedded its transcripts, but for those that cannot be and those that are gone. -/
def Called (db : Db V) (c : Call) (db' : Db V) : Prop :=
  ∃ start, Run (ofPartial (step embedder)) db c.before start ∧
    Run (ofPartial (step embedder)) start c.during db' ∧
    ∃ batch, IsOldest Transcript.createdAt (batchLimit c.limit) start.backlog batch ∧
      ∀ t ∈ batch, unembeddable embedder t = false →
        (∃ number, .committed number t.id ∈ c.during) ∨ .removed t.id ∈ c.during

end Calls

variable {V : Type} {embedder : Option (Embedder V)} {db db' : Db V} {a : Action} {id : Uuid}
  {d t : Transcript}

/-- Nothing is written of a transcript in which nothing is said. -/
lemma unembeddable_of_silent
    (h : ∀ seg ∈ t.segments.getD [], segmentTalk.said seg = false) : unembeddable embedder t := by
  have hchunks : chunkSegments (t.segments.getD []) = [] := (chunksOf_eq_nil_iff _).mpr h
  cases embedder with
  | none => rfl
  | some embedder => simp [unembeddable, written, embed, hchunks, Except.toOption]

/-! ## What stays in the index, and what stays out -/

/-- A transcript that has rows has rows as long as it is there. -/
lemma rowsFor_ne_nil_step (hwhole : db.Whole embedder) (hstep : step embedder db a = some db')
    (ht : t ∈ db'.transcripts) (h : db.rowsFor t.id ≠ []) : db'.rowsFor t.id ≠ [] := by
  rcases step_cases hstep with ⟨t', -, -, rfl⟩ | ⟨id', -, rfl⟩ | ⟨t', -, -, -, rfl⟩ |
    ⟨x, hx, -, rfl⟩ | ⟨number, -, rfl⟩
  · exact h
  · obtain ⟨-, hne⟩ := List.mem_filter.mp ht
    rwa [Db.rowsFor_remove (of_decide_eq_true hne)]
  · exact h
  · have hsound := hwhole.running x hx
    by_cases hid : t.id = x.transcriptId
    · rw [Db.transcripts_commit] at ht
      have hhere : x.transcriptId ∈ db.ids := hid ▸ List.mem_map_of_mem ht
      rw [hid, Db.rowsFor_commit hhere hsound.own]
      simp [hsound.nonempty]
    · rwa [Db.rowsFor_commit_of_ne hid hsound.own]
  · exact h

/-- The transcript is gone, or has rows. -/
def Db.Settled (db : Db V) (id : Uuid) : Prop :=
  id ∈ db.issued ∧ ∀ t ∈ db.transcripts, t.id = id → db.rowsFor id ≠ []

lemma issued_step (hstep : step embedder db a = some db') (h : id ∈ db.issued) :
    id ∈ db'.issued := by
  rcases step_cases hstep with ⟨t', -, -, rfl⟩ | ⟨id', -, rfl⟩ | ⟨t', -, -, -, rfl⟩ |
    ⟨x, hx, -, rfl⟩ | ⟨number, -, rfl⟩
  · exact List.mem_cons_of_mem _ h
  · exact h
  · exact h
  · rwa [Db.issued_commit]
  · exact h

lemma mem_transcripts_step (hstep : step embedder db a = some db') (ht : t ∈ db'.transcripts) :
    t ∈ db.transcripts ∨ a = .stored t ∧ t.id ∉ db.issued := by
  rcases step_cases hstep with ⟨t', rfl, hfresh, rfl⟩ | ⟨id', -, rfl⟩ | ⟨t', -, -, -, rfl⟩ |
    ⟨x, hx, -, rfl⟩ | ⟨number, -, rfl⟩
  · rcases List.mem_append.mp ht with ht | ht
    · exact .inl ht
    · obtain rfl := List.mem_singleton.mp ht
      exact .inr ⟨rfl, hfresh⟩
  · exact .inl (List.mem_filter.mp ht).1
  · exact .inl ht
  · exact .inl (Db.transcripts_commit ▸ ht)
  · exact .inl ht

lemma Db.Settled.step (hwhole : db.Whole embedder) (h : db.Settled id)
    (hstep : step embedder db a = some db') : db'.Settled id := by
  refine ⟨issued_step hstep h.1, ?_⟩
  rintro t ht rfl
  rcases mem_transcripts_step hstep ht with hold | ⟨-, hfresh⟩
  · exact rowsFor_ne_nil_step hwhole hstep ht (h.2 t hold rfl)
  · exact absurd h.1 hfresh

/-- A commit settles its transcript, and so does its removal. -/
lemma settled_of_step (hwhole : db.Whole embedder) (hissued : id ∈ db.issued)
    (ha : (∃ number, a = .committed number id) ∨ a = .removed id)
    (hstep : step embedder db a = some db') : db'.Settled id := by
  refine ⟨issued_step hstep hissued, ?_⟩
  rintro t ht rfl
  rcases step_cases hstep with ⟨t', rfl, -, -⟩ | ⟨id', rfl, rfl⟩ | ⟨t', -, rfl, -⟩ |
    ⟨x, hx, rfl, rfl⟩ | ⟨number, rfl, -⟩
  · simp at ha
  · obtain rfl : id' = t.id := by simpa using ha
    simpa using (List.mem_filter.mp ht).2
  · simp at ha
  · have hid : x.transcriptId = t.id := by simpa using ha
    have hsound := hwhole.running x hx
    rw [Db.transcripts_commit] at ht
    have hhere : x.transcriptId ∈ db.ids := hid ▸ List.mem_map_of_mem ht
    rw [← hid, Db.rowsFor_commit hhere hsound.own]
    simp [hsound.nonempty]
  · simp at ha

lemma settled_of_mem {as : List Action} (hwhole : db.Whole embedder) (hissued : id ∈ db.issued)
    (hrun : Run (ofPartial (step embedder)) db as db')
    (hmem : (∃ number, .committed number id ∈ as) ∨ .removed id ∈ as) : db'.Settled id := by
  have hall : db'.Whole embedder ∧ id ∈ db'.issued ∧
      (((∃ number, .committed number id ∈ as) ∨ .removed id ∈ as) → db'.Settled id) := by
    refine hrun.history (P := fun as db => db.Whole embedder ∧ id ∈ db.issued ∧
      (((∃ number, .committed number id ∈ as) ∨ .removed id ∈ as) → db.Settled id)) ?_ ?_
    · rintro as db a - db' ⟨hwhole, hissued, hsettled⟩ hstep
      refine ⟨hwhole.step hstep, issued_step hstep hissued, fun hmem => ?_⟩
      by_cases hbefore : (∃ number, Action.committed number id ∈ as) ∨ .removed id ∈ as
      · exact (hsettled hbefore).step hwhole hstep
      · refine settled_of_step hwhole hissued ?_ hstep
        push Not at hbefore
        rcases hmem with ⟨number, hmem⟩ | hmem
        · rcases List.mem_append.mp hmem with hmem | hmem
          · exact absurd hmem (hbefore.1 number)
          · exact .inl ⟨number, (List.mem_singleton.mp hmem).symm⟩
        · rcases List.mem_append.mp hmem with hmem | hmem
          · exact absurd hmem hbefore.2
          · exact .inr (List.mem_singleton.mp hmem).symm
    · exact ⟨hwhole, hissued, fun hmem => by simp at hmem⟩
  exact hall.2.2 hmem

/-! ## What a call takes away -/

/-- The transcripts of the backlog that are not younger than `d`. -/
def Db.early (db : Db V) (d : Transcript) : List Transcript :=
  db.backlog.filter fun t => t.createdAt ≤ d.createdAt

/-- Those of them that can be embedded. -/
def Db.waiting (embedder : Option (Embedder V)) (db : Db V) (d : Transcript) : List Transcript :=
  (db.early d).filter fun t => !unembeddable embedder t

/-- What comes later than `d` does not come before it in the backlog, and nothing comes back. -/
lemma early_step (hwhole : db.Whole embedder) (hstep : step embedder db a = some db')
    (hnew : ∀ t, a = .stored t → d.createdAt < t.createdAt) :
    (db'.early d).Sublist (db.early d) := by
  have hsub : (db'.transcripts.filter fun t => t.createdAt ≤ d.createdAt).Sublist
      (db.transcripts.filter fun t => t.createdAt ≤ d.createdAt) := by
    rcases step_cases hstep with ⟨t, rfl, -, rfl⟩ | ⟨id, -, rfl⟩ | ⟨t, -, -, -, rfl⟩ |
      ⟨x, -, -, rfl⟩ | ⟨number, -, rfl⟩
    · have hlate : [t].filter (fun t => t.createdAt ≤ d.createdAt) = [] := by
        have := hnew t rfl
        simp
        omega
      rw [Db.store, List.filter_append, hlate, List.append_nil]
    · exact List.filter_sublist.filter _
    · exact List.Sublist.refl _
    · rw [Db.transcripts_commit]
    · exact List.Sublist.refl _
  have hswap : ∀ db : Db V, db.early d =
      (db.transcripts.filter fun t => t.createdAt ≤ d.createdAt).filter
        fun t => (db.rowsFor t.id).isEmpty := by
    intro db
    rw [Db.early, Db.backlog, List.filter_comm]
  -- what is without rows was without them before
  have hfewer : db'.early d =
      ((db'.transcripts.filter fun t => t.createdAt ≤ d.createdAt).filter
        fun t => (db.rowsFor t.id).isEmpty).filter fun t => (db'.rowsFor t.id).isEmpty := by
    rw [hswap]
    conv_rhs => rw [List.filter_filter]
    refine List.filter_congr fun t ht => ?_
    by_cases hrows : db.rowsFor t.id = []
    · simp [hrows]
    · have hstill := rowsFor_ne_nil_step hwhole hstep (List.mem_filter.mp ht).1 hrows
      simp [hrows, hstill]
  rw [hfewer, hswap]
  exact List.filter_sublist.trans (hsub.filter _)

lemma early_run {as : List Action} (hwhole : db.Whole embedder)
    (hrun : Run (ofPartial (step embedder)) db as db')
    (hnew : ∀ t, .stored t ∈ as → d.createdAt < t.createdAt) :
    (db'.early d).Sublist (db.early d) := by
  have hall : db'.Whole embedder ∧ (db'.early d).Sublist (db.early d) := by
    refine hrun.invariant (fun db' => db'.Whole embedder ∧ (db'.early d).Sublist (db.early d)) ?_
      ⟨hwhole, List.Sublist.refl _⟩
    rintro s a ha s' ⟨hs, hsub⟩ hstep
    exact ⟨hs.step hstep, (early_step hs hstep fun t ht => hnew t (ht ▸ ha)).trans hsub⟩
  exact hall.2

/-- No transcript that `d` comes after is added while the calls go on. -/
def Call.Later (d : Transcript) (c : Call) : Prop :=
  ∀ t, .stored t ∈ c.before ∨ .stored t ∈ c.during → d.createdAt < t.createdAt

lemma early_called {c : Call} (hwhole : db.Whole embedder) (h : Called embedder db c db')
    (hlater : c.Later d) : db'.Whole embedder ∧ (db'.early d).Sublist (db.early d) := by
  obtain ⟨start, hbefore, hduring, -⟩ := h
  have hstart := hwhole.run hbefore
  have hsub₁ := early_run hwhole hbefore fun t ht => hlater t (.inl ht)
  have hsub₂ := early_run hstart hduring fun t ht => hlater t (.inr ht)
  exact ⟨hstart.run hduring, hsub₂.trans hsub₁⟩

/-- No more are in front of `d` than before. -/
lemma ahead_le (h : (db'.early d).Sublist (db.early d)) :
    ahead Transcript.createdAt (unembeddable embedder) db'.backlog d ≤
      ahead Transcript.createdAt (unembeddable embedder) db.backlog d := by
  have hcount : ∀ db : Db V, ahead Transcript.createdAt (unembeddable embedder) db.backlog d =
      (db.early d).countP (unembeddable embedder) := by
    intro db
    rw [ahead, Db.early, List.countP_filter]
  rw [hcount, hcount]
  exact h.countP_le

lemma mem_backlog_of_early (h : (db'.early d).Sublist (db.early d)) (hd : d ∈ db'.backlog) :
    d ∈ db.backlog := by
  have hearly : d ∈ db'.early d := List.mem_filter.mpr ⟨hd, by simp⟩
  exact (List.mem_filter.mp (h.subset hearly)).1

/-- While `d` waits and is reached, each call stores one of those that wait with it. -/
lemma waiting_called {c : Call} (hwhole : db.Whole embedder) (h : Called embedder db c db')
    (hgood : unembeddable embedder d = false)
    (hahead : ahead Transcript.createdAt (unembeddable embedder) db.backlog d < batchLimit c.limit)
    (hlater : c.Later d)
    (hd : d ∈ db'.backlog) :
    (db'.waiting embedder d).length < (db.waiting embedder d).length := by
  obtain ⟨start, hbefore, hduring, batch, hbatch, hstored⟩ := h
  have hstart := hwhole.run hbefore
  have hsub₁ := early_run hwhole hbefore fun t ht => hlater t (.inl ht)
  have hsub₂ := early_run hstart hduring fun t ht => hlater t (.inr ht)
  have hdstart := mem_backlog_of_early hsub₂ hd
  -- one of the batch can be embedded and is not younger than `d`
  obtain ⟨x, hx, hxgood, hxkey⟩ :
      ∃ x ∈ batch, unembeddable embedder x = false ∧ x.createdAt ≤ d.createdAt := by
    by_cases hin : d ∈ batch
    · exact ⟨d, hin, hgood, le_rfl⟩
    have hfew : ahead Transcript.createdAt (unembeddable embedder) start.backlog d <
        batchLimit c.limit := (ahead_le hsub₁).trans_lt hahead
    obtain ⟨x, hx, hxgood⟩ := hbatch.exists_good hdstart hgood hfew
    exact ⟨x, hx, hxgood, hbatch.oldest x hx d hdstart hin⟩
  have hxstart := hbatch.mem x hx
  have hxissued : x.id ∈ start.issued :=
    hstart.issued x.id (List.mem_map_of_mem (List.mem_filter.mp hxstart).1)
  have hxsettled := settled_of_mem hstart hxissued hduring (hstored x hx hxgood)
  have hxout : x ∉ db'.waiting embedder d := by
    intro hmem
    obtain ⟨hxdb, hxrows⟩ := List.mem_filter.mp (List.mem_filter.mp (List.mem_filter.mp hmem).1).1
    exact hxsettled.2 x hxdb rfl (List.isEmpty_iff.mp hxrows)
  have hxin : x ∈ start.waiting embedder d := by
    refine List.mem_filter.mpr ⟨List.mem_filter.mpr ⟨hxstart, by simpa using hxkey⟩, ?_⟩
    simp [hxgood]
  refine lt_of_lt_of_le ?_ (hsub₁.filter _).length_le
  refine lt_of_le_of_ne (hsub₂.filter _).length_le fun hlength => hxout ?_
  have heq := (hsub₂.filter fun t => !unembeddable embedder t).eq_of_length hlength
  rw [Db.waiting, heq]
  exact hxin

/-! ## Calling until nothing remains -/

/-- Nobody said anything. -/
def silentTranscript : Transcript := ⟨1, 2, 3, none, some [⟨"0", "Ada", " ".toList, 0, 900⟩], 50⟩

def twoStored : List Action := [.stored silentTranscript, .stored sampleTranscript]

/-- A call that is given both. -/
def sampleCall : Call := ⟨[], some 2, [.began 7, .committed 0 7]⟩

lemma early_calls {calls : List Call} (hwhole : db.Whole embedder)
    (h : Run (Called embedder) db calls db') (hlater : ∀ c ∈ calls, c.Later d) :
    (db'.early d).Sublist (db.early d) := by
  induction h with
  | nil => exact List.Sublist.refl _
  | @cons db mid db' c calls hcall _ ih =>
    obtain ⟨hc, hrest⟩ := List.forall_mem_cons.mp hlater
    obtain ⟨hmid, hsub⟩ := early_called hwhole hcall hc
    exact (ih hmid hrest).trans hsub

/-- What a run of calls leaves while `d` is waiting: every call has taken one away. -/
lemma waiting_calls {calls : List Call} (hwhole : db.Whole embedder)
    (h : Run (Called embedder) db calls db') (hgood : unembeddable embedder d = false)
    (hahead : ∀ c ∈ calls,
      ahead Transcript.createdAt (unembeddable embedder) db.backlog d < batchLimit c.limit)
    (hlater : ∀ c ∈ calls, c.Later d) (hd : d ∈ db'.backlog) :
    (db'.waiting embedder d).length + calls.length ≤ (db.waiting embedder d).length := by
  induction h with
  | nil => exact le_rfl
  | @cons db mid db' c calls hcall hrun ih =>
    obtain ⟨hc, hrest⟩ := List.forall_mem_cons.mp hlater
    obtain ⟨hmid, hsub⟩ := early_called hwhole hcall hc
    have hdmid := mem_backlog_of_early (early_calls hmid hrun hrest) hd
    have hless := waiting_called hwhole hcall hgood (hahead c List.mem_cons_self) hc hdmid
    have hmore := ih hmid
      (fun c hc => (ahead_le hsub).trans_lt (hahead c (List.mem_cons_of_mem _ hc))) hrest hd
    rw [List.length_cons]
    omega

/-- What cannot be embedded has no rows, and stays in the backlog until it is removed. -/
lemma mem_backlog_of_unembeddable {as : List Action} (hwhole : db.Whole embedder)
    (hrun : Run (ofPartial (step embedder)) db as db') (hbad : unembeddable embedder t)
    (ht : t ∈ db.transcripts) (hkept : .removed t.id ∉ as) : t ∈ db'.backlog := by
  have hstays : t ∈ db'.transcripts := by
    refine hrun.invariant (fun db => t ∈ db.transcripts) ?_ ht
    rintro s a ha s' hs hstep
    rcases step_cases hstep with ⟨t', -, -, rfl⟩ | ⟨id, rfl, rfl⟩ | ⟨t', -, -, -, rfl⟩ |
      ⟨x, -, -, rfl⟩ | ⟨number, -, rfl⟩
    · exact List.mem_append_left _ hs
    · refine List.mem_filter.mpr ⟨hs, decide_eq_true ?_⟩
      rintro rfl
      exact hkept ha
    · exact hs
    · rwa [Db.transcripts_commit]
    · exact hs
  obtain ⟨ks, hks⟩ := (hwhole.run hrun).copies t hstays
  have hnone : written embedder t = [] := List.isEmpty_iff.mp hbad
  refine List.mem_filter.mpr ⟨hstays, List.isEmpty_iff.mpr ?_⟩
  rw [hks, hnone]
  simp [copied]

/-- **A transcript that is not reached is given to no call**: where as many that cannot be embedded
are older and none of them is removed, every batch is full of them.  All of them remain, so there is
no call after which nothing does. -/
theorem backfill_starved {before as : List Action} {limit : Option Int} {blocking : List Transcript}
    (hbefore : Run (ofPartial (step embedder)) .empty before db)
    (h : Run (ofPartial (step embedder)) db as db') (hnodup : blocking.Nodup)
    (hblocking : ∀ t ∈ blocking, t ∈ db.transcripts ∧ unembeddable embedder t ∧
      t.createdAt < d.createdAt ∧ .removed t.id ∉ as)
    (hmany : batchLimit limit ≤ blocking.length) :
    (∀ batch, IsOldest Transcript.createdAt (batchLimit limit) db'.backlog batch → d ∉ batch) ∧
      blocking.length ≤ db'.backlog.length := by
  have hstay : ∀ t ∈ blocking, t ∈ db'.backlog := fun t ht =>
    mem_backlog_of_unembeddable (Db.whole_empty.run hbefore) h (hblocking t ht).2.1
      (hblocking t ht).1 (hblocking t ht).2.2.2
  refine ⟨fun batch hbatch hd => ?_, (List.subperm_of_subset hnodup hstay).length_le⟩
  -- the older ones would be in the batch as well, which is too small for them
  have hall : ∀ t ∈ d :: blocking, t ∈ batch := by
    rintro t ht
    rcases List.mem_cons.mp ht with rfl | ht
    · exact hd
    · by_contra hout
      have hle := hbatch.oldest d hd t (hstay t ht) hout
      exact absurd hle (not_le.mpr (hblocking t ht).2.2.1)
  have hnodup' : (d :: blocking).Nodup := by
    refine List.nodup_cons.mpr ⟨fun hmem => ?_, hnodup⟩
    exact lt_irrefl _ (hblocking d hmem).2.2.1
  have hlength := (List.subperm_of_subset hnodup' hall).length_le
  have hshort := hbatch.length
  rw [List.length_cons] at hlength
  omega

theorem backfill_starved_sample :
    ∃ db, twoStored.foldlM (step byLength) .empty = some db ∧
      (∀ batch, IsOldest Transcript.createdAt (batchLimit (some 1)) db.backlog batch →
        sampleTranscript ∉ batch) ∧ [silentTranscript].length ≤ db.backlog.length := by
  have hdecide : (twoStored.foldlM (step byLength) .empty).any
      (fun db => silentTranscript ∈ db.transcripts) = true := by decide +kernel
  obtain ⟨db, hbefore, hmem⟩ := Run.exists_of_decide hdecide
  refine ⟨db, Run.ofPartial_iff.mp hbefore, ?_⟩
  refine backfill_starved hbefore (.nil db) (List.nodup_singleton _) (fun t ht => ?_) (by decide)
  obtain rfl := List.mem_singleton.mp ht
  exact ⟨hmem, unembeddable_of_silent (by decide), by decide, by simp⟩

end VoxTranslate.Business.Embeddings
