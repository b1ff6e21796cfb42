import Mathlib.Data.List.Basic
import Mathlib.Data.List.Perm.Basic
import VoxTranslate.Lib.Run

/-!
# The room glossary and its cache (`glossary.rs`)

A room's glossary is a header row with the name and one row for each pair of terms.  The
translation path reads a snapshot from a cache.  `save` commits one transaction and then
reloads, `delete` commits and then caches the empty glossary, and `get` reloads where the cache
has nothing.  A reload reads the name, then the entries, then inserts what it has read: three
steps, between which any other operation may commit or publish.  Nothing ties a snapshot to the
state of the database it was read from.

The module follows the operations on one room, every one from its first statement to its end.
-/

namespace VoxTranslate.Translation.Glossary

open Lib (Run ofPartial Guarded)

/-- One stored term pair. -/
structure GlossaryEntry where
  id : Nat
  sourceLang : String
  targetLang : String
  sourceTerm : String
  targetTerm : String
  deriving DecidableEq, Repr

/-- A term pair as the client submits it. -/
structure NewEntry where
  sourceLang : String
  targetLang : String
  sourceTerm : String
  targetTerm : String
  deriving DecidableEq, Repr

namespace NewEntry

/-- What the table keeps unique in a room. -/
def uniqueKey (e : NewEntry) : String × String × String :=
  (e.sourceLang, e.targetLang, e.sourceTerm)

/-- The row an insert makes. -/
def toRow (e : NewEntry) (id : Nat) : GlossaryEntry :=
  ⟨id, e.sourceLang, e.targetLang, e.sourceTerm, e.targetTerm⟩

end NewEntry

/-- A room's full glossary, cached as one snapshot. -/
structure RoomGlossary where
  name : Option String := none
  entries : List GlossaryEntry := []
  deriving DecidableEq, Repr

/-! ## The database -/

/-- The rows of one room: the header with its name, the entries, and the next id. -/
structure Db where
  header : Option (Option String)
  entries : List GlossaryEntry
  nextId : Nat
  deriving DecidableEq, Repr

namespace Db

/-- `SELECT name`, flattened. -/
def name (db : Db) : Option String := db.header.join

/-- The transaction of `save`. -/
def save (db : Db) (name : Option String) (entries : List NewEntry) : Db :=
  ⟨some name, entries.mapIdx fun k e => e.toRow (db.nextId + k), db.nextId + entries.length⟩

/-- The statement of `delete`; the entries go with the header. -/
def delete (db : Db) : Db := { db with header := none, entries := [] }

variable (orderBy : GlossaryEntry → GlossaryEntry → Bool)

/-- The entries in an order the `ORDER BY` allows.  Rows that tie may come either way. -/
def Reads (db : Db) (rows : List GlossaryEntry) : Prop :=
  rows.Perm db.entries ∧ rows.Pairwise fun e e' => orderBy e e' = true

instance (db : Db) (rows : List GlossaryEntry) : Decidable (db.Reads orderBy rows) :=
  inferInstanceAs (Decidable (_ ∧ _))

/-- The snapshot has the stored name and the stored entries. -/
def Current (db : Db) (g : RoomGlossary) : Prop := g.name = db.name ∧ db.Reads orderBy g.entries

instance (db : Db) (g : RoomGlossary) : Decidable (db.Current orderBy g) :=
  inferInstanceAs (Decidable (_ ∧ _))

lemma delete_current (db : Db) : db.delete.Current orderBy {} :=
  ⟨rfl, List.Perm.refl _, List.Pairwise.nil⟩

end Db

/-! ## The operations, statement by statement -/

/-- An operation of the service. -/
inductive Op where
  | get
  | reload
  | save (name : Option String) (entries : List NewEntry)
  | delete
  deriving DecidableEq, Repr

/-- Where an operation stands: what it does next, with what it has read. -/
inductive Task where
  | lookup
  | commitSave (name : Option String) (entries : List NewEntry)
  | commitDelete
  | readName
  | readEntries (name : Option String)
  | insert (g : RoomGlossary)
  | insertEmpty
  | finished (answer : Option RoomGlossary)
  | failed
  deriving DecidableEq, Repr

/-- The first step of an operation. -/
def Op.first : Op → Task
  | .get => .lookup
  | .reload => .readName
  | .save name entries => .commitSave name entries
  | .delete => .commitDelete

namespace Task

/-- The operation has returned. -/
def isOver : Task → Bool
  | .finished _ | .failed => true
  | _ => false

/-- The next step is a statement of the database, which may fail. -/
def isStatement : Task → Bool
  | .commitSave .. | .commitDelete | .readName | .readEntries _ => true
  | _ => false

/-- The operation will put a snapshot into the cache, and what it has read so far still
stands in the database. -/
def IsFresh (orderBy : GlossaryEntry → GlossaryEntry → Bool) (db : Db) : Task → Prop
  | .commitSave .. | .commitDelete | .readName => True
  | .readEntries name => name = db.name
  | .insert g => db.Current orderBy g
  | .insertEmpty => db.Current orderBy {}
  | _ => False

instance (orderBy : GlossaryEntry → GlossaryEntry → Bool) (db : Db) :
    (task : Task) → Decidable (task.IsFresh orderBy db)
  | .commitSave .. | .commitDelete | .readName => isTrue trivial
  | .readEntries name => inferInstanceAs (Decidable (name = db.name))
  | .insert g => inferInstanceAs (Decidable (db.Current orderBy g))
  | .insertEmpty => inferInstanceAs (Decidable (db.Current orderBy {}))
  | .lookup | .finished _ | .failed => isFalse id

end Task

/-- The system of one room. -/
structure Room where
  db : Db
  cache : Option RoomGlossary
  tasks : List Task
  deriving DecidableEq, Repr

/-- An operation begins; operation `i` makes its next step; it reads the entries, in the given
order; its statement fails. -/
inductive Action where
  | begin (op : Op)
  | next (i : Nat)
  | rows (i : Nat) (entries : List GlossaryEntry)
  | fail (i : Nat)
  deriving DecidableEq, Repr

namespace Room

variable (orderBy : GlossaryEntry → GlossaryEntry → Bool)

/-- A room after a restart of the process: the cache is empty. -/
def start (db : Db) : Room := ⟨db, none, []⟩

def setTask (s : Room) (i : Nat) (task : Task) : Room := { s with tasks := s.tasks.set i task }

/-- The next step of an operation, refused where it is over or has rows to read.  A `save` that
repeats a key breaks the table's constraint and can only fail. -/
def advance (s : Room) (i : Nat) : Task → Option Room
  | .lookup =>
    match s.cache with
    | some g => some (s.setTask i (.finished (some g)))
    | none => some (s.setTask i .readName)
  | .commitSave name entries =>
    if (entries.map NewEntry.uniqueKey).Nodup then
      some ({ s with db := s.db.save name entries }.setTask i .readName)
    else none
  | .commitDelete => some ({ s with db := s.db.delete }.setTask i .insertEmpty)
  | .readName => some (s.setTask i (.readEntries s.db.name))
  | .insert g => some ({ s with cache := some g }.setTask i (.finished (some g)))
  | .insertEmpty => some ({ s with cache := some {} }.setTask i (.finished none))
  | .readEntries _ | .finished _ | .failed => none

/-- One action. -/
def step (s : Room) : Action → Option Room
  | .begin op => some { s with tasks := s.tasks ++ [op.first] }
  | .next i => s.tasks[i]?.bind (s.advance i)
  | .rows i entries =>
    match s.tasks[i]? with
    | some (.readEntries name) =>
      if s.db.Reads orderBy entries then some (s.setTask i (.insert ⟨name, entries⟩)) else none
    | _ => none
  | .fail i => do
    let task ← s.tasks[i]?
    if task.isStatement then some (s.setTask i .failed) else none

/-! ## Coherence -/

/-- What is cached is what is stored. -/
def Coherent (s : Room) : Prop := ∀ g, s.cache = some g → s.db.Current orderBy g

instance (s : Room) : Decidable (s.Coherent orderBy) :=
  match h : s.cache with
  | none => isTrue fun g hg => by rw [h] at hg; cases hg
  | some g => decidable_of_iff (s.db.Current orderBy g) (by simp [Coherent, h])

/-- No operation is under way. -/
def isQuiet (s : Room) : Bool := s.tasks.all Task.isOver

/-- Some operation other than `i` will publish, and has read nothing that was overtaken. -/
def Refreshed (s : Room) (i : Nat) : Prop :=
  ∃ j < s.tasks.length, j ≠ i ∧ ∃ task ∈ s.tasks[j]?, task.IsFresh orderBy s.db

instance (s : Room) (i : Nat) : Decidable (s.Refreshed orderBy i) :=
  inferInstanceAs (Decidable (∃ j < s.tasks.length, _))

/-- A snapshot that the database has overtaken is inserted, and a statement fails while the
cache is behind, only where another operation will still publish and has read nothing that
was overtaken. -/
def inOrder (s : Room) : Action → Bool
  | .next i =>
    match s.tasks[i]? with
    | some (.insert g) => s.db.Current orderBy g ∨ s.Refreshed orderBy i
    | some .insertEmpty => s.db.Current orderBy {} ∨ s.Refreshed orderBy i
    | _ => true
  | .fail i => s.Coherent orderBy ∨ s.Refreshed orderBy i
  | _ => true

/-- What is cached is stored, or somebody will publish who has read nothing that was overtaken;
and the cache is filled once an operation has returned. -/
structure Inv (s : Room) : Prop where
  covered : s.Coherent orderBy ∨ ∃ task ∈ s.tasks, task.IsFresh orderBy s.db
  filled : ∀ answer, Task.finished answer ∈ s.tasks → s.cache ≠ none

variable {orderBy} {s t : Room} {i : Nat} {task task' : Task}

lemma mem_setTask (hi : s.tasks[i]? = some task) : task' ∈ (s.setTask i task').tasks :=
  List.mem_set (List.getElem?_eq_some_iff.mp hi).1 task'

/-- Another operation's task is still there after `i` moved on. -/
lemma Refreshed.setTask (h : s.Refreshed orderBy i) (task' : Task) :
    ∃ task ∈ (s.setTask i task').tasks, task.IsFresh orderBy s.db := by
  obtain ⟨j, -, hne, task, htask, hfresh⟩ := h
  refine ⟨task, List.mem_iff_getElem?.mpr ⟨j, ?_⟩, hfresh⟩
  rw [Room.setTask, List.getElem?_set_ne (Ne.symm hne)]
  exact htask

/-- A task that stays as fresh as it was leaves the room covered. -/
lemma covered_setTask (hi : s.tasks[i]? = some task)
    (h : s.Coherent orderBy ∨ ∃ task ∈ s.tasks, task.IsFresh orderBy s.db)
    (hfresh : task.IsFresh orderBy s.db → task'.IsFresh orderBy s.db) :
    (s.setTask i task').Coherent orderBy ∨
      ∃ u ∈ (s.setTask i task').tasks, u.IsFresh orderBy s.db := by
  refine h.imp id ?_
  rintro ⟨u, hu, hufresh⟩
  obtain ⟨j, hj⟩ := List.mem_iff_getElem?.mp hu
  by_cases hji : j = i
  · rw [hji, hi] at hj
    cases hj
    exact ⟨task', mem_setTask hi, hfresh hufresh⟩
  · refine ⟨u, List.mem_iff_getElem?.mpr ⟨j, ?_⟩, hufresh⟩
    rw [setTask, List.getElem?_set_ne (Ne.symm hji)]
    exact hj

/-- No new answer, and a cache at least as full. -/
lemma filled_setTask (h : ∀ answer, Task.finished answer ∈ s.tasks → s.cache ≠ none)
    (hcache : s.cache ≠ none → t.cache ≠ none) (htasks : t.tasks = s.tasks)
    (hnew : ∀ answer, task' = .finished answer → t.cache ≠ none) :
    ∀ answer, Task.finished answer ∈ (t.setTask i task').tasks → t.cache ≠ none := by
  intro answer hmem
  rw [setTask, htasks] at hmem
  obtain hold | hold := List.mem_or_eq_of_mem_set hmem
  · exact hcache (h answer hold)
  · exact hnew answer hold.symm

namespace Inv

lemma start (db : Db) : (start db).Inv orderBy where
  covered := by
    left
    intro g hg
    cases hg
  filled := by
    intro answer hmem
    cases hmem

/-- An operation that goes on with what it has read, the database and the cache left alone. -/
lemma proceed (hI : s.Inv orderBy) (hi : s.tasks[i]? = some task)
    (hfresh : task.IsFresh orderBy s.db → task'.IsFresh orderBy s.db)
    (hnew : ∀ answer, task' = .finished answer → s.cache ≠ none) :
    (s.setTask i task').Inv orderBy :=
  ⟨covered_setTask hi hI.covered hfresh, filled_setTask hI.filled id rfl hnew⟩

/-- A transaction that commits; its operation publishes later. -/
lemma commit (hI : s.Inv orderBy) (hi : s.tasks[i]? = some task) {db : Db}
    (hfresh : task'.IsFresh orderBy db) (hnew : ∀ answer, task' ≠ .finished answer) :
    ({ s with db := db }.setTask i task').Inv orderBy where
  covered := .inr ⟨task', mem_setTask hi, hfresh⟩
  filled := filled_setTask hI.filled id rfl fun answer h => absurd h (hnew answer)

/-- An insert that is current, or that somebody will replace. -/
lemma publish (hI : s.Inv orderBy) {g : RoomGlossary}
    (hG : s.db.Current orderBy g ∨ s.Refreshed orderBy i) {answer : Option RoomGlossary} :
    ({ s with cache := some g }.setTask i (.finished answer)).Inv orderBy where
  covered := by
    refine hG.imp ?_ fun h => h.setTask _
    intro hcurrent g' hg'
    cases hg'
    exact hcurrent
  filled := filled_setTask hI.filled (by simp) rfl (by simp)

/-- A statement that fails. -/
lemma fail (hI : s.Inv orderBy) (hG : s.Coherent orderBy ∨ s.Refreshed orderBy i) :
    (s.setTask i .failed).Inv orderBy where
  covered := hG.imp id fun h => h.setTask _
  filled := filled_setTask hI.filled id rfl (by simp)

lemma advance (hI : s.Inv orderBy) (hi : s.tasks[i]? = some task)
    (hG : s.inOrder orderBy (.next i) = true) (h : s.advance i task = some t) :
    t.Inv orderBy := by
  rw [inOrder, hi] at hG
  cases task with
  | lookup =>
    rw [Room.advance] at h
    cases hcache : s.cache with
    | none =>
      rw [hcache] at h
      cases h
      exact hI.proceed hi False.elim (by simp)
    | some g =>
      rw [hcache] at h
      cases h
      exact hI.proceed hi False.elim (by simp [hcache])
  | commitSave name entries =>
    rw [Room.advance] at h
    split_ifs at h
    cases h
    exact hI.commit hi trivial (by simp)
  | commitDelete =>
    cases h
    exact hI.commit hi (s.db.delete_current orderBy) (by simp)
  | readName =>
    cases h
    exact hI.proceed hi (fun _ => rfl) (by simp)
  | insert g =>
    cases h
    exact hI.publish (of_decide_eq_true hG)
  | insertEmpty =>
    cases h
    exact hI.publish (of_decide_eq_true hG)
  | readEntries _ => cases h
  | finished _ => cases h
  | failed => cases h

/-- A step in order keeps the invariant. -/
lemma step {a : Action} (hI : s.Inv orderBy) (hG : s.inOrder orderBy a = true)
    (h : s.step orderBy a = some t) : t.Inv orderBy := by
  cases a with
  | begin op =>
    cases h
    constructor
    · refine hI.covered.imp id ?_
      rintro ⟨task, htask, hfresh⟩
      exact ⟨task, List.mem_append_left _ htask, hfresh⟩
    · intro answer hmem
      obtain hold | hnew := List.mem_append.mp hmem
      · exact hI.filled answer hold
      · cases op <;> simp [Op.first] at hnew
  | next i =>
    obtain ⟨task, hi, h⟩ := Option.bind_eq_some_iff.mp h
    exact hI.advance hi hG h
  | rows i entries =>
    rw [Room.step] at h
    split at h
    next name hi =>
      split_ifs at h with hreads
      cases h
      exact hI.proceed hi (fun hname => ⟨hname, hreads⟩) (by simp)
    next => cases h
  | fail i =>
    obtain ⟨task, hi, h⟩ := Option.bind_eq_some_iff.mp h
    split_ifs at h
    cases h
    exact hI.fail (of_decide_eq_true hG)

end Inv

/-- Once no operation is under way, the room is coherent. -/
lemma Inv.coherent (hI : s.Inv orderBy) (hquiet : s.isQuiet = true) : s.Coherent orderBy := by
  refine hI.covered.resolve_right ?_
  rintro ⟨task, htask, hfresh⟩
  have hover : task.isOver = true := List.all_eq_true.mp hquiet task htask
  cases task <;> first | exact hfresh | cases hover

end Room

variable {orderBy : GlossaryEntry → GlossaryEntry → Bool}

/-- In a run whose steps are in order, the snapshot that is left in the cache when every
operation has ended has the stored name and the stored entries, and there is one as soon as
an operation has returned. -/
theorem cached_is_stored_of_run {db : Db} {as : List Action} {s : Room}
    (h : Run (Guarded (ofPartial (Room.step orderBy)) fun s a => s.inOrder orderBy a = true)
      (Room.start db) as s) (hquiet : s.isQuiet = true) :
    (∀ g, s.cache = some g → s.db.Current orderBy g) ∧
      ∀ answer, Task.finished answer ∈ s.tasks → s.cache ≠ none := by
  have hI : s.Inv orderBy :=
    h.invariant (Room.Inv orderBy) (fun s a _ t hI hst => hI.step hst.1 hst.2) (Room.Inv.start db)
  exact ⟨hI.coherent hquiet, hI.filled⟩

/-- The editor's order of two pairs of one language direction. -/
def byTerm (e e' : GlossaryEntry) : Bool := e.sourceTerm ≤ e'.sourceTerm

def sampleEntry : NewEntry := ⟨"it", "en", "causa", "lawsuit"⟩

/-- A join reads the name of a room without a glossary; a save commits, and the join caches a
torn snapshot, which the save then replaces. -/
theorem cached_is_stored_sample :
    ∃ s, Run (ofPartial (Room.step byTerm)) (Room.start ⟨none, [], 0⟩)
        [.begin .get, .next 0, .next 0, .begin (.save (some "Causa 12") [sampleEntry]), .next 1,
          .rows 0 [sampleEntry.toRow 0], .next 0, .next 1, .rows 1 [sampleEntry.toRow 0],
          .next 1] s ∧
      (∀ g, s.cache = some g → s.db.Current byTerm g) ∧
        ∀ answer, Task.finished answer ∈ s.tasks → s.cache ≠ none := by
  obtain ⟨s, h, hquiet⟩ : ∃ s, Run (Guarded (ofPartial (Room.step byTerm))
      fun s a => s.inOrder byTerm a = true) (Room.start ⟨none, [], 0⟩)
      [.begin .get, .next 0, .next 0, .begin (.save (some "Causa 12") [sampleEntry]), .next 1,
        .rows 0 [sampleEntry.toRow 0], .next 0, .next 1, .rows 1 [sampleEntry.toRow 0],
        .next 1] s ∧ s.isQuiet = true :=
    ⟨_, Run.guarded_ofPartial_iff.mpr rfl, rfl⟩
  exact ⟨s, h.ofGuarded, cached_is_stored_of_run h hquiet⟩

/-- A join reads the empty glossary; a save commits, reads and caches the new one; the join
then inserts what it had read.  Everything has ended, and the room goes on without its
terms. -/
theorem slow_join_caches_old_glossary :
    ∃ s, Run (ofPartial (Room.step byTerm)) (Room.start ⟨none, [], 0⟩)
        [.begin .get, .next 0, .next 0, .rows 0 [],
          .begin (.save (some "Causa 12") [sampleEntry]), .next 1, .next 1,
          .rows 1 [sampleEntry.toRow 0], .next 1, .next 0] s ∧
      s.isQuiet = true ∧ s.cache = some {} ∧ ¬ s.Coherent byTerm := by
  refine ⟨_, Run.ofPartial_iff.mpr rfl, rfl, rfl, ?_⟩
  intro h
  exact absurd (h _ rfl).1 (by decide)

end VoxTranslate.Translation.Glossary
