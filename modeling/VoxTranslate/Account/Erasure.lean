import VoxTranslate.Lib.Place
import VoxTranslate.Lib.Run

/-!
# Erasing an account (`safety.rs`, `files.rs`)

The bytes of a chat file live in a bucket, and the row that names them in the database.  Nothing
keeps the two together: an upload puts the object in the bucket, has a link signed for it and then
inserts the row, and an erasure reads the paths of the rows, deletes the objects one by one and
then the account, whose rows go with it.
-/

namespace VoxTranslate.Account

open Lib

/-- Objects are named anew (`Uuid::new_v4`), so they are numbered as they are named. -/
abbrev ObjectPath := Nat

inductive EraseError where
  | db
  | storage
  | storageUnavailable
  deriving DecidableEq, Repr

/-- What comes of a statement or of a request to the bucket. -/
inductive Outcome where
  | done
  | failed
  /-- The bucket did what was asked, and its answer was lost. -/
  | lost
  deriving DecidableEq, Repr

/-- A call at the statement, or the request to the bucket, that it sends next. -/
inductive FileTask where
  | upload (path : ObjectPath)
  | createSignedUrl (path : ObjectPath)
  | insertChatFile (path : ObjectPath)
  | uploaded
  | uploadRefused (status : Nat) (message : String)
  /-- `SELECT object_path FROM chat_files`. -/
  | collectPaths
  | deleteObject (objectPaths : List ObjectPath) (path : ObjectPath) (rest : List ObjectPath)
  /-- `DELETE FROM users`. -/
  | deleteUser (objectPaths : List ObjectPath)
  | erased
  | eraseFailed (error : EraseError)
  deriving DecidableEq, Repr

namespace FileTask

/-- An upload that has not ended. -/
def isUploading : FileTask → Bool
  | .upload _ | .createSignedUrl _ | .insertChatFile _ => true
  | _ => false

def isErasure : FileTask → Bool
  | .collectPaths | .deleteObject _ _ _ | .deleteUser _ | .erased | .eraseFailed _ => true
  | _ => false

/-- The object that is named and not in the bucket yet. -/
def puts : FileTask → Option ObjectPath
  | .upload path => some path
  | _ => none

/-- The paths that are left to delete, or the user when there are none. -/
def nextObject (objectPaths : List ObjectPath) : List ObjectPath → FileTask
  | [] => .deleteUser objectPaths
  | path :: rest => .deleteObject objectPaths path rest

end FileTask

/-- A user, their files, and the calls in progress. -/
structure AccountFiles where
  /-- The row of `users`. -/
  account : Bool
  /-- `chat_files.object_path` of the rows of the user. -/
  rows : List ObjectPath
  /-- The objects in the bucket that the user has uploaded. -/
  objects : List ObjectPath
  tasks : List FileTask
  named : Nat
  /-- Every object that was ever put in the bucket. -/
  stored : List ObjectPath

inductive FileAction where
  | upload
  | erase
  /-- The next statement or request of call `i`. -/
  | advance (i : Nat) (outcome : Outcome)

namespace AccountFiles

/-- An account with `n` files. -/
def start (n : Nat) : AccountFiles :=
  ⟨true, List.range n, List.range n, [], n, List.range n⟩

def setTask (s : AccountFiles) (i : Nat) (task : FileTask) : AccountFiles :=
  { s with tasks := s.tasks.set i task }

/-- `SupabaseStorage::upload`. -/
def put (s : AccountFiles) (path : ObjectPath) : AccountFiles :=
  { s with objects := path :: s.objects, stored := path :: s.stored }

/-- `SupabaseStorage::delete`.  An object that is not there counts as deleted. -/
def remove (s : AccountFiles) (path : ObjectPath) : AccountFiles :=
  { s with objects := s.objects.filter fun other => other ≠ path }

/-- `insert_chat_file`.  The row refers to its user. -/
def insertRow (s : AccountFiles) (path : ObjectPath) : AccountFiles :=
  { s with rows := if s.account then path :: s.rows else s.rows }

/-- `DELETE FROM users`.  The rows of the user go too. -/
def dropUser (s : AccountFiles) : AccountFiles :=
  { s with account := false, rows := [] }

/-- What follows the reading of the paths. -/
def collected (configured : Bool) (objectPaths : List ObjectPath) : FileTask :=
  if !objectPaths.isEmpty && !configured then .eraseFailed .storageUnavailable
  else .nextObject objectPaths objectPaths

-- whether there is a bucket
variable (configured : Bool)

def runTask (s : AccountFiles) (i : Nat) : FileTask → Outcome → Option AccountFiles
  | .upload path, .done => some ((s.put path).setTask i (.createSignedUrl path))
  | .upload path, .lost =>
    some ((s.put path).setTask i (.uploadRefused 502 "storage upload failed"))
  | .upload _, .failed => some (s.setTask i (.uploadRefused 502 "storage upload failed"))
  | .createSignedUrl path, .done => some (s.setTask i (.insertChatFile path))
  | .createSignedUrl _, _ => some (s.setTask i (.uploadRefused 502 "storage sign failed"))
  | .insertChatFile path, .done => some ((s.insertRow path).setTask i .uploaded)
  -- the failure is logged
  | .insertChatFile _, .failed => some (s.setTask i .uploaded)
  | .collectPaths, .done => some (s.setTask i (collected configured s.rows))
  | .deleteObject objectPaths path rest, .done =>
    some ((s.remove path).setTask i (.nextObject objectPaths rest))
  | .deleteObject _ path _, .lost => some ((s.remove path).setTask i (.eraseFailed .storage))
  | .deleteObject _ _ _, .failed => some (s.setTask i (.eraseFailed .storage))
  | .deleteUser _, .done => some (s.dropUser.setTask i .erased)
  | .collectPaths, .failed | .deleteUser _, .failed => some (s.setTask i (.eraseFailed .db))
  | _, _ => none

def step (s : AccountFiles) : FileAction → Option AccountFiles
  | .upload =>
    some { s with
      tasks := s.tasks ++ [if configured then .upload s.named
        else .uploadRefused 503 "file upload is not configured"]
      named := s.named + 1 }
  | .erase => some { s with tasks := s.tasks ++ [.collectPaths] }
  | .advance i outcome => do
    let task ← s.tasks[i]?
    s.runTask configured i task outcome

/-! ## What is asked of an erasure -/

/-- Of the statements of an erasure only the one by which it succeeds touches the account and its
rows. -/
def KeepsOnError (s : AccountFiles) (as : List FileAction) : Prop :=
  ∀ pre i outcome u v task, pre ++ [.advance i outcome] <+: as →
    Run (ofPartial (step configured)) s pre u → u.step configured (.advance i outcome) = some v →
    u.tasks[i]? = some task → task.isErasure = true → v.tasks[i]? ≠ some .erased →
      v.account = u.account ∧ v.rows = u.rows

/-- After an erasure has succeeded and the uploads have ended, nothing is left in the bucket. -/
def NoOrphans (s : AccountFiles) : Prop :=
  (∃ i : Nat, s.tasks[i]? = some .erased) → (∀ task ∈ s.tasks, task.isUploading = false) →
    s.objects = []

/-- The erasure that deletes the account has read the path of every object that was ever put in
the bucket, and nothing is put there for an account that is gone. -/
def pathsComplete (s : AccountFiles) : FileAction → Bool
  | .advance i outcome =>
    match s.tasks[i]?, outcome with
    | some (.deleteUser objectPaths), .done =>
      !s.account || s.stored.all fun path => objectPaths.contains path
    | some (.upload _), .done | some (.upload _), .lost => s.account
    | _, _ => true
  | _ => true

/-! ## What a call knows -/

/-- Each of the paths was put in the bucket, and is left to delete or no longer there. -/
def Deleted (s : AccountFiles) (objectPaths left : List ObjectPath) : Prop :=
  ∀ path ∈ objectPaths, path ∈ s.stored ∧ (path ∈ left ∨ path ∉ s.objects)

def Knows (s : AccountFiles) : FileTask → Prop
  | .upload path => path < s.named ∧ path ∉ s.stored
  | .createSignedUrl path | .insertChatFile path => path ∈ s.stored
  | .deleteObject objectPaths path rest => s.Deleted objectPaths (path :: rest)
  | .deleteUser objectPaths => s.Deleted objectPaths []
  | .erased => s.account = false
  | _ => True

structure Sound (s : AccountFiles) : Prop where
  knows : ∀ (i : Nat) (task : FileTask), s.tasks[i]? = some task → s.Knows task
  puts : Place.Keyed FileTask.puts s.tasks
  rows : s.rows ⊆ s.stored
  objects : s.objects ⊆ s.stored
  named : ∀ path ∈ s.stored, path < s.named

/-- Nothing is in the bucket for an account that is gone. -/
def Cleared (s : AccountFiles) : Prop := s.account = false → s.objects = []

variable {configured} {s t : AccountFiles} {i : Nat} {task task' : FileTask}
  {path : ObjectPath} {objectPaths rest : List ObjectPath}

lemma Deleted.mono (h : s.Deleted objectPaths rest) (hstored : s.stored ⊆ t.stored)
    (hobjects : ∀ p ∈ t.objects, p ∈ s.stored → p ∈ s.objects) : t.Deleted objectPaths rest := by
  intro p hp
  obtain ⟨hold, hleft⟩ := h p hp
  refine ⟨hstored hold, ?_⟩
  rcases hleft with hleft | hgone
  · exact .inl hleft
  · exact .inr fun hthere => hgone (hobjects p hthere hold)

/-- An object that was deleted is not left to delete. -/
lemma Deleted.remove (h : s.Deleted objectPaths (path :: rest)) :
    (s.remove path).Deleted objectPaths rest := by
  intro p hp
  obtain ⟨hold, hleft⟩ := h p hp
  refine ⟨hold, ?_⟩
  show p ∈ rest ∨ p ∉ s.objects.filter fun other => other ≠ path
  rw [List.mem_filter]
  rcases hleft with hleft | hgone
  · rcases List.mem_cons.mp hleft with rfl | hrest
    · right
      simp
    · exact .inl hrest
  · exact .inr fun hthere => hgone hthere.1

lemma knows_nextObject (h : s.Deleted objectPaths rest) :
    s.Knows (.nextObject objectPaths rest) := by
  cases rest with
  | nil => exact h
  | cons path rest => exact h

/-- What the other calls know is true after the step of one call. -/
lemma Knows.mono (h : s.Knows task) (hstored : s.stored ⊆ t.stored)
    (hobjects : ∀ p ∈ t.objects, p ∈ s.stored → p ∈ s.objects) (hnamed : s.named ≤ t.named)
    (hfresh : ∀ p, task.puts = some p → p ∉ s.stored → p ∉ t.stored)
    (haccount : s.account = false → t.account = false) : t.Knows task := by
  cases task with
  | upload p => exact ⟨lt_of_lt_of_le h.1 hnamed, hfresh p rfl h.2⟩
  | createSignedUrl p => exact hstored h
  | insertChatFile p => exact hstored h
  | deleteObject objectPaths p rest => exact Deleted.mono h hstored hobjects
  | deleteUser objectPaths => exact Deleted.mono h hstored hobjects
  | erased => exact haccount h
  | _ => trivial

lemma Sound.set (h : s.Sound) (htask : s.tasks[i]? = some task) (htasks : t.tasks = s.tasks)
    (hputs : task'.puts = none) (hnew : t.Knows task')
    (hothers : ∀ (j : Nat) (other : FileTask), s.tasks[j]? = some other → j ≠ i → t.Knows other)
    (hrows : t.rows ⊆ t.stored) (hobjects : t.objects ⊆ t.stored)
    (hnamed : ∀ p ∈ t.stored, p < t.named) : (t.setTask i task').Sound := by
  refine ⟨?_, ?_, hrows, hobjects, hnamed⟩
  · intro j other hj
    rw [setTask, htasks] at hj
    rcases Place.getElem?_set_cases hj with ⟨-, rfl⟩ | ⟨hne, hj⟩
    · exact hnew
    · exact hothers j other hj hne
  · show Place.Keyed FileTask.puts (t.tasks.set i task')
    rw [htasks]
    exact h.puts.set htask (.inl hputs)

/-- A call goes on, and nothing else changes. -/
lemma Sound.setTask (h : s.Sound) (htask : s.tasks[i]? = some task) (hputs : task'.puts = none)
    (hnew : s.Knows task') : (s.setTask i task').Sound :=
  h.set htask rfl hputs hnew (fun j other hj _ => h.knows j other hj) h.rows h.objects h.named

/-- An object is put in the bucket. -/
lemma Sound.put (h : s.Sound) (htask : s.tasks[i]? = some (.upload path))
    (hputs : task'.puts = none) (hnew : (s.put path).Knows task') :
    ((s.put path).setTask i task').Sound := by
  obtain ⟨hlt, hfresh⟩ : path < s.named ∧ path ∉ s.stored := h.knows i _ htask
  refine h.set htask rfl hputs hnew ?_ ?_ ?_ ?_
  · intro j other hj hne
    refine (h.knows j other hj).mono (List.subset_cons_self _ _) ?_ (le_refl _) ?_ id
    · intro p hp hold
      rcases List.mem_cons.mp hp with rfl | hp
      · exact absurd hold hfresh
      · exact hp
    · intro p hother hnot hp
      rcases List.mem_cons.mp hp with rfl | hp
      · exact hne (h.puts j i other _ p hj htask hother rfl)
      · exact hnot hp
  · exact fun p hp => List.mem_cons_of_mem _ (h.rows hp)
  · exact List.cons_subset_cons _ h.objects
  · intro p hp
    rcases List.mem_cons.mp hp with rfl | hp
    · exact hlt
    · exact h.named p hp

/-- An object is deleted. -/
lemma Sound.remove (h : s.Sound) (htask : s.tasks[i]? = some task) (hputs : task'.puts = none)
    (hnew : (s.remove path).Knows task') : ((s.remove path).setTask i task').Sound := by
  have hsubset : (s.remove path).objects ⊆ s.objects := List.filter_subset_self _
  refine h.set htask rfl hputs hnew ?_ h.rows (List.Subset.trans hsubset h.objects) h.named
  intro j other hj _
  exact (h.knows j other hj).mono (List.Subset.refl _) (fun p hp _ => hsubset hp) (le_refl _)
    (fun _ _ hnot => hnot) id

/-- The rows change, and the account may go. -/
lemma Sound.rewrite (h : s.Sound) (htask : s.tasks[i]? = some task) (hputs : task'.puts = none)
    {account : Bool} {rows : List ObjectPath} (hrows : rows ⊆ s.stored)
    (haccount : s.account = false → account = false)
    (hnew : ({ s with account, rows } : AccountFiles).Knows task') :
    (({ s with account, rows } : AccountFiles).setTask i task').Sound := by
  refine h.set htask rfl hputs hnew ?_ hrows h.objects h.named
  intro j other hj _
  exact (h.knows j other hj).mono (List.Subset.refl _) (fun p hp _ => hp) (le_refl _)
    (fun _ _ hnot => hnot) haccount

lemma puts_nextObject : (FileTask.nextObject objectPaths rest).puts = none := by
  cases rest <;> rfl

/-! ## The steps -/

/-- What the step of a call does. -/
inductive Effect (s : AccountFiles) (i : Nat) (task : FileTask) (outcome : Outcome) :
    AccountFiles → Prop
  | goOn (task' : FileTask) (hputs : task'.puts = none) (hknows : s.Knows task')
      (hgoes : task' ≠ .erased) : Effect s i task outcome (s.setTask i task')
  | put (path : ObjectPath) (task' : FileTask) (htask : task = .upload path)
      (houtcome : outcome = .done ∨ outcome = .lost) (hputs : task'.puts = none)
      (hknows : (s.put path).Knows task') : Effect s i task outcome ((s.put path).setTask i task')
  | insertRow (path : ObjectPath) (htask : task = .insertChatFile path) :
      Effect s i task outcome ((s.insertRow path).setTask i .uploaded)
  | remove (path : ObjectPath) (task' : FileTask) (hputs : task'.puts = none)
      (hknows : (s.remove path).Knows task') :
      Effect s i task outcome ((s.remove path).setTask i task')
  | dropUser (objectPaths : List ObjectPath) (htask : task = .deleteUser objectPaths)
      (houtcome : outcome = .done) : Effect s i task outcome (s.dropUser.setTask i .erased)

lemma effect_of_collect (h : s.Sound) {outcome : Outcome} :
    s.Effect i .collectPaths outcome (s.setTask i (collected configured s.rows)) := by
  have hall : s.Deleted s.rows s.rows := fun p hp => ⟨h.rows hp, .inl hp⟩
  rw [collected]
  split_ifs
  · exact .goOn _ rfl trivial (by simp)
  · refine .goOn _ puts_nextObject (knows_nextObject hall) ?_
    cases s.rows <;> simp [FileTask.nextObject]

lemma effect_of_runTask (h : s.Sound) {outcome : Outcome} (htask : s.tasks[i]? = some task)
    (hstep : s.runTask configured i task outcome = some t) : s.Effect i task outcome t := by
  have hrefuse : ∀ status message, s.Effect i task outcome
      (s.setTask i (.uploadRefused status message)) :=
    fun status message => .goOn _ rfl trivial (by simp)
  have hfail : ∀ error, s.Effect i task outcome (s.setTask i (.eraseFailed error)) :=
    fun error => .goOn _ rfl trivial (by simp)
  cases task with
  | upload path =>
    cases outcome with
    | done =>
      cases hstep
      exact .put path _ rfl (.inl rfl) rfl List.mem_cons_self
    | failed =>
      cases hstep
      exact hrefuse _ _
    | lost =>
      cases hstep
      exact .put path _ rfl (.inr rfl) rfl trivial
  | createSignedUrl path =>
    have hstored : path ∈ s.stored := h.knows i _ htask
    cases outcome with
    | done =>
      cases hstep
      exact .goOn _ rfl hstored (by simp)
    | failed =>
      cases hstep
      exact hrefuse _ _
    | lost =>
      cases hstep
      exact hrefuse _ _
  | insertChatFile path =>
    cases outcome with
    | done =>
      cases hstep
      exact .insertRow path rfl
    | failed =>
      cases hstep
      exact .goOn _ rfl trivial (by simp)
    | lost => cases hstep
  | collectPaths =>
    cases outcome with
    | done =>
      cases hstep
      exact effect_of_collect h
    | failed =>
      cases hstep
      exact hfail _
    | lost => cases hstep
  | deleteObject objectPaths path rest =>
    have hdeleted : s.Deleted objectPaths (path :: rest) := h.knows i _ htask
    cases outcome with
    | done =>
      cases hstep
      exact .remove path _ puts_nextObject (knows_nextObject hdeleted.remove)
    | failed =>
      cases hstep
      exact hfail _
    | lost =>
      cases hstep
      exact .remove path _ rfl trivial
  | deleteUser objectPaths =>
    cases outcome with
    | done =>
      cases hstep
      exact .dropUser objectPaths rfl rfl
    | failed =>
      cases hstep
      exact hfail _
    | lost => cases hstep
  | _ => cases hstep

lemma Sound.effect (h : s.Sound) {outcome : Outcome} (htask : s.tasks[i]? = some task)
    (heffect : s.Effect i task outcome t) : t.Sound := by
  cases heffect with
  | goOn task' hputs hknows _ => exact h.setTask htask hputs hknows
  | put path task' hupload _ hputs hknows => exact h.put (hupload ▸ htask) hputs hknows
  | insertRow path hinsert =>
    subst hinsert
    have hstored : path ∈ s.stored := h.knows i _ htask
    refine h.rewrite htask rfl ?_ id trivial
    split_ifs
    · exact List.cons_subset.mpr ⟨hstored, h.rows⟩
    · exact h.rows
  | remove path task' hputs hknows => exact h.remove htask hputs hknows
  | dropUser objectPaths hdrop _ =>
    exact h.rewrite htask rfl (List.nil_subset _) (fun _ => rfl) rfl

lemma step_sound {action : FileAction} (h : s.Sound) (hstep : s.step configured action = some t) :
    t.Sound := by
  have hlast : ∀ {named : Nat} {other : FileTask}, s.named ≤ named →
      ({ s with tasks := s.tasks ++ [other], named } : AccountFiles).Knows other →
      Place.Keyed FileTask.puts (s.tasks ++ [other]) →
      ({ s with tasks := s.tasks ++ [other], named } : AccountFiles).Sound := by
    intro named other hle hknows hkeyed
    refine ⟨fun j task hj => ?_, hkeyed, h.rows, h.objects,
      fun p hp => lt_of_lt_of_le (h.named p hp) hle⟩
    rcases Place.getElem?_concat_cases hj with ⟨-, rfl⟩ | hj
    · exact hknows
    · exact (h.knows j task hj).mono (List.Subset.refl _) (fun p hp _ => hp) hle
        (fun _ _ hnot => hnot) id
  cases action with
  | upload =>
    cases hstep
    refine hlast (Nat.le_succ _) ?_ ?_
    · split_ifs
      · exact ⟨Nat.lt_succ_self _, fun hold => lt_irrefl _ (h.named _ hold)⟩
      · trivial
    · -- the name that is drawn is not that of an object on its way
      intro j j' a b p hj hj' ha hb
      have hold : ∀ {j : Nat} {a : FileTask}, s.tasks[j]? = some a → a.puts = some p →
          p < s.named := by
        intro j a hj ha
        cases a with
        | upload q =>
          cases ha
          exact (h.knows j _ hj).1
        | _ => cases ha
      have hnew : (if configured then FileTask.upload s.named
          else .uploadRefused 503 "file upload is not configured").puts = some p →
          p = s.named := by
        split_ifs
        · rintro ⟨⟩
          rfl
        · rintro ⟨⟩
      rcases Place.getElem?_concat_cases hj with ⟨rfl, rfl⟩ | hj
      · rcases Place.getElem?_concat_cases hj' with ⟨rfl, -⟩ | hj'
        · rfl
        · exact absurd (hnew ha) (hold hj' hb).ne
      · rcases Place.getElem?_concat_cases hj' with ⟨rfl, rfl⟩ | hj'
        · exact absurd (hnew hb) (hold hj ha).ne
        · exact h.puts j j' a b p hj hj' ha hb
  | erase =>
    cases hstep
    exact hlast (le_refl _) trivial (h.puts.concat rfl)
  | advance i outcome =>
    obtain ⟨task, htask, hstep⟩ := Option.bind_eq_some_iff.mp hstep
    exact h.effect htask (effect_of_runTask h htask hstep)

lemma Cleared.of_subset (h : s.Cleared) (haccount : t.account = s.account)
    (hobjects : t.objects ⊆ s.objects) : t.Cleared := by
  intro hgone
  rw [haccount] at hgone
  rw [h hgone] at hobjects
  exact List.subset_nil.mp hobjects

/-- The object belongs to an account that is there. -/
lemma Cleared.put (haccount : s.account = true) :
    ((s.put path).setTask i task').Cleared := by
  intro hgone
  rw [show ((s.put path).setTask i task').account = s.account from rfl, haccount] at hgone
  cases hgone

/-- When the account goes, everything that was put in the bucket has been read and deleted. -/
lemma Cleared.dropUser (h : s.Cleared) (hsound : s.Sound)
    (htask : s.tasks[i]? = some (.deleteUser objectPaths))
    (hguard : s.pathsComplete (.advance i .done) = true) :
    (s.dropUser.setTask i .erased).Cleared := by
  intro _
  show s.objects = []
  simp only [pathsComplete, htask, Bool.or_eq_true, Bool.not_eq_true', List.all_eq_true,
    List.contains_iff_mem] at hguard
  rcases hguard with hgone | hread
  · exact h hgone
  · refine List.eq_nil_iff_forall_not_mem.mpr fun p hp => ?_
    have hdeleted : s.Deleted objectPaths [] := hsound.knows i _ htask
    obtain ⟨-, hleft | hnot⟩ := hdeleted p (hread p (hsound.objects hp))
    · cases hleft
    · exact hnot hp

lemma step_cleared {action : FileAction} (h : s.Cleared) (hsound : s.Sound)
    (hguard : s.pathsComplete action = true) (hstep : s.step configured action = some t) :
    t.Cleared := by
  cases action with
  | upload =>
    cases hstep
    exact h.of_subset rfl (List.Subset.refl _)
  | erase =>
    cases hstep
    exact h.of_subset rfl (List.Subset.refl _)
  | advance i outcome =>
    obtain ⟨task, htask, hstep⟩ := Option.bind_eq_some_iff.mp hstep
    cases effect_of_runTask hsound htask hstep with
    | goOn task' _ _ _ => exact h.of_subset rfl (List.Subset.refl _)
    | put path task' hupload houtcome _ _ =>
      subst hupload
      refine Cleared.put ?_
      rcases houtcome with rfl | rfl
      · simpa [pathsComplete, htask] using hguard
      · simpa [pathsComplete, htask] using hguard
    | insertRow path _ => exact h.of_subset rfl (List.Subset.refl _)
    | remove path task' _ _ => exact h.of_subset rfl (List.filter_subset_self _)
    | dropUser objectPaths hdrop houtcome =>
      subst hdrop houtcome
      exact h.dropUser hsound htask hguard

lemma start_sound (n : Nat) : (start n).Sound where
  knows := by
    intro j task hj
    cases hj
  puts := .nil
  rows := List.Subset.refl _
  objects := List.Subset.refl _
  named := fun _ hp => List.mem_range.mp hp

/-- A statement of an erasure that has not succeeded by it leaves the account and its rows. -/
lemma step_keeps {outcome : Outcome} (h : s.Sound)
    (hstep : s.step configured (.advance i outcome) = some t) (htask : s.tasks[i]? = some task)
    (herasure : task.isErasure = true) (hnot : t.tasks[i]? ≠ some .erased) :
    t.account = s.account ∧ t.rows = s.rows := by
  obtain ⟨task', htask', hrun⟩ := Option.bind_eq_some_iff.mp hstep
  cases htask.symm.trans htask'
  cases effect_of_runTask h htask hrun with
  | goOn task' _ _ _ => exact ⟨rfl, rfl⟩
  | put path task' hupload _ _ _ =>
    subst hupload
    cases herasure
  | insertRow path hinsert =>
    subst hinsert
    cases herasure
  | remove path task' _ _ => exact ⟨rfl, rfl⟩
  | dropUser objectPaths _ _ =>
    exact absurd (Place.getElem?_set_here htask) hnot

/-- **An erasure that fails leaves the account and its rows, and one that succeeds leaves nothing
in the bucket when it has read every path.** -/
theorem no_orphans_of_run (configured : Bool) (n : Nat) (as : List FileAction) :
    KeepsOnError configured (start n) as ∧ ∀ t,
      Run (Guarded (ofPartial (step configured)) fun s action => s.pathsComplete action = true)
        (start n) as t → t.NoOrphans := by
  constructor
  · intro pre i outcome u v task _ hu hstep htask herasure hnot
    have hsound : u.Sound := hu.invariant Sound
      (fun _ _ _ _ hs hstep => step_sound hs hstep) (start_sound n)
    exact step_keeps hsound hstep htask herasure hnot
  · intro t hguarded
    have hinv : t.Sound ∧ t.Cleared := by
      refine hguarded.invariant (fun s => s.Sound ∧ s.Cleared) ?_
        ⟨start_sound n, fun hgone => by cases hgone⟩
      rintro s action - u ⟨hsound, hcleared⟩ ⟨hguard, hstep⟩
      exact ⟨step_sound hsound hstep, step_cleared hcleared hsound hguard hstep⟩
    rintro ⟨i, herased⟩ -
    exact hinv.2 (hinv.1.knows i _ herased)

section Samples

/-- The steps of an upload that goes well. -/
def uploadSteps (i : Nat) : List FileAction := List.replicate 3 (.advance i .done)

/-- Two files, of which the second cannot be deleted at first. -/
def retriedErasure : List FileAction :=
  [.upload, .upload] ++ uploadSteps 0 ++ uploadSteps 1 ++
    [.erase, .advance 2 .done, .advance 2 .lost, .erase, .advance 3 .done, .advance 3 .done,
      .advance 3 .done, .advance 3 .done]

theorem no_orphans_sample :
    ∃ t : AccountFiles, t.tasks[3]? = some FileTask.erased ∧
      KeepsOnError true (start 0) retriedErasure ∧ t.NoOrphans := by
  have hrun : ∃ t, Run (Guarded (ofPartial (step true)) fun s action =>
      s.pathsComplete action = true) (start 0) retriedErasure t ∧
        t.tasks[3]? = some FileTask.erased :=
    Run.exists_guarded_of_decide (by decide +kernel)
  obtain ⟨t, hrun, herased⟩ := hrun
  obtain ⟨hkeeps, horphans⟩ := no_orphans_of_run true 0 retriedErasure
  exact ⟨t, herased, hkeeps, horphans t hrun⟩

/-- The object is put in the bucket, and the account goes before its row is there. -/
def erasedMeanwhile : List FileAction :=
  [.upload, .erase, .advance 1 .done, .advance 0 .done, .advance 1 .done, .advance 0 .done,
    .advance 0 .done]

/-- **The object of an upload outlives the account.** -/
theorem object_orphaned :
    ∃ t, Run (ofPartial (step true)) (start 0) erasedMeanwhile t ∧
      t.tasks = [.uploaded, .erased] ∧ t.objects = [0] ∧ ¬ t.NoOrphans := by
  have hrun : ∃ t, Run (ofPartial (step true)) (start 0) erasedMeanwhile t ∧
      (t.tasks = [.uploaded, .erased] ∧ t.objects = [0]) :=
    Run.exists_of_decide (by decide +kernel)
  obtain ⟨t, hrun, htasks, hobjects⟩ := hrun
  refine ⟨t, hrun, htasks, hobjects, fun hclean => ?_⟩
  have hempty := hclean ⟨1, by rw [htasks]; rfl⟩ (by simp [htasks, FileTask.isUploading])
  rw [hobjects] at hempty
  cases hempty

end Samples

end AccountFiles

end VoxTranslate.Account
