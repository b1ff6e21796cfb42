import VoxTranslate.Lib.Place
import VoxTranslate.Lib.Run

/-!
# Friend requests (`friends.rs`)

A friendship of two users is one row.  A request reads it, decides, and writes it by key, each
in a statement of its own; an acceptance is one conditional update; a rejection, a cancellation
and the end of a friendship are one deletion.
-/

namespace VoxTranslate.Account

open Lib

/-- The two users, by their place in the key of the row (`ordered`). -/
inductive Party where
  | low
  | high
  deriving DecidableEq, Repr

def Party.other : Party → Party
  | .low => .high
  | .high => .low

inductive FriendStatus where
  | pending
  | accepted
  deriving DecidableEq, Repr

/-- The row of `friendships`. -/
structure FriendRow where
  status : FriendStatus
  requestedBy : Party
  deriving DecidableEq, Repr

/-- A call of user `me` at the statement that it sends next.  A request remembers how many rows
had been deleted when it began. -/
inductive FriendTask where
  /-- `SELECT id FROM users`. -/
  | findTarget (me : Party) (began : Nat)
  /-- `SELECT status, requested_by FROM friendships`. -/
  | readRow (me : Party) (began : Nat)
  /-- `UPDATE friendships SET status = 'accepted'`, by key. -/
  | updateRow (me : Party) (began : Nat)
  | insertRow (me : Party) (began : Nat)
  | requested (me : Party) (began : Nat) (status : Nat) (message : String)
  /-- The update of `accept`. -/
  | acceptRow (me : Party)
  | deleteRow
  | answered (status : Nat) (message : String)
  /-- The insert met a row that `requestedBy` had requested: a server error. -/
  | conflicted (me requestedBy : Party)
  /-- A statement failed: a server error. -/
  | failed
  deriving DecidableEq, Repr

structure Friendship where
  row : Option FriendRow
  tasks : List FriendTask
  /-- How many rows have been deleted. -/
  deletions : Nat
  /-- Who has sent a statement of a request or an acceptance since the last deletion. -/
  called : Party → Bool

inductive FriendCall where
  | request
  | accept
  | remove
  deriving DecidableEq, Repr

inductive FriendAction where
  | call (me : Party) (call : FriendCall)
  /-- The next statement of call `i`; it may fail. -/
  | advance (i : Nat) (ok : Bool)

namespace Friendship

def start : Friendship := ⟨none, [], 0, fun _ => false⟩

def setTask (s : Friendship) (i : Nat) (task : FriendTask) : Friendship :=
  { s with tasks := s.tasks.set i task }

/-- User `p` sends a statement of a request or an acceptance. -/
def touch (s : Friendship) (p : Party) : Friendship :=
  { s with called := fun q => q = p || s.called q }

/-- The row that is there becomes `accepted`. -/
def acceptAny (s : Friendship) : Friendship :=
  { s with row := s.row.map fun row => { row with status := .accepted } }

def insert (s : Friendship) (me : Party) : Friendship :=
  { s with row := some ⟨.pending, me⟩ }

/-- `DELETE FROM friendships`. -/
def delete (s : Friendship) : Friendship :=
  match s.row with
  | none => s
  | some _ => { s with row := none, deletions := s.deletions + 1, called := fun _ => false }

/-- What a request does in view of the row. -/
def decideRequest (s : Friendship) (me : Party) (began : Nat) : FriendTask :=
  match s.row with
  | none => .insertRow me began
  | some row =>
    if row.status = .accepted then .requested me began 409 "already friends"
    else if row.requestedBy = me then .requested me began 409 "request already sent"
    else .updateRow me began

/-- The row is pending and was requested by the other user. -/
def canAccept (s : Friendship) (me : Party) : Bool :=
  s.row.any fun row => row.status = .pending && row.requestedBy ≠ me

/-- The statement of a call that goes well. -/
def runTask (s : Friendship) (i : Nat) : FriendTask → Option Friendship
  | .findTarget me began => some ((s.touch me).setTask i (.readRow me began))
  | .readRow me began => some ((s.touch me).setTask i (s.decideRequest me began))
  | .updateRow me began => some ((s.touch me).acceptAny.setTask i (.requested me began 204 ""))
  | .insertRow me began =>
    match s.row with
    | none => some (((s.touch me).insert me).setTask i (.requested me began 202 ""))
    | some row => some ((s.touch me).setTask i (.conflicted me row.requestedBy))
  | .acceptRow me =>
    if s.canAccept me then some ((s.touch me).acceptAny.setTask i (.answered 204 ""))
    else some ((s.touch me).setTask i (.answered 404 "no pending request from that user"))
  | .deleteRow => some (s.delete.setTask i (.answered 204 ""))
  | .requested _ _ _ _ | .answered _ _ | .conflicted _ _ | .failed => none

/-- A call has a statement to send. -/
def unanswered : FriendTask → Bool
  | .requested _ _ _ _ | .answered _ _ | .conflicted _ _ | .failed => false
  | _ => true

def arrival (s : Friendship) (me : Party) : FriendCall → FriendTask
  | .request => .findTarget me s.deletions
  | .accept => .acceptRow me
  | .remove => .deleteRow

def step (s : Friendship) : FriendAction → Option Friendship
  | .call me call => some { s with tasks := s.tasks ++ [s.arrival me call] }
  | .advance i true => do
    let task ← s.tasks[i]?
    s.runTask i task
  | .advance i false => do
    let task ← s.tasks[i]?
    if unanswered task then some (s.setTask i .failed) else none

/-! ## What is asked of a friendship -/

def areFriends (s : Friendship) : Prop := ∃ row, s.row = some row ∧ row.status = .accepted

/-- Friends have both called since the row was last deleted. -/
def BothCalled (s : Friendship) : Prop := s.areFriends → ∀ p, s.called p = true

/-- No request has met with the row of the other user. -/
def NoConflict (s : Friendship) : Prop :=
  ∀ (i : Nat) (me : Party), s.tasks[i]? ≠ some (.conflicted me me.other)

/-- Two users who have each requested the other are friends, when no row was deleted since the
first of the requests began. -/
def MutualFriends (s : Friendship) : Prop :=
  ∀ (i j : Nat) (me : Party) began began' status status' message message',
    s.tasks[i]? = some (.requested me began status message) →
    s.tasks[j]? = some (.requested me.other began' status' message') →
    s.deletions = min began began' → s.areFriends

structure NeedsBoth (s : Friendship) : Prop where
  called : s.BothCalled
  conflict : s.NoConflict
  asked : s.MutualFriends

/-- The update of a request does not come over a pending row that its own user has requested while
the other has not called, and its insert not when there is a row that the other has requested. -/
def seesTheRow (s : Friendship) : FriendAction → Bool
  | .advance i true =>
    match s.tasks[i]?, s.row with
    | some (.updateRow me _), some row =>
      row.status = .accepted || row.requestedBy ≠ me || s.called me.other
    | some (.insertRow me _), some row => row.requestedBy = me
    | _, _ => true
  | _ => true

/-! ## What a call knows -/

/-- When no row was deleted since a request began, its row is there, and is pending by its own
user or accepted. -/
def Stands (s : Friendship) (me : Party) (began : Nat) : Prop :=
  began ≤ s.deletions ∧ (began = s.deletions →
    ∃ row, s.row = some row ∧ (row.status = .accepted ∨ row.requestedBy = me))

def Knows (s : Friendship) : FriendTask → Prop
  | .findTarget _ began | .readRow _ began | .insertRow _ began => began ≤ s.deletions
  | .updateRow _ began => began ≤ s.deletions ∧ (began = s.deletions → s.row.isSome = true)
  | .requested me began _ _ => s.Stands me began
  | _ => True

structure Sound (s : Friendship) : Prop where
  knows : ∀ (i : Nat) (task : FriendTask), s.tasks[i]? = some task → s.Knows task
  requester : ∀ row, s.row = some row → s.called row.requestedBy = true

variable {s t : Friendship} {i : Nat} {task task' : FriendTask} {me : Party} {began : Nat}

/-- What is there stays there, and the user who requested it stays. -/
structure Grows (s t : Friendship) : Prop where
  row : ∀ row, s.row = some row → ∃ row', t.row = some row' ∧
    row'.requestedBy = row.requestedBy ∧ (row.status = .accepted → row'.status = .accepted)
  deletions : t.deletions = s.deletions

lemma Grows.touch : s.Grows (s.touch me) := ⟨fun row h => ⟨row, h, rfl, id⟩, rfl⟩

lemma Grows.acceptAny : s.Grows s.acceptAny := by
  refine ⟨fun row h => ⟨{ row with status := .accepted }, ?_, rfl, fun _ => rfl⟩, rfl⟩
  rw [Friendship.acceptAny, h]
  rfl

lemma Grows.insert (h : s.row = none) : s.Grows (s.insert me) := by
  refine ⟨fun row hrow => ?_, rfl⟩
  rw [h] at hrow
  cases hrow

lemma Grows.trans {u : Friendship} (h : s.Grows t) (h' : t.Grows u) : s.Grows u := by
  refine ⟨fun row hrow => ?_, h'.deletions.trans h.deletions⟩
  obtain ⟨row', hrow', hby, hkeep⟩ := h.row row hrow
  obtain ⟨row'', hrow'', hby', hkeep'⟩ := h'.row row' hrow'
  exact ⟨row'', hrow'', hby'.trans hby, fun h => hkeep' (hkeep h)⟩

lemma Knows.grows (h : s.Knows task) (hgrows : s.Grows t) : t.Knows task := by
  have hdeletions := hgrows.deletions
  cases task with
  | findTarget me began => exact le_of_le_of_eq h hdeletions.symm
  | readRow me began => exact le_of_le_of_eq h hdeletions.symm
  | insertRow me began => exact le_of_le_of_eq h hdeletions.symm
  | updateRow me began =>
    refine ⟨le_of_le_of_eq h.1 hdeletions.symm, fun hnow => ?_⟩
    obtain ⟨row, hrow⟩ := Option.isSome_iff_exists.mp (h.2 (hnow.trans hdeletions))
    obtain ⟨row', hrow', -⟩ := hgrows.row row hrow
    rw [hrow']
    rfl
  | requested me began status message =>
    refine ⟨le_of_le_of_eq h.1 hdeletions.symm, fun hnow => ?_⟩
    obtain ⟨row, hrow, hstands⟩ := h.2 (hnow.trans hdeletions)
    obtain ⟨row', hrow', hby, hkeep⟩ := hgrows.row row hrow
    refine ⟨row', hrow', ?_⟩
    rcases hstands with haccepted | hme
    · exact .inl (hkeep haccepted)
    · exact .inr (hby.trans hme)
  | _ => trivial

/-- A deletion takes from a call what it knows of the row. -/
lemma Knows.delete (h : s.Knows task) : s.delete.Knows task := by
  rw [Friendship.delete]
  cases hrow : s.row with
  | none => exact h
  | some row =>
    cases task with
    | findTarget me began => exact Nat.le_succ_of_le h
    | readRow me began => exact Nat.le_succ_of_le h
    | insertRow me began => exact Nat.le_succ_of_le h
    | updateRow me began =>
      exact ⟨Nat.le_succ_of_le h.1, fun hnow => absurd hnow (Nat.lt_succ_of_le h.1).ne⟩
    | requested me began status message =>
      exact ⟨Nat.le_succ_of_le h.1, fun hnow => absurd hnow (Nat.lt_succ_of_le h.1).ne⟩
    | _ => trivial

lemma row_delete : s.delete.row = none := by
  cases hrow : s.row with
  | none => rw [Friendship.delete, hrow, hrow]
  | some row => rw [Friendship.delete, hrow]

lemma tasks_delete : s.delete.tasks = s.tasks := by
  rw [Friendship.delete]
  cases s.row <;> rfl

lemma Sound.set (hothers : ∀ (j : Nat) (other : FriendTask), s.tasks[j]? = some other →
      t.Knows other) (htasks : t.tasks = s.tasks) (hnew : t.Knows task')
    (hrequester : ∀ row, t.row = some row → t.called row.requestedBy = true) :
    (t.setTask i task').Sound := by
  refine ⟨fun j other hj => ?_, hrequester⟩
  rw [setTask, htasks] at hj
  rcases Place.getElem?_set_cases hj with ⟨-, rfl⟩ | ⟨-, hj⟩
  · exact hnew
  · exact hothers j other hj

lemma Sound.requester_touch (h : s.Sound) (row : FriendRow) (hrow : s.row = some row) :
    (s.touch me).called row.requestedBy = true := by
  show (decide (row.requestedBy = me) || s.called row.requestedBy) = true
  rw [h.requester row hrow, Bool.or_true]

lemma Sound.touch (h : s.Sound) (hnew : s.Knows task') : ((s.touch me).setTask i task').Sound :=
  .set (fun j other hj => (h.knows j other hj).grows .touch) rfl (hnew.grows .touch)
    h.requester_touch

lemma Sound.acceptAny (h : s.Sound) (hnew : (s.touch me).acceptAny.Knows task') :
    ((s.touch me).acceptAny.setTask i task').Sound := by
  refine .set (fun j other hj => (h.knows j other hj).grows (.trans .touch .acceptAny)) rfl hnew ?_
  intro row hrow
  obtain ⟨old, hold, rfl⟩ := Option.map_eq_some_iff.mp hrow
  exact h.requester_touch old hold

lemma knows_decideRequest (h : began ≤ s.deletions) : s.Knows (s.decideRequest me began) := by
  rw [decideRequest]
  cases hrow : s.row with
  | none => exact h
  | some row =>
    dsimp only
    split_ifs with haccepted hme
    · exact ⟨h, fun _ => ⟨row, hrow, .inl haccepted⟩⟩
    · exact ⟨h, fun _ => ⟨row, hrow, .inr hme⟩⟩
    · exact ⟨h, fun _ => by rw [hrow]; rfl⟩

lemma Sound.runTask (h : s.Sound) (htask : s.tasks[i]? = some task)
    (hstep : s.runTask i task = some t) : t.Sound := by
  have hknows : s.Knows task := h.knows i task htask
  cases task with
  | findTarget me began =>
    cases hstep
    exact h.touch hknows
  | readRow me began =>
    cases hstep
    exact h.touch (knows_decideRequest hknows)
  | updateRow me began =>
    cases hstep
    refine h.acceptAny ⟨hknows.1, fun hnow => ?_⟩
    obtain ⟨row, hrow⟩ := Option.isSome_iff_exists.mp (hknows.2 hnow)
    refine ⟨{ row with status := .accepted }, ?_, .inl rfl⟩
    rw [Friendship.acceptAny, Friendship.touch, hrow]
    rfl
  | insertRow me began =>
    rw [Friendship.runTask] at hstep
    cases hrow : s.row with
    | none =>
      rw [hrow] at hstep
      cases hstep
      refine .set (fun j other hj => (h.knows j other hj).grows (.trans .touch (.insert hrow)))
        rfl ⟨hknows, fun _ => ⟨_, rfl, .inr rfl⟩⟩ ?_
      rintro row ⟨⟩
      show (decide (me = me) || s.called me) = true
      simp
    | some row =>
      rw [hrow] at hstep
      cases hstep
      exact h.touch trivial
  | acceptRow me =>
    rw [Friendship.runTask] at hstep
    split_ifs at hstep
    · cases hstep
      exact h.acceptAny trivial
    · cases hstep
      exact h.touch trivial
  | deleteRow =>
    cases hstep
    refine .set (fun j other hj => (h.knows j other hj).delete) tasks_delete trivial ?_
    intro row hrow
    cases row_delete.symm.trans hrow
  | _ => cases hstep

lemma step_sound {action : FriendAction} (h : s.Sound) (hstep : s.step action = some t) :
    t.Sound := by
  cases action with
  | call me call =>
    cases hstep
    refine ⟨fun j task hj => ?_, h.requester⟩
    rcases Place.getElem?_concat_cases hj with ⟨-, rfl⟩ | hj
    · cases call with
      | request => exact le_refl s.deletions
      | _ => trivial
    · exact (h.knows j task hj).grows ⟨fun row hrow => ⟨row, hrow, rfl, id⟩, rfl⟩
  | advance i ok =>
    cases ok with
    | true =>
      obtain ⟨task, htask, hstep⟩ := Option.bind_eq_some_iff.mp hstep
      exact h.runTask htask hstep
    | false =>
      obtain ⟨task, htask, hstep⟩ := Option.bind_eq_some_iff.mp hstep
      split_ifs at hstep
      cases hstep
      exact .set h.knows rfl trivial h.requester

/-- Two requests that are answered, one by each user, do not both find their own row pending. -/
lemma Sound.mutualFriends (h : s.Sound) : s.MutualFriends := by
  intro i j me began began' status status' message message' hi hj hnow
  obtain ⟨hle, hrow⟩ : s.Stands me began := h.knows i _ hi
  obtain ⟨hle', hrow'⟩ : s.Stands me.other began' := h.knows j _ hj
  obtain ⟨row, hthere, hstands⟩ := hrow (by omega)
  obtain ⟨row', hthere', hstands'⟩ := hrow' (by omega)
  cases hthere.symm.trans hthere'
  rcases hstands with haccepted | hme
  · exact ⟨row, hthere, haccepted⟩
  · rcases hstands' with haccepted | hother
    · exact ⟨row, hthere, haccepted⟩
    · rw [hme] at hother
      cases me <;> cases hother

/-! ## Both users have called -/

lemma BothCalled.touch (h : s.BothCalled) : (s.touch me).BothCalled := by
  intro hfriends p
  show (decide (p = me) || s.called p) = true
  rw [h hfriends p, Bool.or_true]

/-- The other user has called too when the row becomes accepted. -/
lemma bothCalled_acceptAny (h : s.called me.other = true) :
    (s.touch me).acceptAny.BothCalled := by
  rintro - p
  show (decide (p = me) || s.called p) = true
  by_cases hp : p = me
  · rw [decide_eq_true hp, Bool.true_or]
  · have hother : p = me.other := by
      cases p <;> cases me <;> first | rfl | exact absurd rfl hp
    rw [hother, h, Bool.or_true]

/-- Without a row nothing is accepted. -/
lemma bothCalled_acceptAny_of_none (h : s.row = none) : (s.touch me).acceptAny.BothCalled := by
  rintro ⟨row, hrow, -⟩
  rw [acceptAny, touch, h] at hrow
  cases hrow

lemma canAccept_iff : s.canAccept me = true ↔ s.row = some ⟨.pending, me.other⟩ := by
  rw [canAccept]
  cases s.row with
  | none => simp
  | some row =>
    obtain ⟨status, requestedBy⟩ := row
    cases status <;> cases requestedBy <;> cases me <;> simp [Party.other]

/-- A row that is there is accepted, or pending by the one user or the other. -/
lemma row_cases (s : Friendship) (me : Party) : s.row = none ∨ s.areFriends ∨
    s.row = some ⟨.pending, me⟩ ∨ s.row = some ⟨.pending, me.other⟩ := by
  cases hrow : s.row with
  | none => exact .inl rfl
  | some row =>
    right
    obtain ⟨status, requestedBy⟩ := row
    cases status with
    | accepted => exact .inl ⟨_, hrow, rfl⟩
    | pending =>
      right
      cases requestedBy <;> cases me <;> simp [Party.other]

lemma NoConflict.set (h : s.NoConflict) (htasks : t.tasks = s.tasks)
    (hnew : ∀ p, task' ≠ .conflicted p p.other) : (t.setTask i task').NoConflict := by
  intro j p hj
  rw [setTask, htasks] at hj
  rcases Place.getElem?_set_cases hj with ⟨-, hconflict⟩ | ⟨-, hj⟩
  · exact hnew p hconflict.symm
  · exact h j p hj

lemma decideRequest_ne (p : Party) : s.decideRequest me began ≠ .conflicted p p.other := by
  rw [decideRequest]
  cases s.row with
  | none => simp
  | some row =>
    dsimp only
    split_ifs <;> simp

/-- An update that sees the row makes friends of users who have both called. -/
lemma bothCalled_updateRow (hsound : s.Sound) (h : s.BothCalled)
    (htask : s.tasks[i]? = some (.updateRow me began))
    (hguard : s.seesTheRow (.advance i true) = true) : (s.touch me).acceptAny.BothCalled := by
  rcases s.row_cases me with hnone | hfriends | hmine | htheirs
  · exact bothCalled_acceptAny_of_none hnone
  · exact bothCalled_acceptAny (h hfriends me.other)
  · refine bothCalled_acceptAny ?_
    simpa [seesTheRow, htask, hmine] using hguard
  · exact bothCalled_acceptAny (hsound.requester _ htheirs)

lemma runTask_good (hsound : s.Sound) (hcalled : s.BothCalled) (hconflict : s.NoConflict)
    (htask : s.tasks[i]? = some task) (hguard : s.seesTheRow (.advance i true) = true)
    (hstep : s.runTask i task = some t) : t.BothCalled ∧ t.NoConflict := by
  cases task with
  | findTarget me began =>
    cases hstep
    exact ⟨hcalled.touch, hconflict.set rfl (by simp)⟩
  | readRow me began =>
    cases hstep
    exact ⟨hcalled.touch, hconflict.set rfl decideRequest_ne⟩
  | updateRow me began =>
    cases hstep
    exact ⟨bothCalled_updateRow hsound hcalled htask hguard, hconflict.set rfl (by simp)⟩
  | insertRow me began =>
    rw [runTask] at hstep
    cases hrow : s.row with
    | none =>
      rw [hrow] at hstep
      cases hstep
      refine ⟨?_, hconflict.set rfl (by simp)⟩
      rintro ⟨row, ⟨⟩, hpending⟩
      cases hpending
    | some row =>
      rw [hrow] at hstep
      cases hstep
      have hmine : row.requestedBy = me := by
        simpa [seesTheRow, htask, hrow] using hguard
      refine ⟨hcalled.touch, hconflict.set rfl fun p hp => ?_⟩
      rw [hmine] at hp
      cases p <;> cases me <;> cases hp
  | acceptRow me =>
    rw [runTask] at hstep
    split_ifs at hstep with hcan
    · cases hstep
      have hother := hsound.requester _ (canAccept_iff.mp hcan)
      exact ⟨bothCalled_acceptAny hother, hconflict.set rfl (by simp)⟩
    · cases hstep
      exact ⟨hcalled.touch, hconflict.set rfl (by simp)⟩
  | deleteRow =>
    cases hstep
    constructor
    · rintro ⟨row, hrow, -⟩
      cases row_delete.symm.trans hrow
    · exact hconflict.set tasks_delete (by simp)
  | _ => cases hstep

/-- What the other statements of the calls need of the row, the guard does not ask. -/
lemma seesTheRow_cases {action : FriendAction} (h : s.seesTheRow action = false) :
    (∃ i me began, action = .advance i true ∧ s.tasks[i]? = some (.updateRow me began) ∧
      s.row = some ⟨.pending, me⟩ ∧ s.called me.other = false) ∨
    ∃ i me began row, action = .advance i true ∧ s.tasks[i]? = some (.insertRow me began) ∧
      s.row = some row ∧ row.requestedBy = me.other := by
  cases action with
  | call me call => cases h
  | advance i ok =>
    cases ok with
    | false => cases h
    | true =>
      cases htask : s.tasks[i]? with
      | none => simp [seesTheRow, htask] at h
      | some task =>
        cases hrow : s.row with
        | none => cases task <;> simp [seesTheRow, htask, hrow] at h
        | some row =>
          obtain ⟨status, requestedBy⟩ := row
          cases task with
          | updateRow me began =>
            simp only [seesTheRow, htask, hrow, Bool.or_eq_false_iff, decide_eq_false_iff_not,
              not_not] at h
            obtain ⟨⟨hstatus, rfl⟩, hcalled⟩ := h
            cases status with
            | accepted => exact absurd rfl hstatus
            | pending => exact .inl ⟨i, requestedBy, began, rfl, htask, rfl, hcalled⟩
          | insertRow me began =>
            simp only [seesTheRow, htask, hrow, decide_eq_false_iff_not] at h
            refine .inr ⟨i, me, began, _, rfl, htask, rfl, ?_⟩
            cases requestedBy <;> cases me <;> first | rfl | exact absurd rfl h
          | _ => simp [seesTheRow, htask] at h

/-- An update that does not see the row makes a friend of a user who has not called, and an insert
that does not see it fails. -/
lemma not_needsBoth {action : FriendAction} (h : s.seesTheRow action = false)
    (hstep : s.step action = some t) : ¬ t.NeedsBoth := by
  rintro ⟨hcalled, hconflict, -⟩
  rcases seesTheRow_cases h with ⟨i, me, began, rfl, htask, hrow, hnot⟩ |
    ⟨i, me, began, row, rfl, htask, hrow, hother⟩
  · obtain ⟨task, htask', hrun⟩ := Option.bind_eq_some_iff.mp hstep
    cases htask.symm.trans htask'
    cases hrun
    have hfriends : (s.touch me).acceptAny.areFriends := by
      refine ⟨⟨.accepted, me⟩, ?_, rfl⟩
      rw [acceptAny, touch, hrow]
      rfl
    have hboth : (decide (me.other = me) || s.called me.other) = true := hcalled hfriends me.other
    rw [hnot] at hboth
    cases me <;> simp [Party.other] at hboth
  · obtain ⟨task, htask', hrun⟩ := Option.bind_eq_some_iff.mp hstep
    cases htask.symm.trans htask'
    rw [runTask, hrow] at hrun
    cases hrun
    refine hconflict i me ?_
    rw [← hother]
    exact Place.getElem?_set_here htask

lemma start_sound : start.Sound where
  knows := by
    intro j task hj
    cases hj
  requester := by
    intro row hrow
    cases hrow

/-- **A friendship needs both users exactly in the runs in which every request sees the row that
it writes.** -/
theorem friendship_iff {as : List FriendAction} (h : Run (ofPartial step) start as t) :
    (∀ pre u, pre <+: as → Run (ofPartial step) start pre u → u.NeedsBoth) ↔
      Run (Guarded (ofPartial step) fun s action => s.seesTheRow action = true) start as t := by
  refine (Run.guarded_iff_prefixes (P := NeedsBoth)
    (I := fun s => s.Sound ∧ s.BothCalled ∧ s.NoConflict) ?_ ?_ ?_ h ?_).symm
  · rintro s action t ⟨hsound, hcalled, hconflict⟩ hguard hstep
    refine ⟨step_sound hsound hstep, ?_⟩
    cases action with
    | call me call =>
      cases hstep
      refine ⟨hcalled, fun j p hj => ?_⟩
      rcases Place.getElem?_concat_cases hj with ⟨-, harrival⟩ | hj
      · cases call <;> cases harrival
      · exact hconflict j p hj
    | advance i ok =>
      cases ok with
      | true =>
        obtain ⟨task, htask, hstep⟩ := Option.bind_eq_some_iff.mp hstep
        exact runTask_good hsound hcalled hconflict htask hguard hstep
      | false =>
        obtain ⟨task, htask, hstep⟩ := Option.bind_eq_some_iff.mp hstep
        split_ifs at hstep
        cases hstep
        exact ⟨hcalled, hconflict.set rfl (by simp)⟩
  · rintro s ⟨hsound, hcalled, hconflict⟩
    exact ⟨hcalled, hconflict, hsound.mutualFriends⟩
  · rintro s action t - hguard hstep
    exact not_needsBoth hguard hstep
  · refine ⟨start_sound, ?_, ?_⟩
    · rintro ⟨row, hrow, -⟩
      cases hrow
    · intro j p hj
      cases hj

section Samples

/-- Both users request each other, one after the other. -/
def mutualRequests : List FriendAction :=
  [.call .low .request, .advance 0 true, .advance 0 true, .advance 0 true, .call .high .request,
    .advance 1 true, .advance 1 true, .advance 1 true]

theorem friendship_sample :
    ∃ t, Run (ofPartial step) start mutualRequests t ∧
      ((∀ pre u, pre <+: mutualRequests → Run (ofPartial step) start pre u → u.NeedsBoth) ↔
        Run (Guarded (ofPartial step) fun s action => s.seesTheRow action = true) start
          mutualRequests t) := by
  have hrun : ∃ t, Run (ofPartial step) start mutualRequests t ∧
      t.row = some ⟨.accepted, .low⟩ := Run.exists_of_decide (by decide)
  obtain ⟨t, hrun, -⟩ := hrun
  exact ⟨t, hrun, friendship_iff hrun⟩

/-- A request has read the row that the other user withdraws, and comes over one that its own user
has requested meanwhile. -/
def staleRequest : List FriendAction :=
  [.call .low .request, .advance 0 true, .advance 0 true, .advance 0 true, .call .high .request,
    .advance 1 true, .advance 1 true, .call .low .remove, .advance 2 true, .call .high .request,
    .advance 3 true, .advance 3 true, .advance 3 true, .advance 1 true]

/-- **Two users are friends, and one of them has only withdrawn the request.** -/
theorem friends_without_asking :
    ∃ t, Run (ofPartial step) start staleRequest t ∧ t.row = some ⟨.accepted, .high⟩ ∧
      t.called .low = false ∧
      ¬ ∀ pre u, pre <+: staleRequest → Run (ofPartial step) start pre u → u.NeedsBoth := by
  have hrun : ∃ t, Run (ofPartial step) start staleRequest t ∧
      (t.row = some ⟨.accepted, .high⟩ ∧ t.called .low = false) :=
    Run.exists_of_decide (by decide)
  obtain ⟨t, hrun, hrow, hnot⟩ := hrun
  refine ⟨t, hrun, hrow, hnot, fun hall => ?_⟩
  have hcalled := (hall _ t (List.prefix_refl _) hrun).called ⟨_, hrow, rfl⟩ .low
  rw [hnot] at hcalled
  cases hcalled

end Samples

end Friendship

end VoxTranslate.Account
