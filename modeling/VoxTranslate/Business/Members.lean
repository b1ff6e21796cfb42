import VoxTranslate.Base
import VoxTranslate.Engine.Qwen
import VoxTranslate.Lib.Assoc
import VoxTranslate.Lib.Place
import VoxTranslate.Lib.Run

/-!
# Members and invites (`business/members.rs`)

An invite is redeemed in one transaction, statement by statement, at the isolation level of the
database: a statement reads what has been committed, and what other transactions are about to
write is not there yet.  Two things make a statement wait: the row of the invite, which is locked
until the transaction ends, and a row for the same member that another transaction has inserted.
-/

namespace VoxTranslate.Business

open Lib
open Engine (Text)

/-- `organization_members.role`. -/
inductive OrgRole where
  | owner
  | admin
  | member
  | guest
  deriving DecidableEq, Repr

/-- `role_rank`. -/
def OrgRole.rank : OrgRole → Nat
  | .owner => 3
  | .admin => 2
  | .member => 1
  | .guest => 0

/-- A row of `organization_invites`, as far as `accept_invite` reads it. -/
structure Invite where
  role : OrgRole
  email : String
  acceptedAt : Option Timestamp
  expiresAt : Timestamp
  deriving DecidableEq, Repr

structure AuthUser where
  userId : Uuid
  email : String
  deriving DecidableEq, Repr

/-- What decides how many members an organisation may have. -/
structure SeatRules where
  /-- The plan is `enterprise`. -/
  enterprise : Bool
  businessMemberLimit : Int

/-- `eq_ignore_ascii_case` of the trimmed addresses. -/
def sameAddress (a b : String) : Bool :=
  (Text.trim a.toList).map Char.toLower = (Text.trim b.toList).map Char.toLower

/-- What the statements of an acceptance share. -/
structure Accept where
  user : AuthUser
  token : String
  /-- `now()` of the transaction. -/
  began : Timestamp
  role : OrgRole
  deriving DecidableEq, Repr

/-- The members when a transaction looked last.  Of this the code keeps only what it decided. -/
structure Look where
  seen : Nat
  /-- How many had been added before, and how many removed. -/
  joins : Nat
  removals : Nat
  /-- It compared them with the limit. -/
  counted : Bool
  deriving DecidableEq, Repr

/-- A request at the statement that it sends next. -/
inductive MemberTask where
  /-- `SELECT ... FOR UPDATE` of the invite. -/
  | lockInvite (user : AuthUser) (token : String)
  | checkMember (a : Accept)
  | countSeats (a : Accept)
  | insertMember (a : Accept) (look : Look)
  /-- The insert has added a row or found one, when `left` members had been removed. -/
  | markAccepted (a : Accept) (look : Look) (added : Bool) (left : Nat)
  | commit (a : Accept) (look : Look) (added : Bool) (left : Nat)
  | accepted (a : Accept) (left : Nat)
  | removeRole (caller target : Uuid)
  | removeDelete (target : Uuid)
  | removeWhy (target : Uuid)
  | removed
  | refused (status : Nat) (message : String)
  deriving DecidableEq, Repr

namespace MemberTask

/-- The invite whose row is locked. -/
def holds : MemberTask → Option String
  | .checkMember a | .countSeats a | .insertMember a _ | .markAccepted a _ _ _
  | .commit a _ _ _ => some a.token
  | _ => none

/-- The member whose row was inserted and not committed. -/
def adds : MemberTask → Option Uuid
  | .markAccepted a _ true _ | .commit a _ true _ => some a.user.userId
  | _ => none

/-- What the transaction saw when it looked. -/
def lookOf : MemberTask → Option Look
  | .insertMember _ look | .markAccepted _ look _ _ | .commit _ look _ _ => some look
  | _ => none

/-- The member that was inserted or found, whether a row is to be added, and how many had been
removed by then. -/
def inserted : MemberTask → Option (Uuid × Bool × Nat)
  | .markAccepted a _ added left | .commit a _ added left => some (a.user.userId, added, left)
  | .accepted a left => some (a.user.userId, false, left)
  | _ => none

/-- The invite that was accepted. -/
def acceptedToken : MemberTask → Option String
  | .accepted a _ => some a.token
  | _ => none

end MemberTask

/-- An organisation with its members and invites. -/
structure OrgMembers where
  members : Assoc Uuid OrgRole
  invites : Assoc String Invite
  now : Timestamp
  tasks : List MemberTask
  /-- Who was added and who was removed, newest first. -/
  joins : List Uuid
  removals : List Uuid

inductive MemberRequest where
  | accept (user : AuthUser) (token : String)
  | remove (caller target : Uuid)

inductive MemberAction where
  | elapse (d : Nat)
  | request (request : MemberRequest)
  /-- The next statement of request `i`; it may fail. -/
  | advance (i : Nat) (ok : Bool)

namespace OrgMembers

/-- Before any request. -/
def start (members : Assoc Uuid OrgRole) (invites : Assoc String Invite) (now : Timestamp) :
    OrgMembers :=
  ⟨members, invites, now, [], [], []⟩

def size (s : OrgMembers) : Nat := s.members.entries.length

def setTask (s : OrgMembers) (i : Nat) (task : MemberTask) : OrgMembers :=
  { s with tasks := s.tasks.set i task }

/-- What a transaction that looks now sees. -/
def look (s : OrgMembers) (counted : Bool) : Look :=
  ⟨s.size, s.joins.length, s.removals.length, counted⟩

/-- The checks on the invite that was read. -/
def checkInvite (s : OrgMembers) (user : AuthUser) (token : String) : MemberTask :=
  match s.invites.lookup token with
  | none => .refused 404 "invite not found"
  | some inv =>
    if inv.acceptedAt.isSome then .refused 410 "invite already accepted"
    else if inv.expiresAt < s.now then .refused 410 "invite expired"
    else if !sameAddress inv.email user.email then
      .refused 403 "this invite was issued for a different email address"
    else .checkMember ⟨user, token, s.now, inv.role⟩

/-- The checks of `remove` on the role of the caller. -/
def checkCaller (s : OrgMembers) (caller target : Uuid) : MemberTask :=
  match s.members.lookup caller with
  | none => .refused 404 "organization not found"
  | some role =>
    if role.rank < OrgRole.member.rank then .refused 403 "insufficient role"
    else if target ≠ caller ∧ role.rank < OrgRole.admin.rank then
      .refused 403 "only owners/admins can remove members"
    else .removeDelete target

/-- `COMMIT` of an acceptance. -/
def commitAccept (s : OrgMembers) (a : Accept) (added : Bool) : OrgMembers :=
  { s with
    members := if added then s.members.insert a.user.userId a.role else s.members
    joins := if added then a.user.userId :: s.joins else s.joins
    invites := s.invites.alter a.token fun inv =>
      inv.map fun inv => { inv with acceptedAt := some a.began } }

/-- `DELETE FROM organization_members`. -/
def delete (s : OrgMembers) (target : Uuid) : OrgMembers :=
  { s with members := s.members.erase target, removals := target :: s.removals }

variable (rules : SeatRules)

/-- The statement of a request that goes well. -/
def runTask (s : OrgMembers) (i : Nat) : MemberTask → Option OrgMembers
  | .lockInvite user token =>
    -- the row is locked by another transaction
    if s.tasks.any fun task => task.holds = some token then none
    else some (s.setTask i (s.checkInvite user token))
  | .checkMember a =>
    some (s.setTask i (if (s.members.lookup a.user.userId).isSome then
      .insertMember a (s.look false) else .countSeats a))
  | .countSeats a =>
    some (s.setTask i (if !rules.enterprise && rules.businessMemberLimit ≤ s.size then
      .refused 409 "this organization has reached its Business-plan member limit"
      else .insertMember a (s.look true)))
  | .insertMember a look =>
    -- another transaction has inserted the row of this member
    if s.tasks.any fun task => task.adds = some a.user.userId then none
    else
      some (s.setTask i (.markAccepted a look (s.members.lookup a.user.userId).isNone
        s.removals.length))
  | .markAccepted a look added left => some (s.setTask i (.commit a look added left))
  | .commit a _ added left => some ((s.commitAccept a added).setTask i (.accepted a left))
  | .removeRole caller target => some (s.setTask i (s.checkCaller caller target))
  | .removeDelete target =>
    match s.members.lookup target with
    | none | some .owner => some (s.setTask i (.removeWhy target))
    | some _ => some ((s.delete target).setTask i .removed)
  | .removeWhy target =>
    some (s.setTask i (if s.members.lookup target = some .owner then
      .refused 403 "cannot remove the organization owner"
      else .refused 404 "member not found"))
  | .accepted _ _ | .removed | .refused _ _ => none

/-- A request has a statement to send. -/
def unanswered : MemberTask → Bool
  | .accepted _ _ | .removed | .refused _ _ => false
  | _ => true

def arrival : MemberRequest → MemberTask
  | .accept user token => .lockInvite user token
  | .remove caller target => .removeRole caller target

def step (s : OrgMembers) : MemberAction → Option OrgMembers
  | .elapse d => some { s with now := s.now + d }
  | .request request => some { s with tasks := s.tasks ++ [arrival request] }
  | .advance i true => do
    let task ← s.tasks[i]?
    s.runTask rules i task
  | .advance i false => do
    let task ← s.tasks[i]?
    -- the transaction is rolled back
    if unanswered task then some (s.setTask i (.refused 500 "db error")) else none

/-! ## What is asked of the members -/

/-- The member was removed after `left` others had been. -/
def RemovedSince (s : OrgMembers) (left : Nat) (userId : Uuid) : Prop :=
  userId ∈ s.removals.take (s.removals.length - left)

/-- No invite was accepted twice. -/
def AcceptedOnce (s : OrgMembers) : Prop := Place.Keyed MemberTask.acceptedToken s.tasks

/-- Who has accepted is a member, or was removed since. -/
def StaysMember (s : OrgMembers) : Prop :=
  ∀ (i : Nat) a left, s.tasks[i]? = some (MemberTask.accepted a left) →
    (s.members.lookup a.user.userId).isSome = true ∨ s.RemovedSince left a.user.userId

/-- Members are not added beyond the limit. -/
def WithinCap (s t : OrgMembers) : Prop :=
  s.size < t.size → (t.size : Int) ≤ rules.businessMemberLimit

/-- An acceptance that adds a member commits when nobody was added since it has counted, or when
the seats that it saw free, and those given back since, are more than were taken since. -/
def seatIsFree (s : OrgMembers) : MemberAction → Bool
  | .advance i true =>
    match s.tasks[i]? with
    | some (.commit _ look true _) =>
      look.counted && look.joins = s.joins.length ||
        decide ((s.joins.length - look.joins : Int) <
          rules.businessMemberLimit - look.seen + (s.removals.length - look.removals))
    | _ => true
  | _ => true

/-! ## What a transaction knows -/

/-- What a transaction saw, with who came and went since, is what there is. -/
structure LookOk (s : OrgMembers) (l : Look) : Prop where
  balance : s.size + s.removals.length + l.joins = l.seen + l.removals + s.joins.length
  joins : l.joins ≤ s.joins.length
  removals : l.removals ≤ s.removals.length
  counted : l.counted = true → rules.enterprise = false → (l.seen : Int) < rules.businessMemberLimit

structure TaskOk (s : OrgMembers) (task : MemberTask) : Prop where
  invite : ∀ token, task.holds = some token →
    ∃ inv, s.invites.lookup token = some inv ∧ inv.acceptedAt = none
  fresh : ∀ u, task.adds = some u → s.members.lookup u = none
  look : ∀ l, task.lookOf = some l → LookOk rules s l
  there : ∀ u added left, task.inserted = some (u, added, left) → left ≤ s.removals.length ∧
    (added = true ∨ (s.members.lookup u).isSome = true ∨ s.RemovedSince left u)
  spent : ∀ token, task.acceptedToken = some token →
    ∃ inv, s.invites.lookup token = some inv ∧ inv.acceptedAt.isSome = true

structure Sound (s : OrgMembers) : Prop where
  ok : ∀ (i : Nat) (task : MemberTask), s.tasks[i]? = some task → TaskOk rules s task
  locks : Place.Keyed MemberTask.holds s.tasks
  adds : Place.Keyed MemberTask.adds s.tasks
  once : s.AcceptedOnce

variable {rules} {s t : OrgMembers} {i : Nat} {task task' : MemberTask} {a : Accept} {l : Look}
  {target : Uuid}

/-- A task that knows nothing. -/
lemma TaskOk.of_none (hholds : task.holds = none) (hadds : task.adds = none)
    (hlook : task.lookOf = none) (hinserted : task.inserted = none)
    (haccepted : task.acceptedToken = none) : TaskOk rules s task where
  invite := by simp [hholds]
  fresh := by simp [hadds]
  look := by simp [hlook]
  there := by simp [hinserted]
  spent := by simp [haccepted]

lemma TaskOk.refused (status : Nat) (message : String) :
    TaskOk rules s (.refused status message) := .of_none rfl rfl rfl rfl rfl

lemma lookOk_look {counted : Bool}
    (h : counted = true → rules.enterprise = false → (s.size : Int) < rules.businessMemberLimit) :
    LookOk rules s (s.look counted) where
  balance := rfl
  joins := le_refl _
  removals := le_refl _
  counted := h

/-- What a transaction knows depends on the members and the invites. -/
lemma TaskOk.frame (h : TaskOk rules s task) (hmembers : t.members = s.members)
    (hinvites : t.invites = s.invites) (hjoins : t.joins = s.joins)
    (hremovals : t.removals = s.removals) : TaskOk rules t task where
  invite := by
    rw [hinvites]
    exact h.invite
  fresh := by
    rw [hmembers]
    exact h.fresh
  look := by
    intro l hl
    obtain ⟨hbalance, hjoins', hremovals', hcounted⟩ := h.look l hl
    refine ⟨?_, ?_, ?_, hcounted⟩
    · rw [size, hmembers, hremovals, hjoins]
      exact hbalance
    · rw [hjoins]
      exact hjoins'
    · rw [hremovals]
      exact hremovals'
  there := by
    intro u added left hinserted
    rw [hmembers, RemovedSince, hremovals]
    exact h.there u added left hinserted
  spent := by
    rw [hinvites]
    exact h.spent

lemma TaskOk.setTask (h : TaskOk rules s task) : TaskOk rules (s.setTask i task') task :=
  h.frame rfl rfl rfl rfl

lemma Sound.ok_setTask (h : s.Sound rules) (hok : TaskOk rules s task') (j : Nat)
    (other : MemberTask) (hj : (s.setTask i task').tasks[j]? = some other) :
    TaskOk rules (s.setTask i task') other := by
  rcases Place.getElem?_set_cases hj with ⟨-, rfl⟩ | ⟨-, hj⟩
  · exact hok.setTask
  · exact (h.ok j other hj).setTask

/-- A request goes on, and nothing else changes. -/
lemma Sound.setTask (h : s.Sound rules) (htask : s.tasks[i]? = some task)
    (hok : TaskOk rules s task') (hholds : task'.holds = none ∨ task'.holds = task.holds)
    (hadds : task'.adds = none ∨ task'.adds = task.adds) (haccepted : task'.acceptedToken = none) :
    (s.setTask i task').Sound rules where
  ok := h.ok_setTask hok
  locks := h.locks.set htask hholds
  adds := h.adds.set htask hadds
  once := Place.Keyed.set h.once htask (.inl haccepted)

lemma Sound.refuse (h : s.Sound rules) (htask : s.tasks[i]? = some task) (status : Nat)
    (message : String) : (s.setTask i (.refused status message)).Sound rules :=
  h.setTask htask (.refused status message) (.inl rfl) (.inl rfl) rfl

/-! ## The statements of an acceptance -/

lemma checkInvite_cases (user : AuthUser) (token : String) :
    (∃ status message, s.checkInvite user token = .refused status message) ∨
      ∃ a inv, s.checkInvite user token = .checkMember a ∧ a.token = token ∧
        s.invites.lookup token = some inv ∧ inv.acceptedAt = none := by
  rw [checkInvite]
  cases hinv : s.invites.lookup token with
  | none => exact .inl ⟨_, _, rfl⟩
  | some inv =>
    dsimp only
    split_ifs with haccepted
    · exact .inl ⟨_, _, rfl⟩
    · exact .inl ⟨_, _, rfl⟩
    · exact .inl ⟨_, _, rfl⟩
    · exact .inr ⟨_, inv, rfl, rfl, rfl, by simpa using haccepted⟩

/-- A transaction that holds the invite has added nobody and has not looked. -/
lemma TaskOk.holding {token : String} {inv : Invite} (hholds : task.holds = some token)
    (hinv : s.invites.lookup token = some inv) (hnone : inv.acceptedAt = none)
    (hadds : task.adds = none) (hlook : ∀ l, task.lookOf = some l → LookOk rules s l)
    (hinserted : task.inserted = none) (haccepted : task.acceptedToken = none) :
    TaskOk rules s task where
  invite := by
    intro token' htoken'
    rw [hholds] at htoken'
    cases htoken'
    exact ⟨inv, hinv, hnone⟩
  fresh := by simp [hadds]
  look := hlook
  there := by simp [hinserted]
  spent := by simp [haccepted]

lemma Sound.lockInvite (h : s.Sound rules) {user : AuthUser} {token : String}
    (htask : s.tasks[i]? = some (.lockInvite user token))
    (hfree : (s.tasks.any fun task => task.holds = some token) = false) :
    (s.setTask i (s.checkInvite user token)).Sound rules := by
  obtain ⟨status, message, hcheck⟩ | ⟨a, inv, hcheck, rfl, hinv, hnone⟩ :=
    checkInvite_cases (s := s) user token
  · rw [hcheck]
    exact h.refuse htask status message
  · rw [hcheck]
    have hok : TaskOk rules s (.checkMember a) :=
      .holding rfl hinv hnone rfl (fun l hl => by cases hl) rfl rfl
    refine ⟨h.ok_setTask hok, ?_, h.adds.set htask (.inl rfl),
      Place.Keyed.set h.once htask (.inl rfl)⟩
    refine h.locks.set_fresh fun j other c hj _ hc hc' => ?_
    cases hc
    rw [List.any_eq_false] at hfree
    exact hfree other (List.mem_of_getElem? hj) (by simpa using hc')

lemma Sound.checkMember (h : s.Sound rules) (htask : s.tasks[i]? = some (.checkMember a)) :
    (s.setTask i (if (s.members.lookup a.user.userId).isSome then
      .insertMember a (s.look false) else .countSeats a)).Sound rules := by
  obtain ⟨inv, hinv, hnone⟩ := (h.ok i _ htask).invite a.token rfl
  split_ifs
  · refine h.setTask htask (.holding rfl hinv hnone rfl (fun l hl => ?_) rfl rfl) (.inr rfl)
      (.inl rfl) rfl
    cases hl
    exact lookOk_look fun hcounted => by cases hcounted
  · exact h.setTask htask (.holding rfl hinv hnone rfl (fun l hl => by cases hl) rfl rfl) (.inr rfl)
      (.inl rfl) rfl

lemma Sound.countSeats (h : s.Sound rules) (htask : s.tasks[i]? = some (.countSeats a)) :
    (s.setTask i (if !rules.enterprise && rules.businessMemberLimit ≤ s.size then
      .refused 409 "this organization has reached its Business-plan member limit"
      else .insertMember a (s.look true))).Sound rules := by
  obtain ⟨inv, hinv, hnone⟩ := (h.ok i _ htask).invite a.token rfl
  split_ifs with hfull
  · exact h.refuse htask _ _
  · refine h.setTask htask (.holding rfl hinv hnone rfl (fun l hl => ?_) rfl rfl) (.inr rfl)
      (.inl rfl) rfl
    cases hl
    refine lookOk_look fun _ hplan => ?_
    simpa [hplan] using hfull

lemma Sound.insertMember (h : s.Sound rules) (htask : s.tasks[i]? = some (.insertMember a l))
    (hfree : (s.tasks.any fun task => task.adds = some a.user.userId) = false) :
    (s.setTask i (.markAccepted a l (s.members.lookup a.user.userId).isNone
      s.removals.length)).Sound rules := by
  obtain ⟨inv, hinv, hnone⟩ := (h.ok i _ htask).invite a.token rfl
  have hlook := (h.ok i _ htask).look l rfl
  refine ⟨h.ok_setTask ⟨?_, ?_, ?_, ?_, ?_⟩, h.locks.set htask (.inr rfl), ?_,
    Place.Keyed.set h.once htask (.inl rfl)⟩
  · intro token htoken
    cases htoken
    exact ⟨inv, hinv, hnone⟩
  · intro u hu
    cases hmember : s.members.lookup a.user.userId with
    | some role =>
      rw [hmember] at hu
      cases hu
    | none =>
      rw [hmember] at hu
      cases hu
      exact hmember
  · intro l' hl'
    cases hl'
    exact hlook
  · intro u added left hinserted
    cases hinserted
    refine ⟨le_refl _, ?_⟩
    cases s.members.lookup a.user.userId with
    | none => exact .inl rfl
    | some role => exact .inr (.inl rfl)
  · intro token htoken
    cases htoken
  · refine h.adds.set_fresh fun j other u hj _ hu hu' => ?_
    have huser : u = a.user.userId := by
      cases hmember : s.members.lookup a.user.userId with
      | some role =>
        rw [hmember] at hu
        cases hu
      | none =>
        rw [hmember] at hu
        cases hu
        rfl
    rw [List.any_eq_false] at hfree
    exact hfree other (List.mem_of_getElem? hj) (by simpa [huser] using hu')

lemma Sound.markAccepted (h : s.Sound rules) {added : Bool} {left : Nat}
    (htask : s.tasks[i]? = some (.markAccepted a l added left)) :
    (s.setTask i (.commit a l added left)).Sound rules := by
  have hok := h.ok i _ htask
  refine h.setTask htask ⟨hok.invite, ?_, hok.look, hok.there, hok.spent⟩ (.inr rfl) (.inr ?_) rfl
  · intro u hu
    refine hok.fresh u ?_
    cases added with
    | true => exact hu
    | false => cases hu
  · cases added <;> rfl

/-! ## The two writes -/

lemma isSome_commitAccept {added : Bool} {u : Uuid} (h : (s.members.lookup u).isSome = true) :
    ((s.commitAccept a added).members.lookup u).isSome = true := by
  cases added with
  | false => exact h
  | true =>
    show ((s.members.insert a.user.userId a.role).lookup u).isSome = true
    by_cases hu : u = a.user.userId
    · rw [hu, AList.lookup_insert]
      rfl
    · rw [AList.lookup_insert_ne hu]
      exact h

lemma spent_commitAccept {added : Bool} {token : String}
    (h : ∃ inv, s.invites.lookup token = some inv ∧ inv.acceptedAt.isSome = true) :
    ∃ inv, (s.commitAccept a added).invites.lookup token = some inv ∧
      inv.acceptedAt.isSome = true := by
  obtain ⟨inv, hinv, hspent⟩ := h
  by_cases htoken : token = a.token
  · subst htoken
    refine ⟨{ inv with acceptedAt := some a.began }, ?_, rfl⟩
    rw [OrgMembers.commitAccept, Assoc.lookup_alter_self, hinv]
    rfl
  · refine ⟨inv, ?_, hspent⟩
    rw [OrgMembers.commitAccept, Assoc.lookup_alter_of_ne htoken]
    exact hinv

/-- One more member, and one more who was added. -/
lemma size_commitAccept (hnew : s.members.lookup a.user.userId = none) :
    (s.commitAccept a true).size = s.size + 1 := Assoc.length_insert hnew a.role

/-- Other transactions know what they knew when an acceptance commits. -/
lemma TaskOk.commitAccept {added : Bool} (hok : TaskOk rules s task)
    (hholds : task.holds ≠ some a.token) (hadds : added = true → task.adds ≠ some a.user.userId)
    (hnew : added = true → s.members.lookup a.user.userId = none) :
    TaskOk rules (s.commitAccept a added) task where
  invite := by
    intro token htoken
    have hne : token ≠ a.token := by
      rintro rfl
      exact hholds htoken
    rw [OrgMembers.commitAccept, Assoc.lookup_alter_of_ne hne]
    exact hok.invite token htoken
  fresh := by
    intro u hu
    cases added with
    | false => exact hok.fresh u hu
    | true =>
      have hne : u ≠ a.user.userId := by
        rintro rfl
        exact hadds rfl hu
      show (s.members.insert a.user.userId a.role).lookup u = none
      rw [AList.lookup_insert_ne hne]
      exact hok.fresh u hu
  look := by
    intro l hl
    obtain ⟨hbalance, hjoins, hremovals, hcounted⟩ := hok.look l hl
    cases added with
    | false => exact ⟨hbalance, hjoins, hremovals, hcounted⟩
    | true =>
      have hsize := size_commitAccept (hnew rfl)
      refine ⟨?_, Nat.le_succ_of_le hjoins, hremovals, hcounted⟩
      show (s.commitAccept a true).size + s.removals.length + l.joins =
        l.seen + l.removals + (s.joins.length + 1)
      omega
  there := by
    intro u added' left hinserted
    obtain ⟨hleft, hthere⟩ := hok.there u added' left hinserted
    refine ⟨hleft, ?_⟩
    rcases hthere with hadded | hmember | hremoved
    · exact .inl hadded
    · exact .inr (.inl (isSome_commitAccept hmember))
    · exact .inr (.inr hremoved)
  spent := fun token htoken => spent_commitAccept (hok.spent token htoken)

lemma Sound.commit (h : s.Sound rules) {added : Bool} {left : Nat}
    (htask : s.tasks[i]? = some (.commit a l added left)) :
    ((s.commitAccept a added).setTask i (.accepted a left)).Sound rules := by
  have hok := h.ok i _ htask
  obtain ⟨inv, hinv, hnone⟩ := hok.invite a.token rfl
  have hnew : added = true → s.members.lookup a.user.userId = none := by
    rintro rfl
    exact hok.fresh _ rfl
  have hothers : ∀ (j : Nat) (other : MemberTask), s.tasks[j]? = some other → j ≠ i →
      TaskOk rules (s.commitAccept a added) other := by
    intro j other hj hne
    refine (h.ok j other hj).commitAccept (fun hholds => ?_) ?_ hnew
    · exact hne (h.locks j i other _ a.token hj htask hholds rfl)
    · rintro rfl hadds
      exact hne (h.adds j i other _ a.user.userId hj htask hadds rfl)
  have hself : TaskOk rules (s.commitAccept a added) (.accepted a left) := by
    refine ⟨?_, ?_, ?_, ?_, ?_⟩
    · intro token htoken
      cases htoken
    · intro u hu
      cases hu
    · intro l hl
      cases hl
    · intro u added' left' hinserted
      cases hinserted
      obtain ⟨hleft, hthere⟩ := hok.there a.user.userId added left rfl
      refine ⟨hleft, .inr ?_⟩
      rcases hthere with rfl | hmember | hremoved
      · left
        show ((s.members.insert a.user.userId a.role).lookup a.user.userId).isSome = true
        rw [AList.lookup_insert]
        rfl
      · exact .inl (isSome_commitAccept hmember)
      · exact .inr hremoved
    · intro token htoken
      cases htoken
      refine ⟨{ inv with acceptedAt := some a.began }, ?_, rfl⟩
      rw [OrgMembers.commitAccept, Assoc.lookup_alter_self, hinv]
      rfl
  refine ⟨?_, h.locks.set htask (.inl rfl), h.adds.set htask (.inl rfl), ?_⟩
  · intro j other hj
    rcases Place.getElem?_set_cases hj with ⟨-, rfl⟩ | ⟨hne, hj⟩
    · exact hself.setTask
    · exact (hothers j other hj hne).setTask
  · refine Place.Keyed.set_fresh h.once fun j other token hj _ htoken hother => ?_
    -- the invite of this acceptance was not accepted before
    cases htoken
    obtain ⟨inv', hinv', hspent⟩ := (h.ok j other hj).spent a.token hother
    rw [hinv] at hinv'
    cases hinv'
    rw [hnone] at hspent
    cases hspent

lemma mem_delete_of_removedSince {u : Uuid} {left : Nat} (hleft : left ≤ s.removals.length)
    (h : s.RemovedSince left u ∨ u = target) : (s.delete target).RemovedSince left u := by
  show u ∈ (target :: s.removals).take (s.removals.length + 1 - left)
  have hlength : s.removals.length + 1 - left = s.removals.length - left + 1 := by omega
  rw [hlength, List.take_succ_cons, List.mem_cons]
  rcases h with hremoved | rfl
  · exact .inr hremoved
  · exact .inl rfl

/-- Transactions know what they knew when a member is removed. -/
lemma TaskOk.delete {role : OrgRole} (hok : TaskOk rules s task)
    (hmember : s.members.lookup target = some role) : TaskOk rules (s.delete target) task where
  invite := hok.invite
  fresh := by
    intro u hu
    show (s.members.erase target).lookup u = none
    by_cases hne : u = target
    · rw [hne, AList.lookup_erase]
    · rw [AList.lookup_erase_ne hne]
      exact hok.fresh u hu
  look := by
    intro l hl
    obtain ⟨hbalance, hjoins, hremovals, hcounted⟩ := hok.look l hl
    have hsize : s.size = (s.delete target).size + 1 := Assoc.length_erase hmember
    refine ⟨?_, hjoins, Nat.le_succ_of_le hremovals, hcounted⟩
    show (s.delete target).size + (s.removals.length + 1) + l.joins =
      l.seen + l.removals + s.joins.length
    omega
  there := by
    intro u added left hinserted
    obtain ⟨hleft, hthere⟩ := hok.there u added left hinserted
    refine ⟨Nat.le_succ_of_le hleft, ?_⟩
    rcases hthere with hadded | hthere | hremoved
    · exact .inl hadded
    · by_cases hne : u = target
      · exact .inr (.inr (mem_delete_of_removedSince hleft (.inr hne)))
      · refine .inr (.inl ?_)
        show ((s.members.erase target).lookup u).isSome = true
        rw [AList.lookup_erase_ne hne]
        exact hthere
    · exact .inr (.inr (mem_delete_of_removedSince hleft (.inl hremoved)))
  spent := hok.spent

lemma Sound.removeDelete (h : s.Sound rules) (htask : s.tasks[i]? = some (.removeDelete target))
    (hstep : s.runTask rules i (.removeDelete target) = some t) : t.Sound rules := by
  rw [runTask] at hstep
  split at hstep
  · cases hstep
    exact h.setTask htask (.of_none rfl rfl rfl rfl rfl) (.inl rfl) (.inl rfl) rfl
  · cases hstep
    exact h.setTask htask (.of_none rfl rfl rfl rfl rfl) (.inl rfl) (.inl rfl) rfl
  · next role _ hmember =>
    cases hstep
    refine ⟨?_, h.locks.set htask (.inl rfl), h.adds.set htask (.inl rfl),
      Place.Keyed.set h.once htask (.inl rfl)⟩
    intro j other hj
    rcases Place.getElem?_set_cases hj with ⟨-, rfl⟩ | ⟨-, hj⟩
    · exact TaskOk.of_none rfl rfl rfl rfl rfl
    · exact ((h.ok j other hj).delete hmember).setTask

lemma Sound.removeRole (h : s.Sound rules) {caller : Uuid}
    (htask : s.tasks[i]? = some (.removeRole caller target)) :
    (s.setTask i (s.checkCaller caller target)).Sound rules := by
  rw [checkCaller]
  cases s.members.lookup caller with
  | none => exact h.refuse htask _ _
  | some role =>
    dsimp only
    split_ifs
    · exact h.refuse htask _ _
    · exact h.refuse htask _ _
    · exact h.setTask htask (.of_none rfl rfl rfl rfl rfl) (.inl rfl) (.inl rfl) rfl

lemma Sound.runTask (h : s.Sound rules) (htask : s.tasks[i]? = some task)
    (hstep : s.runTask rules i task = some t) : t.Sound rules := by
  cases task with
  | lockInvite user token =>
    rw [OrgMembers.runTask] at hstep
    split_ifs at hstep with hlocked
    cases hstep
    exact h.lockInvite htask (by simpa using hlocked)
  | checkMember a =>
    cases hstep
    exact h.checkMember htask
  | countSeats a =>
    cases hstep
    exact h.countSeats htask
  | insertMember a look =>
    rw [OrgMembers.runTask] at hstep
    split_ifs at hstep with hwaits
    cases hstep
    exact h.insertMember htask (by simpa using hwaits)
  | markAccepted a look added left =>
    cases hstep
    exact h.markAccepted htask
  | commit a look added left =>
    cases hstep
    exact h.commit htask
  | removeRole caller target =>
    cases hstep
    exact h.removeRole htask
  | removeDelete target => exact h.removeDelete htask hstep
  | removeWhy target =>
    cases hstep
    split_ifs <;> exact h.refuse htask _ _
  | accepted a left => cases hstep
  | removed => cases hstep
  | refused status message => cases hstep

lemma step_sound {action : MemberAction} (h : s.Sound rules)
    (hstep : s.step rules action = some t) : t.Sound rules := by
  cases action with
  | elapse d =>
    cases hstep
    exact ⟨fun j task hj => (h.ok j task hj).frame rfl rfl rfl rfl, h.locks, h.adds, h.once⟩
  | request request =>
    cases hstep
    refine ⟨fun j task hj => ?_, h.locks.concat ?_, h.adds.concat ?_,
      Place.Keyed.concat h.once ?_⟩
    · rcases Place.getElem?_concat_cases hj with ⟨-, rfl⟩ | hj
      · cases request <;> exact .of_none rfl rfl rfl rfl rfl
      · exact (h.ok j task hj).frame rfl rfl rfl rfl
    all_goals cases request <;> rfl
  | advance i ok =>
    cases ok with
    | true =>
      obtain ⟨task, htask, hstep⟩ := Option.bind_eq_some_iff.mp hstep
      exact h.runTask htask hstep
    | false =>
      obtain ⟨task, htask, hstep⟩ := Option.bind_eq_some_iff.mp hstep
      split_ifs at hstep
      cases hstep
      exact h.refuse htask _ _

/-! ## The cap -/

/-- A statement adds a member when it commits an acceptance that has inserted a row, and only
then. -/
lemma size_runTask (h : s.Sound rules) (htask : s.tasks[i]? = some task)
    (hstep : s.runTask rules i task = some t) :
    t.size ≤ s.size ∧ s.seatIsFree rules (.advance i true) = true ∨
      ∃ a l left, task = .commit a l true left ∧ t.size = s.size + 1 := by
  cases task with
  | lockInvite user token =>
    rw [runTask] at hstep
    split_ifs at hstep
    cases hstep
    exact .inl ⟨le_refl _, by simp [seatIsFree, htask]⟩
  | insertMember a look =>
    rw [runTask] at hstep
    split_ifs at hstep
    cases hstep
    exact .inl ⟨le_refl _, by simp [seatIsFree, htask]⟩
  | commit a look added left =>
    cases hstep
    cases added with
    | true => exact .inr ⟨a, look, left, rfl, size_commitAccept ((h.ok i _ htask).fresh _ rfl)⟩
    | false => exact .inl ⟨le_refl _, by simp [seatIsFree, htask]⟩
  | removeDelete target =>
    rw [runTask] at hstep
    split at hstep
    · cases hstep
      exact .inl ⟨le_refl _, by simp [seatIsFree, htask]⟩
    · cases hstep
      exact .inl ⟨le_refl _, by simp [seatIsFree, htask]⟩
    · next role _ hmember =>
      cases hstep
      have hsize : s.size = (s.delete target).size + 1 := Assoc.length_erase hmember
      refine .inl ⟨?_, by simp [seatIsFree, htask]⟩
      show (s.delete target).size ≤ s.size
      omega
  | accepted a left => cases hstep
  | removed => cases hstep
  | refused status message => cases hstep
  | _ =>
    cases hstep
    exact .inl ⟨le_refl _, by simp [seatIsFree, htask]⟩

/-- **A commit keeps the cap exactly when the seat is free.** -/
lemma commit_withinCap_iff {left : Nat} (hplan : rules.enterprise = false) (h : s.Sound rules)
    (htask : s.tasks[i]? = some (.commit a l true left)) (hsize : t.size = s.size + 1) :
    WithinCap rules s t ↔ s.seatIsFree rules (.advance i true) = true := by
  obtain ⟨hbalance, hjoins, hremovals, hcounted⟩ := (h.ok i _ htask).look l rfl
  have hcap : WithinCap rules s t ↔ (s.size + 1 : Int) ≤ rules.businessMemberLimit := by
    rw [WithinCap, hsize]
    constructor
    · intro hcap
      exact_mod_cast hcap (Nat.lt_succ_self _)
    · intro hle _
      exact_mod_cast hle
  rw [hcap]
  simp only [seatIsFree, htask, Bool.or_eq_true, Bool.and_eq_true, decide_eq_true_eq]
  constructor
  · intro hle
    right
    omega
  · rintro (⟨hlooked, hnobody⟩ | hfree)
    · -- it has found a seat free, and nobody has taken one since
      have hseen := hcounted hlooked hplan
      omega
    · omega

lemma step_withinCap_iff {action : MemberAction} (hplan : rules.enterprise = false)
    (h : s.Sound rules) (hstep : s.step rules action = some t) :
    WithinCap rules s t ↔ s.seatIsFree rules action = true := by
  have hquiet : t.size ≤ s.size → s.seatIsFree rules action = true →
      (WithinCap rules s t ↔ s.seatIsFree rules action = true) :=
    fun hle hfree => ⟨fun _ => hfree, fun _ hlt => absurd hlt (not_lt.mpr hle)⟩
  cases action with
  | elapse d =>
    cases hstep
    exact hquiet (le_refl _) rfl
  | request request =>
    cases hstep
    exact hquiet (le_refl _) rfl
  | advance i ok =>
    cases ok with
    | false =>
      obtain ⟨task, htask, hstep⟩ := Option.bind_eq_some_iff.mp hstep
      split_ifs at hstep
      cases hstep
      exact hquiet (le_refl _) rfl
    | true =>
      obtain ⟨task, htask, hstep⟩ := Option.bind_eq_some_iff.mp hstep
      rcases size_runTask h htask hstep with ⟨hle, hfree⟩ | ⟨a, l, left, rfl, hsize⟩
      · exact hquiet hle hfree
      · exact commit_withinCap_iff hplan h htask hsize

lemma Sound.staysMember (h : s.Sound rules) : s.StaysMember := by
  intro i a left htask
  obtain ⟨-, hthere⟩ := (h.ok i _ htask).there a.user.userId false left rfl
  rcases hthere with hnever | hthere
  · cases hnever
  · exact hthere

lemma start_sound (members : Assoc Uuid OrgRole) (invites : Assoc String Invite)
    (now : Timestamp) : (start members invites now).Sound rules where
  ok := by
    intro j task hj
    cases hj
  locks := .nil
  adds := .nil
  once := .nil

/-- In a run no acceptance takes the members beyond the limit, no invite is accepted twice, and
whoever has accepted one is a member until removed. -/
structure CapHolds (rules : SeatRules) (s : OrgMembers) (as : List MemberAction) : Prop where
  cap : ∀ pre action u v, pre ++ [action] <+: as → Run (ofPartial (step rules)) s pre u →
    u.step rules action = some v → WithinCap rules u v
  once : ∀ pre u, pre <+: as → Run (ofPartial (step rules)) s pre u → u.AcceptedOnce
  stays : ∀ pre u, pre <+: as → Run (ofPartial (step rules)) s pre u → u.StaysMember

/-- **The cap holds exactly in the runs in which every new member commits to a free seat.** -/
theorem member_cap_iff (hplan : rules.enterprise = false) {members : Assoc Uuid OrgRole}
    {invites : Assoc String Invite} {now : Timestamp} {as : List MemberAction}
    (h : Run (ofPartial (step rules)) (start members invites now) as t) :
    CapHolds rules (start members invites now) as ↔
      Run (Guarded (ofPartial (step rules)) fun s action => s.seatIsFree rules action = true)
        (start members invites now) as t := by
  have hsound : ∀ pre u, Run (ofPartial (step rules)) (start members invites now) pre u →
      u.Sound rules :=
    fun pre u hu => hu.invariant (fun u => u.Sound rules)
      (fun u action _ v hu hstep => step_sound hu hstep) (start_sound members invites now)
  rw [Run.guarded_iff_steps (R := fun u _ v => WithinCap rules u v)
    (fun u action v hu hstep => step_sound hu hstep)
    (fun u action v hu hstep => step_withinCap_iff hplan hu hstep) h
    (start_sound members invites now)]
  constructor
  · exact CapHolds.cap
  · intro hcap
    exact ⟨hcap, fun pre u _ hu => (hsound pre u hu).once,
      fun pre u _ hu => (hsound pre u hu).staysMember⟩

section Samples

/-- An organisation with its owner alone, room for one more, and two invites. -/
def sampleOrg : OrgMembers :=
  start ((∅ : Assoc Uuid OrgRole).insert 1 .owner)
    (((∅ : Assoc String Invite).insert "a" ⟨.member, "ann@x.org", none, 100⟩).insert "b"
      ⟨.member, "bob@x.org", none, 100⟩) 0

def sampleRules : SeatRules := ⟨false, 2⟩

/-- The statements of an acceptance up to its commit. -/
def upToCommit (i : Nat) : List MemberAction := List.replicate 5 (.advance i true)

def acceptAlone : List MemberAction :=
  [.request (.accept ⟨2, "Ann@x.org"⟩ "a")] ++ upToCommit 0 ++ [.advance 0 true]

theorem member_cap_sample :
    ∃ t, Run (ofPartial (step sampleRules)) sampleOrg acceptAlone t ∧
      (CapHolds sampleRules sampleOrg acceptAlone ↔
        Run (Guarded (ofPartial (step sampleRules)) fun s action =>
          s.seatIsFree sampleRules action = true) sampleOrg acceptAlone t) := by
  have hrun : ∃ t, Run (ofPartial (step sampleRules)) sampleOrg acceptAlone t ∧ t.size = 2 :=
    Run.exists_of_decide (by decide +kernel)
  obtain ⟨t, hrun, -⟩ := hrun
  exact ⟨t, hrun, member_cap_iff rfl hrun⟩

/-- Both transactions count before either has committed. -/
def acceptTogether : List MemberAction :=
  [.request (.accept ⟨2, "ann@x.org"⟩ "a"), .request (.accept ⟨3, "bob@x.org"⟩ "b")] ++
    upToCommit 0 ++ upToCommit 1 ++ [.advance 0 true]

/-- **Two invites are accepted for one seat.** -/
theorem cap_overshot :
    ∃ u v, Run (ofPartial (step sampleRules)) sampleOrg acceptTogether u ∧
      u.step sampleRules (.advance 1 true) = some v ∧ v.size = 3 ∧
      ¬ CapHolds sampleRules sampleOrg (acceptTogether ++ [.advance 1 true]) := by
  have hu : ∃ u, Run (ofPartial (step sampleRules)) sampleOrg acceptTogether u ∧ u.size = 2 ∧
      (u.step sampleRules (.advance 1 true)).any fun v => v.size = 3 :=
    Run.exists_of_decide (by decide +kernel)
  obtain ⟨u, hu, hbefore, hany⟩ := hu
  obtain ⟨v, hv, hafter⟩ := (Option.any_eq_true _ _).mp hany
  refine ⟨u, v, hu, hv, of_decide_eq_true hafter, fun hcap => ?_⟩
  have hlimit := hcap.cap _ _ u v (List.prefix_refl _) hu hv
  rw [WithinCap, hbefore, of_decide_eq_true hafter] at hlimit
  exact absurd (hlimit (by decide)) (by decide)

end Samples

end OrgMembers

end VoxTranslate.Business
