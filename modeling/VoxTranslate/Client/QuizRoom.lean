import Mathlib.Logic.Function.Basic
import VoxTranslate.Client.Quiz
import VoxTranslate.Lib.Run

/-!
# One quiz in a room

The server relays every frame to the others in one order, keeps the last, and gives it to whoever
joins; that the last may be an answer, it does not know.  A client starts a quiz in view of what it
shows, whatever is on the way to it.
-/

namespace VoxTranslate.Client

open Lib

/-- The clients by their ids, what is on the way to each and from each, and what the server
keeps. -/
structure QuizRoom (ι : Type*) where
  player : ι → Quiz ι
  members : List ι
  inbox : ι → List (QuizFrame ι)
  outbox : ι → List (QuizFrame ι)
  game : Option (QuizFrame ι)
  /-- What the frames that were relayed so far leave a client with. -/
  relayed : Option (QuizState ι)
  /-- How many quizzes were started. -/
  started : Nat

inductive QuizEvent (ι : Type*) where
  | enter (i : ι)
  | choose (i : ι) (choice : Nat)
  | action (i : ι) (order : List Nat)
  /-- A generated quiz has come to the client that asked for it. -/
  | generated (i : ι) (questions : List Nat)
  | cancel (i : ι)
  | relay (i : ι)
  | deliver (i : ι)
  deriving DecidableEq

namespace QuizRoom

variable {ι : Type*} [DecidableEq ι] (name : ι → String)

def new : QuizRoom ι := ⟨fun _ => .new, [], fun _ => [], fun _ => [], none, none, 0⟩

/-- A client joins and is given the snapshot, if there is one. -/
def enter (s : QuizRoom ι) (i : ι) : QuizRoom ι :=
  { s with
    members := s.members ++ [i]
    player := Function.update s.player i .new
    inbox := Function.update s.inbox i s.game.toList
    outbox := Function.update s.outbox i [] }

def act (s : QuizRoom ι) (i : ι) (r : Quiz ι × List (QuizFrame ι)) : QuizRoom ι :=
  { s with
    player := Function.update s.player i r.1
    outbox := Function.update s.outbox i (s.outbox i ++ r.2) }

/-- A client may have started a quiz. -/
def startedBy (s : QuizRoom ι) (i : ι) (r : Quiz ι × List (QuizFrame ι)) : QuizRoom ι :=
  { s.act i r with started := s.started + 1 }

/-- The server keeps a frame and relays it to the others. -/
def relay (s : QuizRoom ι) (i : ι) (frame : QuizFrame ι) (frames : List (QuizFrame ι)) :
    QuizRoom ι :=
  { s with
    outbox := Function.update s.outbox i frames
    game := some frame
    relayed := frame.after s.relayed
    inbox := fun j => if j ∈ s.members ∧ j ≠ i then s.inbox j ++ [frame] else s.inbox j }

/-- One event; `none` where it cannot happen. -/
def step (s : QuizRoom ι) : QuizEvent ι → Option (QuizRoom ι)
  | .enter i => if i ∈ s.members then none else some (s.enter i)
  | .choose i choice =>
    if i ∈ s.members then some (s.act i ((s.player i).choose i (name i) choice)) else none
  | .action i order =>
    -- the questions are shuffled
    if i ∈ s.members ∧ order.Perm (List.range PACK.length) then
      some (s.startedBy i ((s.player i).onAction i (name i) order s.started))
    else none
  | .generated i questions =>
    -- the server makes no quiz without questions
    if i ∈ s.members ∧ questions ≠ [] then
      some (s.startedBy i ((s.player i).startAiQuiz i (name i) questions s.started))
    else none
  | .cancel i => if i ∈ s.members then some (s.act i ((s.player i).cancel i)) else none
  | .relay i =>
    match s.outbox i with
    | [] => none
    | frame :: frames => if i ∈ s.members then some (s.relay i frame frames) else none
  | .deliver i =>
    match s.inbox i with
    | [] => none
    | frame :: frames =>
      if i ∈ s.members then
        some ({ s with inbox := Function.update s.inbox i frames }.act i
          ((s.player i).applyRemote i frame))
      else none

/-! ## What is asked of a quiz -/

/-- Every frame has been relayed and delivered. -/
def Delivered (s : QuizRoom ι) : Prop := ∀ i ∈ s.members, s.inbox i = [] ∧ s.outbox i = []

instance (s : QuizRoom ι) : Decidable s.Delivered :=
  inferInstanceAs (Decidable (∀ i ∈ s.members, s.inbox i = [] ∧ s.outbox i = []))

/-- The clients show the same quiz, a live quiz has its host among them, and the scores of one that
is over are fair. -/
structure Settled (s : QuizRoom ι) : Prop where
  same : ∀ i ∈ s.members, ∀ j ∈ s.members, (s.player i).state = (s.player j).state
  host : ∀ i ∈ s.members, ∀ m, (s.player i).state = some m → m.phase.isLive = true →
    m.hostId ∈ s.members ∧ (s.player m.hostId).isHost m.hostId = true
  fair : ∀ i ∈ s.members, ∀ m, (s.player i).state = some m → m.IsFair

/-- No state is among the frames. -/
def calm (frames : List (QuizFrame ι)) : Bool := frames.all QuizFrame.isAnswer

/-- No state is on the way to the client, and none of another is to be relayed. -/
def upToDate (s : QuizRoom ι) (i : ι) : Bool :=
  calm (s.inbox i) && s.members.all fun j => j = i || calm (s.outbox j)

/-- The answer is to a quiz that the client does not host, or to the present quiz. -/
def answersThis (s : QuizRoom ι) (i : ι) (a : AnswerMsg ι) : Bool :=
  (s.player i).state.all fun m =>
    m.hostId ≠ i || m.phase ≠ .question || a.q ≠ m.qIndex || a.serial = m.serial

/-- A quiz is started by a client to which no state is on the way; nobody joins to be given an
answer while there is a quiz; and an answer does not come to the open question of another quiz. -/
def inTurn (s : QuizRoom ι) : QuizEvent ι → Bool
  | .enter _ =>
    match s.game with
    | some (.answer _) => s.relayed.isNone
    | _ => true
  | .action i _ | .generated i _ => isQuizActive (s.player i).state || s.upToDate i
  | .deliver i =>
    match s.inbox i with
    | .answer a :: _ => s.answersThis i a
    | _ => true
  | _ => true

/-! ## The invariant -/

/-- What the frames leave a client with. -/
def replay (frames : List (QuizFrame ι)) (shown : Option (QuizState ι)) : Option (QuizState ι) :=
  frames.foldl (fun shown frame => frame.after shown) shown

/-- The client sends no states, and what is on the way to it brings it to what was relayed. -/
structure Follows (s : QuizRoom ι) (i : ι) : Prop where
  quiet : calm (s.outbox i) = true
  shows : replay (s.inbox i) (s.player i).state = s.relayed

/-- The client alone sends states, none comes to it, and what it sends brings the others to what
it shows. -/
structure Leads (s : QuizRoom ι) (i : ι) : Prop where
  quiet : calm (s.inbox i) = true
  alone : ∀ j ∈ s.members, j ≠ i → calm (s.outbox j) = true
  shows : replay (s.outbox i) s.relayed = (s.player i).state

structure Inv (s : QuizRoom ι) : Prop where
  role : ∀ i ∈ s.members, s.Follows i ∨ s.Leads i
  host : ∀ i ∈ s.members, (s.player i).LiveHost i → s.Leads i
  own : ∀ i ∈ s.members, (s.player i).HostsOwn i
  coming : ∀ i ∈ s.members, ∀ m, .state m ∈ s.inbox i → m.hostId ≠ i
  going : ∀ i ∈ s.members, ∀ m, .state m ∈ s.outbox i → m.hostId = i ∧ m.IsFair
  game : ∀ frame, s.game = some frame → frame.isAnswer = false → s.relayed = frame.after none
  gone : s.game = none → s.relayed = none
  sent : ∀ m, s.game = some (.state m) → m.hostId ∈ s.members
  relayed : ∀ m, s.relayed = some m → m.hostId ∈ s.members ∧ m.IsFair

variable {name} {s t : QuizRoom ι} {i j : ι} {frames frames' : List (QuizFrame ι)}
  {shown : Option (QuizState ι)} {r : Quiz ι × List (QuizFrame ι)}

omit [DecidableEq ι] in
lemma replay_append : replay (frames ++ frames') shown = replay frames' (replay frames shown) :=
  List.foldl_append

omit [DecidableEq ι] in
lemma calm_append : calm (frames ++ frames') = (calm frames && calm frames') := List.all_append

omit [DecidableEq ι] in
/-- Answers leave a client with what it shows. -/
lemma replay_of_calm (h : calm frames = true) : replay frames shown = shown := by
  induction frames with
  | nil => rfl
  | cons frame frames ih =>
    obtain ⟨hframe, hrest⟩ := Bool.and_eq_true_iff.mp h
    cases frame with
    | state m => cases hframe
    | answer a => exact ih hrest

lemma act_player_self : (s.act i r).player i = r.1 := Function.update_self ..

lemma act_player_of_ne (h : j ≠ i) : (s.act i r).player j = s.player j :=
  Function.update_of_ne h ..

lemma act_outbox_self : (s.act i r).outbox i = s.outbox i ++ r.2 := Function.update_self ..

lemma act_outbox_of_ne (h : j ≠ i) : (s.act i r).outbox j = s.outbox j :=
  Function.update_of_ne h ..

/-! ## A client acts -/

omit [DecidableEq ι] in
/-- A client that leads and has nothing to send is one that follows. -/
lemma Leads.follows (h : s.Leads i) (hout : calm (s.outbox i) = true) : s.Follows i where
  quiet := hout
  shows := by
    rw [replay_of_calm h.quiet, ← h.shows, replay_of_calm hout]

omit [DecidableEq ι] in
/-- Two clients that lead show the same. -/
lemma Leads.eq (h : s.Leads i) (h' : s.Leads j) (hi : i ∈ s.members) (hj : j ∈ s.members)
    (hne : j ≠ i) : (s.player j).state = (s.player i).state := by
  rw [← h.shows, ← h'.shows, replay_of_calm (h.alone j hj hne),
    replay_of_calm (h'.alone i hi hne.symm)]

/-- The client shows what it has shown and sends answers at most. -/
lemma Leads.quietly (h : s.Leads i) (hstate : r.1.state = (s.player i).state)
    (hr : calm r.2 = true) : (s.act i r).Leads i where
  quiet := h.quiet
  alone := by
    intro j hj hne
    rw [act_outbox_of_ne hne]
    exact h.alone j hj hne
  shows := by
    rw [act_outbox_self, act_player_self, hstate, replay_append, replay_of_calm hr]
    exact h.shows

lemma Leads.others (h : s.Leads j) (hi : i ∈ s.members) (hne : j ≠ i) (hr : calm r.2 = true) :
    (s.act i r).Leads j where
  quiet := h.quiet
  alone := by
    intro k hk hkj
    by_cases hki : k = i
    · rw [hki, act_outbox_self, calm_append, h.alone i hi hne.symm, hr]
      rfl
    · rw [act_outbox_of_ne hki]
      exact h.alone k hk hkj
  shows := by
    rw [act_outbox_of_ne hne, act_player_of_ne hne]
    exact h.shows

lemma Follows.quietly (h : s.Follows i) (hstate : r.1.state = (s.player i).state)
    (hr : calm r.2 = true) : (s.act i r).Follows i where
  quiet := by
    rw [act_outbox_self, calm_append, h.quiet, hr]
    rfl
  shows := by
    rw [act_player_self, hstate]
    exact h.shows

lemma Follows.others (h : s.Follows j) (hne : j ≠ i) : (s.act i r).Follows j where
  quiet := by
    rw [act_outbox_of_ne hne]
    exact h.quiet
  shows := by
    rw [act_player_of_ne hne]
    exact h.shows

/-- The client sends a state and shows it. -/
lemma Leads.sends (h : s.Leads i) {m : QuizState ι} (hsent : r.2 = [.state m])
    (hstate : r.1.state = (QuizFrame.state m).after (s.player i).state) :
    (s.act i r).Leads i where
  quiet := h.quiet
  alone := by
    intro j hj hne
    rw [act_outbox_of_ne hne]
    exact h.alone j hj hne
  shows := by
    rw [act_outbox_self, act_player_self, hsent, hstate, replay_append]
    rfl

/-- What a client keeps and what it sends after it has acted. -/
lemma Inv.act_of_role (h : s.Inv) {may : Prop} (hacts : (s.player i).Acts may i r)
    (hrole : ∀ j ∈ s.members, (s.act i r).Follows j ∨ (s.act i r).Leads j)
    (hhost : ∀ j ∈ s.members, ((s.act i r).player j).LiveHost j → (s.act i r).Leads j) :
    (s.act i r).Inv where
  role := hrole
  host := hhost
  own := by
    intro j hj
    by_cases hji : j = i
    · rw [hji, act_player_self]
      exact hacts.hosts
    · rw [act_player_of_ne hji]
      exact h.own j hj
  coming := h.coming
  going := by
    intro j hj m hm
    by_cases hji : j = i
    · subst hji
      rw [act_outbox_self] at hm
      rcases List.mem_append.mp hm with hold | hnew
      · exact h.going j hj m hold
      · rcases hacts.sends with ⟨-, hanswers⟩ | ⟨-, m', hsent, -, hm', hfair⟩
        · exact absurd (hanswers _ hnew) (by simp [QuizFrame.isAnswer])
        · rw [hsent, List.mem_singleton] at hnew
          cases hnew
          exact ⟨hm', hfair⟩
    · rw [act_outbox_of_ne hji] at hm
      exact h.going j hj m hm
  game := h.game
  gone := h.gone
  sent := h.sent
  relayed := h.relayed

/-- **A client acts**: it sends a state only when it leads, and shows no live quiz of another. -/
lemma Inv.act (h : s.Inv) (hi : i ∈ s.members) {may : Prop} (hacts : (s.player i).Acts may i r)
    (hmay : may → s.Leads i ∧
      ∀ m, (s.player i).state = some m → m.phase.isLive = true → m.hostId = i) :
    (s.act i r).Inv := by
  rcases hacts.sends with ⟨hstate, hanswers⟩ | ⟨hm, m, hsent, hstate, -⟩
  · have hr : calm r.2 = true := List.all_eq_true.mpr hanswers
    refine h.act_of_role hacts (fun j hj => ?_) fun j hj hlive => ?_
    · by_cases hji : j = i
      · subst hji
        exact (h.role j hj).imp (·.quietly hstate hr) (·.quietly hstate hr)
      · exact (h.role j hj).imp (·.others hji) (·.others hi hji hr)
    · by_cases hji : j = i
      · subst hji
        rw [act_player_self, Quiz.LiveHost, hstate] at hlive
        exact (h.host j hj hlive).quietly hstate hr
      · rw [act_player_of_ne hji] at hlive
        exact (h.host j hj hlive).others hi hji hr
  · obtain ⟨hleads, hown⟩ := hmay hm
    refine h.act_of_role hacts (fun j hj => ?_) fun j hj hlive => ?_
    · by_cases hji : j = i
      · subst hji
        exact .inr (hleads.sends hsent hstate)
      · rcases h.role j hj with hfollows | hother
        · exact .inl (hfollows.others hji)
        · exact .inl ((hother.follows (hleads.alone j hj hji)).others hji)
    · by_cases hji : j = i
      · subst hji
        exact hleads.sends hsent hstate
      · -- another host would show the quiz that this client shows
        rw [act_player_of_ne hji] at hlive
        have hsame := hleads.eq (h.host j hj hlive) hi hj hji
        obtain ⟨m', hm', hhost, hphase⟩ := hlive
        exact absurd (hhost.symm.trans (hown m' (hsame ▸ hm') hphase)) hji

/-! ## A frame is relayed -/

variable {frame : QuizFrame ι}

lemma relay_inbox_self : (s.relay i frame frames).inbox i = s.inbox i := by
  simp [relay]

lemma relay_inbox_of_ne (hj : j ∈ s.members) (h : j ≠ i) :
    (s.relay i frame frames).inbox j = s.inbox j ++ [frame] := by
  simp [relay, hj, h]

lemma relay_outbox_self : (s.relay i frame frames).outbox i = frames := Function.update_self ..

lemma relay_outbox_of_ne (h : j ≠ i) : (s.relay i frame frames).outbox j = s.outbox j :=
  Function.update_of_ne h ..

omit [DecidableEq ι] in
lemma calm_cons (h : calm (frame :: frames) = true) :
    (∃ a, frame = .answer a) ∧ calm frames = true := by
  obtain ⟨hframe, hrest⟩ := Bool.and_eq_true_iff.mp h
  refine ⟨?_, hrest⟩
  cases frame with
  | state m => cases hframe
  | answer a => exact ⟨a, rfl⟩

lemma Follows.relay_self (h : s.Follows i) (hout : s.outbox i = frame :: frames) :
    (s.relay i frame frames).Follows i := by
  obtain ⟨hquiet, hshows⟩ := h
  rw [hout] at hquiet
  obtain ⟨⟨a, rfl⟩, hrest⟩ := calm_cons hquiet
  refine ⟨?_, ?_⟩
  · rw [relay_outbox_self]
    exact hrest
  · rw [relay_inbox_self]
    exact hshows

lemma Follows.relay_other (h : s.Follows j) (hj : j ∈ s.members) (hne : j ≠ i) :
    (s.relay i frame frames).Follows j where
  quiet := by
    rw [relay_outbox_of_ne hne]
    exact h.quiet
  shows := by
    rw [relay_inbox_of_ne hj hne, replay_append]
    show frame.after (replay (s.inbox j) (s.player j).state) = frame.after s.relayed
    rw [h.shows]

lemma Leads.relay_self (h : s.Leads i) (hout : s.outbox i = frame :: frames) :
    (s.relay i frame frames).Leads i where
  quiet := by
    rw [relay_inbox_self]
    exact h.quiet
  alone := by
    intro j hj hne
    rw [relay_outbox_of_ne hne]
    exact h.alone j hj hne
  shows := by
    have hshows := h.shows
    rw [hout] at hshows
    rw [relay_outbox_self]
    exact hshows

/-- Beside a client that leads only answers are relayed. -/
lemma Leads.relay_other (h : s.Leads j) (hi : i ∈ s.members) (hj : j ∈ s.members) (hne : j ≠ i)
    (hout : s.outbox i = frame :: frames) : (s.relay i frame frames).Leads j := by
  have halone := h.alone i hi hne.symm
  rw [hout] at halone
  obtain ⟨⟨a, rfl⟩, hrest⟩ := calm_cons halone
  refine ⟨?_, ?_, ?_⟩
  · rw [relay_inbox_of_ne hj hne, calm_append, h.quiet]
    rfl
  · intro k hk hkj
    by_cases hki : k = i
    · rw [hki, relay_outbox_self]
      exact hrest
    · rw [relay_outbox_of_ne hki]
      exact h.alone k hk hkj
  · rw [relay_outbox_of_ne hne]
    exact h.shows

lemma Leads.relay (h : s.Leads j) (hi : i ∈ s.members) (hj : j ∈ s.members)
    (hout : s.outbox i = frame :: frames) : (s.relay i frame frames).Leads j := by
  by_cases hji : j = i
  · subst hji
    exact h.relay_self hout
  · exact h.relay_other hi hj hji hout

lemma Inv.relay (h : s.Inv) (hi : i ∈ s.members) (hout : s.outbox i = frame :: frames) :
    (s.relay i frame frames).Inv where
  role := by
    intro j hj
    by_cases hji : j = i
    · subst hji
      exact (h.role j hj).imp (·.relay_self hout) (·.relay_self hout)
    · exact (h.role j hj).imp (·.relay_other hj hji) (·.relay_other hi hj hji hout)
  host := fun j hj hlive => (h.host j hj hlive).relay hi hj hout
  own := h.own
  coming := by
    intro j hj m hm
    by_cases hji : j = i
    · rw [hji, relay_inbox_self] at hm
      rw [hji]
      exact h.coming i hi m hm
    · have hmem : j ∈ s.members := hj
      rw [relay_inbox_of_ne hmem hji] at hm
      rcases List.mem_append.mp hm with hold | hnew
      · exact h.coming j hj m hold
      · have hsent := (h.going i hi m (by rw [hout, List.mem_singleton.mp hnew]; simp)).1
        rw [hsent]
        exact Ne.symm hji
  going := by
    intro j hj m hm
    by_cases hji : j = i
    · subst hji
      rw [relay_outbox_self] at hm
      exact h.going j hj m (by rw [hout]; exact List.mem_cons_of_mem _ hm)
    · rw [relay_outbox_of_ne hji] at hm
      exact h.going j hj m hm
  game := by
    rintro frame ⟨⟩ hstate
    cases frame with
    | state m => rfl
    | answer a => cases hstate
  gone := fun hnone => by cases hnone
  sent := by
    rintro m ⟨⟩
    rw [(h.going i hi m (by rw [hout]; exact List.mem_cons_self)).1]
    exact hi
  relayed := by
    intro m hm
    cases frame with
    | answer a => exact h.relayed m hm
    | state m' =>
      obtain ⟨hsender, hfair⟩ := h.going i hi m' (by rw [hout]; exact List.mem_cons_self)
      have hafter : (if m'.phase = .cancelled then none else some m') = some m := hm
      split_ifs at hafter
      cases hafter
      rw [hsender]
      exact ⟨hi, hfair⟩

/-! ## A frame comes to a client -/

/-- The frame has been taken from what is on the way to the client. -/
def taken (s : QuizRoom ι) (i : ι) (frames : List (QuizFrame ι)) : QuizRoom ι :=
  { s with inbox := Function.update s.inbox i frames }

lemma taken_inbox_self : (s.taken i frames).inbox i = frames := Function.update_self ..

lemma taken_inbox_of_ne (h : j ≠ i) : (s.taken i frames).inbox j = s.inbox j :=
  Function.update_of_ne h ..

lemma Follows.taken_other (h : s.Follows j) (hne : j ≠ i) : (s.taken i frames).Follows j where
  quiet := h.quiet
  shows := by
    rw [taken_inbox_of_ne hne]
    exact h.shows

lemma Leads.taken_other (h : s.Leads j) (hne : j ≠ i) : (s.taken i frames).Leads j where
  quiet := by
    rw [taken_inbox_of_ne hne]
    exact h.quiet
  alone := h.alone
  shows := h.shows

lemma mem_taken {m : QuizState ι} (hin : s.inbox i = frame :: frames)
    (hm : .state m ∈ (s.taken i frames).inbox j) : .state m ∈ s.inbox j := by
  by_cases hji : j = i
  · rw [hji, taken_inbox_self] at hm
    rw [hji, hin]
    exact List.mem_cons_of_mem _ hm
  · rwa [taken_inbox_of_ne hji] at hm

/-- An answer has come: to a client that does not host it makes no difference. -/
lemma Inv.taken (h : s.Inv) {a : AnswerMsg ι} (hin : s.inbox i = .answer a :: frames) :
    (s.taken i frames).Inv := by
  have hfollows : s.Follows i → (s.taken i frames).Follows i := by
    rintro ⟨hquiet, hshows⟩
    rw [hin] at hshows
    refine ⟨hquiet, ?_⟩
    rw [taken_inbox_self]
    exact hshows
  have hleads : s.Leads i → (s.taken i frames).Leads i := by
    rintro ⟨hquiet, halone, hshows⟩
    rw [hin] at hquiet
    refine ⟨?_, halone, hshows⟩
    rw [taken_inbox_self]
    exact (calm_cons hquiet).2
  refine ⟨fun j hj => ?_, fun j hj hlive => ?_, h.own,
    fun j hj m hm => h.coming j hj m (mem_taken hin hm), h.going, h.game, h.gone, h.sent, h.relayed⟩
  · by_cases hji : j = i
    · subst hji
      exact (h.role j hj).imp hfollows hleads
    · exact (h.role j hj).imp (·.taken_other hji) (·.taken_other hji)
  · by_cases hji : j = i
    · subst hji
      exact hleads (h.host j hj hlive)
    · exact (h.host j hj hlive).taken_other hji

lemma state_applyRemote (t : Quiz ι) (i : ι) (m : QuizState ι) :
    (t.applyRemote i (.state m)).2 = [] ∧
      (t.applyRemote i (.state m)).1.state = (QuizFrame.state m).after t.state := by
  rw [Quiz.applyRemote, QuizFrame.after]
  split_ifs <;> exact ⟨rfl, rfl⟩

/-- A state has come: the client shows it, and does not host it. -/
lemma Inv.show (h : s.Inv) (hi : i ∈ s.members) {m : QuizState ι}
    (hin : s.inbox i = .state m :: frames) :
    ((s.taken i frames).act i ((s.player i).applyRemote i (.state m))).Inv := by
  obtain ⟨hsent, hstate⟩ := state_applyRemote (s.player i) i m
  generalize (s.player i).applyRemote i (.state m) = r at hsent hstate
  have hr : calm r.2 = true := by rw [hsent]; rfl
  have hfollows : s.Follows i := by
    refine (h.role i hi).resolve_right fun hleads => ?_
    have hquiet := hleads.quiet
    rw [hin] at hquiet
    obtain ⟨⟨a, ha⟩, -⟩ := calm_cons hquiet
    cases ha
  have hother : m.hostId ≠ i := h.coming i hi m (by rw [hin]; exact List.mem_cons_self)
  have hnot : ∀ m', r.1.state = some m' → m'.hostId ≠ i := by
    intro m' hm'
    have hafter : (if m.phase = .cancelled then none else some m) = some m' :=
      hstate.symm.trans hm'
    split_ifs at hafter
    cases hafter
    exact hother
  have hself : ((s.taken i frames).act i r).Follows i := by
    refine ⟨?_, ?_⟩
    · rw [act_outbox_self, hsent, List.append_nil]
      exact hfollows.quiet
    · show replay ((s.taken i frames).inbox i) (((s.taken i frames).act i r).player i).state =
        s.relayed
      have hshows := hfollows.shows
      rw [hin] at hshows
      rw [taken_inbox_self, act_player_self, hstate]
      exact hshows
  refine ⟨fun j hj => ?_, fun j hj hlive => ?_, fun j hj => ?_, fun j hj m' hm' => ?_,
    fun j hj m' hm' => ?_, h.game, h.gone, h.sent, h.relayed⟩
  · by_cases hji : j = i
    · subst hji
      exact .inl hself
    · exact (h.role j hj).imp (fun hj' => (hj'.taken_other hji).others hji)
        (fun hj' => (hj'.taken_other hji).others hi hji hr)
  · by_cases hji : j = i
    · subst hji
      rw [act_player_self] at hlive
      obtain ⟨m', hm', hhost, -⟩ := hlive
      exact absurd hhost (hnot m' hm')
    · rw [act_player_of_ne hji] at hlive
      exact ((h.host j hj hlive).taken_other hji).others hi hji hr
  · by_cases hji : j = i
    · subst hji
      rw [act_player_self]
      intro m' hm' hhost
      exact absurd hhost (hnot m' hm')
    · rw [act_player_of_ne hji]
      exact h.own j hj
  · exact h.coming j hj m' (mem_taken hin hm')
  · by_cases hji : j = i
    · subst hji
      rw [act_outbox_self, hsent, List.append_nil] at hm'
      exact h.going j hj m' hm'
    · rw [act_outbox_of_ne hji] at hm'
      exact h.going j hj m' hm'

/-! ## A client joins -/

lemma enter_player_of_ne (h : j ≠ i) : (s.enter i).player j = s.player j :=
  Function.update_of_ne h ..

lemma enter_inbox_self : (s.enter i).inbox i = s.game.toList := Function.update_self ..

lemma enter_inbox_of_ne (h : j ≠ i) : (s.enter i).inbox j = s.inbox j :=
  Function.update_of_ne h ..

lemma enter_outbox_self : (s.enter i).outbox i = [] := Function.update_self ..

lemma enter_outbox_of_ne (h : j ≠ i) : (s.enter i).outbox j = s.outbox j :=
  Function.update_of_ne h ..

lemma enter_player_self : (s.enter i).player i = .new := Function.update_self ..

lemma mem_enter (hj : j ∈ (s.enter i).members) : j ∈ s.members ∨ j = i := by
  simpa [enter] using hj

/-- The snapshot brings the client to what was relayed. -/
lemma Inv.follows_enter (h : s.Inv) (hguard : s.inTurn (.enter i) = true) :
    (s.enter i).Follows i where
  quiet := by
    rw [enter_outbox_self]
    rfl
  shows := by
    rw [enter_inbox_self, enter_player_self]
    show replay s.game.toList none = s.relayed
    cases hgame : s.game with
    | none => exact (h.gone hgame).symm
    | some frame =>
      cases frame with
      | state m => exact (h.game _ hgame rfl).symm
      | answer a =>
        have hnone : s.relayed.isNone = true := by simpa [inTurn, hgame] using hguard
        exact (Option.isNone_iff_eq_none.mp hnone).symm

lemma Follows.enter_other (h : s.Follows j) (hne : j ≠ i) : (s.enter i).Follows j where
  quiet := by
    rw [enter_outbox_of_ne hne]
    exact h.quiet
  shows := by
    rw [enter_inbox_of_ne hne, enter_player_of_ne hne]
    exact h.shows

lemma Leads.enter_other (h : s.Leads j) (hne : j ≠ i) : (s.enter i).Leads j where
  quiet := by
    rw [enter_inbox_of_ne hne]
    exact h.quiet
  alone := by
    intro k hk hkj
    by_cases hki : k = i
    · rw [hki, enter_outbox_self]
      rfl
    · rw [enter_outbox_of_ne hki]
      exact h.alone k ((mem_enter hk).resolve_right hki) hkj
  shows := by
    rw [enter_outbox_of_ne hne, enter_player_of_ne hne]
    exact h.shows

lemma Inv.enter (h : s.Inv) (hi : i ∉ s.members) (hguard : s.inTurn (.enter i) = true) :
    (s.enter i).Inv where
  role := by
    intro j hj
    by_cases hji : j = i
    · subst hji
      exact .inl (h.follows_enter hguard)
    · exact (h.role j ((mem_enter hj).resolve_right hji)).imp (·.enter_other hji)
        (·.enter_other hji)
  host := by
    intro j hj hlive
    by_cases hji : j = i
    · rw [hji, enter_player_self] at hlive
      obtain ⟨m, hm, -⟩ := hlive
      cases hm
    · rw [enter_player_of_ne hji] at hlive
      exact (h.host j ((mem_enter hj).resolve_right hji) hlive).enter_other hji
  own := by
    intro j hj
    by_cases hji : j = i
    · rw [hji, enter_player_self]
      intro m hm
      cases hm
    · rw [enter_player_of_ne hji]
      exact h.own j ((mem_enter hj).resolve_right hji)
  coming := by
    intro j hj m hm
    by_cases hji : j = i
    · rw [hji, enter_inbox_self] at hm
      rintro rfl
      exact hi (hji ▸ h.sent m (Option.mem_toList.mp hm))
    · rw [enter_inbox_of_ne hji] at hm
      exact h.coming j ((mem_enter hj).resolve_right hji) m hm
  going := by
    intro j hj m hm
    by_cases hji : j = i
    · rw [hji, enter_outbox_self] at hm
      cases hm
    · rw [enter_outbox_of_ne hji] at hm
      exact h.going j ((mem_enter hj).resolve_right hji) m hm
  game := h.game
  gone := h.gone
  sent := fun m hm => List.mem_append_left _ (h.sent m hm)
  relayed := fun m hm => ⟨List.mem_append_left _ (h.relayed m hm).1, (h.relayed m hm).2⟩

/-! ## Runs -/

/-- A host leads, and shows no live quiz of another. -/
lemma Inv.leads_of_host (h : s.Inv) (hi : i ∈ s.members) (hlive : (s.player i).LiveHost i) :
    s.Leads i ∧ ∀ m, (s.player i).state = some m → m.phase.isLive = true → m.hostId = i := by
  refine ⟨h.host i hi hlive, fun m hm _ => ?_⟩
  obtain ⟨m', hm', hhost, -⟩ := hlive
  cases hm.symm.trans hm'
  exact hhost

/-- A client that shows no live quiz and is up to date may start one. -/
lemma Inv.leads_of_upToDate (h : s.Inv) (hi : i ∈ s.members)
    (hidle : isQuizActive (s.player i).state = false) (hcurrent : s.upToDate i = true) :
    s.Leads i ∧ ∀ m, (s.player i).state = some m → m.phase.isLive = true → m.hostId = i := by
  obtain ⟨hquiet, hothers⟩ := Bool.and_eq_true_iff.mp hcurrent
  have halone : ∀ j ∈ s.members, j ≠ i → calm (s.outbox j) = true := by
    intro j hj hne
    simpa [hne] using List.all_eq_true.mp hothers j hj
  refine ⟨?_, fun m hm hlive => ?_⟩
  · rcases h.role i hi with hfollows | hleads
    · refine ⟨hquiet, halone, ?_⟩
      rw [replay_of_calm hfollows.quiet, ← hfollows.shows, replay_of_calm hquiet]
    · exact hleads
  · rw [hm] at hidle
    exact absurd hlive (Bool.eq_false_iff.mp hidle)

lemma Inv.startedBy (h : (s.act i r).Inv) : (s.startedBy i r).Inv where
  role := by
    intro j hj
    rcases h.role j hj with ⟨hquiet, hshows⟩ | ⟨hquiet, halone, hshows⟩
    · exact .inl ⟨hquiet, hshows⟩
    · exact .inr ⟨hquiet, halone, hshows⟩
  host := by
    intro j hj hlive
    obtain ⟨hquiet, halone, hshows⟩ := h.host j hj hlive
    exact ⟨hquiet, halone, hshows⟩
  own := h.own
  coming := h.coming
  going := h.going
  game := h.game
  gone := h.gone
  sent := h.sent
  relayed := h.relayed

/-- **One event** in turn. -/
lemma Inv.step (h : s.Inv) {event : QuizEvent ι} (hguard : s.inTurn event = true)
    (hstep : s.step name event = some t) : t.Inv := by
  cases event with
  | enter i =>
    rw [QuizRoom.step] at hstep
    split_ifs at hstep with hi
    cases hstep
    exact h.enter hi hguard
  | choose i choice =>
    rw [QuizRoom.step] at hstep
    split_ifs at hstep with hi
    cases hstep
    exact h.act hi (Quiz.acts_choose (h.own i hi)) (h.leads_of_host hi)
  | action i order =>
    rw [QuizRoom.step] at hstep
    split_ifs at hstep with hi
    obtain ⟨hi, horder⟩ := hi
    cases hstep
    refine Inv.startedBy (h.act hi (Quiz.acts_onAction (h.own i hi) horder) fun hmay => ?_)
    rcases hmay with hlive | hidle
    · exact h.leads_of_host hi hlive
    · refine h.leads_of_upToDate hi hidle ?_
      simpa [inTurn, hidle] using hguard
  | generated i questions =>
    rw [QuizRoom.step] at hstep
    split_ifs at hstep with hi
    obtain ⟨hi, hquestions⟩ := hi
    cases hstep
    refine Inv.startedBy (h.act hi (Quiz.acts_startAiQuiz (h.own i hi) hquestions) fun hidle => ?_)
    refine h.leads_of_upToDate hi hidle ?_
    simpa [inTurn, hidle] using hguard
  | cancel i =>
    rw [QuizRoom.step] at hstep
    split_ifs at hstep with hi
    cases hstep
    exact h.act hi (Quiz.acts_cancel (h.own i hi)) (h.leads_of_host hi)
  | relay i =>
    rw [QuizRoom.step] at hstep
    split at hstep
    · cases hstep
    next frame frames hout =>
      split_ifs at hstep with hi
      cases hstep
      exact h.relay hi hout
  | deliver i =>
    rw [QuizRoom.step] at hstep
    split at hstep
    · cases hstep
    next frame frames hin =>
      split_ifs at hstep with hi
      cases hstep
      cases frame with
      | state m => exact h.show hi hin
      | answer a =>
        have hacts : (s.player i).Acts ((s.player i).LiveHost i) i
            ((s.player i).applyRemote i (.answer a)) := by
          rw [Quiz.applyRemote]
          split_ifs
          · refine Quiz.acts_recordAnswer (h.own i hi) fun m hm hhost hphase hq => ?_
            simpa [inTurn, hin, answersThis, hm, hhost, hphase, hq] using hguard
          · exact Quiz.acts_nothing (h.own i hi)
        exact (h.taken hin).act hi hacts ((h.taken hin).leads_of_host hi)

lemma inv_new : (new : QuizRoom ι).Inv where
  role := fun i hi => by cases hi
  host := fun i hi => by cases hi
  own := fun i hi => by cases hi
  coming := fun i hi => by cases hi
  going := fun i hi => by cases hi
  game := fun frame hframe => by cases hframe
  gone := fun _ => rfl
  sent := fun m hm => by cases hm
  relayed := fun m hm => by cases hm

/-- A client with nothing on the way shows what was relayed. -/
lemma Inv.state_eq (h : s.Inv) (hdelivered : s.Delivered) (hi : i ∈ s.members) :
    (s.player i).state = s.relayed := by
  obtain ⟨hin, hout⟩ := hdelivered i hi
  rcases h.role i hi with hfollows | hleads
  · rw [← hfollows.shows, hin]
    rfl
  · rw [← hleads.shows, hout]
    rfl

/-- **The quiz has one host and counts fairly** in the runs in which quizzes are started, joined
and answered in turn. -/
theorem quizSettled_of_run {events : List (QuizEvent ι)}
    (h : Run (Guarded (ofPartial (step name)) fun s event => s.inTurn event = true)
      (new : QuizRoom ι) events s) (hdelivered : s.Delivered) : s.Settled := by
  have hinv : s.Inv := h.invariant Inv (fun _ _ _ _ hs hstep => hs.step hstep.1 hstep.2) inv_new
  refine ⟨fun i hi j hj => ?_, fun i hi m hm hlive => ?_, fun i hi m hm => ?_⟩
  · rw [hinv.state_eq hdelivered hi, hinv.state_eq hdelivered hj]
  · rw [hinv.state_eq hdelivered hi] at hm
    have hhost := (hinv.relayed m hm).1
    refine ⟨hhost, ?_⟩
    rw [Quiz.isHost, hinv.state_eq hdelivered hhost, hm]
    exact decide_eq_true rfl
  · rw [hinv.state_eq hdelivered hi] at hm
    exact (hinv.relayed m hm).2

section Samples

/-- The questions as they come. -/
def unshuffled : List Nat := List.range PACK.length

/-- Two clients come, and one starts a quiz of three questions. -/
def firstQuiz : List (QuizEvent Nat) :=
  [.enter 0, .enter 1, .generated 0 [1, 2, 3], .relay 0, .deliver 1]

/-- The host goes on, and the others see it. -/
def onward (others : List (Nat)) : List (QuizEvent Nat) :=
  [.action 0 unshuffled, .relay 0] ++ others.map .deliver

/-- A client answers and changes the answer before the host reveals it; another joins for the rest
of the quiz. -/
def wholeQuiz : List (QuizEvent Nat) :=
  firstQuiz ++ [.choose 1 0, .relay 1, .deliver 0, .relay 0, .deliver 1, .choose 1 1, .relay 1,
    .deliver 0] ++ onward [1] ++ [.enter 2, .deliver 2] ++ onward [1, 2] ++ onward [1, 2] ++
    onward [1, 2] ++ onward [1, 2] ++ onward [1, 2]

theorem quizSettled_sample :
    ∃ s, Run (Guarded (ofPartial (step fun _ => "")) fun s event => s.inTurn event = true) new
      wholeQuiz s ∧ s.Settled := by
  have hrun : ∃ s, Run (Guarded (ofPartial (step fun _ => "")) fun s event =>
      s.inTurn event = true) new wholeQuiz s ∧ (s.Delivered ∧
        ((s.player 2).state.any fun m => m.phase = .done) = true) :=
    Run.exists_guarded_of_decide (by decide +kernel)
  obtain ⟨s, hrun, hdelivered, -⟩ := hrun
  exact ⟨s, hrun, quizSettled_of_run hrun hdelivered⟩

/-- **Two clients start a quiz at the same time** and nobody hosts what is shown; a client that
joins is given an answer and shows nothing; and an answer to a quiz that was cancelled counts in
the next. -/
theorem quizzes_unsettled :
    (∃ s, Run (ofPartial (step fun _ => "")) new
        [.enter (0 : Nat), .enter 1, .action 0 unshuffled, .action 1 unshuffled, .relay 0,
          .relay 1, .deliver 0, .deliver 1] s ∧
      s.Delivered ∧ (∀ i ∈ s.members, (s.player i).isHost i = false) ∧ ¬ s.Settled) ∧
    (∃ s, Run (ofPartial (step fun _ => "")) new
        (firstQuiz ++ [.choose 1 0, .relay 1, .deliver 0, .relay 0, .deliver 1, .choose 1 1,
          .relay 1, .enter 2, .deliver 0, .deliver 2]) s ∧
      s.Delivered ∧ (s.player 2).state = none ∧ ¬ s.Settled) ∧
    ∃ s, Run (ofPartial (step fun _ => "")) new
        (firstQuiz ++ [.choose 1 1, .cancel 0, .generated 0 [1, 2, 3], .relay 0, .relay 0,
          .deliver 1, .deliver 1, .relay 1, .deliver 0, .relay 0, .deliver 1] ++ onward [1] ++
          onward [1] ++ onward [1] ++ onward [1] ++ onward [1] ++ onward [1]) s ∧
      s.Delivered ∧ ¬ s.Settled := by
  refine ⟨?_, ?_, ?_⟩
  · have hrun : ∃ s, Run (ofPartial (step fun _ => "")) new
        [.enter (0 : Nat), .enter 1, .action 0 unshuffled, .action 1 unshuffled, .relay 0,
          .relay 1, .deliver 0, .deliver 1] s ∧
        (s.Delivered ∧ (∀ i ∈ s.members, (s.player i).isHost i = false) ∧ s.members = [0, 1] ∧
          (s.player 0).state ≠ (s.player 1).state) := Run.exists_of_decide (by decide +kernel)
    obtain ⟨s, hrun, hdelivered, hhost, hmembers, hne⟩ := hrun
    exact ⟨s, hrun, hdelivered, hhost,
      fun hsettled => hne (hsettled.same 0 (by simp [hmembers]) 1 (by simp [hmembers]))⟩
  · have hrun : ∃ s, Run (ofPartial (step fun _ => "")) new
        (firstQuiz ++ [.choose 1 0, .relay 1, .deliver 0, .relay 0, .deliver 1, .choose 1 1,
          .relay 1, .enter 2, .deliver 0, .deliver 2]) s ∧
        (s.Delivered ∧ (s.player 2).state = none ∧ s.members = [0, 1, 2] ∧
          (s.player 0).state.isSome = true) := Run.exists_of_decide (by decide +kernel)
    obtain ⟨s, hrun, hdelivered, hnone, hmembers, hsome⟩ := hrun
    refine ⟨s, hrun, hdelivered, hnone, fun hsettled => ?_⟩
    rw [hsettled.same 0 (by simp [hmembers]) 2 (by simp [hmembers]), hnone] at hsome
    cases hsome
  · have hrun : ∃ s, Run (ofPartial (step fun _ => "")) new
        (firstQuiz ++ [.choose 1 1, .cancel 0, .generated 0 [1, 2, 3], .relay 0, .relay 0,
          .deliver 1, .deliver 1, .relay 1, .deliver 0, .relay 0, .deliver 1] ++ onward [1] ++
          onward [1] ++ onward [1] ++ onward [1] ++ onward [1] ++ onward [1]) s ∧
        (s.Delivered ∧ s.members = [0, 1] ∧ ((s.player 0).state.any fun m => m.phase = .done &&
          Entries.get m.players 1 = some ⟨"", 1, 1⟩ &&
          Quiz.rightAnswers m.asked m.heard m.total 1 = 0) = true) :=
      Run.exists_of_decide (by decide +kernel)
    obtain ⟨s, hrun, hdelivered, hmembers, hover⟩ := hrun
    obtain ⟨m, hm, hover⟩ := (Option.any_eq_true _ _).mp hover
    simp only [Bool.and_eq_true, decide_eq_true_eq] at hover
    obtain ⟨⟨hdone, hplayer⟩, hright⟩ := hover
    refine ⟨s, hrun, hdelivered, fun hsettled => ?_⟩
    have hscore := hsettled.fair 0 (by simp [hmembers]) m hm hdone 1 _ hplayer
    rw [hright] at hscore
    cases hscore

end Samples

end QuizRoom

end VoxTranslate.Client
