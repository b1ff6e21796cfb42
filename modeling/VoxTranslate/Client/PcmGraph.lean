import VoxTranslate.Client.Conversation
import VoxTranslate.Lib.Handles
import VoxTranslate.Lib.Run
import Mathlib.Data.List.Chain

/-!
# Starting and stopping a PCM capture (`pcm-capture.ts`)

A start waits for its worklet, and one at a time: whatever asks for a capture meanwhile is ignored.
A stop does not wait.  It takes the context away from the start that waits, and that start fails
when it finds none.  So a capture that is stopped and asked for again during one load stays off.
-/

namespace VoxTranslate.Client

open Lib

/-- A control message of a capture. -/
inductive CaptureControl where
  | start
  | stop
  deriving DecidableEq, Repr

/-- A PCM capture with its audio graph, the contexts that the page made for it and the socket that
it sends to. -/
structure PcmGraph where
  /-- The stream has an audio track. -/
  live : Bool
  readyState : ReadyState
  /-- The context that it holds, by its position. -/
  ctx : Option Nat
  /-- The contexts of its source and of its worklet node. -/
  src : Option Nat
  node : Option Nat
  active : Bool
  starting : Bool
  /-- Every context that was made, with whether it was closed. -/
  contexts : List Bool
  /-- The contexts whose worklet is being loaded. -/
  loads : List Nat
  sent : List CaptureControl
  deriving DecidableEq, Repr

/-- What a page does with a capture, and what becomes of its loads and of its socket. -/
inductive CaptureEvent where
  | start
  | stop
  | restart
  | setMuted (muted : Bool)
  | settled (load : Nat) (loaded : Bool)
  | socket (readyState : ReadyState)
  deriving DecidableEq, Repr

/-- A socket opens once and closes for good. -/
def ReadyState.mayBecome : ReadyState → ReadyState → Bool
  | .connecting, .open => true
  | .connecting, .closed => true
  | .open, .closed => true
  | _, _ => false

namespace PcmGraph

def new (live : Bool) (readyState : ReadyState) : PcmGraph :=
  ⟨live, readyState, none, none, none, false, false, [], [], []⟩

def sendControl (g : PcmGraph) (type : CaptureControl) : PcmGraph :=
  if g.readyState = .open then { g with sent := g.sent ++ [type] } else g

def stop (g : PcmGraph) : PcmGraph :=
  let stopped : PcmGraph :=
    { g with
      active := false
      node := none
      src := none
      ctx := none
      contexts := closeAll g.contexts g.ctx.toList }
  if g.active then stopped.sendControl .stop else stopped

/-- `start`, with `_start` up to where it waits for the worklet. -/
def start (g : PcmGraph) : PcmGraph :=
  if g.active || g.starting then g
  else if g.live then
    { g with
      starting := true
      ctx := some g.contexts.length
      contexts := g.contexts ++ [false]
      loads := g.loads ++ [g.contexts.length] }
  else g

def restart (g : PcmGraph) : PcmGraph := g.stop.start

def setMuted (g : PcmGraph) (muted : Bool) : PcmGraph := if muted then g.stop else g.start

/-- The rest of `_start`, when a load has succeeded or failed. -/
def settle (g : PcmGraph) (load : Nat) (loaded : Bool) : PcmGraph :=
  let g := { g with loads := g.loads.erase load }
  if loaded && g.live then
    match g.ctx with
    | some ctx =>
      let started := sendControl { g with src := some ctx, node := some ctx } .start
      { started with active := true, starting := false }
    -- the graph is built in no context, which throws
    | none => { g.stop with starting := false }
  else { g.stop with starting := false }

def step (g : PcmGraph) : CaptureEvent → Option PcmGraph
  | .start => some g.start
  | .stop => some g.stop
  | .restart => some g.restart
  | .setMuted muted => some (g.setMuted muted)
  | .settled load loaded => if load ∈ g.loads then some (g.settle load loaded) else none
  | .socket readyState =>
    if g.readyState.mayBecome readyState then some { g with readyState } else none

/-- The capture as the model of a conversation has it. -/
def view (g : PcmGraph) (c : PcmCapture) : PcmCapture :=
  { c with graph := g.ctx.isSome, active := g.active, starting := g.starting }

variable {g : PcmGraph} {load : Nat}

/-- What a stop leaves, and what it sends. -/
lemma stop_eq (g : PcmGraph) : g.stop =
    { g with
      active := false
      node := none
      src := none
      ctx := none
      contexts := closeAll g.contexts g.ctx.toList
      sent := if g.active = true ∧ g.readyState = .open then g.sent ++ [.stop] else g.sent } := by
  by_cases hactive : g.active = true
  · rw [stop, if_pos hactive, sendControl]
    by_cases hopen : g.readyState = .open
    · rw [if_pos hopen, if_pos ⟨hactive, hopen⟩]
    · rw [if_neg hopen, if_neg fun h => hopen h.2]
  · rw [stop, if_neg hactive, if_neg fun h => hactive h.1]

lemma start_of_busy (hbusy : g.active = true ∨ g.starting = true) : g.start = g := by
  rw [start, if_pos (Bool.or_eq_true_iff.mpr hbusy)]

lemma start_of_idle (hactive : g.active = false) (hstarting : g.starting = false)
    (hlive : g.live = true) :
    g.start = { g with
      starting := true
      ctx := some g.contexts.length
      contexts := g.contexts ++ [false]
      loads := g.loads ++ [g.contexts.length] } := by
  rw [start, if_neg (by simp [hactive, hstarting]), if_pos hlive]

@[simp] lemma start_sent (g : PcmGraph) : g.start.sent = g.sent := by
  rw [start]
  split_ifs <;> rfl

/-- A load that succeeds makes the capture active if its context is still there. -/
lemma settle_of_held {ctx : Nat} (hlive : g.live = true) (hctx : g.ctx = some ctx) :
    g.settle load true =
      { g with
        src := some ctx
        node := some ctx
        active := true
        starting := false
        loads := g.loads.erase load
        sent := if g.readyState = .open then g.sent ++ [.start] else g.sent } := by
  simp only [settle, hlive, hctx, Bool.and_self, if_true, sendControl]
  split_ifs <;> rfl

/-- Any other load stops what is left. -/
lemma settle_of_lost {loaded : Bool} (hlost : loaded = true → g.ctx = none) :
    g.settle load loaded =
      { g.stop with loads := g.loads.erase load, starting := false } := by
  by_cases hgo : (loaded && g.live) = true
  · have hctx := hlost (Bool.and_eq_true_iff.mp hgo).1
    simp only [settle, hgo, hctx, if_true, stop_eq]
  · simp only [settle, if_neg hgo, stop_eq]

/-! ## The capture of a conversation -/

lemma view_start (hlive : g.live = true) (c : PcmCapture) :
    g.start.view c = (g.view c).start := by
  by_cases hbusy : (g.active || g.starting) = true
  · simp only [start, PcmCapture.start, view, hbusy, if_true]
  · simp only [start, PcmCapture.start, view, hbusy, hlive, if_true, if_false,
      Bool.false_eq_true, Option.isSome_some]

lemma view_stop (c : PcmCapture) : g.stop.view c = (g.view c).stop := by
  rw [stop_eq]
  rfl

lemma view_setMuted (hlive : g.live = true) (muted : Bool) (c : PcmCapture) :
    (g.setMuted muted).view c = (g.view c).setMuted muted := by
  cases muted with
  | true => exact view_stop c
  | false => exact view_start hlive c

/-- A load that settles is the one that the capture of the conversation waits for. -/
lemma view_settle (hlive : g.live = true) (hstarting : g.starting = true) (loaded : Bool)
    (c : PcmCapture) : (g.settle load loaded).view c = (g.view c).workletReady loaded := by
  have hready : (g.view c).starting = true := hstarting
  rw [PcmCapture.workletReady, if_pos hready]
  cases hctx : g.ctx with
  | none =>
    rw [settle_of_lost fun _ => hctx, stop_eq]
    simp [view, hctx, PcmCapture.stop]
  | some ctx =>
    cases loaded with
    | true =>
      rw [settle_of_held hlive hctx]
      simp [view, hctx]
    | false =>
      rw [settle_of_lost (by simp), stop_eq]
      simp [view, PcmCapture.stop]

end PcmGraph

/-- A capture, and what was asked of it. -/
structure CaptureHistory where
  graph : PcmGraph
  /-- The last command was a start, a restart or an unmute. -/
  wanted : Bool
  /-- A load failed. -/
  failed : Bool
  /-- The socket was open when a load last succeeded. -/
  announced : Bool
  deriving DecidableEq, Repr

namespace CaptureHistory

/-- A capture of a stream with an audio track. -/
def init (readyState : ReadyState) : CaptureHistory := ⟨.new true readyState, false, false, false⟩

def step (s : CaptureHistory) (a : CaptureEvent) : Option CaptureHistory :=
  (s.graph.step a).map fun graph =>
    match a with
    | .start | .restart => { s with graph, wanted := true }
    | .stop => { s with graph, wanted := false }
    | .setMuted muted => { s with graph, wanted := !muted }
    | .settled _ true => { s with graph, announced := s.graph.readyState = .open }
    | .settled _ false => { s with graph, failed := true }
    | .socket _ => { s with graph }

abbrev Step : CaptureHistory → CaptureEvent → CaptureHistory → Prop := ofPartial step

/-- The capture obeys the last command, its messages alternate, and one context at most is open. -/
structure Obeys (s : CaptureHistory) : Prop where
  active : s.graph.loads = [] → s.failed = false → (s.graph.active = true ↔ s.wanted = true)
  messages : (CaptureControl.stop :: s.graph.sent).IsChain (· ≠ ·)
  contexts : ∀ i j : Nat, s.graph.contexts[i]? = some false → s.graph.contexts[j]? = some false → i = j

/-- A capture that is stopped over an open socket became active over it. -/
def stopsAnnounced (s : CaptureHistory) : Bool :=
  !(s.graph.active && s.graph.readyState = .open) || s.announced

/-- No load succeeds, before one fails, whose context was taken away and that the last command asks
for, and a stop ends what was announced. -/
def heeds (s : CaptureHistory) : CaptureEvent → Bool
  | .stop => s.stopsAnnounced
  | .restart => s.stopsAnnounced
  | .setMuted muted => !muted || s.stopsAnnounced
  | .settled _ loaded => !loaded || s.graph.ctx.isSome || !s.wanted || s.failed
  | .start => true
  | .socket _ => true

/-- The invariant of the steps that heed. -/
structure Coherent (s : CaptureHistory) : Prop where
  live : s.graph.live = true
  held : HeldBy s.graph.contexts fun i => s.graph.ctx = some i
  /-- One start waits at a time. -/
  loads : s.graph.loads.length = s.graph.starting.toNat
  active : s.graph.active = true → s.graph.starting = false ∧ s.graph.ctx.isSome = true
  busy : s.graph.ctx.isSome = true → s.graph.active = true ∨ s.graph.starting = true
  wanted : s.graph.ctx.isSome = true → s.wanted = true
  obeyed : s.graph.starting = false → s.failed = false → s.wanted = true → s.graph.active = true
  messages : (CaptureControl.stop :: s.graph.sent).IsChain (· ≠ ·)
  early : s.graph.readyState = .connecting → s.graph.sent = [] ∧ s.announced = false
  /-- Over an open socket the last message is of what runs, unless that was not announced. -/
  last : s.graph.readyState = .open → (CaptureControl.stop :: s.graph.sent).getLast? =
    some (if s.graph.active = true ∧ s.announced = true then .start else .stop)
  unannounced : s.graph.readyState = .open → s.graph.active = true → s.announced = false →
    s.graph.sent = []

variable {s t : CaptureHistory} {a : CaptureEvent} {readyState : ReadyState} {load : Nat}

lemma init_coherent (readyState : ReadyState) : (init readyState).Coherent where
  live := rfl
  held := HeldBy.nil
  loads := rfl
  active h := by cases h
  busy h := by cases h
  wanted h := by cases h
  obeyed _ _ h := by cases h
  messages := List.isChain_singleton _
  early _ := ⟨rfl, rfl⟩
  last _ := rfl
  unannounced _ _ _ := rfl

lemma Coherent.obeys (h : s.Coherent) : s.Obeys where
  active hnone hfailed := by
    have hstarting : s.graph.starting = false := by
      have hloads := h.loads
      rw [hnone] at hloads
      exact Bool.toNat_eq_zero.mp hloads.symm
    exact ⟨fun hactive => h.wanted (h.active hactive).2, h.obeyed hstarting hfailed⟩
  messages := h.messages
  contexts i j hi hj := Option.some_inj.mp ((h.held i hi).symm.trans (h.held j hj))

/-- A message that is not like the last one. -/
lemma alternates_concat {sent : List CaptureControl} {last type : CaptureControl}
    (h : (CaptureControl.stop :: sent).IsChain (· ≠ ·))
    (hlast : (CaptureControl.stop :: sent).getLast? = some last) (hne : last ≠ type) :
    (CaptureControl.stop :: (sent ++ [type])).IsChain (· ≠ ·) := by
  refine List.isChain_append.mpr ⟨h, List.isChain_singleton _, ?_⟩
  rintro x hx y hy
  rw [hlast] at hx
  obtain rfl : last = x := Option.mem_some.mp hx
  obtain rfl : type = y := by simpa using hy
  exact hne

lemma getLast?_concat (sent : List CaptureControl) (type : CaptureControl) :
    (CaptureControl.stop :: (sent ++ [type])).getLast? = some type :=
  List.getLast?_concat (l := CaptureControl.stop :: sent)

/-- A capture that does not run and holds nothing. -/
lemma Coherent.off (h : s.Coherent) {loads : List Nat} {sent : List CaptureControl}
    {starting wanted failed announced : Bool} (hloads : loads.length = starting.toNat)
    (hobeyed : starting = false → failed = false → wanted = false)
    (hmessages : (CaptureControl.stop :: sent).IsChain (· ≠ ·))
    (hearly : s.graph.readyState = .connecting → sent = [] ∧ announced = false)
    (hlast : s.graph.readyState = .open →
      (CaptureControl.stop :: sent).getLast? = some .stop) :
    Coherent
      ⟨⟨s.graph.live, s.graph.readyState, none, none, none, false, starting,
        closeAll s.graph.contexts s.graph.ctx.toList, loads, sent⟩, wanted, failed, announced⟩ where
  live := h.live
  held := by
    refine (h.held.closeAll s.graph.ctx.toList).imp fun i hi => ?_
    exact absurd (Option.mem_toList.mpr hi.1) hi.2
  loads := hloads
  active hactive := by cases hactive
  busy hctx := by cases hctx
  wanted hctx := by cases hctx
  obeyed hstarting hfailed hwanted := by
    cases (hobeyed hstarting hfailed).symm.trans hwanted
  messages := hmessages
  early := hearly
  last := hlast
  unannounced _ hactive := by cases hactive

/-- Where no message of a stop is due, the last one was of a stop. -/
lemma Coherent.last_stop (h : s.Coherent)
    (hsilent : ¬ (s.graph.active = true ∧ s.graph.readyState = .open))
    (hopen : s.graph.readyState = .open) :
    (CaptureControl.stop :: s.graph.sent).getLast? = some .stop := by
  rw [h.last hopen, if_neg fun hruns => hsilent ⟨hruns.1, hopen⟩]

/-- A stop. -/
lemma Coherent.stop (h : s.Coherent) (hstops : s.stopsAnnounced = true) :
    Coherent { s with graph := s.graph.stop, wanted := false } := by
  rw [PcmGraph.stop_eq]
  by_cases hsends : s.graph.active = true ∧ s.graph.readyState = .open
  · have hannounced : s.announced = true := by
      simpa [stopsAnnounced, hsends.1, hsends.2] using hstops
    have hlast := h.last hsends.2
    rw [if_pos ⟨hsends.1, hannounced⟩] at hlast
    simp only [if_pos hsends]
    refine h.off h.loads (fun _ _ => rfl) ?_ ?_ fun _ => getLast?_concat _ _
    · exact alternates_concat h.messages hlast (by simp)
    · intro hearly
      cases hsends.2.symm.trans hearly
  · simp only [if_neg hsends]
    exact h.off h.loads (fun _ _ => rfl) h.messages h.early (h.last_stop hsends)

/-- A start. -/
lemma Coherent.start (h : s.Coherent) :
    Coherent { s with graph := s.graph.start, wanted := true } := by
  by_cases hbusy : s.graph.active = true ∨ s.graph.starting = true
  · rw [PcmGraph.start_of_busy hbusy]
    exact
      { h with
        wanted := fun _ => rfl
        obeyed := fun hstarting _ _ => hbusy.resolve_right (by simp only at hstarting; simp [hstarting]) }
  · obtain ⟨hactive, hstarting⟩ := not_or.mp hbusy
    rw [Bool.not_eq_true] at hactive hstarting
    have hctx : s.graph.ctx.isSome = false := by
      rw [← Bool.not_eq_true]
      exact fun hctx => hbusy (h.busy hctx)
    rw [PcmGraph.start_of_idle hactive hstarting h.live]
    exact
      { live := h.live
        held := by
          refine (h.held.imp fun i hi => ?_).append_one rfl
          rw [hi] at hctx
          cases hctx
        loads := by
          have hloads := h.loads
          rw [hstarting] at hloads
          simp [hloads]
        active := fun h' => by cases hactive.symm.trans h'
        busy := fun _ => .inr rfl
        wanted := fun _ => rfl
        obeyed := fun h' => by cases h'
        messages := h.messages
        early := h.early
        last := h.last
        unannounced := h.unannounced }

/-- A load is waited for by the one start. -/
lemma Coherent.starting (h : s.Coherent) (hload : load ∈ s.graph.loads) :
    s.graph.starting = true ∧ s.graph.active = false ∧ s.graph.loads.erase load = [] := by
  have hloads := h.loads
  have hpos := List.length_pos_of_mem hload
  have hstarting : s.graph.starting = true := by
    rw [← Bool.not_eq_false]
    intro hidle
    rw [hidle] at hloads
    exact absurd hloads (Nat.ne_of_gt hpos)
  refine ⟨hstarting, ?_, ?_⟩
  · rw [← Bool.not_eq_true]
    intro hactive
    cases (h.active hactive).1.symm.trans hstarting
  · rw [hstarting] at hloads
    rw [← List.length_eq_zero_iff, List.length_erase_of_mem hload, hloads]
    rfl

/-- A load that makes the capture active. -/
lemma Coherent.activate (h : s.Coherent) (hload : load ∈ s.graph.loads) {ctx : Nat}
    (hctx : s.graph.ctx = some ctx) :
    Coherent { s with
      graph := s.graph.settle load true
      announced := s.graph.readyState = .open } := by
  obtain ⟨-, hactive, hnone⟩ := h.starting hload
  have hwanted : s.wanted = true := h.wanted (by rw [hctx]; rfl)
  have hlast := h.last_stop (by simp [hactive])
  rw [PcmGraph.settle_of_held h.live hctx, hnone]
  exact
    { live := h.live
      held := h.held
      loads := rfl
      active := fun _ => ⟨rfl, by rw [hctx]; rfl⟩
      busy := fun _ => .inl rfl
      wanted := fun _ => hwanted
      obeyed := fun _ _ _ => rfl
      messages := by
        split_ifs with hopen
        · exact alternates_concat h.messages (hlast hopen) (by simp)
        · exact h.messages
      early := fun hearly => by
        simp only at hearly ⊢
        simp [hearly, (h.early hearly).1]
      last := fun hopen => by
        simp only at hopen ⊢
        simp only [if_pos hopen, decide_eq_true hopen, and_self, if_true]
        exact getLast?_concat _ _
      unannounced := fun hopen _ hunannounced => by
        simp only at hopen hunannounced
        simp [hopen] at hunannounced }

/-- A load that comes to nothing. -/
lemma Coherent.fail (h : s.Coherent) (hload : load ∈ s.graph.loads) {loaded failed : Bool}
    (hlost : loaded = true → s.graph.ctx = none) (hobeyed : failed = false → s.wanted = false)
    {announced : Bool} (hannounced : s.graph.readyState = .connecting → announced = false) :
    Coherent ⟨s.graph.settle load loaded, s.wanted, failed, announced⟩ := by
  obtain ⟨-, hactive, hnone⟩ := h.starting hload
  have hsilent : ¬ (s.graph.active = true ∧ s.graph.readyState = .open) := by simp [hactive]
  rw [PcmGraph.settle_of_lost hlost, PcmGraph.stop_eq]
  simp only [if_neg hsilent, hnone]
  refine h.off rfl (fun _ => hobeyed) h.messages (fun hearly => ?_) (h.last_stop hsilent)
  exact ⟨(h.early hearly).1, hannounced hearly⟩

lemma connecting_of_opens {before : ReadyState} (hnext : before.mayBecome .open = true) :
    before = .connecting := by
  cases before with
  | connecting => rfl
  | «open» | closed => cases hnext

/-- Opening or closing the socket. -/
lemma Coherent.socket (h : s.Coherent) (hnext : s.graph.readyState.mayBecome readyState = true) :
    Coherent { s with graph := { s.graph with readyState } } := by
  cases readyState with
  | connecting => cases hstate : s.graph.readyState <;> rw [hstate] at hnext <;> cases hnext
  | «open» =>
    obtain ⟨hsent, hannounced⟩ := h.early (connecting_of_opens hnext)
    refine { h with early := ?_, last := ?_, unannounced := fun _ _ _ => hsent }
    · rintro ⟨⟩
    · simp [hsent, hannounced]
  | closed =>
    refine { h with early := ?_, last := ?_, unannounced := ?_ }
    all_goals rintro ⟨⟩

/-- **Every step that heeds keeps the invariant.** -/
lemma Coherent.step (h : s.Coherent) (hheeds : s.heeds a = true) (hstep : s.step a = some t) :
    t.Coherent := by
  obtain ⟨graph, hgraph, rfl⟩ := Option.map_eq_some_iff.mp hstep
  cases a with
  | start =>
    obtain rfl := Option.some_inj.mp hgraph
    exact h.start
  | stop =>
    obtain rfl := Option.some_inj.mp hgraph
    exact h.stop hheeds
  | restart =>
    obtain rfl := Option.some_inj.mp hgraph
    exact (h.stop hheeds).start
  | setMuted muted =>
    obtain rfl := Option.some_inj.mp hgraph
    cases muted with
    | true => exact h.stop hheeds
    | false => exact h.start
  | settled load loaded =>
    obtain ⟨hload, hgraph⟩ := Option.ite_none_right_eq_some.mp hgraph
    obtain rfl := Option.some_inj.mp hgraph
    cases loaded with
    | false => exact h.fail hload (by simp) (by simp) fun hearly => (h.early hearly).2
    | true =>
      cases hctx : s.graph.ctx with
      | some ctx => exact h.activate hload hctx
      | none =>
        refine h.fail hload (fun _ => hctx) (fun hfailed => ?_) fun hearly => by simp [hearly]
        simpa [heeds, hctx, hfailed] using hheeds
  | socket readyState =>
    obtain ⟨hnext, hgraph⟩ := Option.ite_none_right_eq_some.mp hgraph
    obtain rfl := Option.some_inj.mp hgraph
    exact h.socket hnext

/-- A stop of what was not announced is the first message. -/
lemma Coherent.stop_sent (h : s.Coherent) (hstops : s.stopsAnnounced = false) :
    s.graph.stop.sent = [.stop] := by
  simp only [stopsAnnounced, Bool.or_eq_false_iff, Bool.not_eq_false', Bool.and_eq_true,
    decide_eq_true_eq] at hstops
  obtain ⟨⟨hactive, hopen⟩, hannounced⟩ := hstops
  simp [PcmGraph.stop_eq, hactive, hopen, h.unannounced hopen hactive hannounced]

/-- **A step that does not heed leads to a state that is not as it should be.** -/
lemma Coherent.not_obeys (h : s.Coherent) (hheeds : s.heeds a = false)
    (hstep : s.step a = some t) : ¬ t.Obeys := by
  obtain ⟨graph, hgraph, rfl⟩ := Option.map_eq_some_iff.mp hstep
  intro hobeys
  cases a with
  | start | socket => cases hheeds
  | stop =>
    obtain rfl := Option.some_inj.mp hgraph
    have hmessages := hobeys.messages
    rw [h.stop_sent hheeds] at hmessages
    simp at hmessages
  | restart =>
    obtain rfl := Option.some_inj.mp hgraph
    have hmessages := hobeys.messages
    simp only [PcmGraph.restart, PcmGraph.start_sent, h.stop_sent hheeds] at hmessages
    simp at hmessages
  | setMuted muted =>
    obtain rfl := Option.some_inj.mp hgraph
    cases muted with
    | false => cases hheeds
    | true =>
      have hmessages := hobeys.messages
      simp only [PcmGraph.setMuted, if_true, h.stop_sent hheeds] at hmessages
      simp at hmessages
  | settled load loaded =>
    obtain ⟨hload, hgraph⟩ := Option.ite_none_right_eq_some.mp hgraph
    obtain rfl := Option.some_inj.mp hgraph
    obtain ⟨-, -, hnone⟩ := h.starting hload
    simp only [heeds, Bool.or_eq_false_iff, Bool.not_eq_false', Option.isSome_eq_false_iff,
      Option.isNone_iff_eq_none] at hheeds
    obtain ⟨⟨⟨rfl, hctx⟩, hwanted⟩, hfailed⟩ := hheeds
    -- the capture is asked for, and stays off
    have hoff : s.graph.settle load true = { s.graph.stop with loads := [], starting := false } := by
      rw [PcmGraph.settle_of_lost fun _ => hctx, hnone]
    have hactive := (hobeys.active (by simp only [hoff]) hfailed).mpr hwanted
    simp [hoff, PcmGraph.stop_eq] at hactive

/-- **The capture obeys** in every state of a run exactly if every step of it heeds. -/
theorem obeys_iff_of_run {as : List CaptureEvent} (hrun : Run Step (init readyState) as s) :
    Run (Guarded Step fun s a => s.heeds a = true) (init readyState) as s ↔
      ∀ pre u, pre <+: as → Run Step (init readyState) pre u → u.Obeys :=
  Run.guarded_iff_prefixes (fun _ _ _ h hheeds hstep => h.step hheeds hstep)
    (fun _ h => h.obeys) (fun _ _ _ h hheeds hstep => h.not_obeys hheeds hstep) hrun
    (init_coherent readyState)

/-- A capture is restarted while it runs, and muted while it loads. -/
theorem restarted_and_muted :
    let as : List CaptureEvent := [.start, .settled 0 true, .restart, .setMuted true,
      .settled 1 true, .setMuted false, .settled 2 true]
    ∃ s, Run Step (init .open) as s ∧ s.graph.active = true ∧
      s.graph.sent = [.start, .stop, .start] ∧
      ∀ pre u, pre <+: as → Run Step (init .open) pre u → u.Obeys := by
  intro as
  obtain ⟨s, hguarded, hactive, hsent⟩ : ∃ s, Run (Guarded Step fun s a => s.heeds a = true)
      (init .open) as s ∧ s.graph.active = true ∧ s.graph.sent = [.start, .stop, .start] :=
    Run.exists_guarded_of_decide (by decide +kernel)
  exact ⟨s, hguarded.ofGuarded, hactive, hsent, (obeys_iff_of_run hguarded.ofGuarded).mp hguarded⟩

/-- A capture is stopped and started again while its worklet is loaded: it stays off. -/
theorem second_start_is_lost : ∃ s,
    Run Step (init .open) [.start, .stop, .start, .settled 0 true] s ∧ ¬ s.Obeys := by
  obtain ⟨s, hrun, hloads, hfailed, hactive, hwanted⟩ : ∃ s,
      Run Step (init .open) [.start, .stop, .start, .settled 0 true] s ∧ s.graph.loads = [] ∧
        s.failed = false ∧ s.graph.active = false ∧ s.wanted = true :=
    Run.exists_of_decide (by decide +kernel)
  refine ⟨s, hrun, fun hobeys => ?_⟩
  cases hactive.symm.trans ((hobeys.active hloads hfailed).mpr hwanted)

end CaptureHistory

end VoxTranslate.Client
