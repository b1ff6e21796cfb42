import Mathlib.Order.Lattice
import VoxTranslate.Lib.Run

/-!
# The negotiation of two peers

Two clients of a room negotiate one connection by offers and answers.  The greater id is polite:
it yields when two offers cross, and the other ignores the colliding one.  A connection runs one
operation after the other, as they were asked for, and the handler that asked goes on when its
operation is done.  A connection that is replaced is closed: what was asked of it is never done.
Candidates, tracks, streams and bitrates are left out.
-/

namespace VoxTranslate.Client.Negotiation

/-- One of the two clients. -/
inductive End where
  | a
  | b
  deriving DecidableEq, Repr

def End.other : End → End
  | .a => .b
  | .b => .a

/-- An answer, and the offer it answers.  An offer is known by its number; an answer does not carry
the number of its offer, it is kept to say what it was applied to. -/
structure Answer where
  id : Nat
  offer : Nat
  deriving DecidableEq, Repr

inductive SignalingState where
  | stable
  | haveLocalOffer (offer : Nat)
  | haveRemoteOffer (offer : Nat)
  deriving DecidableEq, Repr

/-- An operation of a connection, for the handler that waits for it: the first two for
`negotiate`, the next four for the handling of an offer, the last for that of an answer. -/
inductive Operation where
  | createOffer
  | setLocalOffer (offer : Nat)
  | rollback (offer : Nat)
  | setRemoteOffer (offer : Nat)
  | createAnswer (offer : Nat)
  | setLocalAnswer (offer : Nat) (answer : Answer)
  | setRemoteAnswer (answer : Answer)
  deriving DecidableEq, Repr

inductive Signal where
  | offer (offer : Nat)
  | answer (answer : Answer)
  deriving DecidableEq, Repr

/-- A connection with its bookkeeping.  `current` is the offer and the answer that were last
applied together. -/
structure PeerState where
  signalingState : SignalingState
  operations : List Operation
  current : Option (Nat × Answer)
  lastCreatedOffer : Option Nat
  lastCreatedAnswer : Option Answer
  makingOffer : Bool
  deriving DecidableEq, Repr

namespace PeerState

def new : PeerState where
  signalingState := .stable
  operations := []
  current := none
  lastCreatedOffer := none
  lastCreatedAnswer := none
  makingOffer := false

def push (p : PeerState) (op : Operation) : PeerState :=
  { p with operations := p.operations ++ [op] }

/-- Ask for an offer. -/
def negotiate (p : PeerState) : PeerState := { p with makingOffer := true }.push .createOffer

def handleOffer (p : PeerState) (polite : Bool) (offer : Nat) : PeerState :=
  let collision := p.makingOffer || p.signalingState ≠ .stable
  if !polite && collision then p
  else if collision then p.push (.rollback offer)
  else p.push (.setRemoteOffer offer)

def handleAnswer (p : PeerState) (answer : Answer) : PeerState :=
  match p.signalingState with
  | .haveLocalOffer _ => p.push (.setRemoteAnswer answer)
  | _ => p

/-- An offer and an answer are both applied: the negotiation is complete. -/
def complete (p : PeerState) (offer : Nat) (answer : Answer) : PeerState :=
  { p with
    signalingState := .stable, current := some (offer, answer)
    lastCreatedOffer := none, lastCreatedAnswer := none }

/-- An operation is done, or refused, and its handler goes on until it asks for the next one.
What is created takes the number `fresh`; a signal may be sent. -/
def settle (p : PeerState) (fresh : Nat) : Operation → PeerState × Option Signal
  | .createOffer =>
    match p.signalingState with
    | .haveRemoteOffer _ => ({ p with makingOffer := false }, none)
    | .haveLocalOffer _ => ({ p with lastCreatedOffer := some fresh, makingOffer := false }, none)
    | .stable => ({ p with lastCreatedOffer := some fresh }.push (.setLocalOffer fresh), none)
  | .setLocalOffer offer =>
    match p.signalingState with
    | .haveRemoteOffer _ => ({ p with makingOffer := false }, none)
    | _ =>
      if p.lastCreatedOffer = some offer then
        ({ p with signalingState := .haveLocalOffer offer, makingOffer := false },
          some (.offer offer))
      else ({ p with makingOffer := false }, none)
  -- a rollback that is refused, where nothing is pending, is caught
  | .rollback offer => ({ p with signalingState := .stable }.push (.setRemoteOffer offer), none)
  -- a local offer that is pending is rolled back
  | .setRemoteOffer offer =>
    ({ p with signalingState := .haveRemoteOffer offer }.push (.createAnswer offer), none)
  | .createAnswer offer =>
    match p.signalingState with
    | .haveRemoteOffer remote =>
      ({ p with lastCreatedAnswer := some ⟨fresh, remote⟩ }.push
        (.setLocalAnswer offer ⟨fresh, remote⟩), none)
    | _ => (p, none)
  | .setLocalAnswer _ answer =>
    match p.signalingState with
    | .haveRemoteOffer remote =>
      if p.lastCreatedAnswer = some answer then (p.complete remote answer, some (.answer answer))
      else (p, none)
    | _ => (p, none)
  | .setRemoteAnswer answer =>
    match p.signalingState with
    | .haveLocalOffer pending => (p.complete pending answer, none)
    | _ => (p, none)

end PeerState

/-- The two clients, and what is on the way to each. -/
structure Mesh where
  peer : End → Option PeerState
  inbox : End → List Signal
  fresh : Nat
  /-- An offer was sent after the last `addPeer`. -/
  offered : Bool

inductive MeshEvent where
  | addPeer (e : End)
  | restartIce (e : End)
  | deliver (e : End)
  | operationDone (e : End)
  deriving DecidableEq, Repr

namespace Mesh

variable {ι : Type*} [LinearOrder ι] (ids : End → ι)

def new : Mesh where
  peer := fun _ => none
  inbox := fun _ => []
  fresh := 0
  offered := false

/-- The greater id is polite. -/
def polite (e : End) : Bool := ids e.other < ids e

def setPeer (s : Mesh) (e : End) (p : PeerState) : Mesh :=
  { s with peer := Function.update s.peer e (some p) }

def setInbox (s : Mesh) (e : End) (signals : List Signal) : Mesh :=
  { s with inbox := Function.update s.inbox e signals }

/-- Add the other client, in place of a connection that is still held. -/
def addPeer (s : Mesh) (e : End) : Mesh :=
  { s.setPeer e (if polite ids e then .new else PeerState.new.negotiate) with offered := false }

def handle (s : Mesh) (e : End) : Signal → Mesh
  | .offer offer =>
    s.setPeer e (((s.peer e).getD .new).handleOffer (polite ids e) offer)
  | .answer answer =>
    match s.peer e with
    | some p => s.setPeer e (p.handleAnswer answer)
    | none => s

/-- The signal that a handler sent is on its way to the other client. -/
def send (s : Mesh) (e : End) : Option Signal → Mesh
  | none => s
  | some (.offer offer) =>
    { s.setInbox e.other (s.inbox e.other ++ [.offer offer]) with offered := true }
  | some (.answer answer) => s.setInbox e.other (s.inbox e.other ++ [.answer answer])

/-- One event; `none` where it cannot happen. -/
def step (s : Mesh) : MeshEvent → Option Mesh
  | .addPeer e => some (s.addPeer ids e)
  | .restartIce e => (s.peer e).map fun p => s.setPeer e p.negotiate
  | .deliver e =>
    match s.inbox e with
    | [] => none
    | signal :: signals => some ((s.setInbox e signals).handle ids e signal)
  | .operationDone e =>
    match s.peer e with
    | none => none
    | some p =>
      match p.operations with
      | [] => none
      | op :: operations =>
        let settled := { p with operations }.settle s.fresh op
        some (({ s with fresh := s.fresh + 1 }.setPeer e settled.1).send e settled.2)

end Mesh

end VoxTranslate.Client.Negotiation
