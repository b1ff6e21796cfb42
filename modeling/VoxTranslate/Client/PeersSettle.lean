import Mathlib.Data.Nat.Basic
import VoxTranslate.Client.PeerOperations

/-!
# Two peers settle

The answers name no offer, and the impolite side drops every offer that comes while it is not
stable: it must not be asked for two offers at a time, take an offer while it applies an answer, or
be given a new connection while an answer is due.
-/

namespace VoxTranslate.Client.Negotiation

open Lib

/-! ## Two clients -/

namespace End

lemma other_ne (e : End) : e.other ≠ e := by
  cases e <;> decide

@[simp] lemma other_other (e : End) : e.other.other = e := by
  cases e <;> rfl

lemma eq_or (e i : End) : e = i ∨ e = i.other := by
  cases e <;> cases i <;> decide

end End

namespace Mesh

/-- The connection of a client; one that is not held is as a new one. -/
def «at» (s : Mesh) (e : End) : PeerState := (s.peer e).getD .new

/-- The exchange, with `i` as its impolite side. -/
def exchange (s : Mesh) (i : End) : Exchange where
  impolite := (s.at i).side
  polite := (s.at i.other).side
  willOffer := (s.at i).willOffer
  yields := (s.at i.other).yields
  toImpolite := s.inbox i
  toPolite := s.inbox i.other
  offered := s.offered

/-- The invariant, with `i` as the impolite side. -/
structure Inv (s : Mesh) (i : End) : Prop where
  working : ∀ e, (s.at e).Working s.fresh
  careful : (s.at i).Careful
  ordered : (s.at i.other).Ordered
  sound : (s.exchange i).Sound

variable {s t : Mesh} {i e : End} {p : PeerState}

@[simp] lemma at_setPeer_self : (s.setPeer e p).at e = p := by
  simp [Mesh.at, setPeer]

lemma at_setPeer_ne {e' : End} (h : e' ≠ e) : (s.setPeer e p).at e' = s.at e' := by
  simp [Mesh.at, setPeer, h]

@[simp] lemma at_setPeer_other : (s.setPeer e p).at e.other = s.at e.other :=
  at_setPeer_ne e.other_ne

@[simp] lemma at_setPeer_of_other : (s.setPeer e.other p).at e = s.at e :=
  at_setPeer_ne e.other_ne.symm

@[simp] lemma at_setInbox {e' : End} {signals : List Signal} :
    (s.setInbox e signals).at e' = s.at e' := rfl

@[simp] lemma inbox_setPeer {e' : End} : (s.setPeer e p).inbox e' = s.inbox e' := rfl

@[simp] lemma offered_setPeer : (s.setPeer e p).offered = s.offered := rfl

@[simp] lemma inbox_setInbox_self {signals : List Signal} :
    (s.setInbox e signals).inbox e = signals := by
  simp [setInbox]

@[simp] lemma inbox_setInbox_other {signals : List Signal} :
    (s.setInbox e signals).inbox e.other = s.inbox e.other := by
  simp [setInbox, e.other_ne]

@[simp] lemma inbox_setInbox_of_other {signals : List Signal} :
    (s.setInbox e.other signals).inbox e = s.inbox e := by
  simp [setInbox, e.other_ne.symm]

lemma exchange_setPeer_self : (s.setPeer i p).exchange i =
    { s.exchange i with impolite := p.side, willOffer := p.willOffer } := by
  simp [exchange]

lemma exchange_setPeer_other : (s.setPeer i.other p).exchange i =
    { s.exchange i with polite := p.side, yields := p.yields } := by
  simp [exchange]

lemma exchange_setInbox_self {signals : List Signal} : (s.setInbox i signals).exchange i =
    { s.exchange i with toImpolite := signals } := by
  simp [exchange, setInbox, i.other_ne, Mesh.at]

lemma exchange_setInbox_other {signals : List Signal} : (s.setInbox i.other signals).exchange i =
    { s.exchange i with toPolite := signals } := by
  simp [exchange, setInbox, i.other_ne.symm, Mesh.at]

lemma at_of_some (h : s.peer e = some p) : s.at e = p := by
  rw [Mesh.at, h]
  rfl

/-- No side handles two offers. -/
lemma Inv.single (h : s.Inv i) : (s.at i).side.handles.length ≤ 1 ∧
    (s.at i.other).side.handles.length ≤ 1 := by
  constructor
  · cases hhandles : (s.at i).side.handles with
    | nil => exact Nat.zero_le _
    | cons o os =>
      have hrest := (h.sound.accepted_handles hhandles).2.1
      exact Nat.le_of_eq (by rw [hrest, List.length_singleton])
  · cases hhandles : (s.at i.other).side.handles with
    | nil => exact Nat.zero_le _
    | cons o os =>
      have hrest := (h.sound.own_handles hhandles).2.1
      exact Nat.le_of_eq (by rw [hrest, List.length_singleton])

/-- A change of the impolite side. -/
lemma Inv.of_impolite (h : s.Inv i) (hp : p.Working s.fresh) (hc : p.Careful)
    (hat : t.at i = p) (hat' : t.at i.other = s.at i.other) (hfresh : t.fresh = s.fresh)
    (hsound : (t.exchange i).Sound) : t.Inv i := by
  refine ⟨fun e => ?_, hat ▸ hc, hat'.symm ▸ h.ordered, hsound⟩
  rw [hfresh]
  rcases e.eq_or i with rfl | rfl
  · rw [hat]
    exact hp
  · rw [hat']
    exact h.working _

/-- A change of the polite side. -/
lemma Inv.of_polite (h : s.Inv i) (hp : p.Working s.fresh) (ho : p.Ordered)
    (hat : t.at i.other = p) (hat' : t.at i = s.at i) (hfresh : t.fresh = s.fresh)
    (hsound : (t.exchange i).Sound) : t.Inv i := by
  refine ⟨fun e => ?_, hat'.symm ▸ h.careful, hat ▸ ho, hsound⟩
  rw [hfresh]
  rcases e.eq_or i with rfl | rfl
  · rw [hat']
    exact h.working _
  · rw [hat]
    exact hp

/-! ## Adding a peer, and restarting -/

variable {ι : Type*} [LinearOrder ι] {ids : End → ι}

lemma Inv.addPeer_impolite (h : s.Inv i) (hi : polite ids i = false)
    (hawaits : (s.at i).signalingState.awaits = none) : (s.addPeer ids i).Inv i := by
  have hadd : s.addPeer ids i = { s.setPeer i PeerState.new.negotiate with offered := false } := by
    rw [addPeer, hi]
    rfl
  rw [hadd]
  apply h.of_impolite PeerState.working_new.negotiate (PeerState.careful_new.negotiate rfl)
  · exact at_setPeer_self
  · exact at_setPeer_other
  · rfl
  · have hx : Exchange.Sound { (s.setPeer i PeerState.new.negotiate).exchange i with
        offered := false } := by
      rw [exchange_setPeer_self]
      exact h.sound.replace_impolite hawaits
    exact hx

lemma Inv.addPeer_polite (h : s.Inv i) (hi : polite ids i.other = true)
    (hawaits : (s.at i.other).signalingState.awaits = none)
    (hhandles : (s.at i.other).side.handles = []) : (s.addPeer ids i.other).Inv i := by
  have hadd : s.addPeer ids i.other = { s.setPeer i.other .new with offered := false } := by
    rw [addPeer, hi]
    rfl
  rw [hadd]
  apply h.of_polite PeerState.working_new List.Pairwise.nil
  · exact at_setPeer_self
  · exact at_setPeer_of_other
  · rfl
  · have hx : Exchange.Sound { (s.setPeer i.other .new).exchange i with offered := false } := by
      rw [exchange_setPeer_other]
      exact h.sound.replace_polite hawaits hhandles
    exact hx

lemma Inv.restart_impolite (h : s.Inv i) (hidle : (s.at i).makingOffer = false) :
    (s.setPeer i (s.at i).negotiate).Inv i := by
  apply h.of_impolite (h.working i).negotiate (h.careful.negotiate hidle)
  · exact at_setPeer_self
  · exact at_setPeer_other
  · rfl
  · have hside : (s.at i).negotiate.side = (s.at i).side := by
      simp [PeerState.side, PeerState.negotiate, PeerState.push, Operation.handles,
        Operation.applies]
    rw [exchange_setPeer_self, hside]
    refine h.sound.willOffer fun hwill => ?_
    have hold : (s.at i).willOffer = true := hwill
    rw [PeerState.willOffer, hidle] at hold
    cases hold

lemma Inv.restart_polite (h : s.Inv i) :
    (s.setPeer i.other (s.at i.other).negotiate).Inv i := by
  apply h.of_polite (h.working i.other).negotiate
  · exact PeerState.Ordered.push h.ordered (.inl nofun)
  · exact at_setPeer_self
  · exact at_setPeer_of_other
  · rfl
  · have hside : (s.at i.other).negotiate.side = (s.at i.other).side := by
      simp [PeerState.side, PeerState.negotiate, PeerState.push, Operation.handles,
        Operation.applies]
    have hyields : (s.at i.other).negotiate.yields = (s.at i.other).yields := by
      simp [PeerState.yields, PeerState.negotiate, PeerState.push, Operation.takesOffer]
    rw [exchange_setPeer_other, hside, hyields]
    exact h.sound

/-! ## Deliveries -/

/-- A side that waits for an answer holds its connection. -/
lemma peer_of_awaits (h : (s.at e).signalingState.awaits.isSome = true) :
    s.peer e = some (s.at e) := by
  cases hpeer : s.peer e with
  | some p => rw [at_of_some hpeer]
  | none =>
    rw [Mesh.at, hpeer] at h
    cases h

lemma handleAnswer_of_awaits {answer : Answer} (h : p.signalingState.awaits.isSome = true) :
    p.handleAnswer answer = p.push (.setRemoteAnswer answer) := by
  rw [PeerState.handleAnswer]
  split
  · rfl
  next hnot =>
    cases hsig : p.signalingState with
    | haveLocalOffer o => exact absurd hsig (hnot o)
    | _ =>
      rw [hsig] at h
      cases h

/-- An offer comes to the impolite side while it applies no answer. -/
lemma Inv.deliverOffer_impolite (h : s.Inv i) (hi : polite ids i = false) {offer : Nat}
    {signals : List Signal} (hin : s.inbox i = .offer offer :: signals)
    (happlies : (s.at i).side.applies = []) :
    ((s.setInbox i signals).handle ids i (.offer offer)).Inv i := by
  have hhandle : (s.setInbox i signals).handle ids i (.offer offer) =
      (s.setInbox i signals).setPeer i ((s.at i).handleOffer false offer) := by
    rw [handle, hi]
    rfl
  rw [hhandle, PeerState.handleOffer, Bool.not_false, Bool.true_and]
  by_cases hbusy : ((s.at i).makingOffer || (s.at i).signalingState ≠ .stable) = true
  · rw [if_pos hbusy]
    apply h.of_impolite (h.working i) h.careful
    · exact at_setPeer_self
    · exact at_setPeer_other
    · rfl
    · rw [exchange_setPeer_self, exchange_setInbox_self]
      refine h.sound.ignoreOffer hin ?_ happlies fun hhandles hawaits => ?_
      · cases hsig : (s.at i).signalingState with
        | haveLocalOffer o =>
          right
          left
          simp [exchange, PeerState.side, hsig, SignalingState.awaits]
        | haveRemoteOffer o =>
          right
          right
          exact (h.working i).handles_of_remote hsig
        | stable =>
          by_cases hhandles : (s.at i).side.handles = []
          · left
            simpa [exchange, PeerState.willOffer, hsig, hhandles] using hbusy
          · exact .inr (.inr hhandles)
      · refine (h.working i.other).yields hhandles fun o hremote => ?_
        have hpending : (s.at i.other).signalingState.awaits.isSome = true := hawaits
        rw [hremote] at hpending
        cases hpending
  · rw [if_neg hbusy, if_neg hbusy]
    have hidle : (s.at i).makingOffer = false ∧ (s.at i).signalingState = .stable := by
      simpa using hbusy
    have hawaits : (s.at i).signalingState.awaits = none := by rw [hidle.2]; rfl
    have hhandles : (s.at i).side.handles = [] := by
      by_contra hne
      obtain ⟨o, os, hhandles⟩ := List.exists_cons_of_ne_nil hne
      have hnone := (h.sound.accepted_handles hhandles).2.2.2.2
      rw [exchange, hin] at hnone
      cases hnone
    apply h.of_impolite (p := (s.at i).push (.setRemoteOffer offer))
    · exact (h.working i).push (by simp) (by simp) (by simp)
    · exact h.careful.takeOffer hidle.1 hidle.2 hhandles happlies offer
    · exact at_setPeer_self
    · exact at_setPeer_other
    · rfl
    · rw [exchange_setPeer_self, exchange_setInbox_self]
      have hside : ((s.at i).push (.setRemoteOffer offer)).side =
          { (s.at i).side with handles := (s.at i).side.handles ++ [offer] } := by
        simp [PeerState.side, PeerState.push, Operation.handles, Operation.applies]
      rw [hside]
      exact h.sound.acceptOffer hin hawaits

lemma Inv.deliverAnswer_impolite (h : s.Inv i) {answer : Answer} {signals : List Signal}
    (hin : s.inbox i = .answer answer :: signals) :
    ((s.setInbox i signals).handle ids i (.answer answer)).Inv i := by
  have hans : answers (s.inbox i) = answer :: answers signals := by
    rw [hin, answers_cons_answer]
  have hawaits : (s.at i).signalingState.awaits.isSome = true := by
    have hsome := (h.sound.own_answers hans).1
    have hsome' : (s.at i).signalingState.awaits = some answer.offer := hsome
    rw [hsome']
    rfl
  have hhandle : (s.setInbox i signals).handle ids i (.answer answer) =
      (s.setInbox i signals).setPeer i ((s.at i).push (.setRemoteAnswer answer)) := by
    have hpeer : (s.setInbox i signals).peer i = some (s.at i) := peer_of_awaits hawaits
    rw [handle, hpeer, ← handleAnswer_of_awaits hawaits]
  rw [hhandle]
  apply h.of_impolite (p := (s.at i).push (.setRemoteAnswer answer))
  · exact (h.working i).push (by simp) (by simp) (by simp)
  · exact h.careful.push rfl rfl fun _ => rfl
  · exact at_setPeer_self
  · exact at_setPeer_other
  · rfl
  · rw [exchange_setPeer_self, exchange_setInbox_self]
    have hside : ((s.at i).push (.setRemoteAnswer answer)).side =
        { (s.at i).side with applies := (s.at i).side.applies ++ [answer] } := by
      simp [PeerState.side, PeerState.push, Operation.handles, Operation.applies]
    have hwill : ((s.at i).push (.setRemoteAnswer answer)).willOffer = (s.at i).willOffer := by
      rw [PeerState.willOffer, hside]
      rfl
    rw [hside, hwill]
    exact h.sound.takeAnswer_impolite hin

lemma Inv.deliverOffer_polite (h : s.Inv i) (hi : polite ids i.other = true) {offer : Nat}
    {signals : List Signal} (hin : s.inbox i.other = .offer offer :: signals) :
    ((s.setInbox i.other signals).handle ids i.other (.offer offer)).Inv i := by
  have hpush : ∀ op : Operation, op.handles = some offer → op.takesOffer = true →
      ((s.setInbox i.other signals).setPeer i.other ((s.at i.other).push op)).Inv i := by
    intro op hop htakes
    apply h.of_polite (p := (s.at i.other).push op)
    · refine (h.working i.other).push ?_ ?_ ?_
      · rintro o rfl
        cases htakes
      · rintro o a rfl
        cases htakes
      · rintro o rfl
        cases htakes
    · refine PeerState.Ordered.push h.ordered (.inl ?_)
      rintro a rfl
      cases htakes
    · exact at_setPeer_self
    · exact at_setPeer_of_other
    · rfl
    · rw [exchange_setPeer_other, exchange_setInbox_other]
      have hno : op.applies = none := by
        cases op <;> first | rfl | cases htakes
      have hside : ((s.at i.other).push op).side =
          { (s.at i.other).side with handles := (s.at i.other).side.handles ++ [offer] } := by
        simp [PeerState.side, PeerState.push, hop, hno]
      have hyields : ((s.at i.other).push op).yields = true := by
        simp [PeerState.yields, PeerState.push, htakes]
      rw [hside, hyields]
      exact h.sound.takeOffer hin
  have hhandle : (s.setInbox i.other signals).handle ids i.other (.offer offer) =
      (s.setInbox i.other signals).setPeer i.other ((s.at i.other).handleOffer true offer) := by
    rw [handle, hi]
    rfl
  rw [hhandle, PeerState.handleOffer, Bool.not_true, Bool.false_and, if_neg Bool.false_ne_true]
  split_ifs
  · exact hpush (.rollback offer) rfl rfl
  · exact hpush (.setRemoteOffer offer) rfl rfl

lemma Inv.deliverAnswer_polite (h : s.Inv i) {answer : Answer} {signals : List Signal}
    (hin : s.inbox i.other = .answer answer :: signals) :
    ((s.setInbox i.other signals).handle ids i.other (.answer answer)).Inv i := by
  have hans : answers (s.inbox i.other) = answer :: answers signals := by
    rw [hin, answers_cons_answer]
  obtain ⟨hsome, -⟩ := h.sound.accepted_answers hans
  have hawaits : (s.at i.other).signalingState.awaits.isSome = true := by
    have hsome' : (s.at i.other).signalingState.awaits = some answer.offer := hsome
    rw [hsome']
    rfl
  have hhandles : (s.at i.other).side.handles = [] := by
    by_contra hne
    have hnone := h.sound.before hne
    have hnone' : answers (s.inbox i.other) = [] := hnone
    rw [hans] at hnone'
    cases hnone'
  have hhandle : (s.setInbox i.other signals).handle ids i.other (.answer answer) =
      (s.setInbox i.other signals).setPeer i.other
        ((s.at i.other).push (.setRemoteAnswer answer)) := by
    have hpeer : (s.setInbox i.other signals).peer i.other = some (s.at i.other) :=
      peer_of_awaits hawaits
    rw [handle, hpeer, ← handleAnswer_of_awaits hawaits]
  rw [hhandle]
  apply h.of_polite (p := (s.at i.other).push (.setRemoteAnswer answer))
  · exact (h.working i.other).push (by simp) (by simp) (by simp)
  · exact PeerState.Ordered.push h.ordered (.inr (PeerState.yields_eq_false hhandles))
  · exact at_setPeer_self
  · exact at_setPeer_of_other
  · rfl
  · rw [exchange_setPeer_other, exchange_setInbox_other]
    have hside : ((s.at i.other).push (.setRemoteAnswer answer)).side =
        { (s.at i.other).side with applies := (s.at i.other).side.applies ++ [answer] } := by
      simp [PeerState.side, PeerState.push, Operation.handles, Operation.applies]
    have hyields : ((s.at i.other).push (.setRemoteAnswer answer)).yields =
        (s.at i.other).yields := by
      simp [PeerState.yields, PeerState.push, Operation.takesOffer]
    rw [hside, hyields]
    exact h.sound.takeAnswer_polite hin

/-! ## Operations -/

/-- The next operation of a client is done. -/
def done (s : Mesh) (e : End) (op : Operation) (rest : List Operation) : Mesh :=
  ({ s with fresh := s.fresh + 1 }.setPeer e
    ({ s.at e with operations := rest }.settle s.fresh op).1).send e
    ({ s.at e with operations := rest }.settle s.fresh op).2

lemma at_send {e' : End} {signal : Option Signal} : (s.send e signal).at e' = s.at e' := by
  rw [send.eq_def]
  split <;> rfl

lemma fresh_send {signal : Option Signal} : (s.send e signal).fresh = s.fresh := by
  rw [send.eq_def]
  split <;> rfl

variable {op : Operation} {rest : List Operation} {offer : Nat} {answer : Answer}

lemma exchange_send_offer_self : (s.send i (some (.offer offer))).exchange i =
    { s.exchange i with toPolite := s.inbox i.other ++ [.offer offer], offered := true } := by
  rw [send]
  change Exchange.mk _ _ _ _ _ _ _ = _
  simp [Mesh.at, exchange, setInbox, i.other_ne.symm]

lemma exchange_send_answer_self : (s.send i (some (.answer answer))).exchange i =
    { s.exchange i with toPolite := s.inbox i.other ++ [.answer answer] } := by
  rw [send, exchange_setInbox_other]

lemma exchange_send_offer_other : (s.send i.other (some (.offer offer))).exchange i =
    { s.exchange i with toImpolite := s.inbox i ++ [.offer offer], offered := true } := by
  rw [send]
  change Exchange.mk _ _ _ _ _ _ _ = _
  simp [Mesh.at, exchange, setInbox, i.other_ne]

lemma exchange_send_answer_other : (s.send i.other (some (.answer answer))).exchange i =
    { s.exchange i with toImpolite := s.inbox i ++ [.answer answer] } := by
  rw [send, End.other_other, exchange_setInbox_self]

/-- The side whose answer is applied next waits for it. -/
lemma haveLocalOffer_of_awaits (h : (s.at e).side.awaits = some offer) :
    (s.at e).signalingState = .haveLocalOffer offer := by
  rw [PeerState.side] at h
  cases hsig : (s.at e).signalingState with
  | haveLocalOffer o =>
    rw [hsig] at h
    cases h
    rfl
  | _ =>
    rw [hsig] at h
    cases h

/-- What an operation of the impolite side does to the exchange. -/
lemma Inv.sound_done_impolite (h : s.Inv i) (hops : (s.at i).operations = op :: rest) :
    ((s.done i op rest).exchange i).Sound := by
  have hw := h.working i
  have hmem : op ∈ (s.at i).operations := hops ▸ List.mem_cons_self
  have hsingle := h.single.1
  rw [done]
  generalize hq : { s.at i with operations := rest }.settle s.fresh op = q
  -- nothing is sent, and the side stays
  have hquiet : q.2 = none → q.1.side = (s.at i).side →
      ((s.at i).willOffer = true → q.1.willOffer = true) →
      ((({ s with fresh := s.fresh + 1 }.setPeer i q.1).send i q.2).exchange i).Sound := by
    intro hnone hside hwill
    rw [hnone, send, exchange_setPeer_self, hside]
    exact h.sound.willOffer hwill
  have hbusy : (∀ o, op.handles = some o → (s.at i).willOffer = false) := by
    intro o ho
    have hne : (s.at i).side.handles.isEmpty = false := by
      simp [PeerState.side, hops, ho]
    rw [PeerState.willOffer, hne, Bool.and_false]
  cases op with
  | createOffer =>
    obtain ⟨hnone, hside, -, hwill⟩ := PeerState.settle_createOffer hops hq
    exact hquiet hnone hside hwill
  | setLocalOffer o =>
    obtain ⟨hsig, -, hlast⟩ := h.careful.offering o hmem
    rcases PeerState.settle_setLocalOffer hops hq with ⟨-, -, -, hnot⟩ | ⟨-, -, hsent, hside, -⟩
    · exact absurd ⟨hsig, hlast⟩ hnot
    · have hawaits : (s.at i).side.awaits = none := by
        rw [PeerState.side, hsig]
        rfl
      rw [hsent, exchange_send_offer_self, exchange_setPeer_self, hside]
      exact h.sound.sendOffer_impolite hawaits
  | rollback o => exact absurd hmem (h.careful.never o)
  | setRemoteOffer o =>
    obtain ⟨hnone, hside⟩ := PeerState.settle_takesOffer hops rfl hsingle hq
    have hsig := (h.careful.taking o hmem).1
    refine hquiet hnone ?_ fun hwill => absurd ((hbusy o rfl).symm.trans hwill) Bool.false_ne_true
    rw [hside, PeerState.side, hsig]
    rfl
  | createAnswer o =>
    obtain ⟨hnone, hside, -⟩ := PeerState.settle_createAnswer hw hops hsingle hq
    exact hquiet hnone hside fun hwill => absurd ((hbusy o rfl).symm.trans hwill) Bool.false_ne_true
  | setLocalAnswer o a =>
    obtain ⟨rfl, hhandles, hawaits, hsent, hside⟩ :=
      PeerState.settle_setLocalAnswer hw hops hsingle hq
    rw [hsent, exchange_send_answer_self, exchange_setPeer_self, hside]
    exact h.sound.answer_impolite hhandles hawaits
  | setRemoteAnswer a =>
    have happlies : (s.at i).side.applies = a :: rest.filterMap Operation.applies := by
      simp [PeerState.side, hops, Operation.applies]
    have hsig := haveLocalOffer_of_awaits (h.sound.own_applies happlies).1
    obtain ⟨hnone, -, hside, -⟩ := PeerState.settle_setRemoteAnswer hops hsig hq
    have hwill : (s.at i).willOffer = false := by
      simp [PeerState.willOffer, hsig]
    rw [hnone, send, exchange_setPeer_self, hside]
    exact h.sound.applyAnswer_impolite happlies fun hw =>
      absurd (hwill.symm.trans hw) Bool.false_ne_true

/-- What an operation of the polite side does to the exchange. -/
lemma Inv.sound_done_polite (h : s.Inv i) (hops : (s.at i.other).operations = op :: rest) :
    ((s.done i.other op rest).exchange i).Sound := by
  have hw := h.working i.other
  have hsingle := h.single.2
  rw [done]
  generalize hq : { s.at i.other with operations := rest }.settle s.fresh op = q
  -- nothing is sent, and the side stays
  have hquiet : q.2 = none → q.1.side = (s.at i.other).side →
      q.1.yields = (s.at i.other).yields →
      ((({ s with fresh := s.fresh + 1 }.setPeer i.other q.1).send
        i.other q.2).exchange i).Sound := by
    intro hnone hside hyields
    rw [hnone, send, exchange_setPeer_other, hside, hyields]
    exact h.sound
  -- the pending offer is rolled back
  have hyield : ∀ o, op.handles = some o → op.takesOffer = true →
      ((({ s with fresh := s.fresh + 1 }.setPeer i.other q.1).send
        i.other q.2).exchange i).Sound := by
    intro o ho htakes
    obtain ⟨hnone, hside⟩ := PeerState.settle_takesOffer hops htakes hsingle hq
    have hhandles : (s.at i.other).side.handles ≠ [] := by
      simp [PeerState.side, hops, ho]
    rw [hnone, send, exchange_setPeer_other, hside]
    refine h.sound.yield hhandles ?_ ?_
    · exact PeerState.Ordered.applies_nil h.ordered hops htakes
    · exact h.careful.exclusive (h.working i)
  cases op with
  | createOffer =>
    obtain ⟨hnone, hside, hyields, -⟩ := PeerState.settle_createOffer hops hq
    exact hquiet hnone hside hyields
  | setLocalOffer o =>
    rcases PeerState.settle_setLocalOffer hops hq with
      ⟨hnone, hside, hyields, -⟩ | ⟨hnot, hlast, hsent, hside, hyields⟩
    · exact hquiet hnone hside hyields
    · have hawaits : (s.at i.other).side.awaits = none := by
        have hcount := hw.latest o hlast
        rw [hops, List.count_cons_self] at hcount
        split_ifs at hcount with hpending
        · omega
        · simpa [PeerState.side] using hpending
      rw [hsent, exchange_send_offer_other, exchange_setPeer_other, hside, hyields]
      exact h.sound.sendOffer_polite hawaits fun hhandles => hw.yields hhandles hnot
  | rollback o => exact hyield o rfl rfl
  | setRemoteOffer o => exact hyield o rfl rfl
  | createAnswer o =>
    obtain ⟨hnone, hside, hyields⟩ := PeerState.settle_createAnswer hw hops hsingle hq
    exact hquiet hnone hside hyields
  | setLocalAnswer o a =>
    obtain ⟨rfl, hhandles, hawaits, hsent, hside⟩ :=
      PeerState.settle_setLocalAnswer hw hops hsingle hq
    rw [hsent, exchange_send_answer_other, exchange_setPeer_other, hside]
    exact h.sound.answer_polite hhandles hawaits
  | setRemoteAnswer a =>
    have happlies : (s.at i.other).side.applies = a :: rest.filterMap Operation.applies := by
      simp [PeerState.side, hops, Operation.applies]
    have hsig := haveLocalOffer_of_awaits (h.sound.accepted_applies happlies).1
    obtain ⟨hnone, -, hside, hyields⟩ := PeerState.settle_setRemoteAnswer hops hsig hq
    rw [hnone, send, exchange_setPeer_other, hside, hyields]
    exact h.sound.applyAnswer_polite happlies

/-- **An operation is done**, at either side. -/
lemma Inv.done (h : s.Inv i) (hops : (s.at e).operations = op :: rest) :
    (s.done e op rest).Inv i := by
  have hsame : Inv { s with fresh := s.fresh + 1 } i :=
    ⟨fun e => (h.working e).mono, h.careful, h.ordered, h.sound⟩
  have hw := h.working e
  rcases e.eq_or i with rfl | rfl
  · apply hsame.of_impolite (p := ({ s.at e with operations := rest }.settle s.fresh op).1)
    · exact hw.settle hops h.single.1
    · refine h.careful.settle hw hops h.single.1 fun hanswer => ?_
      obtain ⟨a, ha⟩ := Option.isSome_iff_exists.mp hanswer
      have happlies : (s.at e).side.applies = a :: rest.filterMap Operation.applies := by
        simp [PeerState.side, hops, ha]
      have hsome := (h.sound.own_applies happlies).1
      exact Option.isSome_iff_exists.mpr ⟨a.offer, hsome⟩
    · exact at_send.trans at_setPeer_self
    · exact at_send.trans at_setPeer_other
    · exact fresh_send
    · exact h.sound_done_impolite hops
  · apply hsame.of_polite (p := ({ s.at i.other with operations := rest }.settle s.fresh op).1)
    · exact hw.settle hops h.single.2
    · exact PeerState.Ordered.settle h.ordered hops
    · exact at_send.trans at_setPeer_self
    · exact at_send.trans at_setPeer_of_other
    · exact fresh_send
    · exact h.sound_done_polite hops

/-! ## Runs -/

/-- The event leaves a way to settle: no connection is replaced while it waits for an answer, or
at the polite side while it handles an offer; and the impolite side makes one offer at a time, and
takes no offer while it applies an answer. -/
def settles (ids : End → ι) (s : Mesh) : MeshEvent → Bool
  | .addPeer e => (s.at e).signalingState.awaits.isNone &&
      (!polite ids e || (s.at e).side.handles.isEmpty)
  | .restartIce e => polite ids e || !(s.at e).makingOffer
  | .deliver e => polite ids e || (offers ((s.inbox e).take 1)).isEmpty ||
      (s.at e).side.applies.isEmpty
  | .operationDone _ => true

/-- **One event** that leaves a way to settle. -/
lemma Inv.step (h : s.Inv i) (hi : polite ids i = false) (ho : polite ids i.other = true)
    {event : MeshEvent} (hguard : s.settles ids event = true)
    (hstep : s.step ids event = some t) : t.Inv i := by
  cases event with
  | addPeer e =>
    cases hstep
    simp only [settles, Bool.and_eq_true, Option.isNone_iff_eq_none] at hguard
    rcases e.eq_or i with rfl | rfl
    · exact h.addPeer_impolite hi hguard.1
    · have hhandles : (s.at i.other).side.handles = [] := by simpa [ho] using hguard.2
      exact h.addPeer_polite ho hguard.1 hhandles
  | restartIce e =>
    obtain ⟨p, hpeer, rfl⟩ := Option.map_eq_some_iff.mp hstep
    rw [← at_of_some hpeer]
    rcases e.eq_or i with rfl | rfl
    · exact h.restart_impolite (by simpa [settles, hi] using hguard)
    · exact h.restart_polite
  | deliver e =>
    rw [Mesh.step] at hstep
    split at hstep
    · cases hstep
    next signal signals hin =>
      cases hstep
      rcases e.eq_or i with rfl | rfl
      · cases signal with
        | offer offer =>
          exact h.deliverOffer_impolite hi hin (by simpa [settles, hi, hin] using hguard)
        | answer answer => exact h.deliverAnswer_impolite hin
      · cases signal with
        | offer offer => exact h.deliverOffer_polite ho hin
        | answer answer => exact h.deliverAnswer_polite hin
  | operationDone e =>
    rw [Mesh.step] at hstep
    split at hstep
    · cases hstep
    next p hpeer =>
      split at hstep
      · cases hstep
      next op rest hops =>
        cases hstep
        rw [← at_of_some hpeer] at hops ⊢
        exact h.done hops

lemma inv_new (i : End) : new.Inv i := by
  refine ⟨fun _ => PeerState.working_new, PeerState.careful_new, List.Pairwise.nil, ?_⟩
  constructor <;> simp [exchange, new, Mesh.at, PeerState.new, PeerState.side, Exchange.own,
    Exchange.accepted, SignalingState.awaits, lateOffers]

/-- Of two different ids one is the polite. -/
lemma exists_impolite (hids : ids .a ≠ ids .b) :
    ∃ i, polite ids i = false ∧ polite ids i.other = true := by
  rcases lt_or_gt_of_ne hids with hlt | hgt
  · exact ⟨.a, decide_eq_false hlt.asymm, decide_eq_true hlt⟩
  · exact ⟨.b, decide_eq_false hgt.asymm, decide_eq_true hgt⟩

instance (P : End → Prop) [DecidablePred P] : Decidable (∀ e, P e) :=
  decidable_of_iff (P .a ∧ P .b) ⟨fun h e => by cases e <;> simp [h], fun h => ⟨h _, h _⟩⟩

/-- Every connection applied its last answer to the offer that was answered. -/
def Unmixed (s : Mesh) : Prop :=
  ∀ e, ∀ c ∈ (s.at e).current, c.2.offer = c.1

instance (s : Mesh) : Decidable s.Unmixed :=
  inferInstanceAs (Decidable (∀ e, ∀ c ∈ (s.at e).current, c.2.offer = c.1))

/-- No signal is in flight and no handler is running. -/
def Quiet (s : Mesh) : Prop := ∀ e, s.inbox e = [] ∧ (s.at e).operations = []

instance (s : Mesh) : Decidable s.Quiet :=
  inferInstanceAs (Decidable (∀ e, s.inbox e = [] ∧ (s.at e).operations = []))

/-- Both connections are stable, with the same descriptions. -/
def Settled (s : Mesh) : Prop :=
  (s.at .a).current.isSome ∧ (s.at .a).current = (s.at .b).current ∧
    ∀ e, (s.at e).signalingState = .stable

instance (s : Mesh) : Decidable s.Settled :=
  inferInstanceAs (Decidable (_ ∧ _ ∧ ∀ e, (s.at e).signalingState = .stable))

/-- A side that has nothing to do and waits for nothing is stable. -/
lemma Inv.stable (h : s.Inv i) (hops : (s.at e).operations = [])
    (hawaits : (s.at e).side.awaits = none) : (s.at e).signalingState = .stable := by
  cases hsig : (s.at e).signalingState with
  | stable => rfl
  | haveLocalOffer o =>
    rw [PeerState.side, hsig] at hawaits
    cases hawaits
  | haveRemoteOffer o =>
    refine absurd ?_ ((h.working e).handles_of_remote hsig)
    rw [PeerState.side, hops]
    rfl

lemma Inv.settled (h : s.Inv i) (hquiet : s.Quiet) (hoffered : s.offered = true) : s.Settled := by
  have hside : ∀ e, (s.at e).side.handles = [] ∧ (s.at e).side.applies = [] := by
    intro e
    rw [PeerState.side, (hquiet e).2]
    exact ⟨rfl, rfl⟩
  have hwill : (s.at i).willOffer = false := by
    have hmaking := h.careful.making
    rw [(hquiet i).2] at hmaking
    cases hm : (s.at i).makingOffer with
    | true =>
      rw [hm] at hmaking
      cases hmaking
    | false => rw [PeerState.willOffer, hm, Bool.false_and, Bool.false_and]
  obtain ⟨hi, hp⟩ := h.sound.settled (hquiet i).1 (hquiet i.other).1 (hside i) (hside i.other)
    hwill (PeerState.yields_eq_false (hside i.other).1)
  obtain ⟨hsame, hsome⟩ := h.sound.matching hoffered hi hp
  have hstable : ∀ e, (s.at e).signalingState = .stable := by
    intro e
    rcases e.eq_or i with rfl | rfl
    · exact h.stable (hquiet e).2 hi
    · exact h.stable (hquiet _).2 hp
  have hsame' : (s.at i).current = (s.at i.other).current := hsame
  have hsome' : (s.at i).current.isSome := hsome
  cases i with
  | a => exact ⟨hsome', hsame', hstable⟩
  | b => exact ⟨hsame' ▸ hsome', hsame'.symm, hstable⟩

lemma Inv.unmixed (h : s.Inv i) : s.Unmixed := by
  intro e c hcurrent
  rcases e.eq_or i with rfl | rfl
  · exact h.sound.currentI c.1 c.2 hcurrent
  · exact h.sound.currentP c.1 c.2 hcurrent

/-- **Peers settle**: in any state of a run whose events leave a way to settle, answers are applied
to the offers they answer, and when all is done after an offer was sent, both connections are
stable with the same descriptions. -/
theorem settled_of_run (hids : ids .a ≠ ids .b) {events : List MeshEvent}
    (h : Run (Guarded (ofPartial (Mesh.step ids)) fun s event => s.settles ids event = true) new
      events s) : s.Unmixed ∧ (s.Quiet → s.offered = true → s.Settled) := by
  obtain ⟨i, hi, ho⟩ := exists_impolite hids
  have hinv : s.Inv i := h.invariant (fun s => s.Inv i)
    (fun _ _ _ _ hs hstep => hs.step hi ho hstep.1 hstep.2) (inv_new i)
  exact ⟨hinv.unmixed, hinv.settled⟩

/-- Two ids, the second of which is polite. -/
def sampleIds : End → Nat
  | .a => 0
  | .b => 1

/-- The impolite client is added, offers, and is answered, but has not applied the answer. -/
def firstOffer : List MeshEvent :=
  [.addPeer .a, .operationDone .a, .operationDone .a, .deliver .b, .operationDone .b,
    .operationDone .b]

/-- An answer is applied to the offer of a new connection.  An offer that comes while an answer is
applied is ignored, and its sender waits for ever. -/
theorem new_connection_takes_old_answer :
    (∃ s, Run (ofPartial (step sampleIds)) new (firstOffer ++ [.operationDone .b, .addPeer .a,
        .operationDone .a, .operationDone .a, .deliver .a, .operationDone .a]) s ∧
      ¬ s.Unmixed) ∧
    ∃ s, Run (ofPartial (step sampleIds)) new (firstOffer ++ [.operationDone .b, .restartIce .b,
        .operationDone .b, .operationDone .b, .deliver .a, .deliver .a, .operationDone .a]) s ∧
      s.Quiet ∧ s.offered = true ∧ ¬ s.Settled :=
  ⟨Run.exists_of_decide (by decide), Run.exists_of_decide (by decide)⟩

/-- Two offers cross after the first negotiation; the polite client yields, and offers again. -/
theorem settled_sample : ∃ s,
    Run (Guarded (ofPartial (step sampleIds)) fun s event => s.settles sampleIds event = true) new
      (firstOffer ++ [.operationDone .b, .deliver .a, .operationDone .a,
        .restartIce .a, .restartIce .b, .operationDone .a, .operationDone .b, .operationDone .a,
        .operationDone .b, .deliver .a, .deliver .b, .operationDone .b, .operationDone .b,
        .operationDone .b, .operationDone .b, .deliver .a, .operationDone .a]) s ∧
    s.offered = true ∧ s.Unmixed ∧ s.Settled := by
  obtain ⟨s, hrun, hquiet, hoffered⟩ : ∃ s,
      Run (Guarded (ofPartial (step sampleIds)) fun s event => s.settles sampleIds event = true) new
        (firstOffer ++ [.operationDone .b, .deliver .a, .operationDone .a,
          .restartIce .a, .restartIce .b, .operationDone .a, .operationDone .b, .operationDone .a,
          .operationDone .b, .deliver .a, .deliver .b, .operationDone .b, .operationDone .b,
          .operationDone .b, .operationDone .b, .deliver .a, .operationDone .a]) s ∧
      s.Quiet ∧ s.offered = true := Run.exists_guarded_of_decide (by decide)
  obtain ⟨hunmixed, hsettled⟩ := settled_of_run (by decide) hrun
  exact ⟨s, hrun, hoffered, hunmixed, hsettled hquiet hoffered⟩

end Mesh

end VoxTranslate.Client.Negotiation
