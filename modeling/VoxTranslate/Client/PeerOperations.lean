import VoxTranslate.Client.Glare

/-!
# The operations of a connection

The operations that a connection still has to do say where the offers and the answers are.  They
fit the signaling state, and each side of an exchange keeps to an order of its own.
-/

namespace VoxTranslate.Client.Negotiation

open Lib

/-- The offer that waits for an answer. -/
def SignalingState.awaits : SignalingState → Option Nat
  | .haveLocalOffer offer => some offer
  | _ => none

namespace Operation

/-- The offer that an operation is done for. -/
def handles : Operation → Option Nat
  | .rollback offer | .setRemoteOffer offer | .createAnswer offer | .setLocalAnswer offer _ =>
    some offer
  | .createOffer | .setLocalOffer _ | .setRemoteAnswer _ => none

/-- The answer that an operation applies. -/
def applies : Operation → Option Answer
  | .setRemoteAnswer answer => some answer
  | .createOffer | .setLocalOffer _ | .rollback _ | .setRemoteOffer _ | .createAnswer _
  | .setLocalAnswer _ _ => none

/-- The operation is done for an offer that is not the remote description yet. -/
def takesOffer : Operation → Bool
  | .rollback _ | .setRemoteOffer _ => true
  | _ => false

/-- The operation is done for an offer of this side. -/
def negotiates : Operation → Bool
  | .createOffer | .setLocalOffer _ => true
  | _ => false

end Operation

namespace PeerState

def side (p : PeerState) : Side where
  awaits := p.signalingState.awaits
  handles := p.operations.filterMap Operation.handles
  applies := p.operations.filterMap Operation.applies
  current := p.current

/-- The connection is stable and makes an offer. -/
def willOffer (p : PeerState) : Bool :=
  p.makingOffer && p.signalingState = .stable && p.side.handles.isEmpty

/-- The connection is about to take an offer of the other side. -/
def yields (p : PeerState) : Bool := p.operations.any Operation.takesOffer

/-- The operations fit the signaling state. -/
structure Working (p : PeerState) (fresh : Nat) : Prop where
  creating : ∀ offer, .createAnswer offer ∈ p.operations →
    p.signalingState = .haveRemoteOffer offer
  answering : ∀ offer answer, .setLocalAnswer offer answer ∈ p.operations →
    p.signalingState = .haveRemoteOffer offer ∧ p.lastCreatedAnswer = some answer ∧
      answer.offer = offer
  remote : ∀ offer, p.signalingState = .haveRemoteOffer offer →
    .createAnswer offer ∈ p.operations ∨
      ∃ answer, .setLocalAnswer offer answer ∈ p.operations
  created : ∀ offer, p.lastCreatedOffer = some offer → offer < fresh
  setting : ∀ offer, .setLocalOffer offer ∈ p.operations → offer < fresh
  /-- An offer is set once, and not where one is pending. -/
  latest : ∀ offer, p.lastCreatedOffer = some offer →
    p.operations.count (.setLocalOffer offer) ≤ if p.signalingState.awaits.isSome then 0 else 1

/-- What the impolite side keeps to: it makes one offer at a time, and takes an offer only when it
has nothing else to do. -/
structure Careful (p : PeerState) : Prop where
  making : (p.operations.filter Operation.negotiates).length = if p.makingOffer then 1 else 0
  offering : ∀ offer, .setLocalOffer offer ∈ p.operations →
    p.signalingState = .stable ∧ p.side.handles = [] ∧ p.lastCreatedOffer = some offer
  taking : ∀ offer, .setRemoteOffer offer ∈ p.operations →
    p.signalingState = .stable ∧ p.operations.head? = some (.setRemoteOffer offer)
  never : ∀ offer, .rollback offer ∉ p.operations

/-- What the polite side keeps to: an answer is applied before an offer is taken. -/
def Ordered (p : PeerState) : Prop :=
  p.operations.Pairwise fun op op' => op.takesOffer = true → ∀ answer, op' ≠ .setRemoteAnswer answer

variable {p : PeerState} {fresh : Nat} {op : Operation} {rest : List Operation}

lemma Working.mono (h : p.Working fresh) : p.Working (fresh + 1) :=
  ⟨h.creating, h.answering, h.remote, fun o ho => Nat.lt_succ_of_lt (h.created o ho),
    fun o ho => Nat.lt_succ_of_lt (h.setting o ho), h.latest⟩

lemma working_new : PeerState.new.Working fresh := by
  constructor <;> simp [PeerState.new]

/-- One more operation, that neither answers nor sets an offer. -/
lemma Working.push (h : p.Working fresh) (hcreate : ∀ offer, op ≠ .createAnswer offer)
    (hanswer : ∀ offer answer, op ≠ .setLocalAnswer offer answer)
    (hoffer : ∀ offer, op ≠ .setLocalOffer offer) : (p.push op).Working fresh := by
  have hmem : ∀ {op' : Operation}, op' ∈ (p.push op).operations → op' ≠ op →
      op' ∈ p.operations := by
    intro op' h' hne
    rcases List.mem_append.mp h' with hold | hnew
    · exact hold
    · exact absurd (List.mem_singleton.mp hnew) hne
  refine ⟨fun o ho => h.creating o (hmem ho (hcreate o).symm),
    fun o a ho => h.answering o a (hmem ho (hanswer o a).symm), fun o ho => ?_, h.created,
    fun o ho => h.setting o (hmem ho (hoffer o).symm), fun o ho => ?_⟩
  · rcases h.remote o ho with hc | ⟨a, ha⟩
    · exact .inl (List.mem_append_left _ hc)
    · exact .inr ⟨a, List.mem_append_left _ ha⟩
  · have hnone : [op].count (.setLocalOffer o) = 0 :=
      List.count_eq_zero_of_not_mem (by simpa using (hoffer o).symm)
    rw [PeerState.push, List.count_append, hnone, Nat.add_zero]
    exact h.latest o ho

lemma Working.negotiate (h : p.Working fresh) : p.negotiate.Working fresh := by
  have h' : Working { p with makingOffer := true } fresh :=
    ⟨h.creating, h.answering, h.remote, h.created, h.setting, h.latest⟩
  exact h'.push nofun nofun nofun

/-- One operation less, that did not answer. -/
lemma Working.drop (h : p.Working fresh) (hops : p.operations = op :: rest)
    (hcreate : ∀ offer, op ≠ .createAnswer offer)
    (hanswer : ∀ offer answer, op ≠ .setLocalAnswer offer answer) :
    Working { p with operations := rest } fresh := by
  have hmem : ∀ {op' : Operation}, op' ∈ rest → op' ∈ p.operations := fun h' =>
    hops ▸ List.mem_cons_of_mem _ h'
  refine ⟨fun o ho => h.creating o (hmem ho), fun o a ho => h.answering o a (hmem ho),
    fun o ho => ?_, h.created, fun o ho => h.setting o (hmem ho), fun o ho => ?_⟩
  · have hold := h.remote o ho
    rw [hops] at hold
    rcases hold with hc | ⟨a, ha⟩
    · exact .inl ((List.mem_cons.mp hc).resolve_left (hcreate o).symm)
    · exact .inr ⟨a, (List.mem_cons.mp ha).resolve_left (hanswer o a).symm⟩
  · have hold := h.latest o ho
    rw [hops] at hold
    exact Nat.le_trans ((List.sublist_cons_self op rest).count_le _) hold

/-- Where no offer is handled, none is answered. -/
lemma not_mem_of_handles (h : rest.filterMap Operation.handles = []) {offer : Nat} :
    (∀ op ∈ rest, op.handles ≠ some offer) := by
  intro op hop hsome
  have hmem : offer ∈ rest.filterMap Operation.handles := List.mem_filterMap.mpr ⟨op, hop, hsome⟩
  rw [h] at hmem
  cases hmem

lemma Working.settle_createOffer (h : p.Working fresh)
    (hops : p.operations = .createOffer :: rest) :
    Working ({ p with operations := rest }.settle fresh .createOffer).1 (fresh + 1) := by
  obtain ⟨sig, ops, current, created, answered, making⟩ := p
  cases hops
  have hd : Working ⟨sig, rest, current, created, answered, making⟩ (fresh + 1) :=
    (h.drop rfl nofun nofun).mono
  have hsetting : ∀ o, .setLocalOffer o ∈ rest → o < fresh := fun o ho =>
    h.setting o (List.mem_cons_of_mem _ ho)
  have hnew : rest.count (.setLocalOffer fresh) = 0 :=
    List.count_eq_zero_of_not_mem fun hmem => Nat.lt_irrefl _ (hsetting fresh hmem)
  cases sig with
  | stable =>
    have hmem : ∀ {op' : Operation}, op' ∈ rest ++ [.setLocalOffer fresh] →
        op' ≠ .setLocalOffer fresh → op' ∈ rest := by
      intro op' h' hne
      exact (List.mem_append.mp h').resolve_right fun hlast =>
        hne (List.mem_singleton.mp hlast)
    refine ⟨fun o ho => hd.creating o (hmem ho nofun),
      fun o a ho => hd.answering o a (hmem ho nofun), nofun, ?_, fun o ho => ?_, ?_⟩
    · rintro o ⟨⟩
      exact Nat.lt_succ_self _
    · rcases List.mem_append.mp ho with hold | hlast
      · exact Nat.lt_succ_of_lt (hsetting o hold)
      · cases List.mem_singleton.mp hlast
        exact Nat.lt_succ_self _
    · rintro o ⟨⟩
      simp [PeerState.settle, PeerState.push, List.count_append, hnew, SignalingState.awaits]
  | haveLocalOffer o =>
    refine ⟨hd.creating, hd.answering, nofun, ?_, hd.setting, ?_⟩
    · rintro o ⟨⟩
      exact Nat.lt_succ_self _
    · rintro o ⟨⟩
      exact Nat.le_trans (Nat.le_of_eq hnew) (Nat.zero_le _)
  | haveRemoteOffer o =>
    exact ⟨hd.creating, hd.answering, hd.remote, hd.created, hd.setting, hd.latest⟩

lemma Working.settle_setLocalOffer (h : p.Working fresh) {offer : Nat}
    (hops : p.operations = .setLocalOffer offer :: rest) :
    Working ({ p with operations := rest }.settle fresh (.setLocalOffer offer)).1 fresh := by
  obtain ⟨sig, ops, current, created, answered, making⟩ := p
  cases hops
  have hd : Working ⟨sig, rest, current, created, answered, false⟩ fresh := by
    have hd' := h.drop rfl nofun nofun
    exact ⟨hd'.creating, hd'.answering, hd'.remote, hd'.created, hd'.setting, hd'.latest⟩
  have hset : (∀ o, sig ≠ .haveRemoteOffer o) → created = some offer →
      Working ⟨.haveLocalOffer offer, rest, current, created, answered, false⟩ fresh := by
    intro hnot hcreated
    refine ⟨fun o ho => absurd (hd.creating o ho) (hnot o),
      fun o a ho => absurd (hd.answering o a ho).1 (hnot o), nofun, hd.created, hd.setting,
      fun o ho => ?_⟩
    cases hcreated.symm.trans ho
    -- the offer is not set again
    have hold := h.latest offer hcreated
    rw [List.count_cons_self] at hold
    have hnone : rest.count (.setLocalOffer offer) = 0 := by
      split_ifs at hold <;> omega
    exact Nat.le_trans (Nat.le_of_eq hnone) (Nat.zero_le _)
  rw [PeerState.settle]
  cases sig with
  | haveRemoteOffer _ => exact hd
  | stable =>
    dsimp only
    split_ifs with hcreated
    · exact hset nofun hcreated
    · exact hd
  | haveLocalOffer _ =>
    dsimp only
    split_ifs with hcreated
    · exact hset nofun hcreated
    · exact hd

/-- The operations of a handled offer. -/
lemma Working.settle_handles (h : p.Working fresh) (hops : p.operations = op :: rest)
    {offer : Nat} (hop : op.handles = some offer) (hsingle : p.side.handles.length ≤ 1) :
    Working ({ p with operations := rest }.settle fresh op).1 (fresh + 1) := by
  obtain ⟨sig, ops, current, created, answered, making⟩ := p
  cases hops
  have hrest : rest.filterMap Operation.handles = [] := by
    rw [side, List.filterMap_cons_some hop, List.length_cons] at hsingle
    exact List.eq_nil_of_length_eq_zero (by omega)
  have hno : ∀ o, ∀ op' ∈ rest, op'.handles ≠ some o := fun o => not_mem_of_handles hrest
  have hsetting : ∀ o, .setLocalOffer o ∈ rest → o < fresh := fun o ho =>
    h.setting o (List.mem_cons_of_mem _ ho)
  have hcount : ∀ o, created = some o → rest.count (.setLocalOffer o) ≤ 1 := by
    intro o ho
    refine Nat.le_trans ((List.sublist_cons_self op rest).count_le _) ?_
    refine Nat.le_trans (h.latest o ho) ?_
    split_ifs <;> omega
  -- what is left to do does not answer
  have hleft : ∀ sig', (∀ o, sig' ≠ .haveRemoteOffer o) → sig'.awaits = none →
      ∀ current' created' answered', (∀ o, created' = some o → created = some o) →
      Working ⟨sig', rest, current', created', answered', making⟩ (fresh + 1) := by
    intro sig' hnot hawaits current' created' answered' hsub
    refine ⟨fun o ho => absurd rfl (hno o _ ho), fun o a ho => absurd rfl (hno o _ ho),
      fun o ho => absurd ho (hnot o), fun o ho => Nat.lt_succ_of_lt (h.created o (hsub o ho)),
      fun o ho => Nat.lt_succ_of_lt (hsetting o ho), fun o ho => ?_⟩
    rw [hawaits]
    exact hcount o (hsub o ho)
  cases op with
  | createOffer => cases hop
  | setLocalOffer _ => cases hop
  | setRemoteAnswer _ => cases hop
  | rollback o =>
    exact (hleft .stable nofun rfl current created answered fun _ => id).push nofun nofun nofun
  | setRemoteOffer o =>
    refine ⟨fun o' ho => ?_, fun o' a ho => ?_, fun o' ho => ?_,
      fun o' ho => Nat.lt_succ_of_lt (h.created o' ho), fun o' ho => ?_, fun o' ho => ?_⟩
    · rcases List.mem_append.mp ho with hold | hnew
      · exact absurd rfl (hno o' _ hold)
      · cases List.mem_singleton.mp hnew
        rfl
    · rcases List.mem_append.mp ho with hold | hnew
      · exact absurd rfl (hno o' _ hold)
      · cases List.mem_singleton.mp hnew
    · cases ho
      exact .inl (List.mem_append_right _ (List.mem_singleton_self _))
    · rcases List.mem_append.mp ho with hold | hnew
      · exact Nat.lt_succ_of_lt (hsetting o' hold)
      · cases List.mem_singleton.mp hnew
    · simpa [PeerState.settle, PeerState.push, List.count_append, SignalingState.awaits] using
        hcount o' ho
  | createAnswer o =>
    cases h.creating o List.mem_cons_self
    refine ⟨fun o' ho => ?_, fun o' a ho => ?_, fun o' ho => ?_,
      fun o' ho => Nat.lt_succ_of_lt (h.created o' ho), fun o' ho => ?_, fun o' ho => ?_⟩
    · rcases List.mem_append.mp ho with hold | hnew
      · exact absurd rfl (hno o' _ hold)
      · cases List.mem_singleton.mp hnew
    · rcases List.mem_append.mp ho with hold | hnew
      · exact absurd rfl (hno o' _ hold)
      · cases List.mem_singleton.mp hnew
        exact ⟨rfl, rfl, rfl⟩
    · cases ho
      exact .inr ⟨_, List.mem_append_right _ (List.mem_singleton_self _)⟩
    · rcases List.mem_append.mp ho with hold | hnew
      · exact Nat.lt_succ_of_lt (hsetting o' hold)
      · cases List.mem_singleton.mp hnew
    · simpa [PeerState.settle, PeerState.push, List.count_append, SignalingState.awaits] using
        hcount o' ho
  | setLocalAnswer o a =>
    obtain ⟨hsig, hanswered, -⟩ := h.answering o a List.mem_cons_self
    cases hsig
    cases hanswered
    rw [PeerState.settle]
    dsimp only
    rw [if_pos rfl]
    exact hleft .stable nofun rfl (some (o, a)) none none nofun

lemma Working.settle_setRemoteAnswer (h : p.Working fresh) {answer : Answer}
    (hops : p.operations = .setRemoteAnswer answer :: rest) :
    Working ({ p with operations := rest }.settle fresh (.setRemoteAnswer answer)).1 fresh := by
  obtain ⟨sig, ops, current, created, answered, making⟩ := p
  cases hops
  have hd := h.drop rfl nofun nofun
  cases sig with
  | stable => exact hd
  | haveRemoteOffer _ => exact hd
  | haveLocalOffer o =>
    refine ⟨fun o ho => ?_, fun o a ho => ?_, nofun, nofun, hd.setting, nofun⟩
    · cases hd.creating o ho
    · cases (hd.answering o a ho).1

/-- A remote offer is handled until it is answered. -/
lemma Working.handles_of_remote (h : p.Working fresh) {offer : Nat}
    (hsig : p.signalingState = .haveRemoteOffer offer) : p.side.handles ≠ [] := by
  have hmem : offer ∈ p.side.handles := by
    rcases h.remote offer hsig with hcreate | ⟨answer, hanswer⟩
    · exact List.mem_filterMap.mpr ⟨_, hcreate, rfl⟩
    · exact List.mem_filterMap.mpr ⟨_, hanswer, rfl⟩
  exact List.ne_nil_of_mem hmem

/-- An offer that is handled and is not the remote description yet is still to be taken. -/
lemma Working.yields (h : p.Working fresh) (hhandles : p.side.handles ≠ [])
    (hsig : ∀ offer, p.signalingState ≠ .haveRemoteOffer offer) : p.yields = true := by
  obtain ⟨offer, hoffer⟩ := List.exists_mem_of_ne_nil _ hhandles
  obtain ⟨op, hop, hop'⟩ := List.mem_filterMap.mp hoffer
  refine List.any_eq_true.mpr ⟨op, hop, ?_⟩
  cases op with
  | rollback _ => rfl
  | setRemoteOffer _ => rfl
  | createAnswer o => exact absurd (h.creating o hop) (hsig o)
  | setLocalAnswer o a => exact absurd (h.answering o a hop).1 (hsig o)
  | createOffer => cases hop'
  | setLocalOffer _ => cases hop'
  | setRemoteAnswer _ => cases hop'

lemma yields_eq_false (h : p.side.handles = []) : p.yields = false := by
  rw [PeerState.yields, List.any_eq_false]
  intro op hop htakes
  cases op with
  | rollback o => exact not_mem_of_handles h _ hop rfl
  | setRemoteOffer o => exact not_mem_of_handles h _ hop rfl
  | _ => cases htakes

/-- An operation is done. -/
lemma Working.settle (h : p.Working fresh) (hops : p.operations = op :: rest)
    (hsingle : p.side.handles.length ≤ 1) :
    Working ({ p with operations := rest }.settle fresh op).1 (fresh + 1) := by
  cases op with
  | createOffer => exact h.settle_createOffer hops
  | setLocalOffer _ => exact (h.settle_setLocalOffer hops).mono
  | setRemoteAnswer _ => exact (h.settle_setRemoteAnswer hops).mono
  | rollback _ => exact h.settle_handles hops rfl hsingle
  | setRemoteOffer _ => exact h.settle_handles hops rfl hsingle
  | createAnswer _ => exact h.settle_handles hops rfl hsingle
  | setLocalAnswer _ _ => exact h.settle_handles hops rfl hsingle

/-! ## What an operation does to its side -/

/-- A connection that handles an offer handles no other. -/
lemma handles_rest (hops : p.operations = op :: rest) {offer : Nat}
    (hop : op.handles = some offer) (hsingle : p.side.handles.length ≤ 1) :
    rest.filterMap Operation.handles = [] := by
  rw [side, hops, List.filterMap_cons_some hop, List.length_cons] at hsingle
  exact List.eq_nil_of_length_eq_zero (by omega)

/-- Whatever else changes, an operation that concerns no offer and no answer leaves the side. -/
lemma side_of_negotiates (hops : p.operations = op :: rest) (hneg : op.negotiates = true)
    {q : PeerState} {added : List Operation} (hq : q.operations = rest ++ added)
    (hadded : ∀ op' ∈ added, op'.negotiates = true)
    (hsig : q.signalingState = p.signalingState) (hcurrent : q.current = p.current) :
    q.side = p.side ∧ q.yields = p.yields := by
  have hnone : ∀ op' : Operation, op'.negotiates = true →
      op'.handles = none ∧ op'.applies = none ∧ op'.takesOffer = false := by
    intro op' hop'
    cases op' <;> first | exact ⟨rfl, rfl, rfl⟩ | cases hop'
  have hhandles : added.filterMap Operation.handles = [] :=
    List.filterMap_eq_nil_iff.mpr fun op' h' => (hnone op' (hadded op' h')).1
  have happlies : added.filterMap Operation.applies = [] :=
    List.filterMap_eq_nil_iff.mpr fun op' h' => (hnone op' (hadded op' h')).2.1
  have htakes : added.any Operation.takesOffer = false :=
    List.any_eq_false.mpr fun op' h' => by simp [(hnone op' (hadded op' h')).2.2]
  obtain ⟨h₁, h₂, h₃⟩ := hnone op hneg
  constructor
  · rw [side, side, hsig, hcurrent, hq, hops, List.filterMap_append, List.filterMap_append,
      hhandles, happlies, List.filterMap_cons_none h₁, List.filterMap_cons_none h₂,
      List.append_nil, List.append_nil]
  · rw [PeerState.yields, PeerState.yields, hq, hops, List.any_append, htakes, List.any_cons, h₃,
      Bool.or_false, Bool.false_or]

lemma side_of_drop (hops : p.operations = op :: rest) (hneg : op.negotiates = true) {q : PeerState}
    (hq : q.operations = rest) (hsig : q.signalingState = p.signalingState)
    (hcurrent : q.current = p.current) : q.side = p.side ∧ q.yields = p.yields := by
  have hnone : ∀ op' ∈ ([] : List Operation), op'.negotiates = true := nofun
  refine side_of_negotiates hops hneg ?_ hnone hsig hcurrent
  rw [hq, List.append_nil]

variable {q : PeerState × Option Signal}

lemma settle_createOffer (hops : p.operations = .createOffer :: rest)
    (hq : { p with operations := rest }.settle fresh .createOffer = q) :
    q.2 = none ∧ q.1.side = p.side ∧ q.1.yields = p.yields ∧
      (p.willOffer = true → q.1.willOffer = true) := by
  have hnot : p.signalingState ≠ .stable → p.willOffer = false := by
    intro hsig
    simp [PeerState.willOffer, hsig]
  rw [PeerState.settle] at hq
  dsimp only at hq
  split at hq
  next o hsig =>
    subst hq
    have hsig' : p.signalingState ≠ .stable := fun hs => nomatch hsig.symm.trans hs
    obtain ⟨hside, hyields⟩ := side_of_drop hops rfl
      (q := { p with operations := rest, makingOffer := false }) rfl rfl rfl
    exact ⟨rfl, hside, hyields, fun hw => nomatch (hnot hsig').symm.trans hw⟩
  next o hsig =>
    subst hq
    have hsig' : p.signalingState ≠ .stable := fun hs => nomatch hsig.symm.trans hs
    obtain ⟨hside, hyields⟩ := side_of_drop hops rfl
      (q := { p with operations := rest, lastCreatedOffer := some fresh, makingOffer := false })
      rfl rfl rfl
    exact ⟨rfl, hside, hyields, fun hw => nomatch (hnot hsig').symm.trans hw⟩
  next hsig =>
    subst hq
    obtain ⟨hside, hyields⟩ := side_of_negotiates hops rfl
      (q := { p with operations := rest, lastCreatedOffer := some fresh }.push
        (.setLocalOffer fresh)) rfl (by simp [Operation.negotiates]) rfl rfl
    refine ⟨rfl, hside, hyields, fun hw => ?_⟩
    rw [PeerState.willOffer, hside]
    exact hw

/-- An offer of this side is refused, or it is set and sent. -/
lemma settle_setLocalOffer {offer : Nat} (hops : p.operations = .setLocalOffer offer :: rest)
    (hq : { p with operations := rest }.settle fresh (.setLocalOffer offer) = q) :
    (q.2 = none ∧ q.1.side = p.side ∧ q.1.yields = p.yields ∧
      ¬ (p.signalingState = .stable ∧ p.lastCreatedOffer = some offer)) ∨
    ((∀ o, p.signalingState ≠ .haveRemoteOffer o) ∧ p.lastCreatedOffer = some offer ∧
      q.2 = some (.offer offer) ∧ q.1.side = { p.side with awaits := some offer } ∧
      q.1.yields = p.yields) := by
  obtain ⟨hside, hyields⟩ := side_of_drop hops rfl
    (q := { p with operations := rest, makingOffer := false }) rfl rfl rfl
  rw [PeerState.settle] at hq
  dsimp only at hq
  split at hq
  next o hsig =>
    subst hq
    exact .inl ⟨rfl, hside, hyields, fun h => nomatch hsig.symm.trans h.1⟩
  next hnot =>
    split_ifs at hq with hlast
    · subst hq
      refine .inr ⟨hnot, hlast, rfl, ?_, hyields⟩
      rw [← hside]
      rfl
    · subst hq
      exact .inl ⟨rfl, hside, hyields, fun h => hlast h.2⟩

/-- A pending offer of this side is rolled back. -/
lemma settle_takesOffer (hops : p.operations = op :: rest) (htakes : op.takesOffer = true)
    (hsingle : p.side.handles.length ≤ 1)
    (hq : { p with operations := rest }.settle fresh op = q) :
    q.2 = none ∧ q.1.side = { p.side with awaits := none } := by
  have hrest : ∀ o, op.handles = some o → rest.filterMap Operation.handles = [] := fun o ho =>
    handles_rest hops ho hsingle
  cases op with
  | rollback o =>
    subst hq
    refine ⟨rfl, ?_⟩
    simp [side, PeerState.settle, PeerState.push, hops, hrest o rfl, SignalingState.awaits,
      Operation.handles, Operation.applies, List.filterMap_cons]
  | setRemoteOffer o =>
    subst hq
    refine ⟨rfl, ?_⟩
    simp [side, PeerState.settle, PeerState.push, hops, hrest o rfl, SignalingState.awaits,
      Operation.handles, Operation.applies, List.filterMap_cons]
  | _ => cases htakes

lemma settle_createAnswer (h : p.Working fresh) {offer : Nat}
    (hops : p.operations = .createAnswer offer :: rest) (hsingle : p.side.handles.length ≤ 1)
    (hq : { p with operations := rest }.settle fresh (.createAnswer offer) = q) :
    q.2 = none ∧ q.1.side = p.side ∧ q.1.yields = p.yields := by
  have hsig := h.creating offer (hops ▸ List.mem_cons_self)
  have hrest := handles_rest hops rfl hsingle
  rw [PeerState.settle] at hq
  dsimp only at hq
  rw [hsig] at hq
  subst hq
  refine ⟨rfl, ?_, ?_⟩
  · simp [side, PeerState.push, hops, hrest, hsig, Operation.handles, Operation.applies,
      List.filterMap_cons]
  · simp [PeerState.yields, PeerState.push, hops, Operation.takesOffer]

/-- The offer that is handled is answered. -/
lemma settle_setLocalAnswer (h : p.Working fresh) {offer : Nat} {answer : Answer}
    (hops : p.operations = .setLocalAnswer offer answer :: rest)
    (hsingle : p.side.handles.length ≤ 1)
    (hq : { p with operations := rest }.settle fresh (.setLocalAnswer offer answer) = q) :
    answer.offer = offer ∧ p.side.handles = [offer] ∧ p.side.awaits = none ∧
      q.2 = some (.answer answer) ∧
      q.1.side = { p.side with handles := [], current := some (offer, answer) } := by
  obtain ⟨hsig, hanswer, hoffer⟩ := h.answering offer answer (hops ▸ List.mem_cons_self)
  have hrest := handles_rest hops rfl hsingle
  rw [PeerState.settle] at hq
  dsimp only at hq
  rw [hsig] at hq
  dsimp only at hq
  rw [if_pos hanswer] at hq
  subst hq
  refine ⟨hoffer, ?_, ?_, rfl, ?_⟩
  · simp [side, hops, hrest, Operation.handles]
  · simp [side, hsig, SignalingState.awaits]
  · simp [side, PeerState.complete, hops, hrest, hsig, SignalingState.awaits, Operation.applies,
      List.filterMap_cons]

/-- The answer to the pending offer of this side is applied. -/
lemma settle_setRemoteAnswer {offer : Nat} {answer : Answer}
    (hops : p.operations = .setRemoteAnswer answer :: rest)
    (hsig : p.signalingState = .haveLocalOffer offer)
    (hq : { p with operations := rest }.settle fresh (.setRemoteAnswer answer) = q) :
    q.2 = none ∧ p.side.applies = answer :: rest.filterMap Operation.applies ∧
      q.1.side = { p.side with
        awaits := none, applies := rest.filterMap Operation.applies
        current := some (offer, answer) } ∧ q.1.yields = p.yields := by
  rw [PeerState.settle] at hq
  dsimp only at hq
  rw [hsig] at hq
  subst hq
  refine ⟨rfl, ?_, ?_, ?_⟩
  · simp [side, hops, Operation.applies]
  · simp [side, PeerState.complete, hops, SignalingState.awaits, Operation.handles,
      List.filterMap_cons]
  · simp [PeerState.yields, PeerState.complete, hops, Operation.takesOffer]

/-! ## The impolite side -/

lemma careful_new : PeerState.new.Careful := by
  constructor <;> simp [PeerState.new]

lemma Careful.push (h : p.Careful) (hneg : op.negotiates = false) (htakes : op.takesOffer = false)
    (hhandles : p.signalingState = .stable → op.handles = none) : (p.push op).Careful := by
  have hold : ∀ {op' : Operation}, op' ∈ p.operations ++ [op] →
      op'.negotiates = true ∨ op'.takesOffer = true → op' ∈ p.operations := by
    intro op' hmem hop'
    refine (List.mem_append.mp hmem).resolve_right fun hlast => ?_
    rw [List.mem_singleton.mp hlast, hneg, htakes] at hop'
    simp at hop'
  refine ⟨?_, fun o ho => ?_, fun o ho => ?_, fun o ho => ?_⟩
  · have hlast : [op].filter Operation.negotiates = [] := by simp [hneg]
    change (List.filter _ (p.operations ++ [op])).length = if p.makingOffer then 1 else 0
    rw [List.filter_append, hlast, List.append_nil]
    exact h.making
  · obtain ⟨hsig, hnone, hlast⟩ := h.offering o (hold ho (.inl rfl))
    refine ⟨hsig, ?_, hlast⟩
    simpa [PeerState.side, PeerState.push, hhandles hsig] using hnone
  · obtain ⟨hsig, hhead⟩ := h.taking o (hold ho (.inr rfl))
    exact ⟨hsig, by simp [PeerState.push, hhead]⟩
  · exact h.never o (hold ho (.inr rfl))

/-- One offer at a time. -/
lemma Careful.negotiate (h : p.Careful) (hidle : p.makingOffer = false) : p.negotiate.Careful := by
  have hnone := h.making
  rw [hidle] at hnone
  have hold : ∀ {op' : Operation}, op' ∈ p.operations ++ [.createOffer] → op' ≠ .createOffer →
      op' ∈ p.operations := by
    intro op' hmem hne
    exact (List.mem_append.mp hmem).resolve_right fun hlast => hne (List.mem_singleton.mp hlast)
  refine ⟨?_, fun o ho => ?_, fun o ho => ?_, fun o ho => h.never o (hold ho nofun)⟩
  · change (List.filter _ (p.operations ++ [.createOffer])).length = 1
    rw [List.filter_append, List.length_append, hnone]
    rfl
  · obtain ⟨hsig, hhandles, hlast⟩ := h.offering o (hold ho nofun)
    refine ⟨hsig, ?_, hlast⟩
    simpa [PeerState.side, PeerState.negotiate, PeerState.push, Operation.handles] using hhandles
  · obtain ⟨hsig, hhead⟩ := h.taking o (hold ho nofun)
    exact ⟨hsig, by simp [PeerState.negotiate, PeerState.push, hhead]⟩

/-- A connection that is stable, makes no offer and handles none has nothing to do but to apply an
answer. -/
lemma Careful.idle (h : p.Careful) (hmaking : p.makingOffer = false)
    (hhandles : p.side.handles = []) (happlies : p.side.applies = []) : p.operations = [] := by
  have hneg := h.making
  rw [hmaking] at hneg
  rw [List.eq_nil_iff_forall_not_mem]
  intro op hop
  have hno : ∀ o, op.handles ≠ some o := fun o => not_mem_of_handles hhandles op hop
  have hna : ∀ a, op.applies ≠ some a := by
    intro a ha
    have hmem : a ∈ p.side.applies := List.mem_filterMap.mpr ⟨op, hop, ha⟩
    rw [happlies] at hmem
    cases hmem
  have hnn : op.negotiates = false := by
    by_contra hn
    have hmem : op ∈ p.operations.filter Operation.negotiates :=
      List.mem_filter.mpr ⟨hop, by simpa using hn⟩
    rw [List.eq_nil_of_length_eq_zero hneg] at hmem
    cases hmem
  cases op with
  | createOffer => cases hnn
  | setLocalOffer _ => cases hnn
  | rollback o => exact hno o rfl
  | setRemoteOffer o => exact hno o rfl
  | createAnswer o => exact hno o rfl
  | setLocalAnswer o _ => exact hno o rfl
  | setRemoteAnswer a => exact hna a rfl

lemma Careful.takeOffer (h : p.Careful) (hmaking : p.makingOffer = false)
    (hsig : p.signalingState = .stable) (hhandles : p.side.handles = [])
    (happlies : p.side.applies = []) (offer : Nat) : (p.push (.setRemoteOffer offer)).Careful := by
  have hops := h.idle hmaking hhandles happlies
  constructor <;> simp [PeerState.push, hops, hmaking, hsig, Operation.negotiates]

/-- While an offer is made no other is made. -/
lemma Careful.last (h : p.Careful) (hops : p.operations = op :: rest)
    (hneg : op.negotiates = true) :
    p.makingOffer = true ∧ ∀ op' ∈ rest, op'.negotiates = false := by
  have hmaking := h.making
  rw [hops, List.filter_cons_of_pos hneg, List.length_cons] at hmaking
  split_ifs at hmaking with htrue
  refine ⟨htrue, fun op' hop' => ?_⟩
  by_contra hn
  have hmem : op' ∈ rest.filter Operation.negotiates :=
    List.mem_filter.mpr ⟨hop', by simpa using hn⟩
  rw [List.eq_nil_of_length_eq_zero (Nat.succ.inj hmaking)] at hmem
  cases hmem

/-- Where an offer is to be taken, it is taken first. -/
lemma Careful.first (h : p.Careful) (hops : p.operations = op :: rest) {offer : Nat}
    (ho : .setRemoteOffer offer ∈ rest) : op = .setRemoteOffer offer := by
  have hhead := (h.taking offer (hops ▸ List.mem_cons_of_mem _ ho)).2
  rw [hops] at hhead
  exact Option.some.inj hhead

/-- The offer of this side is set, or refused. -/
lemma Careful.drop_negotiation (h : p.Careful) (hops : p.operations = op :: rest)
    (hneg : op.negotiates = true) {q : PeerState} (hq : q.operations = rest)
    (hmaking : q.makingOffer = false) : q.Careful := by
  obtain ⟨-, hlast⟩ := h.last hops hneg
  refine ⟨?_, fun o ho => ?_, fun o ho => ?_, fun o ho => ?_⟩
  · rw [hq, hmaking, List.filter_eq_nil_iff.mpr fun op' hop' => by simp [hlast op' hop']]
    rfl
  · cases hlast _ (hq ▸ ho)
  · rw [h.first hops (hq ▸ ho)] at hneg
    cases hneg
  · exact h.never o (hops ▸ List.mem_cons_of_mem _ (hq ▸ ho))

/-- An operation for an offer or an answer of the other side is done. -/
lemma Careful.drop_other (h : p.Careful) (hops : p.operations = op :: rest)
    (hsingle : p.side.handles.length ≤ 1) (hneg : op.negotiates = false)
    (hbusy : (∃ offer, op.handles = some offer) ∨ p.signalingState ≠ .stable) {q : PeerState}
    (hq : q.operations = rest) (hmaking : q.makingOffer = p.makingOffer) : q.Careful := by
  refine ⟨?_, fun o ho => ?_, fun o ho => ?_, fun o ho => ?_⟩
  · have hold := h.making
    rw [hops, List.filter_cons_of_neg (by simp [hneg])] at hold
    rw [hq, hmaking]
    exact hold
  · obtain ⟨hsig, hnone, -⟩ := h.offering o (hops ▸ List.mem_cons_of_mem _ (hq ▸ ho))
    rcases hbusy with ⟨o', ho'⟩ | hsig'
    · rw [side, hops, List.filterMap_cons_some ho'] at hnone
      cases hnone
    · exact absurd hsig hsig'
  · have hmem : .setRemoteOffer o ∈ rest := hq ▸ ho
    have hhandles : op.handles = some o := by
      rw [h.first hops hmem]
      rfl
    rw [side, hops, List.filterMap_cons_some hhandles, List.length_cons] at hsingle
    have hrest : rest.filterMap Operation.handles = [] :=
      List.eq_nil_of_length_eq_zero (by omega)
    exact absurd rfl (not_mem_of_handles hrest _ hmem)
  · exact h.never o (hops ▸ List.mem_cons_of_mem _ (hq ▸ ho))

/-- A stable connection that creates an offer handles none. -/
lemma Careful.handles_nil (h : p.Careful) (hw : p.Working fresh)
    (hops : p.operations = .createOffer :: rest) (hsig : p.signalingState = .stable) :
    p.side.handles = [] := by
  rw [side, hops, List.filterMap_cons_none rfl, List.filterMap_eq_nil_iff]
  intro op hop
  have hmem : op ∈ p.operations := hops ▸ List.mem_cons_of_mem _ hop
  cases op with
  | rollback o => exact absurd hmem (h.never o)
  | setRemoteOffer o => cases h.first hops hop
  | createAnswer o => cases hsig.symm.trans (hw.creating o hmem)
  | setLocalAnswer o a => cases hsig.symm.trans (hw.answering o a hmem).1
  | _ => rfl

/-- A side that waits for an answer handles no offer. -/
lemma Careful.exclusive (h : p.Careful) (hw : p.Working fresh)
    (hawaits : p.side.awaits.isSome = true) : p.side.handles = [] := by
  have hsig : ∀ sig : SignalingState, p.signalingState = sig → sig.awaits.isSome = true :=
    fun _ h' => h' ▸ hawaits
  rw [side, List.filterMap_eq_nil_iff]
  intro op hop
  cases op with
  | rollback o => exact absurd hop (h.never o)
  | setRemoteOffer o => cases hsig _ (h.taking o hop).1
  | createAnswer o => cases hsig _ (hw.creating o hop)
  | setLocalAnswer o a => cases hsig _ (hw.answering o a hop).1
  | _ => rfl

lemma Careful.settle_createOffer (h : p.Careful) (hw : p.Working fresh)
    (hops : p.operations = .createOffer :: rest) :
    ({ p with operations := rest }.settle fresh .createOffer).1.Careful := by
  rw [PeerState.settle]
  dsimp only
  split
  · exact h.drop_negotiation hops rfl rfl rfl
  · exact h.drop_negotiation hops rfl rfl rfl
  next hsig =>
    obtain ⟨hmaking, hlast⟩ := h.last hops rfl
    have hnone := h.handles_nil hw hops hsig
    rw [side, hops, List.filterMap_cons_none rfl] at hnone
    refine ⟨?_, fun o ho => ?_, fun o ho => ?_, fun o ho => ?_⟩
    · change (List.filter _ (rest ++ [.setLocalOffer fresh])).length =
        if p.makingOffer then 1 else 0
      rw [List.filter_append, List.filter_eq_nil_iff.mpr fun op' hop' => by simp [hlast op' hop'],
        hmaking]
      rfl
    · rcases List.mem_append.mp ho with hold | hnew
      · cases hlast _ hold
      · cases List.mem_singleton.mp hnew
        refine ⟨hsig, ?_, rfl⟩
        simpa [side, PeerState.push, Operation.handles] using hnone
    · rcases List.mem_append.mp ho with hold | hnew
      · cases h.first hops hold
      · cases List.mem_singleton.mp hnew
    · rcases List.mem_append.mp ho with hold | hnew
      · exact h.never o (hops ▸ List.mem_cons_of_mem _ hold)
      · cases List.mem_singleton.mp hnew

/-- An operation is done. -/
lemma Careful.settle (h : p.Careful) (hw : p.Working fresh) (hops : p.operations = op :: rest)
    (hsingle : p.side.handles.length ≤ 1)
    (hanswer : op.applies.isSome = true → p.signalingState.awaits.isSome = true) :
    ({ p with operations := rest }.settle fresh op).1.Careful := by
  have hmem : op ∈ p.operations := hops ▸ List.mem_cons_self
  cases op with
  | createOffer => exact h.settle_createOffer hw hops
  | setLocalOffer o =>
    rw [PeerState.settle]
    dsimp only
    split
    · exact h.drop_negotiation hops rfl rfl rfl
    · split_ifs
      · exact h.drop_negotiation hops rfl rfl rfl
      · exact h.drop_negotiation hops rfl rfl rfl
  | rollback o => exact absurd hmem (h.never o)
  | setRemoteOffer o =>
    apply Careful.push
    · exact h.drop_other hops hsingle rfl (.inl ⟨o, rfl⟩) rfl rfl
    · rfl
    · rfl
    · exact nofun
  | createAnswer o =>
    have hsig := hw.creating o hmem
    rw [PeerState.settle]
    dsimp only
    split
    · apply Careful.push
      · exact h.drop_other hops hsingle rfl (.inl ⟨o, rfl⟩) rfl rfl
      · rfl
      · rfl
      · exact fun hstable => nomatch hsig.symm.trans hstable
    · exact h.drop_other hops hsingle rfl (.inl ⟨o, rfl⟩) rfl rfl
  | setLocalAnswer o a =>
    rw [PeerState.settle]
    dsimp only
    split
    · split_ifs
      · exact h.drop_other hops hsingle rfl (.inl ⟨o, rfl⟩) rfl rfl
      · exact h.drop_other hops hsingle rfl (.inl ⟨o, rfl⟩) rfl rfl
    · exact h.drop_other hops hsingle rfl (.inl ⟨o, rfl⟩) rfl rfl
  | setRemoteAnswer a =>
    have hsig : p.signalingState ≠ .stable := by
      intro hsig
      have hpending := hanswer rfl
      rw [hsig] at hpending
      cases hpending
    rw [PeerState.settle]
    dsimp only
    split
    · exact h.drop_other hops hsingle rfl (.inr hsig) rfl rfl
    · exact h.drop_other hops hsingle rfl (.inr hsig) rfl rfl

/-! ## The polite side -/

lemma Ordered.push (h : p.Ordered)
    (hop : (∀ answer, op ≠ .setRemoteAnswer answer) ∨ p.yields = false) : (p.push op).Ordered := by
  refine List.pairwise_append.mpr ⟨h, List.pairwise_singleton _ _, ?_⟩
  intro op' hop' last hlast htakes
  rw [List.mem_singleton.mp hlast]
  rcases hop with hne | hyields
  · exact hne
  · rw [PeerState.yields, List.any_eq_false] at hyields
    exact absurd htakes (hyields op' hop')

/-- Where an offer is taken next, no answer is applied. -/
lemma Ordered.applies_nil (h : p.Ordered) (hops : p.operations = op :: rest)
    (htakes : op.takesOffer = true) : p.side.applies = [] := by
  rw [Ordered, hops, List.pairwise_cons] at h
  have hno : ∀ op' : Operation, (∀ answer, op' ≠ .setRemoteAnswer answer) → op'.applies = none := by
    intro op' hne
    cases op' with
    | setRemoteAnswer a => exact absurd rfl (hne a)
    | _ => rfl
  rw [side, hops, List.filterMap_eq_nil_iff]
  intro op' hop'
  rcases List.mem_cons.mp hop' with rfl | hrest
  · refine hno _ ?_
    rintro a rfl
    cases htakes
  · exact hno _ (h.1 op' hrest htakes)

/-- What an operation is followed by does not apply an answer. -/
lemma settle_operations (p : PeerState) (fresh : Nat) (op : Operation) :
    ∃ added, (p.settle fresh op).1.operations = p.operations ++ added ∧
      ∀ op' ∈ added, ∀ answer, op' ≠ .setRemoteAnswer answer := by
  cases op with
  | rollback o => exact ⟨[.setRemoteOffer o], rfl, by simp⟩
  | setRemoteOffer o => exact ⟨[.createAnswer o], rfl, by simp⟩
  | createOffer =>
    rw [PeerState.settle]
    split
    · exact ⟨[], (List.append_nil _).symm, nofun⟩
    · exact ⟨[], (List.append_nil _).symm, nofun⟩
    · exact ⟨[.setLocalOffer fresh], rfl, by simp⟩
  | createAnswer o =>
    rw [PeerState.settle]
    split
    next remote _ => exact ⟨[.setLocalAnswer o ⟨fresh, remote⟩], rfl, by simp⟩
    next => exact ⟨[], (List.append_nil _).symm, nofun⟩
  | setLocalOffer o =>
    refine ⟨[], ?_, nofun⟩
    rw [PeerState.settle, List.append_nil]
    split
    · rfl
    · split_ifs <;> rfl
  | setLocalAnswer o a =>
    refine ⟨[], ?_, nofun⟩
    rw [PeerState.settle, List.append_nil]
    split
    · split_ifs <;> rfl
    · rfl
  | setRemoteAnswer a =>
    refine ⟨[], ?_, nofun⟩
    rw [PeerState.settle, List.append_nil]
    split <;> rfl

lemma Ordered.settle (h : p.Ordered) (hops : p.operations = op :: rest) :
    ({ p with operations := rest }.settle fresh op).1.Ordered := by
  obtain ⟨added, hadded, hne⟩ := settle_operations { p with operations := rest } fresh op
  rw [Ordered, hops, List.pairwise_cons] at h
  rw [Ordered, hadded]
  refine List.pairwise_append.mpr ⟨h.2, ?_, fun _ _ op' hop' _ => hne op' hop'⟩
  exact List.pairwise_of_forall_mem_list fun _ _ op' hop' _ => hne op' hop'

end PeerState

end VoxTranslate.Client.Negotiation
