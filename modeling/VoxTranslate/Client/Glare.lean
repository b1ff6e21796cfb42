import VoxTranslate.Client.Negotiation

/-!
# Crossing offers

What decides whether two negotiating peers settle: which offer each has pending, which offers and
answers it is working on, and what is on the way.  An exchange is sound when the offer of the
impolite side is at exactly one place until its answer is applied, and when the polite side does
not wait in vain.
-/

namespace VoxTranslate.Client.Negotiation

def offers (signals : List Signal) : List Nat :=
  signals.filterMap fun
    | .offer offer => some offer
    | .answer _ => none

def answers (signals : List Signal) : List Answer :=
  signals.filterMap fun
    | .offer _ => none
    | .answer answer => some answer

/-- The offers that come after every answer. -/
def lateOffers : List Signal → List Nat
  | [] => []
  | .answer _ :: signals => lateOffers signals
  | .offer offer :: signals =>
    if answers signals = [] then offer :: lateOffers signals else lateOffers signals

section Signals

variable {signals : List Signal} {offer : Nat} {answer : Answer}

@[simp] lemma offers_nil : offers [] = [] := rfl

@[simp] lemma offers_cons_offer : offers (.offer offer :: signals) = offer :: offers signals := rfl

@[simp] lemma offers_cons_answer : offers (.answer answer :: signals) = offers signals := rfl

@[simp] lemma offers_append (signals' : List Signal) :
    offers (signals ++ signals') = offers signals ++ offers signals' := List.filterMap_append

@[simp] lemma answers_nil : answers [] = [] := rfl

@[simp] lemma answers_cons_offer : answers (.offer offer :: signals) = answers signals := rfl

@[simp] lemma answers_cons_answer :
    answers (.answer answer :: signals) = answer :: answers signals := rfl

@[simp] lemma answers_append (signals' : List Signal) :
    answers (signals ++ signals') = answers signals ++ answers signals' := List.filterMap_append

@[simp] lemma lateOffers_concat_offer :
    lateOffers (signals ++ [.offer offer]) = lateOffers signals ++ [offer] := by
  induction signals with
  | nil => rfl
  | cons signal signals ih =>
    cases signal with
    | offer _ =>
      simp only [List.cons_append, lateOffers, answers_append, ih]
      split_ifs <;> simp_all
    | answer _ => exact ih

@[simp] lemma lateOffers_concat_answer : lateOffers (signals ++ [.answer answer]) = [] := by
  induction signals with
  | nil => rfl
  | cons signal signals ih =>
    cases signal with
    | offer _ => simp [lateOffers, ih]
    | answer _ => exact ih

lemma lateOffers_eq_offers (h : answers signals = []) : lateOffers signals = offers signals := by
  induction signals with
  | nil => rfl
  | cons signal signals ih =>
    cases signal with
    | offer _ =>
      have h' : answers signals = [] := h
      rw [lateOffers, if_pos h', ih h', offers_cons_offer]
    | answer _ => cases h

end Signals

/-- One side of an exchange: its pending offer, the offers it handles, the answers it applies, and
the descriptions it applied last. -/
structure Side where
  awaits : Option Nat
  handles : List Nat
  applies : List Answer
  current : Option (Nat × Answer)

structure Exchange where
  impolite : Side
  polite : Side
  /-- The impolite side is about to send an offer. -/
  willOffer : Bool
  /-- The polite side is about to take the offer of the other. -/
  yields : Bool
  toImpolite : List Signal
  toPolite : List Signal
  offered : Bool

namespace Exchange

variable {x : Exchange}

/-- Where the pending offer of the impolite side is, from its sending to its answer. -/
def own (x : Exchange) : List Nat :=
  offers x.toPolite ++ x.polite.handles ++ (answers x.toImpolite).map Answer.offer ++
    x.impolite.applies.map Answer.offer

/-- Where an offer of the polite side is that the other accepted. -/
def accepted (x : Exchange) : List Nat :=
  x.impolite.handles ++ (answers x.toPolite).map Answer.offer ++
    x.polite.applies.map Answer.offer

/-- The invariant of an exchange. -/
structure Sound (x : Exchange) : Prop where
  /-- The pending offer of the impolite side is at one place. -/
  own : x.own = x.impolite.awaits.toList
  /-- What was accepted is what the polite side waits for, and nothing else is on the way. -/
  accepted : x.accepted ≠ [] →
    x.accepted = x.polite.awaits.toList ∧ offers x.toImpolite = []
  /-- Two answers are never on the way together. -/
  once : answers x.toImpolite ≠ [] ∨ x.impolite.applies ≠ [] → x.accepted = []
  /-- Unless the polite side yields, a late offer is the pending one. -/
  late : offers x.toPolite = [] → x.polite.handles = [] →
    lateOffers x.toImpolite = [] ∨ lateOffers x.toImpolite = x.polite.awaits.toList
  /-- The answers of the impolite side come before its offer. -/
  ordered : x.toPolite.Pairwise fun s t => ∀ offer answer, s = .offer offer → t ≠ .answer answer
  before : x.polite.handles ≠ [] → answers x.toPolite = []
  /-- The polite side does not wait in vain. -/
  waits : ∀ offer, x.polite.awaits = some offer →
    x.accepted = [offer] ∨ lateOffers x.toImpolite = [offer] ∨ x.willOffer = true ∨
      offers x.toPolite ≠ [] ∨ x.yields = true
  /-- What the polite side answered is what it applied. -/
  answeredP : ∀ answer ∈ answers x.toImpolite ++ x.impolite.applies,
    x.polite.current = some (answer.offer, answer) ∨ x.offered = false ∨
      x.polite.awaits.isSome = true
  answeredI : ∀ answer ∈ answers x.toPolite ++ x.polite.applies,
    x.impolite.current = some (answer.offer, answer) ∨ x.offered = false ∨
      x.impolite.awaits.isSome = true
  /-- With nothing pending, the descriptions match. -/
  matching : x.offered = true → x.impolite.awaits = none → x.polite.awaits = none →
    x.impolite.current = x.polite.current ∧ x.impolite.current.isSome = true
  /-- An answer is applied to the offer it answers. -/
  currentI : ∀ offer answer, x.impolite.current = some (offer, answer) → answer.offer = offer
  currentP : ∀ offer answer, x.polite.current = some (offer, answer) → answer.offer = offer

variable {offer : Nat} {answer : Answer} {signals : List Signal} {w y : Bool}
  {os : List Nat} {as : List Answer}

/-! ## Where the offers are -/

/-- With nothing pending, no exchange of the impolite side is under way. -/
lemma Sound.own_nil (h : x.Sound) (hawaits : x.impolite.awaits = none) :
    offers x.toPolite = [] ∧ x.polite.handles = [] ∧ answers x.toImpolite = [] ∧
      x.impolite.applies = [] := by
  have hown := h.own
  rw [hawaits] at hown
  simpa [Exchange.own, and_assoc] using hown

lemma Sound.own_offers (h : x.Sound) (ho : offers x.toPolite = offer :: os) :
    x.impolite.awaits = some offer ∧ os = [] ∧ x.polite.handles = [] ∧
      answers x.toImpolite = [] ∧ x.impolite.applies = [] := by
  have hown := h.own
  rw [Exchange.own, ho] at hown
  cases hawaits : x.impolite.awaits <;> simp_all

lemma Sound.own_handles (h : x.Sound) (ho : x.polite.handles = offer :: os) :
    x.impolite.awaits = some offer ∧ os = [] ∧ offers x.toPolite = [] ∧
      answers x.toImpolite = [] ∧ x.impolite.applies = [] := by
  have hown := h.own
  rw [Exchange.own, ho] at hown
  cases hawaits : x.impolite.awaits <;> cases hoff : offers x.toPolite <;> simp_all

lemma Sound.own_answers (h : x.Sound) (ha : answers x.toImpolite = answer :: as) :
    x.impolite.awaits = some answer.offer ∧ as = [] ∧ offers x.toPolite = [] ∧
      x.polite.handles = [] ∧ x.impolite.applies = [] := by
  have hown := h.own
  rw [Exchange.own, ha] at hown
  cases hawaits : x.impolite.awaits <;> cases hoff : offers x.toPolite <;>
    cases hhandles : x.polite.handles <;> simp_all

lemma Sound.own_applies (h : x.Sound) (ha : x.impolite.applies = answer :: as) :
    x.impolite.awaits = some answer.offer ∧ as = [] ∧ offers x.toPolite = [] ∧
      x.polite.handles = [] ∧ answers x.toImpolite = [] := by
  have hown := h.own
  rw [Exchange.own, ha] at hown
  cases hawaits : x.impolite.awaits <;> cases hoff : offers x.toPolite <;>
    cases hhandles : x.polite.handles <;> cases hans : answers x.toImpolite <;> simp_all

lemma accepted_nil : x.accepted = [] ↔
    x.impolite.handles = [] ∧ answers x.toPolite = [] ∧ x.polite.applies = [] := by
  simp [Exchange.accepted]

/-- Nothing is accepted where the polite side waits for nothing. -/
lemma Sound.accepted_nil (h : x.Sound) (hawaits : x.polite.awaits = none) :
    x.impolite.handles = [] ∧ answers x.toPolite = [] ∧ x.polite.applies = [] := by
  rw [← Exchange.accepted_nil]
  by_contra hne
  have haccepted := (h.accepted hne).1
  rw [hawaits] at haccepted
  exact hne haccepted

lemma Sound.accepted_handles (h : x.Sound) (ho : x.impolite.handles = offer :: os) :
    x.polite.awaits = some offer ∧ os = [] ∧ answers x.toPolite = [] ∧ x.polite.applies = [] ∧
      offers x.toImpolite = [] := by
  obtain ⟨haccepted, hoffers⟩ := h.accepted (by simp [Exchange.accepted, ho])
  rw [Exchange.accepted, ho] at haccepted
  cases hawaits : x.polite.awaits <;> simp_all

lemma Sound.accepted_answers (h : x.Sound) (ha : answers x.toPolite = answer :: as) :
    x.polite.awaits = some answer.offer ∧ as = [] ∧ x.impolite.handles = [] ∧
      x.polite.applies = [] ∧ offers x.toImpolite = [] := by
  obtain ⟨haccepted, hoffers⟩ := h.accepted (by simp [Exchange.accepted, ha])
  rw [Exchange.accepted, ha] at haccepted
  cases hawaits : x.polite.awaits <;> cases hhandles : x.impolite.handles <;> simp_all

lemma Sound.accepted_applies (h : x.Sound) (ha : x.polite.applies = answer :: as) :
    x.polite.awaits = some answer.offer ∧ as = [] ∧ x.impolite.handles = [] ∧
      answers x.toPolite = [] ∧ offers x.toImpolite = [] := by
  obtain ⟨haccepted, hoffers⟩ := h.accepted (by simp [Exchange.accepted, ha])
  rw [Exchange.accepted, ha] at haccepted
  cases hawaits : x.polite.awaits <;> cases hhandles : x.impolite.handles <;>
    cases hans : answers x.toPolite <;> simp_all

/-! ## The moves of the impolite side -/

lemma Sound.sendOffer_impolite (h : x.Sound) (hawaits : x.impolite.awaits = none) :
    Sound { x with
      impolite := { x.impolite with awaits := some offer }, willOffer := w
      toPolite := x.toPolite ++ [.offer offer], offered := true } := by
  obtain ⟨hoffers, hhandles, hanswers, happlies⟩ := h.own_nil hawaits
  refine ⟨?_, ?_, ?_, ?_, ?_, ?_, ?_, ?_, ?_, nofun, h.currentI, h.currentP⟩
  · simp [Exchange.own, hoffers, hhandles, hanswers, happlies]
  · simpa [Exchange.accepted] using h.accepted
  · simp [hanswers, happlies]
  · simp
  · exact List.pairwise_append.mpr ⟨h.ordered, List.pairwise_singleton _ _, by simp⟩
  · simpa using h.before
  · simp
  · simp [hanswers, happlies]
  · simp

/-- An offer that is ignored is not the one the polite side waits for, or an offer of the impolite
side makes it yield. -/
lemma Sound.ignoreOffer (h : x.Sound) (hto : x.toImpolite = .offer offer :: signals)
    (hbusy : x.willOffer = true ∨ x.impolite.awaits.isSome = true ∨ x.impolite.handles ≠ [])
    (happlies : x.impolite.applies = [])
    (hyields : x.polite.handles ≠ [] → x.polite.awaits.isSome = true → x.yields = true) :
    Sound { x with toImpolite := signals } := by
  have hanswers : answers x.toImpolite = answers signals := by rw [hto, answers_cons_offer]
  have hlate : answers signals ≠ [] → lateOffers signals = lateOffers x.toImpolite := by
    intro hne
    rw [hto, lateOffers, if_neg hne]
  refine ⟨?_, fun hne => ?_, ?_, fun hto' hhandles => ?_, h.ordered, h.before, fun o ho => ?_, ?_,
    h.answeredI, h.matching, h.currentI, h.currentP⟩
  · simpa [Exchange.own, hanswers] using h.own
  · obtain ⟨haccepted, hoffers⟩ := h.accepted hne
    refine ⟨haccepted, ?_⟩
    rw [hto, offers_cons_offer] at hoffers
    cases hoffers
  · simpa [Exchange.accepted, hanswers] using h.once
  · have hold := h.late hto' hhandles
    by_cases hans : answers signals = []
    · rw [hto, lateOffers, if_pos hans] at hold
      rcases hold with hold | hold
      · cases hold
      · left
        cases hawaits : x.polite.awaits <;> simp_all
    · rwa [← hlate hans] at hold
  · rcases h.waits o ho with haccepted | hold | hwill | hoffers | hyield
    · exact .inl haccepted
    · by_cases hans : answers signals = []
      · -- the pending offer is lost: the other side has an offer of its own
        right
        right
        rcases hbusy with hwill | hawaits | hhandles
        · exact .inl hwill
        · right
          obtain ⟨o', ho'⟩ := Option.isSome_iff_exists.mp hawaits
          have hown := h.own
          rw [Exchange.own, ho', hanswers, hans, happlies] at hown
          cases hoffers : offers x.toPolite with
          | cons _ _ => exact .inl (by simp)
          | nil =>
            refine .inr (hyields ?_ (by rw [ho]; rfl))
            intro hnil
            rw [hoffers, hnil] at hown
            cases hown
        · obtain ⟨o', os, hhandles'⟩ := List.exists_cons_of_ne_nil hhandles
          have hnone := (h.accepted_handles hhandles').2.2.2.2
          rw [hto] at hnone
          cases hnone
      · exact .inr (.inl ((hlate hans).trans hold))
    · exact .inr (.inr (.inl hwill))
    · exact .inr (.inr (.inr (.inl hoffers)))
    · exact .inr (.inr (.inr (.inr hyield)))
  · simpa [hanswers] using h.answeredP

/-- An offer that is accepted is the one the polite side waits for. -/
lemma Sound.acceptOffer (h : x.Sound) (hto : x.toImpolite = .offer offer :: signals)
    (hawaits : x.impolite.awaits = none) :
    Sound { x with
      impolite := { x.impolite with handles := x.impolite.handles ++ [offer] }, willOffer := w
      toImpolite := signals } := by
  obtain ⟨hoffers, hhandles, hanswers, happlies⟩ := h.own_nil hawaits
  have hans : answers signals = [] := by
    rw [hto] at hanswers
    exact hanswers
  have haccepted : x.accepted = [] := by
    by_contra hne
    have hnone := (h.accepted hne).2
    rw [hto] at hnone
    cases hnone
  obtain ⟨hno, hto', happ⟩ := Exchange.accepted_nil.mp haccepted
  have hlate := h.late hoffers hhandles
  rw [lateOffers_eq_offers hanswers, hto, offers_cons_offer] at hlate
  have hpending : x.polite.awaits = some offer ∧ offers signals = [] := by
    cases hp : x.polite.awaits <;> simp_all
  obtain ⟨hpending, hrest⟩ := hpending
  refine ⟨?_, fun _ => ⟨?_, hrest⟩, ?_, fun _ _ => ?_, h.ordered, h.before, fun o ho => ?_, ?_,
    h.answeredI, h.matching, h.currentI, h.currentP⟩
  · simp [Exchange.own, hoffers, hhandles, hans, happlies, hawaits]
  · simp [Exchange.accepted, hno, hto', happ, hpending]
  · simp [hans, happlies]
  · left
    rw [lateOffers_eq_offers hans, hrest]
  · left
    cases hpending.symm.trans ho
    simp [Exchange.accepted, hno, hto', happ]
  · simp [hans, happlies]

/-- The impolite side answers the offer it handles. -/
lemma Sound.answer_impolite (h : x.Sound) (hhandles : x.impolite.handles = [answer.offer])
    (hawaits : x.impolite.awaits = none) :
    Sound { x with
      impolite := { x.impolite with
        handles := [], current := some (answer.offer, answer) }
      willOffer := w
      toPolite := x.toPolite ++ [.answer answer] } := by
  obtain ⟨hoffers, hpolite, hanswers, happlies⟩ := h.own_nil hawaits
  obtain ⟨hpending, -, hans, happ, hno⟩ := h.accepted_handles hhandles
  refine ⟨?_, fun _ => ⟨?_, hno⟩, ?_, ?_, ?_, ?_, fun o ho => ?_, ?_, ?_, fun _ _ hnone => ?_,
    fun o a hcurrent => ?_, h.currentP⟩
  · simp [Exchange.own, hoffers, hpolite, hanswers, happlies, hawaits]
  · simp [Exchange.accepted, hans, happ, hpending]
  · simp [hanswers, happlies]
  · simpa using h.late
  · refine List.pairwise_append.mpr ⟨h.ordered, List.pairwise_singleton _ _, ?_⟩
    -- no offer is on the way before the answer
    rintro s hs t - o a rfl -
    have hmem : o ∈ offers x.toPolite := List.mem_filterMap.mpr ⟨_, hs, rfl⟩
    rw [hoffers] at hmem
    cases hmem
  · simp [hpolite]
  · cases hpending.symm.trans ho
    simp [Exchange.accepted, hans, happ]
  · simp [hanswers, happlies]
  · simp [hans, happ]
  · cases hpending.symm.trans hnone
  · cases hcurrent
    rfl

lemma Sound.takeAnswer_impolite (h : x.Sound) (hto : x.toImpolite = .answer answer :: signals) :
    Sound { x with
      impolite := { x.impolite with applies := x.impolite.applies ++ [answer] }
      toImpolite := signals } := by
  have hans : answers x.toImpolite = answer :: answers signals := by rw [hto, answers_cons_answer]
  obtain ⟨hawaits, hrest, hoffers, hhandles, happlies⟩ := h.own_answers hans
  refine ⟨?_, fun hne => ?_, fun _ => ?_, ?_, h.ordered, h.before, ?_, ?_, h.answeredI,
    h.matching, h.currentI, h.currentP⟩
  · simp [Exchange.own, hoffers, hhandles, hrest, happlies, hawaits]
  · have hold := h.accepted hne
    rw [hto] at hold
    exact hold
  · exact h.once (.inl (by simp [hans]))
  · simpa [hto, lateOffers] using h.late
  · have hold := h.waits
    rw [hto] at hold
    exact hold
  · intro a ha
    refine h.answeredP a ?_
    simpa [hans, hrest, happlies] using ha

lemma Sound.applyAnswer_impolite (h : x.Sound) (happlies : x.impolite.applies = answer :: as)
    (hw : x.willOffer = true → w = true) :
    Sound { x with
      impolite := { x.impolite with
        awaits := none, applies := as, current := some (answer.offer, answer) }
      willOffer := w } := by
  obtain ⟨hawaits, rfl, hoffers, hhandles, hanswers⟩ := h.own_applies happlies
  have haccepted : x.accepted = [] := h.once (.inr (by simp [happlies]))
  obtain ⟨hno, hto, happ⟩ := Exchange.accepted_nil.mp haccepted
  refine ⟨?_, fun hne => absurd haccepted hne, ?_, h.late, h.ordered, h.before, fun o ho => ?_, ?_,
    ?_, fun hoffered _ hpolite => ⟨?_, rfl⟩, fun o a hcurrent => ?_, h.currentP⟩
  · simp [Exchange.own, hoffers, hhandles, hanswers]
  · simp [hanswers]
  · rcases h.waits o ho with hacc | hlate | hwill | hrest
    · exact .inl hacc
    · exact .inr (.inl hlate)
    · exact .inr (.inr (.inl (hw hwill)))
    · exact .inr (.inr (.inr hrest))
  · simp [hanswers]
  · simp [hto, happ]
  · rcases h.answeredP answer (by simp [happlies]) with hcurrent | hfalse | hpending
    · exact hcurrent.symm
    · exact absurd (hfalse.symm.trans hoffered) Bool.false_ne_true
    · rw [hpolite] at hpending
      cases hpending
  · cases hcurrent
    rfl

/-- A new connection of the impolite side, which offers at once. -/
lemma Sound.replace_impolite (h : x.Sound) (hawaits : x.impolite.awaits = none) :
    Sound { x with
      impolite := ⟨none, [], [], none⟩, willOffer := true, offered := false } := by
  obtain ⟨hoffers, hhandles, hanswers, happlies⟩ := h.own_nil hawaits
  refine ⟨?_, fun hne => ?_, ?_, h.late, h.ordered, h.before, ?_, ?_, ?_, nofun, nofun,
    h.currentP⟩
  · simp [Exchange.own, hoffers, hhandles, hanswers]
  · have hkeeps : x.impolite.handles = [] := by
      by_contra hhand
      obtain ⟨o, os, hhand'⟩ := List.exists_cons_of_ne_nil hhand
      obtain ⟨-, -, hto, happ, -⟩ := h.accepted_handles hhand'
      simp [Exchange.accepted, hto, happ] at hne
    have hsame : x.accepted ≠ [] := by
      simpa [Exchange.accepted, hkeeps] using hne
    simpa [Exchange.accepted, hkeeps] using h.accepted hsame
  · simp [hanswers]
  · simp
  · simp
  · simp

/-- What the impolite side is about to send may only come to be. -/
lemma Sound.willOffer (h : x.Sound) (hw : x.willOffer = true → w = true) :
    Sound { x with willOffer := w } := by
  refine ⟨h.own, h.accepted, h.once, h.late, h.ordered, h.before, fun o ho => ?_, h.answeredP,
    h.answeredI, h.matching, h.currentI, h.currentP⟩
  rcases h.waits o ho with hacc | hlate | hwill | hrest
  · exact .inl hacc
  · exact .inr (.inl hlate)
  · exact .inr (.inr (.inl (hw hwill)))
  · exact .inr (.inr (.inr hrest))

/-! ## The moves of the polite side -/

lemma Sound.sendOffer_polite (h : x.Sound) (hawaits : x.polite.awaits = none)
    (hyields : x.polite.handles ≠ [] → x.yields = true) :
    Sound { x with
      polite := { x.polite with awaits := some offer }
      toImpolite := x.toImpolite ++ [.offer offer], offered := true } := by
  obtain ⟨hno, hto, happ⟩ := h.accepted_nil hawaits
  have haccepted : x.accepted = [] := Exchange.accepted_nil.mpr ⟨hno, hto, happ⟩
  have hlate : offers x.toPolite = [] → x.polite.handles = [] → lateOffers x.toImpolite = [] := by
    intro hoffers hhandles
    have hold := h.late hoffers hhandles
    rw [hawaits] at hold
    simpa using hold
  refine ⟨?_, fun hne => absurd haccepted hne, ?_, fun hoffers hhandles => ?_, h.ordered, h.before,
    fun o ho => ?_, ?_, ?_, fun _ _ => nofun, h.currentI, h.currentP⟩
  · simpa [Exchange.own] using h.own
  · simpa [Exchange.accepted] using h.once
  · right
    simp [hlate hoffers hhandles]
  · cases ho
    by_cases hoffers : offers x.toPolite = []
    · by_cases hhandles : x.polite.handles = []
      · simp [hlate hoffers hhandles]
      · exact .inr (.inr (.inr (.inr (hyields hhandles))))
    · exact .inr (.inr (.inr (.inl hoffers)))
  · simp
  · simp [hto, happ]

lemma Sound.takeOffer (h : x.Sound) (hto : x.toPolite = .offer offer :: signals) :
    Sound { x with
      polite := { x.polite with handles := x.polite.handles ++ [offer] }, yields := true
      toPolite := signals } := by
  have hoff : offers x.toPolite = offer :: offers signals := by rw [hto, offers_cons_offer]
  obtain ⟨hawaits, hrest, hhandles, hanswers, happlies⟩ := h.own_offers hoff
  have hans : answers x.toPolite = answers signals := by rw [hto, answers_cons_offer]
  have hordered := h.ordered
  rw [hto, List.pairwise_cons] at hordered
  refine ⟨?_, ?_, ?_, by simp, hordered.2, fun _ => ?_, by simp, h.answeredP, ?_,
    h.matching, h.currentI, h.currentP⟩
  · simp [Exchange.own, hrest, hhandles, hanswers, happlies, hawaits]
  · simpa [Exchange.accepted, hans] using h.accepted
  · simpa [Exchange.accepted, hans] using h.once
  · rw [List.eq_nil_iff_forall_not_mem]
    intro a ha
    obtain ⟨signal, hsignal, ha'⟩ := List.mem_filterMap.mp ha
    cases signal with
    | offer _ => cases ha'
    | answer a' => exact hordered.1 _ hsignal offer a' rfl rfl
  · simpa [hans] using h.answeredI

/-- The pending offer of the polite side is rolled back for the one it handles. -/
lemma Sound.yield (h : x.Sound) (hhandles : x.polite.handles ≠ [])
    (happlies : x.polite.applies = [])
    (hexclusive : x.impolite.awaits.isSome = true → x.impolite.handles = []) :
    Sound { x with polite := { x.polite with awaits := none }, yields := y } := by
  obtain ⟨o, os, hhandles'⟩ := List.exists_cons_of_ne_nil hhandles
  obtain ⟨hawaits, -, -, hanswers, happlies'⟩ := h.own_handles hhandles'
  have hno : x.impolite.handles = [] := hexclusive (by rw [hawaits]; rfl)
  have hto := h.before hhandles
  have haccepted : x.accepted = [] := Exchange.accepted_nil.mpr ⟨hno, hto, happlies⟩
  refine ⟨h.own, fun hne => absurd haccepted hne, h.once, fun _ hnil => absurd hnil hhandles,
    h.ordered, h.before, nofun, ?_, h.answeredI, ?_, h.currentI, h.currentP⟩
  · simp [hanswers, happlies']
  · simp [hawaits]

/-- The polite side answers the offer it handles. -/
lemma Sound.answer_polite (h : x.Sound) (hhandles : x.polite.handles = answer.offer :: os)
    (hawaits : x.polite.awaits = none) :
    Sound { x with
      polite := { x.polite with handles := os, current := some (answer.offer, answer) }
      yields := y
      toImpolite := x.toImpolite ++ [.answer answer] } := by
  obtain ⟨hpending, rfl, hoffers, hanswers, happlies⟩ := h.own_handles hhandles
  obtain ⟨hno, hto, happ⟩ := h.accepted_nil hawaits
  have haccepted : x.accepted = [] := Exchange.accepted_nil.mpr ⟨hno, hto, happ⟩
  refine ⟨?_, fun hne => absurd haccepted hne, fun _ => haccepted, by simp, h.ordered, by simp,
    ?_, ?_, ?_, ?_, h.currentI, fun o a hcurrent => ?_⟩
  · simp [Exchange.own, hoffers, hanswers, happlies, hpending]
  · simp [hawaits]
  · simp [hanswers, happlies]
  · simp [hto, happ]
  · simp [hpending]
  · cases hcurrent
    rfl

lemma Sound.takeAnswer_polite (h : x.Sound) (hto : x.toPolite = .answer answer :: signals) :
    Sound { x with
      polite := { x.polite with applies := x.polite.applies ++ [answer] }
      toPolite := signals } := by
  have hans : answers x.toPolite = answer :: answers signals := by rw [hto, answers_cons_answer]
  obtain ⟨hawaits, hrest, hno, happ, hoffers⟩ := h.accepted_answers hans
  have hordered := h.ordered
  rw [hto, List.pairwise_cons] at hordered
  have hbefore : x.polite.handles = [] := by
    by_contra hhandles
    have hnone := h.before hhandles
    rw [hans] at hnone
    cases hnone
  refine ⟨?_, fun _ => ⟨?_, hoffers⟩, fun hbusy => ?_, ?_, hordered.2, ?_, fun o ho => ?_,
    h.answeredP, ?_, h.matching, h.currentI, h.currentP⟩
  · simpa [Exchange.own, hto] using h.own
  · simp [Exchange.accepted, hno, hrest, happ, hawaits]
  · have hnone := h.once hbusy
    rw [Exchange.accepted, hans] at hnone
    simp at hnone
  · simpa [hto] using h.late
  · simp [hbefore]
  · left
    cases hawaits.symm.trans ho
    simp [Exchange.accepted, hno, hrest, happ]
  · intro a ha
    refine h.answeredI a ?_
    simpa [hans, hrest, happ] using ha

lemma Sound.applyAnswer_polite (h : x.Sound) (happlies : x.polite.applies = answer :: as) :
    Sound { x with polite := { x.polite with
      awaits := none, applies := as, current := some (answer.offer, answer) } } := by
  obtain ⟨hawaits, rfl, hno, hto, hoffers⟩ := h.accepted_applies happlies
  have honce : answers x.toImpolite = [] ∧ x.impolite.applies = [] := by
    have hne : x.accepted ≠ [] := by simp [Exchange.accepted, happlies]
    constructor
    · by_contra hbusy
      exact hne (h.once (.inl hbusy))
    · by_contra hbusy
      exact hne (h.once (.inr hbusy))
  refine ⟨h.own, fun hne => ?_, ?_, fun _ _ => ?_, h.ordered, h.before, nofun, ?_, ?_,
    fun hoffered hpolite _ => ?_, h.currentI, fun o a hcurrent => ?_⟩
  · simp [Exchange.accepted, hno, hto] at hne
  · simp [honce]
  · left
    rw [lateOffers_eq_offers honce.1, hoffers]
  · simp [honce]
  · simp [hto]
  · rcases h.answeredI answer (by simp [happlies]) with hcurrent | hfalse | hpending
    · exact ⟨hcurrent, by rw [hcurrent]; rfl⟩
    · exact absurd (hfalse.symm.trans hoffered) Bool.false_ne_true
    · rw [hpolite] at hpending
      cases hpending
  · cases hcurrent
    rfl

/-- A new connection of the polite side, which waits for an offer. -/
lemma Sound.replace_polite (h : x.Sound) (hawaits : x.polite.awaits = none)
    (hhandles : x.polite.handles = []) :
    Sound { x with polite := ⟨none, [], [], none⟩, yields := y, offered := false } := by
  obtain ⟨hno, hto, happ⟩ := h.accepted_nil hawaits
  refine ⟨?_, fun hne => ?_, ?_, ?_, h.ordered, by simp, nofun, ?_, ?_, nofun, h.currentI, nofun⟩
  · simpa [Exchange.own, hhandles] using h.own
  · simp [Exchange.accepted, hno, hto] at hne
  · simp [Exchange.accepted, hno, hto]
  · simpa [hhandles, hawaits] using h.late
  · simp
  · simp

/-- With nothing under way, both sides are stable. -/
lemma Sound.settled (h : x.Sound) (hto : x.toImpolite = []) (hto' : x.toPolite = [])
    (hi : x.impolite.handles = [] ∧ x.impolite.applies = [])
    (hp : x.polite.handles = [] ∧ x.polite.applies = [])
    (hwill : x.willOffer = false) (hyields : x.yields = false) :
    x.impolite.awaits = none ∧ x.polite.awaits = none := by
  constructor
  · have hown := h.own
    rw [Exchange.own, hto, hto', hp.1, hi.2] at hown
    cases hawaits : x.impolite.awaits <;> simp_all
  · by_contra hne
    obtain ⟨o, ho⟩ := Option.ne_none_iff_exists'.mp hne
    rcases h.waits o ho with haccepted | hlate | hw | hoffers | hy
    · simp [Exchange.accepted, hi.1, hto', hp.2] at haccepted
    · rw [hto] at hlate
      cases hlate
    · exact absurd (hwill.symm.trans hw) Bool.false_ne_true
    · exact hoffers (by rw [hto']; rfl)
    · exact absurd (hyields.symm.trans hy) Bool.false_ne_true

end Exchange

end VoxTranslate.Client.Negotiation
