import VoxTranslate.Lib.Run
import VoxTranslate.Voip.Webhook

/-!
# What a call is charged, and the order of its webhooks

The charge of a call depends on four of its columns only, its *lifeline*, and a delivery
moves them by a pure function of the event.  The database refines that abstract machine: any
sequence of deliveries, with redeliveries and with deliveries to other calls in between,
takes the lifeline of a call through the first deliveries of its own events, in order.

On lifelines the effect of the order is plain.  A media event that overtakes the answer
bridges the call, and a bridged call ignores the answer, so the instant of the answer is
never stamped and the call ends with nothing to charge.
-/

namespace VoxTranslate.Voip

open Lib Business

/-- The columns the charge of a call depends on. -/
structure Lifeline where
  status : CallState
  answeredAt : Option Timestamp
  pricePerMin : Option Usd
  creditsConsumed : Int

def CallRow.line (c : CallRow) : Lifeline where
  status := c.status
  answeredAt := c.answeredAt
  pricePerMin := c.quotedPricePerMin
  creditsConsumed := c.creditsConsumed

/-- What the first delivery of an event does to a lifeline. -/
def Lifeline.step (l : Lifeline) (event : ProviderEvent) : Lifeline :=
  match (lifecycleEvent event.kind).bind (next l.status) with
  | none => l
  | some newState =>
    { l with
      status := newState
      answeredAt := l.answeredAt.or (if newState = .answered then some event.occurredAt else none)
      creditsConsumed :=
        if newState.isTerminal then
          chargeFor newState l.pricePerMin
            ((durationOf newState l.answeredAt event.occurredAt).getD 0)
        else l.creditsConsumed }

@[simp] lemma CallRow.line_addLeg (leg : LegId) (c : CallRow) : (c.addLeg leg).line = c.line := by
  simp [line]

/-- The row follows its lifeline. -/
lemma CallRow.line_receive (event : ProviderEvent) (c : CallRow) :
    (c.receive event).line = c.line.step event := by
  unfold receive Lifeline.step
  cases h : (lifecycleEvent event.kind).bind (next c.status) with
  | none => simp [line, h]
  | some newState =>
    cases hterm : newState.isTerminal with
    | true => simp [line, h, hterm, moveTo, charge]
    | false => simp [line, h, hterm, moveTo]

/-! ## First deliveries -/

/-- The events of a list that are neither in `done` nor repeated, in order. -/
def firsts (done : List ProviderEvent) : List ProviderEvent → List ProviderEvent
  | [] => []
  | e :: es => if e ∈ done then firsts done es else e :: firsts (e :: done) es

lemma mem_firsts {done es : List ProviderEvent} {e : ProviderEvent} (h : e ∈ firsts done es) :
    e ∈ es := by
  induction es generalizing done with
  | nil => cases h
  | cons a es ih =>
    rw [firsts] at h
    split_ifs at h with hdone
    · exact List.mem_cons_of_mem a (ih h)
    · rcases List.mem_cons.mp h with rfl | h
      · exact List.mem_cons_self
      · exact List.mem_cons_of_mem a (ih h)

lemma mem_firsts_of_mem {done es : List ProviderEvent} {e : ProviderEvent} (h : e ∈ es)
    (hdone : e ∉ done) : e ∈ firsts done es := by
  induction es generalizing done with
  | nil => cases h
  | cons a es ih =>
    rw [firsts]
    rcases List.mem_cons.mp h with rfl | h
    · rw [if_neg hdone]
      exact List.mem_cons_self
    · split_ifs
      · exact ih h hdone
      · by_cases hea : e = a
        · exact hea ▸ List.mem_cons_self
        · exact List.mem_cons_of_mem a (ih h (by simp [hea, hdone]))

/-- The first deliveries of a prefix come first. -/
lemma firsts_append (done es₁ es₂ : List ProviderEvent) :
    ∃ rest, firsts done (es₁ ++ es₂) = firsts done es₁ ++ rest := by
  induction es₁ generalizing done with
  | nil => exact ⟨_, rfl⟩
  | cons a es₁ ih =>
    rw [List.cons_append, firsts, firsts]
    split_ifs
    · exact ih done
    · obtain ⟨rest, hrest⟩ := ih (a :: done)
      exact ⟨rest, by rw [hrest, List.cons_append]⟩

/-- Where a first delivery stands among all deliveries. -/
lemma firsts_split {done es l₁ l₂ : List ProviderEvent} {e : ProviderEvent}
    (h : firsts done es = l₁ ++ e :: l₂) :
    ∃ es₁ es₂, es = es₁ ++ e :: es₂ ∧ firsts done (es₁ ++ [e]) = l₁ ++ [e] := by
  induction es generalizing done l₁ with
  | nil => simp [firsts] at h
  | cons a es ih =>
    rw [firsts] at h
    split_ifs at h with hdone
    · obtain ⟨es₁, es₂, rfl, hsplit⟩ := ih h
      exact ⟨a :: es₁, es₂, rfl, by rw [List.cons_append, firsts, if_pos hdone, hsplit]⟩
    · cases l₁ with
      | nil =>
        obtain ⟨rfl, -⟩ := List.cons.inj h
        exact ⟨[], es, rfl, by simp [firsts, hdone]⟩
      | cons b l₁ =>
        obtain ⟨rfl, htail⟩ := List.cons.inj h
        obtain ⟨es₁, es₂, rfl, hsplit⟩ := ih htail
        exact ⟨a :: es₁, es₂, rfl, by rw [List.cons_append, firsts, if_neg hdone, hsplit,
          List.cons_append]⟩

/-- Leaving repetitions out does not change which event of a kind comes first. -/
lemma find?_firsts {done es : List ProviderEvent} {p : ProviderEvent → Bool}
    (h : ∀ e ∈ done, p e = false) : (firsts done es).find? p = es.find? p := by
  induction es generalizing done with
  | nil => rfl
  | cons a es ih =>
    rw [firsts]
    split_ifs with hdone
    · rw [ih h, List.find?_cons_of_neg (by simp [h a hdone])]
    · cases hp : p a with
      | true => rw [List.find?_cons_of_pos hp, List.find?_cons_of_pos hp]
      | false =>
        rw [List.find?_cons_of_neg (by simp [hp]), List.find?_cons_of_neg (by simp [hp])]
        exact ih (List.forall_mem_cons.mpr ⟨hp, h⟩)

/-- An event that occurs in neither part before it splits the first deliveries. -/
lemma firsts_append_cons {done pre post : List ProviderEvent} {e : ProviderEvent}
    (hdone : e ∉ done) (hpre : e ∉ pre) :
    ∃ rest, firsts done (pre ++ e :: post) = firsts done pre ++ e :: rest := by
  induction pre generalizing done with
  | nil => exact ⟨firsts (e :: done) post, by simp [firsts, hdone]⟩
  | cons a pre ih =>
    have hne : e ≠ a := fun h => hpre (h ▸ List.mem_cons_self)
    have hpre' : e ∉ pre := fun h => hpre (List.mem_cons_of_mem a h)
    rw [List.cons_append, firsts, firsts]
    split_ifs with h
    · exact ih hdone hpre'
    · have hdone' : e ∉ a :: done := by simp [hne, hdone]
      obtain ⟨rest, hrest⟩ := ih hdone' hpre'
      exact ⟨rest, by rw [hrest, List.cons_append]⟩

/-! ## The database follows the lifeline -/

namespace VoipDb

/-- Some columns of a call, read by `view`, that ignore its legs and are moved by each first
delivery by `move`. -/
structure Follows {τ : Type} (view : CallRow → τ) (move : τ → ProviderEvent → τ) : Prop where
  addLeg : ∀ leg c, view (c.addLeg leg) = view c
  receive : ∀ e c, view (c.receive e) = move (view c) e

lemma follows_line : Follows CallRow.line Lifeline.step :=
  ⟨CallRow.line_addLeg, CallRow.line_receive⟩

variable {db : VoipDb} {c : Uuid} {ds es done : List ProviderEvent}

/-- The lifeline of a call. -/
def line (db : VoipDb) (c : Uuid) : Option Lifeline := (db.fetchCall c).map CallRow.line

/-- `Addressed c db ds es`: of the deliveries `ds`, made in order from `db`, exactly `es` are
resolved to call `c`, and no event of `c` shares its key with an event of another call. -/
inductive Addressed (c : Uuid) : VoipDb → List ProviderEvent → List ProviderEvent → Prop
  | nil (db : VoipDb) : Addressed c db [] []
  | mine {db : VoipDb} {e : ProviderEvent} {ds es : List ProviderEvent} :
      db.resolves e = some c → Addressed c (db.deliver e) ds es →
      Addressed c db (e :: ds) (e :: es)
  | other {db : VoipDb} {e : ProviderEvent} {ds es : List ProviderEvent} :
      db.resolves e ≠ some c → (∀ e' ∈ es, e'.key ≠ e.key) → Addressed c (db.deliver e) ds es →
      Addressed c db (e :: ds) es

/-- What a prefix of the deliveries is resolved to is a prefix. -/
lemma Addressed.prefix_of {es₁ : List ProviderEvent} {ds₁ ds₂ : List ProviderEvent}
    (h₁ : Addressed c db ds₁ es₁) (h : Addressed c db (ds₁ ++ ds₂) es) :
    ∃ es₂, es = es₁ ++ es₂ := by
  induction h₁ generalizing es with
  | nil db => exact ⟨es, rfl⟩
  | mine hres _ ih =>
    cases h with
    | mine _ h =>
      obtain ⟨es₂, rfl⟩ := ih h
      exact ⟨es₂, rfl⟩
    | other hres' => exact absurd hres hres'
  | other hres _ _ ih =>
    cases h with
    | mine hres' => exact absurd hres' hres
    | other _ _ h => exact ih h

/-- The deliveries up to one of an event of the call. -/
lemma Addressed.split {es₁ es₂ : List ProviderEvent} {e : ProviderEvent}
    (h : Addressed c db ds (es₁ ++ e :: es₂)) :
    ∃ ds₁ ds₂, ds = ds₁ ++ ds₂ ∧ Addressed c db ds₁ (es₁ ++ [e]) := by
  generalize hes : es₁ ++ e :: es₂ = es at h
  induction h generalizing es₁ with
  | nil db => simp at hes
  | @mine db a ds es hres _ ih =>
    cases es₁ with
    | nil =>
      obtain ⟨rfl, -⟩ := List.cons.inj hes
      exact ⟨[e], ds, rfl, .mine hres (.nil _)⟩
    | cons b es₁ =>
      obtain ⟨rfl, htail⟩ := List.cons.inj hes
      obtain ⟨ds₁, ds₂, rfl, h₁⟩ := ih htail
      exact ⟨b :: ds₁, ds₂, rfl, .mine hres h₁⟩
  | @other db a ds es hres hkeys _ ih =>
    obtain ⟨ds₁, ds₂, rfl, h₁⟩ := ih hes
    refine ⟨a :: ds₁, ds₂, rfl, .other hres (fun e' he' => hkeys e' ?_) h₁⟩
    rw [← hes, List.append_cons]
    exact List.mem_append_left es₂ he'

section Views

variable {τ : Type} {view : CallRow → τ} {move : τ → ProviderEvent → τ}

lemma Follows.first {e : ProviderEvent} (hv : Follows view move) (hwf : db.WellFormed)
    (hres : db.resolves e = some c) (hnew : ¬ db.Seen e) :
    ((db.deliver e).fetchCall c).map view = ((db.fetchCall c).map view).map fun v => move v e := by
  obtain ⟨-, -, -, row, leg, hrow, hmine | hmine⟩ := deliver_first hwf hres hnew <;>
    simp [hrow, hmine, hv.receive, hv.addLeg]

lemma Follows.again {e : ProviderEvent} (hv : Follows view move) (hwf : db.WellFormed)
    (hres : db.resolves e = some c) (hseen : db.Seen e) :
    ((db.deliver e).fetchCall c).map view = (db.fetchCall c).map view := by
  obtain ⟨-, -, -, row, leg, hrow, hmine | hmine⟩ := deliver_again hwf hres hseen <;>
    simp [hrow, hmine, hv.addLeg]

/-- What a delivery to another call leaves alone. -/
lemma fetchCall_deliver_other {e : ProviderEvent} (hwf : db.WellFormed)
    (hres : db.resolves e ≠ some c) :
    (db.deliver e).WellFormed ∧ (db.deliver e).fetchCall c = db.fetchCall c ∧
      ∀ e', e'.key ≠ e.key → ((db.deliver e).Seen e' ↔ db.Seen e') := by
  cases h : db.resolves e with
  | none =>
    rw [deliver_unknown h]
    exact ⟨hwf, rfl, fun _ _ => Iff.rfl⟩
  | some c' =>
    have hne : c ≠ c' := by
      rintro rfl
      exact hres h
    by_cases hseen : db.Seen e
    · obtain ⟨hwf', hledger, hframe, -⟩ := deliver_again hwf h hseen
      exact ⟨hwf', hframe c hne, fun e' _ => hledger e'⟩
    · obtain ⟨hwf', hledger, hframe, -⟩ := deliver_first hwf h hseen
      refine ⟨hwf', hframe c hne, fun e' hkey => ?_⟩
      rw [hledger]
      exact or_iff_left hkey

/-- **The database refines every view.**  Whatever is delivered, in whatever order and how
often, the viewed columns of a call are moved by the first deliveries of its own events. -/
theorem Follows.deliveries (hv : Follows view move) (hwf : db.WellFormed)
    (h : Addressed c db ds es) (hids : ∀ e ∈ es, ∀ e' ∈ es, e.key = e'.key → e = e')
    (hseen : ∀ e ∈ es, db.Seen e ↔ e ∈ done) :
    ((ds.foldl deliver db).fetchCall c).map view =
      ((db.fetchCall c).map view).map fun v => (firsts done es).foldl move v := by
  induction h generalizing done with
  | nil db => simp only [firsts, List.foldl_nil, Option.map_id']
  | @mine db e ds es hres _ ih =>
    have hids' : ∀ a ∈ es, ∀ b ∈ es, a.key = b.key → a = b := fun a ha b hb =>
      hids a (List.mem_cons_of_mem e ha) b (List.mem_cons_of_mem e hb)
    by_cases hdone : e ∈ done
    · have hs : db.Seen e := (hseen e List.mem_cons_self).mpr hdone
      obtain ⟨hwf', hledger, -, -⟩ := deliver_again hwf hres hs
      rw [List.foldl_cons, firsts, if_pos hdone, ih hwf' hids' fun a ha => ?_,
        hv.again hwf hres hs]
      exact (hledger a).trans (hseen a (List.mem_cons_of_mem e ha))
    · have hs : ¬ db.Seen e := fun hs => hdone ((hseen e List.mem_cons_self).mp hs)
      obtain ⟨hwf', hledger, -, -⟩ := deliver_first hwf hres hs
      rw [List.foldl_cons, firsts, if_neg hdone, ih hwf' hids' fun a ha => ?_,
        hv.first hwf hres hs, Option.map_map]
      · rfl
      · have hmem := List.mem_cons_of_mem e ha
        rw [hledger, hseen a hmem, List.mem_cons, or_comm]
        refine or_congr_left ⟨hids a hmem e List.mem_cons_self, ?_⟩
        rintro rfl
        rfl
  | @other db e ds es hres hkeys _ ih =>
    obtain ⟨hwf', hrow, hledger⟩ := fetchCall_deliver_other hwf hres
    rw [List.foldl_cons, ih hwf' hids fun a ha => ?_, hrow]
    exact (hledger a (hkeys a ha)).trans (hseen a ha)

end Views

lemma line_first {e : ProviderEvent} (hwf : db.WellFormed) (hres : db.resolves e = some c)
    (hnew : ¬ db.Seen e) : (db.deliver e).line c = (db.line c).map fun l => l.step e :=
  follows_line.first hwf hres hnew

lemma line_again {e : ProviderEvent} (hwf : db.WellFormed) (hres : db.resolves e = some c)
    (hseen : db.Seen e) : (db.deliver e).line c = db.line c :=
  follows_line.again hwf hres hseen

/-- The lifeline of a call, after a delivery to another. -/
lemma deliver_other {e : ProviderEvent} (hwf : db.WellFormed) (hres : db.resolves e ≠ some c) :
    (db.deliver e).WellFormed ∧ (db.deliver e).line c = db.line c ∧
      ∀ e', e'.key ≠ e.key → ((db.deliver e).Seen e' ↔ db.Seen e') := by
  obtain ⟨hwf', hrow, hledger⟩ := fetchCall_deliver_other hwf hres
  exact ⟨hwf', by rw [line, hrow, line], hledger⟩

/-- **The database refines the lifeline.** -/
theorem line_deliveries (hwf : db.WellFormed) (h : Addressed c db ds es)
    (hids : ∀ e ∈ es, ∀ e' ∈ es, e.key = e'.key → e = e')
    (hseen : ∀ e ∈ es, db.Seen e ↔ e ∈ done) :
    (ds.foldl deliver db).line c =
      (db.line c).map fun l => (firsts done es).foldl Lifeline.step l :=
  follows_line.deliveries hwf h hids hseen

end VoipDb

/-! ## The order of the answer and of the media -/

/-- The event says that the call is answered or that its media streams. -/
def isLive (e : ProviderEvent) : Bool := e.kind = .answered || e.kind = .mediaStarted

/-- The event ends the call. -/
def isHangup (e : ProviderEvent) : Bool :=
  match e.kind with
  | .hangup _ => true
  | _ => false

/-- Of the answer and the media, the answer is delivered first. -/
def AnswerFirst (es : List ProviderEvent) : Prop :=
  ∃ e, es.find? isLive = some e ∧ e.kind = .answered

namespace Lifeline

/-- Not answered yet. -/
def Quiet (l : Lifeline) : Prop := l.status.rank < CallState.answered.rank ∧ l.answeredAt = none

/-- Up, with the instant of the answer stamped. -/
def Stamped (a : Timestamp) (l : Lifeline) : Prop :=
  l.status.isTerminal = false ∧ CallState.answered.rank ≤ l.status.rank ∧ l.answeredAt = some a

/-- Up, and past the state in which an answer would be stamped. -/
def Skipped (l : Lifeline) : Prop :=
  l.status.isTerminal = false ∧ CallState.answered.rank < l.status.rank ∧ l.answeredAt = none

variable {l : Lifeline} {e : ProviderEvent} {es : List ProviderEvent} {a : Timestamp}

@[simp] lemma step_pricePerMin : (l.step e).pricePerMin = l.pricePerMin := by
  unfold step
  split <;> rfl

lemma foldl_pricePerMin : (es.foldl step l).pricePerMin = l.pricePerMin := by
  induction es generalizing l with
  | nil => rfl
  | cons e es ih => rw [List.foldl_cons, ih, step_pricePerMin]

lemma step_of_isTerminal (h : l.status.isTerminal = true) : l.step e = l := by
  unfold step
  cases hev : lifecycleEvent e.kind with
  | none => rfl
  | some ev => rw [Option.bind_some, next_of_isTerminal h]

lemma foldl_of_isTerminal (h : l.status.isTerminal = true) : es.foldl step l = l := by
  induction es with
  | nil => rfl
  | cons e es ih => rw [List.foldl_cons, step_of_isTerminal h, ih]

/-- The state an event other than a hangup asks for. -/
def candidate (e : ProviderEvent) : Option CallState :=
  match e.kind with
  | .initiated => some .dialing
  | .ringing => some .ringing
  | .answered => some .answered
  | .mediaStarted => some .bridged
  | _ => none

/-- An event other than a hangup moves a live call to the state it asks for if that lies
later, and does nothing otherwise. -/
lemma step_cases (he : isHangup e = false) (h : l.status.isTerminal = false) :
    (l.step e = l ∧ ∀ s, candidate e = some s → s.rank ≤ l.status.rank) ∨
    ∃ s, candidate e = some s ∧ l.status.rank < s.rank ∧
      l.step e = { l with
        status := s
        answeredAt := l.answeredAt.or (if s = .answered then some e.occurredAt else none) } := by
  have hmove : ∀ s : CallState, s.isTerminal = false → candidate e = some s →
      (lifecycleEvent e.kind).bind (next l.status) = advance l.status s →
      (l.step e = l ∧ ∀ s, candidate e = some s → s.rank ≤ l.status.rank) ∨
      ∃ s, candidate e = some s ∧ l.status.rank < s.rank ∧
        l.step e = { l with
          status := s
          answeredAt := l.answeredAt.or (if s = .answered then some e.occurredAt else none) } := by
    intro s hs hcand hnext
    by_cases hlt : l.status.rank < s.rank
    · refine .inr ⟨s, hcand, hlt, ?_⟩
      simp [step, hnext, advance, hlt, hs]
    · refine .inl ⟨by simp [step, hnext, advance, hlt], fun s' hs' => ?_⟩
      rw [hcand] at hs'
      cases hs'
      omega
  cases hk : e.kind with
  | initiated =>
    exact hmove .dialing rfl (by simp [candidate, hk]) (by simp [hk, lifecycleEvent, next, h])
  | ringing =>
    exact hmove .ringing rfl (by simp [candidate, hk]) (by simp [hk, lifecycleEvent, next, h])
  | answered =>
    exact hmove .answered rfl (by simp [candidate, hk]) (by simp [hk, lifecycleEvent, next, h])
  | mediaStarted =>
    exact hmove .bridged rfl (by simp [candidate, hk]) (by simp [hk, lifecycleEvent, next, h])
  | hangup cause => simp [isHangup, hk] at he
  | _ => exact .inl ⟨by simp [step, hk, lifecycleEvent], by simp [candidate, hk]⟩

/-- What an event can ask for. -/
lemma candidate_eq {s : CallState} (h : candidate e = some s) :
    (s = .answered ∧ e.kind = .answered) ∨ (s = .bridged ∧ e.kind = .mediaStarted) ∨
      (s.rank < CallState.answered.rank ∧ isLive e = false) := by
  unfold candidate at h
  split at h <;> cases h <;> simp_all [isLive, CallState.rank]

lemma stamped_step (he : isHangup e = false) (h : Stamped a l) : Stamped a (l.step e) := by
  obtain ⟨hterm, hrank, hat⟩ := h
  rcases step_cases he hterm with ⟨heq, -⟩ | ⟨s, hs, hlt, heq⟩
  · rw [heq]
    exact ⟨hterm, hrank, hat⟩
  · rw [heq]
    refine ⟨?_, by simp only; omega, by simp [hat]⟩
    rcases candidate_eq hs with ⟨rfl, -⟩ | ⟨rfl, -⟩ | ⟨hs, -⟩
    · rfl
    · rfl
    · omega

lemma skipped_step (he : isHangup e = false) (h : Skipped l) : Skipped (l.step e) := by
  obtain ⟨hterm, hrank, hat⟩ := h
  rcases step_cases he hterm with ⟨heq, -⟩ | ⟨s, hs, hlt, heq⟩
  · rw [heq]
    exact ⟨hterm, hrank, hat⟩
  · rcases candidate_eq hs with ⟨rfl, -⟩ | ⟨rfl, -⟩ | ⟨hs, -⟩
    · omega
    · simp only [CallState.rank] at hrank hlt
      omega
    · omega

lemma quiet_not_terminal (h : Quiet l) : l.status.isTerminal = false := by
  have := h.1
  cases hs : l.status <;> simp_all [CallState.isTerminal, CallState.rank]

/-- An event that is not about the answer or the media leaves the call quiet. -/
lemma quiet_step (he : isHangup e = false) (hlive : isLive e = false) (h : Quiet l) :
    Quiet (l.step e) := by
  rcases step_cases he (quiet_not_terminal h) with ⟨heq, -⟩ | ⟨s, hs, hlt, heq⟩
  · rwa [heq]
  · rcases candidate_eq hs with ⟨rfl, hk⟩ | ⟨rfl, hk⟩ | ⟨hrank, -⟩
    · simp [isLive, hk] at hlive
    · simp [isLive, hk] at hlive
    · rw [heq]
      refine ⟨hrank, ?_⟩
      have hne : s ≠ .answered := by
        rintro rfl
        exact lt_irrefl _ hrank
      simp [h.2, hne]

/-- The answer stamps a quiet call. -/
lemma quiet_answered (hk : e.kind = .answered) (h : Quiet l) :
    Stamped e.occurredAt (l.step e) := by
  obtain ⟨hrank, hat⟩ := h
  have hterm := quiet_not_terminal ⟨hrank, hat⟩
  have hnext : next l.status .answered = some .answered := by
    simp [next, hterm, advance, hrank]
  simp [Stamped, step, hk, lifecycleEvent, hnext, hat, CallState.isTerminal]

/-- The media bridges a quiet call and stamps nothing. -/
lemma quiet_mediaStarted (hk : e.kind = .mediaStarted) (h : Quiet l) : Skipped (l.step e) := by
  obtain ⟨hrank, hat⟩ := h
  have hterm := quiet_not_terminal ⟨hrank, hat⟩
  have hlt : l.status.rank < CallState.bridged.rank := by
    simp only [CallState.rank] at hrank ⊢
    omega
  have hnext : next l.status .mediaEstablished = some .bridged := by
    simp [next, hterm, advance, hlt]
  simp [Skipped, step, hk, lifecycleEvent, hnext, hat, CallState.isTerminal, CallState.rank]

/-- **The phase of a call before its hangup** is decided by which of the answer and the
media came first. -/
theorem phase_of_order (hl : Quiet l) (hhang : ∀ e ∈ es, isHangup e = false)
    (hat : ∀ e ∈ es, e.kind = .answered → e.occurredAt = a) :
    (es.find? isLive = none → Quiet (es.foldl step l)) ∧
    (∀ e, es.find? isLive = some e → e.kind = .answered → Stamped a (es.foldl step l)) ∧
    (∀ e, es.find? isLive = some e → e.kind ≠ .answered → Skipped (es.foldl step l)) := by
  induction es generalizing l with
  | nil => exact ⟨fun _ => hl, by simp, by simp⟩
  | cons b es ih =>
    obtain ⟨hb, hhang'⟩ := List.forall_mem_cons.mp hhang
    obtain ⟨hba, hat'⟩ := List.forall_mem_cons.mp hat
    cases hlive : isLive b with
    | false =>
      rw [List.find?_cons_of_neg (by simp [hlive]), List.foldl_cons]
      exact ih (quiet_step hb hlive hl) hhang' hat'
    | true =>
      rw [List.find?_cons_of_pos hlive, List.foldl_cons]
      refine ⟨by simp, ?_, ?_⟩
      · -- answered first: stamped here, and from here on
        rintro _ ⟨⟩ hk
        have hstamped : Stamped a (l.step b) := hba hk ▸ quiet_answered hk hl
        exact foldl_invariant (fun l e he h => stamped_step (hhang' e he) h) hstamped
      · -- overtaken by the media
        rintro _ ⟨⟩ hk
        have hk' : b.kind = .mediaStarted := by simpa [isLive, hk] using hlive
        have hskipped : Skipped (l.step b) := quiet_mediaStarted hk' hl
        exact foldl_invariant (fun l e he h => skipped_step (hhang' e he) h) hskipped

/-- The phase of a call whose webhooks came, repetitions left out, and said that it is up. -/
lemma phase_of_firsts (hl : Quiet l) (hhang : ∀ e ∈ es, isHangup e = false)
    (hans : ∃ e ∈ es, e.kind = .answered) (hat : ∀ e ∈ es, e.kind = .answered → e.occurredAt = a) :
    (AnswerFirst es → Stamped a ((firsts [] es).foldl step l)) ∧
    (¬ AnswerFirst es → Skipped ((firsts [] es).foldl step l)) := by
  have hmem : ∀ e ∈ firsts [] es, e ∈ es := fun e he => mem_firsts he
  obtain ⟨-, hstamped, hskipped⟩ := phase_of_order hl
    (fun e he => hhang e (hmem e he)) (fun e he => hat e (hmem e he))
  rw [find?_firsts (by simp)] at hstamped hskipped
  -- some event is the first that says the call is up
  obtain ⟨live, hlive⟩ : ∃ live, es.find? isLive = some live := by
    obtain ⟨e, he, hk⟩ := hans
    cases hf : es.find? isLive with
    | some live => exact ⟨live, rfl⟩
    | none =>
      have := List.find?_eq_none.mp hf e he
      simp [isLive, hk] at this
  have hfirst : AnswerFirst es ↔ live.kind = .answered := by
    simp [AnswerFirst, hlive]
  exact ⟨fun h => hstamped live hlive (hfirst.mp h), fun h => hskipped live hlive (mt hfirst.mpr h)⟩

/-- A hangup completes a stamped call and charges it for the time since the answer. -/
lemma stamped_hangup {cause : FailureReason} (hk : e.kind = .hangup cause) (h : Stamped a l) :
    (l.step e).status = .completed ∧ (l.step e).creditsConsumed =
      chargeFor .completed l.pricePerMin (durationBetween a e.occurredAt) := by
  obtain ⟨hterm, hrank, hat⟩ := h
  have hnext : next l.status (.hangup (some cause)) = some .completed := by
    simp [next, hterm, CallState.wasAnswered, hrank]
  simp [step, hk, lifecycleEvent, hnext, hat, durationOf, answeredInstant, CallState.isTerminal]

/-- A hangup completes a skipped call too, and charges it nothing. -/
lemma skipped_hangup {cause : FailureReason} (hk : e.kind = .hangup cause) (h : Skipped l) :
    (l.step e).status = .completed ∧ (l.step e).creditsConsumed = 0 := by
  obtain ⟨hterm, hrank, hat⟩ := h
  have hnext : next l.status (.hangup (some cause)) = some .completed := by
    simp [next, hterm, CallState.wasAnswered, hrank.le]
  simp [step, hk, lifecycleEvent, hnext, hat, durationOf, answeredInstant, CallState.isTerminal,
    chargeFor]

end Lifeline

namespace VoipDb

variable {db : VoipDb} {c : Uuid} {ds es pre post : List ProviderEvent} {hang : ProviderEvent}

/-- What the call should be charged: its time from the answer to the hangup. -/
def fairCharge (row : CallRow) (a h : Timestamp) : Int :=
  settleCredits (row.quotedPricePerMin.getD 0) (numSeconds (h - a)).toNat

/-- **The lifeline after a call**: terminal, and charged for the time since the answer, as
`i32` seconds, exactly when the answer came before the media. -/
theorem line_of_call {row : CallRow} {a : Timestamp} {cause : FailureReason} (hwf : db.WellFormed)
    (hrow : db.fetchCall c = some row) (hquiet : row.line.Quiet)
    (haddr : Addressed c db ds (pre ++ hang :: post))
    (hids : ∀ e ∈ pre ++ hang :: post, ∀ e' ∈ pre ++ hang :: post, e.key = e'.key → e = e')
    (hfresh : ∀ e ∈ pre ++ hang :: post, ¬ db.Seen e)
    (hpre : ∀ e ∈ pre, isHangup e = false) (hhang : hang.kind = .hangup cause)
    (hans : ∃ e ∈ pre, e.kind = .answered)
    (hat : ∀ e ∈ pre, e.kind = .answered → e.occurredAt = a) :
    ∃ row', (ds.foldl deliver db).fetchCall c = some row' ∧ row'.status = .completed ∧
      (AnswerFirst pre → row'.creditsConsumed =
        chargeFor .completed row.quotedPricePerMin (durationBetween a hang.occurredAt)) ∧
      (¬ AnswerFirst pre → row'.creditsConsumed = 0) := by
  have hseen : ∀ e ∈ pre ++ hang :: post, db.Seen e ↔ e ∈ ([] : List ProviderEvent) :=
    fun e he => iff_of_false (hfresh e he) (by simp)
  have hnot : hang ∉ pre := by
    intro h
    simpa [isHangup, hhang] using hpre hang h
  have hnil : hang ∉ ([] : List ProviderEvent) := by simp
  obtain ⟨rest, hrest⟩ := firsts_append_cons hnil hnot
  obtain ⟨hstamped, hskipped⟩ := Lifeline.phase_of_firsts hquiet hpre hans hat
  have hline := line_deliveries hwf haddr hids hseen
  rw [hrest, line, line, hrow, Option.map_some, Option.map_some, List.foldl_append,
    List.foldl_cons] at hline
  have hprice : ((firsts [] pre).foldl Lifeline.step row.line).pricePerMin =
      row.quotedPricePerMin := Lifeline.foldl_pricePerMin
  generalize (firsts [] pre).foldl Lifeline.step row.line = up at *
  have hend : ∀ charge, (up.step hang).status = .completed →
      (up.step hang).creditsConsumed = charge →
      ∃ row', (ds.foldl deliver db).fetchCall c = some row' ∧ row'.status = .completed ∧
        row'.creditsConsumed = charge := by
    intro charge hstatus hcharge
    rw [Lifeline.foldl_of_isTerminal (by rw [hstatus]; rfl)] at hline
    obtain ⟨row', hrow', hline'⟩ := Option.map_eq_some_iff.mp hline
    exact ⟨row', hrow', (congrArg Lifeline.status hline').trans hstatus,
      (congrArg Lifeline.creditsConsumed hline').trans hcharge⟩
  by_cases h : AnswerFirst pre
  · obtain ⟨hstatus, hcharge⟩ := Lifeline.stamped_hangup hhang (hstamped h)
    rw [hprice] at hcharge
    obtain ⟨row', hrow', hcompleted, hcredits⟩ := hend _ hstatus hcharge
    exact ⟨row', hrow', hcompleted, fun _ => hcredits, fun h' => absurd h h'⟩
  · obtain ⟨hstatus, hcharge⟩ := Lifeline.skipped_hangup hhang (hskipped h)
    obtain ⟨row', hrow', hcompleted, hcredits⟩ := hend _ hstatus hcharge
    exact ⟨row', hrow', hcompleted, fun h' => absurd h' h, fun _ => hcredits⟩

/-- An outbound call at sixty cents a minute that is being dialed. -/
def dialedCall : CallRow where
  id := 7
  sessionId := 1
  orgId := 0
  userId := some 3
  providerLegIds := ["leg"]
  direction := .outbound
  targetLanguage := "en"
  status := .dialing
  failureReason := none
  answeredAt := none
  endedAt := none
  durationSeconds := none
  recordingStatus := .none
  transcriptionStatus := .none
  consentPolicy := .noticeOnly
  consentStatus := .notRequired
  disclosurePlayedAt := none
  disclosureLanguage := none
  consentReceivedAt := none
  recordingStartedAt := none
  transcriptionStartedAt := none
  quotedPricePerMin := some (3 / 5)
  customerChargeUsd := none
  creditsConsumed := 0
  providerRecordingId := none
  providerRecordingUrl := none
  answeredBy := none
  ringDeadlineAt := none
  missed := false

/-- The database with that call and its hold of sixty credits. -/
def dialedDb : VoipDb where
  organizations := [⟨0, 940⟩]
  transactions := []
  reservations := [⟨1, 7, 0, 60, 0, 0, 0, .held⟩]
  calls := [dialedCall]
  events := []

/-- An event of that call. -/
def callEvent (eventId : String) (seconds : Int) (kind : ProviderEventKind) : ProviderEvent where
  provider := "telnyx"
  eventId := eventId
  legId := "leg"
  clientState := some 7
  occurredAt := seconds * 1000000
  kind := kind

def answerEvent : ProviderEvent := callEvent "a" 0 .answered
def mediaEvent : ProviderEvent := callEvent "m" 1 .mediaStarted
def hangupEvent : ProviderEvent := callEvent "h" 120 (.hangup .unmapped)

lemma dialedDb_wellFormed : dialedDb.WellFormed where
  holds := by simp [Reservations.HoldsHaveOrg, dialedDb, Credits.balance, Table.get_cons]
  callIds := by simp [dialedDb, Table.Unique]

end VoipDb

end VoxTranslate.Voip
