import VoxTranslate.Base
import VoxTranslate.Lib.Arith
import VoxTranslate.Lib.Assoc
import Mathlib.Data.List.Sort
import Mathlib.Tactic.Ring

/-!
# The cost of a broadcast (`webinar/metrics.rs`)

When a webinar has gone off air, its log of joins and leaves is swept once.  Between two events
the languages of the audience do not change, and the time between them is billed once for each
language that is not the host's own.
-/

namespace VoxTranslate.Webinar

open Lib

/-- `webinar_events.type`. -/
inductive EventKind where
  | join
  | leave
  /-- A type that the sweep ignores. -/
  | other
  deriving DecidableEq, Repr

/-- A row of `webinar_events`, as far as the sweep reads it. -/
structure WebinarEvent where
  participantId : Uuid
  kind : EventKind
  languageCode : Option String
  time : Timestamp
  deriving DecidableEq, Repr

/-- What a language is charged. -/
structure WebinarRates where
  ratePerMinuteUsd : ℚ
  creditsPerUsd : ℚ
  deriving DecidableEq

/-- The rollup of a finished run. -/
structure WebinarMetrics where
  durationSeconds : Int
  hostOnlineSeconds : Int
  peakViewers : Nat
  translatedLanguageCount : Nat
  costCredits : Int
  deriving DecidableEq, Repr

/-- Leaves come before joins at the same instant. -/
def EventKind.rank : EventKind → Nat
  | .leave => 0
  | _ => 1

namespace WebinarEvent

/-- The order of the sweep. -/
def Before (a b : WebinarEvent) : Prop :=
  a.time < b.time ∨ a.time = b.time ∧ a.kind.rank ≤ b.kind.rank

instance : DecidableRel Before := fun a b =>
  inferInstanceAs (Decidable (a.time < b.time ∨ a.time = b.time ∧ a.kind.rank ≤ b.kind.rank))

instance : Std.Total Before where
  total a b := by
    unfold Before
    grind

instance : IsTrans WebinarEvent Before where
  trans a b c := by
    unfold Before
    grind

lemma Before.time_le {a b : WebinarEvent} (h : Before a b) : a.time ≤ b.time := by
  rcases h with h | ⟨h, -⟩
  · exact h.le
  · exact h.le

end WebinarEvent

/-- `ceil_i32`. -/
def ceilI32 (v : ℚ) : Int :=
  if v ≤ 0 then 0 else min (max ⌈v - 1 / 1000000⌉ 0) i32Max

section Sweep

variable (source : String)

/-- The latest event of each participant before `actualStart`. -/
def latestPre (events : List WebinarEvent) (actualStart : Timestamp) : Assoc Uuid WebinarEvent :=
  (events.filter fun e => e.time < actualStart).foldl (fun m e =>
    match m.lookup e.participantId with
    | some prev =>
      if prev.time > e.time then m
      else if prev.time = e.time && !(prev.kind = .leave && e.kind = .join) then m
      else m.insert e.participantId e
    | none => m.insert e.participantId e) ∅

/-- A join puts the participant on its language, a leave takes the participant away. -/
def move (active : Assoc Uuid String) (e : WebinarEvent) : Assoc Uuid String :=
  match e.kind with
  | .join => active.insert e.participantId (e.languageCode.getD source)
  | .leave => active.erase e.participantId
  | .other => active

/-- Who is there when the host goes on air. -/
def seed (events : List WebinarEvent) (actualStart : Timestamp) : Assoc Uuid String :=
  (latestPre events actualStart).entries.foldl (fun active entry =>
    if entry.2.kind = .join then active.insert entry.1 (entry.2.languageCode.getD source)
    else active) ∅

/-- The events within the broadcast, in the order of the sweep. -/
def inWindow (events : List WebinarEvent) (actualStart actualEnd : Timestamp) :
    List WebinarEvent :=
  (events.filter fun e => actualStart ≤ e.time && e.time ≤ actualEnd).insertionSort
    WebinarEvent.Before

/-- The languages that somebody needs a translation into. -/
def foreign (active : Assoc Uuid String) : List String :=
  (active.values.filter fun lang => lang ≠ source).eraseDups

/-- `k_now`: the billable streams. -/
def kNow (active : Assoc Uuid String) : Nat := (foreign source active).length

/-- What the sweep carries from one event to the next. -/
structure Sweep where
  active : Assoc Uuid String
  everForeign : List String
  peakViewers : Nat
  costUsd : ℚ
  cursor : Timestamp

namespace Sweep

variable (rates : WebinarRates)

/-- `interval_cost_usd` of a span. -/
def intervalCostUsd (k : Nat) (span : Int) : ℚ :=
  (numSeconds span : ℚ) / 60 * rates.ratePerMinuteUsd * k

/-- Bill the time since the cursor. -/
def bill (s : Sweep) (time : Timestamp) : Sweep :=
  if s.cursor < time then
    { s with
      costUsd := s.costUsd + intervalCostUsd rates (kNow source s.active) (time - s.cursor)
      cursor := time }
  else s

/-- Apply an event to the audience. -/
def apply (s : Sweep) (e : WebinarEvent) : Sweep :=
  let active := move source s.active e
  match e.kind with
  | .join =>
    { s with
      active := active
      everForeign := match e.languageCode with
        | some lang => if lang ≠ source then s.everForeign.insert lang else s.everForeign
        | none => s.everForeign
      peakViewers := max s.peakViewers active.keys.length }
  | _ => { s with active := active }

/-- Bill up to an event, and apply it. -/
def next (s : Sweep) (e : WebinarEvent) : Sweep := (s.bill source rates e.time).apply source e

/-- At go-live. -/
def start (events : List WebinarEvent) (actualStart : Timestamp) : Sweep :=
  let active := seed source events actualStart
  { active := active
    everForeign := foreign source active
    peakViewers := active.keys.length
    costUsd := 0
    cursor := actualStart }

end Sweep

/-- The sweep of a broadcast. -/
def sweep (events : List WebinarEvent) (actualStart actualEnd : Timestamp)
    (rates : WebinarRates) : Sweep :=
  ((inWindow events actualStart actualEnd).foldl (Sweep.next source rates)
    (Sweep.start source events actualStart)).bill source rates actualEnd

/-- `finalize_webinar_metrics`. -/
def finalizeWebinarMetrics (events : List WebinarEvent) (actualStart actualEnd : Timestamp)
    (rates : WebinarRates) : WebinarMetrics :=
  let durationSeconds := max (numSeconds (actualEnd - actualStart)) 0
  if durationSeconds = 0 then ⟨0, 0, 0, 0, 0⟩
  else
    let s := sweep source events actualStart actualEnd rates
    { durationSeconds
      hostOnlineSeconds := durationSeconds
      peakViewers := s.peakViewers
      translatedLanguageCount := s.everForeign.length
      costCredits := ceilI32 (s.costUsd * rates.creditsPerUsd) }

/-- The audience of the log at an instant of the broadcast. -/
def activeAt (events : List WebinarEvent) (actualStart actualEnd t : Timestamp) :
    Assoc Uuid String :=
  ((inWindow events actualStart actualEnd).filter fun e => e.time ≤ t).foldl (move source)
    (seed source events actualStart)

/-! ## The spans that are billed -/

/-- A stretch of the broadcast that is billed for `k` languages. -/
structure BilledSpan where
  start : Timestamp
  stop : Timestamp
  k : Nat
  deriving DecidableEq, Repr

/-- The span between two instants, unless it is empty. -/
def spanOf (active : Assoc Uuid String) (cursor time : Timestamp) : List BilledSpan :=
  if cursor < time then [⟨cursor, time, kNow source active⟩] else []

/-- The spans from the cursor on. -/
def spans (actualEnd : Timestamp) (active : Assoc Uuid String) (cursor : Timestamp) :
    List WebinarEvent → List BilledSpan
  | [] => spanOf source active cursor actualEnd
  | e :: es =>
    spanOf source active cursor e.time ++
      spans actualEnd (move source active e) (max cursor e.time) es

/-- The spans of a broadcast. -/
def billedSpans (events : List WebinarEvent) (actualStart actualEnd : Timestamp) :
    List BilledSpan :=
  spans source actualEnd (seed source events actualStart) actualStart
    (inWindow events actualStart actualEnd)

/-- What the spans cost. -/
def costOf (rates : WebinarRates) (l : List BilledSpan) : ℚ :=
  (l.map fun span => Sweep.intervalCostUsd rates span.k (span.stop - span.start)).sum

variable {source} {rates : WebinarRates} {events : List WebinarEvent}
  {actualStart actualEnd t : Timestamp}

namespace Sweep

@[simp] lemma active_bill (s : Sweep) (time : Timestamp) :
    (s.bill source rates time).active = s.active := by
  rw [bill]
  split_ifs <;> rfl

@[simp] lemma cursor_bill (s : Sweep) (time : Timestamp) :
    (s.bill source rates time).cursor = max s.cursor time := by
  rw [bill]
  split_ifs with h
  · exact (max_eq_right (le_of_lt h)).symm
  · exact (max_eq_left (not_lt.mp h)).symm

lemma costUsd_bill (s : Sweep) (time : Timestamp) :
    (s.bill source rates time).costUsd =
      s.costUsd + costOf rates (spanOf source s.active s.cursor time) := by
  rw [bill, spanOf]
  split_ifs <;> simp [costOf]

lemma apply_frame (s : Sweep) (e : WebinarEvent) :
    (s.apply source e).active = move source s.active e ∧
      (s.apply source e).cursor = s.cursor ∧ (s.apply source e).costUsd = s.costUsd := by
  rw [apply]
  cases e.kind <;> exact ⟨rfl, rfl, rfl⟩

end Sweep

lemma costOf_append (l l' : List BilledSpan) :
    costOf rates (l ++ l') = costOf rates l + costOf rates l' := by
  rw [costOf, List.map_append, List.sum_append]
  rfl

/-- The sweep adds up the spans. -/
lemma costUsd_foldl (es : List WebinarEvent) (s : Sweep) :
    ((es.foldl (Sweep.next source rates) s).bill source rates actualEnd).costUsd =
      s.costUsd + costOf rates (spans source actualEnd s.active s.cursor es) := by
  induction es generalizing s with
  | nil => exact Sweep.costUsd_bill s actualEnd
  | cons e es ih =>
    obtain ⟨hactive, hcursor, hcost⟩ :=
      @Sweep.apply_frame source (s.bill source rates e.time) e
    rw [List.foldl_cons, ih, spans, costOf_append, Sweep.next, hactive, hcursor, hcost,
      Sweep.active_bill, Sweep.cursor_bill, Sweep.costUsd_bill, add_assoc]

/-- **A broadcast costs what its spans cost.** -/
theorem costUsd_sweep (events : List WebinarEvent) (actualStart actualEnd : Timestamp) :
    (sweep source events actualStart actualEnd rates).costUsd =
      costOf rates (billedSpans source events actualStart actualEnd) := by
  rw [sweep, costUsd_foldl, Sweep.start, zero_add]
  rfl

lemma pairwise_inWindow (events : List WebinarEvent) (actualStart actualEnd : Timestamp) :
    (inWindow events actualStart actualEnd).Pairwise fun a b => a.time ≤ b.time :=
  (List.pairwise_insertionSort WebinarEvent.Before _).imp fun h => h.time_le

lemma mem_inWindow {e : WebinarEvent} :
    e ∈ inWindow events actualStart actualEnd ↔
      e ∈ events ∧ actualStart ≤ e.time ∧ e.time ≤ actualEnd := by
  simp [inWindow, List.mem_insertionSort]

/-- Each instant from the cursor on lies in a span that is billed for the languages of that
instant. -/
lemma exists_span {es : List WebinarEvent} {active : Assoc Uuid String} {cursor : Timestamp}
    (hsorted : es.Pairwise fun a b => a.time ≤ b.time) (hlow : cursor ≤ t) (hhigh : t < actualEnd) :
    ∃ span ∈ spans source actualEnd active cursor es, span.start ≤ t ∧ t < span.stop ∧
      span.k = kNow source ((es.filter fun e => e.time ≤ t).foldl (move source) active) := by
  induction es generalizing active cursor with
  | nil =>
    refine ⟨⟨cursor, actualEnd, kNow source active⟩, ?_, hlow, hhigh, rfl⟩
    rw [spans, spanOf, if_pos (lt_of_le_of_lt hlow hhigh)]
    exact List.mem_singleton_self _
  | cons e es ih =>
    obtain ⟨hfirst, hrest⟩ := List.pairwise_cons.mp hsorted
    rcases le_or_gt e.time t with he | he
    · obtain ⟨span, hspan, hin⟩ := @ih (move source active e) _ hrest (max_le hlow he)
      refine ⟨span, List.mem_append_right _ hspan, ?_⟩
      rw [List.filter_cons_of_pos (by simpa using he), List.foldl_cons]
      exact hin
    · have hnone : (e :: es).filter (fun e' => e'.time ≤ t) = [] := by
        rw [List.filter_eq_nil_iff]
        intro e' he'
        rcases List.mem_cons.mp he' with rfl | he'
        · simpa using he
        · simpa using lt_of_lt_of_le he (hfirst e' he')
      refine ⟨⟨cursor, e.time, kNow source active⟩, List.mem_append_left _ ?_, hlow, he, ?_⟩
      · rw [spanOf, if_pos (lt_of_le_of_lt hlow he)]
        exact List.mem_singleton_self _
      · rw [hnone]
        rfl

/-- **Each instant of a broadcast is billed for the languages of the log at that instant.** -/
theorem billed_at (hlow : actualStart ≤ t) (hhigh : t < actualEnd) :
    ∃ span ∈ billedSpans source events actualStart actualEnd, span.start ≤ t ∧ t < span.stop ∧
      span.k = kNow source (activeAt source events actualStart actualEnd t) :=
  exists_span (pairwise_inWindow events actualStart actualEnd) hlow hhigh

/-! ## What comes off air is not billed -/

/-- Inserting an entry into a sorted list and keeping some of them can be done in either order. -/
lemma filter_orderedInsert {α : Type*} {r : α → α → Prop} [DecidableRel r] [IsTrans α r]
    {p : α → Bool} {a : α} {l : List α} (hl : l.Pairwise r) :
    (l.orderedInsert r a).filter p =
      if p a then (l.filter p).orderedInsert r a else l.filter p := by
  induction l with
  | nil =>
    by_cases hp : p a = true <;> simp [hp]
  | cons b l ih =>
    obtain ⟨hb, hl⟩ := List.pairwise_cons.mp hl
    rw [List.orderedInsert_cons]
    by_cases hab : r a b
    · rw [if_pos hab]
      split_ifs with hp
      · rw [List.filter_cons_of_pos hp]
        -- `a` comes before whatever is left of `b :: l`
        cases hrest : (b :: l).filter p with
        | nil => rfl
        | cons c rest =>
          have hc : c ∈ b :: l := List.mem_of_mem_filter (p := p) (by simp [hrest])
          have hac : r a c := by
            rcases List.mem_cons.mp hc with rfl | hmem
            · exact hab
            · exact Trans.trans hab (hb c hmem)
          rw [List.orderedInsert_cons, if_pos hac]
      · rw [List.filter_cons_of_neg hp]
    · rw [if_neg hab, List.filter_cons, List.filter_cons, ih hl]
      split_ifs with hpb hpa
      · rw [List.orderedInsert_cons, if_neg hab]
      · rfl
      · rfl
      · rfl

/-- Sorting a list and keeping some of its entries can be done in either order. -/
lemma filter_insertionSort {α : Type*} {r : α → α → Prop} [DecidableRel r] [IsTrans α r]
    [Std.Total r] (p : α → Bool) (l : List α) :
    (l.insertionSort r).filter p = (l.filter p).insertionSort r := by
  induction l with
  | nil => rfl
  | cons a l ih =>
    rw [List.insertionSort_cons, filter_orderedInsert (List.pairwise_insertionSort r l), ih,
      List.filter_cons]
    split_ifs <;> rfl

/-- Nothing is billed once the cursor has come to the end. -/
lemma spans_at_end {es : List WebinarEvent} (active : Assoc Uuid String)
    (hle : ∀ e ∈ es, e.time ≤ actualEnd) : spans source actualEnd active actualEnd es = [] := by
  induction es generalizing active with
  | nil => rw [spans, spanOf, if_neg (lt_irrefl _)]
  | cons e es ih =>
    have he := hle e List.mem_cons_self
    rw [spans, spanOf, if_neg (not_lt.mpr he), max_eq_left he, List.nil_append]
    exact ih _ fun e' he' => hle e' (List.mem_cons_of_mem _ he')

/-- An event at the very end is not billed. -/
lemma spans_filter {es : List WebinarEvent} {active : Assoc Uuid String} {cursor : Timestamp}
    (hsorted : es.Pairwise fun a b => a.time ≤ b.time) (hle : ∀ e ∈ es, e.time ≤ actualEnd)
    (hcursor : cursor ≤ actualEnd) :
    spans source actualEnd active cursor es =
      spans source actualEnd active cursor (es.filter fun e => e.time < actualEnd) := by
  induction es generalizing active cursor with
  | nil => rfl
  | cons e es ih =>
    obtain ⟨hfirst, hrest⟩ := List.pairwise_cons.mp hsorted
    have he := hle e List.mem_cons_self
    have hle' : ∀ e' ∈ es, e'.time ≤ actualEnd := fun e' he' => hle e' (List.mem_cons_of_mem _ he')
    rcases lt_or_eq_of_le he with hlt | heq
    · rw [List.filter_cons_of_pos (by simpa using hlt), spans, spans,
        ih hrest hle' (max_le hcursor he)]
    · have hnone : (e :: es).filter (fun e' => e'.time < actualEnd) = [] := by
        rw [List.filter_eq_nil_iff]
        intro e' he'
        rcases List.mem_cons.mp he' with rfl | he'
        · simpa using heq.ge
        · simpa using heq.ge.trans (hfirst e' he')
      rw [hnone, spans, spans, heq, max_eq_right hcursor, spans_at_end _ hle', List.append_nil]

/-- **What comes once the webinar is off air is not billed.** -/
theorem costCredits_append {later : List WebinarEvent} (hspan : actualStart ≤ actualEnd)
    (hlater : ∀ e ∈ later, actualEnd ≤ e.time) :
    (finalizeWebinarMetrics source (events ++ later) actualStart actualEnd rates).costCredits =
      (finalizeWebinarMetrics source events actualStart actualEnd rates).costCredits := by
  have hseed : seed source (events ++ later) actualStart = seed source events actualStart := by
    have hnone : later.filter (fun e => e.time < actualStart) = [] := by
      rw [List.filter_eq_nil_iff]
      intro e he
      simpa using hspan.trans (hlater e he)
    rw [seed, latestPre, List.filter_append, hnone, List.append_nil]
    rfl
  -- before the very end, the window of both logs is the same
  have hwindow : (inWindow (events ++ later) actualStart actualEnd).filter
      (fun e => e.time < actualEnd) =
      (inWindow events actualStart actualEnd).filter fun e => e.time < actualEnd := by
    have hnone : later.filter (fun e => decide (e.time < actualEnd) &&
        (decide (actualStart ≤ e.time) && decide (e.time ≤ actualEnd))) = [] := by
      rw [List.filter_eq_nil_iff]
      intro e he
      simp [hlater e he]
    rw [inWindow, inWindow, filter_insertionSort, filter_insertionSort, List.filter_filter,
      List.filter_filter, List.filter_append, hnone, List.append_nil]
  have hspans : ∀ log, billedSpans source log actualStart actualEnd =
      spans source actualEnd (seed source log actualStart) actualStart
        ((inWindow log actualStart actualEnd).filter fun e => e.time < actualEnd) :=
    fun log => spans_filter (pairwise_inWindow log actualStart actualEnd)
      (fun e he => (mem_inWindow.mp he).2.2) hspan
  have hcost : (sweep source (events ++ later) actualStart actualEnd rates).costUsd =
      (sweep source events actualStart actualEnd rates).costUsd := by
    rw [costUsd_sweep, costUsd_sweep, hspans, hspans, hseed, hwindow]
  simp only [finalizeWebinarMetrics]
  split_ifs
  · rfl
  · rw [hcost]

lemma ceilI32_range (v : ℚ) : 0 ≤ ceilI32 v ∧ ceilI32 v ≤ i32Max := by
  have hmax : (0 : Int) ≤ i32Max := by decide
  rw [ceilI32]
  split_ifs
  · exact ⟨le_refl 0, hmax⟩
  · exact ⟨le_min (le_max_right _ _) hmax, min_le_right _ _⟩

lemma costCredits_range :
    0 ≤ (finalizeWebinarMetrics source events actualStart actualEnd rates).costCredits ∧
      (finalizeWebinarMetrics source events actualStart actualEnd rates).costCredits ≤ i32Max := by
  simp only [finalizeWebinarMetrics]
  split_ifs
  · have hmax : (0 : Int) ≤ i32Max := by decide
    exact ⟨le_refl 0, hmax⟩
  · exact ceilI32_range _

end Sweep

end VoxTranslate.Webinar
