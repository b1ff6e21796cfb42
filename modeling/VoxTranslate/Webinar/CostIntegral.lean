import Mathlib.Algebra.BigOperators.Intervals
import Mathlib.Data.Int.ConditionallyCompleteOrder
import Mathlib.Data.Int.Interval
import VoxTranslate.Webinar.Audience

/-!
# The cost of a broadcast as an integral

What a broadcast should cost is the time that its audience needed translations, each language for
itself: the integral of the number of languages over the broadcast.  The sweep cuts the broadcast
at every event and bills each piece in whole seconds, so what is left over of a piece is lost.
-/

namespace VoxTranslate.Webinar

open Lib

variable {source : String} {events events' : List WebinarEvent} {es l : List WebinarEvent}
  {e : WebinarEvent} {m m' : Assoc Uuid String} {latest : Assoc Uuid WebinarEvent}
  {actualStart actualEnd t : Timestamp}

/-! ## Who is there -/

/-- The participant has joined, and nothing has happened to it since; of what happens at one instant
the leaves come first. -/
def PresentOn (source : String) (l : List WebinarEvent) (pid : Uuid) (lang : String) : Prop :=
  ∃ e ∈ l, e.participantId = pid ∧ e.kind = .join ∧ e.languageCode.getD source = lang ∧
    ∀ e' ∈ l, e'.participantId = pid → e'.time ≤ e.time

/-- The participants that are there, with a language of each. -/
def IsAudience (source : String) (l : List WebinarEvent) (m : Assoc Uuid String) : Prop :=
  ∀ pid, (∀ lang, m.lookup pid = some lang → PresentOn source l pid lang) ∧
    (m.lookup pid = none → ∀ lang, ¬ PresentOn source l pid lang)

/-- The map has the last event of each participant. -/
structure LatestOf (l : List WebinarEvent) (latest : Assoc Uuid WebinarEvent) : Prop where
  found : ∀ pid e, latest.lookup pid = some e →
    e ∈ l ∧ e.participantId = pid ∧ ∀ e' ∈ l, e'.participantId = pid → e'.Before e
  missing : ∀ pid, latest.lookup pid = none → ∀ e ∈ l, e.participantId ≠ pid

lemma LatestOf.insert (h : LatestOf l latest)
    (hlast : ∀ e' ∈ l, e'.participantId = e.participantId → e'.Before e) :
    LatestOf (l ++ [e]) (latest.insert e.participantId e) := by
  refine ⟨fun pid e₀ he₀ => ?_, fun pid hnone e' he' => ?_⟩
  · by_cases hpid : pid = e.participantId
    · rw [hpid, AList.lookup_insert] at he₀
      cases he₀
      refine ⟨by simp, hpid.symm, fun e' he' hpid' => ?_⟩
      rcases List.mem_append.mp he' with he' | he'
      · exact hlast e' he' (hpid'.trans hpid)
      · rw [List.mem_singleton.mp he']
        exact .inr ⟨rfl, le_rfl⟩
    · rw [AList.lookup_insert_ne hpid] at he₀
      obtain ⟨hmem, howner, hbefore⟩ := h.found pid e₀ he₀
      refine ⟨List.mem_append_left _ hmem, howner, fun e' he' hpid' => ?_⟩
      rcases List.mem_append.mp he' with he' | he'
      · exact hbefore e' he' hpid'
      · rw [List.mem_singleton.mp he'] at hpid'
        exact absurd hpid'.symm hpid
  · by_cases hpid : pid = e.participantId
    · rw [hpid, AList.lookup_insert] at hnone
      cases hnone
    · rw [AList.lookup_insert_ne hpid] at hnone
      rcases List.mem_append.mp he' with he' | he'
      · exact h.missing pid hnone e' he'
      · rw [List.mem_singleton.mp he']
        exact Ne.symm hpid

lemma LatestOf.keep {prev : WebinarEvent} (h : LatestOf l latest)
    (hprev : latest.lookup e.participantId = some prev) (hbefore : e.Before prev) :
    LatestOf (l ++ [e]) latest := by
  refine ⟨fun pid e₀ he₀ => ?_, fun pid hnone e' he' => ?_⟩
  · obtain ⟨hmem, howner, hlast⟩ := h.found pid e₀ he₀
    refine ⟨List.mem_append_left _ hmem, howner, fun e' he' hpid' => ?_⟩
    rcases List.mem_append.mp he' with he' | he'
    · exact hlast e' he' hpid'
    · rw [List.mem_singleton.mp he'] at hpid' ⊢
      rw [← hpid', hprev] at he₀
      cases he₀
      exact hbefore
  · rcases List.mem_append.mp he' with he' | he'
    · exact h.missing pid hnone e' he'
    · rw [List.mem_singleton.mp he']
      rintro rfl
      rw [hprev] at hnone
      cases hnone

/-- The latest events before the host goes on air, of events in any order. -/
lemma latestOf_foldl (h : LatestOf l latest) (hkinds : ∀ e ∈ es, e.kind ≠ .other) :
    LatestOf (l ++ es) (es.foldl (fun m e =>
      match m.lookup e.participantId with
      | some prev =>
        if prev.time > e.time then m
        else if prev.time = e.time && !(prev.kind = .leave && e.kind = .join) then m
        else m.insert e.participantId e
      | none => m.insert e.participantId e) latest) := by
  induction es generalizing l latest with
  | nil => simpa using h
  | cons e es ih =>
    have hkind := hkinds e List.mem_cons_self
    rw [List.foldl_cons, List.append_cons]
    refine ih ?_ fun e' he' => hkinds e' (List.mem_cons_of_mem _ he')
    cases hprev : latest.lookup e.participantId with
    | none =>
      refine h.insert fun e' he' hpid => ?_
      exact absurd hpid (h.missing _ hprev e' he')
    | some prev =>
      have hlast : ∀ e' ∈ l, e'.participantId = e.participantId → e'.Before prev :=
        (h.found _ prev hprev).2.2
      dsimp only
      split_ifs with hlater hkeep
      · exact h.keep hprev (.inl hlater)
      · rw [Bool.and_eq_true, decide_eq_true_eq] at hkeep
        refine h.keep hprev (.inr ⟨hkeep.1.symm, ?_⟩)
        have hnot := hkeep.2
        revert hnot hkind
        cases prev.kind <;> cases e.kind <;> simp [EventKind.rank]
      · have hnew : prev.Before e := by
          rcases lt_or_eq_of_le (not_lt.mp hlater) with hlt | heq
          · exact .inl hlt
          · refine .inr ⟨heq, ?_⟩
            have hnot : prev.kind = .leave ∧ e.kind = .join := by simpa [heq] using hkeep
            rw [hnot.1, hnot.2]
            decide
        exact h.insert fun e' he' hpid => IsTrans.trans _ _ _ (hlast e' he' hpid) hnew

/-- Who is there, by the last events. -/
lemma LatestOf.isAudience (h : LatestOf l latest) (hknown : Says source latest m)
    (hkinds : ∀ e ∈ l, e.kind ≠ .other) : IsAudience source l m := by
  intro pid
  have hpid := hknown pid
  constructor
  · intro lang hlang
    rw [hpid] at hlang
    obtain ⟨e, he, hafter⟩ := Option.bind_eq_some_iff.mp hlang
    obtain ⟨hmem, howner, hlast⟩ := h.found pid e he
    obtain ⟨hjoin, hcode⟩ := Option.ite_none_right_eq_some.mp hafter
    exact ⟨e, hmem, howner, hjoin, Option.some.inj hcode,
      fun e' he' hpid' => (hlast e' he' hpid').time_le⟩
  · rintro hnone lang ⟨e', he', howner', hjoin', -, hlast'⟩
    cases hlatest : latest.lookup pid with
    | none => exact h.missing pid hlatest e' he' howner'
    | some e =>
      obtain ⟨hmem, howner, hlast⟩ := h.found pid e hlatest
      rw [hpid, hlatest, Option.bind_some, afterEvent] at hnone
      have hkind : e.kind ≠ .join := by
        intro hjoin
        rw [if_pos hjoin] at hnone
        cases hnone
      -- a join is not followed by a leave of the same instant
      rcases hlast e' he' howner' with hlt | ⟨-, hrank⟩
      · exact absurd (hlast' e hmem howner) (not_le.mpr hlt)
      · have hother := hkinds e hmem
        rw [hjoin'] at hrank
        revert hkind hother hrank
        cases e.kind <;> simp [EventKind.rank]

lemma IsAudience.of_mem_iff (h : IsAudience source l m) (hmem : ∀ e, e ∈ l ↔ e ∈ es) :
    IsAudience source es m := by
  have hpresent : ∀ pid lang, PresentOn source l pid lang ↔ PresentOn source es pid lang := by
    intro pid lang
    simp only [PresentOn, hmem]
  intro pid
  refine ⟨fun lang hlang => (hpresent pid lang).mp ((h pid).1 lang hlang), fun hnone lang hes => ?_⟩
  exact (h pid).2 hnone lang ((hpresent pid lang).mpr hes)

/-- The sweep keeps who is there. -/
lemma latestOf_move (h : LatestOf l latest) (hknown : Says source latest m)
    (hsorted : es.Pairwise WebinarEvent.Before) (hlate : ∀ e' ∈ l, ∀ e ∈ es, e'.Before e)
    (hkinds : ∀ e ∈ es, e.kind ≠ .other) : ∃ latest', LatestOf (l ++ es) latest' ∧
      Says source latest' (es.foldl (move source) m) := by
  induction es generalizing l latest m with
  | nil => exact ⟨latest, by simpa using h, hknown⟩
  | cons e es ih =>
    obtain ⟨hfirst, hrest⟩ := List.pairwise_cons.mp hsorted
    have hkind := hkinds e List.mem_cons_self
    rw [List.append_cons, List.foldl_cons]
    refine ih (h.insert fun e' he' _ => hlate e' he' e List.mem_cons_self) (hknown.move hkind) hrest
      ?_ fun e' he' => hkinds e' (List.mem_cons_of_mem _ he')
    intro e' he' e'' he''
    rcases List.mem_append.mp he' with he' | he'
    · exact hlate e' he' e'' (List.mem_cons_of_mem _ he'')
    · rw [List.mem_singleton.mp he']
      exact hfirst e'' he''

/-- **The audience of the sweep** is that of the log, at each instant of the broadcast. -/
lemma isAudience_activeAt (hkinds : ∀ e ∈ events, e.kind ≠ .other) (hlow : actualStart ≤ t)
    (hhigh : t ≤ actualEnd) : IsAudience source (events.filter fun e => e.time ≤ t)
      (activeAt source events actualStart actualEnd t) := by
  let early := events.filter fun e => e.time < actualStart
  let late := (inWindow events actualStart actualEnd).filter fun e => e.time ≤ t
  have hearly : LatestOf early (latestPre events actualStart) := by
    have hnil : LatestOf [] (∅ : Assoc Uuid WebinarEvent) := by
      refine ⟨fun pid e he => ?_, fun pid _ e he => ?_⟩
      · cases he
      · cases he
    exact latestOf_foldl hnil fun e he => hkinds e (List.mem_of_mem_filter he)
  have hknown : Says source (latestPre events actualStart) (seed source events actualStart) := by
    intro pid
    rw [seed, lookup_foldl_entries (latestPre events actualStart).nodupKeys ∅ (fun _ _ => rfl) pid]
    show _ = (List.dlookup pid (latestPre events actualStart).entries).bind (afterEvent source)
    cases List.dlookup pid (latestPre events actualStart).entries <;> rfl
  have hlate : ∀ e ∈ late, e ∈ events ∧ actualStart ≤ e.time ∧ e.time ≤ t := by
    intro e he
    obtain ⟨hin, het⟩ := List.mem_filter.mp he
    obtain ⟨hmem, hstart, -⟩ := mem_inWindow.mp hin
    exact ⟨hmem, hstart, of_decide_eq_true het⟩
  have hsorted : late.Pairwise WebinarEvent.Before :=
    (List.pairwise_insertionSort WebinarEvent.Before _).filter _
  have hfirst : ∀ e' ∈ early, ∀ e ∈ late, e'.Before e := fun e' he' e he =>
    .inl (lt_of_lt_of_le (of_decide_eq_true (List.mem_filter.mp he').2) (hlate e he).2.1)
  obtain ⟨latest', hlatest', hknown'⟩ :=
    latestOf_move hearly hknown hsorted hfirst fun e he => hkinds e (hlate e he).1
  have hmem : ∀ e, e ∈ early ++ late ↔ e ∈ events.filter fun e => e.time ≤ t := by
    intro e
    simp only [early, late, List.mem_append, List.mem_filter, mem_inWindow, decide_eq_true_eq]
    constructor
    · rintro (⟨he, hlt⟩ | ⟨⟨he, -, -⟩, hle⟩)
      · exact ⟨he, (hlt.trans_le hlow).le⟩
      · exact ⟨he, hle⟩
    · rintro ⟨he, hle⟩
      rcases lt_or_ge e.time actualStart with hlt | hge
      · exact .inl ⟨he, hlt⟩
      · exact .inr ⟨⟨he, hge, hle.trans hhigh⟩, hle⟩
  refine (hlatest'.isAudience hknown' fun e he => ?_).of_mem_iff hmem
  exact hkinds e (List.mem_of_mem_filter ((hmem e).mp he))

/-- Where no participant has two events at one instant, the log says who is there. -/
lemma IsAudience.agree (h : IsAudience source l m) (h' : IsAudience source l m')
    (honce : ∀ e ∈ l, ∀ e' ∈ l, e.participantId = e'.participantId → e.time = e'.time → e = e') :
    Agree m m' := by
  have hlang : ∀ pid lang lang', PresentOn source l pid lang → PresentOn source l pid lang' →
      lang = lang' := by
    rintro pid lang lang' ⟨e, he, howner, -, rfl, hlast⟩ ⟨e', he', howner', -, rfl, hlast'⟩
    have htime := le_antisymm (hlast' e he howner) (hlast e' he' howner')
    rw [honce e he e' he' (howner.trans howner'.symm) htime]
  intro pid
  cases hm : m.lookup pid with
  | none =>
    cases hm' : m'.lookup pid with
    | none => rfl
    | some lang => exact absurd ((h' pid).1 lang hm') ((h pid).2 hm lang)
  | some lang =>
    cases hm' : m'.lookup pid with
    | none => exact absurd ((h pid).1 lang hm) ((h' pid).2 hm' lang)
    | some lang' => rw [hlang pid lang lang' ((h pid).1 lang hm) ((h' pid).1 lang' hm')]

/-! ## Spans between instants -/

/-- The spans that a list of instants cuts, each with the languages at its start. -/
def spansOfTimes (load : Timestamp → Nat) (actualEnd : Timestamp) (cursor : Timestamp) :
    List Timestamp → List BilledSpan
  | [] => if cursor < actualEnd then [⟨cursor, actualEnd, load cursor⟩] else []
  | t :: ts =>
    (if cursor < t then [⟨cursor, t, load cursor⟩] else []) ++
      spansOfTimes load actualEnd (max cursor t) ts

variable {load load' : Timestamp → Nat} {cursor : Timestamp} {ts : List Timestamp}
  {span : BilledSpan} {active : Assoc Uuid String}

/-- What is billed depends on the instants of the events and on the languages in between. -/
lemma spans_eq (hsorted : es.Pairwise fun a b => a.time ≤ b.time)
    (hload : ∀ x, cursor ≤ x →
      load x = kNow source ((es.filter fun e => e.time ≤ x).foldl (move source) active)) :
    spans source actualEnd active cursor es =
      spansOfTimes load actualEnd cursor (es.map WebinarEvent.time) := by
  induction es generalizing active cursor with
  | nil =>
    rw [spans, spanOf, List.map_nil, spansOfTimes, hload cursor le_rfl]
    rfl
  | cons e es ih =>
    obtain ⟨hfirst, hrest⟩ := List.pairwise_cons.mp hsorted
    rw [spans, List.map_cons, spansOfTimes, spanOf, ih hrest]
    · by_cases hlt : cursor < e.time
      · have hnone : (e :: es).filter (fun e' => e'.time ≤ cursor) = [] := by
          rw [List.filter_eq_nil_iff]
          intro e' he'
          rcases List.mem_cons.mp he' with rfl | he'
          · simpa using hlt
          · simpa using lt_of_lt_of_le hlt (hfirst e' he')
        rw [if_pos hlt, if_pos hlt, hload cursor le_rfl, hnone]
        rfl
      · rw [if_neg hlt, if_neg hlt]
    · intro x hx
      obtain ⟨hcursor, htime⟩ := max_le_iff.mp hx
      rw [hload x hcursor, List.filter_cons_of_pos (by simpa using htime), List.foldl_cons]

/-- An instant at which the sweep stops. -/
def Cut (actualEnd cursor : Timestamp) (ts : List Timestamp) (x : Timestamp) : Prop :=
  x = cursor ∨ x = actualEnd ∨ x ∈ ts ∧ cursor ≤ x

/-- The first of the instants that are left is not before the cursor, or has no effect. -/
lemma cut_cons_iff (hfirst : ∀ t' ∈ ts, t ≤ t') (x : Timestamp) :
    Cut actualEnd cursor (t :: ts) x ↔
      cursor < t ∧ x = cursor ∨ Cut actualEnd (max cursor t) ts x := by
  simp only [Cut, List.mem_cons]
  rcases lt_or_ge cursor t with hlt | hge
  · rw [max_eq_right hlt.le]
    constructor
    · rintro (rfl | rfl | ⟨rfl | hx, -⟩)
      · exact .inl ⟨hlt, rfl⟩
      · exact .inr (.inr (.inl rfl))
      · exact .inr (.inl rfl)
      · exact .inr (.inr (.inr ⟨hx, hfirst x hx⟩))
    · rintro (⟨-, rfl⟩ | rfl | rfl | ⟨hx, hle⟩)
      · exact .inl rfl
      · exact .inr (.inr ⟨.inl rfl, hlt.le⟩)
      · exact .inr (.inl rfl)
      · exact .inr (.inr ⟨.inr hx, hlt.le.trans hle⟩)
  · rw [max_eq_left hge]
    constructor
    · rintro (rfl | rfl | ⟨rfl | hx, hle⟩)
      · exact .inr (.inl rfl)
      · exact .inr (.inr (.inl rfl))
      · exact .inr (.inl (le_antisymm hge hle))
      · exact .inr (.inr (.inr ⟨hx, hle⟩))
    · rintro (⟨hlt, -⟩ | rfl | rfl | ⟨hx, hle⟩)
      · exact absurd hge (not_le.mpr hlt)
      · exact .inl rfl
      · exact .inr (.inl rfl)
      · exact .inr (.inr ⟨.inr hx, hle⟩)

lemma Cut.le (h : Cut actualEnd cursor ts t) (hcursor : cursor ≤ actualEnd) : cursor ≤ t := by
  rcases h with rfl | rfl | ⟨-, hle⟩
  · exact le_rfl
  · exact hcursor
  · exact hle

/-- A span leads from one cut to the next. -/
lemma mem_spansOfTimes_iff (hsorted : ts.Pairwise (· ≤ ·)) (hle : ∀ t ∈ ts, t ≤ actualEnd)
    (hcursor : cursor ≤ actualEnd) : span ∈ spansOfTimes load actualEnd cursor ts ↔
      span.start < span.stop ∧ Cut actualEnd cursor ts span.start ∧
        Cut actualEnd cursor ts span.stop ∧
        (∀ x, Cut actualEnd cursor ts x → ¬ (span.start < x ∧ x < span.stop)) ∧
        span.k = load span.start := by
  obtain ⟨a, b, k⟩ := span
  induction ts generalizing cursor with
  | nil =>
    simp only [spansOfTimes, Cut, List.not_mem_nil, false_and, or_false]
    constructor
    · intro hmem
      split_ifs at hmem with hlt
      · cases List.mem_singleton.mp hmem
        refine ⟨hlt, .inl rfl, .inr rfl, ?_, rfl⟩
        rintro x (rfl | rfl) ⟨hax, hxb⟩
        · exact lt_irrefl _ hax
        · exact lt_irrefl _ hxb
      · cases hmem
    · rintro ⟨hab, rfl | rfl, rfl | rfl, -, rfl⟩
      · exact absurd hab (lt_irrefl _)
      · rw [if_pos hab]
        exact List.mem_singleton_self _
      · exact absurd hcursor (not_le.mpr hab)
      · exact absurd hab (lt_irrefl _)
  | cons t ts ih =>
    obtain ⟨hfirst, hrest⟩ := List.pairwise_cons.mp hsorted
    have hmax : max cursor t ≤ actualEnd := max_le hcursor (hle t List.mem_cons_self)
    have ih' := ih hrest (fun t' ht' => hle t' (List.mem_cons_of_mem _ ht')) hmax
    simp only [spansOfTimes, List.mem_append, ih', cut_cons_iff hfirst]
    constructor
    · rintro (hmem | ⟨hab, ha, hb, hnone, hk⟩)
      · split_ifs at hmem with hlt
        · cases List.mem_singleton.mp hmem
          rw [max_eq_right hlt.le] at hmax ⊢
          refine ⟨hlt, .inl ⟨hlt, rfl⟩, .inr (.inl rfl), ?_, rfl⟩
          rintro x (⟨-, rfl⟩ | hx) ⟨hax, hxb⟩
          · exact lt_irrefl _ hax
          · exact absurd (hx.le hmax) (not_le.mpr hxb)
        · cases hmem
      · refine ⟨hab, .inr ha, .inr hb, ?_, hk⟩
        rintro x (⟨hlt, rfl⟩ | hx) hin
        · exact absurd ((le_max_left _ _).trans (ha.le hmax)) (not_le.mpr hin.1)
        · exact hnone x hx hin
    · rintro ⟨hab, ha, hb, hnone, hk⟩
      rcases ha with ⟨hlt, rfl⟩ | ha
      · -- the first cut after the cursor is the first instant
        rw [max_eq_right hlt.le] at hb hnone hmax
        have hbt : b = t := by
          rcases hb with ⟨-, rfl⟩ | hb
          · exact absurd hab (lt_irrefl _)
          · refine le_antisymm (not_lt.mp fun htb => ?_) (hb.le hmax)
            exact hnone t (.inr (.inl rfl)) ⟨hlt, htb⟩
        rw [if_pos hlt, hk, hbt]
        exact .inl (List.mem_singleton_self _)
      · right
        refine ⟨hab, ha, ?_, fun x hx => hnone x (.inr hx), hk⟩
        rcases hb with ⟨-, rfl⟩ | hb
        · exact absurd ((le_max_left _ _).trans (ha.le hmax)) (not_le.mpr hab)
        · exact hb

lemma sum_Ico_const {a b : Timestamp} (hab : a ≤ b)
    (hsame : ∀ x, a ≤ x → x < b → load x = load a) :
    ∑ x ∈ Finset.Ico a b, (load x : Int) = load a * (b - a) := by
  have hall : ∀ x ∈ Finset.Ico a b, (load x : Int) = load a := by
    intro x hx
    obtain ⟨hax, hxb⟩ := Finset.mem_Ico.mp hx
    rw [hsame x hax hxb]
  rw [Finset.sum_congr rfl hall, Finset.sum_const, Int.card_Ico, nsmul_eq_mul,
    Int.toNat_of_nonneg (sub_nonneg.mpr hab), mul_comm]

/-- The billed time of all languages is the integral of their number. -/
lemma sum_spansOfTimes (hsorted : ts.Pairwise (· ≤ ·)) (hle : ∀ t ∈ ts, t ≤ actualEnd)
    (hcursor : cursor ≤ actualEnd)
    (hconst : ∀ x y, cursor ≤ x → x ≤ y → (∀ t ∈ ts, ¬ (x < t ∧ t ≤ y)) → load x = load y) :
    ∑ x ∈ Finset.Ico cursor actualEnd, (load x : Int) =
      ((spansOfTimes load actualEnd cursor ts).map fun span =>
        (span.k : Int) * (span.stop - span.start)).sum := by
  induction ts generalizing cursor with
  | nil =>
    rw [sum_Ico_const hcursor fun x hx _ => (hconst cursor x le_rfl hx (by simp)).symm,
      spansOfTimes]
    split_ifs with hlt
    · simp
    · rw [le_antisymm hcursor (not_lt.mp hlt)]
      simp
  | cons t ts ih =>
    obtain ⟨hfirst, hrest⟩ := List.pairwise_cons.mp hsorted
    have hend := hle t List.mem_cons_self
    have hmax : max cursor t ≤ actualEnd := max_le hcursor hend
    have ih' := ih hrest (fun t' ht' => hle t' (List.mem_cons_of_mem _ ht')) hmax ?_
    · rw [spansOfTimes, List.map_append, List.sum_append, ← ih']
      rcases lt_or_ge cursor t with hlt | hge
      · have hhead : ∑ x ∈ Finset.Ico cursor t, (load x : Int) = load cursor * (t - cursor) := by
          refine sum_Ico_const hlt.le fun x hx hxt => (hconst cursor x le_rfl hx ?_).symm
          intro t' ht' hin
          rcases List.mem_cons.mp ht' with rfl | ht'
          · exact absurd hin.2 (not_le.mpr hxt)
          · exact absurd ((hfirst t' ht').trans hin.2) (not_le.mpr hxt)
        rw [max_eq_right hlt.le, if_pos hlt, ← Finset.Ico_union_Ico_eq_Ico hlt.le hend,
          Finset.sum_union (Finset.Ico_disjoint_Ico_consecutive _ _ _), hhead]
        simp
      · rw [max_eq_left hge, if_neg (not_lt.mpr hge)]
        simp
    · intro x y hx hxy hnone
      obtain ⟨hxc, hxt⟩ := max_le_iff.mp hx
      refine hconst x y hxc hxy fun t' ht' hin => ?_
      rcases List.mem_cons.mp ht' with rfl | ht'
      · exact absurd hin.1 (not_lt.mpr hxt)
      · exact hnone t' ht' hin

/-! ## The cost -/

/-- The number of languages at an instant of the broadcast. -/
def loadAt (source : String) (events : List WebinarEvent) (actualStart actualEnd t : Timestamp) :
    Nat := kNow source (activeAt source events actualStart actualEnd t)

/-- The ends of the broadcast and the instants of its events. -/
def IsCut (events : List WebinarEvent) (actualStart actualEnd x : Timestamp) : Prop :=
  x = actualStart ∨ x = actualEnd ∨ ∃ e ∈ events, e.time = x ∧ actualStart ≤ x ∧ x ≤ actualEnd

/-- From one cut to the next it is a whole number of seconds, where a language is billed. -/
def WholeSeconds (source : String) (events : List WebinarEvent)
    (actualStart actualEnd : Timestamp) : Prop :=
  ∀ a b, IsCut events actualStart actualEnd a → IsCut events actualStart actualEnd b → a < b →
    (∀ x, IsCut events actualStart actualEnd x → ¬ (a < x ∧ x < b)) →
    0 < loadAt source events actualStart actualEnd a → (1000000 : Int) ∣ b - a

/-- The instants of the sweep. -/
def times (events : List WebinarEvent) (actualStart actualEnd : Timestamp) : List Timestamp :=
  (inWindow events actualStart actualEnd).map WebinarEvent.time

/-- The seconds that are billed, each once for every language. -/
def billedSeconds (l : List BilledSpan) : Int :=
  (l.map fun span => (span.k : Int) * numSeconds (span.stop - span.start)).sum

/-- The microseconds that are not. -/
def lostTime (l : List BilledSpan) : Nat :=
  (l.map fun span => span.k * ((span.stop - span.start) % 1000000).toNat).sum

lemma pairwise_times (events : List WebinarEvent) (actualStart actualEnd : Timestamp) :
    (times events actualStart actualEnd).Pairwise (· ≤ ·) :=
  List.pairwise_map.mpr (pairwise_inWindow events actualStart actualEnd)

lemma times_le : ∀ x ∈ times events actualStart actualEnd, x ≤ actualEnd := by
  intro x hx
  obtain ⟨e, he, rfl⟩ := List.mem_map.mp hx
  exact (mem_inWindow.mp he).2.2

lemma cut_times_iff (x : Timestamp) :
    Cut actualEnd actualStart (times events actualStart actualEnd) x ↔
      IsCut events actualStart actualEnd x := by
  simp only [Cut, IsCut, times, List.mem_map, mem_inWindow]
  refine or_congr_right (or_congr_right ?_)
  constructor
  · rintro ⟨⟨e, ⟨he, hlow, hhigh⟩, rfl⟩, -⟩
    exact ⟨e, he, rfl, hlow, hhigh⟩
  · rintro ⟨e, he, rfl, hlow, hhigh⟩
    exact ⟨⟨e, ⟨he, hlow, hhigh⟩, rfl⟩, hlow⟩

lemma billedSpans_eq (source : String) (events : List WebinarEvent)
    (actualStart actualEnd : Timestamp) : billedSpans source events actualStart actualEnd =
      spansOfTimes (loadAt source events actualStart actualEnd) actualEnd actualStart
        (times events actualStart actualEnd) :=
  spans_eq (pairwise_inWindow events actualStart actualEnd) fun _ _ => rfl

lemma mem_billedSpans_iff (hspan : actualStart ≤ actualEnd) :
    span ∈ billedSpans source events actualStart actualEnd ↔
      span.start < span.stop ∧ IsCut events actualStart actualEnd span.start ∧
        IsCut events actualStart actualEnd span.stop ∧
        (∀ x, IsCut events actualStart actualEnd x → ¬ (span.start < x ∧ x < span.stop)) ∧
        span.k = loadAt source events actualStart actualEnd span.start := by
  rw [billedSpans_eq, mem_spansOfTimes_iff (pairwise_times _ _ _) times_le hspan]
  simp only [cut_times_iff]

/-- The integral of the number of languages, in microseconds. -/
lemma sum_billedSpans (hspan : actualStart ≤ actualEnd) :
    ∑ x ∈ Finset.Ico actualStart actualEnd, (loadAt source events actualStart actualEnd x : Int) =
      1000000 * billedSeconds (billedSpans source events actualStart actualEnd) +
        lostTime (billedSpans source events actualStart actualEnd) := by
  have hconst : ∀ x y, actualStart ≤ x → x ≤ y →
      (∀ t ∈ times events actualStart actualEnd, ¬ (x < t ∧ t ≤ y)) →
      loadAt source events actualStart actualEnd x =
        loadAt source events actualStart actualEnd y := by
    intro x y _ hxy hnone
    have hfilter : (inWindow events actualStart actualEnd).filter (fun e => e.time ≤ x) =
        (inWindow events actualStart actualEnd).filter fun e => e.time ≤ y := by
      refine List.filter_congr fun e he => ?_
      rw [decide_eq_decide]
      refine ⟨fun hx => hx.trans hxy, fun hy => not_lt.mp fun hlt => ?_⟩
      exact hnone e.time (List.mem_map_of_mem he) ⟨hlt, hy⟩
    rw [loadAt, loadAt, activeAt, activeAt, hfilter]
  rw [sum_spansOfTimes (pairwise_times _ _ _) times_le hspan hconst, ← billedSpans_eq]
  have hlong : ∀ span ∈ billedSpans source events actualStart actualEnd, span.start < span.stop :=
    fun span hmem => ((mem_billedSpans_iff hspan).mp hmem).1
  generalize billedSpans source events actualStart actualEnd = l at hlong
  induction l with
  | nil => rfl
  | cons span l ih =>
    have hpos := hlong span List.mem_cons_self
    have hpos' : (0 : Int) ≤ span.stop - span.start := sub_nonneg.mpr hpos.le
    have hsplit := Int.mul_ediv_add_emod (span.stop - span.start) 1000000
    have hrest := ih fun span' hmem => hlong span' (List.mem_cons_of_mem _ hmem)
    have hmod : (((span.stop - span.start) % 1000000).toNat : Int) =
        (span.stop - span.start) % 1000000 := Int.toNat_of_nonneg (Int.emod_nonneg _ (by decide))
    have hseconds : numSeconds (span.stop - span.start) = (span.stop - span.start) / 1000000 :=
      Int.tdiv_eq_ediv_of_nonneg hpos'
    simp only [billedSeconds, lostTime, List.map_cons, List.sum_cons, Nat.cast_add, Nat.cast_mul,
      hmod, hseconds] at hrest ⊢
    rw [hrest]
    conv_lhs => rw [← hsplit]
    ring

/-- Nothing is lost exactly when every span that is billed is of whole seconds. -/
lemma lostTime_eq_zero_iff (hspan : actualStart ≤ actualEnd) :
    lostTime (billedSpans source events actualStart actualEnd) = 0 ↔
      WholeSeconds source events actualStart actualEnd := by
  rw [lostTime, List.sum_eq_zero_iff]
  simp only [List.mem_map, forall_exists_index, and_imp, forall_apply_eq_imp_iff₂,
    Nat.mul_eq_zero]
  have hdvd : ∀ d : Int, (d % 1000000).toNat = 0 ↔ (1000000 : Int) ∣ d := by
    intro d
    omega
  simp only [hdvd]
  constructor
  · intro h a b ha hb hab hnone hload
    let k := loadAt source events actualStart actualEnd a
    have hmem : ⟨a, b, k⟩ ∈ billedSpans source events actualStart actualEnd :=
      (mem_billedSpans_iff hspan).mpr ⟨hab, ha, hb, hnone, rfl⟩
    rcases h ⟨a, b, k⟩ hmem with hzero | hwhole
    · exact absurd hzero (Nat.ne_of_gt hload)
    · exact hwhole
  · intro h span hmem
    obtain ⟨hlong, hstart, hstop, hnone, hk⟩ := (mem_billedSpans_iff hspan).mp hmem
    rcases Nat.eq_zero_or_pos span.k with hzero | hpos
    · exact .inl hzero
    · exact .inr (h _ _ hstart hstop hlong hnone (hk ▸ hpos))

/-- The tolerance of the rounding, in credits. -/
def tolerance : ℚ := 1 / 1000000

lemma ceilI32_of_le {v : ℚ} (h : v ≤ tolerance) : ceilI32 v = 0 := by
  rw [ceilI32]
  split_ifs with hv
  · rfl
  · have hceil : ⌈v - 1 / 1000000⌉ ≤ 0 := by
      rw [Int.ceil_le, Int.cast_zero]
      exact sub_nonpos.mpr h
    rw [max_eq_right hceil]
    rfl

lemma ceilI32_of_lt {v : ℚ} (h : tolerance < v) (h' : v ≤ 1) : ceilI32 v = 1 := by
  have hpos : 0 < v := lt_trans (by norm_num [tolerance]) h
  have hceil : ⌈v - 1 / 1000000⌉ = 1 := by
    rw [Int.ceil_eq_iff]
    constructor
    · rw [Int.cast_one, sub_self]
      exact sub_pos.mpr h
    · rw [Int.cast_one]
      linarith
  rw [ceilI32, if_neg (not_le.mpr hpos), hceil]
  rfl

/-- Two costs round to the same credits at every rate only where they are the same. -/
lemma ceilI32_mul_iff {a b : ℚ} (ha : 0 ≤ a) (hab : a ≤ b) :
    (∀ r : ℚ, 0 ≤ r → ceilI32 (r * a) = ceilI32 (r * b)) ↔ a = b := by
  refine ⟨fun h => ?_, fun heq r _ => by rw [heq]⟩
  by_contra hne
  have hlt : a < b := lt_of_le_of_ne hab hne
  have hb : 0 < b := ha.trans_lt hlt
  have htol : (0 : ℚ) < tolerance := by norm_num [tolerance]
  -- the rate at which the greater cost is just above the tolerance
  let x : ℚ := (b - a) / b
  have hx : 0 < x := div_pos (sub_pos.mpr hlt) hb
  have hx1 : x ≤ 1 := (div_le_one hb).mpr (by linarith)
  have hbx : a = b * (1 - x) := by
    simp only [x]
    field_simp
    ring
  let r : ℚ := tolerance * (1 + x) / b
  have hr : 0 ≤ r := div_nonneg (mul_nonneg htol.le (by linarith)) hb.le
  have hrb : r * b = tolerance * (1 + x) := div_mul_cancel₀ _ hb.ne'
  have hra : r * a = tolerance * (1 - x * x) := by
    rw [hbx, ← mul_assoc, hrb]
    ring
  have hlow : ceilI32 (r * a) = 0 := by
    refine ceilI32_of_le ?_
    rw [hra]
    nlinarith [mul_pos hx hx]
  have hhigh : ceilI32 (r * b) = 1 := by
    refine ceilI32_of_lt ?_ ?_
    · rw [hrb]
      nlinarith
    · rw [hrb]
      have htol1 : tolerance ≤ 1 / 2 := by norm_num [tolerance]
      nlinarith
  have heq := h r hr
  rw [hlow, hhigh] at heq
  cases heq

lemma IsCut.mem (hspan : actualStart ≤ actualEnd) (h : IsCut events actualStart actualEnd t) :
    actualStart ≤ t ∧ t ≤ actualEnd := by
  rcases h with rfl | rfl | ⟨-, -, -, hlow, hhigh⟩
  · exact ⟨le_rfl, hspan⟩
  · exact ⟨hspan, le_rfl⟩
  · exact ⟨hlow, hhigh⟩

/-- In less than a second nothing is billed. -/
lemma billedSeconds_eq_zero (hspan : actualStart < actualEnd)
    (hshort : numSeconds (actualEnd - actualStart) ≤ 0) :
    billedSeconds (billedSpans source events actualStart actualEnd) = 0 := by
  refine List.sum_eq_zero fun x hx => ?_
  obtain ⟨span, hmem, rfl⟩ := List.mem_map.mp hx
  obtain ⟨hlong, hstart, hstop, -⟩ := (mem_billedSpans_iff hspan.le).mp hmem
  have hlow := (hstart.mem hspan.le).1
  have hhigh := (hstop.mem hspan.le).2
  have hzero : numSeconds (span.stop - span.start) = 0 := by
    rw [numSeconds, Int.tdiv_eq_ediv_of_nonneg (sub_nonneg.mpr hspan.le)] at hshort
    rw [numSeconds, Int.tdiv_eq_ediv_of_nonneg (sub_nonneg.mpr hlong.le)]
    have hlength : span.stop - span.start ≤ actualEnd - actualStart := sub_le_sub hhigh hlow
    refine le_antisymm ((Int.ediv_le_ediv (by decide) hlength).trans hshort) ?_
    exact Int.ediv_nonneg (sub_nonneg.mpr hlong.le) (by decide)
  rw [hzero, mul_zero]

lemma costOf_eq (rate : ℚ) (l : List BilledSpan) :
    costOf ⟨rate, 100⟩ l * 100 = rate * (100 * billedSeconds l / 60) := by
  induction l with
  | nil => simp [costOf, billedSeconds]
  | cons span l ih =>
    have hspan : costOf ⟨rate, 100⟩ (span :: l) =
        Sweep.intervalCostUsd ⟨rate, 100⟩ span.k (span.stop - span.start) + costOf ⟨rate, 100⟩ l :=
      List.sum_cons
    have hseconds : billedSeconds (span :: l) =
        span.k * numSeconds (span.stop - span.start) + billedSeconds l := List.sum_cons
    rw [hspan, add_mul, ih, hseconds, Sweep.intervalCostUsd]
    push_cast
    ring

/-- The credits are those of the seconds that are billed. -/
lemma costCredits_eq (hspan : actualStart < actualEnd) (rate : ℚ) :
    (finalizeWebinarMetrics source events actualStart actualEnd ⟨rate, 100⟩).costCredits =
      ceilI32 (rate *
        (100 * billedSeconds (billedSpans source events actualStart actualEnd) / 60)) := by
  simp only [finalizeWebinarMetrics]
  by_cases hzero : max (numSeconds (actualEnd - actualStart)) 0 = 0
  · rw [if_pos hzero, billedSeconds_eq_zero hspan (max_eq_right_iff.mp hzero)]
    simp [ceilI32]
  · rw [if_neg hzero]
    change ceilI32 (_ * 100) = _
    rw [costUsd_sweep, costOf_eq]

/-- The integral of the number of languages over the broadcast, in minutes. -/
noncomputable def languageMinutes (source : String) (events : List WebinarEvent)
    (actualStart actualEnd : Timestamp) : ℚ :=
  (∑ t ∈ Finset.Ico actualStart actualEnd,
    (loadAt source events actualStart actualEnd t : Int) : Int) / 60000000

/-- The cost is the integral at every rate exactly when nothing is lost. -/
lemma costCredits_eq_languageMinutes_iff (hspan : actualStart < actualEnd) :
    (∀ rate : ℚ, 0 ≤ rate →
      (finalizeWebinarMetrics source events actualStart actualEnd ⟨rate, 100⟩).costCredits =
        ceilI32 (100 * rate * languageMinutes source events actualStart actualEnd)) ↔
      WholeSeconds source events actualStart actualEnd := by
  rw [← lostTime_eq_zero_iff hspan.le]
  let l := billedSpans source events actualStart actualEnd
  let billed : ℚ := 100 * billedSeconds l / 60
  let full : ℚ := 100 * languageMinutes source events actualStart actualEnd
  have hfull : full = billed + 100 * lostTime l / 60000000 := by
    simp only [full, billed, languageMinutes]
    rw [sum_billedSpans hspan.le]
    push_cast
    ring
  have hbilled : 0 ≤ billed := by
    have hseconds : 0 ≤ billedSeconds l := by
      refine List.sum_nonneg fun x hx => ?_
      obtain ⟨span, hmem, rfl⟩ := List.mem_map.mp hx
      have hlong := ((mem_billedSpans_iff hspan.le).mp hmem).1
      exact mul_nonneg (Int.natCast_nonneg _)
        (Int.tdiv_nonneg (sub_nonneg.mpr hlong.le) (by decide))
    have hcast : (0 : ℚ) ≤ billedSeconds l := by exact_mod_cast hseconds
    positivity
  have hlost : (0 : ℚ) ≤ 100 * lostTime l / 60000000 := by positivity
  have hcost : ∀ rate : ℚ,
      (finalizeWebinarMetrics source events actualStart actualEnd ⟨rate, 100⟩).costCredits =
        ceilI32 (100 * rate * languageMinutes source events actualStart actualEnd) ↔
        ceilI32 (rate * billed) = ceilI32 (rate * full) := by
    intro rate
    rw [costCredits_eq hspan, show 100 * rate * _ = rate * full by simp only [full]; ring]
  simp only [hcost]
  rw [ceilI32_mul_iff hbilled (hfull ▸ le_add_of_nonneg_right hlost), hfull, left_eq_add]
  constructor
  · intro hzero
    have hcast : (lostTime l : ℚ) = 0 := by linarith
    exact_mod_cast hcast
  · intro hzero
    rw [show lostTime l = 0 from hzero]
    simp

/-! ## The order of the log -/

/-- What is billed depends on the languages up to the end. -/
lemma spansOfTimes_congr (hle : ∀ t ∈ ts, t ≤ actualEnd) (hcursor : cursor ≤ actualEnd)
    (hload : ∀ x, cursor ≤ x → x ≤ actualEnd → load x = load' x) :
    spansOfTimes load actualEnd cursor ts = spansOfTimes load' actualEnd cursor ts := by
  induction ts generalizing cursor with
  | nil => rw [spansOfTimes, spansOfTimes, hload cursor le_rfl hcursor]
  | cons t ts ih =>
    have hmax : max cursor t ≤ actualEnd := max_le hcursor (hle t List.mem_cons_self)
    rw [spansOfTimes, spansOfTimes, hload cursor le_rfl hcursor,
      ih (fun t' ht' => hle t' (List.mem_cons_of_mem _ ht')) hmax]
    exact fun x hx => hload x ((le_max_left _ _).trans hx)

lemma times_perm (h : events.Perm events') :
    times events actualStart actualEnd = times events' actualStart actualEnd := by
  have hwindow : (inWindow events actualStart actualEnd).Perm
      (inWindow events' actualStart actualEnd) :=
    (List.perm_insertionSort _ _).trans ((h.filter _).trans (List.perm_insertionSort _ _).symm)
  exact (hwindow.map _).eq_of_pairwise (fun _ _ _ _ => le_antisymm) (pairwise_times _ _ _)
    (pairwise_times _ _ _)

/-- Where no participant has two events at one instant, the order of the log does not matter. -/
lemma billedSpans_perm (h : events.Perm events') (hkinds : ∀ e ∈ events, e.kind ≠ .other)
    (honce : ∀ e ∈ events, ∀ e' ∈ events, e.participantId = e'.participantId →
      e.time = e'.time → e = e') (hspan : actualStart ≤ actualEnd) :
    billedSpans source events' actualStart actualEnd =
      billedSpans source events actualStart actualEnd := by
  rw [billedSpans_eq, billedSpans_eq, times_perm h]
  refine spansOfTimes_congr times_le hspan fun x hlow hhigh => ?_
  have haudience : IsAudience source (events.filter fun e => e.time ≤ x)
      (activeAt source events' actualStart actualEnd x) :=
    (isAudience_activeAt (fun e he => hkinds e (h.mem_iff.mpr he)) hlow hhigh).of_mem_iff
      fun e => (h.symm.filter _).mem_iff
  refine (haudience.agree (isAudience_activeAt hkinds hlow hhigh) fun e he e' he' => ?_).kNow
  exact honce e (List.mem_of_mem_filter he) e' (List.mem_of_mem_filter he')

/-- **The cost is the integral**, at every rate, exactly when whatever is billed lasts whole
seconds from one cut of the broadcast to the next.  The number of languages is that of an audience
of the log, and where no participant has two events at one instant their order does not matter. -/
theorem costCredits_eq_integral_iff (source : String) (events : List WebinarEvent)
    (actualStart actualEnd : Timestamp) (hkinds : ∀ e ∈ events, e.kind ≠ .other)
    (hspan : actualStart < actualEnd) :
    (∀ t, actualStart ≤ t → t < actualEnd → ∃ m,
      IsAudience source (events.filter fun e => e.time ≤ t) m ∧
        loadAt source events actualStart actualEnd t = kNow source m) ∧
    ((∀ rate : ℚ, 0 ≤ rate →
      (finalizeWebinarMetrics source events actualStart actualEnd ⟨rate, 100⟩).costCredits =
        ceilI32 (100 * rate * languageMinutes source events actualStart actualEnd)) ↔
      WholeSeconds source events actualStart actualEnd) ∧
    (∀ events', (∀ t, actualStart ≤ t → t < actualEnd →
        loadAt source events' actualStart actualEnd t =
          loadAt source events actualStart actualEnd t) →
      WholeSeconds source events actualStart actualEnd →
      WholeSeconds source events' actualStart actualEnd → ∀ rate : ℚ, 0 ≤ rate →
      (finalizeWebinarMetrics source events' actualStart actualEnd ⟨rate, 100⟩).costCredits =
        (finalizeWebinarMetrics source events actualStart actualEnd ⟨rate, 100⟩).costCredits) ∧
    ∀ events', events.Perm events' →
      (∀ e ∈ events, ∀ e' ∈ events, e.participantId = e'.participantId → e.time = e'.time →
        e = e') →
      ∀ rates, (finalizeWebinarMetrics source events' actualStart actualEnd rates).costCredits =
        (finalizeWebinarMetrics source events actualStart actualEnd rates).costCredits := by
  refine ⟨fun t hlow hhigh => ⟨_, isAudience_activeAt hkinds hlow hhigh.le, rfl⟩,
    costCredits_eq_languageMinutes_iff hspan, fun events' hload hwhole hwhole' rate hrate => ?_,
    fun events' hperm honce rates => ?_⟩
  · have hminutes : languageMinutes source events' actualStart actualEnd =
        languageMinutes source events actualStart actualEnd := by
      have hsum : ∑ t ∈ Finset.Ico actualStart actualEnd,
            (loadAt source events' actualStart actualEnd t : Int) =
          ∑ t ∈ Finset.Ico actualStart actualEnd,
            (loadAt source events actualStart actualEnd t : Int) := by
        refine Finset.sum_congr rfl fun t ht => ?_
        obtain ⟨hlow, hhigh⟩ := Finset.mem_Ico.mp ht
        rw [hload t hlow hhigh]
      rw [languageMinutes, languageMinutes, hsum]
    rw [(costCredits_eq_languageMinutes_iff hspan).mpr hwhole' rate hrate, hminutes,
      (costCredits_eq_languageMinutes_iff hspan).mpr hwhole rate hrate]
  · have hcost : (sweep source events' actualStart actualEnd rates).costUsd =
        (sweep source events actualStart actualEnd rates).costUsd := by
      rw [costUsd_sweep, costUsd_sweep, billedSpans_perm hperm hkinds honce hspan.le]
    simp only [finalizeWebinarMetrics]
    split_ifs
    · rfl
    · rw [hcost]

/-- Somebody comes who watches in Italian. -/
def viewerJoins : WebinarEvent := ⟨1, .join, some "it", 500000⟩

/-- Half a second later somebody comes who needs no translation. -/
def bystanderJoins : WebinarEvent := ⟨2, .join, some "en", 1000000⟩

theorem costCredits_eq_integral_sample :
    (∀ t, 0 ≤ t → t < 1500000 → ∃ m,
      IsAudience "en" ([viewerJoins].filter fun e => e.time ≤ t) m ∧
        loadAt "en" [viewerJoins] 0 1500000 t = kNow "en" m) ∧
    (finalizeWebinarMetrics "en" [viewerJoins] 0 1500000 ⟨60, 100⟩).costCredits =
      ceilI32 (100 * 60 * languageMinutes "en" [viewerJoins] 0 1500000) := by
  obtain ⟨haudience, hiff, -, -⟩ :=
    costCredits_eq_integral_iff "en" [viewerJoins] 0 1500000 (by decide) (by decide)
  refine ⟨haudience, hiff.mpr ?_ 60 (by norm_num)⟩
  rw [← lostTime_eq_zero_iff (by decide)]
  decide

/-- **A second that is cut in two is not billed.** -/
theorem split_second_unbilled :
    (finalizeWebinarMetrics "en" [viewerJoins] 0 1500000 ⟨60, 100⟩).costCredits = 100 ∧
    (finalizeWebinarMetrics "en" [viewerJoins, bystanderJoins] 0 1500000
      ⟨60, 100⟩).costCredits = 0 ∧
    ceilI32 (100 * 60 * languageMinutes "en" [viewerJoins, bystanderJoins] 0 1500000) = 100 := by
  have hwhole : billedSeconds (billedSpans "en" [viewerJoins] 0 1500000) = 1 := by decide
  have hcut : billedSeconds (billedSpans "en" [viewerJoins, bystanderJoins] 0 1500000) = 0 := by
    decide
  have hlost : lostTime (billedSpans "en" [viewerJoins, bystanderJoins] 0 1500000) = 1000000 := by
    decide
  have hhundred : ceilI32 100 = 100 := by
    rw [ceilI32, if_neg (by norm_num), show ⌈(100 : ℚ) - 1 / 1000000⌉ = 100 by
      rw [Int.ceil_eq_iff]
      norm_num]
    rfl
  refine ⟨?_, ?_, ?_⟩
  · rw [costCredits_eq (by decide), hwhole]
    norm_num [hhundred]
  · rw [costCredits_eq (by decide), hcut]
    norm_num [ceilI32]
  · rw [languageMinutes, sum_billedSpans (by decide), hcut, hlost]
    norm_num [hhundred]

end VoxTranslate.Webinar
