import Mathlib.Logic.Relation
import Mathlib.Order.Basic

/-!
# Runs of labelled transition systems

A system is a relation `step s a t`: from state `s` the action `a` may lead to `t`.  A run
is a finite sequence of actions with the states they pass through.  Every statement about
"any interleaving" or "any reachable state" is a statement about runs, and it is proved
from one fact about a single step by one of the rules below: an invariant, a relation that
every step respects, or an invariant of the steps that meet a guard.

Deterministic systems are two special cases: `ofFun`, given by a total function, whose runs
are left folds, and `ofPartial`, given by a function that refuses some actions, whose runs are
left folds in `Option`.
-/

namespace Lib

variable {σ α : Type*}

/-- `Run step s as t`: the actions `as`, taken in order from `s`, may lead to `t`. -/
inductive Run (step : σ → α → σ → Prop) : σ → List α → σ → Prop
  | nil (s : σ) : Run step s [] s
  | cons {s t u : σ} {a : α} {as : List α} : step s a t → Run step t as u → Run step s (a :: as) u

/-- The steps that are taken only where the guard `G` holds of the state and the action. -/
def Guarded (step : σ → α → σ → Prop) (G : σ → α → Prop) (s : σ) (a : α) (t : σ) : Prop :=
  G s a ∧ step s a t

/-- The system of a total transition function. -/
def ofFun (f : σ → α → σ) (s : σ) (a : α) (t : σ) : Prop := t = f s a

/-- The system of a transition function that refuses some actions. -/
def ofPartial (f : σ → α → Option σ) (s : σ) (a : α) (t : σ) : Prop := f s a = some t

namespace Run

variable {step : σ → α → σ → Prop} {s t u : σ} {a : α} {as bs : List α}

@[simp] lemma nil_iff : Run step s [] t ↔ s = t := by
  constructor
  · intro h
    cases h
    rfl
  · rintro rfl
    exact .nil s

@[simp] lemma cons_iff : Run step s (a :: as) u ↔ ∃ t, step s a t ∧ Run step t as u := by
  constructor
  · intro h
    cases h with
    | cons hstep hrun => exact ⟨_, hstep, hrun⟩
  · rintro ⟨t, hstep, hrun⟩
    exact .cons hstep hrun

lemma append_iff : Run step s (as ++ bs) u ↔ ∃ t, Run step s as t ∧ Run step t bs u := by
  induction as generalizing s with
  | nil => simp
  | cons a as ih =>
    simp only [List.cons_append, cons_iff, ih]
    constructor
    · rintro ⟨t, hstep, v, hv, hrun⟩
      exact ⟨v, ⟨t, hstep, hv⟩, hrun⟩
    · rintro ⟨v, ⟨t, hstep, hv⟩, hrun⟩
      exact ⟨t, hstep, v, hv, hrun⟩

/-- What every step of the run keeps, the run keeps. -/
lemma invariant (I : σ → Prop) (h : Run step s as t)
    (hstep : ∀ s, ∀ a ∈ as, ∀ t, I s → step s a t → I t) (hs : I s) : I t := by
  induction h with
  | nil => exact hs
  | cons h₁ _ ih =>
    refine ih (fun s b hb t => hstep s b (List.mem_cons_of_mem _ hb) t) ?_
    exact hstep _ _ List.mem_cons_self _ hs h₁

/-- What every step keeps of the actions so far and the state they led to. -/
lemma history {P : List α → σ → Prop} (h : Run step s as t)
    (hstep : ∀ bs s, ∀ a ∈ as, ∀ t, P bs s → step s a t → P (bs ++ [a]) t) (hs : P [] s) :
    P as t := by
  suffices hfrom : ∀ bs, P bs s → P (bs ++ as) t from hfrom [] hs
  clear hs
  induction h with
  | nil =>
    intro bs hbs
    rwa [List.append_nil]
  | @cons s t u a as h₁ _ ih =>
    intro bs hbs
    have hnext := hstep bs s a List.mem_cons_self t hbs h₁
    rw [List.append_cons]
    exact ih (fun bs s b hb => hstep bs s b (List.mem_cons_of_mem _ hb)) (bs ++ [a]) hnext

/-- A reflexive and transitive relation that every step from an invariant state respects
relates the two ends of every run. -/
lemma related {I : σ → Prop} {R : σ → σ → Prop} (hrefl : ∀ s, R s s)
    (htrans : ∀ s t u, R s t → R t u → R s u)
    (hstep : ∀ s a t, I s → step s a t → I t ∧ R s t)
    (h : Run step s as t) (hs : I s) : R s t := by
  induction h with
  | nil => exact hrefl _
  | cons h₁ _ ih => exact htrans _ _ _ (hstep _ _ _ hs h₁).2 (ih (hstep _ _ _ hs h₁).1)

/-- A system with fewer steps has fewer runs. -/
lemma imp {step' : σ → α → σ → Prop} (himp : ∀ s a t, step s a t → step' s a t)
    (h : Run step s as t) : Run step' s as t := by
  induction h with
  | nil => exact .nil _
  | cons h₁ _ ih => exact .cons (himp _ _ _ h₁) ih

/-- A run of guarded steps is a run. -/
lemma ofGuarded {G : σ → α → Prop} (h : Run (Guarded step G) s as t) : Run step s as t :=
  h.imp fun _ _ _ hst => hst.2

@[simp] lemma ofFun_iff {f : σ → α → σ} : Run (ofFun f) s as t ↔ as.foldl f s = t := by
  induction as generalizing s with
  | nil => simp
  | cons a as ih => simp [ofFun, ih]

@[simp] lemma ofPartial_iff {f : σ → α → Option σ} :
    Run (ofPartial f) s as t ↔ as.foldlM f s = some t := by
  induction as generalizing s with
  | nil => simp
  | cons a as ih => simp [ofPartial, ih, Option.bind_eq_some_iff]

/-- A run that is computed, with what is decided of the state it leads to. -/
lemma exists_of_decide {f : σ → α → Option σ} {P : σ → Prop} [DecidablePred P]
    (h : (as.foldlM f s).any (fun t => P t) = true) : ∃ t, Run (ofPartial f) s as t ∧ P t := by
  cases hfold : as.foldlM f s with
  | none =>
    rw [hfold] at h
    cases h
  | some t =>
    rw [hfold] at h
    exact ⟨t, ofPartial_iff.mpr hfold, of_decide_eq_true h⟩

/-- A run of guarded steps is checked step by step. -/
lemma guarded_ofPartial_iff {f : σ → α → Option σ} {G : σ → α → Bool} :
    Run (Guarded (ofPartial f) fun s a => G s a = true) s as t ↔
      as.foldlM (fun s a => if G s a then f s a else none) s = some t := by
  rw [← ofPartial_iff]
  constructor
  · refine imp fun s a t h => ?_
    rw [ofPartial, if_pos h.1]
    exact h.2
  · refine imp fun s a t h => ?_
    rw [ofPartial] at h
    split_ifs at h with hG
    exact ⟨hG, h⟩

/-- A run of guarded steps that is computed. -/
lemma exists_guarded_of_isSome {f : σ → α → Option σ} {G : σ → α → Bool}
    (h : (as.foldlM (fun s a => if G s a then f s a else none) s).isSome = true) :
    ∃ t, Run (Guarded (ofPartial f) fun s a => G s a = true) s as t := by
  obtain ⟨t, ht⟩ := Option.isSome_iff_exists.mp h
  exact ⟨t, guarded_ofPartial_iff.mpr ht⟩

/-- A run of guarded steps that is computed, with what is decided of the state it leads to. -/
lemma exists_guarded_of_decide {f : σ → α → Option σ} {G : σ → α → Bool} {P : σ → Prop}
    [DecidablePred P]
    (h : (as.foldlM (fun s a => if G s a then f s a else none) s).any (fun t => P t) = true) :
    ∃ t, Run (Guarded (ofPartial f) fun s a => G s a = true) s as t ∧ P t := by
  obtain ⟨t, hrun, hP⟩ := exists_of_decide h
  exact ⟨t, guarded_ofPartial_iff.mpr (ofPartial_iff.mp hrun), hP⟩

/-- A run that begins as a guarded run of a function does is guarded. -/
lemma guarded_beginning {f : σ → α → Option σ} {G : σ → α → Prop} (hpre : bs <+: as)
    (h : Run (Guarded (ofPartial f) G) s as t) (hu : Run (ofPartial f) s bs u) :
    Run (Guarded (ofPartial f) G) s bs u := by
  obtain ⟨rest, rfl⟩ := hpre
  obtain ⟨v, hv, -⟩ := append_iff.mp h
  have heq : some v = some u :=
    (ofPartial_iff.mp hv.ofGuarded).symm.trans (ofPartial_iff.mp hu)
  cases heq
  exact hv

/-- A step that a guarded run of a function takes meets the guard. -/
lemma guard_of_step {f : σ → α → Option σ} {G : σ → α → Prop} {v : σ} (hpre : bs ++ [a] <+: as)
    (h : Run (Guarded (ofPartial f) G) s as t) (hu : Run (ofPartial f) s bs u)
    (hstep : f u a = some v) : G u a := by
  have hrun : Run (ofPartial f) s (bs ++ [a]) v :=
    append_iff.mpr ⟨u, hu, cons_iff.mpr ⟨v, hstep, .nil v⟩⟩
  obtain ⟨w, hw, hlast⟩ := append_iff.mp (guarded_beginning hpre h hrun)
  obtain ⟨_, ⟨hguard, -⟩, -⟩ := cons_iff.mp hlast
  have heq : some w = some u :=
    (ofPartial_iff.mp hw.ofGuarded).symm.trans (ofPartial_iff.mp hu)
  cases heq
  exact hguard

/-- Whether a computed run of a total function meets a guard. -/
def meets (f : σ → α → σ) (G : σ → α → Bool) : σ → List α → Bool
  | _, [] => true
  | s, a :: as => G s a && meets f G (f s a) as

lemma guarded_ofFun {f : σ → α → σ} {G : σ → α → Bool} (h : meets f G s as = true) :
    Run (Guarded (ofFun f) fun s a => G s a = true) s as (as.foldl f s) := by
  induction as generalizing s with
  | nil => exact .nil s
  | cons a as ih =>
    obtain ⟨hG, hrest⟩ := Bool.and_eq_true_iff.mp h
    exact .cons ⟨hG, rfl⟩ (ih hrest)

/-- When the guard is exact, a run meets it at every step exactly when the property holds in
every state the run passes through. -/
lemma guarded_iff_prefixes {f : σ → α → Option σ} {G : σ → α → Bool} {I P : σ → Prop}
    (hgood : ∀ s a t, I s → G s a = true → f s a = some t → I t) (hI : ∀ s, I s → P s)
    (hbad : ∀ s a t, I s → G s a = false → f s a = some t → ¬ P t)
    (h : Run (ofPartial f) s as t) (hs : I s) :
    Run (Guarded (ofPartial f) fun s a => G s a = true) s as t ↔
      ∀ pre u, pre <+: as → Run (ofPartial f) s pre u → P u := by
  induction as generalizing s with
  | nil =>
    refine ⟨fun _ pre u hpre hu => ?_, fun _ => nil_iff.mpr (nil_iff.mp h)⟩
    rw [List.prefix_nil.mp hpre, nil_iff] at hu
    exact hu ▸ hI s hs
  | cons a as ih =>
    obtain ⟨v, hv, hrest⟩ := cons_iff.mp h
    constructor
    · intro hguarded
      obtain ⟨v', ⟨hG, hv'⟩, hrest'⟩ := cons_iff.mp hguarded
      cases hv.symm.trans hv'
      have hprefix := (ih hrest (hgood s a v hs hG hv)).mp hrest'
      intro pre u hpre hu
      cases pre with
      | nil =>
        rw [nil_iff] at hu
        exact hu ▸ hI s hs
      | cons b pre =>
        obtain ⟨rfl, hpre'⟩ := List.cons_prefix_cons.mp hpre
        obtain ⟨w, hw, hu'⟩ := cons_iff.mp hu
        cases hv.symm.trans hw
        exact hprefix pre u hpre' hu'
    · intro hprefix
      have hG : G s a = true := by
        by_contra hG
        have hPv : P v := hprefix [a] v ⟨as, rfl⟩ (cons_iff.mpr ⟨v, hv, .nil v⟩)
        exact hbad s a v hs (by simpa using hG) hv hPv
      refine cons_iff.mpr ⟨v, ⟨hG, hv⟩, (ih hrest (hgood s a v hs hG hv)).mpr ?_⟩
      intro pre u hpre hu
      exact hprefix (a :: pre) u (List.cons_prefix_cons.mpr ⟨rfl, hpre⟩) (cons_iff.mpr ⟨v, hv, hu⟩)

/-- When a guard says of every step whether it respects a relation, a run meets it at every step
exactly when any two states that the run passes through are related. -/
lemma guarded_iff_related {f : σ → α → Option σ} {G : σ → α → Bool} {I : σ → Prop}
    {R : σ → σ → Prop} (hrefl : ∀ s, R s s) (htrans : ∀ s t u, R s t → R t u → R s u)
    (hgood : ∀ s a t, I s → G s a = true → f s a = some t → I t)
    (hiff : ∀ s a t, I s → f s a = some t → (R s t ↔ G s a = true))
    (h : Run (ofPartial f) s as t) (hs : I s) :
    Run (Guarded (ofPartial f) fun s a => G s a = true) s as t ↔
      ∀ pre mid u v, pre ++ mid <+: as → Run (ofPartial f) s pre u → Run (ofPartial f) u mid v →
        R u v := by
  induction as generalizing s with
  | nil =>
    refine ⟨fun _ pre mid u v hpre hu hv => ?_, fun _ => nil_iff.mpr (nil_iff.mp h)⟩
    obtain ⟨rfl, rfl⟩ := List.append_eq_nil_iff.mp (List.prefix_nil.mp hpre)
    rw [nil_iff] at hu hv
    rw [← hv, ← hu]
    exact hrefl s
  | cons a as ih =>
    obtain ⟨w, hw, hrest⟩ := cons_iff.mp h
    constructor
    · intro hguarded
      obtain ⟨w', ⟨hG, hw'⟩, hrest'⟩ := cons_iff.mp hguarded
      cases hw.symm.trans hw'
      have hrelated := (ih hrest (hgood s a w hs hG hw)).mp hrest'
      intro pre mid u v hpre hu hv
      cases pre with
      | cons b pre =>
        obtain ⟨rfl, hpre'⟩ := List.cons_prefix_cons.mp hpre
        obtain ⟨x, hx, hu'⟩ := cons_iff.mp hu
        cases hw.symm.trans hx
        exact hrelated pre mid u v hpre' hu' hv
      | nil =>
        rw [nil_iff] at hu
        subst hu
        cases mid with
        | nil =>
          rw [nil_iff] at hv
          exact hv ▸ hrefl s
        | cons b mid =>
          obtain ⟨rfl, hmid⟩ := List.cons_prefix_cons.mp hpre
          obtain ⟨x, hx, hv'⟩ := cons_iff.mp hv
          cases hw.symm.trans hx
          exact htrans s w v ((hiff s b w hs hw).mpr hG)
            (hrelated [] mid w v hmid (.nil w) hv')
    · intro hrelated
      have hG : G s a = true :=
        (hiff s a w hs hw).mp
          (hrelated [] [a] s w ⟨as, rfl⟩ (.nil s) (cons_iff.mpr ⟨w, hw, .nil w⟩))
      refine cons_iff.mpr ⟨w, ⟨hG, hw⟩, (ih hrest (hgood s a w hs hG hw)).mpr ?_⟩
      intro pre mid u v hpre hu hv
      exact hrelated (a :: pre) mid u v (List.cons_prefix_cons.mpr ⟨rfl, hpre⟩)
        (cons_iff.mpr ⟨w, hw, hu⟩) hv

/-- When a guard says of every step whether it is as it should be, a run meets it exactly when each
of its steps is. -/
lemma guarded_iff_steps {f : σ → α → Option σ} {G : σ → α → Bool} {I : σ → Prop}
    {R : σ → α → σ → Prop} (hinv : ∀ s a t, I s → f s a = some t → I t)
    (hiff : ∀ s a t, I s → f s a = some t → (R s a t ↔ G s a = true))
    (h : Run (ofPartial f) s as t) (hs : I s) :
    Run (Guarded (ofPartial f) fun s a => G s a = true) s as t ↔
      ∀ pre a u v, pre ++ [a] <+: as → Run (ofPartial f) s pre u → f u a = some v → R u a v := by
  induction as generalizing s with
  | nil =>
    refine ⟨fun _ pre a u v hpre => ?_, fun _ => nil_iff.mpr (nil_iff.mp h)⟩
    simp at hpre
  | cons a as ih =>
    obtain ⟨w, hw, hrest⟩ := cons_iff.mp h
    constructor
    · intro hguarded
      obtain ⟨w', ⟨hG, hw'⟩, hrest'⟩ := cons_iff.mp hguarded
      cases hw.symm.trans hw'
      have hsteps := (ih hrest (hinv s a w hs hw)).mp hrest'
      intro pre b u v hpre hu hv
      cases pre with
      | nil =>
        obtain ⟨rfl, -⟩ := List.cons_prefix_cons.mp hpre
        rw [nil_iff] at hu
        subst hu
        exact (hiff s b v hs hv).mpr hG
      | cons c pre =>
        obtain ⟨rfl, hpre'⟩ := List.cons_prefix_cons.mp hpre
        obtain ⟨x, hx, hu'⟩ := cons_iff.mp hu
        cases hw.symm.trans hx
        exact hsteps pre b u v hpre' hu' hv
    · intro hsteps
      have hG : G s a = true :=
        (hiff s a w hs hw).mp (hsteps [] a s w ⟨as, rfl⟩ (.nil s) hw)
      refine cons_iff.mpr ⟨w, ⟨hG, hw⟩, (ih hrest (hinv s a w hs hw)).mpr ?_⟩
      intro pre b u v hpre hu hv
      exact hsteps (a :: pre) b u v (List.cons_prefix_cons.mpr ⟨rfl, hpre⟩)
        (cons_iff.mpr ⟨w, hw, hu⟩) hv

end Run

/-- The invariant rule for a left fold over a list of actions. -/
lemma foldl_invariant {f : σ → α → σ} {I : σ → Prop} {as : List α} {s : σ}
    (hstep : ∀ s, ∀ a ∈ as, I s → I (f s a)) (hs : I s) : I (as.foldl f s) := by
  induction as generalizing s with
  | nil => exact hs
  | cons a as ih =>
    refine ih (fun s b hb => hstep s b (List.mem_cons_of_mem _ hb)) ?_
    exact hstep s a List.mem_cons_self hs

end Lib
