import Mathlib.Data.List.GetD
import Mathlib.Order.Basic
import Mathlib.Tactic.Common

/-!
# What happens eventually

An infinite run is a sequence of states.  A goal is reached on it when a natural number that
no step raises is lowered by some steps, and those steps keep coming until the goal is reached.
-/

namespace Lib

variable {σ : Type*} {run : ℕ → σ} {μ : σ → ℕ}

/-- A measure that no step raises is never raised. -/
lemma measure_antitone (hle : ∀ n, μ (run (n + 1)) ≤ μ (run n)) {n m : ℕ} (h : n ≤ m) :
    μ (run m) ≤ μ (run n) := by
  induction h with
  | refl => exact Nat.le_refl _
  | step _ ih => exact Nat.le_trans (hle _) ih

/-- **The rule of progress.**  Helpful steps lower the measure, no step raises it, and as long
as it is positive a helpful step comes: it reaches zero, and stays there. -/
theorem eventually_zero {helpful : ℕ → Prop} (hle : ∀ n, μ (run (n + 1)) ≤ μ (run n))
    (hlt : ∀ n, helpful n → μ (run (n + 1)) < μ (run n))
    (hfair : ∀ n, 0 < μ (run n) → ∃ m, n ≤ m ∧ helpful m) :
    ∃ n, ∀ m, n ≤ m → μ (run m) = 0 := by
  suffices h : ∀ k n, μ (run n) ≤ k → ∃ m, μ (run m) = 0 by
    obtain ⟨n, hn⟩ := h (μ (run 0)) 0 (Nat.le_refl _)
    refine ⟨n, fun m hm => ?_⟩
    have := measure_antitone hle hm
    omega
  intro k
  induction k with
  | zero => exact fun n hn => ⟨n, Nat.le_zero.mp hn⟩
  | succ k ih =>
    intro n hn
    rcases Nat.eq_zero_or_pos (μ (run n)) with h0 | hpos
    · exact ⟨n, h0⟩
    · obtain ⟨m, hm, hhelp⟩ := hfair n hpos
      have hdrop := hlt m hhelp
      have hbefore := measure_antitone hle hm
      exact ih (m + 1) (by omega)

/-! ## Finite runs as infinite ones -/

variable {α : Type*} {f : σ → α → Option σ} {s : σ} {idle : α}

/-- The states of a list of actions, taken in order; nothing happens after the last. -/
def playOut (f : σ → α → Option σ) (s : σ) (as : List α) (n : ℕ) : σ :=
  ((as.take n).foldlM f s).getD s

/-- The actions of a list, and idling after the last. -/
def thenIdle (idle : α) (as : List α) (n : ℕ) : α := as.getD n idle

/-- A list of actions that can be taken is played out step by step. -/
lemma playOut_step (hidle : ∀ t, f t idle = some t) {as : List α}
    (h : (as.foldlM f s).isSome = true) (n : ℕ) :
    f (playOut f s as n) (thenIdle idle as n) = some (playOut f s as (n + 1)) := by
  rcases Nat.lt_or_ge n as.length with hlt | hge
  · obtain ⟨t, ht⟩ := Option.isSome_iff_exists.mp h
    rw [← List.take_append_drop (n + 1) as, List.foldlM_append, Option.bind_eq_bind,
      Option.bind_eq_some_iff] at ht
    obtain ⟨v, hv, -⟩ := ht
    have hsplit := hv
    rw [List.take_add_one, List.getElem?_eq_getElem hlt, Option.toList_some, List.foldlM_append,
      Option.bind_eq_bind, Option.bind_eq_some_iff] at hsplit
    obtain ⟨u, hu, hstep⟩ := hsplit
    rw [playOut, playOut, hu, hv, thenIdle, List.getD_eq_getElem _ _ hlt]
    simpa using hstep
  · rw [playOut, playOut, List.take_of_length_le hge, List.take_of_length_le (by omega), thenIdle,
      List.getD_eq_default _ _ hge]
    exact hidle _

/-- After the last action the state stays. -/
lemma playOut_of_le {as : List α} {n m : ℕ} (hn : as.length ≤ n) (hm : as.length ≤ m) :
    playOut f s as n = playOut f s as m := by
  rw [playOut, playOut, List.take_of_length_le hn, List.take_of_length_le hm]

end Lib
