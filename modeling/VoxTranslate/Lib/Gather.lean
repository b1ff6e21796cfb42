import Mathlib.Algebra.Order.BigOperators.Group.List
import Mathlib.Algebra.Order.Ring.Nat

/-!
# Items gathered into groups

Items that come one after another are gathered into groups of some weight: a group is closed by the
item with which it reaches the target, and what is left at the end is a group of its own.
-/

namespace Lib

variable {α : Type*} (target : ℕ) (weight : α → ℕ)

/-- The groups of what is pending and of the items that come. -/
def gather (pending : List α) : List α → List (List α)
  | [] => if pending.isEmpty then [] else [pending]
  | x :: l =>
    if target ≤ ((pending ++ [x]).map weight).sum then (pending ++ [x]) :: gather [] l
    else gather (pending ++ [x]) l

variable {target weight} {pending l : List α}

/-- No item is lost, none comes twice, and the order is kept. -/
lemma flatten_gather : (gather target weight pending l).flatten = pending ++ l := by
  induction l generalizing pending with
  | nil =>
    rw [gather]
    split
    · next h => simp [List.isEmpty_iff.mp h]
    · simp
  | cons x l ih =>
    rw [gather]
    split
    · rw [List.flatten_cons, ih, List.nil_append, List.append_assoc, List.singleton_append]
    · rw [ih, List.append_assoc, List.singleton_append]

/-- A group does not reach the target before its last item. -/
lemma gather_dropLast_lt (hpending : (pending.map weight).sum < target) :
    ∀ g ∈ gather target weight pending l, g ≠ [] ∧ (g.dropLast.map weight).sum < target := by
  induction l generalizing pending with
  | nil =>
    rw [gather]
    split
    · simp
    · next h =>
      have hsub : (pending.dropLast.map weight).Sublist (pending.map weight) :=
        (List.dropLast_sublist pending).map weight
      rintro g hg
      obtain rfl := List.mem_singleton.mp hg
      exact ⟨fun hnil => h (List.isEmpty_iff.mpr hnil),
        (hsub.sum_le_sum fun _ _ => Nat.zero_le _).trans_lt hpending⟩
  | cons x l ih =>
    rw [gather]
    split
    · rintro g hg
      rcases List.mem_cons.mp hg with rfl | hg
      · exact ⟨by simp, by rwa [List.dropLast_concat]⟩
      · exact ih (by rw [List.map_nil, List.sum_nil]; omega) g hg
    · next h => exact ih (not_le.mp h)

/-- Every group but the last reaches the target. -/
lemma le_gather : ∀ g ∈ (gather target weight pending l).dropLast, target ≤ (g.map weight).sum := by
  induction l generalizing pending with
  | nil =>
    rw [gather]
    split <;> simp
  | cons x l ih =>
    rw [gather]
    split
    · next h =>
      cases hrest : gather target weight [] l with
      | nil => simp
      | cons g' rest =>
        rintro g hg
        rw [List.dropLast_cons_of_ne_nil (List.cons_ne_nil _ _)] at hg
        rcases List.mem_cons.mp hg with rfl | hg
        · exact h
        · exact ih g (hrest ▸ hg)
    · exact ih

end Lib
