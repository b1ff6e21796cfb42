import Mathlib.Data.List.Infix

/-!
# A text cut at a separator

A text is cut at the first place where a separator stands.  What was written before a separator
is what stands before the cut when the separator stands nowhere in it.
-/

namespace Lib

variable {α : Type*} [DecidableEq α]

/-- What stands before and after the first occurrence of a separator. -/
def cut (sep : List α) : List α → Option (List α × List α)
  | [] => none
  | a :: l =>
    if sep <+: a :: l then some ([], (a :: l).drop sep.length)
    else (cut sep l).map fun parts => (a :: parts.1, parts.2)

section Cut

variable {sep l a b : List α} {x y : α}

lemma cut_cons_of_starts (h : sep <+: x :: l) :
    cut sep (x :: l) = some ([], (x :: l).drop sep.length) := if_pos h

lemma cut_cons_of_not_starts (h : ¬ sep <+: x :: l) :
    cut sep (x :: l) = (cut sep l).map fun parts => (x :: parts.1, parts.2) := if_neg h

lemma cut_append_self (b : List α) : cut (x :: sep) (x :: sep ++ b) = some ([], b) := by
  refine (cut_cons_of_starts (List.prefix_append (x :: sep) b)).trans ?_
  exact congrArg (fun rest => some ([], rest)) List.drop_left

/-- A separator whose first letter does not stand before it. -/
lemma cut_append_of_not_mem (h : x ∉ a) : cut (x :: sep) (a ++ (x :: sep ++ b)) = some (a, b) := by
  induction a with
  | nil => exact cut_append_self b
  | cons c a ih =>
    obtain ⟨hc, ha⟩ := not_or.mp (mt List.mem_cons.mpr h)
    rw [List.cons_append, cut_cons_of_not_starts, ih ha]
    · rfl
    · intro hprefix
      exact hc (List.cons_prefix_cons.mp hprefix).1

/-- A separator of two different letters that does not stand in what is before it. -/
lemma cut_append_of_not_infix (hxy : x ≠ y) (h : ¬ [x, y] <:+: a) :
    cut [x, y] (a ++ ([x, y] ++ b)) = some (a, b) := by
  induction a with
  | nil => exact cut_append_self b
  | cons c a ih =>
    have hnot : ¬ [x, y] <+: c :: (a ++ ([x, y] ++ b)) := by
      intro hprefix
      obtain ⟨rfl, hrest⟩ := List.cons_prefix_cons.mp hprefix
      cases a with
      | nil => exact hxy (List.cons_prefix_cons.mp hrest).1.symm
      | cons c a =>
        obtain ⟨rfl, -⟩ := List.cons_prefix_cons.mp hrest
        exact h (List.IsPrefix.isInfix ⟨a, rfl⟩)
    have htail : ¬ [x, y] <:+: a := fun hinfix => h (List.infix_cons hinfix)
    rw [List.cons_append, cut_cons_of_not_starts hnot, ih htail]
    rfl

/-- The cut is at the first separator. -/
lemma cut_spec (h : cut sep l = some (a, b)) : l = a ++ (sep ++ b) ∧ (sep ≠ [] → ¬ sep <:+: a) := by
  induction l generalizing a with
  | nil => cases h
  | cons c l ih =>
    by_cases hprefix : sep <+: c :: l
    · rw [cut_cons_of_starts hprefix] at h
      cases h
      obtain ⟨rest, hrest⟩ := hprefix
      refine ⟨?_, fun hsep hinfix => hsep (List.infix_nil.mp hinfix)⟩
      rw [← hrest, List.drop_left, List.nil_append]
    · rw [cut_cons_of_not_starts hprefix] at h
      obtain ⟨⟨a', b'⟩, hcut, heq⟩ := Option.map_eq_some_iff.mp h
      obtain ⟨rfl, rfl⟩ := Prod.mk.inj heq
      obtain ⟨rfl, hfirst⟩ := ih hcut
      refine ⟨rfl, fun hsep hinfix => ?_⟩
      rcases List.infix_cons_iff.mp hinfix with hhead | htail
      · exact hprefix (hhead.trans ((List.cons_prefix_cons.mpr ⟨rfl, List.prefix_append _ _⟩)))
      · exact hfirst hsep htail

end Cut

end Lib
