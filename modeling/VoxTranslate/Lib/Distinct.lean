import Mathlib.Data.List.Induction
import Mathlib.Data.List.Nodup
import Mathlib.Data.List.Perm.Subperm

/-!
# The distinct elements of a list

`eraseDups` keeps the first occurrence of every element.  Counting what it leaves is counting
the elements, whatever their order.
-/

namespace Lib

variable {α : Type*}

lemma nodup_eraseDups [BEq α] [LawfulBEq α] (l : List α) : l.eraseDups.Nodup := by
  induction h : l.length using Nat.strongRecOn generalizing l with
  | ind n ih =>
    cases l with
    | nil => simp
    | cons a l =>
      rw [List.eraseDups_cons, List.nodup_cons, List.mem_eraseDups]
      refine ⟨by simp, ih _ ?_ _ rfl⟩
      rw [← h, List.length_cons]
      exact Nat.lt_succ_of_le (List.length_filter_le _ _)

/-- One more element comes last, unless it is there. -/
lemma eraseDups_concat [BEq α] [LawfulBEq α] [DecidableEq α] (l : List α) (a : α) :
    (l ++ [a]).eraseDups = if a ∈ l then l.eraseDups else l.eraseDups ++ [a] := by
  rw [List.eraseDups_append]
  split_ifs with ha
  · have hnil : [a].removeAll l = [] := by simp [List.removeAll, ha]
    rw [hnil, List.eraseDups_nil, List.append_nil]
  · have hself : [a].removeAll l = [a] := by simp [List.removeAll, ha]
    rw [hself, List.eraseDups_cons]
    simp

/-- What tells the elements apart keeps the first occurrences. -/
lemma eraseDups_map {β : Type*} [BEq α] [LawfulBEq α] [BEq β] [LawfulBEq β] {f : α → β}
    {l : List α} (hf : ∀ a ∈ l, ∀ b ∈ l, f a = f b → a = b) :
    (l.map f).eraseDups = l.eraseDups.map f := by
  classical
  induction l using List.reverseRecOn with
  | nil => rfl
  | append_singleton l a ih =>
    have hl := ih fun x hx y hy => hf x (List.mem_append_left _ hx) y (List.mem_append_left _ hy)
    have hmem : f a ∈ l.map f ↔ a ∈ l := by
      refine ⟨fun h => ?_, List.mem_map_of_mem⟩
      obtain ⟨b, hb, heq⟩ := List.mem_map.mp h
      exact hf b (List.mem_append_left _ hb) a (List.mem_append_right _ List.mem_cons_self) heq ▸ hb
    rw [List.map_append, List.map_singleton, eraseDups_concat, eraseDups_concat, hl]
    by_cases ha : a ∈ l
    · rw [if_pos (hmem.mpr ha), if_pos ha]
    · rw [if_neg (mt hmem.mp ha), if_neg ha, List.map_append, List.map_singleton]

/-- Two lists of the same elements, without repetition, are of one length. -/
lemma length_eq_of_mem_iff {l l' : List α} (h : l.Nodup) (h' : l'.Nodup)
    (hmem : ∀ a, a ∈ l ↔ a ∈ l') : l.length = l'.length :=
  ((List.perm_ext_iff_of_nodup h h').mpr hmem).length_eq

/-- Of two lists without repetition, one within the other, the lengths tell whether anything is
left out. -/
lemma length_eq_iff_of_subset {l l' : List α} (h : l.Nodup) (hsub : l ⊆ l')
    (h' : l'.Nodup) : l.length = l'.length ↔ l' ⊆ l := by
  constructor
  · intro hlength
    have hperm : l.Perm l' := (List.Nodup.subperm h hsub).perm_of_length_le (Nat.le_of_eq hlength.symm)
    exact hperm.symm.subset
  · intro hsup
    exact length_eq_of_mem_iff h h' fun a => ⟨fun ha => hsub ha, fun ha => hsup ha⟩

end Lib
