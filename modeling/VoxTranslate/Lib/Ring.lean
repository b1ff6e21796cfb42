import Mathlib.Data.List.Rotate

/-!
# Rings

A list without repetitions is read as a ring.  Whoever steps through it from one member to the next,
and skips one member that is fixed, meets all the others in their order, again and again.
-/

namespace Lib.Ring

variable {α : Type*} {l : List α} {place m : Nat}

/-- The members of a ring as they are met from a place on. -/
def cyclic (l : List α) (place m : Nat) : List (Option α) :=
  (List.range m).map fun i => l[(place + i) % l.length]?

lemma cyclic_succ (l : List α) (place m : Nat) :
    cyclic l place (m + 1) = l[place % l.length]? :: cyclic l (place + 1) m := by
  rw [cyclic, List.range_succ_eq_map, List.map_cons, List.map_map, cyclic, Nat.add_zero]
  congr 1
  refine List.map_congr_left fun i _ => ?_
  rw [Function.comp_apply, Nat.succ_eq_add_one, Nat.add_assoc place 1 i, Nat.add_comm 1 i]

/-- As many as there are are all of them. -/
lemma cyclic_length (l : List α) (place : Nat) :
    cyclic l place l.length = (l.rotate place).map some := by
  refine List.ext_getElem? fun i => ?_
  rw [cyclic, List.getElem?_map, List.getElem?_map]
  rcases Nat.lt_or_ge i l.length with hi | hi
  · rw [List.getElem?_range hi, Option.map_some, List.getElem?_rotate hi, Nat.add_comm place i]
    rw [List.getElem?_eq_getElem (Nat.mod_lt _ (by omega)), Option.map_some]
  · rw [List.getElem?_eq_none (by simpa using hi), List.getElem?_eq_none (by simpa using hi)]
    rfl

/-- What is met later is met in the same order. -/
lemma eq_cyclic_of_infix {before window after : List (Option α)}
    (h : before ++ window ++ after = cyclic l place m) :
    window = cyclic l (place + before.length) window.length := by
  refine List.ext_getElem? fun i => ?_
  rcases Nat.lt_or_ge i window.length with hi | hi
  · have hlength := congrArg List.length h
    simp only [cyclic, List.length_append, List.length_map, List.length_range] at hlength
    have hget := congrArg (fun l => l[before.length + i]?) h
    simp only [List.append_assoc] at hget
    rw [List.getElem?_append_right (by omega), Nat.add_sub_cancel_left,
      List.getElem?_append_left hi] at hget
    rw [hget, cyclic, cyclic, List.getElem?_map, List.getElem?_map,
      List.getElem?_range (by omega), List.getElem?_range hi, Option.map_some, Option.map_some,
      Nat.add_assoc]
  · rw [List.getElem?_eq_none hi, List.getElem?_eq_none (by simpa [cyclic] using hi)]

variable [DecidableEq α] {a b c : α} {j : Nat}

/-- The other members of a ring, in their order after one of them. -/
def others (l : List α) (a : α) : List α := (l.rotate (l.idxOf a)).tail

/-- The first member after a place that is not `a`. -/
def nextAfter (l : List α) (place : Nat) (a : α) : Option α :=
  (l.rotate (place + 1)).find? (· ≠ a)

lemma rotate_idxOf (ha : a ∈ l) : l.rotate (l.idxOf a) = a :: others l a := by
  have hlt : l.idxOf a < l.length := List.idxOf_lt_length_iff.mpr ha
  have hhead : (l.rotate (l.idxOf a)).head? = some a := by
    rw [List.head?_rotate hlt, List.getElem?_eq_getElem hlt, List.getElem_idxOf hlt]
  exact (List.cons_head?_tail hhead).symm

lemma length_others (l : List α) (a : α) : (others l a).length = l.length - 1 := by
  rw [others, List.length_tail, List.length_rotate]

lemma nodup_cons_others (hl : l.Nodup) (ha : a ∈ l) : (a :: others l a).Nodup := by
  rw [← rotate_idxOf ha]
  exact List.nodup_rotate.mpr hl

lemma mem_others_iff (hl : l.Nodup) (ha : a ∈ l) : b ∈ others l a ↔ b ∈ l ∧ b ≠ a := by
  have hnot := (List.nodup_cons.mp (nodup_cons_others hl ha)).1
  have hmem : b ∈ l ↔ b = a ∨ b ∈ others l a := by
    rw [← List.mem_rotate (n := l.idxOf a), rotate_idxOf ha, List.mem_cons]
  rw [hmem]
  constructor
  · intro hb
    exact ⟨.inr hb, fun heq => hnot (heq ▸ hb)⟩
  · rintro ⟨rfl | hb, hne⟩
    · exact absurd rfl hne
    · exact hb

/-- After the fixed member comes the first of the others. -/
lemma nextAfter_self (hl : l.Nodup) (ha : a ∈ l) :
    nextAfter l (l.idxOf a) a = (others l a)[0]? := by
  have hnot := (List.nodup_cons.mp (nodup_cons_others hl ha)).1
  rw [nextAfter, ← List.rotate_rotate, rotate_idxOf ha]
  cases hothers : others l a with
  | nil => simp
  | cons b rest =>
    have hb : b ≠ a := fun heq => hnot (by rw [hothers, heq]; exact List.mem_cons_self)
    simp [hb]

/-- After one of the others comes the next of them. -/
lemma nextAfter_other (hl : l.Nodup) (ha : a ∈ l) (hc : (others l a)[j]? = some c) :
    nextAfter l (l.idxOf c) a = (others l a)[(j + 1) % (others l a).length]? := by
  have hnodup := nodup_cons_others hl ha
  have hnot := (List.nodup_cons.mp hnodup).1
  obtain ⟨hj, hget⟩ := List.getElem?_eq_some_iff.mp hc
  have hlength : (others l a).length + 1 = l.length := by
    rw [← List.length_cons (a := a), ← rotate_idxOf ha, List.length_rotate]
  -- the place of `c`, counted from the fixed member
  have hplace : l.idxOf c = (j + 1 + l.idxOf a) % l.length := by
    have hlt : (j + 1 + l.idxOf a) % l.length < l.length := Nat.mod_lt _ (by omega)
    have hat : l[(j + 1 + l.idxOf a) % l.length] = c := by
      rw [← Option.some_inj, ← List.getElem?_eq_getElem hlt,
        ← List.getElem?_rotate (by omega), rotate_idxOf ha, List.getElem?_cons_succ, hc]
    rw [← hat]
    exact hl.idxOf_getElem _ hlt
  have hrotate : l.rotate (l.idxOf c + 1) = (a :: others l a).rotate (j + 2) := by
    rw [hplace, ← List.rotate_rotate, List.rotate_mod, List.rotate_rotate, ← rotate_idxOf ha,
      List.rotate_rotate]
    congr 1
    omega
  have hsplit : (a :: others l a).rotate (j + 2) =
      (others l a).drop (j + 1) ++ a :: (others l a).take (j + 1) := by
    rw [List.rotate_eq_drop_append_take (by rw [List.length_cons]; omega)]
    rfl
  have hne : ∀ b ∈ others l a, b ≠ a := fun b hb heq => hnot (heq ▸ hb)
  rw [nextAfter, hrotate, hsplit]
  rcases Nat.lt_or_ge (j + 1) (others l a).length with hlt | hge
  · rw [Nat.mod_eq_of_lt hlt, List.drop_eq_getElem_cons hlt, List.cons_append,
      List.find?_cons_of_pos (by simpa using hne _ (List.getElem_mem hlt)),
      List.getElem?_eq_getElem hlt]
  · have hend : j + 1 = (others l a).length := by omega
    rw [hend, Nat.mod_self, List.drop_length, List.take_length, List.nil_append,
      List.find?_cons_of_neg (by simp)]
    have hzero : 0 < (others l a).length := by omega
    rw [List.getElem?_eq_getElem hzero]
    obtain ⟨b, rest, hothers⟩ := List.exists_cons_of_length_pos hzero
    have hb : b ≠ a := hne b (by rw [hothers]; exact List.mem_cons_self)
    simp [hothers, hb]

end Lib.Ring
