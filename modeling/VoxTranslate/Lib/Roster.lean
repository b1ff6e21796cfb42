import Mathlib.Data.List.Nodup

/-!
# Rosters

A roster is a list without repetitions that a log of events changes: what is added goes to the end
unless it is there, and what is removed goes.  What a log makes of a roster is what it leaves of
it, followed by what it brings itself.  So it can be said what the first event of a log matters
to all that follow.
-/

namespace Lib.Roster

variable {α : Type*} [DecidableEq α]

inductive Event (α : Type*) where
  | add (a : α)
  | remove (a : α)
  deriving DecidableEq

def apply (l : List α) : Event α → List α
  | .add a => if a ∈ l then l else l ++ [a]
  | .remove a => l.filter (· ≠ a)

def removes (es : List (Event α)) (a : α) : Bool := .remove a ∈ es

/-- What a log adds and does not remove later, in the order in which it is added. -/
def brings : List (Event α) → List α
  | [] => []
  | .add a :: es => if removes es a then brings es else a :: (brings es).filter (· ≠ a)
  | .remove _ :: es => brings es

/-- What a log leaves of a roster. -/
def leaves (es : List (Event α)) (l : List α) : List α := l.filter fun b => !removes es b

/-- What a log brings to a roster: also what was there, if it is removed and added again. -/
def bringsTo (es : List (Event α)) (l : List α) : List α :=
  (brings es).filter fun b => !decide (b ∈ l) || removes es b

/-- Whether it makes no difference to the log on one element that there is an event before it. -/
def fades (start : α) (es : List (Event α)) : Event α → Bool
  | .add a => a = start || removes es a || (bringsTo es [start]).head? = some a
  | .remove a => a ≠ start || removes es a || (brings es).head? = some a

variable {l : List α} {es : List (Event α)} {e : Event α} {a start : α}

lemma mem_apply_add : a ∈ apply l (.add a) := by
  rw [apply]
  split_ifs with h
  · exact h
  · exact List.mem_append_right _ (List.mem_singleton_self a)

lemma nodup_apply (h : l.Nodup) : (apply l e).Nodup := by
  cases e with
  | add a =>
    rw [apply]
    split_ifs with ha
    · exact h
    · exact h.append (List.nodup_singleton a) (by simpa using ha)
  | remove a => exact h.filter _

/-- Unless it was the only element, something is left when one is removed. -/
lemma apply_remove_ne_nil (h : l.Nodup) (hl : l ≠ []) (hne : l ≠ [a]) :
    apply l (.remove a) ≠ [] := by
  intro hnil
  rw [apply, List.filter_eq_nil_iff] at hnil
  have hall : ∀ b ∈ l, b = a := fun b hb => by simpa using hnil b hb
  obtain ⟨b, rest, rfl⟩ := List.exists_cons_of_ne_nil hl
  cases rest with
  | nil => exact hne (by rw [hall b List.mem_cons_self])
  | cons c rest =>
    have hb := hall b List.mem_cons_self
    have hc := hall c (List.mem_cons_of_mem _ List.mem_cons_self)
    exact (List.nodup_cons.mp h).1 (hb.trans hc.symm ▸ List.mem_cons_self)

lemma nodup_brings (es : List (Event α)) : (brings es).Nodup := by
  induction es with
  | nil => exact List.nodup_nil
  | cons e es ih =>
    cases e with
    | add a =>
      rw [brings]
      split_ifs
      · exact ih
      · exact List.nodup_cons.mpr ⟨by simp, ih.filter _⟩
    | remove a => exact ih

@[simp] lemma removes_add (b : α) : removes (.add a :: es) b = removes es b := by
  simp [removes]

@[simp] lemma removes_remove (b : α) :
    removes (.remove a :: es) b = (decide (b = a) || removes es b) := by
  simp [removes]

/-- **What a log makes of a roster**. -/
theorem foldl_apply (l : List α) (es : List (Event α)) :
    es.foldl apply l = leaves es l ++ bringsTo es l := by
  induction es generalizing l with
  | nil => simp [leaves, bringsTo, brings, removes]
  | cons e es ih =>
    rw [List.foldl_cons, ih]
    cases e with
    | remove a =>
      have hleave : leaves es (apply l (.remove a)) = leaves (.remove a :: es) l := by
        rw [leaves, leaves, apply, List.filter_filter]
        exact List.filter_congr fun b _ => by simp [Bool.and_comm]
      have hbring : bringsTo es (apply l (.remove a)) = bringsTo (.remove a :: es) l := by
        rw [bringsTo, bringsTo, apply, brings]
        refine List.filter_congr fun b _ => ?_
        by_cases hb : b = a <;> simp [hb]
      rw [hleave, hbring]
    | add a =>
      by_cases hrem : removes es a = true
      · have hleave : leaves es (apply l (.add a)) = leaves (.add a :: es) l := by
          rw [leaves, leaves, apply]
          split_ifs <;> simp [hrem]
        have hbring : bringsTo es (apply l (.add a)) = bringsTo (.add a :: es) l := by
          rw [bringsTo, bringsTo, apply, brings, if_pos hrem]
          refine List.filter_congr fun b _ => ?_
          by_cases hb : b = a
          · simp [hb, hrem]
          · split_ifs <;> simp [hb]
        rw [hleave, hbring]
      · have hbring : bringsTo es (apply l (.add a)) =
            ((brings es).filter (· ≠ a)).filter fun b => !decide (b ∈ l) || removes es b := by
          rw [bringsTo, apply, List.filter_filter]
          refine List.filter_congr fun b _ => ?_
          by_cases hb : b = a
          · split_ifs with hmem <;> simp [hb, hrem, hmem]
          · split_ifs <;> simp [hb]
        rw [hbring, leaves, leaves, bringsTo, brings, if_neg hrem, apply]
        by_cases hmem : a ∈ l
        · rw [if_pos hmem, List.filter_cons_of_neg (by simp [hmem, hrem])]
          simp
        · rw [if_neg hmem, List.filter_cons_of_pos (by simp [hmem]), List.filter_append]
          simp [hrem]

/-- A roster is the first of its elements and the others. -/
lemma head?_eq_iff (h : l.Nodup) : l.head? = some a ↔ a :: l.filter (· ≠ a) = l := by
  cases l with
  | nil => simp
  | cons b l =>
    constructor
    · rintro ⟨⟩
      have hnone : a ∉ l := (List.nodup_cons.mp h).1
      rw [List.filter_cons_of_neg (by simp), List.filter_eq_self.mpr]
      exact fun b hb => by simpa using fun hba : b = a => hnone (hba ▸ hb)
    · intro heq
      exact (congrArg List.head? heq).symm

lemma leaves_append (l l' : List α) : leaves es (l ++ l') = leaves es l ++ leaves es l' :=
  List.filter_append _ _

lemma leaves_of_removes (h : removes es a = true) : leaves es [a] = [] :=
  List.filter_cons_of_neg (by simp [h])

lemma leaves_of_not_removes (h : ¬ removes es a = true) : leaves es [a] = [a] :=
  List.filter_cons_of_pos (by simpa using h)

lemma bringsTo_nil : bringsTo es [] = brings es := by
  simp [bringsTo]

lemma bringsTo_concat_of_removes (h : removes es a = true) :
    bringsTo es (l ++ [a]) = bringsTo es l := by
  refine List.filter_congr fun b _ => ?_
  by_cases hb : b = a <;> simp [hb, h]

lemma bringsTo_concat_of_not_removes (h : ¬ removes es a = true) :
    bringsTo es (l ++ [a]) = (bringsTo es l).filter (· ≠ a) := by
  rw [bringsTo, bringsTo, List.filter_filter]
  refine List.filter_congr fun b _ => ?_
  by_cases hb : b = a <;> simp [hb, h]

/-- An element at the end of a roster is as if the log had brought it first. -/
lemma foldl_apply_concat_iff :
    es.foldl apply (l ++ [a]) = es.foldl apply l ↔
      removes es a = true ∨ (bringsTo es l).head? = some a := by
  rw [foldl_apply, foldl_apply, leaves_append]
  by_cases hrem : removes es a = true
  · simp [leaves_of_removes hrem, bringsTo_concat_of_removes hrem, hrem]
  · have hnodup : (bringsTo es l).Nodup := (nodup_brings es).filter _
    rw [leaves_of_not_removes hrem, bringsTo_concat_of_not_removes hrem, List.append_assoc,
      List.append_cancel_left_eq, List.singleton_append, ← head?_eq_iff hnodup]
    simp [hrem]

/-- **When the first event of a log fades**. -/
theorem fades_iff :
    fades start es e = true ↔ es.foldl apply (apply [start] e) = es.foldl apply [start] := by
  cases e with
  | add a =>
    by_cases ha : a = start
    · simp [fades, apply, ha]
    · have hmem : a ∉ [start] := by simpa using ha
      rw [apply, if_neg hmem, foldl_apply_concat_iff]
      simp [fades, ha]
  | remove a =>
    by_cases ha : a = start
    · have hone : apply [start] (.remove a) = [] := by simp [apply, ha]
      have hiff : es.foldl apply ([] ++ [a]) = es.foldl apply [] ↔ _ := foldl_apply_concat_iff
      rw [eq_comm, List.nil_append, bringsTo_nil] at hiff
      rw [hone, ← ha, hiff]
      simp [fades, ha]
    · have hone : apply [start] (.remove a) = [start] := by simp [apply, Ne.symm ha]
      simp [fades, ha, hone]

end Lib.Roster
