import Mathlib.Data.List.Basic

/-!
# Handles that are opened and closed

A pool is the list of everything that was opened so far, each with whether it was closed.  A
program that closes only what its variables hold leaks exactly what is open and held by none of
them, so it is followed by what holds the open handles.
-/

namespace Lib

/-- Close one handle. -/
def close (pool : List Bool) (i : Nat) : List Bool := pool.set i true

/-- Close several handles. -/
def closeAll (pool : List Bool) (handles : List Nat) : List Bool := handles.foldl close pool

/-- Every open handle is held. -/
def HeldBy (pool : List Bool) (held : Nat → Prop) : Prop :=
  ∀ i, pool[i]? = some false → held i

namespace HeldBy

variable {pool : List Bool} {held held' : Nat → Prop}

lemma nil : HeldBy [] held := by
  intro i hi
  simp at hi

lemma imp (h : HeldBy pool held) (himp : ∀ i, held i → held' i) : HeldBy pool held' :=
  fun i hi => himp i (h i hi)

/-- Nothing is open when nothing is held. -/
lemma all_closed (h : HeldBy pool held) (hnone : ∀ i, ¬ held i) :
    ∀ closed ∈ pool, closed = true := by
  intro closed hmem
  obtain ⟨i, hi⟩ := List.mem_iff_getElem?.mp hmem
  cases closed with
  | true => rfl
  | false => exact absurd (h i hi) (hnone i)

/-- Handles that are opened are to be held. -/
lemma append (h : HeldBy pool held) (n : Nat) (hnew : ∀ i < n, held (pool.length + i)) :
    HeldBy (pool ++ List.replicate n false) held := by
  intro i hi
  rcases Nat.lt_or_ge i pool.length with hlt | hge
  · rw [List.getElem?_append_left hlt] at hi
    exact h i hi
  · rw [List.getElem?_append_right hge, List.getElem?_replicate] at hi
    have hlt : i - pool.length < n := by
      by_contra hnot
      simp [hnot] at hi
    have hheld := hnew (i - pool.length) hlt
    rwa [Nat.add_sub_cancel' hge] at hheld

lemma append_one (h : HeldBy pool held) (hnew : held pool.length) :
    HeldBy (pool ++ [false]) held := by
  refine h.append 1 fun i hi => ?_
  rwa [Nat.lt_one_iff.mp hi]

/-- What is closed need not be held. -/
lemma close (h : HeldBy pool held) (i : Nat) :
    HeldBy (Lib.close pool i) fun j => held j ∧ j ≠ i := by
  intro j hj
  by_cases heq : j = i
  · rw [heq, Lib.close, List.getElem?_set_self'] at hj
    simp at hj
  · rw [Lib.close, List.getElem?_set_ne (Ne.symm heq)] at hj
    exact ⟨h j hj, heq⟩

lemma closeAll (h : HeldBy pool held) (handles : List Nat) :
    HeldBy (Lib.closeAll pool handles) fun j => held j ∧ j ∉ handles := by
  induction handles generalizing pool held with
  | nil => exact h.imp fun j hj => ⟨hj, List.not_mem_nil⟩
  | cons i handles ih =>
    refine (ih (h.close i)).imp fun j hj => ⟨hj.1.1, ?_⟩
    rw [List.mem_cons, not_or]
    exact ⟨hj.1.2, hj.2⟩

end HeldBy

end Lib
