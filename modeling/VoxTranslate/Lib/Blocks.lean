import Mathlib.Algebra.Order.Ring.Nat
import Mathlib.Data.List.Basic

/-!
# Streams taken in blocks

A stream comes in pieces of any size and is worked on in blocks of one size: every complete block
that is there is taken, and what is left waits for the next piece.  How the stream was cut into
pieces does not matter.
-/

namespace Lib

variable {σ α β : Type*} {size : Nat} {f : σ → List α → σ × List β}

/-- Take every complete block from a stream: the state, what came of the blocks, and what is
left. -/
def drain (size : Nat) (f : σ → List α → σ × List β) (s : σ) (l : List α) :
    σ × List β × List α :=
  if _h : 0 < size ∧ size ≤ l.length then
    let block := f s (l.take size)
    let rest := drain size f block.1 (l.drop size)
    (rest.1, block.2 ++ rest.2.1, rest.2.2)
  else (s, [], l)
  termination_by l.length
  decreasing_by
    rw [List.length_drop]
    omega

namespace Drain

variable {s : σ} {l m : List α}

lemma of_short (h : l.length < size) : drain size f s l = (s, [], l) := by
  rw [drain, dif_neg fun hfull => absurd h (not_lt.mpr hfull.2)]

lemma of_full (hsize : 0 < size) (h : size ≤ l.length) : drain size f s l =
    ((drain size f (f s (l.take size)).1 (l.drop size)).1,
      (f s (l.take size)).2 ++ (drain size f (f s (l.take size)).1 (l.drop size)).2.1,
      (drain size f (f s (l.take size)).1 (l.drop size)).2.2) := by
  rw [drain, dif_pos ⟨hsize, h⟩]

/-- What is left is no complete block. -/
lemma length_rest (hsize : 0 < size) (s : σ) (l : List α) :
    (drain size f s l).2.2.length = l.length % size := by
  induction h : l.length using Nat.strongRecOn generalizing s l with
  | ind n ih =>
    rcases Nat.lt_or_ge l.length size with hshort | hfull
    · rw [of_short hshort, ← h, Nat.mod_eq_of_lt hshort]
    · have hdrop : (l.drop size).length < n := by
        rw [List.length_drop]
        omega
      rw [of_full hsize hfull, ← h, Nat.mod_eq_sub_mod hfull, ← List.length_drop]
      exact ih (l.drop size).length hdrop _ _ rfl

/-- Where a block yields as much as it takes, nothing is added and nothing is lost. -/
lemma length_drain (hsize : 0 < size) (hf : ∀ s b, b.length = size → (f s b).2.length = size)
    (s : σ) (l : List α) :
    (drain size f s l).2.1.length + (drain size f s l).2.2.length = l.length := by
  induction h : l.length using Nat.strongRecOn generalizing s l with
  | ind n ih =>
    rcases Nat.lt_or_ge l.length size with hshort | hfull
    · rw [of_short hshort, ← h]
      exact Nat.zero_add _
    · rw [of_full hsize hfull, List.length_append, hf _ _ (List.length_take_of_le hfull)]
      have hrest := ih (l.drop size).length (by rw [List.length_drop]; omega)
        (f s (l.take size)).1 (l.drop size) rfl
      rw [List.length_drop] at hrest
      simp only at hrest ⊢
      omega

/-- **The pieces do not matter**: a stream that goes on is taken up where it was left. -/
lemma append (hsize : 0 < size) (s : σ) (l m : List α) : drain size f s (l ++ m) =
    ((drain size f (drain size f s l).1 ((drain size f s l).2.2 ++ m)).1,
      (drain size f s l).2.1 ++
        (drain size f (drain size f s l).1 ((drain size f s l).2.2 ++ m)).2.1,
      (drain size f (drain size f s l).1 ((drain size f s l).2.2 ++ m)).2.2) := by
  induction h : l.length using Nat.strongRecOn generalizing s l with
  | ind n ih =>
    rcases Nat.lt_or_ge l.length size with hshort | hfull
    · rw [of_short hshort]
      rfl
    · have hfull' : size ≤ (l ++ m).length := by
        rw [List.length_append]
        omega
      rw [of_full hsize hfull', List.take_append_of_le_length hfull,
        List.drop_append_of_le_length hfull, of_full hsize hfull]
      rw [ih (l.drop size).length (by rw [List.length_drop]; omega) _ _ rfl]
      simp only [List.append_assoc]

end Drain

end Lib
