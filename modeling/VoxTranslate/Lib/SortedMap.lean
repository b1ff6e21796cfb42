import Mathlib.Order.RelClasses
import VoxTranslate.Lib.Entries

/-!
# Maps in the order of their keys

A map that is read in the order of its keys is a list of entries with increasing keys.  It is
written one key at a time; what a sequence of writes leaves under a key depends on the writes to
that key alone.
-/

namespace Lib.SortedMap

variable {κ β α : Type*} [LT κ] [DecidableLT κ] [DecidableEq κ]

/-- The entries come in the order of their keys. -/
def Sorted (m : List (κ × β)) : Prop := m.Pairwise fun e e' => e.1 < e'.1

/-- Write the value of a key in view of what it was. -/
def alter : List (κ × β) → κ → (Option β → β) → List (κ × β)
  | [], k, f => [(k, f none)]
  | e :: m, k, f =>
    if k < e.1 then (k, f none) :: e :: m
    else if e.1 = k then (k, f (some e.2)) :: m
    else e :: alter m k f

variable {m : List (κ × β)} {e : κ × β} {k k' : κ} {f : Option β → β} {b : β}

omit [DecidableLT κ] [DecidableEq κ] in
lemma sorted_nil : Sorted ([] : List (κ × β)) := List.Pairwise.nil

omit [DecidableLT κ] [DecidableEq κ] in
lemma Sorted.tail (h : Sorted (e :: m)) : Sorted m := (List.pairwise_cons.mp h).2

lemma mem_fst_alter (h : e ∈ alter m k f) : e.1 = k ∨ e ∈ m := by
  induction m with
  | nil => exact .inl (List.mem_singleton.mp h ▸ rfl)
  | cons e' m ih =>
    rw [alter] at h
    split_ifs at h with hlt heq
    · rcases List.mem_cons.mp h with rfl | hmem
      · exact .inl rfl
      · exact .inr hmem
    · rcases List.mem_cons.mp h with rfl | hmem
      · exact .inl rfl
      · exact .inr (List.mem_cons_of_mem _ hmem)
    · rcases List.mem_cons.mp h with rfl | hmem
      · exact .inr List.mem_cons_self
      · exact (ih hmem).imp_right (List.mem_cons_of_mem _)

lemma get_alter_of_ne (h : k' ≠ k) : Entries.get (alter m k f) k' = Entries.get m k' := by
  induction m with
  | nil => simp [alter, Entries.get, h.symm]
  | cons e m ih =>
    rw [alter]
    split_ifs with hlt heq
    · rw [Entries.get, if_neg h.symm]
    · rw [Entries.get, Entries.get, if_neg h.symm, if_neg (heq ▸ h.symm)]
    · rw [Entries.get, Entries.get, ih]

variable [IsStrictTotalOrder κ (· < ·)]

omit [DecidableLT κ] in
/-- A key before all others is not there. -/
lemma get_eq_none_of_lt (h : ∀ e ∈ m, k < e.1) : Entries.get m k = none := by
  refine Entries.get_eq_none fun hmem => ?_
  obtain ⟨e, he, rfl⟩ := List.mem_map.mp hmem
  exact irrefl (r := (· < ·)) e.1 (h e he)

omit [DecidableLT κ] [DecidableEq κ] in
lemma Sorted.head_lt (h : Sorted (e :: m)) (hk : k < e.1) : ∀ e' ∈ e :: m, k < e'.1 := by
  intro e' he'
  rcases List.mem_cons.mp he' with rfl | hmem
  · exact hk
  · exact trans_of (· < ·) hk ((List.pairwise_cons.mp h).1 e' hmem)

lemma Sorted.alter (h : Sorted m) (k : κ) (f : Option β → β) : Sorted (alter m k f) := by
  induction m with
  | nil => exact List.pairwise_singleton _ _
  | cons e m ih =>
    have hhead := (List.pairwise_cons.mp h).1
    rw [SortedMap.alter]
    split_ifs with hlt heq
    · exact List.pairwise_cons.mpr ⟨h.head_lt hlt, h⟩
    · exact List.pairwise_cons.mpr ⟨heq ▸ hhead, h.tail⟩
    · refine List.pairwise_cons.mpr ⟨fun e' he' => ?_, ih h.tail⟩
      rcases mem_fst_alter he' with rfl | hmem
      · rcases trichotomous_of (· < ·) e.1 e'.1 with hlt' | heq' | hgt
        · exact hlt'
        · exact absurd heq' heq
        · exact absurd hgt hlt
      · exact hhead e' hmem

lemma get_alter_self (h : Sorted m) : Entries.get (alter m k f) k = some (f (Entries.get m k)) := by
  induction m with
  | nil => simp [SortedMap.alter, Entries.get]
  | cons e m ih =>
    rw [SortedMap.alter]
    split_ifs with hlt heq
    · rw [get_eq_none_of_lt (h.head_lt hlt), Entries.get, if_pos rfl]
    · rw [Entries.get, if_pos rfl, Entries.get, if_pos heq]
    · rw [Entries.get, if_neg heq, ih h.tail, Entries.get, if_neg heq]

omit [DecidableLT κ] in
/-- The entries of a map are what is found under the keys. -/
lemma Sorted.mem_iff (h : Sorted m) : (k, b) ∈ m ↔ Entries.get m k = some b := by
  induction m with
  | nil => simp [Entries.get]
  | cons e m ih =>
    rw [List.mem_cons, Entries.get]
    split_ifs with heq
    · have hnot : (k, b) ∉ m := by
        intro hmem
        have hlt := (List.pairwise_cons.mp h).1 _ hmem
        rw [heq] at hlt
        exact irrefl (r := (· < ·)) k hlt
      rw [or_iff_left hnot, Option.some.injEq, ← heq]
      constructor
      · intro he
        rw [← he]
      · rintro rfl
        rfl
    · rw [ih h.tail, or_iff_right]
      rintro rfl
      exact heq rfl

/-! ## Sequences of writes -/

section Writes

variable {key : α → κ} {g : α → Option β → β}

lemma Sorted.foldl_alter (h : Sorted m) (l : List α) :
    Sorted (l.foldl (fun m a => SortedMap.alter m (key a) (g a)) m) := by
  induction l generalizing m with
  | nil => exact h
  | cons a l ih => exact ih (h.alter _ _)

/-- What a sequence of writes leaves under a key. -/
lemma get_foldl_alter (h : Sorted m) (l : List α) (k : κ) :
    Entries.get (l.foldl (fun m a => SortedMap.alter m (key a) (g a)) m) k =
      (l.filter fun a => key a = k).foldl (fun o a => some (g a o)) (Entries.get m k) := by
  induction l generalizing m with
  | nil => rfl
  | cons a l ih =>
    rw [List.foldl_cons, ih (h.alter _ _)]
    by_cases hk : key a = k
    · rw [List.filter_cons_of_pos (by simpa using hk), List.foldl_cons, ← hk, get_alter_self h]
    · rw [List.filter_cons_of_neg (by simpa using hk), get_alter_of_ne (Ne.symm hk)]

end Writes

end Lib.SortedMap
