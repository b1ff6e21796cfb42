import Mathlib.Algebra.BigOperators.Group.List.Basic
import Mathlib.Algebra.Ring.Int.Defs

/-!
# Lists whose entries are named by their place

The tasks of a system stand in a list in the order they came, and an action names one by its
place.  A task that moves on rewrites its place; a task that arrives takes the next one.
-/

namespace Lib.Place

variable {α : Type*} {l : List α} {i j : Nat} {a b : α}

/-- What stands in a list after one place was rewritten. -/
lemma getElem?_set_cases (h : (l.set i a)[j]? = some b) :
    (j = i ∧ b = a) ∨ (j ≠ i ∧ l[j]? = some b) := by
  rw [List.getElem?_set] at h
  by_cases hij : i = j
  · rw [if_pos hij] at h
    split_ifs at h
    exact .inl ⟨hij.symm, (Option.some.inj h).symm⟩
  · rw [if_neg hij] at h
    exact .inr ⟨Ne.symm hij, h⟩

/-- The rewritten place. -/
lemma getElem?_set_here (h : l[i]? = some b) : (l.set i a)[i]? = some a := by
  obtain ⟨hi, -⟩ := List.getElem?_eq_some_iff.mp h
  rw [List.getElem?_set_self hi]

/-- What differs from the entry of a place stays when the place is rewritten. -/
lemma mem_set_of_ne {c : α} (h : l[i]? = some b) (hmem : c ∈ l) (hne : c ≠ b) :
    c ∈ l.set i a := by
  obtain ⟨j, hj⟩ := List.mem_iff_getElem?.mp hmem
  refine List.mem_iff_getElem?.mpr ⟨j, ?_⟩
  rw [List.getElem?_set_ne, hj]
  rintro rfl
  exact hne (Option.some.inj (hj.symm.trans h))

/-- What stands in a list after one entry came to its end. -/
lemma getElem?_concat_cases (h : (l ++ [a])[j]? = some b) :
    (j = l.length ∧ b = a) ∨ l[j]? = some b := by
  rw [List.getElem?_append] at h
  split_ifs at h with hj
  · exact .inr h
  · obtain ⟨hj', rfl⟩ : j - l.length = 0 ∧ a = b := by
      simpa [List.getElem?_singleton] using h
    exact .inl ⟨by omega, rfl⟩

/-- An entry keeps its place when another comes. -/
lemma getElem?_concat_of_some (h : l[j]? = some b) : (l ++ [a])[j]? = some b := by
  obtain ⟨hj, -⟩ := List.getElem?_eq_some_iff.mp h
  rw [List.getElem?_append_left hj]
  exact h

/-- A sum over the entries after one place was rewritten. -/
lemma sum_map_set (h : l[i]? = some b) (f : α → Int) :
    ((l.set i a).map f).sum = (l.map f).sum - f b + f a := by
  obtain ⟨hi, rfl⟩ := List.getElem?_eq_some_iff.mp h
  rw [List.map_set, List.sum_set', dif_pos (by simpa using hi), List.getElem_map]
  omega

/-! ## Entries with a key that no other entry has -/

variable {κ : Type*} {k : α → Option κ}

/-- No two places have the same key. -/
def Keyed (k : α → Option κ) (l : List α) : Prop :=
  ∀ (i j : Nat) (a b : α) (c : κ), l[i]? = some a → l[j]? = some b → k a = some c →
    k b = some c → i = j

lemma Keyed.nil : Keyed k [] := by
  intro i j a b c hi
  cases hi

/-- An entry with a key that no other entry has comes to a place. -/
lemma Keyed.set_fresh (h : Keyed k l)
    (hfresh : ∀ (j : Nat) (b : α) (c : κ), l[j]? = some b → j ≠ i → k a = some c → k b ≠ some c) :
    Keyed k (l.set i a) := by
  intro j j' b b' c hj hj' hb hb'
  rcases getElem?_set_cases hj with ⟨rfl, rfl⟩ | ⟨hne, hold⟩
  · rcases getElem?_set_cases hj' with ⟨rfl, -⟩ | ⟨hne', hold'⟩
    · rfl
    · exact absurd hb' (hfresh j' b' c hold' hne' hb)
  · rcases getElem?_set_cases hj' with ⟨rfl, rfl⟩ | ⟨-, hold'⟩
    · exact absurd hb (hfresh j b c hold hne hb')
    · exact h j j' b b' c hold hold' hb hb'

/-- An entry keeps its key, or gives it up. -/
lemma Keyed.set (h : Keyed k l) (hb : l[i]? = some b) (hkey : k a = none ∨ k a = k b) :
    Keyed k (l.set i a) := by
  refine h.set_fresh fun j b' c hj hne ha hb' => ?_
  rcases hkey with hnone | hsame
  · rw [hnone] at ha
    cases ha
  · exact hne (h j i b' b c hj hb hb' (hsame ▸ ha))

/-- An entry without a key comes to the end. -/
lemma Keyed.concat (h : Keyed k l) (hkey : k a = none) : Keyed k (l ++ [a]) := by
  intro i j b b' c hi hj hb hb'
  rcases getElem?_concat_cases hi with ⟨-, rfl⟩ | hi
  · rw [hkey] at hb
    cases hb
  · rcases getElem?_concat_cases hj with ⟨-, rfl⟩ | hj
    · rw [hkey] at hb'
      cases hb'
    · exact h i j b b' c hi hj hb hb'

/-! ## Searches -/

variable {β : Type*}

lemma findSome?_eq_of_mem {f g : α → Option β} (h : ∀ a ∈ l, f a = g a) :
    l.findSome? f = l.findSome? g := by
  induction l with
  | nil => rfl
  | cons a l ih =>
    rw [List.findSome?_cons, List.findSome?_cons, h a List.mem_cons_self,
      ih fun b hb => h b (List.mem_cons_of_mem _ hb)]

/-- The first value is that of the first entry that has one. -/
lemma findSome?_eq_bind (f : α → Option β) (l : List α) :
    l.findSome? f = (l.find? fun a => (f a).isSome).bind f := by
  induction l with
  | nil => rfl
  | cons a l ih =>
    cases ha : f a with
    | some b => simp [ha]
    | none => simp [ha, ih]

/-- Looking at the places in turn is looking at the entries. -/
lemma findSome?_range (l : List α) (p : α → Bool) :
    ((List.range l.length).findSome? fun k => (l[k]?).filter p) = l.find? p := by
  induction l with
  | nil => rfl
  | cons a l ih =>
    rw [List.length_cons, List.range_succ_eq_map, List.findSome?_cons, List.findSome?_map]
    by_cases ha : p a = true
    · simp [Option.filter, ha]
    · have hrest : ((fun k => ((a :: l)[k]?).filter p) ∘ Nat.succ) = fun k => (l[k]?).filter p := rfl
      rw [hrest, ih]
      simp [Option.filter, ha]

end Lib.Place
