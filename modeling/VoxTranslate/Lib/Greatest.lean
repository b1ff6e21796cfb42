import Mathlib.Data.List.Basic
import Mathlib.Data.List.Permutation

/-!
# The greatest of a list that is in no order

Of the entries with the greatest key the first or the last one is taken.  Where a list stands for a
set that may be walked through in any order, what is taken is determined exactly when there is one
entry with the greatest key.
-/

namespace Lib

variable {α : Type*}

/-- Go through a list and keep an entry, or take a later one for it. -/
def pick (later : Int → Int → Bool) (f : α → Int) : List α → Option α
  | [] => none
  | a :: l =>
    match pick later f l with
    | none => some a
    | some b => if later (f a) (f b) then some b else some a

/-- The first of those with the greatest key. -/
def firstMaxByKey (f : α → Int) (l : List α) : Option α := pick (fun x y => x < y) f l

/-- The last of those with the greatest key. -/
def maxByKey (f : α → Int) (l : List α) : Option α := pick (fun x y => x ≤ y) f l

variable {later : Int → Int → Bool} {f : α → Int} {l : List α} {a b : α}

lemma pick_eq_none : pick later f l = none ↔ l = [] := by
  cases l with
  | nil => simp [pick]
  | cons a l =>
    rw [pick]
    cases pick later f l with
    | none => simp
    | some b => by_cases hlater : later (f a) (f b) = true <;> simp [hlater]

lemma mem_of_pick (h : pick later f l = some a) : a ∈ l := by
  induction l generalizing a with
  | nil => cases h
  | cons c l ih =>
    rw [pick] at h
    cases hrest : pick later f l with
    | none =>
      rw [hrest] at h
      cases h
      exact List.mem_cons_self
    | some b =>
      rw [hrest] at h
      by_cases hlater : later (f c) (f b) = true
      · cases (if_pos hlater).symm.trans h
        exact List.mem_cons_of_mem _ (ih hrest)
      · cases (if_neg hlater).symm.trans h
        exact List.mem_cons_self

lemma firstMaxByKey_eq_none : firstMaxByKey f l = none ↔ l = [] := pick_eq_none

lemma mem_of_firstMaxByKey (h : firstMaxByKey f l = some a) : a ∈ l := mem_of_pick h

lemma maxByKey_eq_none : maxByKey f l = none ↔ l = [] := pick_eq_none

/-- No entry has a greater key. -/
def HasMaxKey (f : α → Int) (l : List α) (a : α) : Prop := a ∈ l ∧ ∀ b ∈ l, f b ≤ f a

lemma hasMaxKey_of_maxByKey (h : maxByKey f l = some a) : HasMaxKey f l a := by
  refine ⟨mem_of_pick h, ?_⟩
  induction l generalizing a with
  | nil => simp
  | cons c l ih =>
    rw [maxByKey, pick] at h
    cases hrest : pick (fun x y => x ≤ y) f l with
    | none =>
      rw [hrest] at h
      cases h
      simp [pick_eq_none.mp hrest]
    | some b =>
      rw [hrest] at h
      have hle := ih hrest
      by_cases hlater : f c ≤ f b
      · cases (if_pos (decide_eq_true hlater)).symm.trans h
        simpa using ⟨hlater, hle⟩
      · cases (if_neg (by simpa using hlater)).symm.trans h
        intro d hd
        rcases List.mem_cons.mp hd with rfl | hd
        · exact le_refl (f d)
        · have := hle d hd
          omega

/-- The last entry is taken where no key is greater. -/
lemma maxByKey_concat (h : ∀ b ∈ l, f b ≤ f a) : maxByKey f (l ++ [a]) = some a := by
  induction l with
  | nil => rfl
  | cons c l ih =>
    have hrest := ih fun b hb => h b (List.mem_cons_of_mem _ hb)
    rw [maxByKey] at hrest
    rw [maxByKey, List.cons_append, pick, hrest]
    exact if_pos (decide_eq_true (h c List.mem_cons_self))

/-- Each of the greatest is taken in some order. -/
lemma HasMaxKey.exists_perm [DecidableEq α] (h : HasMaxKey f l a) :
    ∃ l', l'.Perm l ∧ maxByKey f l' = some a := by
  refine ⟨l.erase a ++ [a], ?_, maxByKey_concat fun b hb => h.2 b (List.mem_of_mem_erase hb)⟩
  exact (List.perm_append_singleton _ _).trans (List.perm_cons_erase h.1).symm

/-- Where one entry has the greatest key, it is taken in any order. -/
lemma maxByKey_perm {l' l'' : List α} (honce : ∀ a b, HasMaxKey f l a → HasMaxKey f l b → a = b)
    (h : l'.Perm l) (h' : l''.Perm l) : maxByKey f l' = maxByKey f l'' := by
  have hgreatest : ∀ l₀ : List α, l₀.Perm l → ∀ a, maxByKey f l₀ = some a → HasMaxKey f l a := by
    intro l₀ hperm a ha
    obtain ⟨hmem, hle⟩ := hasMaxKey_of_maxByKey ha
    exact ⟨hperm.subset hmem, fun b hb => hle b (hperm.symm.subset hb)⟩
  cases ha : maxByKey f l' with
  | none =>
    rw [maxByKey_eq_none] at ha
    rw [ha] at h
    rw [h.symm.eq_nil] at h'
    rw [h'.eq_nil, maxByKey_eq_none.mpr rfl]
  | some a =>
    cases hb : maxByKey f l'' with
    | none =>
      rw [maxByKey_eq_none] at hb
      rw [hb] at h'
      have hmem := h.subset (mem_of_pick ha)
      rw [h'.symm.eq_nil] at hmem
      cases hmem
    | some b => rw [honce a b (hgreatest l' h a ha) (hgreatest l'' h' b hb)]

end Lib
