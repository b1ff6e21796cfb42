import Mathlib.Data.List.Basic

/-!
# Joined texts

Texts joined by a separator, and what can be read back from the joint text: all of it where
no part holds the separator, and in general the pieces that the separators cut.
-/

namespace Lib

variable {α : Type*} {x : α} {a b a' b' : List α}

/-- The first separator cuts the text. -/
lemma append_cons_inj_of_not_mem_left (h : a ++ x :: b = a' ++ x :: b') (ha : x ∉ a)
    (ha' : x ∉ a') : a = a' ∧ b = b' := by
  induction a generalizing a' with
  | nil =>
    cases a' with
    | nil => exact ⟨rfl, (List.cons.inj h).2⟩
    | cons c a' => exact absurd (List.cons.inj h).1 fun hc => ha' (hc ▸ List.mem_cons_self)
  | cons c a ih =>
    cases a' with
    | nil => exact absurd (List.cons.inj h).1 fun hc => ha (hc ▸ List.mem_cons_self)
    | cons c' a' =>
      obtain ⟨rfl, hrest⟩ := List.cons.inj h
      obtain ⟨rfl, hb⟩ := ih hrest (fun hx => ha (List.mem_cons_of_mem _ hx))
        fun hx => ha' (List.mem_cons_of_mem _ hx)
      exact ⟨rfl, hb⟩

/-- The last separator cuts the text. -/
lemma append_cons_inj_of_not_mem_right (h : a ++ x :: b = a' ++ x :: b') (hb : x ∉ b)
    (hb' : x ∉ b') : a = a' ∧ b = b' := by
  have hrev : b.reverse ++ x :: a.reverse = b'.reverse ++ x :: a'.reverse := by
    simpa using congrArg List.reverse h
  obtain ⟨hb_eq, ha_eq⟩ := append_cons_inj_of_not_mem_left hrev (by simpa using hb)
    (by simpa using hb')
  exact ⟨List.reverse_injective ha_eq, List.reverse_injective hb_eq⟩

variable {l l' : List (List α)}

/-- A letter of a joint text is the separator or in one of the parts. -/
lemma mem_intercalate {c : α} (h : c ∈ [x].intercalate l) : c = x ∨ ∃ part ∈ l, c ∈ part := by
  induction l with
  | nil => cases h
  | cons part l ih =>
    cases l with
    | nil =>
      rw [List.intercalate_singleton] at h
      exact .inr ⟨part, List.mem_cons_self, h⟩
    | cons part' l =>
      rw [List.intercalate_cons_cons, List.mem_append, List.mem_append] at h
      rcases h with (hpart | hx) | hrest
      · exact .inr ⟨part, List.mem_cons_self, hpart⟩
      · exact .inl (List.mem_singleton.mp hx)
      · exact (ih hrest).imp_right fun ⟨p, hp, hc⟩ => ⟨p, List.mem_cons_of_mem _ hp, hc⟩

/-- A joint text is the parts, each after a separator, without the first separator. -/
lemma intercalate_eq_tail {x : α} (l : List (List α)) :
    [x].intercalate l = (l.flatMap fun part => x :: part).tail := by
  induction l with
  | nil => rfl
  | cons part l ih =>
    cases l with
    | nil => simp
    | cons part' l =>
      rw [List.intercalate_cons_cons, ih]
      simp

variable [BEq α] [LawfulBEq α]

/-- A letter of a text that is no separator is in one of its pieces. -/
lemma exists_mem_splitOn {c : α} (h : c ∈ a) (hne : c ≠ x) : ∃ part ∈ a.splitOn x, c ∈ part := by
  have hjoint : c ∈ [x].intercalate (a.splitOn x) := by rwa [List.intercalate_splitOn]
  exact (mem_intercalate hjoint).resolve_left hne

/-- Cutting a joint text cuts its parts. -/
lemma splitOn_intercalate_eq_flatMap (hl : l ≠ []) :
    ([x].intercalate l).splitOn x = l.flatMap fun part => part.splitOn x := by
  induction l with
  | nil => exact absurd rfl hl
  | cons part l ih =>
    cases l with
    | nil => simp
    | cons part' l =>
      rw [List.intercalate_cons_cons, List.flatMap_cons, ← ih (List.cons_ne_nil _ _),
        List.append_assoc, List.singleton_append, List.splitOn_append_cons_self]

/-- **Two joint texts are equal exactly when the separators cut their parts into the same
pieces.** -/
lemma intercalate_eq_iff (hl : l ≠ []) (hl' : l' ≠ []) :
    [x].intercalate l = [x].intercalate l' ↔
      (l.flatMap fun part => part.splitOn x) = l'.flatMap fun part => part.splitOn x := by
  rw [← splitOn_intercalate_eq_flatMap hl, ← splitOn_intercalate_eq_flatMap hl']
  constructor
  · intro h
    rw [h]
  · intro h
    calc [x].intercalate l
        = [x].intercalate (([x].intercalate l).splitOn x) := (List.intercalate_splitOn x).symm
      _ = [x].intercalate (([x].intercalate l').splitOn x) := by rw [h]
      _ = [x].intercalate l' := List.intercalate_splitOn x

/-- Parts without a separator are the pieces. -/
lemma flatMap_splitOn_eq_self (h : ∀ part ∈ l, x ∉ part) :
    (l.flatMap fun part => part.splitOn x) = l := by
  induction l with
  | nil => rfl
  | cons part l ih =>
    rw [List.flatMap_cons, ih fun p hp => h p (List.mem_cons_of_mem _ hp),
      List.splitOn_eq_singleton (h part List.mem_cons_self), List.singleton_append]

/-- Parts that are each ended by a separator are the pieces, and nothing follows. -/
lemma splitOn_flatMap_append (h : ∀ part ∈ l, x ∉ part) :
    (l.flatMap fun part => part ++ [x]).splitOn x = l ++ [[]] := by
  induction l with
  | nil => rfl
  | cons part l ih =>
    rw [List.flatMap_cons, List.append_assoc, List.singleton_append,
      List.splitOn_append_cons_self_of_not_mem (h part List.mem_cons_self),
      ih fun p hp => h p (List.mem_cons_of_mem _ hp), List.cons_append]

end Lib
