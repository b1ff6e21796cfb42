import Mathlib.Data.List.Infix
import Mathlib.Data.List.Sort

/-!
# The longest match

A row is picked among those that satisfy a condition by its rank, the length of what it matches.
The first match of a list in which the ranks descend is such a pick, and so is the head of the
matching rows once they are sorted.  With the rows that match of pairwise different rank the pick
is unique, whatever the order of the rows.

The condition of a query in SQL is a `LIKE`, whose patterns are matched letter by letter.
-/

namespace Lib

section Best

variable {α : Type*} {p : α → Bool} {rank : α → Nat} {l l' : List α} {a b : α}

/-- The pick is a match that no other match outranks, or there is no match. -/
def IsBest (p : α → Bool) (rank : α → Nat) (l : List α) : Option α → Prop
  | none => ∀ b ∈ l, p b = false
  | some a => a ∈ l ∧ p a = true ∧ ∀ b ∈ l, p b = true → rank b ≤ rank a

/-- Which rows there are matters, not their order. -/
lemma IsBest.congr (h : ∀ a, a ∈ l ↔ a ∈ l') {o : Option α} (hbest : IsBest p rank l o) :
    IsBest p rank l' o := by
  cases o with
  | none => exact fun b hb => hbest b ((h b).mpr hb)
  | some a =>
    obtain ⟨hmem, hp, htop⟩ := hbest
    exact ⟨(h a).mp hmem, hp, fun b hb => htop b ((h b).mpr hb)⟩

/-- Matches of different rank leave one pick. -/
lemma IsBest.unique (hrank : ∀ a ∈ l, ∀ b ∈ l, p a = true → p b = true → rank a = rank b → a = b)
    {o o' : Option α} (h : IsBest p rank l o) (h' : IsBest p rank l o') : o = o' := by
  cases o with
  | none =>
    cases o' with
    | none => rfl
    | some b =>
      obtain ⟨hmem, hp, -⟩ := h'
      rw [h b hmem] at hp
      cases hp
  | some a =>
    obtain ⟨hmem, hp, htop⟩ := h
    cases o' with
    | none =>
      rw [h' a hmem] at hp
      cases hp
    | some b =>
      obtain ⟨hmem', hp', htop'⟩ := h'
      rw [hrank a hmem b hmem' hp hp' (le_antisymm (htop' a hmem hp) (htop b hmem' hp'))]

/-- The first match where the ranks descend. -/
lemma isBest_find? (hsorted : l.Pairwise fun a b => rank b ≤ rank a) :
    IsBest p rank l (l.find? p) := by
  cases h : l.find? p with
  | none => exact fun b hb => by simpa using List.find?_eq_none.mp h b hb
  | some a =>
    obtain ⟨hp, before, after, rfl, hbefore⟩ := List.find?_eq_some_iff_append.mp h
    refine ⟨by simp, hp, fun b hb hpb => ?_⟩
    rcases List.mem_append.mp hb with hb | hb
    · have hnot := hbefore b hb
      rw [hpb] at hnot
      cases hnot
    · rcases List.mem_cons.mp hb with rfl | hb
      · exact le_rfl
      · exact (List.pairwise_cons.mp (List.pairwise_append.mp hsorted).2.1).1 b hb

/-- The head of the matches, sorted by descending rank. -/
lemma isBest_head? (p : α → Bool) (rank : α → Nat) (l : List α) :
    IsBest p rank l
      ((l.filter p).insertionSort fun a b => rank b ≤ rank a).head? := by
  have hmem : ∀ a, a ∈ (l.filter p).insertionSort (fun a b => rank b ≤ rank a) ↔
      a ∈ l ∧ p a = true := by
    intro a
    rw [List.mem_insertionSort, List.mem_filter]
  have : Std.Total fun a b : α => rank b ≤ rank a := ⟨fun a b => le_total (rank b) (rank a)⟩
  have : IsTrans α fun a b => rank b ≤ rank a := ⟨fun a b c hab hbc => hbc.trans hab⟩
  have hsorted := List.pairwise_insertionSort (fun a b => rank b ≤ rank a) (l.filter p)
  cases h : (l.filter p).insertionSort (fun a b => rank b ≤ rank a) with
  | nil =>
    rw [h] at hmem
    intro b hb
    by_contra hp
    exact List.not_mem_nil ((hmem b).mpr ⟨hb, by simpa using hp⟩)
  | cons a rest =>
    rw [h] at hmem hsorted
    obtain ⟨ha, hp⟩ := (hmem a).mp (by simp)
    refine ⟨ha, hp, fun b hb hpb => ?_⟩
    rcases List.mem_cons.mp ((hmem b).mpr ⟨hb, hpb⟩) with rfl | hb
    · exact le_rfl
    · exact (List.pairwise_cons.mp hsorted).1 b hb

end Best

/-! ## Patterns -/

/-- The first letter passes, and so does the rest of the text. -/
def onLetter (letter : Char → Bool) (rest : List Char → Bool) : List Char → Bool
  | [] => false
  | c :: text => letter c && rest text

/-- `text LIKE pattern`: `%` stands for any letters, `_` for one, and the letter after a backslash
for itself. -/
def like : List Char → List Char → Bool
  | [], text => text.isEmpty
  | '%' :: pattern, text => text.tails.any (like pattern)
  | '_' :: pattern, text => onLetter (fun _ => true) (like pattern) text
  | '\\' :: c :: pattern, text => onLetter (· == c) (like pattern) text
  | c :: pattern, text => onLetter (· == c) (like pattern) text

/-- A letter that stands for itself in a pattern. -/
def IsLiteral (c : Char) : Prop := c ≠ '%' ∧ c ≠ '_' ∧ c ≠ '\\'

lemma like_cons_of_literal {c : Char} (hc : IsLiteral c) (pattern text : List Char) :
    like (c :: pattern) text = onLetter (· == c) (like pattern) text := by
  obtain ⟨hpercent, hany, hescape⟩ := hc
  rw [like]
  · exact hpercent
  · exact hany
  · rintro _ _ rfl
    exact absurd rfl hescape

lemma like_percent (text : List Char) : like ['%'] text = true := by
  simp only [like, List.any_eq_true, List.mem_tails]
  exact ⟨[], List.nil_suffix, rfl⟩

/-- Literal letters and a `%` match what starts with the letters. -/
lemma like_append_percent {letters : List Char} (hletters : ∀ c ∈ letters, IsLiteral c)
    (text : List Char) : like (letters ++ ['%']) text = true ↔ letters <+: text := by
  induction letters generalizing text with
  | nil => simp [like_percent]
  | cons c letters ih =>
    have ih' := ih fun d hd => hletters d (List.mem_cons_of_mem _ hd)
    rw [List.cons_append, like_cons_of_literal (hletters c (by simp)), List.cons_prefix_iff]
    cases text with
    | nil => simp [onLetter]
    | cons d text => simp [onLetter, ih', and_comm]

end Lib
