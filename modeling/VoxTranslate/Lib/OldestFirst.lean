import Mathlib.Data.List.Sort
import VoxTranslate.Lib.Run

/-!
# Working off a backlog, the oldest first

A backlog is worked off in passes.  A pass is given the `n` items with the least keys, in some
order where keys are equal, as a query ordered by the key and limited to `n` rows answers it, and
takes away those of them that do not fail.  The items that fail stay, and come first again in the
next pass: an item is reached as long as fewer than `n` of them are in front of it.
-/

namespace Lib

variable {α : Type*} [DecidableEq α]

/-- An answer to the query for the `n` items of `s` with the least keys. -/
structure IsOldest (key : α → Int) (n : ℕ) (s b : List α) : Prop where
  nodup : b.Nodup
  mem : ∀ x ∈ b, x ∈ s
  length : b.length = min n s.length
  sorted : b.Pairwise fun x y => key x ≤ key y
  oldest : ∀ x ∈ b, ∀ y ∈ s, y ∉ b → key x ≤ key y

instance (key : α → Int) (n : ℕ) (s b : List α) : Decidable (IsOldest key n s b) :=
  decidable_of_iff (b.Nodup ∧ (∀ x ∈ b, x ∈ s) ∧ b.length = min n s.length ∧
      (b.Pairwise fun x y => key x ≤ key y) ∧ ∀ x ∈ b, ∀ y ∈ s, y ∉ b → key x ≤ key y)
    ⟨fun h => ⟨h.1, h.2.1, h.2.2.1, h.2.2.2.1, h.2.2.2.2⟩,
      fun h => ⟨h.nodup, h.mem, h.length, h.sorted, h.oldest⟩⟩

/-- What a pass over `b` leaves of the backlog. -/
def leftover (fails : α → Bool) (b s : List α) : List α := s.filter fun x => fails x || x ∉ b

/-- How many failing items come first, or may come first, where `d` is waiting. -/
def ahead (key : α → Int) (fails : α → Bool) (s : List α) (d : α) : ℕ :=
  s.countP fun x => fails x && key x ≤ key d

/-- One pass. -/
def PassOver (key : α → Int) (n : ℕ) (fails : α → Bool) (s b t : List α) : Prop :=
  IsOldest key n s b ∧ t = leftover fails b s

variable {key : α → Int} {n : ℕ} {fails : α → Bool} {s t b : List α} {d : α}

lemma mem_leftover {x : α} : x ∈ leftover fails b s ↔ x ∈ s ∧ (fails x = true ∨ x ∉ b) := by
  simp [leftover]

/-- The failing items all stay where they are. -/
lemma ahead_leftover : ahead key fails (leftover fails b s) d = ahead key fails s d := by
  rw [ahead, ahead, leftover, List.countP_filter]
  refine List.countP_congr fun x _ => ?_
  cases fails x <;> simp

omit [DecidableEq α] in
/-- An answer leaves out an item only where it is full. -/
lemma IsOldest.full (h : IsOldest key n s b) (hd : d ∈ s) (hout : d ∉ b) : b.length = n := by
  by_contra hne
  have hlength : s.length ≤ b.length := by
    have := h.length
    omega
  have hperm : b.Perm s := (List.subperm_of_subset h.nodup h.mem).perm_of_length_le hlength
  exact hout (hperm.mem_iff.mpr hd)

/-- Where fewer than `n` failing items are in front of one that is waiting, the answer holds one
that does not fail. -/
lemma IsOldest.exists_good (h : IsOldest key n s b) (hd : d ∈ s) (hgood : fails d = false)
    (hahead : ahead key fails s d < n) : ∃ x ∈ b, fails x = false := by
  by_cases hin : d ∈ b
  · exact ⟨d, hin, hgood⟩
  by_contra hall
  push Not at hall
  have hsub : b ⊆ s.filter fun x => fails x && key x ≤ key d := by
    intro x hx
    have hfails : fails x = true := by
      cases hcase : fails x with
      | false => exact absurd hcase (hall x hx)
      | true => rfl
    have hle := h.oldest x hx d hd hin
    simp [h.mem x hx, hfails, hle]
  have hlength := (List.subperm_of_subset h.nodup hsub).length_le
  rw [← List.countP_eq_length_filter, h.full hd hin] at hlength
  rw [ahead] at hahead
  omega

/-- A pass that is given an item that does not fail takes one away. -/
lemma countP_leftover_lt {x : α} (hx : x ∈ b) (hmem : x ∈ s) (hgood : fails x = false) :
    (leftover fails b s).countP (fun y => !fails y) < s.countP fun y => !fails y := by
  induction s with
  | nil => cases hmem
  | cons y s ih =>
    have hle : (leftover fails b s).countP (fun z => !fails z) ≤ s.countP fun z => !fails z :=
      List.Sublist.countP_le List.filter_sublist
    rw [leftover] at ih hle ⊢
    rw [List.filter_cons]
    rcases List.mem_cons.mp hmem with rfl | hrest
    · rw [if_neg (by simp [hgood, hx]), List.countP_cons_of_pos (by simp [hgood])]
      omega
    · have hlt := ih hrest
      split
      · rw [List.countP_cons, List.countP_cons]
        omega
      · rw [List.countP_cons]
        omega

/-- What a run of passes leaves while an item is waiting that is reached: every pass has taken
one away. -/
lemma countP_of_waiting {bs : List (List α)} (h : Run (PassOver key n fails) s bs t)
    (hd : d ∈ t) (hgood : fails d = false) (hahead : ahead key fails s d < n) :
    t.countP (fun y => !fails y) + bs.length ≤ s.countP fun y => !fails y := by
  induction h with
  | nil => simp
  | @cons s u t b bs hpass hrun ih =>
    obtain ⟨hb, rfl⟩ := hpass
    have hrest := ih hd (by rwa [ahead_leftover])
    have hmem : d ∈ s := by
      have hstart : d ∈ leftover fails b s := by
        refine hrun.invariant (fun u => d ∈ u → d ∈ leftover fails b s) ?_ id hd
        rintro v c - w hv ⟨-, rfl⟩ hw
        exact hv (mem_leftover.mp hw).1
      exact (mem_leftover.mp hstart).1
    obtain ⟨x, hx, hxgood⟩ := hb.exists_good hmem hgood hahead
    have hless := countP_leftover_lt hx (hb.mem x hx) hxgood
    rw [List.length_cons]
    omega

/-- **An item that is reached is taken away** by the time there were as many passes as items. -/
lemma not_mem_of_passes {bs : List (List α)} (h : Run (PassOver key n fails) s bs t)
    (hgood : fails d = false) (hahead : ahead key fails s d < n) (hlong : s.length ≤ bs.length) :
    d ∉ t := by
  intro hd
  have hcount := countP_of_waiting h hd hgood hahead
  have hpos : 0 < t.countP fun y => !fails y := List.countP_pos_iff.mpr ⟨d, hd, by simp [hgood]⟩
  have hle : s.countP (fun y => !fails y) ≤ s.length := List.countP_le_length
  omega

omit [DecidableEq α] in
/-- Where a list is in order, its first items are among those up to a bound as long as there are
as many of these. -/
lemma le_of_mem_take {c : Int} (h : s.Pairwise fun x y => key x ≤ key y)
    (hmany : n ≤ s.countP fun x => key x ≤ c) : ∀ x ∈ s.take n, key x ≤ c := by
  induction s generalizing n with
  | nil => simp
  | cons y s ih =>
    cases n with
    | zero => simp
    | succ n =>
      obtain ⟨hy, hs⟩ := List.pairwise_cons.mp h
      rw [List.countP_cons] at hmany
      by_cases hle : key y ≤ c
      · rw [if_pos (decide_eq_true hle)] at hmany
        intro x hx
        rcases List.mem_cons.mp hx with rfl | hx
        · exact hle
        · exact ih hs (by omega) x hx
      · have hnone : s.countP (fun x => key x ≤ c) = 0 := by
          rw [List.countP_eq_zero]
          intro x hx hxc
          exact hle ((hy x hx).trans (of_decide_eq_true hxc))
        rw [hnone, if_neg (by simpa using hle)] at hmany
        omega

omit [DecidableEq α] in
/-- The first items of a list in order come before the others. -/
lemma le_of_mem_take_of_not_mem (h : s.Pairwise fun x y => key x ≤ key y) :
    ∀ x ∈ s.take n, ∀ y ∈ s, y ∉ s.take n → key x ≤ key y := by
  intro x hx y hy hout
  rw [← List.take_append_drop n s] at h hy
  exact (List.pairwise_append.mp h).2.2 x hx y ((List.mem_append.mp hy).resolve_left hout)

/-- **An item that is not reached may be left out**, and waits on. -/
lemma exists_isOldest_without (hs : s.Nodup) (hd : d ∈ s) (hgood : fails d = false)
    (hahead : n ≤ ahead key fails s d) : ∃ b, IsOldest key n s b ∧ d ∉ b := by
  let r : α → α → Prop := fun x y => key x ≤ key y
  have : Std.Total r := ⟨fun x y => le_total (key x) (key y)⟩
  have : IsTrans α r := ⟨fun x y z => le_trans⟩
  let others := (s.erase d).insertionSort r
  have hperm : others.Perm (s.erase d) := List.perm_insertionSort r _
  have hsorted : others.Pairwise r := List.pairwise_insertionSort r _
  have hout : d ∉ others := fun h => hs.not_mem_erase (hperm.mem_iff.mp h)
  have hmem : ∀ x ∈ others, x ∈ s := fun x hx => List.mem_of_mem_erase (hperm.mem_iff.mp hx)
  have hother : ∀ x ∈ s, x ≠ d → x ∈ others := fun x hx hne =>
    hperm.mem_iff.mpr ((List.mem_erase_of_ne hne).mpr hx)
  -- the failing items in front of `d` fill the answer
  have hmany : n ≤ others.countP fun x => key x ≤ key d := by
    have hsplit : ahead key fails s d = ahead key fails (s.erase d) d := by
      rw [ahead, (List.perm_cons_erase hd).countP_eq, List.countP_cons_of_neg (by simp [hgood])]
      rfl
    have hle : ahead key fails (s.erase d) d ≤ (s.erase d).countP fun x => key x ≤ key d :=
      List.countP_mono_left fun x _ hx => (Bool.and_eq_true _ _ ▸ hx).2
    rw [hperm.countP_eq]
    omega
  have hlong : n ≤ others.length := hmany.trans List.countP_le_length
  refine ⟨others.take n, ⟨?_, ?_, ?_, ?_, ?_⟩, fun h => hout (List.mem_of_mem_take h)⟩
  · exact (hperm.nodup_iff.mpr (hs.erase d)).sublist (List.take_sublist n others)
  · exact fun x hx => hmem x (List.mem_of_mem_take hx)
  · have hless : others.length = s.length - 1 :=
      hperm.length_eq.trans (List.length_erase_of_mem hd)
    rw [List.length_take]
    omega
  · exact hsorted.sublist (List.take_sublist n others)
  · intro x hx y hy hyout
    by_cases hne : y = d
    · rw [hne]
      exact le_of_mem_take hsorted hmany x hx
    · exact le_of_mem_take_of_not_mem hsorted x hx y (hother y hy hne) hyout

end Lib
