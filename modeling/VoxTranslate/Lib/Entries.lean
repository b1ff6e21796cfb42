import Mathlib.Data.List.Nodup

/-!
# Objects as lists of entries

An object that is used as a map keeps its entries in the order in which the keys were first put.
-/

namespace Lib.Entries

variable {κ β : Type*} [DecidableEq κ]

/-- The value of a key. -/
def get : List (κ × β) → κ → Option β
  | [], _ => none
  | e :: l, k => if e.1 = k then some e.2 else get l k

/-- Replace the value of a key where it stands, or add the key at the end. -/
def put : List (κ × β) → κ → β → List (κ × β)
  | [], k, b => [(k, b)]
  | e :: l, k, b => if e.1 = k then (k, b) :: l else e :: put l k b

variable {l : List (κ × β)} {k k' : κ} {b : β}

lemma get_put_self : get (put l k b) k = some b := by
  induction l with
  | nil => simp [put, get]
  | cons e l ih =>
    rw [put]
    split_ifs with he
    · simp [get]
    · rw [get, if_neg he, ih]

lemma get_put_of_ne (h : k' ≠ k) : get (put l k b) k' = get l k' := by
  induction l with
  | nil => simp [put, get, h.symm]
  | cons e l ih =>
    rw [put]
    split_ifs with he
    · rw [get, get, if_neg h.symm, if_neg (he ▸ h.symm)]
    · rw [get, get, ih]

lemma get_eq_none (h : k ∉ l.map Prod.fst) : get l k = none := by
  induction l with
  | nil => rfl
  | cons e l ih =>
    obtain ⟨hne, hrest⟩ := not_or.mp (mt List.mem_cons.mpr h)
    rw [get, if_neg (Ne.symm hne), ih hrest]

lemma map_fst_put_of_mem (h : k ∈ l.map Prod.fst) : (put l k b).map Prod.fst = l.map Prod.fst := by
  induction l with
  | nil => cases h
  | cons e l ih =>
    rw [put]
    split_ifs with he
    · rw [List.map_cons, List.map_cons, ← he]
    · rw [List.map_cons, List.map_cons, ih ((List.mem_cons.mp h).resolve_left (Ne.symm he))]

lemma map_fst_put_of_notMem (h : k ∉ l.map Prod.fst) :
    (put l k b).map Prod.fst = l.map Prod.fst ++ [k] := by
  induction l with
  | nil => rfl
  | cons e l ih =>
    obtain ⟨hne, hrest⟩ := not_or.mp (mt List.mem_cons.mpr h)
    rw [put, if_neg (Ne.symm hne), List.map_cons, ih hrest, List.map_cons, List.cons_append]

/-- A key is put once. -/
lemma nodup_put (h : (l.map Prod.fst).Nodup) : ((put l k b).map Prod.fst).Nodup := by
  by_cases hk : k ∈ l.map Prod.fst
  · rw [map_fst_put_of_mem hk]
    exact h
  · rw [map_fst_put_of_notMem hk]
    exact h.append (List.nodup_singleton k) (by simpa using hk)

end Lib.Entries
