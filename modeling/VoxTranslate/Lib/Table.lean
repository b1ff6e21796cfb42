import Mathlib.Algebra.BigOperators.Group.List.Basic
import Mathlib.Algebra.Order.Ring.Int
import Mathlib.Data.List.Basic

/-!
# Keyed tables

A database table is a list of rows with a key read off each row; a list newest first models
`ORDER BY created_at DESC`.  `Table.get` is `SELECT ... WHERE key = k LIMIT 1`,
`Table.update` is `UPDATE ... WHERE key = k`, and `Table.sumOf` is the sum of a column over
the rows of one key.  The lemmas say what an update, an insertion or a removal does to a
later lookup; a development over tables never unfolds the lists.
-/

namespace Lib.Table

variable {ρ κ : Type*} [DecidableEq κ] {key : ρ → κ} {t : List ρ} {k k' : κ} {f g : ρ → ρ}
  {r : ρ}

/-- The first row with key `k`. -/
def get (key : ρ → κ) (t : List ρ) (k : κ) : Option ρ := t.find? fun r => key r = k

/-- Rewrite every row with key `k`. -/
def update (key : ρ → κ) (t : List ρ) (k : κ) (f : ρ → ρ) : List ρ :=
  t.map fun r => if key r = k then f r else r

/-- The sum of a column over the rows with key `k`. -/
def sumOf (key : ρ → κ) (col : ρ → Int) (t : List ρ) (k : κ) : Int :=
  ((t.filter fun r => key r = k).map col).sum

/-- `f` rewrites no key. -/
def KeepsKey (key : ρ → κ) (f : ρ → ρ) : Prop := ∀ r, key (f r) = key r

omit [DecidableEq κ] in
lemma KeepsKey.id : KeepsKey key fun r => r := fun _ => rfl

/-- The rows of one key are rewritten, and keep another key. -/
lemma KeepsKey.ite {κ' : Type*} {key' : ρ → κ'} (hf : KeepsKey key' f) :
    KeepsKey key' fun r => if key r = k then f r else r := by
  intro r
  simp only
  split_ifs
  · exact hf r
  · rfl

/-! ## Lookup -/

@[simp] lemma get_nil : get key [] k = none := rfl

lemma get_cons : get key (r :: t) k = if key r = k then some r else get key t k := by
  by_cases h : key r = k <;> simp [get, h]

@[simp] lemma get_cons_self (h : key r = k) : get key (r :: t) k = some r := by
  rw [get_cons, if_pos h]

@[simp] lemma get_cons_of_ne (h : key r ≠ k) : get key (r :: t) k = get key t k := by
  rw [get_cons, if_neg h]

lemma key_of_get (h : get key t k = some r) : key r = k := by
  simpa using List.find?_some h

lemma mem_of_get (h : get key t k = some r) : r ∈ t := List.mem_of_find?_eq_some h

lemma get_eq_none : get key t k = none ↔ ∀ r ∈ t, key r ≠ k := by
  simp [get, List.find?_eq_none]

lemma get_isSome_of_mem (h : r ∈ t) (hk : key r = k) : ∃ r', get key t k = some r' := by
  cases hg : get key t k with
  | none =>
    rw [get_eq_none] at hg
    exact absurd hk (hg r h)
  | some r' => exact ⟨r', rfl⟩

/-- Two rows of one key are one row. -/
def Unique (key : ρ → κ) (t : List ρ) : Prop :=
  ∀ r ∈ t, ∀ r' ∈ t, key r = key r' → r = r'

lemma get_of_mem (hu : Unique key t) (h : r ∈ t) : get key t (key r) = some r := by
  obtain ⟨r', hr'⟩ : ∃ r', get key t (key r) = some r' := get_isSome_of_mem h rfl
  rw [hr', hu r' (mem_of_get hr') r h (key_of_get hr')]

/-- A lookup in a table whose rows are rewritten. -/
lemma get_map (hf : KeepsKey key f) : get key (t.map f) k = (get key t k).map f := by
  induction t with
  | nil => rfl
  | cons r t ih =>
    rw [List.map_cons, get_cons, get_cons, hf r, ih]
    split_ifs <;> rfl

/-! ## Update -/

lemma update_cons : update key (r :: t) k f =
    (if key r = k then f r else r) :: update key t k f := rfl

lemma mem_update : r ∈ update key t k f ↔
    (∃ r' ∈ t, key r' = k ∧ f r' = r) ∨ (r ∈ t ∧ key r ≠ k) := by
  simp only [update, List.mem_map]
  constructor
  · rintro ⟨r', hr', rfl⟩
    by_cases h : key r' = k
    · exact .inl ⟨r', hr', h, by rw [if_pos h]⟩
    · exact .inr ⟨by rwa [if_neg h], by rwa [if_neg h]⟩
  · rintro (⟨r', hr', h, rfl⟩ | ⟨hr, h⟩)
    · exact ⟨r', hr', by rw [if_pos h]⟩
    · exact ⟨r, hr, by rw [if_neg h]⟩

/-- Lookup by a key that `f` keeps, in a table updated by any key. -/
lemma get_update_by {κ' : Type*} [DecidableEq κ'] {key' : ρ → κ'} {c : κ'}
    (hf : KeepsKey key' f) :
    get key' (update key t k f) c = (get key' t c).map fun r => if key r = k then f r else r :=
  get_map hf.ite

lemma get_update_self (hf : KeepsKey key f) :
    get key (update key t k f) k = (get key t k).map f := by
  rw [get_update_by hf]
  cases h : get key t k with
  | none => rfl
  | some r => simp [key_of_get h]

lemma get_update_of_ne (hf : KeepsKey key f) (hne : k' ≠ k) :
    get key (update key t k f) k' = get key t k' := by
  rw [get_update_by hf]
  cases h : get key t k' with
  | none => rfl
  | some r => simp [key_of_get h, hne]

/-- Lookup by a value that only the rewritten rows carry. -/
lemma get_update_fresh {κ' : Type*} [DecidableEq κ'] {key' : ρ → κ'} {c : κ'}
    (hfresh : ∀ r ∈ t, key' r ≠ c) (hf : ∀ r, key' (f r) = c) :
    get key' (update key t k f) c = (get key t k).map f := by
  induction t with
  | nil => rfl
  | cons r t ih =>
    rw [update_cons, get_cons, get_cons, ih fun r' hr' => hfresh r' (List.mem_cons_of_mem _ hr')]
    by_cases hk : key r = k
    · rw [if_pos hk, if_pos (hf r), if_pos hk, Option.map_some]
    · rw [if_neg hk, if_neg (hfresh r List.mem_cons_self), if_neg hk]

/-- An update leaves a column alone exactly when it rewrites no row's value of it. -/
lemma map_update_eq_iff {β : Type*} {col : ρ → β} :
    (update key t k f).map col = t.map col ↔ ∀ r ∈ t, key r = k → col (f r) = col r := by
  rw [update, List.map_map, List.map_inj_left]
  refine forall₂_congr fun r _ => ?_
  by_cases hk : key r = k <;> simp [hk]

/-- What holds of the rows of `k` after they were rewritten. -/
lemma forall_update_iff {P : ρ → Prop} (hf : KeepsKey key f) :
    (∀ r ∈ update key t k f, key r = k → P r) ↔ ∀ r ∈ t, key r = k → P (f r) := by
  constructor
  · intro h r hr hk
    exact h (f r) (mem_update.mpr (.inl ⟨r, hr, hk, rfl⟩)) ((hf r).trans hk)
  · intro h r hr hk
    obtain ⟨r', hr', hk', rfl⟩ | ⟨-, hne⟩ := mem_update.mp hr
    · exact h r' hr' hk'
    · exact absurd hk hne

omit [DecidableEq κ] in
/-- A row with a new key keeps keys unique. -/
lemma Unique.cons (h : Unique key t) (hfresh : ∀ r' ∈ t, key r' ≠ key r) :
    Unique key (r :: t) := by
  intro r₁ h₁ r₂ h₂ heq
  rw [List.mem_cons] at h₁ h₂
  obtain h₁ | h₁ := h₁
  · obtain h₂ | h₂ := h₂
    · rw [h₁, h₂]
    · exact absurd (heq.symm.trans (congrArg key h₁)) (hfresh r₂ h₂)
  · obtain h₂ | h₂ := h₂
    · exact absurd (heq.trans (congrArg key h₂)) (hfresh r₁ h₁)
    · exact h r₁ h₁ r₂ h₂ heq

/-- An update keeps keys unique. -/
lemma Unique.update {κ' : Type*} {key' : ρ → κ'} (h : Unique key' t) (hf : KeepsKey key' f) :
    Unique key' (update key t k f) := by
  have hkey : ∀ r : ρ, key' (if key r = k then f r else r) = key' r := hf.ite
  intro r hr r' hr' heq
  obtain ⟨r₁, hr₁, rfl⟩ := List.mem_map.mp hr
  obtain ⟨r₂, hr₂, rfl⟩ := List.mem_map.mp hr'
  rw [h r₁ hr₁ r₂ hr₂ ((hkey r₁).symm.trans (heq.trans (hkey r₂)))]

/-- An update that rewrites nothing. -/
lemma update_id : update key t k (fun r => r) = t := by
  rw [update]
  simp

/-- Two updates of one key are one. -/
lemma update_update (hf : KeepsKey key f) :
    update key (update key t k f) k g = update key t k (g ∘ f) := by
  rw [update, update, update, List.map_map]
  refine List.map_congr_left fun r _ => ?_
  by_cases hk : key r = k
  · simp [hk, hf r]
  · simp [hk]

/-- The keys of an updated table. -/
lemma exists_key_update {κ' : Type*} {key' : ρ → κ'} {c : κ'} (hf : KeepsKey key' f) :
    (∃ r ∈ update key t k f, key' r = c) ↔ ∃ r ∈ t, key' r = c := by
  have hkey : ∀ r : ρ, key' (if key r = k then f r else r) = key' r := hf.ite
  simp [Table.update, hkey]

/-- Where keys are not repeated, an update replaces one row. -/
lemma update_eq_of_nodup (hnd : (t.map key).Nodup) (h : get key t k = some r) (f : ρ → ρ) :
    ∃ l₁ l₂, t = l₁ ++ r :: l₂ ∧ update key t k f = l₁ ++ f r :: l₂ := by
  induction t with
  | nil => cases h
  | cons r' t ih =>
    rw [List.map_cons, List.nodup_cons] at hnd
    rw [get_cons] at h
    split_ifs at h with hk
    · cases h
      refine ⟨[], t, rfl, ?_⟩
      have htail : update key t k f = t := by
        refine (List.map_congr_left fun r'' hr'' => ?_).trans (List.map_id t)
        refine if_neg fun hk' => ?_
        exact hnd.1 (List.mem_map.mpr ⟨r'', hr'', hk'.trans hk.symm⟩)
      rw [update_cons, if_pos hk, htail, List.nil_append]
    · obtain ⟨l₁, l₂, rfl, hupd⟩ := ih hnd.2 h
      exact ⟨r' :: l₁, l₂, rfl, by rw [update_cons, if_neg hk, hupd, List.cons_append]⟩

/-- Dropping the rows of one key keeps the lookup of another. -/
lemma get_filter_ne (hne : k' ≠ k) :
    get key (t.filter fun r => key r ≠ k) k' = get key t k' := by
  induction t with
  | nil => rfl
  | cons r t ih =>
    rw [get_cons, List.filter_cons]
    by_cases hk : key r = k
    · rw [if_neg (by simp [hk]), ih, if_neg fun h => hne (h.symm.trans hk)]
    · rw [if_pos (by simp [hk]), get_cons, ih]

/-- A row that replaces those of its key. -/
lemma Unique.put (h : Unique key t) : Unique key (r :: t.filter fun r' => key r' ≠ key r) := by
  refine Unique.cons ?_ fun r' hr' => by simpa using (List.mem_filter.mp hr').2
  intro a ha b hb
  exact h a (List.mem_filter.mp ha).1 b (List.mem_filter.mp hb).1

/-- Rewriting rows of other keys leaves the rows of `k` alone. -/
lemma filter_map_of_fixed (hf : KeepsKey key f) (hfix : ∀ r, key r = k → f r = r) :
    (t.map f).filter (fun r => key r = k) = t.filter fun r => key r = k := by
  induction t with
  | nil => rfl
  | cons r t ih =>
    rw [List.map_cons, List.filter_cons, List.filter_cons, ih, hf r]
    by_cases hk : key r = k
    · rw [hfix r hk]
    · simp [hk]

/-! ## Column sums -/

@[simp] lemma sumOf_nil {col : ρ → Int} : sumOf key col [] k = 0 := rfl

lemma sumOf_cons {col : ρ → Int} :
    sumOf key col (r :: t) k = (if key r = k then col r else 0) + sumOf key col t k := by
  by_cases h : key r = k <;> simp [sumOf, h]

lemma sumOf_append {col : ρ → Int} {t' : List ρ} :
    sumOf key col (t ++ t') k = sumOf key col t k + sumOf key col t' k := by
  simp [sumOf]

end Lib.Table
