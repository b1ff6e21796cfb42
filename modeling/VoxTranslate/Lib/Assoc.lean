import Mathlib.Data.List.AList

/-!
# Maps updated in place

The two ways a concurrent map is written under one lock: the entry of one key is replaced,
inserted or dropped in view of what it was, and every entry is replaced or dropped by itself.
-/

namespace Lib

variable {κ β : Type*} [DecidableEq κ]

/-- A finite map with one value type. -/
abbrev Assoc (κ β : Type*) := AList fun _ : κ => β

namespace Assoc

/-- Replace, insert or drop the entry of `k`. -/
def alter (m : Assoc κ β) (k : κ) (f : Option β → Option β) : Assoc κ β :=
  match f (m.lookup k) with
  | some b => m.insert k b
  | none => m.erase k

@[simp] lemma lookup_alter_self (m : Assoc κ β) (k : κ) (f : Option β → Option β) :
    (m.alter k f).lookup k = f (m.lookup k) := by
  rw [alter]
  split
  · next b h => rw [AList.lookup_insert, h]
  · next h => rw [AList.lookup_erase, h]

lemma lookup_alter_of_ne {k k' : κ} (h : k' ≠ k) (m : Assoc κ β) (f : Option β → Option β) :
    (m.alter k f).lookup k' = m.lookup k' := by
  rw [alter]
  split
  · exact AList.lookup_insert_ne h
  · exact AList.lookup_erase_ne h

/-- The entries `f` keeps of a list. -/
def entriesMap (f : β → Option β) (l : List (Sigma fun _ : κ => β)) :
    List (Sigma fun _ : κ => β) :=
  l.filterMap fun e => (f e.2).map (Sigma.mk e.1)

omit [DecidableEq κ] in
lemma keys_entriesMap (f : β → Option β) (l : List (Sigma fun _ : κ => β)) :
    (entriesMap f l).keys.Sublist l.keys := by
  induction l with
  | nil => simp [entriesMap]
  | cons e l ih =>
    obtain ⟨k, b⟩ := e
    cases h : f b with
    | none =>
      simp only [entriesMap, List.filterMap_cons, h, Option.map_none, List.keys_cons]
      exact ih.cons k
    | some b' =>
      simp only [entriesMap, List.filterMap_cons, h, Option.map_some, List.keys_cons]
      exact ih.cons_cons k

lemma dlookup_entriesMap (f : β → Option β) (k : κ) {l : List (Sigma fun _ : κ => β)}
    (h : l.NodupKeys) : (entriesMap f l).dlookup k = (l.dlookup k).bind f := by
  induction l with
  | nil => rfl
  | cons e l ih =>
    obtain ⟨k', b⟩ := e
    have hkeys := keys_entriesMap f l
    rw [List.nodupKeys_cons] at h
    by_cases hk : k = k'
    · subst hk
      have hnone : (entriesMap f l).dlookup k = none :=
        List.dlookup_eq_none.mpr fun hmem => h.1 (hkeys.subset hmem)
      cases hb : f b with
      | none => simpa [entriesMap, hb] using hnone
      | some b' => simp [entriesMap, hb]
    · rw [List.dlookup_cons_ne _ _ hk, ← ih h.2]
      cases hb : f b with
      | none => simp [entriesMap, hb]
      | some b' =>
        simp only [entriesMap, List.filterMap_cons, hb, Option.map_some]
        exact List.dlookup_cons_ne _ _ hk

/-- Replace or drop every entry. -/
def mapEntries (m : Assoc κ β) (f : β → Option β) : Assoc κ β where
  entries := entriesMap f m.entries
  nodupKeys := (keys_entriesMap f m.entries).nodup m.nodupKeys

@[simp] lemma lookup_mapEntries (m : Assoc κ β) (f : β → Option β) (k : κ) :
    (m.mapEntries f).lookup k = (m.lookup k).bind f :=
  dlookup_entriesMap f k m.nodupKeys

/-- Drop the entries of some keys. -/
def eraseAll (m : Assoc κ β) (ks : List κ) : Assoc κ β := ks.foldl (fun m k => m.erase k) m

lemma lookup_eraseAll (m : Assoc κ β) (ks : List κ) (k : κ) :
    (m.eraseAll ks).lookup k = if k ∈ ks then none else m.lookup k := by
  induction ks generalizing m with
  | nil => rfl
  | cons k' ks ih =>
    rw [eraseAll, List.foldl_cons, ← eraseAll, ih]
    by_cases hk : k = k'
    · subst hk
      simp
    · rw [AList.lookup_erase_ne hk]
      simp [hk]

/-- Write some entries, one after the other. -/
def insertAll (m : Assoc κ β) (l : List (κ × β)) : Assoc κ β :=
  l.foldl (fun m e => m.insert e.1 e.2) m

/-- The last entry that is written counts. -/
lemma lookup_insertAll (m : Assoc κ β) (l : List (κ × β)) (k : κ) :
    (m.insertAll l).lookup k =
      ((l.reverse.find? fun e => e.1 = k).map Prod.snd).or (m.lookup k) := by
  induction l generalizing m with
  | nil => rfl
  | cons e l ih =>
    have hcons : m.insertAll (e :: l) = insertAll (m.insert e.1 e.2) l := rfl
    rw [hcons, ih, List.reverse_cons, List.find?_append]
    cases (l.reverse.find? fun e => e.1 = k) with
    | some e' => rfl
    | none =>
      by_cases hk : e.1 = k
      · rw [← hk, AList.lookup_insert]
        simp
      · rw [AList.lookup_insert_ne (Ne.symm hk)]
        simp [hk]

/-- A map whose entries are made of those of a list without two entries of one key. -/
lemma lookup_insertAll_filterMap {γ : Type*} (g : κ → β → Option γ)
    {l : List (Sigma fun _ : κ => β)} (h : l.NodupKeys) (m : Assoc κ γ) (k : κ) :
    (m.insertAll (l.filterMap fun e => (g e.1 e.2).map (Prod.mk e.1))).lookup k =
      ((l.dlookup k).bind (g k)).or (m.lookup k) := by
  induction l generalizing m with
  | nil => rfl
  | cons e l ih =>
    obtain ⟨k', b⟩ := e
    obtain ⟨hfresh, hl⟩ := List.nodupKeys_cons.mp h
    by_cases hk : k = k'
    · subst hk
      have hnone : l.dlookup k = none := List.dlookup_eq_none.mpr hfresh
      rw [List.dlookup_cons_eq, Option.bind_some]
      cases hg : g k b with
      | none => simp [hg, ih hl, hnone]
      | some c =>
        have hcons := ih hl (m.insert k c)
        rw [hnone, AList.lookup_insert] at hcons
        simpa [hg, insertAll] using hcons
    · rw [List.dlookup_cons_ne _ _ hk]
      cases hg : g k' b with
      | none => simp [hg, ih hl]
      | some c =>
        have hcons := ih hl (m.insert k' c)
        rw [AList.lookup_insert_ne hk] at hcons
        simpa [hg, insertAll] using hcons

/-- A map whose entries are those of a list under other keys, no two under one. -/
lemma lookup_insertAll_rekey {κ' : Type*} [DecidableEq κ'] {g : κ → Option κ'}
    (hg : ∀ k k' r, g k = some r → g k' = some r → k = k') {l : List (Sigma fun _ : κ => β)}
    (h : l.NodupKeys) (m : Assoc κ' β) (r : κ') :
    (∀ k, g k = some r →
      (m.insertAll (l.filterMap fun e => (g e.1).map fun r => (r, e.2))).lookup r =
        (l.dlookup k).or (m.lookup r)) ∧
      ((∀ k, g k ≠ some r) →
        (m.insertAll (l.filterMap fun e => (g e.1).map fun r => (r, e.2))).lookup r =
          m.lookup r) := by
  induction l generalizing m with
  | nil => exact ⟨fun _ _ => rfl, fun _ => rfl⟩
  | cons e l ih =>
    obtain ⟨k₀, b⟩ := e
    obtain ⟨hfresh, hl⟩ := List.nodupKeys_cons.mp h
    cases hg₀ : g k₀ with
    | none =>
      simp only [List.filterMap_cons, hg₀, Option.map_none]
      refine ⟨fun k hk => ?_, (ih hl m).2⟩
      have hne : k ≠ k₀ := by
        rintro rfl
        rw [hg₀] at hk
        cases hk
      rw [(ih hl m).1 k hk, List.dlookup_cons_ne _ _ hne]
    | some r₀ =>
      simp only [List.filterMap_cons, hg₀, Option.map_some]
      show (∀ k, g k = some r → (insertAll (m.insert r₀ b) _).lookup r = _) ∧
        (_ → (insertAll (m.insert r₀ b) _).lookup r = _)
      obtain ⟨ih₁, ih₂⟩ := ih hl (m.insert r₀ b)
      constructor
      · intro k hk
        rw [ih₁ k hk]
        by_cases hkk : k = k₀
        · subst hkk
          obtain rfl : r₀ = r := Option.some.inj (hg₀.symm.trans hk)
          have hnone : l.dlookup k = none := List.dlookup_eq_none.mpr hfresh
          rw [hnone, List.dlookup_cons_eq, AList.lookup_insert]
          rfl
        · have hne : r ≠ r₀ := by
            rintro rfl
            exact hkk (hg _ _ _ hk hg₀)
          rw [List.dlookup_cons_ne _ _ hkk, AList.lookup_insert_ne hne]
      · intro hnone
        have hne : r ≠ r₀ := by
          rintro rfl
          exact hnone k₀ hg₀
        rw [ih₂ hnone, AList.lookup_insert_ne hne]

lemma eraseAll_empty (ks : List κ) : (∅ : Assoc κ β).eraseAll ks = ∅ := by
  induction ks with
  | nil => rfl
  | cons k ks ih => exact ih

/-- A key that is looked up has exactly one entry. -/
lemma filter_entries_of_lookup {m : Assoc κ β} {k : κ} {b : β} (h : m.lookup k = some b) :
    (m.entries.filter fun e => e.1 = k) = [⟨k, b⟩] := by
  obtain ⟨entries, hkeys⟩ := m
  change entries.dlookup k = some b at h
  induction entries with
  | nil => cases h
  | cons e l ih =>
    obtain ⟨k', b'⟩ := e
    rw [List.nodupKeys_cons] at hkeys
    by_cases hk : k = k'
    · subst hk
      rw [List.dlookup_cons_eq] at h
      cases h
      have hrest : (l.filter fun e => e.1 = k) = [] := by
        refine List.filter_eq_nil_iff.mpr fun e he hek => hkeys.1 ?_
        have hkey := List.mem_keys_of_mem he
        rwa [of_decide_eq_true hek] at hkey
      rw [List.filter_cons_of_pos (by simp), hrest]
    · rw [List.dlookup_cons_ne _ _ hk] at h
      rw [List.filter_cons_of_neg (by simpa using fun h => hk h.symm)]
      exact ih hkeys.2 h

/-! ## The values without their keys -/

/-- The values of a map. -/
def values (m : Assoc κ β) : List β := m.entries.map Sigma.snd

lemma values_insert (m : Assoc κ β) (k : κ) (b : β) :
    values (m.insert k b) = b :: values (m.erase k) := by
  rw [values, AList.entries_insert]
  rfl

lemma perm_kerase {l : List (Sigma fun _ : κ => β)} {k : κ} :
    (l.map Sigma.snd).Perm ((l.dlookup k).toList ++ (l.kerase k).map Sigma.snd) := by
  induction l with
  | nil => exact List.Perm.refl _
  | cons e l ih =>
    obtain ⟨k', b⟩ := e
    by_cases hk : k = k'
    · subst hk
      have herase : (Sigma.mk k b :: l : List (Sigma fun _ : κ => β)).kerase k = l :=
        List.kerase_cons_eq rfl
      rw [List.dlookup_cons_eq, herase]
      exact List.Perm.refl _
    · rw [List.dlookup_cons_ne _ _ hk, List.kerase_cons_ne hk, List.map_cons, List.map_cons]
      exact (ih.cons b).trans List.perm_middle.symm

/-- The value of one key, and the others. -/
lemma values_perm (m : Assoc κ β) (k : κ) :
    (values m).Perm ((m.lookup k).toList ++ values (m.erase k)) :=
  perm_kerase

lemma values_alter (m : Assoc κ β) (k : κ) (f : Option β → Option β) :
    values (m.alter k f) = (f (m.lookup k)).toList ++ values (m.erase k) := by
  rw [alter]
  split
  · next b h => rw [values_insert, h, Option.toList_some, List.singleton_append]
  · next h => rw [h, Option.toList_none, List.nil_append]

omit [DecidableEq κ] in
lemma values_mapEntries (m : Assoc κ β) (f : β → Option β) :
    values (m.mapEntries f) = (values m).filterMap f := by
  simp only [values, mapEntries, entriesMap, List.map_filterMap, List.filterMap_map]
  congr 1
  funext e
  rw [Function.comp_apply]
  cases f e.2 <;> rfl

lemma mem_values {m : Assoc κ β} {b : β} : b ∈ values m ↔ ∃ k, m.lookup k = some b := by
  simp only [values, List.mem_map, Sigma.exists, AList.mem_lookup_iff.symm, Option.mem_def]
  constructor
  · rintro ⟨k, b', hk, rfl⟩
    exact ⟨k, hk⟩
  · rintro ⟨k, hk⟩
    exact ⟨k, b, hk, rfl⟩

/-- A fresh entry makes the map longer by one. -/
lemma length_insert {m : Assoc κ β} {k : κ} (h : m.lookup k = none) (b : β) :
    (m.insert k b).entries.length = m.entries.length + 1 := by
  rw [AList.insert_of_notMem (AList.lookup_eq_none.mp h), List.length_cons]

/-- An entry that goes makes it shorter by one. -/
lemma length_erase {m : Assoc κ β} {k : κ} {b : β} (h : m.lookup k = some b) :
    m.entries.length = (m.erase k).entries.length + 1 := by
  have hperm := (values_perm m k).length_eq
  rw [h] at hperm
  simpa [values, Nat.add_comm] using hperm

end Assoc

end Lib
