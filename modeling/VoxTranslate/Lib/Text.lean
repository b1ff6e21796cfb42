import Mathlib.Data.List.DropRight
import Mathlib.Algebra.Order.BigOperators.Group.List
import Mathlib.Algebra.Order.Ring.Nat
import Mathlib.Data.List.Infix

/-!
# Trimming and common prefixes

Lists over an alphabet some of whose letters are blank: the blank letters at the two ends are
trimmed off, and two lists are compared by the longest prefix they share.
-/

namespace Lib

variable {α : Type*}

section Trim

variable (blank : α → Bool)

/-- Drop the blank letters at both ends. -/
def trim (l : List α) : List α := (l.dropWhile blank).rdropWhile blank

/-- Every letter is blank. -/
def Blank (l : List α) : Prop := ∀ a ∈ l, blank a = true

instance (l : List α) : Decidable (Blank blank l) := inferInstanceAs (Decidable (∀ a ∈ l, _))

variable {blank} {l l' : List α}

lemma Blank.nil : Blank blank [] := by simp [Blank]

lemma Blank.append_iff : Blank blank (l ++ l') ↔ Blank blank l ∧ Blank blank l' := by
  simp only [Blank, List.mem_append]
  constructor
  · intro h
    exact ⟨fun a ha => h a (.inl ha), fun a ha => h a (.inr ha)⟩
  · rintro ⟨h, h'⟩ a (ha | ha)
    · exact h a ha
    · exact h' a ha

lemma trim_eq_nil_iff : trim blank l = [] ↔ Blank blank l := by
  rw [trim, List.rdropWhile_eq_nil_iff]
  constructor
  · intro h a ha
    rw [← List.takeWhile_append_dropWhile (p := blank) (l := l), List.mem_append] at ha
    rcases ha with ha | ha
    · exact List.mem_takeWhile_imp ha
    · exact h a ha
  · intro h a ha
    exact h a ((List.dropWhile_suffix _).subset ha)

/-- What is not blank survives the trimming. -/
lemma filter_rdropWhile (l : List α) :
    (l.rdropWhile blank).filter (fun a => !blank a) = l.filter fun a => !blank a := by
  conv_rhs => rw [← List.rdropWhile_append_rtakeWhile (p := blank) (l := l), List.filter_append]
  have hblank : (l.rtakeWhile blank).filter (fun a => !blank a) = [] := by
    rw [List.filter_eq_nil_iff]
    intro a ha
    simpa using List.mem_rtakeWhile_imp ha
  rw [hblank, List.append_nil]

lemma filter_dropWhile (l : List α) :
    (l.dropWhile blank).filter (fun a => !blank a) = l.filter fun a => !blank a := by
  conv_rhs => rw [← List.takeWhile_append_dropWhile (p := blank) (l := l), List.filter_append]
  have hblank : (l.takeWhile blank).filter (fun a => !blank a) = [] := by
    rw [List.filter_eq_nil_iff]
    intro a ha
    simpa using List.mem_takeWhile_imp ha
  rw [hblank, List.nil_append]

lemma filter_trim (l : List α) :
    (trim blank l).filter (fun a => !blank a) = l.filter fun a => !blank a := by
  rw [trim, filter_rdropWhile, filter_dropWhile]

/-- **A prefix is trimmed away exactly when it is blank.** -/
lemma trim_append_eq_iff : trim blank (l ++ l') = trim blank l' ↔ Blank blank l := by
  constructor
  · intro h
    have hfilter := congrArg (List.filter fun a => !blank a) h
    rw [filter_trim, filter_trim, List.filter_append, List.append_left_eq_self,
      List.filter_eq_nil_iff] at hfilter
    intro a ha
    simpa using hfilter a ha
  · intro h
    have hdrop : (l ++ l').dropWhile blank = l'.dropWhile blank := by
      rw [List.dropWhile_append_of_pos h]
    rw [trim, hdrop, trim]

lemma dropWhile_append_of_not_blank (h : ¬ Blank blank l) :
    (l ++ l').dropWhile blank = l.dropWhile blank ++ l' := by
  rw [List.dropWhile_append, if_neg]
  rw [List.isEmpty_iff, List.dropWhile_eq_nil_iff]
  exact h

lemma rdropWhile_append_of_not_blank (h : ¬ Blank blank l') :
    (l ++ l').rdropWhile blank = l ++ l'.rdropWhile blank := by
  have hreverse : ¬ Blank blank l'.reverse := fun hblank => h fun a ha =>
    hblank a (List.mem_reverse.mpr ha)
  rw [List.rdropWhile, List.reverse_append, dropWhile_append_of_not_blank hreverse,
    List.reverse_append, List.reverse_reverse, List.rdropWhile]

lemma rdropWhile_append_of_blank (h : Blank blank l') :
    (l ++ l').rdropWhile blank = l.rdropWhile blank := by
  have hreverse : ∀ a ∈ l'.reverse, blank a = true := fun a ha => h a (List.mem_reverse.mp ha)
  rw [List.rdropWhile, List.reverse_append, List.dropWhile_append_of_pos hreverse,
    List.rdropWhile]

/-- Blank letters at the end are trimmed away. -/
lemma trim_append_of_blank (h : Blank blank l') : trim blank (l ++ l') = trim blank l := by
  by_cases hl : Blank blank l
  · rw [trim_eq_nil_iff.mpr (Blank.append_iff.mpr ⟨hl, h⟩), trim_eq_nil_iff.mpr hl]
  · rw [trim, dropWhile_append_of_not_blank hl, rdropWhile_append_of_blank h, trim]

/-- Where two texts that are not blank meet, nothing is trimmed. -/
lemma trim_append_of_not_blank (h : ¬ Blank blank l) (h' : ¬ Blank blank l') :
    trim blank (l ++ l') = l.dropWhile blank ++ l'.rdropWhile blank := by
  rw [trim, dropWhile_append_of_not_blank h, rdropWhile_append_of_not_blank h']

/-- Nothing is trimmed beyond a letter that is not blank. -/
lemma trim_insert {a : α} (ha : blank a = false) :
    trim blank (l ++ a :: l') = l.dropWhile blank ++ a :: l'.rdropWhile blank := by
  have hdrop : (l ++ a :: l').dropWhile blank = l.dropWhile blank ++ a :: l' := by
    by_cases hl : Blank blank l
    · rw [List.dropWhile_append_of_pos hl, List.dropWhile_cons_of_neg (by simp [ha]),
        List.dropWhile_eq_nil_iff.mpr hl, List.nil_append]
    · exact dropWhile_append_of_not_blank hl
  have hlast : (a :: l').rdropWhile blank = a :: l'.rdropWhile blank := by
    by_cases hl' : Blank blank l'
    · rw [← List.singleton_append, rdropWhile_append_of_blank hl', List.rdropWhile_singleton,
        if_neg (by simp [ha]), List.rdropWhile_eq_nil_iff.mpr hl']
    · exact rdropWhile_append_of_not_blank (l := [a]) hl'
  have hblank : ¬ Blank blank (a :: l') := fun h => by simp [h a List.mem_cons_self] at ha
  rw [trim, hdrop, rdropWhile_append_of_not_blank hblank, hlast]

lemma rdropWhile_eq_append_trim (h : ¬ Blank blank l) :
    l.rdropWhile blank = l.takeWhile blank ++ trim blank l := by
  have hrest : ¬ Blank blank (l.dropWhile blank) := by
    intro hblank
    refine h ?_
    rw [← List.takeWhile_append_dropWhile (p := blank) (l := l)]
    exact Blank.append_iff.mpr ⟨fun _ ha => List.mem_takeWhile_imp ha, hblank⟩
  conv_lhs => rw [← List.takeWhile_append_dropWhile (p := blank) (l := l)]
  rw [rdropWhile_append_of_not_blank hrest, trim]

/-- Without blank letters there is nothing to trim. -/
lemma trim_eq_self (h : ∀ a ∈ l, blank a = false) : trim blank l = l := by
  have hdrop : l.dropWhile blank = l := by
    cases l with
    | nil => rfl
    | cons a l => exact List.dropWhile_cons_of_neg (by simp [h a List.mem_cons_self])
  rw [trim, hdrop, List.rdropWhile_eq_self_iff]
  intro hne
  simp [h _ (List.getLast_mem hne)]

/-- Trimming twice is trimming once. -/
@[simp] lemma trim_trim (l : List α) : trim blank (trim blank l) = trim blank l := by
  have hdrop : (trim blank l).dropWhile blank = trim blank l := by
    -- what is left starts with the letter that stopped the first pass
    have hprefix : trim blank l <+: l.dropWhile blank := List.rdropWhile_prefix ..
    cases hl : trim blank l with
    | nil => rfl
    | cons a l' =>
      obtain ⟨rest, hrest⟩ := hl ▸ hprefix
      have hhead := List.head_dropWhile_not blank (l := l) (by simp [← hrest])
      simp only [← hrest, List.cons_append, List.head_cons] at hhead
      rw [List.dropWhile_cons_of_neg (by simp [hhead])]
  conv_lhs => rw [trim, hdrop, trim]
  exact List.rdropWhile_idempotent blank _

end Trim

section CommonPrefix

variable [DecidableEq α]

/-- How long the longest common prefix is. -/
def commonPrefixLen : List α → List α → Nat
  | a :: l, b :: l' => if a = b then commonPrefixLen l l' + 1 else 0
  | _, _ => 0

/-- The longest common prefix. -/
def commonPrefix (l l' : List α) : List α := l.take (commonPrefixLen l l')

/-- **The prefixes of the common prefix are the common prefixes.** -/
lemma prefix_commonPrefix_iff {p l l' : List α} :
    p <+: commonPrefix l l' ↔ p <+: l ∧ p <+: l' := by
  induction l generalizing p l' with
  | nil => simp +contextual [commonPrefix]
  | cons a l ih =>
    cases p with
    | nil => simp
    | cons c p =>
      cases l' with
      | nil => simp [commonPrefix, commonPrefixLen]
      | cons b l' =>
        by_cases hab : a = b
        · subst hab
          have hcons : commonPrefix (a :: l) (a :: l') = a :: commonPrefix l l' := by
            simp [commonPrefix, commonPrefixLen]
          rw [hcons, List.cons_prefix_cons, ih, List.cons_prefix_cons, List.cons_prefix_cons]
          tauto
        · have hnil : commonPrefix (a :: l) (b :: l') = [] := by
            simp [commonPrefix, commonPrefixLen, hab]
          rw [hnil, List.cons_prefix_cons, List.cons_prefix_cons]
          constructor
          · intro h
            exact absurd (List.prefix_nil.mp h) (by simp)
          · rintro ⟨⟨rfl, -⟩, rfl, -⟩
            exact absurd rfl hab

lemma commonPrefix_left (l l' : List α) : commonPrefix l l' <+: l :=
  (prefix_commonPrefix_iff.mp (List.prefix_refl _)).1

lemma commonPrefix_right (l l' : List α) : commonPrefix l l' <+: l' :=
  (prefix_commonPrefix_iff.mp (List.prefix_refl _)).2

omit [DecidableEq α] in
/-- Two lists with the same prefixes are equal. -/
lemma eq_of_prefix_iff {l l' : List α} (h : ∀ p, p <+: l ↔ p <+: l') : l = l' := by
  have hl : l <+: l' := (h l).mp (List.prefix_refl l)
  have hl' : l' <+: l := (h l').mpr (List.prefix_refl l')
  exact hl.eq_of_length_le hl'.length_le

lemma commonPrefix_eq_left {l l' : List α} (h : l <+: l') : commonPrefix l l' = l :=
  (commonPrefix_left l l').eq_of_length_le
    (prefix_commonPrefix_iff.mpr ⟨List.prefix_refl l, h⟩).length_le

end CommonPrefix

section Words

variable (blank : α → Bool)

/-- The words of a text: what stands between blank letters. -/
def words (l : List α) : List (List α) := (l.splitOnP blank).filter fun w => !w.isEmpty

variable {blank} {b : α} {l l' : List α}

@[simp] lemma words_nil : words blank [] = [] := rfl

lemma words_append_cons (hb : blank b = true) :
    words blank (l ++ b :: l') = words blank l ++ words blank l' := by
  rw [words, List.splitOnP_append_cons l l' hb, List.filter_append, words, words]

lemma words_cons (hb : blank b = true) : words blank (b :: l) = words blank l := by
  rw [← List.nil_append (b :: l), words_append_cons hb, words_nil, List.nil_append]

lemma words_dropWhile (l : List α) : words blank (l.dropWhile blank) = words blank l := by
  induction l with
  | nil => rfl
  | cons a l ih =>
    by_cases ha : blank a = true
    · rw [List.dropWhile_cons_of_pos ha, ih, words_cons ha]
    · rw [List.dropWhile_cons_of_neg ha]

lemma words_rdropWhile (l : List α) : words blank (l.rdropWhile blank) = words blank l := by
  induction l using List.reverseRecOn with
  | nil => rfl
  | append_singleton l a ih =>
    by_cases ha : blank a = true
    · rw [List.rdropWhile_concat_pos _ _ _ ha, ih, words_append_cons ha, words_nil,
        List.append_nil]
    · rw [List.rdropWhile_concat_neg _ _ _ ha]

/-- Trimming takes no word away. -/
@[simp] lemma words_trim (l : List α) : words blank (trim blank l) = words blank l := by
  rw [trim, words_rdropWhile, words_dropWhile]

lemma flatten_splitOnP (l : List α) :
    (l.splitOnP blank).flatten = l.filter fun a => !blank a := by
  induction l with
  | nil => rfl
  | cons a l ih =>
    rw [List.splitOnP_cons_eq_if_modifyHead]
    by_cases ha : blank a = true
    · rw [if_pos ha, List.flatten_cons, List.nil_append, ih, List.filter_cons_of_neg (by simp [ha])]
    · obtain ⟨w, ws, hws⟩ := List.exists_cons_of_ne_nil (List.splitOnP_ne_nil blank l)
      rw [hws] at ih
      rw [if_neg ha, hws, List.modifyHead_cons, List.flatten_cons, List.cons_append,
        List.filter_cons_of_pos (by simp [ha]), ← ih, List.flatten_cons]

/-- The words are what is not blank, in its order. -/
lemma flatten_words (l : List α) : (words blank l).flatten = l.filter fun a => !blank a := by
  have hfilter : ∀ ws : List (List α), (ws.filter fun w => !w.isEmpty).flatten = ws.flatten := by
    intro ws
    induction ws with
    | nil => rfl
    | cons w ws ih => cases w <;> simp [ih]
  rw [words, hfilter, flatten_splitOnP]

lemma ne_nil_of_mem_words {w : List α} (h : w ∈ words blank l) : w ≠ [] := by
  simpa using (List.mem_filter.mp h).2

lemma not_blank_of_mem_words {w : List α} (h : w ∈ words blank l) {a : α} (ha : a ∈ w) :
    blank a = false := by
  have hmem : a ∈ (words blank l).flatten := List.mem_flatten.mpr ⟨w, h, ha⟩
  rw [flatten_words] at hmem
  simpa using (List.mem_filter.mp hmem).2

lemma words_of_not_blank {w : List α} (hne : w ≠ []) (h : ∀ a ∈ w, blank a = false) :
    words blank w = [w] := by
  rw [words, List.splitOnP_eq_singleton h]
  simp [hne]

/-- Words joined by a blank letter are read back. -/
lemma words_intercalate (hb : blank b = true) {ws : List (List α)}
    (h : ∀ w ∈ ws, w ≠ [] ∧ ∀ a ∈ w, blank a = false) : words blank ([b].intercalate ws) = ws := by
  induction ws with
  | nil => rfl
  | cons w ws ih =>
    obtain ⟨hne, hw⟩ := h w List.mem_cons_self
    cases ws with
    | nil => rw [List.intercalate_singleton, words_of_not_blank hne hw]
    | cons w' ws =>
      rw [List.intercalate_cons_cons, List.append_assoc, List.singleton_append,
        words_append_cons hb, words_of_not_blank hne hw,
        ih fun v hv => h v (List.mem_cons_of_mem _ hv), List.singleton_append]

/-- Words that are each followed by a blank letter are read back. -/
lemma words_flatMap_append (hb : blank b = true) {ws : List (List α)}
    (h : ∀ w ∈ ws, w ≠ [] ∧ ∀ a ∈ w, blank a = false) (l : List α) :
    words blank (ws.flatMap (fun w => w ++ [b]) ++ l) = ws ++ words blank l := by
  induction ws with
  | nil => rfl
  | cons w ws ih =>
    obtain ⟨hne, hw⟩ := h w List.mem_cons_self
    rw [List.flatMap_cons, List.append_assoc, List.append_assoc, List.singleton_append,
      words_append_cons hb, words_of_not_blank hne hw,
      ih fun v hv => h v (List.mem_cons_of_mem _ hv)]
    rfl

end Words

/-- `WhiteSpace` and `LineTerminator` of ECMAScript, which `String.prototype.trim` strips. -/
def isEcmaSpace (c : Char) : Bool :=
  let n := c.toNat
  (0x09 ≤ n && n ≤ 0x0D) || n = 0x20 || n = 0xA0 || n = 0x1680 || (0x2000 ≤ n && n ≤ 0x200A) ||
    n = 0x2028 || n = 0x2029 || n = 0x202F || n = 0x205F || n = 0x3000 || n = 0xFEFF

/-- `String.prototype.trim`. -/
def ecmaTrim (t : List Char) : List Char := trim isEcmaSpace t

/-- Two concatenations, one of which is longer in every part, are equal part by part. -/
lemma flatMap_eq_iff {β : Type*} {f g : α → List β} {l : List α}
    (h : ∀ a ∈ l, (f a).length ≤ (g a).length) :
    l.flatMap f = l.flatMap g ↔ ∀ a ∈ l, f a = g a := by
  induction l with
  | nil => simp
  | cons a l ih =>
    have htail : ∀ b ∈ l, (f b).length ≤ (g b).length := fun b hb => h b (List.mem_cons_of_mem _ hb)
    rw [List.flatMap_cons, List.flatMap_cons, List.forall_mem_cons, ← ih htail]
    constructor
    · intro heq
      refine List.append_inj heq ?_
      -- neither part may be shorter: the lengths add up
      have hlength := congrArg List.length heq
      have hsum : (l.flatMap f).length ≤ (l.flatMap g).length := by
        rw [List.length_flatMap, List.length_flatMap]
        exact List.sum_le_sum htail
      have hhead := h a List.mem_cons_self
      rw [List.length_append, List.length_append] at hlength
      omega
    · rintro ⟨hhead, hrest⟩
      rw [hhead, hrest]

end Lib
