import Mathlib.Data.List.Infix
import Mathlib.Tactic.Common

/-!
# Texts with tags

A text is marked up when its angle brackets stand only for tags of a list and its ampersands only
for entities of another.  Such a text may be cut wherever a letter stands that is in no tag and in
no entity, and what is seen of it are its letters without the tags.
-/

namespace Lib.Markup

/-- The tag of a name. -/
def tag (name : List Char) : List Char := '<' :: name ++ ['>']

/-- Letters that do not stand for themselves. -/
def isSpecial (c : Char) : Bool := c = '<' || c = '>' || c = '&'

/-- The texts whose special letters stand for tags and entities. -/
inductive Marked (names entities : List (List Char)) : List Char → Prop
  | nil : Marked names entities []
  | tag {name l : List Char} : name ∈ names → Marked names entities l →
      Marked names entities (Markup.tag name ++ l)
  | entity {e l : List Char} : e ∈ entities → Marked names entities l →
      Marked names entities (e ++ l)
  | char {c : Char} {l : List Char} : isSpecial c = false → Marked names entities l →
      Marked names entities (c :: l)

/-- What is seen: the letters that are not in a tag. -/
def visible : List Char → List Char
  | [] => []
  | c :: l => if c = '<' then hidden l else c :: visible l
where
  /-- Up to the end of the tag. -/
  hidden : List Char → List Char
  | [] => []
  | c :: l => if c = '>' then visible l else hidden l

section Marked

variable {names entities : List (List Char)} {a b l : List Char} {c : Char} {name : List Char}

lemma Marked.append (ha : Marked names entities a) (hb : Marked names entities b) :
    Marked names entities (a ++ b) := by
  induction ha with
  | nil => exact hb
  | tag hname _ ih =>
    rw [List.append_assoc]
    exact .tag hname ih
  | entity he _ ih =>
    rw [List.append_assoc]
    exact .entity he ih
  | char hc _ ih => exact .char hc ih

lemma Marked.of_tag (h : name ∈ names) : Marked names entities (Markup.tag name) := by
  rw [← List.append_nil (Markup.tag name)]
  exact .tag h .nil

lemma Marked.of_entity {e : List Char} (h : e ∈ entities) : Marked names entities e := by
  rw [← List.append_nil e]
  exact .entity h .nil

lemma Marked.flatMap {β : Type*} {f : β → List Char} {xs : List β}
    (h : ∀ x ∈ xs, Marked names entities (f x)) : Marked names entities (xs.flatMap f) := by
  induction xs with
  | nil => exact .nil
  | cons x xs ih =>
    rw [List.flatMap_cons]
    exact (h x List.mem_cons_self).append (ih fun y hy => h y (List.mem_cons_of_mem _ hy))

/-- A letter stands in no tag and in no entity. -/
structure Free (names entities : List (List Char)) (c : Char) : Prop where
  plain : isSpecial c = false
  tags : ∀ name ∈ names, c ∉ name
  entities : ∀ e ∈ entities, c ∉ e

/-- What stands before a letter that is in no word of a text, when a word comes first. -/
lemma prefix_of_notMem {w a b l : List Char} (hc : c ∉ w) (h : w ++ l = a ++ c :: b) :
    ∃ a', a = w ++ a' ∧ l = a' ++ c :: b := by
  rcases List.append_eq_append_iff.mp h with ⟨a', ha, hl⟩ | ⟨w', hw, hl⟩
  · exact ⟨a', ha, hl⟩
  · cases w' with
    | nil => exact ⟨[], by rw [List.append_nil]; simpa using hw.symm, hl.symm⟩
    | cons d w' =>
      rw [List.cons_append] at hl
      cases hl
      exact absurd (hw ▸ List.mem_append_right _ List.mem_cons_self) hc

/-- **A text may be cut at a letter that stands in no tag.** -/
lemma Marked.split (hfree : Free names entities c) (h : Marked names entities (a ++ c :: b)) :
    Marked names entities a ∧ Marked names entities b := by
  generalize hl : a ++ c :: b = l at h
  induction h generalizing a with
  | nil => simp at hl
  | @tag name l hname h ih =>
    have hnot : c ∉ Markup.tag name := by
      have hplain := hfree.plain
      simp only [isSpecial, Bool.or_eq_false_iff, decide_eq_false_iff_not] at hplain
      simp [Markup.tag, hplain.1.1, hplain.1.2, hfree.tags name hname]
    obtain ⟨a', rfl, hrest⟩ := prefix_of_notMem hnot hl.symm
    obtain ⟨ha', hb⟩ := ih hrest.symm
    exact ⟨.tag hname ha', hb⟩
  | @entity e l he h ih =>
    obtain ⟨a', rfl, hrest⟩ := prefix_of_notMem (hfree.entities e he) hl.symm
    obtain ⟨ha', hb⟩ := ih hrest.symm
    exact ⟨.entity he ha', hb⟩
  | @char d l hd h ih =>
    cases a with
    | nil =>
      cases hl
      exact ⟨.nil, h⟩
    | cons a₀ a =>
      cases hl
      obtain ⟨ha, hb⟩ := ih rfl
      exact ⟨.char hd ha, hb⟩

lemma Marked.tail (hfree : Free names entities c) (h : Marked names entities (c :: b)) :
    Marked names entities b := (Marked.split hfree (a := []) h).2

/-! ## What is seen -/

lemma hidden_append (h : '>' ∉ name) (l : List Char) :
    visible.hidden (name ++ '>' :: l) = visible l := by
  induction name with
  | nil => simp [visible.hidden]
  | cons c name ih =>
    rw [List.mem_cons, not_or] at h
    rw [List.cons_append, visible.hidden, if_neg (Ne.symm h.1), ih h.2]

/-- A tag is not seen. -/
lemma visible_tag (h : '>' ∉ name) (l : List Char) :
    visible (Markup.tag name ++ l) = visible l := by
  rw [Markup.tag, List.cons_append, List.cons_append, visible, if_pos rfl, List.append_assoc,
    List.singleton_append, hidden_append h]

lemma visible_plain (h : '<' ∉ a) (l : List Char) : visible (a ++ l) = a ++ visible l := by
  induction a with
  | nil => rfl
  | cons c a ih =>
    rw [List.mem_cons, not_or] at h
    rw [List.cons_append, visible, if_neg (Ne.symm h.1), ih h.2, List.cons_append]

lemma Marked.visible_append (hnames : ∀ name ∈ names, '>' ∉ name)
    (hentities : ∀ e ∈ entities, '<' ∉ e) (ha : Marked names entities a) (b : List Char) :
    visible (a ++ b) = visible a ++ visible b := by
  induction ha with
  | nil => rfl
  | @tag name l hname _ ih =>
    rw [List.append_assoc, visible_tag (hnames name hname), visible_tag (hnames name hname), ih]
  | @entity e l he _ ih =>
    rw [List.append_assoc, visible_plain (hentities e he), visible_plain (hentities e he), ih,
      List.append_assoc]
  | @char c l hc _ ih =>
    have hne : c ≠ '<' := by
      rintro rfl
      cases hc
    rw [List.cons_append, visible, if_neg hne, ih, visible, if_neg hne, List.cons_append]

end Marked

end Lib.Markup
