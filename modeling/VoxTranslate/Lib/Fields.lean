import Mathlib.Data.List.Forall2
import Mathlib.Data.List.Infix
import VoxTranslate.Lib.Join

/-!
# Texts with fields

A text holds fields in between other letters: a field starts where an opening text stands and its
value goes on up to a closing letter.  The fields are found one after the other, each behind the
last, and the closing letter of one may stand in the opening text of the next.  A text is rewritten
by a function on the values; what is not in a value stays as it is.
-/

namespace Lib

variable {α : Type*}

/-- How fields are written. -/
structure FieldStyle (α : Type*) where
  opening : List α
  closing : α
  opening_ne : opening ≠ []

namespace FieldStyle

/-- The opening text stands at the end of `b`, and nowhere before. -/
def FirstEnd (F : FieldStyle α) (b : List α) : Prop :=
  F.opening <:+ b ∧ ∀ c, c <+: b → F.opening <:+ c → c = b

variable {F : FieldStyle α} {t b r v : List α}

lemma firstEnd_opening : F.FirstEnd F.opening :=
  ⟨List.suffix_rfl, fun _ hc hend => hc.eq_of_length_le hend.length_le⟩

lemma FirstEnd.cons {a : α} (h : F.FirstEnd b) (hfirst : ¬ F.opening <+: a :: b) :
    F.FirstEnd (a :: b) := by
  refine ⟨h.1.trans (List.suffix_cons a b), fun c hc hend => ?_⟩
  rcases List.prefix_cons_iff.mp hc with rfl | ⟨d, rfl, hd⟩
  · exact absurd (List.suffix_nil.mp hend) F.opening_ne
  · rcases List.suffix_cons_iff.mp hend with hall | hrest
    · exact absurd (hall ▸ hc) hfirst
    · rw [h.2 d hd hrest]

lemma FirstEnd.tail {a : α} (h : F.FirstEnd (a :: b)) (hfirst : ¬ F.opening <+: a :: b) :
    F.FirstEnd b := by
  have hend : F.opening <:+ b := by
    rcases List.suffix_cons_iff.mp h.1 with hall | hrest
    · exact absurd (hall ▸ List.prefix_rfl) hfirst
    · exact hrest
  refine ⟨hend, fun c hc hcend => ?_⟩
  have hcons := h.2 (a :: c) (List.cons_prefix_cons.mpr ⟨rfl, hc⟩)
    (hcend.trans (List.suffix_cons a c))
  exact (List.cons.inj hcons).2

lemma FirstEnd.ne_nil (h : F.FirstEnd b) : b ≠ [] := by
  rintro rfl
  exact F.opening_ne (List.suffix_nil.mp h.1)

/-- An opening in front of the rest of a text does not reach beyond the first end. -/
lemma FirstEnd.prefix_iff (h : F.FirstEnd b) : F.opening <+: b ++ r ↔ F.opening = b := by
  constructor
  · intro hpre
    have hb : F.opening <+: b :=
      List.prefix_of_prefix_length_le hpre (List.prefix_append b r) h.1.length_le
    exact h.2 _ hb List.suffix_rfl
  · intro heq
    rw [heq]
    exact List.prefix_append b r

variable [DecidableEq α]

/-- Cut a text behind the first opening. -/
def cut (F : FieldStyle α) : List α → Option (List α × List α)
  | [] => none
  | a :: t =>
    if F.opening <+: a :: t then some (F.opening, (a :: t).drop F.opening.length)
    else (F.cut t).map fun c => (a :: c.1, c.2)

/-- **The cut** is where the first opening ends. -/
lemma cut_eq_some_iff : F.cut t = some (b, r) ↔ t = b ++ r ∧ F.FirstEnd b := by
  induction t generalizing b with
  | nil =>
    constructor
    · intro h
      cases h
    · rintro ⟨hnil, hend⟩
      exact absurd (List.append_eq_nil_iff.mp hnil.symm).1 hend.ne_nil
  | cons a t ih =>
    rw [cut]
    by_cases hpre : F.opening <+: a :: t
    · rw [if_pos hpre]
      constructor
      · rintro ⟨⟩
        exact ⟨(List.prefix_iff_eq_append.mp hpre).symm, firstEnd_opening⟩
      · rintro ⟨heq, hend⟩
        rw [heq, hend.prefix_iff] at hpre
        subst hpre
        rw [heq, List.drop_left]
    · rw [if_neg hpre, Option.map_eq_some_iff]
      constructor
      · rintro ⟨c, hc, ⟨⟩⟩
        obtain ⟨rfl, hend⟩ := ih.mp hc
        refine ⟨rfl, hend.cons fun hcons => hpre (hcons.trans ?_)⟩
        exact List.cons_prefix_cons.mpr ⟨rfl, List.prefix_append _ _⟩
      · rintro ⟨heq, hend⟩
        cases b with
        | nil => exact absurd rfl hend.ne_nil
        | cons a' b =>
          obtain ⟨rfl, rfl⟩ := List.cons.inj heq
          refine ⟨(b, r), ih.mpr ⟨rfl, hend.tail fun hcons => hpre (hcons.trans ?_)⟩, rfl⟩
          exact List.cons_prefix_cons.mpr ⟨rfl, List.prefix_append _ _⟩

lemma cut_eq_none_iff : F.cut t = none ↔ ¬ F.opening <:+: t := by
  induction t with
  | nil => simpa [cut] using F.opening_ne
  | cons a t ih =>
    rw [cut, List.infix_cons_iff]
    by_cases hpre : F.opening <+: a :: t
    · simp [hpre]
    · rw [if_neg hpre, Option.map_eq_none_iff, ih]
      simp [hpre]

/-! ### The fields of a text -/

/-- `Splits t fs r`: each of `fs` is what stands in front of a value, up to the end of the opening,
and the value; `r` is the rest, which may hold one more opening but no end of its value. -/
inductive Splits (F : FieldStyle α) : List α → List (List α × List α) → List α → Prop
  | rest {t : List α} : ¬ F.opening <:+: t → Splits F t [] t
  | unterminated {b r : List α} : F.FirstEnd b → F.closing ∉ r → Splits F (b ++ r) [] (b ++ r)
  | field {b v t r : List α} {fs : List (List α × List α)} : F.FirstEnd b → F.closing ∉ v →
      Splits F (F.closing :: t) fs r → Splits F (b ++ v ++ F.closing :: t) ((b, v) :: fs) r

/-- The text that is made of the fields and the rest. -/
def join (fs : List (List α × List α)) (r : List α) : List α :=
  fs.flatMap (fun f => f.1 ++ f.2) ++ r

/-- Rewrite the values. -/
def rewriteFields (F : FieldStyle α) (f : List α → List α) (t : List α) : List α :=
  match _h : F.cut t with
  | none => t
  | some (b, r) =>
    if F.closing ∈ r then
      b ++ f (r.takeWhile fun a => a ≠ F.closing) ++
        F.rewriteFields f (r.dropWhile fun a => a ≠ F.closing)
    else b ++ r
termination_by t.length
decreasing_by
  obtain ⟨rfl, hend⟩ := cut_eq_some_iff.mp _h
  have hpos := List.length_pos_of_ne_nil hend.ne_nil
  have hle := (List.dropWhile_suffix (l := r) fun a => a ≠ F.closing).length_le
  rw [List.length_append]
  omega

variable {fs fs' : List (List α × List α)} {f : List α → List α}

lemma rewriteFields_rest (h : ¬ F.opening <:+: t) : F.rewriteFields f t = t := by
  rw [rewriteFields]
  split
  · rfl
  · next hcut =>
    rw [cut_eq_none_iff.mpr h] at hcut
    cases hcut

lemma rewriteFields_unterminated (hb : F.FirstEnd b) (hr : F.closing ∉ r) :
    F.rewriteFields f (b ++ r) = b ++ r := by
  have hcut : F.cut (b ++ r) = some (b, r) := cut_eq_some_iff.mpr ⟨rfl, hb⟩
  rw [rewriteFields]
  split
  · rfl
  · next hcut' =>
    cases hcut.symm.trans hcut'
    rw [if_neg hr]

lemma rewriteFields_field (hb : F.FirstEnd b) (hv : F.closing ∉ v) :
    F.rewriteFields f (b ++ v ++ F.closing :: t) =
      b ++ f v ++ F.rewriteFields f (F.closing :: t) := by
  have hcut : F.cut (b ++ v ++ F.closing :: t) = some (b, v ++ F.closing :: t) :=
    cut_eq_some_iff.mpr ⟨List.append_assoc _ _ _, hb⟩
  have hall : ∀ a ∈ v, decide (a ≠ F.closing) = true := by
    intro a ha
    exact decide_eq_true fun heq => hv (heq ▸ ha)
  rw [rewriteFields]
  split
  · next hcut' =>
    rw [hcut] at hcut'
    cases hcut'
  · next hcut' =>
    cases hcut.symm.trans hcut'
    rw [if_pos (by simp), List.takeWhile_append_of_pos hall, List.dropWhile_append_of_pos hall]
    simp

/-- **What is not in a value stays**, letter for letter and in order. -/
lemma Splits.rewrite_eq (h : F.Splits t fs r) :
    F.rewriteFields f t = join (fs.map fun x => (x.1, f x.2)) r := by
  induction h with
  | rest hnone => simp [join, rewriteFields_rest hnone]
  | unterminated hb hr => simp [join, rewriteFields_unterminated hb hr]
  | field hb hv _ ih => rw [rewriteFields_field hb hv, ih]; simp [join]

omit [DecidableEq α] in
lemma Splits.join_eq (h : F.Splits t fs r) : t = join fs r := by
  induction h with
  | rest => simp [join]
  | unterminated => simp [join]
  | field _ _ _ ih => rw [ih]; simp [join]

/-- Every text has its fields. -/
lemma exists_splits (F : FieldStyle α) (t : List α) : ∃ fs r, F.Splits t fs r := by
  induction hlength : t.length using Nat.strong_induction_on generalizing t with
  | _ n ih =>
    cases hcut : F.cut t with
    | none => exact ⟨[], t, .rest (cut_eq_none_iff.mp hcut)⟩
    | some c =>
      obtain ⟨b, r⟩ := c
      obtain ⟨rfl, hb⟩ := cut_eq_some_iff.mp hcut
      by_cases hr : F.closing ∈ r
      · obtain ⟨v, u, rfl, hv⟩ := List.eq_append_cons_of_mem hr
        have hless : (F.closing :: u).length < n := by
          have hpos := List.length_pos_of_ne_nil hb.ne_nil
          rw [← hlength]
          simp only [List.length_append, List.length_cons]
          omega
        obtain ⟨fs, r, hrest⟩ := ih _ hless (F.closing :: u) rfl
        rw [← List.append_assoc]
        exact ⟨(b, v) :: fs, r, .field hb hv hrest⟩
      · exact ⟨[], b ++ r, .unterminated hb hr⟩

/-- The fields of a text, read off its first cut. -/
lemma Splits.cut_cases (h : F.Splits t fs r) :
    F.cut t = none ∧ fs = [] ∧ r = t ∨
    (∃ b u, F.cut t = some (b, u) ∧ F.closing ∉ u ∧ fs = [] ∧ r = t) ∨
    ∃ b v u gs, F.cut t = some (b, v ++ F.closing :: u) ∧ F.closing ∉ v ∧
      F.Splits (F.closing :: u) gs r ∧ fs = (b, v) :: gs := by
  cases h with
  | rest hnone => exact .inl ⟨cut_eq_none_iff.mpr hnone, rfl, rfl⟩
  | unterminated hb hr => exact .inr (.inl ⟨_, _, cut_eq_some_iff.mpr ⟨rfl, hb⟩, hr, rfl, rfl⟩)
  | field hb hv hrest =>
    exact .inr (.inr
      ⟨_, _, _, _, cut_eq_some_iff.mpr ⟨List.append_assoc _ _ _, hb⟩, hv, hrest, rfl⟩)

/-- **A text has its fields in one way.** -/
lemma Splits.unique {r' : List α} (h : F.Splits t fs r) (h' : F.Splits t fs' r') :
    fs = fs' ∧ r = r' := by
  induction h generalizing fs' r' with
  | rest hnone =>
    have hcut := cut_eq_none_iff.mpr hnone
    rcases h'.cut_cases with ⟨-, rfl, rfl⟩ | ⟨b, u, hsome, -⟩ | ⟨b, v, u, gs, hsome, -⟩
    · exact ⟨rfl, rfl⟩
    · cases hcut.symm.trans hsome
    · cases hcut.symm.trans hsome
  | @unterminated b r hb hr =>
    have hcut : F.cut (b ++ r) = some (b, r) := cut_eq_some_iff.mpr ⟨rfl, hb⟩
    rcases h'.cut_cases with ⟨-, rfl, rfl⟩ | ⟨b', u, -, -, rfl, rfl⟩ | ⟨b', v, u, gs, hsome, -⟩
    · exact ⟨rfl, rfl⟩
    · exact ⟨rfl, rfl⟩
    · cases hcut.symm.trans hsome
      exact absurd (by simp) hr
  | @field b v t r fs hb hv hrest ih =>
    have hcut : F.cut (b ++ v ++ F.closing :: t) = some (b, v ++ F.closing :: t) :=
      cut_eq_some_iff.mpr ⟨List.append_assoc _ _ _, hb⟩
    rcases h'.cut_cases with ⟨hnone, -⟩ | ⟨b', u, hsome, hout, -⟩ |
      ⟨b', v', u, gs, hsome, hv', hgs, rfl⟩
    · cases hcut.symm.trans hnone
    · cases hcut.symm.trans hsome
      exact absurd (by simp) hout
    · obtain ⟨rfl, heq⟩ := Prod.mk.inj (Option.some.inj (hcut.symm.trans hsome))
      obtain ⟨rfl, rfl⟩ := append_cons_inj_of_not_mem_left heq hv hv'
      obtain ⟨rfl, rfl⟩ := ih hgs
      exact ⟨rfl, rfl⟩

/-! ### Rewriting -/

/-- The first letter is in no value. -/
lemma exists_rewriteFields_cons (F : FieldStyle α) (f : List α → List α) (a : α) (t : List α) :
    ∃ u, F.rewriteFields f (a :: t) = a :: u := by
  obtain ⟨fs, r, h⟩ := F.exists_splits (a :: t)
  generalize ht : a :: t = t' at h
  cases h with
  | rest hnone =>
    subst ht
    exact ⟨t, rewriteFields_rest hnone⟩
  | unterminated hb hr =>
    rw [rewriteFields_unterminated hb hr, ← ht]
    exact ⟨t, rfl⟩
  | @field b v u r fs hb hv hrest =>
    obtain ⟨c, b, rfl⟩ := List.exists_cons_of_ne_nil hb.ne_nil
    obtain ⟨rfl, -⟩ := List.cons.inj ht
    rw [rewriteFields_field hb hv]
    exact ⟨_, rfl⟩

/-- Where no value gets a closing letter, the fields of the text are those of the text before. -/
lemma Splits.rewrite (h : F.Splits t fs r) (hf : ∀ v, F.closing ∉ v → F.closing ∉ f v) :
    F.Splits (F.rewriteFields f t) (fs.map fun x => (x.1, f x.2)) r := by
  induction h with
  | rest hnone =>
    rw [rewriteFields_rest hnone]
    exact .rest hnone
  | unterminated hb hr =>
    rw [rewriteFields_unterminated hb hr]
    exact .unterminated hb hr
  | @field b v t r fs hb hv hrest ih =>
    obtain ⟨u, hu⟩ := exists_rewriteFields_cons F f F.closing t
    rw [rewriteFields_field hb hv]
    rw [hu] at ih ⊢
    exact .field hb (hf v hv) ih

/-- **Rewriting again changes nothing** where the function changes nothing again. -/
lemma rewriteFields_idem (hf : ∀ v, F.closing ∉ v → F.closing ∉ f v)
    (hidem : ∀ v, f (f v) = f v) (t : List α) :
    F.rewriteFields f (F.rewriteFields f t) = F.rewriteFields f t := by
  obtain ⟨fs, r, h⟩ := F.exists_splits t
  rw [(h.rewrite hf).rewrite_eq, h.rewrite_eq, List.map_map]
  congr 1
  exact List.map_congr_left fun x _ => by rw [Function.comp_apply, hidem]

/-- **Two texts are rewritten to the same text** exactly when they differ in their values only, and
the function tells no two of these apart. -/
lemma rewriteFields_eq_iff {t' r' : List α} (hf : ∀ v, F.closing ∉ v → F.closing ∉ f v)
    (h : F.Splits t fs r) (h' : F.Splits t' fs' r') :
    F.rewriteFields f t = F.rewriteFields f t' ↔
      List.Forall₂ (fun x x' => x.1 = x'.1 ∧ f x.2 = f x'.2) fs fs' ∧ r = r' := by
  have hmaps : List.Forall₂ (fun x x' => x.1 = x'.1 ∧ f x.2 = f x'.2) fs fs' ↔
      fs.map (fun x => (x.1, f x.2)) = fs'.map fun x => (x.1, f x.2) := by
    have heq : List.Forall₂ Eq (fs.map fun x => (x.1, f x.2)) (fs'.map fun x => (x.1, f x.2)) ↔
        fs.map (fun x => (x.1, f x.2)) = fs'.map fun x => (x.1, f x.2) := by
      rw [List.forall₂_eq_eq_eq]
    rw [← heq, List.forall₂_map_left_iff, List.forall₂_map_right_iff]
    simp only [Prod.mk.injEq]
  rw [hmaps]
  constructor
  · intro heq
    have hsplit := h.rewrite hf
    rw [heq] at hsplit
    exact hsplit.unique (h'.rewrite hf)
  · rintro ⟨hfs, rfl⟩
    rw [h.rewrite_eq, h'.rewrite_eq, hfs]

end FieldStyle

/-! ### The last separator -/

variable [DecidableEq α] {x : α}

/-- Cut a text at the last separator. -/
def rsplitOnce (x : α) : List α → Option (List α × List α)
  | [] => none
  | a :: t =>
    match rsplitOnce x t with
    | some c => some (a :: c.1, c.2)
    | none => if a = x then some ([], t) else none

lemma rsplitOnce_eq_none_iff {t : List α} : rsplitOnce x t = none ↔ x ∉ t := by
  induction t with
  | nil => simp [rsplitOnce]
  | cons a t ih =>
    rw [rsplitOnce]
    cases hrest : rsplitOnce x t with
    | some c =>
      have hin : x ∈ t := by
        by_contra hout
        rw [ih.mpr hout] at hrest
        cases hrest
      simp [hin]
    | none =>
      have hout := ih.mp hrest
      by_cases ha : a = x
      · simp [ha]
      · simp [ha, hout, Ne.symm ha]

lemma rsplitOnce_eq_some_iff {t b r : List α} :
    rsplitOnce x t = some (b, r) ↔ t = b ++ x :: r ∧ x ∉ r := by
  induction t generalizing b r with
  | nil => simp [rsplitOnce]
  | cons a t ih =>
    rw [rsplitOnce]
    cases hrest : rsplitOnce x t with
    | some c =>
      obtain ⟨c, d⟩ := c
      obtain ⟨rfl, hout⟩ := ih.mp hrest
      constructor
      · rintro ⟨⟩
        exact ⟨rfl, hout⟩
      · rintro ⟨heq, hr⟩
        have hinj : a :: c = b ∧ d = r :=
          append_cons_inj_of_not_mem_right (by rw [← heq, List.cons_append]) hout hr
        exact congrArg some (Prod.ext hinj.1 hinj.2)
    | none =>
      have hout := rsplitOnce_eq_none_iff.mp hrest
      constructor
      · intro h
        obtain ⟨rfl, ⟨⟩⟩ := Option.ite_none_right_eq_some.mp h
        exact ⟨rfl, hout⟩
      · rintro ⟨heq, hr⟩
        cases b with
        | nil =>
          obtain ⟨rfl, rfl⟩ := List.cons.inj heq
          exact if_pos rfl
        | cons a' b =>
          obtain ⟨-, rfl⟩ := List.cons.inj heq
          exact absurd (by simp) hout

end Lib
