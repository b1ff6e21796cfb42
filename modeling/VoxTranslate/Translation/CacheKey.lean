import Mathlib.Data.Char
import Mathlib.Data.List.Lex
import Mathlib.Data.List.Sort
import VoxTranslate.Engine.Qwen
import VoxTranslate.Lib.Join

/-!
# The keys of the translation cache (`cache/mod.rs`)

A translation is cached under the hash of one text: the normalised source, the two languages
and the fingerprint of the injected terms, joined by bars.  The fingerprint is the hash of a
text as well: each pair is written with an equals sign, the pair texts are sorted and joined
by commas.  The outer text can be read back, since languages and digests hold no bar.  The
inner one cannot: terms are free text.
-/

namespace VoxTranslate.Translation

open Engine (Text isWhitespace)

/-- The MD5 of a text in hex.  It is assumed to be injective. -/
structure Md5 where
  compute : Text → Text
  injective : Function.Injective compute
  hex : ∀ t, ∀ c ∈ compute t, c ∈ "0123456789abcdef".toList
  ne_nil : ∀ t, compute t ≠ []

lemma Md5.bar_not_mem (md5 : Md5) (t : Text) : '|' ∉ md5.compute t := by
  intro hmem
  exact absurd (md5.hex t _ hmem) (by decide)

/-! ## The key -/

/-- `str::split_whitespace`. -/
def splitWhitespace (text : Text) : List Text :=
  (text.splitOnP isWhitespace).filter fun word => word ≠ []

variable (md5 : Md5) (lower : Text → Text)

/-- One space between words, in lower case; `lower` is `str::to_lowercase`. -/
def normalize (text : Text) : Text := lower ([' '].intercalate (splitWhitespace text))

/-- The text that is hashed: the terms sorted, joined by commas. -/
def joinedTerms (terms : List Text) : Text :=
  [','].intercalate (terms.insertionSort (· ≤ ·))

/-- The fingerprint of a glossary's terms, empty without a glossary. -/
def glossaryFingerprint : Option (List Text) → Text
  | some terms => if terms ≠ [] then md5.compute (joinedTerms terms) else []
  | none => []

/-- The text whose hash is the key. -/
def keyMaterial (text src tgt glossaryFp : Text) : Text :=
  normalize lower text ++ '|' :: (src ++ '|' :: (tgt ++ '|' :: glossaryFp))

def cacheKey (text src tgt glossaryFp : Text) : Text :=
  md5.compute (keyMaterial lower text src tgt glossaryFp)

/-- `"{s}={t}"`, as `translate_fanout` writes an injected pair. -/
def pairText (pair : Text × Text) : Text := pair.1 ++ '=' :: pair.2

/-- One direction of a fan-out, with the pairs that go into its prompt. -/
structure Request where
  text : Text
  src : Text
  tgt : Text
  terms : List (Text × Text)
  deriving DecidableEq

namespace Request

/-- The fingerprint `translate_fanout` computes. -/
def fingerprint (r : Request) : Text := glossaryFingerprint md5 (some (r.terms.map pairText))

/-- The key under which `translate_cached` looks the request up. -/
def key (r : Request) : Text := cacheKey md5 lower r.text r.src r.tgt (r.fingerprint md5)

/-- The language codes of the request hold no bar. -/
def PlainCodes (r : Request) : Prop := '|' ∉ r.src ∧ '|' ∉ r.tgt

instance (r : Request) : Decidable r.PlainCodes := inferInstanceAs (Decidable (_ ∧ _))

/-- The same normalised text, in the same direction. -/
def SameSource (r r' : Request) : Prop :=
  normalize lower r.text = normalize lower r'.text ∧ r.src = r'.src ∧ r.tgt = r'.tgt

/-- The same translation is asked for: the same source with the same pairs, in any order. -/
def SameTranslation (r r' : Request) : Prop := r.SameSource lower r' ∧ r.terms.Perm r'.terms

/-- What the commas cut out of the sorted pair texts. -/
def pieces (r : Request) : List Text :=
  ((r.terms.map pairText).insertionSort (· ≤ ·)).flatMap fun part => part.splitOn ','

/-- Two requests of one source with different pairs whose commas cut the same pieces. -/
def Confusable (r r' : Request) : Prop :=
  r.SameSource lower r' ∧ r.terms ≠ [] ∧ r'.terms ≠ [] ∧ r.pieces = r'.pieces ∧
    ¬ r.terms.Perm r'.terms

variable {md5 lower} {r r' : Request}

/-! ### What the key tells -/

lemma fingerprint_nil (h : r.terms = []) : r.fingerprint md5 = [] := by
  simp [fingerprint, glossaryFingerprint, h]

lemma fingerprint_of_ne_nil (h : r.terms ≠ []) :
    r.fingerprint md5 = md5.compute (joinedTerms (r.terms.map pairText)) := by
  simp [fingerprint, glossaryFingerprint, h]

lemma bar_not_mem_fingerprint : '|' ∉ r.fingerprint md5 := by
  by_cases h : r.terms = []
  · rw [fingerprint_nil h]
    exact List.not_mem_nil
  · rw [fingerprint_of_ne_nil h]
    exact md5.bar_not_mem _

lemma joinedTerms_eq_iff (h : r.terms ≠ []) (h' : r'.terms ≠ []) :
    joinedTerms (r.terms.map pairText) = joinedTerms (r'.terms.map pairText) ↔
      r.pieces = r'.pieces := by
  have hsorted : ∀ {r : Request}, r.terms ≠ [] →
      (r.terms.map pairText).insertionSort (· ≤ ·) ≠ [] := by
    intro r h hnil
    have hlen := List.length_insertionSort (· ≤ ·) (r.terms.map pairText)
    rw [hnil, List.length_map, List.length_nil] at hlen
    exact h (List.length_eq_zero_iff.mp hlen.symm)
  exact Lib.intercalate_eq_iff (hsorted h) (hsorted h')

/-- The fingerprint tells a glossary from none, and otherwise the pieces. -/
lemma fingerprint_eq_iff : r.fingerprint md5 = r'.fingerprint md5 ↔
    (r.terms = [] ∧ r'.terms = []) ∨
      (r.terms ≠ [] ∧ r'.terms ≠ [] ∧ r.pieces = r'.pieces) := by
  by_cases h : r.terms = [] <;> by_cases h' : r'.terms = []
  · simp [fingerprint_nil h, fingerprint_nil h', h, h']
  · rw [fingerprint_nil h, fingerprint_of_ne_nil h']
    simp [h, h', (md5.ne_nil _).symm]
  · rw [fingerprint_of_ne_nil h, fingerprint_nil h']
    simp [h, h', md5.ne_nil]
  · rw [fingerprint_of_ne_nil h, fingerprint_of_ne_nil h', md5.injective.eq_iff,
      joinedTerms_eq_iff h h']
    simp [h, h']

/-- The bars cut the key's text back into its four parts. -/
lemma key_eq_iff (hr : r.PlainCodes) (hr' : r'.PlainCodes) :
    r.key md5 lower = r'.key md5 lower ↔
      r.SameSource lower r' ∧ r.fingerprint md5 = r'.fingerprint md5 := by
  rw [key, key, cacheKey, cacheKey, md5.injective.eq_iff, keyMaterial, keyMaterial]
  constructor
  · intro h
    -- the codes and the fingerprint hold no bar, so the last bar is cut first
    have hlast : ∀ a b c d : Text, a ++ '|' :: (b ++ '|' :: (c ++ '|' :: d)) =
        ((a ++ '|' :: b) ++ '|' :: c) ++ '|' :: d := by simp
    rw [hlast, hlast] at h
    obtain ⟨h, hfp⟩ := Lib.append_cons_inj_of_not_mem_right h bar_not_mem_fingerprint
      bar_not_mem_fingerprint
    obtain ⟨h, htgt⟩ := Lib.append_cons_inj_of_not_mem_right h hr.2 hr'.2
    obtain ⟨htext, hsrc⟩ := Lib.append_cons_inj_of_not_mem_right h hr.1 hr'.1
    exact ⟨⟨htext, hsrc, htgt⟩, hfp⟩
  · rintro ⟨⟨htext, hsrc, htgt⟩, hfp⟩
    rw [htext, hsrc, htgt, hfp]

/-- A pair text cut at its first equals sign. -/
def unpair (part : Text) : Text × Text :=
  (part.takeWhile (· ≠ '='), (part.dropWhile (· ≠ '=')).tail)

lemma unpair_pairText {p : Text × Text} (h : '=' ∉ p.1) : unpair (pairText p) = p := by
  have hpos : ∀ c ∈ p.1, decide (c ≠ '=') = true := by
    intro c hc
    exact decide_eq_true fun heq => h (heq ▸ hc)
  rw [unpair, pairText, List.takeWhile_append_of_pos hpos, List.dropWhile_append_of_pos hpos]
  simp

/-- No term of the glossary holds a comma, and no source term an equals sign. -/
def PlainTerms (r : Request) : Prop :=
  ∀ p ∈ r.terms, ',' ∉ p.1 ∧ ',' ∉ p.2 ∧ '=' ∉ p.1

instance (r : Request) : Decidable r.PlainTerms := inferInstanceAs (Decidable (∀ p ∈ r.terms, _))

lemma PlainTerms.pieces_eq (h : r.PlainTerms) :
    r.pieces = (r.terms.map pairText).insertionSort (· ≤ ·) := by
  refine Lib.flatMap_splitOn_eq_self fun part hpart => ?_
  obtain ⟨p, hp, rfl⟩ := List.mem_map.mp ((List.perm_insertionSort _ _).mem_iff.mp hpart)
  obtain ⟨hs, ht, -⟩ := h p hp
  simp [pairText, hs, ht]

/-- Glossaries with plain terms are never confused. -/
lemma PlainTerms.not_confusable (h : r.PlainTerms) (h' : r'.PlainTerms) :
    ¬ r.Confusable lower r' := by
  rintro ⟨-, -, -, hpieces, hperm⟩
  apply hperm
  rw [h.pieces_eq, h'.pieces_eq] at hpieces
  have htexts : (r.terms.map pairText).Perm (r'.terms.map pairText) := by
    refine (List.perm_insertionSort (· ≤ ·) _).symm.trans ?_
    rw [hpieces]
    exact List.perm_insertionSort (· ≤ ·) _
  have hread : ∀ {r : Request}, r.PlainTerms → (r.terms.map pairText).map unpair = r.terms := by
    intro r h
    rw [List.map_map]
    exact (List.map_congr_left fun p hp => unpair_pairText (h p hp).2.2).trans (List.map_id _)
  rw [← hread h, ← hread h']
  exact htexts.map unpair

end Request

/-- **Two requests that get one key ask for the same translation, except where the commas cut
the sorted pair texts of different glossaries into the same pieces.** -/
theorem key_separates_iff (md5 : Md5) (lower : Text → Text) (r r' : Request)
    (hr : r.PlainCodes) (hr' : r'.PlainCodes) :
    (r.key md5 lower = r'.key md5 lower → r.SameTranslation lower r') ↔
      ¬ r.Confusable lower r' := by
  rw [Request.key_eq_iff hr hr', Request.fingerprint_eq_iff]
  constructor
  · rintro h ⟨hsame, hne, hne', hpieces, hperm⟩
    exact hperm (h ⟨hsame, .inr ⟨hne, hne', hpieces⟩⟩).2
  · rintro h ⟨hsame, ⟨hnil, hnil'⟩ | ⟨hne, hne', hpieces⟩⟩
    · refine ⟨hsame, ?_⟩
      rw [hnil, hnil']
    · by_contra hdiff
      exact h ⟨hsame, hne, hne', hpieces, fun hperm => hdiff ⟨hsame, hperm⟩⟩

/-! ## Concrete digests -/

/-- The digests of the texts below, as MD5 has them. -/
def sampleDigests : List (Text × Text) :=
  [("a=b,c=d".toList, "e30e3a205763e9bbed1be52623d6bb19".toList),
    ("ciao|it|en|e30e3a205763e9bbed1be52623d6bb19".toList,
      "20670c2f7ce37026ba8da9104fd009d0".toList),
    ("causa=lawsuit".toList, "11b8b0c50b9d39145e0a3371db869302".toList),
    ("ciao|it|en|11b8b0c50b9d39145e0a3371db869302".toList,
      "5fede7a23a2de35b71556bbb8c52f9de".toList),
    ("causa=case".toList, "a8a5472e3369a6a05c46b80408e062f7".toList),
    ("ciao|it|en|a8a5472e3369a6a05c46b80408e062f7".toList,
      "299880914108e047b8dd0c7d27713103".toList)]

/-- An injective text of zeros and ones, for every other text. -/
def unary : Text → Text
  | [] => ['0']
  | c :: t => List.replicate c.toNat '1' ++ '0' :: unary t

lemma unary_bits (t : Text) : ∀ c ∈ unary t, c = '0' ∨ c = '1' := by
  induction t with
  | nil => simp [unary]
  | cons c t ih =>
    intro d hd
    rw [unary, List.mem_append, List.mem_cons] at hd
    obtain hd | hd | hd := hd
    · exact .inr (List.eq_of_mem_replicate hd)
    · exact .inl hd
    · exact ih d hd

lemma unary_ne_nil (t : Text) : unary t ≠ [] := by
  cases t <;> simp [unary]

lemma unary_injective : Function.Injective unary := by
  intro t
  induction t with
  | nil =>
    intro t' h
    cases t' with
    | nil => rfl
    | cons c t' =>
      obtain ⟨-, hnil⟩ := Lib.append_cons_inj_of_not_mem_left (a := []) (b := []) h
        List.not_mem_nil (by simp)
      exact absurd hnil.symm (unary_ne_nil t')
  | cons c t ih =>
    intro t' h
    cases t' with
    | nil =>
      obtain ⟨-, hnil⟩ := Lib.append_cons_inj_of_not_mem_left (a := []) (b := []) h.symm
        List.not_mem_nil (by simp)
      exact absurd hnil.symm (unary_ne_nil t)
    | cons c' t' =>
      obtain ⟨hrep, hrest⟩ := Lib.append_cons_inj_of_not_mem_left h (by simp) (by simp)
      have hc : c.toNat = c'.toNat := by simpa using congrArg List.length hrep
      rw [ih hrest, Char.toNat_inj.mp hc]

lemma sampleDigests_spec : ∀ p ∈ sampleDigests,
    p.2 ≠ [] ∧ (p.2.all fun c => c ∈ "0123456789abcdef".toList) = true ∧
      (p.2.any fun c => c ≠ '0' ∧ c ≠ '1') = true ∧
      ∀ q ∈ sampleDigests, p.2 = q.2 → p.1 = q.1 := by
  unfold sampleDigests
  repeat rw [String.toList_ofList]
  decide +kernel

/-- Where the table has no digest, the text's own unary one. -/
lemma lookup_cases (t : Text) :
    (∃ p ∈ sampleDigests, p.1 = t ∧ (sampleDigests.lookup t).getD (unary t) = p.2) ∨
      (sampleDigests.lookup t).getD (unary t) = unary t := by
  cases h : sampleDigests.lookup t with
  | none => exact .inr rfl
  | some d =>
    obtain ⟨l₁, l₂, heq, -⟩ := List.lookup_eq_some_iff.mp h
    refine .inl ⟨(t, d), ?_, rfl, rfl⟩
    rw [heq]
    exact List.mem_append_right _ List.mem_cons_self

/-- A hash that is MD5 on the texts below. -/
def sampleMd5 : Md5 where
  compute t := (sampleDigests.lookup t).getD (unary t)
  injective := by
    have hmixed : ∀ p ∈ sampleDigests, ∀ t, p.2 ≠ unary t := by
      intro p hp t heq
      obtain ⟨c, hc, hother⟩ := List.any_eq_true.mp (sampleDigests_spec p hp).2.2.1
      obtain ⟨h0, h1⟩ := of_decide_eq_true hother
      rw [heq] at hc
      exact (unary_bits t c hc).elim h0 h1
    intro t t' h
    simp only at h
    obtain ⟨p, hp, rfl, hd⟩ | hd := lookup_cases t <;>
      obtain ⟨p', hp', rfl, hd'⟩ | hd' := lookup_cases t' <;> rw [hd, hd'] at h
    · exact (sampleDigests_spec p hp).2.2.2 p' hp' h
    · exact absurd h (hmixed p hp t')
    · exact absurd h.symm (hmixed p' hp' t)
    · exact unary_injective h
  hex := by
    intro t c hc
    obtain ⟨p, hp, -, hd⟩ | hd := lookup_cases t <;> rw [hd] at hc
    · exact of_decide_eq_true (List.all_eq_true.mp (sampleDigests_spec p hp).2.1 c hc)
    · obtain rfl | rfl := unary_bits t c hc <;> decide
  ne_nil := by
    intro t
    obtain ⟨p, hp, -, hd⟩ | hd := lookup_cases t <;> rw [hd]
    · exact (sampleDigests_spec p hp).1
    · exact unary_ne_nil t

/-- ASCII words in lower case. -/
def lowerAscii (t : Text) : Text := t.map Char.toLower

/-- "ciao" from Italian to English, with the given pairs. -/
def ciao (terms : List (String × String)) : Request :=
  ⟨"ciao".toList, "it".toList, "en".toList, terms.map fun p => (p.1.toList, p.2.toList)⟩

theorem key_separates_sample :
    ((ciao [("causa", "lawsuit")]).key sampleMd5 lowerAscii =
        (ciao [("causa", "case")]).key sampleMd5 lowerAscii →
      (ciao [("causa", "lawsuit")]).SameTranslation lowerAscii (ciao [("causa", "case")])) ↔
      ¬ (ciao [("causa", "lawsuit")]).Confusable lowerAscii (ciao [("causa", "case")]) :=
  key_separates_iff sampleMd5 lowerAscii _ _ (by decide) (by decide)

/-- The pairs a → b and c → d, and the single pair a → "b,c=d". -/
theorem two_glossaries_one_key :
    (ciao [("a", "b"), ("c", "d")]).key sampleMd5 lowerAscii =
        (ciao [("a", "b,c=d")]).key sampleMd5 lowerAscii ∧
      (ciao [("a", "b"), ("c", "d")]).PlainCodes ∧ (ciao [("a", "b,c=d")]).PlainCodes ∧
      ¬ (ciao [("a", "b"), ("c", "d")]).SameTranslation lowerAscii (ciao [("a", "b,c=d")]) := by
  refine ⟨?_, by decide, by decide, ?_⟩
  · rw [Request.key_eq_iff (by decide) (by decide), Request.fingerprint_eq_iff]
    exact ⟨⟨rfl, rfl, rfl⟩, .inr ⟨by decide, by decide, by decide⟩⟩
  · rintro ⟨-, hperm⟩
    exact absurd hperm.length_eq (by decide)

end VoxTranslate.Translation
