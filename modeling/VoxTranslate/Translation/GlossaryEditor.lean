import VoxTranslate.Engine.Qwen
import VoxTranslate.Lib.Distinct
import VoxTranslate.Lib.Place

/-!
# The glossary editor (`scripts/glossary.ts`, `normalize_entries` in `glossary.rs`)

The server holds term pairs in any direction.  The editor shows them as rows: the language of the
first entry is the primary one, every source term of that language is a row, and the cells of a row
are what the primary entries say.  Saving sends every ordered pair of the cells of every row.
-/

namespace VoxTranslate.Translation.GlossaryEditor

open Engine (Text isWhitespace)
open Lib

/-- A pair of terms of two languages. -/
structure Pair (α : Type) where
  sourceLang : Text
  targetLang : Text
  sourceTerm : α
  targetTerm : α
  deriving DecidableEq, Repr

abbrev TermEntry := Pair Text

/-- What the table keeps unique in a room. -/
def TermEntry.key (e : TermEntry) : Text × Text × Text := (e.sourceLang, e.targetLang, e.sourceTerm)

/-! ## The server -/

/-- `str::to_lowercase`. -/
structure Lowercase where
  apply : Text → Text
  idem : ∀ t, apply (apply t) = apply t
  trimmed : ∀ t, t.trim = t → (apply t).trim = apply t

/-- `str::len`. -/
def utf8Length (t : Text) : Nat := (t.map Char.utf8Size).sum

/-- The entry with its fields trimmed, and its codes in lower case. -/
def tidy (lower : Lowercase) (e : TermEntry) : TermEntry :=
  ⟨lower.apply (Text.trim e.sourceLang), lower.apply (Text.trim e.targetLang),
    Text.trim e.sourceTerm, Text.trim e.targetTerm⟩

/-- What is wrong with a trimmed entry. -/
def fault (e : TermEntry) : Option String :=
  if e.sourceLang = [] ∨ e.targetLang = [] then some "missing language code"
  else if 10 < utf8Length e.sourceLang ∨ 10 < utf8Length e.targetLang then
    some "language code too long"
  else if e.sourceLang = e.targetLang then some "source and target language are the same"
  else if e.sourceTerm = [] ∨ e.targetTerm = [] then some "empty term"
  else if 200 < e.sourceTerm.length ∨ 200 < e.targetTerm.length then
    some "term too long (max 200 chars)"
  else none

/-- Of the entries of one key the last is kept, in its place. -/
def lastWins (es : List TermEntry) : List TermEntry :=
  es.foldr (fun e kept => if kept.any (fun k => k.key = e.key) then kept else e :: kept) []

def normalizeEntries (lower : Lowercase) (raw : List TermEntry) (max : Nat) :
    Except String (List TermEntry) :=
  let cleaned := raw.map (tidy lower)
  match cleaned.zipIdx.findSome? fun (e, i) => (fault e).map fun m => s!"entry {i + 1}: {m}" with
  | some message => .error message
  | none =>
    let deduped := lastWins cleaned
    if max < deduped.length then .error s!"too many entries (max {max})" else .ok deduped

/-! ## The editor -/

/-- The value of a text input, which holds no line break. -/
def inputValue (t : Text) : Text := t.filter fun c => c ≠ '\n' && c ≠ '\r'

/-- What is saved of a term that is loaded. -/
def shownAs (t : Text) : Text := ecmaTrim (inputValue t)

/-- The languages of the entries, in their order. -/
def langs (es : List TermEntry) : List Text :=
  (es.flatMap fun e => [e.sourceLang, e.targetLang]).eraseDups

/-- The language of the first entry. -/
def primary (es : List TermEntry) : Text := (es.head?.map Pair.sourceLang).getD []

/-- The rows, by their terms in the primary language. -/
def terms (es : List TermEntry) : List Text :=
  ((es.filter fun e => e.sourceLang = primary es).map Pair.sourceTerm).eraseDups

/-- The term of a row in a language. -/
def concept (es : List TermEntry) (term lang : Text) : Option Text :=
  if lang = primary es then some term
  else
    (es.find? fun e => e.sourceLang = primary es ∧ e.targetLang = lang ∧ e.sourceTerm = term).map
      Pair.targetTerm

/-- A row is empty where there are no entries. -/
def entriesToConcepts (es : List TermEntry) : List (Text → Option Text) :=
  if es = [] then [fun _ => none] else (terms es).map (concept es)

/-- A property of an object that is a text, or the prototype of the object. -/
inductive Cell where
  | text (t : Text)
  | object
  deriving DecidableEq, Repr

/-- The key under which an object has its prototype. -/
def protoKey : Text := ['_', '_', 'p', 'r', 'o', 't', 'o', '_', '_']

/-- A cell that is filled.  Under the key of the prototype nothing can be put, and the prototype is
found. -/
def cellValue (lang value : Text) : Option Cell :=
  if lang = protoKey then some .object
  else if ecmaTrim value ≠ [] then some (.text (ecmaTrim value)) else none

/-- The filled cells of a row. -/
def cells (langs : List Text) (row : Text → Option Text) : List (Text × Cell) :=
  langs.filterMap fun l => (cellValue l (inputValue ((row l).getD []))).map (l, ·)

/-- Every cell with every other one. -/
def pairs {α : Type} (cells : List (Text × α)) : List (Pair α) :=
  cells.flatMap fun a => (cells.filter fun b => b.1 ≠ a.1).map fun b => ⟨a.1, b.1, a.2, b.2⟩

/-- What is sent; nothing where a row has one filled cell only. -/
def collectConcepts (langs : List Text) (rows : List (Text → Option Text)) :
    Option (List (Pair Cell)) :=
  if rows.any fun row => (cells langs row).length = 1 then none
  else some (rows.flatMap fun row => pairs (cells langs row))

/-- A pair as the server reads it: its terms have to be texts. -/
def received : Pair Cell → Option TermEntry
  | ⟨a, b, .text s, .text t⟩ => some ⟨a, b, s, t⟩
  | _ => none

/-- The columns of an editor without entries. -/
def defaultLangs : List Text := [['e', 'n'], ['i', 't']]

/-- The entries after they were loaded, and saved without an edit. -/
def loadAndSave (lower : Lowercase) (max : Nat) (es : List TermEntry) :
    Option (List TermEntry) := do
  let sent ← collectConcepts (if es = [] then defaultLangs else langs es) (entriesToConcepts es)
  if sent.any fun p => (received p).isNone then none
  else (normalizeEntries lower (sent.filterMap received) max).toOption

/-! ## Tables -/

/-- What the last row with these two cells says. -/
def tableEntry (es : List TermEntry) (a b : Text) (s : Text) : Option Text :=
  ((terms es).reverse.find? fun w => concept es w a = some s ∧ (concept es w b).isSome).bind
    fun w => concept es w b

/-- The entries are the pairs of their own rows, and their terms survive an input. -/
structure IsTable (es : List TermEntry) : Prop where
  plain : ∀ l ∈ langs es, l ≠ protoKey
  survives : ∀ e ∈ es, e.sourceLang = primary es →
    shownAs e.sourceTerm = e.sourceTerm ∧ shownAs e.targetTerm = e.targetTerm
  rows : ∀ e, e ∈ es ↔
    e.sourceLang ≠ e.targetLang ∧
      tableEntry es e.sourceLang e.targetLang e.sourceTerm = some e.targetTerm

/-! ## What the server keeps -/

section Server

variable {lower : Lowercase} {raw es : List TermEntry} {e : TermEntry} {max : Nat}

lemma fault_eq_none_iff : fault e = none ↔
    ¬ (e.sourceLang = [] ∨ e.targetLang = []) ∧
    ¬ (10 < utf8Length e.sourceLang ∨ 10 < utf8Length e.targetLang) ∧
    e.sourceLang ≠ e.targetLang ∧ ¬ (e.sourceTerm = [] ∨ e.targetTerm = []) ∧
    ¬ (200 < e.sourceTerm.length ∨ 200 < e.targetTerm.length) := by
  unfold fault
  split_ifs <;> simp_all

lemma normalizeEntries_eq_ok_iff : normalizeEntries lower raw max = .ok es ↔
    (∀ e ∈ raw, fault (tidy lower e) = none) ∧ es = lastWins (raw.map (tidy lower)) ∧
      es.length ≤ max := by
  have hfaults : ((raw.map (tidy lower)).zipIdx.findSome? fun (e, i) =>
      (fault e).map fun m => s!"entry {i + 1}: {m}") = none ↔
      ∀ e ∈ raw, fault (tidy lower e) = none := by
    rw [List.findSome?_eq_none_iff]
    constructor
    · intro h e he
      obtain ⟨i, hi⟩ := List.mem_iff_getElem?.mp (List.mem_map_of_mem (f := tidy lower) he)
      have hmem : (tidy lower e, i) ∈ (raw.map (tidy lower)).zipIdx :=
        List.mem_zipIdx_iff_getElem?.mpr hi
      exact Option.map_eq_none_iff.mp (h _ hmem)
    · rintro h ⟨e', i⟩ hmem
      have hin := List.mem_iff_getElem?.mpr ⟨i, List.mem_zipIdx_iff_getElem?.mp hmem⟩
      obtain ⟨e, he, rfl⟩ := List.mem_map.mp hin
      exact Option.map_eq_none_iff.mpr (h e he)
  unfold normalizeEntries
  dsimp only
  split
  next message hmessage =>
    constructor
    · intro h
      cases h
    · rintro ⟨h, -⟩
      rw [hfaults.mpr h] at hmessage
      cases hmessage
  next hnone =>
    by_cases hmax : max < (lastWins (raw.map (tidy lower))).length
    · rw [if_pos hmax]
      constructor
      · intro h
        cases h
      · rintro ⟨-, heq, hlength⟩
        rw [heq] at hlength
        omega
    · rw [if_neg hmax]
      constructor
      · intro h
        cases h
        exact ⟨hfaults.mp hnone, rfl, by omega⟩
      · rintro ⟨-, rfl, -⟩
        rfl

lemma lastWins_cons (e : TermEntry) (es : List TermEntry) : lastWins (e :: es) =
    if (lastWins es).any (fun k => k.key = e.key) then lastWins es else e :: lastWins es := rfl

lemma lastWins_sublist (es : List TermEntry) : (lastWins es).Sublist es := by
  induction es with
  | nil => exact List.Sublist.refl _
  | cons e es ih =>
    rw [lastWins_cons]
    split_ifs
    · exact ih.cons e
    · exact ih.cons_cons e

lemma nodup_keys_lastWins (es : List TermEntry) : ((lastWins es).map TermEntry.key).Nodup := by
  induction es with
  | nil => exact List.nodup_nil
  | cons e es ih =>
    rw [lastWins_cons]
    split_ifs with h
    · exact ih
    · refine List.nodup_cons.mpr ⟨fun hmem => h ?_, ih⟩
      obtain ⟨k, hk, heq⟩ := List.mem_map.mp hmem
      exact List.any_eq_true.mpr ⟨k, hk, decide_eq_true heq⟩

/-- Of the entries of one key the last is found, where there is one. -/
lemma find?_lastWins (es : List TermEntry) (k : Text × Text × Text) :
    (lastWins es).find? (fun x => x.key = k) = es.reverse.find? fun x => x.key = k := by
  induction es with
  | nil => rfl
  | cons e es ih =>
    rw [lastWins_cons, List.reverse_cons, List.find?_append, ← ih]
    by_cases hany : (lastWins es).any (fun x => x.key = e.key) = true
    · rw [if_pos hany]
      cases hfind : (lastWins es).find? fun x => x.key = k with
      | some x => rfl
      | none =>
        have hne : e.key ≠ k := by
          rintro rfl
          obtain ⟨x, hx, hxe⟩ := List.any_eq_true.mp hany
          exact (List.find?_eq_none.mp hfind x hx) hxe
        simp [hne]
    · rw [if_neg hany]
      by_cases hk : e.key = k
      · have hnone : (lastWins es).find? (fun x => x.key = k) = none := by
          rw [List.find?_eq_none]
          intro x hx hxk
          refine hany (List.any_eq_true.mpr ⟨x, hx, ?_⟩)
          rw [hk]
          exact hxk
        rw [hnone, List.find?_cons_of_pos (by simpa using hk)]
        simp [hk]
      · rw [List.find?_cons_of_neg (by simpa using hk)]
        simp [hk]

/-- In a list of distinct keys an entry is what is found under its key. -/
lemma find?_key_iff (h : (es.map TermEntry.key).Nodup) :
    es.find? (fun x => x.key = e.key) = some e ↔ e ∈ es := by
  constructor
  · exact List.mem_of_find?_eq_some
  · intro he
    cases hfind : es.find? fun x => x.key = e.key with
    | none =>
      have hne := List.find?_eq_none.mp hfind e he
      exact absurd (decide_eq_true rfl) hne
    | some x =>
      have hx := List.mem_of_find?_eq_some hfind
      have hkey : x.key = e.key := by simpa using List.find?_some hfind
      rw [List.inj_on_of_nodup_map h hx he hkey]

lemma mem_lastWins_iff :
    e ∈ lastWins es ↔ es.reverse.find? (fun x => x.key = e.key) = some e := by
  rw [← find?_lastWins, find?_key_iff (nodup_keys_lastWins es)]

end Server

/-- What the server holds, in whatever order it is loaded. -/
structure Held (lower : Lowercase) (max : Nat) (es : List TermEntry) : Prop where
  keys : (es.map TermEntry.key).Nodup
  tidied : ∀ e ∈ es, tidy lower e = e
  sound : ∀ e ∈ es, fault e = none
  few : es.length ≤ max

lemma tidy_tidy (lower : Lowercase) (e : TermEntry) : tidy lower (tidy lower e) = tidy lower e := by
  have hcode : ∀ t : Text, lower.apply (lower.apply t.trim).trim = lower.apply t.trim := fun t => by
    rw [lower.trimmed _ (Text.trim_trim t), lower.idem]
  simp only [tidy, hcode, Text.trim_trim]

lemma held_of_load {lower : Lowercase} {raw stored es : List TermEntry} {max : Nat}
    (h : normalizeEntries lower raw max = .ok stored) (hload : es.Perm stored) :
    Held lower max es := by
  obtain ⟨hfaults, rfl, hlength⟩ := normalizeEntries_eq_ok_iff.mp h
  have htidy : ∀ e ∈ es, ∃ e' ∈ raw, tidy lower e' = e := fun e he =>
    List.mem_map.mp ((lastWins_sublist _).subset (hload.subset he))
  refine ⟨?_, ?_, ?_, hload.length_eq.trans_le hlength⟩
  · exact (hload.map _).nodup_iff.mpr (nodup_keys_lastWins _)
  · intro e he
    obtain ⟨e', -, rfl⟩ := htidy e he
    exact tidy_tidy lower e'
  · intro e he
    obtain ⟨e', he', rfl⟩ := htidy e he
    exact hfaults e' he'

/-! ## Rows -/

section Rows

variable {lower : Lowercase} {max : Nat} {es : List TermEntry} {e : TermEntry}
  {w l a b s t : Text}

lemma mem_langs_iff : l ∈ langs es ↔ ∃ e ∈ es, l = e.sourceLang ∨ l = e.targetLang := by
  simp [langs, List.mem_eraseDups]

lemma mem_terms_iff :
    w ∈ terms es ↔ ∃ e ∈ es, e.sourceLang = primary es ∧ e.sourceTerm = w := by
  simp [terms, List.mem_eraseDups, and_assoc]

lemma nodup_terms (es : List TermEntry) : (terms es).Nodup := nodup_eraseDups _

lemma nodup_langs (es : List TermEntry) : (langs es).Nodup := nodup_eraseDups _

/-- The entries of the primary language are what the rows say. -/
lemma Held.concept_iff (h : Held lower max es) (hl : l ≠ primary es) :
    concept es w l = some t ↔ ⟨primary es, l, w, t⟩ ∈ es := by
  rw [concept, if_neg hl, Option.map_eq_some_iff]
  constructor
  · rintro ⟨e, hfind, rfl⟩
    have hkey := List.find?_some hfind
    rw [decide_eq_true_eq] at hkey
    obtain ⟨hsource, rfl, rfl⟩ := hkey
    rw [← hsource]
    exact List.mem_of_find?_eq_some hfind
  · intro hmem
    have hfind := (find?_key_iff h.keys).mpr hmem
    refine ⟨⟨primary es, l, w, t⟩, ?_, rfl⟩
    rw [← hfind]
    congr 1
    funext x
    simp only [TermEntry.key, Prod.mk.injEq]

lemma concept_primary : concept es w (primary es) = some w := if_pos rfl

/-- The languages of a row are those of the entries. -/
lemma Held.mem_langs_of_concept (h : Held lower max es) (hw : w ∈ terms es)
    (hl : concept es w l = some t) : l ∈ langs es := by
  by_cases hprimary : l = primary es
  · obtain ⟨e, he, hsource, -⟩ := mem_terms_iff.mp hw
    exact mem_langs_iff.mpr ⟨e, he, .inl (hprimary.trans hsource.symm)⟩
  · exact mem_langs_iff.mpr ⟨_, (h.concept_iff hprimary).mp hl, .inr rfl⟩

/-- A row has another cell than that of the primary language. -/
lemma Held.exists_translation (h : Held lower max es) (hw : w ∈ terms es) :
    ∃ l t, l ≠ primary es ∧ concept es w l = some t := by
  obtain ⟨e, he, hsource, rfl⟩ := mem_terms_iff.mp hw
  have hne := (fault_eq_none_iff.mp (h.sound e he)).2.2.1
  have hl : e.targetLang ≠ primary es := hsource ▸ hne.symm
  refine ⟨e.targetLang, e.targetTerm, hl, (h.concept_iff hl).mpr ?_⟩
  rw [← hsource]
  exact he

/-- The cells of a row, as they are saved. -/
def shownRow (es : List TermEntry) (w : Text) : List (Text × Text) :=
  (langs es).filterMap fun l =>
    (((concept es w l).map shownAs).filter fun t => t ≠ []).map (l, ·)

/-- The entries of a table that is saved. -/
def savedPairs (es : List TermEntry) : List TermEntry :=
  (terms es).flatMap fun w => pairs (shownRow es w)

lemma mem_shownRow_iff : (l, t) ∈ shownRow es w ↔
    l ∈ langs es ∧ ∃ u, concept es w l = some u ∧ shownAs u = t ∧ t ≠ [] := by
  simp only [shownRow, List.mem_filterMap, Option.map_eq_some_iff, Option.filter_eq_some_iff,
    decide_eq_true_eq, Prod.mk.injEq]
  constructor
  · rintro ⟨l', hl', t', ⟨⟨u, hu, rfl⟩, hne⟩, rfl, rfl⟩
    exact ⟨hl', u, hu, rfl, hne⟩
  · rintro ⟨hl, u, hu, rfl, hne⟩
    exact ⟨l, hl, _, ⟨⟨u, hu, rfl⟩, hne⟩, rfl, rfl⟩

lemma mem_pairs_iff {α : Type} {cs : List (Text × α)} {p : Pair α} : p ∈ pairs cs ↔
    (p.sourceLang, p.sourceTerm) ∈ cs ∧ (p.targetLang, p.targetTerm) ∈ cs ∧
      p.targetLang ≠ p.sourceLang := by
  simp only [pairs, List.mem_flatMap, List.mem_map, List.mem_filter, decide_eq_true_eq]
  constructor
  · rintro ⟨a, ha, b, ⟨hb, hne⟩, rfl⟩
    exact ⟨ha, hb, hne⟩
  · rintro ⟨ha, hb, hne⟩
    exact ⟨_, ha, _, ⟨hb, hne⟩, rfl⟩

lemma pairs_map_text (cs : List (Text × Text)) :
    pairs (cs.map fun c => (c.1, Cell.text c.2)) =
      (pairs cs).map fun p =>
        ⟨p.sourceLang, p.targetLang, .text p.sourceTerm, .text p.targetTerm⟩ := by
  simp only [pairs, List.flatMap_map, List.map_flatMap, List.filter_map, List.map_map]
  rfl

lemma cells_concept (hplain : ∀ l ∈ langs es, l ≠ protoKey) (w : Text) :
    cells (langs es) (concept es w) = (shownRow es w).map fun c => (c.1, Cell.text c.2) := by
  rw [cells, shownRow, List.map_filterMap]
  refine List.filterMap_congr fun l hl => ?_
  rw [cellValue, if_neg (hplain l hl)]
  cases concept es w l with
  | none => rfl
  | some u =>
    rw [Option.getD_some, Option.map_some, ← shownAs]
    by_cases hu : shownAs u = []
    · simp [hu]
    · simp [hu, Option.filter]

/-- A load and a save, where no language stands for the prototype. -/
lemma loadAndSave_eq (hne : es ≠ []) (hplain : ∀ l ∈ langs es, l ≠ protoKey) :
    loadAndSave lower max es =
      if (terms es).any fun w => (shownRow es w).length = 1 then none
      else (normalizeEntries lower (savedPairs es) max).toOption := by
  have hcells : ∀ w, cells (langs es) (concept es w) =
      (shownRow es w).map fun c => (c.1, Cell.text c.2) := cells_concept hplain
  let text (p : TermEntry) : Pair Cell :=
    ⟨p.sourceLang, p.targetLang, .text p.sourceTerm, .text p.targetTerm⟩
  have hsent : collectConcepts (langs es) ((terms es).map (concept es)) =
      if (terms es).any fun w => (shownRow es w).length = 1 then none
      else some ((savedPairs es).map text) := by
    simp only [collectConcepts, List.any_map, Function.comp_def, hcells, List.length_map,
      List.flatMap_map, pairs_map_text, savedPairs, List.map_flatMap, text]
  have hreceived : ∀ p, received (text p) = some p := fun p => rfl
  rw [loadAndSave, if_neg hne, entriesToConcepts, if_neg hne, hsent]
  by_cases hany : ((terms es).any fun w => decide ((shownRow es w).length = 1)) = true
  · rw [if_pos hany, if_pos hany]
    rfl
  · rw [if_neg hany, if_neg hany]
    have hnone : (((savedPairs es).map text).any fun p => (received p).isNone) = false := by
      simp [List.any_map, Function.comp_def, hreceived]
    have hall : ((savedPairs es).map text).filterMap received = savedPairs es := by
      rw [List.filterMap_map, Function.comp_def]
      simp only [hreceived, List.filterMap_some]
    change (if _ then none else (normalizeEntries lower _ max).toOption) = _
    rw [hnone, hall, if_neg Bool.false_ne_true]

/-! ## Terms that survive -/

lemma shownAs_sublist (t : Text) : (shownAs t).Sublist t := by
  have htrim : (shownAs t).Sublist (inputValue t) :=
    (List.rdropWhile_prefix _ _).sublist.trans (List.dropWhile_sublist _)
  exact htrim.trans List.filter_sublist

lemma trim_sublist (t : Text) : t.trim.Sublist t :=
  (List.rdropWhile_prefix _ _).sublist.trans (List.dropWhile_sublist _)

lemma length_savedAs_le (t : Text) : (shownAs t).trim.length ≤ t.length :=
  ((trim_sublist _).trans (shownAs_sublist t)).length_le

/-- A term that is as long after it was saved has survived. -/
lemma shownAs_eq_self (h : t.length ≤ (shownAs t).trim.length) :
    shownAs t = t ∧ (shownAs t).trim = t :=
  ⟨(shownAs_sublist t).eq_of_length_le (h.trans (trim_sublist _).length_le),
    ((trim_sublist _).trans (shownAs_sublist t)).eq_of_length_le h⟩

/-- The terms that the rows show survive an input. -/
def Survives (es : List TermEntry) : Prop := ∀ e ∈ es, e.sourceLang = primary es →
  shownAs e.sourceTerm = e.sourceTerm ∧ shownAs e.targetTerm = e.targetTerm

lemma Held.of_concept {P : Text → Prop} (h : Held lower max es) (hw : w ∈ terms es)
    (hP : ∀ e ∈ es, e.sourceLang = primary es → P e.sourceTerm ∧ P e.targetTerm)
    (hl : concept es w l = some t) : P t := by
  by_cases hprimary : l = primary es
  · obtain ⟨e, he, hsource, rfl⟩ := mem_terms_iff.mp hw
    rw [hprimary, concept_primary] at hl
    cases hl
    exact (hP e he hsource).1
  · exact (hP _ ((h.concept_iff hprimary).mp hl) rfl).2

lemma Held.sound_term (h : Held lower max es) (he : e ∈ es) :
    (e.sourceTerm ≠ [] ∧ e.sourceTerm.length ≤ 200 ∧ Text.trim e.sourceTerm = e.sourceTerm) ∧
      e.targetTerm ≠ [] ∧ e.targetTerm.length ≤ 200 ∧ Text.trim e.targetTerm = e.targetTerm := by
  obtain ⟨-, -, -, hempty, hlong⟩ := fault_eq_none_iff.mp (h.sound e he)
  rw [not_or] at hempty hlong
  have htidy := h.tidied e he
  have hsource := congrArg Pair.sourceTerm htidy
  have htarget := congrArg Pair.targetTerm htidy
  exact ⟨⟨hempty.1, by omega, hsource⟩, hempty.2, by omega, htarget⟩

/-- Where the terms survive, a row is saved as it is. -/
lemma Held.mem_shownRow (h : Held lower max es) (hsurvives : Survives es) (hw : w ∈ terms es) :
    (l, t) ∈ shownRow es w ↔ concept es w l = some t := by
  have hcell : ∀ u, concept es w l = some u → shownAs u = u ∧ u ≠ [] := fun u hu =>
    ⟨h.of_concept (P := fun u => shownAs u = u) hw hsurvives hu,
      h.of_concept (P := fun u => u ≠ []) hw
        (fun e he _ => ⟨(h.sound_term he).1.1, (h.sound_term he).2.1⟩) hu⟩
  rw [mem_shownRow_iff]
  constructor
  · rintro ⟨-, u, hu, rfl, -⟩
    rw [(hcell u hu).1, hu]
  · intro ht
    exact ⟨h.mem_langs_of_concept hw ht, t, ht, hcell t ht⟩

/-- A language of the entries is a code that the server accepts as it is. -/
lemma Held.sound_lang (h : Held lower max es) (hl : l ∈ langs es) :
    l ≠ [] ∧ utf8Length l ≤ 10 ∧ lower.apply l.trim = l := by
  obtain ⟨e, he, hlang⟩ := mem_langs_iff.mp hl
  obtain ⟨hempty, hlong, -⟩ := fault_eq_none_iff.mp (h.sound e he)
  rw [not_or] at hempty hlong
  have htidy := h.tidied e he
  rcases hlang with rfl | rfl
  · exact ⟨hempty.1, by omega, congrArg Pair.sourceLang htidy⟩
  · exact ⟨hempty.2, by omega, congrArg Pair.targetLang htidy⟩

/-- Where the terms survive, the server takes what is saved as it is. -/
lemma Held.savedPairs_sound (h : Held lower max es) (hsurvives : Survives es)
    (he : e ∈ savedPairs es) : tidy lower e = e ∧ fault e = none := by
  obtain ⟨w, hw, hpair⟩ := List.mem_flatMap.mp he
  obtain ⟨hsource, htarget, hne⟩ := mem_pairs_iff.mp hpair
  rw [h.mem_shownRow hsurvives hw] at hsource htarget
  obtain ⟨hs₁, hs₂, hs₃⟩ := h.sound_lang (h.mem_langs_of_concept hw hsource)
  obtain ⟨ht₁, ht₂, ht₃⟩ := h.sound_lang (h.mem_langs_of_concept hw htarget)
  have hterm : ∀ {l t : Text}, concept es w l = some t → t ≠ [] ∧ t.length ≤ 200 ∧ t.trim = t :=
    fun hl => h.of_concept (P := fun t => t ≠ [] ∧ t.length ≤ 200 ∧ t.trim = t) hw
      (fun e he _ => h.sound_term he) hl
  obtain ⟨hs₄, hs₅, hs₆⟩ := hterm hsource
  obtain ⟨ht₄, ht₅, ht₆⟩ := hterm htarget
  constructor
  · rw [tidy, hs₃, ht₃, hs₆, ht₆]
  · rw [fault_eq_none_iff]
    exact ⟨by simp [hs₁, ht₁], by omega, hne.symm, by simp [hs₄, ht₄], by omega⟩

/-! ## What the last row says -/

/-- What a row says of a key. -/
lemma Held.find?_pairs (h : Held lower max es) (hsurvives : Survives es) (hw : w ∈ terms es)
    (hab : a ≠ b) : (pairs (shownRow es w)).reverse.find? (fun x => TermEntry.key x = (a, b, s)) =
      if concept es w a = some s then (concept es w b).map (⟨a, b, s, ·⟩) else none := by
  have hpair : ∀ x : TermEntry, x ∈ pairs (shownRow es w) ↔
      concept es w x.sourceLang = some x.sourceTerm ∧
        concept es w x.targetLang = some x.targetTerm ∧ x.targetLang ≠ x.sourceLang := by
    intro x
    rw [mem_pairs_iff, h.mem_shownRow hsurvives hw, h.mem_shownRow hsurvives hw]
  cases hfind : (pairs (shownRow es w)).reverse.find? fun x => TermEntry.key x = (a, b, s) with
  | some x =>
    have hkey : TermEntry.key x = (a, b, s) := by simpa using List.find?_some hfind
    obtain ⟨a', b', s', t'⟩ := x
    cases hkey
    have hmem := (hpair _).mp (List.mem_reverse.mp (List.mem_of_find?_eq_some hfind))
    rw [if_pos hmem.1, hmem.2.1]
    rfl
  | none =>
    rw [List.find?_eq_none] at hfind
    split_ifs with ha
    · cases hb : concept es w b with
      | none => rfl
      | some t =>
        have hmem := (hpair ⟨a, b, s, t⟩).mpr ⟨ha, hb, hab.symm⟩
        exact absurd (decide_eq_true rfl) (hfind _ (List.mem_reverse.mpr hmem))
    · rfl

/-- **What is saved**: of every key what the last row says. -/
lemma Held.mem_saved_iff (h : Held lower max es) (hsurvives : Survives es) :
    e ∈ lastWins (savedPairs es) ↔ e.sourceLang ≠ e.targetLang ∧
      tableEntry es e.sourceLang e.targetLang e.sourceTerm = some e.targetTerm := by
  by_cases hne : e.sourceLang = e.targetLang
  · refine ⟨fun he => ?_, fun ht => absurd hne ht.1⟩
    have hsound := (h.savedPairs_sound hsurvives ((lastWins_sublist _).subset he)).2
    exact absurd hne (fault_eq_none_iff.mp hsound).2.2.1
  obtain ⟨a, b, s, t⟩ := e
  have hab : a ≠ b := hne
  let told (w : Text) : Option TermEntry :=
    if concept es w a = some s then (concept es w b).map (⟨a, b, s, ·⟩) else none
  have hsome : ∀ w, (told w).isSome =
      decide (concept es w a = some s ∧ (concept es w b).isSome) := by
    intro w
    by_cases ha : concept es w a = some s <;> simp [told, ha]
  have hrows : (savedPairs es).reverse.find? (fun x => TermEntry.key x = (a, b, s)) =
      ((terms es).reverse.find? fun w => concept es w a = some s ∧ (concept es w b).isSome).bind
        told := by
    rw [savedPairs, List.reverse_flatMap, List.find?_flatMap]
    have hrow : ∀ w ∈ (terms es).reverse,
        (pairs (shownRow es w)).reverse.find? (fun x => TermEntry.key x = (a, b, s)) = told w :=
      fun w hw => h.find?_pairs hsurvives (List.mem_reverse.mp hw) hab
    rw [← funext hsome, ← Place.findSome?_eq_bind]
    exact Place.findSome?_eq_of_mem hrow
  have hkey : TermEntry.key ⟨a, b, s, t⟩ = (a, b, s) := rfl
  rw [mem_lastWins_iff, hkey, hrows]
  simp only [tableEntry, ne_eq, hab, not_false_eq_true, true_and]
  cases hfind : (terms es).reverse.find? fun w =>
      decide (concept es w a = some s ∧ (concept es w b).isSome) with
  | none => simp
  | some w =>
    have hw : concept es w a = some s ∧ (concept es w b).isSome = true := by
      simpa using List.find?_some hfind
    simp [told, hw.1]

/-! ## Where nothing changes -/

/-- An entry of the primary language that is there again was saved by some row. -/
lemma Held.row_of_saved (h : Held lower max es)
    (he : e ∈ lastWins ((savedPairs es).map (tidy lower))) (hsource : e.sourceLang = primary es) :
    ∃ w ∈ terms es, (shownAs w).trim = e.sourceTerm ∧
      ∃ t, concept es w e.targetLang = some t ∧ (shownAs t).trim = e.targetTerm := by
  obtain ⟨x, hx, rfl⟩ := List.mem_map.mp ((lastWins_sublist _).subset he)
  obtain ⟨w, hw, hpair⟩ := List.mem_flatMap.mp hx
  obtain ⟨hs, ht, -⟩ := mem_pairs_iff.mp hpair
  obtain ⟨hslang, u, hu, hushown, -⟩ := mem_shownRow_iff.mp hs
  obtain ⟨htlang, t, htcell, htshown, -⟩ := mem_shownRow_iff.mp ht
  have hxs : (tidy lower x).sourceLang = x.sourceLang := (h.sound_lang hslang).2.2
  have hxt : (tidy lower x).targetLang = x.targetLang := (h.sound_lang htlang).2.2
  rw [hxs] at hsource
  rw [hsource, concept_primary] at hu
  cases hu
  refine ⟨w, hw, congrArg Text.trim hushown, t, ?_, congrArg Text.trim htshown⟩
  rw [hxt]
  exact htcell

/-- Where every entry is there again, the terms have survived: none gets longer, so none may get
shorter. -/
lemma Held.survives_of_saved (h : Held lower max es)
    (hsaved : ∀ e ∈ es, e ∈ lastWins ((savedPairs es).map (tidy lower))) : Survives es := by
  have hsub : terms es ⊆ (terms es).map fun w => (shownAs w).trim := by
    intro w hw
    obtain ⟨e, he, hsource, rfl⟩ := mem_terms_iff.mp hw
    obtain ⟨w', hw', heq, -⟩ := h.row_of_saved (hsaved e he) hsource
    exact List.mem_map.mpr ⟨w', hw', heq⟩
  have hperm : (terms es).Perm ((terms es).map fun w => (shownAs w).trim) :=
    (List.Nodup.subperm (nodup_terms es) hsub).perm_of_length_le (by simp)
  have hterm : ∀ w ∈ terms es, w.length ≤ (shownAs w).trim.length := by
    intro w hw
    by_contra hlt
    have hsum := (hperm.map List.length).sum_eq
    rw [List.map_map] at hsum
    refine absurd hsum (Nat.ne_of_gt ?_)
    exact List.sum_lt_sum _ _ (fun v _ => length_savedAs_le v) ⟨w, hw, by simpa using hlt⟩
  intro e he hsource
  obtain ⟨w, hw, hws, t, ht, hts⟩ := h.row_of_saved (hsaved e he) hsource
  obtain ⟨hshown, hself⟩ := shownAs_eq_self (hterm w hw)
  have hwe : w = e.sourceTerm := hself.symm.trans hws
  have hlang : e.targetLang ≠ primary es := by
    rw [← hsource]
    exact (fault_eq_none_iff.mp (h.sound e he)).2.2.1.symm
  -- the row has the target of this entry: its key is that of one entry
  have htarget : concept es w e.targetLang = some e.targetTerm := by
    rw [h.concept_iff hlang, hwe, ← hsource]
    exact he
  have hte : t = e.targetTerm := Option.some.inj (ht.symm.trans htarget)
  rw [hte] at hts
  exact ⟨hwe ▸ hshown, (shownAs_eq_self (by rw [hts])).1⟩

/-- A row with one cell would stop the save; there is none. -/
lemma Held.length_shownRow (h : Held lower max es) (hsurvives : Survives es) (hw : w ∈ terms es) :
    (shownRow es w).length ≠ 1 := by
  obtain ⟨l, t, hl, ht⟩ := h.exists_translation hw
  intro hone
  obtain ⟨c, hc⟩ := List.length_eq_one_iff.mp hone
  have hprimary := (h.mem_shownRow hsurvives hw).mpr concept_primary
  have hother := (h.mem_shownRow hsurvives hw).mpr ht
  rw [hc, List.mem_singleton] at hprimary hother
  exact hl (congrArg Prod.fst (hother.trans hprimary.symm))

lemma cells_sublist (ls : List Text) (row : Text → Option Text) :
    ((cells ls row).map Prod.fst).Sublist ls := by
  induction ls with
  | nil => exact List.Sublist.refl _
  | cons l ls ih =>
    rw [cells, List.filterMap_cons]
    cases cellValue l (inputValue ((row l).getD [])) with
    | none => exact ih.cons l
    | some c => exact ih.cons_cons l

/-- A row with several cells has one of another language. -/
lemma exists_other_cell {ls : List Text} (hls : ls.Nodup) (row : Text → Option Text)
    (hlength : 1 < (cells ls row).length) (l : Text) : ∃ c ∈ cells ls row, c.1 ≠ l := by
  by_contra hall
  have hsame : (cells ls row).map Prod.fst = List.replicate (cells ls row).length l := by
    rw [List.eq_replicate_iff, List.length_map]
    refine ⟨rfl, fun k hk => ?_⟩
    obtain ⟨c, hc, rfl⟩ := List.mem_map.mp hk
    by_contra hne
    exact hall ⟨c, hc, hne⟩
  have hnodup := hls.sublist (cells_sublist ls row)
  rw [hsame, List.nodup_replicate] at hnodup
  omega

/-- Under the key of the prototype an object is sent, and the server refuses it. -/
lemma plain_of_saved {es' : List TermEntry} (hne : es ≠ [])
    (hsaved : loadAndSave lower max es = some es') : ∀ l ∈ langs es, l ≠ protoKey := by
  rintro l hl rfl
  obtain ⟨e, rest, rfl⟩ := List.exists_cons_of_ne_nil hne
  have hw : e.sourceTerm ∈ terms (e :: rest) := mem_terms_iff.mpr ⟨e, List.mem_cons_self, rfl, rfl⟩
  let row := concept (e :: rest) e.sourceTerm
  have hcell : (protoKey, Cell.object) ∈ cells (langs (e :: rest)) row := by
    refine List.mem_filterMap.mpr ⟨protoKey, hl, ?_⟩
    rw [cellValue, if_pos rfl]
    rfl
  rw [loadAndSave, if_neg hne, entriesToConcepts, if_neg hne, collectConcepts] at hsaved
  obtain ⟨sent, hsent, hsaved⟩ := Option.bind_eq_some_iff.mp hsaved
  obtain ⟨hany, hsent⟩ := Option.ite_none_left_eq_some.mp hsent
  cases hsent
  obtain ⟨hread, -⟩ := Option.ite_none_left_eq_some.mp hsaved
  -- the row has another cell, and sends it together with the object
  have hlength : (cells (langs (e :: rest)) row).length ≠ 1 := by
    intro hone
    exact hany (List.any_eq_true.mpr ⟨row, List.mem_map_of_mem hw, decide_eq_true hone⟩)
  have hpos : 0 < (cells (langs (e :: rest)) row).length := List.length_pos_of_mem hcell
  obtain ⟨c, hc, hclang⟩ := exists_other_cell (nodup_langs (e :: rest)) row (by omega) protoKey
  refine hread (List.any_eq_true.mpr ⟨⟨protoKey, c.1, .object, c.2⟩, ?_, rfl⟩)
  refine List.mem_flatMap.mpr ⟨row, List.mem_map_of_mem hw, ?_⟩
  exact mem_pairs_iff.mpr ⟨hcell, hc, hclang⟩

lemma Held.normalize_savedPairs (h : Held lower max es) (hsurvives : Survives es)
    {es' : List TermEntry} : normalizeEntries lower (savedPairs es) max = .ok es' ↔
      es' = lastWins (savedPairs es) ∧ es'.length ≤ max := by
  have hmap : (savedPairs es).map (tidy lower) = savedPairs es := by
    refine (List.map_congr_left fun e he => ?_).trans (List.map_id _)
    exact (h.savedPairs_sound hsurvives he).1
  rw [normalizeEntries_eq_ok_iff, hmap]
  constructor
  · exact And.right
  · refine fun hes => ⟨fun e he => ?_, hes⟩
    obtain ⟨htidy, hfault⟩ := h.savedPairs_sound hsurvives he
    rw [htidy]
    exact hfault

/-- A table is saved as it was loaded. -/
lemma Held.saved_of_isTable (h : Held lower max es) (htable : IsTable es) :
    ∃ es', loadAndSave lower max es = some es' ∧ ∀ e, e ∈ es' ↔ e ∈ es := by
  have hsame : ∀ e, e ∈ lastWins (savedPairs es) ↔ e ∈ es := fun e =>
    (h.mem_saved_iff htable.survives).trans (htable.rows e).symm
  have hlength : (lastWins (savedPairs es)).length = es.length :=
    length_eq_of_mem_iff (List.Nodup.of_map _ (nodup_keys_lastWins _)) (List.Nodup.of_map _ h.keys)
      hsame
  refine ⟨lastWins (savedPairs es), ?_, hsame⟩
  by_cases hne : es = []
  · subst hne
    rfl
  · have hone : ¬ ((terms es).any fun w => decide ((shownRow es w).length = 1)) = true := by
      intro hany
      obtain ⟨w, hw, hone⟩ := List.any_eq_true.mp hany
      exact h.length_shownRow htable.survives hw (of_decide_eq_true hone)
    rw [loadAndSave_eq hne htable.plain, if_neg hone,
      (h.normalize_savedPairs htable.survives).mpr ⟨rfl, hlength.trans_le h.few⟩]
    rfl

/-- What is saved as it was loaded is a table. -/
lemma Held.isTable_of_saved (h : Held lower max es) {es' : List TermEntry}
    (hsaved : loadAndSave lower max es = some es') (hsame : ∀ e, e ∈ es' ↔ e ∈ es) :
    IsTable es := by
  by_cases hne : es = []
  · subst hne
    refine ⟨by simp [langs], by simp, fun e => ?_⟩
    simp [tableEntry, terms]
  · have hplain := plain_of_saved hne hsaved
    rw [loadAndSave_eq hne hplain] at hsaved
    obtain ⟨-, hsaved⟩ := Option.ite_none_left_eq_some.mp hsaved
    have hok : normalizeEntries lower (savedPairs es) max = .ok es' := by
      cases hresult : normalizeEntries lower (savedPairs es) max with
      | error message =>
        rw [hresult] at hsaved
        cases hsaved
      | ok es'' =>
        rw [hresult] at hsaved
        cases hsaved
        rfl
    have hsurvives : Survives es := by
      refine h.survives_of_saved fun e he => ?_
      rw [← (normalizeEntries_eq_ok_iff.mp hok).2.1]
      exact (hsame e).mpr he
    refine ⟨hplain, hsurvives, fun e => ?_⟩
    rw [← hsame e, ((h.normalize_savedPairs hsurvives).mp hok).1]
    exact h.mem_saved_iff hsurvives

end Rows

/-- **A table is not changed by looking at it.**  A load and a save without an edit give the entries
that were there exactly when these are a table. -/
theorem saved_unchanged_iff (lower : Lowercase) (raw stored es : List TermEntry) (max : Nat)
    (haccepted : normalizeEntries lower raw max = .ok stored) (hload : es.Perm stored) :
    (∃ es', loadAndSave lower max es = some es' ∧ ∀ e, e ∈ es' ↔ e ∈ es) ↔ IsTable es := by
  have hheld := held_of_load haccepted hload
  constructor
  · rintro ⟨es', hsaved, hsame⟩
    exact hheld.isTable_of_saved hsaved hsame
  · exact hheld.saved_of_isTable

/-- Lower case, of texts that are. -/
def asItIs : Lowercase := ⟨id, fun _ => rfl, fun _ => id⟩

/-- An entry with a term of one letter in either language. -/
def letters (a b : Text) (s t : Char) : TermEntry := ⟨a, b, [s], [t]⟩

theorem saved_unchanged_sample :
    IsTable [letters ['e', 'n'] ['i', 't'] 'h' 'c', letters ['i', 't'] ['e', 'n'] 'c' 'h'] :=
  (saved_unchanged_iff asItIs
    [letters ['e', 'n'] ['i', 't'] 'h' 'c', letters ['i', 't'] ['e', 'n'] 'c' 'h'] _ _ 200
    (by decide) (List.Perm.refl _)).mp ⟨_, by decide, fun _ => Iff.rfl⟩

/-- A pair of one direction gets the other one; and a pair between other languages is lost. -/
theorem one_direction_changes :
    (normalizeEntries asItIs [letters ['i', 't'] ['e', 'n'] 'f' 'i'] 200 =
        .ok [letters ['i', 't'] ['e', 'n'] 'f' 'i'] ∧
      loadAndSave asItIs 200 [letters ['i', 't'] ['e', 'n'] 'f' 'i'] =
        some [letters ['i', 't'] ['e', 'n'] 'f' 'i', letters ['e', 'n'] ['i', 't'] 'i' 'f']) ∧
    normalizeEntries asItIs
        [letters ['e', 'n'] ['f', 'r'] 'h' 's', letters ['i', 't'] ['e', 'n'] 'f' 'i'] 200 =
        .ok [letters ['e', 'n'] ['f', 'r'] 'h' 's', letters ['i', 't'] ['e', 'n'] 'f' 'i'] ∧
      loadAndSave asItIs 200
          [letters ['e', 'n'] ['f', 'r'] 'h' 's', letters ['i', 't'] ['e', 'n'] 'f' 'i'] =
        some [letters ['e', 'n'] ['f', 'r'] 'h' 's', letters ['f', 'r'] ['e', 'n'] 's' 'h'] := by
  refine ⟨⟨?_, ?_⟩, ?_, ?_⟩
  · rfl
  · decide
  · rfl
  · decide

end VoxTranslate.Translation.GlossaryEditor
