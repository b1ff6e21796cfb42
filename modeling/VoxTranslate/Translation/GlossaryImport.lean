import VoxTranslate.Lib.Join
import VoxTranslate.Translation.GlossaryEditor

/-!
# Glossary payloads (`normalize_entries`, `import_csv` in `glossary.rs`)

A payload comes from the editor or from a CSV file.  Its entries are trimmed, and of those with
one key the last is kept where it stands.  A line of the file is cut at the commas outside quotes
by one pass with one character of lookahead.
-/

namespace VoxTranslate.Translation.GlossaryImport

open Engine (Text isWhitespace)
open GlossaryEditor

/-! ## Normalisation -/

/-- The last entry of its key stands at this position. -/
def LastAt (es : List TermEntry) (i : Nat) : Prop :=
  ∃ e, es[i]? = some e ∧ ∀ j e', i < j → es[j]? = some e' → e'.key ≠ e.key

section Normalise

variable {lower : Lowercase} {raw es : List TermEntry} {e : TermEntry} {max : Nat}

lemma mem_keys_lastWins (k : Text × Text × Text) :
    k ∈ (lastWins es).map TermEntry.key ↔ k ∈ es.map TermEntry.key := by
  constructor
  · intro h
    exact (lastWins_sublist es).map TermEntry.key |>.subset h
  · intro h
    obtain ⟨e, he, rfl⟩ := List.mem_map.mp h
    have hfound := find?_lastWins es e.key
    cases hfind : es.reverse.find? fun x => x.key = e.key with
    | none =>
      have hne := List.find?_eq_none.mp hfind e (List.mem_reverse.mpr he)
      exact absurd (decide_eq_true rfl) hne
    | some x =>
      rw [hfind] at hfound
      have hkey : x.key = e.key := by simpa using List.find?_some hfound
      exact List.mem_map.mpr ⟨x, List.mem_of_find?_eq_some hfound, hkey⟩

lemma lastWins_eq_self (h : (es.map TermEntry.key).Nodup) : lastWins es = es := by
  induction es with
  | nil => rfl
  | cons e es ih =>
    obtain ⟨hnot, hrest⟩ := List.nodup_cons.mp h
    rw [lastWins_cons, ih hrest, if_neg]
    intro hany
    obtain ⟨x, hx, hxe⟩ := List.any_eq_true.mp hany
    exact hnot (List.mem_map.mpr ⟨x, hx, of_decide_eq_true hxe⟩)

lemma lastAt_succ_iff {i : Nat} : LastAt (e :: es) (i + 1) ↔ LastAt es i := by
  constructor
  · rintro ⟨x, hx, hlast⟩
    refine ⟨x, hx, fun j e' hj he' => hlast (j + 1) e' (by omega) he'⟩
  · rintro ⟨x, hx, hlast⟩
    refine ⟨x, hx, fun j e' hj he' => ?_⟩
    obtain ⟨j, rfl⟩ : ∃ j', j = j' + 1 := ⟨j - 1, by omega⟩
    exact hlast j e' (by omega) he'

lemma lastAt_zero_iff : LastAt (e :: es) 0 ↔ e.key ∉ es.map TermEntry.key := by
  constructor
  · rintro ⟨x, hx, hlast⟩ hmem
    cases hx
    obtain ⟨e', he', hkey⟩ := List.mem_map.mp hmem
    obtain ⟨j, hj⟩ := List.mem_iff_getElem?.mp he'
    exact hlast (j + 1) e' (by omega) hj hkey
  · intro hnot
    refine ⟨e, rfl, fun j e' hj he' hkey => hnot ?_⟩
    obtain ⟨j, rfl⟩ : ∃ j', j = j' + 1 := ⟨j - 1, by omega⟩
    exact List.mem_map.mpr ⟨e', List.mem_of_getElem? he', hkey⟩

/-- What is kept are the entries at the last positions of their keys, in their order. -/
lemma exists_positions (es : List TermEntry) : ∃ positions : List Nat,
    positions.Pairwise (· < ·) ∧ (∀ i, i ∈ positions ↔ LastAt es i) ∧
      (lastWins es).map some = positions.map fun i => es[i]? := by
  induction es with
  | nil => exact ⟨[], List.Pairwise.nil, fun i => by simp [LastAt], rfl⟩
  | cons e es ih =>
    obtain ⟨positions, hsorted, hmem, hkept⟩ := ih
    have hsorted' : (positions.map (· + 1)).Pairwise (· < ·) :=
      List.pairwise_map.mpr (hsorted.imp fun h => Nat.succ_lt_succ h)
    have hkept' : (lastWins es).map some =
        (positions.map (· + 1)).map fun i => (e :: es)[i]? := by
      rw [hkept, List.map_map]
      rfl
    have hany : (lastWins es).any (fun k => k.key = e.key) = true ↔
        e.key ∈ es.map TermEntry.key := by
      rw [← mem_keys_lastWins]
      simp [List.any_eq_true]
    rw [lastWins_cons]
    by_cases hlater : (lastWins es).any (fun k => k.key = e.key) = true
    · refine ⟨positions.map (· + 1), hsorted', fun i => ?_, by rw [if_pos hlater, hkept']⟩
      cases i with
      | zero => simp [lastAt_zero_iff, hany.mp hlater]
      | succ i => simp [lastAt_succ_iff, hmem]
    · refine ⟨0 :: positions.map (· + 1), ?_, fun i => ?_, ?_⟩
      · refine List.pairwise_cons.mpr ⟨fun i hi => ?_, hsorted'⟩
        obtain ⟨j, -, rfl⟩ := List.mem_map.mp hi
        exact Nat.succ_pos j
      · cases i with
        | zero => simpa [lastAt_zero_iff] using fun h => hlater (hany.mpr h)
        | succ i => simp [lastAt_succ_iff, hmem]
      · rw [if_neg hlater, List.map_cons, List.map_cons, hkept']
        rfl

lemma length_lastWins (es : List TermEntry) :
    (lastWins es).length = (es.map TermEntry.key).eraseDups.length := by
  rw [← List.length_map (f := TermEntry.key)]
  refine Lib.length_eq_of_mem_iff (nodup_keys_lastWins es) (Lib.nodup_eraseDups _) fun k => ?_
  rw [mem_keys_lastWins, List.mem_eraseDups]

lemma normalizeEntries_idem (h : normalizeEntries lower raw max = .ok es) :
    normalizeEntries lower es max = .ok es := by
  have hheld := held_of_load h (List.Perm.refl es)
  have hmap : es.map (tidy lower) = es := by
    conv_rhs => rw [← List.map_id es]
    exact List.map_congr_left hheld.tidied
  refine normalizeEntries_eq_ok_iff.mpr ⟨fun e he => ?_, ?_, hheld.few⟩
  · rw [hheld.tidied e he]
    exact hheld.sound e he
  · rw [hmap, lastWins_eq_self hheld.keys]

/-- A payload is refused for an invalid entry, or for too many keys. -/
lemma normalizeEntries_error_iff : (∃ message, normalizeEntries lower raw max = .error message) ↔
    (∃ e ∈ raw, fault (tidy lower e) ≠ none) ∨
      max < ((raw.map (tidy lower)).map TermEntry.key).eraseDups.length := by
  have hok : (∃ es, normalizeEntries lower raw max = .ok es) ↔
      (∀ e ∈ raw, fault (tidy lower e) = none) ∧
        ((raw.map (tidy lower)).map TermEntry.key).eraseDups.length ≤ max := by
    rw [← length_lastWins]
    constructor
    · rintro ⟨es, h⟩
      obtain ⟨hfaults, rfl, hlength⟩ := normalizeEntries_eq_ok_iff.mp h
      exact ⟨hfaults, hlength⟩
    · rintro ⟨hfaults, hlength⟩
      exact ⟨_, normalizeEntries_eq_ok_iff.mpr ⟨hfaults, rfl, hlength⟩⟩
  have hnot : (∃ message, normalizeEntries lower raw max = .error message) ↔
      ¬ ∃ es, normalizeEntries lower raw max = .ok es := by
    cases normalizeEntries lower raw max <;> simp
  rw [hnot, hok, not_and_or, not_le]
  simp

end Normalise

/-- **Normalisation.**  What is accepted has the keys of the payload once each, is what stands
at the last positions of the keys, in their order, fits the cap and is not changed by another
pass; what is refused has an invalid entry or too many keys. -/
theorem normalizeEntries_spec (lower : Lowercase) (raw : List TermEntry) (max : Nat) :
    (∀ es, normalizeEntries lower raw max = .ok es →
      (es.map TermEntry.key).Nodup ∧
      (∀ k, k ∈ es.map TermEntry.key ↔ k ∈ (raw.map (tidy lower)).map TermEntry.key) ∧
      (∃ positions : List Nat, positions.Pairwise (· < ·) ∧
        (∀ i, i ∈ positions ↔ LastAt (raw.map (tidy lower)) i) ∧
        es.map some = positions.map fun i => (raw.map (tidy lower))[i]?) ∧
      es.length ≤ max ∧
      normalizeEntries lower es max = .ok es) ∧
    ((∃ message, normalizeEntries lower raw max = .error message) ↔
      (∃ e ∈ raw, fault (tidy lower e) ≠ none) ∨
        max < ((raw.map (tidy lower)).map TermEntry.key).eraseDups.length) := by
  refine ⟨fun es h => ?_, normalizeEntries_error_iff⟩
  have hidem := normalizeEntries_idem h
  obtain ⟨-, rfl, hlength⟩ := normalizeEntries_eq_ok_iff.mp h
  exact ⟨nodup_keys_lastWins _, mem_keys_lastWins, exists_positions _, hlength, hidem⟩

/-! ## CSV -/

/-- `str::lines`: the text after the last line break is a line unless it is empty, and a carriage
return before a line break belongs to it. -/
def lines (csv : Text) : List Text :=
  let pieces := csv.splitOn '\n'
  let ended := pieces.dropLast.map fun l => if l.getLast? = some '\r' then l.dropLast else l
  ended ++ (pieces.getLast?.filter fun l => l ≠ []).toList

/-- The variables of the loop of `split_csv_line`. -/
structure Scan where
  fields : List Text
  cur : Text
  inQuotes : Bool
  deriving DecidableEq, Repr

/-- The loop of `split_csv_line`. -/
def scan : Text → Scan → Scan
  | [], s => s
  | c :: rest, s =>
    if c = '"' ∧ s.inQuotes then
      match rest with
      -- a doubled quote is a literal one, and both are consumed
      | c' :: rest' =>
        if c' = '"' then scan rest' { s with cur := s.cur ++ ['"'] }
        else scan (c' :: rest') { s with inQuotes := false }
      | [] => { s with inQuotes := false }
    else if c = '"' ∧ s.cur.trim = [] then scan rest { s with cur := [], inQuotes := true }
    else if c = ',' ∧ s.inQuotes = false then
      scan rest { s with fields := s.fields ++ [s.cur.trim], cur := [] }
    else scan rest { s with cur := s.cur ++ [c] }

def Scan.finish (s : Scan) : List Text := s.fields ++ [s.cur.trim]

def splitCsvLine (line : Text) : List Text :=
  (scan (line.rdropWhile fun c => c = '\r') ⟨[], [], false⟩).finish

/-- `str::eq_ignore_ascii_case`. -/
def eqIgnoreAsciiCase (a b : Text) : Prop := a.map Char.toLower = b.map Char.toLower

instance (a b : Text) : Decidable (eqIgnoreAsciiCase a b) := inferInstanceAs (Decidable (_ = _))

/-- `source_lang`, as a header has it. -/
def headerWord : Text := ['s', 'o', 'u', 'r', 'c', 'e', '_', 'l', 'a', 'n', 'g']

/-- The rows of the numbered lines; `firstRow` while no row was met. -/
def importRows (firstRow : Bool) : List (Text × Nat) → Except String (List TermEntry)
  | [] => .ok []
  | (line, i) :: rest =>
    if line.trim = [] then importRows firstRow rest
    else
      let fields := splitCsvLine line
      if firstRow && fields.head?.any (fun f => eqIgnoreAsciiCase f headerWord) then
        importRows false rest
      else
        match fields with
        | [a, b, c, d] => (importRows false rest).map (⟨a, b, c, d⟩ :: ·)
        | _ =>
          let expected := "4 fields (source_lang,target_lang,source_term,target_term)"
          .error s!"line {i + 1}: expected {expected}, got {fields.length}"

def importCsv (csv : Text) : Except String (List TermEntry) := importRows true (lines csv).zipIdx

/-! ### What is written in quotes is read back -/

/-- A field in double quotes, the quotes in it doubled. -/
def quoteField (f : Text) : Text :=
  '"' :: (f.flatMap (fun c => if c = '"' then ['"', '"'] else [c]) ++ ['"'])

/-- The line of an entry. -/
def csvRow (e : TermEntry) : Text :=
  quoteField e.sourceLang ++ ',' :: (quoteField e.targetLang ++ ',' ::
    (quoteField e.sourceTerm ++ ',' :: quoteField e.targetTerm))

def writeCsv (es : List TermEntry) : Text := es.flatMap fun e => csvRow e ++ ['\n']

/-- A field that is trimmed and on one line. -/
def Plain (f : Text) : Prop := f.trim = f ∧ '\n' ∉ f

/-- Entries whose fields are trimmed and on one line, the first of which does not read as a
header. -/
structure Writable (es : List TermEntry) : Prop where
  plain : ∀ e ∈ es, Plain e.sourceLang ∧ Plain e.targetLang ∧ Plain e.sourceTerm ∧
    Plain e.targetTerm
  noHeader : ∀ e ∈ es.head?, ¬ eqIgnoreAsciiCase e.sourceLang headerWord

section RoundTrip

variable {s : Scan} {f rest : Text} {e : TermEntry} {es : List TermEntry}

lemma scan_closing (hs : s.inQuotes = true) (hrest : rest.head? ≠ some '"') :
    scan ('"' :: rest) s = scan rest { s with inQuotes := false } := by
  rw [scan.eq_def]
  refine (if_pos ⟨rfl, hs⟩).trans ?_
  cases rest with
  | nil => rfl
  | cons c rest => exact if_neg fun hc => hrest (by rw [hc]; rfl)

lemma scan_doubled (hs : s.inQuotes = true) :
    scan ('"' :: '"' :: rest) s = scan rest { s with cur := s.cur ++ ['"'] } := by
  rw [scan.eq_def]
  exact (if_pos ⟨rfl, hs⟩).trans (if_pos rfl)

lemma scan_opening (hs : s.inQuotes = false) (hcur : s.cur.trim = []) :
    scan ('"' :: rest) s = scan rest { s with cur := [], inQuotes := true } := by
  rw [scan.eq_def]
  exact (if_neg (by simp [hs])).trans (if_pos ⟨rfl, hcur⟩)

lemma scan_comma (hs : s.inQuotes = false) :
    scan (',' :: rest) s = scan rest { s with fields := s.fields ++ [s.cur.trim], cur := [] } := by
  rw [scan.eq_def]
  exact (if_neg (by simp)).trans ((if_neg (by simp)).trans (if_pos ⟨rfl, hs⟩))

/-- A character that has no part in the quoting. -/
lemma scan_push {c : Char} (hquote : c = '"' → s.inQuotes = false ∧ s.cur.trim ≠ [])
    (hcomma : c = ',' → s.inQuotes = true) :
    scan (c :: rest) s = scan rest { s with cur := s.cur ++ [c] } := by
  have hclosing : ¬ (c = '"' ∧ s.inQuotes = true) := by
    rintro ⟨hc, hs⟩
    rw [(hquote hc).1] at hs
    cases hs
  have hopening : ¬ (c = '"' ∧ s.cur.trim = []) := fun ⟨hc, hcur⟩ => (hquote hc).2 hcur
  have hending : ¬ (c = ',' ∧ s.inQuotes = false) := by
    rintro ⟨hc, hs⟩
    rw [hcomma hc] at hs
    cases hs
  rw [scan.eq_def]
  exact (if_neg hclosing).trans ((if_neg hopening).trans (if_neg hending))

/-- A doubled text is read up to the quote that closes it. -/
lemma scan_doubledText (hs : s.inQuotes = true) (hrest : rest.head? ≠ some '"') :
    scan (f.flatMap (fun c => if c = '"' then ['"', '"'] else [c]) ++ '"' :: rest) s =
      scan rest { s with cur := s.cur ++ f, inQuotes := false } := by
  induction f generalizing s with
  | nil => simpa using scan_closing hs hrest
  | cons c f ih =>
    rw [List.flatMap_cons]
    by_cases hc : c = '"'
    · subst hc
      rw [if_pos rfl, List.cons_append, List.singleton_append, List.cons_append,
        List.cons_append, scan_doubled hs]
      refine (ih (s := { s with cur := s.cur ++ ['"'] }) hs).trans ?_
      simp
    · rw [if_neg hc, List.append_assoc, List.singleton_append,
        scan_push (fun h => absurd h hc) fun _ => hs, ih (s := { s with cur := s.cur ++ [c] }) hs]
      simp

lemma scan_quoteField (hs : s.inQuotes = false) (hcur : s.cur = [])
    (hrest : rest.head? ≠ some '"') :
    scan (quoteField f ++ rest) s = scan rest { s with cur := f } := by
  rw [quoteField, List.cons_append, scan_opening hs (by rw [hcur]; rfl), List.append_assoc,
    List.singleton_append, scan_doubledText rfl hrest]
  simp [hs]

lemma splitCsvLine_csvRow (e : TermEntry) : splitCsvLine (csvRow e) =
    [e.sourceLang.trim, e.targetLang.trim, e.sourceTerm.trim, e.targetTerm.trim] := by
  have hend : (csvRow e).rdropWhile (fun c => c = '\r') = csvRow e := by
    have hlast : csvRow e = (quoteField e.sourceLang ++ ',' :: (quoteField e.targetLang ++ ',' ::
        (quoteField e.sourceTerm ++ ',' :: '"' ::
          e.targetTerm.flatMap fun c => if c = '"' then ['"', '"'] else [c]))) ++ ['"'] := by
      simp [csvRow, quoteField]
    rw [hlast, List.rdropWhile_concat_neg _ _ _ (by decide)]
  rw [splitCsvLine, hend, csvRow, scan_quoteField rfl rfl (by simp), scan_comma rfl,
    scan_quoteField rfl rfl (by simp), scan_comma rfl, scan_quoteField rfl rfl (by simp),
    scan_comma rfl, ← List.append_nil (quoteField e.targetTerm),
    scan_quoteField rfl rfl (by simp)]
  rfl

/-- Lines that are ended are read back. -/
lemma lines_flatMap {ls : List Text} (h : ∀ l ∈ ls, '\n' ∉ l ∧ l.getLast? ≠ some '\r') :
    lines (ls.flatMap fun l => l ++ ['\n']) = ls := by
  have hkept : ls.map (fun l => if l.getLast? = some '\r' then l.dropLast else l) = ls := by
    conv_rhs => rw [← List.map_id ls]
    exact List.map_congr_left fun l hl => if_neg (h l hl).2
  simp [lines, Lib.splitOn_flatMap_append fun l hl => (h l hl).1, hkept]

lemma newline_not_mem_quoteField (h : '\n' ∉ f) : '\n' ∉ quoteField f := by
  have hdoubled : ∀ c ∈ f, '\n' ∉ if c = '"' then ['"', '"'] else [c] := by
    intro c hc hmem
    split_ifs at hmem with hquote
    · simp at hmem
    · exact h (List.mem_singleton.mp hmem ▸ hc)
  simpa [quoteField] using hdoubled

lemma csvRow_onOneLine (h : Plain e.sourceLang ∧ Plain e.targetLang ∧ Plain e.sourceTerm ∧
    Plain e.targetTerm) : '\n' ∉ csvRow e ∧ (csvRow e).getLast? ≠ some '\r' := by
  obtain ⟨⟨-, h₁⟩, ⟨-, h₂⟩, ⟨-, h₃⟩, ⟨-, h₄⟩⟩ := h
  constructor
  · simp [csvRow, newline_not_mem_quoteField h₁, newline_not_mem_quoteField h₂,
      newline_not_mem_quoteField h₃, newline_not_mem_quoteField h₄]
  · simp [csvRow, quoteField, List.getLast?_append, List.getLast?_cons]

lemma csvRow_not_blank (e : TermEntry) : (csvRow e).trim ≠ [] := by
  rw [Ne, Engine.Text.trim_eq_nil_iff]
  intro hblank
  have hquote := hblank '"' (by simp [csvRow, quoteField])
  exact absurd hquote (by decide)

lemma importRows_csvRow {firstRow : Bool} {i : Nat} {rows : List (Text × Nat)}
    (h : Plain e.sourceLang ∧ Plain e.targetLang ∧ Plain e.sourceTerm ∧ Plain e.targetTerm)
    (hheader : firstRow = true → ¬ eqIgnoreAsciiCase e.sourceLang headerWord) :
    importRows firstRow ((csvRow e, i) :: rows) = (importRows false rows).map (e :: ·) := by
  obtain ⟨⟨h₁, -⟩, ⟨h₂, -⟩, ⟨h₃, -⟩, ⟨h₄, -⟩⟩ := h
  have hskip : ¬ (firstRow && (splitCsvLine (csvRow e)).head?.any
      fun f => eqIgnoreAsciiCase f headerWord) = true := by
    rw [splitCsvLine_csvRow, h₁]
    intro hboth
    obtain ⟨hfirst, hword⟩ := Bool.and_eq_true_iff.mp hboth
    exact hheader hfirst (of_decide_eq_true hword)
  rw [importRows, if_neg (csvRow_not_blank e)]
  refine (if_neg hskip).trans ?_
  rw [splitCsvLine_csvRow, h₁, h₂, h₃, h₄]

lemma importRows_csvRows {firstRow : Bool} {n : Nat}
    (h : ∀ e ∈ es, Plain e.sourceLang ∧ Plain e.targetLang ∧ Plain e.sourceTerm ∧
      Plain e.targetTerm)
    (hheader : firstRow = true → ∀ e ∈ es.head?, ¬ eqIgnoreAsciiCase e.sourceLang headerWord) :
    importRows firstRow ((es.map csvRow).zipIdx n) = .ok es := by
  induction es generalizing firstRow n with
  | nil => rfl
  | cons e es ih =>
    rw [List.map_cons, List.zipIdx_cons, importRows_csvRow (h e List.mem_cons_self)
      fun hfirst => hheader hfirst e rfl]
    rw [ih (fun e' he' => h e' (List.mem_cons_of_mem _ he')) (fun hfirst => by cases hfirst)]
    rfl

/-- **What is written in quotes is imported as it was.** -/
lemma importCsv_writeCsv (h : Writable es) : importCsv (writeCsv es) = .ok es := by
  have hwrite : writeCsv es = (es.map csvRow).flatMap fun l => l ++ ['\n'] := by
    rw [writeCsv, List.flatMap_map]
  have hlines : ∀ l ∈ es.map csvRow, '\n' ∉ l ∧ l.getLast? ≠ some '\r' := by
    intro l hl
    obtain ⟨e, he, rfl⟩ := List.mem_map.mp hl
    exact csvRow_onOneLine (h.plain e he)
  rw [importCsv, hwrite, lines_flatMap hlines]
  exact importRows_csvRows h.plain fun _ => h.noHeader

end RoundTrip

/-! ### Commas outside quotes -/

/-- Where a character stands in a field: outside quotes, inside, or after a quote met inside,
which closes unless it is doubled.  The flag says that nothing but blanks was met that counts. -/
inductive Quoting where
  | outside (blank : Bool)
  | inside (blank : Bool)
  | closing (blank : Bool)
  deriving DecidableEq, Repr

namespace Quoting

/-- Only at the start of a field a quote opens. -/
def read : Quoting → Char → Quoting
  | .outside blank, c =>
    if c = '"' ∧ blank then .inside true else .outside (blank && isWhitespace c)
  | .inside blank, c => if c = '"' then .closing blank else .inside (blank && isWhitespace c)
  | .closing blank, c => if c = '"' then .inside false else .outside (blank && isWhitespace c)

/-- A comma here ends the field. -/
def separates : Quoting → Bool
  | .inside _ => false
  | _ => true

/-- What stands between the commas outside quotes, after `raw` was read of the first field. -/
def segments (q : Quoting) (raw : Text) : Text → List Text
  | [] => [raw]
  | c :: rest =>
    if c = ',' ∧ q.separates then raw :: segments (.outside true) [] rest
    else segments (q.read c) (raw ++ [c]) rest

end Quoting

/-- The comma-separated fields of a line, as they are written. -/
def rawFields (line : Text) : List Text := Quoting.segments (.outside true) [] line

/-- A character that is neither blank nor a quote. -/
def isLetter (c : Char) : Bool := !isWhitespace c && c ≠ '"'

/-- A field holds the letters of what is written, and all of it where it has no quotes. -/
def Decodes (f raw : Text) : Prop :=
  f.filter isLetter = raw.filter isLetter ∧ ('"' ∉ raw → f = raw.trim)

section Fields

variable {s : Scan} {q : Quoting} {raw rest : Text} {b : Bool} {c : Char}

lemma segments_ne_nil (q : Quoting) (raw text : Text) : q.segments raw text ≠ [] := by
  induction text generalizing q raw with
  | nil => exact List.cons_ne_nil _ _
  | cons c rest ih =>
    rw [Quoting.segments]
    split_ifs
    · exact List.cons_ne_nil _ _
    · exact ih _ _

/-- Nothing of the line is lost. -/
lemma intercalate_segments (q : Quoting) (raw text : Text) :
    [','].intercalate (q.segments raw text) = raw ++ text := by
  induction text generalizing q raw with
  | nil => simp [Quoting.segments]
  | cons c rest ih =>
    rw [Quoting.segments]
    split_ifs with hc
    · obtain ⟨seg, segs, hsegs⟩ :=
        List.exists_cons_of_ne_nil (segments_ne_nil (.outside true) [] rest)
      have hjoin := ih (.outside true) []
      rw [hsegs] at hjoin ⊢
      rw [List.intercalate_cons_cons, hjoin, hc.1]
      simp
    · rw [ih, List.append_assoc, List.singleton_append]

/-- A quote that is not doubled has closed. -/
lemma segments_closing (h : rest.head? ≠ some '"') :
    (Quoting.closing b).segments raw rest = (Quoting.outside b).segments raw rest := by
  cases rest with
  | nil => rfl
  | cons c rest =>
    have hc : c ≠ '"' := fun hc => h (by rw [hc]; rfl)
    simp [Quoting.segments, Quoting.read, Quoting.separates, hc]

/-- The scan stands where the quoting says, with the letters that were read. -/
structure Agrees (s : Scan) (q : Quoting) (raw : Text) : Prop where
  place : q = if s.inQuotes then .inside (s.cur.trim = []) else .outside (s.cur.trim = [])
  letters : s.cur.filter isLetter = raw.filter isLetter
  bare : '"' ∉ raw → s.cur = raw ∧ s.inQuotes = false

lemma Agrees.start (fields : List Text) : Agrees ⟨fields, [], false⟩ (.outside true) [] :=
  ⟨rfl, rfl, fun _ => ⟨rfl, rfl⟩⟩

lemma filter_trim_isLetter (t : Text) :
    (Engine.Text.trim t).filter isLetter = t.filter isLetter := by
  have hsplit : ∀ t : Text, t.filter isLetter =
      (t.filter fun c => !isWhitespace c).filter fun c => c ≠ '"' := fun t => by
    rw [List.filter_filter]
    refine List.filter_congr fun c _ => ?_
    rw [isLetter, Bool.and_comm]
  rw [hsplit, hsplit t, Engine.Text.trim, Lib.filter_trim]

lemma Agrees.decodes (h : Agrees s q raw) : Decodes s.cur.trim raw := by
  refine ⟨(filter_trim_isLetter _).trans h.letters, fun hquote => ?_⟩
  rw [(h.bare hquote).1]

/-- A text is blank after a character when it was blank and the character is. -/
lemma trim_push_eq_nil (t : Text) (c : Char) :
    (decide (Engine.Text.trim (t ++ [c]) = [])) =
      (decide (Engine.Text.trim t = []) && isWhitespace c) := by
  rw [Bool.eq_iff_iff, Bool.and_eq_true, decide_eq_true_eq, decide_eq_true_eq,
    Engine.Text.trim_eq_nil_iff, Engine.Text.trim_eq_nil_iff, Engine.Text.Blank,
    Lib.Blank.append_iff]
  simp [Lib.Blank]

lemma Agrees.letters_push (h : Agrees s q raw) (t : Text) :
    (s.cur ++ t).filter isLetter = (raw ++ t).filter isLetter := by
  rw [List.filter_append, List.filter_append, h.letters]

lemma filter_quote : ['"'].filter isLetter = [] := by decide

lemma Agrees.push (h : Agrees s q raw) (hquote : c = '"' → s.inQuotes = false ∧ s.cur.trim ≠ []) :
    Agrees { s with cur := s.cur ++ [c] } (q.read c) (raw ++ [c]) := by
  refine ⟨?_, h.letters_push [c], fun hbare => ?_⟩
  · simp only [trim_push_eq_nil, h.place]
    by_cases hc : c = '"'
    · obtain ⟨hs, hcur⟩ := hquote hc
      simp [Quoting.read, hs, hcur]
    · cases hs : s.inQuotes <;> simp [Quoting.read, hc]
  · obtain ⟨hcur, hs⟩ := h.bare fun hmem => hbare (List.mem_append_left _ hmem)
    exact ⟨by rw [hcur], hs⟩

lemma Agrees.openQuote (h : Agrees s q raw) (hs : s.inQuotes = false) (hcur : s.cur.trim = []) :
    Agrees { s with cur := [], inQuotes := true } (q.read '"') (raw ++ ['"']) := by
  refine ⟨?_, ?_, fun hbare => absurd (List.mem_append_right _ List.mem_cons_self) hbare⟩
  · have hnil : Engine.Text.trim [] = [] := rfl
    rw [h.place]
    simp [Quoting.read, hs, hcur, hnil]
  · have hnone := filter_trim_isLetter s.cur
    rw [hcur] at hnone
    rw [List.filter_append, ← h.letters, ← hnone, filter_quote, List.append_nil]

lemma Agrees.double (h : Agrees s (.inside b) raw) (hs : s.inQuotes = true) :
    Agrees { s with cur := s.cur ++ ['"'] } (.inside false) (raw ++ ['"'] ++ ['"']) := by
  refine ⟨?_, ?_, fun hbare => absurd (List.mem_append_right _ List.mem_cons_self) hbare⟩
  · have hquote : isWhitespace '"' = false := by decide
    simp [trim_push_eq_nil, hs, hquote]
  · rw [List.filter_append (raw ++ ['"']), filter_quote, List.append_nil]
    exact h.letters_push ['"']

lemma Agrees.close (h : Agrees s (.inside b) raw) (hs : s.inQuotes = true) :
    Agrees { s with inQuotes := false } (.outside b) (raw ++ ['"']) := by
  have hb : b = decide (s.cur.trim = []) := by simpa [hs] using h.place
  refine ⟨by simp [hb], ?_, fun hbare => absurd (List.mem_append_right _ List.mem_cons_self) hbare⟩
  rw [List.filter_append, filter_quote, List.append_nil, h.letters]

lemma Agrees.inside (h : Agrees s q raw) (hs : s.inQuotes = true) : ∃ b, q = .inside b :=
  ⟨_, h.place.trans (if_pos hs)⟩

/-- **A line is cut at the commas outside quotes, and each field is read from its own piece.** -/
lemma scan_segments (text : Text) (h : Agrees s q raw) : ∃ fs,
    (scan text s).finish = s.fields ++ fs ∧ List.Forall₂ Decodes fs (q.segments raw text) := by
  induction text, s using scan.induct generalizing q raw with
  | case1 s => exact ⟨[s.cur.trim], rfl, .cons h.decodes .nil⟩
  | case2 c s hclose rest ih =>
    -- a doubled quote
    obtain ⟨rfl, hs⟩ := hclose
    obtain ⟨b, rfl⟩ := h.inside hs
    obtain ⟨fs, hfinish, hfields⟩ := ih (h.double hs)
    exact ⟨fs, (congrArg Scan.finish (scan_doubled hs)).trans hfinish, hfields⟩
  | case3 c s hclose c' rest hc' ih =>
    obtain ⟨rfl, hs⟩ := hclose
    obtain ⟨b, rfl⟩ := h.inside hs
    have hnext : (c' :: rest).head? ≠ some '"' := fun hc => hc' (Option.some.inj hc)
    obtain ⟨fs, hfinish, hfields⟩ := ih (h.close hs)
    refine ⟨fs, (congrArg Scan.finish (scan_closing hs hnext)).trans hfinish, ?_⟩
    rw [← segments_closing hnext] at hfields
    exact hfields
  | case4 c s hclose =>
    obtain ⟨rfl, hs⟩ := hclose
    obtain ⟨b, rfl⟩ := h.inside hs
    have hend : scan ['"'] s = { s with inQuotes := false } := scan_closing hs (by simp)
    refine ⟨[s.cur.trim], ?_, .cons (h.close hs).decodes .nil⟩
    rw [hend]
    rfl
  | case5 c rest s hclose hopen ih =>
    obtain ⟨rfl, hcur⟩ := hopen
    have hs : s.inQuotes = false := by simpa using hclose
    obtain ⟨fs, hfinish, hfields⟩ := ih (h.openQuote hs hcur)
    refine ⟨fs, (congrArg Scan.finish (scan_opening hs hcur)).trans hfinish, ?_⟩
    rw [Quoting.segments, if_neg (by simp)]
    exact hfields
  | case6 c rest s hclose hopen hend ih =>
    obtain ⟨rfl, hs⟩ := hend
    obtain ⟨fs, hfinish, hfields⟩ := ih (hs ▸ Agrees.start _)
    refine ⟨s.cur.trim :: fs, (congrArg Scan.finish (scan_comma hs)).trans ?_, ?_⟩
    · rw [hfinish, List.append_assoc, List.singleton_append]
    · have hq : q.separates = true := by
        rw [h.place, hs]
        rfl
      rw [Quoting.segments, if_pos ⟨rfl, hq⟩]
      exact .cons h.decodes hfields
  | case7 c rest s hclose hopen hend ih =>
    have hquote : c = '"' → s.inQuotes = false ∧ s.cur.trim ≠ [] := fun hc =>
      ⟨by simpa using fun hs => hclose ⟨hc, hs⟩, fun hcur => hopen ⟨hc, hcur⟩⟩
    have hcomma : c = ',' → s.inQuotes = true := fun hc => by
      simpa using fun hs => hend ⟨hc, hs⟩
    obtain ⟨fs, hfinish, hfields⟩ := ih (h.push hquote)
    refine ⟨fs, (congrArg Scan.finish (scan_push hquote hcomma)).trans hfinish, ?_⟩
    rw [Quoting.segments, if_neg]
    · exact hfields
    · rintro ⟨hc, hseparates⟩
      rw [h.place, hcomma hc] at hseparates
      cases hseparates

end Fields

/-- **CSV decoding undoes quoting**, and a line is never cut but at the commas outside quotes:
the raw fields joined are the line, and each field holds what its raw field does. -/
theorem csv_decodes :
    (∀ es, Writable es → importCsv (writeCsv es) = .ok es) ∧
    ∀ line : Text,
      [','].intercalate (rawFields (line.rdropWhile fun c => c = '\r')) =
        line.rdropWhile (fun c => c = '\r') ∧
      List.Forall₂ Decodes (splitCsvLine line)
        (rawFields (line.rdropWhile fun c => c = '\r')) := by
  refine ⟨fun es h => importCsv_writeCsv h, fun line => ⟨intercalate_segments _ _ _, ?_⟩⟩
  obtain ⟨fs, hfinish, hfields⟩ :=
    scan_segments (line.rdropWhile fun c => c = '\r') (Agrees.start [])
  have hfs : splitCsvLine line = fs := hfinish
  rw [hfs]
  exact hfields

/-- A term with a comma and one with quotes. -/
theorem csv_decodes_quotes :
    importCsv (writeCsv [⟨['i', 't'], ['e', 'n'], ['a', ',', 'b'], ['"', 'c', '"']⟩]) =
      .ok [⟨['i', 't'], ['e', 'n'], ['a', ',', 'b'], ['"', 'c', '"']⟩] := by
  refine csv_decodes.1 _ ⟨?_, ?_⟩
  · intro e he
    rw [List.mem_singleton.mp he]
    exact ⟨⟨by decide, by decide⟩, ⟨by decide, by decide⟩, ⟨by decide, by decide⟩,
      ⟨by decide, by decide⟩⟩
  · intro e he
    rw [← Option.some.inj he]
    decide

end VoxTranslate.Translation.GlossaryImport
