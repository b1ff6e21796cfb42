import VoxTranslate.Lib.SortedMap
import VoxTranslate.Transcripts.Export

/-!
# AI correction of transcripts (`ai/correction.rs`)

The texts of an export are corrected by a model, in batches of twelve lines: the originals in one
pass and the translations into one language in another.  A reply names lines by their numbers; what
it says is merged into one map, without regard to the batch it answers, and laid over the export.
The replies are arbitrary here.
-/

namespace VoxTranslate.Ai.Correction

open Engine (Text isWhitespace)
open Transcripts (EventKind ExportEvent TranscriptExport)
open Lib

/-- `CORRECTION_BATCH`: lines of a call. -/
def correctionBatch : Nat := 12

/-- Which texts are corrected. -/
inductive CorrectionMode where
  | original
  | translated
  | both
  deriving DecidableEq, Repr

/-- The texts of an event; there is a pass for each of them. -/
inductive Field where
  | original
  | translated
  deriving DecidableEq, Repr

/-- `corrects_original`, `corrects_translated` -/
def CorrectionMode.corrects : CorrectionMode → Field → Bool
  | .original, .original | .translated, .translated | .both, _ => true
  | _, _ => false

/-- The models of `AiConfig`. -/
structure AiConfig where
  reportModel : Text
  fallbackModel : Text

/-- The corrected texts of one event. -/
structure CorrectedLine where
  i : Nat
  original : Option Text
  translated : Option Text
  deriving DecidableEq, Repr

def CorrectedLine.text (line : CorrectedLine) : Field → Option Text
  | .original => line.original
  | .translated => line.translated

def CorrectedLine.set (line : CorrectedLine) (text : Text) : Field → CorrectedLine
  | .original => { line with original := some text }
  | .translated => { line with translated := some text }

/-- A line that is handed to the model. -/
structure Line where
  i : Nat
  speaker : Text
  lang : Text
  text : Text
  deriving DecidableEq, Repr

/-- An element of `lines` in a reply: its number and its text, where they are a number and a
text. -/
structure ReplyLine where
  i : Option Nat
  text : Option Text
  deriving DecidableEq, Repr

/-- The result of a call: an error, or the array `lines` if the reply has one. -/
abbrev Reply := Except Text (Option (List ReplyLine))

/-- The lines of a reply with a number and a text that is not blank. -/
def usable (reply : List ReplyLine) : List (Nat × Text) :=
  reply.filterMap fun l => do
    let i ← l.i
    let text := (← l.text).trim
    if text = [] then none else some (i, text)

def correctBatch (ask : List Line → Reply) (batch : List Line) :
    Except Text (List (Nat × Text)) := do
  let out := usable ((← ask batch).getD [])
  if out = [] then .error "correction batch returned no usable lines".toList else .ok out

/-- The first batch; an error of class 4xx moves on to the fallback model. -/
def probe (ai : AiConfig) (ask : Text → Nat → List Line → Reply) (first : List Line)
    (model : Text) : Except Text (List (Nat × Text) × Text) :=
  match correctBatch (ask model 0) first with
  | .ok pairs => .ok (pairs, model)
  | .error e =>
    if "groq returned 4".toList <:+: e ∧ ai.fallbackModel ≠ model then
      (correctBatch (ask ai.fallbackModel 0) first).map fun pairs => (pairs, ai.fallbackModel)
    else .error e

/-- `extend`: a later text of a line replaces an earlier one. -/
def extend (out : List (Nat × Text)) (pairs : List (Nat × Text)) : List (Nat × Text) :=
  pairs.foldl (fun out p => SortedMap.alter out p.1 fun _ => p.2) out

/-- The texts of a batch that failed are left as they are. -/
def merge (out : List (Nat × Text)) : Except Text (List (Nat × Text)) → List (Nat × Text)
  | .ok pairs => extend out pairs
  | .error _ => out

/-- All lines of one field.  Up to four calls run at a time, but their results are taken in the
order of the batches. -/
def correctField (ai : AiConfig) (ask : Text → Nat → List Line → Reply) (lines : List Line)
    (startModel : Text) : Except Text (List (Nat × Text) × Text) :=
  match lines.toChunks correctionBatch with
  | [] => .ok ([], startModel)
  | first :: rest => do
    let (pairs, model) ← probe ai ask first startModel
    let results := (rest.zipIdx 1).map fun b => correctBatch (ask model b.2) b.1
    let out := results.foldl merge (extend [] pairs)
    if out = [] then .error "all correction batches failed".toList else .ok (out, model)

/-- The text of an event in a field. -/
def fieldText (lang : Text) (ev : ExportEvent) : Field → Option Text
  | .original => some ev.original
  | .translated => ev.translations lang

/-- The lines of a pass: the texts that are not blank. -/
def fieldLines (transcript : TranscriptExport) (aliases : Text → Text) (lang : Text)
    (field : Field) : List Line :=
  transcript.events.zipIdx.filterMap fun (ev, i) => do
    let text ← fieldText lang ev field
    let textLang := match field with
      | .original => ev.lang
      | .translated => lang
    if text.trim = [] then none else some ⟨i, aliases ev.speakerName, textLang, text⟩

/-- A corrected text of a field is entered under its number. -/
def enterOne (field : Field) (byIndex : List (Nat × CorrectedLine)) (p : Nat × Text) :
    List (Nat × CorrectedLine) :=
  SortedMap.alter byIndex p.1 fun line => (line.getD ⟨p.1, none, none⟩).set p.2 field

def enter (field : Field) (byIndex : List (Nat × CorrectedLine)) (map : List (Nat × Text)) :
    List (Nat × CorrectedLine) := map.foldl (enterOne field) byIndex

/-- The records so far, and the model with which the next pass starts. -/
abbrev Progress := List (Nat × CorrectedLine) × Text

def pass (ai : AiConfig) (ask : Field → Text → Nat → List Line → Reply) (field : Field)
    (lines : List Line) (s : Progress) : Except Text Progress := do
  let (map, model) ← correctField ai (ask field) lines s.2
  .ok (enter field s.1 map, model)

def originalPass (ai : AiConfig) (ask : Field → Text → Nat → List Line → Reply)
    (transcript : TranscriptExport) (aliases : Text → Text) (mode : CorrectionMode) (lang : Text) :
    Except Text Progress :=
  let lines := fieldLines transcript aliases lang .original
  if mode.corrects .original then pass ai ask .original lines ([], ai.reportModel)
  else .ok ([], ai.reportModel)

/-- Without a translation in the language there is nothing to correct in this pass. -/
def translatedPass (ai : AiConfig) (ask : Field → Text → Nat → List Line → Reply)
    (transcript : TranscriptExport) (aliases : Text → Text) (mode : CorrectionMode) (lang : Text)
    (s : Progress) : Except Text Progress :=
  let lines := fieldLines transcript aliases lang .translated
  if mode.corrects .translated ∧ lines ≠ [] then pass ai ask .translated lines s else .ok s

/-- `ask` holds the replies, by the pass, the model and the batch; `context` is the condensed
transcript. -/
def generateCorrection (ai : AiConfig) (ask : Field → Text → Nat → List Line → Reply)
    (context : Except Text Text) (transcript : TranscriptExport) (aliases : Text → Text)
    (mode : CorrectionMode) (lang : Text) : Except Text (List CorrectedLine × Text) := do
  let _ ← context
  let s ← originalPass ai ask transcript aliases mode lang
  let (byIndex, model) ← translatedPass ai ask transcript aliases mode lang s
  if byIndex = [] then .error "correction produced no lines".toList
  else .ok (byIndex.map Prod.snd, model)

/-- The texts of a corrected line, laid over an event. -/
def overlay (lang : Text) (ev : ExportEvent) (cl : CorrectedLine) : ExportEvent :=
  let ev := match cl.original with
    | some o => { ev with original := o }
    | none => ev
  match cl.translated with
  | some t =>
    if lang ≠ [] then { ev with translations := Function.update ev.translations lang (some t) }
    else ev
  | none => ev

/-- The lines are looked up by their numbers; of two with one number the last is used. -/
def applyCorrection (transcript : TranscriptExport) (lines : List CorrectedLine) (lang : Text) :
    TranscriptExport :=
  { transcript with
    events := transcript.events.zipIdx.map fun (ev, idx) =>
      match (lines.filter fun l => l.i = idx).getLast? with
      | some cl => overlay lang ev cl
      | none => ev }

/-! ## Replies and what they name -/

/-- The text of the last of the pairs with a number. -/
def lastNaming (i : Nat) (pairs : List (Nat × Text)) : Option Text :=
  (pairs.filter fun p => p.1 = i).getLast?.map Prod.snd

/-- The model of the calls after the first. -/
def modelAfter (ai : AiConfig) (ask : Text → Nat → List Line → Reply) (lines : List Line)
    (startModel : Text) : Text :=
  match lines.toChunks correctionBatch with
  | [] => startModel
  | first :: _ =>
    match probe ai ask first startModel with
    | .ok (_, model) => model
    | .error _ => startModel

/-- A batch with the usable lines of the reply to it. -/
def answered (ask : Text → Nat → List Line → Reply) (model : Text) (b : List Line × Nat) :
    Option (List Line × List (Nat × Text)) :=
  match correctBatch (ask model b.2) b.1 with
  | .ok pairs => some (b.1, pairs)
  | .error _ => none

/-- The batches of a pass whose calls have succeeded, with the usable lines of their replies. -/
def used (ai : AiConfig) (ask : Text → Nat → List Line → Reply) (lines : List Line)
    (startModel : Text) : List (List Line × List (Nat × Text)) :=
  match lines.toChunks correctionBatch with
  | [] => []
  | first :: rest =>
    match probe ai ask first startModel with
    | .ok (pairs, model) =>
      (first, pairs) :: (rest.zipIdx 1).filterMap (answered ask model)
    | .error _ => []

section Pass

variable {α : Type*} {l : List α} {p : α → Bool} {ai : AiConfig}
  {ask : Text → Nat → List Line → Reply} {lines : List Line} {startModel model : Text}
  {map pairs out : List (Nat × Text)} {i : Nat}

/-- The last of the elements with a property, where there is at most one. -/
lemma getLast?_filter_eq {o : Option α} (h : ∀ a, a ∈ l.filter p ↔ o = some a) :
    (l.filter p).getLast? = o := by
  refine Option.ext fun a => ⟨fun ha => (h a).mp (List.mem_of_getLast? ha), fun ho => ?_⟩
  have hne : l.filter p ≠ [] := List.ne_nil_of_mem ((h a).mpr ho)
  have hlast := (h _).mp (List.getLast_mem hne)
  rw [List.getLast?_eq_some_getLast hne, ← hlast, ho]

lemma lastNaming_eq_get (h : SortedMap.Sorted map) : lastNaming i map = Entries.get map i := by
  have hlast : (map.filter fun p => p.1 = i).getLast? =
      (Entries.get map i).map fun t => (i, t) := by
    refine getLast?_filter_eq fun ⟨k, t⟩ => ?_
    rw [List.mem_filter, h.mem_iff, decide_eq_true_eq, Option.map_eq_some_iff]
    constructor
    · rintro ⟨hget, rfl⟩
      exact ⟨t, hget, rfl⟩
    · rintro ⟨t', hget, heq⟩
      obtain ⟨rfl, rfl⟩ := Prod.mk.inj heq
      exact ⟨hget, rfl⟩
  rw [lastNaming, hlast, Option.map_map]
  exact Option.map_id'

lemma foldl_last (pairs : List (Nat × Text)) (o : Option Text) :
    pairs.foldl (fun _ p => some p.2) o = (pairs.getLast?.map Prod.snd).or o := by
  induction pairs generalizing o with
  | nil => rfl
  | cons p pairs ih =>
    rw [List.foldl_cons, ih, List.getLast?_cons]
    cases pairs.getLast? <;> rfl

lemma extend_append (out pairs pairs' : List (Nat × Text)) :
    extend out (pairs ++ pairs') = extend (extend out pairs) pairs' := List.foldl_append

lemma sorted_extend (pairs : List (Nat × Text)) : SortedMap.Sorted (extend [] pairs) :=
  SortedMap.sorted_nil.foldl_alter pairs

/-- A map holds the last text of each number. -/
lemma get_extend : Entries.get (extend [] pairs) i = lastNaming i pairs := by
  rw [extend, SortedMap.get_foldl_alter SortedMap.sorted_nil, foldl_last, Entries.get,
    Option.or_none, lastNaming]

lemma flatten_go (n : Nat) (xs : List α) (acc : Array α) (done : Array (List α)) :
    (List.toChunks.go n xs acc done).flatten = done.toList.flatten ++ acc.toList ++ xs := by
  induction xs generalizing acc done with
  | nil => simp [List.toChunks.go]
  | cons x xs ih =>
    rw [List.toChunks.go]
    split_ifs with hfull
    · rw [ih]
      simp
    · rw [ih]
      simp

/-- The chunks of a list hold its elements. -/
lemma flatten_toChunks (n : Nat) (xs : List α) : (xs.toChunks n).flatten = xs := by
  match n, xs with
  | _, [] => cases n <;> rfl
  | 0, x :: xs => simp [List.toChunks]
  | n + 1, x :: xs =>
    rw [List.toChunks, flatten_go]
    · simp
    · simp

/-- What the calls after the first add. -/
lemma foldl_merge (rest : List (List Line × Nat)) (out : List (Nat × Text)) :
    (rest.map fun b => correctBatch (ask model b.2) b.1).foldl merge out =
      extend out ((rest.filterMap (answered ask model)).flatMap Prod.snd) := by
  induction rest generalizing out with
  | nil => rfl
  | cons b rest ih =>
    rw [List.map_cons, List.foldl_cons, ih, List.filterMap_cons, answered]
    cases correctBatch (ask model b.2) b.1 with
    | error e => rfl
    | ok pairs => exact (extend_append out pairs _).symm

lemma bind_eq_ok_iff {ε β γ : Type} {x : Except ε β} {f : β → Except ε γ} {c : γ} :
    x >>= f = .ok c ↔ ∃ b, x = .ok b ∧ f b = .ok c := by
  cases x with
  | error e =>
    constructor
    · intro h
      cases h
    · rintro ⟨b, h, -⟩
      cases h
  | ok b =>
    constructor
    · exact fun h => ⟨b, rfl, h⟩
    · rintro ⟨b', hb, h⟩
      rw [Except.ok.inj hb]
      exact h

/-- The result of a pass is, for each number, the last text of the replies that are used. -/
lemma correctField_ok (h : correctField ai ask lines startModel = .ok (map, model)) :
    model = modelAfter ai ask lines startModel ∧
      map = extend [] ((used ai ask lines startModel).flatMap Prod.snd) := by
  rw [correctField] at h
  rw [modelAfter, used]
  split at h
  · obtain ⟨rfl, rfl⟩ := Prod.mk.inj (Except.ok.inj h)
    exact ⟨rfl, rfl⟩
  · obtain ⟨⟨pairs, model'⟩, hprobe, h⟩ := bind_eq_ok_iff.mp h
    dsimp only at h
    split_ifs at h with hnone
    obtain ⟨rfl, rfl⟩ := Prod.mk.inj (Except.ok.inj h)
    rw [hprobe]
    refine ⟨rfl, ?_⟩
    rw [foldl_merge, List.flatMap_cons, extend_append]

/-- The batches are made of the lines of the pass. -/
lemma mem_of_mem_used {b : List Line × List (Nat × Text)}
    (hb : b ∈ used ai ask lines startModel) {line : Line} (hline : line ∈ b.1) : line ∈ lines := by
  rw [← flatten_toChunks correctionBatch lines]
  refine List.mem_flatten.mpr ⟨b.1, ?_, hline⟩
  rw [used] at hb
  split at hb
  · cases hb
  · split at hb
    · rcases List.mem_cons.mp hb with rfl | hmem
      · simp [*]
      · obtain ⟨⟨batch, n⟩, hbatch, hres⟩ := List.mem_filterMap.mp hmem
        have hrest := List.mem_of_getElem? (List.mem_zipIdx_iff_le_and_getElem?_sub.mp hbatch).2
        rw [answered] at hres
        split at hres
        · obtain rfl := Option.some.inj hres
          simp [*]
        · cases hres
    · cases hb

end Pass

/-! ## Corrected lines -/

/-- Every record stands under its own number. -/
def Keyed (byIndex : List (Nat × CorrectedLine)) : Prop :=
  ∀ i line, Entries.get byIndex i = some line → line.i = i

/-- The text of a field under a number. -/
def textAt (byIndex : List (Nat × CorrectedLine)) (field : Field) (i : Nat) : Option Text :=
  (Entries.get byIndex i).bind fun line => line.text field

section Records

variable {byIndex : List (Nat × CorrectedLine)} {field field' : Field} {i k : Nat} {t : Text}
  {line : CorrectedLine} {map : List (Nat × Text)}

@[simp] lemma CorrectedLine.i_set : (line.set t field).i = line.i := by cases field <;> rfl

lemma CorrectedLine.text_set :
    (line.set t field).text field' = if field' = field then some t else line.text field' := by
  cases field <;> cases field' <;> rfl

lemma Keyed.enterOne (h : Keyed byIndex) (hs : SortedMap.Sorted byIndex) (p : Nat × Text) :
    Keyed (enterOne field byIndex p) := by
  intro i line hline
  rw [Correction.enterOne] at hline
  by_cases hi : i = p.1
  · subst hi
    rw [SortedMap.get_alter_self hs] at hline
    rw [← Option.some.inj hline, CorrectedLine.i_set]
    cases hget : Entries.get byIndex p.1 with
    | none => rfl
    | some line' => exact h _ _ hget
  · rw [SortedMap.get_alter_of_ne hi] at hline
    exact h i line hline

lemma textAt_enterOne (hs : SortedMap.Sorted byIndex) (p : Nat × Text) :
    textAt (enterOne field byIndex p) field' i =
      if i = p.1 ∧ field' = field then some p.2 else textAt byIndex field' i := by
  rw [textAt, enterOne]
  by_cases hi : i = p.1
  · subst hi
    rw [SortedMap.get_alter_self hs, Option.bind_some, CorrectedLine.text_set, textAt]
    by_cases hfield : field' = field
    · rw [if_pos hfield, if_pos ⟨rfl, hfield⟩]
    · rw [if_neg hfield, if_neg fun h => hfield h.2]
      cases Entries.get byIndex p.1 with
      | none => cases field' <;> rfl
      | some line' => rfl
  · rw [SortedMap.get_alter_of_ne hi, if_neg fun h => hi h.1, textAt]

lemma lastNaming_cons (p : Nat × Text) : lastNaming i (p :: map) =
    (lastNaming i map).or (if i = p.1 then some p.2 else none) := by
  rw [lastNaming, lastNaming]
  by_cases hi : i = p.1
  · rw [List.filter_cons_of_pos (by simpa using hi.symm), List.getLast?_cons, if_pos hi]
    cases (map.filter fun p => p.1 = i).getLast? <;> rfl
  · rw [List.filter_cons_of_neg (by simpa using Ne.symm hi), if_neg hi, Option.or_none]

/-- A pass writes the field that it is about, and no other. -/
lemma textAt_enter (hs : SortedMap.Sorted byIndex) : textAt (enter field byIndex map) field' i =
    if field' = field then (lastNaming i map).or (textAt byIndex field' i)
    else textAt byIndex field' i := by
  induction map generalizing byIndex with
  | nil => simp [enter, lastNaming]
  | cons p map ih =>
    have hs' : SortedMap.Sorted (enterOne field byIndex p) := hs.alter _ _
    rw [enter, List.foldl_cons, ← enter, ih hs', textAt_enterOne hs, lastNaming_cons]
    by_cases hfield : field' = field
    · by_cases hi : i = p.1
      · simp [hfield, hi]
      · simp [hfield, hi]
    · simp [hfield]

lemma Keyed.enter (h : Keyed byIndex) (hs : SortedMap.Sorted byIndex) (field : Field)
    (map : List (Nat × Text)) :
    Keyed (enter field byIndex map) ∧ SortedMap.Sorted (enter field byIndex map) := by
  induction map generalizing byIndex with
  | nil => exact ⟨h, hs⟩
  | cons p map ih => exact ih (h.enterOne hs p) (hs.alter _ _)

/-- The record under a number is the only one with that number. -/
lemma getLast?_filter_i (h : Keyed byIndex) (hs : SortedMap.Sorted byIndex) :
    ((byIndex.map Prod.snd).filter fun l => l.i = i).getLast? = Entries.get byIndex i := by
  refine getLast?_filter_eq fun line => ?_
  rw [List.mem_filter, decide_eq_true_eq, List.mem_map]
  constructor
  · rintro ⟨⟨⟨k, line'⟩, hmem, rfl⟩, rfl⟩
    have hget := hs.mem_iff.mp hmem
    rw [← hget, ← h _ _ hget]
  · intro hget
    exact ⟨⟨(i, line), hs.mem_iff.mpr hget, rfl⟩, h _ _ hget⟩

end Records

section Generated

variable {ai : AiConfig} {ask : Field → Text → Nat → List Line → Reply}
  {context : Except Text Text} {transcript : TranscriptExport} {aliases : Text → Text}
  {mode : CorrectionMode} {lang model : Text} {lines : List CorrectedLine}

/-- The model with which a pass starts: the second goes on with that of the first. -/
def startModel (ai : AiConfig) (ask : Field → Text → Nat → List Line → Reply)
    (transcript : TranscriptExport) (aliases : Text → Text) (mode : CorrectionMode) (lang : Text) :
    Field → Text
  | .original => ai.reportModel
  | .translated =>
    if mode.corrects .original then
      modelAfter ai (ask .original) (fieldLines transcript aliases lang .original) ai.reportModel
    else ai.reportModel

/-- The replies of a pass that are used. -/
def replies (ai : AiConfig) (ask : Field → Text → Nat → List Line → Reply)
    (transcript : TranscriptExport) (aliases : Text → Text) (mode : CorrectionMode) (lang : Text)
    (field : Field) : List (List Line × List (Nat × Text)) :=
  if mode.corrects field then
    used ai (ask field) (fieldLines transcript aliases lang field)
      (startModel ai ask transcript aliases mode lang field)
  else []

/-- Records in order, each under its number. -/
structure Records (byIndex : List (Nat × CorrectedLine)) : Prop where
  keyed : Keyed byIndex
  sorted : SortedMap.Sorted byIndex

/-- A pass writes what the replies that are used name last. -/
lemma pass_ok {passLines : List Line} {field : Field} {s s' : Progress} (hs : Records s.1)
    (h : pass ai ask field passLines s = .ok s') :
    s'.2 = modelAfter ai (ask field) passLines s.2 ∧ Records s'.1 ∧
      ∀ field' i, textAt s'.1 field' i =
        if field' = field then
          (lastNaming i ((used ai (ask field) passLines s.2).flatMap Prod.snd)).or
            (textAt s.1 field' i)
        else textAt s.1 field' i := by
  obtain ⟨⟨map, model⟩, hfield, h⟩ := bind_eq_ok_iff.mp h
  obtain rfl := Except.ok.inj h
  obtain ⟨hmodel, rfl⟩ := correctField_ok hfield
  obtain ⟨hkeyed, hsorted⟩ := hs.keyed.enter hs.sorted field
    (extend [] ((used ai (ask field) passLines s.2).flatMap Prod.snd))
  refine ⟨hmodel, ⟨hkeyed, hsorted⟩, fun field' i => ?_⟩
  rw [textAt_enter hs.sorted, lastNaming_eq_get (sorted_extend _), get_extend]

/-- What the replies of a pass name last. -/
def lastWord (ai : AiConfig) (ask : Field → Text → Nat → List Line → Reply)
    (transcript : TranscriptExport) (aliases : Text → Text) (mode : CorrectionMode) (lang : Text)
    (field : Field) (i : Nat) : Option Text :=
  lastNaming i ((replies ai ask transcript aliases mode lang field).flatMap Prod.snd)

lemma originalPass_ok {s : Progress}
    (h : originalPass ai ask transcript aliases mode lang = .ok s) :
    Records s.1 ∧
      s.2 = startModel ai ask transcript aliases mode lang .translated ∧
      ∀ field i, textAt s.1 field i = if field = .original then
        lastWord ai ask transcript aliases mode lang .original i else none := by
  have hempty : Records [] := ⟨fun i line hline => (by cases hline), SortedMap.sorted_nil⟩
  rw [originalPass] at h
  simp only [lastWord, replies, startModel]
  split_ifs at h ⊢ with hmode
  · obtain ⟨hmodel, hrecords, htext⟩ := pass_ok hempty h
    refine ⟨hrecords, hmodel, fun field i => ?_⟩
    rw [htext]
    cases field with
    | original => exact Option.or_none
    | translated => rfl
  · obtain rfl := Except.ok.inj h
    refine ⟨hempty, rfl, fun field i => ?_⟩
    cases field <;> rfl

/-- The records are what the replies that are used name last. -/
lemma generateCorrection_ok
    (h : generateCorrection ai ask context transcript aliases mode lang = .ok (lines, model)) :
    ∃ byIndex, Records byIndex ∧ lines = byIndex.map Prod.snd ∧
      ∀ field i, textAt byIndex field i =
        lastWord ai ask transcript aliases mode lang field i := by
  obtain ⟨-, -, h⟩ := bind_eq_ok_iff.mp h
  obtain ⟨s, hs, h⟩ := bind_eq_ok_iff.mp h
  obtain ⟨s', hs', h⟩ := bind_eq_ok_iff.mp h
  obtain ⟨hrecords, hmodel, htext⟩ := originalPass_ok hs
  dsimp only at h
  split_ifs at h with hnone
  obtain ⟨rfl, rfl⟩ := Prod.mk.inj (Except.ok.inj h)
  rw [translatedPass] at hs'
  split_ifs at hs' with hmode
  · obtain ⟨-, hrecords', htext'⟩ := pass_ok hrecords hs'
    refine ⟨s'.1, hrecords', rfl, fun field i => ?_⟩
    rw [htext']
    cases field with
    | original => exact htext .original i
    | translated =>
      rw [if_pos rfl, htext, if_neg (by decide), Option.or_none, hmodel, lastWord, replies,
        if_pos hmode.1]
  · obtain rfl := Except.ok.inj hs'
    refine ⟨s.1, hrecords, rfl, fun field i => ?_⟩
    rw [htext]
    cases field with
    | original => rfl
    | translated =>
      rw [if_neg (by decide), lastWord, replies]
      by_cases htranslated : mode.corrects .translated
      · have hlines : fieldLines transcript aliases lang .translated = [] :=
          not_not.mp fun hne => hmode ⟨htranslated, hne⟩
        rw [if_pos htranslated, hlines]
        rfl
      · rw [if_neg htranslated]
        rfl

/-- A line of a pass is the text of an event, which is not blank. -/
lemma mem_fieldLines {field : Field} {line : Line}
    (h : line ∈ fieldLines transcript aliases lang field) :
    ∃ ev, transcript.events[line.i]? = some ev ∧ fieldText lang ev field = some line.text ∧
      ¬ line.text.Blank := by
  obtain ⟨⟨ev, i⟩, hi, hline⟩ := List.mem_filterMap.mp h
  obtain ⟨text, htext, hline⟩ := Option.bind_eq_some_iff.mp hline
  dsimp only at hline htext
  split_ifs at hline with hblank
  obtain rfl := Option.some.inj hline
  exact ⟨ev, List.mem_zipIdx_iff_getElem?.mp hi, htext, mt trim_eq_nil_iff.mpr hblank⟩

/-- Only the passes of a mode have replies, to batches of their lines. -/
lemma mem_replies {field : Field} {b : List Line × List (Nat × Text)}
    (h : b ∈ replies ai ask transcript aliases mode lang field) :
    mode.corrects field = true ∧ ∀ line ∈ b.1, line ∈ fieldLines transcript aliases lang field := by
  rw [replies] at h
  split_ifs at h with hmode
  · exact ⟨hmode, fun line hline => mem_of_mem_used h hline⟩
  · cases h

/-- A text that the line does not hold is kept. -/
lemma overlay_eq (lang : Text) (ev : ExportEvent) (cl : CorrectedLine) :
    overlay lang ev cl = { ev with
      original := cl.original.getD ev.original
      translations := if lang = [] then ev.translations else
        Function.update ev.translations lang (cl.translated.or (ev.translations lang)) } := by
  rw [overlay]
  by_cases hlang : lang = []
  · cases cl.original <;> cases cl.translated <;> simp [hlang]
  · cases cl.original <;> cases cl.translated <;> simp [hlang]

lemma fieldText_overlay {ev : ExportEvent} {cl : CorrectedLine} {field : Field}
    (h : fieldText lang (overlay lang ev cl) field ≠ fieldText lang ev field) :
    ∃ t, cl.text field = some t := by
  refine Option.ne_none_iff_exists'.mp fun hnone => h ?_
  rw [overlay_eq]
  cases field with
  | original =>
    have horiginal : cl.original = none := hnone
    simp [fieldText, horiginal]
  | translated =>
    have htranslated : cl.translated = none := hnone
    simp [fieldText, htranslated]

/-- The event at a place takes the texts of the record with its number. -/
lemma Records.event_applied {byIndex : List (Nat × CorrectedLine)} (h : Records byIndex) {i : Nat}
    {ev ev' : ExportEvent} (hev : transcript.events[i]? = some ev)
    (hev' : (applyCorrection transcript (byIndex.map Prod.snd) lang).events[i]? = some ev') :
    (∃ cl, Entries.get byIndex i = some cl ∧ ev' = overlay lang ev cl) ∨ ev' = ev := by
  simp only [applyCorrection, getLast?_filter_i h.keyed h.sorted, List.getElem?_map,
    List.getElem?_zipIdx, hev, Option.map_some, Nat.zero_add] at hev'
  cases hget : Entries.get byIndex i with
  | none =>
    rw [hget] at hev'
    exact .inr (Option.some.inj hev').symm
  | some cl =>
    rw [hget] at hev'
    exact .inl ⟨cl, rfl, (Option.some.inj hev').symm⟩

end Generated

/-- An event with the two texts put back. -/
def restore (lang : Text) (ev ev' : ExportEvent) : ExportEvent :=
  { ev' with
    original := ev.original
    translations := Function.update ev'.translations lang (ev.translations lang) }

/-- The correction of an export touches what was sent alone. -/
structure TouchesSent (transcript : TranscriptExport) (mode : CorrectionMode) (lang : Text)
    (replies : Field → List (List Line × List (Nat × Text))) (lines : List CorrectedLine) :
    Prop where
  length : (applyCorrection transcript lines lang).events.length = transcript.events.length
  /-- All but the two texts is left as it was. -/
  frame : ∀ (i : Nat) (ev ev' : ExportEvent), transcript.events[i]? = some ev →
    (applyCorrection transcript lines lang).events[i]? = some ev' → restore lang ev ev' = ev
  /-- A text that differs was sent: the mode covers it, and it was not blank. -/
  sent : ∀ (i : Nat) (ev ev' : ExportEvent), transcript.events[i]? = some ev →
    (applyCorrection transcript lines lang).events[i]? = some ev' →
    ∀ field, fieldText lang ev' field ≠ fieldText lang ev field →
      mode.corrects field = true ∧ ∃ text, fieldText lang ev field = some text ∧ ¬ text.Blank
  /-- A corrected text of an event is in the reply to the batch that contained the event. -/
  ownBatch : ∀ line ∈ lines, line.i < transcript.events.length →
    ∀ field text, line.text field = some text →
      ∃ b ∈ replies field, (∃ l ∈ b.1, l.i = line.i) ∧ (line.i, text) ∈ b.2

lemma restore_overlay (lang : Text) (ev : ExportEvent) (cl : CorrectedLine) :
    restore lang ev (overlay lang ev cl) = ev := by
  rw [restore, overlay_eq]
  split_ifs <;> simp

/-- **The correction of a transcript.**  Where lines are generated, the correction touches what was
sent alone, and takes it from the reply to its own batch, exactly when of every event that the
replies of a pass name, the last text is in the reply to a batch that contained the event. -/
theorem correction_touches_sent_iff (ai : AiConfig)
    (ask : Field → Text → Nat → List Line → Reply) (context : Except Text Text)
    (transcript : TranscriptExport) (aliases : Text → Text) (mode : CorrectionMode)
    (lang : Text) (lines : List CorrectedLine) (model : Text)
    (h : generateCorrection ai ask context transcript aliases mode lang = .ok (lines, model)) :
    TouchesSent transcript mode lang (replies ai ask transcript aliases mode lang) lines ↔
      ∀ field, ∀ i < transcript.events.length, ∀ text,
        lastNaming i ((replies ai ask transcript aliases mode lang field).flatMap Prod.snd) =
            some text →
          ∃ b ∈ replies ai ask transcript aliases mode lang field,
            (∃ l ∈ b.1, l.i = i) ∧ (i, text) ∈ b.2 := by
  obtain ⟨byIndex, hrecords, rfl, htext⟩ := generateCorrection_ok h
  constructor
  · intro htouches field i hi text hlast
    obtain ⟨line, hline, hfield⟩ := Option.bind_eq_some_iff.mp ((htext field i).trans hlast)
    have hnumber := hrecords.keyed i line hline
    have hmem : line ∈ byIndex.map Prod.snd :=
      List.mem_map.mpr ⟨(i, line), hrecords.sorted.mem_iff.mpr hline, rfl⟩
    have hown := htouches.ownBatch line hmem (hnumber.symm ▸ hi) field text hfield
    rwa [hnumber] at hown
  · intro hown
    have hlast : ∀ i < transcript.events.length, ∀ cl, Entries.get byIndex i = some cl →
        ∀ field text, cl.text field = some text →
          ∃ b ∈ replies ai ask transcript aliases mode lang field,
            (∃ l ∈ b.1, l.i = i) ∧ (i, text) ∈ b.2 := by
      intro i hi cl hcl field text hfield
      refine hown field i hi text ?_
      have hat := htext field i
      rw [textAt, hcl, Option.bind_some, hfield] at hat
      exact hat.symm
    refine ⟨?_, fun i ev ev' hev hev' => ?_, fun i ev ev' hev hev' field hdiffers => ?_,
      fun line hline hi field text hfield => ?_⟩
    · simp [applyCorrection]
    · rcases hrecords.event_applied hev hev' with ⟨cl, -, rfl⟩ | rfl
      · exact restore_overlay lang ev cl
      · simp [restore]
    · rcases hrecords.event_applied hev hev' with ⟨cl, hcl, rfl⟩ | rfl
      · obtain ⟨text, hfield⟩ := fieldText_overlay hdiffers
        have hi : i < transcript.events.length := (List.getElem?_eq_some_iff.mp hev).1
        obtain ⟨b, hb, ⟨l, hl, rfl⟩, -⟩ := hlast i hi cl hcl field text hfield
        obtain ⟨hmode, hlines⟩ := mem_replies hb
        obtain ⟨ev', hev', hsent, hblank⟩ := mem_fieldLines (hlines l hl)
        obtain rfl := Option.some.inj (hev.symm.trans hev')
        exact ⟨hmode, l.text, hsent, hblank⟩
      · exact absurd rfl hdiffers
    · obtain ⟨⟨k, cl⟩, hmem, rfl⟩ := List.mem_map.mp hline
      have hget := hrecords.sorted.mem_iff.mp hmem
      have hk := hrecords.keyed k cl hget
      subst hk
      exact hlast cl.i hi cl hget field text hfield

/-- The reply corrects one line and names another, which was not sent. -/
def talkative : Reply :=
  .ok (some [⟨some 0, some ['H', 'i']⟩, ⟨some 1, some ['Y', 'o']⟩])

/-- Two events, the second of which has no original. -/
def halfSilent : TranscriptExport :=
  ⟨0, [⟨.speech, 0, ['A'], ['e', 'n'], ['h', 'i'], fun _ => none⟩,
    ⟨.speech, 1, ['B'], ['e', 'n'], [], fun _ => none⟩]⟩

/-- A blank original that was not sent is written because a reply names its event. -/
theorem unsent_text_is_written :
    ∃ ai ask context aliases lines model,
      generateCorrection ai ask context halfSilent aliases .original [] = .ok (lines, model) ∧
        ¬ TouchesSent halfSilent .original []
          (replies ai ask halfSilent aliases .original []) lines := by
  refine ⟨⟨['m'], ['m']⟩, fun _ _ _ _ => talkative, .ok [], fun _ => ['S'],
    [⟨0, some ['H', 'i'], none⟩, ⟨1, some ['Y', 'o'], none⟩], ['m'], rfl, fun htouches => ?_⟩
  obtain ⟨-, text, htext, hblank⟩ := htouches.sent 1 _ _ rfl rfl .original (by decide)
  obtain rfl := Option.some.inj htext
  exact hblank Blank.nil

/-- A reply that names the line it was sent. -/
theorem correction_touches_sent_one :
    let transcript : TranscriptExport :=
      ⟨0, [⟨.speech, 0, ['A'], ['e', 'n'], ['h', 'i'], fun _ => none⟩]⟩
    let ask : Field → Text → Nat → List Line → Reply :=
      fun _ _ _ _ => .ok (some [⟨some 0, some ['H', 'i', '.']⟩])
    TouchesSent transcript .original []
      (replies ⟨['m'], ['f']⟩ ask transcript (fun _ => ['S']) .original [])
      [⟨0, some ['H', 'i', '.'], none⟩] := by
  intro transcript ask
  refine (correction_touches_sent_iff ⟨['m'], ['f']⟩ ask (.ok []) transcript (fun _ => ['S'])
    .original [] _ ['m'] rfl).mpr fun field i hi text hlast => ?_
  obtain rfl : i = 0 := Nat.lt_one_iff.mp hi
  cases field with
  | original =>
    obtain rfl := Option.some.inj hlast
    exact ⟨_, List.mem_cons_self, ⟨_, List.mem_cons_self, rfl⟩, List.mem_cons_self⟩
  | translated => cases hlast

end VoxTranslate.Ai.Correction
