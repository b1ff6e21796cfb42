import VoxTranslate.Ai.Correction
import VoxTranslate.Ai.Sentiment
import VoxTranslate.Lib.Assoc
import VoxTranslate.Lib.Decimal
import VoxTranslate.Lib.Distinct

/-!
# Pseudonyms of speakers (`ai/pseudonym.rs`)

What is sent to a model names the speakers by labels, in the order of their first appearance, and
its answers are read back under their names.  The labels tell the speakers apart and nothing else:
if everybody is called something else, the same is sent.
-/

namespace VoxTranslate.Ai.Pseudonyms

open Lib
open Engine (Text)
open Transcripts (ExportEvent TranscriptExport)

/-- A two-way map between the names and the labels. -/
structure SpeakerAliases where
  toAlias : Assoc Text Text
  toReal : Assoc Text Text

/-- `"Speaker "`. -/
def SPEAKER : Text := ['S', 'p', 'e', 'a', 'k', 'e', 'r', ' ']

/-- The label after `n` labels. -/
def label (n : Nat) : Text := SPEAKER ++ decimal (n + 1)

/-- `str::parse::<usize>`, of what has no sign. -/
def parseUsize (t : Text) : Option Nat := parseDigits t

/-- `a.rsplit(' ').next()`. -/
def lastWord (a : Text) : Text := (a.reverse.takeWhile fun c => c ≠ ' ').reverse

/-- How numbers are compared that may be missing. -/
def leNumber : Option Nat → Option Nat → Bool
  | none, _ => true
  | some _, none => false
  | some m, some n => m ≤ n

namespace SpeakerAliases

def intern (me : SpeakerAliases) (real : Text) : SpeakerAliases :=
  if real ∈ me.toAlias then me
  else
    let l := label me.toAlias.entries.length
    ⟨me.toAlias.insert real l, me.toReal.insert l real⟩

def fromNames (names : List Text) : SpeakerAliases := names.foldl intern ⟨∅, ∅⟩

/-- `alias`. -/
def aliasOf (me : SpeakerAliases) (real : Text) : Text := (me.toAlias.lookup real).getD real

def real (me : SpeakerAliases) (l : Text) : Option Text := me.toReal.lookup l

/-- `aliases`, with the labels in the order of the hash map. -/
def aliases (hashed : List Text) : List Text :=
  hashed.mergeSort fun a b => leNumber (parseUsize (lastWord a)) (parseUsize (lastWord b))

/-- `restore_keys`, of an object. -/
def restoreKeys {β : Type*} (me : SpeakerAliases) (obj : Assoc Text β) : Assoc Text β :=
  Assoc.insertAll ∅ (obj.entries.filterMap fun e => (me.real e.1).map fun r => (r, e.2))

end SpeakerAliases

/-! ## The labels -/

lemma label_inj {m n : Nat} (h : label m = label n) : m = n :=
  Nat.succ.inj (decimal_inj (List.append_cancel_left h))

open SpeakerAliases

/-- The names and the labels agree on an order of the names. -/
structure Interned (me : SpeakerAliases) (order : List Text) : Prop where
  length : me.toAlias.entries.length = order.length
  names : ∀ x l, me.toAlias.lookup x = some l ↔ ∃ i, order[i]? = some x ∧ label i = l
  labels : ∀ l x, me.toReal.lookup l = some x ↔ ∃ i, order[i]? = some x ∧ label i = l

variable {me : SpeakerAliases} {order names : List Text} {x l : Text} {i : Nat}

lemma Interned.mem_iff (h : Interned me order) : x ∈ me.toAlias ↔ x ∈ order := by
  rw [← AList.lookup_isSome, Option.isSome_iff_exists, List.mem_iff_getElem?]
  constructor
  · rintro ⟨l, hl⟩
    obtain ⟨i, hi, -⟩ := (h.names x l).mp hl
    exact ⟨i, hi⟩
  · rintro ⟨i, hi⟩
    exact ⟨label i, (h.names x _).mpr ⟨i, hi, rfl⟩⟩

/-- The places of a list that has grown. -/
lemma exists_concat {k : Text} : (∃ i, (order ++ [k])[i]? = some x ∧ label i = l) ↔
    (∃ i, order[i]? = some x ∧ label i = l) ∨ x = k ∧ label order.length = l := by
  constructor
  · rintro ⟨i, hi, rfl⟩
    rw [List.getElem?_append] at hi
    split_ifs at hi with hlt
    · exact .inl ⟨i, hi, rfl⟩
    · rw [List.getElem?_singleton] at hi
      split_ifs at hi with hzero
      have hlength : i = order.length := by omega
      exact .inr ⟨(Option.some.inj hi).symm, by rw [hlength]⟩
  · rintro (⟨i, hi, rfl⟩ | ⟨rfl, rfl⟩)
    · obtain ⟨hlt, -⟩ := List.getElem?_eq_some_iff.mp hi
      exact ⟨i, by rwa [List.getElem?_append_left hlt], rfl⟩
    · exact ⟨order.length, by simp, rfl⟩

lemma Interned.intern {k : Text} (h : Interned me order) :
    Interned (me.intern k) (if k ∈ order then order else order ++ [k]) := by
  rw [SpeakerAliases.intern]
  by_cases hk : k ∈ order
  · rwa [if_pos (h.mem_iff.mpr hk), if_pos hk]
  · -- a new name takes the next label, and the labels in use are smaller
    have hnew : k ∉ me.toAlias := mt h.mem_iff.mp hk
    rw [if_neg hnew, if_neg hk]
    refine ⟨?_, fun x l => ?_, fun l x => ?_⟩
    · have hnone : me.toAlias.lookup k = none := AList.lookup_eq_none.mpr hnew
      rw [Assoc.length_insert hnone, h.length, List.length_append, List.length_singleton]
    · dsimp only
      rw [exists_concat, h.length]
      by_cases hx : x = k
      · subst hx
        have hnone : ¬ ∃ i, order[i]? = some x ∧ label i = l := by
          rintro ⟨i, hi, -⟩
          exact hk (List.mem_of_getElem? hi)
        rw [AList.lookup_insert]
        simp [hnone]
      · rw [AList.lookup_insert_ne hx, h.names]
        simp [hx]
    · dsimp only
      rw [exists_concat, h.length]
      by_cases hl : l = label order.length
      · subst hl
        have hnone : ¬ ∃ i, order[i]? = some x ∧ label i = label order.length := by
          rintro ⟨i, hi, heq⟩
          obtain ⟨hlt, -⟩ := List.getElem?_eq_some_iff.mp hi
          exact absurd (label_inj heq) (Nat.ne_of_lt hlt)
        rw [AList.lookup_insert, or_iff_right hnone, and_iff_left rfl, Option.some_inj]
        exact eq_comm
      · rw [AList.lookup_insert_ne hl, h.labels]
        simp [Ne.symm hl]

/-- **The labels are numbered by first appearance.** -/
lemma interned_fromNames (names : List Text) : Interned (fromNames names) names.eraseDups := by
  induction names using List.reverseRecOn with
  | nil => exact ⟨rfl, fun _ _ => by simp [fromNames], fun _ _ => by simp [fromNames]⟩
  | append_singleton names k ih =>
    have hstep : fromNames (names ++ [k]) = (fromNames names).intern k := List.foldl_concat ..
    rw [hstep, eraseDups_concat]
    simpa only [List.mem_eraseDups] using ih.intern (k := k)

/-! ## There and back -/

section Restore

variable {β : Type*}

/-- **An answer is read back under the names.**  What the model says of a label is what is kept of
the person, and nothing else is kept, whatever labels or names it makes up and however the
participants are called. -/
theorem restored (names : List Text) (obj : Assoc Text β) (x : Text) :
    ((fromNames names).restoreKeys obj).lookup x =
      if x ∈ names then obj.lookup ((fromNames names).aliasOf x) else none := by
  have h := interned_fromNames names
  have hinj : ∀ l l' r, (fromNames names).real l = some r → (fromNames names).real l' = some r →
      l = l' := by
    intro l l' r hl hl'
    obtain ⟨i, hi, rfl⟩ := (h.labels l r).mp hl
    obtain ⟨j, hj, rfl⟩ := (h.labels l' r).mp hl'
    obtain ⟨hlt, -⟩ := List.getElem?_eq_some_iff.mp hi
    rw [(List.getElem?_inj hlt (nodup_eraseDups names)).mp (hi.trans hj.symm)]
  obtain ⟨hsome, hnone⟩ := Assoc.lookup_insertAll_rekey hinj obj.nodupKeys ∅ x
  by_cases hx : x ∈ names
  · obtain ⟨i, hi⟩ := List.mem_iff_getElem?.mp (List.mem_eraseDups.mpr hx)
    have hlabel : (fromNames names).aliasOf x = label i := by
      rw [aliasOf, (h.names x (label i)).mpr ⟨i, hi, rfl⟩, Option.getD_some]
    rw [if_pos hx, hlabel, restoreKeys, hsome (label i) ((h.labels _ x).mpr ⟨i, hi, rfl⟩)]
    simp [AList.lookup]
  · rw [if_neg hx, restoreKeys, hnone fun l hl => ?_]
    · rfl
    · obtain ⟨i, hi, -⟩ := (h.labels l x).mp hl
      exact hx (List.mem_eraseDups.mp (List.mem_of_getElem? hi))

end Restore

lemma lastWord_label (n : Nat) : lastWord (label n) = decimal (n + 1) := by
  have hspace : ∀ c ∈ (decimal (n + 1)).reverse, decide (c ≠ ' ') = true := by
    intro c hc
    rw [decide_eq_true_eq]
    rintro rfl
    exact not_mem_decimal (by decide) (List.mem_reverse.mp hc)
  rw [lastWord, label, List.reverse_append, List.takeWhile_append_of_pos hspace]
  simp [SPEAKER]

lemma leNumber_label (m n : Nat) :
    leNumber (parseUsize (lastWord (label m))) (parseUsize (lastWord (label n))) = decide (m ≤ n) := by
  rw [lastWord_label, lastWord_label, parseUsize, parseUsize, parseDigits_decimal,
    parseDigits_decimal, leNumber]
  simp

lemma leNumber_trans (a b c : Option Nat) (hab : leNumber a b = true) (hbc : leNumber b c = true) :
    leNumber a c = true := by
  cases a <;> cases b <;> cases c <;> simp_all [leNumber]
  omega

lemma leNumber_total (a b : Option Nat) : (leNumber a b || leNumber b a) = true := by
  cases a <;> cases b <;> simp [leNumber]
  omega

/-- **The cast is listed in the order of the labels**, in whatever order the map holds them. -/
theorem aliases_eq (names : List Text) {hashed : List Text}
    (hkeys : hashed.Perm (fromNames names).toReal.keys) :
    aliases hashed = (List.range names.eraseDups.length).map label := by
  have h := interned_fromNames names
  have hmem : ∀ l, l ∈ hashed ↔ ∃ n < names.eraseDups.length, label n = l := by
    intro l
    rw [hkeys.mem_iff, ← AList.mem_keys, ← AList.lookup_isSome, Option.isSome_iff_exists]
    constructor
    · rintro ⟨x, hx⟩
      obtain ⟨n, hn, rfl⟩ := (h.labels l x).mp hx
      exact ⟨n, (List.getElem?_eq_some_iff.mp hn).1, rfl⟩
    · rintro ⟨n, hn, rfl⟩
      exact ⟨names.eraseDups[n], (h.labels _ _).mpr ⟨n, List.getElem?_eq_getElem hn, rfl⟩⟩
  have hperm : hashed.Perm ((List.range names.eraseDups.length).map label) := by
    refine (List.perm_ext_iff_of_nodup ?_ ?_).mpr fun l => ?_
    · exact hkeys.nodup_iff.mpr (fromNames names).toReal.keys_nodup
    · exact List.nodup_range.map fun _ _ => label_inj
    · rw [hmem, List.mem_map]
      simp only [List.mem_range]
  have hsorted : (aliases hashed).Pairwise fun a b =>
      leNumber (parseUsize (lastWord a)) (parseUsize (lastWord b)) = true := by
    refine List.pairwise_mergeSort (fun a b c => ?_) (fun a b => ?_) hashed
    · exact leNumber_trans _ _ _
    · exact leNumber_total _ _
  have hrange : ((List.range names.eraseDups.length).map label).Pairwise fun a b =>
      leNumber (parseUsize (lastWord a)) (parseUsize (lastWord b)) = true := by
    rw [List.pairwise_map]
    refine List.pairwise_lt_range.imp fun hlt => ?_
    rw [leNumber_label, decide_eq_true_eq]
    exact Nat.le_of_lt hlt
  -- both lists are sorted by the numbers, and no two labels have the same one
  refine List.Perm.eq_of_pairwise ?_ hsorted hrange ((List.mergeSort_perm _ _).trans hperm)
  intro a b ha hb hab hba
  obtain ⟨m, -, rfl⟩ := (hmem a).mp ((List.mergeSort_perm _ _).mem_iff.mp ha)
  obtain ⟨n, -, rfl⟩ := List.mem_map.mp hb
  rw [leNumber_label, decide_eq_true_eq] at hab hba
  rw [Nat.le_antisymm hab hba]

theorem aliases_eq_two : aliases [label 1, label 0] = [label 0, label 1] := by
  have hkeys : [label 1, label 0].Perm
      (fromNames ["Bob".toList, "Ada".toList, "Bob".toList]).toReal.keys := by
    decide +kernel
  exact aliases_eq _ hkeys

/-! ## What is sent -/

/-- `aliases_for` of the analysis of sentiment. -/
def aliasesFor (participants : List Text) (transcript : TranscriptExport) : SpeakerAliases :=
  fromNames (participants ++ transcript.events.map ExportEvent.speakerName)

/-- The labels of the correction. -/
def lineAliases (transcript : TranscriptExport) : SpeakerAliases :=
  fromNames (transcript.events.map ExportEvent.speakerName)

/-- Everybody is called something else. -/
def rename (f : Text → Text) (transcript : TranscriptExport) : TranscriptExport :=
  { transcript with events := transcript.events.map fun ev =>
    { ev with speakerName := f ev.speakerName } }

variable {f : Text → Text} {participants : List Text} {transcript : TranscriptExport}

lemma aliasOf_rename (hf : ∀ x ∈ names, ∀ y ∈ names, f x = f y → x = y) (hx : x ∈ names) :
    (fromNames (names.map f)).aliasOf (f x) = (fromNames names).aliasOf x := by
  have h := interned_fromNames names
  have h' := interned_fromNames (names.map f)
  obtain ⟨i, hi⟩ := List.mem_iff_getElem?.mp (List.mem_eraseDups.mpr hx)
  have hi' : (names.map f).eraseDups[i]? = some (f x) := by
    rw [eraseDups_map hf, List.getElem?_map, hi, Option.map_some]
  rw [aliasOf, aliasOf, (h.names x (label i)).mpr ⟨i, hi, rfl⟩,
    (h'.names (f x) (label i)).mpr ⟨i, hi', rfl⟩, Option.getD_some, Option.getD_some]

/-- The windows of a transcript under other labels. -/
lemma chunkTranscript_rename {aliases aliases' : Text → Text} {w : Int}
    (h : ∀ ev ∈ transcript.events, aliases' (f ev.speakerName) = aliases ev.speakerName) :
    Sentiment.chunkTranscript (rename f transcript) w aliases' =
      Sentiment.chunkTranscript transcript w aliases := by
  have hwindows : Sentiment.windows (rename f transcript) w aliases' =
      Sentiment.windows transcript w aliases := by
    rw [Sentiment.windows, Sentiment.windows, rename, List.foldl_map]
    refine List.foldl_ext _ _ _ fun windows ev hev => ?_
    simp only [Sentiment.offset, Sentiment.line, h ev hev]
  rw [Sentiment.chunkTranscript, Sentiment.chunkTranscript, hwindows]

/-- The lines of a pass under other labels. -/
lemma fieldLines_rename {aliases aliases' : Text → Text} {lang : Text} {field : Correction.Field}
    (h : ∀ ev ∈ transcript.events, aliases' (f ev.speakerName) = aliases ev.speakerName) :
    Correction.fieldLines (rename f transcript) aliases' lang field =
      Correction.fieldLines transcript aliases lang field := by
  rw [Correction.fieldLines, Correction.fieldLines, rename, List.zipIdx_map, List.filterMap_map]
  refine List.filterMap_congr fun ⟨ev, i⟩ hev => ?_
  have hmem : ev ∈ transcript.events := List.fst_mem_of_mem_zipIdx hev
  cases field <;> simp [Correction.fieldText, h ev hmem]

/-- **The labels tell the speakers apart and nothing else.**  If everybody in a call is called
something else, and no two the same, then the windows that are scored and the lines that are
corrected are the same texts, and an answer is read back as the same about the same people. -/
theorem told_apart {β : Type*} (hf : ∀ x ∈ participants ++ transcript.events.map (·.speakerName),
      ∀ y ∈ participants ++ transcript.events.map (·.speakerName), f x = f y → x = y)
    (w : Int) (lang : Text) (field : Correction.Field) (answer : Assoc Text β) :
    Sentiment.chunkTranscript (rename f transcript) w
        (aliasesFor (participants.map f) (rename f transcript)).aliasOf =
      Sentiment.chunkTranscript transcript w (aliasesFor participants transcript).aliasOf ∧
    Correction.fieldLines (rename f transcript) (lineAliases (rename f transcript)).aliasOf lang field =
      Correction.fieldLines transcript (lineAliases transcript).aliasOf lang field ∧
    ∀ x ∈ participants ++ transcript.events.map (·.speakerName),
      ((aliasesFor (participants.map f) (rename f transcript)).restoreKeys answer).lookup (f x) =
        ((aliasesFor participants transcript).restoreKeys answer).lookup x := by
  have hspeakers : (rename f transcript).events.map ExportEvent.speakerName =
      (transcript.events.map ExportEvent.speakerName).map f := by
    rw [rename, List.map_map, List.map_map]
    rfl
  have hnames : participants.map f ++ (rename f transcript).events.map ExportEvent.speakerName =
      (participants ++ transcript.events.map ExportEvent.speakerName).map f := by
    rw [hspeakers, List.map_append]
  refine ⟨chunkTranscript_rename fun ev hev => ?_, fieldLines_rename fun ev hev => ?_, fun x hx => ?_⟩
  · rw [aliasesFor, aliasesFor, hnames]
    exact aliasOf_rename hf (List.mem_append_right _ (List.mem_map_of_mem hev))
  · rw [lineAliases, lineAliases, hspeakers]
    exact aliasOf_rename (fun x hx y hy => hf x (List.mem_append_right _ hx) y
      (List.mem_append_right _ hy)) (List.mem_map_of_mem hev)
  · rw [aliasesFor, aliasesFor, hnames, restored, restored, if_pos hx, if_pos (List.mem_map_of_mem hx),
      aliasOf_rename hf hx]

/-- Two people who greet each other by no name. -/
def sampleTranscript : TranscriptExport where
  startedAt := 0
  events := [⟨.speech, 0, "Ada".toList, "en".toList, "hi".toList, fun _ => none⟩,
    ⟨.chat, 1, "Bob".toList, "it".toList, "ciao".toList, fun _ => none⟩]

theorem told_apart_sample :
    Sentiment.chunkTranscript (rename (· ++ ['!']) sampleTranscript) 120
        (aliasesFor [] (rename (· ++ ['!']) sampleTranscript)).aliasOf =
      Sentiment.chunkTranscript sampleTranscript 120 (aliasesFor [] sampleTranscript).aliasOf :=
  (@told_apart _ [] sampleTranscript Nat (fun _ _ _ _ h => List.append_cancel_right h) 120 []
    .original ∅).1

end VoxTranslate.Ai.Pseudonyms
