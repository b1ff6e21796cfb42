import VoxTranslate.Engine.Qwen
import VoxTranslate.Lib.Cut
import VoxTranslate.Lib.Markup

/-!
# The report as it is rendered (`report-md.ts`)

The model writes its report in a dialect of Markdown.  Each line is a heading, an item, blank or
part of a paragraph, and the lines are put together as they come; within a line the marks of code,
bold and italics are replaced one kind after the other, in a text that was escaped before.
-/

namespace VoxTranslate.Client.ReportMd

open Engine (Text)
open Lib Lib.Markup

/-! ## Within a line -/

/-- `s.replace(/c/g, w)`. -/
def replaceChar (c : Char) (w s : Text) : Text := s.flatMap fun d => if d = c then w else [d]

/-- Escape `& < >`. -/
def escapeHtml (s : Text) : Text :=
  replaceChar '>' "&gt;".toList (replaceChar '<' "&lt;".toList (replaceChar '&' "&amp;".toList s))

/-- The text between two tags. -/
def wrap (name : String) (body : Text) : Text :=
  tag name.toList ++ body ++ tag ('/' :: name.toList)

/-- The letters that mark up a line. -/
def isMark (c : Char) : Bool := c = '*' || c = '`'

/-- Between marks stands a body, and tags take the place of the marks. -/
structure Match (l out after : Text) : Prop where
  exists_body : ∃ opening body closing name, l = opening ++ body ++ closing ++ after ∧
    out = wrap name body ∧ name ∈ ["code", "strong", "em"] ∧ opening ≠ [] ∧ closing ≠ [] ∧
    ∀ c ∈ opening ++ closing, isMark c = true

/-- What a regular expression finds at the head of a text: what is put in the place of the match,
and what follows it.  The flag says whether the text begins here or after a letter, other than a
star, that belongs to no match. -/
structure Rule where
  find : Bool → Text → Option (Text × Text)
  sound : ∀ free l out after, find free l = some (out, after) → Match l out after

lemma Rule.shrinks (r : Rule) {free : Bool} {l out after : Text}
    (h : r.find free l = some (out, after)) : after.length < l.length := by
  obtain ⟨opening, body, closing, name, rfl, -, -, hopening, -, -⟩ :=
    (r.sound free l out after h).exists_body
  have hpos := List.length_pos_iff.mpr hopening
  simp only [List.length_append]
  omega

/-- `s.replace(rule, ...)`, from the left. -/
def replaceAll (r : Rule) : Bool → Text → Text
  | _, [] => []
  | free, c :: rest =>
    match _h : r.find free (c :: rest) with
    | some (out, after) => out ++ replaceAll r false after
    | none => c :: replaceAll r (c ≠ '*') rest
  termination_by _ l => l.length
  decreasing_by
    · exact r.shrinks _h
    · exact Nat.lt_succ_self _

lemma cut_eq_some {c : Char} {l a b : Text} (h : cut [c] l = some (a, b)) :
    l = a ++ c :: b ∧ c ∉ a := by
  induction l generalizing a with
  | nil => cases h
  | cons d l ih =>
    rw [cut] at h
    split_ifs at h with hd
    · obtain ⟨rfl, -⟩ := List.cons_prefix_cons.mp hd
      cases h
      exact ⟨rfl, nofun⟩
    · obtain ⟨⟨a', b'⟩, hrest, heq⟩ := Option.map_eq_some_iff.mp h
      cases heq
      obtain ⟨rfl, hnot⟩ := ih hrest
      refine ⟨rfl, fun hmem => ?_⟩
      rcases List.mem_cons.mp hmem with rfl | hmem
      · exact hd (List.cons_prefix_cons.mpr ⟨rfl, List.nil_prefix⟩)
      · exact hnot hmem

/-- `([^`]+)` between backticks. -/
def findCode (l : Text) : Option (Text × Text) :=
  match l with
  | '`' :: rest =>
    match cut ['`'] rest with
    | some (c :: body, after) => some (wrap "code" (c :: body), after)
    | _ => none
  | _ => none

/-- `([^*]+)` between two stars and two stars. -/
def findStrong (l : Text) : Option (Text × Text) :=
  match l with
  | '*' :: '*' :: rest =>
    match cut ['*'] rest with
    | some (c :: body, '*' :: after) => some (wrap "strong" (c :: body), after)
    | _ => none
  | _ => none

/-- `([^*\s][^*]*)` between stars, the first of which is at the start or after something else. -/
def findEm (free : Bool) (l : Text) : Option (Text × Text) :=
  match l with
  | '*' :: rest =>
    match cut ['*'] rest with
    | some (c :: body, after) =>
      if free && !isEcmaSpace c then some (wrap "em" (c :: body), after) else none
    | _ => none
  | _ => none

def codeRule : Rule where
  find _ l := findCode l
  sound _ l out after h := by
    unfold findCode at h
    split at h
    · next rest =>
      split at h
      · next c body after' hcut =>
        cases h
        obtain ⟨rfl, -⟩ := cut_eq_some hcut
        exact ⟨['`'], c :: body, ['`'], "code", by simp, rfl, by simp, by simp, by simp, by simp [isMark]⟩
      · cases h
    · cases h

def strongRule : Rule where
  find _ l := findStrong l
  sound _ l out after h := by
    unfold findStrong at h
    split at h
    · next rest =>
      split at h
      · next c body after' hcut =>
        cases h
        obtain ⟨rfl, -⟩ := cut_eq_some hcut
        exact ⟨['*', '*'], c :: body, ['*', '*'], "strong", by simp, rfl, by simp, by simp, by simp,
          by simp [isMark]⟩
      · cases h
    · cases h

def emRule : Rule where
  find free l := findEm free l
  sound free l out after h := by
    unfold findEm at h
    split at h
    · next rest =>
      split at h
      · next c body after' hcut =>
        split_ifs at h
        cases h
        obtain ⟨rfl, -⟩ := cut_eq_some hcut
        exact ⟨['*'], c :: body, ['*'], "em", by simp, rfl, by simp, by simp, by simp, by simp [isMark]⟩
      · cases h
    · cases h

/-- Inline Markdown: `code`, **bold**, *italic*. -/
def inline (s : Text) : Text :=
  replaceAll emRule true (replaceAll strongRule true (replaceAll codeRule true (escapeHtml s)))

/-! ## Tags stand where they were put -/

/-- The tags of a report. -/
def names : List Text :=
  ["code", "strong", "em", "h3", "h4", "p", "ul", "ol", "li"].flatMap fun name =>
    [name.toList, '/' :: name.toList]

def entities : List Text := ["&amp;".toList, "&lt;".toList, "&gt;".toList]

section Inline

variable {r : Rule} {free : Bool} {l w out after s : Text} {c : Char} {name : String}

lemma free_mark (h : isMark c = true) : Free names entities c := by
  rw [isMark, Bool.or_eq_true, decide_eq_true_eq, decide_eq_true_eq] at h
  rcases h with rfl | rfl
  · exact ⟨by decide, by decide, by decide⟩
  · exact ⟨by decide, by decide, by decide⟩

/-- No tag and no entity has a mark in it. -/
lemma not_mark_of_mem (hw : w ∈ names ∨ w ∈ entities) (hc : c ∈ w) : isMark c = false := by
  rw [← Bool.not_eq_true]
  intro hmark
  rcases hw with hw | hw
  · exact (free_mark hmark).tags w hw hc
  · exact (free_mark hmark).entities w hw hc

lemma not_mark_of_mem_tag (hw : w ∈ names) (hc : c ∈ tag w) : isMark c = false := by
  rw [tag, List.cons_append, List.mem_cons, List.mem_append, List.mem_singleton] at hc
  rcases hc with rfl | hc | rfl
  · decide
  · exact not_mark_of_mem (.inl hw) hc
  · decide

lemma marked_wrap (hname : name ∈ ["code", "strong", "em", "h3", "h4", "p", "ul", "ol", "li"])
    (h : Marked names entities l) : Marked names entities (wrap name l) := by
  have hopen : name.toList ∈ names := List.mem_flatMap.mpr ⟨name, hname, List.mem_cons_self⟩
  have hclose : '/' :: name.toList ∈ names :=
    List.mem_flatMap.mpr ⟨name, hname, List.mem_cons_of_mem _ List.mem_cons_self⟩
  exact ((Marked.of_tag hopen).append h).append (Marked.of_tag hclose)

lemma replaceAll_some {rest : Text} (h : r.find free (c :: rest) = some (out, after)) :
    replaceAll r free (c :: rest) = out ++ replaceAll r false after := by
  rw [replaceAll]
  split
  · next out' after' h' =>
    rw [h] at h'
    cases h'
    rfl
  · next h' =>
    rw [h] at h'
    cases h'

lemma replaceAll_none {rest : Text} (h : r.find free (c :: rest) = none) :
    replaceAll r free (c :: rest) = c :: replaceAll r (c ≠ '*') rest := by
  rw [replaceAll]
  split
  · next out' after' h' =>
    rw [h] at h'
    cases h'
  · rfl

/-- A match begins with a mark. -/
lemma find_eq_none {rest : Text} (h : isMark c = false) : r.find free (c :: rest) = none := by
  rw [Option.eq_none_iff_forall_ne_some]
  rintro ⟨out, after⟩ hfind
  obtain ⟨opening, body, closing, name, hl, -, -, hopening, -, hmarks⟩ :=
    (r.sound free _ out after hfind).exists_body
  obtain ⟨d, opening, rfl⟩ := List.exists_cons_of_ne_nil hopening
  cases hl
  have hmark := hmarks c (List.mem_append_left _ List.mem_cons_self)
  rw [h] at hmark
  cases hmark

/-- What has no marks in it stays. -/
lemma replaceAll_word (hw : ∀ c ∈ w, isMark c = false) (free : Bool) (l : Text) :
    ∃ free', replaceAll r free (w ++ l) = w ++ replaceAll r free' l := by
  induction w generalizing free with
  | nil => exact ⟨free, rfl⟩
  | cons c w ih =>
    obtain ⟨free', hrest⟩ := ih (fun d hd => hw d (List.mem_cons_of_mem _ hd)) (c ≠ '*')
    refine ⟨free', ?_⟩
    rw [List.cons_append, replaceAll_none (find_eq_none (hw c List.mem_cons_self)), hrest]
    rfl

/-- Marks are taken off the front. -/
lemma marked_of_marks (hw : ∀ c ∈ w, isMark c = true) (h : Marked names entities (w ++ l)) :
    Marked names entities l := by
  induction w with
  | nil => exact h
  | cons c w ih =>
    exact ih (fun d hd => hw d (List.mem_cons_of_mem _ hd))
      (h.tail (free_mark (hw c List.mem_cons_self)))

/-- What stands between the marks is marked up by itself, and so is what follows. -/
lemma Match.marked (hmatch : Match l out after) (h : Marked names entities l) :
    ∃ opening body closing name, l = opening ++ (body ++ (closing ++ after)) ∧
      out = wrap name body ∧ name ∈ ["code", "strong", "em"] ∧
      (∀ c ∈ opening, isMark c = true) ∧ (∀ c ∈ closing, isMark c = true) ∧
      Marked names entities body ∧ Marked names entities after := by
  obtain ⟨opening, body, closing, name, rfl, hout, hname, -, hclosing, hmarks⟩ := hmatch.exists_body
  have hopen : ∀ c ∈ opening, isMark c = true := fun c hc => hmarks c (List.mem_append_left _ hc)
  have hclose : ∀ c ∈ closing, isMark c = true := fun c hc => hmarks c (List.mem_append_right _ hc)
  rw [List.append_assoc, List.append_assoc] at h
  have hbody := marked_of_marks hopen h
  obtain ⟨c, rest, rfl⟩ := List.exists_cons_of_ne_nil hclosing
  obtain ⟨hb, hrest⟩ := Marked.split (free_mark (hclose c List.mem_cons_self)) hbody
  refine ⟨opening, body, c :: rest, name, by simp, hout, hname, hopen, hclose, hb, ?_⟩
  exact marked_of_marks (fun d hd => hclose d (List.mem_cons_of_mem _ hd)) hrest

/-- The letters that are no marks. -/
def unmarked (l : Text) : Text := l.filter fun c => !isMark c

lemma unmarked_append (l l' : Text) : unmarked (l ++ l') = unmarked l ++ unmarked l' :=
  List.filter_append ..

lemma unmarked_of_marks (h : ∀ c ∈ w, isMark c = true) : unmarked w = [] := by
  refine List.filter_eq_nil_iff.mpr fun c hc => ?_
  rw [h c hc]
  decide

lemma names_closed (w : Text) (hw : w ∈ names) : '>' ∉ w := by
  revert w
  decide

lemma entities_open (w : Text) (hw : w ∈ entities) : '<' ∉ w := by
  revert w
  decide

lemma entities_pos (w : Text) (hw : w ∈ entities) : 0 < w.length := by
  revert w
  decide

lemma visible_append (h : Marked names entities l) (l' : Text) :
    visible (l ++ l') = visible l ++ visible l' := h.visible_append names_closed entities_open l'

lemma open_not_mem_marks (h : ∀ c ∈ w, isMark c = true) : '<' ∉ w := fun hmem =>
  absurd (h '<' hmem) (by decide)

lemma visible_wrap (hname : name ∈ ["code", "strong", "em"]) (h : Marked names entities l)
    (l' : Text) : visible (wrap name l ++ l') = visible l ++ visible l' := by
  have hnames : name.toList ∈ names ∧ '/' :: name.toList ∈ names := by
    rcases List.mem_cons.mp hname with rfl | hname
    · decide
    rcases List.mem_cons.mp hname with rfl | hname
    · decide
    rw [List.mem_singleton.mp hname]
    decide
  rw [wrap, List.append_assoc, List.append_assoc, visible_tag (names_closed _ hnames.1),
    visible_append h, visible_tag (names_closed _ hnames.2)]

/-- A rule puts tags where marks were, and leaves the other letters. -/
lemma replaceAll_spec (free : Bool) (h : Marked names entities l) :
    Marked names entities (replaceAll r free l) ∧
      unmarked (visible (replaceAll r free l)) = unmarked (visible l) := by
  induction hn : l.length using Nat.strongRecOn generalizing free l with
  | ind n ih =>
    cases h with
    | nil =>
      rw [replaceAll]
      exact ⟨.nil, rfl⟩
    | @tag w l hw hl =>
      -- no mark stands in a tag, which is copied as a whole
      obtain ⟨free', heq⟩ := replaceAll_word (r := r) (fun c hc => not_mark_of_mem_tag hw hc) free l
      obtain ⟨hm, hv⟩ := ih l.length (by simp [← hn, tag]; omega) free' hl rfl
      rw [heq, visible_tag (names_closed w hw), visible_tag (names_closed w hw)]
      exact ⟨.tag hw hm, hv⟩
    | @entity w l hw hl =>
      obtain ⟨free', heq⟩ := replaceAll_word (r := r) (fun c hc => not_mark_of_mem (.inr hw) hc) free l
      have hpos := entities_pos w hw
      obtain ⟨hm, hv⟩ := ih l.length (by simp [← hn]; omega) free' hl rfl
      rw [heq, visible_plain (entities_open w hw), visible_plain (entities_open w hw), unmarked_append,
        unmarked_append, hv]
      exact ⟨.entity hw hm, rfl⟩
    | @char c l hc hl =>
      cases hfind : r.find free (c :: l) with
      | none =>
        obtain ⟨hm, hv⟩ := ih l.length (by simp [← hn]) (c ≠ '*') hl rfl
        have hne : c ≠ '<' := by
          rintro rfl
          cases hc
        rw [replaceAll_none hfind, visible, visible, if_neg hne, if_neg hne]
        refine ⟨.char hc hm, ?_⟩
        rw [← List.singleton_append, ← List.singleton_append (l := visible l), unmarked_append,
          unmarked_append, hv]
      | some found =>
        obtain ⟨out, after⟩ := found
        -- the search goes on behind what was found, whence the induction on the length
        have hshort := r.shrinks hfind
        obtain ⟨opening, body, closing, name, heq, rfl, hname, hopen, hclose, hbody, hafter⟩ :=
          (r.sound free _ _ _ hfind).marked (.char hc hl)
        obtain ⟨hm, hv⟩ := ih after.length (hn ▸ hshort) false hafter rfl
        rw [replaceAll_some hfind]
        refine ⟨(marked_wrap (List.mem_of_mem_take (i := 3) hname) hbody).append hm, ?_⟩
        rw [visible_wrap hname hbody, heq, visible_plain (open_not_mem_marks hopen),
          visible_append hbody, visible_plain (open_not_mem_marks hclose)]
        simp only [unmarked_append, hv, unmarked_of_marks hopen, unmarked_of_marks hclose,
          List.nil_append]

lemma escapeHtml_eq (s : Text) : escapeHtml s = s.flatMap fun c =>
    if c = '&' then "&amp;".toList else if c = '<' then "&lt;".toList
      else if c = '>' then "&gt;".toList else [c] := by
  simp only [escapeHtml, replaceChar, List.flatMap_assoc]
  refine List.flatMap_congr fun c _ => ?_
  split_ifs with h₁ h₂ h₃
  · decide
  · rw [h₂]
    decide
  · rw [h₃]
    decide
  · simp [h₂, h₃]

lemma marked_escapeHtml (s : Text) : Marked names entities (escapeHtml s) := by
  rw [escapeHtml_eq]
  refine Marked.flatMap fun c _ => ?_
  split_ifs with h₁ h₂ h₃
  · exact .of_entity (by decide)
  · exact .of_entity (by decide)
  · exact .of_entity (by decide)
  · exact .char (by simp [isSpecial, h₁, h₂, h₃]) .nil

/-- **Nothing in a line becomes a tag, and nothing but marks goes.**  However the marks of a text
stand, its brackets and ampersands are escaped and the only tags are those that take the place of
marks; without its tags the line is the escaped text, up to marks. -/
theorem inline_spec (s : Text) : Marked names entities (inline s) ∧
    unmarked (visible (inline s)) = unmarked (escapeHtml s) := by
  obtain ⟨h₁, hv₁⟩ := replaceAll_spec (r := codeRule) true (marked_escapeHtml s)
  obtain ⟨h₂, hv₂⟩ := replaceAll_spec (r := strongRule) true h₁
  obtain ⟨h₃, hv₃⟩ := replaceAll_spec (r := emRule) true h₂
  have hplain : visible (escapeHtml s) = escapeHtml s := by
    have hopen : '<' ∉ escapeHtml s := by
      rw [escapeHtml_eq, List.mem_flatMap]
      rintro ⟨c, -, hmem⟩
      split_ifs at hmem with h₁ h₂ h₃
      · exact absurd hmem (by decide)
      · exact absurd hmem (by decide)
      · exact absurd hmem (by decide)
      · exact h₂ (List.mem_singleton.mp hmem).symm
    simpa [visible] using visible_plain hopen []
  exact ⟨h₃, by rw [inline, hv₃, hv₂, hv₁, hplain]⟩

end Inline

/-! ## Lines -/

/-- What `.` does not match. -/
def isLineBreak (c : Char) : Bool :=
  c = '\n' || c = '\r' || c.toNat = 0x2028 || c.toNat = 0x2029

/-- `\s+(.+)$`, in a line that does not end in a blank. -/
def afterBlank (l : Text) : Option Text :=
  let text := l.dropWhile isEcmaSpace
  if text.length < l.length && !text.isEmpty && !text.any isLineBreak then some text else none

/-- `^(#{1,6})\s+(.+)$`: the number of hashes, and the text. -/
def heading (line : Text) : Option (Nat × Text) :=
  let hashes := (line.takeWhile (· = '#')).length
  if 1 ≤ hashes && hashes ≤ 6 then (afterBlank (line.drop hashes)).map fun t => (hashes, t) else none

/-- `^\s*[-*]\s+(.+)$`. -/
def bullet (line : Text) : Option Text :=
  match line.dropWhile isEcmaSpace with
  | c :: rest => if c = '-' || c = '*' then afterBlank rest else none
  | [] => none

/-- `^\s*\d+[.)]\s+(.+)$`. -/
def num (line : Text) : Option Text :=
  let rest := line.dropWhile isEcmaSpace
  match rest.takeWhile Char.isDigit, rest.dropWhile Char.isDigit with
  | _ :: _, c :: rest => if c = '.' || c = ')' then afterBlank rest else none
  | _, _ => none

/-- The kind of a list. -/
inductive ListTag where
  | ul
  | ol
  deriving DecidableEq, Repr

def ListTag.name : ListTag → String
  | .ul => "ul"
  | .ol => "ol"

/-- The accumulators of `mdToHtml`. -/
structure Render where
  out : List Text
  list : Option ListTag
  para : List Text

namespace Render

def closeList (s : Render) : Render :=
  match s.list with
  | some kind => { s with out := s.out ++ [tag ('/' :: kind.name.toList)], list := none }
  | none => s

def flushPara (s : Render) : Render :=
  if s.para.isEmpty then s
  else { s with out := s.out ++ [wrap "p" (inline ([' '].intercalate s.para))], para := [] }

/-- An item, in the list that is open or in a new one. -/
def item (s : Render) (want : ListTag) (text : Text) : Render :=
  let s := s.flushPara
  let s := if s.list = some want then s
    else
      let s := s.closeList
      { s with out := s.out ++ [tag want.name.toList], list := some want }
  { s with out := s.out ++ [wrap "li" (inline text)] }

def line (s : Render) (raw : Text) : Render :=
  let line := raw.rdropWhile isEcmaSpace
  match heading line, bullet line, num line with
  | some (hashes, text), _, _ =>
    let s := s.flushPara.closeList
    -- the report's own sections are `##`
    { s with out := s.out ++ [wrap (if hashes ≤ 2 then "h3" else "h4") (inline text)] }
  | none, some text, _ => s.item .ul text
  | none, none, some text => s.item .ol text
  | none, none, none =>
    if (ecmaTrim line).isEmpty then s.flushPara.closeList
    else
      let s := s.closeList
      { s with para := s.para ++ [ecmaTrim line] }

end Render

/-- Render the report Markdown to HTML. -/
def mdToHtml (md : Text) : Text :=
  ((md.splitOn '\n').foldl Render.line ⟨[], none, []⟩).flushPara.closeList.out.flatten

/-! ## Blocks -/

/-- What a line is. -/
inductive Line where
  | heading (hashes : Nat) (text : Text)
  | item (kind : ListTag) (text : Text)
  | blank
  | text (text : Text)
  deriving DecidableEq, Repr

def classify (raw : Text) : Line :=
  let line := raw.rdropWhile isEcmaSpace
  match ReportMd.heading line, bullet line, num line with
  | some (hashes, text), _, _ => .heading hashes text
  | none, some text, _ => .item .ul text
  | none, none, some text => .item .ol text
  | none, none, none => if (ecmaTrim line).isEmpty then .blank else .text (ecmaTrim line)

/-- The blocks of a document. -/
inductive Block where
  | heading (hashes : Nat) (text : Text)
  | list (kind : ListTag) (items : List Text)
  | para (texts : List Text)

namespace Line

/-- The item of a list. -/
def item? (kind : ListTag) : Line → Option Text
  | .item kind' t => if kind' = kind then some t else none
  | _ => none

def text? : Line → Option Text
  | .text t => some t
  | _ => none

/-- The lines at the front that are of a kind, and the lines that follow. -/
def run (p : Line → Option Text) : List Line → List Text × List Line
  | [] => ([], [])
  | l :: lines =>
    match p l with
    | some t => (t :: (run p lines).1, (run p lines).2)
    | none => ([], l :: lines)

lemma length_run (p : Line → Option Text) (lines : List Line) :
    (run p lines).2.length ≤ lines.length := by
  induction lines with
  | nil => exact Nat.le_refl _
  | cons l lines ih =>
    rw [run]
    cases p l with
    | some t => exact ih.trans (Nat.le_succ _)
    | none => exact Nat.le_refl _

end Line

/-- Items of one kind that follow one another are one list, and lines of text one paragraph. -/
def blocks : List Line → List Block
  | [] => []
  | .heading hashes text :: lines => .heading hashes text :: blocks lines
  | .blank :: lines => blocks lines
  | .item kind text :: lines =>
    .list kind (text :: (Line.run (Line.item? kind) lines).1) ::
      blocks (Line.run (Line.item? kind) lines).2
  | .text text :: lines =>
    .para (text :: (Line.run Line.text? lines).1) :: blocks (Line.run Line.text? lines).2
  termination_by lines => lines.length
  decreasing_by
    · exact Nat.lt_succ_self _
    · exact Nat.lt_succ_self _
    · exact Nat.lt_succ_of_le (Line.length_run _ _)
    · exact Nat.lt_succ_of_le (Line.length_run _ _)

def items (texts : List Text) : Text := texts.flatMap fun t => wrap "li" (inline t)

def Block.html : Block → Text
  | .heading hashes text => wrap (if hashes ≤ 2 then "h3" else "h4") (inline text)
  | .list kind texts => wrap kind.name (items texts)
  | .para texts => wrap "p" (inline ([' '].intercalate texts))

def html (bs : List Block) : Text := bs.flatMap Block.html

/-! ## The accumulators -/

namespace Render

/-- What is done with a line of a kind. -/
def put (s : Render) : Line → Render
  | .heading hashes text =>
    { s.flushPara.closeList with
      out := s.flushPara.closeList.out ++ [wrap (if hashes ≤ 2 then "h3" else "h4") (inline text)] }
  | .item kind text => s.item kind text
  | .blank => s.flushPara.closeList
  | .text text => { s.closeList with para := s.closeList.para ++ [text] }

lemma line_eq_put (s : Render) (raw : Text) : s.line raw = s.put (classify raw) := by
  rw [line, classify]
  cases ReportMd.heading (raw.rdropWhile isEcmaSpace) with
  | some found => rfl
  | none =>
    cases bullet (raw.rdropWhile isEcmaSpace) with
    | some text => rfl
    | none =>
      cases num (raw.rdropWhile isEcmaSpace) with
      | some text => rfl
      | none =>
        simp only
        split_ifs <;> rfl

/-- The end of the document. -/
def finish (s : Render) : Text := s.flushPara.closeList.out.flatten

/-- What is still to come: the rest of the block that is open, and the blocks of the lines. -/
def coming (s : Render) (lines : List Line) : Text :=
  match s.list, s.para with
  | some kind, _ =>
    items (Line.run (Line.item? kind) lines).1 ++ tag ('/' :: kind.name.toList) ++
      html (blocks (Line.run (Line.item? kind) lines).2)
  | none, [] => html (blocks lines)
  | none, para =>
    wrap "p" (inline ([' '].intercalate (para ++ (Line.run Line.text? lines).1))) ++
      html (blocks (Line.run Line.text? lines).2)

/-- A paragraph and a list are never open at once. -/
def Tidy (s : Render) : Prop := s.list = none ∨ s.para = []

lemma Tidy.cases {s : Render} (h : s.Tidy) : s = ⟨s.out, none, []⟩ ∨
    (∃ kind, s = ⟨s.out, some kind, []⟩) ∨ ∃ t para, s = ⟨s.out, none, t :: para⟩ := by
  obtain ⟨out, list, para⟩ := s
  rcases h with hlist | hpara
  · cases hlist
    cases para with
    | nil => exact .inl rfl
    | cons t para => exact .inr (.inr ⟨t, para, rfl⟩)
  · cases hpara
    cases list with
    | none => exact .inl rfl
    | some kind => exact .inr (.inl ⟨kind, rfl⟩)

lemma finish_eq {s : Render} (h : s.Tidy) : s.finish = s.out.flatten ++ s.coming [] := by
  rcases h.cases with heq | ⟨kind, heq⟩ | ⟨t, para, heq⟩
  · rw [heq]
    simp [finish, flushPara, closeList, coming, html, blocks]
  · rw [heq]
    simp [finish, flushPara, closeList, coming, html, blocks, items, Line.run]
  · rw [heq]
    simp [finish, flushPara, closeList, coming, html, blocks, Line.run]

lemma html_cons (b : Block) (bs : List Block) : html (b :: bs) = b.html ++ html bs := rfl

/-- A line is taken up: what was to come is written, or still to come. -/
lemma put_coming {s : Render} (h : s.Tidy) (l : Line) (lines : List Line) :
    (s.put l).Tidy ∧
      (s.put l).out.flatten ++ (s.put l).coming lines = s.out.flatten ++ s.coming (l :: lines) := by
  rcases h.cases with heq | ⟨kind, heq⟩ | ⟨t, para, heq⟩
  · -- neither a list nor a paragraph is open
    rw [heq]
    cases l with
    | heading hashes text =>
      refine ⟨.inl rfl, ?_⟩
      simp [put, flushPara, closeList, coming, blocks, html_cons, Block.html]
    | item kind text =>
      refine ⟨.inr rfl, ?_⟩
      simp [put, Render.item, flushPara, closeList, coming, blocks, html_cons, Block.html, items, wrap]
    | blank =>
      refine ⟨.inl rfl, ?_⟩
      simp [put, flushPara, closeList, coming, blocks]
    | text text =>
      refine ⟨.inl rfl, ?_⟩
      simp [put, closeList, coming, blocks, html_cons, Block.html]
  · -- a list is open, which an item of its kind goes on
    rw [heq]
    cases l with
    | heading hashes text =>
      refine ⟨.inl rfl, ?_⟩
      simp [put, flushPara, closeList, coming, blocks, html_cons, Block.html, Line.run, Line.item?,
        items]
    | item kind' text =>
      by_cases hkind : kind = kind'
      · subst hkind
        refine ⟨.inr (by simp [put, Render.item, flushPara]), ?_⟩
        simp [put, Render.item, flushPara, coming, Line.run, Line.item?, items]
      · have hkind' : kind' ≠ kind := Ne.symm hkind
        refine ⟨.inr (by simp [put, Render.item, flushPara, closeList, hkind]), ?_⟩
        simp [put, Render.item, flushPara, closeList, coming, blocks, html_cons, Block.html, items,
          wrap, Line.run, Line.item?, hkind, hkind']
    | blank =>
      refine ⟨.inl rfl, ?_⟩
      simp [put, flushPara, closeList, coming, blocks, Line.run, Line.item?, items]
    | text text =>
      refine ⟨.inl rfl, ?_⟩
      simp [put, closeList, coming, blocks, html_cons, Block.html, Line.run, Line.item?, items]
  · -- a paragraph is open, which a line of text goes on
    rw [heq]
    cases l with
    | heading hashes text =>
      refine ⟨.inl rfl, ?_⟩
      simp [put, flushPara, closeList, coming, blocks, html_cons, Block.html, Line.run, Line.text?]
    | item kind text =>
      refine ⟨.inr (by simp [put, Render.item, flushPara, closeList]), ?_⟩
      simp [put, Render.item, flushPara, closeList, coming, blocks, html_cons, Block.html, items, wrap,
        Line.run, Line.text?]
    | blank =>
      refine ⟨.inl rfl, ?_⟩
      simp [put, flushPara, closeList, coming, blocks, Line.run, Line.text?]
    | text text =>
      refine ⟨.inl rfl, ?_⟩
      simp [put, closeList, coming, Line.run, Line.text?]

end Render

/-- **The accumulators group the lines into blocks.**  The HTML is that of the blocks of the
document: what is opened is closed, in its place, and items and lines of text stay together as long
as nothing else comes between them. -/
theorem mdToHtml_eq (md : Text) : mdToHtml md = html (blocks ((md.splitOn '\n').map classify)) := by
  have hfold : ∀ (raws : List Text) (s : Render), s.Tidy →
      (raws.foldl Render.line s).finish = s.out.flatten ++ s.coming (raws.map classify) := by
    intro raws
    induction raws with
    | nil => exact fun s h => Render.finish_eq h
    | cons raw raws ih =>
      intro s h
      obtain ⟨htidy, hput⟩ := Render.put_coming h (classify raw) (raws.map classify)
      rw [List.foldl_cons, Render.line_eq_put, ih _ htidy, hput, List.map_cons]
  exact hfold (md.splitOn '\n') ⟨[], none, []⟩ (.inl rfl)

/-- **A report is never markup of its own making**: whatever the model or the people it quotes have
written, the only tags of the HTML are those of the renderer. -/
theorem marked_mdToHtml (md : Text) : Marked names entities (mdToHtml md) := by
  rw [mdToHtml_eq]
  refine Marked.flatMap fun b _ => ?_
  cases b with
  | heading hashes text =>
    rw [Block.html]
    split_ifs
    · exact marked_wrap (by decide) (inline_spec _).1
    · exact marked_wrap (by decide) (inline_spec _).1
  | list kind texts =>
    have hitems : Marked names entities (items texts) :=
      Marked.flatMap fun t _ => marked_wrap (by decide) (inline_spec t).1
    cases kind with
    | ul => exact marked_wrap (by decide) hitems
    | ol => exact marked_wrap (by decide) hitems
  | para texts => exact marked_wrap (by decide) (inline_spec _).1

end VoxTranslate.Client.ReportMd
