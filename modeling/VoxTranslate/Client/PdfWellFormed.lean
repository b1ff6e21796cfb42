import VoxTranslate.Client.PdfExport

/-!
# The exported file is well formed (`jpegPagesToPdf` in `wb-export.ts`)

The exported file is read back by the reader of `Lib.Pdf`.  What is read has its table in place,
its references lead to objects of the right kind, and the pages are the images in their order.
-/

namespace VoxTranslate.Client.PdfExport

open Engine (Text)
open Lib

/-! ## What is read -/

/-- The file as it is read. -/
def exported (atob : Text → List Nat) (number : NumberText) (pages : List PdfPageImage) :
    Pdf.File :=
  ⟨Pdf.tokens (trailerDict (2 + pages.length * 3 + 1)),
    (numbered atob number pages).map fun q => q.1.obj q.2⟩

section Read

variable {atob : Text → List Nat} {number : NumberText} {pages : List PdfPageImage}
  {start : Nat} {offsets : List Nat} {line : Text}

lemma ascii_table (hline : Ascii line) : Ascii (Pdf.table start offsets line) := by
  have hentries : Ascii (offsets.flatMap Pdf.entry) := by
    intro c hc
    obtain ⟨o, -, hmem⟩ := List.mem_flatMap.mp hc
    have hentry : Ascii (Pdf.entry o) := Ascii.append_iff.mpr ⟨ascii_padded, by decide⟩
    exact hentry c hmem
  have hxref : Ascii Pdf.xref := by decide
  have hfree : Ascii Pdf.freeEntry := by decide
  have htrailer : Ascii Pdf.trailerWord := by decide
  have hstart : Ascii Pdf.startxref := by decide
  have heof : Ascii Pdf.eof := by decide
  have hbreak : ∀ t, Ascii ('\n' :: t) ↔ Ascii t := fun t => by
    rw [Ascii, List.forall_mem_cons, and_iff_right (by decide)]
    rfl
  rw [Pdf.table]
  simp only [Ascii.append_iff, hbreak]
  exact ⟨hxref, ascii_decimal, hfree, hentries, htrailer, hline, ⟨hstart, ascii_decimal⟩, heof⟩

lemma flatten_objectBytes : ((objectBytes atob number pages).map latin1).flatten =
    latin1 (objectBytes atob number pages).flatten := List.map_flatten.symm

/-- Where the objects start. -/
def objectOffsets (atob : Text → List Nat) (number : NumberText) (pages : List PdfPageImage) :
    List Nat := Pdf.offsetsFrom header.length (objectBytes atob number pages)

/-- Where the table starts. -/
def tableStart (atob : Text → List Nat) (number : NumberText) (pages : List PdfPageImage) : Nat :=
  header.length + (objectBytes atob number pages).flatten.length

lemma objectOffsets_eq : objectOffsets atob number pages =
    Pdf.offsetsFrom (latin1 header).length ((objectBytes atob number pages).map latin1) := by
  rw [length_latin1]
  exact (Pdf.offsetsFrom_map _ _ _).symm

lemma tableStart_eq : tableStart atob number pages =
    (latin1 header).length + ((objectBytes atob number pages).map latin1).flatten.length := by
  rw [flatten_objectBytes, length_latin1, length_latin1, tableStart]

lemma latin1_jpegPagesToPdf (atob : Text → List Nat) (number : NumberText) (hpages : pages ≠ []) :
    latin1 (jpegPagesToPdf atob number pages) =
      latin1 header ++ (((objectBytes atob number pages).map latin1).flatten ++
        Pdf.table (tableStart atob number pages) (objectOffsets atob number pages)
          (trailerDict (2 + pages.length * 3 + 1))) := by
  rw [jpegPagesToPdf_eq hpages, latin1_append, latin1_append, flatten_objectBytes,
    latin1_encode (ascii_table (tidy_trailerDict _).1)]
  rfl

lemma tableStart_lt (hpages : pages ≠ [])
    (hlength : (jpegPagesToPdf atob number pages).length < 10 ^ 10) :
    tableStart atob number pages < 10 ^ 10 := by
  rw [jpegPagesToPdf_eq hpages, List.length_append, List.length_append] at hlength
  rw [tableStart]
  omega

/-- The number of an object is its place. -/
lemma mem_zipIdx_numbered {α : Type*} {f : Part × Nat → α} {a : α} {num : Nat}
    (h : (a, num) ∈ ((numbered atob number pages).map f).zipIdx 1) :
    ∃ q ∈ numbered atob number pages, q.2 = num ∧ f q = a := by
  obtain ⟨hle, hget⟩ := List.mem_zipIdx_iff_le_and_getElem?_sub.mp h
  rw [List.getElem?_map] at hget
  obtain ⟨q, hq, rfl⟩ := Option.map_eq_some_iff.mp hget
  refine ⟨q, List.mem_of_getElem? hq, ?_, rfl⟩
  have hnum := congrArg (fun l : List Nat => l[num - 1]?) (map_snd_numbered atob number pages)
  have hlt : num - 1 < 2 + pages.length * 3 := by
    rw [← length_numbered atob number pages]
    exact (List.getElem?_eq_some_iff.mp hq).1
  rw [List.getElem?_map, hq, List.getElem?_range' hlt] at hnum
  have hplace := Option.some.inj hnum
  omega

/-- **The exported file is read back**, as long as the offsets fit into the table. -/
lemma read_jpegPagesToPdf (hpages : pages ≠ [])
    (hlength : (jpegPagesToPdf atob number pages).length < 10 ^ 10) :
    Pdf.read (latin1 (jpegPagesToPdf atob number pages)) = some (exported atob number pages) := by
  obtain ⟨parts, hparts⟩ : ∃ parts, parts = (numbered atob number pages).map fun q =>
    (latin1 (q.1.bytes q.2), q.1.obj q.2) := ⟨_, rfl⟩
  have htexts : parts.map Prod.fst = (objectBytes atob number pages).map latin1 := by
    rw [hparts, objectBytes, List.map_map, List.map_map]
    rfl
  have hobjs : parts.map Prod.snd = (exported atob number pages).objects := by
    rw [hparts, List.map_map]
    rfl
  have hline := tidy_trailerDict (2 + pages.length * 3 + 1)
  have hcount : parts.length = 2 + pages.length * 3 := by
    rw [hparts, List.length_map, length_numbered]
  have hsmall := tableStart_lt hpages hlength
  rw [tableStart_eq] at hsmall
  rw [latin1_jpegPagesToPdf atob number hpages, ← htexts]
  refine (Pdf.read_written (htexts ▸ hsmall) ?_ hline.2 ?_ (htexts ▸ tableStart_eq)
    (htexts ▸ objectOffsets_eq)).trans ?_
  · rintro ⟨p, num⟩ hp rest
    rw [hparts] at hp
    obtain ⟨q, hq, hnum, rfl⟩ := mem_zipIdx_numbered hp
    rw [← hnum]
    exact readObj_part (sound_of_mem_numbered hq) q.2 rest
  · rw [tokens_trailerDict, hcount]
    rfl
  · rw [hobjs]
    rfl

/-- The entry of an object is the offset at which it starts. -/
lemma entry_jpegPagesToPdf (hpages : pages ≠ []) {i o : Nat}
    (ho : (objectOffsets atob number pages)[i]? = some o) :
    decimal (i + 1) ++ " 0 obj\n".toList <+:
      (latin1 (jpegPagesToPdf atob number pages)).drop o := by
  rw [objectOffsets_eq] at ho
  obtain ⟨t, ht, hprefix⟩ := Pdf.prefix_drop_offset (latin1_jpegPagesToPdf atob number hpages) ho
  have hzip : (t, i + 1) ∈ ((numbered atob number pages).map fun q =>
      latin1 (q.1.bytes q.2)).zipIdx 1 := by
    rw [objectBytes, List.map_map] at ht
    exact List.mem_zipIdx_iff_le_and_getElem?_sub.mpr ⟨Nat.le_add_left 1 i, ht⟩
  obtain ⟨q, -, hnum, rfl⟩ := mem_zipIdx_numbered hzip
  have hascii : Ascii (decimal (i + 1) ++ Pdf.objWord) :=
    Ascii.append_iff.mpr ⟨ascii_decimal, by decide⟩
  refine List.IsPrefix.trans ?_ hprefix
  rw [Part.bytes, latin1_append, hnum, latin1_encode hascii]
  exact List.prefix_append _ _

/-- The table stands in its place, and names the places of the objects. -/
lemma table_jpegPagesToPdf (hpages : pages ≠ [])
    (hlength : (jpegPagesToPdf atob number pages).length < 10 ^ 10) :
    ∃ start offsets line, Pdf.startOf (latin1 (jpegPagesToPdf atob number pages)) = some start ∧
      (latin1 (jpegPagesToPdf atob number pages)).drop start = Pdf.table start offsets line ∧
      offsets.length = (exported atob number pages).objects.length ∧
      (∀ o ∈ offsets, (Pdf.entry o).length = 20) ∧
      ∀ i o, offsets[i]? = some o → decimal (i + 1) ++ " 0 obj\n".toList <+:
        (latin1 (jpegPagesToPdf atob number pages)).drop o := by
  have hfile := latin1_jpegPagesToPdf atob number hpages
  rw [← List.append_assoc] at hfile
  refine ⟨tableStart atob number pages, objectOffsets atob number pages,
    trailerDict (2 + pages.length * 3 + 1), ?_, ?_, ?_, fun o ho => ?_,
    fun i o ho => entry_jpegPagesToPdf hpages ho⟩
  · rw [hfile, Pdf.startOf_table]
  · rw [hfile]
    exact List.drop_left' (by rw [List.length_append, tableStart_eq])
  · rw [objectOffsets, Pdf.length_offsetsFrom, objectBytes, List.length_map, exported,
      List.length_map]
  · have hle : o ≤ tableStart atob number pages := Pdf.le_of_mem_offsetsFrom ho
    have hwidth : (padded 10 o).length = 10 :=
      length_padded (by decide) (hle.trans_lt (tableStart_lt hpages hlength))
    rw [Pdf.entry, List.length_append, hwidth]
    rfl

end Read

/-! ## Well-formed files -/

/-- What an object is. -/
inductive Kind where
  | catalog
  | pages
  | page
  | image
  | content
  deriving DecidableEq, Repr

def kind (o : Pdf.Obj) : Option Kind :=
  let type := Pdf.lookup "/Type".toList o.dict
  if o.stream = none then
    if type = some "/Catalog".toList then some .catalog
    else if type = some "/Pages".toList then some .pages
    else if type = some "/Page".toList then some .page else none
  else if type = some "/XObject".toList then some .image
  else if type = none then some .content else none

/-- What a reference after a name must lead to. -/
def expected (key : Text) : Option Kind :=
  if key = "/Root".toList then some .catalog
  else if key = "/Pages".toList ∨ key = "/Parent".toList then some .pages
  else if key = "/Kids".toList then some .page
  else if key = "/Im0".toList then some .image
  else if key = "/Contents".toList then some .content else none

def object (f : Pdf.File) (num : Nat) : Option Pdf.Obj := f.objects.find? fun o => o.num = num

/-- The numbers to which a dictionary refers after a name. -/
def targets (key : Text) (dict : List Text) : List Nat :=
  ((Pdf.refs [] dict).filter fun r => r.1 = key).map Prod.snd

/-- The node of the pages, from the root. -/
def node (f : Pdf.File) : Option Pdf.Obj := do
  let catalog ← object f (← (targets "/Root".toList f.trailer).head?)
  object f (← (targets "/Pages".toList catalog.dict).head?)

def kids (f : Pdf.File) : List Nat :=
  ((node f).map fun o => targets "/Kids".toList o.dict).getD []

/-- The image of a page. -/
def pageImage (f : Pdf.File) (num : Nat) : Option Text := do
  let page ← object f num
  (← object f (← (targets "/Im0".toList page.dict).head?)).stream

section Refs

variable {number : NumberText} {page : PdfPageImage} {n imgNum contentNum : Nat}
  {nums : List Nat}

lemma refs_trailerDict (size : Nat) : Pdf.refs [] (Pdf.tokens (trailerDict size)) =
    [("/Root".toList, 1)] := by
  rw [tokens_trailerDict]
  simp [Pdf.refs, parseDigits_decimal]

lemma refs_catalogDict : Pdf.refs [] (Pdf.tokens catalogDict) = [("/Pages".toList, 2)] := by
  rw [tokens_catalogDict]
  simp [Pdf.refs, parseDigits_decimal]

lemma refs_imageDict (length : Nat) :
    Pdf.refs [] (Pdf.tokens (imageDict number page length)) = [] := by
  rw [tokens_imageDict]
  simp [Pdf.refs]

lemma refs_contentDict (length : Nat) :
    Pdf.refs [] (Pdf.tokens (contentDict length)) = [] := by
  rw [tokens_contentDict]
  simp [Pdf.refs]

lemma refs_pageDict : Pdf.refs [] (Pdf.tokens (pageDict number page imgNum contentNum)) =
    [("/Parent".toList, 2), ("/Im0".toList, imgNum), ("/Contents".toList, contentNum)] := by
  rw [tokens_pageDict]
  simp [Pdf.refs, parseDigits_decimal, number.ne_R]

/-- The elements of an array of references. -/
lemma refs_array (key : Text) (nums : List Nat) :
    Pdf.refs key ((nums.flatMap fun n => [decimal n, ['0'], ['R']]) ++ [[']'], ">>".toList]) =
      nums.map fun n => (key, n) := by
  induction nums with
  | nil => rfl
  | cons n nums ih =>
    rw [List.flatMap_cons, List.append_assoc, List.cons_append, List.cons_append,
      List.cons_append, List.nil_append, Pdf.refs, if_pos ⟨rfl, rfl⟩, parseDigits_decimal, ih]
    rfl

lemma refs_pagesDict : Pdf.refs [] (Pdf.tokens (pagesDict n nums)) =
    nums.map fun n => ("/Kids".toList, n) := by
  rw [tokens_pagesDict, ← refs_array, List.append_assoc]
  cases nums with
  | nil => simp [Pdf.refs]
  | cons m nums => simp [Pdf.refs, decimal_ne_R]

end Refs

/-- A file that is read, whose table is in its place and whose references lead where they should. -/
structure WellFormed (text : Text) (f : Pdf.File) : Prop where
  read : Pdf.read text = some f
  /-- `startxref` is the place of the table; the entries of the table take twenty bytes each, and
  the entry of an object is the offset at which it starts. -/
  table : ∃ start offsets line, Pdf.startOf text = some start ∧
    text.drop start = Pdf.table start offsets line ∧ offsets.length = f.objects.length ∧
    (∀ o ∈ offsets, (Pdf.entry o).length = 20) ∧
    ∀ i o, offsets[i]? = some o → decimal (i + 1) ++ " 0 obj\n".toList <+: text.drop o
  size : Pdf.lookup "/Size".toList f.trailer = some (decimal (f.objects.length + 1))
  numbers : f.objects.map Pdf.Obj.num = List.range' 1 f.objects.length
  streams : ∀ o ∈ f.objects, ∀ s, o.stream = some s →
    Pdf.lookup "/Length".toList o.dict = some (decimal s.length)
  refs : ∀ dict ∈ f.trailer :: f.objects.map Pdf.Obj.dict, ∀ r ∈ Pdf.refs [] dict,
    ∃ o ∈ f.objects, o.num = r.2 ∧ ∃ k, expected r.1 = some k ∧ kind o = some k
  /-- The node of the pages lists each of them once, in the order in which they stand. -/
  listed : kids f = (f.objects.filter fun o => kind o = some .page).map Pdf.Obj.num
  count : (node f).bind (fun o => Pdf.lookup "/Count".toList o.dict) =
    some (decimal (kids f).length)

section Exported

variable {atob : Text → List Nat} {number : NumberText} {pages : List PdfPageImage}
  {page : PdfPageImage} {q : Part × Nat} {p : PdfPageImage × Nat} {k : Kind}

lemma catalog_mem_numbered (atob : Text → List Nat) (number : NumberText)
    (pages : List PdfPageImage) : (⟨catalogDict, none⟩, 1) ∈ numbered atob number pages :=
  List.mem_cons_self

lemma pages_mem_numbered (atob : Text → List Nat) (number : NumberText)
    (pages : List PdfPageImage) : (⟨pagesDict (max 1 pages.length) (pageNums pages), none⟩, 2) ∈
    numbered atob number pages := List.mem_cons_of_mem _ List.mem_cons_self

lemma mem_numbered_of_mem_trio (atob : Text → List Nat) (number : NumberText)
    (hp : p ∈ pages.zipIdx) (hq : q ∈ trio atob number p) :
    q ∈ numbered atob number pages :=
  List.mem_cons_of_mem _ (List.mem_cons_of_mem _ (List.mem_flatMap.mpr ⟨p, hp, hq⟩))

lemma nums_exported : (exported atob number pages).objects.map Pdf.Obj.num =
    List.range' 1 (exported atob number pages).objects.length := by
  have hnum : (numbered atob number pages).map (Pdf.Obj.num ∘ fun q => q.1.obj q.2) =
      (numbered atob number pages).map Prod.snd := rfl
  rw [exported, List.map_map, hnum, map_snd_numbered, List.length_map, length_numbered]

/-- An object is found by its number. -/
lemma object_exported (hq : q ∈ numbered atob number pages) :
    object (exported atob number pages) q.2 = some (q.1.obj q.2) := by
  have hnodup : ((numbered atob number pages).map Prod.snd).Nodup := by
    rw [map_snd_numbered]
    exact List.nodup_range'
  have hfind : ∀ l : List (Part × Nat), (l.map Prod.snd).Nodup → q ∈ l →
      (l.map fun q => q.1.obj q.2).find? (fun o => o.num = q.2) = some (q.1.obj q.2) := by
    intro l hl hq
    induction l with
    | nil => cases hq
    | cons q' l ih =>
      obtain ⟨hnot, hl'⟩ := List.nodup_cons.mp hl
      rw [List.map_cons]
      rcases List.mem_cons.mp hq with rfl | hmem
      · exact List.find?_cons_of_pos (by simp [Part.obj])
      · have hne : q'.2 ≠ q.2 := fun heq => hnot (heq ▸ List.mem_map_of_mem hmem)
        rw [List.find?_cons_of_neg (by simp [Part.obj, hne]), ih hl' hmem]
  exact hfind _ hnodup hq

lemma kind_catalog : kind ((⟨catalogDict, none⟩ : Part).obj 1) = some .catalog := by
  simp [kind, Part.obj, tokens_catalogDict, Pdf.lookup]

lemma kind_pages (n : Nat) (nums : List Nat) :
    kind ((⟨pagesDict n nums, none⟩ : Part).obj 2) = some .pages := by
  simp [kind, Part.obj, tokens_pagesDict, Pdf.lookup]

lemma kind_page (num imgNum contentNum : Nat) :
    kind ((⟨pageDict number page imgNum contentNum, none⟩ : Part).obj num) = some .page := by
  simp [kind, Part.obj, tokens_pageDict, Pdf.lookup]

lemma kind_image (num : Nat) : kind ((imagePart atob number page).obj num) = some .image := by
  simp [kind, Part.obj, imagePart, tokens_imageDict, Pdf.lookup]

lemma kind_content (num : Nat) : kind ((contentPart number page).obj num) = some .content := by
  have hne : ∀ n, decimal n ≠ "/Type".toList := fun n heq => decimal_head_ne n (heq ▸ rfl)
  simp at hne
  simp [kind, Part.obj, contentPart, tokens_contentDict, Pdf.lookup, hne]

lemma node_exported : node (exported atob number pages) =
    some ((⟨pagesDict (max 1 pages.length) (pageNums pages), none⟩ : Part).obj 2) := by
  have hroot : targets "/Root".toList (exported atob number pages).trailer = [1] := by
    rw [targets, exported, refs_trailerDict]
    rfl
  have hpages : targets "/Pages".toList (Pdf.tokens catalogDict) = [2] := by
    rw [targets, refs_catalogDict]
    rfl
  have hcatalog := object_exported (catalog_mem_numbered atob number pages)
  have hnode := object_exported (pages_mem_numbered atob number pages)
  dsimp only at hcatalog hnode
  simp only [node, hroot, List.head?_cons, Option.bind_eq_bind, Option.bind_some, hcatalog,
    Part.obj, hpages, hnode]

lemma kids_exported : kids (exported atob number pages) = pageNums pages := by
  have hkids : ∀ nums : List Nat, ((nums.map fun n => ("/Kids".toList, n)).filter
      fun r => r.1 = "/Kids".toList).map Prod.snd = nums := by
    intro nums
    rw [List.filter_eq_self.mpr fun r hr => by
      obtain ⟨n, -, rfl⟩ := List.mem_map.mp hr
      exact decide_eq_true rfl]
    rw [List.map_map]
    exact List.map_id nums
  rw [kids, node_exported, Option.map_some, Option.getD_some, Part.obj, targets, refs_pagesDict,
    hkids]

/-- The image of a page is the one that was given. -/
lemma pageImage_exported (hp : p ∈ pages.zipIdx) :
    pageImage (exported atob number pages) (5 + p.2 * 3) =
      some (latin1 (imageBytes atob p.1)) := by
  have hpage := object_exported (mem_numbered_of_mem_trio atob number hp
    (List.mem_cons_of_mem _ (List.mem_cons_of_mem _ List.mem_cons_self)))
  have himage := object_exported (mem_numbered_of_mem_trio atob number hp
    List.mem_cons_self)
  have htarget : targets "/Im0".toList
      (Pdf.tokens (pageDict number p.1 (3 + p.2 * 3) (4 + p.2 * 3))) = [3 + p.2 * 3] := by
    rw [targets, refs_pageDict]
    rfl
  dsimp only at hpage himage
  simp only [pageImage, hpage, Option.bind_eq_bind, Option.bind_some, Part.obj, htarget,
    List.head?_cons, himage]
  rfl

/-- Where an object is named, it is there. -/
lemma exists_target (hq : q ∈ numbered atob number pages) (hk : kind (q.1.obj q.2) = some k)
    {key : Text} (hkey : expected key = some k) :
    ∃ o ∈ (exported atob number pages).objects, o.num = q.2 ∧
      ∃ k, expected key = some k ∧ kind o = some k :=
  ⟨q.1.obj q.2, List.mem_map_of_mem hq, rfl, k, hkey, hk⟩

lemma refs_exported (hq : q ∈ numbered atob number pages) {r : Text × Nat}
    (hr : r ∈ Pdf.refs [] (Pdf.tokens q.1.dict)) :
    ∃ o ∈ (exported atob number pages).objects, o.num = r.2 ∧
      ∃ k, expected r.1 = some k ∧ kind o = some k := by
  rcases List.mem_cons.mp hq with rfl | hq
  · rw [refs_catalogDict, List.mem_singleton] at hr
    subst hr
    exact exists_target (pages_mem_numbered _ _ _) (kind_pages _ _) (by decide)
  rcases List.mem_cons.mp hq with rfl | hq
  · rw [refs_pagesDict] at hr
    obtain ⟨num, hnum, rfl⟩ := List.mem_map.mp hr
    obtain ⟨p, hp, rfl⟩ := List.mem_map.mp hnum
    have hkey : expected "/Kids".toList = some .page := by decide
    exact exists_target (mem_numbered_of_mem_trio _ _ hp
      (List.mem_cons_of_mem _ (List.mem_cons_of_mem _ List.mem_cons_self)))
      (kind_page _ _ _) hkey
  obtain ⟨p, hp, hq⟩ := List.mem_flatMap.mp hq
  rcases List.mem_cons.mp hq with rfl | hq
  · rw [imagePart, refs_imageDict] at hr
    cases hr
  rcases List.mem_cons.mp hq with rfl | hq
  · rw [contentPart, refs_contentDict] at hr
    cases hr
  · rw [List.mem_singleton.mp hq, refs_pageDict] at hr
    rcases List.mem_cons.mp hr with rfl | hr
    · exact exists_target (pages_mem_numbered _ _ _) (kind_pages _ _) (by decide)
    rcases List.mem_cons.mp hr with rfl | hr
    · have hkey : expected "/Im0".toList = some .image := by decide
      exact exists_target (mem_numbered_of_mem_trio _ _ hp List.mem_cons_self) (kind_image _) hkey
    · have hkey : expected "/Contents".toList = some .content := by decide
      rw [List.mem_singleton.mp hr]
      exact exists_target (mem_numbered_of_mem_trio _ _ hp
        (List.mem_cons_of_mem _ List.mem_cons_self)) (kind_content _) hkey

lemma refs_trailer_exported {r : Text × Nat}
    (hr : r ∈ Pdf.refs [] (exported atob number pages).trailer) :
    ∃ o ∈ (exported atob number pages).objects, o.num = r.2 ∧
      ∃ k, expected r.1 = some k ∧ kind o = some k := by
  rw [exported, refs_trailerDict, List.mem_singleton] at hr
  subst hr
  exact exists_target (catalog_mem_numbered _ _ _) kind_catalog (by decide)

/-- The pages among the objects. -/
lemma filter_page_exported :
    ((exported atob number pages).objects.filter fun o => kind o = some .page).map Pdf.Obj.num =
      pageNums pages := by
  have htrio : ∀ p : PdfPageImage × Nat,
      (((trio atob number p).map fun q => q.1.obj q.2).filter fun o =>
        kind o = some .page).map Pdf.Obj.num = [5 + p.2 * 3] := by
    intro p
    simp only [trio, List.map_cons, List.map_nil, List.filter_cons, kind_image, kind_content,
      kind_page]
    rfl
  have hhead : ∀ n nums, (([(⟨catalogDict, none⟩, 1), (⟨pagesDict n nums, none⟩, 2)] :
      List (Part × Nat)).map fun q => q.1.obj q.2).filter (fun o => kind o = some .page) = [] := by
    intro n nums
    simp only [List.map_cons, List.map_nil, List.filter_cons, kind_catalog, kind_pages]
    rfl
  have happend : numbered atob number pages =
      [(⟨catalogDict, none⟩, 1), (⟨pagesDict (max 1 pages.length) (pageNums pages), none⟩, 2)] ++
        pages.zipIdx.flatMap (trio atob number) := rfl
  rw [exported, happend, List.map_append, List.filter_append, hhead, List.nil_append,
    List.map_flatMap, List.filter_flatMap, List.map_flatMap, List.flatMap_congr fun p _ => htrio p]
  exact List.map_eq_flatMap.symm

end Exported

/-- **The exported file is well formed**, and its pages are the images in their order, as long as
the offsets fit into the table. -/
theorem jpegPagesToPdf_wellFormed (atob : Text → List Nat) (number : NumberText)
    (pages : List PdfPageImage) (hpages : pages ≠ [])
    (hlength : (jpegPagesToPdf atob number pages).length < 10 ^ 10) :
    ∃ f, WellFormed (latin1 (jpegPagesToPdf atob number pages)) f ∧
      (kids f).map (pageImage f) =
        pages.map fun page => some (latin1 (imageBytes atob page)) := by
  have hcount : (exported atob number pages).objects.length = 2 + pages.length * 3 := by
    rw [exported, List.length_map, length_numbered]
  refine ⟨exported atob number pages, ?_, ?_⟩
  · refine ⟨read_jpegPagesToPdf hpages hlength, ?_, ?_, nums_exported, ?_, ?_, ?_, ?_⟩
    · exact table_jpegPagesToPdf hpages hlength
    · rw [hcount, exported, tokens_trailerDict]
      rfl
    · intro o ho stream hstream
      obtain ⟨q, hq, rfl⟩ := List.mem_map.mp ho
      obtain ⟨⟨data, eol⟩, hdata, rfl⟩ := Option.map_eq_some_iff.mp hstream
      rw [length_latin1]
      exact ((sound_of_mem_numbered hq).stream data eol hdata).2
    · intro dict hdict r hr
      rcases List.mem_cons.mp hdict with rfl | hdict
      · exact refs_trailer_exported hr
      · obtain ⟨o, ho, rfl⟩ := List.mem_map.mp hdict
        obtain ⟨q, hq, rfl⟩ := List.mem_map.mp ho
        exact refs_exported hq hr
    · rw [kids_exported, filter_page_exported]
    · rw [node_exported, kids_exported, Option.bind_some, Part.obj, tokens_pagesDict, pageNums,
        List.length_map, List.length_zipIdx, max_eq_right (List.length_pos_iff.mpr hpages)]
      rfl
  · rw [kids_exported, pageNums, List.map_map]
    have himages : ∀ p ∈ pages.zipIdx,
        (pageImage (exported atob number pages) ∘ fun p => 5 + p.2 * 3) p =
          some (latin1 (imageBytes atob p.1)) := fun p hp => pageImage_exported hp
    rw [List.map_congr_left himages]
    conv_rhs => rw [← List.zipIdx_map_fst 0 pages, List.map_map]
    rfl

/-- One page with an image of three bytes. -/
theorem jpegPagesToPdf_wellFormed_one :
    let number : NumberText :=
      ⟨decimal, decimal_ne_nil, fun _ _ hc => .inl (isDigit_of_mem_decimal hc)⟩
    let page : PdfPageImage := ⟨"data:image/jpeg;base64,QUJD".toList, 100, 50⟩
    ∃ f, WellFormed (latin1 (jpegPagesToPdf (fun _ => [65, 66, 67]) number [page])) f ∧
      (kids f).map (pageImage f) = [some ['A', 'B', 'C']] := by
  intro number page
  exact jpegPagesToPdf_wellFormed (fun _ => [65, 66, 67]) number [page] (List.cons_ne_nil _ _)
    (by decide +kernel)

end VoxTranslate.Client.PdfExport
