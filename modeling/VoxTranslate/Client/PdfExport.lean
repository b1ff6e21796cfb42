import VoxTranslate.Engine.Qwen
import VoxTranslate.Lib.Join
import VoxTranslate.Lib.Pdf

/-!
# Exported whiteboards (`jpegPagesToPdf` in `wb-export.ts`)

The pages of a whiteboard are written as one PDF file, each as an image that fills it.  The file
is put together from chunks; where an object starts is the length of what was pushed before it.
What is written is the objects one after the other, between a header and a table of their places.
-/

namespace VoxTranslate.Client.PdfExport

open Engine (Text)
open Lib

/-- A page: a `data:` URL of a JPEG, and its size. -/
structure PdfPageImage where
  dataUrl : Text
  w : Nat
  h : Nat

/-- How a size is written in a text: in digits and, beyond `10 ^ 21`, with an exponent. -/
structure NumberText where
  text : Nat → Text
  ne_nil : ∀ n, text n ≠ []
  chars : ∀ n, ∀ c ∈ text n, c.isDigit = true ∨ c ∈ ['.', 'e', '+']

/-- `base64ToBytes`: the code units that `atob` gives. -/
def base64ToBytes (atob : Text → List Nat) (b64 : Text) : List UInt8 := (atob b64).map UInt8.ofNat

/-- What follows the first comma of the URL, or all of it. -/
def payload (dataUrl : Text) : Text := ((cut [','] dataUrl).map Prod.snd).getD dataUrl

def imageBytes (atob : Text → List Nat) (page : PdfPageImage) : List UInt8 :=
  base64ToBytes atob (payload page.dataUrl)

/-- `TextEncoder` -/
def encode (t : Text) : List UInt8 := t.flatMap String.utf8EncodeChar

/-! ## Writing -/

/-- The chunks, one after the other, their length, and where the objects start. -/
structure Writer where
  bytes : List UInt8
  len : Nat
  objOffset : List Nat
  deriving DecidableEq, Repr

namespace Writer

def push (data : List UInt8) (s : Writer) : Writer :=
  { s with bytes := s.bytes ++ data, len := s.len + data.length }

def pushText (t : Text) (s : Writer) : Writer := s.push (encode t)

def obj (num : Nat) (body : Writer → Writer) (s : Writer) : Writer :=
  let s := { s with objOffset := s.objOffset.set num s.len }
  (body (s.pushText (decimal num ++ " 0 obj\n".toList))).pushText "endobj\n".toList

end Writer

/-- Words with single spaces between them. -/
def spaced (ws : List Text) : Text := [' '].intercalate ws

/-- An indirect reference. -/
def ref (n : Nat) : Text := spaced [decimal n, "0".toList, "R".toList]

def catalogDict : Text :=
  spaced ["<<".toList, "/Type".toList, "/Catalog".toList, "/Pages".toList, ref 2, ">>".toList]

def pagesDict (n : Nat) (pageNums : List Nat) : Text :=
  spaced ["<<".toList, "/Type".toList, "/Pages".toList, "/Count".toList, decimal n,
    "/Kids".toList, '[' :: (spaced (pageNums.map ref) ++ [']']), ">>".toList]

def imageDict (number : NumberText) (page : PdfPageImage) (length : Nat) : Text :=
  spaced ["<<".toList, "/Type".toList, "/XObject".toList, "/Subtype".toList, "/Image".toList,
    "/Width".toList, number.text page.w, "/Height".toList, number.text page.h,
    "/ColorSpace".toList, "/DeviceRGB".toList, "/BitsPerComponent".toList, "8".toList,
    "/Filter".toList, "/DCTDecode".toList, "/Length".toList, decimal length, ">>".toList]

def content (number : NumberText) (page : PdfPageImage) : Text :=
  "q\n".toList ++ number.text page.w ++ " 0 0 ".toList ++ number.text page.h ++
    " 0 0 cm\n/Im0 Do\nQ\n".toList

def contentDict (length : Nat) : Text :=
  spaced ["<<".toList, "/Length".toList, decimal length, ">>".toList]

def pageDict (number : NumberText) (page : PdfPageImage) (imgNum contentNum : Nat) : Text :=
  spaced ["<<".toList, "/Type".toList, "/Page".toList, "/Parent".toList, ref 2,
    "/MediaBox".toList, "[0".toList, "0".toList, number.text page.w,
    number.text page.h ++ [']'], "/Resources".toList, "<<".toList, "/XObject".toList,
    "<<".toList, "/Im0".toList, ref imgNum, ">>".toList, ">>".toList, "/Contents".toList,
    ref contentNum, ">>".toList]

def trailerDict (size : Nat) : Text :=
  spaced ["<<".toList, "/Size".toList, decimal size, "/Root".toList, ref 1, ">>".toList]

/-- The three objects of a page. -/
def writePage (atob : Text → List Nat) (number : NumberText) (s : Writer)
    (p : PdfPageImage × Nat) : Writer :=
  let (page, i) := p
  let imgNum := 3 + i * 3
  let contentNum := 4 + i * 3
  let pageNum := 5 + i * 3
  let bytes := imageBytes atob page
  let s := s.obj imgNum fun s =>
    ((s.pushText (imageDict number page bytes.length ++ "\nstream\n".toList)).push bytes).pushText
      "\nendstream\n".toList
  let content := content number page
  let s := s.obj contentNum fun s => s.pushText
    (contentDict (encode content).length ++ "\nstream\n".toList ++ content ++ "endstream\n".toList)
  s.obj pageNum fun s => s.pushText (pageDict number page imgNum contentNum ++ ['\n'])

def writeEntry (s : Writer) (i : Nat) : Writer :=
  s.pushText (padded 10 (s.objOffset.getD i 0) ++ " 00000 n \n".toList)

/-- The bytes of the exported file. -/
def jpegPagesToPdf (atob : Text → List Nat) (number : NumberText) (pages : List PdfPageImage) :
    List UInt8 :=
  let n := max 1 pages.length
  let objCount := 2 + n * 3
  let s : Writer := ⟨[], 0, List.replicate (objCount + 1) 0⟩
  let s := (s.pushText "%PDF-1.3\n".toList).push [0x25, 0xff, 0xff, 0xff, 0xff, 0x0a]
  let pageNums := pages.zipIdx.map fun p => 5 + p.2 * 3
  let s := s.obj 1 fun s => s.pushText (catalogDict ++ ['\n'])
  let s := s.obj 2 fun s => s.pushText (pagesDict n pageNums ++ ['\n'])
  let s := pages.zipIdx.foldl (writePage atob number) s
  let xref := s.len
  let s := s.pushText ("xref\n0 ".toList ++ decimal (objCount + 1) ++ ['\n'])
  let s := s.pushText "0000000000 65535 f \n".toList
  let s := (List.range' 1 objCount).foldl writeEntry s
  let s := s.pushText ("trailer\n".toList ++ trailerDict (objCount + 1) ++
    "\nstartxref\n".toList ++ decimal xref ++ "\n%%EOF\n".toList)
  s.bytes

/-! ## The letters of the bytes -/

def latin1 (bytes : List UInt8) : Text := bytes.map fun b => Char.ofNat b.toNat

/-- Every character is one byte. -/
def Ascii (t : Text) : Prop := ∀ c ∈ t, c.toNat < 128

instance (t : Text) : Decidable (Ascii t) := List.decidableBAll (fun c : Char => c.toNat < 128) t

section Letters

variable {t t' : Text} {ws : List Text} {n width : Nat}

lemma encode_append (t t' : Text) : encode (t ++ t') = encode t ++ encode t' :=
  List.flatMap_append

lemma latin1_append (b b' : List UInt8) : latin1 (b ++ b') = latin1 b ++ latin1 b' :=
  List.map_append

lemma length_latin1 (b : List UInt8) : (latin1 b).length = b.length := List.length_map ..

lemma Ascii.append_iff : Ascii (t ++ t') ↔ Ascii t ∧ Ascii t' := List.forall_mem_append

/-- Characters of one byte are read back from the bytes. -/
lemma latin1_encode (h : Ascii t) : latin1 (encode t) = t := by
  induction t with
  | nil => rfl
  | cons c t ih =>
    obtain ⟨hc, ht⟩ := List.forall_mem_cons.mp h
    have hbyte : encode (c :: t) = UInt8.ofNat c.toNat :: encode t := by
      have hle : c.val.toNat ≤ 127 := by
        have hval : c.val.toNat = c.toNat := rfl
        omega
      rw [encode, List.flatMap_cons, String.utf8EncodeChar, if_pos hle]
      rfl
    have hback : Char.ofNat (UInt8.ofNat c.toNat).toNat = c := by
      rw [UInt8.toNat_ofNat', Nat.mod_eq_of_lt (by omega), Char.ofNat_toNat]
    have htail : latin1 (encode t) = t := ih ht
    rw [hbyte, latin1, List.map_cons, hback]
    exact congrArg (c :: ·) htail

lemma ascii_padded : Ascii (padded width n) := by
  intro c hc
  have hdigit := isDigit_of_mem_padded hc
  have hle : c.toNat ≤ '9'.toNat := (Char.isDigit_iff_toNat.mp hdigit).2
  exact hle.trans_lt (by decide)

lemma ascii_decimal : Ascii (decimal n) := by
  rw [decimal_eq_padded]
  exact ascii_padded

lemma ascii_spaced (h : ∀ w ∈ ws, Ascii w) : Ascii (spaced ws) := by
  intro c hc
  rcases mem_intercalate hc with rfl | ⟨w, hw, hmem⟩
  · decide
  · exact h w hw c hmem

lemma newline_not_mem_spaced (h : ∀ w ∈ ws, '\n' ∉ w) : '\n' ∉ spaced ws := by
  intro hmem
  rcases mem_intercalate hmem with heq | ⟨w, hw, hmem⟩
  · exact absurd heq (by decide)
  · exact h w hw hmem

end Letters

/-! ## Objects as they are written -/

/-- The dictionary of an object and its stream, with what stands before the end of it. -/
structure Part where
  dict : Text
  stream : Option (List UInt8 × Text)

/-- What is written for an object. -/
def Part.bytes (num : Nat) (p : Part) : List UInt8 :=
  encode (decimal num ++ Pdf.objWord) ++ (encode (p.dict ++ ['\n']) ++
    match p.stream with
    | none => encode Pdf.endobj
    | some (data, eol) => encode Pdf.streamWord ++ (data ++ (encode eol ++ encode Pdf.closing)))

/-- What is read of it. -/
def Part.obj (num : Nat) (p : Part) : Pdf.Obj :=
  ⟨num, Pdf.tokens p.dict, p.stream.map fun s => latin1 s.1⟩

/-- A dictionary on one line, with the length of the stream. -/
structure Part.Sound (p : Part) : Prop where
  ascii : Ascii p.dict
  line : '\n' ∉ p.dict
  stream : ∀ data eol, p.stream = some (data, eol) → (eol = [] ∨ eol = ['\n']) ∧
    Pdf.lookup Pdf.lengthKey (Pdf.tokens p.dict) = some (decimal data.length)

lemma readObj_part {p : Part} (h : p.Sound) (num : Nat) (rest : Text) :
    Pdf.readObj num (latin1 (p.bytes num) ++ rest) = some (p.obj num, rest) := by
  have hnum : Ascii (decimal num ++ Pdf.objWord) :=
    Ascii.append_iff.mpr ⟨ascii_decimal, by decide⟩
  have hdict : Ascii (p.dict ++ ['\n']) := Ascii.append_iff.mpr ⟨h.ascii, by decide⟩
  have hend : Ascii Pdf.endobj := by decide
  have hstream : Ascii Pdf.streamWord := by decide
  have hclosing : Ascii Pdf.closing := by decide
  rw [Part.bytes, Part.obj]
  cases hp : p.stream with
  | none =>
    have hread := Pdf.readObj_plain num h.line rest
    simp only [latin1_append, latin1_encode hnum, latin1_encode hdict, latin1_encode hend,
      List.append_assoc, List.singleton_append, Option.map_none] at hread ⊢
    exact hread
  | some s =>
    obtain ⟨data, eol⟩ := s
    obtain ⟨heol, hlength⟩ := h.stream data eol hp
    have hascii : Ascii eol := by
      rcases heol with rfl | rfl
      all_goals decide
    rw [← length_latin1] at hlength
    have hread := Pdf.readObj_stream num h.line hlength heol rest
    simp only [latin1_append, latin1_encode hnum, latin1_encode hdict, latin1_encode hstream,
      latin1_encode hascii, latin1_encode hclosing, List.append_assoc, List.cons_append,
      Option.map_some] at hread ⊢
    exact hread

/-! ## Dictionaries -/

/-- One line of characters of one byte. -/
def Tidy (t : Text) : Prop := Ascii t ∧ '\n' ∉ t

instance (t : Text) : Decidable (Tidy t) := inferInstanceAs (Decidable (_ ∧ _))

section Dictionaries

variable {number : NumberText} {page : PdfPageImage} {n : Nat} {ws : List Text} {t : Text}

lemma tidy_spaced (h : ∀ w ∈ ws, Tidy w) : Tidy (spaced ws) :=
  ⟨ascii_spaced fun w hw => (h w hw).1, newline_not_mem_spaced fun w hw => (h w hw).2⟩

lemma tidy_decimal (n : Nat) : Tidy (decimal n) :=
  ⟨ascii_decimal, not_mem_decimal (by decide)⟩

lemma tidy_ref (n : Nat) : Tidy (ref n) := by
  refine tidy_spaced ?_
  simp only [List.forall_mem_cons, tidy_decimal, true_and]
  decide

namespace NumberText

lemma not_mem (number : NumberText) (n : Nat) {c : Char} (hdigit : c.isDigit = false)
    (hother : c ∉ ['.', 'e', '+']) : c ∉ number.text n := by
  intro hmem
  rcases number.chars n c hmem with h | h
  · rw [hdigit] at h
    cases h
  · exact hother h

lemma tidy (number : NumberText) (n : Nat) : Tidy (number.text n) := by
  refine ⟨fun c hc => ?_, number.not_mem n (by decide) (by decide)⟩
  rcases number.chars n c hc with hdigit | hother
  · exact (Char.isDigit_iff_toNat.mp hdigit).2.trans_lt (by decide)
  · have hall : Ascii ['.', 'e', '+'] := by decide
    exact hall c hother

lemma plain (number : NumberText) (n : Nat) : Pdf.Plain (number.text n) := by
  refine Pdf.plain_of_not_mem (number.ne_nil n) fun c hc => ?_
  simp only [List.mem_cons, List.not_mem_nil, or_false] at hc
  rcases hc with rfl | rfl | rfl | rfl
  all_goals exact number.not_mem n (by decide) (by decide)

lemma ne_R (number : NumberText) (n : Nat) : number.text n ≠ ['R'] := by
  intro heq
  exact number.not_mem n (c := 'R') (by decide) (by decide) (heq ▸ List.mem_singleton_self 'R')

lemma head_ne (number : NumberText) (n : Nat) : (number.text n).head? ≠ some '/' := fun heq =>
  number.not_mem n (by decide) (by decide) (List.mem_of_mem_head? heq)

/-- A number is no name. -/
lemma ne_name (number : NumberText) (n : Nat) {name : Text} (h : name.head? = some '/') :
    number.text n ≠ name := fun heq => number.head_ne n (heq ▸ h)

end NumberText

lemma decimal_ne_R (n : Nat) : decimal n ≠ ['R'] := by
  intro heq
  have hmem : 'R' ∈ decimal n := heq ▸ List.mem_singleton_self 'R'
  exact not_mem_decimal (by decide) hmem

lemma decimal_head_ne (n : Nat) : (decimal n).head? ≠ some '/' := fun heq =>
  not_mem_decimal (by decide) (List.mem_of_mem_head? heq)

lemma tokens_ref (n : Nat) : Pdf.tokens (ref n) = [decimal n, ['0'], ['R']] := by
  have hplain : ∀ w ∈ [decimal n, "0".toList, "R".toList], Pdf.Plain w := by
    simp only [List.forall_mem_cons, Pdf.plain_decimal, true_and]
    decide
  rw [ref, spaced, Pdf.tokens_intercalate, Pdf.flatMap_tokens_plain hplain]
  rfl

lemma tokens_imageDict (length : Nat) : Pdf.tokens (imageDict number page length) =
    ["<<".toList, "/Type".toList, "/XObject".toList, "/Subtype".toList, "/Image".toList,
      "/Width".toList, number.text page.w, "/Height".toList, number.text page.h,
      "/ColorSpace".toList, "/DeviceRGB".toList, "/BitsPerComponent".toList, "8".toList,
      "/Filter".toList, "/DCTDecode".toList, "/Length".toList, decimal length,
      ">>".toList] := by
  rw [imageDict, spaced, Pdf.tokens_intercalate, Pdf.flatMap_tokens_plain]
  simp only [List.forall_mem_cons, Pdf.plain_decimal, number.plain, true_and]
  decide

lemma tokens_contentDict (length : Nat) : Pdf.tokens (contentDict length) =
    ["<<".toList, "/Length".toList, decimal length, ">>".toList] := by
  rw [contentDict, spaced, Pdf.tokens_intercalate, Pdf.flatMap_tokens_plain]
  simp only [List.forall_mem_cons, Pdf.plain_decimal, true_and]
  decide

lemma tokens_decimal (n : Nat) : Pdf.tokens (decimal n) = [decimal n] :=
  Pdf.tokens_plain (Pdf.plain_decimal n)

lemma tokens_number (n : Nat) : Pdf.tokens (number.text n) = [number.text n] :=
  Pdf.tokens_plain (number.plain n)

lemma tokens_trailerDict (size : Nat) : Pdf.tokens (trailerDict size) =
    ["<<".toList, "/Size".toList, decimal size, "/Root".toList, decimal 1, ['0'], ['R'],
      ">>".toList] := by
  rw [trailerDict, spaced, Pdf.tokens_intercalate]
  simp (disch := decide) only [List.flatMap_cons, List.flatMap_nil, tokens_ref, tokens_decimal,
    Pdf.tokens_plain, List.append_nil, List.cons_append, List.nil_append]

lemma tokens_catalogDict : Pdf.tokens catalogDict =
    ["<<".toList, "/Type".toList, "/Catalog".toList, "/Pages".toList, decimal 2, ['0'], ['R'],
      ">>".toList] := by
  rw [catalogDict, spaced, Pdf.tokens_intercalate]
  simp (disch := decide) only [List.flatMap_cons, List.flatMap_nil, tokens_ref,
    Pdf.tokens_plain, List.append_nil, List.cons_append, List.nil_append]

lemma tokens_pageDict (imgNum contentNum : Nat) :
    Pdf.tokens (pageDict number page imgNum contentNum) =
      ["<<".toList, "/Type".toList, "/Page".toList, "/Parent".toList, decimal 2, ['0'], ['R'],
        "/MediaBox".toList, ['['], ['0'], ['0'], number.text page.w, number.text page.h, [']'],
        "/Resources".toList, "<<".toList, "/XObject".toList, "<<".toList, "/Im0".toList,
        decimal imgNum, ['0'], ['R'], ">>".toList, ">>".toList, "/Contents".toList,
        decimal contentNum, ['0'], ['R'], ">>".toList] := by
  have hopen : Pdf.tokens "[0".toList = [['['], ['0']] := by decide
  have hclose : Pdf.tokens (number.text page.h ++ [']']) = [number.text page.h, [']']] := by
    rw [Pdf.tokens_append_bracket (by decide), tokens_number]
    rfl
  rw [pageDict, spaced, Pdf.tokens_intercalate]
  simp only [List.flatMap_cons, List.flatMap_nil, hopen, hclose]
  simp (disch := decide) only [tokens_ref, tokens_number, Pdf.tokens_plain, List.append_nil,
    List.cons_append, List.nil_append]
  rfl

lemma tokens_pagesDict (n : Nat) (nums : List Nat) : Pdf.tokens (pagesDict n nums) =
    ["<<".toList, "/Type".toList, "/Pages".toList, "/Count".toList, decimal n, "/Kids".toList,
      ['[']] ++ (nums.flatMap fun n => [decimal n, ['0'], ['R']]) ++ [[']'], ">>".toList] := by
  have hkids : Pdf.tokens ('[' :: (spaced (nums.map ref) ++ [']'])) =
      ['['] :: ((nums.flatMap fun n => [decimal n, ['0'], ['R']]) ++ [[']']]) := by
    rw [← List.nil_append ('[' :: _), Pdf.tokens_append_bracket (by decide),
      Pdf.tokens_append_bracket (by decide), spaced, Pdf.tokens_intercalate, List.flatMap_map,
      List.flatMap_congr fun n _ => tokens_ref n]
    rfl
  rw [pagesDict, spaced, Pdf.tokens_intercalate]
  simp only [List.flatMap_cons, List.flatMap_nil, hkids]
  simp (disch := decide) only [tokens_decimal, Pdf.tokens_plain, List.append_nil,
    List.cons_append, List.nil_append, List.append_assoc]

lemma tidy_catalogDict : Tidy catalogDict := by
  refine tidy_spaced ?_
  simp only [List.forall_mem_cons, tidy_ref, true_and]
  decide

lemma tidy_pagesDict (n : Nat) (nums : List Nat) : Tidy (pagesDict n nums) := by
  have hkids : Tidy ('[' :: (spaced (nums.map ref) ++ [']'])) := by
    have hrefs : Tidy (spaced (nums.map ref)) := tidy_spaced fun w hw => by
      obtain ⟨n, -, rfl⟩ := List.mem_map.mp hw
      exact tidy_ref n
    refine ⟨List.forall_mem_cons.mpr ⟨by decide, Ascii.append_iff.mpr ⟨hrefs.1, by decide⟩⟩, ?_⟩
    simp [hrefs.2]
  refine tidy_spaced ?_
  simp only [List.forall_mem_cons, tidy_decimal, hkids, true_and]
  decide

lemma tidy_imageDict (length : Nat) : Tidy (imageDict number page length) := by
  refine tidy_spaced ?_
  simp only [List.forall_mem_cons, tidy_decimal, number.tidy, true_and]
  decide

lemma tidy_contentDict (length : Nat) : Tidy (contentDict length) := by
  refine tidy_spaced ?_
  simp only [List.forall_mem_cons, tidy_decimal, true_and]
  decide

lemma tidy_pageDict (imgNum contentNum : Nat) :
    Tidy (pageDict number page imgNum contentNum) := by
  have hclose : Tidy (number.text page.h ++ [']']) := by
    refine ⟨Ascii.append_iff.mpr ⟨(number.tidy _).1, by decide⟩, ?_⟩
    simp [(number.tidy page.h).2]
  refine tidy_spaced ?_
  simp only [List.forall_mem_cons, tidy_ref, number.tidy, hclose, true_and]
  decide

lemma tidy_trailerDict (size : Nat) : Tidy (trailerDict size) := by
  refine tidy_spaced ?_
  simp only [List.forall_mem_cons, tidy_decimal, tidy_ref, true_and]
  decide

end Dictionaries

/-! ## The objects of a file -/

def imagePart (atob : Text → List Nat) (number : NumberText) (page : PdfPageImage) : Part :=
  ⟨imageDict number page (imageBytes atob page).length, some (imageBytes atob page, ['\n'])⟩

def contentPart (number : NumberText) (page : PdfPageImage) : Part :=
  ⟨contentDict (encode (content number page)).length, some (encode (content number page), [])⟩

/-- The objects of a page with their numbers. -/
def trio (atob : Text → List Nat) (number : NumberText) (p : PdfPageImage × Nat) :
    List (Part × Nat) :=
  [(imagePart atob number p.1, 3 + p.2 * 3), (contentPart number p.1, 4 + p.2 * 3),
    (⟨pageDict number p.1 (3 + p.2 * 3) (4 + p.2 * 3), none⟩, 5 + p.2 * 3)]

def pageNums (pages : List PdfPageImage) : List Nat := pages.zipIdx.map fun p => 5 + p.2 * 3

/-- All objects with their numbers. -/
def numbered (atob : Text → List Nat) (number : NumberText) (pages : List PdfPageImage) :
    List (Part × Nat) :=
  (⟨catalogDict, none⟩, 1) :: (⟨pagesDict (max 1 pages.length) (pageNums pages), none⟩, 2) ::
    pages.zipIdx.flatMap (trio atob number)

section Parts

variable {atob : Text → List Nat} {number : NumberText} {pages : List PdfPageImage}
  {page : PdfPageImage} {q : Part × Nat}

lemma sound_plain {t : Text} (h : Tidy t) : Part.Sound ⟨t, none⟩ :=
  ⟨h.1, h.2, fun _ _ hs => by cases hs⟩

lemma sound_imagePart : (imagePart atob number page).Sound := by
  have htidy : Tidy (imageDict number page (imageBytes atob page).length) := tidy_imageDict _
  refine ⟨htidy.1, htidy.2, fun data eol hs => ?_⟩
  obtain ⟨rfl, rfl⟩ := Prod.mk.inj (Option.some.inj hs)
  refine ⟨.inr rfl, ?_⟩
  rw [imagePart, tokens_imageDict]
  have hnumber : ∀ n, number.text n ≠ Pdf.lengthKey := fun n => number.ne_name n (by decide)
  simp (disch := first | decide | apply hnumber) only [Pdf.lookup_cons_of_ne]
  exact Pdf.lookup_cons_self

lemma sound_contentPart : (contentPart number page).Sound := by
  have htidy := tidy_contentDict (encode (content number page)).length
  refine ⟨htidy.1, htidy.2, fun data eol hs => ?_⟩
  obtain ⟨rfl, rfl⟩ := Prod.mk.inj (Option.some.inj hs)
  refine ⟨.inl rfl, ?_⟩
  rw [contentPart, tokens_contentDict]
  rfl

lemma sound_of_mem_numbered (h : q ∈ numbered atob number pages) : q.1.Sound := by
  rcases List.mem_cons.mp h with rfl | h
  · exact sound_plain tidy_catalogDict
  rcases List.mem_cons.mp h with rfl | h
  · exact sound_plain (tidy_pagesDict _ _)
  obtain ⟨p, -, h⟩ := List.mem_flatMap.mp h
  rcases List.mem_cons.mp h with rfl | h
  · exact sound_imagePart
  rcases List.mem_cons.mp h with rfl | h
  · exact sound_contentPart
  · rw [List.mem_singleton.mp h]
    exact sound_plain (tidy_pageDict _ _)

/-- The objects are numbered one after the other. -/
lemma map_snd_numbered (atob : Text → List Nat) (number : NumberText)
    (pages : List PdfPageImage) :
    (numbered atob number pages).map Prod.snd = List.range' 1 (2 + pages.length * 3) := by
  have htrios : ∀ i, ((pages.zipIdx i).flatMap (trio atob number)).map Prod.snd =
      List.range' (3 + i * 3) (pages.length * 3) := by
    induction pages with
    | nil => exact fun _ => rfl
    | cons page pages ih =>
      intro i
      have hlength : (page :: pages).length * 3 = pages.length * 3 + 3 := by
        rw [List.length_cons]
        omega
      have hnext : 3 + (i + 1) * 3 = 3 + i * 3 + 1 + 1 + 1 := by omega
      rw [List.zipIdx_cons, List.flatMap_cons, List.map_append, ih, hlength, hnext]
      simp only [List.range'_succ, trio, List.map_cons, List.map_nil, List.cons_append,
        List.nil_append, show 4 + i * 3 = 3 + i * 3 + 1 by omega,
        show 5 + i * 3 = 3 + i * 3 + 1 + 1 by omega]
  rw [numbered, List.map_cons, List.map_cons, htrios, Nat.add_comm 2]
  rfl

end Parts

/-! ## What is written -/

/-- An object is entered in the table, and its bytes are pushed. -/
def Writer.put (s : Writer) (q : Part × Nat) : Writer :=
  { s with objOffset := s.objOffset.set q.2 s.len }.push (q.1.bytes q.2)

section Written

variable {atob : Text → List Nat} {number : NumberText} {pages : List PdfPageImage}
  {s : Writer} {num k : Nat} {data : List UInt8} {body : Writer → Writer} {t : Text}
  {l : List (Part × Nat)}

lemma push_push (s : Writer) (data data' : List UInt8) :
    (s.push data).push data' = s.push (data ++ data') := by
  simp [Writer.push, Nat.add_assoc]

lemma push_nil (s : Writer) : s.push [] = s := by simp [Writer.push]

lemma obj_eq (data : List UInt8) (hbody : ∀ s, body s = s.push data) : s.obj num body =
    { s with objOffset := s.objOffset.set num s.len }.push
      (encode (decimal num ++ Pdf.objWord) ++ (data ++ encode Pdf.endobj)) := by
  simp only [Writer.obj, Writer.pushText, hbody, push_push, List.append_assoc]
  rfl

/-- A dictionary alone. -/
lemma obj_pushText : s.obj num (fun s => s.pushText (t ++ ['\n'])) = s.put (⟨t, none⟩, num) :=
  obj_eq (encode (t ++ ['\n'])) fun _ => rfl

lemma encode_stream (t : Text) : encode (t ++ "\nstream\n".toList) =
    encode (t ++ ['\n']) ++ encode Pdf.streamWord := by
  have hstream : "\nstream\n".toList = ['\n'] ++ Pdf.streamWord := rfl
  rw [hstream, ← List.append_assoc, encode_append]

lemma obj_image (bytes : List UInt8) :
    s.obj num (fun s => ((s.pushText (t ++ "\nstream\n".toList)).push bytes).pushText
      "\nendstream\n".toList) = s.put (⟨t, some (bytes, ['\n'])⟩, num) := by
  have hend : encode "\nendstream\n".toList ++ encode Pdf.endobj =
      encode ['\n'] ++ encode Pdf.closing := rfl
  have hbody : ∀ s : Writer, ((s.pushText (t ++ "\nstream\n".toList)).push bytes).pushText
      "\nendstream\n".toList = s.push (encode (t ++ ['\n']) ++ (encode Pdf.streamWord ++
        (bytes ++ encode "\nendstream\n".toList))) := by
    intro s
    simp only [Writer.pushText, push_push, encode_stream, List.append_assoc]
  rw [obj_eq _ hbody]
  simp only [List.append_assoc, hend]
  rfl

lemma obj_content (c : Text) :
    s.obj num (fun s => s.pushText (t ++ "\nstream\n".toList ++ c ++ "endstream\n".toList)) =
      s.put (⟨t, some (encode c, [])⟩, num) := by
  have hend : encode "endstream\n".toList ++ encode Pdf.endobj =
      encode [] ++ encode Pdf.closing := rfl
  have hbody : ∀ s : Writer,
      s.pushText (t ++ "\nstream\n".toList ++ c ++ "endstream\n".toList) =
        s.push (encode (t ++ ['\n']) ++ (encode Pdf.streamWord ++
          (encode c ++ encode "endstream\n".toList))) := by
    intro s
    rw [Writer.pushText, encode_append, encode_append, encode_stream]
    simp only [List.append_assoc]
  rw [obj_eq _ hbody]
  simp only [List.append_assoc, hend]
  rfl

lemma writePage_eq (p : PdfPageImage × Nat) :
    writePage atob number s p = (trio atob number p).foldl Writer.put s := by
  simp only [writePage, obj_pushText, obj_image, obj_content]
  rfl

/-- Objects with consecutive numbers are written one after the other, and the table is filled with
the places where they start. -/
lemma foldl_put (hnums : l.map Prod.snd = List.range' k l.length)
    (hroom : k + l.length ≤ s.objOffset.length) :
    l.foldl Writer.put s = ⟨s.bytes ++ (l.map fun q => q.1.bytes q.2).flatten,
      s.len + (l.map fun q => q.1.bytes q.2).flatten.length,
      s.objOffset.take k ++ (Pdf.offsetsFrom s.len (l.map fun q => q.1.bytes q.2) ++
        s.objOffset.drop (k + l.length))⟩ := by
  induction l generalizing k s with
  | nil => simp [Pdf.offsetsFrom]
  | cons q l ih =>
    obtain ⟨hnum, hnums'⟩ := List.cons.inj hnums
    have hroom' : k + 1 + l.length ≤ (s.put q).objOffset.length := by
      rw [List.length_cons] at hroom
      simp only [Writer.put, Writer.push, List.length_set]
      omega
    have hset : (s.put q).objOffset = s.objOffset.take k ++ s.len :: s.objOffset.drop (k + 1) := by
      rw [List.length_cons] at hroom
      simp only [Writer.put, Writer.push, hnum]
      rw [List.set_eq_take_append_cons_drop, if_pos (by omega)]
    have hlength : (s.objOffset.take k).length = k := by
      rw [List.length_cons] at hroom
      rw [List.length_take]
      omega
    have htake : (s.objOffset.take k ++ s.len :: s.objOffset.drop (k + 1)).take (k + 1) =
        s.objOffset.take k ++ [s.len] := by
      rw [List.take_append, hlength, Nat.add_sub_cancel_left, List.take_of_length_le (by omega)]
      rfl
    have hdrop : (s.objOffset.take k ++ s.len :: s.objOffset.drop (k + 1)).drop
        (k + 1 + l.length) = s.objOffset.drop (k + (l.length + 1)) := by
      rw [List.drop_append, hlength, List.drop_of_length_le (by omega), List.nil_append,
        show k + 1 + l.length - k = l.length + 1 by omega, List.drop_succ_cons, List.drop_drop]
      congr 1
      omega
    rw [List.foldl_cons, ih hnums' hroom', hset, htake, hdrop, List.map_cons, List.flatten_cons,
      Pdf.offsetsFrom]
    simp only [Writer.put, Writer.push, List.append_assoc, List.length_append, List.length_cons,
      List.cons_append, List.nil_append, Nat.add_assoc]

lemma foldl_writeEntry (is : List Nat) (s : Writer) : is.foldl writeEntry s =
    s.push (encode ((is.map fun i => s.objOffset.getD i 0).flatMap Pdf.entry)) := by
  induction is generalizing s with
  | nil => exact (push_nil s).symm
  | cons i is ih =>
    have hentry : writeEntry s i = s.push (encode (Pdf.entry (s.objOffset.getD i 0))) := rfl
    have hoffsets : (writeEntry s i).objOffset = s.objOffset := rfl
    rw [List.foldl_cons, ih, hoffsets, hentry, push_push, List.map_cons, List.flatMap_cons,
      encode_append]

lemma map_getD (offsets : List Nat) :
    (List.range' 1 offsets.length).map (fun i => (0 :: offsets).getD i 0) = offsets := by
  refine List.ext_getElem (by simp) fun i hi hi' => ?_
  simp [Nat.add_comm 1 i, hi']

/-- What stands before the objects. -/
def header : List UInt8 :=
  encode "%PDF-1.3\n".toList ++ [0x25, 0xff, 0xff, 0xff, 0xff, 0x0a]

/-- The bytes of the objects. -/
def objectBytes (atob : Text → List Nat) (number : NumberText) (pages : List PdfPageImage) :
    List (List UInt8) := (numbered atob number pages).map fun q => q.1.bytes q.2

lemma length_numbered (atob : Text → List Nat) (number : NumberText) (pages : List PdfPageImage) :
    (numbered atob number pages).length = 2 + pages.length * 3 := by
  rw [← List.length_map (f := Prod.snd), map_snd_numbered, List.length_range']

/-- The table as it is pushed. -/
lemma encode_table (start : Nat) (offsets : List Nat) (line : Text) :
    encode ("xref\n0 ".toList ++ decimal (offsets.length + 1) ++ ['\n']) ++
      (encode "0000000000 65535 f \n".toList ++ (encode (offsets.flatMap Pdf.entry) ++
        encode ("trailer\n".toList ++ line ++ "\nstartxref\n".toList ++ decimal start ++
          "\n%%EOF\n".toList))) = encode (Pdf.table start offsets line) := by
  have hstart : "\nstartxref\n".toList = '\n' :: Pdf.startxref := rfl
  rw [← encode_append, ← encode_append, ← encode_append, hstart]
  refine congrArg encode ?_
  change Pdf.xref ++ _ ++ _ ++ (Pdf.freeEntry ++ (_ ++ (Pdf.trailerWord ++ line ++ _ ++ _ ++
    Pdf.eof))) = _
  simp only [Pdf.table, List.append_assoc, List.cons_append, List.nil_append]

/-- The writer when all objects are written. -/
lemma foldl_writePage (atob : Text → List Nat) (number : NumberText) (s : Writer)
    (hpages : pages ≠ [])
    (hs : s.objOffset = List.replicate (2 + pages.length * 3 + 1) 0) :
    pages.zipIdx.foldl (writePage atob number)
      ((s.obj 1 fun s => s.pushText (catalogDict ++ ['\n'])).obj 2
        fun s => s.pushText (pagesDict pages.length (pageNums pages) ++ ['\n'])) =
      ⟨s.bytes ++ (objectBytes atob number pages).flatten,
        s.len + (objectBytes atob number pages).flatten.length,
        0 :: Pdf.offsetsFrom s.len (objectBytes atob number pages)⟩ := by
  have hn : max 1 pages.length = pages.length :=
    max_eq_right (List.length_pos_iff.mpr hpages)
  have hcount := length_numbered atob number pages
  have hfold : pages.zipIdx.foldl (writePage atob number)
      ((s.obj 1 fun s => s.pushText (catalogDict ++ ['\n'])).obj 2
        fun s => s.pushText (pagesDict pages.length (pageNums pages) ++ ['\n'])) =
      (numbered atob number pages).foldl Writer.put s := by
    rw [obj_pushText, obj_pushText, numbered, hn, List.foldl_cons, List.foldl_cons,
      List.foldl_flatMap]
    exact congrArg (fun f => pages.zipIdx.foldl f _) (funext fun s => funext fun p =>
      writePage_eq p)
  have hnums : (numbered atob number pages).map Prod.snd =
      List.range' 1 (numbered atob number pages).length := by
    rw [hcount, map_snd_numbered]
  have hroom : 1 + (numbered atob number pages).length ≤ s.objOffset.length := by
    rw [hs, hcount, List.length_replicate]
    omega
  have hfirst : s.objOffset.take 1 = [0] := by rw [hs, List.replicate_succ]; rfl
  have hrest : s.objOffset.drop (1 + (numbered atob number pages).length) = [] := by
    refine List.drop_of_length_le ?_
    rw [hs, hcount, List.length_replicate]
    omega
  rw [hfold, foldl_put hnums hroom, hfirst, hrest, List.append_nil]
  rfl

/-- The file is its objects one after the other, between a header and a table of their places. -/
lemma jpegPagesToPdf_eq (hpages : pages ≠ []) :
    jpegPagesToPdf atob number pages = header ++ ((objectBytes atob number pages).flatten ++
      encode (Pdf.table (header.length + (objectBytes atob number pages).flatten.length)
        (Pdf.offsetsFrom header.length (objectBytes atob number pages))
        (trailerDict (2 + pages.length * 3 + 1)))) := by
  have hn : max 1 pages.length = pages.length :=
    max_eq_right (List.length_pos_iff.mpr hpages)
  have hoffsets : (Pdf.offsetsFrom header.length (objectBytes atob number pages)).length =
      2 + pages.length * 3 := by
    rw [Pdf.length_offsetsFrom, objectBytes, List.length_map, length_numbered]
  have hheader : ((⟨[], 0, List.replicate (2 + pages.length * 3 + 1) 0⟩ : Writer).pushText
      "%PDF-1.3\n".toList).push [0x25, 0xff, 0xff, 0xff, 0xff, 0x0a] =
      ⟨header, header.length, List.replicate (2 + pages.length * 3 + 1) 0⟩ := by
    simp [Writer.pushText, Writer.push, header]
  have hwriter := foldl_writePage atob number ⟨header, header.length,
    List.replicate (2 + pages.length * 3 + 1) 0⟩ hpages rfl
  have hentries := map_getD (Pdf.offsetsFrom header.length (objectBytes atob number pages))
  rw [hoffsets] at hentries
  simp only [jpegPagesToPdf, hn, hheader]
  rw [show (pages.zipIdx.map fun p => 5 + p.2 * 3) = pageNums pages from rfl, hwriter,
    foldl_writeEntry]
  simp only [Writer.pushText, Writer.push, hentries]
  rw [← encode_table, hoffsets]
  simp only [List.append_assoc]

end Written

end VoxTranslate.Client.PdfExport
