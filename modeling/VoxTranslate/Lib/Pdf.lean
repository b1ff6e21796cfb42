import VoxTranslate.Lib.Cut
import VoxTranslate.Lib.Decimal
import VoxTranslate.Lib.Text

/-!
# Reading a PDF file

A file of objects with a table of their offsets, as the letters of its bytes.  A dictionary stands
on one line and is read as a list of tokens; a stream follows it, with the length that the
dictionary says.  The reader follows the table: every object must start at its offset, and the
objects fill the file from the first of them to the table.
-/

namespace Lib.Pdf

/-- What stands between tokens. -/
def isBlank (c : Char) : Bool := c = ' ' || c = '\n'

def isBracket (c : Char) : Bool := c = '[' || c = ']'

/-- Brackets are tokens of their own. -/
def pad (c : Char) : List Char := if isBracket c then [' ', c, ' '] else [c]

def tokens (t : List Char) : List (List Char) := words isBlank (t.flatMap pad)

/-- The token after a key. -/
def lookup (key : List Char) : List (List Char) → Option (List Char)
  | k :: v :: ts => if k = key then some v else lookup key (v :: ts)
  | _ => none

/-- The indirect references in a dictionary, with the last name before each of them. -/
def refs (key : List Char) : List (List Char) → List (List Char × Nat)
  | a :: b :: c :: ts =>
    if b = ['0'] ∧ c = ['R'] then ((parseDigits a).map fun n => (key, n)).toList ++ refs key ts
    else refs (if a.head? = some '/' then a else key) (b :: c :: ts)
  | _ => []

structure Obj where
  num : Nat
  dict : List (List Char)
  stream : Option (List Char)
  deriving DecidableEq, Repr

structure File where
  trailer : List (List Char)
  objects : List Obj
  deriving DecidableEq, Repr

/-! ### Keywords -/

def objWord : List Char := " 0 obj\n".toList

def endobj : List Char := "endobj\n".toList

def streamWord : List Char := "stream\n".toList

def closing : List Char := "endstream\nendobj\n".toList

def xref : List Char := "xref\n0 ".toList

/-- The entry of the object 0, which is never used. -/
def freeEntry : List Char := "0000000000 65535 f \n".toList

/-- What follows the offset in the entry of an object. -/
def inUse : List Char := " 00000 n \n".toList

def trailerWord : List Char := "trailer\n".toList

def startxref : List Char := "startxref\n".toList

def eof : List Char := "\n%%EOF\n".toList

def lengthKey : List Char := "/Length".toList

def sizeKey : List Char := "/Size".toList

/-! ### The file -/

/-- The object with a number that starts here, and what follows it.  A stream ends with its last
byte or with a line break after it. -/
def readObj (num : Nat) (t : List Char) : Option (Obj × List Char) := do
  let t ← t.dropPrefix? (decimal num ++ objWord)
  let (line, t) ← cut ['\n'] t
  let dict := tokens line
  match t.dropPrefix? endobj with
  | some t => some (⟨num, dict, none⟩, t)
  | none =>
    let t ← t.dropPrefix? streamWord
    let length ← (lookup lengthKey dict).bind parseDigits
    let rest := t.drop length
    let rest ← (rest.dropPrefix? closing).or (rest.dropPrefix? ('\n' :: closing))
    if length ≤ t.length then some (⟨num, dict, some (t.take length)⟩, rest) else none

/-- The objects one after the other, each at its offset. -/
def readObjs (file : List Char) : Nat → List Nat → List Char → Option (List Obj × List Char)
  | _, [], t => some ([], t)
  | num, offset :: offsets, t =>
    if t = file.drop offset then do
      let (o, t) ← readObj num t
      let (os, t) ← readObjs file (num + 1) offsets t
      some (o :: os, t)
    else none

/-- The entries of the table, twenty bytes each. -/
def readEntries : Nat → List Char → Option (List Nat × List Char)
  | 0, t => some ([], t)
  | n + 1, t => do
    let offset ← parseDigits (t.take 10)
    let t ← (t.drop 10).dropPrefix? inUse
    let (offsets, t) ← readEntries n t
    some (offset :: offsets, t)

/-- Where the table starts, from the end of the file. -/
def startOf (file : List Char) : Option Nat := do
  let t ← file.reverse.dropPrefix? eof.reverse
  let _ ← (t.dropWhile Char.isDigit).dropPrefix? startxref.reverse
  parseDigits (t.takeWhile Char.isDigit).reverse

def read (file : List Char) : Option File := do
  let start ← startOf file
  let t ← (file.drop start).dropPrefix? xref
  let (size, t) ← cut ['\n'] t
  let size ← parseDigits size
  let t ← t.dropPrefix? freeEntry
  let (offsets, t) ← readEntries (size - 1) t
  let t ← t.dropPrefix? trailerWord
  let (line, t) ← cut ['\n'] t
  let trailer := tokens line
  if (lookup sizeKey trailer).bind parseDigits = some size ∧
      t = startxref ++ decimal start ++ eof then do
    let (objects, rest) ← readObjs file 1 offsets (file.drop (offsets.headD start))
    if rest = file.drop start then some ⟨trailer, objects⟩ else none
  else none

/-! ## Tokens -/

/-- A token that is read as it is written. -/
def Plain (w : List Char) : Prop := w ≠ [] ∧ ∀ c ∈ w, isBlank c = false ∧ isBracket c = false

instance (w : List Char) : Decidable (Plain w) :=
  haveI := List.decidableBAll (fun c => isBlank c = false ∧ isBracket c = false) w
  inferInstanceAs (Decidable (_ ∧ _))

section Tokens

variable {w t t' : List Char} {c : Char} {n : Nat} {ws : List (List Char)}

lemma isBlank_iff : isBlank c = true ↔ c = ' ' ∨ c = '\n' := by simp [isBlank]

lemma isBracket_iff : isBracket c = true ↔ c = '[' ∨ c = ']' := by simp [isBracket]

lemma not_isBlank_of_isBracket (hc : isBracket c = true) : isBlank c = false := by
  rcases isBracket_iff.mp hc with rfl | rfl
  all_goals decide

lemma not_isBracket_of_isBlank (hc : isBlank c = true) : isBracket c = false := by
  rcases isBlank_iff.mp hc with rfl | rfl
  all_goals decide

/-- A text without the four separators is one token. -/
lemma plain_of_not_mem (hne : w ≠ []) (h : ∀ c ∈ [' ', '\n', '[', ']'], c ∉ w) : Plain w := by
  refine ⟨hne, fun c hc => ⟨?_, ?_⟩⟩
  · rw [Bool.eq_false_iff]
    intro hblank
    rcases isBlank_iff.mp hblank with rfl | rfl
    · exact h ' ' (by simp) hc
    · exact h '\n' (by simp) hc
  · rw [Bool.eq_false_iff]
    intro hbracket
    rcases isBracket_iff.mp hbracket with rfl | rfl
    · exact h '[' (by simp) hc
    · exact h ']' (by simp) hc

lemma tokens_append_blank (hc : isBlank c = true) :
    tokens (t ++ c :: t') = tokens t ++ tokens t' := by
  have hpad : pad c = [c] := by
    rw [pad, not_isBracket_of_isBlank hc]
    exact if_neg Bool.false_ne_true
  rw [tokens, List.flatMap_append, List.flatMap_cons, hpad, List.singleton_append,
    words_append_cons hc, tokens, tokens]

lemma tokens_append_bracket (hc : isBracket c = true) :
    tokens (t ++ c :: t') = tokens t ++ [c] :: tokens t' := by
  have hblank : ∀ x ∈ [c], isBlank x = false := by
    rintro x hx
    rw [List.mem_singleton.mp hx]
    exact not_isBlank_of_isBracket hc
  have hspace : isBlank ' ' = true := by decide
  have hpad : (t ++ c :: t').flatMap pad =
      t.flatMap pad ++ ' ' :: ([c] ++ ' ' :: t'.flatMap pad) := by
    rw [List.flatMap_append, List.flatMap_cons, pad, if_pos hc]
    rfl
  rw [tokens, hpad, words_append_cons hspace, words_append_cons hspace,
    words_of_not_blank (List.cons_ne_nil c []) hblank, tokens, tokens]
  rfl

lemma tokens_plain (h : Plain w) : tokens w = [w] := by
  have hpad : w.flatMap pad = w := by
    have hself : ∀ c ∈ w, pad c = [c] := fun c hc => by
      rw [pad, (h.2 c hc).2]
      exact if_neg Bool.false_ne_true
    rw [List.flatMap_congr hself]
    exact List.flatMap_singleton' w
  rw [tokens, hpad]
  exact words_of_not_blank h.1 fun c hc => (h.2 c hc).1

/-- Words joined by spaces are read one by one. -/
lemma tokens_intercalate (ws : List (List Char)) :
    tokens ([' '].intercalate ws) = ws.flatMap tokens := by
  induction ws with
  | nil => rfl
  | cons w ws ih =>
    cases ws with
    | nil => simp
    | cons w' ws =>
      rw [List.intercalate_cons_cons, List.append_assoc, List.singleton_append,
        tokens_append_blank (by decide), ih]
      rfl

lemma flatMap_tokens_plain (h : ∀ w ∈ ws, Plain w) : ws.flatMap tokens = ws := by
  rw [List.flatMap_congr fun w hw => tokens_plain (h w hw)]
  exact List.flatMap_singleton' ws

lemma plain_decimal (n : Nat) : Plain (decimal n) := by
  refine plain_of_not_mem (decimal_ne_nil n) fun c hc => not_mem_decimal ?_
  simp only [List.mem_cons, List.not_mem_nil, or_false] at hc
  rcases hc with rfl | rfl | rfl | rfl
  all_goals decide

lemma lookup_cons_self {key v : List Char} : lookup key (key :: v :: ws) = some v := if_pos rfl

lemma lookup_cons_of_ne {key k v : List Char} (h : k ≠ key) :
    lookup key (k :: v :: ws) = lookup key (v :: ws) := if_neg h

end Tokens

/-! ## What is read of a file that is written in order -/

/-- Where the parts of a file start. -/
def offsetsFrom {α : Type*} (n : Nat) : List (List α) → List Nat
  | [] => []
  | t :: ts => n :: offsetsFrom (n + t.length) ts

def entry (offset : Nat) : List Char := padded 10 offset ++ inUse

/-- The table, the trailer and the place of the table. -/
def table (start : Nat) (offsets : List Nat) (line : List Char) : List Char :=
  xref ++ (decimal (offsets.length + 1) ++ '\n' :: (freeEntry ++
    (offsets.flatMap entry ++ (trailerWord ++ (line ++ '\n' ::
      (startxref ++ decimal start ++ eof))))))

section Written

variable {num n start : Nat} {line body eol rest front file t : List Char} {o : Obj}
  {parts : List (List Char × Obj)} {offsets : List Nat}

lemma dropPrefix_append (t rest : List Char) : (t ++ rest).dropPrefix? t = some rest :=
  List.dropPrefix?_append_of_beq rest (beq_self_eq_true t)

lemma cut_line (h : '\n' ∉ line) : cut ['\n'] (line ++ '\n' :: rest) = some (line, rest) :=
  cut_append_of_not_mem h

/-- An object without a stream. -/
lemma readObj_plain (num : Nat) (h : '\n' ∉ line) (rest : List Char) :
    readObj num (decimal num ++ objWord ++
      (line ++ '\n' :: (endobj ++ rest))) =
      some (⟨num, tokens line, none⟩, rest) := by
  simp only [readObj, dropPrefix_append, cut_line h, Option.bind_eq_bind, Option.bind_some]

/-- An object with a stream of the length that its dictionary says. -/
lemma readObj_stream (num : Nat) (h : '\n' ∉ line)
    (hlength : lookup lengthKey (tokens line) = some (decimal body.length))
    (heol : eol = [] ∨ eol = ['\n']) (rest : List Char) :
    readObj num (decimal num ++ objWord ++
      (line ++ '\n' :: (streamWord ++ (body ++ (eol ++ (closing ++ rest)))))) =
      some (⟨num, tokens line, some body⟩, rest) := by
  have hnone : (streamWord ++ (body ++ (eol ++ (closing ++ rest)))).dropPrefix?
      endobj = none := rfl
  have hend : ((eol ++ (closing ++ rest)).dropPrefix? closing).or
      ((eol ++ (closing ++ rest)).dropPrefix? ('\n' :: closing)) = some rest := by
    rcases heol with rfl | rfl
    · rw [List.nil_append, dropPrefix_append]
      rfl
    · have hother : (['\n'] ++ (closing ++ rest)).dropPrefix? closing = none := rfl
      have hline : (['\n'] ++ (closing ++ rest)).dropPrefix? ('\n' :: closing) = some rest :=
        dropPrefix_append ('\n' :: closing) rest
      rw [hother, hline]
      rfl
  have hle : body.length ≤ (body ++ (eol ++ (closing ++ rest))).length := by
    rw [List.length_append]
    exact Nat.le_add_right _ _
  simp only [readObj, dropPrefix_append, cut_line h, Option.bind_eq_bind, Option.bind_some, hnone,
    hlength, parseDigits_decimal, List.drop_left, hend, if_pos hle, List.take_left]

/-- The table is read back where the offsets fit into its entries. -/
lemma readEntries_entries (h : ∀ o ∈ offsets, o < 10 ^ 10) (rest : List Char) :
    readEntries offsets.length (offsets.flatMap entry ++ rest) = some (offsets, rest) := by
  induction offsets with
  | nil => rfl
  | cons o offsets ih =>
    have hlength : (padded 10 o).length = 10 := length_padded (by decide) (h o List.mem_cons_self)
    have htext : (o :: offsets).flatMap entry ++ rest =
        padded 10 o ++ (inUse ++ (offsets.flatMap entry ++ rest)) := by
      simp [entry]
    have hih := ih fun o' ho' => h o' (List.mem_cons_of_mem _ ho')
    rw [List.length_cons, htext]
    simp only [readEntries, List.take_left' hlength, List.drop_left' hlength, parseDigits_padded,
      dropPrefix_append, hih, Option.bind_eq_bind, Option.bind_some]

lemma takeWhile_digits {ds : List Char} (hds : ∀ c ∈ ds, c.isDigit = true) {c : Char}
    (hc : c.isDigit = false) (rest : List Char) :
    (ds ++ c :: rest).takeWhile Char.isDigit = ds ∧
      (ds ++ c :: rest).dropWhile Char.isDigit = c :: rest := by
  constructor
  · rw [List.takeWhile_append_of_pos hds, List.takeWhile_cons_of_neg (by rw [hc]; decide),
      List.append_nil]
  · rw [List.dropWhile_append_of_pos hds, List.dropWhile_cons_of_neg (by rw [hc]; decide)]

/-- The place of the table is read from the end. -/
lemma startOf_append (front : List Char) (start : Nat) :
    startOf (front ++ (startxref ++ decimal start ++ eof)) = some start := by
  have hreverse : (front ++ (startxref ++ decimal start ++ eof)).reverse =
      eof.reverse ++ ((decimal start).reverse ++ (startxref.reverse ++ front.reverse)) := by
    simp
  have hdigits : ∀ c ∈ (decimal start).reverse, c.isDigit = true := fun c hc =>
    isDigit_of_mem_decimal (List.mem_reverse.mp hc)
  obtain ⟨tail, htail⟩ : ∃ tail, startxref.reverse = '\n' :: tail := ⟨_, rfl⟩
  obtain ⟨htake, hdrop⟩ := takeWhile_digits hdigits (show '\n'.isDigit = false by decide)
    (tail ++ front.reverse)
  rw [← List.cons_append, ← htail] at htake hdrop
  simp only [startOf, hreverse, dropPrefix_append, htake, hdrop, List.reverse_reverse,
    parseDigits_decimal, Option.bind_eq_bind, Option.bind_some]

lemma length_offsetsFrom {α : Type*} (n : Nat) (ts : List (List α)) :
    (offsetsFrom n ts).length = ts.length := by
  induction ts generalizing n with
  | nil => rfl
  | cons t ts ih => rw [offsetsFrom, List.length_cons, ih, List.length_cons]

lemma offsetsFrom_map {α β : Type*} (f : α → β) (n : Nat) (ts : List (List α)) :
    offsetsFrom n (ts.map (List.map f)) = offsetsFrom n ts := by
  induction ts generalizing n with
  | nil => rfl
  | cons t ts ih => rw [List.map_cons, offsetsFrom, offsetsFrom, List.length_map, ih]

lemma le_of_mem_offsetsFrom {α : Type*} {ts : List (List α)} {k : Nat} (hk : k ∈ offsetsFrom n ts) :
    k ≤ n + ts.flatten.length := by
  induction ts generalizing n with
  | nil => cases hk
  | cons t ts ih =>
    rw [List.flatten_cons, List.length_append]
    rcases List.mem_cons.mp hk with rfl | hmem
    · omega
    · have hle := ih hmem
      omega

/-- A part starts at its offset. -/
lemma prefix_drop_offset {ts : List (List Char)} (hfile : file = front ++ (ts.flatten ++ rest))
    {i o : Nat} (ho : (offsetsFrom front.length ts)[i]? = some o) :
    ∃ t, ts[i]? = some t ∧ t <+: file.drop o := by
  induction ts generalizing front i with
  | nil => cases ho
  | cons t ts ih =>
    cases i with
    | zero =>
      obtain rfl := Option.some.inj ho
      refine ⟨t, rfl, ts.flatten ++ rest, ?_⟩
      rw [hfile, List.drop_left, List.flatten_cons, List.append_assoc]
    | succ i =>
      have hfile' : file = (front ++ t) ++ (ts.flatten ++ rest) := by
        rw [hfile, List.flatten_cons, List.append_assoc, List.append_assoc]
      rw [offsetsFrom, List.getElem?_cons_succ, ← List.length_append] at ho
      exact ih hfile' ho

/-- Objects that are written one after the other are read at their offsets. -/
lemma readObjs_parts (hfile : file = front ++ ((parts.map Prod.fst).flatten ++ rest))
    (h : ∀ p ∈ parts.zipIdx num, ∀ rest, readObj p.2 (p.1.1 ++ rest) = some (p.1.2, rest)) :
    readObjs file num (offsetsFrom front.length (parts.map Prod.fst))
      ((parts.map Prod.fst).flatten ++ rest) = some (parts.map Prod.snd, rest) := by
  induction parts generalizing front num with
  | nil => rfl
  | cons p parts ih =>
    have hdrop : (p.1 ++ (parts.map Prod.fst).flatten) ++ rest = file.drop front.length := by
      rw [hfile, List.drop_left]
      rfl
    have hhead := h (p, num) List.mem_cons_self ((parts.map Prod.fst).flatten ++ rest)
    have hfile' : file = (front ++ p.1) ++ ((parts.map Prod.fst).flatten ++ rest) := by
      rw [hfile]
      simp
    have hrest := ih hfile' fun q hq => h q (List.mem_cons_of_mem _ hq)
    rw [List.length_append] at hrest
    rw [List.map_cons, List.flatten_cons, offsetsFrom, readObjs, if_pos hdrop, List.append_assoc]
    simp only [hhead, hrest, Option.bind_eq_bind, Option.bind_some, List.map_cons]

/-- The table names the place where it starts. -/
lemma startOf_table (front line : List Char) (start : Nat) (offsets : List Nat) :
    startOf (front ++ table start offsets line) = some start := by
  have hend : front ++ table start offsets line = (front ++ (xref ++
      (decimal (offsets.length + 1) ++ '\n' :: (freeEntry ++
        (offsets.flatMap entry ++ (trailerWord ++ (line ++ ['\n']))))))) ++
      (startxref ++ decimal start ++ eof) := by
    simp [table]
  rw [hend, startOf_append]

/-- **A file that is written in order is read back.** -/
lemma read_written (hsmall : front.length + (parts.map Prod.fst).flatten.length < 10 ^ 10)
    (h : ∀ p ∈ parts.zipIdx 1, ∀ rest, readObj p.2 (p.1.1 ++ rest) = some (p.1.2, rest))
    (hline : '\n' ∉ line)
    (hsize : lookup sizeKey (tokens line) = some (decimal (parts.length + 1)))
    (hstart : start = front.length + (parts.map Prod.fst).flatten.length)
    (hoffsets : offsets = offsetsFrom front.length (parts.map Prod.fst)) :
    read (front ++ ((parts.map Prod.fst).flatten ++ table start offsets line)) =
      some ⟨tokens line, parts.map Prod.snd⟩ := by
  obtain ⟨file, hfile⟩ : ∃ file,
      file = front ++ ((parts.map Prod.fst).flatten ++ table start offsets line) := ⟨_, rfl⟩
  have hcount : offsets.length = parts.length := by
    rw [hoffsets, length_offsetsFrom, List.length_map]
  rw [← hcount] at hsize
  have hbound : ∀ o ∈ offsets, o < 10 ^ 10 := by
    intro o ho
    rw [hoffsets] at ho
    have hle := le_of_mem_offsetsFrom ho
    omega
  have hplace : startOf file = some start := by
    rw [hfile, ← List.append_assoc, startOf_table]
  have htable : file.drop start = table start offsets line := by
    rw [hfile, ← List.append_assoc]
    exact List.drop_left' (by rw [List.length_append, hstart])
  have hobjects : readObjs file 1 offsets
      ((parts.map Prod.fst).flatten ++ table start offsets line) =
      some (parts.map Prod.snd, table start offsets line) := by
    have hread := readObjs_parts hfile h
    rwa [← hoffsets] at hread
  have hfirst : file.drop (offsets.headD start) =
      (parts.map Prod.fst).flatten ++ table start offsets line := by
    have hhead : offsets.headD start = front.length := by
      rw [hoffsets, hstart]
      cases parts with
      | nil => rfl
      | cons p parts => rfl
    rw [hhead, hfile, List.drop_left]
  rw [← hfile, read]
  simp only [hplace, htable, Option.bind_eq_bind, Option.bind_some]
  rw [table]
  simp only [dropPrefix_append, cut_line (not_mem_decimal (c := '\n') rfl), parseDigits_decimal, Nat.add_sub_cancel,
    readEntries_entries hbound, cut_line hline, hsize, Option.bind_some, hfirst, hobjects]
  exact (if_pos ⟨trivial, trivial⟩).trans (if_pos rfl)

end Written

end Lib.Pdf
