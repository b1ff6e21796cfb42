import VoxTranslate.Engine.Qwen
import VoxTranslate.Voip.RateDeck

/-!
# Phone numbers

Whatever a human typed is normalised into `+` and the digits: the punctuation that humans use is
passed over, an international access prefix is taken off where a country follows it, and anything
else is refused.  The leading digits give the country, by the longest calling code that matches.
-/

namespace VoxTranslate.Voip

open Lib Engine

/-- Why a destination is refused. -/
inductive E164Error where
  /-- Nothing is left without the punctuation. -/
  | empty
  /-- Neither a digit nor punctuation. -/
  | nonNumeric
  | tooShort
  | tooLong
  | leadingZero
  | unknownCountryCode
  deriving DecidableEq, Repr

/-- The reason that is persisted and sent to clients. -/
def E164Error.code : E164Error → String
  | .empty => "number_empty"
  | .nonNumeric => "number_non_numeric"
  | .tooShort => "number_too_short"
  | .tooLong => "number_too_long"
  | .leadingZero => "number_leading_zero"
  | .unknownCountryCode => "number_unknown_country"

/-! ## Calling codes -/

/-- The assigned calling codes with their regions; `1` and `7` are shared. -/
def callingCodes : List (String × String) :=
  [("20", "EG"), ("27", "ZA"), ("30", "GR"), ("31", "NL"), ("32", "BE"), ("33", "FR"), ("34", "ES"),
    ("36", "HU"), ("39", "IT"), ("40", "RO"), ("41", "CH"), ("43", "AT"), ("44", "GB"),
    ("45", "DK"), ("46", "SE"), ("47", "NO"), ("48", "PL"), ("49", "DE"), ("51", "PE"),
    ("52", "MX"), ("53", "CU"), ("54", "AR"), ("55", "BR"), ("56", "CL"), ("57", "CO"),
    ("58", "VE"), ("60", "MY"), ("61", "AU"), ("62", "ID"), ("63", "PH"), ("64", "NZ"),
    ("65", "SG"), ("66", "TH"), ("81", "JP"), ("82", "KR"), ("84", "VN"), ("86", "CN"),
    ("90", "TR"), ("91", "IN"), ("92", "PK"), ("93", "AF"), ("94", "LK"), ("95", "MM"),
    ("98", "IR"), ("211", "SS"), ("212", "MA"), ("213", "DZ"), ("216", "TN"), ("218", "LY"),
    ("220", "GM"), ("221", "SN"), ("222", "MR"), ("223", "ML"), ("224", "GN"), ("225", "CI"),
    ("226", "BF"), ("227", "NE"), ("228", "TG"), ("229", "BJ"), ("230", "MU"), ("231", "LR"),
    ("232", "SL"), ("233", "GH"), ("234", "NG"), ("235", "TD"), ("236", "CF"), ("237", "CM"),
    ("238", "CV"), ("239", "ST"), ("240", "GQ"), ("241", "GA"), ("242", "CG"), ("243", "CD"),
    ("244", "AO"), ("245", "GW"), ("246", "IO"), ("248", "SC"), ("249", "SD"), ("250", "RW"),
    ("251", "ET"), ("252", "SO"), ("253", "DJ"), ("254", "KE"), ("255", "TZ"), ("256", "UG"),
    ("257", "BI"), ("258", "MZ"), ("260", "ZM"), ("261", "MG"), ("262", "RE"), ("263", "ZW"),
    ("264", "NA"), ("265", "MW"), ("266", "LS"), ("267", "BW"), ("268", "SZ"), ("269", "KM"),
    ("290", "SH"), ("291", "ER"), ("297", "AW"), ("298", "FO"), ("299", "GL"), ("350", "GI"),
    ("351", "PT"), ("352", "LU"), ("353", "IE"), ("354", "IS"), ("355", "AL"), ("356", "MT"),
    ("357", "CY"), ("358", "FI"), ("359", "BG"), ("370", "LT"), ("371", "LV"), ("372", "EE"),
    ("373", "MD"), ("374", "AM"), ("375", "BY"), ("376", "AD"), ("377", "MC"), ("378", "SM"),
    ("379", "VA"), ("380", "UA"), ("381", "RS"), ("382", "ME"), ("383", "XK"), ("385", "HR"),
    ("386", "SI"), ("387", "BA"), ("389", "MK"), ("420", "CZ"), ("421", "SK"), ("423", "LI"),
    ("500", "FK"), ("501", "BZ"), ("502", "GT"), ("503", "SV"), ("504", "HN"), ("505", "NI"),
    ("506", "CR"), ("507", "PA"), ("508", "PM"), ("509", "HT"), ("590", "GP"), ("591", "BO"),
    ("592", "GY"), ("593", "EC"), ("594", "GF"), ("595", "PY"), ("596", "MQ"), ("597", "SR"),
    ("598", "UY"), ("599", "CW"), ("670", "TL"), ("672", "NF"), ("673", "BN"), ("674", "NR"),
    ("675", "PG"), ("676", "TO"), ("677", "SB"), ("678", "VU"), ("679", "FJ"), ("680", "PW"),
    ("681", "WF"), ("682", "CK"), ("683", "NU"), ("685", "WS"), ("686", "KI"), ("687", "NC"),
    ("688", "TV"), ("689", "PF"), ("690", "TK"), ("691", "FM"), ("692", "MH"), ("850", "KP"),
    ("852", "HK"), ("853", "MO"), ("855", "KH"), ("856", "LA"), ("880", "BD"), ("886", "TW"),
    ("960", "MV"), ("961", "LB"), ("962", "JO"), ("963", "SY"), ("964", "IQ"), ("965", "KW"),
    ("966", "SA"), ("967", "YE"), ("968", "OM"), ("970", "PS"), ("971", "AE"), ("972", "IL"),
    ("973", "BH"), ("974", "QA"), ("975", "BT"), ("976", "MN"), ("977", "NP"), ("992", "TJ"),
    ("993", "TM"), ("994", "AZ"), ("995", "GE"), ("996", "KG"), ("998", "UZ")]

/-- The area codes under `1` outside the United States. -/
def nanpAreaCodes : List (String × String) :=
  [("242", "BS"), ("246", "BB"), ("264", "AI"), ("268", "AG"), ("284", "VG"), ("340", "VI"),
    ("345", "KY"), ("441", "BM"), ("473", "GD"), ("649", "TC"), ("658", "JM"), ("664", "MS"),
    ("670", "MP"), ("671", "GU"), ("684", "AS"), ("721", "SX"), ("758", "LC"), ("767", "DM"),
    ("784", "VC"), ("787", "PR"), ("809", "DO"), ("829", "DO"), ("849", "DO"), ("868", "TT"),
    ("869", "KN"), ("876", "JM"), ("939", "PR"), ("204", "CA"), ("226", "CA"), ("236", "CA"),
    ("249", "CA"), ("250", "CA"), ("289", "CA"), ("306", "CA"), ("343", "CA"), ("365", "CA"),
    ("403", "CA"), ("416", "CA"), ("418", "CA"), ("431", "CA"), ("437", "CA"), ("438", "CA"),
    ("450", "CA"), ("506", "CA"), ("514", "CA"), ("519", "CA"), ("548", "CA"), ("579", "CA"),
    ("581", "CA"), ("587", "CA"), ("604", "CA"), ("613", "CA"), ("639", "CA"), ("647", "CA"),
    ("672", "CA"), ("705", "CA"), ("709", "CA"), ("742", "CA"), ("778", "CA"), ("780", "CA"),
    ("782", "CA"), ("807", "CA"), ("819", "CA"), ("825", "CA"), ("867", "CA"), ("873", "CA"),
    ("902", "CA"), ("905", "CA")]

/-- The table entry for the first `len` of the digits, if there are more. -/
def codeOfLength (digits : List Char) (len : Nat) : Option (String × String) :=
  if len < digits.length then callingCodes.find? fun entry => entry.1.toList == digits.take len
  else none

/-- Longest-match lookup of the calling code, with the region. -/
def callingCodeOf (digits : List Char) : Option (String × String) :=
  match digits with
  | '1' :: area =>
    if 3 ≤ area.length then
      let entry := nanpAreaCodes.find? fun entry => entry.1.toList == area.take 3
      some ("1", (entry.map Prod.snd).getD "US")
    else none
  | '7' :: rest =>
    -- the Kazakh ranges begin with 6 or 7
    rest.head?.map fun next => ("7", if next = '6' ∨ next = '7' then "KZ" else "RU")
  | _ => [3, 2].findSome? (codeOfLength digits)

/-! ## Parsing -/

/-- The punctuation that is passed over. -/
def ignored (ch : Char) : Bool :=
  [' ', '\u00a0', '-', '.', '(', ')', '/'].contains ch

/-- Digits. -/
structure Digits where
  toList : List Char
  all_digits : ∀ c ∈ toList, c.isDigit = true
  deriving DecidableEq

def minDigits : Nat := 8

def maxDigits : Nat := 15

namespace Digits

lemma nil_digits : ∀ c ∈ ([] : List Char), c.isDigit = true := by simp

lemma cons_digits (d : Digits) {ch : Char} (h : ch.isDigit = true) :
    ∀ c ∈ ch :: d.toList, c.isDigit = true :=
  List.forall_mem_cons.mpr ⟨h, d.all_digits⟩

lemma drop_digits (d : Digits) (n : Nat) : ∀ c ∈ d.toList.drop n, c.isDigit = true :=
  fun c hc => d.all_digits c (List.mem_of_mem_drop hc)

def nil : Digits := ⟨[], nil_digits⟩

def cons (ch : Char) (h : ch.isDigit = true) (d : Digits) : Digits :=
  ⟨ch :: d.toList, d.cons_digits h⟩

def drop (d : Digits) (n : Nat) : Digits := ⟨d.toList.drop n, d.drop_digits n⟩

end Digits

/-- The digits of an input, of which `first` says whether it has just begun. -/
def strip : Bool → List Char → Except E164Error Digits
  | _, [] => .ok .nil
  | first, ch :: rest =>
    if h : ch.isDigit = true then (strip false rest).map (.cons ch h)
    else if ch = '+' ∧ first = true ∨ ignored ch = true then strip false rest
    else .error .nonNumeric

/-- Take one access prefix off, where what follows still resolves. -/
def dropAccess (digits : Digits) (access : List Char) : Option Digits :=
  let rest := digits.drop access.length
  if access.isPrefixOf digits.toList ∧ rest.toList ≠ [] ∧ rest.toList.head? ≠ some '0' ∧
      (callingCodeOf rest.toList).isSome ∧ minDigits ≤ rest.toList.length then some rest
  else none

def withoutAccess (digits : Digits) : Digits :=
  ([['0', '1', '1'], ['0', '0']].findSome? (dropAccess digits)).getD digits

namespace E164

lemma toList_digits (d : Digits) : ∀ c ∈ (String.ofList d.toList).toList, c.isDigit = true := by
  rw [String.toList_ofList]
  exact d.all_digits

lemma toList_size {d : Digits} (hmin : ¬ d.toList.length < minDigits)
    (hmax : ¬ maxDigits < d.toList.length) :
    8 ≤ (String.ofList d.toList).toList.length ∧ (String.ofList d.toList).toList.length ≤ 15 := by
  rw [String.toList_ofList]
  exact ⟨Nat.le_of_not_lt hmin, Nat.le_of_not_lt hmax⟩

/-- The checks on the digits. -/
def validate (digits : Digits) : Except E164Error E164 :=
  if digits.toList.head? = some '0' then .error .leadingZero
  else if hmin : digits.toList.length < minDigits then .error .tooShort
  else if hmax : maxDigits < digits.toList.length then .error .tooLong
  else if callingCodeOf digits.toList = none then .error .unknownCountryCode
  else .ok ⟨String.ofList digits.toList, toList_digits digits, toList_size hmin hmax⟩

/-- Normalise and validate human input. -/
def parse (raw : String) : Except E164Error E164 :=
  let trimmed := Text.trim raw.toList
  if trimmed = [] then .error .empty
  else do
    let digits ← strip true trimmed
    if digits.toList = [] then .error .empty
    -- an explicit plus is never an access prefix
    else if trimmed.head? = some '+' then validate digits
    else validate (withoutAccess digits)

/-- The canonical form. -/
def asStr (n : E164) : String := "+" ++ n.digits

/-- The assigned calling code; the source panics where there is none. -/
def callingCode (n : E164) : Option String := (callingCodeOf n.digits.toList).map Prod.fst

/-- The region, for allow and block lists. -/
def region (n : E164) : Option String := (callingCodeOf n.digits.toList).map Prod.snd

/-- The last four digits. -/
def last4 (n : E164) : List Char := n.digits.toList.drop (n.digits.toList.length - 4)

/-- The form for support: the calling code, a mask and the last four digits. -/
def masked (n : E164) : Option String :=
  n.callingCode.map fun cc =>
    let rest := n.digits.toList.drop cc.length
    let hidden := rest.length - 4
    String.ofList (['+'] ++ cc.toList ++ .replicate hidden '•' ++ n.last4)

/-! ## Punctuation -/

lemma not_ignored_of_isDigit {ch : Char} (h : ch.isDigit = true) : ignored ch = false := by
  by_contra hignored
  simp only [Bool.not_eq_false, ignored, List.contains_eq_mem, List.mem_cons, List.not_mem_nil,
    or_false, decide_eq_true_eq] at hignored
  rcases hignored with rfl | rfl | rfl | rfl | rfl | rfl | rfl <;> exact absurd h (by decide)

/-- Punctuation is passed over. -/
lemma strip_filter (t : List Char) :
    strip false t = strip false (t.filter fun ch => !ignored ch) := by
  induction t with
  | nil => rfl
  | cons ch rest ih =>
    by_cases hdigit : ch.isDigit = true
    · rw [List.filter_cons_of_pos (by simp [not_ignored_of_isDigit hdigit]), strip, strip,
        dif_pos hdigit, dif_pos hdigit, ih]
    by_cases hignored : ignored ch = true
    · rw [List.filter_cons_of_neg (by simp [hignored]), strip, dif_neg hdigit,
        if_pos (.inr hignored), ih]
    · rw [List.filter_cons_of_pos (by simpa using hignored), strip, strip, dif_neg hdigit,
        dif_neg hdigit, if_neg (by simp [hignored]), if_neg (by simp [hignored])]

/-- The input begins with a plus. -/
def leadsPlus (t : List Char) : Bool := decide (t.head? = some '+')

lemma strip_true (t : List Char) :
    strip true t = strip (leadsPlus t) (t.filter fun ch => !ignored ch) := by
  cases t with
  | nil => rfl
  | cons ch rest =>
    by_cases hplus : ch = '+'
    · subst hplus
      have hfilter : ('+' :: rest).filter (fun ch => !ignored ch) =
          '+' :: rest.filter fun ch => !ignored ch := List.filter_cons_of_pos (by decide)
      have hdigit : ¬ '+'.isDigit = true := by decide
      rw [hfilter]
      simp only [leadsPlus, List.head?_cons, decide_true, strip, dif_neg hdigit, true_and, true_or,
        if_true]
      exact strip_filter rest
    · have hleads : leadsPlus (ch :: rest) = false := by simp [leadsPlus, hplus]
      rw [hleads, ← strip_filter, strip, strip]
      simp [hplus]

/-- What parsing does with the digits. -/
def conclude (plus : Bool) (stripped : Except E164Error Digits) : Except E164Error E164 := do
  let digits ← stripped
  if digits.toList = [] then .error .empty
  else if plus then validate digits
  else validate (withoutAccess digits)

/-- **The normal form of an input**: whether it begins with a plus, and what is not punctuation. -/
lemma parse_eq (raw : String) :
    parse raw = conclude (leadsPlus (Text.trim raw.toList))
      (strip (leadsPlus (Text.trim raw.toList))
        ((Text.trim raw.toList).filter fun ch => !ignored ch)) := by
  rw [← strip_true, parse]
  by_cases hempty : Text.trim raw.toList = []
  · rw [if_pos hempty, hempty]
    rfl
  · rw [if_neg hempty]
    simp only [conclude, leadsPlus, decide_eq_true_eq]

/-- A place of an input, with what is before and after it, that is neither before a leading plus
nor beyond whitespace at an end that is no punctuation. -/
structure Between (before after : Text) : Prop where
  plus : before.Blank → (Text.trim after).head? ≠ some '+'
  begins : before.Blank → ¬ after.Blank → ∀ blank rest, after = blank ++ rest →
    Text.Blank blank → ∀ c ∈ blank, ignored c = true
  ends : after.Blank → ¬ before.Blank → ∀ rest blank, before = rest ++ blank →
    Text.Blank blank → ∀ c ∈ blank, ignored c = true

lemma filter_ignored {t : List Char} (h : ∀ c ∈ t, ignored c = true) :
    (t.filter fun ch => !ignored ch) = [] := by
  rw [List.filter_eq_nil_iff]
  intro c hc
  simp [h c hc]

lemma leadsPlus_append {t t' : List Char} (ht : t ≠ []) : leadsPlus (t ++ t') = leadsPlus t := by
  obtain ⟨ch, rest, rfl⟩ := List.exists_cons_of_ne_nil ht
  rfl

/-- The normal form does not change with punctuation. -/
lemma normal_insert {ch : Char} {a b : Text} (hch : ignored ch = true)
    (hplace : isWhitespace ch = true ∨ Between a b) :
    leadsPlus (Text.trim (a ++ ch :: b)) = leadsPlus (Text.trim (a ++ b)) ∧
      ((Text.trim (a ++ ch :: b)).filter fun ch => !ignored ch) =
        (Text.trim (a ++ b)).filter fun ch => !ignored ch := by
  have hdrop (t : Text) : ((ch :: t).filter fun ch => !ignored ch) =
      t.filter fun ch => !ignored ch := List.filter_cons_of_neg (by simp [hch])
  by_cases hmiddle : ¬ a.Blank ∧ ¬ b.Blank
  · -- nothing is trimmed at the place
    obtain ⟨ha, hb⟩ := hmiddle
    have hne : a.dropWhile isWhitespace ≠ [] := mt List.dropWhile_eq_nil_iff.mp ha
    have hplain : Text.trim (a ++ b) = a.dropWhile isWhitespace ++ b.rdropWhile isWhitespace :=
      trim_append_of_not_blank ha hb
    have hwith : Text.trim (a ++ ch :: b) =
        a.dropWhile isWhitespace ++ (ch :: b).rdropWhile isWhitespace := by
      refine trim_append_of_not_blank ha fun h => hb ?_
      exact fun c hc => h c (List.mem_cons_of_mem _ hc)
    have hlast : (ch :: b).rdropWhile isWhitespace = ch :: b.rdropWhile isWhitespace :=
      rdropWhile_append_of_not_blank (l := [ch]) hb
    rw [hplain, hwith, leadsPlus_append hne, leadsPlus_append hne, hlast, List.filter_append,
      List.filter_append, hdrop]
    exact ⟨rfl, rfl⟩
  by_cases hblank : isWhitespace ch = true
  · -- a blank at an end is trimmed away
    have hsame : Text.trim (a ++ ch :: b) = Text.trim (a ++ b) := by
      by_cases ha : a.Blank
      · have hblanks : Text.Blank (a ++ [ch]) := Blank.append_iff.mpr ⟨ha, by simp [Blank, hblank]⟩
        have hwith : Text.trim (a ++ [ch] ++ b) = Text.trim b := trim_append_eq_iff.mpr hblanks
        have hplain : Text.trim (a ++ b) = Text.trim b := trim_append_eq_iff.mpr ha
        rw [hplain, ← hwith, List.append_assoc, List.singleton_append]
      · have hb : b.Blank := by
          by_contra hb
          exact hmiddle ⟨ha, hb⟩
        have hwith : Text.trim (a ++ ch :: b) = Text.trim a :=
          trim_append_of_blank (List.forall_mem_cons.mpr ⟨hblank, hb⟩)
        have hplain : Text.trim (a ++ b) = Text.trim a := trim_append_of_blank hb
        rw [hwith, hplain]
    rw [hsame]
    exact ⟨rfl, rfl⟩
  -- a mark at an end keeps the whitespace inside of it
  rw [Bool.not_eq_true] at hblank
  have hmark : leadsPlus (ch :: b.rdropWhile isWhitespace) = false := by
    have hne : ch ≠ '+' := by
      rintro rfl
      exact absurd hch (by decide)
    simp [leadsPlus, hne]
  have hwith : Text.trim (a ++ ch :: b) =
      a.dropWhile isWhitespace ++ ch :: b.rdropWhile isWhitespace := trim_insert hblank
  obtain ⟨hplus, hbegins, hends⟩ := hplace.resolve_left (by simp [hblank])
  rw [hwith]
  by_cases ha : a.Blank
  · have hplain : Text.trim (a ++ b) = Text.trim b := trim_append_eq_iff.mpr ha
    rw [hplain, List.dropWhile_eq_nil_iff.mpr ha, List.nil_append, hmark, hdrop]
    refine ⟨(decide_eq_false (hplus ha)).symm, ?_⟩
    by_cases hb : b.Blank
    · rw [List.rdropWhile_eq_nil_iff.mpr hb, Text.trim_eq_nil_iff.mpr hb]
    · rw [rdropWhile_eq_append_trim hb, List.filter_append, filter_ignored, List.nil_append]
      · rfl
      · exact hbegins ha hb _ _ List.takeWhile_append_dropWhile.symm
          fun _ hc => List.mem_takeWhile_imp hc
  · have hb : b.Blank := by
      by_contra hb
      exact hmiddle ⟨ha, hb⟩
    have hplain : Text.trim (a ++ b) = Text.trim a := trim_append_of_blank hb
    have hne : Text.trim a ≠ [] := mt Text.trim_eq_nil_iff.mp ha
    have hsplit : a.dropWhile isWhitespace =
        Text.trim a ++ (a.dropWhile isWhitespace).rtakeWhile isWhitespace :=
      List.rdropWhile_append_rtakeWhile.symm
    have hrest : (((a.dropWhile isWhitespace).rtakeWhile isWhitespace).filter
        fun ch => !ignored ch) = [] := by
      refine filter_ignored (hends hb ha (a.takeWhile isWhitespace ++ Text.trim a) _ ?_ ?_)
      · rw [List.append_assoc, ← hsplit, List.takeWhile_append_dropWhile]
      · exact fun _ hc => List.mem_rtakeWhile_imp hc
    rw [hplain, List.rdropWhile_eq_nil_iff.mpr hb, hsplit, List.append_assoc, leadsPlus_append hne,
      List.filter_append, List.filter_append, hrest, hdrop]
    exact ⟨rfl, by simp⟩

/-- **Punctuation** changes nothing at such a place. -/
lemma parse_insert {ch : Char} {a b : Text} (hch : ignored ch = true)
    (hplace : isWhitespace ch = true ∨ Between a b) :
    parse (String.ofList (a ++ ch :: b)) = parse (String.ofList (a ++ b)) := by
  obtain ⟨hplus, hfilter⟩ := normal_insert hch hplace
  rw [parse_eq, parse_eq, String.toList_ofList, String.toList_ofList, hplus, hfilter]

/-! ## Canonical numbers -/

/-- What `parse` lets through beside the digits and their number. -/
structure Canonical (n : E164) : Prop where
  head_ne : n.digits.toList.head? ≠ some '0'
  resolves : callingCodeOf n.digits.toList ≠ none

lemma canonical_of_validate {d : Digits} {n : E164} (h : validate d = .ok n) : Canonical n := by
  unfold validate at h
  split_ifs at h with hhead hmin hmax hcode
  cases h
  exact ⟨by rwa [String.toList_ofList], by rwa [String.toList_ofList]⟩

lemma canonical_of_parse {raw : String} {n : E164} (h : parse raw = .ok n) : Canonical n := by
  rw [parse_eq, conclude] at h
  cases hstrip : strip (leadsPlus (Text.trim raw.toList))
      ((Text.trim raw.toList).filter fun ch => !ignored ch) with
  | error e =>
    rw [hstrip] at h
    cases h
  | ok d =>
    rw [hstrip] at h
    change (if d.toList = [] then Except.error E164Error.empty
      else if leadsPlus (Text.trim raw.toList) = true then validate d
      else validate (withoutAccess d)) = Except.ok n at h
    split_ifs at h
    · exact canonical_of_validate h
    · exact canonical_of_validate h

variable {n n' : E164}

lemma Canonical.validate_eq (h : Canonical n) {d : Digits} (hd : d.toList = n.digits.toList) :
    validate d = .ok n := by
  have hmin : ¬ d.toList.length < minDigits := by
    rw [hd]
    exact Nat.not_lt.mpr n.size.1
  have hmax : ¬ maxDigits < d.toList.length := by
    rw [hd]
    exact Nat.not_lt.mpr n.size.2
  rw [validate, if_neg (by rw [hd]; exact h.head_ne), dif_neg hmin, dif_neg hmax,
    if_neg (by rw [hd]; exact h.resolves)]
  obtain ⟨digits, _, _⟩ := n
  simp only [hd, String.ofList_toList]

lemma digits_ne_nil (n : E164) : n.digits.toList ≠ [] := by
  intro h
  have hsize := n.size.1
  simp [h] at hsize

/-- A digit is no blank. -/
lemma not_isWhitespace_of_isDigit {ch : Char} (h : ch.isDigit = true) :
    isWhitespace ch = false := by
  simp only [Char.isDigit, Bool.and_eq_true, decide_eq_true_eq] at h
  have hlo : 48 ≤ ch.toNat := h.1
  have hhi : ch.toNat ≤ 57 := h.2
  simp only [isWhitespace, Bool.or_eq_false_iff, Bool.and_eq_false_iff, decide_eq_false_iff_not]
  omega

lemma strip_digits (first : Bool) {l : List Char} (h : ∀ c ∈ l, c.isDigit = true) :
    strip first l = .ok ⟨l, h⟩ := by
  induction l generalizing first with
  | nil => rfl
  | cons ch rest ih =>
    obtain ⟨hch, hrest⟩ := List.forall_mem_cons.mp h
    rw [strip, dif_pos hch, ih false hrest]
    rfl

/-- Digits without a plus may begin with an access prefix. -/
lemma parse_digits {raw : String} (hne : raw.toList ≠ [])
    (h : ∀ c ∈ raw.toList, c.isDigit = true) :
    parse raw = validate (withoutAccess ⟨raw.toList, h⟩) := by
  have htrim : Text.trim raw.toList = raw.toList :=
    trim_eq_self fun c hc => not_isWhitespace_of_isDigit (h c hc)
  have hplus : raw.toList.head? ≠ some '+' := by
    intro hhead
    exact absurd (h '+' (List.mem_of_head? hhead)) (by decide)
  rw [parse, htrim, if_neg hne, strip_digits true h]
  exact (if_neg hne).trans (if_neg hplus)

/-- Digits after a plus do not. -/
lemma parse_plus {raw : String} {l : List Char} (hraw : raw.toList = '+' :: l) (hne : l ≠ [])
    (h : ∀ c ∈ l, c.isDigit = true) : parse raw = validate ⟨l, h⟩ := by
  have htrim : Text.trim raw.toList = '+' :: l := by
    rw [hraw]
    refine trim_eq_self fun c hc => ?_
    rcases List.mem_cons.mp hc with rfl | hc
    · rfl
    · exact not_isWhitespace_of_isDigit (h c hc)
  have hstrip : strip true ('+' :: l) = .ok ⟨l, h⟩ := by
    rw [← strip_digits false h, strip]
    exact (dif_neg (by decide)).trans (if_pos (.inl ⟨rfl, rfl⟩))
  rw [parse, htrim, if_neg (List.cons_ne_nil _ _), hstrip]
  exact (if_neg hne).trans (if_pos rfl)

/-- A canonical number begins with no access prefix. -/
lemma Canonical.withoutAccess_eq (h : Canonical n) {d : Digits}
    (hd : d.toList = n.digits.toList) : withoutAccess d = d := by
  have hnone (access : List Char) : dropAccess d ('0' :: access) = none := by
    refine if_neg fun hdrop => h.head_ne ?_
    obtain ⟨rest, hrest⟩ := List.isPrefixOf_iff_prefix.mp hdrop.1
    rw [← hd, ← hrest]
    rfl
  rw [withoutAccess]
  simp [hnone]

/-- An access prefix is taken off a canonical number. -/
lemma Canonical.dropAccess_eq (h : Canonical n) {d : Digits} {access : List Char}
    (hd : d.toList = access ++ n.digits.toList) :
    ∃ rest, dropAccess d access = some rest ∧ rest.toList = n.digits.toList := by
  have hrest : (d.drop access.length).toList = n.digits.toList :=
    (congrArg (List.drop access.length) hd).trans List.drop_left
  refine ⟨d.drop access.length, if_pos ?_, hrest⟩
  rw [hrest]
  refine ⟨?_, n.digits_ne_nil, h.head_ne, Option.isSome_iff_ne_none.mpr h.resolves, n.size.1⟩
  rw [List.isPrefixOf_iff_prefix, hd]
  exact List.prefix_append _ _

lemma Canonical.parse_asStr (h : Canonical n) : parse n.asStr = .ok n := by
  have hraw : n.asStr.toList = '+' :: n.digits.toList := by
    rw [asStr, String.toList_append]
    rfl
  rw [parse_plus hraw n.digits_ne_nil n.all_digits]
  exact h.validate_eq rfl

lemma Canonical.parse_digits_eq (h : Canonical n) : parse n.digits = .ok n := by
  rw [parse_digits n.digits_ne_nil n.all_digits, h.withoutAccess_eq rfl]
  exact h.validate_eq rfl

/-- The international access prefixes. -/
lemma Canonical.parse_access (h : Canonical n) :
    parse ("00" ++ n.digits) = .ok n ∧ parse ("011" ++ n.digits) = .ok n := by
  have hdigits (access : List Char) (haccess : access.all Char.isDigit = true) :
      ∀ c ∈ access ++ n.digits.toList, c.isDigit = true := by
    intro c hc
    rcases List.mem_append.mp hc with hc | hc
    · exact List.all_eq_true.mp haccess c hc
    · exact n.all_digits c hc
  have hparse (raw : String) (access : List Char) (hraw : raw.toList = access ++ n.digits.toList)
      (hall : access.all Char.isDigit = true) :
      ∃ d : Digits, d.toList = access ++ n.digits.toList ∧ parse raw = validate (withoutAccess d) := by
    have hne : raw.toList ≠ [] := by
      rw [hraw]
      exact List.append_ne_nil_of_right_ne_nil _ n.digits_ne_nil
    have hall' : ∀ c ∈ raw.toList, c.isDigit = true := hraw ▸ hdigits access hall
    exact ⟨⟨raw.toList, hall'⟩, hraw, parse_digits hne hall'⟩
  constructor
  · obtain ⟨d, hd, heq⟩ := hparse ("00" ++ n.digits) ['0', '0']
      (by rw [String.toList_append]; rfl) rfl
    obtain ⟨rest, hrest, htoList⟩ := h.dropAccess_eq hd
    have hnone : dropAccess d ['0', '1', '1'] = none := by
      refine if_neg fun hdrop => ?_
      rw [hd] at hdrop
      exact absurd hdrop.1 (by simp [List.isPrefixOf])
    have hwithout : withoutAccess d = rest := by
      rw [withoutAccess, List.findSome?_cons, hnone, List.findSome?_cons, hrest]
      rfl
    rw [heq, hwithout]
    exact h.validate_eq htoList
  · obtain ⟨d, hd, heq⟩ := hparse ("011" ++ n.digits) ['0', '1', '1']
      (by rw [String.toList_append]; rfl) rfl
    obtain ⟨rest, hrest, htoList⟩ := h.dropAccess_eq hd
    have hwithout : withoutAccess d = rest := by
      rw [withoutAccess, List.findSome?_cons, hrest]
      rfl
    rw [heq, hwithout]
    exact h.validate_eq htoList

/-! ## The mask -/

/-- A calling code is the beginning of the digits, and not long. -/
lemma callingCodeOf_spec {digits : List Char} {entry : String × String}
    (h : callingCodeOf digits = some entry) :
    entry.1.toList <+: digits ∧ entry.1.toList.length ≤ 3 := by
  unfold callingCodeOf at h
  split at h
  · split_ifs at h
    cases h
    have hone : "1".toList = ['1'] := by decide
    dsimp only
    rw [hone]
    exact ⟨⟨_, rfl⟩, by simp⟩
  · obtain ⟨next, -, rfl⟩ := Option.map_eq_some_iff.mp h
    have hseven : "7".toList = ['7'] := by decide
    dsimp only
    rw [hseven]
    exact ⟨⟨_, rfl⟩, by simp⟩
  · obtain ⟨len, hlen, hentry⟩ := List.exists_of_findSome?_eq_some h
    unfold codeOfLength at hentry
    split_ifs at hentry with hlong
    have htake : entry.1.toList = digits.take len := by
      simpa using List.find?_some hentry
    rw [htake]
    refine ⟨List.take_prefix _ _, ?_⟩
    rw [List.length_take]
    simp only [List.mem_cons, List.not_mem_nil, or_false] at hlen
    omega

/-- **The mask** shows the calling code and the last four digits. -/
lemma Canonical.masked_eq (h : Canonical n) : ∃ code hidden, n.callingCode = some code ∧
    n.digits.toList = code.toList ++ hidden ++ n.last4 ∧ n.last4.length = 4 ∧
    n.masked = some (String.ofList
      (['+'] ++ code.toList ++ .replicate hidden.length '•' ++ n.last4)) := by
  obtain ⟨entry, hentry⟩ := Option.ne_none_iff_exists'.mp h.resolves
  obtain ⟨⟨rest, hrest⟩, hshort⟩ := callingCodeOf_spec hentry
  have hcode : n.callingCode = some entry.1 := by rw [callingCode, hentry]; rfl
  have hsize := n.size.1
  have hlength : entry.1.toList.length + rest.length = n.digits.toList.length := by
    rw [← hrest, List.length_append]
  have hlast : n.last4 = rest.drop (rest.length - 4) := by
    rw [last4, ← hlength, ← hrest]
    have hsub : entry.1.toList.length + rest.length - 4 =
        entry.1.toList.length + (rest.length - 4) := by omega
    rw [hsub, List.drop_length_add_append]
  refine ⟨entry.1, rest.take (rest.length - 4), hcode, ?_, ?_, ?_⟩
  · rw [hlast, List.append_assoc, List.take_append_drop, hrest]
  · rw [hlast, List.length_drop]
    omega
  · have hdrop : n.digits.toList.drop entry.1.length = rest := by
      rw [← String.length_toList, ← hrest, List.drop_left]
    rw [masked, hcode, Option.map_some, hdrop, List.length_take,
      Nat.min_eq_left (Nat.sub_le _ _)]

/-- **Phone numbers.**  The canonical form of a parsed number, its digits and its digits after an
access prefix are parsed to the same number; punctuation changes nothing, neither before a leading
plus nor, unless it is blank itself, beyond whitespace at an end that is no punctuation; and the
mask is made of the calling code, the last four digits and a dot for each of the others. -/
theorem phone_normal_form (raw : String) :
    (∀ n, parse raw = .ok n →
      parse n.asStr = .ok n ∧ parse n.digits = .ok n ∧ parse ("00" ++ n.digits) = .ok n ∧
        parse ("011" ++ n.digits) = .ok n) ∧
      (∀ ch before after, raw.toList = before ++ after → ignored ch = true →
        isWhitespace ch = true ∨ Between before after →
          parse (String.ofList (before ++ ch :: after)) = parse raw) ∧
      (∀ n, parse raw = .ok n → ∃ code hidden, n.callingCode = some code ∧
        n.digits.toList = code.toList ++ hidden ++ n.last4 ∧ n.last4.length = 4 ∧
        n.masked = some (String.ofList
          (['+'] ++ code.toList ++ .replicate hidden.length '•' ++ n.last4))) ∧
      ∀ raw' n n', parse raw = .ok n → parse raw' = .ok n' → n.callingCode = n'.callingCode →
        n.digits.toList.length = n'.digits.toList.length → n.last4 = n'.last4 →
          n.masked = n'.masked := by
  refine ⟨fun n h => ?_, fun ch before after hraw hch hplace => ?_, fun n h => ?_, ?_⟩
  · have hn := canonical_of_parse h
    exact ⟨hn.parse_asStr, hn.parse_digits_eq, hn.parse_access⟩
  · rw [parse_insert hch hplace, ← hraw, String.ofList_toList]
  · exact (canonical_of_parse h).masked_eq
  · intro raw' n n' h h' hcode hlength hlast
    obtain ⟨code, hidden, hn, hdigits, -, hmasked⟩ := (canonical_of_parse h).masked_eq
    obtain ⟨code', hidden', hn', hdigits', -, hmasked'⟩ := (canonical_of_parse h').masked_eq
    have hsame : some code = some code' := hn.symm.trans (hcode.trans hn')
    cases hsame
    have hhidden : hidden.length = hidden'.length := by
      rw [hdigits, hdigits', hlast] at hlength
      simp only [List.length_append] at hlength
      omega
    rw [hmasked, hmasked', hhidden, hlast]

/-- A dash beyond a line break at the end. -/
theorem dash_beyond_line_break :
    ignored '-' = true ∧ (parse "+79161234567\n").isOk = true ∧
      (parse (String.ofList ("+79161234567\n".toList ++ '-' :: []))).isOk = false := by
  decide +kernel

end E164

end VoxTranslate.Voip
