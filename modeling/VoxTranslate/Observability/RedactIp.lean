import VoxTranslate.Engine.Qwen
import VoxTranslate.Lib.Fields

/-!
# Addresses in shipped log lines (`log_shipping.rs`)

A log line that leaves the infrastructure keeps the network of an address and drops its host.  The
line is text: what stands between `"ip":"` and the next quote is taken for an address, an IPv4
address keeps three octets and an IPv6 address three groups, and anything else is replaced.
-/

namespace VoxTranslate.Observability

open Lib
open Engine (Text)

/-- `char::to_digit`. -/
def toDigit (radix : Nat) (c : Char) : Option Nat :=
  Option.filter (· < radix)
    (if '0' ≤ c ∧ c ≤ '9' then some (c.toNat - 48)
    else if 'a' ≤ c ∧ c ≤ 'z' then some (c.toNat - 87)
    else if 'A' ≤ c ∧ c ≤ 'Z' then some (c.toNat - 55)
    else none)

/-- What a text of digits spells. -/
def readDigits (radix : Nat) (t : Text) : Option Nat :=
  t.foldlM (fun n c => (toDigit radix c).map fun d => radix * n + d) 0

/-- `from_str_radix` of the unsigned type with the greatest value `max`. -/
def fromStrRadix (radix max : Nat) (s : Text) : Option Nat :=
  if s = [] ∨ s = ['+'] ∨ s = ['-'] then none
  else (readDigits radix (if s.head? = some '+' then s.tail else s)).filter (· ≤ max)

/-- The text before the last octet, where the octets are four numbers. -/
def ipv4Head (ip : Text) : Option Text :=
  match rsplitOnce '.' ip with
  | none => none
  | some (head, last) =>
    let octetsOk := (head.splitOn '.').length = 3 ∧
      (∀ o ∈ head.splitOn '.', (fromStrRadix 10 255 o).isSome = true) ∧
      (fromStrRadix 10 255 last).isSome = true
    if octetsOk then some head else none

/-- The first three pieces between colons. -/
def firstGroups (ip : Text) : List Text := (ip.splitOn ':').take 3

def redacted : Text := ['r', 'e', 'd', 'a', 'c', 't', 'e', 'd']

/-- `truncate_ip`. -/
def truncateIp (ip : Text) : Text :=
  if ip = [] then []
  else match ipv4Head ip with
    | some head => head ++ ['.', '0']
    | none =>
      if ':' ∈ ip ∧ (firstGroups ip).length = 3 ∧
          ∀ g ∈ firstGroups ip, (fromStrRadix 16 65535 g).isSome = true then
        [':'].intercalate (firstGroups ip) ++ [':', ':']
      else redacted

/-- `IP_FIELD`, and the quote that ends the value. -/
def ipField : FieldStyle Char where
  opening := ['"', 'i', 'p', '"', ':', '"']
  closing := '"'
  opening_ne := by decide

/-- `redact_ip`. -/
def redactIp (line : Text) : Text := ipField.rewriteFields truncateIp line

/-! ### Numbers in an address -/

variable {radix len max n : Nat} {t v w : Text} {c : Char}

lemma toDigit_of_readDigits (h : readDigits radix t = some n) :
    ∀ c ∈ t, (toDigit radix c).isSome = true := by
  rw [readDigits] at h
  generalize 0 = m at h
  induction t generalizing m with
  | nil => simp
  | cons a t ih =>
    rw [List.foldlM_cons, Option.bind_eq_bind, Option.bind_eq_some_iff] at h
    obtain ⟨m', hm', hrest⟩ := h
    obtain ⟨d, hd, -⟩ := Option.map_eq_some_iff.mp hm'
    intro c hc
    rcases List.mem_cons.mp hc with rfl | hc
    · rw [hd]
      rfl
    · exact ih m' hrest c hc

lemma plus_or_digit (h : (fromStrRadix radix max t).isSome = true) :
    ∀ c ∈ t, c = '+' ∨ (toDigit radix c).isSome = true := by
  obtain ⟨n, hn⟩ := Option.isSome_iff_exists.mp h
  rw [fromStrRadix] at hn
  by_cases hempty : t = [] ∨ t = ['+'] ∨ t = ['-']
  · rw [if_pos hempty] at hn
    cases hn
  rw [if_neg hempty] at hn
  obtain ⟨hread, -⟩ := Option.filter_eq_some_iff.mp hn
  have hdigits := toDigit_of_readDigits hread
  intro c hc
  cases t with
  | nil => cases hc
  | cons a t =>
    by_cases ha : a = '+'
    · rcases List.mem_cons.mp hc with rfl | hc
      · exact .inl ha
      · exact .inr (hdigits c (by simpa [ha] using hc))
    · exact .inr (hdigits c (by simpa [ha] using hc))

/-- A letter that is no digit and no sign is in no number. -/
lemma not_mem_of_number (hc : toDigit radix c = none) (hsign : c ≠ '+')
    (h : (fromStrRadix radix max t).isSome = true) : c ∉ t := by
  intro hin
  rcases plus_or_digit h c hin with hplus | hdigit
  · exact hsign hplus
  · rw [hc] at hdigit
    cases hdigit

/-- A number in an address: at most `len` digits, and at most `max`. -/
structure Numeral (radix len max : Nat) (t : Text) (n : Nat) : Prop where
  nonempty : t ≠ []
  length : t.length ≤ len
  digits : readDigits radix t = some n
  le : n ≤ max

instance (radix len max : Nat) (t : Text) (n : Nat) : Decidable (Numeral radix len max t n) :=
  decidable_of_iff (t ≠ [] ∧ t.length ≤ len ∧ readDigits radix t = some n ∧ n ≤ max)
    ⟨fun h => ⟨h.1, h.2.1, h.2.2.1, h.2.2.2⟩, fun h => ⟨h.nonempty, h.length, h.digits, h.le⟩⟩

lemma Numeral.not_mem (h : Numeral radix len max t n) (hc : toDigit radix c = none) : c ∉ t := by
  intro hin
  have hdigit := toDigit_of_readDigits h.digits c hin
  rw [hc] at hdigit
  cases hdigit

lemma Numeral.parse (h : Numeral radix len max t n) :
    (fromStrRadix radix max t).isSome = true := by
  have hplus : '+' ∉ t := h.not_mem rfl
  have hminus : '-' ∉ t := h.not_mem rfl
  have hempty : ¬ (t = [] ∨ t = ['+'] ∨ t = ['-']) := by
    rintro (rfl | rfl | rfl)
    · exact h.nonempty rfl
    · exact hplus (by simp)
    · exact hminus (by simp)
  have hhead : t.head? ≠ some '+' := fun hhead => hplus (List.mem_of_mem_head? hhead)
  rw [fromStrRadix, if_neg hempty, if_neg hhead, h.digits]
  simp [h.le]

/-! ### What is kept of a value -/

/-- What has a colon is no IPv4 address. -/
lemma ipv4Head_of_colon (h : ':' ∈ v) : ipv4Head v = none := by
  rw [ipv4Head]
  cases hcut : rsplitOnce '.' v with
  | none => rfl
  | some c =>
    obtain ⟨head, last⟩ := c
    obtain ⟨rfl, -⟩ := rsplitOnce_eq_some_iff.mp hcut
    refine if_neg ?_
    rintro ⟨-, hhead, hlast⟩
    rcases List.mem_append.mp h with hin | hin
    · obtain ⟨o, ho, hcolon⟩ := exists_mem_splitOn hin (by decide : ':' ≠ '.')
      exact not_mem_of_number rfl (by decide) (hhead o ho) hcolon
    · rcases List.mem_cons.mp hin with hdot | hin
      · cases hdot
      · exact not_mem_of_number rfl (by decide) hlast hin

lemma ipv4Head_some {head : Text} (h : ipv4Head v = some head) :
    (∃ last, v = head ++ '.' :: last) ∧ ipv4Head (head ++ ['.', '0']) = some head := by
  rw [ipv4Head] at h
  cases hcut : rsplitOnce '.' v with
  | none =>
    rw [hcut] at h
    cases h
  | some c =>
    obtain ⟨front, last⟩ := c
    rw [hcut] at h
    obtain ⟨⟨hcount, hhead, -⟩, ⟨⟩⟩ := Option.ite_none_right_eq_some.mp h
    refine ⟨⟨last, (rsplitOnce_eq_some_iff.mp hcut).1⟩, ?_⟩
    have hcut' : rsplitOnce '.' (head ++ ['.', '0']) = some (head, ['0']) :=
      rsplitOnce_eq_some_iff.mpr ⟨rfl, by decide⟩
    rw [ipv4Head, hcut']
    exact if_pos ⟨hcount, hhead, by decide⟩

/-- The three groups are written out, each of them a number. -/
def Written (v : Text) : Prop :=
  ':' ∈ v ∧ (firstGroups v).length = 3 ∧
    ∀ g ∈ firstGroups v, (fromStrRadix 16 65535 g).isSome = true

lemma truncateIp_ipv4 {head : Text} (h : ipv4Head v = some head) :
    truncateIp v = head ++ ['.', '0'] := by
  have hne : v ≠ [] := by
    rintro rfl
    cases h
  rw [truncateIp, if_neg hne, h]

lemma truncateIp_written (h : Written v) :
    truncateIp v = [':'].intercalate (firstGroups v) ++ [':', ':'] := by
  have hne : v ≠ [] := List.ne_nil_of_mem h.1
  rw [truncateIp, if_neg hne, ipv4Head_of_colon h.1]
  exact if_pos h

lemma truncateIp_redacted (hne : v ≠ []) (hhead : ipv4Head v = none) (h : ¬ Written v) :
    truncateIp v = redacted := by
  rw [truncateIp, if_neg hne, hhead]
  exact if_neg h

/-- What becomes of a value. -/
lemma truncateIp_cases (v : Text) :
    v = [] ∧ truncateIp v = [] ∨
    (∃ head last, v = head ++ '.' :: last ∧ ipv4Head (head ++ ['.', '0']) = some head ∧
      truncateIp v = head ++ ['.', '0']) ∨
    (Written v ∧ truncateIp v = [':'].intercalate (firstGroups v) ++ [':', ':']) ∨
    truncateIp v = redacted := by
  by_cases hne : v = []
  · exact .inl ⟨hne, if_pos hne⟩
  cases hhead : ipv4Head v with
  | some head =>
    obtain ⟨⟨last, hv⟩, hagain⟩ := ipv4Head_some hhead
    exact .inr (.inl ⟨head, last, hv, hagain, truncateIp_ipv4 hhead⟩)
  | none =>
    by_cases hwritten : Written v
    · exact .inr (.inr (.inl ⟨hwritten, truncateIp_written hwritten⟩))
    · exact .inr (.inr (.inr (truncateIp_redacted hne hhead hwritten)))

/-- A group has no colon. -/
lemma Written.not_mem (h : Written v) {c : Char} (hc : toDigit 16 c = none) (hsign : c ≠ '+') :
    ∀ g ∈ firstGroups v, c ∉ g := fun g hg => not_mem_of_number hc hsign (h.2.2 g hg)

/-- The kept part of an IPv6 address has the same first three groups. -/
lemma Written.firstGroups_kept (h : Written v) :
    firstGroups ([':'].intercalate (firstGroups v) ++ [':', ':']) = firstGroups v := by
  have hne : firstGroups v ≠ [] := by
    intro hnil
    have hlength := h.2.1
    rw [hnil] at hlength
    cases hlength
  have hsplit : ([':'].intercalate (firstGroups v) ++ [':', ':']).splitOn ':' =
      firstGroups v ++ [':'].splitOn ':' := by
    rw [List.splitOn_append_cons_self,
      List.splitOn_intercalate ':' (h.not_mem rfl (by decide)) hne]
  rw [firstGroups, hsplit]
  exact List.take_left' h.2.1

/-- **Truncating again changes nothing.** -/
lemma truncateIp_idem (v : Text) : truncateIp (truncateIp v) = truncateIp v := by
  rcases truncateIp_cases v with ⟨-, heq⟩ | ⟨head, last, -, hagain, heq⟩ | ⟨hwritten, heq⟩ | heq
  · rw [heq]
    rfl
  · rw [heq, truncateIp_ipv4 hagain]
  · rw [heq]
    have hkept := hwritten.firstGroups_kept
    have hagain : Written ([':'].intercalate (firstGroups v) ++ [':', ':']) := by
      refine ⟨by simp, ?_, ?_⟩
      · rw [hkept]
        exact hwritten.2.1
      · rw [hkept]
        exact hwritten.2.2
    rw [truncateIp_written hagain, hkept]
  · rw [heq]
    decide

/-- What is kept of a value has no quote, as the value has none. -/
lemma truncateIp_quote (h : '"' ∉ v) : '"' ∉ truncateIp v := by
  rcases truncateIp_cases v with ⟨-, heq⟩ | ⟨head, last, rfl, -, heq⟩ | ⟨hwritten, heq⟩ | heq
  · simp [heq]
  · rw [heq]
    simp only [List.mem_append, not_or] at h ⊢
    exact ⟨h.1, by decide⟩
  · rw [heq]
    intro hin
    rcases List.mem_append.mp hin with hin | hin
    · rcases mem_intercalate hin with hcolon | ⟨g, hg, hin⟩
      · cases hcolon
      · exact hwritten.not_mem rfl (by decide) g hg hin
    · simp at hin
  · rw [heq]
    decide

/-! ### Addresses -/

abbrev Octet := Numeral 10 3 255

abbrev Group := Numeral 16 4 65535

def dotted (a b c d : Text) : Text := a ++ '.' :: (b ++ '.' :: (c ++ '.' :: d))

/-- The pieces of an IPv6 address and the groups they spell: the last two groups may be written as
an IPv4 address. -/
inductive Pieces : List Text → List Nat → Prop
  | groups {ps : List Text} {gs : List Nat} : List.Forall₂ Group ps gs → Pieces ps gs
  | dotted {ps : List Text} {gs : List Nat} {a b c d : Text} {i j k l : Nat} :
      List.Forall₂ Group ps gs → Octet a i → Octet b j → Octet c k → Octet d l →
        Pieces (ps ++ [dotted a b c d]) (gs ++ [256 * i + j, 256 * k + l])

/-- The text of an IPv6 address and its eight groups. -/
inductive Ipv6 : Text → List Nat → Prop
  | full {ps : List Text} {gs : List Nat} : Pieces ps gs → gs.length = 8 →
      Ipv6 ([':'].intercalate ps) gs
  /-- Groups that are zero are left out. -/
  | shortened {ls rs : List Text} {fs gs : List Nat} : List.Forall₂ Group ls fs → Pieces rs gs →
      fs.length + gs.length < 8 →
        Ipv6 ([':'].intercalate ls ++ ':' :: ':' :: [':'].intercalate rs)
          (fs ++ List.replicate (8 - (fs.length + gs.length)) 0 ++ gs)

/-- Two values that are the same but for the last octet of an IPv4 address, or but for what comes
after the third group of an IPv6 address. -/
inductive DifferInHost : Text → Text → Prop
  | same (v : Text) : DifferInHost v v
  | ipv4 {a b c x y : Text} {i j k m n : Nat} : Octet a i → Octet b j → Octet c k → Octet x m →
      Octet y n → DifferInHost (dotted a b c x) (dotted a b c y)
  | ipv6 {v w : Text} {gs hs : List Nat} : Ipv6 v gs → Ipv6 w hs → gs.take 3 = hs.take 3 →
      DifferInHost v w

/-- Both write the first three groups, and alike; or in both the groups that are left out are among
these. -/
def WrittenAlike (v w : Text) : Prop :=
  ([] ∈ firstGroups v ↔ [] ∈ firstGroups w) ∧ ([] ∉ firstGroups v → firstGroups v = firstGroups w)

lemma dotted_not_mem {a b c d : Text} {i j k l : Nat} {x : Char} (ha : Octet a i) (hb : Octet b j)
    (hc : Octet c k) (hd : Octet d l) (hx : toDigit 10 x = none) (hdot : x ≠ '.') :
    x ∉ dotted a b c d := by
  simp [dotted, ha.not_mem hx, hb.not_mem hx, hc.not_mem hx, hd.not_mem hx, hdot]

/-- The three octets of an IPv4 address are kept. -/
lemma ipv4Head_dotted {a b c d : Text} {i j k l : Nat} (ha : Octet a i) (hb : Octet b j)
    (hc : Octet c k) (hd : Octet d l) :
    ipv4Head (dotted a b c d) = some (a ++ '.' :: (b ++ '.' :: c)) := by
  have hcut : rsplitOnce '.' (dotted a b c d) = some (a ++ '.' :: (b ++ '.' :: c), d) :=
    rsplitOnce_eq_some_iff.mpr ⟨by simp [dotted], hd.not_mem rfl⟩
  have hsplit : (a ++ '.' :: (b ++ '.' :: c)).splitOn '.' = [a, b, c] := by
    rw [List.splitOn_append_cons_self_of_not_mem (ha.not_mem rfl),
      List.splitOn_append_cons_self_of_not_mem (hb.not_mem rfl),
      List.splitOn_eq_singleton (hc.not_mem rfl)]
  rw [ipv4Head, hcut]
  refine if_pos ⟨by rw [hsplit]; rfl, ?_, hd.parse⟩
  rw [hsplit]
  simp [ha.parse, hb.parse, hc.parse]

lemma exists_group {ps : List Text} {gs : List Nat} (h : List.Forall₂ Group ps gs) :
    ∀ p ∈ ps, ∃ n, Group p n := by
  induction h with
  | nil => simp
  | cons hp _ ih =>
    intro p hin
    rcases List.mem_cons.mp hin with rfl | hin
    · exact ⟨_, hp⟩
    · exact ih p hin

lemma Pieces.not_mem {ps : List Text} {gs : List Nat} (h : Pieces ps gs) : ∀ p ∈ ps, ':' ∉ p := by
  cases h with
  | groups hps =>
    intro p hp
    obtain ⟨n, hn⟩ := exists_group hps p hp
    exact hn.not_mem rfl
  | dotted hps ha hb hc hd =>
    intro p hp
    rcases List.mem_append.mp hp with hp | hp
    · obtain ⟨n, hn⟩ := exists_group hps p hp
      exact hn.not_mem rfl
    · rw [List.mem_singleton.mp hp]
      exact dotted_not_mem ha hb hc hd rfl (by decide)

/-- The first pieces of a whole address are groups. -/
lemma Pieces.take_three {ps : List Text} {gs : List Nat} (h : Pieces ps gs)
    (hlong : 5 ≤ gs.length) :
    (ps.take 3).length = 3 ∧ ∀ p ∈ ps.take 3, ∃ n, Group p n := by
  cases h with
  | groups hps =>
    have hlength := hps.length_eq
    refine ⟨by rw [List.length_take]; omega, fun p hp => ?_⟩
    exact exists_group hps p (List.mem_of_mem_take hp)
  | @dotted ps gs a b c d i j k l hps ha hb hc hd =>
    have hlength := hps.length_eq
    rw [List.length_append, List.length_cons, List.length_singleton] at hlong
    rw [List.take_append_of_le_length (by omega)]
    refine ⟨by rw [List.length_take]; omega, fun p hp => ?_⟩
    exact exists_group hps p (List.mem_of_mem_take hp)

/-- The first three pieces of an address are groups, or one of them is empty where groups are left
out. -/
lemma Ipv6.firstGroups_cases {gs : List Nat} (h : Ipv6 v gs) : ':' ∈ v ∧
    ((firstGroups v).length = 3 ∧ (∀ p ∈ firstGroups v, ∃ n, Group p n) ∨ [] ∈ firstGroups v) := by
  cases h with
  | @full ps gs hps hlength =>
    have htake := hps.take_three (by omega)
    have hne : ps ≠ [] := by
      rintro rfl
      cases htake.1
    have hsplit : ([':'].intercalate ps).splitOn ':' = ps :=
      List.splitOn_intercalate ':' hps.not_mem hne
    refine ⟨?_, .inl (by rwa [firstGroups, hsplit])⟩
    by_contra hcolon
    have hone := List.splitOn_eq_singleton hcolon
    rw [hsplit] at hone
    rw [hone] at htake
    cases htake.1
  | @shortened ls rs fs gs hls hrs hlength =>
    refine ⟨by simp, ?_⟩
    have hsplit : ([':'].intercalate ls ++ ':' :: ':' :: [':'].intercalate rs).splitOn ':' =
        ([':'].intercalate ls).splitOn ':' ++ [] :: ([':'].intercalate rs).splitOn ':' := by
      rw [List.splitOn_append_cons_self]
      congr 1
    rw [firstGroups, hsplit]
    by_cases hnil : ls = []
    · subst hnil
      exact .inr (by simp)
    · rw [List.splitOn_intercalate ':' (Pieces.groups hls).not_mem hnil]
      by_cases hshort : ls.length < 3
      · refine .inr ?_
        rw [List.take_append, List.mem_append]
        refine .inr ?_
        obtain ⟨m, hm⟩ : ∃ m, 3 - ls.length = m + 1 := ⟨2 - ls.length, by omega⟩
        rw [hm, List.take_succ_cons]
        exact List.mem_cons_self
      · rw [List.take_append_of_le_length (by omega)]
        refine .inl ⟨by rw [List.length_take]; omega, fun p hp => ?_⟩
        exact exists_group hls p (List.mem_of_mem_take hp)

lemma Ipv6.written_iff {gs : List Nat} (h : Ipv6 v gs) : Written v ↔ [] ∉ firstGroups v := by
  obtain ⟨hcolon, hcases⟩ := h.firstGroups_cases
  constructor
  · intro hwritten hin
    have hparse := hwritten.2.2 [] hin
    cases hparse
  · intro hout
    obtain ⟨hlength, hgroups⟩ := hcases.resolve_right hout
    refine ⟨hcolon, hlength, fun p hp => ?_⟩
    obtain ⟨n, hn⟩ := hgroups p hp
    exact hn.parse

/-- What is kept of an IPv6 address. -/
lemma Ipv6.truncateIp_eq {gs : List Nat} (h : Ipv6 v gs) : truncateIp v =
    if [] ∈ firstGroups v then redacted
    else [':'].intercalate (firstGroups v) ++ [':', ':'] := by
  have hcolon := h.firstGroups_cases.1
  by_cases hin : [] ∈ firstGroups v
  · rw [if_pos hin]
    exact truncateIp_redacted (List.ne_nil_of_mem hcolon) (ipv4Head_of_colon hcolon)
      fun hwritten => h.written_iff.mp hwritten hin
  · rw [if_neg hin]
    exact truncateIp_written (h.written_iff.mpr hin)

/-- Two addresses leave the same exactly when they write their first three groups alike, or both
leave some of them out. -/
lemma Ipv6.truncateIp_eq_iff {gs hs : List Nat} (h : Ipv6 v gs) (h' : Ipv6 w hs) :
    truncateIp v = truncateIp w ↔ WrittenAlike v w := by
  rw [h.truncateIp_eq, h'.truncateIp_eq, WrittenAlike]
  have hcolon : ∀ gs : List Text, [':'].intercalate gs ++ [':', ':'] ≠ redacted := by
    intro gs heq
    have hin : ':' ∈ redacted := by
      rw [← heq]
      simp
    revert hin
    decide
  by_cases hv : [] ∈ firstGroups v
  · by_cases hw : [] ∈ firstGroups w
    · simp [hv, hw]
    · simp [hv, hw, (hcolon _).symm]
  · by_cases hw : [] ∈ firstGroups w
    · simp [hv, hw, hcolon]
    · rw [if_neg hv, if_neg hw]
      constructor
      · intro heq
        have hgroups := congrArg firstGroups heq
        rw [(h.written_iff.mpr hv).firstGroups_kept, (h'.written_iff.mpr hw).firstGroups_kept]
          at hgroups
        exact ⟨by rw [hgroups], fun _ => hgroups⟩
      · rintro ⟨-, heq⟩
        rw [heq hv]

/-- What a pair of values leaves. -/
lemma DifferInHost.truncateIp_eq_iff (h : DifferInHost v w) :
    truncateIp v = truncateIp w ↔ (':' ∈ v → WrittenAlike v w) := by
  cases h with
  | same => simp [WrittenAlike]
  | ipv4 ha hb hc hx hy =>
    have heq : truncateIp (dotted _ _ _ _) = truncateIp (dotted _ _ _ _) :=
      (truncateIp_ipv4 (ipv4Head_dotted ha hb hc hx)).trans
        (truncateIp_ipv4 (ipv4Head_dotted ha hb hc hy)).symm
    have hcolon := dotted_not_mem ha hb hc hx (x := ':') rfl (by decide)
    simp [heq, hcolon]
  | ipv6 hv hw _ => simp [hv.truncateIp_eq_iff hw, hv.firstGroups_cases.1]

/-- **Shipped log lines.**  A line is its values and what is around them, in one way; what is around
them stays letter for letter, and so does all behind a value that does not end.  Redacting again
changes nothing.  Two lines that differ only in the hosts of addresses leave the same exactly when
their IPv6 addresses write the first three groups alike, or both leave some of these out. -/
theorem redactIp_spec :
    (∀ line, ∃ fs r, ipField.Splits line fs r ∧
      (∀ fs' r', ipField.Splits line fs' r' → fs' = fs ∧ r' = r) ∧
      line = FieldStyle.join fs r ∧
      redactIp line = FieldStyle.join (fs.map fun x => (x.1, truncateIp x.2)) r) ∧
    (∀ line, redactIp (redactIp line) = redactIp line) ∧
    ∀ line line' fs fs' r, ipField.Splits line fs r → ipField.Splits line' fs' r →
      List.Forall₂ (fun x x' => x.1 = x'.1 ∧ DifferInHost x.2 x'.2) fs fs' →
        (redactIp line = redactIp line' ↔
          List.Forall₂ (fun x x' => ':' ∈ x.2 → WrittenAlike x.2 x'.2) fs fs') := by
  refine ⟨fun line => ?_,
    ipField.rewriteFields_idem (fun v => truncateIp_quote) truncateIp_idem, ?_⟩
  · obtain ⟨fs, r, h⟩ := ipField.exists_splits line
    exact ⟨fs, r, h, fun fs' r' h' => h'.unique h, h.join_eq, h.rewrite_eq⟩
  · intro line line' fs fs' r h h' hdiffer
    rw [redactIp, redactIp, FieldStyle.rewriteFields_eq_iff (fun v => truncateIp_quote) h h']
    constructor
    · rintro ⟨heq, -⟩
      exact hdiffer.mp (fun x x' hx hx' => hx.2.truncateIp_eq_iff.mp hx'.2) heq
    · intro halike
      refine ⟨hdiffer.mp (fun x x' hx hx' => ⟨hx.1, ?_⟩) halike, rfl⟩
      exact hx.2.truncateIp_eq_iff.mpr hx'

/-- A line with one address. -/
def lineOf (ip : Text) : Text := ['{', '"', 'i', 'p', '"', ':', '"'] ++ ip ++ ['"', '}']

/-- Two hosts of one network, of which one leaves out a group the other writes: one is replaced
outright, of the other the network is kept. -/
theorem shortened_address_differs :
    let v : Text := ['2', '0', '0', '1', ':', 'd', 'b', '8', ':', ':', '1']
    let w : Text := ['2', '0', '0', '1', ':', 'd', 'b', '8', ':', '0', ':', '1', ':', ':', '1']
    (∃ fs fs' r, ipField.Splits (lineOf v) fs r ∧ ipField.Splits (lineOf w) fs' r ∧
      List.Forall₂ (fun x x' => x.1 = x'.1 ∧ DifferInHost x.2 x'.2) fs fs') ∧
    redactIp (lineOf v) = lineOf redacted ∧
    redactIp (lineOf w) =
      lineOf ['2', '0', '0', '1', ':', 'd', 'b', '8', ':', '0', ':', ':'] ∧
    redactIp (lineOf v) ≠ redactIp (lineOf w) := by
  intro v w
  let front : Text := ['{', '"', 'i', 'p', '"', ':', '"']
  have hfront : ipField.FirstEnd front :=
    (FieldStyle.cut_eq_some_iff.mp (by decide : ipField.cut front = some (front, []))).2
  have hrest : ipField.Splits ['"', '}'] [] ['"', '}'] := .rest (by decide)
  have hv : ipField.Splits (lineOf v) [(front, v)] ['"', '}'] := .field hfront (by decide) hrest
  have hw : ipField.Splits (lineOf w) [(front, w)] ['"', '}'] := .field hfront (by decide) hrest
  have hvaddress : Ipv6 v [8193, 3512, 0, 0, 0, 0, 0, 1] :=
    Ipv6.shortened
      (by decide : List.Forall₂ Group [['2', '0', '0', '1'], ['d', 'b', '8']] [8193, 3512])
      (Pieces.groups (by decide : List.Forall₂ Group [['1']] [1])) (by decide)
  have hwaddress : Ipv6 w [8193, 3512, 0, 1, 0, 0, 0, 1] :=
    Ipv6.shortened
      (by decide : List.Forall₂ Group [['2', '0', '0', '1'], ['d', 'b', '8'], ['0'], ['1']]
        [8193, 3512, 0, 1])
      (Pieces.groups (by decide : List.Forall₂ Group [['1']] [1])) (by decide)
  have hvout : redactIp (lineOf v) = lineOf redacted := hv.rewrite_eq.trans (by decide)
  have hwout : redactIp (lineOf w) =
      lineOf ['2', '0', '0', '1', ':', 'd', 'b', '8', ':', '0', ':', ':'] :=
    hw.rewrite_eq.trans (by decide)
  refine ⟨⟨_, _, _, hv, hw, .cons ⟨rfl, .ipv6 hvaddress hwaddress rfl⟩ .nil⟩, hvout, hwout, ?_⟩
  rw [hvout, hwout]
  decide

end VoxTranslate.Observability
