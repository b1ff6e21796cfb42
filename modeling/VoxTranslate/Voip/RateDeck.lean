import Mathlib.Data.String.Basic
import VoxTranslate.Base
import VoxTranslate.Lib.LongestMatch
import VoxTranslate.Voip.Pricing
import VoxTranslate.Voip.State

/-!
# The rate of a destination

A destination costs what the rate with the longest prefix of its digits says, and nothing else
will do: when that rate is stale the call is refused.  The deck in memory sorts its rates once and
scans them, the dial path asks the database.
-/

namespace VoxTranslate.Voip

open Lib

/-- One destination rate, as imported: its prefix is kept as plain digits. -/
structure Rate where
  prefixDigits : String
  costPerMinute : Usd
  description : String
  fetchedAt : Timestamp
  prefix_digits : ∀ c ∈ prefixDigits.toList, c.isDigit = true
  deriving DecidableEq

/-- A validated number: `+` and eight to fifteen digits. -/
structure E164 where
  digits : String
  all_digits : ∀ c ∈ digits.toList, c.isDigit = true
  size : 8 ≤ digits.toList.length ∧ digits.toList.length ≤ 15

/-- The prefix is one of the digits. -/
def Rate.covers (number : E164) (r : Rate) : Bool :=
  r.prefixDigits.toList.isPrefixOf number.digits.toList

/-- How long the prefix is. -/
def Rate.len (r : Rate) : Nat := r.prefixDigits.toList.length

/-- Synced no longer ago than `maxAge`, where there is one. -/
def Rate.isFresh (now : Timestamp) (maxAge : Option Int) (r : Rate) : Bool :=
  match maxAge with
  | none => true
  | some age => decide (now - r.fetchedAt ≤ age)

/-! ## The deck -/

/-- The order of the deck: the longest prefix first, then by the prefix. -/
def Rate.Before (a b : Rate) : Prop :=
  b.len < a.len ∨ b.len = a.len ∧ a.prefixDigits ≤ b.prefixDigits

instance : DecidableRel Rate.Before := fun _ _ => inferInstanceAs (Decidable (_ ∨ _))

structure RateDeck where
  rates : List Rate

def RateDeck.new (rates : List Rate) : RateDeck where
  rates := rates.insertionSort Rate.Before

/-- Longest-prefix lookup, with a freshness check. -/
def RateDeck.lookup (deck : RateDeck) (number : E164) (now : Timestamp) (maxAge : Option Int) :
    Except FailureReason Rate :=
  match deck.rates.find? (Rate.covers number) with
  | none => .error .rateUnavailable
  | some rate => if rate.isFresh now maxAge then .ok rate else .error .rateUnavailable

/-! ## The table -/

/-- A row of `voip_rates`. -/
structure RateRow extends Rate where
  provider : String
  deriving DecidableEq

/-- The primary key. -/
def RateRow.key (r : RateRow) : String × String := (r.provider, r.prefixDigits)

/-- `provider = $1 AND $2 LIKE prefix || '%'`. -/
def RateRow.matches (provider : String) (number : E164) (r : RateRow) : Bool :=
  r.provider == provider && like (r.prefixDigits.toList ++ ['%']) number.digits.toList

/-- The age, in microseconds, past which a rate is stale. -/
def maxAge (maxAgeSecs : Int) : Int := max maxAgeSecs 1 * 1000000

/-- The lookup of the dial path: the longest match of the query, and then its age. -/
def lookupRate (rows : List RateRow) (provider : String) (number : E164) (now : Timestamp)
    (maxAgeSecs : Int) : Option Rate :=
  match ((rows.filter (RateRow.matches provider number)).insertionSort
      fun a b => b.len ≤ a.len).head? with
  | none => none
  | some row =>
    if now - row.fetchedAt > maxAge maxAgeSecs then none else some row.toRate

/-! ## The longest prefix -/

/-- The answer is the freshly synced rate of the longest prefix, or there is none. -/
def IsLongest (rates : List Rate) (number : E164) (now : Timestamp) (age : Option Int) :
    Except FailureReason Rate → Prop
  | .ok r => r ∈ rates ∧ r.covers number = true ∧
      (∀ r' ∈ rates, r'.covers number = true → r'.len ≤ r.len) ∧ r.isFresh now age = true
  | .error e => e = .rateUnavailable ∧
      ∀ r ∈ rates, r.covers number = true →
        (∀ r' ∈ rates, r'.covers number = true → r'.len ≤ r.len) → r.isFresh now age = false

section Longest

variable {rates : List Rate} {number : E164} {a b : Rate}

lemma covers_iff : a.covers number = true ↔ a.prefixDigits.toList <+: number.digits.toList :=
  List.isPrefixOf_iff_prefix

/-- Two prefixes of one number are the same once they are equally long. -/
lemma prefixDigits_eq (ha : a.covers number = true) (hb : b.covers number = true)
    (hlen : a.len = b.len) : a.prefixDigits = b.prefixDigits := by
  have hstarts := List.prefix_of_prefix_length_le (covers_iff.mp ha) (covers_iff.mp hb) hlen.le
  exact String.toList_inj.mp (hstarts.eq_of_length hlen)

/-- A pairwise distinct prefix names its rate. -/
lemma eq_of_prefixDigits (hdistinct : (rates.map Rate.prefixDigits).Nodup) (ha : a ∈ rates)
    (hb : b ∈ rates) (h : a.prefixDigits = b.prefixDigits) : a = b :=
  List.inj_on_of_nodup_map hdistinct ha hb h

lemma isBest_unique (hdistinct : (rates.map Rate.prefixDigits).Nodup) {o o' : Option Rate}
    (h : IsBest (Rate.covers number) Rate.len rates o)
    (h' : IsBest (Rate.covers number) Rate.len rates o') : o = o' := by
  refine h.unique (fun a ha b hb hpa hpb hlen => ?_) h'
  exact eq_of_prefixDigits hdistinct ha hb (prefixDigits_eq hpa hpb hlen)

/-- The deck finds the longest prefix. -/
lemma isBest_deck (rates : List Rate) (number : E164) :
    IsBest (Rate.covers number) Rate.len rates
      ((RateDeck.new rates).rates.find? (Rate.covers number)) := by
  have : Std.Total Rate.Before := by
    refine ⟨fun a b => ?_⟩
    rcases lt_trichotomy a.len b.len with hlen | hlen | hlen
    · exact .inr (.inl hlen)
    · rcases le_total a.prefixDigits b.prefixDigits with hle | hle
      · exact .inl (.inr ⟨hlen.symm, hle⟩)
      · exact .inr (.inr ⟨hlen, hle⟩)
    · exact .inl (.inl hlen)
  have : IsTrans Rate Rate.Before := by
    refine ⟨fun a b c hab hbc => ?_⟩
    unfold Rate.Before at *
    rcases hab with hab | ⟨hab, hle⟩
    · omega
    · rcases hbc with hbc | ⟨hbc, hle'⟩
      · omega
      · exact .inr ⟨by omega, hle.trans hle'⟩
  have hsorted : ((RateDeck.new rates).rates).Pairwise fun a b => b.len ≤ a.len := by
    refine (List.pairwise_insertionSort Rate.Before rates).imp fun h => ?_
    unfold Rate.Before at h
    omega
  exact (isBest_find? hsorted).congr fun a => List.mem_insertionSort _

/-- The rates of a provider. -/
def ratesOf (provider : String) (rows : List RateRow) : List Rate :=
  (rows.filter fun r => r.provider == provider).map RateRow.toRate

/-- The pattern of a row matches what its prefix covers. -/
lemma matches_eq (provider : String) (r : RateRow) :
    r.matches provider number = (r.provider == provider && r.toRate.covers number) := by
  have hliteral : ∀ c ∈ r.prefixDigits.toList, IsLiteral c := by
    intro c hc
    have hdigit := r.prefix_digits c hc
    refine ⟨?_, ?_, ?_⟩ <;> rintro rfl <;> revert hdigit <;> decide
  have hlike := like_append_percent hliteral number.digits.toList
  rw [← covers_iff (a := r.toRate)] at hlike
  rw [RateRow.matches, Bool.eq_iff_iff.mpr hlike]

/-- The query finds the longest prefix among the rates of the provider. -/
lemma isBest_query (rows : List RateRow) (provider : String) (number : E164) :
    IsBest (Rate.covers number) Rate.len (ratesOf provider rows)
      (((rows.filter (RateRow.matches provider number)).insertionSort
        fun a b => b.len ≤ a.len).head?.map RateRow.toRate) := by
  have hbest := isBest_head? (RateRow.matches provider number) (fun r => r.len) rows
  have hmem : ∀ r, r ∈ ratesOf provider rows ↔
      ∃ row ∈ rows, row.provider = provider ∧ row.toRate = r := by
    intro r
    simp [ratesOf, and_assoc]
  cases h : ((rows.filter (RateRow.matches provider number)).insertionSort
      fun a b => b.len ≤ a.len).head? with
  | none =>
    rw [h] at hbest
    intro r hr
    obtain ⟨row, hrow, hprovider, rfl⟩ := (hmem r).mp hr
    have hnot := hbest row hrow
    rw [matches_eq] at hnot
    simpa [hprovider] using hnot
  | some row =>
    rw [h] at hbest
    obtain ⟨hrow, hmatch, htop⟩ := hbest
    simp only [matches_eq, Bool.and_eq_true, beq_iff_eq] at hmatch htop
    refine ⟨(hmem _).mpr ⟨row, hrow, hmatch.1, rfl⟩, hmatch.2, fun r hr hcovers => ?_⟩
    obtain ⟨row', hrow', hprovider, rfl⟩ := (hmem r).mp hr
    exact htop row' hrow' ⟨hprovider, hcovers⟩

end Longest

/-- **The longest prefix, in memory and in the database.**  For rates with pairwise distinct
prefixes, in any order, the deck answers with the rate of the longest prefix of the number if it
is fresh, and otherwise with no rate, whatever shorter prefixes there are.  The query of the dial
path over a table that holds the same rates gives the same answer. -/
theorem lookup_longest (rates : List Rate) (hdistinct : (rates.map Rate.prefixDigits).Nodup)
    (number : E164) (now : Timestamp) :
    (∀ age, IsLongest rates number now age ((RateDeck.new rates).lookup number now age)) ∧
      ∀ (rows : List RateRow) (provider : String) (maxAgeSecs : Int),
        (ratesOf provider rows).Perm rates →
        (RateDeck.new rates).lookup number now (some (maxAge maxAgeSecs)) =
          match lookupRate rows provider number now maxAgeSecs with
          | some rate => .ok rate
          | none => .error .rateUnavailable := by
  have hdeck := isBest_deck rates number
  constructor
  · intro age
    unfold RateDeck.lookup
    cases h : (RateDeck.new rates).rates.find? (Rate.covers number) with
    | none =>
      rw [h] at hdeck
      refine ⟨rfl, fun r hr hcovers => ?_⟩
      rw [hdeck r hr] at hcovers
      cases hcovers
    | some rate =>
      rw [h] at hdeck
      obtain ⟨hmem, hcovers, htop⟩ := hdeck
      by_cases hfresh : rate.isFresh now age = true
      · simp only [hfresh, if_true]
        exact ⟨hmem, hcovers, htop, hfresh⟩
      · simp only [hfresh, Bool.false_eq_true, if_false]
        refine ⟨rfl, fun r hr hr' hlongest => ?_⟩
        -- the longest prefix is that of the stale rate
        have hlen := le_antisymm (htop r hr hr') (hlongest rate hmem hcovers)
        have hsame := eq_of_prefixDigits hdistinct hr hmem (prefixDigits_eq hr' hcovers hlen)
        rw [hsame]
        exact eq_false_of_ne_true hfresh
  · intro rows provider maxAgeSecs hperm
    have hquery := (isBest_query rows provider number).congr fun _ => hperm.mem_iff
    have hsame := isBest_unique hdistinct hdeck hquery
    unfold RateDeck.lookup lookupRate
    rw [hsame]
    cases ((rows.filter (RateRow.matches provider number)).insertionSort
        fun a b => b.len ≤ a.len).head? with
    | none => rfl
    | some row =>
      by_cases hstale : now - row.fetchedAt > maxAge maxAgeSecs
      · simp [Rate.isFresh, hstale, not_le.mpr hstale]
      · simp [Rate.isFresh, hstale, not_lt.mp hstale]

section Sample

/-- China, and its mobiles. -/
def chinaRates : List Rate :=
  [{ prefixDigits := "86", costPerMinute := 1 / 100, description := "China", fetchedAt := 90,
     prefix_digits := List.all_eq_true.mp (by decide) },
   { prefixDigits := "861", costPerMinute := 2 / 100, description := "China Mobile",
     fetchedAt := 10, prefix_digits := List.all_eq_true.mp (by decide) }]

def chinaNumber : E164 where
  digits := "8613800138000"
  all_digits := List.all_eq_true.mp (by decide)
  size := by decide

/-- The rate of the mobiles is stale: the call is refused though the rate of China is fresh. -/
theorem lookup_longest_stale :
    IsLongest chinaRates chinaNumber 100 (some 50)
      ((RateDeck.new chinaRates).lookup chinaNumber 100 (some 50)) ∧
    (RateDeck.new chinaRates).lookup chinaNumber 100 (some 50) = .error .rateUnavailable ∧
    (RateDeck.new chinaRates).lookup chinaNumber 100 (some 100) = .ok chinaRates[1] := by
  exact ⟨(lookup_longest chinaRates (by decide) chinaNumber 100).1 (some 50), by decide +kernel,
    by decide +kernel⟩

end Sample

end VoxTranslate.Voip
