import VoxTranslate.Lib.Json

/-!
# Decimal numbers in texts

A number is written in decimal digits, filled up with zeros to a width, and read back.
-/

namespace Lib

/-- A number in decimal digits. -/
def decimal (n : Nat) : List Char := Nat.toDigits 10 n

/-- A number in decimal digits, filled up with zeros. -/
def padded (width n : Nat) : List Char := (decimal n).leftpad width '0'

section Decimal

variable {width n : Nat} {c : Char}

lemma isDigit_of_mem_decimal (h : c ∈ decimal n) : c.isDigit = true :=
  Nat.isDigit_of_mem_toDigits (by decide) (by decide) h

lemma isDigit_of_mem_padded (h : c ∈ padded width n) : c.isDigit = true := by
  rcases List.mem_append.mp h with hzero | hmem
  · rw [List.eq_of_mem_replicate hzero]
    decide
  · exact isDigit_of_mem_decimal hmem

lemma not_mem_decimal (hc : c.isDigit = false) : c ∉ decimal n := by
  intro hmem
  rw [isDigit_of_mem_decimal hmem] at hc
  cases hc

lemma not_mem_padded (hc : c.isDigit = false) : c ∉ padded width n := by
  intro hmem
  rw [isDigit_of_mem_padded hmem] at hc
  cases hc

@[simp] lemma decimal_ne_nil (n : Nat) : decimal n ≠ [] := Nat.toDigits_ne_nil

@[simp] lemma padded_ne_nil (width n : Nat) : padded width n ≠ [] :=
  List.append_ne_nil_of_right_ne_nil _ (decimal_ne_nil n)

lemma decimal_eq_padded (n : Nat) : decimal n = padded 0 n := by
  simp [padded, List.leftpad]

/-- **A number is read back.** -/
lemma parseDigits_padded (width n : Nat) : parseDigits (padded width n) = some n := by
  have hdigits : (padded width n).all Char.isDigit = true :=
    List.all_eq_true.mpr fun c hc => isDigit_of_mem_padded hc
  have hvalue : Nat.ofDigitChars 10 (padded width n) 0 = n := by
    rw [padded, List.leftpad, Nat.ofDigitChars_append, Nat.ofDigitChars_replicate_zero,
      Nat.mul_zero]
    exact Nat.ofDigitChars_ten_toDigits
  rw [parseDigits, if_pos ⟨padded_ne_nil width n, hdigits⟩]
  exact congrArg some hvalue

lemma parseDigits_decimal (n : Nat) : parseDigits (decimal n) = some n := by
  rw [decimal_eq_padded, parseDigits_padded]

lemma decimal_inj {m n : Nat} (h : decimal m = decimal n) : m = n := by
  have hread := congrArg parseDigits h
  rw [parseDigits_decimal, parseDigits_decimal] at hread
  exact Option.some.inj hread

lemma toList_toString (n : Nat) : (toString n).toList = decimal n := by
  rw [Nat.toString_eq_repr, Nat.toList_repr, decimal]

/-- A number that fits the width takes all of it. -/
lemma length_padded (hwidth : 0 < width) (h : n < 10 ^ width) :
    (padded width n).length = width := by
  have hle : (decimal n).length ≤ width := (Nat.length_toDigits_le_iff (by decide) hwidth).mpr h
  rw [padded, List.length_leftpad, Nat.max_eq_left hle]

end Decimal

end Lib
