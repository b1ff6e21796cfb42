import VoxTranslate.Lib.Table

/-!
# Balances and their ledgers

A state that shows a balance for each account, and a ledger of signed rows, newest first.  From
one state to a later one the books are accounted for when the ledger has only grown, and every
balance has moved by the sum of the account's new rows.
-/

namespace Lib

/-- How a state shows its balances and its ledger. -/
structure Ledger (σ κ ρ : Type*) where
  balance : σ → κ → Option Int
  rows : σ → List ρ
  account : ρ → κ
  amount : ρ → Int

namespace Ledger

variable {σ κ ρ : Type*} [DecidableEq κ] {L : Ledger σ κ ρ} {s t u : σ}

/-- The sum of an account's rows in a stretch of the ledger. -/
def total (L : Ledger σ κ ρ) (rows : List ρ) (k : κ) : Int := Table.sumOf L.account L.amount rows k

/-- The ledger only grows, and every balance has moved by the sum of the new rows. -/
def Accounted (L : Ledger σ κ ρ) (s t : σ) : Prop :=
  ∃ new, L.rows t = new ++ L.rows s ∧
    ∀ k, L.balance t k = (L.balance s k).map fun b => b + L.total new k

lemma Accounted.refl (s : σ) : L.Accounted s s := ⟨[], rfl, fun k => by simp [total]⟩

lemma Accounted.trans (h : L.Accounted s t) (h' : L.Accounted t u) : L.Accounted s u := by
  obtain ⟨new, hrows, hbal⟩ := h
  obtain ⟨new', hrows', hbal'⟩ := h'
  refine ⟨new' ++ new, by rw [hrows', hrows, List.append_assoc], fun k => ?_⟩
  rw [hbal', hbal, Option.map_map]
  congr 1
  funext b
  simp only [Function.comp, total, Table.sumOf_append]
  omega

/-- One new row, and the balance of its account moved by its amount. -/
lemma accounted_of_row {r : ρ} (hrows : L.rows t = r :: L.rows s)
    (hself : L.balance t (L.account r) = (L.balance s (L.account r)).map fun b => b + L.amount r)
    (hother : ∀ k, k ≠ L.account r → L.balance t k = L.balance s k) : L.Accounted s t := by
  refine ⟨[r], hrows, fun k => ?_⟩
  rw [total, Table.sumOf_cons, Table.sumOf_nil]
  by_cases hk : L.account r = k
  · subst hk
    simp [hself]
  · rw [hother k fun h => hk h.symm]
    simp [hk]

end Ledger

end Lib
