import Mathlib.Tactic

/-! Pools of one good that lend to each other. -/

namespace BcmDhd.Lib

open Function

universe u

/-- What each pool holds, and what each borrower has from each lender. -/
structure Ledger (Pool : Type u) where
  held : Pool → ℤ
  lent : Pool → Pool → ℤ

namespace Ledger

variable {Pool : Type u} {ledger : Ledger Pool} {pools : Finset Pool}
  {amount : ℤ} {borrower lender pool : Pool}

/-- What the pools have from a lender. -/
def lendings (ledger : Ledger Pool) (pools : Finset Pool) (lender : Pool) : ℤ :=
  ∑ borrower ∈ pools, ledger.lent borrower lender

/-- What a borrower has from the pools. -/
def debts (ledger : Ledger Pool) (pools : Finset Pool) (borrower : Pool) : ℤ :=
  ∑ lender ∈ pools, ledger.lent borrower lender

def capital (ledger : Ledger Pool) (pools : Finset Pool) (pool : Pool) : ℤ :=
  ledger.held pool + ledger.lendings pools pool

/-- What the pools have at hand together. -/
def holdings (ledger : Ledger Pool) (pools : Finset Pool) : ℤ := ∑ pool ∈ pools, ledger.held pool

/-- Nothing was lent in the negative. -/
def Lends (ledger : Ledger Pool) : Prop := ∀ borrower lender, 0 ≤ ledger.lent borrower lender

theorem Lends.lendings_nonneg (valid : ledger.Lends) : 0 ≤ ledger.lendings pools pool :=
  Finset.sum_nonneg fun borrower _ => valid borrower pool

theorem Lends.debts_nonneg (valid : ledger.Lends) : 0 ≤ ledger.debts pools pool :=
  Finset.sum_nonneg fun lender _ => valid pool lender

theorem Lends.lent_eq_zero (valid : ledger.Lends) (free : ledger.debts pools borrower = 0)
    (member : lender ∈ pools) : ledger.lent borrower lender = 0 :=
  (Finset.sum_eq_zero_iff_of_nonneg fun lender _ => valid borrower lender).mp free lender member

theorem Lends.held_le_capital (valid : ledger.Lends) :
    ledger.held pool ≤ ledger.capital pools pool :=
  le_add_of_nonneg_right valid.lendings_nonneg

section Moves

variable [DecidableEq Pool]

/-- Move an amount from the lender's hands into the borrower's debts. A negative
amount gives back. -/
def lend (ledger : Ledger Pool) (amount : ℤ) (borrower lender : Pool) : Ledger Pool where
  held := update ledger.held lender (ledger.held lender - amount)
  lent := update ledger.lent borrower
    (update (ledger.lent borrower) lender (ledger.lent borrower lender + amount))

/-- An amount from outside for one pool. -/
def deposit (ledger : Ledger Pool) (amount : ℤ) (pool : Pool) : Ledger Pool :=
  { ledger with held := update ledger.held pool (ledger.held pool + amount) }

theorem lent_lend (b l : Pool) : (ledger.lend amount borrower lender).lent b l =
    ledger.lent b l + if b = borrower ∧ l = lender then amount else 0 := by
  by_cases sameB : b = borrower
  · subst sameB
    by_cases sameL : l = lender
    · subst sameL
      simp [lend]
    · simp [lend, sameL]
  · simp [lend, sameB]

theorem held_lend : (ledger.lend amount borrower lender).held pool =
    ledger.held pool - if pool = lender then amount else 0 := by
  by_cases same : pool = lender
  · subst same
    simp [lend]
  · simp [lend, same]

theorem lendings_lend (member : borrower ∈ pools) :
    (ledger.lend amount borrower lender).lendings pools pool =
      ledger.lendings pools pool + if pool = lender then amount else 0 := by
  simp only [lendings, lent_lend, Finset.sum_add_distrib]
  congr 1
  by_cases same : pool = lender
  · simp [same, member]
  · simp [same]

theorem capital_lend (member : borrower ∈ pools) :
    (ledger.lend amount borrower lender).capital pools pool = ledger.capital pools pool := by
  rw [capital, capital, held_lend, lendings_lend member]
  ring

theorem debts_lend (member : lender ∈ pools) :
    (ledger.lend amount borrower lender).debts pools pool =
      ledger.debts pools pool + if pool = borrower then amount else 0 := by
  simp only [debts, lent_lend, Finset.sum_add_distrib]
  congr 1
  by_cases same : pool = borrower
  · simp [same, member]
  · simp [same]

theorem capital_deposit (other : Pool) : (ledger.deposit amount pool).capital pools other =
    ledger.capital pools other + if other = pool then amount else 0 := by
  by_cases same : other = pool
  · subst same
    simp [deposit, capital, lendings]
    ring
  · simp [deposit, capital, lendings, same]

theorem holdings_lend (member : lender ∈ pools) :
    (ledger.lend amount borrower lender).holdings pools = ledger.holdings pools - amount := by
  simp only [holdings, held_lend, Finset.sum_sub_distrib]
  simp [member]

theorem holdings_deposit (member : pool ∈ pools) :
    (ledger.deposit amount pool).holdings pools = ledger.holdings pools + amount := by
  simp only [holdings, deposit]
  rw [Finset.sum_update_of_mem member, Finset.sum_eq_add_sum_sdiff_singleton_of_mem member ledger.held]
  ring

@[simp] theorem debts_deposit (other : Pool) :
    (ledger.deposit amount pool).debts pools other = ledger.debts pools other := rfl

@[simp] theorem lent_deposit : (ledger.deposit amount pool).lent = ledger.lent := rfl

theorem Lends.lend (valid : ledger.Lends) (covered : 0 ≤ ledger.lent borrower lender + amount) :
    (ledger.lend amount borrower lender).Lends := by
  intro b l
  rw [lent_lend]
  split
  · rename_i same
    rw [same.1, same.2]
    exact covered
  · simpa using valid b l

end Moves

end Ledger

end BcmDhd.Lib
