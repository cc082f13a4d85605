import Mathlib.Tactic

/-! Addition with the carry brought around to the lowest place, of numbers up to a largest one. -/

namespace BcmDhd.Lib

/-- The number with all its carries brought around. -/
def wrap (largest number : Nat) : Nat := if number = 0 then 0 else (number - 1) % largest + 1

/-- A sum whose carry is brought around. -/
def onesAdd (largest a b : Nat) : Nat := if a + b ≤ largest then a + b else a + b - largest

namespace Ones

variable {largest number a b count : Nat}

theorem wrap_succ (number : Nat) : wrap largest (number + 1) = number % largest + 1 := rfl

theorem wrap_of_le (le : number ≤ largest) : wrap largest number = number := by
  cases number with
  | zero => rfl
  | succ number => rw [wrap_succ, Nat.mod_eq_of_lt (by omega)]

theorem wrap_le (some_ : 0 < largest) : wrap largest number ≤ largest := by
  cases number with
  | zero => exact Nat.zero_le _
  | succ number => exact Nat.mod_lt number some_

theorem wrap_add (a b : Nat) : wrap largest (wrap largest a + b) = wrap largest (a + b) := by
  cases a with
  | zero => rfl
  | succ a =>
    rw [wrap_succ, Nat.add_right_comm, wrap_succ, Nat.add_right_comm a, wrap_succ, Nat.mod_add_mod]

theorem wrap_carry (carry low : Nat) : wrap largest (carry * (largest + 1) + low) = wrap largest (carry + low) := by
  cases carry with
  | zero => simp
  | succ carry =>
    have whole : (carry + 1) * (largest + 1) + low = carry + low + (carry + 1) * largest + 1 := by ring
    rw [whole, wrap_succ, Nat.add_mul_mod_self_right, Nat.add_right_comm carry, wrap_succ]

theorem onesAdd_eq (first : a ≤ largest) (second : b ≤ largest) : onesAdd largest a b = wrap largest (a + b) := by
  unfold onesAdd
  split
  · rename_i fits
    exact (wrap_of_le fits).symm
  · rename_i carried
    have whole : a + b = 1 * (largest + 1) + (a + b - largest - 1) := by omega
    have around := @wrap_carry largest 1 (a + b - largest - 1)
    rw [← whole] at around
    rw [around, wrap_of_le (by omega)]
    omega

theorem foldl_onesAdd {numbers : List Nat} (start : number ≤ largest) (fits : ∀ each ∈ numbers, each ≤ largest)
    (some_ : 0 < largest) : numbers.foldl (onesAdd largest) number = wrap largest (number + numbers.sum) := by
  induction numbers generalizing number with
  | nil => exact (wrap_of_le start).symm
  | cons each rest ih =>
    have here := fits each (List.mem_cons_self ..)
    rw [List.foldl_cons, onesAdd_eq start here, ih (wrap_le some_) fun other member =>
      fits other (List.mem_cons_of_mem _ member),
      wrap_add, List.sum_cons, Nat.add_assoc]

theorem wrap_complement (some_ : 0 < largest) (number : Nat) :
    wrap largest (number + (largest - wrap largest number)) = largest := by
  obtain ⟨before, rfl⟩ : ∃ before, largest = before + 1 := ⟨largest - 1, by omega⟩
  cases number with
  | zero => exact (congrArg (wrap _) (Nat.zero_add _)).trans (wrap_of_le (Nat.le_refl _))
  | succ number =>
    have split := Nat.div_add_mod number (before + 1)
    have small := Nat.mod_lt number some_
    have whole : number + 1 + (before + 1 - wrap (before + 1) (number + 1)) =
        before + (before + 1) * (number / (before + 1)) + 1 := by
      rw [wrap_succ]
      omega
    rw [whole, wrap_succ, Nat.add_mul_mod_self_left, Nat.mod_eq_of_lt (Nat.lt_succ_self before)]

end Ones

end BcmDhd.Lib
