import Mathlib.Data.List.TakeWhile
import Mathlib.Tactic

/-! Decimal numbers as texts, and weighted sums of digits. -/

namespace BcmDhd.Lib

namespace Decimal

def isDigit (char : UInt8) : Bool := 48 ≤ char && char ≤ 57

def digit (char : UInt8) : Nat := char.toNat - 48

/-- The number that digits stand for, the highest first. -/
def number (text : List UInt8) : Nat := text.foldl (fun value char => 10 * value + digit char) 0

/-- So many digits of a number. -/
def fixed : (width value : Nat) → List UInt8
  | 0, _ => []
  | width + 1, value => fixed width (value / 10) ++ [UInt8.ofNat (48 + value % 10)]

variable {text rest : List UInt8} {char : UInt8} {width more value : Nat}

theorem isDigit_iff : isDigit char = true ↔ 48 ≤ char.toNat ∧ char.toNat ≤ 57 := by
  unfold isDigit
  rw [Bool.and_eq_true, decide_eq_true_iff, decide_eq_true_iff, UInt8.le_iff_toNat_le, UInt8.le_iff_toNat_le]
  rfl

theorem digit_lt (is : isDigit char = true) : digit char < 10 := by
  have bounds := isDigit_iff.mp is
  unfold digit
  omega

theorem digit_inj {other : UInt8} (is : isDigit char = true) (also : isDigit other = true)
    (same : digit char = digit other) : char = other := by
  have first := isDigit_iff.mp is
  have second := isDigit_iff.mp also
  unfold digit at same
  exact UInt8.toNat_inj.mp (by omega)

theorem number_append (text : List UInt8) (char : UInt8) : number (text ++ [char]) = 10 * number text + digit char :=
  List.foldl_append

@[simp] theorem length_fixed : (fixed width value).length = width := by
  induction width generalizing value with
  | zero => rfl
  | succ width ih => rw [fixed, List.length_append, ih, List.length_singleton]

theorem last_digit (value : Nat) : isDigit (UInt8.ofNat (48 + value % 10)) = true ∧
    digit (UInt8.ofNat (48 + value % 10)) = value % 10 := by
  have small : (UInt8.ofNat (48 + value % 10)).toNat = 48 + value % 10 := by
    rw [UInt8.toNat_ofNat', Nat.mod_eq_of_lt (by omega)]
  refine ⟨isDigit_iff.mpr ⟨by omega, by omega⟩, ?_⟩
  unfold digit
  omega

theorem fixed_digits : ∀ char ∈ fixed width value, isDigit char = true := by
  induction width generalizing value with
  | zero => intro char member; cases member
  | succ width ih =>
    intro char member
    rcases List.mem_append.mp member with before | last
    · exact ih char before
    · rw [List.mem_singleton.mp last]
      exact (last_digit value).1

theorem number_fixed : number (fixed width value) = value % 10 ^ width := by
  induction width generalizing value with
  | zero => exact (Nat.mod_one value).symm
  | succ width ih =>
    rw [fixed, number_append, ih, (last_digit value).2, Nat.pow_succ', Nat.mod_mul]
    omega

theorem fixed_number (digits : ∀ char ∈ text, isDigit char = true) : fixed text.length (number text) = text := by
  induction text using List.reverseRecOn with
  | nil => rfl
  | append_singleton text char ih =>
    have last := digits char (List.mem_append_right _ (List.mem_singleton_self char))
    have small := digit_lt last
    have bounds := isDigit_iff.mp last
    have before : (10 * number text + digit char) / 10 = number text := by omega
    have after : (10 * number text + digit char) % 10 = digit char := by omega
    have char_ : UInt8.ofNat (48 + digit char) = char := by
      unfold digit
      rw [Nat.add_sub_cancel' bounds.1, UInt8.ofNat_toNat]
    rw [List.length_append, List.length_singleton, number_append, fixed, before, after, char_,
      ih fun other member => digits other (List.mem_append_left _ member)]

theorem take_fixed : (fixed (width + more) value).take width = fixed width (value / 10 ^ more) := by
  induction more generalizing value with
  | zero => rw [Nat.add_zero, List.take_of_length_le (by simp), Nat.pow_zero, Nat.div_one]
  | succ more ih =>
    rw [← Nat.add_assoc, fixed, List.take_append_of_le_length (by simp), ih, Nat.pow_succ', Nat.div_div_eq_div_mul]

theorem number_lt (digits : ∀ char ∈ text, isDigit char = true) : number text < 10 ^ text.length := by
  induction text using List.reverseRecOn with
  | nil => exact Nat.one_pos
  | append_singleton text char ih =>
    have before := ih fun other member => digits other (List.mem_append_left _ member)
    have last := digit_lt (digits char (List.mem_append_right _ (List.mem_singleton_self char)))
    rw [number_append, List.length_append, List.length_singleton, Nat.pow_succ]
    omega

end Decimal

def weightedSum (weights digits : List Nat) : Nat :=
  (List.zipWith (fun weight digit => weight * digit) weights digits).sum

theorem weightedSum_append {weights digits : List Nat} (same : weights.length = digits.length) (weight digit : Nat) :
    weightedSum (weights ++ [weight]) (digits ++ [digit]) = weightedSum weights digits + weight * digit := by
  unfold weightedSum
  rw [List.zipWith_append same, List.sum_append]
  rfl

/-- With weights that have no factor in common with the modulus, a digit that is changed changes
the sum. -/
theorem weightedSum_set {base : Nat} {weights digits : List Nat} {place old new : Nat}
    (coprime : ∀ weight ∈ weights, Nat.Coprime base weight) (inside : place < weights.length)
    (there : digits[place]? = some old) (small : old < base) (smallNew : new < base) (other : new ≠ old) :
    weightedSum weights (digits.set place new) % base ≠ weightedSum weights digits % base := by
  induction weights generalizing digits place with
  | nil => cases inside
  | cons weight weights ih =>
    cases digits with
    | nil => cases there
    | cons digit digits =>
      have first := coprime weight (List.mem_cons_self ..)
      cases place with
      | zero =>
        cases there
        intro same
        have changed : weight * new ≡ weight * old [MOD base] := Nat.ModEq.add_right_cancel' _ same
        have digits_ := Nat.ModEq.cancel_left_of_coprime first changed
        exact other (Nat.ModEq.eq_of_lt_of_lt digits_ smallNew small)
      | succ place =>
        intro same
        have behind : weightedSum weights (digits.set place new) ≡ weightedSum weights digits [MOD base] :=
          Nat.ModEq.add_left_cancel' _ same
        exact ih (fun weight member => coprime weight (List.mem_cons_of_mem _ member))
          (Nat.lt_of_succ_lt_succ inside) there behind

end BcmDhd.Lib
