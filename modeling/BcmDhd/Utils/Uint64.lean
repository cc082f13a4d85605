import BcmDhd.Lib.Word

/-! Products and quotients of 64 bits, in words of 32. -/

namespace BcmDhd.Utils

open BcmDhd.Lib

/-- `FORMALIZE`: the highest bit is counted in `cc` and taken off. -/
def formalize (cc var : UInt32) : UInt32 × UInt32 :=
  (cc + if var &&& 0x80000000 ≠ 0 then 1 else 0, var &&& 0x7fffffff)

/-- `a * b + c`, as `r_high` and `r_low`. -/
def bcmUint64MultipleAdd (a b c : UInt32) : UInt32 × UInt32 :=
  let a1 := a >>> 16
  let a0 := a &&& 0xffff
  let b1 := b >>> 16
  let b0 := b &&& 0xffff
  let (cc, r0) := formalize 0 (a0 * b0)
  let (cc, t) := formalize cc ((a1 * b0) <<< 16)
  let (cc, r0) := formalize cc (r0 + t)
  let (cc, t) := formalize cc ((a0 * b1) <<< 16)
  let (cc, r0) := formalize cc (r0 + t)
  let (cc, c) := formalize cc c
  let (cc, r0) := formalize cc (r0 + c)
  (a1 * b1 + ((a1 * b0) >>> 16) + ((b1 * a0) >>> 16) + cc / 2,
    r0 ||| if cc % 2 ≠ 0 then 0x80000000 else 0)

variable {a b c cc var : UInt32}

theorem formalize_digit : (formalize cc var).2.toNat = var.toNat % 2 ^ 31 := by
  change (var &&& 0x7fffffff).toNat = _
  rw [UInt32.toNat_and]
  exact Nat.and_two_pow_sub_one_eq_mod var.toNat 31

/-- What is counted, while there is room for it. -/
theorem formalize_count (few : cc.toNat < 8) : (formalize cc var).1.toNat = cc.toNat + var.toNat / 2 ^ 31 := by
  have word := var.toNat_lt
  have mask : (var &&& 0x80000000).toNat = var.toNat / 2 ^ 31 % 2 * 2 ^ 31 := by
    rw [UInt32.toNat_and]
    exact BitField.and_mask var.toNat 31 1
  change (cc + if var &&& 0x80000000 ≠ 0 then 1 else 0).toNat = _
  by_cases low : var.toNat < 2 ^ 31
  · have clear : var &&& 0x80000000 = 0 := by
      apply UInt32.toNat_inj.mp
      rw [mask, Nat.div_eq_of_lt low]
      rfl
    rw [if_neg (not_not.mpr clear), UInt32.add_zero, Nat.div_eq_of_lt low, Nat.add_zero]
  · have one : var.toNat / 2 ^ 31 = 1 := by omega
    have set : var &&& 0x80000000 ≠ 0 := by
      intro clear
      rw [clear, one] at mask
      exact absurd mask (by decide)
    rw [if_pos set, UInt32.toNat_add, one, Nat.mod_eq_of_lt (by
      have small : (1 : UInt32).toNat = 1 := rfl
      omega)]
    rfl

theorem formalize_total {count digit : UInt32} (few : cc.toNat < 8) (split : formalize cc var = (count, digit)) :
    count.toNat * 2 ^ 31 + digit.toNat = cc.toNat * 2 ^ 31 + var.toNat ∧ digit.toNat < 2 ^ 31 ∧
      count.toNat ≤ cc.toNat + 1 := by
  have word := var.toNat_lt
  have counted : count.toNat = cc.toNat + var.toNat / 2 ^ 31 := by
    rw [← formalize_count few, split]
  have rest : digit.toNat = var.toNat % 2 ^ 31 := by
    rw [← @formalize_digit cc var, split]
  omega

theorem add_digits {a b : UInt32} (first : a.toNat < 2 ^ 31) (second : b.toNat < 2 ^ 31) :
    (a + b).toNat = a.toNat + b.toNat := by
  rw [UInt32.toNat_add]
  omega

theorem mul_halves {a b : UInt32} (first : a.toNat < 2 ^ 16) (second : b.toNat < 2 ^ 16) :
    (a * b).toNat = a.toNat * b.toNat ∧ a.toNat * b.toNat ≤ (2 ^ 16 - 1) * (2 ^ 16 - 1) := by
  have bound : a.toNat * b.toNat ≤ (2 ^ 16 - 1) * (2 ^ 16 - 1) := Nat.mul_le_mul (by omega) (by omega)
  refine ⟨?_, bound⟩
  rw [UInt32.toNat_mul]
  omega

theorem shiftLeft_half (a : UInt32) : (a <<< 16).toNat = a.toNat % 2 ^ 16 * 2 ^ 16 := by
  rw [UInt32.toNat_shiftLeft]
  change a.toNat <<< 16 % 2 ^ 32 = _
  rw [Nat.shiftLeft_eq]
  omega

theorem shiftRight_half (a : UInt32) : (a >>> 16).toNat = a.toNat / 2 ^ 16 := by
  rw [UInt32.toNat_shiftRight]
  exact Nat.shiftRight_eq_div_pow a.toNat 16

theorem low_half (a : UInt32) : (a &&& 0xffff).toNat = a.toNat % 2 ^ 16 := by
  rw [UInt32.toNat_and]
  exact Nat.and_two_pow_sub_one_eq_mod a.toNat 16

theorem or_top {digit : UInt32} (small : digit.toNat < 2 ^ 31) (count : UInt32) :
    (digit ||| if count % 2 ≠ 0 then 0x80000000 else 0).toNat = digit.toNat + count.toNat % 2 * 2 ^ 31 := by
  have parity : (count % 2).toNat = count.toNat % 2 := UInt32.toNat_mod count 2
  by_cases even : count % 2 = 0
  · have zero : count.toNat % 2 = 0 := by
      rw [← parity, even]
      rfl
    rw [if_neg (not_not.mpr even), UInt32.or_zero, zero, Nat.zero_mul, Nat.add_zero]
  · have odd : count.toNat % 2 = 1 := by
      have other : count.toNat % 2 ≠ 0 := fun zero => even (UInt32.toNat_inj.mp (parity.trans zero))
      omega
    rw [if_pos even, UInt32.toNat_or, odd]
    have apart := @BitField.or_eq_add digit.toNat (2 ^ 31) 31 small rfl
    exact apart.trans (by omega)

theorem digits_total {x y z w cc1 cc2 cc3 cc4 cc5 cc6 cc7 r1 t2 r3 t4 r5 t6 r7 : UInt32}
    (first : formalize 0 x = (cc1, r1)) (second : formalize cc1 y = (cc2, t2))
    (third : formalize cc2 (r1 + t2) = (cc3, r3))
    (fourth : formalize cc3 z = (cc4, t4)) (fifth : formalize cc4 (r3 + t4) = (cc5, r5))
    (sixth : formalize cc5 w = (cc6, t6)) (seventh : formalize cc6 (r5 + t6) = (cc7, r7)) :
    cc7.toNat * 2 ^ 31 + r7.toNat = x.toNat + y.toNat + z.toNat + w.toNat ∧ r7.toNat < 2 ^ 31 := by
  have zero : (0 : UInt32).toNat = 0 := rfl
  obtain ⟨total1, digit1, count1⟩ := formalize_total (by decide) first
  obtain ⟨total2, digit2, count2⟩ := formalize_total (by omega) second
  obtain ⟨total3, digit3, count3⟩ := formalize_total (by omega) third
  obtain ⟨total4, digit4, count4⟩ := formalize_total (by omega) fourth
  obtain ⟨total5, digit5, count5⟩ := formalize_total (by omega) fifth
  obtain ⟨total6, digit6, count6⟩ := formalize_total (by omega) sixth
  obtain ⟨total7, digit7, -⟩ := formalize_total (by omega) seventh
  rw [add_digits digit1 digit2] at total3
  rw [add_digits digit3 digit4] at total5
  rw [add_digits digit5 digit6] at total7
  refine ⟨?_, digit7⟩
  linarith only [total1, total2, total3, total4, total5, total6, total7, zero]

theorem sum_mod (a b c d n : Nat) : (((a + b) % n + c) % n + d) % n = (a + b + c + d) % n := by
  rw [Nat.mod_add_mod, Nat.add_assoc, Nat.mod_add_mod, ← Nat.add_assoc]

theorem words_total {p11 p10 p01 p00 summand count digit : Nat}
    (low : count * 2 ^ 31 + digit = p00 + p10 % 2 ^ 16 * 2 ^ 16 + p01 % 2 ^ 16 * 2 ^ 16 + summand)
    (fits : p11 * 2 ^ 32 + p10 * 2 ^ 16 + p01 * 2 ^ 16 + p00 + summand < 2 ^ 64) :
    (p11 + p10 / 2 ^ 16 + p01 / 2 ^ 16 + count / 2) % 2 ^ 32 * 2 ^ 32 + (digit + count % 2 * 2 ^ 31) =
      p11 * 2 ^ 32 + p10 * 2 ^ 16 + p01 * 2 ^ 16 + p00 + summand := by
  have split10 := Nat.div_add_mod p10 (2 ^ 16)
  have split01 := Nat.div_add_mod p01 (2 ^ 16)
  have splitCount := Nat.div_add_mod count 2
  have total : (p11 + p10 / 2 ^ 16 + p01 / 2 ^ 16 + count / 2) * 2 ^ 32 + (digit + count % 2 * 2 ^ 31) =
      p11 * 2 ^ 32 + p10 * 2 ^ 16 + p01 * 2 ^ 16 + p00 + summand := by
    linarith only [split10, split01, splitCount, low]
  have top : p11 + p10 / 2 ^ 16 + p01 / 2 ^ 16 + count / 2 < 2 ^ 32 := by
    by_contra above
    have large := Nat.mul_le_mul_right (2 ^ 32) (not_lt.mp above)
    linarith only [total, large, fits, Nat.zero_le (digit + count % 2 * 2 ^ 31)]
  rw [Nat.mod_eq_of_lt top]
  exact total

/-- The two words are exactly those of the product and the summand. -/
theorem multipleAdd_total (a b c : UInt32) :
    (bcmUint64MultipleAdd a b c).1.toNat * 2 ^ 32 + (bcmUint64MultipleAdd a b c).2.toNat =
      a.toNat * b.toNat + c.toNat := by
  have wordA := a.toNat_lt
  have wordB := b.toNat_lt
  have wordC := c.toNat_lt
  have whole : a.toNat * b.toNat ≤ (2 ^ 32 - 1) * (2 ^ 32 - 1) := Nat.mul_le_mul (by omega) (by omega)
  have highA := shiftRight_half a
  have highB := shiftRight_half b
  have lowA := low_half a
  have lowB := low_half b
  unfold bcmUint64MultipleAdd
  generalize a >>> 16 = a1 at *
  generalize b >>> 16 = b1 at *
  generalize a &&& 0xffff = a0 at *
  generalize b &&& 0xffff = b0 at *
  have p00 := (@mul_halves a0 b0 (by omega) (by omega)).1
  have p10 := (@mul_halves a1 b0 (by omega) (by omega)).1
  have p01 := (@mul_halves a0 b1 (by omega) (by omega)).1
  have p11 := (@mul_halves a1 b1 (by omega) (by omega)).1
  have product : a.toNat * b.toNat = a1.toNat * b1.toNat * 2 ^ 32 + a1.toNat * b0.toNat * 2 ^ 16 +
      a0.toNat * b1.toNat * 2 ^ 16 + a0.toNat * b0.toNat := by
    have splitA : a.toNat = a1.toNat * 2 ^ 16 + a0.toNat := by omega
    have splitB : b.toNat = b1.toNat * 2 ^ 16 + b0.toNat := by omega
    rw [splitA, splitB]
    ring
  clear highA highB lowA lowB wordA wordB
  rw [product] at whole ⊢
  dsimp only
  rw [UInt32.mul_comm b1 a0]
  rcases first : formalize 0 (a0 * b0) with ⟨cc1, r1⟩
  dsimp only
  rcases second : formalize cc1 ((a1 * b0) <<< 16) with ⟨cc2, t2⟩
  dsimp only
  rcases third : formalize cc2 (r1 + t2) with ⟨cc3, r3⟩
  dsimp only
  rcases fourth : formalize cc3 ((a0 * b1) <<< 16) with ⟨cc4, t4⟩
  dsimp only
  rcases fifth : formalize cc4 (r3 + t4) with ⟨cc5, r5⟩
  dsimp only
  rcases sixth : formalize cc5 c with ⟨cc6, t6⟩
  dsimp only
  rcases seventh : formalize cc6 (r5 + t6) with ⟨cc7, r7⟩
  dsimp only
  obtain ⟨low, digit⟩ := digits_total first second third fourth fifth sixth seventh
  rw [shiftLeft_half, shiftLeft_half, p00, p10, p01] at low
  have half : (cc7 / 2).toNat = cc7.toNat / 2 := UInt32.toNat_div cc7 2
  have words := @words_total (a1.toNat * b1.toNat) _ _ _ _ _ _ low (by omega)
  rw [or_top digit, UInt32.toNat_add, UInt32.toNat_add, UInt32.toNat_add, p11, shiftRight_half,
    shiftRight_half, p10, p01,
    half, sum_mod]
  exact words

theorem multipleAdd_words (a b c : UInt32) :
    (bcmUint64MultipleAdd a b c).1.toNat = (a.toNat * b.toNat + c.toNat) / 2 ^ 32 ∧
      (bcmUint64MultipleAdd a b c).2.toNat = (a.toNat * b.toNat + c.toNat) % 2 ^ 32 := by
  have total := multipleAdd_total a b c
  have low := (bcmUint64MultipleAdd a b c).2.toNat_lt
  omega

/-- What the divisor leaves of 2^32. -/
def leftOf (b : UInt32) : UInt32 := ((0xffffffff % b) + 1) % b

/-- The rounds of `while (a1 != 0)`: each takes the high word times the quotient of 2^32. -/
def divideRounds (b a1 a0 r0 : UInt32) : UInt32 :=
  if a1 ≠ 0 then
    divideRounds b (bcmUint64MultipleAdd (leftOf b) a1 a0).1 (bcmUint64MultipleAdd (leftOf b) a1 a0).2
      (r0 + 0xffffffff / b * a1)
  else r0 + a0 / b
termination_by a1.toNat * 2 ^ 32 + a0.toNat
decreasing_by
  rename_i some_
  have total := multipleAdd_total (leftOf b) a1 a0
  have word := (leftOf b).toNat_lt
  have positive : 0 < a1.toNat := by
    have other : a1.toNat ≠ 0 := fun zero => some_ (UInt32.toNat_inj.mp zero)
    omega
  have less : (leftOf b).toNat * a1.toNat < 2 ^ 32 * a1.toNat := Nat.mul_lt_mul_of_pos_right word positive
  rw [total, Nat.mul_comm a1.toNat]
  exact Nat.add_lt_add_right less a0.toNat

/-- `none` where `*r` is not written. -/
def bcmUint64Divide (aHigh aLow b : UInt32) : Option UInt32 :=
  if b < 2 then none else some (divideRounds b aHigh aLow 0)

theorem leftOf_eq (b : UInt32) (large : 2 ≤ b.toNat) : (leftOf b).toNat = 2 ^ 32 % b.toNat := by
  have word := b.toNat_lt
  have rest : (0xffffffff % b).toNat = (2 ^ 32 - 1) % b.toNat := UInt32.toNat_mod 0xffffffff b
  have small := Nat.mod_lt (2 ^ 32 - 1) (show 0 < b.toNat by omega)
  have one : (1 : UInt32).toNat = 1 := rfl
  have sum : (0xffffffff % b + 1).toNat = (2 ^ 32 - 1) % b.toNat + 1 := by
    rw [UInt32.toNat_add, rest, one]
    exact Nat.mod_eq_of_lt (by omega)
  unfold leftOf
  rewrite [UInt32.toNat_mod, sum, Nat.mod_add_mod]
  rfl

theorem quotient_eq (b : UInt32) (large : 2 ≤ b.toNat) :
    (0xffffffff / b).toNat + (if 2 ^ 32 % b.toNat = 0 then 1 else 0) = 2 ^ 32 / b.toNat := by
  have positive : 0 < b.toNat := by omega
  have quotient : (0xffffffff / b).toNat = (2 ^ 32 - 1) / b.toNat := UInt32.toNat_div 0xffffffff b
  have succ : 2 ^ 32 / b.toNat = (2 ^ 32 - 1) / b.toNat + if b.toNat ∣ 2 ^ 32 then 1 else 0 :=
    @Nat.succ_div (2 ^ 32 - 1) b.toNat
  rw [quotient, succ]
  congr 1
  by_cases divides : b.toNat ∣ 2 ^ 32
  · rw [if_pos (Nat.mod_eq_zero_of_dvd divides), if_pos divides]
  · rw [if_neg (fun zero => divides (Nat.dvd_of_mod_eq_zero zero)), if_neg divides]

theorem divide_step (b high low : Nat) (large : 0 < b) :
    (high * 2 ^ 32 + low) / b = high * (2 ^ 32 / b) + (2 ^ 32 % b * high + low) / b := by
  have split := Nat.div_add_mod (2 ^ 32) b
  have whole : high * 2 ^ 32 + low = b * (high * (2 ^ 32 / b)) + (2 ^ 32 % b * high + low) := by
    calc high * 2 ^ 32 + low = high * (b * (2 ^ 32 / b) + 2 ^ 32 % b) + low := by rw [split]
      _ = b * (high * (2 ^ 32 / b)) + (2 ^ 32 % b * high + low) := by ring
  rw [whole, Nat.mul_add_div large]

/-- What is summed up: the quotient, less the high word where the divisor is a power of two. -/
theorem divideRounds_eq (b a1 a0 r0 : UInt32) (large : 2 ≤ b.toNat) :
    ((divideRounds b a1 a0 r0).toNat + if 2 ^ 32 % b.toNat = 0 then a1.toNat else 0) % 2 ^ 32 =
      (r0.toNat + (a1.toNat * 2 ^ 32 + a0.toNat) / b.toNat) % 2 ^ 32 := by
  fun_induction divideRounds b a1 a0 r0 with
  | case2 a1 a0 r0 done =>
    obtain rfl : a1 = 0 := not_not.mp done
    have zero : (0 : UInt32).toNat = 0 := rfl
    rw [zero, ite_self, Nat.add_zero, UInt32.toNat_add, UInt32.toNat_div, Nat.zero_mul, Nat.zero_add, Nat.mod_mod]
  | case1 a1 a0 r0 some_ ih =>
    have quotient := quotient_eq b large
    have step := divide_step b.toNat a1.toNat a0.toNat (by omega)
    have total := multipleAdd_total (leftOf b) a1 a0
    rw [leftOf_eq b large] at total
    rw [total, UInt32.toNat_add, UInt32.toNat_mul] at ih
    rw [step]
    by_cases power : 2 ^ 32 % b.toNat = 0
    · rw [if_pos power] at quotient ih ⊢
      have high : (bcmUint64MultipleAdd (leftOf b) a1 a0).1.toNat = 0 := by
        rw [power, Nat.zero_mul, Nat.zero_add] at total
        have word := a0.toNat_lt
        omega
      rw [high, Nat.add_zero] at ih
      rw [← quotient, Nat.mul_add, Nat.mul_one, Nat.add_mod, ih, Nat.mul_comm a1.toNat]
      generalize (0xffffffff / b).toNat * a1.toNat = product
      generalize (2 ^ 32 % b.toNat * a1.toNat + a0.toNat) / b.toNat = rest
      omega
    · rw [if_neg power, Nat.add_zero] at quotient ih
      rw [if_neg power, Nat.add_zero, ih, ← quotient, Nat.mul_comm a1.toNat]
      generalize (0xffffffff / b).toNat * a1.toNat = product
      generalize (2 ^ 32 % b.toNat * a1.toNat + a0.toNat) / b.toNat = rest
      omega

/-- The quotient is right exactly if the divisor is no power of two or there is no high word. -/
theorem divide_iff (aHigh aLow b : UInt32) (large : 2 ≤ b.toNat) :
    (∃ r, bcmUint64Divide aHigh aLow b = some r ∧
        r.toNat = (aHigh.toNat * 2 ^ 32 + aLow.toNat) / b.toNat % 2 ^ 32) ↔
      aHigh = 0 ∨ 2 ^ 32 % b.toNat ≠ 0 := by
  have divided : bcmUint64Divide aHigh aLow b = some (divideRounds b aHigh aLow 0) := by
    unfold bcmUint64Divide
    have two : (2 : UInt32).toNat = 2 := rfl
    rw [if_neg (by rw [UInt32.lt_iff_toNat_lt]; omega)]
  have sum := divideRounds_eq b aHigh aLow 0 large
  have zero : (0 : UInt32).toNat = 0 := rfl
  have word := aHigh.toNat_lt
  have result := (divideRounds b aHigh aLow 0).toNat_lt
  rw [zero, Nat.zero_add] at sum
  rw [← sum]
  constructor
  · rintro ⟨r, done, right⟩
    cases divided.symm.trans done
    by_contra both
    obtain ⟨some_, power⟩ := not_or.mp both
    have other : aHigh.toNat ≠ 0 := fun same => some_ (UInt32.toNat_inj.mp same)
    rw [if_pos (not_not.mp power)] at right
    omega
  · intro either
    refine ⟨_, divided, ?_⟩
    have nothing : (if 2 ^ 32 % b.toNat = 0 then aHigh.toNat else 0) = 0 := by
      rcases either with rfl | power
      · exact ite_self 0
      · exact if_neg power
    rw [nothing, Nat.add_zero, Nat.mod_eq_of_lt result]

theorem divide_iff_ten : ∃ r, bcmUint64Divide 5 7 10 = some r ∧ r.toNat = (5 * 2 ^ 32 + 7) / 10 % 2 ^ 32 :=
  (divide_iff 5 7 10 (by decide)).mpr (.inr (by decide))

/-- 2^32 divided by 2 comes out one too small. -/
theorem divide_two : ¬∃ r, bcmUint64Divide 1 0 2 = some r ∧ r.toNat = 2 ^ 32 / 2 % 2 ^ 32 := by
  rintro ⟨r, done, right⟩
  cases done
  have sum := divideRounds_eq 2 1 0 0 (by decide)
  have one : (1 : UInt32).toNat = 1 := rfl
  have power : 2 ^ 32 % (2 : UInt32).toNat = 0 := rfl
  rw [right, if_pos power, one] at sum
  exact absurd sum (by decide)

end BcmDhd.Utils
