import BcmDhd.Lib.Word
import BcmDhd.Lib.OnesComplement

/-! The checksum of IP, TCP and UDP headers and data. -/

namespace BcmDhd.Utils

open BcmDhd.Lib

/-- Two bytes at a time, then the last one; `sum` has 32 bits. -/
def cksumWords : List UInt8 → Nat → Nat
  | high :: low :: rest, sum => cksumWords rest ((sum + (high.toNat <<< 8 ||| low.toNat)) % 2 ^ 32)
  | [last], sum => (sum + last.toNat <<< 8) % 2 ^ 32
  | [], sum => sum

/-- `while (sum >> 16)`. -/
def cksumFold (sum : Nat) : Nat :=
  if sum >>> 16 ≠ 0 then cksumFold ((sum &&& 0xffff) + sum >>> 16) else sum
termination_by sum
decreasing_by
  rename_i some_
  rw [Nat.shiftRight_eq_div_pow] at some_ ⊢
  have low : sum &&& 0xffff = sum % 2 ^ 16 := Nat.and_two_pow_sub_one_eq_mod sum 16
  omega

def bcmIpCksum (buf : List UInt8) (sum : Nat) : Nat := 0xffff - cksumFold (cksumWords buf sum) % 2 ^ 16

/-- The big-endian words of bytes, with a zero behind an odd one. -/
def beWords : List UInt8 → List Nat
  | high :: low :: rest => (high.toNat * 256 + low.toNat) :: beWords rest
  | [last] => [last.toNat * 256]
  | [] => []

variable {buf front back : List UInt8} {sum : Nat}

theorem beWords_le : ∀ word ∈ beWords buf, word ≤ 0xffff := by
  fun_induction beWords buf with
  | case1 high low rest ih =>
    intro word member
    have first := high.toNat_lt
    have second := low.toNat_lt
    rcases List.mem_cons.mp member with rfl | behind
    · omega
    · exact ih word behind
  | case2 last =>
    intro word member
    have byte := last.toNat_lt
    rw [List.mem_singleton.mp member]
    omega
  | case3 =>
    intro word member
    cases member

theorem length_beWords : (beWords buf).length = (buf.length + 1) / 2 := by
  fun_induction beWords buf with
  | case1 high low rest ih =>
    rw [List.length_cons, ih, List.length_cons, List.length_cons]
    omega
  | case2 last => simp
  | case3 => rfl

theorem beWords_append (even : front.length % 2 = 0) : beWords (front ++ back) = beWords front ++ beWords back := by
  fun_induction beWords front with
  | case1 high low rest ih =>
    rw [List.length_cons, List.length_cons] at even
    rw [List.cons_append, List.cons_append, beWords, ih (by omega), List.cons_append]
  | case2 last => exact absurd even (by simp)
  | case3 => rfl

theorem sum_beWords_le : (beWords buf).sum ≤ (buf.length + 1) / 2 * 0xffff := by
  have bound := List.sum_le_card_nsmul (beWords buf) 0xffff fun word member => beWords_le word member
  rwa [smul_eq_mul, length_beWords] at bound

theorem cksumWords_eq (fits : sum + (beWords buf).sum < 2 ^ 32) : cksumWords buf sum = sum + (beWords buf).sum := by
  fun_induction cksumWords buf sum with
  | case1 high low rest sum ih =>
    have word : high.toNat <<< 8 ||| low.toNat = high.toNat * 256 + low.toNat := by
      have byte := low.toNat_lt
      rw [Nat.shiftLeft_eq, Nat.or_comm]
      exact @BitField.or_eq_add low.toNat (high.toNat * 2 ^ 8) 8 byte (Nat.mul_mod_left _ _)
    rw [beWords, List.sum_cons] at fits ⊢
    rw [word] at ih ⊢
    have assoc := Nat.add_assoc sum (high.toNat * 256 + low.toNat) (beWords rest).sum
    rw [← assoc] at fits ⊢
    have whole := Nat.mod_eq_of_lt (lt_of_le_of_lt (Nat.le_add_right _ _) fits)
    rw [whole] at ih ⊢
    exact ih fits
  | case2 last sum =>
    rw [beWords, List.sum_singleton] at fits ⊢
    rw [Nat.shiftLeft_eq]
    exact Nat.mod_eq_of_lt fits
  | case3 sum => rfl

theorem cksumFold_eq (sum : Nat) : cksumFold sum = wrap 0xffff sum := by
  fun_induction cksumFold sum with
  | case1 sum some_ ih =>
    have low : sum &&& 0xffff = sum % 2 ^ 16 := Nat.and_two_pow_sub_one_eq_mod sum 16
    have whole : sum = sum / 2 ^ 16 * (0xffff + 1) + sum % 2 ^ 16 := by omega
    rw [ih, low, Nat.shiftRight_eq_div_pow, Nat.add_comm]
    conv_rhs => rw [whole]
    exact (Ones.wrap_carry _ _).symm
  | case2 sum done =>
    rw [Nat.shiftRight_eq_div_pow] at done
    exact (Ones.wrap_of_le (by omega)).symm

theorem ipCksum_eq (short : buf.length ≤ 0xffff) (start : sum ≤ 0xffff) :
    bcmIpCksum buf sum = 0xffff - wrap 0xffff (sum + (beWords buf).sum) := by
  have bound := @sum_beWords_le buf
  have few : (buf.length + 1) / 2 * 0xffff ≤ 0x8000 * 0xffff := Nat.mul_le_mul_right _ (by omega)
  have small := @Ones.wrap_le 0xffff (sum + (beWords buf).sum) (by decide)
  unfold bcmIpCksum
  rw [cksumWords_eq (by omega), cksumFold_eq, Nat.mod_eq_of_lt (by omega)]

theorem sum_field (even : front.length % 2 = 0) (high low : UInt8) :
    (beWords (front ++ [high, low] ++ back)).sum =
      (beWords front).sum + (beWords back).sum + (high.toNat * 256 + low.toNat) := by
  rw [List.append_assoc, beWords_append even, List.sum_append, List.cons_append, List.cons_append,
    List.nil_append, beWords,
    List.sum_cons]
  omega

/-- The checksum is the complement of the one's-complement sum; it goes on where another one ended;
and with the checksum in its field a message gives zero. -/
theorem ipCksum_ones (sum : Nat) (start : sum ≤ 0xffff) :
    (∀ buf : List UInt8, buf.length ≤ 0xffff →
      bcmIpCksum buf sum = 0xffff - (beWords buf).foldl (onesAdd 0xffff) sum) ∧
    (∀ front back : List UInt8, (front ++ back).length ≤ 0xffff → front.length % 2 = 0 →
      bcmIpCksum (front ++ back) sum = bcmIpCksum back (0xffff - bcmIpCksum front sum)) ∧
    ∀ front back : List UInt8, (front ++ [0, 0] ++ back).length ≤ 0xffff → front.length % 2 = 0 →
      let cksum := bcmIpCksum (front ++ [0, 0] ++ back) sum
      bcmIpCksum (front ++ [UInt8.ofNat (cksum / 256), UInt8.ofNat cksum] ++ back) sum = 0 := by
  refine ⟨fun buf short => ?_, fun front back short even => ?_, fun front back short even => ?_⟩
  · rw [ipCksum_eq short start, Ones.foldl_onesAdd start (fun _ member => beWords_le _ member) (by decide)]
  · rw [List.length_append] at short
    have small := @Ones.wrap_le 0xffff (sum + (beWords front).sum) (by decide)
    have first : 0xffff - bcmIpCksum front sum = wrap 0xffff (sum + (beWords front).sum) := by
      rw [ipCksum_eq (by omega) start]
      omega
    rw [ipCksum_eq (by rw [List.length_append]; omega) start, first, ipCksum_eq (by omega) small, Ones.wrap_add,
      beWords_append even, List.sum_append, Nat.add_assoc]
  · have same : ∀ high low : UInt8, (front ++ [high, low] ++ back).length = (front ++ [0, 0] ++ back).length := by
      intro high low
      simp
    have zeros : (beWords (front ++ [0, 0] ++ back)).sum = (beWords front).sum + (beWords back).sum :=
      sum_field even 0 0
    have small := @Ones.wrap_le 0xffff (sum + ((beWords front).sum + (beWords back).sum)) (by decide)
    have cksum := ipCksum_eq short start
    rw [zeros] at cksum
    dsimp only
    rw [ipCksum_eq ((same _ _).symm ▸ short) start, sum_field even, cksum]
    have field : (UInt8.ofNat ((0xffff - wrap 0xffff (sum + ((beWords front).sum + (beWords back).sum))) /
      256)).toNat * 256 +
        (UInt8.ofNat (0xffff - wrap 0xffff (sum + ((beWords front).sum + (beWords back).sum)))).toNat =
        0xffff - wrap 0xffff (sum + ((beWords front).sum + (beWords back).sum)) := by
      rw [UInt8.toNat_ofNat', UInt8.toNat_ofNat']
      omega
    rw [field, ← Nat.add_assoc, Ones.wrap_complement (by decide)]

theorem ipCksum_ones_zero : bcmIpCksum ([0x45, 0, 0] ++ [1]) 0 =
    0xffff - (beWords [0x45, 0, 0, 1]).foldl (onesAdd 0xffff) 0 :=
  (ipCksum_ones 0 (by decide)).1 [0x45, 0, 0, 1] (by decide)

end BcmDhd.Utils
