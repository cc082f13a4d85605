import Mathlib.Data.BitVec
import Mathlib.Tactic

/-! Cyclic redundancy checks of any width, lowest bit first: a bit at a time, and a byte at a time
from a table. -/

namespace BcmDhd.Lib

namespace Crc

variable {width : Nat}

/-- A polynomial by its exponents below the width, the highest in the lowest bit. -/
def reflected (width : Nat) (exponents : List Nat) : BitVec width :=
  exponents.foldl (fun poly exponent => poly ||| (1 : BitVec width) <<< (width - 1 - exponent)) 0

def bitStep (poly crc : BitVec width) : BitVec width :=
  if crc.getLsbD 0 then (crc >>> 1) ^^^ poly else crc >>> 1

def steps (poly : BitVec width) : Nat → BitVec width → BitVec width
  | 0, crc => crc
  | count + 1, crc => steps poly count (bitStep poly crc)

/-- Eight bits of a byte. -/
def byteStep (poly crc : BitVec width) (byte : UInt8) : BitVec width :=
  steps poly 8 (crc ^^^ byte.toBitVec.setWidth width)

def bytes (poly crc : BitVec width) (data : List UInt8) : BitVec width := data.foldl (byteStep poly) crc

/-- The lowest byte first. -/
def leBytes : Nat → BitVec width → List UInt8
  | 0, _ => []
  | count + 1, value => UInt8.ofBitVec (value.setWidth 8) :: leBytes count (value >>> 8)

variable {poly crc first second : BitVec width} {count : Nat} {byte : UInt8} {data rest : List UInt8}

theorem bitStep_xor : bitStep poly (first ^^^ second) = bitStep poly first ^^^ bitStep poly second := by
  have cancel : ∀ a b : BitVec width, a ^^^ poly ^^^ (b ^^^ poly) = a ^^^ b := by
    intro a b
    rw [BitVec.xor_assoc, ← BitVec.xor_assoc poly, BitVec.xor_comm poly b, BitVec.xor_assoc b, BitVec.xor_self,
      BitVec.xor_zero]
  unfold bitStep
  rw [BitVec.getLsbD_xor, BitVec.ushiftRight_xor_distrib]
  cases first.getLsbD 0 with
  | false =>
    cases second.getLsbD 0 with
    | false => rfl
    | true => exact BitVec.xor_assoc ..
  | true =>
    cases second.getLsbD 0 with
    | false =>
      change first >>> 1 ^^^ second >>> 1 ^^^ poly = first >>> 1 ^^^ poly ^^^ second >>> 1
      rw [BitVec.xor_assoc, BitVec.xor_comm (second >>> 1), BitVec.xor_assoc]
    | true => exact (cancel _ _).symm

theorem steps_xor : steps poly count (first ^^^ second) = steps poly count first ^^^ steps poly count second := by
  induction count generalizing first second with
  | zero => rfl
  | succ count ih =>
    rw [steps, bitStep_xor]
    exact ih

theorem steps_add (more : Nat) : steps poly (count + more) crc = steps poly more (steps poly count crc) := by
  induction count generalizing crc with
  | zero => rw [Nat.zero_add, steps]
  | succ count ih =>
    rw [Nat.add_right_comm, steps, ih, steps]

theorem steps_clear (clear : ∀ i < count, crc.getLsbD i = false) : steps poly count crc = crc >>> count := by
  induction count generalizing crc with
  | zero => rw [steps, BitVec.ushiftRight_zero]
  | succ count ih =>
    have lowest : bitStep poly crc = crc >>> 1 := by
      unfold bitStep
      rw [clear 0 (Nat.succ_pos count)]
      rfl
    have behind : ∀ i < count, (crc >>> 1).getLsbD i = false := by
      intro i inside
      rw [BitVec.getLsbD_ushiftRight]
      exact clear (1 + i) (by omega)
    rw [steps, lowest, ih behind, ← BitVec.shiftRight_add, Nat.add_comm]

/-- The lowest byte of a number. -/
def lowByte (crc : BitVec width) : BitVec width := (crc.setWidth 8).setWidth width

theorem getLsbD_lowByte (i : Nat) : (lowByte crc).getLsbD i = (decide (i < 8) && crc.getLsbD i) := by
  unfold lowByte
  rw [BitVec.getLsbD_setWidth, BitVec.getLsbD_setWidth]
  by_cases inside : i < width
  · simp [inside]
  · have outside := BitVec.getLsbD_of_ge crc i (not_lt.mp inside)
    simp [outside]

theorem steps_byte (crc : BitVec width) : steps poly 8 crc = (crc >>> 8) ^^^ steps poly 8 (lowByte crc) := by
  have split : crc = (lowByte crc ^^^ crc) ^^^ lowByte crc := by
    rw [BitVec.xor_comm (lowByte crc), BitVec.xor_assoc, BitVec.xor_self, BitVec.xor_zero]
  have clear : ∀ i < 8, (lowByte crc ^^^ crc).getLsbD i = false := by
    intro i inside
    rw [BitVec.getLsbD_xor, getLsbD_lowByte]
    simp [inside]
  have moved : (lowByte crc ^^^ crc) >>> 8 = crc >>> 8 := by
    apply BitVec.eq_of_getLsbD_eq
    intro i inside
    rw [BitVec.getLsbD_ushiftRight, BitVec.getLsbD_ushiftRight, BitVec.getLsbD_xor, getLsbD_lowByte]
    simp
  conv_lhs => rw [split]
  rw [steps_xor, steps_clear clear, moved]

theorem byte_above : (byte.toBitVec.setWidth width) >>> 8 = 0 := by
  apply BitVec.eq_of_getLsbD_eq
  intro i inside
  rw [BitVec.getLsbD_ushiftRight, BitVec.getLsbD_setWidth, BitVec.getLsbD_of_ge byte.toBitVec (8 + i) (by omega)]
  simp

theorem byteStep_eq : byteStep poly crc byte =
    (crc >>> 8) ^^^ steps poly 8 (lowByte (crc ^^^ byte.toBitVec.setWidth width)) := by
  unfold byteStep
  rw [steps_byte, BitVec.ushiftRight_xor_distrib, byte_above]
  congr 1
  exact BitVec.xor_zero

theorem bytes_append : bytes poly crc (data ++ rest) = bytes poly (bytes poly crc data) rest := List.foldl_append

/-- The bytes of a number, one by one, are the number at once. -/
theorem bytes_leBytes {value : BitVec width} (whole : value >>> (8 * count) = 0) :
    bytes poly crc (leBytes count value) = steps poly (8 * count) (crc ^^^ value) := by
  induction count generalizing crc value with
  | zero =>
    have zero : value = 0 := by
      rw [← whole]
      exact (BitVec.ushiftRight_zero value).symm
    rw [zero]
    exact (BitVec.xor_zero).symm
  | succ count ih =>
    have later : (value >>> 8) >>> (8 * count) = 0 := by
      rw [← BitVec.shiftRight_add, ← whole]
      congr 1
      omega
    have below : (value >>> 8) ^^^ steps poly 8 (lowByte value) = steps poly 8 value := (steps_byte value).symm
    have low : (UInt8.ofBitVec (value.setWidth 8)).toBitVec.setWidth width = lowByte value := rfl
    change bytes poly (byteStep poly crc _) (leBytes count (value >>> 8)) = _
    rw [ih later, Nat.mul_succ, Nat.add_comm, steps_add]
    congr 1
    unfold byteStep
    rw [low, steps_xor, steps_xor, ← below, BitVec.xor_assoc, BitVec.xor_comm (steps poly 8 (lowByte value))]

theorem bytes_residue (count : Nat) (whole : width = 8 * count) (data : List UInt8) :
    bytes poly crc (data ++ leBytes count (~~~bytes poly crc data)) = steps poly width (BitVec.allOnes width) := by
  have nothing : ~~~bytes poly crc data >>> (8 * count) = 0 := by
    apply BitVec.eq_of_getLsbD_eq
    intro i inside
    rw [BitVec.getLsbD_ushiftRight, BitVec.getLsbD_of_ge _ (8 * count + i) (by omega)]
    simp
  rw [bytes_append, bytes_leBytes nothing, ← whole, ← BitVec.xor_allOnes, ← BitVec.xor_assoc, BitVec.xor_self,
    BitVec.zero_xor]

/-- One bit of the data. -/
def bitIn (poly crc : BitVec width) (bit : Bool) : BitVec width :=
  bitStep poly (crc ^^^ (BitVec.ofBool bit).setWidth width)

/-- The bits of bytes in the order in which they count. -/
def bitsOf (data : List UInt8) : List Bool := data.flatMap fun byte => (List.range 8).map byte.toBitVec.getLsbD

/-- The first bit is the lowest. -/
def number (width : Nat) (bits : List Bool) : BitVec width := (BitVec.ofBoolListLE bits).setWidth width

variable {bit : Bool} {bits others before after : List Bool}

theorem getLsbD_number (i : Nat) : (number width bits).getLsbD i = (decide (i < width) && bits.getD i false) := by
  unfold number
  rw [BitVec.getLsbD_setWidth, BitVec.getLsbD_ofBoolListLE]

theorem number_cons : number width (bit :: bits) = (BitVec.ofBool bit).setWidth width ^^^ number width bits <<< 1 := by
  apply BitVec.eq_of_getLsbD_eq
  intro i inside
  rw [BitVec.getLsbD_xor, BitVec.getLsbD_shiftLeft, getLsbD_number, getLsbD_number, BitVec.getLsbD_setWidth]
  cases i with
  | zero => simp
  | succ i =>
    have here : i < width := by omega
    simp [here]

theorem bitStep_number (short : bits.length < width) : bitStep poly (number width bits <<< 1) = number width bits := by
  unfold bitStep
  rw [if_neg (by simp)]
  apply BitVec.eq_of_getLsbD_eq
  intro i inside
  rw [BitVec.getLsbD_ushiftRight, BitVec.getLsbD_shiftLeft, getLsbD_number, getLsbD_number]
  by_cases last : 1 + i < width
  · simp [last, inside]
  · have beyond : bits.length ≤ i := by omega
    simp [last, List.getElem?_eq_none beyond]

/-- Bits one by one, as many as fit, are their number at once. -/
theorem foldl_bitIn (short : bits.length ≤ width) :
    bits.foldl (bitIn poly) crc = steps poly bits.length (crc ^^^ number width bits) := by
  induction bits generalizing crc with
  | nil =>
    have nothing : number width [] = 0 := by
      apply BitVec.eq_of_getLsbD_eq
      intro i inside
      simp [getLsbD_number]
    rw [nothing]
    exact BitVec.xor_zero.symm
  | cons bit bits ih =>
    rw [List.foldl_cons, ih (Nat.le_of_succ_le short), List.length_cons, steps, number_cons, ← BitVec.xor_assoc,
      bitStep_xor, bitStep_number short]
    rfl

theorem bytes_bits (wide : 8 ≤ width) : bytes poly crc data = (bitsOf data).foldl (bitIn poly) crc := by
  induction data generalizing crc with
  | nil => rfl
  | cons byte data ih =>
    have same : number width ((List.range 8).map byte.toBitVec.getLsbD) = byte.toBitVec.setWidth width := by
      apply BitVec.eq_of_getLsbD_eq
      intro i inside
      rw [getLsbD_number, BitVec.getLsbD_setWidth]
      by_cases low : i < 8
      · simp [low]
      · have beyond := BitVec.getLsbD_of_ge byte.toBitVec i (not_lt.mp low)
        simp [low, beyond]
    have whole := @foldl_bitIn width poly crc ((List.range 8).map byte.toBitVec.getLsbD) (by simpa using wide)
    rw [same, List.length_map, List.length_range] at whole
    change bytes poly (byteStep poly crc byte) data = _
    rw [ih]
    change _ = List.foldl (bitIn poly) crc (_ ++ bitsOf data)
    rw [List.foldl_append, whole]
    rfl

theorem bitStep_injective (top : poly.getLsbD (width - 1) = true) : Function.Injective (bitStep poly) := by
  intro first second same
  have nothing : bitStep poly (first ^^^ second) = 0 := by
    rw [bitStep_xor, same, BitVec.xor_self]
    rfl
  have none : first ^^^ second = 0 := by
    have bit := fun i => congrArg (BitVec.getLsbD · i) nothing
    unfold bitStep at bit
    apply BitVec.eq_of_getLsbD_eq
    intro i inside
    cases lowest : (first ^^^ second).getLsbD 0 with
    | true =>
      have high := bit (width - 1)
      rw [if_pos lowest, BitVec.getLsbD_xor, top, BitVec.getLsbD_ushiftRight,
        BitVec.getLsbD_of_ge _ (1 + (width - 1)) (by omega)] at high
      simp at high
    | false =>
      cases i with
      | zero => simpa using lowest
      | succ i =>
        have moved := bit i
        rw [if_neg (by simp [lowest]), BitVec.getLsbD_ushiftRight, Nat.add_comm] at moved
        simpa using moved
  exact BitVec.xor_eq_zero_iff.mp none

theorem steps_injective (top : poly.getLsbD (width - 1) = true) : Function.Injective (steps poly count) := by
  induction count with
  | zero => exact fun _ _ same => same
  | succ count ih => exact ih.comp (bitStep_injective top)

theorem foldl_bitIn_injective (top : poly.getLsbD (width - 1) = true) :
    Function.Injective (fun crc => bits.foldl (bitIn poly) crc) := by
  induction bits with
  | nil => exact fun _ _ same => same
  | cons bit bits ih =>
    intro first second same
    exact (BitVec.xor_left_inj _).mp (bitStep_injective top (ih same))

/-- Data whose bits differ in one stretch no longer than the check have different checks. -/
theorem bytes_burst (top : poly.getLsbD (width - 1) = true) (wide : 8 ≤ width) {other : List UInt8}
    (here : bitsOf data = before ++ bits ++ after) (there : bitsOf other = before ++ others ++ after)
    (same : bits.length = others.length) (short : bits.length ≤ width) (differ : bits ≠ others) (crc : BitVec width) :
    bytes poly crc data ≠ bytes poly crc other := by
  intro equal
  rw [bytes_bits wide, bytes_bits wide, here, there] at equal
  simp only [List.foldl_append] at equal
  generalize before.foldl (bitIn poly) crc = state at equal
  have equal := foldl_bitIn_injective top equal
  rw [foldl_bitIn short, foldl_bitIn (same ▸ short : others.length ≤ width), same] at equal
  have numbers := (BitVec.xor_right_inj _).mp (steps_injective top equal)
  refine differ (List.ext_getElem same fun i inside other => ?_)
  have bit := congrArg (BitVec.getLsbD · i) numbers
  simp only [getLsbD_number] at bit
  simpa [lt_of_lt_of_le inside short, inside, other] using bit

end Crc

end BcmDhd.Lib
