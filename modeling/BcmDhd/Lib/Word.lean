import Mathlib.Data.Nat.Bitwise
import Mathlib.Tactic

/-! Machine words read as finite sets of bit positions, and tables filled by
counting loops. -/

namespace BcmDhd.Lib

open Function

variable {position : Nat}

/-- The positions of the set bits of a word. -/
def bits {width : Nat} (word : BitVec width) : Finset Nat :=
  (Finset.range width).filter (fun position => word.getLsbD position = true)

def popcount {width : Nat} (word : BitVec width) : Nat := (bits word).card

@[simp] theorem mem_bits {width : Nat} {word : BitVec width} {position : Nat} :
    position ∈ bits word ↔ word.getLsbD position = true := by
  constructor
  · intro member
    exact (Finset.mem_filter.mp member).2
  · intro set
    have bounded : position < width := BitVec.lt_of_getLsbD set
    exact Finset.mem_filter.mpr ⟨Finset.mem_range.mpr bounded, set⟩

theorem bits_eq_empty {width : Nat} {word : BitVec width} : bits word = ∅ ↔ word = 0 := by
  constructor
  · intro empty
    apply BitVec.eq_of_getLsbD_eq
    intro position _
    have absent : position ∉ bits word := by simp [empty]
    simpa using absent
  · intro zero
    subst word
    ext position
    simp

theorem popcount_eq_zero {width : Nat} {word : BitVec width} : popcount word = 0 ↔ word = 0 := by
  rw [popcount, Finset.card_eq_zero, bits_eq_empty]

theorem bits_xor_twoPow {width : Nat} {word : BitVec width} (set : word.getLsbD position = true) :
    bits (word ^^^ BitVec.twoPow width position) = (bits word).erase position := by
  have bounded : position < width := BitVec.lt_of_getLsbD set
  ext other
  by_cases same : other = position
  · subst other
    simp [set, bounded]
  · simp [same, Ne.symm same]

theorem bits_or_twoPow {width : Nat} {word : BitVec width} (bounded : position < width) :
    bits (word ||| BitVec.twoPow width position) = insert position (bits word) := by
  ext other
  by_cases same : other = position
  · subst other
    simp [bounded]
  · simp [same, Ne.symm same]

theorem and_twoPow_ne_zero {width : Nat} {word : BitVec width} (bounded : position < width) :
    word &&& BitVec.twoPow width position ≠ 0 ↔ word.getLsbD position = true := by
  rw [Ne, ← bits_eq_empty, ← Ne, ← Finset.nonempty_iff_ne_empty]
  constructor
  · rintro ⟨other, member⟩
    have both : word.getLsbD other = true ∧ position = other := by
      simpa [bounded] using member
    rw [both.2]
    exact both.1
  · intro set
    exact ⟨position, by simp [set, bounded]⟩

theorem exists_lowest {width : Nat} {word : BitVec width} (nonzero : word ≠ 0) :
    ∃ position, word.getLsbD position = true ∧
      ∀ lower, word.getLsbD lower = true → position ≤ lower := by
  have inhabited : (bits word).Nonempty := by
    rw [Finset.nonempty_iff_ne_empty]
    exact fun empty => nonzero (bits_eq_empty.mp empty)
  refine ⟨(bits word).min' inhabited, mem_bits.mp (Finset.min'_mem _ _), ?_⟩
  intro lower set
  exact Finset.min'_le _ _ (mem_bits.mpr set)

/-- Masking a word with its two's complement isolates the least set bit. -/
theorem and_neg_eq_twoPow {width : Nat} {word : BitVec width} (set : word.getLsbD position = true)
    (least : ∀ lower, word.getLsbD lower = true → position ≤ lower) :
    word &&& -word = BitVec.twoPow width position := by
  have bounded : position < width := BitVec.lt_of_getLsbD set
  apply BitVec.eq_of_getLsbD_eq
  intro other inside
  rw [BitVec.getLsbD_and, BitVec.getLsbD_neg, BitVec.getLsbD_twoPow]
  rcases Nat.lt_trichotomy other position with below | same | above
  · have clear : word.getLsbD other = false := by
      by_contra raised
      have bound := least other (by simpa using raised)
      omega
    simp [clear, Nat.ne_of_gt below]
  · subst other
    have none : ¬ ∃ lower < position, word.getLsbD lower = true := by
      rintro ⟨lower, below, raised⟩
      have bound := least lower raised
      omega
    simp [set, bounded, none]
  · have some : ∃ lower < other, word.getLsbD lower = true := ⟨position, above, set⟩
    simp [inside, some, Nat.ne_of_lt above]

/-- The effect of `for (i = start; i < start + count; i++) table[i] = value(i)`. -/
def fill {α : Type*} (start count : Nat) (value : Nat → α) (table : Nat → α) : Nat → α :=
  (List.range' start count).foldl (fun current i => update current i (value i)) table

theorem fill_apply {α : Type*} (start count : Nat) (value : Nat → α) (table : Nat → α)
    (index : Nat) : fill start count value table index =
      if start ≤ index ∧ index < start + count then value index else table index := by
  induction count with
  | zero => simp [fill]
  | succ previous ih =>
    have unfolded : fill start (previous + 1) value table =
        update (fill start previous value table) (start + previous)
          (value (start + previous)) := by
      simp [fill, List.range'_concat, List.foldl_append]
    rw [unfolded]
    by_cases same : index = start + previous
    · subst index; simp
    · rw [update_of_ne same, ih]
      have agree : (start ≤ index ∧ index < start + (previous + 1)) ↔
          (start ≤ index ∧ index < start + previous) := by omega
      simp only [agree]

end BcmDhd.Lib

/-! Numbers made of fields of bits: a field is read with a mask, and put in with an or. -/

namespace BcmDhd.Lib

namespace BitField

variable {number low high shift width : Nat}

theorem and_mask (number shift width : Nat) :
    number &&& (2 ^ width - 1) * 2 ^ shift = number / 2 ^ shift % 2 ^ width * 2 ^ shift := by
  rw [← Nat.shiftLeft_eq, ← Nat.shiftLeft_eq, ← Nat.shiftRight_eq_div_pow]
  apply Nat.eq_of_testBit_eq
  intro bit
  rw [Nat.testBit_and, Nat.testBit_shiftLeft, Nat.testBit_shiftLeft, Nat.testBit_two_pow_sub_one,
    Nat.testBit_mod_two_pow, Nat.testBit_shiftRight]
  by_cases above : shift ≤ bit
  · rw [Nat.add_sub_cancel' above]
    simp [above, Bool.and_comm]
  · simp [above]

theorem or_eq_add (fits : low < 2 ^ shift) (above : high % 2 ^ shift = 0) : low ||| high = high + low := by
  have whole : high = 2 ^ shift * (high / 2 ^ shift) := by
    have division := Nat.div_add_mod high (2 ^ shift)
    omega
  rw [whole, Nat.or_comm, Nat.two_pow_add_eq_or_of_lt fits]

end BitField

end BcmDhd.Lib

/-! Rounding up to a multiple of a power of two, with the mask that C programs use. -/

namespace BcmDhd.Lib

variable {width : Nat}

/-- `(size + (align - 1)) & ~(align - 1)`. -/
def roundUp (size align : BitVec width) : BitVec width := (size + (align - 1)) &&& ~~~(align - 1)

theorem and_not_add (word mask : BitVec width) : (word &&& ~~~mask) + (word &&& mask) = word := by
  have apart : (word &&& ~~~mask) &&& (word &&& mask) = 0 := by
    ext i
    simp
    intro one two three
    exact two
  rw [BitVec.add_eq_or_of_and_eq_zero _ _ apart]
  ext i
  simp
  cases word[i]
  · simp
  · cases mask[i]
    · simp
    · simp

theorem toNat_and_not (word mask : BitVec width) : (word &&& ~~~mask).toNat = word.toNat - (word &&& mask).toNat := by
  have less : word &&& mask ≤ word := by
    rw [BitVec.le_def, BitVec.toNat_and]
    exact Nat.and_le_left
  rw [← BitVec.toNat_sub_of_le less]
  congr 1
  rw [BitVec.eq_sub_iff_add_eq, and_not_add]

/-- The result is no less exactly if the sum does not wrap around, whatever the alignment is. -/
theorem le_roundUp_iff {size align : BitVec width} (some_ : 0 < size.toNat) :
    size.toNat ≤ (roundUp size align).toNat ↔ size.toNat + (align - 1).toNat < 2 ^ width := by
  have bound := (align - 1).isLt
  have mask : ((size + (align - 1)) &&& (align - 1)).toNat ≤ (align - 1).toNat := by
    rw [BitVec.toNat_and]
    exact Nat.and_le_right
  unfold roundUp
  rw [toNat_and_not]
  constructor
  · intro enough
    by_contra wraps
    have sum : (size + (align - 1)).toNat < size.toNat := by
      rw [BitVec.toNat_add]
      have small := size.isLt
      rw [Nat.mod_eq_sub_mod (by omega), Nat.mod_eq_of_lt (by omega)]
      omega
    omega
  · intro fits
    have sum : (size + (align - 1)).toNat = size.toNat + (align - 1).toNat := by
      rw [BitVec.toNat_add, Nat.mod_eq_of_lt fits]
    omega

end BcmDhd.Lib
