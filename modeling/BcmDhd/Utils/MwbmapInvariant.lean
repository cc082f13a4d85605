import BcmDhd.Lib.Machine
import BcmDhd.Utils.Mwbmap

namespace BcmDhd.Utils

open BcmDhd.Lib Function

/-- What the allocator stands for: the set of ids below `itemsMax` that are free. -/
structure Represents (itemsMax : Nat) (mwbmap : BcmMwbmap) (free : Finset Nat) : Prop where
  imaps : mwbmap.imaps = wordsFor itemsMax
  wmaps : mwbmap.wmaps = wordsFor (wordsFor itemsMax)
  total : mwbmap.total = itemsMax % 2 ^ 16
  bounded : ∀ id ∈ free, id < itemsMax
  idBit : ∀ word bit, bit < 32 →
    ((mwbmap.idBitmap word).getLsbD bit = true ↔ 32 * word + bit ∈ free)
  wdBit : ∀ word bit, bit < 32 →
    ((mwbmap.wdBitmap word).getLsbD bit = true ↔ mwbmap.idBitmap (32 * word + bit) ≠ 0)
  wdCount : ∀ word, mwbmap.wdCount word = popcount (mwbmap.idBitmap word)
  ifree : mwbmap.ifree = free.card

theorem one_shiftLeft_eq_twoPow (bit : Nat) : 1#32 <<< bit = BitVec.twoPow 32 bit := rfl

private theorem countLeadingZeros_twoPow {bit : Nat} (bounded : bit < 32) :
    bcmCountLeadingZeros (BitVec.twoPow 32 bit) = 31 - bit := by
  have table : ∀ bit : Fin 32, bcmCountLeadingZeros (BitVec.twoPow 32 bit) = 31 - bit.val := by
    decide +kernel
  exact table ⟨bit, bounded⟩

private theorem bitix_of_lowest {bitmap : BitVec 32} {bit : Nat}
    (set : bitmap.getLsbD bit = true)
    (least : ∀ lower, bitmap.getLsbD lower = true → bit ≤ lower) :
    trailingOne bitmap = BitVec.twoPow 32 bit ∧
      bcmCountLeadingZeros (trailingOne bitmap) = 31 - bit := by
  have isolated : trailingOne bitmap = BitVec.twoPow 32 bit := and_neg_eq_twoPow set least
  refine ⟨isolated, ?_⟩
  rw [isolated, countLeadingZeros_twoPow (BitVec.lt_of_getLsbD set)]

private theorem csbTbl_eq {byte : Nat} (bounded : byte < 256) :
    csbTbl.getD byte 0 = ((List.range 8).map fun bit => (byte.testBit bit).toNat).sum := by
  have table : csbTbl = (List.range 256).map fun byte =>
      ((List.range 8).map fun bit => (byte.testBit bit).toNat).sum := by
    decide +kernel
  rw [table, List.getD_eq_getElem _ _ (by simpa using bounded), List.getElem_map, List.getElem_range]

private theorem wordByte_testBit (word : BitVec 32) (i : Nat) {bit : Nat} (bounded : bit < 8) :
    (wordByte word i).testBit bit = word.getLsbD (8 * i + bit) := by
  have power : 256 ^ i = 2 ^ (8 * i) := by
    rw [Nat.pow_mul]
  rw [wordByte, power, show (256 : Nat) = 2 ^ 8 from rfl, Nat.testBit_mod_two_pow,
    Nat.testBit_div_two_pow, BitVec.getLsbD]
  simp [bounded, Nat.add_comm]

theorem bcmCntsetbits_eq_popcount (word : BitVec 32) : bcmCntsetbits word = popcount word := by
  have byteBound : ∀ i, wordByte word i < 256 := fun i => Nat.mod_lt _ (by decide)
  have counted : popcount word = ∑ i ∈ Finset.range 32, (word.getLsbD i).toNat := by
    rw [popcount, bits, Finset.card_filter]
    apply Finset.sum_congr rfl
    intro i _
    cases word.getLsbD i <;> rfl
  rw [counted, bcmCntsetbits, csbTbl_eq (byteBound 0), csbTbl_eq (byteBound 1),
    csbTbl_eq (byteBound 2), csbTbl_eq (byteBound 3)]
  simp only [List.range_succ, List.range_zero, List.nil_append, List.map_append, List.map_cons,
    List.map_nil, List.sum_append, List.sum_cons, List.sum_nil, Finset.sum_range_succ,
    Finset.sum_range_zero]
  simp only [wordByte_testBit, Nat.zero_lt_succ, Nat.reduceLT, Nat.reduceMul, Nat.reduceAdd]
  omega

theorem wordsFor_eq (count : Nat) : wordsFor count = (count + 31) / 32 := by
  simp only [wordsFor, bcmMwbmapDivop, bcmMwbmapModop, bcmMwbmapBitsWord]
  split_ifs <;> omega

private theorem split_id (id : Nat) : 32 * (id / 32) + id % 32 = id := Nat.div_add_mod id 32

namespace Represents

variable {itemsMax : Nat} {mwbmap : BcmMwbmap} {free : Finset Nat}

section

variable (valid : Represents itemsMax mwbmap free)
include valid

theorem bit_of_mem {id : Nat} :
    (mwbmap.idBitmap (id / 32)).getLsbD (id % 32) = true ↔ id ∈ free := by
  rw [valid.idBit _ _ (Nat.mod_lt _ (by decide)), split_id]

theorem wordBit (word : Nat) :
    (mwbmap.wdBitmap (word / 32)).getLsbD (word % 32) = true ↔ mwbmap.idBitmap word ≠ 0 := by
  rw [valid.wdBit _ _ (Nat.mod_lt _ (by decide)), split_id]

/-- A new word at one place of the id bitmap, with its count and with the bit
that announces it in the level above. -/
theorem replaceWord {wordix : Nat} {word top : BitVec 32}
    {count ifree : Int} {free' : Finset Nat} (bounded : ∀ id ∈ free', id < itemsMax)
    (elsewhere : ∀ id, id / 32 ≠ wordix → (id ∈ free' ↔ id ∈ free))
    (here : ∀ bit < 32, word.getLsbD bit = true ↔ 32 * wordix + bit ∈ free')
    (announces : top.getLsbD (wordix % 32) = true ↔ word ≠ 0)
    (others : ∀ bit, bit ≠ wordix % 32 →
      top.getLsbD bit = (mwbmap.wdBitmap (wordix / 32)).getLsbD bit)
    (counted : count = popcount word) (total : ifree = free'.card) :
    Represents itemsMax
      { mwbmap with
        ifree := ifree
        idBitmap := update mwbmap.idBitmap wordix word
        wdCount := update mwbmap.wdCount wordix count
        wdBitmap := update mwbmap.wdBitmap (wordix / 32) top } free' := by
  refine ⟨valid.imaps, valid.wmaps, valid.total, bounded, ?_, ?_, ?_, total⟩
  · intro place bit small
    dsimp only
    by_cases same : place = wordix
    · subst place
      rw [update_self]
      exact here bit small
    · rw [update_of_ne same, valid.idBit place bit small, elsewhere]
      omega
  · intro place bit small
    dsimp only
    by_cases same : 32 * place + bit = wordix
    · have position : place = wordix / 32 ∧ bit = wordix % 32 := by omega
      obtain ⟨rfl, rfl⟩ := position
      rw [same, update_self, update_self]
      exact announces
    · rw [update_of_ne same, ← valid.wdBit place bit small]
      by_cases sameTop : place = wordix / 32
      · subst place
        rw [update_self, others bit (by omega)]
      · rw [update_of_ne sameTop]
  · intro place
    dsimp only
    by_cases same : place = wordix
    · subst place
      rw [update_self, update_self, counted]
    · rw [update_of_ne same, update_of_ne same, valid.wdCount]

/-- Marking a free id as used removes exactly this id from the set. -/
theorem force {id : Nat} (member : id ∈ free) :
    Represents itemsMax (bcmMwbmapForce mwbmap id) (free.erase id) := by
  have raised : (mwbmap.idBitmap (id / 32)).getLsbD (id % 32) = true := valid.bit_of_mem.mpr member
  have remaining : bits (mwbmap.idBitmap (id / 32) ^^^ BitVec.twoPow 32 (id % 32)) =
      (bits (mwbmap.idBitmap (id / 32))).erase (id % 32) := bits_xor_twoPow raised
  have count : popcount (mwbmap.idBitmap (id / 32) ^^^ BitVec.twoPow 32 (id % 32)) =
      popcount (mwbmap.idBitmap (id / 32)) - 1 := by
    rw [popcount, remaining, Finset.card_erase_of_mem (mem_bits.mpr raised), popcount]
  have positive : 0 < popcount (mwbmap.idBitmap (id / 32)) :=
    Finset.card_pos.mpr ⟨id % 32, mem_bits.mpr raised⟩
  have announced : (mwbmap.wdBitmap (id / 32 / 32)).getLsbD (id / 32 % 32) = true := by
    rw [valid.wordBit]
    intro zero
    simp [zero] at raised
  apply valid.replaceWord
  · intro other kept
    exact valid.bounded other (Finset.mem_of_mem_erase kept)
  · intro other apart
    have different : other ≠ id := fun same => apart (same ▸ rfl)
    simp [different]
  · intro bit small
    have agree : bit ≠ id % 32 ↔ 32 * (id / 32) + bit ≠ id := by omega
    rw [← mem_bits, bcmMwbmapModop, bcmMwbmapBitsWord, one_shiftLeft_eq_twoPow, remaining,
      Finset.mem_erase, mem_bits, valid.idBit _ _ small, agree, Finset.mem_erase]
  · -- the announcing bit falls exactly with the last id of the word
    have emptied : mwbmap.idBitmap (id / 32) ^^^ BitVec.twoPow 32 (id % 32) = 0 ↔
        (popcount (mwbmap.idBitmap (id / 32)) : Int) - 1 = 0 := by
      rw [← popcount_eq_zero, count]
      omega
    simp only [bcmMwbmapDivop, bcmMwbmapModop, bcmMwbmapBitsWord, one_shiftLeft_eq_twoPow,
      exhaustedBit, valid.wdCount, BitVec.getLsbD_xor, announced]
    by_cases last : (popcount (mwbmap.idBitmap (id / 32)) : Int) - 1 = 0
    · simp [last, emptied.mpr last, Nat.mod_lt]
    · refine iff_of_true ?_ (mt emptied.mp last)
      simp [last]
  · intro bit otherBit
    have untouched : (exhaustedBit (mwbmap.wdCount (id / 32) - 1) (id / 32 % 32)).getLsbD bit =
        false := by
      rw [exhaustedBit]
      split
      · rw [one_shiftLeft_eq_twoPow, BitVec.getLsbD_twoPow]
        simp [Ne.symm otherBit]
      · simp
    rw [BitVec.getLsbD_xor, bcmMwbmapModop, bcmMwbmapDivop, bcmMwbmapBitsWord, untouched,
      Bool.xor_false]
  · rw [bcmMwbmapModop, bcmMwbmapDivop, bcmMwbmapBitsWord, one_shiftLeft_eq_twoPow, count,
      valid.wdCount]
    omega
  · have present : 0 < free.card := Finset.card_pos.mpr ⟨id, member⟩
    rw [Finset.card_erase_of_mem member, valid.ifree]
    omega

/-- Releasing a used id below the bound adds exactly this id to the set. -/
theorem release {id : Nat} (absent : id ∉ free)
    (bound : id < itemsMax) :
    Represents itemsMax (bcmMwbmapFree mwbmap id) (insert id free) := by
  have clear : ¬ (mwbmap.idBitmap (id / 32)).getLsbD (id % 32) = true := by
    rw [valid.bit_of_mem]
    exact absent
  have small : id % 32 < 32 := Nat.mod_lt _ (by decide)
  have extended : bits (mwbmap.idBitmap (id / 32) ||| BitVec.twoPow 32 (id % 32)) =
      insert (id % 32) (bits (mwbmap.idBitmap (id / 32))) := bits_or_twoPow small
  have count : popcount (mwbmap.idBitmap (id / 32) ||| BitVec.twoPow 32 (id % 32)) =
      popcount (mwbmap.idBitmap (id / 32)) + 1 := by
    rw [popcount, extended, Finset.card_insert_of_notMem (by simpa using clear), popcount]
  apply valid.replaceWord
  · intro other kept
    rcases Finset.mem_insert.mp kept with same | old
    · subst other; exact bound
    · exact valid.bounded other old
  · intro other apart
    have different : other ≠ id := fun same => apart (same ▸ rfl)
    simp [different]
  · intro bit small
    have agree : bit = id % 32 ↔ 32 * (id / 32) + bit = id := by omega
    rw [← mem_bits, bcmMwbmapModop, bcmMwbmapBitsWord, one_shiftLeft_eq_twoPow, extended,
      Finset.mem_insert, mem_bits, valid.idBit _ _ small, agree, Finset.mem_insert]
  · have filled : mwbmap.idBitmap (id / 32) ||| BitVec.twoPow 32 (id % 32) ≠ 0 := by
      intro zero
      rw [← popcount_eq_zero, count] at zero
      omega
    refine iff_of_true ?_ filled
    simp [bcmMwbmapModop, bcmMwbmapDivop, bcmMwbmapBitsWord, Nat.mod_lt]
  · intro bit otherBit
    rw [BitVec.getLsbD_or, bcmMwbmapModop, bcmMwbmapDivop, bcmMwbmapBitsWord,
      one_shiftLeft_eq_twoPow, BitVec.getLsbD_twoPow]
    simp [Ne.symm otherBit]
  · rw [bcmMwbmapModop, bcmMwbmapDivop, bcmMwbmapBitsWord, one_shiftLeft_eq_twoPow, count,
      valid.wdCount]
    omega
  · rw [Finset.card_insert_of_notMem absent, valid.ifree]
    omega

theorem word_ne_zero {word : Nat} :
    mwbmap.idBitmap word ≠ 0 ↔ ∃ id ∈ free, id / 32 = word := by
  constructor
  · intro nonzero
    obtain ⟨bit, raised, _⟩ := exists_lowest nonzero
    have small : bit < 32 := BitVec.lt_of_getLsbD raised
    exact ⟨32 * word + bit, (valid.idBit word bit small).mp raised, by omega⟩
  · rintro ⟨id, member, rfl⟩ zero
    have raised := valid.bit_of_mem.mpr member
    simp [zero] at raised

theorem top_ne_zero {word : Nat} :
    mwbmap.wdBitmap word ≠ 0 ↔ ∃ id ∈ free, id / 32 / 32 = word := by
  constructor
  · intro nonzero
    obtain ⟨bit, raised, _⟩ := exists_lowest nonzero
    have small : bit < 32 := BitVec.lt_of_getLsbD raised
    obtain ⟨id, member, inside⟩ := valid.word_ne_zero.mp ((valid.wdBit word bit small).mp raised)
    exact ⟨id, member, by omega⟩
  · rintro ⟨id, member, rfl⟩ zero
    have raised := (valid.wordBit (id / 32)).mpr (valid.word_ne_zero.mpr ⟨id, member, rfl⟩)
    simp [zero] at raised

end

theorem alloc_empty (valid : Represents itemsMax mwbmap ∅) :
    bcmMwbmapAlloc mwbmap = (mwbmap, bcmMwbmapInvalidIdx) := by
  have allZero : ∀ word, mwbmap.wdBitmap word = 0 := by
    intro word
    by_contra nonzero
    obtain ⟨id, member, _⟩ := valid.top_ne_zero.mp nonzero
    simp at member
  have none : (List.range mwbmap.wmaps).find?
      (fun wordix => mwbmap.wdBitmap wordix != 0#32) = none := by
    rw [List.find?_range_eq_none]
    intro wordix _
    simp [allZero wordix]
  simp only [bcmMwbmapAlloc, none]

/-- The search ends at the word and the bit of the least free id, and marking
it there is what forcing that id does. -/
theorem alloc_least (valid : Represents itemsMax mwbmap free) {id : Nat} (member : id ∈ free)
    (least : ∀ other ∈ free, id ≤ other) :
    bcmMwbmapAlloc mwbmap = (bcmMwbmapForce mwbmap id, id) := by
  have bound : id < itemsMax := valid.bounded id member
  have inside : id / 32 / 32 < mwbmap.wmaps := by
    rw [valid.wmaps, wordsFor_eq, wordsFor_eq]
    omega
  have firstTop : (List.range mwbmap.wmaps).find?
      (fun wordix => mwbmap.wdBitmap wordix != 0#32) = some (id / 32 / 32) := by
    rw [List.find?_range_eq_some]
    refine ⟨?_, List.mem_range.mpr inside, ?_⟩
    · simpa using valid.top_ne_zero.mpr ⟨id, member, rfl⟩
    · intro earlier below
      have zero : mwbmap.wdBitmap earlier = 0 := by
        by_contra nonzero
        obtain ⟨other, present, place⟩ := valid.top_ne_zero.mp nonzero
        have order := least other present
        omega
      simp [zero]
  have topBit : (mwbmap.wdBitmap (id / 32 / 32)).getLsbD (id / 32 % 32) = true :=
    (valid.wordBit (id / 32)).mpr (valid.word_ne_zero.mpr ⟨id, member, rfl⟩)
  have topLeast : ∀ lower, (mwbmap.wdBitmap (id / 32 / 32)).getLsbD lower = true →
      id / 32 % 32 ≤ lower := by
    intro lower raised
    have small : lower < 32 := BitVec.lt_of_getLsbD raised
    obtain ⟨other, present, place⟩ :=
      valid.word_ne_zero.mp ((valid.wdBit _ lower small).mp raised)
    have order := least other present
    omega
  have idLeast : ∀ lower, (mwbmap.idBitmap (id / 32)).getLsbD lower = true → id % 32 ≤ lower := by
    intro lower raised
    have small : lower < 32 := BitVec.lt_of_getLsbD raised
    have order := least _ ((valid.idBit _ lower small).mp raised)
    omega
  obtain ⟨-, topIndex⟩ := bitix_of_lowest topBit topLeast
  obtain ⟨isolated, idIndex⟩ := bitix_of_lowest (valid.bit_of_mem.mpr member) idLeast
  rw [isolated] at idIndex
  have bitix : bcmMwbmapBitsWord - 1 - (31 - id / 32 % 32) = id / 32 % 32 := by
    simp only [bcmMwbmapBitsWord]
    omega
  have wordix : bcmMwbmapMulop (id / 32 / 32) + id / 32 % 32 = id / 32 := by
    simp only [bcmMwbmapMulop, bcmMwbmapBitsWord]
    omega
  have index : bcmMwbmapMulop (id / 32) + (bcmMwbmapBitsWord - 1) - (31 - id % 32) = id := by
    simp only [bcmMwbmapMulop, bcmMwbmapBitsWord]
    omega
  simp only [bcmMwbmapAlloc, firstTop, topIndex, bitix, takeFrom, wordix, isolated, idIndex, index]
  rfl

theorem isfree (valid : Represents itemsMax mwbmap free) (id : Nat) :
    bcmMwbmapIsfree mwbmap id = decide (id ∈ free) := by
  rw [Bool.eq_iff_iff, decide_eq_true_iff, ← valid.bit_of_mem, bcmMwbmapIsfree, bne_iff_ne]
  exact and_twoPow_ne_zero (Nat.mod_lt _ (by decide))

theorem card_le (valid : Represents itemsMax mwbmap free) : free.card ≤ itemsMax := by
  have inside : free ⊆ Finset.range itemsMax :=
    fun id member => Finset.mem_range.mpr (valid.bounded id member)
  simpa using Finset.card_le_card inside

theorem freeCnt (valid : Represents itemsMax mwbmap free) (bounded : itemsMax ≤ bcmMwbmapItemsMax) :
    bcmMwbmapFreeCnt mwbmap = free.card := by
  have small := valid.card_le
  simp only [bcmMwbmapItemsMax] at bounded
  rw [bcmMwbmapFreeCnt, valid.ifree]
  omega

end Represents

/-- A table cleared of its extra bits has exactly the first `count` bits set. -/
private theorem fixupLast_bit (count word : Nat) {bit : Nat} (small : bit < 32) :
    (fixupLast (fill 0 (wordsFor count) (fun _ => BitVec.allOnes 32) (fun _ => 0)) (wordsFor count)
        (bcmMwbmapModop count) word).getLsbD bit = true ↔ 32 * word + bit < count := by
  simp only [bcmMwbmapModop, bcmMwbmapBitsWord, fixupLast]
  rw [wordsFor_eq]
  split_ifs with partialWord
  · by_cases last : word = (count + 31) / 32 - 1
    · have inside : word < (count + 31) / 32 := by omega
      rw [← last, update_self, fill_apply]
      simp only [Nat.zero_le, Nat.zero_add, true_and, inside, if_true, BitVec.getLsbD_xor, BitVec.getLsbD_allOnes,
        BitVec.getLsbD_shiftLeft, small, decide_true]
      have agree : bit < count % 32 ↔ 32 * word + bit < count := by omega
      rw [← agree]
      by_cases low : bit < count % 32
      · simp [low]
      · have rest : bit - count % 32 < 32 := by omega
        simp [low, rest]
    · rw [update_of_ne last, fill_apply]
      split_ifs with inside
      · refine iff_of_true (by simp only [BitVec.getLsbD_allOnes, small, decide_true]) (by omega)
      · refine iff_of_false (by simp) (by omega)
  · rw [fill_apply]
    split_ifs with inside
    · refine iff_of_true (by simp only [BitVec.getLsbD_allOnes, small, decide_true]) (by omega)
    · refine iff_of_false (by simp) (by omega)

/-- After the initialisation every id below the bound is free. -/
theorem represents_init {itemsMax : Nat} (bounded : itemsMax ≤ bcmMwbmapItemsMax) :
    Represents itemsMax (bcmMwbmapInit itemsMax) (Finset.range itemsMax) := by
  have smallImaps : wordsFor itemsMax % 2 ^ 16 = wordsFor itemsMax := by
    simp only [bcmMwbmapItemsMax] at bounded
    rw [wordsFor_eq]
    omega
  have smallWmaps : wordsFor (wordsFor itemsMax) % 2 ^ 16 = wordsFor (wordsFor itemsMax) := by
    simp only [bcmMwbmapItemsMax] at bounded
    rw [wordsFor_eq, wordsFor_eq]
    omega
  have idBit : ∀ word bit, bit < 32 → (((bcmMwbmapInit itemsMax).idBitmap word).getLsbD bit = true ↔
      32 * word + bit < itemsMax) := by
    intro word bit small
    simp only [bcmMwbmapInit, smallImaps]
    exact fixupLast_bit itemsMax word small
  refine ⟨smallImaps, ?_, rfl, by simp, ?_, ?_, ?_, by simp [bcmMwbmapInit]⟩
  · simp only [bcmMwbmapInit, smallImaps, smallWmaps]
  · intro word bit small
    rw [idBit word bit small, Finset.mem_range]
  · intro word bit small
    have wdBit : ((bcmMwbmapInit itemsMax).wdBitmap word).getLsbD bit = true ↔
        32 * word + bit < wordsFor itemsMax := by
      simp only [bcmMwbmapInit, smallImaps, smallWmaps]
      exact fixupLast_bit _ word small
    rw [wdBit, wordsFor_eq]
    constructor
    · intro inside zero
      have raised := (idBit (32 * word + bit) 0 (by decide)).mpr (by omega)
      simp [zero] at raised
    · intro nonzero
      obtain ⟨low, raised, _⟩ := exists_lowest nonzero
      have below := (idBit _ low (BitVec.lt_of_getLsbD raised)).mp raised
      omega
  · intro word
    have counted : popcount ((bcmMwbmapInit itemsMax).idBitmap word) = min 32 (itemsMax - 32 * word) := by
      have positions : bits ((bcmMwbmapInit itemsMax).idBitmap word) =
          Finset.range (min 32 (itemsMax - 32 * word)) := by
        ext bit
        rw [mem_bits, Finset.mem_range]
        by_cases small : bit < 32
        · rw [idBit word bit small]
          omega
        · have clear : ((bcmMwbmapInit itemsMax).idBitmap word).getLsbD bit = false :=
            BitVec.getLsbD_of_ge _ _ (by omega)
          refine iff_of_false (by simp [clear]) (by omega)
      rw [popcount, positions, Finset.card_range]
    rw [counted]
    simp only [bcmMwbmapInit, smallImaps, bcmMwbmapModop, bcmMwbmapBitsWord]
    rw [wordsFor_eq]
    split_ifs with partialWord
    · by_cases last : word = (itemsMax + 31) / 32 - 1
      · rw [← last, update_self]
        omega
      · rw [update_of_ne last, fill_apply]
        split_ifs <;> omega
    · rw [fill_apply]
      split_ifs <;> omega

end BcmDhd.Utils
