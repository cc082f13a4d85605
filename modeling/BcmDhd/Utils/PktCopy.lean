import BcmDhd.Lib.Bytes

/-! Copies between a buffer and a chain of packet segments. -/

namespace BcmDhd.Utils

open BcmDhd.Lib

/-- The data of the segments, in order. -/
abbrev PktChain := List (List UInt8)

/-- The segments that are skipped, those from where the copy starts, and the offset into the first
of these. -/
def skipSegments : PktChain → Nat → PktChain × PktChain × Nat
  | [], offset => ([], [], offset)
  | p :: next, offset =>
    if offset = 0 ∨ offset < p.length then ([], p :: next, offset)
    else
      let (skipped, rest, offset) := skipSegments next (offset - p.length)
      (p :: skipped, rest, offset)

/-- What is copied out, and the count that is returned. -/
def copyOut : PktChain → (offset len : Nat) → List UInt8 × Nat
  | [], _, _ => ([], 0)
  | p :: next, offset, len =>
    if len = 0 then ([], 0)
    else
      let n := min (p.length - offset) len
      let (buf, ret) := copyOut next 0 (len - n)
      ((p.drop offset).take n ++ buf, n + ret)

/-- The chain afterwards, and the count that is returned. -/
def copyIn (buf : Memory) : PktChain → (offset len place : Nat) → PktChain × Nat
  | [], _, _, _ => ([], 0)
  | p :: next, offset, len, place =>
    if len = 0 then (p :: next, 0)
    else
      let n := min (p.length - offset) len
      let (next, ret) := copyIn buf next 0 (len - n) (place + n)
      ((p.take offset ++ load buf place n ++ p.drop (offset + n)) :: next, n + ret)

def pktcopy (chain : PktChain) (offset : UInt32) (len : Int32) : List UInt8 × Nat :=
  let len := if len.toInt < 0 then 4096 else len
  let (_, rest, offset) := skipSegments chain offset.toNat
  copyOut rest offset len.toUInt32.toNat

def pktfrombuf (chain : PktChain) (offset : UInt32) (len : Int32) (buf : Memory) : PktChain × Nat :=
  let (skipped, rest, offset) := skipSegments chain offset.toNat
  let (rest, ret) := copyIn buf rest offset len.toUInt32.toNat 0
  (skipped ++ rest, ret)

variable {chain : PktChain} {offset : Nat} {buf : Memory}

theorem skipSegments_spec (chain : PktChain) (offset : Nat) :
    ∃ skipped rest left, skipSegments chain offset = (skipped, rest, left) ∧ chain = skipped ++ rest ∧
      offset = skipped.flatten.length + left ∧ ∀ p ∈ rest.head?, left ≤ p.length := by
  induction chain generalizing offset with
  | nil => exact ⟨[], [], offset, rfl, rfl, (Nat.zero_add offset).symm, by simp⟩
  | cons p next ih =>
    by_cases here : offset = 0 ∨ offset < p.length
    · refine ⟨[], p :: next, offset, if_pos here, rfl, (Nat.zero_add offset).symm, fun q same => ?_⟩
      cases same
      omega
    · obtain ⟨skipped, rest, left, found, rfl, sum, inside⟩ := ih (offset - p.length)
      refine ⟨p :: skipped, rest, left, ?_, rfl, ?_, inside⟩
      · rw [skipSegments, if_neg here, found]
      · rw [List.flatten_cons, List.length_append]
        omega

theorem copyOut_eq (len : Nat) (inside : ∀ p ∈ chain.head?, offset ≤ p.length) :
    copyOut chain offset len = ((chain.flatten.drop offset).take len, min len (chain.flatten.length - offset)) := by
  induction chain generalizing offset len with
  | nil => simp [copyOut]
  | cons p next ih =>
    have fits : offset ≤ p.length := inside p rfl
    by_cases done : len = 0
    · simp [copyOut, done]
    · have later := ih (len - min (p.length - offset) len) fun _ _ => Nat.zero_le _
      simp only [copyOut, if_neg done, later]
      rw [List.flatten_cons, List.drop_append_of_le_length fits, List.take_append, List.length_drop]
      refine Prod.ext ?_ ?_
      · have rest : len - min (p.length - offset) len = len - (p.length - offset) := by omega
        simp only [List.drop_zero, rest]
        congr 1
        by_cases short : len ≤ p.length - offset
        · rw [Nat.min_eq_right short]
        · rw [Nat.min_eq_left (by omega), List.take_of_length_le (by simp), List.take_of_length_le (by simp; omega)]
      · simp only [List.length_append]
        omega

/-- The bytes of a chain, some of which are replaced by those of a buffer. -/
theorem copyIn_eq (len place : Nat) (inside : ∀ p ∈ chain.head?, offset ≤ p.length) :
    (copyIn buf chain offset len place).1.map List.length = chain.map List.length ∧
    (copyIn buf chain offset len place).2 = min len (chain.flatten.length - offset) ∧
    (copyIn buf chain offset len place).1.flatten = chain.flatten.take offset ++
      load buf place (min len (chain.flatten.length - offset)) ++
        chain.flatten.drop (offset + min len (chain.flatten.length - offset)) := by
  induction chain generalizing offset len place with
  | nil => simp [copyIn, load]
  | cons p next ih =>
    have fits : offset ≤ p.length := inside p rfl
    by_cases done : len = 0
    · simp [copyIn, done, load]
    · obtain ⟨lengths, ret, bytes⟩ := @ih 0 (len - min (p.length - offset) len)
        (place + min (p.length - offset) len) fun _ _ => Nat.zero_le _
      rw [copyIn, if_neg done]
      obtain ⟨n, is⟩ : ∃ n, n = min (p.length - offset) len := ⟨_, rfl⟩
      rw [← is] at lengths ret bytes ⊢
      dsimp only
      have count : min len ((p ++ next.flatten).length - offset) = n + min (len - n) next.flatten.length := by
        rw [List.length_append]
        omega
      rw [List.map_cons, List.map_cons, lengths, List.flatten_cons, List.flatten_cons, bytes, ret, count]
      refine ⟨?_, by rw [Nat.sub_zero], ?_⟩
      · congr 1
        rw [List.length_append, List.length_append, List.length_take, List.length_drop, Bytes.length_load]
        omega
      · rw [List.take_append_of_le_length fits, Bytes.load_add, Nat.sub_zero, List.take_zero, List.nil_append,
          Nat.zero_add, List.drop_append]
        obtain ⟨k, rest⟩ : ∃ k, k = min (len - n) next.flatten.length := ⟨_, rfl⟩
        rw [← rest]
        have behind : p.drop (offset + (n + k)) = (p.drop (offset + n)).drop k := by
          rw [List.drop_drop, Nat.add_assoc]
        by_cases last : p.length ≤ offset + n
        · have amount : offset + (n + k) - p.length = k := by omega
          rw [amount, behind, List.drop_of_length_le last]
          simp
        · obtain rfl : k = 0 := by omega
          have amount : offset + (n + 0) - p.length = 0 := by omega
          rw [amount, behind]
          simp [load]

theorem toNat_of_nonneg {len : Int32} (positive : 0 ≤ len.toInt) : len.toUInt32.toNat = len.toInt.toNat := by
  change len.toBitVec.toNat = len.toBitVec.toInt.toNat
  change 0 ≤ len.toBitVec.toInt at positive
  rw [BitVec.toInt_eq_toNat_cond] at positive ⊢
  split at positive
  · rw [if_pos ‹_›, Int.toNat_natCast]
  · omega

/-- The length of a copy out of a chain. -/
def copyLen (len : Int32) : Nat := if len.toInt < 0 then 4096 else len.toInt.toNat

theorem pktcopy_eq (chain : PktChain) (offset : UInt32) (len : Int32) :
    pktcopy chain offset len = ((chain.flatten.drop offset.toNat).take (copyLen len),
      min (copyLen len) (chain.flatten.length - offset.toNat)) := by
  have length : (if len.toInt < 0 then (4096 : Int32) else len).toUInt32.toNat = copyLen len := by
    unfold copyLen
    split
    · rfl
    · exact toNat_of_nonneg (by omega)
  obtain ⟨skipped, rest, left, found, rfl, sum, inside⟩ := skipSegments_spec chain offset.toNat
  simp only [pktcopy, length, found]
  rw [copyOut_eq _ inside, sum, List.flatten_append, List.drop_length_add_append, List.length_append,
    Nat.add_sub_add_left]

theorem pktfrombuf_eq (chain : PktChain) (offset : UInt32) {len : Int32} (buf : Memory) (positive : 0 ≤ len.toInt) :
    let count := min (copyLen len) (chain.flatten.length - offset.toNat)
    let after := pktfrombuf chain offset len buf
    after.1.map List.length = chain.map List.length ∧ after.2 = count ∧
      after.1.flatten = chain.flatten.take offset.toNat ++ load buf 0 count ++
        chain.flatten.drop (offset.toNat + count) := by
  have length : len.toUInt32.toNat = copyLen len := by
    rw [toNat_of_nonneg positive, copyLen, if_neg (by omega)]
  obtain ⟨skipped, rest, left, found, rfl, sum, inside⟩ := skipSegments_spec chain offset.toNat
  obtain ⟨lengths, ret, bytes⟩ := @copyIn_eq _ _ buf (copyLen len) 0 inside
  simp only [pktfrombuf, length, found]
  rw [sum, List.flatten_append, List.length_append, Nat.add_sub_add_left, List.map_append, List.map_append, lengths,
    List.flatten_append, bytes, List.take_length_add_append, Nat.add_assoc, List.drop_length_add_append]
  refine ⟨rfl, ret, ?_⟩
  simp only [List.append_assoc]

/-- Copies out of a chain and into it are about the same bytes of its segments joined. -/
theorem segmented_copies (chain : PktChain) (offset : UInt32) (len : Int32) (buf : Memory) :
    pktcopy chain offset len = ((chain.flatten.drop offset.toNat).take (copyLen len),
      min (copyLen len) (chain.flatten.length - offset.toNat)) ∧
    (0 ≤ len.toInt →
      let count := min (copyLen len) (chain.flatten.length - offset.toNat)
      let after := pktfrombuf chain offset len buf
      after.1.map List.length = chain.map List.length ∧ after.2 = count ∧
        after.1.flatten = chain.flatten.take offset.toNat ++ load buf 0 count ++
          chain.flatten.drop (offset.toNat + count) ∧
        pktcopy after.1 offset len = (load buf 0 count, count)) := by
  refine ⟨pktcopy_eq chain offset len, fun positive => ?_⟩
  intro count after
  obtain ⟨lengths, ret, bytes⟩ := pktfrombuf_eq chain offset buf positive
  refine ⟨lengths, ret, bytes, ?_⟩
  have total : after.1.flatten.length = chain.flatten.length := by
    rw [List.length_flatten, List.length_flatten, lengths]
  have counted : min (copyLen len) (chain.flatten.length - offset.toNat) = count := rfl
  rw [pktcopy_eq, total]
  refine Prod.ext ?_ rfl
  rw [bytes, List.append_assoc]
  by_cases inside : offset.toNat ≤ chain.flatten.length
  · rw [List.drop_left' (List.length_take_of_le inside)]
    by_cases all : copyLen len ≤ chain.flatten.length - offset.toNat
    · exact List.take_left' (Bytes.length_load.trans (Nat.min_eq_left all))
    · rw [List.drop_of_length_le (by omega), List.append_nil, List.take_of_length_le]
      rw [Bytes.length_load]
      exact Nat.min_le_left _ _
  · have none_ : min (copyLen len) (chain.flatten.length - offset.toNat) = 0 := by omega
    have empty : load buf 0 0 = [] := rfl
    simp only [count, none_, empty, List.nil_append, Nat.add_zero, List.take_append_drop]
    rw [List.drop_of_length_le (by omega), List.take_nil]

theorem segmented_copies_empty_segment :
    (pktfrombuf [[1, 2], [], [3, 4]] 1 2 (fun place => UInt8.ofNat (7 + place))).1.flatten = [1, 7, 8, 4] := by
  exact ((segmented_copies [[1, 2], [], [3, 4]] 1 2 (fun place => UInt8.ofNat (7 + place))).2 (by decide)).2.2.1

theorem pktcopy_negative : pktcopy [[7]] 0 (-1) = ([7], 1) := by decide +kernel

end BcmDhd.Utils
