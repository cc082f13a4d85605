import BcmDhd.Lib.Loop
import BcmDhd.Utils.Bloom

/-! Setting a range of bits of a byte array, whole bytes at a time in the middle. -/

namespace BcmDhd.Utils

open BcmDhd.Lib

/-- A turn of a loop that counts `i` up and works on the array. -/
def countTurn (goesOn : UInt32 → Bool) (body : Memory → Nat → Memory) (state : Memory × UInt32) :
    Turn (Memory × UInt32) Memory :=
  if goesOn state.2 then .again (body state.1 state.2.toNat, state.2 + 1) else .leave state.1

/-- `for (i = first; i <= last; i++) setbit(array, i);` -/
def setbitLoop (turns : Nat) (array : Memory) (first last : UInt32) : Option Memory :=
  loopFor (countTurn (· ≤ last) setbit) turns (array, first)

def fillByte (array : Memory) (i : Nat) : Memory := Function.update array i 0xFF

/-- At most `turns` turns of each loop, and as many calls within each other. -/
def setBitrange : (turns : Nat) → (array : Memory) → (start last maxbit : UInt32) → Option Memory
  | 0, _, _, _, _ => none
  | turns + 1, array, start, last, maxbit =>
    let startbyte := start / 8
    let endbyte := last / 8
    if last ≥ start then
      if endbyte - startbyte > 1 then
        let startbytelastbit := (startbyte + 1) * 8 - 1
        let endbytestartbit := endbyte * 8
        (loopFor (countTurn (· < endbyte) fillByte) turns (array, startbyte + 1)).bind fun array =>
          (setbitLoop turns array start startbytelastbit).bind fun array =>
            setbitLoop turns array endbytestartbit last
      else setbitLoop turns array start last
    else
      (setBitrange turns array start maxbit maxbit).bind fun array => setBitrange turns array 0 last maxbit

variable {array array' : Memory} {bit i stop : Nat} {positions : List Nat} {start last maxbit : UInt32}

theorem memory_ext (same : ∀ bit, isclr array bit = false ↔ isclr array' bit = false) : array = array' := by
  funext place
  apply UInt8.eq_of_toBitVec_eq
  apply BitVec.eq_of_getLsbD_eq
  intro k inside
  have here := same (8 * place + k)
  rw [isclr_eq_false, isclr_eq_false, show (8 * place + k) / 8 = place by omega,
    show (8 * place + k) % 8 = k by omega] at here
  exact Bool.eq_iff_iff.mpr here

theorem isclr_fillByte : isclr (fillByte array i) bit = false ↔ bit / 8 = i ∨ isclr array bit = false := by
  rw [isclr_eq_false, isclr_eq_false, fillByte]
  by_cases here : bit / 8 = i
  · have full : ∀ k < 8, (0xFF : UInt8).toBitVec.getLsbD k = true := by decide
    rw [here, Function.update_self, full (bit % 8) (Nat.mod_lt _ (by decide))]
    simp
  · simp [here]

/-- Setting bits one by one. -/
def setbits (array : Memory) (positions : List Nat) : Memory := positions.foldl setbit array

theorem isclr_setbits : isclr (setbits array positions) bit = false ↔ bit ∈ positions ∨ isclr array bit = false := by
  unfold setbits
  induction positions generalizing array with
  | nil => simp
  | cons set rest ih => rw [List.foldl_cons, ih, isclr_setbit_iff, List.mem_cons]; tauto

theorem isclr_fillBytes : isclr (positions.foldl fillByte array) bit = false ↔
    bit / 8 ∈ positions ∨ isclr array bit = false := by
  induction positions generalizing array with
  | nil => simp
  | cons set rest ih => rw [List.foldl_cons, ih, isclr_fillByte, List.mem_cons]; tauto

theorem countTurn_leaves {goesOn : UInt32 → Bool} {body : Memory → Nat → Memory} {first : UInt32}
    (goes : ∀ i : UInt32, i.toNat ≤ stop → (goesOn i = true ↔ i.toNat < stop)) (small : stop < 2 ^ 32)
    (upTo : first.toNat ≤ stop) :
    Leaves (countTurn goesOn body) (array, first)
      ((List.range' first.toNat (stop - first.toNat)).foldl body array) := by
  induction left : stop - first.toNat generalizing array first with
  | zero =>
    have ended : ¬ goesOn first = true := by
      rw [goes first upTo]
      omega
    exact Loop.leaves_of_leave (by rw [countTurn, if_neg ended]; rfl)
  | succ count ih =>
    have next : (first + 1).toNat = first.toNat + 1 := by
      rw [UInt32.toNat_add, UInt32.toNat_one, Nat.mod_eq_of_lt (by omega)]
    have rest := @ih (body array first.toNat) (first + 1) (by omega) (by omega)
    rw [next] at rest
    exact Loop.Leaves.back rest (by rw [countTurn, if_pos ((goes first upTo).mpr (by omega))])

theorem setbitLoop_settles (array : Memory) (first last : UInt32) (upTo : first.toNat ≤ last.toNat + 1)
    (small : last.toNat < 2 ^ 31) :
    Settles (fun turns => setbitLoop turns array first last)
      (some (setbits array (List.range' first.toNat (last.toNat + 1 - first.toNat)))) := by
  refine Settles.loop (countTurn_leaves (fun i _ => ?_) (by omega) upTo)
  rw [decide_eq_true_iff, UInt32.le_iff_toNat_le, Nat.lt_succ_iff]

theorem setBitrange_direct (array : Memory) (start last maxbit : UInt32) (inOrder : start ≤ last)
    (small : last.toNat < 2 ^ 31) :
    Settles (fun turns => setBitrange turns array start last maxbit)
      (some (setbits array (List.range' start.toNat (last.toNat + 1 - start.toNat)))) := by
  have ordered := UInt32.le_iff_toNat_le.mp inOrder
  have startbyte : (start / 8).toNat = start.toNat / 8 := UInt32.toNat_div ..
  have endbyte : (last / 8).toNat = last.toNat / 8 := UInt32.toNat_div ..
  have apart : (last / 8 - start / 8).toNat = last.toNat / 8 - start.toNat / 8 := by
    rw [UInt32.toNat_sub_of_le _ _ (UInt32.le_iff_toNat_le.mpr (by omega)), startbyte, endbyte]
  by_cases far : last / 8 - start / 8 > 1
  · have farther : start.toNat / 8 + 1 < last.toNat / 8 := by
      have more := UInt32.lt_iff_toNat_lt.mp far
      rw [apart, UInt32.toNat_one] at more
      omega
    have nextbyte : (start / 8 + 1).toNat = start.toNat / 8 + 1 := by
      rw [UInt32.toNat_add, UInt32.toNat_one, startbyte, Nat.mod_eq_of_lt (by omega)]
    have lastbit : ((start / 8 + 1) * 8 - 1).toNat = start.toNat / 8 * 8 + 7 := by
      have times : ((start / 8 + 1) * 8).toNat = (start.toNat / 8 + 1) * 8 := by
        rw [UInt32.toNat_mul, nextbyte]
        exact Nat.mod_eq_of_lt (by simpa using by omega)
      rw [UInt32.toNat_sub_of_le _ _ (UInt32.le_iff_toNat_le.mpr (by rw [times, UInt32.toNat_one]; omega)), times]
      simp
      omega
    have startbit : (last / 8 * 8).toNat = last.toNat / 8 * 8 := by
      rw [UInt32.toNat_mul, endbyte]
      exact Nat.mod_eq_of_lt (by simpa using by omega)
    have filled := Settles.loop (@countTurn_leaves array (last.toNat / 8) (· < last / 8) fillByte (start / 8 + 1)
      (fun i _ => by rw [decide_eq_true_iff, UInt32.lt_iff_toNat_lt, endbyte]) (by omega) (by omega))
    obtain ⟨first, fill⟩ := filled
    obtain ⟨second, head⟩ := setbitLoop_settles
      ((List.range' (start / 8 + 1).toNat (last.toNat / 8 - (start / 8 + 1).toNat)).foldl fillByte array) start
      ((start / 8 + 1) * 8 - 1) (by omega) (by omega)
    obtain ⟨third, tail⟩ := setbitLoop_settles (setbits _ (List.range' start.toNat _))
      (last / 8 * 8) last (by omega) small
    refine ⟨first + second + third + 1, fun turns more => ?_⟩
    obtain ⟨turns, rfl⟩ := Nat.exists_eq_add_of_le' (Nat.le_of_add_left_le more)
    dsimp only at fill head tail ⊢
    rw [setBitrange, if_pos inOrder, if_pos far, fill turns (by omega), Option.bind_some, head turns (by omega),
      Option.bind_some, tail turns (by omega)]
    -- The three loops together set the same bits as one loop from `start` to `last`.
    refine congrArg some (memory_ext fun bit => ?_)
    simp only [isclr_setbits, isclr_fillBytes, List.mem_range'_1, nextbyte, lastbit, startbit]
    rw [← or_assoc, ← or_assoc]
    exact or_congr_left (by omega)
  · obtain ⟨enough, done⟩ := setbitLoop_settles array start last (Nat.le_succ_of_le ordered) small
    refine ⟨enough + 1, fun turns more => ?_⟩
    obtain ⟨turns, rfl⟩ := Nat.exists_eq_add_of_le' (Nat.le_of_add_left_le more)
    dsimp only
    rw [setBitrange, if_pos inOrder, if_neg far]
    exact done turns (by omega)

/-- The range, or with the ends the other way round the two ranges beside it. -/
def bitrange (start last maxbit : Nat) : List Nat :=
  if start ≤ last then List.range' start (last + 1 - start)
  else List.range' start (maxbit + 1 - start) ++ List.range' 0 (last + 1)

/-- For all large enough numbers of turns, the bits of the range are set as if one by one, and no others. -/
theorem setBitrange_sets (array : Memory) (start last maxbit : UInt32) (small : maxbit.toNat < 2 ^ 31)
    (startIn : start ≤ maxbit) (lastIn : last ≤ maxbit) :
    ∃ after, Settles (fun turns => setBitrange turns array start last maxbit) (some after) ∧
      after = setbits array (bitrange start.toNat last.toNat maxbit.toNat) ∧
      ∀ bit, isclr after bit = false ↔ isclr array bit = false ∨
        if start ≤ last then start.toNat ≤ bit ∧ bit ≤ last.toNat
        else start.toNat ≤ bit ∧ bit ≤ maxbit.toNat ∨ bit ≤ last.toNat := by
  have lastSmall := UInt32.le_iff_toNat_le.mp lastIn
  refine ⟨_, ?_, rfl, fun bit => ?_⟩
  · unfold bitrange
    by_cases inOrder : start ≤ last
    · rw [if_pos (UInt32.le_iff_toNat_le.mp inOrder)]
      exact setBitrange_direct array start last maxbit inOrder (by omega)
    · rw [if_neg (fun ordered => inOrder (UInt32.le_iff_toNat_le.mpr ordered)), setbits, List.foldl_append]
      obtain ⟨first, upper⟩ := setBitrange_direct array start maxbit maxbit startIn small
      obtain ⟨second, lower⟩ :=
        setBitrange_direct (setbits array (List.range' start.toNat (maxbit.toNat + 1 - start.toNat)))
        0 last maxbit (UInt32.le_iff_toNat_le.mpr (Nat.zero_le last.toNat)) (by omega)
      refine ⟨first + second + 1, fun turns more => ?_⟩
      obtain ⟨turns, rfl⟩ := Nat.exists_eq_add_of_le' (Nat.le_of_add_left_le more)
      dsimp only at *
      rw [setBitrange, if_neg inOrder, upper turns (by omega)]
      exact lower turns (by omega)
  · have ordered : start.toNat ≤ last.toNat ↔ start ≤ last := UInt32.le_iff_toNat_le.symm
    have startSmall := UInt32.le_iff_toNat_le.mp startIn
    rw [isclr_setbits, bitrange, or_comm]
    by_cases inOrder : start ≤ last
    · rw [if_pos (ordered.mpr inOrder), if_pos inOrder, List.mem_range'_1]
      have upTo := ordered.mpr inOrder
      exact or_congr_right (by omega)
    · rw [if_neg (fun upTo => inOrder (ordered.mp upTo)), if_neg inOrder, List.mem_append, List.mem_range'_1,
        List.mem_range'_1]
      exact or_congr_right (by omega)

/-- The last bits of an array together with its first. -/
theorem setBitrange_sets_wrapped :
    ∃ after, Settles (fun turns => setBitrange turns (fun _ => 0) 100 3 200) (some after) ∧
      after = setbits (fun _ => 0) (bitrange 100 3 200) ∧
      ∀ bit, isclr after bit = false ↔ isclr (fun _ => 0) bit = false ∨
        if (100 : UInt32) ≤ 3 then 100 ≤ bit ∧ bit ≤ 3 else 100 ≤ bit ∧ bit ≤ 200 ∨ bit ≤ 3 :=
  setBitrange_sets (fun _ => 0) 100 3 200 (by decide) (by decide) (by decide)

end BcmDhd.Utils
