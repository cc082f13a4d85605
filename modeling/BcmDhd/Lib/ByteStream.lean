import BcmDhd.Lib.BlockMode

/-! Data that are no whole number of blocks: they are absorbed cell by cell into a chain, or
masked with a stream that comes of a counter. -/

namespace BcmDhd.Lib

abbrev Cells (α : Type*) (size : Nat) := {cells : List α // cells.length = size}

namespace Cells

variable {α : Type*} {size : Nat} (op : α → α → α) (zero : α)

def mixed (first second : Cells α size) : Cells α size :=
  ⟨List.zipWith op first.val second.val, by rw [List.length_zipWith, first.property, second.property, Nat.min_self]⟩

/-- The first cells of data. What is missing is filled up. -/
def filled (data : List α) : Cells α size := ⟨(List.range size).map fun i => data.getD i zero, by simp⟩

/-- So many blocks of data. -/
def taken : (count : Nat) → (data : List α) → List (Cells α size)
  | 0, _ => []
  | count + 1, data => filled zero data :: taken count (data.drop size)

/-- The blocks of data, of which the last is filled up. -/
def padded (data : List α) : List (Cells α size) := taken zero ((data.length + (size - 1)) / size) data

/-- One cell is mixed into a block. -/
def absorbAt (block : Cells α size) (place : Nat) (cell : α) : Cells α size :=
  ⟨block.val.modify place fun old => op old cell, by rw [List.length_modify, block.property]⟩

/-- A block that is full is encrypted. -/
def absorbTurn (encrypt : Cells α size → Cells α size) (state : Cells α size × Nat) (cell : α) : Cells α size × Nat :=
  if state.2 + 1 = size then (encrypt (absorbAt op state.1 state.2 cell), 0)
  else (absorbAt op state.1 state.2 cell, state.2 + 1)

/-- So is one that has been begun. -/
def absorbRest (encrypt : Cells α size → Cells α size) (state : Cells α size × Nat) : Cells α size :=
  if state.2 = 0 then state.1 else encrypt state.1

variable {op zero} {encrypt : Cells α size → Cells α size} {block : Cells α size} {data rest : List α} {cell : α}

theorem mixed_nothing (neutral : ∀ cell, op cell zero = cell) (block : Cells α size) :
    mixed op block (filled zero []) = block := by
  apply Subtype.ext
  apply List.ext_getElem
  · rw [(mixed op block (filled zero [])).property, block.property]
  · intro i _ _
    simp [mixed, filled, neutral]

theorem absorbAt_mixed (neutral : ∀ cell, op cell zero = cell) :
    absorbAt op (mixed op block (filled zero data)) data.length cell =
      mixed op block (filled zero (data ++ [cell])) := by
  apply Subtype.ext
  apply List.ext_getElem
  · rw [(absorbAt _ _ _ _).property, (mixed _ _ _).property]
  · intro i below _
    rw [(absorbAt _ _ _ _).property] at below
    by_cases here : data.length = i
    · subst here
      simp [absorbAt, mixed, filled, neutral]
    · by_cases before : i < data.length
      · simp [absorbAt, mixed, filled, here, before, List.getElem?_append_left before]
      · have behind : ¬ i < data.length + 1 := by omega
        simp [absorbAt, mixed, filled, here, before, behind]

theorem absorb_place (some_ : 0 < size) {state : Cells α size × Nat} (inside : state.2 < size) :
    (data.foldl (absorbTurn op encrypt) state).2 < size := by
  induction data generalizing state with
  | nil => exact inside
  | cons cell data ih =>
    rw [List.foldl_cons]
    apply ih
    unfold absorbTurn
    split
    · exact some_
    · rename_i more
      exact Nat.lt_of_le_of_ne inside more

theorem absorb_part (neutral : ∀ cell, op cell zero = cell) (part : data.length < size) :
    data.foldl (absorbTurn op encrypt) (block, 0) = (mixed op block (filled zero data), data.length) := by
  induction data using List.reverseRecOn with
  | nil => rw [mixed_nothing neutral]; rfl
  | append_singleton data cell ih =>
    rw [List.length_append, List.length_singleton] at part ⊢
    rw [List.foldl_append, ih (by omega), List.foldl_cons, List.foldl_nil]
    unfold absorbTurn
    rw [if_neg (Nat.ne_of_lt part), absorbAt_mixed neutral]

theorem absorb_block (neutral : ∀ cell, op cell zero = cell) (some_ : 0 < size) (full : data.length = size) :
    data.foldl (absorbTurn op encrypt) (block, 0) = (encrypt (mixed op block (filled zero data)), 0) := by
  rcases List.eq_nil_or_concat data with none_ | ⟨front, cell, more⟩
  · rw [none_, List.length_nil] at full
    omega
  · subst more
    rw [List.concat_eq_append] at full ⊢
    rw [List.length_append, List.length_singleton] at full
    rw [List.foldl_append, absorb_part neutral (by omega), List.foldl_cons, List.foldl_nil]
    unfold absorbTurn
    rw [if_pos full, absorbAt_mixed neutral]

theorem padded_nil (some_ : 0 < size) : (padded zero [] : List (Cells α size)) = [] := by
  unfold padded
  rw [List.length_nil, Nat.zero_add, Nat.div_eq_of_lt (by omega)]
  rfl

theorem padded_part (begun : data ≠ []) (part : data.length < size) :
    (padded zero data : List (Cells α size)) = [filled zero data] := by
  have some_ := List.length_pos_iff.mpr begun
  have one : (data.length + (size - 1)) / size = 1 := by
    rw [Nat.div_eq_iff (by omega)]
    omega
  unfold padded
  rw [one]
  rfl

theorem filled_append (block : Cells α size) (rest : List α) :
    (filled zero (block.val ++ rest) : Cells α size) = block := by
  apply Subtype.ext
  apply List.ext_getElem
  · rw [(filled _ _).property, block.property]
  · intro i _ below
    simp [filled, List.getElem?_append_left below, List.getElem?_eq_getElem below]

theorem padded_cons (some_ : 0 < size) (block : Cells α size) (rest : List α) :
    (padded zero (block.val ++ rest) : List (Cells α size)) = block :: padded zero rest := by
  have count : ((block.val ++ rest).length + (size - 1)) / size = (rest.length + (size - 1)) / size + 1 := by
    rw [List.length_append, block.property, Nat.add_assoc, Nat.add_div_left _ some_]
  have dropped : (block.val ++ rest).drop size = rest := List.drop_left' block.property
  unfold padded
  rw [count, taken, filled_append, dropped]

/-- What is absorbed cell by cell is the chain over the blocks. -/
theorem absorbRest_foldl (neutral : ∀ cell, op cell zero = cell) (some_ : 0 < size) (block : Cells α size)
    (data : List α) :
    absorbRest encrypt (data.foldl (absorbTurn op encrypt) (block, 0)) =
      Cbc.authenticated (mixed op) encrypt block (padded zero data) := by
  induction length : data.length using Nat.strong_induction_on generalizing block data with
  | _ length_ ih =>
    by_cases part : data.length < size
    · rw [absorb_part neutral part]
      by_cases none_ : data = []
      · rw [none_, padded_nil some_, mixed_nothing neutral]
        rfl
      · have begun := List.length_pos_iff.mpr none_
        rw [padded_part none_ part]
        exact if_neg (by dsimp only; omega)
    · -- a whole block is in front
      obtain ⟨front, rest, whole, full⟩ : ∃ front rest, data = front ++ rest ∧ front.length = size :=
        ⟨data.take size, data.drop size, (List.take_append_drop _ _).symm, by rw [List.length_take]; omega⟩
      have shorter : rest.length < length_ := by
        rw [← length, whole, List.length_append]
        omega
      have same : (filled zero front : Cells α size) = ⟨front, full⟩ := by
        have first := @filled_append α size zero ⟨front, full⟩ []
        rw [List.append_nil] at first
        exact first
      rw [whole, List.foldl_append, absorb_block neutral some_ full, ih _ shorter _ _ rfl,
        padded_cons some_ ⟨front, full⟩, same]
      rfl

end Cells

namespace Ctr

variable {α : Type*} {size : Nat} {op : α → α → α}

/-- The cells that come of so many counters, one after the other. -/
def stream {Counter : Type*} (encrypt : Counter → Cells α size) (next : Counter → Counter) (counter : Counter)
    (count : Nat) : List α :=
  (List.iterate next counter count).flatMap fun counter => (encrypt counter).val

variable {Counter : Type*} {encrypt : Counter → Cells α size} {next : Counter → Counter} {counter : Counter}
  {count : Nat} {block rest data mask : List α}

@[simp] theorem length_stream : (stream encrypt next counter count).length = size * count := by
  unfold stream
  induction count generalizing counter with
  | zero => rfl
  | succ count ih =>
    rw [List.iterate, List.flatMap_cons, List.length_append, ih, (encrypt counter).property, Nat.mul_succ, Nat.add_comm]

theorem stream_succ : stream encrypt next counter (count + 1) =
    (encrypt counter).val ++ stream encrypt next (next counter) count := by
  unfold stream
  rw [List.iterate, List.flatMap_cons]

theorem mask_append (full : block.length = size) :
    List.zipWith op (block ++ rest) (stream encrypt next counter (count + 1)) =
      List.zipWith op block (encrypt counter).val ++
        List.zipWith op rest (stream encrypt next (next counter) count) := by
  rw [stream_succ, List.zipWith_append (by rw [full, (encrypt counter).property])]

theorem mask_twice (undo : ∀ first second, op (op first second) second = first) (enough : data.length ≤ mask.length) :
    List.zipWith op (List.zipWith op data mask) mask = data := by
  induction data generalizing mask with
  | nil => simp
  | cons cell data ih =>
    cases mask with
    | nil => simp at enough
    | cons first mask =>
      rw [List.length_cons, List.length_cons] at enough
      rw [List.zipWith_cons_cons, List.zipWith_cons_cons, undo, ih (by omega)]

end Ctr

end BcmDhd.Lib
