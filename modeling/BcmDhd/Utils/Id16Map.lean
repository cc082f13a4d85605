import BcmDhd.Lib.FreeStack
import BcmDhd.Lib.Word

/-! The 16-bit id allocator of `bcmutils.c`: a stack of available ids. -/

namespace BcmDhd.Utils

open BcmDhd.Lib

def id16Invalid : Nat := 2 ^ 16 - 1

/-- `stack_idx` is -1 when no id is available. The block of the map has `room` entries for
the stack, whatever `total` becomes; `intact` tells that none behind them was accessed. -/
structure Id16Map where
  failures : Nat
  total : Nat
  start : Nat
  stackIdx : Int
  stack : Nat → Nat
  room : Nat
  intact : Bool

/-- The map after a successful allocation of its memory, for a defined start. -/
def id16MapInit (totalIds startVal16 : Nat) : Id16Map where
  failures := 0
  total := totalIds
  start := startVal16
  stackIdx := (totalIds : Int) - 1
  stack := fill 0 totalIds (fun idx => startVal16 + idx) (fun _ => 0)
  room := totalIds
  intact := true

/-- An entry of the stack is read or written. -/
def Id16Map.touch (map : Id16Map) (idx : Int) : Id16Map :=
  { map with intact := map.intact && decide (idx < map.room) }

def id16MapAlloc (map : Id16Map) : Id16Map × Nat :=
  if map.stackIdx < 0 then ({ map with failures := map.failures + 1 }, id16Invalid)
  else ({ map.touch map.stackIdx with stackIdx := map.stackIdx - 1 }, map.stack map.stackIdx.toNat)

def id16MapFree (map : Id16Map) (val16 : Nat) : Id16Map :=
  { map.touch (map.stackIdx + 1) with
    stackIdx := map.stackIdx + 1
    stack := Function.update map.stack (map.stackIdx + 1).toNat val16 }

/-- The id is on the stack of available ids. -/
def Id16Available (map : Id16Map) (val16 : Nat) : Prop :=
  ∃ idx : Nat, (idx : Int) ≤ map.stackIdx ∧ map.stack idx = val16

/-- The stack lists the available ids, each once. -/
def Id16Valid (map : Id16Map) (available : Nat → Prop) : Prop :=
  ∃ count : Nat, map.stackIdx = count - 1 ∧ FreeStack map.stack count available

/-- The same available ids in the same order. -/
def SameIds (map other : Id16Map) : Prop := map.stackIdx = other.stackIdx ∧ map.stack = other.stack

namespace Id16Valid

variable {map : Id16Map} {available : Nat → Prop}

theorem congr (valid : Id16Valid map available) {other : Nat → Prop}
    (same : ∀ id, other id ↔ available id) : Id16Valid map other := by
  obtain ⟨count, index, stack⟩ := valid
  exact ⟨count, index, stack.congr same⟩

theorem frame (valid : Id16Valid map available) {other : Id16Map} (same : SameIds other map) :
    Id16Valid other available := by
  obtain ⟨count, index, stack⟩ := valid
  exact ⟨count, same.1.trans index, same.2 ▸ stack⟩

theorem available_iff (valid : Id16Valid map available) (id : Nat) :
    Id16Available map id ↔ available id := by
  obtain ⟨count, index, stack⟩ := valid
  rw [stack.lists id]
  constructor
  · intro ⟨idx, below, found⟩
    exact ⟨idx, by omega, found⟩
  · intro ⟨idx, below, found⟩
    exact ⟨idx, by omega, found⟩

theorem alloc_cases (valid : Id16Valid map available) :
    ((∀ id, ¬ available id) ∧
      id16MapAlloc map = ({ map with failures := map.failures + 1 }, id16Invalid)) ∨
    ∃ id after, available id ∧ id16MapAlloc map = (after, id) ∧
      Id16Valid after (fun other => available other ∧ other ≠ id) := by
  obtain ⟨count, index, stack⟩ := valid
  cases count with
  | zero =>
    refine Or.inl ⟨stack.count_eq_zero.mp rfl, ?_⟩
    rw [id16MapAlloc, if_pos (by omega)]
  | succ count =>
    have top : map.stackIdx.toNat = count := by omega
    refine Or.inr ⟨map.stack count, { map.touch map.stackIdx with stackIdx := map.stackIdx - 1 },
      stack.top_free, ?_,
      count, ?_, stack.pop⟩
    · rw [id16MapAlloc, if_neg (by omega), top]
    · change map.stackIdx - 1 = (count : Int) - 1
      omega

theorem free (valid : Id16Valid map available) {id : Nat} (used : ¬ available id) :
    Id16Valid (id16MapFree map id) (fun other => available other ∨ other = id) := by
  obtain ⟨count, index, stack⟩ := valid
  have top : (map.stackIdx + 1).toNat = count := by omega
  refine ⟨count + 1, ?_, ?_⟩
  · change map.stackIdx + 1 = ((count + 1 : Nat) : Int) - 1
    omega
  · have pushed := stack.push used
    simp only [id16MapFree, top]
    exact pushed

theorem filled {totalIds startVal16 : Nat} {before : Nat → Nat}
    (top : map.stackIdx = (totalIds : Int) - 1)
    (stack : map.stack = fill 0 totalIds (fun idx => startVal16 + idx) before) :
    Id16Valid map (fun id => startVal16 ≤ id ∧ id < startVal16 + totalIds) := by
  have filled : ∀ idx < totalIds, map.stack idx = startVal16 + idx := by
    intro idx below
    rw [stack, fill_apply, if_pos (by omega)]
  refine ⟨totalIds, top, ?_, ?_⟩
  · intro i iBelow j jBelow same
    rw [filled i iBelow, filled j jBelow] at same
    omega
  · intro id
    constructor
    · intro ⟨low, high⟩
      exact ⟨id - startVal16, by omega, by rw [filled _ (by omega)]; omega⟩
    · intro ⟨idx, below, found⟩
      rw [filled idx below] at found
      omega

theorem init (totalIds startVal16 : Nat) :
    Id16Valid (id16MapInit totalIds startVal16)
      (fun id => startVal16 ≤ id ∧ id < startVal16 + totalIds) := filled rfl rfl

end Id16Valid

end BcmDhd.Utils
