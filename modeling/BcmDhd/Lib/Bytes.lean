import Mathlib.Tactic

/-! Byte-addressed memory: reading and writing runs of bytes, and the
little-endian form of numbers. -/

namespace BcmDhd.Lib

/-- Memory without bounds, one byte at every address. -/
abbrev Memory := Nat → UInt8

/-- The `count` bytes from `address` on. -/
def load (memory : Memory) (address count : Nat) : List UInt8 :=
  (List.range count).map fun i => memory (address + i)

/-- Write `bytes` from `address` on. -/
def store (memory : Memory) (address : Nat) (bytes : List UInt8) : Memory := fun place =>
  if address ≤ place then (bytes[place - address]?).getD (memory place) else memory place

/-- The `count` low bytes of a number, the lowest first. -/
def littleEndian : (count value : Nat) → List UInt8
  | 0, _ => []
  | count + 1, value => UInt8.ofNat value :: littleEndian count (value / 256)

def ofLittleEndian : List UInt8 → Nat
  | [] => 0
  | byte :: rest => byte.toNat + 256 * ofLittleEndian rest

namespace Bytes

variable {memory memory' : Memory} {address count : Nat} {bytes : List UInt8}

@[simp] theorem length_load : (load memory address count).length = count := by simp [load]

@[simp] theorem length_littleEndian (count value : Nat) :
    (littleEndian count value).length = count := by
  induction count generalizing value with
  | zero => rfl
  | succ count ih => simp [littleEndian, ih]

theorem load_congr (same : ∀ place, address ≤ place → place < address + count →
    memory' place = memory place) : load memory' address count = load memory address count := by
  apply List.map_congr_left
  intro i inside
  have below := List.mem_range.mp inside
  exact same (address + i) (by omega) (by omega)

theorem store_outside {place : Nat} (outside : place < address ∨ address + bytes.length ≤ place) :
    store memory address bytes place = memory place := by
  unfold store
  split
  · rename_i above
    rw [List.getElem?_eq_none (by omega), Option.getD_none]
  · rfl

theorem store_inside {place : Nat} (inside : place < bytes.length) :
    store memory address bytes (address + place) = bytes[place] := by
  unfold store
  rw [if_pos (by omega), Nat.add_sub_cancel_left, List.getElem?_eq_getElem inside, Option.getD_some]

theorem load_store (memory : Memory) (address : Nat) (bytes : List UInt8) :
    load (store memory address bytes) address bytes.length = bytes := by
  apply List.ext_getElem
  · exact length_load
  · intro i inside _
    rw [length_load] at inside
    simp [load, store, inside]

theorem load_store_apart {other : Nat}
    (apart : other + count ≤ address ∨ address + bytes.length ≤ other) :
    load (store memory address bytes) other count = load memory other count := by
  apply load_congr
  intro place low high
  exact store_outside (by omega)

theorem load_take {less : Nat} (le : less ≤ count) :
    load memory address less = (load memory address count).take less := by
  unfold load
  rw [← List.map_take, List.take_range, Nat.min_eq_left le]

theorem load_add (memory : Memory) (address first second : Nat) :
    load memory address (first + second) = load memory address first ++ load memory (address + first) second := by
  unfold load
  rw [List.range_add, List.map_append, List.map_map]
  congr 1
  refine List.map_congr_left fun i _ => ?_
  rw [Function.comp_apply, Nat.add_assoc]

theorem store_again (memory : Memory) (address : Nat) (bytes : List UInt8) (less : Nat) :
    store (store memory address bytes) address (bytes.take less) = store memory address bytes := by
  funext place
  by_cases inside : address ≤ place ∧ place < address + (bytes.take less).length
  · obtain ⟨i, rfl⟩ := Nat.exists_eq_add_of_le inside.1
    have among : i < (bytes.take less).length := by omega
    have whole : i < bytes.length := by
      rw [List.length_take] at among
      omega
    rw [store_inside among, store_inside whole, List.getElem_take]
  · exact store_outside (by omega)

theorem ofLittleEndian_littleEndian (count value : Nat) :
    ofLittleEndian (littleEndian count value) = value % 256 ^ count := by
  induction count generalizing value with
  | zero => simp [littleEndian, ofLittleEndian, Nat.mod_one]
  | succ count ih =>
    have low : (UInt8.ofNat value).toNat = value % 256 := UInt8.toNat_ofNat'
    rw [littleEndian, ofLittleEndian, ih, low, Nat.pow_succ', Nat.mod_mul]

end Bytes

end BcmDhd.Lib
