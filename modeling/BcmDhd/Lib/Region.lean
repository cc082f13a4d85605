import BcmDhd.Lib.Bytes

/-! A stretch of memory that may be read. -/

namespace BcmDhd.Lib

variable {left : Int}

structure Region where
  memory : Memory
  base : Nat
  size : Nat

namespace Region

variable {region : Region} {address count : Nat}

def Inside (region : Region) (address count : Nat) : Prop :=
  region.base ≤ address ∧ address + count ≤ region.base + region.size

instance : Decidable (region.Inside address count) := by unfold Inside; infer_instance

/-- The `count` bytes from `address` on, where all of them may be read. -/
def read (region : Region) (address count : Nat) : Option (List UInt8) :=
  if region.Inside address count then some (load region.memory address count) else none

theorem read_inside (inside : region.Inside address count) :
    region.read address count = some (load region.memory address count) := if_pos inside

theorem read_outside (outside : ¬ region.Inside address count) :
    region.read address count = none := if_neg outside

/-- A region that reaches at least `left` bytes behind an address of it. -/
def Covers (region : Region) (address : Nat) (left : Int) : Prop :=
  region.base ≤ address ∧ (address + left : Int) ≤ region.base + region.size

theorem Covers.inside (covers : region.Covers address left) (offset : Nat)
    (fits : (offset + count : Int) ≤ left) : region.Inside (address + offset) count := by
  obtain ⟨above, reach⟩ := covers
  unfold Inside
  omega

theorem Covers.advance (covers : region.Covers address left) (size : Nat) :
    region.Covers (address + size) (left - size) := by
  obtain ⟨above, reach⟩ := covers
  unfold Covers
  omega

/-- A region whose end lies exactly `left` bytes behind an address of it. -/
def EndsAt (region : Region) (address : Nat) (left : Int) : Prop :=
  region.base ≤ address ∧ (region.base + region.size : Int) = address + left

theorem EndsAt.covers (ends : region.EndsAt address left) :
    region.Covers address left := ⟨ends.1, ends.2.ge⟩

theorem EndsAt.inside (ends : region.EndsAt address left) (offset : Nat)
    (fits : (offset + count : Int) ≤ left) : region.Inside (address + offset) count :=
  ends.covers.inside offset fits

theorem EndsAt.outside (ends : region.EndsAt address left) (offset : Nat)
    (short : left < offset + count) : ¬ region.Inside (address + offset) count := by
  obtain ⟨above, same⟩ := ends
  unfold Inside
  omega

theorem EndsAt.advance (ends : region.EndsAt address left) (size : Nat) :
    region.EndsAt (address + size) (left - size) := by
  obtain ⟨above, same⟩ := ends
  unfold EndsAt
  omega

end Region

end BcmDhd.Lib
