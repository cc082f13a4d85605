import BcmDhd.Lib.Bytes

/-! An array of bytes in a C program. An access outside it and a copy between
overlapping places have no defined result: they are remembered, and what the
array holds afterwards says nothing. -/

namespace BcmDhd.Lib

structure FixedBuffer (size : Nat) where
  memory : Memory
  intact : Bool

/-- What is copied: bytes of the array itself, or of another object. -/
inductive Source
  | inside (address : Nat)
  | outside (memory : Memory)

/-- An object that starts with the given bytes. -/
def ofBytes (bytes : List UInt8) : Memory := fun place => bytes.getD place 0

namespace FixedBuffer

variable {size : Nat}

def write (buffer : FixedBuffer size) (address : Nat) (bytes : List UInt8) : FixedBuffer size where
  memory := store buffer.memory address bytes
  intact := buffer.intact && decide (address + bytes.length ≤ size)

/-- The array after `count` bytes from `address` on have been read. -/
def touch (buffer : FixedBuffer size) (address count : Nat) : FixedBuffer size :=
  { buffer with intact := buffer.intact && decide (address + count ≤ size) }

/-- The ranges have no byte in common. -/
def Apart (first second count : Nat) : Prop := first + count ≤ second ∨ second + count ≤ first

instance (first second count : Nat) : Decidable (Apart first second count) := by
  unfold Apart
  infer_instance

/-- `memcpy` of `count` bytes to `address`. -/
def copy (buffer : FixedBuffer size) (address : Nat) (source : Source) (count : Nat) :
    FixedBuffer size :=
  match source with
  | .inside place =>
    { memory := store buffer.memory address (load buffer.memory place count)
      intact := buffer.intact && decide (address + count ≤ size ∧ place + count ≤ size ∧
        Apart address place count) }
  | .outside memory => buffer.write address (load memory 0 count)

variable {buffer : FixedBuffer size} {address count : Nat} {bytes : List UInt8}

@[simp] theorem write_memory :
    (buffer.write address bytes).memory = store buffer.memory address bytes := rfl

@[simp] theorem write_intact : (buffer.write address bytes).intact = true ↔
    buffer.intact = true ∧ address + bytes.length ≤ size := by
  simp [write]

@[simp] theorem touch_memory : (buffer.touch address count).memory = buffer.memory := rfl

@[simp] theorem touch_intact : (buffer.touch address count).intact = true ↔
    buffer.intact = true ∧ address + count ≤ size := by
  simp [touch]

@[simp] theorem copy_inside_memory {place : Nat} : (buffer.copy address (.inside place) count).memory =
    store buffer.memory address (load buffer.memory place count) := rfl

@[simp] theorem copy_inside_intact {place : Nat} :
    (buffer.copy address (.inside place) count).intact = true ↔
      buffer.intact = true ∧ address + count ≤ size ∧ place + count ≤ size ∧
        Apart address place count := by
  simp [copy]

@[simp] theorem copy_outside {memory : Memory} : buffer.copy address (.outside memory) count =
    buffer.write address (load memory 0 count) := rfl

theorem copy_overlapping {place : Nat} (overlap : ¬ Apart address place count) :
    (buffer.copy address (.inside place) count).intact = false := by
  simp [copy, overlap]

end FixedBuffer

end BcmDhd.Lib
