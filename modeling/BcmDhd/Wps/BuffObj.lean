import BcmDhd.Lib.Loop
import BcmDhd.Wps.EapFragment

/-! The buffer a message is read from, and the place reached in it. -/

namespace BcmDhd.Wps

open BcmDhd.Lib

/-- Memory that some reads reach: what lies behind the buffer, and behind the empty
string that stands for a value without bytes. -/
structure Surroundings where
  beyond : Lib.Memory
  blank : Lib.Memory

/-- A buffer as it is read: the bytes before the current place and those from it to
the end of the buffer, so that the place is always inside. -/
structure BufferObj where
  before : Bytes
  rest : Bytes
  dataLength : Nat
  around : Surroundings

namespace BufferObj

def bytes (b : BufferObj) : Bytes := b.before ++ b.rest

def pos (b : BufferObj) : Nat := b.before.length

def remaining (b : BufferObj) : Nat := b.rest.length

/-- `buffobj_dserial` of a received message. -/
def dserial (msg : Bytes) (around : Surroundings) : BufferObj :=
  { before := [], rest := msg, dataLength := msg.length, around := around }

/-- The byte `offset` behind the current place, wherever that is. -/
def byteAt (b : BufferObj) (offset : Nat) : UInt8 :=
  (b.rest[offset]?).getD (b.around.beyond (offset - b.rest.length))

/-- `WpsNtohs` of the two bytes `offset` behind the current place. -/
def ntohs (b : BufferObj) (offset : Nat) : Nat :=
  (b.byteAt offset).toNat * 256 + (b.byteAt (offset + 1)).toNat

def advance (b : BufferObj) (offset : Nat) : Option BufferObj :=
  if b.rest.length < offset then none
  else some { b with before := b.before ++ b.rest.take offset, rest := b.rest.drop offset }

def rewind (b : BufferObj) : BufferObj := { b with before := [], rest := b.bytes }

def nextType (b : BufferObj) : Nat := if b.remaining < 4 then 0 else b.ntohs 0

def nextSubId (b : BufferObj) : Nat := if b.remaining < 2 then 0 else (b.byteAt 0).toNat

variable {b after : BufferObj} {offset : Nat}

@[simp] theorem bytes_rewind : b.rewind.bytes = b.bytes := rfl

@[simp] theorem pos_rewind : b.rewind.pos = 0 := rfl

@[simp] theorem dserial_bytes (msg : Bytes) (around : Surroundings) :
    (dserial msg around).bytes = msg := rfl

@[simp] theorem rest_rewind : b.rewind.rest = b.bytes := rfl

@[simp] theorem dataLength_rewind : b.rewind.dataLength = b.dataLength := rfl

theorem advance_isSome (inside : offset ≤ b.rest.length) : b.advance offset =
    some { b with before := b.before ++ b.rest.take offset, rest := b.rest.drop offset } :=
  if_neg (Nat.not_lt.mpr inside)

theorem advance_eq_none : b.advance offset = none ↔ b.rest.length < offset := by simp [advance]

theorem advance_spec (moved : b.advance offset = some after) : offset ≤ b.rest.length ∧
    after.before = b.before ++ b.rest.take offset ∧ after.rest = b.rest.drop offset ∧
      after.dataLength = b.dataLength ∧ after.around = b.around := by
  unfold advance at moved
  split at moved
  · cases moved
  · rename_i inside
    cases moved
    exact ⟨Nat.not_lt.mp inside, rfl, rfl, rfl, rfl⟩

theorem advance_bytes (moved : b.advance offset = some after) : after.bytes = b.bytes := by
  obtain ⟨_, before, rest, _⟩ := advance_spec moved
  rw [bytes, before, rest, List.append_assoc, List.take_append_drop, bytes]

theorem advance_remaining (moved : b.advance offset = some after) :
    after.remaining + offset = b.remaining := by
  obtain ⟨inside, _, rest, _⟩ := advance_spec moved
  rw [remaining, rest, List.length_drop, remaining]
  omega

theorem ntohs_cons {high low : UInt8} {tail : Bytes} (same : b.rest = high :: low :: tail) :
    b.ntohs 0 = high.toNat * 256 + low.toNat := by simp [ntohs, byteAt, same]

theorem ntohs_lt (b : BufferObj) (offset : Nat) : b.ntohs offset < 65536 := by
  have high := (b.byteAt offset).toNat_lt
  have low := (b.byteAt (offset + 1)).toNat_lt
  unfold ntohs
  omega

end BufferObj

theorem wpsHtons_toNat {value : Nat} (small : value < 65536) :
    (UInt8.ofNat (value / 256)).toNat * 256 + (UInt8.ofNat value).toNat = value := by
  simp only [UInt8.toNat_ofNat']
  omega

theorem wpsHtons_of_bytes (high low : UInt8) : wpsHtons (high.toNat * 256 + low.toNat) = [high, low] := by
  have small := low.toNat_lt
  have upper : (high.toNat * 256 + low.toNat) / 256 = high.toNat := by omega
  have lower : UInt8.ofNat (high.toNat * 256 + low.toNat) = low := by
    apply UInt8.toNat_inj.mp
    rw [UInt8.toNat_ofNat']
    omega
  rw [wpsHtons, upper, lower, UInt8.ofNat_toNat]

end BcmDhd.Wps
