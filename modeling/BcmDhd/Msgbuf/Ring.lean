import BcmDhd.Lib.Circular

/-! The circular message buffers between host and dongle, and the space macros
of `bcmpcie.h`. The macros compute in `int`; their results are stored in `uint16`. -/

namespace BcmDhd.Msgbuf

open BcmDhd.Lib

/-- The indices and sizes of a `msgbuf_ring_t`. Addresses are byte offsets from
the start of its buffer. -/
structure MsgbufRing where
  rd : Nat
  wr : Nat
  maxItems : Nat
  itemLen : Nat
  deriving DecidableEq

def ntxpactive (r w d : Int) : Int := if r ≤ w then w - r else d - r + w

def readAvailSpace (w r d : Int) : Int := if w ≥ r then w - r else d - r

def writeSpaceAvailContinuous (r w d : Int) : Int := if w ≥ r then d - w else r - w

def writeSpaceAvail (r w d : Int) : Int := d - ntxpactive r w d - 1

def checkWriteSpace (r w d : Int) : Int :=
  min (writeSpaceAvail r w d) (writeSpaceAvailContinuous r w d)

/-- The conversion of an `int` to `uint16`. -/
def toUint16 (value : Int) : Nat := (value % 2 ^ 16).toNat

theorem toUint16_natCast {value : Nat} (small : value < 2 ^ 16) : toUint16 value = value := by
  have reduced : (value : Int) % 2 ^ 16 = value := Int.emod_eq_of_lt (by omega) (by omega)
  rw [toUint16, reduced, Int.toNat_natCast]

theorem ntxpactive_natCast {r w d : Nat} (inside : r < d) :
    ntxpactive r w d = (Circular.distance d r w : Nat) := by
  unfold ntxpactive Circular.distance
  by_cases ordered : r ≤ w
  · rw [if_pos (by omega), if_pos ordered]
    omega
  · rw [if_neg (by omega), if_neg ordered]
    omega

/-- With `active` items between the indices, the space that may be written is
what the one-slot gap leaves, cut at the wrap. -/
theorem checkWriteSpace_natCast {r active d : Nat} (inside : r < d) (short : active < d) :
    checkWriteSpace r ((r + active) % d : Nat) d =
      (min (d - 1 - active) (d - (r + active) % d) : Nat) := by
  have room : writeSpaceAvail r ((r + active) % d : Nat) d = (d - 1 - active : Nat) := by
    rw [writeSpaceAvail, ntxpactive_natCast inside, Circular.distance_add inside short]
    omega
  rw [checkWriteSpace, room]
  unfold writeSpaceAvailContinuous
  rcases Circular.advance_cases inside short with ⟨straight, place⟩ | ⟨wraps, place⟩
  · rw [place, if_pos (by omega)]
    omega
  · rw [place, if_neg (by omega)]
    omega

theorem readAvailSpace_natCast {r active d : Nat} (inside : r < d) (short : active < d) :
    readAvailSpace ((r + active) % d : Nat) r d = (min active (d - r) : Nat) := by
  unfold readAvailSpace
  rcases Circular.advance_cases inside short with ⟨straight, place⟩ | ⟨wraps, place⟩
  · rw [place, if_pos (by omega)]
    omega
  · rw [place, if_neg (by omega)]
    omega

end BcmDhd.Msgbuf
