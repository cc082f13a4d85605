import BcmDhd.Lib.Machine
import BcmDhd.Msgbuf.Ring

/-! Host to dongle rings: the host allocates work items at its private write index, announces them,
and the dongle reads them at its own pace. -/

namespace BcmDhd.Msgbuf

open BcmDhd.Lib

/-- The items of a ring are numbered modulo this. -/
def h2dEpochModulo : Nat := 253

def h2dEpochInitVal : Nat := h2dEpochModulo + 1

/-- What a request for ring space returns: `NULL` from either of its two exits,
or the byte offset of the first item and `*alloced`. -/
inductive RingSpace where
  | unavailable
  | shouldNeverHit
  | space (offset alloced : Nat)
  deriving DecidableEq

def dhdProtGetRingSpace (ring : MsgbufRing) (nitems : Nat) (exactlyNitems : Bool) :
    MsgbufRing × RingSpace :=
  let ringAvailCnt := toUint16 (checkWriteSpace ring.rd ring.wr ring.maxItems)
  if ringAvailCnt = 0 ∨
      (exactlyNitems = true ∧ ringAvailCnt < nitems ∧ (ring.maxItems : Int) - ring.wr ≥ nitems) then
    (ring, .unavailable)
  else
    let alloced := min nitems ringAvailCnt
    let offset := ring.wr * ring.itemLen
    if ring.wr + alloced = ring.maxItems then
      ({ ring with wr := 0 }, .space offset alloced)
    else if ring.wr + alloced < ring.maxItems then
      ({ ring with wr := ring.wr + alloced }, .space offset alloced)
    else (ring, .shouldNeverHit)

/-- `NULL` invalidates the cached read index and the request is tried once more. -/
def dhdProtAllocRingSpace (ring : MsgbufRing) (dongleRd nitems : Nat) (exactlyNitems : Bool) :
    MsgbufRing × RingSpace :=
  match dhdProtGetRingSpace ring nitems exactlyNitems with
  | (taken, .space offset alloced) => (taken, .space offset alloced)
  | (refused, _) => dhdProtGetRingSpace { refused with rd := dongleRd } nitems exactlyNitems

/-- Both ends of a ring. `unread` records the slots handed out to writers and
not yet read by the dongle, `ended` where the last allocation ended. -/
structure H2dSystem where
  ring : MsgbufRing
  announced : Nat
  dongleRd : Nat
  unread : List Nat
  ended : Nat
  deriving DecidableEq

inductive H2dCall where
  | allocRingSpace (nitems : Nat) (exactlyNitems : Bool)
  | ringWriteComplete
  | dongleRead (count : Nat)
  deriving DecidableEq

/-- The dongle reads any number of items up to the last announced index. A ring
is used with one allocation at a time, under the ring's lock. -/
def h2dMachine : Machine H2dSystem H2dCall (Option RingSpace) where
  step system
    | .allocRingSpace nitems exactlyNitems =>
      match dhdProtAllocRingSpace system.ring system.dongleRd nitems exactlyNitems with
      | (ring, .space offset alloced) =>
        ({ system with
            ring := ring
            unread := system.unread ++ slots ring.maxItems system.ring.wr alloced
            ended := (system.ring.wr + alloced) % ring.maxItems }, some (.space offset alloced))
      | (ring, refusal) => ({ system with ring := ring }, some refusal)
    | .ringWriteComplete => ({ system with announced := system.ring.wr }, none)
    | .dongleRead count =>
      ({ system with
          dongleRd := (system.dongleRd + count) % system.ring.maxItems
          unread := system.unread.filter fun slot =>
            slot ∉ slots system.ring.maxItems system.dongleRd count }, none)
  admits system
    | .allocRingSpace nitems _ => 1 ≤ nitems
    | .ringWriteComplete => True
    | .dongleRead count => count ≤ ntxpactive system.dongleRd system.announced system.ring.maxItems

instance (system : H2dSystem) : (call : H2dCall) → Decidable (h2dMachine.admits system call)
  | .allocRingSpace nitems _ => inferInstanceAs (Decidable (1 ≤ nitems))
  | .ringWriteComplete => .isTrue trivial
  | .dongleRead _ => inferInstanceAs (Decidable (_ ≤ ntxpactive _ _ _))

/-- A ring on which both sides stand at the same slot and nothing is pending. -/
def h2dIdle (maxItems itemLen start : Nat) : H2dSystem where
  ring := { rd := start, wr := start, maxItems, itemLen }
  announced := start
  dongleRd := start
  unread := []
  ended := start

end BcmDhd.Msgbuf
