import BcmDhd.Lib.Machine
import BcmDhd.Lib.FreeStack
import BcmDhd.Utils.Mwbmap

/-! The packet to packet-id mapper: numbered keys, a stack of the free ones, and
one locker of metadata per key. Key 0 is reserved. The map itself is not audited
in the shipped `DHD_PKTID_AUDIT_RING` configuration; the audit bitmap is only
set up here. -/

namespace BcmDhd.Msgbuf

open BcmDhd.Lib BcmDhd.Utils Function

def maxPktidItems : Nat := 3072

def dhdPktidInvalid : Nat := 0

inductive DhdLockerState where
  | isFree
  | isBusy
  | isRsvd
  deriving DecidableEq

inductive DhdPkttype where
  | dataTx
  | dataRx
  | ioctlRx
  | eventRx
  | noCheck
  deriving DecidableEq

/-- A native pointer; `none` is `NULL`. -/
abbrev NativePtr := Option Nat

structure DhdPktidItem where
  state : DhdLockerState
  dir : Nat
  pkttype : DhdPkttype
  len : Nat
  pkt : NativePtr
  pa : Nat
  dmah : NativePtr
  secdma : NativePtr
  deriving DecidableEq

structure DhdPktidMap where
  items : Nat
  avail : Nat
  failures : Int
  pktidAudit : BcmMwbmap
  keys : Nat → Nat
  lockers : Nat → DhdPktidItem

/-- A locker cleared by `bzero`. -/
def clearedLocker : DhdPktidItem where
  state := .isFree
  dir := 0
  pkttype := .dataTx
  len := 0
  pkt := none
  pa := 0
  dmah := none
  secdma := none

/-- The map after a successful allocation of its memory. -/
def dhdPktidMapInit (numItems : Nat) : DhdPktidMap where
  items := numItems
  avail := numItems
  failures := 0
  pktidAudit := bcmMwbmapForce (bcmMwbmapInit (numItems + 1)) dhdPktidInvalid
  keys := fill 1 numItems (fun nkey => nkey) (fun _ => 0)
  lockers := update (fill 1 numItems (fun _ => clearedLocker) (fun _ => clearedLocker))
    dhdPktidInvalid { clearedLocker with state := .isBusy }

/-- The parameters saved with a packet. -/
structure PktParams where
  pkt : NativePtr
  pa : Nat
  len : Nat
  dir : Nat
  dmah : NativePtr
  secdma : NativePtr
  pkttype : DhdPkttype
  deriving DecidableEq

/-- What a free writes through its result pointers. -/
structure PktContents where
  pa : Nat
  len : Nat
  dmah : NativePtr
  secdma : NativePtr
  deriving DecidableEq

def dhdPktidMapReserve (map : DhdPktidMap) (pkt : NativePtr) : DhdPktidMap × Nat :=
  if map.avail = 0 then
    ({ map with failures := map.failures + 1 }, dhdPktidInvalid)
  else
    let nkey := map.keys map.avail
    ({ map with
        avail := map.avail - 1
        lockers := update map.lockers nkey
          { map.lockers nkey with pkt := pkt, len := 0, state := .isBusy } }, nkey)

/-- The assertion on the locker that a save finds. -/
def saveAssertion (map : DhdPktidMap) (nkey : Nat) (pkt : NativePtr) : Prop :=
  (nkey ≠ dhdPktidInvalid ∧ nkey ≤ map.items) ∧
    (((map.lockers nkey).state = .isBusy ∧ (map.lockers nkey).pkt = pkt) ∨
      ((map.lockers nkey).state = .isRsvd ∧ (map.lockers nkey).pkt = none))

instance (map : DhdPktidMap) (nkey : Nat) (pkt : NativePtr) :
    Decidable (saveAssertion map nkey pkt) :=
  inferInstanceAs (Decidable ((_ ∧ _) ∧ ((_ ∧ _) ∨ (_ ∧ _))))

def dhdPktidMapSave (map : DhdPktidMap) (nkey : Nat) (params : PktParams) : DhdPktidMap :=
  { map with
    lockers := update map.lockers nkey
      { state := .isBusy
        dir := params.dir
        pkttype := params.pkttype
        len := params.len % 2 ^ 16
        pkt := params.pkt
        pa := params.pa
        dmah := params.dmah
        secdma := params.secdma } }

def dhdPktidMapAlloc (map : DhdPktidMap) (params : PktParams) : DhdPktidMap × Nat :=
  let (reserved, nkey) := dhdPktidMapReserve map params.pkt
  if nkey ≠ dhdPktidInvalid then (dhdPktidMapSave reserved nkey params, nkey)
  else (reserved, nkey)

/-- The packet, and the contents when the locker was opened: both refusals
return `NULL` without writing through the result pointers. -/
def dhdPktidMapFree (map : DhdPktidMap) (nkey : Nat) (pkttype : DhdPkttype) (rsvLocker : Bool) :
    DhdPktidMap × NativePtr × Option PktContents :=
  let locker := map.lockers nkey
  if locker.state = .isFree then (map, none, none)
  else if pkttype ≠ .noCheck ∧ locker.pkttype ≠ pkttype then (map, none, none)
  else
    let contents : PktContents :=
      { pa := locker.pa, len := locker.len, dmah := locker.dmah, secdma := locker.secdma }
    if rsvLocker = false then
      ({ map with
          avail := map.avail + 1
          keys := update map.keys (map.avail + 1) nkey
          lockers := update map.lockers nkey
            { locker with state := .isFree, pkt := none, len := 0 } },
        locker.pkt, some contents)
    else
      ({ map with
          lockers := update map.lockers nkey
            { locker with state := .isRsvd, pkt := none, len := 0 } },
        locker.pkt, some contents)

inductive PktidCall where
  | reserve (pkt : NativePtr)
  | save (nkey : Nat) (params : PktParams)
  | alloc (params : PktParams)
  | free (nkey : Nat) (pkttype : DhdPkttype) (rsvLocker : Bool)
  deriving DecidableEq

inductive PktidAnswer where
  | key (nkey : Nat)
  | saved
  | freed (pkt : NativePtr) (contents : Option PktContents)
  deriving DecidableEq

/-- A save meets its assertion; a free names a key of the map, in any state. -/
def pktidMachine : Machine DhdPktidMap PktidCall PktidAnswer where
  step map
    | .reserve pkt => let (after, nkey) := dhdPktidMapReserve map pkt; (after, .key nkey)
    | .save nkey params => (dhdPktidMapSave map nkey params, .saved)
    | .alloc params => let (after, nkey) := dhdPktidMapAlloc map params; (after, .key nkey)
    | .free nkey pkttype rsvLocker =>
      let (after, pkt, contents) := dhdPktidMapFree map nkey pkttype rsvLocker
      (after, .freed pkt contents)
  admits map
    | .reserve _ => True
    | .save nkey params => saveAssertion map nkey params.pkt
    | .alloc _ => True
    | .free nkey _ _ => 1 ≤ nkey ∧ nkey ≤ map.items

end BcmDhd.Msgbuf
