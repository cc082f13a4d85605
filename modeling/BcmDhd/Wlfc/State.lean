import BcmDhd.Lib.Bytes
import BcmDhd.Wlfc.Credits

/-! The data of host flow control: packets with their tags, the descriptors of
the destinations with their power-save and at-firmware queues, the hanger, and
the packet counters. Queues are lists of packets, one for each precedence. -/

namespace BcmDhd.Wlfc

open BcmDhd.Lib Function

def bcmeOk : Int := 0

def bcmeError : Int := -1

def wlfcMacDescTableSize : Nat := 32

def wlfcMaxIfnum : Nat := 16

/-- `destination_entries` seen as one array: the nodes, the interfaces, `other`. -/
def entryCount : Nat := wlfcMacDescTableSize + wlfcMaxIfnum + 1

def interfaceEntry (ifid : Nat) : Nat := wlfcMacDescTableSize + ifid

def otherEntry : Nat := wlfcMacDescTableSize + wlfcMaxIfnum

def wlfcHangerMaxitems : Nat := 3072

def wlfcPsqPrecCount : Nat := (acCount + 1) * 2

def wlfcPsqLen : Nat := 2048

def freerunctrMask : Nat := 0xff

/-- The fields of the 32-bit tag that goes to the dongle with every packet. -/
structure H2dTag where
  freerunctr : UInt8
  hslot : Nat
  fifo : Nat
  flags : Nat
  generation : Nat
  deriving DecidableEq

def H2dTag.word (tag : H2dTag) : Nat :=
  tag.freerunctr.toNat + tag.hslot * 2 ^ 8 + tag.fifo * 2 ^ 24 + tag.flags * 2 ^ 27 +
    tag.generation * 2 ^ 31

/-- The fields of the 16-bit d11 sequence word of a suppressed packet. -/
structure H2dSeq where
  num : Nat
  fromdrv : Nat
  fromfw : Nat
  amsdu : Nat
  deriving DecidableEq

def H2dSeq.word (seq : H2dSeq) : Nat :=
  seq.num + seq.fromdrv * 2 ^ 12 + seq.fromfw * 2 ^ 13 + seq.amsdu * 2 ^ 14

inductive PktFrag
  | none
  | first
  | cont
  | last
  deriving DecidableEq

/-- A packet: its tag, what the stack says about it, and its bytes from `PKTDATA` on. -/
structure Pkt where
  ifidx : Nat
  fifo : Nat
  creditcheck : Bool
  onetimepktrqst : Bool
  wlfcpkt : Bool
  dstn : List UInt8
  h2dtag : H2dTag
  h2dseq : H2dSeq
  entry : Option Nat
  prio : Nat
  sumNeeded : Bool
  frag : PktFrag
  data : List UInt8
  deriving DecidableEq

/-- A descriptor that was only zeroed is neither open nor closed. -/
inductive DstnState
  | unset
  | opened
  | closed
  deriving DecidableEq

structure MacDescriptor where
  occupied : Bool
  interfaceId : Nat
  iftype : Nat
  state : DstnState
  acBitmap : UInt8
  requestedCredit : UInt8
  requestedPacket : UInt8
  ea : List UInt8
  seq : Nat → UInt8
  generation : Nat
  psq : Nat → List Nat
  afq : Nat → List Nat
  trafficLastreportedBmp : UInt8
  trafficPendingBmp : UInt8
  sendTimSignal : Bool
  macHandle : UInt8
  transitCount : Nat
  supprTransitCount : Nat
  onbusPktsCount : Nat
  suppressed : Bool

inductive HangerState
  | free
  | inuse
  | inuseSuppressed
  | flushed
  deriving DecidableEq

/-- The two bits of `pkt_state` are fields of their own. -/
structure HangerItem where
  state : HangerState
  gen : Nat
  txstatus : Bool
  busreturned : Bool
  pkt : Option Nat
  deriving DecidableEq

structure Hanger where
  slotPos : Nat
  items : Nat → HangerItem

structure WlfcMode where
  afq : Bool
  reuseseq : Bool
  reordersupp : Bool
  deriving DecidableEq

/-- `athost_wl_status_info` with the switches of `dhd_pub` it obeys. The list of
active entries starts at `active_entry_head`. `pkts` is the memory of packets,
`txq` the queue of the bus and `flying` what the bus took from it and has not
completed; `held` records the packets that were accepted from the stack and not
handed back by `dhd_txcomplete`. -/
structure Ctx where
  mode : WlfcMode
  proptxstatusMode : FcMode
  txoff : Bool
  creditIgnore : Bool
  txstatusIgnore : Bool
  rxpktChk : Bool
  bcmcCreditSupported : Bool
  credits : Credits
  hanger : Hanger
  entries : Nat → MacDescriptor
  activeEntries : List Nat
  requestedEntries : List Nat
  pktCntInQ : Nat → Nat → Int
  pktCntPerAc : Nat → Int
  pktCntInDrv : Nat → Nat → Int
  pktCntInPsq : Int
  rxTimestamp : Nat → UInt32
  allowCreditBorrow : Bool
  singleAc : Nat
  singleAcTimestamp : UInt32
  pkts : Nat → Pkt
  txq : List Nat
  flying : List Nat
  held : List Nat

namespace Ctx

def setEntry (ctx : Ctx) (e : Nat) (entry : MacDescriptor) : Ctx :=
  { ctx with entries := update ctx.entries e entry }

def setCredits (ctx : Ctx) (credits : Credits) : Ctx := { ctx with credits := credits }

def setPkt (ctx : Ctx) (p : Nat) (pkt : Pkt) : Ctx :=
  { ctx with pkts := update ctx.pkts p pkt }

def setItem (ctx : Ctx) (slot : Nat) (item : HangerItem) : Ctx :=
  { ctx with hanger := { ctx.hanger with items := update ctx.hanger.items slot item } }

def setPsq (ctx : Ctx) (e prec : Nat) (packets : List Nat) : Ctx :=
  let entry := ctx.entries e
  ctx.setEntry e { entry with psq := update entry.psq prec packets }

def setAfq (ctx : Ctx) (e prec : Nat) (packets : List Nat) : Ctx :=
  let entry := ctx.entries e
  ctx.setEntry e { entry with afq := update entry.afq prec packets }

@[simp] theorem credits_setCredits (ctx : Ctx) (credits : Credits) :
    (ctx.setCredits credits).credits = credits := rfl

theorem entries_setEntry (ctx : Ctx) (e : Nat) (entry : MacDescriptor) :
    (ctx.setEntry e entry).entries = update ctx.entries e entry := rfl

/-- The three counters of queued packets, moved by `by_` for a packet of a
precedence's access category. -/
def countQueued (ctx : Ctx) (by_ : Int) (p ac : Nat) : Ctx :=
  let i := (ctx.pkts p).ifidx
  { ctx with
    pktCntInQ := update ctx.pktCntInQ i
      (update (ctx.pktCntInQ i) ac (ctx.pktCntInQ i ac + by_))
    pktCntPerAc := update ctx.pktCntPerAc ac (ctx.pktCntPerAc ac + by_)
    pktCntInPsq := ctx.pktCntInPsq + by_ }

def countInDrv (ctx : Ctx) (by_ : Int) (i ac : Nat) : Ctx :=
  { ctx with
    pktCntInDrv := update ctx.pktCntInDrv i
      (update (ctx.pktCntInDrv i) ac (ctx.pktCntInDrv i ac + by_)) }

/-- `dhd_txcomplete`: the packet goes back to the stack. -/
def txcomplete (ctx : Ctx) (p : Nat) : Ctx := { ctx with held := ctx.held.erase p }

end Ctx

/-- The length of a power-save queue, over all its precedences. -/
def psqLen (psq : Nat → List Nat) : Nat :=
  ((List.range wlfcPsqPrecCount).map fun prec => (psq prec).length).sum

def zeroedDescriptor : MacDescriptor where
  occupied := false
  interfaceId := 0
  iftype := 0
  state := .unset
  acBitmap := 0
  requestedCredit := 0
  requestedPacket := 0
  ea := List.replicate 6 0
  seq := fun _ => 0
  generation := 0
  psq := fun _ => []
  afq := fun _ => []
  trafficLastreportedBmp := 0
  trafficPendingBmp := 0
  sendTimSignal := false
  macHandle := 0
  transitCount := 0
  supprTransitCount := 0
  onbusPktsCount := 0
  suppressed := false

def dhdWlfcHangerCreate : Hanger where
  slotPos := 0
  items := fun _ => ⟨.free, 0, false, false, none⟩

end BcmDhd.Wlfc
