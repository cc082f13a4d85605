import BcmDhd.Msgbuf.H2dRing
import BcmDhd.Msgbuf.PktidMapInvariant

/-! Posting of transmit packets. The build has `TXP_FLUSH_NITEMS` and `DHD_PCIE_PKTID`. -/

namespace BcmDhd.Msgbuf

open BcmDhd.Lib Function

def etherHdrLen : Nat := 14

def dmaTx : Nat := 1

/-- A packet from a flow queue, with the flow id in its tag and the addresses
that mapping it for DMA returns. -/
structure TxPkt where
  ptr : Nat
  flowid : Nat
  prio : Nat
  pktlen : Nat
  headroom : Nat
  pa : Nat
  metaPa : Nat
  deriving DecidableEq

/-- `host_txbuf_post_t` without its copy of the Ethernet header. -/
structure HostTxbufPost where
  ifId : Nat
  requestId : Nat
  flags : Nat
  segCnt : Nat
  metadataBufAddr : Nat
  dataBufAddr : Nat
  metadataBufLen : Nat
  dataLen : Nat
  deriving DecidableEq

/-- A flow's ring: both of its ends, the work items by their byte offset, and the
batch in progress. `unannounced` records the offsets of the items written since
the dongle was last told the write index, `cacheFlush` the last range flushed. -/
structure FlowRing where
  h2d : H2dSystem
  workItems : Nat → Option HostTxbufPost
  secdma : NativePtr
  startAddr : NativePtr
  pendItemsCount : Nat
  unannounced : List Nat
  cacheFlush : NativePtr × Nat

/-- The parts of `dhd_pub_t` and `dhd_prot_t` that a post uses. -/
structure TxProt where
  flowRingTable : Option (Nat → FlowRing)
  pktidMap : DhdPktidMap
  txMetadataOffset : Nat
  txpThreshold : Nat
  activeTxCount : Nat

inductive TxStatus where
  | ok
  | noResource
  deriving DecidableEq

/-- `DHD_RING_END_VA`, the offset of the last item. -/
def ringEnd (ring : MsgbufRing) : Nat := (ring.maxItems - 1) * ring.itemLen

/-- The offsets that a move of the announced index to the write index covers. -/
def newlyAnnounced (system : H2dSystem) : List Nat :=
  (slots system.ring.maxItems system.announced
    (Circular.distance system.ring.maxItems system.announced system.ring.wr)).map
      (· * system.ring.itemLen)

def dhdProtRingWriteComplete (ring : FlowRing) (p : NativePtr) (nitems : Nat) : FlowRing :=
  { ring with
    cacheFlush := (p, ring.h2d.ring.itemLen * nitems)
    h2d := h2dMachine.next ring.h2d .ringWriteComplete
    unannounced := ring.unannounced.filter (· ∉ newlyAnnounced ring.h2d) }

/-- The flush of one ring. -/
def FlowRing.writeFlush (ring : FlowRing) : FlowRing :=
  if ring.pendItemsCount ≠ 0 then
    { dhdProtRingWriteComplete ring ring.startAddr ring.pendItemsCount with
      pendItemsCount := 0
      startAddr := none }
  else ring

def dhdProtTxdataWriteFlush (dhd : TxProt) (flowid : Nat) : TxProt :=
  match dhd.flowRingTable with
  | none => dhd
  | some table =>
    { dhd with
      flowRingTable := some (update table flowid (table flowid).writeFlush) }

/-- `pktlen` is a `uint32` from which the header is taken off. -/
def payloadLen (pkt : TxPkt) : Nat := (pkt.pktlen + 2 ^ 32 - etherHdrLen) % 2 ^ 32

/-- The metadata buffer lies in the headroom of the packet, when there is enough. -/
def txdescFor (dhd : TxProt) (pkt : TxPkt) (ifidx pktid : Nat) : HostTxbufPost :=
  let withMetadata := dhd.txMetadataOffset ≠ 0 ∧ pkt.headroom ≥ dhd.txMetadataOffset
  { ifId := ifidx
    requestId := pktid
    flags := 0x01 ||| ((pkt.prio &&& 0x7) <<< 5)
    segCnt := 1
    metadataBufAddr := if withMetadata then pkt.metaPa else 0
    dataBufAddr := pkt.pa
    metadataBufLen := if withMetadata then dhd.txMetadataOffset else 0
    dataLen := payloadLen pkt % 2 ^ 16 }

/-- What the locker of a posted packet holds. -/
def txParams (ring : FlowRing) (pkt : TxPkt) : PktParams where
  pkt := some pkt.ptr
  pa := pkt.pa
  len := payloadLen pkt
  dir := dmaTx
  dmah := none
  secdma := ring.secdma
  pkttype := .dataTx

/-- The item at `txdesc` is filled in and joins the batch. -/
def FlowRing.post (ring : FlowRing) (txdesc : Nat) (item : HostTxbufPost) : FlowRing :=
  { ring with
    workItems := update ring.workItems txdesc (some item)
    startAddr := if ring.pendItemsCount = 0 then some txdesc else ring.startAddr
    pendItemsCount := (ring.pendItemsCount + 1) % 2 ^ 16
    unannounced := ring.unannounced ++ [txdesc] }

/-- `secdmaAvail` is what `SECURE_DMA_BUFFS_IS_AVAIL` finds where secure DMA is
enabled, `true` otherwise. -/
def dhdProtTxdata (dhd : TxProt) (pkt : TxPkt) (ifidx : Nat) (secdmaAvail : Bool) :
    TxProt × TxStatus :=
  match dhd.flowRingTable with
  | none => (dhd, .noResource)
  | some table =>
    let ring := table pkt.flowid
    let (reserved, pktid) := dhdPktidMapReserve dhd.pktidMap (some pkt.ptr)
    if pktid = dhdPktidInvalid then ({ dhd with pktidMap := reserved }, .noResource)
    else if secdmaAvail = false then
      ({ dhd with pktidMap := (dhdPktidMapFree reserved pktid .noCheck false).1 }, .noResource)
    else
      match h2dMachine.step ring.h2d (.allocRingSpace 1 false) with
      | (h2d, some (.space txdesc _)) =>
        let saved := dhdPktidMapSave reserved pktid (txParams ring pkt)
        let posted := { ring with h2d }.post txdesc (txdescFor dhd pkt ifidx pktid)
        let filled : TxProt :=
          { dhd with
            flowRingTable := some (update table pkt.flowid posted)
            pktidMap := (dhdPktidAudit saved pktid .duplicateAlloc).1 }
        let flushed :=
          if posted.pendItemsCount = dhd.txpThreshold ∨ txdesc = ringEnd posted.h2d.ring then
            dhdProtTxdataWriteFlush filled pkt.flowid
          else filled
        ({ flushed with activeTxCount := (dhd.activeTxCount + 1) % 2 ^ 16 }, .ok)
      | (h2d, _) =>
        ({ dhd with
            flowRingTable := some (update table pkt.flowid { ring with h2d })
            pktidMap := (dhdPktidMapFree reserved pktid .noCheck false).1 }, .noResource)

/-- The dongle reads, and the other users of the packet-id map go on, between the
calls. The threshold is set from outside at any time. -/
inductive TxCall where
  | txdata (pkt : TxPkt) (ifidx : Nat) (secdmaAvail : Bool)
  | txdataWriteFlush (flowid : Nat)
  | dongleRead (flowid count : Nat)
  | pktid (call : PktidCall)
  | txpThreshold (value : Nat)
  deriving DecidableEq

def txMachine : Machine TxProt TxCall (Option TxStatus) where
  step dhd
    | .txdata pkt ifidx secdmaAvail =>
      let (after, status) := dhdProtTxdata dhd pkt ifidx secdmaAvail
      (after, some status)
    | .txdataWriteFlush flowid => (dhdProtTxdataWriteFlush dhd flowid, none)
    | .dongleRead flowid count =>
      ({ dhd with
          flowRingTable := dhd.flowRingTable.map fun table =>
            update table flowid { table flowid with
              h2d := h2dMachine.next (table flowid).h2d (.dongleRead count) } }, none)
    | .pktid call => ({ dhd with pktidMap := pktidMachine.next dhd.pktidMap call }, none)
    | .txpThreshold value => ({ dhd with txpThreshold := value % 2 ^ 16 }, none)
  admits dhd
    | .dongleRead flowid count => ∀ table ∈ dhd.flowRingTable,
      h2dMachine.admits (table flowid).h2d (.dongleRead count)
    | .pktid call => pktidMachine.admits dhd.pktidMap call
    | _ => True

/-- A flow ring as it comes from the pool. -/
def freshFlowRing (maxItems itemLen start : Nat) (secdma : NativePtr) : FlowRing where
  h2d := h2dIdle maxItems itemLen start
  workItems := fun _ => none
  secdma := secdma
  startAddr := none
  pendItemsCount := 0
  unannounced := []
  cacheFlush := (none, 0)

end BcmDhd.Msgbuf
