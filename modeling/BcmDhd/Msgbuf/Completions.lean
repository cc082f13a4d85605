import BcmDhd.Msgbuf.Ioctl
import BcmDhd.Msgbuf.TxPost

/-! Buffers posted to the dongle and the handlers of the messages that return them. The build has
`DHD_PKTID_AUDIT_RING` and `DHD_PCIE_PKTID`, and neither `IOCTLRESP_USE_CONSTMEM` nor the load
balancing of completions. -/

namespace BcmDhd.Msgbuf

open BcmDhd.Lib

def dmaRx : Nat := 2

def rxBufBurst : Nat := 32

def rxbufpostThreshold : Nat := 32

def dhdFlowringMaxEventbufPost : Nat := 8

def dhdFlowringMaxIoctlrespbufPost : Nat := 8

def defaultRxBuffersToPost : Nat := 256

def txpFlushMaxItemsFlushCnt : Nat := 48

/-- The parts of `dhd_pub_t` and `dhd_prot_t` that posts and completions use. -/
structure DhdProt extends TxProt, IoctlProt where
  busDown : Bool
  rxbufpost : Nat
  maxRxbufpost : Nat
  maxEventbufpost : Nat
  maxIoctlrespbufpost : Nat
  curEventBufsPosted : Nat
  curIoctlrespBufsPosted : Nat
  rxMetadataOffset : Nat
  ctrlSubnSecdma : NativePtr
  rxpSubnSecdma : NativePtr

/-- `dhd_prot_init` up to its posts; `maxHostRxbufs` is read from the dongle. -/
def dhdProtInit (dhd : DhdProt) (maxHostRxbufs : Nat) : DhdProt :=
  { dhd with
    pktidMap := dhdPktidMapInit maxPktidItems
    maxRxbufpost := if maxHostRxbufs % 2 ^ 16 = 0 then defaultRxBuffersToPost
      else maxHostRxbufs % 2 ^ 16
    maxEventbufpost := dhdFlowringMaxEventbufPost
    maxIoctlrespbufpost := dhdFlowringMaxIoctlrespbufPost
    curIoctlrespBufsPosted := 0
    activeTxCount := 0
    rxbufpost := 0
    curEventBufsPosted := 0
    ackPending := false
    respPending := false
    rxMetadataOffset := 0
    txMetadataOffset := 0
    txpThreshold := txpFlushMaxItemsFlushCnt
    ioctlTransId := 0 }

/-- A packet from `PKTGET` with the address that mapping it returns. -/
structure RxBuf where
  ptr : Nat
  pktlen : Nat
  pa : Nat
  deriving DecidableEq

/-- What one attempt to post a control buffer meets: secure DMA buffers, a packet,
and room in the control ring, which the dongle reads at its own pace. -/
structure CtrlAttempt where
  secdmaAvail : Bool
  buf : Option RxBuf
  space : Bool
  deriving DecidableEq

/-- What a burst of receive buffers meets: `alloced` is what the request for ring
space yields, 0 for `NULL`, and a `none` is a failed `PKTGET`. -/
structure RxBurst where
  secdmaAvail : Bool
  alloced : Nat
  bufs : List (Option RxBuf)
  deriving DecidableEq

/-- Both ways of posting a buffer: a packet id for it, and its audit. -/
def DhdProt.nativeToPktid (dhd : DhdProt) (params : PktParams) : DhdProt × Bool :=
  let (map, pktid) := dhdPktidMapAlloc dhd.pktidMap params
  if pktid = dhdPktidInvalid then ({ dhd with pktidMap := map }, false)
  else ({ dhd with pktidMap := (dhdPktidAudit map pktid .duplicateAlloc).1 }, true)

def ctrlPkttype (eventBuf : Bool) : DhdPkttype := if eventBuf then .eventRx else .ioctlRx

/-- The second test for the invalid id repeats the first one and is left out. -/
def dhdProtRxbufpostCtrl (dhd : DhdProt) (eventBuf : Bool) (attempt : CtrlAttempt) :
    DhdProt × Bool :=
  if dhd.busDown then (dhd, false)
  else if attempt.secdmaAvail = false then (dhd, false)
  else
    match attempt.buf with
    | none => (dhd, false)
    | some buf =>
      if buf.pa = 0 then (dhd, false)
      else if attempt.space = false then (dhd, false)
      else
        dhd.nativeToPktid
          { pkt := some buf.ptr
            pa := buf.pa
            len := buf.pktlen
            dir := dmaRx
            dmah := none
            secdma := dhd.ctrlSubnSecdma
            pkttype := ctrlPkttype eventBuf }

/-- The loop ends at the first failure, and there is no packet for an attempt
beyond the list. The result is how many were posted. -/
def postCtrlBufs (dhd : DhdProt) (eventBuf : Bool) : Nat → List CtrlAttempt → DhdProt × Nat
  | maxToPost + 1, attempt :: attempts =>
    match dhdProtRxbufpostCtrl dhd eventBuf attempt with
    | (after, false) => (after, 0)
    | (after, true) =>
      let (last, posted) := postCtrlBufs after eventBuf maxToPost attempts
      (last, posted + 1)
  | _, _ => (dhd, 0)

def dhdMsgbufRxbufPostCtrlpath (dhd : DhdProt) (eventBuf : Bool) (maxToPost : Nat)
    (attempts : List CtrlAttempt) : DhdProt × Nat :=
  if dhd.busDown then (dhd, 0) else postCtrlBufs dhd eventBuf maxToPost attempts

/-- A difference that is not positive posts nothing. -/
def dhdMsgbufRxbufPostIoctlrespBufs (dhd : DhdProt) (attempts : List CtrlAttempt) : DhdProt :=
  let (after, posted) := dhdMsgbufRxbufPostCtrlpath dhd false
    (dhd.maxIoctlrespbufpost - dhd.curIoctlrespBufsPosted) attempts
  { after with curIoctlrespBufsPosted := (dhd.curIoctlrespBufsPosted + posted) % 2 ^ 16 }

def dhdMsgbufRxbufPostEventBufs (dhd : DhdProt) (attempts : List CtrlAttempt) : DhdProt :=
  let (after, posted) := dhdMsgbufRxbufPostCtrlpath dhd true
    (dhd.maxEventbufpost - dhd.curEventBufsPosted) attempts
  { after with curEventBufsPosted := (dhd.curEventBufsPosted + posted) % 2 ^ 16 }

/-- The loop over the slots of a burst, with the number of buffers posted. -/
def postRxBufs (dhd : DhdProt) : Nat → List (Option RxBuf) → DhdProt × Nat
  | slots + 1, some buf :: bufs =>
    if buf.pa = 0 then (dhd, 0)
    else
      match dhd.nativeToPktid
          { pkt := some buf.ptr
            pa := buf.pa
            len := buf.pktlen - dhd.rxMetadataOffset
            dir := dmaRx
            dmah := none
            secdma := dhd.rxpSubnSecdma
            pkttype := .dataRx } with
      | (after, false) => (after, 0)
      | (after, true) =>
        let (last, posted) := postRxBufs after slots bufs
        (last, posted + 1)
  | _, _ => (dhd, 0)

/-- `none` stands for the result -1. -/
def dhdProtRxbufPost (dhd : DhdProt) (count : Nat) (burst : RxBurst) : DhdProt × Option Nat :=
  if burst.secdmaAvail = false then (dhd, none)
  else if burst.alloced = 0 then (dhd, none)
  else
    let (after, posted) := postRxBufs dhd (min count burst.alloced) burst.bufs
    (after, some posted)

/-- The `int16` that the difference of the two counters is stored in. -/
def fillbufs (dhd : DhdProt) : Int := ((dhd.maxRxbufpost : Int) - dhd.rxbufpost).bmod (2 ^ 16)

/-- Bursts until fewer than a burst are missing, at most `cnt` of them. -/
def postRxBursts (dhd : DhdProt) : Nat → List RxBurst → DhdProt
  | cnt + 1, burst :: bursts =>
    if fillbufs dhd < rxBufBurst then dhd
    else
      match dhdProtRxbufPost dhd rxBufBurst burst with
      | (after, none) => after
      | (after, some retcount) =>
        postRxBursts { after with rxbufpost := (after.rxbufpost + retcount) % 2 ^ 16 } cnt bursts
  | _, _ => dhd

/-- The counter starts at 256 and is decremented before it is tested. -/
def dhdMsgbufRxbufPost (dhd : DhdProt) (bursts : List RxBurst) : DhdProt :=
  postRxBursts dhd 255 bursts

def dhdProtReturnRxbuf (dhd : DhdProt) (rxcnt : Nat) (bursts : List RxBurst) : DhdProt :=
  let dhd := { dhd with rxbufpost := if dhd.rxbufpost ≥ rxcnt then dhd.rxbufpost - rxcnt else 0 }
  if (dhd.rxbufpost : Int) ≤ (dhd.maxRxbufpost : Int) - rxbufpostThreshold then
    dhdMsgbufRxbufPost dhd bursts
  else dhd

/-- `dhd_prot_packet_get` with `free_pktid` set. -/
def DhdProt.packetGet (dhd : DhdProt) (pktid : Nat) (pkttype : DhdPkttype) :
    DhdProt × NativePtr :=
  let (map, pkt, _) := dhdPktidMapFree dhd.pktidMap pktid pkttype false
  ({ dhd with pktidMap := map }, pkt)

/-- `DHD_PKTID_AUDIT` of a returned id. -/
def DhdProt.auditReturn (dhd : DhdProt) (pktid : Nat) : DhdProt :=
  { dhd with pktidMap := (dhdPktidAudit dhd.pktidMap pktid .duplicateFree).1 }

/-- Only the test for an allocated id, which changes nothing, and not for the id
that stands for the requests. -/
def DhdProt.ioctackProcess (dhd : DhdProt) (requestId : Nat) : DhdProt :=
  let map :=
    if requestId ≠ dhdIoctlReqPktid then (dhdPktidAudit dhd.pktidMap requestId .testIsAlloc).1
    else dhd.pktidMap
  { dhd with pktidMap := map, toIoctlProt := dhdProtIoctackProcess dhd.toIoctlProt }

/-- `ioctl_comp_resp_msg_t`, with the bytes that lie in the response buffer. -/
structure IoctlCmpltMsg where
  requestId : Nat
  respLen : BitVec 16
  status : BitVec 16
  transId : BitVec 16
  data : Nat → BitVec 8

/-- The state in which a completion is not accepted. -/
def IoctlProt.notExpecting (prot : IoctlProt) : Prop := prot.ackPending ∨ ¬ prot.respPending

instance (prot : IoctlProt) : Decidable prot.notExpecting := inferInstanceAs (Decidable (_ ∨ _))

/-- The early return leaves the response buffer in its locker. -/
def DhdProt.ioctcmpltProcess (dhd : DhdProt) (msg : IoctlCmpltMsg) : DhdProt :=
  let audited := dhd.auditReturn msg.requestId
  if dhd.notExpecting then { audited with ackPending := false, respPending := false }
  else
    let (after, pkt) := audited.packetGet msg.requestId .ioctlRx
    { after with
      toIoctlProt := dhdProtIoctcmpltProcess dhd.toIoctlProt
        { pkt := pkt.map fun _ => msg.data
          respLen := msg.respLen
          status := msg.status
          transId := msg.transId } }

def DhdProt.txstatusProcess (dhd : DhdProt) (requestId : Nat) : DhdProt :=
  let audited := dhd.auditReturn requestId
  ({ audited with activeTxCount := dhd.activeTxCount - 1 }.packetGet requestId .dataTx).1

/-- New event buffers are posted before the locker of the returned one is opened. -/
def DhdProt.eventProcess (dhd : DhdProt) (requestId : Nat) (attempts : List CtrlAttempt) :
    DhdProt :=
  let audited := dhd.auditReturn requestId
  let posted := dhdMsgbufRxbufPostEventBufs
    { audited with curEventBufsPosted := dhd.curEventBufsPosted - 1 } attempts
  (posted.packetGet requestId .eventRx).1

def DhdProt.rxcmpltProcess (dhd : DhdProt) (requestId : Nat) (bursts : List RxBurst) : DhdProt :=
  match (dhd.auditReturn requestId).packetGet requestId .dataRx with
  | (after, none) => after
  | (after, some _) => dhdProtReturnRxbuf after 1 bursts

/-- What `dhd_msgbuf_wait_ioctl_cmplt` does before it sleeps. -/
def DhdProt.waitIoctlCmplt (dhd : DhdProt) (reset : Bool) (attempts : List CtrlAttempt) :
    DhdProt :=
  if reset then dhd
  else
    dhdMsgbufRxbufPostIoctlrespBufs
      { dhd with curIoctlrespBufsPosted := dhd.curIoctlrespBufsPosted - 1 } attempts

/-- The first three calls end the initialisation of the protocol. The transmit path
and the callers of IOCTLs run beside the handlers of the dongle's messages. -/
inductive HandlerCall where
  | rxbufPost (bursts : List RxBurst)
  | rxbufPostIoctlrespBufs (attempts : List CtrlAttempt)
  | rxbufPostEventBufs (attempts : List CtrlAttempt)
  | tx (call : TxCall)
  | fillupIoctReqst (space : Bool)
  | waitIoctlCmplt (reset : Bool) (attempts : List CtrlAttempt)
  | waitOver (len : Nat) (buf reset trap : Bool)
  | ioctack (requestId : Nat)
  | ioctcmplt (msg : IoctlCmpltMsg)
  | txstatus (requestId : Nat)
  | event (requestId : Nat) (attempts : List CtrlAttempt)
  | rxcmplt (requestId : Nat) (bursts : List RxBurst)
  | busstate (down : Bool)

/-- An id that the assertion in `dhd_pktid_map_free` lets through. -/
def DhdProt.HasLocker (dhd : DhdProt) (pktid : Nat) : Prop :=
  1 ≤ pktid ∧ pktid ≤ dhd.pktidMap.items

/-- The map is used by the posts and the handlers alone. Messages may name any id
in any state of its locker, as long as the assertion is met where a locker is
opened. -/
def handlerMachine : Machine DhdProt HandlerCall Unit where
  step dhd
    | .rxbufPost bursts => (dhdMsgbufRxbufPost dhd bursts, ())
    | .rxbufPostIoctlrespBufs attempts => (dhdMsgbufRxbufPostIoctlrespBufs dhd attempts, ())
    | .rxbufPostEventBufs attempts => (dhdMsgbufRxbufPostEventBufs dhd attempts, ())
    | .tx call => ({ dhd with toTxProt := txMachine.next dhd.toTxProt call }, ())
    | .fillupIoctReqst space =>
      ({ dhd with toIoctlProt := (dhdFillupIoctReqst dhd.toIoctlProt space).1 }, ())
    | .waitIoctlCmplt reset attempts => (dhd.waitIoctlCmplt reset attempts, ())
    | .waitOver len buf reset trap =>
      ({ dhd with
          toIoctlProt := (dhdMsgbufWaitIoctlCmplt dhd.toIoctlProt len buf reset trap).1 }, ())
    | .ioctack requestId => (dhd.ioctackProcess requestId, ())
    | .ioctcmplt msg => (dhd.ioctcmpltProcess msg, ())
    | .txstatus requestId => (dhd.txstatusProcess requestId, ())
    | .event requestId attempts => (dhd.eventProcess requestId attempts, ())
    | .rxcmplt requestId bursts => (dhd.rxcmpltProcess requestId bursts, ())
    | .busstate down => ({ dhd with busDown := down }, ())
  admits dhd
    | .tx (.pktid _) => False
    | .tx call => txMachine.admits dhd.toTxProt call
    | .ioctcmplt msg => ¬ dhd.notExpecting → dhd.HasLocker msg.requestId
    | .txstatus requestId => dhd.HasLocker requestId
    | .event requestId _ => dhd.HasLocker requestId
    | .rxcmplt requestId _ => dhd.HasLocker requestId
    | _ => True

end BcmDhd.Msgbuf
