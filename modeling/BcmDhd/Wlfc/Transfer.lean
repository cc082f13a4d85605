import BcmDhd.Wlfc.PowerSave

/-! The commit of one packet to the bus: its header, its place in the hanger, and
the way back into the queue when the commit fails. -/

namespace BcmDhd.Wlfc

def wlfcPktflagPktfromhost : Nat := 1

def wlfcPktflagPktRequested : Nat := 2

/-- `WLFC_DECR_SEQCOUNT`. -/
def decrSeqcount (seq : UInt8) : UInt8 := if seq = 0 then 0xff else seq - 1

def setSeq (ctx : Ctx) (e prec : Nat) (seq : UInt8) : Ctx :=
  let entry := ctx.entries e
  ctx.setEntry e { entry with seq := Function.update entry.seq prec seq }

/-- The traffic indication rides on this packet if it was asked for. -/
def timSignal (ctx : Ctx) (e : Nat) : Ctx × Option (UInt8 × UInt8) :=
  let entry := ctx.entries e
  if entry.sendTimSignal then
    (ctx.setEntry e { entry with
      sendTimSignal := false, trafficLastreportedBmp := entry.trafficPendingBmp },
      some (entry.macHandle, entry.trafficPendingBmp))
  else (ctx, none)

/-- The slot, generation, counter and d11 sequence that a packet goes out with. -/
structure Identity where
  hslot : Nat
  gen : Nat
  freeCtr : UInt8
  htodseq : H2dSeq
  deriving DecidableEq

/-- A new packet gets a slot and the entry's sequence count. -/
def newIdentity (ctx : Ctx) (e p : Nat) : Ctx × Identity :=
  let entry := ctx.entries e
  let found :=
    if ctx.mode.afq then (ctx.hanger, e) else dhdWlfcHangerGetFreeSlot ctx.hanger
  ({ ctx with hanger := found.1 },
    ⟨found.2, entry.generation, entry.seq (ctx.pkts p).fifo, ⟨0, 0, 0, 0⟩⟩)

/-- A suppressed packet keeps slot and counter; its old header is removed. -/
def oldIdentity (ctx : Ctx) (e p : Nat) : Ctx × Identity :=
  let pkt := ctx.pkts p
  let gen :=
    if ctx.mode.reordersupp then (ctx.entries e).generation
    else if ctx.mode.afq then pkt.h2dtag.generation
    else dhdWlfcHangerGetGenbit ctx.hanger pkt.h2dtag.hslot
  (ctx.setPkt p { pkt with data := (dhdWlfcPullheader pkt.data).1 },
    ⟨pkt.h2dtag.hslot, gen, pkt.h2dtag.freerunctr,
      if ctx.mode.reuseseq then pkt.h2dseq else ⟨0, 0, 0, 0⟩⟩)

def identify (ctx : Ctx) (e p : Nat) (headerNeeded : Bool) : Ctx × Identity :=
  if headerNeeded then newIdentity ctx e p else oldIdentity ctx e p

def htodTag (pkt : Pkt) (id : Identity) : H2dTag where
  freerunctr := id.freeCtr
  hslot := id.hslot % 2 ^ 16
  fifo := pkt.fifo % 8
  flags := if pkt.creditcheck then wlfcPktflagPktfromhost
    else wlfcPktflagPktfromhost ||| wlfcPktflagPktRequested
  generation := id.gen % 2

/-- The packet with its header, under its new tag. -/
def headedPkt (mode : WlfcMode) (pkt : Pkt) (tim : Option (UInt8 × UInt8)) (id : Identity) : Pkt :=
  { pkt with
    data := dhdWlfcPushheader mode.reuseseq pkt tim (htodTag pkt id) id.htodseq
    h2dtag := htodTag pkt id }

/-- A new packet goes into its slot; the slot of an old one is in use again. -/
def hangUp (ctx : Ctx) (p hslot : Nat) (headerNeeded : Bool) : Ctx × Bool :=
  if ctx.mode.afq then (ctx, true)
  else if headerNeeded then dhdWlfcHangerPushpkt ctx p hslot
  else
    (ctx.setItem hslot { ctx.hanger.items hslot with
      state := .inuse, txstatus := false, busreturned := false }, true)

def dhdWlfcPretxPktprocess (ctx : Ctx) (e p : Nat) (headerNeeded : Bool) : Ctx × Int :=
  let tim := timSignal ctx e
  let identified := identify tim.1 e p headerNeeded
  let id := identified.2
  if id.hslot ≥ wlfcHangerMaxitems then (identified.1, bcmeError)
  else
    let headed := identified.1.setPkt p (headedPkt ctx.mode (identified.1.pkts p) tim.2 id)
    let hung := hangUp headed p id.hslot headerNeeded
    if hung.2 then
      if headerNeeded then
        let fifo := (ctx.pkts p).fifo
        (setSeq hung.1 e fifo ((hung.1.entries e).seq fifo + 1), bcmeOk)
      else (hung.1, bcmeOk)
    else (hung.1, bcmeError)

/-- The request is put back for a packet that took one. -/
def returnRequest (ctx : Ctx) (e prec p : Nat) : Ctx :=
  let entry := ctx.entries e
  if prec ≠ acCount ∧ ¬ (ctx.pkts p).creditcheck then
    ctx.setEntry e { entry with requestedCredit := entry.requestedCredit + 1 }
  else ctx

/-- Sequence count and header of a delayed packet are taken back. -/
def rollbackHeader (ctx : Ctx) (e prec p : Nat) (delayed : Bool) : Ctx × Int :=
  if delayed then
    let counted := setSeq ctx e prec (decrSeqcount ((ctx.entries e).seq prec))
    let pulled := dhdWlfcPullheader (ctx.pkts p).data
    (counted.setPkt p { ctx.pkts p with data := pulled.1 }, pulled.2)
  else (ctx, bcmeOk)

/-- `delayed` is the packet type: it tells what there is to undo. -/
def dhdWlfcRollbackPacketToq (ctx : Ctx) (p : Nat) (delayed : Bool) : Ctx × Int :=
  let found := dhdWlfcFindTableEntry ctx p
  let e := found.2
  let prec := (ctx.pkts p).fifo
  let fifoId := if delayed then prec * 2 else prec * 2 + 1
  let returned := returnRequest found.1 e prec p
  let bare := rollbackHeader returned e prec p delayed
  if bare.2 ≠ bcmeOk then (dhdWlfcPrecDrop bare.1 fifoId p false, bare.2)
  else
    match dhdWlfcPrecEnqWithDrop bare.1 e p fifoId true ((bare.1.entries e).seq prec) with
    | (queued, true) => (queued, bcmeOk)
    | (refused, false) => (dhdWlfcPrecDrop refused fifoId p false, bcmeError)

/-- What the bus says to a commit, and whether it has stopped the traffic by then. -/
structure BusAnswer where
  rc : Int
  txoff : Bool
  deriving DecidableEq

def hearBus (ctx : Ctx) (answer : BusAnswer) : Ctx := { ctx with txoff := answer.txoff }

def setCreditcheck (ctx : Ctx) (p : Nat) (check : Bool) : Ctx :=
  ctx.setPkt p { ctx.pkts p with creditcheck := check }

/-- A packet of another generation than the entry's will be suppressed. -/
def noteCommitted (ctx : Ctx) (e p : Nat) : Ctx :=
  let entry := ctx.entries e
  let other := (ctx.pkts p).h2dtag.generation ≠ entry.generation
  let noted := { entry with
    suppressed := entry.suppressed ∨ other
    supprTransitCount := if other then entry.supprTransitCount + 1 else entry.supprTransitCount
    transitCount := entry.transitCount + 1
    onbusPktsCount := entry.onbusPktsCount + 1 }
  { ctx.setEntry e noted with txq := ctx.txq ++ [p] }

/-- The hanger lets go of a delayed packet that the bus did not take. -/
def unhang (ctx : Ctx) (info : CommitInfo) : Ctx :=
  if info.needsHdr ∧ ¬ ctx.mode.afq then
    (dhdWlfcHangerPoppkt ctx (ctx.pkts info.p).h2dtag.hslot true).1
  else ctx

def rollBack (ctx : Ctx) (info : CommitInfo) : Ctx :=
  setCreditcheck (dhdWlfcRollbackPacketToq ctx info.p info.needsHdr).1 info.p false

def dhdWlfcHandlePacketCommit (ctx : Ctx) (info : CommitInfo) (answer : BusAnswer) : Ctx × Int :=
  let checked := setCreditcheck ctx info.p info.acFifoCreditSpent
  let ready := dhdWlfcPretxPktprocess checked info.macEntry info.p info.needsHdr
  if ready.2 = bcmeOk then
    let left := hearBus ready.1 answer
    if answer.rc = bcmeOk then (noteCommitted left info.macEntry info.p, bcmeOk)
    else (rollBack (unhang left info) info, answer.rc)
  else (rollBack ready.1 info, ready.2)

/-! One pass over the queues: every access category with its own credits, with
credits borrowed up to a limit, and the only busy one with all that are left. -/

def busRetries : Nat := 1

def wlfcRxDetectionThresholdMs : UInt32 := 100

def wlfcBorrowDeferPeriodMs : UInt32 := 100

/-- What a pass meets: the answers of the bus, commit by commit, and the clock. -/
structure PassInput where
  bus : Nat → BusAnswer
  rxUptime : Nat → UInt32
  borrowUptime : UInt32

/-- The pass so far. `charged` lists the FIFO of every packet that was committed
against a credit, and `asserted` whether the assertion on credits held each time. -/
structure Pass where
  ctx : Ctx
  commits : Nat
  busRetryCount : Nat
  charged : List Nat
  asserted : Bool

def returnLender (ctx : Ctx) (lender : Option Nat) (ac : Nat) : Ctx :=
  match lender with
  | some lender => ctx.setCredits (dhdWlfcReturnCredit ctx.credits lender ac)
  | none => ctx

/-- The credit of a packet that went out: the FIFO's own, or the borrowed one that
stays borrowed, or none and the borrowed one goes back. -/
def settleCredit (ctx : Ctx) (ac : Nat) (spent : Bool) (lender : Option Nat) : Ctx :=
  if spent then
    if lender = none then ctx.setCredits (ctx.credits.add (-1) ac) else ctx
  else returnLender ctx lender ac

/-- A packet was dequeued. Returns whether the pass has to end. -/
def commitDequeued (pass : Pass) (input : PassInput) (ac : Nat) (lender : Option Nat)
    (ctx : Ctx) (info : CommitInfo) : Pass × Bool :=
  let committed := dhdWlfcHandlePacketCommit ctx info (input.bus pass.commits)
  if committed.2 = bcmeOk then
    ({ pass with
        ctx := settleCredit committed.1 ac info.acFifoCreditSpent lender
        commits := pass.commits + 1
        charged := if info.acFifoCreditSpent then ac :: pass.charged else pass.charged }, false)
  else
    ({ pass with
        ctx := returnLender committed.1 lender ac
        commits := pass.commits + 1
        busRetryCount := pass.busRetryCount + 1 }, decide (pass.busRetryCount + 1 ≥ busRetries))

def noCredit (ctx : Ctx) (ac : Nat) : Bool :=
  if ctx.creditIgnore ∨ (ac = acCount ∧ ¬ ctx.bcmcCreditSupported) then false
  else ctx.credits.fifoCredit ac < 1

/-- Without a credit of its own an access category tries to borrow from lower ones. -/
def borrowLimited (ctx : Ctx) (ac txMap rxMap : Nat) : Ctx × Option Nat :=
  if noCredit ctx ac ∧ ac < acCount ∧ txMap ≥ rxMap then
    let borrowed := dhdWlfcBorrowCredit ctx.credits ((ac : Int) - 1) ac false
    (ctx.setCredits borrowed.1, borrowed.2)
  else (ctx, none)

/-- The assertion that there is a credit, or none is needed. -/
def creditAsserted (ctx : Ctx) (ac : Nat) (lender : Option Nat) (spent : Bool) : Bool :=
  ctx.creditIgnore ∨ lender ≠ none ∨ ctx.credits.fifoCredit ac ≥ if spent then 1 else 0

def assertCredit (pass : Pass) (ctx : Ctx) (ac : Nat) (lender : Option Nat) (spent : Bool) : Pass :=
  { pass with asserted := pass.asserted && creditAsserted ctx ac lender spent }

/-- The loop over the packets of one access category. Every round that goes on has
taken a packet out of the queues. -/
def transferLoop (input : PassInput) (ac txMap rxMap : Nat) : Nat → Pass → Pass × Bool
  | 0, pass => (pass, false)
  | fuel + 1, pass =>
    if pass.ctx.txoff then (pass, false)
    else
      let borrowed := borrowLimited pass.ctx ac txMap rxMap
      let lender := borrowed.2
      match dhdWlfcDequeDelayedq borrowed.1 ac (noCredit pass.ctx ac ∧ lender = none) with
      | (ctx, none) => ({ pass with ctx := returnLender ctx lender ac }, false)
      | (ctx, some info) =>
        let checked := assertCredit pass ctx ac lender info.acFifoCreditSpent
        let committed := commitDequeued checked input ac lender ctx info
        if committed.2 then committed else transferLoop input ac txMap rxMap fuel committed.1

/-- The loop that borrows every credit there is, the FIFO's own included. -/
def borrowAllLoop (input : PassInput) (ac : Nat) : Nat → Pass → Pass × Bool
  | 0, pass => (pass, false)
  | fuel + 1, pass =>
    if pass.ctx.txoff then (pass, false)
    else
      match dhdWlfcBorrowCredit pass.ctx.credits acCount ac true with
      | (_, none) => (pass, false)
      | (credits, some lender) =>
        match dhdWlfcDequeDelayedq (pass.ctx.setCredits credits) ac false with
        | (ctx, none) => ({ pass with ctx := returnLender ctx (some lender) ac }, false)
        | (ctx, some info) =>
          let committed := commitDequeued pass input ac (some lender) ctx info
          if committed.2 then committed else borrowAllLoop input ac fuel committed.1

/-- The packets of one access category in all power-save queues. -/
def queuedPackets (ctx : Ctx) (ac : Nat) : Nat :=
  ((List.range entryCount).map fun e =>
    ((ctx.entries e).psq (psqDlyIdx ac)).length + ((ctx.entries e).psq (psqSupIdx ac)).length).sum

/-- The maps of a pass: bit `ac` is set for an access category with packets to send,
with packets received lately, with packets left in the queues. -/
structure PassMaps where
  txMap : Nat
  rxMap : Nat
  packetsMap : Nat
  singleAc : Nat
  deriving DecidableEq

def rxSeen (ctx : Ctx) (input : PassInput) (ac : Nat) : Bool :=
  ctx.rxpktChk ∧ input.rxUptime ac - ctx.rxTimestamp ac < wlfcRxDetectionThresholdMs

/-- `map` with bit `ac` set, if so. -/
def setBitIf (map ac : Nat) (so : Bool) : Nat := if so then map ||| 2 ^ ac else map

/-- The loop over the access categories, the highest first. -/
def transferAcs (input : PassInput) : List Nat → Pass → PassMaps → (Pass × PassMaps) × Bool
  | [], pass, maps => ((pass, maps), false)
  | ac :: rest, pass, maps =>
    let rxMap := setBitIf maps.rxMap ac (rxSeen pass.ctx input ac)
    if pass.ctx.pktCntPerAc ac = 0 then transferAcs input rest pass { maps with rxMap := rxMap }
    else
      let txMap := setBitIf maps.txMap ac true
      let looped := transferLoop input ac txMap rxMap (queuedPackets pass.ctx ac + 1) pass
      if looped.2 then ((looped.1, ⟨txMap, rxMap, maps.packetsMap, ac + 1⟩), true)
      else
        let packetsMap := setBitIf maps.packetsMap ac (looped.1.ctx.pktCntPerAc ac ≠ 0)
        transferAcs input rest looped.1 ⟨txMap, rxMap, packetsMap, ac + 1⟩

/-- Whether the only busy access category may borrow everything by now, and the
record of how long it has been the only one. -/
def singleAcCheck (ctx : Ctx) (input : PassInput) (maps : PassMaps) : Ctx × Bool :=
  if maps.txMap &&& (maps.txMap - 1) = 0 ∧ maps.txMap ≥ maps.rxMap then
    if maps.singleAc = ctx.singleAc ∧ ctx.allowCreditBorrow then (ctx, true)
    else if maps.singleAc ≠ ctx.singleAc then
      ({ ctx with
        allowCreditBorrow := false, singleAcTimestamp := input.borrowUptime
        singleAc := maps.singleAc }, false)
    else if input.borrowUptime - ctx.singleAcTimestamp ≥ wlfcBorrowDeferPeriodMs then
      ({ ctx with allowCreditBorrow := true }, true)
    else (ctx, false)
  else
    ({ ctx with allowCreditBorrow := false, singleAcTimestamp := 0, singleAc := 0 }, false)

def dhdWlfcTransferPackets (ctx : Ctx) (input : PassInput) : Pass :=
  let acs := (List.range (acCount + 1)).reverse
  let sent := transferAcs input acs ⟨ctx, 0, 0, [], true⟩ ⟨0, 0, 0, 0⟩
  let pass := sent.1.1
  let maps := sent.1.2
  if sent.2 ∨ maps.txMap = 0 ∨ pass.ctx.creditIgnore then pass
  else
    let single := singleAcCheck pass.ctx input maps
    let checked := { pass with ctx := single.1 }
    if single.2 ∧ maps.packetsMap ≠ 0 then
      let ac := maps.singleAc - 1
      (borrowAllLoop input ac (queuedPackets single.1 ac + 1) checked).1
    else checked

end BcmDhd.Wlfc
