import BcmDhd.Wlfc.Destinations

namespace BcmDhd.Wlfc

open Function

def wlfcCtlPktflagDiscard : Nat := 0

def wlfcCtlPktflagD11suppress : Nat := 1

def wlfcCtlPktflagWlsuppress : Nat := 2

def wlfcCtlPktflagSuppressAcked : Nat := 5

/-- The fields of a status, and the d11 sequence that comes with it if sequences are reused. -/
structure TxStatus where
  flags : Nat
  hcnt : UInt8
  hslot : Nat
  fifo : Nat
  gen : Nat
  seq : H2dSeq
  deriving DecidableEq

def suppressFlag (flags : Nat) : Bool :=
  flags = wlfcCtlPktflagD11suppress ∨ flags = wlfcCtlPktflagWlsuppress

/-- The queue of suppressed packets that a slot number and a FIFO name. -/
def ackedQueue (ctx : Ctx) (hslot prec : Nat) : List Nat :=
  (ctx.entries (slotEntry hslot)).psq (psqSupIdx prec)

/-- A suppressed packet that was sent after all goes back to the packets at the dongle.
Two of the three counters of queued packets follow. -/
def dhdWlfcSuppressedAckedUpdate (ctx : Ctx) (hslot prec : Nat) (hcnt : UInt8) : Ctx :=
  let e := slotEntry hslot
  let packets := ackedQueue ctx hslot prec
  match packets.find? (counterMatches ctx.pkts hcnt) with
  | none => ctx
  | some p =>
    let i := (ctx.pkts p).ifidx
    let taken := ctx.setPsq e (psqSupIdx prec) (packets.eraseP (counterMatches ctx.pkts hcnt))
    let counted := { taken with
      pktCntInQ := update ctx.pktCntInQ i
        (update (ctx.pktCntInQ i) prec (ctx.pktCntInQ i prec - 1))
      pktCntPerAc := update ctx.pktCntPerAc prec (ctx.pktCntPerAc prec - 1) }
    let back :=
      if ctx.mode.afq then dhdWlfcEnqueAfq counted p else (dhdWlfcHangerPushpkt counted p hslot).1
    back.setEntry e { back.entries e with transitCount := (back.entries e).transitCount + 1 }

/-- A packet came back suppressed. Tells whether it is the first one of its entry. -/
def noteSuppressed (ctx : Ctx) (e gen : Nat) : Ctx × Bool :=
  let entry := ctx.entries e
  (ctx.setEntry e { entry with
    supprTransitCount := if entry.suppressed then entry.supprTransitCount else entry.transitCount
    suppressed := true
    generation := gen }, ¬ entry.suppressed)

/-- The credit that the packet was sent on. -/
def returnCreditOf (ctx : Ctx) (e p : Nat) : Ctx :=
  if (ctx.pkts p).creditcheck then dhdWlfcReturnImpliedCredit ctx p
  else if (ctx.pkts p).onetimepktrqst then ctx
  else
    ctx.setEntry e { ctx.entries e with requestedCredit := (ctx.entries e).requestedCredit + 1 }

/-- The generation, and the sequence if it is reused, are kept in the packet. -/
def suppressedPkt (mode : WlfcMode) (pkt : Pkt) (gen : Nat) (seq : H2dSeq) : Pkt :=
  { pkt with
    h2dtag := { pkt.h2dtag with generation := gen % 2 }
    h2dseq := if mode.reuseseq then { pkt.h2dseq with fromdrv := seq.fromfw, num := seq.num }
      else pkt.h2dseq }

def requeueSuppressed (ctx : Ctx) (p hslot gen : Nat) (seq : H2dSeq) : Ctx :=
  let fifo := (ctx.pkts p).fifo
  let tagged := ctx.setPkt p (suppressedPkt ctx.mode (ctx.pkts p) gen seq)
  match dhdWlfcEnqueSuppressed tagged fifo p with
  | (queued, rc) =>
    if rc ≠ bcmeOk then dhdWlfcPrecDrop queued (psqSupIdx fifo) p false
    else if ctx.mode.afq then queued else dhdWlfcHangerMarkSuppressed queued hslot gen

def finishPkt (ctx : Ctx) (p hslot : Nat) : Ctx :=
  if ctx.mode.afq then
    (ctx.txcomplete p).countInDrv (-1) (ctx.pkts p).ifidx (ctx.pkts p).fifo
  else dhdWlfcHangerFreePkt ctx hslot true false

/-- The packet of a status is back from the dongle. -/
def settleStatus (ctx : Ctx) (p hslot flags gen : Nat) (seq : H2dSeq) : Ctx × Option Nat :=
  let found := dhdWlfcFindTableEntry ctx p
  let e := found.2
  let suppressed := suppressFlag flags
  let noted := if suppressed then noteSuppressed found.1 e gen else (found.1, false)
  let credited := returnCreditOf noted.1 e p
  let settled :=
    if suppressed then requeueSuppressed credited p hslot gen seq else finishPkt credited p hslot
  (settled.setEntry e (landed (settled.entries e)), if noted.2 then some e else none)

/-- Where the loop over a compressed status is. `flags` is what the round before left,
`mac` the last entry that a first suppressed packet was found of. -/
structure StatusCursor where
  flags : Nat
  hcnt : UInt8
  hslot : Nat
  fifo : Nat
  num : Nat
  mac : Option Nat
  deriving DecidableEq

def StatusCursor.advance (cursor : StatusCursor) (mode : WlfcMode) (seq : H2dSeq) : StatusCursor :=
  { cursor with
    hcnt := cursor.hcnt + 1
    hslot := if mode.afq then cursor.hslot else (cursor.hslot + 1) % 2 ^ 16
    num := if mode.reuseseq ∧ seq.fromfw ≠ 0 then (cursor.num + 1) % 2 ^ 12 else cursor.num }

/-- The packet that a status is about, and the flags that it counts with. The status of a
flushed packet is as good as a discard. -/
def statusPkt (ctx : Ctx) (status : TxStatus) (cursor : StatusCursor) : Ctx × Option (Nat × Nat) :=
  if ctx.mode.afq then
    match dhdWlfcDequeAfq ctx cursor.hslot cursor.hcnt cursor.fifo with
    | (taken, some p) => (taken, some (p, status.flags))
    | (taken, none) => (taken, none)
  else
    match (dhdWlfcHangerPoppkt ctx cursor.hslot false).2 with
    | some p =>
      (ctx, some (p, if (ctx.hanger.items cursor.hslot).state = .flushed then wlfcCtlPktflagDiscard
        else status.flags))
    | none => (dhdWlfcHangerFreePkt ctx cursor.hslot true false, none)

def ackSuppressed (ctx : Ctx) (cursor : StatusCursor) : Ctx :=
  if cursor.flags = wlfcCtlPktflagSuppressAcked then
    dhdWlfcSuppressedAckedUpdate ctx cursor.hslot cursor.fifo cursor.hcnt
  else ctx

/-- One round of the loop. -/
def statusRound (ctx : Ctx) (status : TxStatus) (cursor : StatusCursor) : Ctx × StatusCursor :=
  match statusPkt (ackSuppressed ctx cursor) status cursor with
  | (taken, none) => (taken, { cursor with flags := status.flags }.advance ctx.mode status.seq)
  | (taken, some (p, flags)) =>
    let settled := settleStatus taken p cursor.hslot flags status.gen
      { status.seq with num := cursor.num }
    let seen := { cursor with
      flags := flags, fifo := (taken.pkts p).fifo, mac := settled.2.or cursor.mac }
    (settled.1, seen.advance ctx.mode status.seq)

def statusRounds (status : TxStatus) : Nat → Ctx × StatusCursor → Ctx × StatusCursor
  | 0, at_ => at_
  | left + 1, at_ => statusRounds status left (statusRound at_.1 status at_.2)

def TxStatus.cursor (status : TxStatus) : StatusCursor :=
  ⟨status.flags, status.hcnt, status.hslot, status.fifo, status.seq.num, none⟩

/-- Also returns the entry that was reported through `p_mac`. -/
def dhdWlfcCompressedTxstatusUpdate (ctx : Ctx) (status : TxStatus) (len : Nat) : Ctx × Option Nat :=
  if ctx.txstatusIgnore then (ctx, none)
  else
    let done := statusRounds status len (ctx, status.cursor)
    (done.1, done.2.mac)

/-- One packet less is on the bus. -/
def offBus (entry : MacDescriptor) : MacDescriptor :=
  { entry with
    onbusPktsCount := entry.onbusPktsCount - 1
    suppressed := entry.suppressed && !(decide (entry.onbusPktsCount - 1 = 0) &&
      decide (entry.supprTransitCount = 0)) }

/-- The status that the driver makes up for a packet in the queue of the bus. -/
def fakedStatus (pkt : Pkt) (generation : Nat) : TxStatus where
  flags := wlfcCtlPktflagWlsuppress
  hcnt := pkt.h2dtag.freerunctr
  hslot := pkt.h2dtag.hslot
  fifo := pkt.h2dtag.fifo
  gen := generation % 2
  seq := if pkt.h2dseq.fromdrv ≠ 0 then { pkt.h2dseq with fromfw := 1, fromdrv := 0 } else pkt.h2dseq

def suppressTxqPkt (ctx : Ctx) (p : Nat) : Ctx :=
  let found := dhdWlfcFindTableEntry ctx p
  let e := found.2
  let off := found.1.setEntry e (offBus (found.1.entries e))
  let status := fakedStatus (ctx.pkts p) (off.entries e).generation
  let sent := if ctx.mode.afq then dhdWlfcEnqueAfq off p else off
  (dhdWlfcCompressedTxstatusUpdate sent status 1).1

/-- The credits of the packets that were charged to one. -/
def fakedCredits (ctx : Ctx) (packets : List Nat) (fifo : Nat) : UInt8 :=
  UInt8.ofNat (packets.countP fun p => (ctx.pkts p).creditcheck ∧ (ctx.pkts p).fifo = fifo)

/-- The packets of an entry come back from the queue of the bus as if suppressed. -/
def dhdWlfcSuppressTxq (ctx : Ctx) (fn : FlushFn) : Ctx :=
  let packets := ctx.txq.filter fun p => fn.takes (ctx.pkts p)
  let kept := { ctx with txq := ctx.txq.filter fun p => ¬ fn.takes (ctx.pkts p) }
  let done := packets.foldl suppressTxqPkt kept
  if packets.any fun p => (done.pkts p).creditcheck then
    done.setCredits (dhdWlfcFifocreditbackIndicate done.proptxstatusMode done.credits
      (fakedCredits done packets))
  else done

/-- A status TLV, with `len` packets in it if it is a compressed one. -/
def indicateTxstatus (ctx : Ctx) (status : TxStatus) (len : Nat) : Ctx :=
  match dhdWlfcCompressedTxstatusUpdate ctx status len with
  | (updated, some e) =>
    if updated.mode.reordersupp then dhdWlfcSuppressTxq updated (.entrypkt e) else updated
  | (updated, none) => updated

/-- The bus could not send the packet, or no status of it is expected. -/
def completeFailed (ctx : Ctx) (e p : Nat) : Ctx :=
  let popped :=
    if ctx.mode.afq then ctx else (dhdWlfcHangerPoppkt ctx (ctx.pkts p).h2dtag.hslot true).1
  let returned := dhdWlfcReturnImpliedCredit (popped.txcomplete p) p
  let entry := returned.entries e
  (returned.setEntry e { entry with
    transitCount := entry.transitCount - 1
    supprTransitCount := entry.supprTransitCount - 1 }).countInDrv (-1) (ctx.pkts p).ifidx
      (ctx.pkts p).fifo

def dhdWlfcTxcomplete (ctx : Ctx) (p : Nat) (success : Bool) : Ctx :=
  let found := dhdWlfcFindTableEntry { ctx with flying := ctx.flying.erase p } p
  let e := found.2
  let completed :=
    if ¬ success ∨ ctx.txstatusIgnore then completeFailed found.1 e p
    else if ctx.mode.afq then dhdWlfcEnqueAfq found.1 p
    else dhdWlfcHangerFreePkt found.1 (ctx.pkts p).h2dtag.hslot false true
  completed.setEntry e (offBus (completed.entries e))

end BcmDhd.Wlfc
