import BcmDhd.Wlfc.Transfer

/-! Flushing: packets that leave the driver because their destination or their
interface goes away. -/

namespace BcmDhd.Wlfc

def wlfcAfqPrecCount : Nat := acCount + 1

/-- The highest lender gets the credit, or else the FIFO itself. -/
def dhdWlfcReturnImpliedCredit (ctx : Ctx) (p : Nat) : Ctx :=
  let fifo := (ctx.pkts p).fifo
  if ctx.proptxstatusMode = .impliedCredit ∧ (ctx.pkts p).creditcheck then
    match (List.range (acCount + 1)).reverse.find? fun lender =>
      ctx.credits.creditsBorrowed fifo lender > 0 with
    | some lender => ctx.setCredits (ctx.credits.move (-1) fifo lender)
    | none => ctx.setCredits (ctx.credits.add 1 fifo)
  else ctx

/-- The packet goes back to the stack once both its status and its bus completion
are in. -/
def dhdWlfcHangerFreePkt (ctx : Ctx) (slot : Nat) (txstatus busreturned : Bool) : Ctx :=
  let item := ctx.hanger.items slot
  if slot = wlfcHangerMaxitems then ctx
  else
    match item.pkt with
    | none => ctx.setItem slot { item with state := .free }
    | some _ =>
      let noted := { item with
        txstatus := item.txstatus || txstatus, busreturned := item.busreturned || busreturned }
      let marked := ctx.setItem slot noted
      if noted.txstatus ∧ noted.busreturned then
        match dhdWlfcHangerPoppkt marked slot true with
        | (popped, some p) =>
          (popped.countInDrv (-1) (ctx.pkts p).ifidx (ctx.pkts p).fifo).txcomplete p
        | (popped, none) => popped
      else marked

/-- `fn` and `arg` of a clean-up: all packets, those of an interface, those of an entry. -/
inductive FlushFn
  | all
  | ifpkt (ifid : Nat)
  | entrypkt (e : Nat)
  deriving DecidableEq

def FlushFn.takes (fn : FlushFn) (pkt : Pkt) : Bool :=
  match fn with
  | .all => true
  | .ifpkt ifid => pkt.wlfcpkt ∧ ifid = pkt.ifidx
  | .entrypkt e => pkt.wlfcpkt ∧ pkt.entry = some e

/-- A packet is no more with the dongle. -/
def landed (entry : MacDescriptor) : MacDescriptor :=
  { entry with
    transitCount := entry.transitCount - 1
    supprTransitCount := entry.supprTransitCount - 1
    suppressed := entry.suppressed && !(decide (entry.supprTransitCount = 1) &&
      decide (entry.onbusPktsCount = 0)) }

def flushPsqPkt (prec : Nat) (ctx : Ctx) (p : Nat) : Ctx :=
  let unhung :=
    if ¬ ctx.mode.afq ∧ prec % 2 = 1 then dhdWlfcHangerRemoveReference ctx p else ctx
  ((unhung.countQueued (-1) p (prec / 2)).countInDrv (-1) (ctx.pkts p).ifidx (prec / 2)).txcomplete p

/-- The counter is that of half the precedence here too. -/
def flushAfqPkt (prec : Nat) (ctx : Ctx) (p : Nat) : Ctx :=
  let found := dhdWlfcFindTableEntry ctx p
  let back := found.1.setEntry found.2 (landed (found.1.entries found.2))
  ((dhdWlfcReturnImpliedCredit back p).countInDrv (-1) (ctx.pkts p).ifidx (prec / 2)).txcomplete p

/-- The list is the queue until a packet is put behind it: where the last packet goes and another
stays, `q->tail` is left at the freed one. -/
def flushPsqPrec (fn : FlushFn) (e : Nat) (ctx : Ctx) (prec : Nat) : Ctx :=
  let packets := (ctx.entries e).psq prec
  let kept := ctx.setPsq e prec (packets.filter fun p => ¬ fn.takes (ctx.pkts p))
  (packets.filter fun p => fn.takes (ctx.pkts p)).foldl (flushPsqPkt prec) kept

/-- The tail is left behind here as well. -/
def flushAfqPrec (fn : FlushFn) (e : Nat) (ctx : Ctx) (prec : Nat) : Ctx :=
  let packets := (ctx.entries e).afq prec
  let kept := ctx.setAfq e prec (packets.filter fun p => ¬ fn.takes (ctx.pkts p))
  (packets.filter fun p => fn.takes (ctx.pkts p)).foldl (flushAfqPkt prec) kept

/-- `_dhd_wlfc_pktq_flush` on a power-save queue, and on an at-firmware queue. -/
def dhdWlfcPsqFlush (ctx : Ctx) (e : Nat) (fn : FlushFn) : Ctx :=
  (List.range wlfcPsqPrecCount).foldl (flushPsqPrec fn e) ctx

def dhdWlfcAfqFlush (ctx : Ctx) (e : Nat) (fn : FlushFn) : Ctx :=
  (List.range wlfcAfqPrecCount).foldl (flushAfqPrec fn e) ctx

def cleanupTxqPkt (ctx : Ctx) (p : Nat) : Ctx :=
  let found := dhdWlfcFindTableEntry ctx p
  let unhung := if found.1.mode.afq then found.1 else dhdWlfcHangerRemoveReference found.1 p
  let back := unhung.setEntry found.2 (landed (unhung.entries found.2))
  ((dhdWlfcReturnImpliedCredit back p).countInDrv (-1) (ctx.pkts p).ifidx
    (ctx.pkts p).fifo).txcomplete p

def dhdWlfcCleanupTxq (ctx : Ctx) (fn : FlushFn) : Ctx :=
  let kept := { ctx with txq := ctx.txq.filter fun p => ¬ fn.takes (ctx.pkts p) }
  (ctx.txq.filter fun p => fn.takes (ctx.pkts p)).foldl cleanupTxqPkt kept

def cleanupEntry (fn : FlushFn) (ctx : Ctx) (e : Nat) : Ctx :=
  if (ctx.entries e).occupied then
    let flushed := dhdWlfcPsqFlush ctx e fn
    let drained := if flushed.mode.afq then dhdWlfcAfqFlush flushed e fn else flushed
    if fn = .all ∧ e ≠ otherEntry then
      drained.setEntry e { drained.entries e with occupied := false }
    else drained
  else ctx

/-- What the dongle has stays in its slot until its status comes. -/
def flushedItem (ctx : Ctx) (fn : FlushFn) (slot : Nat) : HangerItem :=
  let item := ctx.hanger.items slot
  let taken := fn = .all ∨ item.pkt.any fun p => fn.takes (ctx.pkts p)
  if slot < wlfcHangerMaxitems ∧ (item.state = .inuse ∨ item.state = .inuseSuppressed) ∧ taken then
    { item with state := .flushed }
  else item

def flushHanger (ctx : Ctx) (fn : FlushFn) : Ctx :=
  { ctx with hanger := { ctx.hanger with items := flushedItem ctx fn } }

def dhdWlfcCleanup (ctx : Ctx) (fn : FlushFn) : Ctx :=
  let flushed := (List.range entryCount).foldl (cleanupEntry fn) (dhdWlfcCleanupTxq ctx fn)
  if flushed.mode.afq then flushed else flushHanger flushed fn

end BcmDhd.Wlfc
