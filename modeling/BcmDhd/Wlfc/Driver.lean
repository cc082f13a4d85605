import BcmDhd.Lib.Machine
import BcmDhd.Wlfc.TxStatus

/-! Flow control as the stack, the bus and the dongle see it: the calls that they make, one
after the other under the lock, in any order. -/

namespace BcmDhd.Wlfc

open BcmDhd.Lib

/-- The switches of `dhd_pub` and the bus, and what the receive path notes. -/
structure Switches where
  proptxstatusMode : FcMode
  txoff : Bool
  creditIgnore : Bool
  txstatusIgnore : Bool
  rxpktChk : Bool
  bcmcCreditSupported : Bool
  rxTimestamp : Nat → UInt32

def Ctx.switch (ctx : Ctx) (switches : Switches) : Ctx :=
  { ctx with
    proptxstatusMode := switches.proptxstatusMode
    txoff := switches.txoff
    creditIgnore := switches.creditIgnore
    txstatusIgnore := switches.txstatusIgnore
    rxpktChk := switches.rxpktChk
    bcmcCreditSupported := switches.bcmcCreditSupported
    rxTimestamp := switches.rxTimestamp }

/-- The bus takes a packet out of its queue. -/
def busTake (ctx : Ctx) (p : Nat) : Ctx :=
  { ctx with txq := ctx.txq.erase p, flying := p :: ctx.flying }

inductive DriverCall
  | commitPackets (p : Nat) (pkt : Pkt)
  | transfer (input : PassInput)
  | take (p : Nat)
  | txcomplete (p : Nat) (success : Bool)
  | txstatus (status : TxStatus) (len : Nat)
  | creditback (back : Nat → UInt8)
  | creditmap (map : Nat → UInt8)
  | macTable (macHandle : UInt8) (ifid : Nat) (ea : List UInt8) (isAdd : Bool)
  | interfaceEntry (action : EntryAction) (ifid iftype : Nat) (ea : Option (List UInt8))
  | interface (ifid : Nat) (opens : Bool)
  | psmode (macHandle : UInt8) (opens : Bool)
  | requestCredit (credit macHandle acBitmap : UInt8)
  | requestPacket (packetCount macHandle acBitmap : UInt8)
  | cleanup (fn : FlushFn)
  | cleanupTxq (fn : FlushFn)
  | switch (switches : Switches)

def driverStep (ctx : Ctx) : DriverCall → Ctx
  | .commitPackets p pkt => dhdWlfcCommitPackets ctx p pkt
  | .transfer input => (dhdWlfcTransferPackets ctx input).ctx
  | .take p => busTake ctx p
  | .txcomplete p success => dhdWlfcTxcomplete ctx p success
  | .txstatus status len => indicateTxstatus ctx status len
  | .creditback back =>
    ctx.setCredits (dhdWlfcFifocreditbackIndicate ctx.proptxstatusMode ctx.credits back)
  | .creditmap map => ctx.setCredits (dhdWlfcFIFOcreditmapUpdate ctx.credits map)
  | .macTable macHandle ifid ea isAdd => dhdWlfcMacTableUpdate ctx macHandle ifid ea isAdd
  | .interfaceEntry action ifid iftype ea => dhdWlfcInterfaceEntryUpdate ctx action ifid iftype ea
  | .interface ifid opens => dhdWlfcInterfaceUpdate ctx ifid opens
  | .psmode macHandle opens => dhdWlfcPsmodeUpdate ctx macHandle opens
  | .requestCredit credit macHandle acBitmap => dhdWlfcCreditRequest ctx credit macHandle acBitmap
  | .requestPacket packetCount macHandle acBitmap =>
    dhdWlfcPacketRequest ctx packetCount macHandle acBitmap
  | .cleanup fn => dhdWlfcCleanup ctx fn
  | .cleanupTxq fn => dhdWlfcCleanupTxq ctx fn
  | .switch switches => ctx.switch switches

/-- The packet of a slot is with the dongle or the bus, and no queue of the host has it. -/
structure WithDongle (ctx : Ctx) (slot p : Nat) : Prop where
  inside : slot < wlfcHangerMaxitems
  hslot : (ctx.pkts p).h2dtag.hslot = slot
  held : p ∈ ctx.held
  psq : ∀ e < entryCount, ∀ prec < wlfcPsqPrecCount, p ∉ (ctx.entries e).psq prec
  afq : ∀ e < entryCount, ∀ prec < wlfcAfqPrecCount, p ∉ (ctx.entries e).afq prec
  txq : p ∉ ctx.txq

instance (ctx : Ctx) (slot p : Nat) : Decidable (WithDongle ctx slot p) :=
  decidable_of_iff (slot < wlfcHangerMaxitems ∧ (ctx.pkts p).h2dtag.hslot = slot ∧ p ∈ ctx.held ∧
    (∀ e < entryCount, ∀ prec < wlfcPsqPrecCount, p ∉ (ctx.entries e).psq prec) ∧
    (∀ e < entryCount, ∀ prec < wlfcAfqPrecCount, p ∉ (ctx.entries e).afq prec) ∧ p ∉ ctx.txq)
    ⟨fun all => ⟨all.1, all.2.1, all.2.2.1, all.2.2.2.1, all.2.2.2.2.1, all.2.2.2.2.2⟩,
      fun all => ⟨all.inside, all.hslot, all.held, all.psq, all.afq, all.txq⟩⟩

/-- Something holds before every round of a status. -/
def EveryRound (holds : Ctx → StatusCursor → Prop) (status : TxStatus) :
    Nat → Ctx × StatusCursor → Prop
  | 0, _ => True
  | left + 1, at_ =>
    holds at_.1 at_.2 ∧ EveryRound holds status left (statusRound at_.1 status at_.2)

instance decidableEveryRound {holds : Ctx → StatusCursor → Prop}
    [decided : ∀ ctx cursor, Decidable (holds ctx cursor)] (status : TxStatus) :
    (left : Nat) → (at_ : Ctx × StatusCursor) → Decidable (EveryRound holds status left at_)
  | 0, _ => .isTrue trivial
  | left + 1, at_ =>
    @instDecidableAnd _ _ (decided at_.1 at_.2)
      (decidableEveryRound status left (statusRound at_.1 status at_.2))

/-- The statuses that are not ignored. -/
def EachStatus (holds : Ctx → StatusCursor → Prop) (ctx : Ctx) (status : TxStatus) (len : Nat) : Prop :=
  ctx.txstatusIgnore = false → EveryRound holds status len (ctx, status.cursor)

instance {holds : Ctx → StatusCursor → Prop} [∀ ctx cursor, Decidable (holds ctx cursor)] (ctx : Ctx)
    (status : TxStatus) (len : Nat) : Decidable (EachStatus holds ctx status len) :=
  inferInstanceAs (Decidable (_ → _))

/-- The dongle reports on the packet of a slot that it has, once. A packet that it suppressed
before it may acknowledge. -/
structure Reported (status : TxStatus) (ctx : Ctx) (cursor : StatusCursor) : Prop where
  has : ctx.mode.afq = false → ∀ p ∈ (ctx.hanger.items cursor.hslot).pkt,
    WithDongle ctx cursor.hslot p ∨ status.flags = wlfcCtlPktflagSuppressAcked ∧
      (ctx.hanger.items cursor.hslot).state = .inuseSuppressed
  once : ctx.mode.afq = false → suppressFlag status.flags = true →
    (ctx.hanger.items cursor.hslot).state ≠ .flushed → (ctx.hanger.items cursor.hslot).pkt ≠ none →
    (ctx.hanger.items cursor.hslot).txstatus = false

instance (status : TxStatus) (ctx : Ctx) (cursor : StatusCursor) :
    Decidable (Reported status ctx cursor) :=
  decidable_of_iff ((ctx.mode.afq = false → ∀ p ∈ (ctx.hanger.items cursor.hslot).pkt,
      WithDongle ctx cursor.hslot p ∨ status.flags = wlfcCtlPktflagSuppressAcked ∧
        (ctx.hanger.items cursor.hslot).state = .inuseSuppressed) ∧
    (ctx.mode.afq = false → suppressFlag status.flags = true →
      (ctx.hanger.items cursor.hslot).state ≠ .flushed → (ctx.hanger.items cursor.hslot).pkt ≠ none →
      (ctx.hanger.items cursor.hslot).txstatus = false))
    ⟨fun all => ⟨all.1, all.2⟩, fun all => ⟨all.has, all.once⟩⟩

/-- What the others do: the stack hands over packets that the driver does not have, for one of
the interfaces, the bus completes what it took, the dongle reports on what it was sent. -/
def driver : Machine Ctx DriverCall Unit where
  step ctx call := (driverStep ctx call, ())
  admits ctx
    | .commitPackets p pkt =>
      p ∉ ctx.held ∧ pkt.ifidx < wlfcMaxIfnum ∧ pkt.fifo ≤ acCount ∧ pkt.entry = none
    | .take p => p ∈ ctx.txq
    | .txcomplete p _ => p ∈ ctx.flying
    | .txstatus status len => EachStatus (Reported status) ctx status len
    | _ => True

instance (ctx : Ctx) (call : DriverCall) : Decidable (driver.admits ctx call) :=
  match call with
  | .commitPackets p pkt => inferInstanceAs (Decidable (p ∉ ctx.held ∧ pkt.ifidx < wlfcMaxIfnum ∧
      pkt.fifo ≤ acCount ∧ pkt.entry = none))
  | .take p => inferInstanceAs (Decidable (p ∈ ctx.txq))
  | .txcomplete p _ => inferInstanceAs (Decidable (p ∈ ctx.flying))
  | .txstatus status len => inferInstanceAs (Decidable (EachStatus (Reported status) ctx status len))
  | .transfer _ | .creditback _ | .creditmap _ | .macTable .. | .interfaceEntry .. | .interface ..
  | .psmode .. | .requestCredit .. | .requestPacket .. | .cleanup _ | .cleanupTxq _ | .switch _ =>
    .isTrue trivial

/-- Nothing is in the memory of packets yet. -/
def driverStart (mode : WlfcMode) : Ctx := dhdWlfcEnable mode fun _ => freshPkt 0 0 [] []

end BcmDhd.Wlfc
