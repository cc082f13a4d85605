import BcmDhd.Wlfc.Cleanup

namespace BcmDhd.Wlfc

/-- `_dhd_wlfc_mac_entry_update` with the action ADD, or UPDATE when `isAdd` is false. -/
def addedEntry (ctx : Ctx) (e : Nat) (isAdd : Bool) (ifid iftype : Nat) (ea : Option (List UInt8)) :
    MacDescriptor :=
  let entry := ctx.entries e
  let updated := { entry with
    occupied := true
    state := .opened
    requestedCredit := 0
    interfaceId := ifid
    iftype := iftype
    acBitmap := 0xff
    ea := ea.getD entry.ea }
  if isAdd then
    { updated with
      suppressed := false
      transitCount := 0
      supprTransitCount := 0
      onbusPktsCount := 0
      psq := fun _ => []
      afq := if ctx.mode.afq then fun _ => [] else entry.afq }
  else updated

def addMacEntry (ctx : Ctx) (e : Nat) (isAdd : Bool) (ifid iftype : Nat) (ea : Option (List UInt8)) :
    Ctx :=
  { ctx.setEntry e (addedEntry ctx e isAdd ifid iftype ea) with
    activeEntries :=
      if isAdd ∧ e ∉ ctx.activeEntries then ctx.activeEntries ++ [e] else ctx.activeEntries }

/-- The action DEL. The packets go before the entry does. -/
def delMacEntry (ctx : Ctx) (e : Nat) (fn : FlushFn) : Ctx :=
  let cleaned := dhdWlfcCleanup ctx fn
  { cleaned.setEntry e { cleaned.entries e with
      occupied := false, state := .closed, ea := List.replicate 6 0 } with
    activeEntries := cleaned.activeEntries.erase e }

/-- The last entry of the array takes the place of the removed one. -/
def dhdWlfcRemoveRequestedEntry (requested : List Nat) (e : Nat) : List Nat :=
  match requested.getLast? with
  | some last => if e ∈ requested then (requested.set (requested.idxOf e) last).dropLast else requested
  | none => requested

def dhdWlfcAddRequestedEntry (requested : List Nat) (e : Nat) : List Nat :=
  if e ∈ requested then requested else requested ++ [e]

/-- `WLFC_MAC_DESC_GET_LOOKUP_INDEX`. -/
def lookupIndex (macHandle : UInt8) : Nat := macHandle.toNat % 32

def dhdWlfcPsmodeUpdate (ctx : Ctx) (macHandle : UInt8) (opens : Bool) : Ctx :=
  let e := lookupIndex macHandle
  let desc := ctx.entries e
  if desc.occupied then
    if opens then
      { ctx.setEntry e { desc with
          state := .opened, acBitmap := 0xff, requestedCredit := 0, requestedPacket := 0 } with
        requestedEntries := dhdWlfcRemoveRequestedEntry ctx.requestedEntries e }
    else
      (List.range acCount).foldl (fun ctx prec => checkTraffic ctx e prec)
        (ctx.setEntry e { desc with state := .closed })
  else ctx

/-- The common course of `_dhd_wlfc_credit_request` and `_dhd_wlfc_packet_request`. -/
def noteRequest (ctx : Ctx) (macHandle acBitmap : UInt8) (set : MacDescriptor → MacDescriptor) : Ctx :=
  let e := lookupIndex macHandle
  if (ctx.entries e).occupied then
    { ctx.setEntry e { set (ctx.entries e) with
        acBitmap := acBitmap &&& ~~~(UInt8.ofNat (2 ^ acCount)) } with
      requestedEntries := dhdWlfcAddRequestedEntry ctx.requestedEntries e }
  else ctx

def dhdWlfcCreditRequest (ctx : Ctx) (credit macHandle acBitmap : UInt8) : Ctx :=
  noteRequest ctx macHandle acBitmap fun desc => { desc with requestedCredit := credit }

def dhdWlfcPacketRequest (ctx : Ctx) (packetCount macHandle acBitmap : UInt8) : Ctx :=
  noteRequest ctx macHandle acBitmap fun desc => { desc with requestedPacket := packetCount }

def findMacDesc (ctx : Ctx) (ea : List UInt8) : Option Nat :=
  (List.range wlfcMacDescTableSize).find? fun i =>
    (ctx.entries i).ea = ea ∧ (ctx.entries i).occupied

/-- An old entry of the same address makes room first. -/
def evictExisting (ctx : Ctx) (e : Nat) (ea : List UInt8) : Ctx :=
  match findMacDesc ctx ea with
  | some existing => if existing ≠ e then delMacEntry ctx existing (.entrypkt existing) else ctx
  | none => ctx

def dhdWlfcMacTableUpdate (ctx : Ctx) (macHandle : UInt8) (ifid : Nat) (ea : List UInt8)
    (isAdd : Bool) : Ctx :=
  let e := lookupIndex macHandle
  let removed := { ctx with
    requestedEntries := dhdWlfcRemoveRequestedEntry ctx.requestedEntries e }
  if isAdd then
    let evicted := evictExisting removed e ea
    if (evicted.entries e).occupied then evicted
    else
      addMacEntry (evicted.setEntry e { evicted.entries e with macHandle := macHandle }) e true ifid
        (evicted.entries (interfaceEntry ifid)).iftype (some ea)
  else if (removed.entries e).occupied then delMacEntry removed e (.entrypkt e)
  else removed

inductive EntryAction
  | add
  | del
  | update
  deriving DecidableEq

def dhdWlfcInterfaceEntryUpdate (ctx : Ctx) (action : EntryAction) (ifid iftype : Nat)
    (ea : Option (List UInt8)) : Ctx :=
  if ifid ≥ wlfcMaxIfnum then ctx
  else
    match action with
    | .add => addMacEntry ctx (interfaceEntry ifid) true ifid iftype ea
    | .update => addMacEntry ctx (interfaceEntry ifid) false ifid iftype ea
    | .del => delMacEntry ctx (interfaceEntry ifid) (.ifpkt ifid)

def dhdWlfcInterfaceUpdate (ctx : Ctx) (ifid : Nat) (opens : Bool) : Ctx :=
  let e := interfaceEntry ifid
  if ifid < wlfcMaxIfnum ∧ (ctx.entries e).occupied then
    ctx.setEntry e { ctx.entries e with state := if opens then .opened else .closed }
  else ctx

def zeroCredits : Credits := ⟨fun _ => 0, fun _ => 0, fun _ _ => 0⟩

/-- The state that `dhd_wlfc_enable` starts from, in an agreed mode, with the memory of
packets as it is. -/
def zeroedCtx (mode : WlfcMode) (pkts : Nat → Pkt) : Ctx where
  mode := mode
  proptxstatusMode := .explicitCredit
  txoff := false
  creditIgnore := false
  txstatusIgnore := false
  rxpktChk := true
  bcmcCreditSupported := false
  credits := zeroCredits
  hanger := dhdWlfcHangerCreate
  entries := fun _ => zeroedDescriptor
  activeEntries := []
  requestedEntries := []
  pktCntInQ := fun _ _ => 0
  pktCntPerAc := fun _ => 0
  pktCntInDrv := fun _ _ => 0
  pktCntInPsq := 0
  rxTimestamp := fun _ => 0
  allowCreditBorrow := false
  singleAc := 0
  singleAcTimestamp := 0
  pkts := pkts
  txq := []
  flying := []
  held := []

def dhdWlfcEnable (mode : WlfcMode) (pkts : Nat → Pkt) : Ctx :=
  addMacEntry (zeroedCtx mode pkts) otherEntry true 0xff 0 none

/-- A packet of the stack, with nothing in its tag yet but interface and FIFO. -/
def freshPkt (ifidx fifo : Nat) (dstn data : List UInt8) : Pkt where
  ifidx := ifidx
  fifo := fifo
  creditcheck := false
  onetimepktrqst := false
  wlfcpkt := false
  dstn := dstn
  h2dtag := ⟨0, 0, 0, 0, 0⟩
  h2dseq := ⟨0, 0, 0, 0⟩
  entry := none
  prio := 0
  sumNeeded := false
  frag := .none
  data := data

/-- `dhd_wlfc_commit_packets` for a packet that the stack hands over. The pass that may
follow is a step of its own. -/
def dhdWlfcCommitPackets (ctx : Ctx) (p : Nat) (pkt : Pkt) : Ctx :=
  let given := ctx.setPkt p { pkt with wlfcpkt := true }
  match dhdWlfcEnqueDelayq given p pkt.fifo with
  | (queued, rc) =>
    if rc ≠ bcmeOk then dhdWlfcPrecDrop queued (pkt.fifo * 2) p false
    else { queued.countInDrv 1 pkt.ifidx pkt.fifo with held := p :: queued.held }

end BcmDhd.Wlfc
