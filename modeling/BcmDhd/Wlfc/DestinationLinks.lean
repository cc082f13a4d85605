import BcmDhd.Lib.Machine
import BcmDhd.Wlfc.Destinations

/-! The pointers behind the lists of active and of requested entries: the links between
descriptors, and the array of those that asked for packets. -/

namespace BcmDhd.Wlfc

open BcmDhd.Lib Function

/-- `next` and `prev` are fields of the descriptors. -/
structure Links where
  activeEntryHead : Option Nat
  next : Nat → Option Nat
  prev : Nat → Option Nat
  activeEntryCount : Nat
  requestedEntry : Nat → Option Nat
  requestedEntryCount : Nat

namespace Links

/-- ADD links an entry that is not linked, behind the last one. There is no result where an
assertion fails or NULL is followed. -/
def link (links : Links) (e : Nat) : Option Links :=
  match links.next e, links.activeEntryHead with
  | some _, _ => some links
  | none, some head =>
    (links.prev head).map fun last =>
      { links with
        next := update (update links.next last (some e)) e (some head)
        prev := update (update links.prev e (some last)) head (some e)
        activeEntryCount := links.activeEntryCount + 1 }
  | none, none =>
    if links.activeEntryCount = 0 then
      some { links with
        activeEntryHead := some e
        next := update links.next e (some e)
        prev := update links.prev e (some e)
        activeEntryCount := links.activeEntryCount + 1 }
    else none

/-- What DEL does to the links. -/
def unlink (links : Links) (e : Nat) : Option Links :=
  match links.next e with
  | none => some links
  | some after =>
    if links.activeEntryCount ≤ 1 then
      some { links with
        activeEntryHead := none
        next := update links.next e none
        prev := update links.prev e none
        activeEntryCount := 0 }
    else
      (links.prev e).map fun before =>
        { links with
          activeEntryHead :=
            if links.activeEntryHead = some e then some after else links.activeEntryHead
          next := update (update links.next before (some after)) e none
          prev := update (update links.prev after (some before)) e none
          activeEntryCount := links.activeEntryCount - 1 }

/-- The head moves on. -/
def moveHead (links : Links) (e : Nat) : Links := { links with activeEntryHead := links.next e }

/-- Where the loops over the requested entries stop, looking for one. -/
def requestedIndex (links : Links) (e : Nat) : Nat :=
  (List.range links.requestedEntryCount).findIdx fun i => links.requestedEntry i = some e

def addRequestedEntry (links : Links) (e : Nat) : Option Links :=
  if links.requestedIndex e = links.requestedEntryCount then
    if links.requestedEntryCount ≤ wlfcMacDescTableSize - 1 then
      some { links with
        requestedEntry :=
          update links.requestedEntry links.requestedEntryCount (some e)
        requestedEntryCount := links.requestedEntryCount + 1 }
    else none
  else some links

/-- The assertion in it is that the count is not 0, which has just been compared with. -/
def removeRequestedEntry (links : Links) (e : Nat) : Links :=
  let i := links.requestedIndex e
  if i < links.requestedEntryCount then
    let last := links.requestedEntryCount - 1
    let moved :=
      if i ≠ last then update links.requestedEntry i (links.requestedEntry last)
      else links.requestedEntry
    { links with
      requestedEntry := update moved last none
      requestedEntryCount := last }
  else links

/-- Another entry of the same address is unlinked first. -/
def evictExisting (links : Links) (ctx : Ctx) (e : Nat) (ea : List UInt8) : Option Links :=
  match findMacDesc ctx ea with
  | some existing => if existing ≠ e then links.unlink existing else some links
  | none => some links

/-- `_dhd_wlfc_mac_table_update`. -/
def macTableUpdate (links : Links) (ctx : Ctx) (macHandle : UInt8) (ea : List UInt8) (isAdd : Bool) :
    Option Links :=
  let e := lookupIndex macHandle
  let removed := links.removeRequestedEntry e
  let before := { ctx with
    requestedEntries := dhdWlfcRemoveRequestedEntry ctx.requestedEntries e }
  if isAdd then
    let evicted := removed.evictExisting before e ea
    if ((Wlfc.evictExisting before e ea).entries e).occupied then evicted
    else evicted.bind fun evicted => evicted.link e
  else if (before.entries e).occupied then removed.unlink e
  else some removed

/-- `_dhd_wlfc_interface_entry_update`. -/
def interfaceEntryUpdate (links : Links) (action : EntryAction) (ifid : Nat) : Option Links :=
  if ifid ≥ wlfcMaxIfnum then some links
  else
    match action with
    | .add => links.link (interfaceEntry ifid)
    | .update => some links
    | .del => links.unlink (interfaceEntry ifid)

def psmodeUpdate (links : Links) (ctx : Ctx) (macHandle : UInt8) (opens : Bool) : Links :=
  let e := lookupIndex macHandle
  if (ctx.entries e).occupied ∧ opens then links.removeRequestedEntry e else links

/-- The two requests. -/
def noteRequest (links : Links) (ctx : Ctx) (macHandle : UInt8) : Option Links :=
  let e := lookupIndex macHandle
  if (ctx.entries e).occupied then links.addRequestedEntry e else some links

end Links

/-- A search so far: the links, the entries that were looked at, and what was found. -/
structure Search where
  links : Links
  visited : List Nat
  found : Option (Ctx × CommitInfo)

def Search.lookedAt (search : Search) (e : Nat) : Search :=
  { search with visited := e :: search.visited }

/-- The loop of `_dhd_wlfc_deque_delayedq` over the active entries. -/
def searchActive (ctx : Ctx) (prec : Nat) : Nat → Links → Option Search
  | 0, links => some ⟨links, [], none⟩
  | left + 1, links =>
    match links.activeEntryHead with
    | none => none
    | some e =>
      match dequeFrom ctx prec e with
      | some found => some ⟨links.moveHead e, [e], some found⟩
      | none => (searchActive ctx prec left (links.moveHead e)).map fun search => search.lookedAt e

/-- And over those that asked for packets, by their indices. -/
def searchRequested (ctx : Ctx) (prec : Nat) (links : Links) : List Nat → Option Search
  | [] => some ⟨links, [], none⟩
  | i :: rest =>
    match links.requestedEntry i with
    | none => none
    | some e =>
      match dequeFrom ctx prec e with
      | some found => some ⟨links, [e], some found⟩
      | none => (searchRequested ctx prec links rest).map fun search => search.lookedAt e

def searchDelayedq (ctx : Ctx) (links : Links) (prec : Nat) (onlyNoCredit : Bool) : Option Search :=
  if onlyNoCredit then searchRequested ctx prec links (List.range links.requestedEntryCount)
  else searchActive ctx prec links.activeEntryCount links

/-- The state of the driver with the pointers. -/
structure Destinations where
  ctx : Ctx
  links : Links

/-- What the links hear of. Between these calls the driver does anything else to packets,
credits and destinations, and leaves the two lists alone. -/
inductive DestinationCall
  | macTable (macHandle : UInt8) (ifid : Nat) (ea : List UInt8) (isAdd : Bool)
  | interfaceEntry (action : EntryAction) (ifid iftype : Nat) (ea : Option (List UInt8))
  | interface (ifid : Nat) (opens : Bool)
  | psmode (macHandle : UInt8) (opens : Bool)
  | requestCredit (credit macHandle acBitmap : UInt8)
  | requestPacket (packetCount macHandle acBitmap : UInt8)
  | deque (prec : Nat) (onlyNoCredit : Bool)
  | cleanup (fn : FlushFn)
  | others (after : Ctx)

def ctxAfter (ctx : Ctx) : DestinationCall → Ctx
  | .macTable macHandle ifid ea isAdd => dhdWlfcMacTableUpdate ctx macHandle ifid ea isAdd
  | .interfaceEntry action ifid iftype ea => dhdWlfcInterfaceEntryUpdate ctx action ifid iftype ea
  | .interface ifid opens => dhdWlfcInterfaceUpdate ctx ifid opens
  | .psmode macHandle opens => dhdWlfcPsmodeUpdate ctx macHandle opens
  | .requestCredit credit macHandle acBitmap => dhdWlfcCreditRequest ctx credit macHandle acBitmap
  | .requestPacket packetCount macHandle acBitmap =>
    dhdWlfcPacketRequest ctx packetCount macHandle acBitmap
  | .deque prec onlyNoCredit => (dhdWlfcDequeDelayedq ctx prec onlyNoCredit).1
  | .cleanup fn => dhdWlfcCleanup ctx fn
  | .others after =>
    { after with
      activeEntries := ctx.activeEntries
      requestedEntries := ctx.requestedEntries }

/-- What a call does to the links. Only a dequeue looks at entries on the way. -/
def searchAfter (ctx : Ctx) (links : Links) : DestinationCall → Option Search
  | .macTable macHandle _ ea isAdd =>
    (links.macTableUpdate ctx macHandle ea isAdd).map fun after => ⟨after, [], none⟩
  | .interfaceEntry action ifid _ _ =>
    (links.interfaceEntryUpdate action ifid).map fun after => ⟨after, [], none⟩
  | .psmode macHandle opens => some ⟨links.psmodeUpdate ctx macHandle opens, [], none⟩
  | .requestCredit _ macHandle _ | .requestPacket _ macHandle _ =>
    (links.noteRequest ctx macHandle).map fun after => ⟨after, [], none⟩
  | .deque prec onlyNoCredit => searchDelayedq ctx links prec onlyNoCredit
  | .interface .. | .cleanup _ | .others _ => some ⟨links, [], none⟩

/-- The destinations under any sequence of calls. The answer is the search, if no assertion
fails and NULL is not followed. -/
def destinations : Machine Destinations DestinationCall (Option Search) where
  step state call :=
    let search := searchAfter state.ctx state.links call
    (⟨ctxAfter state.ctx call, (search.map Search.links).getD state.links⟩, search)
  admits _ _ := True

def zeroedLinks : Links := ⟨none, fun _ => none, fun _ => none, 0, fun _ => none, 0⟩

/-- `dhd_wlfc_enable` adds the entry for all others. -/
def destinationsStart (mode : WlfcMode) (pkts : Nat → Pkt) : Destinations :=
  ⟨dhdWlfcEnable mode pkts, (zeroedLinks.link otherEntry).getD zeroedLinks⟩

end BcmDhd.Wlfc
