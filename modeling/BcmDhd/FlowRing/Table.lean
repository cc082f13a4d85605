import BcmDhd.Lib.Machine
import BcmDhd.Utils.Dll
import BcmDhd.Utils.Id16Map

/-! Flow rings of `dhd_flowring.c` and `dhd_pcie.c`: the lookup of flow ids, the
table of rings with their life cycle, and the list of active rings.

The backup queues of the rings, their message rings and the locks are left out,
and so is `dhd_bus_flow_ring_flush_request`, which nothing calls. -/

namespace BcmDhd.FlowRing

open BcmDhd.Lib BcmDhd.Utils Function

def dhdMaxIfs : Nat := 16

def flowidReserved : Nat := 2

def flowidInvalid : Nat := id16Invalid

def bcmeOk : Int := 0

def wlcEIfRoleSta : Nat := 0

def wlcEIfAdd : Nat := 1

def wlcEIfDel : Nat := 2

def wlcEIfChange : Nat := 3

structure EtherAddr where
  octet0 : BitVec 8
  octet1 : BitVec 8
  octet2 : BitVec 8
  octet3 : BitVec 8
  octet4 : BitVec 8
  octet5 : BitVec 8
deriving DecidableEq

def etherIsMulti (ea : EtherAddr) : Bool := ea.octet0 &&& 1 ≠ 0

/-- `DHD_FLOWRING_HASHINDEX`; the table size 256 is the range of a byte. -/
def dhdFlowringHashIndex (ea : EtherAddr) (prio : BitVec 8) : BitVec 8 :=
  ea.octet3 ^^^ ea.octet4 ^^^ ea.octet5 ^^^ prio

structure FlowInfo where
  tid : BitVec 8
  ifindex : Nat
  sa : EtherAddr
  da : EtherAddr

/-- An entry of a hash chain; its source address is neither written nor read. -/
structure FlowHashInfo where
  flowid : Nat
  tid : BitVec 8
  ifindex : Nat
  da : EtherAddr
deriving DecidableEq

inductive FlowRingStatus
  | opened
  | pending
  | closed
  | deletePending
  | flushPending
  | staFreeing
deriving DecidableEq

structure FlowRingNode where
  active : Bool
  status : FlowRingStatus
  flowInfo : FlowInfo

structure IfFlowLkup where
  status : Bool
  role : Nat
  flHash : BitVec 8 → List FlowHashInfo

structure TdlsPeerTbl where
  node : List EtherAddr
  tdlsPeerCount : BitVec 8

/-- The nodes of the active list: its head in the bus and the table's rings. -/
inductive FlowringListNode
  | constFlowring
  | ring (flowid : Nat)
deriving DecidableEq

/-- The flow ring part of `dhd_pub_t` and `dhd_bus_t`. What lies behind the table is
not modelled: `outsideTable` notes that the node of a flow id from `num_flow_rings`
on was read or written there, and from then on the state says nothing about the code. -/
structure FlowDhd where
  numFlowRings : Nat
  flowidAllocator : Id16Map
  ifFlowLkup : Nat → IfFlowLkup
  peerTbl : TdlsPeerTbl
  flowRingTable : Nat → FlowRingNode
  flowringList : Dll FlowringListNode
  outsideTable : Bool

def zeroAddr : EtherAddr := ⟨0, 0, 0, 0, 0, 0⟩

/-- `dll_init` has linked every list node to itself. -/
def dhdFlowRingsInit (numFlowRings : Nat) : FlowDhd where
  numFlowRings := numFlowRings
  flowidAllocator := id16MapInit (numFlowRings - flowidReserved) flowidReserved
  ifFlowLkup _ := { status := false, role := 0, flHash := fun _ => [] }
  peerTbl := { node := [], tdlsPeerCount := 0 }
  flowRingTable _ := { active := false, status := .closed, flowInfo := ⟨0, 0, zeroAddr, zeroAddr⟩ }
  flowringList := { nextP := id, prevP := id }
  outsideTable := false

/-- What the allocator asserts of the number of rings. -/
def FlowRingsAdmissible (numFlowRings : Nat) : Prop :=
  flowidReserved < numFlowRings ∧ numFlowRings < id16Invalid

instance (numFlowRings : Nat) : Decidable (FlowRingsAdmissible numFlowRings) :=
  inferInstanceAs (Decidable (_ ∧ _))

section Lookup

def isTdlsDestination (dhd : FlowDhd) (da : EtherAddr) : Bool := dhd.peerTbl.node.contains da

/-- The first entry of a chain that fits. -/
def chainSearch (chain : List FlowHashInfo) (fits : FlowHashInfo → Bool) : Nat :=
  match chain.find? fits with
  | some cur => cur.flowid
  | none => flowidInvalid

/-- The guard of `dhd_flowid_find` for a unicast TDLS destination. -/
def TdlsLookup (dhd : FlowDhd) (da : EtherAddr) : Prop :=
  dhd.peerTbl.tdlsPeerCount ≠ 0 ∧ etherIsMulti da = false ∧ isTdlsDestination dhd da = true

instance (dhd : FlowDhd) (da : EtherAddr) : Decidable (TdlsLookup dhd da) :=
  inferInstanceAs (Decidable (_ ∧ _))

def dhdFlowidFind (dhd : FlowDhd) (ifindex : Nat) (prio : BitVec 8) (da : EtherAddr) : Nat :=
  let lkup := dhd.ifFlowLkup ifindex
  if lkup.role = wlcEIfRoleSta then
    if TdlsLookup dhd da then
      -- the priority of the entries is not compared here
      chainSearch (lkup.flHash (dhdFlowringHashIndex da prio)) (fun cur => cur.da = da)
    else chainSearch (lkup.flHash prio) (fun _ => true)
  else
    let ismcast := etherIsMulti da
    let hash := if ismcast then 0 else dhdFlowringHashIndex da prio
    chainSearch (lkup.flHash hash) (fun cur =>
      (ismcast && etherIsMulti cur.da) || (decide (cur.da = da) && decide (cur.tid = prio)))

def setFlHash (dhd : FlowDhd) (ifindex : Nat) (hash : BitVec 8) (chain : List FlowHashInfo) :
    FlowDhd :=
  let lkup := dhd.ifFlowLkup ifindex
  { dhd with
    ifFlowLkup := update dhd.ifFlowLkup ifindex
      { lkup with flHash := update lkup.flHash hash chain } }

/-- Links a new entry to the end of the chain. -/
def chainAppend (dhd : FlowDhd) (ifindex : Nat) (hash : BitVec 8) (node : FlowHashInfo) : FlowDhd :=
  setFlHash dhd ifindex hash ((dhd.ifFlowLkup ifindex).flHash hash ++ [node])

def dhdFlowidAlloc (dhd : FlowDhd) (ifindex : Nat) (prio : BitVec 8) (da : EtherAddr) :
    FlowDhd × Nat :=
  let (allocator, flowid) := id16MapAlloc dhd.flowidAllocator
  let dhd := { dhd with flowidAllocator := allocator }
  if flowid = flowidInvalid then (dhd, flowidInvalid)
  else
    let node : FlowHashInfo := { flowid := flowid, tid := prio, ifindex := ifindex, da := da }
    let linked :=
      if (dhd.ifFlowLkup ifindex).role = wlcEIfRoleSta then
        if dhd.peerTbl.tdlsPeerCount ≠ 0 ∧ isTdlsDestination dhd da = true then
          chainAppend dhd ifindex (dhdFlowringHashIndex da prio) node
        else setFlHash dhd ifindex prio [node]
      else
        chainAppend dhd ifindex (if etherIsMulti da then 0 else dhdFlowringHashIndex da prio) node
    (linked, flowid)

/-- The first chain of the interface with the id loses it, and the id returns to
the allocator. -/
def dhdFlowidFree (dhd : FlowDhd) (ifindex flowid : Nat) : FlowDhd :=
  let chain (hashix : Nat) := (dhd.ifFlowLkup ifindex).flHash (BitVec.ofNat 8 hashix)
  match (List.range 256).find? (fun hashix => (chain hashix).any (fun cur => cur.flowid = flowid)) with
  | some hashix =>
    let dhd := setFlHash dhd ifindex (BitVec.ofNat 8 hashix)
      ((chain hashix).eraseP (fun cur => cur.flowid = flowid))
    { dhd with flowidAllocator := id16MapFree dhd.flowidAllocator flowid }
  | none => dhd

end Lookup

inductive FlowAnswer
  | done
  | badarg
  | error
  | flowid (id : Nat)
deriving DecidableEq

def setFlowRing (dhd : FlowDhd) (flowid : Nat) (node : FlowRingNode) : FlowDhd :=
  { dhd with flowRingTable := update dhd.flowRingTable flowid node }

/-- `created` is the outcome of the create request: it fails when the message
ring has no space, and then the id stays allocated. -/
def dhdFlowidLookup (dhd : FlowDhd) (ifindex : Nat) (prio : BitVec 8) (sa da : EtherAddr)
    (created : Bool) : FlowDhd × FlowAnswer :=
  let id := dhdFlowidFind dhd ifindex prio da
  if id = flowidInvalid then
    if (dhd.ifFlowLkup ifindex).status = false then (dhd, .error)
    else
      let (dhd, id) := dhdFlowidAlloc dhd ifindex prio da
      if id = flowidInvalid then (dhd, .error)
      else
        let dhd := setFlowRing dhd id
          { active := true, status := .pending,
            flowInfo := { tid := prio, ifindex := ifindex, sa := sa, da := da } }
        (dhd, if created then .flowid id else .error)
  else
    let status := (dhd.flowRingTable id).status
    (dhd, if status = .opened ∨ status = .pending then .flowid id else .error)

/-- The packet it tags with the flow id is left out. -/
def dhdFlowidUpdate (dhd : FlowDhd) (ifindex : Nat) (prio : BitVec 8) (sa da : EtherAddr)
    (created : Bool) : FlowDhd × FlowAnswer :=
  if dhdMaxIfs ≤ ifindex then (dhd, .badarg)
  else dhdFlowidLookup dhd ifindex prio sa da created

section Interfaces

def dhdUpdateInterfaceFlowInfo (dhd : FlowDhd) (ifindex op role : Nat) : FlowDhd :=
  if dhdMaxIfs ≤ ifindex then dhd
  else
    let lkup := dhd.ifFlowLkup ifindex
    let lkup :=
      if op = wlcEIfAdd ∨ op = wlcEIfChange then
        let lkup := { lkup with role := role }
        if role ≠ wlcEIfRoleSta then { lkup with status := true } else lkup
      else if op = wlcEIfDel then { lkup with status := false }
      else lkup
    { dhd with ifFlowLkup := update dhd.ifFlowLkup ifindex lkup }

def dhdUpdateInterfaceLinkStatus (dhd : FlowDhd) (ifindex : Nat) (status : Bool) : FlowDhd :=
  if dhdMaxIfs ≤ ifindex then dhd
  else
    let lkup := dhd.ifFlowLkup ifindex
    let lkup := if lkup.role = wlcEIfRoleSta then { lkup with status := status } else lkup
    { dhd with ifFlowLkup := update dhd.ifFlowLkup ifindex lkup }

end Interfaces

section Deletion

/-- A second request for the same ring is refused. -/
def dhdBusFlowRingDeleteRequest (node : FlowRingNode) : FlowRingNode :=
  if node.status = .deletePending then node else { node with status := .deletePending }

/-- The loop over the table; each turn reads and writes its own ring only. -/
def deleteRings (dhd : FlowDhd) (selected : FlowRingNode → Bool) : FlowDhd :=
  let turn (id : Nat) :=
    let node := dhd.flowRingTable id
    if selected node then dhdBusFlowRingDeleteRequest node else node
  { dhd with flowRingTable := fill 0 dhd.numFlowRings turn dhd.flowRingTable }

def dhdFlowRingsDelete (dhd : FlowDhd) (ifindex : Nat) : FlowDhd :=
  if dhdMaxIfs ≤ ifindex then dhd
  else deleteRings dhd (fun node => node.active && decide (node.flowInfo.ifindex = ifindex))

def dhdFlowRingsDeleteForPeer (dhd : FlowDhd) (ifindex : Nat) (addr : EtherAddr) : FlowDhd :=
  if dhdMaxIfs ≤ ifindex then dhd
  else deleteRings dhd (fun node =>
    node.active && decide (node.flowInfo.ifindex = ifindex) && decide (node.flowInfo.da = addr) &&
      decide (node.status ≠ .deletePending))

/-- A refused or failed connection leaves the table as it is. -/
def dhdTdlsUpdatePeerInfo (dhd : FlowDhd) (ifindex : Nat) (da : EtherAddr) (connect : Bool) :
    FlowDhd :=
  if connect then
    if isTdlsDestination dhd da then dhd
    else { dhd with
      peerTbl := { node := da :: dhd.peerTbl.node, tdlsPeerCount := dhd.peerTbl.tdlsPeerCount + 1 } }
  else if isTdlsDestination dhd da then
    let dhd := dhdFlowRingsDeleteForPeer dhd ifindex da
    { dhd with
      peerTbl :=
        { node := dhd.peerTbl.node.erase da, tdlsPeerCount := dhd.peerTbl.tdlsPeerCount - 1 } }
  else dhd

def dhdFreeTdlsPeerList (dhd : FlowDhd) : FlowDhd :=
  { dhd with peerTbl := { node := [], tdlsPeerCount := 0 } }

end Deletion

section Responses

/-- `DHD_FLOW_RING`, which indexes the table with any id. -/
def reachFlowRing (dhd : FlowDhd) (flowid : Nat) : FlowDhd :=
  { dhd with outsideTable := dhd.outsideTable || decide (dhd.numFlowRings ≤ flowid) }

/-- The node leaves the list without a look at whether it is on it. -/
def dhdBusCleanFlowRing (dhd : FlowDhd) (flowid : Nat) : FlowDhd :=
  let node := dhd.flowRingTable flowid
  let dhd := setFlowRing (reachFlowRing dhd flowid) flowid
    { node with status := .closed, active := false }
  let dhd := { dhd with flowringList := dllDelete dhd.flowringList (.ring flowid) }
  dhdFlowidFree dhd node.flowInfo.ifindex flowid

def dhdBusFlowRingCreateResponse (dhd : FlowDhd) (flowid : Nat) (status : Int) : FlowDhd :=
  if status ≠ bcmeOk then dhdBusCleanFlowRing dhd flowid
  else
    let dhd := setFlowRing (reachFlowRing dhd flowid) flowid
      { dhd.flowRingTable flowid with status := .opened }
    { dhd with flowringList := dllPrepend dhd.flowringList .constFlowring (.ring flowid) }

def dhdBusFlowRingDeleteResponse (dhd : FlowDhd) (flowid : Nat) (status : Int) : FlowDhd :=
  if status ≠ bcmeOk then dhd else dhdBusCleanFlowRing dhd flowid

end Responses

/-- What the network stack, the dongle's events and the dongle's responses ask of
the flow rings. -/
inductive FlowCall
  | flowidUpdate (ifindex : Nat) (prio : BitVec 8) (sa da : EtherAddr) (created : Bool)
  | flowidFree (ifindex flowid : Nat)
  | interfaceFlowInfo (ifindex op role : Nat)
  | interfaceLinkStatus (ifindex : Nat) (status : Bool)
  | tdlsUpdatePeerInfo (ifindex : Nat) (da : EtherAddr) (connect : Bool)
  | freeTdlsPeerList
  | flowRingsDelete (ifindex : Nat)
  | flowRingsDeleteForPeer (ifindex : Nat) (addr : EtherAddr)
  | flowRingCreateResponse (flowid : Nat) (status : Int)
  | flowRingDeleteResponse (flowid : Nat) (status : Int)
  | cleanFlowRing (flowid : Nat)
deriving DecidableEq

def flowStep (dhd : FlowDhd) : FlowCall → FlowDhd × FlowAnswer
  | .flowidUpdate ifindex prio sa da created => dhdFlowidUpdate dhd ifindex prio sa da created
  | .flowidFree ifindex flowid => (dhdFlowidFree dhd ifindex flowid, .done)
  | .interfaceFlowInfo ifindex op role => (dhdUpdateInterfaceFlowInfo dhd ifindex op role, .done)
  | .interfaceLinkStatus ifindex status => (dhdUpdateInterfaceLinkStatus dhd ifindex status, .done)
  | .tdlsUpdatePeerInfo ifindex da connect => (dhdTdlsUpdatePeerInfo dhd ifindex da connect, .done)
  | .freeTdlsPeerList => (dhdFreeTdlsPeerList dhd, .done)
  | .flowRingsDelete ifindex => (dhdFlowRingsDelete dhd ifindex, .done)
  | .flowRingsDeleteForPeer ifindex addr => (dhdFlowRingsDeleteForPeer dhd ifindex addr, .done)
  | .flowRingCreateResponse flowid status =>
    (dhdBusFlowRingCreateResponse dhd flowid status, .done)
  | .flowRingDeleteResponse flowid status =>
    (dhdBusFlowRingDeleteResponse dhd flowid status, .done)
  | .cleanFlowRing flowid => (dhdBusCleanFlowRing dhd flowid, .done)

/-- Any order of calls; a direct `dhd_flowid_free` names one of the interfaces. -/
def flowMachine : Machine FlowDhd FlowCall FlowAnswer where
  step := flowStep
  admits _ call :=
    match call with
    | .flowidFree ifindex _ => ifindex < dhdMaxIfs
    | _ => True

end BcmDhd.FlowRing
