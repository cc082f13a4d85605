import BcmDhd.FlowRing.LookupInvariant

namespace BcmDhd.FlowRing

open BcmDhd.Lib BcmDhd.Utils Function

/-- What a call means for the list of active rings. -/
inductive RingEvent
  | none
  | opened (flowid : Nat)
  | cleaned (flowid : Nat)
deriving DecidableEq

def ringEvent : FlowCall → RingEvent
  | .flowRingCreateResponse flowid status => if status = bcmeOk then .opened flowid else .cleaned flowid
  | .flowRingDeleteResponse flowid status => if status = bcmeOk then .cleaned flowid else .none
  | .cleanFlowRing flowid => .cleaned flowid
  | _ => .none

/-- Chains, allocator and list stay; active rings may become delete pending. -/
structure Quiet (dhd dhd' : FlowDhd) : Prop where
  size : dhd'.numFlowRings = dhd.numFlowRings
  chains : flowChains dhd' = flowChains dhd
  stack : SameIds dhd'.flowidAllocator dhd.flowidAllocator
  list : dhd'.flowringList = dhd.flowringList
  outside : dhd'.outsideTable = dhd.outsideTable
  rings : ∀ id, dhd'.flowRingTable id = dhd.flowRingTable id ∨
    (id < dhd.numFlowRings ∧ (dhd.flowRingTable id).active = true ∧
      dhd'.flowRingTable id = { dhd.flowRingTable id with status := .deletePending })

/-- The state after a successful create response. -/
def ringOpened (dhd : FlowDhd) (flowid : Nat) : FlowDhd :=
  { setFlowRing (reachFlowRing dhd flowid) flowid
      { dhd.flowRingTable flowid with status := .opened } with
    flowringList := dllPrepend dhd.flowringList .constFlowring (.ring flowid) }

theorem ringOpened_rings (dhd : FlowDhd) (flowid : Nat) :
    (ringOpened dhd flowid).flowRingTable =
      update dhd.flowRingTable flowid
        { dhd.flowRingTable flowid with status := .opened } := rfl

/-- The first half of a clean-up, before the id is freed. -/
def ringClosed (dhd : FlowDhd) (flowid : Nat) : FlowDhd :=
  { setFlowRing (reachFlowRing dhd flowid) flowid
      { dhd.flowRingTable flowid with status := .closed, active := false } with
    flowringList := dllDelete dhd.flowringList (.ring flowid) }

theorem dhdBusCleanFlowRing_eq (dhd : FlowDhd) (flowid : Nat) :
    dhdBusCleanFlowRing dhd flowid =
      dhdFlowidFree (ringClosed dhd flowid) (dhd.flowRingTable flowid).flowInfo.ifindex flowid := rfl

/-- The state after a lookup that allocated. -/
def flowAllocated (dhd : FlowDhd) (after : Id16Map) (id : Nat) (hash : BitVec 8) (ifindex : Nat)
    (prio : BitVec 8) (sa da : EtherAddr) : FlowDhd :=
  setFlowRing
    (chainAppend { dhd with flowidAllocator := after } ifindex hash ⟨id, prio, ifindex, da⟩) id
    { active := true, status := .pending,
      flowInfo := { tid := prio, ifindex := ifindex, sa := sa, da := da } }

theorem flowAllocated_chains (dhd : FlowDhd) (after : Id16Map) (id : Nat) (hash : BitVec 8)
    (ifindex : Nat) (prio : BitVec 8) (sa da : EtherAddr) :
    flowChains (flowAllocated dhd after id hash ifindex prio sa da) =
      update (flowChains dhd) (ifindex, hash)
        (flowChains dhd (ifindex, hash) ++ [⟨id, prio, ifindex, da⟩]) :=
  flowChains_setFlHash _ _ _ _

theorem flowAllocated_rings (dhd : FlowDhd) (after : Id16Map) (id : Nat) (hash : BitVec 8)
    (ifindex : Nat) (prio : BitVec 8) (sa da : EtherAddr) :
    (flowAllocated dhd after id hash ifindex prio sa da).flowRingTable =
      update dhd.flowRingTable id
        { active := true, status := .pending,
          flowInfo := { tid := prio, ifindex := ifindex, sa := sa, da := da } } := rfl

/-- The effect of a call, by its kind. -/
inductive FlowEffect (dhd : FlowDhd) : FlowCall → FlowDhd → Prop
  | quiet {call : FlowCall} {dhd' : FlowDhd} (event : ringEvent call = .none)
      (quiet : Quiet dhd dhd') : FlowEffect dhd call dhd'
  | allocated {ifindex : Nat} {prio : BitVec 8} {sa da : EtherAddr} {created : Bool}
      {after : Id16Map} {id : Nat} {hash : BitVec 8} (inside : id < dhd.numFlowRings)
      (fresh : ¬ FlowidHeld dhd id)
      (valid : LookupInvariant (flowAllocated dhd after id hash ifindex prio sa da)) :
      FlowEffect dhd (.flowidUpdate ifindex prio sa da created)
        (flowAllocated dhd after id hash ifindex prio sa da)
  | freed (ifindex id : Nat) :
      FlowEffect dhd (.flowidFree ifindex id) (dhdFlowidFree dhd ifindex id)
  | opened {call : FlowCall} {id : Nat} (event : ringEvent call = .opened id) :
      FlowEffect dhd call (ringOpened dhd id)
  | cleaned {call : FlowCall} {id : Nat} (event : ringEvent call = .cleaned id) :
      FlowEffect dhd call (dhdBusCleanFlowRing dhd id)

namespace Quiet

variable {dhd : FlowDhd}

theorem refl (dhd : FlowDhd) : Quiet dhd dhd where
  size := rfl
  chains := rfl
  stack := ⟨rfl, rfl⟩
  list := rfl
  outside := rfl
  rings _ := Or.inl rfl

theorem deleteRequest_eq (node : FlowRingNode) :
    dhdBusFlowRingDeleteRequest node = { node with status := .deletePending } := by
  rw [dhdBusFlowRingDeleteRequest]
  split
  · rename_i already
    rw [← already]
  · rfl

theorem deleteRings {selected : FlowRingNode → Bool}
    (active : ∀ node, selected node = true → node.active = true) :
    Quiet dhd (deleteRings dhd selected) := by
  refine ⟨rfl, rfl, ⟨rfl, rfl⟩, rfl, rfl, ?_⟩
  intro id
  simp only [FlowRing.deleteRings, fill_apply, Nat.zero_le, true_and, Nat.zero_add]
  by_cases inside : id < dhd.numFlowRings
  · rw [if_pos inside]
    by_cases chosen : selected (dhd.flowRingTable id) = true
    · rw [if_pos chosen]
      exact Or.inr ⟨inside, active _ chosen, deleteRequest_eq _⟩
    · exact Or.inl (if_neg chosen)
  · exact Or.inl (if_neg inside)

theorem flowRingsDelete (ifindex : Nat) : Quiet dhd (dhdFlowRingsDelete dhd ifindex) := by
  rw [dhdFlowRingsDelete]
  split
  · exact refl dhd
  · apply deleteRings
    intro node selected
    rw [Bool.and_eq_true] at selected
    exact selected.1

theorem flowRingsDeleteForPeer (ifindex : Nat) (addr : EtherAddr) :
    Quiet dhd (dhdFlowRingsDeleteForPeer dhd ifindex addr) := by
  rw [dhdFlowRingsDeleteForPeer]
  split
  · exact refl dhd
  · apply deleteRings
    intro node selected
    simp only [Bool.and_eq_true] at selected
    exact selected.1.1.1

theorem peers {dhd' : FlowDhd} (quiet : Quiet dhd dhd') (peerTbl : TdlsPeerTbl) :
    Quiet dhd { dhd' with peerTbl := peerTbl } :=
  ⟨quiet.size, quiet.chains, quiet.stack, quiet.list, quiet.outside, quiet.rings⟩

theorem tdlsUpdatePeerInfo (ifindex : Nat) (da : EtherAddr) (connect : Bool) :
    Quiet dhd (dhdTdlsUpdatePeerInfo dhd ifindex da connect) := by
  rw [dhdTdlsUpdatePeerInfo]
  split
  · split
    · exact refl dhd
    · exact (refl dhd).peers _
  · split
    · exact (flowRingsDeleteForPeer ifindex da).peers _
    · exact refl dhd

theorem interface {ifindex : Nat} {lkup : IfFlowLkup}
    (kept : lkup.flHash = (dhd.ifFlowLkup ifindex).flHash) :
    Quiet dhd { dhd with ifFlowLkup := update dhd.ifFlowLkup ifindex lkup } := by
  refine ⟨rfl, ?_, ⟨rfl, rfl⟩, rfl, rfl, fun _ => Or.inl rfl⟩
  funext ⟨other, hash⟩
  by_cases here : other = ifindex
  · subst here
    simp [flowChains, kept]
  · simp [flowChains, here]

theorem interfaceFlowInfo (ifindex op role : Nat) :
    Quiet dhd (dhdUpdateInterfaceFlowInfo dhd ifindex op role) := by
  rw [dhdUpdateInterfaceFlowInfo]
  split
  · exact refl dhd
  · apply interface
    split
    · split <;> rfl
    · split <;> rfl

theorem interfaceLinkStatus (ifindex : Nat) (status : Bool) :
    Quiet dhd (dhdUpdateInterfaceLinkStatus dhd ifindex status) := by
  rw [dhdUpdateInterfaceLinkStatus]
  split
  · exact refl dhd
  · apply interface
    split <;> rfl

end Quiet

section Calls

variable {dhd : FlowDhd}

theorem LookupInvariant.setFlowRing (valid : LookupInvariant dhd) (id : Nat) (node : FlowRingNode) :
    LookupInvariant (setFlowRing dhd id node) :=
  valid.frame rfl rfl ⟨rfl, rfl⟩

theorem flowidUpdate_effect (valid : LookupInvariant dhd) (ifindex : Nat) (prio : BitVec 8)
    (sa da : EtherAddr) (created : Bool) :
    FlowEffect dhd (.flowidUpdate ifindex prio sa da created)
      (dhdFlowidUpdate dhd ifindex prio sa da created).1 := by
  have unchanged : FlowEffect dhd (.flowidUpdate ifindex prio sa da created) dhd :=
    .quiet rfl (Quiet.refl dhd)
  rw [dhdFlowidUpdate]
  split
  · exact unchanged
  · rw [dhdFlowidLookup]
    by_cases missing : dhdFlowidFind dhd ifindex prio da = flowidInvalid
    · simp only [if_pos missing]
      split
      · exact unchanged
      · rcases valid.alloc_cases missing with
          ⟨after, same, failed⟩ | ⟨after, id, hash, real, inside, fresh, linked, later⟩
        · simp only [failed, if_true]
          exact .quiet rfl ⟨rfl, rfl, same, rfl, rfl, fun _ => Or.inl rfl⟩
        · simp only [linked, if_neg real]
          exact .allocated inside fresh (later.setFlowRing id _)
    · simp only [if_neg missing]
      exact unchanged

theorem createResponse_effect (flowid : Nat) (status : Int) :
    FlowEffect dhd (.flowRingCreateResponse flowid status)
      (dhdBusFlowRingCreateResponse dhd flowid status) := by
  rw [dhdBusFlowRingCreateResponse]
  by_cases ok : status = bcmeOk
  · rw [if_neg (not_not_intro ok)]
    exact .opened (by simp [ringEvent, ok])
  · rw [if_pos ok]
    exact .cleaned (by simp [ringEvent, ok])

theorem deleteResponse_effect (flowid : Nat) (status : Int) :
    FlowEffect dhd (.flowRingDeleteResponse flowid status)
      (dhdBusFlowRingDeleteResponse dhd flowid status) := by
  rw [dhdBusFlowRingDeleteResponse]
  by_cases ok : status = bcmeOk
  · rw [if_neg (not_not_intro ok)]
    exact .cleaned (by simp [ringEvent, ok])
  · rw [if_pos ok]
    exact .quiet (by simp [ringEvent, ok]) (Quiet.refl dhd)

theorem flowMachine_effect (valid : LookupInvariant dhd) (call : FlowCall) :
    FlowEffect dhd call (flowMachine.next dhd call) := by
  cases call with
  | flowidUpdate ifindex prio sa da created => exact flowidUpdate_effect valid ifindex prio sa da created
  | flowidFree ifindex flowid => exact .freed ifindex flowid
  | interfaceFlowInfo ifindex op role => exact .quiet rfl (Quiet.interfaceFlowInfo ifindex op role)
  | interfaceLinkStatus ifindex status => exact .quiet rfl (Quiet.interfaceLinkStatus ifindex status)
  | tdlsUpdatePeerInfo ifindex da connect =>
    exact .quiet rfl (Quiet.tdlsUpdatePeerInfo ifindex da connect)
  | freeTdlsPeerList => exact .quiet rfl ((Quiet.refl dhd).peers _)
  | flowRingsDelete ifindex => exact .quiet rfl (Quiet.flowRingsDelete ifindex)
  | flowRingsDeleteForPeer ifindex addr => exact .quiet rfl (Quiet.flowRingsDeleteForPeer ifindex addr)
  | flowRingCreateResponse flowid status => exact createResponse_effect flowid status
  | flowRingDeleteResponse flowid status => exact deleteResponse_effect flowid status
  | cleanFlowRing flowid => exact .cleaned rfl

theorem dhdFlowidFree_rest (dhd : FlowDhd) (ifindex flowid : Nat) :
    (dhdFlowidFree dhd ifindex flowid).numFlowRings = dhd.numFlowRings ∧
      (dhdFlowidFree dhd ifindex flowid).flowRingTable = dhd.flowRingTable ∧
      (dhdFlowidFree dhd ifindex flowid).flowringList = dhd.flowringList := by
  rcases dhdFlowidFree_cases dhd ifindex flowid with ⟨unchanged, -⟩ | ⟨hash, entry, -, -, freed⟩
  · rw [unchanged]
    exact ⟨rfl, rfl, rfl⟩
  · rw [freed]
    exact ⟨rfl, rfl, rfl⟩

theorem dhdFlowidFree_outside (dhd : FlowDhd) (ifindex flowid : Nat) :
    (dhdFlowidFree dhd ifindex flowid).outsideTable = dhd.outsideTable := by
  rcases dhdFlowidFree_cases dhd ifindex flowid with ⟨unchanged, -⟩ | ⟨hash, entry, -, -, freed⟩
  · rw [unchanged]
  · rw [freed]
    rfl

theorem dhdBusCleanFlowRing_rings (dhd : FlowDhd) (flowid : Nat) :
    (dhdBusCleanFlowRing dhd flowid).flowRingTable =
      update dhd.flowRingTable flowid
        { dhd.flowRingTable flowid with status := .closed, active := false } := by
  rw [dhdBusCleanFlowRing_eq, (dhdFlowidFree_rest _ _ _).2.1]
  rfl

theorem dhdBusCleanFlowRing_list (dhd : FlowDhd) (flowid : Nat) :
    (dhdBusCleanFlowRing dhd flowid).flowringList =
      dllDelete dhd.flowringList (.ring flowid) := by
  rw [dhdBusCleanFlowRing_eq, (dhdFlowidFree_rest _ _ _).2.2]
  rfl

theorem FlowEffect.size {dhd' : FlowDhd} {call : FlowCall} (effect : FlowEffect dhd call dhd') :
    dhd'.numFlowRings = dhd.numFlowRings := by
  cases effect with
  | quiet event quiet => exact quiet.size
  | allocated inside fresh later => rfl
  | freed ifindex id => exact (dhdFlowidFree_rest dhd ifindex id).1
  | opened event => rfl
  | cleaned event =>
    rw [dhdBusCleanFlowRing_eq]
    exact (dhdFlowidFree_rest _ _ _).1

/-- The ids that a call opens or cleans are those of rings in the table. -/
def RingEvent.Inside (num : Nat) : RingEvent → Prop
  | .none => True
  | .opened id | .cleaned id => id < num

theorem FlowEffect.outside {dhd' : FlowDhd} {call : FlowCall} (effect : FlowEffect dhd call dhd')
    (inside : (ringEvent call).Inside dhd.numFlowRings) : dhd'.outsideTable = dhd.outsideTable := by
  have reach : ∀ id < dhd.numFlowRings, (reachFlowRing dhd id).outsideTable = dhd.outsideTable := by
    intro id below
    simp [reachFlowRing, below]
  cases effect with
  | quiet event quiet => exact quiet.outside
  | allocated inside fresh later => rfl
  | freed ifindex id => exact dhdFlowidFree_outside dhd ifindex id
  | opened event =>
    rw [event] at inside
    exact reach _ inside
  | cleaned event =>
    rw [event] at inside
    rw [dhdBusCleanFlowRing_eq, dhdFlowidFree_outside]
    exact reach _ inside

/-- The effects as one ring of the table sees them. -/
inductive RingChange (dhd : FlowDhd) (call : FlowCall) (id : Nat) : FlowRingNode → Prop
  | same : RingChange dhd call id (dhd.flowRingTable id)
  | deleted (active : (dhd.flowRingTable id).active = true) :
      RingChange dhd call id { dhd.flowRingTable id with status := .deletePending }
  | allocated (fresh : ¬ FlowidHeld dhd id) (flowInfo : FlowInfo) :
      RingChange dhd call id { active := true, status := .pending, flowInfo := flowInfo }
  | opened (event : ringEvent call = .opened id) :
      RingChange dhd call id { dhd.flowRingTable id with status := .opened }
  | cleaned (event : ringEvent call = .cleaned id) :
      RingChange dhd call id { dhd.flowRingTable id with status := .closed, active := false }

theorem FlowEffect.ring {dhd' : FlowDhd} {call : FlowCall} (effect : FlowEffect dhd call dhd')
    (id : Nat) : RingChange dhd call id (dhd'.flowRingTable id) := by
  cases effect with
  | quiet event quiet =>
    rcases quiet.rings id with same | ⟨-, active, now⟩
    · rw [same]
      exact .same
    · rw [now]
      exact .deleted active
  | @allocated ifindex prio sa da created after new hash inside fresh later =>
    rw [flowAllocated_rings]
    by_cases here : id = new
    · subst here
      rw [update_self]
      exact .allocated fresh _
    · rw [update_of_ne here]
      exact .same
  | freed ifindex other =>
    rw [(dhdFlowidFree_rest dhd ifindex other).2.1]
    exact .same
  | @opened _ other event =>
    rw [ringOpened_rings]
    by_cases here : id = other
    · subst here
      rw [update_self]
      exact .opened event
    · rw [update_of_ne here]
      exact .same
  | @cleaned _ other event =>
    rw [dhdBusCleanFlowRing_rings]
    by_cases here : id = other
    · subst here
      rw [update_self]
      exact .cleaned event
    · rw [update_of_ne here]
      exact .same

end Calls

end BcmDhd.FlowRing
