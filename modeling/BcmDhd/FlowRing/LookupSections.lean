import BcmDhd.FlowRing.LookupSoundness

namespace BcmDhd.FlowRing

open BcmDhd.Lib BcmDhd.Utils Function

/-- The first locked section: an id is taken from the allocator. -/
def flowidAllocTake (dhd : FlowDhd) : FlowDhd × Nat :=
  let (allocator, flowid) := id16MapAlloc dhd.flowidAllocator
  ({ dhd with flowidAllocator := allocator }, flowid)

/-- The second locked section: the entry is linked to its chain. -/
def flowidAllocLink (dhd : FlowDhd) (ifindex : Nat) (prio : BitVec 8) (da : EtherAddr)
    (flowid : Nat) : FlowDhd :=
  let node : FlowHashInfo := { flowid := flowid, tid := prio, ifindex := ifindex, da := da }
  if (dhd.ifFlowLkup ifindex).role = wlcEIfRoleSta then
    if dhd.peerTbl.tdlsPeerCount ≠ 0 ∧ isTdlsDestination dhd da = true then
      chainAppend dhd ifindex (dhdFlowringHashIndex da prio) node
    else setFlHash dhd ifindex prio [node]
  else
    chainAppend dhd ifindex (if etherIsMulti da then 0 else dhdFlowringHashIndex da prio) node

theorem dhdFlowidAlloc_eq (dhd : FlowDhd) (ifindex : Nat) (prio : BitVec 8) (da : EtherAddr) :
    dhdFlowidAlloc dhd ifindex prio da =
      let (dhd, flowid) := flowidAllocTake dhd
      if flowid = flowidInvalid then (dhd, flowidInvalid)
      else (flowidAllocLink dhd ifindex prio da flowid, flowid) := rfl

/-- A multicast address among the TDLS peers: its entry is linked by hash and
searched by priority. -/
def TdlsMulticast (dhd : FlowDhd) (ifindex : Nat) (da : EtherAddr) : Prop :=
  (dhd.ifFlowLkup ifindex).role = wlcEIfRoleSta ∧ dhd.peerTbl.tdlsPeerCount ≠ 0 ∧
    isTdlsDestination dhd da = true ∧ etherIsMulti da = true

instance (dhd : FlowDhd) (ifindex : Nat) (da : EtherAddr) : Decidable (TdlsMulticast dhd ifindex da) :=
  inferInstanceAs (Decidable (_ ∧ _))

/-- No entry has the id that stands for none. -/
def RealEntries (dhd : FlowDhd) : Prop :=
  ∀ key, ∀ entry ∈ flowChains dhd key, entry.flowid ≠ flowidInvalid

theorem LookupInvariant.realEntries {dhd : FlowDhd} (valid : LookupInvariant dhd) :
    RealEntries dhd := fun _ _ member => valid.ne_invalid member

section Search

variable {dhd : FlowDhd} {ifindex id : Nat} {prio : BitVec 8} {da : EtherAddr}

theorem chainSearch_append {chain : List FlowHashInfo} {fits : FlowHashInfo → Bool}
    {node : FlowHashInfo} (real : ∀ entry ∈ chain, entry.flowid ≠ flowidInvalid)
    (missing : chainSearch chain fits = flowidInvalid) (fit : fits node = true) :
    chainSearch (chain ++ [node]) fits = node.flowid := by
  have none : ∀ entry ∈ chain, fits entry = false := by
    rcases chainSearch_cases chain fits with ⟨-, none⟩ | ⟨entry, member, -, found⟩
    · exact none
    · exact absurd (found.symm.trans missing) (real entry member)
  have absent : chain.find? fits = Option.none := by
    rw [List.find?_eq_none]
    intro entry member
    simp [none entry member]
  simp [chainSearch, List.find?_append, absent, fit]

theorem find_setFlHash (dhd : FlowDhd) (ifindex : Nat) (hash : BitVec 8) (chain : List FlowHashInfo)
    (prio : BitVec 8) (da : EtherAddr) :
    dhdFlowidFind (setFlHash dhd ifindex hash chain) ifindex prio da =
      let flHash := update (dhd.ifFlowLkup ifindex).flHash hash chain
      if (dhd.ifFlowLkup ifindex).role = wlcEIfRoleSta then
        if TdlsLookup dhd da then
          chainSearch (flHash (dhdFlowringHashIndex da prio)) (fun cur => cur.da = da)
        else chainSearch (flHash prio) (fun _ => true)
      else
        chainSearch (flHash (if etherIsMulti da then 0 else dhdFlowringHashIndex da prio))
          (fun cur => (etherIsMulti da && etherIsMulti cur.da) ||
            (decide (cur.da = da) && decide (cur.tid = prio))) := by
  have lkup : (setFlHash dhd ifindex hash chain).ifFlowLkup ifindex =
      { dhd.ifFlowLkup ifindex with
        flHash := update (dhd.ifFlowLkup ifindex).flHash hash chain } := by
    simp [setFlHash]
  simp only [dhdFlowidFind, lkup]
  rfl

/-- What is linked after an unsuccessful search is found from then on. -/
theorem find_of_linked (real : RealEntries dhd)
    (missing : dhdFlowidFind dhd ifindex prio da = flowidInvalid)
    (ordinary : ¬ TdlsMulticast dhd ifindex da) (id : Nat) :
    dhdFlowidFind (flowidAllocLink dhd ifindex prio da id) ifindex prio da = id := by
  have real : ∀ hash, ∀ entry ∈ (dhd.ifFlowLkup ifindex).flHash hash,
      entry.flowid ≠ flowidInvalid := fun hash => real (ifindex, hash)
  simp only [flowidAllocLink]
  simp only [dhdFlowidFind] at missing
  by_cases station : (dhd.ifFlowLkup ifindex).role = wlcEIfRoleSta
  · rw [if_pos station] at missing ⊢
    by_cases tdls : dhd.peerTbl.tdlsPeerCount ≠ 0 ∧ isTdlsDestination dhd da = true
    · have unicast : etherIsMulti da = false := by
        by_contra multi
        exact ordinary ⟨station, tdls.1, tdls.2, by simpa using multi⟩
      have lookup : TdlsLookup dhd da := ⟨tdls.1, unicast, tdls.2⟩
      rw [if_pos lookup] at missing
      rw [if_pos tdls, chainAppend, find_setFlHash]
      simp only [if_pos station, if_pos lookup, update_self]
      exact chainSearch_append (real _) missing (by simp)
    · have direct : ¬ TdlsLookup dhd da := fun lookup => tdls ⟨lookup.1, lookup.2.2⟩
      rw [if_neg tdls, find_setFlHash]
      simp only [if_pos station, if_neg direct, update_self]
      rfl
  · rw [if_neg station] at missing ⊢
    rw [chainAppend, find_setFlHash]
    simp only [if_neg station, update_self]
    exact chainSearch_append (real _) missing (by simp)

end Search

section Failure

variable {dhd : FlowDhd} {ifindex : Nat} {prio : BitVec 8} {sa da : EtherAddr}

/-- The lookup gets as far as the create request. -/
def RequestsCreation (dhd : FlowDhd) (ifindex : Nat) (prio : BitVec 8) (da : EtherAddr) : Prop :=
  dhdFlowidFind dhd ifindex prio da = flowidInvalid ∧ (dhd.ifFlowLkup ifindex).status = true ∧
    (flowidAllocTake dhd).2 ≠ flowidInvalid

instance (dhd : FlowDhd) (ifindex : Nat) (prio : BitVec 8) (da : EtherAddr) :
    Decidable (RequestsCreation dhd ifindex prio da) :=
  inferInstanceAs (Decidable (_ ∧ _))

/-- Hash table, id allocator and the life cycle of every ring are the same. -/
structure SameTables (dhd dhd' : FlowDhd) : Prop where
  chains : flowChains dhd' = flowChains dhd
  allocator : dhd'.flowidAllocator = dhd.flowidAllocator
  active : ∀ id, (dhd'.flowRingTable id).active = (dhd.flowRingTable id).active
  status : ∀ id, (dhd'.flowRingTable id).status = (dhd.flowRingTable id).status

/-- The ring as the lookup sets it up before the create request. -/
def pendingRing (ifindex : Nat) (prio : BitVec 8) (sa da : EtherAddr) : FlowRingNode where
  active := true
  status := .pending
  flowInfo := { tid := prio, ifindex := ifindex, sa := sa, da := da }

theorem dhdFlowidLookup_requests (requests : RequestsCreation dhd ifindex prio da)
    (sa : EtherAddr) (created : Bool) :
    dhdFlowidLookup dhd ifindex prio sa da created =
      (setFlowRing (flowidAllocLink (flowidAllocTake dhd).1 ifindex prio da (flowidAllocTake dhd).2)
          (flowidAllocTake dhd).2 (pendingRing ifindex prio sa da),
        if created then .flowid (flowidAllocTake dhd).2 else .error) := by
  obtain ⟨missing, up, taken⟩ := requests
  simp only [dhdFlowidLookup, if_pos missing, up, dhdFlowidAlloc_eq, if_neg taken]
  rfl

theorem dhdFlowidLookup_pending {id : Nat} (found : dhdFlowidFind dhd ifindex prio da = id)
    (real : id ≠ flowidInvalid) (pending : (dhd.flowRingTable id).status = .pending)
    (sa : EtherAddr) (created : Bool) :
    dhdFlowidLookup dhd ifindex prio sa da created = (dhd, .flowid id) := by
  simp only [dhdFlowidLookup, found, if_neg real, pending]
  simp

theorem flowidAllocTake_stackIdx (taken : (flowidAllocTake dhd).2 ≠ flowidInvalid) :
    (flowidAllocTake dhd).1.flowidAllocator.stackIdx = dhd.flowidAllocator.stackIdx - 1 := by
  simp only [flowidAllocTake, id16MapAlloc] at taken ⊢
  split at taken
  · exact absurd rfl taken
  · rename_i some
    rw [if_neg some]

theorem flowidAllocLink_allocator (dhd : FlowDhd) (ifindex : Nat) (prio : BitVec 8) (da : EtherAddr)
    (id : Nat) : (flowidAllocLink dhd ifindex prio da id).flowidAllocator = dhd.flowidAllocator := by
  simp only [flowidAllocLink]
  split
  · split <;> rfl
  · rfl

/-- A create request that fails never leaves the tables as they were, and a later
lookup of the same flow is given the id whose ring was never created. -/
theorem failed_creation_leaves_trace (requests : RequestsCreation dhd ifindex prio da)
    (sa : EtherAddr) :
    let failed := (dhdFlowidLookup dhd ifindex prio sa da false).1
    (dhdFlowidLookup dhd ifindex prio sa da false).2 = .error ∧ ¬ SameTables dhd failed ∧
      (LookupInvariant dhd → ¬ TdlsMulticast dhd ifindex da → ∀ created,
        dhdFlowidLookup failed ifindex prio sa da created =
          (failed, .flowid (flowidAllocTake dhd).2)) := by
  intro failed
  have after := dhdFlowidLookup_requests requests sa false
  have failed_eq : failed = setFlowRing
      (flowidAllocLink (flowidAllocTake dhd).1 ifindex prio da (flowidAllocTake dhd).2)
      (flowidAllocTake dhd).2 (pendingRing ifindex prio sa da) := congrArg Prod.fst after
  refine ⟨by rw [after]; rfl, ?_, ?_⟩
  · intro same
    have taken := flowidAllocTake_stackIdx requests.2.2
    have kept : failed.flowidAllocator.stackIdx = dhd.flowidAllocator.stackIdx := by
      rw [same.allocator]
    rw [failed_eq, setFlowRing, flowidAllocLink_allocator] at kept
    omega
  · intro valid ordinary created
    have found : dhdFlowidFind failed ifindex prio da = (flowidAllocTake dhd).2 := by
      rw [failed_eq]
      have real : RealEntries (flowidAllocTake dhd).1 := valid.realEntries
      have missing : dhdFlowidFind (flowidAllocTake dhd).1 ifindex prio da = flowidInvalid :=
        requests.1
      exact find_of_linked real missing ordinary _
    have pending : (failed.flowRingTable (flowidAllocTake dhd).2).status = .pending := by
      rw [failed_eq]
      simp [setFlowRing, pendingRing]
    exact dhdFlowidLookup_pending found requests.2.2 pending sa created

/-- An access point interface that is up, and no flows yet. -/
def accessPoint : FlowDhd := flowMachine.run (dhdFlowRingsInit 4) [.interfaceFlowInfo 0 wlcEIfAdd 1]

theorem failed_creation_leaves_trace_first_flow :
    RequestsCreation accessPoint 0 0 stationAddr ∧
      ¬ SameTables accessPoint (dhdFlowidLookup accessPoint 0 0 stationAddr stationAddr false).1 := by
  have requests : RequestsCreation accessPoint 0 0 stationAddr := by decide
  exact ⟨requests, (failed_creation_leaves_trace requests stationAddr).2.1⟩

/-- The first flow of an access point: the create request fails, the id 3 is gone
from the allocator and its ring pending, and the next packet is told to use it. -/
theorem failed_creation_returns_uncreated_ring :
    let failed := (dhdFlowidLookup accessPoint 0 0 stationAddr stationAddr false).1
    (dhdFlowidLookup accessPoint 0 0 stationAddr stationAddr false).2 = .error ∧
      accessPoint.flowidAllocator.stackIdx = 1 ∧ failed.flowidAllocator.stackIdx = 0 ∧
      (accessPoint.flowRingTable 3).active = false ∧ (failed.flowRingTable 3).active = true ∧
      (failed.flowRingTable 3).status = .pending ∧
      (dhdFlowidLookup failed 0 0 stationAddr stationAddr true).2 = .flowid 3 := by
  decide

end Failure

end BcmDhd.FlowRing
