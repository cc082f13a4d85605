import BcmDhd.Lib.Buckets
import BcmDhd.FlowRing.Table

namespace BcmDhd.FlowRing

open BcmDhd.Lib BcmDhd.Utils Function

/-- All chains of all interfaces. -/
def flowChains (dhd : FlowDhd) (key : Nat × BitVec 8) : List FlowHashInfo :=
  (dhd.ifFlowLkup key.1).flHash key.2

/-- Some chain has an entry with the flow id. -/
def FlowidHeld (dhd : FlowDhd) (id : Nat) : Prop := Held FlowHashInfo.flowid (flowChains dhd) id

/-- Where an allocation may have linked the entry: by priority, by hash, or into
the first slot for a multicast address. -/
def EntryPlaced (key : Nat × BitVec 8) (entry : FlowHashInfo) : Prop :=
  entry.ifindex = key.1 ∧
    (key.2 = entry.tid ∨ key.2 = dhdFlowringHashIndex entry.da entry.tid ∨
      (key.2 = 0 ∧ etherIsMulti entry.da = true))

structure LookupInvariant (dhd : FlowDhd) : Prop where
  bounded : dhd.numFlowRings < id16Invalid
  unique : UniqueIds FlowHashInfo.flowid (flowChains dhd)
  inTable : ∀ key, ∀ entry ∈ flowChains dhd key,
    flowidReserved ≤ entry.flowid ∧ entry.flowid < dhd.numFlowRings
  placed : ∀ key, ∀ entry ∈ flowChains dhd key, EntryPlaced key entry
  allocator : Id16Valid dhd.flowidAllocator
    (fun id => flowidReserved ≤ id ∧ id < dhd.numFlowRings ∧ ¬ FlowidHeld dhd id)

section Chains

@[simp] theorem flowChains_setFlHash (dhd : FlowDhd) (ifindex : Nat) (hash : BitVec 8)
    (chain : List FlowHashInfo) :
    flowChains (setFlHash dhd ifindex hash chain) =
      update (flowChains dhd) (ifindex, hash) chain := by
  funext ⟨other, place⟩
  by_cases here : other = ifindex
  · subst here
    by_cases there : place = hash
    · subst there
      simp [flowChains, setFlHash]
    · simp [flowChains, setFlHash, there]
  · simp [flowChains, setFlHash, here]

theorem chainSearch_cases (chain : List FlowHashInfo) (fits : FlowHashInfo → Bool) :
    (chainSearch chain fits = flowidInvalid ∧ ∀ entry ∈ chain, fits entry = false) ∨
      ∃ entry ∈ chain, fits entry = true ∧ chainSearch chain fits = entry.flowid := by
  cases found : chain.find? fits with
  | none =>
    refine Or.inl ⟨by simp [chainSearch, found], ?_⟩
    intro entry member
    simpa using List.find?_eq_none.mp found entry member
  | some entry =>
    exact Or.inr ⟨entry, List.mem_of_find?_eq_some found, List.find?_some found,
      by simp [chainSearch, found]⟩

/-- The state after `dhd_flowid_free` found the id in a chain. -/
def flowidUnlinked (dhd : FlowDhd) (ifindex : Nat) (hash : BitVec 8) (flowid : Nat) : FlowDhd :=
  { setFlHash dhd ifindex hash
      ((flowChains dhd (ifindex, hash)).eraseP (fun cur => cur.flowid = flowid)) with
    flowidAllocator := id16MapFree dhd.flowidAllocator flowid }

theorem dhdFlowidFree_cases (dhd : FlowDhd) (ifindex flowid : Nat) :
    (dhdFlowidFree dhd ifindex flowid = dhd ∧
      ∀ hash, ∀ entry ∈ flowChains dhd (ifindex, hash), entry.flowid ≠ flowid) ∨
    ∃ hash, ∃ entry ∈ flowChains dhd (ifindex, hash), entry.flowid = flowid ∧
      dhdFlowidFree dhd ifindex flowid = flowidUnlinked dhd ifindex hash flowid := by
  cases search : (List.range 256).find? (fun hashix =>
      ((dhd.ifFlowLkup ifindex).flHash (BitVec.ofNat 8 hashix)).any
        (fun cur => cur.flowid = flowid)) with
  | none =>
    refine Or.inl ⟨by simp only [dhdFlowidFree, search], ?_⟩
    intro hash entry member same
    have absent := List.find?_eq_none.mp search hash.toNat (by simpa using hash.isLt)
    rw [BitVec.ofNat_toNat, BitVec.setWidth_eq] at absent
    exact absent (List.any_eq_true.mpr ⟨entry, member, by simpa using same⟩)
  | some hashix =>
    have present := List.find?_some search
    obtain ⟨entry, member, same⟩ := List.any_eq_true.mp present
    refine Or.inr ⟨BitVec.ofNat 8 hashix, entry, member, by simpa using same, ?_⟩
    simp only [dhdFlowidFree, search]
    rfl

theorem LookupInvariant.ne_invalid {dhd : FlowDhd} (valid : LookupInvariant dhd)
    {key : Nat × BitVec 8} {entry : FlowHashInfo} (member : entry ∈ flowChains dhd key) :
    entry.flowid ≠ flowidInvalid := by
  have below := (valid.inTable key entry member).2
  have bounded := valid.bounded
  simp only [flowidInvalid]
  omega

end Chains

namespace LookupInvariant

variable {dhd dhd' : FlowDhd} {ifindex id : Nat} {prio : BitVec 8} {da : EtherAddr}

theorem frame (valid : LookupInvariant dhd) (size : dhd'.numFlowRings = dhd.numFlowRings)
    (chains : flowChains dhd' = flowChains dhd)
    (stack : SameIds dhd'.flowidAllocator dhd.flowidAllocator) : LookupInvariant dhd' := by
  obtain ⟨bounded, unique, inTable, placed, available⟩ := valid
  refine ⟨by rwa [size], by rwa [chains], ?_, by rwa [chains], ?_⟩
  · rw [chains, size]
    exact inTable
  · rw [size]
    simpa only [FlowidHeld, chains] using available.frame stack

theorem slot_empty (valid : LookupInvariant dhd) (station : (dhd.ifFlowLkup ifindex).role = wlcEIfRoleSta)
    (direct : ¬ (dhd.peerTbl.tdlsPeerCount ≠ 0 ∧ isTdlsDestination dhd da = true))
    (missing : dhdFlowidFind dhd ifindex prio da = flowidInvalid) :
    (dhd.ifFlowLkup ifindex).flHash prio = [] := by
  have notTdls : ¬ TdlsLookup dhd da := fun ⟨count, _, peer⟩ => direct ⟨count, peer⟩
  simp only [dhdFlowidFind, if_pos station, if_neg notTdls] at missing
  rcases chainSearch_cases ((dhd.ifFlowLkup ifindex).flHash prio) (fun _ => true)
    with ⟨-, none⟩ | ⟨entry, member, -, found⟩
  · exact List.eq_nil_iff_forall_not_mem.mpr fun entry member => by simpa using none entry member
  · have held : entry ∈ flowChains dhd (ifindex, prio) := member
    exact absurd (found.symm.trans missing) (valid.ne_invalid held)

/-- A fresh id enters one chain. -/
theorem link (valid : LookupInvariant dhd) {after : Id16Map} {hash : BitVec 8} {entry : FlowHashInfo}
    (inside : flowidReserved ≤ entry.flowid ∧ entry.flowid < dhd.numFlowRings)
    (fresh : ¬ FlowidHeld dhd entry.flowid) (placed : EntryPlaced (ifindex, hash) entry)
    (taken : Id16Valid after (fun other => (flowidReserved ≤ other ∧ other < dhd.numFlowRings ∧
      ¬ FlowidHeld dhd other) ∧ other ≠ entry.flowid)) :
    LookupInvariant (chainAppend { dhd with flowidAllocator := after } ifindex hash entry) := by
  have chains : flowChains (chainAppend { dhd with flowidAllocator := after } ifindex hash entry) =
      update (flowChains dhd) (ifindex, hash) (flowChains dhd (ifindex, hash) ++ [entry]) :=
    flowChains_setFlHash _ _ _ _
  refine ⟨valid.bounded, ?_, ?_, ?_, ?_⟩
  · rw [chains]
    exact valid.unique.append fresh
  · intro key found member
    rw [chains] at member
    rcases mem_update_append.mp member with old | ⟨-, rfl⟩
    · exact valid.inTable key found old
    · exact inside
  · intro key found member
    rw [chains] at member
    rcases mem_update_append.mp member with old | ⟨rfl, rfl⟩
    · exact valid.placed key found old
    · exact placed
  · refine taken.congr fun other => ?_
    simp only [FlowidHeld, chains, held_append, not_or]
    exact ⟨fun ⟨low, high, absent, different⟩ => ⟨⟨low, high, absent⟩, different⟩,
      fun ⟨⟨low, high, absent⟩, different⟩ => ⟨low, high, absent, different⟩⟩

/-- After an unsuccessful search the allocation fails, or links a fresh id to the
end of a chain it belongs to. -/
theorem alloc_cases (valid : LookupInvariant dhd)
    (missing : dhdFlowidFind dhd ifindex prio da = flowidInvalid) :
    (∃ after, SameIds after dhd.flowidAllocator ∧
      dhdFlowidAlloc dhd ifindex prio da = ({ dhd with flowidAllocator := after }, flowidInvalid)) ∨
    ∃ after id hash, id ≠ flowidInvalid ∧ id < dhd.numFlowRings ∧ ¬ FlowidHeld dhd id ∧
      dhdFlowidAlloc dhd ifindex prio da =
        (chainAppend { dhd with flowidAllocator := after } ifindex hash ⟨id, prio, ifindex, da⟩, id) ∧
      LookupInvariant
        (chainAppend { dhd with flowidAllocator := after } ifindex hash ⟨id, prio, ifindex, da⟩) := by
  rcases valid.allocator.alloc_cases with ⟨-, failed⟩ | ⟨id, after, ⟨low, high, fresh⟩, taken, rest⟩
  · left
    refine ⟨{ dhd.flowidAllocator with failures := dhd.flowidAllocator.failures + 1 },
      ⟨rfl, rfl⟩, ?_⟩
    simp only [dhdFlowidAlloc, failed, flowidInvalid, if_true]
  · right
    have different : id ≠ flowidInvalid := by
      have bounded := valid.bounded
      simp only [flowidInvalid]
      omega
    have linked : ∀ hash, EntryPlaced (ifindex, hash) ⟨id, prio, ifindex, da⟩ →
        LookupInvariant (chainAppend { dhd with flowidAllocator := after } ifindex hash
          ⟨id, prio, ifindex, da⟩) :=
      fun hash placed => valid.link ⟨low, high⟩ fresh placed rest
    have peers : isTdlsDestination { dhd with flowidAllocator := after } da =
        isTdlsDestination dhd da := rfl
    simp only [dhdFlowidAlloc, taken, if_neg different, peers]
    by_cases station : (dhd.ifFlowLkup ifindex).role = wlcEIfRoleSta
    · by_cases tdls : dhd.peerTbl.tdlsPeerCount ≠ 0 ∧ isTdlsDestination dhd da = true
      · refine ⟨after, id, dhdFlowringHashIndex da prio, different, high, fresh, ?_, ?_⟩
        · rw [if_pos station, if_pos tdls]
        · exact linked _ ⟨rfl, Or.inr (Or.inl rfl)⟩
      · -- the overwritten slot was empty, so this too is an append
        have empty := valid.slot_empty station tdls missing
        refine ⟨after, id, prio, different, high, fresh, ?_, ?_⟩
        · rw [if_pos station, if_neg tdls]
          simp only [chainAppend, empty, List.nil_append]
        · exact linked _ ⟨rfl, Or.inl rfl⟩
    · refine ⟨after, id, _, different, high, fresh, by rw [if_neg station], linked _ ⟨rfl, ?_⟩⟩
      by_cases multi : etherIsMulti da = true
      · exact Or.inr (Or.inr ⟨by simp [multi], multi⟩)
      · exact Or.inr (Or.inl (by simp [multi]))

/-- A held id leaves its chain and becomes available. -/
theorem unlink (valid : LookupInvariant dhd) {hash : BitVec 8} {entry : FlowHashInfo}
    (member : entry ∈ flowChains dhd (ifindex, hash)) :
    LookupInvariant (flowidUnlinked dhd ifindex hash entry.flowid) ∧
      ∀ id, FlowidHeld (flowidUnlinked dhd ifindex hash entry.flowid) id ↔
        FlowidHeld dhd id ∧ id ≠ entry.flowid := by
  have chains : flowChains (flowidUnlinked dhd ifindex hash entry.flowid) =
      update (flowChains dhd) (ifindex, hash)
        ((flowChains dhd (ifindex, hash)).eraseP (fun cur => cur.flowid = entry.flowid)) :=
    flowChains_setFlHash _ _ _ _
  have remains : ∀ id, FlowidHeld (flowidUnlinked dhd ifindex hash entry.flowid) id ↔
      FlowidHeld dhd id ∧ id ≠ entry.flowid := by
    intro id
    rw [FlowidHeld, chains]
    exact valid.unique.held_remove member
  have kept : ∀ {key found}, found ∈ flowChains (flowidUnlinked dhd ifindex hash entry.flowid) key →
      found ∈ flowChains dhd key := by
    intro key found present
    rw [chains] at present
    exact ((valid.unique.mem_update_remove member).mp present).1
  have inside := valid.inTable _ entry member
  have held : FlowidHeld dhd entry.flowid := ⟨_, entry, member, rfl⟩
  refine ⟨⟨valid.bounded, ?_, ?_, ?_, ?_⟩, remains⟩
  · rw [chains]
    exact valid.unique.remove member
  · intro key found present
    exact valid.inTable key found (kept present)
  · intro key found present
    exact valid.placed key found (kept present)
  · have used : ¬ (flowidReserved ≤ entry.flowid ∧ entry.flowid < dhd.numFlowRings ∧
        ¬ FlowidHeld dhd entry.flowid) := fun available => available.2.2 held
    have freed := valid.allocator.free used
    refine freed.congr fun id => ?_
    simp only [remains, not_and, not_not]
    constructor
    · intro ⟨low, high, absent⟩
      by_cases was : FlowidHeld dhd id
      · exact Or.inr (absent was)
      · exact Or.inl ⟨low, high, was⟩
    · rintro (⟨low, high, absent⟩ | rfl)
      · exact ⟨low, high, fun was => absurd was absent⟩
      · exact ⟨inside.1, inside.2, fun _ => rfl⟩

end LookupInvariant

end BcmDhd.FlowRing
