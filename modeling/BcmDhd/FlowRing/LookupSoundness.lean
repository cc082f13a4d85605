import BcmDhd.FlowRing.Effects

namespace BcmDhd.FlowRing

open BcmDhd.Lib BcmDhd.Utils

section Preservation

variable {dhd dhd' : FlowDhd} {call : FlowCall}

theorem LookupInvariant.flowidFree (valid : LookupInvariant dhd) (ifindex id : Nat) :
    LookupInvariant (dhdFlowidFree dhd ifindex id) := by
  rcases dhdFlowidFree_cases dhd ifindex id with ⟨unchanged, -⟩ | ⟨hash, entry, member, rfl, freed⟩
  · rwa [unchanged]
  · rw [freed]
    exact (valid.unlink member).1

theorem LookupInvariant.clean (valid : LookupInvariant dhd) (id : Nat) :
    LookupInvariant (dhdBusCleanFlowRing dhd id) := by
  have closed : LookupInvariant (ringClosed dhd id) := valid.frame rfl rfl ⟨rfl, rfl⟩
  rw [dhdBusCleanFlowRing_eq]
  exact closed.flowidFree _ _

theorem LookupInvariant.effect (valid : LookupInvariant dhd) (effect : FlowEffect dhd call dhd') :
    LookupInvariant dhd' := by
  cases effect with
  | quiet event quiet => exact valid.frame quiet.size quiet.chains quiet.stack
  | allocated inside fresh later => exact later
  | freed ifindex id => exact valid.flowidFree ifindex id
  | opened event => exact valid.frame rfl rfl ⟨rfl, rfl⟩
  | cleaned event => exact valid.clean _

theorem mem_flowidFree {key : Nat × BitVec 8} {entry : FlowHashInfo} {ifindex id : Nat}
    (member : entry ∈ flowChains (dhdFlowidFree dhd ifindex id) key) :
    entry ∈ flowChains dhd key := by
  rcases dhdFlowidFree_cases dhd ifindex id with ⟨unchanged, -⟩ | ⟨hash, found, -, rfl, freed⟩
  · rwa [unchanged] at member
  · rw [freed, flowidUnlinked] at member
    have member : entry ∈ flowChains (setFlHash dhd ifindex hash
        ((flowChains dhd (ifindex, hash)).eraseP (fun cur => cur.flowid = found.flowid))) key := member
    rw [flowChains_setFlHash] at member
    by_cases here : key = (ifindex, hash)
    · subst here
      rw [Function.update_self] at member
      exact List.mem_of_mem_eraseP member
    · rwa [Function.update_of_ne here] at member

theorem FlowEffect.entry (effect : FlowEffect dhd call dhd') {key : Nat × BitVec 8}
    {entry : FlowHashInfo} (member : entry ∈ flowChains dhd' key) :
    entry ∈ flowChains dhd key ∨
      ∃ sa created, call = .flowidUpdate entry.ifindex entry.tid sa entry.da created := by
  cases effect with
  | quiet event quiet => exact Or.inl (quiet.chains ▸ member)
  | @allocated ifindex prio sa da created after id hash inside fresh later =>
    rw [flowAllocated_chains] at member
    rcases mem_update_append.mp member with old | ⟨-, rfl⟩
    · exact Or.inl old
    · exact Or.inr ⟨sa, created, rfl⟩
  | freed ifindex id => exact Or.inl (mem_flowidFree member)
  | opened event => exact Or.inl member
  | @cleaned _ id event =>
    rw [dhdBusCleanFlowRing_eq] at member
    have kept : entry ∈ flowChains (ringClosed dhd id) key := mem_flowidFree member
    exact Or.inl kept

end Preservation

section Runs

/-- A lookup of the run was made for the interface, priority and address of the entry. -/
def AllocatedIn (calls : List FlowCall) (entry : FlowHashInfo) : Prop :=
  ∃ sa created, FlowCall.flowidUpdate entry.ifindex entry.tid sa entry.da created ∈ calls

theorem flowRingsInit_valid {num : Nat} (admissible : FlowRingsAdmissible num) :
    LookupInvariant (dhdFlowRingsInit num) := by
  have none : ∀ id, ¬ FlowidHeld (dhdFlowRingsInit num) id := by
    rintro id ⟨key, entry, member, -⟩
    cases member
  refine ⟨admissible.2, ⟨fun _ => List.nodup_nil, ?_⟩, ?_, ?_, ?_⟩
  · intro key key' entry entry' member
    cases member
  · intro key entry member
    cases member
  · intro key entry member
    cases member
  · refine (Id16Valid.init (num - flowidReserved) flowidReserved).congr fun id => ?_
    have enough := admissible.1
    constructor
    · rintro ⟨low, high, -⟩
      have high : id < num := high
      exact ⟨low, by omega⟩
    · intro ⟨low, high⟩
      have high : id < num := by omega
      exact ⟨low, high, none id⟩

/-- The lookup invariant, the size of the table and the origin of the entries. -/
def Recorded (num : Nat) (dhd : FlowDhd) (calls : List FlowCall) : Prop :=
  LookupInvariant dhd ∧ dhd.numFlowRings = num ∧
    ∀ key, ∀ entry ∈ flowChains dhd key, AllocatedIn calls entry

theorem flowMachine_records {num : Nat} {dhd : FlowDhd} {past : List FlowCall}
    (recorded : Recorded num dhd past) (call : FlowCall) :
    Recorded num (flowMachine.next dhd call) (past ++ [call]) := by
  obtain ⟨valid, size, origin⟩ := recorded
  have effect := flowMachine_effect valid call
  refine ⟨valid.effect effect, effect.size.trans size, ?_⟩
  intro key entry member
  rcases effect.entry member with old | ⟨sa, created, rfl⟩
  · obtain ⟨sa, created, earlier⟩ := origin key entry old
    exact ⟨sa, created, List.mem_append_left _ earlier⟩
  · exact ⟨sa, created, by simp⟩

theorem flow_run_recorded {num : Nat} (admissible : FlowRingsAdmissible num)
    {calls : List FlowCall} (admitted : flowMachine.Admitted (dhdFlowRingsInit num) calls) :
    Recorded num (flowMachine.run (dhdFlowRingsInit num) calls) calls := by
  have initial : Recorded num (dhdFlowRingsInit num) [] :=
    ⟨flowRingsInit_valid admissible, rfl, fun _ _ member => by cases member⟩
  have preserved : ∀ dhd past call, Recorded num dhd past → flowMachine.admits dhd call →
      Recorded num (flowMachine.next dhd call) (past ++ [call]) :=
    fun _ _ call recorded _ => flowMachine_records recorded call
  exact flowMachine.run_calls_invariant preserved initial admitted

end Runs

section Answers

variable {dhd : FlowDhd} {ifindex id : Nat} {prio : BitVec 8} {da : EtherAddr}

/-- What the entry behind a found flow id has in common with the search. On a
station interface a bucket is shared by the priority that is its index and by
what hashes to it, and the priority is promised outside such a coincidence. -/
structure FoundFor (dhd : FlowDhd) (ifindex : Nat) (prio : BitVec 8) (da : EtherAddr)
    (entry : FlowHashInfo) : Prop where
  interface : entry.ifindex = ifindex
  unicast : (dhd.ifFlowLkup ifindex).role ≠ wlcEIfRoleSta → etherIsMulti da = false →
    entry.tid = prio ∧ entry.da = da
  multicast : (dhd.ifFlowLkup ifindex).role ≠ wlcEIfRoleSta → etherIsMulti da = true →
    etherIsMulti entry.da = true
  tdls : (dhd.ifFlowLkup ifindex).role = wlcEIfRoleSta → TdlsLookup dhd da →
    entry.da = da ∧ (entry.tid ≠ dhdFlowringHashIndex da prio → entry.tid = prio)
  station : (dhd.ifFlowLkup ifindex).role = wlcEIfRoleSta → ¬ TdlsLookup dhd da →
    dhdFlowringHashIndex entry.da entry.tid ≠ prio → ¬ (prio = 0 ∧ etherIsMulti entry.da = true) →
    entry.tid = prio

theorem hashIndex_inj {first second : BitVec 8}
    (same : dhdFlowringHashIndex da first = dhdFlowringHashIndex da second) : first = second :=
  (BitVec.xor_right_inj _).mp same

theorem find_tdls (valid : LookupInvariant dhd)
    (station : (dhd.ifFlowLkup ifindex).role = wlcEIfRoleSta) (tdls : TdlsLookup dhd da)
    (found : dhdFlowidFind dhd ifindex prio da ≠ flowidInvalid) :
    ∃ hash, ∃ entry ∈ flowChains dhd (ifindex, hash),
      entry.flowid = dhdFlowidFind dhd ifindex prio da ∧ FoundFor dhd ifindex prio da entry := by
  simp only [dhdFlowidFind, if_pos station, if_pos tdls] at found ⊢
  rcases chainSearch_cases ((dhd.ifFlowLkup ifindex).flHash (dhdFlowringHashIndex da prio))
    (fun cur => cur.da = da) with ⟨missing, -⟩ | ⟨entry, member, fits, result⟩
  · exact absurd missing found
  · have member : entry ∈ flowChains dhd (ifindex, dhdFlowringHashIndex da prio) := member
    obtain ⟨interface, place⟩ := valid.placed _ entry member
    have address : entry.da = da := by simpa using fits
    have unicast : etherIsMulti entry.da = false := address ▸ tdls.2.1
    refine ⟨_, entry, member, result.symm, interface, ?_, ?_, ?_, ?_⟩
    · exact fun other => absurd station other
    · exact fun other => absurd station other
    · refine fun _ _ => ⟨address, fun elsewhere => ?_⟩
      rcases place with byPrio | byHash | ⟨-, multi⟩
      · exact absurd byPrio.symm elsewhere
      · rw [address] at byHash
        exact (hashIndex_inj byHash).symm
      · rw [unicast] at multi
        cases multi
    · exact fun _ direct => absurd tdls direct

theorem find_station (valid : LookupInvariant dhd)
    (station : (dhd.ifFlowLkup ifindex).role = wlcEIfRoleSta) (direct : ¬ TdlsLookup dhd da)
    (found : dhdFlowidFind dhd ifindex prio da ≠ flowidInvalid) :
    ∃ hash, ∃ entry ∈ flowChains dhd (ifindex, hash),
      entry.flowid = dhdFlowidFind dhd ifindex prio da ∧ FoundFor dhd ifindex prio da entry := by
  simp only [dhdFlowidFind, if_pos station, if_neg direct] at found ⊢
  rcases chainSearch_cases ((dhd.ifFlowLkup ifindex).flHash prio) (fun _ => true)
    with ⟨missing, -⟩ | ⟨entry, member, -, result⟩
  · exact absurd missing found
  · have member : entry ∈ flowChains dhd (ifindex, prio) := member
    obtain ⟨interface, place⟩ := valid.placed _ entry member
    refine ⟨_, entry, member, result.symm, interface, ?_, ?_, ?_, ?_⟩
    · exact fun other => absurd station other
    · exact fun other => absurd station other
    · exact fun _ tdls => absurd tdls direct
    · intro _ _ notHashed notMulti
      rcases place with byPrio | byHash | multi
      · exact byPrio.symm
      · exact absurd byHash.symm notHashed
      · exact absurd multi notMulti

theorem find_other (valid : LookupInvariant dhd)
    (other : (dhd.ifFlowLkup ifindex).role ≠ wlcEIfRoleSta)
    (found : dhdFlowidFind dhd ifindex prio da ≠ flowidInvalid) :
    ∃ hash, ∃ entry ∈ flowChains dhd (ifindex, hash),
      entry.flowid = dhdFlowidFind dhd ifindex prio da ∧ FoundFor dhd ifindex prio da entry := by
  simp only [dhdFlowidFind, if_neg other] at found ⊢
  rcases chainSearch_cases
    ((dhd.ifFlowLkup ifindex).flHash (if etherIsMulti da then 0 else dhdFlowringHashIndex da prio))
    (fun cur => (etherIsMulti da && etherIsMulti cur.da) ||
      (decide (cur.da = da) && decide (cur.tid = prio)))
    with ⟨missing, -⟩ | ⟨entry, member, fits, result⟩
  · exact absurd missing found
  · have interface := (valid.placed (ifindex, _) entry member).1
    simp only [Bool.or_eq_true, Bool.and_eq_true, decide_eq_true_eq] at fits
    refine ⟨_, entry, member, result.symm, interface, ?_, ?_, ?_, ?_⟩
    · intro _ unicast
      rcases fits with ⟨multi, -⟩ | ⟨address, priority⟩
      · rw [unicast] at multi
        cases multi
      · exact ⟨priority, address⟩
    · intro _ multi
      rcases fits with ⟨-, entryMulti⟩ | ⟨address, -⟩
      · exact entryMulti
      · rwa [address]
    · exact fun station => absurd station other
    · exact fun station => absurd station other

theorem find_sound (valid : LookupInvariant dhd)
    (found : dhdFlowidFind dhd ifindex prio da ≠ flowidInvalid) :
    ∃ hash, ∃ entry ∈ flowChains dhd (ifindex, hash),
      entry.flowid = dhdFlowidFind dhd ifindex prio da ∧ FoundFor dhd ifindex prio da entry := by
  by_cases station : (dhd.ifFlowLkup ifindex).role = wlcEIfRoleSta
  · by_cases tdls : TdlsLookup dhd da
    · exact find_tdls valid station tdls found
    · exact find_station valid station tdls found
  · exact find_other valid station found

/-- The id occurs once in this chain and in no other chain. -/
def OnceInChains (dhd : FlowDhd) (ifindex : Nat) (hash : BitVec 8) (id : Nat) : Prop :=
  ((flowChains dhd (ifindex, hash)).map FlowHashInfo.flowid).count id = 1 ∧
    ∀ key, id ∈ (flowChains dhd key).map FlowHashInfo.flowid → key = (ifindex, hash)

theorem once_of_mem (valid : LookupInvariant dhd) {hash : BitVec 8} {entry : FlowHashInfo}
    (member : entry ∈ flowChains dhd (ifindex, hash)) :
    OnceInChains dhd ifindex hash entry.flowid := by
  refine ⟨List.count_eq_one_of_mem (valid.unique.nodup _) (List.mem_map_of_mem member), ?_⟩
  intro key present
  obtain ⟨found, inside, same⟩ := List.mem_map.mp present
  exact valid.unique.apart inside member same

theorem held_of_not_available (valid : LookupInvariant dhd)
    (low : flowidReserved ≤ id) (high : id < dhd.numFlowRings)
    (used : ¬ Id16Available dhd.flowidAllocator id) : FlowidHeld dhd id := by
  by_contra absent
  exact used ((valid.allocator.available_iff id).mpr ⟨low, high, absent⟩)

theorem free_releases (valid : LookupInvariant dhd) {hash : BitVec 8} {entry : FlowHashInfo}
    (member : entry ∈ flowChains dhd (ifindex, hash)) :
    ¬ FlowidHeld (dhdFlowidFree dhd ifindex entry.flowid) entry.flowid ∧
      Id16Available (dhdFlowidFree dhd ifindex entry.flowid).flowidAllocator entry.flowid := by
  rcases dhdFlowidFree_cases dhd ifindex entry.flowid with
    ⟨-, absent⟩ | ⟨other, found, present, same, freed⟩
  · exact absurd rfl (absent hash entry member)
  · obtain ⟨later, remains⟩ := valid.unlink present
    rw [same] at later remains
    have gone : ¬ FlowidHeld (flowidUnlinked dhd ifindex other entry.flowid) entry.flowid :=
      fun held => ((remains _).mp held).2 rfl
    obtain ⟨low, high⟩ := valid.inTable _ entry member
    rw [freed]
    exact ⟨gone, (later.allocator.available_iff _).mpr ⟨low, high, gone⟩⟩

end Answers

/-- In every run a found flow id belongs to an entry that was allocated for the
search, and every id the allocator has handed out is in one chain, from where
`dhd_flowid_free` returns it. -/
theorem flowid_lookup_table_sound {num : Nat} (admissible : FlowRingsAdmissible num)
    {calls : List FlowCall} (admitted : flowMachine.Admitted (dhdFlowRingsInit num) calls) :
    let dhd := flowMachine.run (dhdFlowRingsInit num) calls
    (∀ ifindex prio da, dhdFlowidFind dhd ifindex prio da ≠ flowidInvalid →
      ∃ hash, ∃ entry ∈ flowChains dhd (ifindex, hash),
        entry.flowid = dhdFlowidFind dhd ifindex prio da ∧ AllocatedIn calls entry ∧
          FoundFor dhd ifindex prio da entry) ∧
    ∀ id, flowidReserved ≤ id → id < num → ¬ Id16Available dhd.flowidAllocator id →
      ∃ ifindex hash, OnceInChains dhd ifindex hash id ∧
        (∃ entry ∈ flowChains dhd (ifindex, hash),
          entry.flowid = id ∧ entry.ifindex = ifindex ∧ AllocatedIn calls entry) ∧
        ¬ FlowidHeld (dhdFlowidFree dhd ifindex id) id ∧
        Id16Available (dhdFlowidFree dhd ifindex id).flowidAllocator id := by
  intro dhd
  obtain ⟨valid, size, origin⟩ : Recorded num dhd calls := flow_run_recorded admissible admitted
  constructor
  · intro ifindex prio da found
    obtain ⟨hash, entry, member, result, agrees⟩ := find_sound valid found
    exact ⟨hash, entry, member, result, origin _ entry member, agrees⟩
  · intro id low high used
    have held := held_of_not_available valid low (size ▸ high) used
    obtain ⟨⟨ifindex, hash⟩, entry, member, rfl⟩ := held
    have interface := (valid.placed _ entry member).1
    refine ⟨ifindex, hash, once_of_mem valid member, ?_, free_releases valid member⟩
    exact ⟨entry, member, rfl, interface, origin _ entry member⟩

section Multicast

def groupAddr : EtherAddr := ⟨1, 0, 94, 0, 0, 1⟩

def stationAddr : EtherAddr := ⟨2, 0, 0, 0, 0, 7⟩

/-- An access point interface and one multicast flow of priority 0. -/
def multicastFlow : List FlowCall :=
  [.interfaceFlowInfo 0 wlcEIfAdd 1, .flowidUpdate 0 0 stationAddr groupAddr true]

theorem flowid_lookup_table_sound_multicast :
    FlowRingsAdmissible 4 ∧ flowMachine.Admitted (dhdFlowRingsInit 4) multicastFlow ∧
      ∃ ifindex hash,
        OnceInChains (flowMachine.run (dhdFlowRingsInit 4) multicastFlow) ifindex hash 3 := by
  have admissible : FlowRingsAdmissible 4 := by decide
  have admitted : flowMachine.Admitted (dhdFlowRingsInit 4) multicastFlow := ⟨trivial, trivial, trivial⟩
  have used : ¬ Id16Available (flowMachine.run (dhdFlowRingsInit 4) multicastFlow).flowidAllocator 3 := by
    rintro ⟨idx, below, found⟩
    have top : (flowMachine.run (dhdFlowRingsInit 4) multicastFlow).flowidAllocator.stackIdx = 0 := by
      decide
    have left : (flowMachine.run (dhdFlowRingsInit 4) multicastFlow).flowidAllocator.stack 0 = 2 := by
      decide
    obtain rfl : idx = 0 := by omega
    rw [left] at found
    cases found
  obtain ⟨ifindex, hash, once, -⟩ :=
    (flowid_lookup_table_sound admissible admitted).2 3 (by decide) (by decide) used
  exact ⟨admissible, admitted, ifindex, hash, once⟩

/-- The multicast flow of priority 0 is found for priority 5, for which no lookup
of the run asked. -/
theorem flowid_find_multicast_ignores_prio :
    FlowRingsAdmissible 4 ∧ flowMachine.Admitted (dhdFlowRingsInit 4) multicastFlow ∧
      dhdFlowidFind (flowMachine.run (dhdFlowRingsInit 4) multicastFlow) 0 5 groupAddr = 3 ∧
      ∀ entry, AllocatedIn multicastFlow entry → entry.tid ≠ 5 := by
  refine ⟨by decide, ⟨trivial, trivial, trivial⟩, by decide, ?_⟩
  rintro entry ⟨sa, created, asked⟩ same
  rw [same] at asked
  simp [multicastFlow] at asked

end Multicast

end BcmDhd.FlowRing
