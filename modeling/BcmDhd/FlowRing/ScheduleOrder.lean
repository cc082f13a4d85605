import BcmDhd.FlowRing.FlowQueue
import BcmDhd.Msgbuf.TxPostBatch

namespace BcmDhd.FlowRing

open BcmDhd.Lib BcmDhd.Msgbuf Function

/-- The packet that a call has taken out and not yet put anywhere. -/
def SchedulePhase.held : SchedulePhase → List Nat
  | .refused txp => [txp]
  | _ => []

/-- The packets of a flow that are still with the host: the queue links `pkts`
behind the packet a call holds, and they are what remains of those taken in. -/
structure FlowHolds (links : PktLinks) (packets : Nat → TxPkt) (flowid : Nat)
    (flow : ScheduledFlow) (posted : List PostedPkt) (pkts : List Nat) : Prop where
  queued : Queues links flow.queue pkts
  max : flow.queue.max < 2 ^ 16
  nodup : (flow.phase.held ++ pkts).Nodup
  room : (flow.phase.held ++ pkts).length < 2 ^ 16
  owned : ∀ pkt ∈ flow.phase.held ++ pkts, (packets pkt).flowid = flowid ∧ (packets pkt).ptr = pkt
  order : posted.map (·.pkt) ++ (flow.phase.held ++ pkts).map packets = flow.accepted

/-- A flow ring after the posts on it: one slot for each, and nothing left to be
announced outside a call. -/
structure RingHolds (depth start : Nat) (phase : SchedulePhase) (posted : List PostedPkt)
    (ring : Msgbuf.FlowRing) : Prop where
  maxItems : ring.h2d.ring.maxItems = depth
  wr : ring.h2d.ring.wr = (start + posted.length) % depth
  slots : posted.map (·.slot) = Lib.slots depth start posted.length
  announced : phase = .idle → AllAnnounced ring

structure ScheduleInvariant (depth start : Nat → Nat) (dhd : ScheduleDhd) : Prop where
  prot : TxInvariant dhd.prot
  flows : ∀ flowid, ∃ pkts,
    FlowHolds dhd.links dhd.packets flowid (dhd.flows flowid) (dhd.posted flowid) pkts
  rings : ∃ table, dhd.prot.flowRingTable = some table ∧ ∀ flowid,
    RingHolds (depth flowid) (start flowid) (dhd.flows flowid).phase (dhd.posted flowid)
      (table flowid)

namespace FlowHolds

variable {links links' : PktLinks} {packets packets' : Nat → TxPkt} {flowid : Nat}
variable {flow flow' : ScheduledFlow} {posted : List PostedPkt} {pkts : List Nat}

section

variable (holds : FlowHolds links packets flowid flow posted pkts)
include holds

theorem frame (sameLinks : ∀ pkt ∈ flow.phase.held ++ pkts, links' pkt = links pkt)
    (samePackets : ∀ pkt ∈ flow.phase.held ++ pkts, packets' pkt = packets pkt) :
    FlowHolds links' packets' flowid flow posted pkts where
  queued := holds.queued.frame fun pkt member => sameLinks pkt (List.mem_append_right _ member)
  max := holds.max
  nodup := holds.nodup
  room := holds.room
  owned := fun pkt member => by
    rw [samePackets pkt member]
    exact holds.owned pkt member
  order := by
    rw [List.map_congr_left samePackets]
    exact holds.order

theorem relabel (queue : flow'.queue = flow.queue) (held : flow'.phase.held = flow.phase.held)
    (accepted : flow'.accepted = flow.accepted) :
    FlowHolds links packets flowid flow' posted pkts where
  queued := by rw [queue]; exact holds.queued
  max := by rw [queue]; exact holds.max
  nodup := by rw [held]; exact holds.nodup
  room := by rw [held]; exact holds.room
  owned := by rw [held]; exact holds.owned
  order := by rw [held, accepted]; exact holds.order

theorem waiting_eq : flow.accepted.drop posted.length = (flow.phase.held ++ pkts).map packets := by
  rw [← holds.order]
  have passed : posted.length = (posted.map (·.pkt)).length := by rw [List.length_map]
  rw [passed, List.drop_left]

theorem waiting_ptrs : (flow.accepted.drop posted.length).map (·.ptr) = flow.phase.held ++ pkts := by
  rw [holds.waiting_eq, List.map_map]
  refine (List.map_congr_left fun pkt member => ?_).trans (List.map_id _)
  exact (holds.owned pkt member).2

end

/-- A packet is taken in. -/
theorem enqueue {pkt : TxPkt} {queue : FlowQueue}
    (holds : FlowHolds links packets pkt.flowid flow posted pkts) (outside : flow.phase.held = [])
    (absent : pkt.ptr ∉ pkts) (queued : Queues links' queue (pkts ++ [pkt.ptr]))
    (max : queue.max = flow.queue.max) (room : pkts.length < flow.queue.max) :
    FlowHolds links' (update packets pkt.ptr pkt) pkt.flowid
      { flow with queue, accepted := flow.accepted ++ [pkt] } posted (pkts ++ [pkt.ptr]) := by
  have bounded := holds.max
  have order := holds.order
  have owned := holds.owned
  rw [outside, List.nil_append] at order owned
  have old : ∀ other ∈ pkts, update packets pkt.ptr pkt other = packets other :=
    fun other member => update_of_ne (ne_of_mem_of_not_mem member absent) _ _
  refine ⟨queued, by rw [max]; exact holds.max, ?_, ?_, ?_, ?_⟩
  · rw [outside]
    exact queued.spells.nodup
  · rw [outside, List.nil_append, List.length_append, List.length_singleton]
    omega
  · rw [outside, List.nil_append]
    intro other member
    rcases List.mem_append.mp member with waiting | new
    · rw [old other waiting]
      exact owned other waiting
    · cases List.mem_singleton.mp new
      rw [update_self]
      exact ⟨rfl, rfl⟩
  · rw [outside, List.nil_append, List.map_append, List.map_congr_left old, ← List.append_assoc,
      order]
    simp

variable {pkt : Nat} {queue : FlowQueue}

theorem transfer (holds : FlowHolds links packets flowid flow posted (pkt :: pkts))
    (outside : flow.phase.held = []) (queued : Queues links' queue pkts)
    (max : queue.max = flow.queue.max) (slot : Nat) :
    FlowHolds links' packets flowid { flow with queue } (posted ++ [⟨packets pkt, slot⟩]) pkts := by
  have room := holds.room
  have order := holds.order
  have owned := holds.owned
  have nodup := holds.nodup
  rw [outside, List.nil_append] at room order owned nodup
  refine ⟨queued, by rw [max]; exact holds.max, ?_, ?_, ?_, ?_⟩
  · rw [outside]
    exact (List.nodup_cons.mp nodup).2
  · rw [outside]
    exact Nat.lt_of_succ_lt room
  · rw [outside]
    exact fun other member => owned other (List.mem_cons_of_mem _ member)
  · rw [outside, ← order]
    simp

theorem refuse (holds : FlowHolds links packets flowid flow posted (pkt :: pkts))
    (outside : flow.phase.held = []) (queued : Queues links' queue pkts)
    (max : queue.max = flow.queue.max) :
    FlowHolds links' packets flowid { flow with queue, phase := .refused pkt } posted pkts := by
  have room := holds.room
  have order := holds.order
  have owned := holds.owned
  have nodup := holds.nodup
  rw [outside, List.nil_append] at room order owned nodup
  exact ⟨queued, by rw [max]; exact holds.max, nodup, room, owned, order⟩

theorem reinsert (holds : FlowHolds links packets flowid flow posted pkts)
    (refused : flow.phase = .refused pkt) :
    FlowHolds (dhdFlowQueueReinsert links flow.queue pkt).1 packets flowid
      { flow with
        queue := (dhdFlowQueueReinsert links flow.queue pkt).2
        phase := .idle } posted (pkt :: pkts) := by
  have room := holds.room
  have order := holds.order
  have owned := holds.owned
  have nodup := holds.nodup
  rw [refused] at room order owned nodup
  have absent : pkt ∉ pkts := (List.nodup_cons.mp nodup).1
  exact ⟨holds.queued.reinsert absent room, holds.max, nodup, room, owned, order⟩

theorem apart {other : Nat} {otherFlow : ScheduledFlow} {otherPosted : List PostedPkt}
    {otherPkts : List Nat} (holds : FlowHolds links packets flowid flow posted pkts)
    (others : FlowHolds links packets other otherFlow otherPosted otherPkts)
    (different : other ≠ flowid) {pkt : Nat} (member : pkt ∈ flow.phase.held ++ pkts) :
    pkt ∉ otherFlow.phase.held ++ otherPkts := by
  intro elsewhere
  exact different ((others.owned pkt elsewhere).1.symm.trans (holds.owned pkt member).1)

end FlowHolds

namespace RingHolds

variable {depth start : Nat} {phase : SchedulePhase} {posted : List PostedPkt}
variable {ring : Msgbuf.FlowRing}

section

variable (holds : RingHolds depth start phase posted ring)
include holds

theorem refreshed : RingHolds depth start phase posted ring.refreshed where
  maxItems := holds.maxItems
  wr := holds.wr
  slots := holds.slots
  announced := fun idle =>
    let all := holds.announced idle
    ⟨all.announced, all.unannounced, all.pendItemsCount, all.startAddr⟩

theorem read (count : Nat) :
    RingHolds depth start phase posted
      { ring with h2d := h2dMachine.next ring.h2d (.dongleRead count) } where
  maxItems := holds.maxItems
  wr := holds.wr
  slots := holds.slots
  announced := fun idle =>
    let all := holds.announced idle
    ⟨all.announced, all.unannounced, all.pendItemsCount, all.startAddr⟩

theorem enter (inside : SchedulePhase)
    (busy : inside ≠ .idle) : RingHolds depth start inside posted ring where
  maxItems := holds.maxItems
  wr := holds.wr
  slots := holds.slots
  announced := fun idle => (busy idle).elim

theorem afterPost (busy : phase ≠ .idle)
    (dhd : TxProt) (rd : Nat) (pkt : TxPkt) (ifidx pktid : Nat) (inside : ring.h2d.ring.wr < depth) :
    RingHolds depth start phase (posted ++ [⟨pkt, ring.h2d.ring.wr⟩])
      (postedRing dhd ring rd pkt ifidx pktid) := by
  refine ⟨?_, ?_, ?_, fun idle => (busy idle).elim⟩
  · rw [postedRing_ring]
    exact holds.maxItems
  · rw [postedRing_ring]
    change (ring.h2d.ring.wr + 1) % ring.h2d.ring.maxItems = _
    rw [holds.maxItems, holds.wr, Nat.mod_add_mod, List.length_append, Nat.add_assoc]
    rfl
  · rw [List.map_append, holds.slots, List.length_append, Circular.slots_add, ← holds.wr]
    simp [Circular.slots_one inside]

theorem leave (batch : OpenBatch ring) :
    RingHolds depth start .idle posted ring.writeFlush := by
  refine ⟨?_, ?_, holds.slots, fun _ => batch.flush.2⟩
  · rw [FlowRing.writeFlush_ring]
    exact holds.maxItems
  · rw [FlowRing.writeFlush_ring]
    exact holds.wr

end

end RingHolds

namespace ScheduleInvariant

variable {depth start : Nat → Nat} {dhd : ScheduleDhd}

/-- One flow and its ring change; the packets and rings of the others are left
alone, but for their cached read indices. -/
theorem changeFlow (valid : ScheduleInvariant depth start dhd) {after : ScheduleDhd}
    (flowid : Nat) (pkts : List Nat) {flow : ScheduledFlow} {posted : List PostedPkt}
    {table rings : Nat → Msgbuf.FlowRing}
    (flows : after.flows = update dhd.flows flowid flow)
    (record : after.posted = update dhd.posted flowid posted)
    (prot : TxInvariant after.prot)
    (here : FlowHolds after.links after.packets flowid flow posted pkts)
    (elsewhere : ∀ other ≠ flowid, ∀ others, FlowHolds dhd.links dhd.packets other
      (dhd.flows other) (dhd.posted other) others → ∀ pkt ∈ (dhd.flows other).phase.held ++ others,
        after.links pkt = dhd.links pkt ∧ after.packets pkt = dhd.packets pkt)
    (before : dhd.prot.flowRingTable = some table) (attached : after.prot.flowRingTable = some rings)
    (ring : RingHolds (depth flowid) (start flowid) flow.phase posted (rings flowid))
    (others : ∀ other ≠ flowid, rings other = table other ∨ rings other = (table other).refreshed) :
    ScheduleInvariant depth start after := by
  refine ⟨prot, fun other => ?_, rings, attached, fun other => ?_⟩
  · rw [flows, record]
    by_cases same : other = flowid
    · subst same
      rw [update_self, update_self]
      exact ⟨pkts, here⟩
    · rw [update_of_ne same, update_of_ne same]
      obtain ⟨theirs, holds⟩ := valid.flows other
      have kept := elsewhere other same theirs holds
      exact ⟨theirs, holds.frame (fun pkt member => (kept pkt member).1)
        (fun pkt member => (kept pkt member).2)⟩
  · rw [flows, record]
    by_cases same : other = flowid
    · subst same
      rw [update_self, update_self]
      exact ring
    · rw [update_of_ne same, update_of_ne same]
      obtain ⟨known, found, holds⟩ := valid.rings
      cases before.symm.trans found
      rcases others other same with kept | kept
      · rw [kept]
        exact holds other
      · rw [kept]
        exact (holds other).refreshed

private theorem handed_down (pkt : TxPkt) (admitted : scheduleMachine.admits dhd (.enqueue pkt))
    {flowid : Nat} {pkts : List Nat} (holds : FlowHolds dhd.links dhd.packets flowid
      (dhd.flows flowid) (dhd.posted flowid) pkts) :
    pkt.ptr ∉ (dhd.flows flowid).phase.held ++ pkts := by
  have absent := admitted.2 flowid
  rwa [ScheduleDhd.waiting, holds.waiting_ptrs] at absent

section

variable (valid : ScheduleInvariant depth start dhd)
include valid

theorem enqueue {pkt : TxPkt}
    (admitted : scheduleMachine.admits dhd (.enqueue pkt)) :
    ScheduleInvariant depth start (enqueuePkt dhd pkt).1 := by
  obtain ⟨table, attached, rings⟩ := valid.rings
  obtain ⟨pkts, holds⟩ := valid.flows pkt.flowid
  have held : (dhd.flows pkt.flowid).phase.held = [] := by rw [admitted.1]; rfl
  have absent := handed_down pkt admitted holds
  rw [held, List.nil_append] at absent
  have written : ∀ flowid others, FlowHolds dhd.links dhd.packets flowid (dhd.flows flowid)
      (dhd.posted flowid) others → ∀ other ∈ (dhd.flows flowid).phase.held ++ others,
        update dhd.packets pkt.ptr pkt other = dhd.packets other := by
    intro flowid others theirs other member
    exact update_of_ne
      (ne_of_mem_of_not_mem member (handed_down pkt admitted theirs)) _ _
  rcases holds.queued.enqueue absent holds.max with
    ⟨-, refused⟩ | ⟨room, links, queue, accepted, queued, max, frame⟩
  · simp only [enqueuePkt, refused]
    refine valid.changeFlow pkt.flowid pkts rfl (update_eq_self _ _).symm valid.prot ?_ ?_
      attached attached (rings pkt.flowid) (fun _ _ => .inl rfl)
    · have kept := holds.frame (fun _ _ => rfl) (written pkt.flowid pkts holds)
      exact ⟨⟨kept.queued.spells, kept.queued.len⟩, kept.max, kept.nodup, kept.room, kept.owned,
        kept.order⟩
    · intro other _ others theirs waiting member
      exact ⟨rfl, written other others theirs waiting member⟩
  · simp only [enqueuePkt, accepted]
    refine valid.changeFlow pkt.flowid (pkts ++ [pkt.ptr]) rfl (update_eq_self _ _).symm
      valid.prot (holds.enqueue held absent queued max room) ?_ attached attached
      (rings pkt.flowid) (fun _ _ => .inl rfl)
    intro other different others theirs waiting member
    refine ⟨frame waiting ?_ ?_, written other others theirs waiting member⟩
    · intro mine
      exact holds.apart theirs different (List.mem_append_right _ mine) member
    · exact ne_of_mem_of_not_mem member (handed_down pkt admitted theirs)

theorem moveOn {flowid : Nat} {phase : SchedulePhase}
    (held : phase.held = (dhd.flows flowid).phase.held) (busy : phase ≠ .idle) :
    ScheduleInvariant depth start (setPhase dhd flowid phase) := by
  obtain ⟨table, attached, rings⟩ := valid.rings
  obtain ⟨pkts, holds⟩ := valid.flows flowid
  exact valid.changeFlow flowid pkts rfl (update_eq_self _ _).symm valid.prot
    (holds.relabel rfl held rfl) (fun _ _ _ _ _ _ => ⟨rfl, rfl⟩) attached attached
    ((rings flowid).enter phase busy) (fun _ _ => .inl rfl)

theorem transfer {flowid : Nat} (secdmaAvail : Bool)
    (admitted : (dhd.flows flowid).phase = .looping) :
    ScheduleInvariant depth start (scheduleTransfer dhd flowid secdmaAvail).1 := by
  obtain ⟨table, attached, rings⟩ := valid.rings
  obtain ⟨pkts, holds⟩ := valid.flows flowid
  have held : (dhd.flows flowid).phase.held = [] := by rw [admitted]; rfl
  cases pkts with
  | nil =>
    simp only [scheduleTransfer, holds.queued.dequeue_empty]
    exact valid.moveOn held.symm nofun
  | cons txp pkts =>
    have room := holds.room
    rw [held] at room
    have mine : txp ∈ (dhd.flows flowid).phase.held ++ txp :: pkts := by simp
    have tagged : (dhd.packets txp).flowid = flowid := (holds.owned txp mine).1
    obtain ⟨links, queue, dequeued, queued, max, frame⟩ := holds.queued.dequeue room
    have elsewhere : ∀ other ≠ flowid, ∀ others, FlowHolds dhd.links dhd.packets other
        (dhd.flows other) (dhd.posted other) others →
          ∀ pkt ∈ (dhd.flows other).phase.held ++ others, links pkt = dhd.links pkt ∧
            dhd.packets pkt = dhd.packets pkt := by
      intro other different others theirs pkt member
      exact ⟨frame pkt (ne_of_mem_of_not_mem member (holds.apart theirs different mine)), rfl⟩
    have prot := valid.prot.txdata (dhd.packets txp) (dhd.flows flowid).ifindex secdmaAvail
    simp only [scheduleTransfer, dequeued]
    rcases dhdProtTxdata_cases valid.prot (dhd.packets txp) (dhd.flows flowid).ifindex secdmaAvail with
      ⟨after, refused, kept⟩ | ⟨known, rd, found, -, -, posted⟩
    · rw [refused] at prot
      simp only [refused]
      obtain ⟨after', attached', same⟩ := kept.rings_cases attached
      refine valid.changeFlow flowid pkts rfl (update_eq_self _ _).symm prot
        (holds.refuse held queued max) elsewhere attached attached' ?_ (fun other _ => same other)
      have ring := (rings flowid).enter (.refused txp) nofun
      rcases same flowid with unchanged | unchanged
      · rw [unchanged]
        exact ring
      · rw [unchanged]
        exact ring.refreshed
    · cases found.symm.trans attached
      have batch := valid.prot.rings table found flowid
      have inside : (table flowid).h2d.ring.wr < depth flowid := by
        rw [batch.wr_straight, ← (rings flowid).maxItems]
        exact batch.short
      have slot : nextSlot dhd.prot flowid = (table flowid).h2d.ring.wr := by
        rw [nextSlot, found]
        rfl
      rw [posted] at prot
      simp only [tagged] at posted prot
      simp only [posted, tagged, slot]
      refine valid.changeFlow flowid pkts rfl rfl prot
        (holds.transfer held queued max (table flowid).h2d.ring.wr) elsewhere attached rfl ?_ ?_
      · rw [update_self]
        exact (rings flowid).afterPost (by rw [admitted]; nofun) _ _ _ _ _ inside
      · exact fun other different => .inl (update_of_ne different _ _)

theorem leave {flowid : Nat} :
    ScheduleInvariant depth start (scheduleLeave dhd flowid).1 := by
  obtain ⟨table, attached, rings⟩ := valid.rings
  obtain ⟨pkts, holds⟩ := valid.flows flowid
  have prot := valid.prot.txdataWriteFlush flowid
  have flushed : (dhdProtTxdataWriteFlush dhd.prot flowid).flowRingTable =
      some (update table flowid (table flowid).writeFlush) := by
    rw [dhdProtTxdataWriteFlush, attached]
  have ring := (rings flowid).leave (valid.prot.rings table attached flowid)
  rw [← update_self flowid (table flowid).writeFlush table] at ring
  have others : ∀ other ≠ flowid,
      update table flowid (table flowid).writeFlush other = table other ∨
        update table flowid (table flowid).writeFlush other = (table other).refreshed :=
    fun other different => .inl (update_of_ne different _ _)
  cases phase : (dhd.flows flowid).phase with
  | refused txp =>
    have mine : txp ∈ (dhd.flows flowid).phase.held ++ pkts := by
      rw [phase]
      exact List.mem_append_left _ (List.mem_singleton_self txp)
    simp only [scheduleLeave, phase]
    refine valid.changeFlow flowid (txp :: pkts) rfl (update_eq_self _ _).symm prot
      (holds.reinsert phase) ?_ attached flushed ring others
    intro other different theirs kept pkt member
    have away : pkt ≠ txp := ne_of_mem_of_not_mem member (holds.apart kept different mine)
    exact ⟨update_of_ne away _ _, rfl⟩
  | _ =>
    simp only [scheduleLeave, phase]
    exact valid.changeFlow flowid pkts rfl (update_eq_self _ _).symm prot
      (holds.relabel rfl (congrArg SchedulePhase.held phase).symm rfl)
      (fun _ _ _ _ _ _ => ⟨rfl, rfl⟩) attached flushed ring others

theorem environment {call : TxCall}
    (outside : Outside call) (admitted : txMachine.admits dhd.prot call) :
    ScheduleInvariant depth start { dhd with prot := txMachine.next dhd.prot call } := by
  obtain ⟨table, attached, rings⟩ := valid.rings
  refine ⟨txMachine_preserves dhd.prot call valid.prot admitted, valid.flows, ?_⟩
  cases call with
  | txdata pkt ifidx secdmaAvail => exact outside.elim
  | txdataWriteFlush flowid => exact outside.elim
  | dongleRead flowid count =>
    refine ⟨update table flowid { table flowid with
      h2d := h2dMachine.next (table flowid).h2d (.dongleRead count) }, ?_, fun other => ?_⟩
    · change dhd.prot.flowRingTable.map _ = _
      rw [attached]
      rfl
    · by_cases same : other = flowid
      · subst same
        rw [update_self]
        exact (rings other).read count
      · rw [update_of_ne same]
        exact rings other
  | pktid call => exact ⟨table, attached, rings⟩
  | txpThreshold value => exact ⟨table, attached, rings⟩

end

end ScheduleInvariant

theorem scheduleMachine_preserves (depth start : Nat → Nat) :
    scheduleMachine.Preserves (ScheduleInvariant depth start) := by
  intro dhd call valid admitted
  cases call with
  | enqueue pkt => exact valid.enqueue admitted
  | enter flowid =>
    change ScheduleInvariant depth start (scheduleEnter dhd flowid).1
    unfold scheduleEnter
    split
    · exact valid
    · split
      · exact valid
      · have idle : (dhd.flows flowid).phase = .idle := admitted
        exact valid.moveOn (by rw [idle]; rfl) nofun
  | transfer flowid secdmaAvail => exact valid.transfer secdmaAvail admitted
  | leave flowid => exact valid.leave
  | status flowid status =>
    obtain ⟨table, attached, rings⟩ := valid.rings
    obtain ⟨pkts, holds⟩ := valid.flows flowid
    exact valid.changeFlow flowid pkts rfl (update_eq_self _ _).symm valid.prot
      (holds.relabel rfl rfl rfl) (fun _ _ _ _ _ _ => ⟨rfl, rfl⟩) attached attached
      (rings flowid) (fun _ _ => .inl rfl)
  | environment call => exact valid.environment admitted.1 admitted.2

/-- A flow with nothing queued and no call under way. -/
def FreshFlow (flow : ScheduledFlow) : Prop :=
  (∃ budget, flow.queue = dhdFlowQueueInit budget) ∧ flow.phase = .idle ∧ flow.accepted = []

/-- The flows before the first packet, with whatever is in the packet memory. -/
def scheduleStart (prot : TxProt) (links : PktLinks) (packets : Nat → TxPkt)
    (flows : Nat → ScheduledFlow) (maxSubQueues : Nat) : ScheduleDhd where
  prot := prot
  links := links
  packets := packets
  flows := flows
  maxSubQueues := maxSubQueues
  posted := fun _ => []

theorem FreshFlow.holds {flow : ScheduledFlow} (fresh : FreshFlow flow) (links : PktLinks)
    (packets : Nat → TxPkt) (flowid : Nat) : FlowHolds links packets flowid flow [] [] := by
  obtain ⟨⟨budget, queue⟩, idle, accepted⟩ := fresh
  have held : flow.phase.held = [] := by rw [idle]; rfl
  refine ⟨?_, ?_, ?_, ?_, ?_, ?_⟩
  · rw [queue]
    exact ⟨Spells.empty, rfl⟩
  · rw [queue]
    exact Nat.mod_lt _ (by decide)
  · rw [held]
    exact List.nodup_nil
  · rw [held]
    exact Nat.two_pow_pos 16
  · rw [held]
    nofun
  · rw [held, accepted]
    rfl

theorem scheduleStart_valid {numItems : Nat} (positive : 1 ≤ numItems)
    (bounded : numItems ≤ maxPktidItems) {depth itemLen start : Nat → Nat} {secdma : Nat → NativePtr}
    (inside : ∀ flowid, start flowid < depth flowid) (narrow : ∀ flowid, depth flowid < 2 ^ 16)
    (offset threshold : Nat) (links : PktLinks) (packets : Nat → TxPkt)
    {flows : Nat → ScheduledFlow} (fresh : ∀ flowid, FreshFlow (flows flowid)) (maxSubQueues : Nat) :
    ScheduleInvariant depth start (scheduleStart
      (txStart numItems (fun flowid => freshFlowRing (depth flowid) (itemLen flowid) (start flowid)
        (secdma flowid)) offset threshold) links packets flows maxSubQueues) := by
  refine ⟨txStart_valid positive bounded (fun flowid => ?_) offset threshold,
    fun flowid => ⟨[], (fresh flowid).holds links packets flowid⟩, _, rfl, fun flowid => ?_⟩
  · exact ⟨_, _, _, _, inside flowid, narrow flowid, rfl⟩
  · refine ⟨rfl, ?_, rfl, fun _ => ⟨rfl, rfl, rfl, rfl⟩⟩
    exact (Nat.mod_eq_of_lt (inside flowid)).symm

/-- What holds of a flow at any time: its packets are posted in the order in which
the queue took them in, in consecutive slots of its ring; the queue counts what
it links; a refused packet is the next one to be tried again; and outside a call
every item is announced. -/
structure KeepsOrder (depth start : Nat) (dhd : ScheduleDhd) (flowid : Nat) : Prop where
  order : ∃ pkts, Queues dhd.links (dhd.flows flowid).queue pkts ∧
    (dhd.posted flowid).map (·.pkt) ++ ((dhd.flows flowid).phase.held ++ pkts).map dhd.packets =
      (dhd.flows flowid).accepted
  slots : (dhd.posted flowid).map (·.slot) = Lib.slots depth start (dhd.posted flowid).length
  refused : ∀ secdmaAvail txp, (dhd.flows flowid).phase = .looping →
    (dhd.flows flowid).queue.head = some txp →
    (dhdProtTxdata dhd.prot (dhd.packets txp) (dhd.flows flowid).ifindex secdmaAvail).2 =
      .noResource →
    ((scheduleMachine.next dhd (.transfer flowid secdmaAvail)).flows flowid).phase = .refused txp
  putBack : ∀ txp, (dhd.flows flowid).phase = .refused txp →
    let after := scheduleMachine.next dhd (.leave flowid)
    (after.flows flowid).phase = .idle ∧ ∃ pkts, Queues dhd.links (dhd.flows flowid).queue pkts ∧
      Queues after.links (after.flows flowid).queue (txp :: pkts)
  announced : (dhd.flows flowid).phase = .idle →
    ∃ table, dhd.prot.flowRingTable = some table ∧ AllAnnounced (table flowid)

theorem ScheduleInvariant.keepsOrder {depth start : Nat → Nat} {dhd : ScheduleDhd}
    (valid : ScheduleInvariant depth start dhd) (flowid : Nat) :
    KeepsOrder (depth flowid) (start flowid) dhd flowid := by
  obtain ⟨table, attached, rings⟩ := valid.rings
  obtain ⟨pkts, holds⟩ := valid.flows flowid
  refine ⟨⟨pkts, holds.queued, holds.order⟩, (rings flowid).slots, ?_, ?_,
    fun idle => ⟨table, attached, (rings flowid).announced idle⟩⟩
  · intro secdmaAvail txp _ head failed
    obtain ⟨after, result⟩ : ∃ after, dhdProtTxdata dhd.prot (dhd.packets txp)
        (dhd.flows flowid).ifindex secdmaAvail = (after, .noResource) := ⟨_, Prod.ext rfl failed⟩
    have taken : (dhdFlowQueueDequeue dhd.links (dhd.flows flowid).queue).2.2 = some txp := by
      rw [dhdFlowQueueDequeue, head]
    obtain ⟨links, queue, dequeued⟩ : ∃ links queue,
        dhdFlowQueueDequeue dhd.links (dhd.flows flowid).queue = (links, queue, some txp) :=
      ⟨_, _, Prod.ext rfl (Prod.ext rfl taken)⟩
    change ((scheduleTransfer dhd flowid secdmaAvail).1.flows flowid).phase = .refused txp
    unfold scheduleTransfer
    dsimp only
    rw [dequeued]
    dsimp only
    rw [result]
    dsimp only
    rw [update_self]
  · intro txp phase
    have back := holds.reinsert phase
    simp only [Machine.next, scheduleMachine, scheduleLeave, phase, update_self]
    exact ⟨trivial, pkts, holds.queued, back.queued⟩

/-- Scheduling of flow queues, with posts refused at any point, under any
interleaving of the flows with each other, the dongle and the transmit path. -/
theorem schedule_queue_keeps_order (numItems : Nat) (positive : 1 ≤ numItems)
    (bounded : numItems ≤ maxPktidItems) (depth itemLen start : Nat → Nat)
    (secdma : Nat → NativePtr) (inside : ∀ flowid, start flowid < depth flowid)
    (narrow : ∀ flowid, depth flowid < 2 ^ 16) (offset threshold : Nat) (links : PktLinks)
    (packets : Nat → TxPkt) (flows : Nat → ScheduledFlow) (fresh : ∀ flowid, FreshFlow (flows flowid))
    (maxSubQueues : Nat) (calls : List ScheduleCall) :
    let initial := scheduleStart
      (txStart numItems (fun flowid => freshFlowRing (depth flowid) (itemLen flowid) (start flowid)
        (secdma flowid)) offset threshold) links packets flows maxSubQueues
    scheduleMachine.Admitted initial calls →
      ∀ flowid, KeepsOrder (depth flowid) (start flowid) (scheduleMachine.run initial calls) flowid := by
  intro initial admitted flowid
  have valid := scheduleMachine.run_invariant (scheduleMachine_preserves depth start)
    (scheduleStart_valid positive bounded inside narrow offset threshold links packets fresh
      maxSubQueues) admitted
  exact valid.keepsOrder flowid

/-- A packet of one flow. -/
def samplePkt (ptr : Nat) : TxPkt := ⟨ptr, 3, 0, 64, 0, 4096, 0⟩

/-- Open flows on short rings with a single packet id. -/
def onePktid : ScheduleDhd :=
  scheduleStart (txStart 1 (fun _ => freshFlowRing 4 48 0 none) 0 48) (fun _ => none) samplePkt
    (fun _ => ⟨dhdFlowQueueInit 8, .opened, 0, .idle, []⟩) 10

/-- The second of two packets comes back to the queue. -/
theorem schedule_queue_keeps_order_one_pktid :
    let calls : List ScheduleCall := [.enqueue (samplePkt 100), .enqueue (samplePkt 200), .enter 3,
      .transfer 3 true, .transfer 3 true, .leave 3]
    scheduleMachine.Admitted onePktid calls ∧
      ∀ flowid, KeepsOrder 4 0 (scheduleMachine.run onePktid calls) flowid := by
  have unqueued : ∀ flowid,
      200 ∉ ((enqueuePkt onePktid (samplePkt 100)).1.waiting flowid).map (·.ptr) := by
    intro flowid
    by_cases here : flowid = 3
    · subst here
      decide
    · have away : (enqueuePkt onePktid (samplePkt 100)).1.flows flowid = onePktid.flows flowid :=
        update_of_ne here _ _
      have untouched : (onePktid.flows flowid).accepted = [] := rfl
      simp [ScheduleDhd.waiting, away, untouched]
  have entered : ((scheduleMachine.run onePktid [.enqueue (samplePkt 100),
      .enqueue (samplePkt 200), .enter 3]).flows 3).phase = .looping := by decide +kernel
  have posted : ((scheduleMachine.run onePktid [.enqueue (samplePkt 100),
      .enqueue (samplePkt 200), .enter 3, .transfer 3 true]).flows 3).phase = .looping := by
    decide +kernel
  have refused : ((scheduleMachine.run onePktid [.enqueue (samplePkt 100), .enqueue (samplePkt 200),
      .enter 3, .transfer 3 true, .transfer 3 true]).flows 3).phase = .refused 200 := by
    decide +kernel
  have admitted : scheduleMachine.Admitted onePktid [.enqueue (samplePkt 100),
      .enqueue (samplePkt 200), .enter 3, .transfer 3 true, .transfer 3 true, .leave 3] :=
    ⟨⟨rfl, fun flowid => by simp [ScheduleDhd.waiting, onePktid, scheduleStart]⟩,
      ⟨rfl, unqueued⟩, rfl, entered, posted, Or.inr ⟨200, refused⟩, trivial⟩
  exact ⟨admitted, schedule_queue_keeps_order 1 (by decide) (by decide) (fun _ => 4) (fun _ => 48)
    (fun _ => 0) (fun _ => none) (fun _ => by decide) (fun _ => by decide) 0 48 (fun _ => none)
    samplePkt _ (fun _ => ⟨⟨8, rfl⟩, rfl, rfl⟩) 10 _ admitted⟩

end BcmDhd.FlowRing
