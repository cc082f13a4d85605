import BcmDhd.FlowRing.Table
import BcmDhd.Lib.Chain
import BcmDhd.Msgbuf.TxPost

/-! The queue in front of a flow ring: packets linked through their own link
fields, with a count. The cumulative counters are only asserted on in this build. -/

namespace BcmDhd.FlowRing

open BcmDhd.Lib Function

/-- `flow_queue_t`; packets are named by their addresses. -/
structure FlowQueue where
  head : Option Nat
  tail : Option Nat
  len : Nat
  max : Nat
  failures : Nat
  deriving DecidableEq

/-- Where the packets point to (`PKTLINK`). -/
abbrev PktLinks := Nat → Option Nat

def dhdFlowQueueInit (max : Nat) : FlowQueue where
  head := none
  tail := none
  len := 0
  max := (max - 1) % 2 ^ 16
  failures := 0

def dhdFlowQueueThrottle (queue : FlowQueue) : Bool := queue.len ≥ queue.max

/-- The result is whether the packet was queued. The overflow callback is the
one set by the initialisation, which only reports `BCME_NORESOURCE`. -/
def dhdFlowQueueEnqueue (links : PktLinks) (queue : FlowQueue) (pkt : Nat) :
    PktLinks × FlowQueue × Bool :=
  if dhdFlowQueueThrottle queue then
    (links, { queue with failures := (queue.failures + 1) % 2 ^ 32 }, false)
  else
    let links := match queue.head, queue.tail with
      | some _, some tail => update links tail (some pkt)
      | _, _ => links
    (update links pkt none,
      { queue with
        head := if queue.head = none then some pkt else queue.head
        tail := some pkt
        len := (queue.len + 1) % 2 ^ 16 }, true)

def dhdFlowQueueDequeue (links : PktLinks) (queue : FlowQueue) :
    PktLinks × FlowQueue × Option Nat :=
  match queue.head with
  | none => (links, queue, none)
  | some pkt =>
    (update links pkt none,
      { queue with
        head := links pkt
        tail := if links pkt = none then none else queue.tail
        len := (queue.len + 2 ^ 16 - 1) % 2 ^ 16 }, some pkt)

def dhdFlowQueueReinsert (links : PktLinks) (queue : FlowQueue) (pkt : Nat) :
    PktLinks × FlowQueue :=
  (update links pkt queue.head,
    { queue with
      head := some pkt
      tail := if queue.head = none then some pkt else queue.tail
      len := (queue.len + 1) % 2 ^ 16 })

/-- The queue links `pkts` in order and counts them. -/
structure Queues (links : PktLinks) (queue : FlowQueue) (pkts : List Nat) : Prop where
  spells : Spells links queue.head queue.tail pkts
  len : queue.len = pkts.length

namespace Queues

variable {links links' : PktLinks} {queue : FlowQueue} {pkts : List Nat} {pkt : Nat}

theorem frame (queued : Queues links queue pkts) (same : ∀ pkt ∈ pkts, links' pkt = links pkt) :
    Queues links' queue pkts :=
  ⟨queued.spells.frame same, queued.len⟩

private theorem enqueue_first (queued : Queues links queue []) (open' : queue.len < queue.max) :
    dhdFlowQueueEnqueue links queue pkt =
      (update links pkt none,
        { queue with head := some pkt, tail := some pkt, len := 1 }, true) := by
  have head : queue.head = none := queued.spells.head_eq
  have len : queue.len = 0 := queued.len
  have unthrottled : ¬ dhdFlowQueueThrottle queue = true := by
    simpa [dhdFlowQueueThrottle] using open'
  rw [dhdFlowQueueEnqueue, if_neg unthrottled]
  simp [head, len]

private theorem enqueue_last {last : Nat} (head : queue.head ≠ none) (tail : queue.tail = some last)
    (open' : queue.len < queue.max) :
    dhdFlowQueueEnqueue links queue pkt =
      (update (update links last (some pkt)) pkt none,
        { queue with tail := some pkt, len := (queue.len + 1) % 2 ^ 16 }, true) := by
  have unthrottled : ¬ dhdFlowQueueThrottle queue = true := by
    simpa [dhdFlowQueueThrottle] using open'
  obtain ⟨first, found⟩ := Option.ne_none_iff_exists'.mp head
  rw [dhdFlowQueueEnqueue, if_neg unthrottled]
  simp [found, tail]

/-- A packet enters at the end, unless the queue is throttled. -/
theorem enqueue (queued : Queues links queue pkts) (absent : pkt ∉ pkts) (bounded : queue.max < 2 ^ 16) :
    (queue.max ≤ pkts.length ∧ dhdFlowQueueEnqueue links queue pkt =
        (links, { queue with failures := (queue.failures + 1) % 2 ^ 32 }, false)) ∨
      (pkts.length < queue.max ∧ ∃ links' queue',
        dhdFlowQueueEnqueue links queue pkt = (links', queue', true) ∧
        Queues links' queue' (pkts ++ [pkt]) ∧ queue'.max = queue.max ∧
        ∀ other ∉ pkts, other ≠ pkt → links' other = links other) := by
  have len := queued.len
  by_cases full : queue.max ≤ pkts.length
  · refine .inl ⟨full, if_pos ?_⟩
    simpa [dhdFlowQueueThrottle, len] using full
  · have open' : queue.len < queue.max := by omega
    refine .inr ⟨by omega, ?_⟩
    rcases List.eq_nil_or_concat pkts with rfl | ⟨front, last, rfl⟩
    · refine ⟨_, _, enqueue_first queued open', ⟨?_, rfl⟩, rfl, ?_⟩
      · exact Spells.singleton (update_self pkt none links)
      · intro other _ apart
        exact update_of_ne apart _ _
    · have tail : queue.tail = some last := by rw [queued.spells.tail_eq]; simp
      have head : queue.head ≠ none := by rw [queued.spells.head_eq]; simp
      have different : last ≠ pkt := fun same => absent (by simp [same])
      refine ⟨_, _, enqueue_last head tail open', ⟨?_, ?_⟩, rfl, ?_⟩
      · have before := queued.spells.update_of_not_mem absent none
        rw [tail] at before
        have joined := before.join (Spells.singleton (update_self pkt none links))
          (by simpa using absent)
        rw [update_comm different]
        exact joined
      · change (queue.len + 1) % 2 ^ 16 = _
        rw [List.length_append, ← len, List.length_singleton]
        exact Nat.mod_eq_of_lt (by omega)
      · intro other outside apart
        have notLast : other ≠ last := fun same => outside (by simp [same])
        rw [update_of_ne apart, update_of_ne notLast]

theorem dequeue (queued : Queues links queue (pkt :: pkts)) (bounded : pkts.length + 1 < 2 ^ 16) :
    ∃ links' queue', dhdFlowQueueDequeue links queue = (links', queue', some pkt) ∧
      Queues links' queue' pkts ∧ queue'.max = queue.max ∧
      ∀ other, other ≠ pkt → links' other = links other := by
  have head : queue.head = some pkt := queued.spells.head_eq
  have absent : pkt ∉ pkts := (List.nodup_cons.mp queued.spells.nodup).1
  have count := queued.len
  rw [List.length_cons] at count
  simp only [dhdFlowQueueDequeue, head]
  refine ⟨_, _, rfl, ⟨queued.spells.pop.update_of_not_mem absent none, ?_⟩, rfl, ?_⟩
  · change (queue.len + 2 ^ 16 - 1) % 2 ^ 16 = pkts.length
    omega
  · intro other apart
    exact update_of_ne apart _ _

theorem dequeue_empty (queued : Queues links queue []) :
    dhdFlowQueueDequeue links queue = (links, queue, none) := by
  have head : queue.head = none := queued.spells.head_eq
  simp only [dhdFlowQueueDequeue, head]

theorem reinsert (queued : Queues links queue pkts) (absent : pkt ∉ pkts)
    (bounded : pkts.length + 1 < 2 ^ 16) :
    Queues (dhdFlowQueueReinsert links queue pkt).1 (dhdFlowQueueReinsert links queue pkt).2
      (pkt :: pkts) := by
  refine ⟨queued.spells.push absent, ?_⟩
  change (queue.len + 1) % 2 ^ 16 = pkts.length + 1
  rw [queued.len]
  exact Nat.mod_eq_of_lt bounded

end Queues

/-! From the flow queues to the flow rings. A call of `dhd_bus_schedule_queue`
holds its flow's lock and goes through its critical sections one by one: it
enters, transfers packets until the queue is empty or a post is refused, and
leaves after a flush. Calls for other flows, dongle reads and the other users of
the packet-id map come in between.

The build has neither `DHD_LOSSLESS_ROAMING` nor `DHDTCPACK_SUPPRESS`. -/

open BcmDhd.Msgbuf

/-- Where a call for a flow stands: outside, in its loop, behind a refused post
of `txp`, or behind the loop with the queue empty. -/
inductive SchedulePhase where
  | idle
  | looping
  | refused (txp : Nat)
  | drained
  deriving DecidableEq

/-- A flow ring node. `accepted` records the packets its queue has taken in. -/
structure ScheduledFlow where
  queue : FlowQueue
  status : FlowRingStatus
  ifindex : Nat
  phase : SchedulePhase
  accepted : List TxPkt

/-- A post as the ring sees it: the packet and the slot of its item. -/
structure PostedPkt where
  pkt : TxPkt
  slot : Nat
  deriving DecidableEq

/-- `packets` is the packet memory; `posted` records the posts on each ring. -/
structure ScheduleDhd where
  prot : TxProt
  links : PktLinks
  packets : Nat → TxPkt
  flows : Nat → ScheduledFlow
  maxSubQueues : Nat
  posted : Nat → List PostedPkt

inductive ScheduleAnswer where
  | none
  | queued (accepted : Bool)
  | returnsOk
  | returnsNotReady
  deriving DecidableEq

/-- The enqueue of a packet handed down by the network stack, on the queue of the
flow in its tag. -/
def enqueuePkt (dhd : ScheduleDhd) (pkt : TxPkt) : ScheduleDhd × ScheduleAnswer :=
  let flow := dhd.flows pkt.flowid
  let (links, queue, queued) := dhdFlowQueueEnqueue dhd.links flow.queue pkt.ptr
  ({ dhd with
      links
      packets := update dhd.packets pkt.ptr pkt
      flows := update dhd.flows pkt.flowid
        { flow with
          queue
          accepted := if queued then flow.accepted ++ [pkt] else flow.accepted } },
    .queued queued)

def setPhase (dhd : ScheduleDhd) (flowid : Nat) (phase : SchedulePhase) : ScheduleDhd :=
  { dhd with
    flows := update dhd.flows flowid { dhd.flows flowid with phase } }

/-- The checks in front of the loop. -/
def scheduleEnter (dhd : ScheduleDhd) (flowid : Nat) : ScheduleDhd × ScheduleAnswer :=
  if flowid ≥ dhd.maxSubQueues then (dhd, .returnsOk)
  else if (dhd.flows flowid).status ≠ .opened then (dhd, .returnsNotReady)
  else (setPhase dhd flowid .looping, .none)

/-- The slot that the next item of a flow ring gets. -/
def nextSlot (prot : TxProt) (flowid : Nat) : Nat :=
  (prot.flowRingTable.map fun table => (table flowid).h2d.ring.wr).getD 0

/-- One turn of the loop, up to the result of the post. -/
def scheduleTransfer (dhd : ScheduleDhd) (flowid : Nat) (secdmaAvail : Bool) :
    ScheduleDhd × ScheduleAnswer :=
  let flow := dhd.flows flowid
  match dhdFlowQueueDequeue dhd.links flow.queue with
  | (_, _, none) => (setPhase dhd flowid .drained, .none)
  | (links, queue, some txp) =>
    let pkt := dhd.packets txp
    match dhdProtTxdata dhd.prot pkt flow.ifindex secdmaAvail with
    | (prot, .ok) =>
      ({ dhd with
          prot
          links
          flows := update dhd.flows flowid { flow with queue }
          posted := update dhd.posted pkt.flowid
            (dhd.posted pkt.flowid ++ [⟨pkt, nextSlot dhd.prot pkt.flowid⟩]) }, .none)
    | (prot, .noResource) =>
      ({ dhd with
          prot
          links
          flows := update dhd.flows flowid { flow with queue, phase := .refused txp } },
        .none)

/-- The flush behind the loop, and the way back to the head of the queue for a
packet whose post was refused. -/
def scheduleLeave (dhd : ScheduleDhd) (flowid : Nat) : ScheduleDhd × ScheduleAnswer :=
  let flow := dhd.flows flowid
  let prot := dhdProtTxdataWriteFlush dhd.prot flowid
  match flow.phase with
  | .refused txp =>
    let (links, queue) := dhdFlowQueueReinsert dhd.links flow.queue txp
    ({ dhd with
        prot
        links
        flows := update dhd.flows flowid { flow with queue, phase := .idle } }, .returnsOk)
  | _ =>
    ({ dhd with
        prot
        flows := update dhd.flows flowid { flow with phase := .idle } }, .returnsOk)

inductive ScheduleCall where
  | enqueue (pkt : TxPkt)
  | enter (flowid : Nat)
  | transfer (flowid : Nat) (secdmaAvail : Bool)
  | leave (flowid : Nat)
  | status (flowid : Nat) (status : FlowRingStatus)
  | environment (call : TxCall)

/-- The packets of a flow that are not posted yet. -/
def ScheduleDhd.waiting (dhd : ScheduleDhd) (flowid : Nat) : List TxPkt :=
  (dhd.flows flowid).accepted.drop (dhd.posted flowid).length

/-- What comes in between from outside: neither a post nor a flush. -/
def Outside : TxCall → Prop
  | .txdata _ _ _ => False
  | .txdataWriteFlush _ => False
  | _ => True

/-- The flow's lock keeps the queue from changing during a call. The network
stack hands no packet down that still waits in a queue. -/
def scheduleMachine : Machine ScheduleDhd ScheduleCall ScheduleAnswer where
  step dhd
    | .enqueue pkt => enqueuePkt dhd pkt
    | .enter flowid => scheduleEnter dhd flowid
    | .transfer flowid secdmaAvail => scheduleTransfer dhd flowid secdmaAvail
    | .leave flowid => scheduleLeave dhd flowid
    | .status flowid status =>
      ({ dhd with
          flows := update dhd.flows flowid { dhd.flows flowid with status } }, .none)
    | .environment call => ({ dhd with prot := txMachine.next dhd.prot call }, .none)
  admits dhd
    | .enqueue pkt => (dhd.flows pkt.flowid).phase = .idle ∧
      ∀ flowid, pkt.ptr ∉ (dhd.waiting flowid).map (·.ptr)
    | .enter flowid => (dhd.flows flowid).phase = .idle
    | .transfer flowid _ => (dhd.flows flowid).phase = .looping
    | .leave flowid => (dhd.flows flowid).phase = .drained ∨
      ∃ txp, (dhd.flows flowid).phase = .refused txp
    | .status _ _ => True
    | .environment call => Outside call ∧ txMachine.admits dhd.prot call

end BcmDhd.FlowRing
