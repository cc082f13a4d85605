import BcmDhd.Msgbuf.H2dRingSafety
import BcmDhd.Msgbuf.TxPost

namespace BcmDhd.Msgbuf

open BcmDhd.Lib Function

/-- The items of a batch lie from the announced index on, and the dongle has read
none of them. -/
structure Batch (ring : FlowRing) : Prop where
  h2d : H2dInvariant ring.h2d
  known : ring.pendItemsCount ≤ ring.h2d.unread.length
  announced_eq : ring.h2d.announced =
    (ring.h2d.dongleRd + (ring.h2d.unread.length - ring.pendItemsCount)) % ring.h2d.ring.maxItems
  uncut : ring.h2d.announced + ring.pendItemsCount ≤ ring.h2d.ring.maxItems
  unannounced_eq : ring.unannounced =
    (List.range' ring.h2d.announced ring.pendItemsCount).map (· * ring.h2d.ring.itemLen)
  startAddr_eq : ring.startAddr =
    if ring.pendItemsCount = 0 then none else some (ring.h2d.announced * ring.h2d.ring.itemLen)

/-- A batch that another item may join. -/
structure OpenBatch (ring : FlowRing) : Prop extends Batch ring where
  short : ring.h2d.announced + ring.pendItemsCount < ring.h2d.ring.maxItems

namespace Batch

variable {ring : FlowRing}

theorem announced_inside (batch : Batch ring) : ring.h2d.announced < ring.h2d.ring.maxItems := by
  rw [batch.announced_eq]
  exact Nat.mod_lt _ (Nat.zero_lt_of_lt batch.h2d.inside)

theorem wr_eq (batch : Batch ring) :
    ring.h2d.ring.wr = (ring.h2d.announced + ring.pendItemsCount) % ring.h2d.ring.maxItems := by
  rw [batch.h2d.wr_eq, batch.announced_eq, Nat.mod_add_mod, Nat.add_assoc,
    Nat.sub_add_cancel batch.known]

theorem pend_short (batch : Batch ring) : ring.pendItemsCount < ring.h2d.ring.maxItems :=
  lt_of_le_of_lt batch.known batch.h2d.unread_short

theorem newlyAnnounced_eq (batch : Batch ring) : newlyAnnounced ring.h2d = ring.unannounced := by
  have count : Circular.distance ring.h2d.ring.maxItems ring.h2d.announced ring.h2d.ring.wr =
      ring.pendItemsCount := by
    rw [batch.wr_eq]
    exact Circular.distance_add batch.announced_inside batch.pend_short
  rw [newlyAnnounced, count, Circular.slots_eq_range batch.uncut, batch.unannounced_eq]

theorem unannounced_of_none (batch : Batch ring) (none : ring.pendItemsCount = 0) :
    ring.unannounced = [] := by
  rw [batch.unannounced_eq, none]
  rfl

theorem announced_of_none (batch : Batch ring) (none : ring.pendItemsCount = 0) :
    ring.h2d.announced = ring.h2d.ring.wr := by
  rw [batch.wr_eq, none, Nat.add_zero, Nat.mod_eq_of_lt batch.announced_inside]

end Batch

/-- A ring on which everything written is announced. -/
structure AllAnnounced (ring : FlowRing) : Prop where
  announced : ring.h2d.announced = ring.h2d.ring.wr
  unannounced : ring.unannounced = []
  pendItemsCount : ring.pendItemsCount = 0
  startAddr : ring.startAddr = none

theorem Batch.writeFlush_eq {ring : FlowRing} (batch : Batch ring)
    (some : ring.pendItemsCount ≠ 0) :
    ring.writeFlush =
      { ring with
        h2d := { ring.h2d with announced := ring.h2d.ring.wr }
        startAddr := none
        pendItemsCount := 0
        unannounced := []
        cacheFlush := (ring.startAddr, ring.h2d.ring.itemLen * ring.pendItemsCount) } := by
  have covered : ring.unannounced.filter (· ∉ newlyAnnounced ring.h2d) = [] := by
    rw [batch.newlyAnnounced_eq]
    simp
  rw [FlowRing.writeFlush, if_pos some, dhdProtRingWriteComplete, covered]
  rfl

theorem Batch.flush {ring : FlowRing} (batch : Batch ring) :
    OpenBatch ring.writeFlush ∧ AllAnnounced ring.writeFlush := by
  by_cases none : ring.pendItemsCount = 0
  · have unchanged : ring.writeFlush = ring := by rw [FlowRing.writeFlush, if_neg (by simpa using none)]
    have inside := batch.announced_inside
    rw [unchanged]
    refine ⟨⟨batch, by omega⟩, batch.announced_of_none none, batch.unannounced_of_none none, none, ?_⟩
    rw [batch.startAddr_eq, if_pos none]
  · have wrInside : ring.h2d.ring.wr < ring.h2d.ring.maxItems := by
      rw [batch.wr_eq]
      exact Nat.mod_lt _ (Nat.zero_lt_of_lt batch.h2d.inside)
    rw [batch.writeFlush_eq none]
    refine ⟨⟨⟨batch.h2d.announce, Nat.zero_le _, ?_, ?_, rfl, rfl⟩, ?_⟩, rfl, rfl, rfl, rfl⟩
    · exact batch.h2d.wr_eq
    · exact wrInside.le
    · exact wrInside

namespace OpenBatch

variable {ring : FlowRing}

theorem wr_straight (batch : OpenBatch ring) :
    ring.h2d.ring.wr = ring.h2d.announced + ring.pendItemsCount := by
  rw [batch.wr_eq, Nat.mod_eq_of_lt batch.short]

theorem refresh (batch : OpenBatch ring) :
    OpenBatch { ring with h2d := { ring.h2d with
      ring := { ring.h2d.ring with rd := ring.h2d.dongleRd } } } :=
  ⟨⟨batch.h2d.refresh, batch.known, batch.announced_eq, batch.uncut, batch.unannounced_eq,
    batch.startAddr_eq⟩, batch.short⟩

/-- The item just written ends the batch. -/
theorem post (batch : OpenBatch ring) {rd : Nat} (granted : H2dInvariant (grant ring.h2d rd 1))
    (item : HostTxbufPost) :
    Batch ({ ring with h2d := grant ring.h2d rd 1 }.post
      (ring.h2d.ring.wr * ring.h2d.ring.itemLen) item) := by
  have short := batch.short
  have narrow := batch.h2d.narrow
  have known := batch.known
  have length : (grant ring.h2d rd 1).unread.length = ring.h2d.unread.length + 1 := by
    rw [batch.h2d.grant_unread, Circular.length_slots]
  have count : (ring.pendItemsCount + 1) % 2 ^ 16 = ring.pendItemsCount + 1 :=
    Nat.mod_eq_of_lt (by omega)
  refine ⟨granted, ?_, ?_, ?_, ?_, ?_⟩
  · change (ring.pendItemsCount + 1) % 2 ^ 16 ≤ (grant ring.h2d rd 1).unread.length
    omega
  · change ring.h2d.announced = (ring.h2d.dongleRd +
      ((grant ring.h2d rd 1).unread.length - (ring.pendItemsCount + 1) % 2 ^ 16)) % _
    rw [count, length, Nat.add_sub_add_right]
    exact batch.announced_eq
  · change ring.h2d.announced + (ring.pendItemsCount + 1) % 2 ^ 16 ≤ ring.h2d.ring.maxItems
    omega
  · change ring.unannounced ++ [ring.h2d.ring.wr * ring.h2d.ring.itemLen] =
      (List.range' ring.h2d.announced ((ring.pendItemsCount + 1) % 2 ^ 16)).map
        (· * ring.h2d.ring.itemLen)
    rw [count, List.range'_1_concat, List.map_append, ← batch.unannounced_eq, batch.wr_straight]
    rfl
  · change (if ring.pendItemsCount = 0 then some (ring.h2d.ring.wr * ring.h2d.ring.itemLen)
      else ring.startAddr) = if (ring.pendItemsCount + 1) % 2 ^ 16 = 0 then none
        else some (ring.h2d.announced * ring.h2d.ring.itemLen)
    rw [count, if_neg (Nat.succ_ne_zero _), batch.startAddr_eq, batch.wr_straight]
    by_cases none : ring.pendItemsCount = 0
    · rw [if_pos none, none, Nat.add_zero]
    · rw [if_neg none, if_neg none]

theorem post_short (batch : OpenBatch ring) {rd : Nat}
    (inner : ring.h2d.ring.wr * ring.h2d.ring.itemLen ≠ ringEnd (grant ring.h2d rd 1).ring) :
    ring.h2d.announced + (ring.pendItemsCount + 1) % 2 ^ 16 < ring.h2d.ring.maxItems := by
  have short := batch.short
  have straight := batch.wr_straight
  have notLast : ring.h2d.ring.wr ≠ ring.h2d.ring.maxItems - 1 := by
    intro last
    exact inner (by rw [last]; rfl)
  have reduced := Nat.mod_le (ring.pendItemsCount + 1) (2 ^ 16)
  omega

theorem read (batch : OpenBatch ring) {count : Nat}
    (admitted : h2dMachine.admits ring.h2d (.dongleRead count)) :
    OpenBatch { ring with h2d := h2dMachine.next ring.h2d (.dongleRead count) } := by
  have known := batch.known
  have within := batch.h2d.read_within admitted (Nat.sub_le _ _) batch.announced_eq
  have length := batch.h2d.read_unread_length (within.trans (Nat.sub_le _ _))
  refine ⟨⟨batch.h2d.read admitted, ?_, ?_, batch.uncut, batch.unannounced_eq, batch.startAddr_eq⟩,
    batch.short⟩
  · change _ ≤ (h2dMachine.next ring.h2d (.dongleRead count)).unread.length
    rw [length]
    change ring.pendItemsCount ≤ _
    omega
  · change ring.h2d.announced = ((ring.h2d.dongleRd + count) % ring.h2d.ring.maxItems +
      ((h2dMachine.next ring.h2d (.dongleRead count)).unread.length - ring.pendItemsCount)) %
        ring.h2d.ring.maxItems
    rw [length, Nat.mod_add_mod, Nat.add_assoc]
    have rest : count + (ring.h2d.unread.length - count - ring.pendItemsCount) =
        ring.h2d.unread.length - ring.pendItemsCount := by omega
    rw [rest]
    exact batch.announced_eq

end OpenBatch

/-- The same keys are handed out, and the same ones are left in the same order. -/
structure SameOccupancy (before after : DhdPktidMap) : Prop where
  items : after.items = before.items
  avail : after.avail = before.avail
  keys : after.keys = before.keys
  states : ∀ key, (after.lockers key).state = (before.lockers key).state
  pktidAudit : after.pktidAudit = before.pktidAudit

theorem SameOccupancy.valid {before after : DhdPktidMap} (same : SameOccupancy before after)
    (valid : PktidMapInvariant before) : PktidMapInvariant after := by
  refine ⟨by rw [same.items]; exact valid.positive, by rw [same.items]; exact valid.bounded, ?_⟩
  rw [same.keys, same.avail]
  refine valid.stack.congr fun key => ?_
  rw [FreeKey, FreeKey, same.items, same.states]

/-- A reserved key that is given back lies where it was taken from. -/
theorem reserve_free_occupancy {map : DhdPktidMap} (valid : PktidMapInvariant map)
    (pkt : NativePtr) (granted : (dhdPktidMapReserve map pkt).2 ≠ dhdPktidInvalid) :
    SameOccupancy map (dhdPktidMapFree (dhdPktidMapReserve map pkt).1
      (dhdPktidMapReserve map pkt).2 .noCheck false).1 := by
  rcases dhdPktidMapReserve_cases map pkt with ⟨-, refused⟩ | ⟨some, taken⟩
  · rw [refused] at granted
    exact (granted rfl).elim
  · rw [taken]
    dsimp only
    have free := (valid.top_free some).2.2
    have restored : map.avail - 1 + 1 = map.avail := Nat.sub_add_cancel some
    rcases dhdPktidMapFree_cases
        { map with
          avail := map.avail - 1
          lockers := update map.lockers (map.keys map.avail)
            { map.lockers (map.keys map.avail) with pkt := pkt, len := 0, state := .isBusy } }
        (map.keys map.avail) .noCheck false with ⟨refused, -⟩ | ⟨-, -, opened⟩
    · simp at refused
    · rw [opened, if_pos rfl]
      refine ⟨rfl, restored, ?_, fun key => ?_, rfl⟩
      · dsimp only
        rw [restored, update_eq_self]
      · by_cases same : key = map.keys map.avail
        · subst key
          simp [free]
        · simp [update_of_ne same]

/-- What a run of posts keeps. -/
structure TxInvariant (dhd : TxProt) : Prop where
  pktidMap : PktidMapInvariant dhd.pktidMap
  rings : ∀ table ∈ dhd.flowRingTable, ∀ flowid, OpenBatch (table flowid)

/-- The ring with the dongle's read index in its cache. -/
def FlowRing.refreshed (ring : FlowRing) : FlowRing :=
  { ring with h2d := { ring.h2d with ring := { ring.h2d.ring with rd := ring.h2d.dongleRd } } }

/-- At most a cached read index is newer than before. -/
structure LeavesNoTrace (before after : TxProt) : Prop where
  pktidMap : SameOccupancy before.pktidMap after.pktidMap
  rings : after.flowRingTable = before.flowRingTable ∨
    ∃ table flowid, before.flowRingTable = some table ∧
      after.flowRingTable = some (update table flowid (table flowid).refreshed)
  txpThreshold : after.txpThreshold = before.txpThreshold
  activeTxCount : after.activeTxCount = before.activeTxCount

theorem LeavesNoTrace.rings_cases {before after : TxProt} (kept : LeavesNoTrace before after)
    {table : Nat → FlowRing} (attached : before.flowRingTable = some table) :
    ∃ rings, after.flowRingTable = some rings ∧
      ∀ flowid, rings flowid = table flowid ∨ rings flowid = (table flowid).refreshed := by
  rcases kept.rings with same | ⟨known, flowid, found, same⟩
  · exact ⟨table, same.trans attached, fun _ => .inl rfl⟩
  · cases found.symm.trans attached
    refine ⟨_, same, fun other => ?_⟩
    by_cases here : other = flowid
    · subst here
      exact .inr (update_self _ _ _)
    · exact .inl (update_of_ne here _ _)

/-- The ring with the packet's item written, before the decision to flush. -/
def writtenRing (dhd : TxProt) (ring : FlowRing) (rd : Nat) (pkt : TxPkt) (ifidx pktid : Nat) :
    FlowRing :=
  { ring with h2d := grant ring.h2d rd 1 }.post (ring.h2d.ring.wr * ring.h2d.ring.itemLen)
    (txdescFor dhd pkt ifidx pktid)

/-- The ring as a successful post leaves it. -/
def postedRing (dhd : TxProt) (ring : FlowRing) (rd : Nat) (pkt : TxPkt) (ifidx pktid : Nat) :
    FlowRing :=
  let written := writtenRing dhd ring rd pkt ifidx pktid
  if written.pendItemsCount = dhd.txpThreshold ∨
      ring.h2d.ring.wr * ring.h2d.ring.itemLen = ringEnd written.h2d.ring then
    written.writeFlush
  else written

private theorem flush_written (table : Nat → FlowRing) (flowid : Nat) (written : FlowRing)
    (map : DhdPktidMap) (offset threshold active : Nat) (due : Prop) [Decidable due] :
    (if due then
      dhdProtTxdataWriteFlush
        ⟨some (update table flowid written), map, offset, threshold, active⟩ flowid
    else ⟨some (update table flowid written), map, offset, threshold, active⟩) =
      (⟨some (update table flowid (if due then written.writeFlush else written)), map,
        offset, threshold, active⟩ : TxProt) := by
  split
  · simp [dhdProtTxdataWriteFlush]
  · rfl

@[simp] theorem FlowRing.writeFlush_ring (ring : FlowRing) :
    ring.writeFlush.h2d.ring = ring.h2d.ring := by
  unfold FlowRing.writeFlush
  split
  · rfl
  · rfl

theorem postedRing_ring (dhd : TxProt) (ring : FlowRing) (rd : Nat) (pkt : TxPkt)
    (ifidx pktid : Nat) :
    (postedRing dhd ring rd pkt ifidx pktid).h2d.ring = (grant ring.h2d rd 1).ring := by
  unfold postedRing
  dsimp only
  split
  · exact FlowRing.writeFlush_ring _
  · rfl

/-- A post fails without a trace, or takes a packet id and the slot at the write index. -/
theorem dhdProtTxdata_cases {dhd : TxProt} (valid : TxInvariant dhd) (pkt : TxPkt) (ifidx : Nat)
    (secdmaAvail : Bool) :
    (∃ after, dhdProtTxdata dhd pkt ifidx secdmaAvail = (after, .noResource) ∧
        LeavesNoTrace dhd after) ∨
      ∃ table rd, dhd.flowRingTable = some table ∧ 0 < dhd.pktidMap.avail ∧
        H2dInvariant (grant (table pkt.flowid).h2d rd 1) ∧
        dhdProtTxdata dhd pkt ifidx secdmaAvail =
          ({ dhd with
              flowRingTable := some (update table pkt.flowid
                (postedRing dhd (table pkt.flowid) rd pkt ifidx
                  (dhd.pktidMap.keys dhd.pktidMap.avail)))
              pktidMap := (dhdPktidAudit
                (dhdPktidMapAlloc dhd.pktidMap (txParams (table pkt.flowid) pkt)).1
                (dhd.pktidMap.keys dhd.pktidMap.avail) .duplicateAlloc).1
              activeTxCount := (dhd.activeTxCount + 1) % 2 ^ 16 }, .ok) := by
  obtain ⟨flowRingTable, map, offset, threshold, active⟩ := dhd
  cases flowRingTable with
  | none => exact .inl ⟨_, rfl, ⟨rfl, rfl, rfl, fun _ => rfl, rfl⟩, .inl rfl, rfl, rfl⟩
  | some table =>
    have batch : OpenBatch (table pkt.flowid) := valid.rings table rfl pkt.flowid
    have restored := reserve_free_occupancy valid.pktidMap (some pkt.ptr)
    simp only [dhdProtTxdata]
    rcases dhdPktidMapReserve_cases map (some pkt.ptr) with ⟨-, refused⟩ | ⟨some, taken⟩
    · rw [refused]
      refine .inl ⟨_, if_pos rfl, ?_, .inl rfl, rfl, rfl⟩
      exact ⟨rfl, rfl, rfl, fun _ => rfl, rfl⟩
    · have notZero : map.keys map.avail ≠ dhdPktidInvalid :=
        Nat.ne_of_gt (valid.pktidMap.top_free some).1
      rw [taken] at restored ⊢
      have restored := restored notZero
      dsimp only at restored ⊢
      rw [if_neg notZero]
      by_cases buffers : secdmaAvail = false
      · rw [if_pos buffers]
        exact .inl ⟨_, rfl, restored, .inl rfl, rfl, rfl⟩
      · rw [if_neg buffers]
        rcases h2dMachine_alloc_one batch.h2d with full | ⟨rd, granted, space⟩
        · rw [full]
          exact .inl ⟨_, rfl, restored, .inr ⟨table, pkt.flowid, rfl, rfl⟩, rfl, rfl⟩
        · rw [space]
          refine .inr ⟨table, rd, rfl, some, granted, ?_⟩
          have saved : (dhdPktidMapAlloc map (txParams (table pkt.flowid) pkt)).1 =
              dhdPktidMapSave (dhdPktidMapReserve map (Option.some pkt.ptr)).1 (map.keys map.avail)
                (txParams (table pkt.flowid) pkt) := by
            simp [dhdPktidMapAlloc, txParams, taken, notZero]
          rw [saved, taken]
          dsimp only
          rw [flush_written]
          rfl

theorem OpenBatch.posted {ring : FlowRing} (batch : OpenBatch ring) {rd : Nat}
    (granted : H2dInvariant (grant ring.h2d rd 1)) (dhd : TxProt) (pkt : TxPkt) (ifidx pktid : Nat) :
    OpenBatch (postedRing dhd ring rd pkt ifidx pktid) := by
  have written : Batch (writtenRing dhd ring rd pkt ifidx pktid) := batch.post granted _
  unfold postedRing
  dsimp only
  split
  · exact written.flush.1
  · rename_i notDue
    exact ⟨written, batch.post_short fun last => notDue (.inr last)⟩

namespace TxInvariant

variable {dhd : TxProt}

private theorem update_rings (valid : TxInvariant dhd) {table : Nat → FlowRing}
    (attached : dhd.flowRingTable = some table) (flowid : Nat) {ring : FlowRing}
    (batch : OpenBatch ring) :
    ∀ after ∈ some (update table flowid ring), ∀ other, OpenBatch (after other) := by
  intro after same other
  cases same
  by_cases here : other = flowid
  · subst here
    rw [update_self]
    exact batch
  · rw [update_of_ne here]
    exact valid.rings table attached other

theorem txdata (valid : TxInvariant dhd) (pkt : TxPkt) (ifidx : Nat) (secdmaAvail : Bool) :
    TxInvariant (dhdProtTxdata dhd pkt ifidx secdmaAvail).1 := by
  rcases dhdProtTxdata_cases valid pkt ifidx secdmaAvail with
    ⟨after, refused, kept⟩ | ⟨table, rd, attached, -, granted, posted⟩
  · rw [refused]
    refine ⟨kept.pktidMap.valid valid.pktidMap, ?_⟩
    rcases kept.rings with same | ⟨table, flowid, attached, same⟩
    · rw [same]
      exact valid.rings
    · rw [same]
      exact valid.update_rings attached flowid (valid.rings table attached flowid).refresh
  · rw [posted]
    refine ⟨?_, valid.update_rings attached pkt.flowid
      ((valid.rings table attached pkt.flowid).posted granted dhd pkt ifidx _)⟩
    exact PktidMapInvariant.audit (pktidMachine_preserves dhd.pktidMap
      (.alloc (txParams (table pkt.flowid) pkt)) valid.pktidMap trivial) _ _

theorem txdataWriteFlush (valid : TxInvariant dhd) (flowid : Nat) :
    TxInvariant (dhdProtTxdataWriteFlush dhd flowid) := by
  cases attached : dhd.flowRingTable with
  | none =>
    rw [dhdProtTxdataWriteFlush, attached]
    exact valid
  | some table =>
    rw [dhdProtTxdataWriteFlush, attached]
    exact ⟨valid.pktidMap,
      valid.update_rings attached flowid (valid.rings table attached flowid).flush.1⟩

theorem dongleRead (valid : TxInvariant dhd) {flowid count : Nat}
    (admitted : txMachine.admits dhd (.dongleRead flowid count)) :
    TxInvariant (txMachine.next dhd (.dongleRead flowid count)) := by
  refine ⟨valid.pktidMap, ?_⟩
  change ∀ table ∈ dhd.flowRingTable.map _, _
  cases attached : dhd.flowRingTable with
  | none => nofun
  | some table =>
    exact valid.update_rings attached flowid
      ((valid.rings table attached flowid).read (admitted table attached))

end TxInvariant

theorem txMachine_preserves : txMachine.Preserves TxInvariant := by
  intro dhd call valid admitted
  cases call with
  | txdata pkt ifidx secdmaAvail => exact valid.txdata pkt ifidx secdmaAvail
  | txdataWriteFlush flowid => exact valid.txdataWriteFlush flowid
  | dongleRead flowid count => exact valid.dongleRead admitted
  | pktid call =>
    exact ⟨pktidMachine_preserves dhd.pktidMap call valid.pktidMap admitted, valid.rings⟩
  | txpThreshold value => exact ⟨valid.pktidMap, valid.rings⟩

/-- A ring that comes from the pool with any geometry. -/
def FreshRing (ring : FlowRing) : Prop :=
  ∃ maxItems itemLen start secdma, start < maxItems ∧ maxItems < 2 ^ 16 ∧
    ring = freshFlowRing maxItems itemLen start secdma

theorem FreshRing.open {ring : FlowRing} (fresh : FreshRing ring) : OpenBatch ring := by
  obtain ⟨maxItems, itemLen, start, secdma, inside, narrow, rfl⟩ := fresh
  refine ⟨⟨h2dIdle_valid itemLen inside narrow, le_rfl, ?_, inside.le, rfl, rfl⟩, inside⟩
  exact (Nat.mod_eq_of_lt inside).symm

/-- The transmit side before the first post. -/
def txStart (numItems : Nat) (rings : Nat → FlowRing) (txMetadataOffset txpThreshold : Nat) :
    TxProt where
  flowRingTable := some rings
  pktidMap := dhdPktidMapInit numItems
  txMetadataOffset := txMetadataOffset
  txpThreshold := txpThreshold
  activeTxCount := 0

theorem txStart_valid {numItems : Nat} (positive : 1 ≤ numItems)
    (bounded : numItems ≤ maxPktidItems) {rings : Nat → FlowRing}
    (fresh : ∀ flowid, FreshRing (rings flowid)) (offset threshold : Nat) :
    TxInvariant (txStart numItems rings offset threshold) := by
  refine ⟨PktidMapInvariant.init positive bounded, ?_⟩
  intro table same flowid
  cases same
  exact (fresh flowid).open

/-- The flow ring table stays where it is. -/
theorem txMachine_attached (attached : Bool) :
    txMachine.Preserves fun dhd => TxInvariant dhd ∧ dhd.flowRingTable.isSome = attached := by
  intro dhd call ⟨valid, here⟩ admitted
  refine ⟨txMachine_preserves dhd call valid admitted, ?_⟩
  cases call with
  | txdata pkt ifidx secdmaAvail =>
    change (dhdProtTxdata dhd pkt ifidx secdmaAvail).1.flowRingTable.isSome = attached
    rcases dhdProtTxdata_cases valid pkt ifidx secdmaAvail with
      ⟨after, refused, kept⟩ | ⟨table, rd, found, -, -, posted⟩
    · rw [refused]
      rcases kept.rings with same | ⟨table, flowid, found, same⟩
      · rw [same]
        exact here
      · rw [same, ← here, found]
        rfl
    · rw [posted, ← here, found]
      rfl
  | txdataWriteFlush flowid =>
    change (dhdProtTxdataWriteFlush dhd flowid).flowRingTable.isSome = attached
    rw [dhdProtTxdataWriteFlush, ← here]
    cases found : dhd.flowRingTable with
    | none => simp [found]
    | some table => rfl
  | dongleRead flowid count =>
    change (dhd.flowRingTable.map _).isSome = attached
    rw [Option.isSome_map]
    exact here
  | pktid call => exact here
  | txpThreshold value => exact here

/-- What is written and not announced: `pend_items_count` items from `first` on,
up to the write index, in one piece. -/
structure PendingItems (ring : FlowRing) (first : Nat) : Prop where
  start : ring.pendItemsCount ≠ 0 → ring.startAddr = some (first * ring.h2d.ring.itemLen)
  items : ring.unannounced =
    (List.range' first ring.pendItemsCount).map (· * ring.h2d.ring.itemLen)
  stop : (first + ring.pendItemsCount) % ring.h2d.ring.maxItems = ring.h2d.ring.wr
  uncut : first + ring.pendItemsCount ≤ ring.h2d.ring.maxItems
  announced : (ring.h2d.announced + ring.pendItemsCount) % ring.h2d.ring.maxItems =
    ring.h2d.ring.wr

theorem Batch.pendingItems {ring : FlowRing} (batch : Batch ring) :
    PendingItems ring ring.h2d.announced where
  start := fun some => by rw [batch.startAddr_eq, if_neg some]
  items := batch.unannounced_eq
  stop := batch.wr_eq.symm
  uncut := batch.uncut
  announced := batch.wr_eq.symm

/-- A flush of one ring: everything written is announced, and the range of the
cache that it flushes is the batch. -/
structure FlushAnnounces (before after : FlowRing) : Prop where
  announced : AllAnnounced after
  wr : after.h2d.ring.wr = before.h2d.ring.wr
  cacheFlush : before.pendItemsCount ≠ 0 →
    after.cacheFlush = (before.startAddr, before.h2d.ring.itemLen * before.pendItemsCount)

theorem Batch.flushAnnounces {ring : FlowRing} (batch : Batch ring) :
    FlushAnnounces ring ring.writeFlush := by
  refine ⟨batch.flush.2, ?_, fun some => by rw [batch.writeFlush_eq some]⟩
  rw [FlowRing.writeFlush_ring]

/-- Posting on flow rings, with packet ids or slots running out at any point,
against any interleaving of flushes, dongle reads, other users of the packet-id
map and changes of the threshold. -/
theorem txdata_batches_stay_in_one_piece (numItems : Nat) (positive : 1 ≤ numItems)
    (bounded : numItems ≤ maxPktidItems) (rings : Nat → FlowRing)
    (fresh : ∀ flowid, FreshRing (rings flowid)) (offset threshold : Nat) (calls : List TxCall)
    (admitted : txMachine.Admitted (txStart numItems rings offset threshold) calls) :
    let dhd := txMachine.run (txStart numItems rings offset threshold) calls
    ∃ table, dhd.flowRingTable = some table ∧
      (∀ flowid, ∃ first, PendingItems (table flowid) first) ∧
      (∀ flowid, ∃ ring, FlushAnnounces (table flowid) ring ∧
        (dhdProtTxdataWriteFlush dhd flowid).flowRingTable =
          some (update table flowid ring)) ∧
      ∀ pkt ifidx secdmaAvail, (dhdProtTxdata dhd pkt ifidx secdmaAvail).2 = .noResource →
        LeavesNoTrace dhd (dhdProtTxdata dhd pkt ifidx secdmaAvail).1 := by
  intro dhd
  obtain ⟨valid, attached⟩ : TxInvariant dhd ∧ dhd.flowRingTable.isSome = true :=
    txMachine.run_invariant (txMachine_attached true)
      ⟨txStart_valid positive bounded fresh offset threshold, rfl⟩ admitted
  obtain ⟨table, found⟩ := Option.isSome_iff_exists.mp attached
  have batches := valid.rings table found
  refine ⟨table, found, fun flowid => ⟨_, (batches flowid).pendingItems⟩, fun flowid => ?_, ?_⟩
  · refine ⟨_, (batches flowid).flushAnnounces, ?_⟩
    rw [dhdProtTxdataWriteFlush, found]
  · intro pkt ifidx secdmaAvail refused
    rcases dhdProtTxdata_cases valid pkt ifidx secdmaAvail with
      ⟨after, same, kept⟩ | ⟨_, _, _, _, _, posted⟩
    · rw [same]
      exact kept
    · rw [posted] at refused
      cases refused

/-- Three posts of which the second fills the last slot, and a flush. -/
theorem txdata_batches_stay_in_one_piece_at_wrap :
    let pkt : TxPkt := ⟨100, 7, 0, 64, 0, 4096, 0⟩
    let calls : List TxCall := [.txdata pkt 0 true, .txdata pkt 0 true, .txdataWriteFlush 7,
      .txpThreshold 2, .txdata pkt 0 true]
    let start := txStart 2 (fun _ => freshFlowRing 4 48 2 none) 0 48
    txMachine.Admitted start calls ∧
      ∃ table, (txMachine.run start calls).flowRingTable = some table ∧
        ∃ first, PendingItems (table 7) first := by
  intro pkt calls start
  have admitted : txMachine.Admitted start calls :=
    ⟨trivial, trivial, trivial, trivial, trivial, trivial⟩
  have fresh : ∀ flowid : Nat, FreshRing ((fun _ => freshFlowRing 4 48 2 none) flowid) :=
    fun _ => ⟨4, 48, 2, none, by decide, by decide, rfl⟩
  obtain ⟨table, found, pending, -⟩ := txdata_batches_stay_in_one_piece 2 (by decide) (by decide)
    (fun _ => freshFlowRing 4 48 2 none) fresh 0 48 calls admitted
  exact ⟨admitted, table, found, pending 7⟩

end BcmDhd.Msgbuf
