import BcmDhd.Cdc.ReorderDelivery

namespace BcmDhd.Cdc

open BcmDhd.Lib Function

universe u

variable {Packet : Type u} {maxIdx start stop rounds i : Nat} {p : Nat → Option Packet} {chain : Chain Packet}

/-- `start++`, with the first slot behind the last one. -/
def nextSlot (maxIdx start : Nat) : Nat := if maxIdx < (start + 1) % 256 then 0 else (start + 1) % 256

/-- The slots of the rounds of `do … while (start != end)`. -/
def visited (maxIdx stop : Nat) : Nat → Nat → List Nat
  | 0, _ => []
  | rounds + 1, start =>
    start :: if nextSlot maxIdx start = stop then [] else visited maxIdx stop rounds (nextSlot maxIdx start)

/-- From `start` up to `stop`, or to the end of the window and on from its first slot. -/
def scan (maxIdx start stop : Nat) : List Nat :=
  if start < stop then List.range' start (stop - start)
  else List.range' start (max 1 (maxIdx + 1 - start)) ++ List.range stop

theorem nextSlot_eq (bytes : maxIdx < 256) (byte : start < 256) :
    nextSlot maxIdx start = if start < maxIdx then start + 1 else 0 := by
  unfold nextSlot
  split
  · split
    · omega
    · rfl
  · split
    · omega
    · omega

theorem scan_step (bytes : maxIdx < 256) (byte : start < 256) (slot : stop ≤ maxIdx) :
    scan maxIdx start stop =
      start :: if nextSlot maxIdx start = stop then [] else scan maxIdx (nextSlot maxIdx start) stop := by
  rw [nextSlot_eq bytes byte]
  unfold scan
  by_cases ahead : start < stop
  · obtain ⟨count, rfl⟩ := Nat.exists_eq_add_of_lt ahead
    have length : start + count + 1 - start = count + 1 := by omega
    rw [if_pos ahead, length, List.range'_succ, if_pos (show start < maxIdx by omega)]
    by_cases last : start + 1 = start + count + 1
    · have none_ : count = 0 := by omega
      rw [if_pos last, none_]
      rfl
    · have more : start + count + 1 - (start + 1) = count := by omega
      rw [if_neg last, if_pos (by omega), more]
  · rw [if_neg ahead]
    by_cases inside : start < maxIdx
    · have length : max 1 (maxIdx + 1 - start) = max 1 (maxIdx + 1 - (start + 1)) + 1 := by omega
      rw [if_pos inside, if_neg (by omega), if_neg (by omega), length, List.range'_succ]
      rfl
    · have length : max 1 (maxIdx + 1 - start) = 1 := by omega
      rw [if_neg inside, length, List.range'_one]
      by_cases first : 0 = stop
      · rw [if_pos first, ← first]
        rfl
      · rw [if_neg first, if_pos (by omega), Nat.sub_zero, List.range_eq_range']
        rfl

theorem mem_scan : i ∈ scan maxIdx start stop ↔
    if start < stop then start ≤ i ∧ i < stop
    else i = start ∨ (start ≤ i ∧ i ≤ maxIdx) ∨ i < stop := by
  unfold scan
  split
  · rw [List.mem_range'_1]
    omega
  · rw [List.mem_append, List.mem_range'_1, List.mem_range]
    omega

theorem nodup_scan : (scan maxIdx start stop).Nodup := by
  unfold scan
  split
  · exact List.nodup_range'
  · refine List.nodup_append.mpr ⟨List.nodup_range', List.nodup_range, ?_⟩
    intro first member second also same
    have low := (List.mem_range'_1.mp member).1
    have high := List.mem_range.mp also
    omega

theorem length_scan (slot : stop ≤ maxIdx) : (scan maxIdx start stop).length ≤ maxIdx + 2 := by
  unfold scan
  split
  · rw [List.length_range']
    omega
  · rw [List.length_append, List.length_range', List.length_range]
    omega

theorem visited_scan (bytes : maxIdx < 256) (byte : start < 256) (slot : stop ≤ maxIdx)
    (enough : (scan maxIdx start stop).length ≤ rounds) :
    visited maxIdx stop rounds start = scan maxIdx start stop := by
  induction rounds generalizing start with
  | zero =>
    rw [scan_step bytes byte slot] at enough
    exact absurd enough (by simp)
  | succ rounds ih =>
    rw [scan_step bytes byte slot] at enough ⊢
    unfold visited
    have next : nextSlot maxIdx start < 256 := by
      rw [nextSlot_eq bytes byte]
      split
      · omega
      · omega
    split
    · rfl
    · rename_i goesOn
      rw [if_neg goesOn, List.length_cons] at enough
      rw [ih next (by omega)]

theorem takeSlots_succ (p : Nat → Option Packet) (start : Nat) (chain : Chain Packet) :
    takeSlots maxIdx stop (rounds + 1) p start chain =
      if nextSlot maxIdx start = stop then some (update p start none, chain.link (p start).toList)
      else takeSlots maxIdx stop rounds (update p start none) (nextSlot maxIdx start)
        (chain.link (p start).toList) := by
  rw [takeSlots]
  unfold nextSlot
  cases found : p start with
  | none => simp
  | some pkt => rfl

/-- A scan to a slot of the window takes what lies on its way. -/
theorem takeSlots_scan (bytes : maxIdx < 256) (byte : start < 256) (slot : stop ≤ maxIdx)
    (enough : (scan maxIdx start stop).length ≤ rounds) (p : Nat → Option Packet) (chain : Chain Packet) :
    takeSlots maxIdx stop rounds p start chain =
      some (cleared p (scan maxIdx start stop), chain.link ((scan maxIdx start stop).filterMap p)) := by
  induction rounds generalizing start p chain with
  | zero =>
    rw [scan_step bytes byte slot] at enough
    exact absurd enough (by simp)
  | succ rounds ih =>
    have distinct : (scan maxIdx start stop).Nodup := nodup_scan
    have next : nextSlot maxIdx start < 256 := by
      rw [nextSlot_eq bytes byte]
      split
      · omega
      · omega
    have here : update p start none = cleared p [start] := by
      have emptied := cleared_cons p start []
      rw [← emptied]
      funext j
      exact (if_neg List.not_mem_nil).symm
    rw [scan_step bytes byte slot] at enough distinct ⊢
    rw [takeSlots_succ]
    by_cases last : nextSlot maxIdx start = stop
    · rw [if_pos last, if_pos last, here]
      cases found : p start with
      | none => simp [found]
      | some pkt => simp [found]
    · rw [if_neg last] at enough distinct ⊢
      rw [if_neg last, ih next (by simpa using enough), filterMap_update (List.nodup_cons.mp distinct).1, cleared_cons]
      congr 2
      cases found : p start with
      | none => simp [found]
      | some pkt => simp [found, Chain.link, Nat.add_assoc, Nat.add_comm]

theorem takeSlots_endless (beyond : maxIdx < stop) (rounds : Nat) (p : Nat → Option Packet) (start : Nat)
    (chain : Chain Packet) : takeSlots maxIdx stop rounds p start chain = none := by
  induction rounds generalizing p start chain with
  | zero => rfl
  | succ rounds ih =>
    have other : nextSlot maxIdx start ≠ stop := by
      unfold nextSlot
      split
      · omega
      · omega
    rw [takeSlots_succ, if_neg other]
    exact ih _ _ _

/-- What taking the packets of a flow leaves. -/
def ReorderInfo.scanned (ptr : ReorderInfo Packet) (start stop : Nat) : ReorderInfo Packet :=
  { ptr with
    p := cleared ptr.p (scan ptr.maxIdx start stop)
    pendPkts := (ptr.pendPkts + 256 - ((scan ptr.maxIdx start stop).filterMap ptr.p).length % 256) % 256 }

theorem getHostreorderPkts_scan {ptr : ReorderInfo Packet} (some_ : ptr.pendPkts ≠ 0) (bytes : ptr.maxIdx < 256)
    (byte : start < 256) (slot : stop ≤ ptr.maxIdx) :
    dhdGetHostreorderPkts ptr start stop =
      some (ptr.scanned start stop, Chain.empty.link ((scan ptr.maxIdx start stop).filterMap ptr.p)) := by
  rw [dhdGetHostreorderPkts, if_neg some_, takeSlots_scan bytes byte slot (length_scan slot)]
  simp [ReorderInfo.scanned, Chain.link, Chain.empty]

theorem getHostreorderPkts_nothing {ptr : ReorderInfo Packet} (none_ : ptr.pendPkts = 0) :
    dhdGetHostreorderPkts ptr start stop = some (ptr, .empty) := if_pos none_

theorem getHostreorderPkts_endless {ptr : ReorderInfo Packet} (some_ : ptr.pendPkts ≠ 0) (beyond : ptr.maxIdx < stop) :
    dhdGetHostreorderPkts ptr start stop = none := by
  rw [dhdGetHostreorderPkts, if_neg some_, takeSlots_endless beyond]
  rfl

end BcmDhd.Cdc

/-! Reorder information of any content: when handling it comes to an end, and stays inside the
slots that were allocated for its flow. -/

namespace BcmDhd.Cdc

open BcmDhd.Lib Function

universe u

variable {Packet : Type u}

/-- A packet with reorder information, and whether there is memory for a new flow. -/
structure ReorderCall (Packet : Type u) where
  buf : List UInt8
  pkt : Packet
  allocated : Bool

namespace ReorderCall

variable (call : ReorderCall Packet)

def flags : UInt8 := call.buf.getD flagsOffset 0
def flowId : Nat := (call.buf.getD flowidOffset 0).toNat
def maxIdx : Nat := (call.buf.getD maxidxOffset 0).toNat
def curIdx : Nat := (call.buf.getD curidxOffset 0).toNat
def expIdx : Nat := (call.buf.getD expidxOffset 0).toNat

end ReorderCall

/-- The flows, and the number of slots that each was allocated with. -/
structure Flows (Packet : Type u) where
  bufs : ReorderBufs Packet
  slots : Nat → Nat

namespace Flows

def none : Flows Packet := ⟨fun _ => .none, fun _ => 0⟩

/-- The slots of a call's flow; a new flow is allocated with what the call says. -/
def slotsFor (flows : Flows Packet) (call : ReorderCall Packet) : Nat :=
  if (flows.bufs call.flowId).isSome then flows.slots call.flowId else call.maxIdx + 1

/-- A call that does not return changes nothing any more. -/
def process (flows : Flows Packet) (call : ReorderCall Packet) :
    Flows Packet × Option (Chain Packet × List Packet) :=
  match dhdProcessPktReorderInfo flows.bufs call.buf call.pkt call.allocated with
  | .none => (flows, .none)
  | some handled =>
    (⟨handled.1, update flows.slots call.flowId (flows.slotsFor call)⟩, some handled.2)

end Flows

/-- Any calls, one after the other. -/
def reorderMachine : Machine (Flows Packet) (ReorderCall Packet) (Option (Chain Packet × List Packet)) where
  step := Flows.process
  admits _ _ := True

/-- The slots of `ptr->p` that taking packets indexes. -/
def touchedByTake (ptr : ReorderInfo Packet) (start stop : Nat) : List Nat :=
  if ptr.pendPkts = 0 then [] else visited ptr.maxIdx stop (ptr.maxIdx + 2) start

/-- The slots that handling a packet of a flow indexes. -/
def touchedByFlow (ptr : ReorderInfo Packet) (flags : UInt8) (curIdx expIdx : Nat) : List Nat :=
  let endIdx := if hasFlag flags reorderdataFlushAll then ptr.expIdx else expIdx
  if hasFlag flags reorderdataNewHole then touchedByTake ptr ptr.expIdx ptr.expIdx ++ [curIdx]
  else if hasFlag flags reorderdataCuridxValid then
    if expIdx = ptr.expIdx ∧ curIdx ≠ ptr.expIdx then [curIdx]
    else if ptr.expIdx = curIdx then
      curIdx :: touchedByTake { ptr with pendPkts := (ptr.pendPkts + 1) % 256 } curIdx expIdx
    else touchedByTake ptr ptr.expIdx endIdx ++
      if (if curIdx = ptr.maxIdx then expIdx = 0 else expIdx = curIdx + 1) then [] else [curIdx]
  else touchedByTake ptr ptr.expIdx endIdx

def touched (entry : Option (ReorderInfo Packet)) (call : ReorderCall Packet) : List Nat :=
  if call.flags = 0xFF then []
  else if hasFlag call.flags reorderdataDelFlow then
    match entry with
    | none => []
    | some ptr => touchedByTake ptr ptr.expIdx ptr.expIdx
  else match entry with
    | some ptr => touchedByFlow ptr call.flags call.curIdx call.expIdx
    | none =>
      if call.allocated then touchedByFlow (.fresh call.maxIdx : ReorderInfo Packet) call.flags call.curIdx call.expIdx
      else []

/-- A call returns, and indexes only slots that its flow has. -/
def SafeCall (flows : Flows Packet) (call : ReorderCall Packet) : Prop :=
  (flows.process call).2.isSome ∧ ∀ i ∈ touched (flows.bufs call.flowId) call, i < flows.slotsFor call

instance (flows : Flows Packet) (call : ReorderCall Packet) : Decidable (SafeCall flows call) :=
  inferInstanceAs (Decidable (_ ∧ _))

/-- Packets are taken up to a slot of the window, from slots that are there. -/
def TakeFits (slots : Nat) (ptr : ReorderInfo Packet) (start stop : Nat) : Prop :=
  ptr.pendPkts ≠ 0 → stop ≤ ptr.maxIdx ∧
    if start < stop then stop ≤ slots else start < slots ∧ (start ≤ ptr.maxIdx → ptr.maxIdx < slots)

def FlowFits (slots : Nat) (ptr : ReorderInfo Packet) (flags : UInt8) (curIdx expIdx : Nat) : Prop :=
  let endIdx := if hasFlag flags reorderdataFlushAll then ptr.expIdx else expIdx
  if hasFlag flags reorderdataNewHole then TakeFits slots ptr ptr.expIdx ptr.expIdx ∧ curIdx < slots
  else if hasFlag flags reorderdataCuridxValid then
    if expIdx = ptr.expIdx ∧ curIdx ≠ ptr.expIdx then curIdx < slots
    else if ptr.expIdx = curIdx then
      curIdx < slots ∧ TakeFits slots { ptr with pendPkts := (ptr.pendPkts + 1) % 256 } curIdx expIdx
    else TakeFits slots ptr ptr.expIdx endIdx ∧
      (¬(if curIdx = ptr.maxIdx then expIdx = 0 else expIdx = curIdx + 1) → curIdx < slots)
  else TakeFits slots ptr ptr.expIdx endIdx

/-- What a call needs of the flows: where packets are taken, the slot to stop at is in the
window and the slots on the way are there, and so is the slot of a packet that is held. -/
def CallFits (flows : Flows Packet) (call : ReorderCall Packet) : Prop :=
  if call.flags = 0xFF then True
  else if hasFlag call.flags reorderdataDelFlow then
    ∀ ptr, flows.bufs call.flowId = some ptr → TakeFits (flows.slotsFor call) ptr ptr.expIdx ptr.expIdx
  else match flows.bufs call.flowId with
    | some ptr => FlowFits (flows.slotsFor call) ptr call.flags call.curIdx call.expIdx
    | none => call.allocated = true →
        FlowFits (flows.slotsFor call) (.fresh call.maxIdx : ReorderInfo Packet) call.flags call.curIdx call.expIdx

section Call

variable {slots start stop curIdx expIdx : Nat} {ptr : ReorderInfo Packet} {flags : UInt8} {pkt : Packet}

/-- The indices of a flow are bytes. -/
def ByteIndices (ptr : ReorderInfo Packet) : Prop := ptr.maxIdx < 256 ∧ ptr.expIdx < 256

theorem takeFits_iff (bytes : ptr.maxIdx < 256) (byte : start < 256) :
    ((dhdGetHostreorderPkts ptr start stop).isSome ∧ ∀ i ∈ touchedByTake ptr start stop, i < slots) ↔
      TakeFits slots ptr start stop := by
  unfold touchedByTake TakeFits
  by_cases none_ : ptr.pendPkts = 0
  · rw [getHostreorderPkts_nothing none_, if_pos none_]
    exact ⟨fun _ some_ => absurd none_ some_, fun _ => ⟨rfl, fun _ member => absurd member List.not_mem_nil⟩⟩
  rw [if_neg none_]
  by_cases slot : stop ≤ ptr.maxIdx
  · rw [getHostreorderPkts_scan none_ bytes byte slot, visited_scan bytes byte slot (length_scan slot)]
    constructor
    · rintro ⟨-, inside⟩ -
      refine ⟨slot, ?_⟩
      split
      · rename_i ahead
        have last := inside (stop - 1) (mem_scan.mpr (by rw [if_pos ahead]; omega))
        omega
      · rename_i around
        have first := inside start (mem_scan.mpr (by rw [if_neg around]; omega))
        refine ⟨first, fun before => ?_⟩
        exact inside ptr.maxIdx (mem_scan.mpr (by rw [if_neg around]; omega))
    · intro fits
      refine ⟨rfl, fun i member => ?_⟩
      have room := (fits none_).2
      have place := mem_scan.mp member
      split at room
      · rename_i ahead
        rw [if_pos ahead] at place
        omega
      · rename_i around
        rw [if_neg around] at place
        omega
  · rw [getHostreorderPkts_endless none_ (not_le.mp slot)]
    exact ⟨fun safe => absurd safe.1 Bool.noConfusion, fun fits => absurd (fits none_).1 slot⟩

theorem flowFits_iff (bytes : ByteIndices ptr) (cur : curIdx < 256) (maxIdx : Nat) :
    ((handleFlow ptr flags curIdx expIdx maxIdx pkt).isSome ∧ ∀ i ∈ touchedByFlow ptr flags curIdx expIdx, i < slots) ↔
      FlowFits slots ptr flags curIdx expIdx := by
  have last : ∀ {taken : List Nat}, (∀ i ∈ taken ++ [curIdx], i < slots) ↔ (∀ i ∈ taken, i < slots) ∧
      curIdx < slots := by
    intro taken
    rw [List.forall_mem_append, List.forall_mem_singleton]
  unfold handleFlow touchedByFlow FlowFits
  dsimp only
  split
  · rw [last, ← and_assoc, ← takeFits_iff bytes.1 bytes.2]
    have same : (handleNewHole ptr curIdx expIdx maxIdx pkt).isSome =
        (dhdGetHostreorderPkts ptr ptr.expIdx ptr.expIdx).isSome := by
      unfold handleNewHole
      by_cases none_ : ptr.pendPkts = 0
      · simp [none_, getHostreorderPkts_nothing none_]
      · simp [none_]
    rw [same]
  split
  · split
    · rw [List.forall_mem_singleton]
      exact and_iff_right rfl
    split
    · have same : (handleExpected ptr curIdx expIdx pkt).isSome =
          (dhdGetHostreorderPkts { ptr with pendPkts := (ptr.pendPkts + 1) % 256 } curIdx expIdx).isSome := by
        unfold handleExpected
        rw [Option.isSome_map]
        unfold dhdGetHostreorderPkts
        by_cases none_ : (ptr.pendPkts + 1) % 256 = 0
        · simp [ReorderInfo.hold, none_]
        · simp only [ReorderInfo.hold, none_, if_false, Option.isSome_map]
          by_cases slot : expIdx ≤ ptr.maxIdx
          · rw [takeSlots_scan bytes.1 cur slot (length_scan slot), takeSlots_scan bytes.1 cur slot (length_scan slot)]
            rfl
          · rw [takeSlots_endless (not_le.mp slot), takeSlots_endless (not_le.mp slot)]
      rw [same, List.forall_mem_cons, and_left_comm]
      exact and_congr_right fun _ => takeFits_iff bytes.1 cur
    · have same : (handleBothMoved ptr (hasFlag flags reorderdataFlushAll) curIdx expIdx pkt).isSome =
          (dhdGetHostreorderPkts ptr ptr.expIdx
            (if hasFlag flags reorderdataFlushAll then ptr.expIdx else expIdx)).isSome := by
        unfold handleBothMoved
        rw [Option.isSome_map]
      rw [same, List.forall_mem_append, ← and_assoc, takeFits_iff bytes.1 bytes.2]
      refine and_congr_right fun _ => ?_
      by_cases moves : if curIdx = ptr.maxIdx then expIdx = 0 else expIdx = curIdx + 1
      · rw [if_pos moves]
        exact ⟨fun _ held => absurd moves held, fun _ _ member => absurd member List.not_mem_nil⟩
      · rw [if_neg moves, List.forall_mem_singleton]
        exact ⟨fun inside _ => inside, fun inside => inside moves⟩
  · have same : (handleWindowMove ptr (hasFlag flags reorderdataFlushAll) expIdx pkt).isSome =
        (dhdGetHostreorderPkts ptr ptr.expIdx
          (if hasFlag flags reorderdataFlushAll then ptr.expIdx else expIdx)).isSome := by
      unfold handleWindowMove
      rw [Option.isSome_map]
    rw [same, takeFits_iff bytes.1 bytes.2]

theorem ByteIndices.taken {got : ReorderInfo Packet × Chain Packet} (bytes : ByteIndices ptr)
    (done : dhdGetHostreorderPkts ptr start stop = some got) : ByteIndices got.1 := by
  unfold dhdGetHostreorderPkts at done
  split at done
  · cases done
    exact bytes
  · obtain ⟨taken, -, rfl⟩ := Option.map_eq_some_iff.mp done
    exact bytes

theorem ByteIndices.handled {handled : Handled Packet} {maxIdx : Nat} (bytes : ByteIndices ptr) (exp : expIdx < 256)
    (max_ : maxIdx < 256) (done : handleFlow ptr flags curIdx expIdx maxIdx pkt = some handled)
    {after : ReorderInfo Packet} (same : handled.ptr = some after) : ByteIndices after := by
  unfold handleFlow at done
  split at done
  · obtain ⟨got, -, rfl⟩ := Option.map_eq_some_iff.mp done
    cases same
    exact ⟨max_, exp⟩
  split at done
  · split at done
    · cases done
      cases same
      exact bytes
    split at done
    · obtain ⟨got, taken, rfl⟩ := Option.map_eq_some_iff.mp done
      cases same
      have held : ByteIndices { ptr.hold curIdx pkt with curIdx := curIdx, expIdx := expIdx } := ⟨bytes.1, exp⟩
      exact held.taken taken
    · obtain ⟨got, taken, rfl⟩ := Option.map_eq_some_iff.mp done
      cases same
      refine ⟨?_, exp⟩
      dsimp only
      by_cases moves : if curIdx = ptr.maxIdx then expIdx = 0 else expIdx = curIdx + 1
      · rw [if_pos moves]
        exact (bytes.taken taken).1
      · rw [if_neg moves]
        exact (bytes.taken taken).1
  · obtain ⟨got, taken, rfl⟩ := Option.map_eq_some_iff.mp done
    cases same
    exact ⟨(bytes.taken taken).1, exp⟩

end Call

section Runs

variable {flows : Flows Packet} {call : ReorderCall Packet}

def AllBytes (flows : Flows Packet) : Prop := ∀ flow ptr, flows.bufs flow = some ptr → ByteIndices ptr

theorem ReorderCall.bytes (call : ReorderCall Packet) : call.maxIdx < 256 ∧ call.curIdx < 256 ∧ call.expIdx < 256 :=
  ⟨UInt8.toNat_lt _, UInt8.toNat_lt _, UInt8.toNat_lt _⟩

theorem byteIndices_fresh (call : ReorderCall Packet) :
    ByteIndices (.fresh call.maxIdx : ReorderInfo Packet) := ⟨call.bytes.1, Nat.zero_lt_succ _⟩

theorem process_isSome : (flows.process call).2.isSome =
    (processFlow (flows.bufs call.flowId) call.buf call.pkt call.allocated).isSome := by
  unfold Flows.process dhdProcessPktReorderInfo ReorderCall.flowId
  dsimp only
  cases processFlow (flows.bufs (call.buf.getD flowidOffset 0).toNat) call.buf call.pkt call.allocated with
  | none => rfl
  | some handled => rfl

/-- A call is safe exactly if it has what it needs. -/
theorem safeCall_iff (bytes : AllBytes flows) : SafeCall flows call ↔ CallFits flows call := by
  obtain ⟨max_, cur, exp⟩ := call.bytes
  unfold SafeCall CallFits
  rw [process_isSome]
  unfold processFlow touched
  change (Option.isSome (if call.flags = 0xFF then _
    else if hasFlag call.flags reorderdataDelFlow then _ else _) ∧ _) ↔ _
  by_cases invalid : call.flags = 0xFF
  · simp only [if_pos invalid]
    exact ⟨fun _ => trivial, fun _ => ⟨rfl, fun _ member => absurd member List.not_mem_nil⟩⟩
  simp only [if_neg invalid]
  by_cases deletes : hasFlag call.flags reorderdataDelFlow = true
  · simp only [if_pos deletes]
    cases entry : flows.bufs call.flowId with
    | none =>
      exact ⟨fun _ _ same => absurd same (by simp), fun _ => ⟨rfl, fun _ member => absurd member List.not_mem_nil⟩⟩
    | some ptr =>
      have held := bytes _ ptr entry
      have both := @takeFits_iff _ (flows.slotsFor call) ptr.expIdx ptr.expIdx ptr held.1 held.2
      have same : (handleDelFlow ptr call.pkt).isSome = (dhdGetHostreorderPkts ptr ptr.expIdx ptr.expIdx).isSome := by
        unfold handleDelFlow
        rw [Option.isSome_map]
      constructor
      · intro safe other found
        cases found
        exact both.mp ⟨same ▸ safe.1, safe.2⟩
      · intro fits
        have safe := both.mpr (fits ptr rfl)
        exact ⟨same.trans safe.1, safe.2⟩
  simp only [if_neg deletes]
  cases entry : flows.bufs call.flowId with
  | some ptr => exact flowFits_iff (bytes _ ptr entry) cur call.maxIdx
  | none =>
    cases room : call.allocated with
    | false =>
      exact ⟨fun _ same => Bool.noConfusion same, fun _ => ⟨rfl, fun _ member => absurd member List.not_mem_nil⟩⟩
    | true =>
      have both := @flowFits_iff _ (flows.slotsFor call) call.curIdx call.expIdx _ call.flags call.pkt
        (byteIndices_fresh call) cur call.maxIdx
      exact ⟨fun safe _ => both.mp safe, fun fits => both.mpr (fits rfl)⟩

theorem allBytes_next (bytes : AllBytes flows) (call : ReorderCall Packet) :
    AllBytes (reorderMachine.next flows call) := by
  obtain ⟨max_, -, exp⟩ := call.bytes
  intro flow after same
  change (flows.process call).1.bufs flow = some after at same
  unfold Flows.process at same
  cases done : dhdProcessPktReorderInfo flows.bufs call.buf call.pkt call.allocated with
  | none =>
    rw [done] at same
    exact bytes flow after same
  | some result =>
    rw [done] at same
    obtain ⟨handled, flowDone, rfl⟩ := Option.map_eq_some_iff.mp done
    dsimp only at same
    by_cases own : flow = (call.buf.getD flowidOffset 0).toNat
    · subst own
      rw [update_self] at same
      unfold processFlow at flowDone
      dsimp only at flowDone
      split at flowDone
      · cases flowDone
        exact bytes _ after same
      split at flowDone
      · split at flowDone
        · cases flowDone
          cases same
        · obtain ⟨got, -, rfl⟩ := Option.map_eq_some_iff.mp flowDone
          cases same
      · split at flowDone
        · rename_i ptr entry
          exact (bytes _ ptr entry).handled exp max_ flowDone same
        · split at flowDone
          · exact (byteIndices_fresh call).handled exp max_ flowDone same
          · cases flowDone
            cases same
    · rw [update_of_ne own] at same
      exact bytes flow after same

end Runs

/-- In every run of calls from no flows at all, every call returns and stays inside its flow's
slots exactly if every call has what it needs. -/
theorem reorder_safe_iff (calls : List (ReorderCall Packet)) :
    (∀ past call rest, calls = past ++ call :: rest → SafeCall (reorderMachine.run Flows.none past) call) ↔
      ∀ past call rest, calls = past ++ call :: rest → CallFits (reorderMachine.run Flows.none past) call := by
  have reached : ∀ past, AllBytes (reorderMachine.run (Flows.none : Flows Packet) past) := by
    intro past
    have preserved : Machine.Preserves (reorderMachine : Machine (Flows Packet) _ _) AllBytes :=
      fun _ call bytes _ => allBytes_next bytes call
    apply Machine.run_invariant _ preserved
    · exact fun _ _ same => absurd same (by simp [Flows.none])
    · exact reorderMachine.admitted_of_forall fun _ _ => trivial
  constructor
  · exact fun safe past call rest split => (safeCall_iff (reached past)).mp (safe past call rest split)
  · exact fun fits past call rest split => (safeCall_iff (reached past)).mpr (fits past call rest split)

/-- Reorder information for flow 0. -/
def infoOf (flags maxIdx curIdx expIdx : UInt8) : ReorderCall Nat :=
  ⟨[0, 0, maxIdx, 0, flags, 0, curIdx, 0, expIdx], 7, true⟩

/-- A flow of two slots: a new hole of 64 writes to slot 63, and a move of the window to slot 9
never ends. -/
theorem newHole_overruns :
    ¬SafeCall (reorderMachine.run Flows.none [infoOf 0x10 1 1 0]) (infoOf 0x10 63 63 0) ∧
    ¬SafeCall (reorderMachine.run Flows.none [infoOf 0x10 1 1 0]) (infoOf 0x08 1 1 9) := by
  decide +kernel

end BcmDhd.Cdc
