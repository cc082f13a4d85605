import BcmDhd.Lib.Machine
import Mathlib.Tactic

/-! Received packets of an aggregate are put back into order on the host. The
firmware tells with each packet which slot of the receive window it belongs to
and which slot is expected next. -/

namespace BcmDhd.Cdc

open Function

universe u

def flowidOffset : Nat := 0
def maxidxOffset : Nat := 2
def flagsOffset : Nat := 4
def curidxOffset : Nat := 6
def expidxOffset : Nat := 8

def reorderdataDelFlow : UInt8 := 0x01
def reorderdataFlushAll : UInt8 := 0x02
def reorderdataCuridxValid : UInt8 := 0x04
def reorderdataExpidxValid : UInt8 := 0x08
def reorderdataNewHole : UInt8 := 0x10

/-- `flags & bit`. -/
def hasFlag (flags bit : UInt8) : Bool := flags &&& bit != 0

/-- The buffered packets of a flow. All indices and `pendPkts` are bytes. -/
structure ReorderInfo (Packet : Type u) where
  p : Nat → Option Packet
  curIdx : Nat
  expIdx : Nat
  maxIdx : Nat
  pendPkts : Nat

variable {Packet : Type u}

/-- Packets linked to a chain, and the number that is told of them. -/
structure Chain (Packet : Type u) where
  pkts : List Packet
  pktCount : Nat

def Chain.empty : Chain Packet := ⟨[], 0⟩

/-- Link `pkt` behind the last packet. -/
def Chain.setNext (chain : Chain Packet) (pkt : Packet) : Chain Packet :=
  ⟨chain.pkts ++ [pkt], chain.pktCount + 1⟩

/-- The rounds of `do … while (start != end)`. They do not end where `stop` is no
slot of the window. -/
def takeSlots (maxIdx stop : Nat) : Nat → (Nat → Option Packet) → Nat → Chain Packet →
    Option ((Nat → Option Packet) × Chain Packet)
  | 0, _, _, _ => none
  | rounds + 1, p, start, chain =>
    let chain := match p start with
      | none => chain
      | some pkt => chain.setNext pkt
    let p := update p start none
    let next := if maxIdx < (start + 1) % 256 then 0 else (start + 1) % 256
    if next = stop then some (p, chain) else takeSlots maxIdx stop rounds p next chain

/-- `none` where the loop does not end. -/
def dhdGetHostreorderPkts (ptr : ReorderInfo Packet) (start stop : Nat) :
    Option (ReorderInfo Packet × Chain Packet) :=
  if ptr.pendPkts = 0 then some (ptr, .empty)
  else (takeSlots ptr.maxIdx stop (ptr.maxIdx + 2) ptr.p start .empty).map fun taken =>
    ({ ptr with
        p := taken.1
        pendPkts := (ptr.pendPkts + 256 - taken.2.pktCount % 256) % 256 }, taken.2)

namespace ReorderInfo

/-- A flow as it is allocated. -/
def fresh (maxIdx : Nat) : ReorderInfo Packet := ⟨fun _ => none, 0, 0, maxIdx, 0⟩

/-- Put `pkt` into its slot. -/
def hold (ptr : ReorderInfo Packet) (curIdx : Nat) (pkt : Packet) : ReorderInfo Packet :=
  { ptr with p := update ptr.p curIdx (some pkt), pendPkts := (ptr.pendPkts + 1) % 256 }

end ReorderInfo

/-- What handling a packet leaves: the flow, the chain to pass up, and what was freed. -/
structure Handled (Packet : Type u) where
  ptr : Option (ReorderInfo Packet)
  chain : Chain Packet
  freed : List Packet

def handleDelFlow (ptr : ReorderInfo Packet) (pkt : Packet) : Option (Handled Packet) :=
  (dhdGetHostreorderPkts ptr ptr.expIdx ptr.expIdx).map fun got =>
    ⟨none, if got.2.pkts ≠ [] then got.2.setNext pkt else ⟨[pkt], 1⟩, []⟩

def handleNewHole (ptr : ReorderInfo Packet) (curIdx expIdx maxIdx : Nat) (pkt : Packet) :
    Option (Handled Packet) :=
  let flushed := if ptr.pendPkts ≠ 0 then
      (dhdGetHostreorderPkts ptr ptr.expIdx ptr.expIdx).map fun got =>
        ({ got.1 with pendPkts := 0 }, got.2)
    else some (ptr, .empty)
  flushed.map fun got =>
    let ptr := { got.1 with curIdx := curIdx, expIdx := expIdx, maxIdx := maxIdx }
    ⟨some (ptr.hold curIdx pkt), got.2, []⟩

/-- The packet still belongs to the current hole. -/
def handleFill (ptr : ReorderInfo Packet) (curIdx : Nat) (pkt : Packet) : Option (Handled Packet) :=
  some ⟨some { ptr.hold curIdx pkt with curIdx := curIdx }, .empty, (ptr.p curIdx).toList⟩

/-- The packet is the expected one. -/
def handleExpected (ptr : ReorderInfo Packet) (curIdx expIdx : Nat) (pkt : Packet) :
    Option (Handled Packet) :=
  let held := { ptr.hold curIdx pkt with curIdx := curIdx, expIdx := expIdx }
  (dhdGetHostreorderPkts held curIdx expIdx).map fun got =>
    ⟨some got.1, got.2, (ptr.p curIdx).toList⟩

/-- Both the packet's slot and the expected one are new. -/
def handleBothMoved (ptr : ReorderInfo Packet) (flushAll : Bool) (curIdx expIdx : Nat)
    (pkt : Packet) : Option (Handled Packet) :=
  let endIdx := if flushAll then ptr.expIdx else expIdx
  (dhdGetHostreorderPkts ptr ptr.expIdx endIdx).map fun got =>
    let flushCurrent := if curIdx = ptr.maxIdx then expIdx = 0 else expIdx = curIdx + 1
    let moved := if flushCurrent then (got.1, got.2.setNext pkt) else (got.1.hold curIdx pkt, got.2)
    ⟨some { moved.1 with expIdx := expIdx, curIdx := curIdx }, moved.2, []⟩

/-- An explicit move of the window. -/
def handleWindowMove (ptr : ReorderInfo Packet) (flushAll : Bool) (expIdx : Nat) (pkt : Packet) :
    Option (Handled Packet) :=
  let endIdx := if flushAll then ptr.expIdx else expIdx
  (dhdGetHostreorderPkts ptr ptr.expIdx endIdx).map fun got =>
    ⟨some { got.1 with expIdx := expIdx }, got.2.setNext pkt, []⟩

def handleFlow (ptr : ReorderInfo Packet) (flags : UInt8) (curIdx expIdx maxIdx : Nat)
    (pkt : Packet) : Option (Handled Packet) :=
  if hasFlag flags reorderdataNewHole then handleNewHole ptr curIdx expIdx maxIdx pkt
  else if hasFlag flags reorderdataCuridxValid then
    if expIdx = ptr.expIdx ∧ curIdx ≠ ptr.expIdx then handleFill ptr curIdx pkt
    else if ptr.expIdx = curIdx then handleExpected ptr curIdx expIdx pkt
    else handleBothMoved ptr (hasFlag flags reorderdataFlushAll) curIdx expIdx pkt
  else handleWindowMove ptr (hasFlag flags reorderdataFlushAll) expIdx pkt

/-- `pkt` with the information in `buf`, for the flow's entry of `reorder_bufs`.
`allocated` tells whether there is memory for a new flow. -/
def processFlow (entry : Option (ReorderInfo Packet)) (buf : List UInt8) (pkt : Packet)
    (allocated : Bool) : Option (Handled Packet) :=
  let flags := buf.getD flagsOffset 0
  let maxIdx := (buf.getD maxidxOffset 0).toNat
  let curIdx := (buf.getD curidxOffset 0).toNat
  let expIdx := (buf.getD expidxOffset 0).toNat
  if flags = 0xFF then some ⟨entry, ⟨[pkt], 1⟩, []⟩
  else if hasFlag flags reorderdataDelFlow then
    match entry with
    | none => some ⟨none, ⟨[pkt], 1⟩, []⟩
    | some ptr => handleDelFlow ptr pkt
  else match entry with
    | some ptr => handleFlow ptr flags curIdx expIdx maxIdx pkt
    -- no memory: `*pkt` stays NULL, but the count says one packet
    | none => if allocated then handleFlow (.fresh maxIdx) flags curIdx expIdx maxIdx pkt
      else some ⟨none, ⟨[], 1⟩, []⟩

/-- The flows, by their id. -/
abbrev ReorderBufs (Packet : Type u) := Nat → Option (ReorderInfo Packet)

/-- The flows afterwards, the chain to pass up, and what was freed. -/
def dhdProcessPktReorderInfo (reorderBufs : ReorderBufs Packet) (buf : List UInt8) (pkt : Packet)
    (allocated : Bool) : Option (ReorderBufs Packet × Chain Packet × List Packet) :=
  let flowId := (buf.getD flowidOffset 0).toNat
  (processFlow (reorderBufs flowId) buf pkt allocated).map fun handled =>
    (update reorderBufs flowId handled.ptr, handled.chain, handled.freed)

/-! The firmware's side of reordering: a window of `size` sequence numbers that
opens holes, fills them, slides and is flushed, and what it reports of that. Then
the host and the firmware together. -/

open BcmDhd.Lib

/-- A packet of the flow by its sequence number, or one that only brings a report. -/
inductive Carried
  | data (seq : Nat)
  | control
deriving DecidableEq

def Carried.seq : Carried → Option Nat
  | .data seq => some seq
  | .control => none

def Carried.ofOption : Option Nat → Carried
  | some seq => .data seq
  | none => .control

/-- The sequence number expected next, the later ones that have come, and whether
the host knows the expected one. -/
structure Window where
  exp : Nat
  held : Finset Nat
  told : Bool

/-- What happens to the window, with the flags that the report carries. `exp` is
the number expected afterwards. -/
inductive Report
  /-- The expected packet while nothing is held goes up without a report. -/
  | direct
  /-- Nothing is held any longer but `seq`, before which there is a hole. -/
  | hole (exp seq : Nat) (flags : UInt8)
  /-- `seq` arrives in the window that starts at `base`. -/
  | arrival (base exp seq : Nat) (flags : UInt8)
  | move (base exp : Nat) (carried : Option Nat) (flags : UInt8)
  | delete (exp : Nat) (carried : Option Nat) (flags : UInt8)

namespace Window

/-- The held numbers that are let go when `exp` is expected next. -/
def released (held : Finset Nat) (before exp : Nat) : List Nat :=
  (List.range' before (exp - before)).filter (· ∈ held)

def kept (held : Finset Nat) (exp : Nat) : Finset Nat := held.filter (exp ≤ ·)

/-- A window as a new flow begins, on a host that expects slot 0. -/
def opened (size exp : Nat) : Window := ⟨exp, ∅, exp % size = 0⟩

def after (size : Nat) (window : Window) : Report → Window
  | .direct => ⟨window.exp + 1, window.held, false⟩
  | .hole exp seq _ => ⟨exp, {seq}, true⟩
  | .arrival _ exp seq _ => ⟨exp, kept (insert seq window.held) exp, true⟩
  | .move _ exp _ _ => ⟨exp, kept window.held exp, true⟩
  | .delete exp _ _ => opened size exp

/-- The numbers that a report passes up, in the order of the firmware. -/
def sends (window : Window) : Report → List Nat
  | .direct => [window.exp]
  | .hole exp _ _ => released window.held window.exp exp
  | .arrival _ exp seq _ => released (insert seq window.held) window.exp exp
  | .move _ exp carried _ => released window.held window.exp exp ++ carried.toList
  | .delete exp carried _ => released window.held window.exp exp ++ carried.toList

/-- FLUSH_ALL lets go everything that was held. It is set when the expected slot
no longer tells how far the window has moved. -/
def FlushFlag (size : Nat) (window : Window) (exp : Nat) (flags : UInt8) : Prop :=
  (hasFlag flags reorderdataFlushAll = true → ∀ held ∈ window.held, held < exp) ∧
    (window.exp + size < exp → hasFlag flags reorderdataFlushAll = true)

/-- A packet of the flow that comes with a move is the last one let go. -/
def Carries (window : Window) (exp : Nat) (carried : Option Nat) : Prop :=
  ∀ seq ∈ carried.toList, window.exp ≤ seq ∧ seq < exp ∧ ∀ held ∈ window.held, held < exp → held < seq

def Reports (size : Nat) (window : Window) : Report → Prop
  | .direct => window.held = ∅
  | .hole exp seq flags => window.exp ≤ exp ∧ (∀ held ∈ window.held, held < exp) ∧ exp < seq ∧
      seq < exp + size ∧ hasFlag flags reorderdataDelFlow = false ∧
      hasFlag flags reorderdataNewHole = true ∧ flags ≠ 0xFF
  | .arrival base exp seq flags => window.told = true ∧ window.exp ≤ base ∧ base ≤ seq ∧
      seq < base + size ∧ seq ∉ window.held ∧ base ≤ exp ∧
      (∀ between ∈ Finset.Ico base exp, between ∈ insert seq window.held) ∧
      exp ∉ insert seq window.held ∧ FlushFlag size window exp flags ∧
      hasFlag flags reorderdataDelFlow = false ∧ hasFlag flags reorderdataNewHole = false ∧
      hasFlag flags reorderdataCuridxValid = true ∧ flags ≠ 0xFF
  | .move base exp carried flags => window.exp < base ∧ base ≤ exp ∧
      (∀ between ∈ Finset.Ico base exp, between ∈ window.held) ∧ exp ∉ window.held ∧
      Carries window exp carried ∧ FlushFlag size window exp flags ∧
      hasFlag flags reorderdataDelFlow = false ∧ hasFlag flags reorderdataNewHole = false ∧
      hasFlag flags reorderdataCuridxValid = false ∧ flags ≠ 0xFF
  | .delete exp carried flags => window.exp ≤ exp ∧ (∀ held ∈ window.held, held < exp) ∧
      Carries window exp carried ∧ hasFlag flags reorderdataDelFlow = true ∧ flags ≠ 0xFF

instance (size : Nat) (window : Window) (exp : Nat) (flags : UInt8) :
    Decidable (FlushFlag size window exp flags) :=
  inferInstanceAs (Decidable (_ ∧ _))

instance (window : Window) (exp : Nat) (carried : Option Nat) :
    Decidable (Carries window exp carried) :=
  inferInstanceAs (Decidable (∀ seq ∈ carried.toList, _))

instance (size : Nat) (window : Window) : (report : Report) → Decidable (Reports size window report)
  | .direct => inferInstanceAs (Decidable (_ = _))
  | .hole _ _ _ => inferInstanceAs (Decidable (_ ∧ _))
  | .arrival _ _ _ _ => inferInstanceAs (Decidable (_ ∧ _))
  | .move _ _ _ _ => inferInstanceAs (Decidable (_ ∧ _))
  | .delete _ _ _ => inferInstanceAs (Decidable (_ ∧ _))

end Window

namespace Report

/-- The packets of the flow that have come with a report. -/
def received (window : Window) : Report → List Nat
  | .direct => [window.exp]
  | .hole _ seq _ => [seq]
  | .arrival _ _ seq _ => [seq]
  | .move _ _ carried _ => carried.toList
  | .delete _ carried _ => carried.toList

/-- The packet that brings a report, the flags, and `cur_idx` and `exp_idx`. -/
def indicated (size : Nat) : Report → Option (Carried × UInt8 × Nat × Nat)
  | .direct => none
  | .hole exp seq flags => some (.data seq, flags, seq % size, exp % size)
  | .arrival _ exp seq flags => some (.data seq, flags, seq % size, exp % size)
  | .move _ exp carried flags => some (.ofOption carried, flags, 0, exp % size)
  | .delete exp carried flags => some (.ofOption carried, flags, 0, exp % size)

end Report

/-- The bytes of a report. -/
def reorderInfo (flow maxIdx flags : UInt8) (curIdx expIdx : Nat) : List UInt8 :=
  [flow, 0, maxIdx, 0, flags, 0, .ofNat curIdx, 0, .ofNat expIdx, 0]

/-- Host and firmware. `received` and `upward` are on record: what has come for a
flow, and the chains that were passed up for it. -/
structure Reception where
  reorderBufs : ReorderBufs Carried
  windows : Nat → Window
  received : Nat → List Nat
  upward : Nat → List (Chain Carried)
  freed : List Carried
  hung : Bool

structure Indication where
  flow : UInt8
  report : Report
  allocated : Bool

variable (maxIdx : UInt8)

/-- The window has `max_idx + 1` slots. -/
def windowSize : Nat := maxIdx.toNat + 1

/-- The host's part: the packet goes up as it is, or with its report through the
reordering. -/
def hostStep (bufs : ReorderBufs Carried) (window : Window) (indication : Indication) :
    Option (ReorderBufs Carried × Chain Carried × List Carried) :=
  match indication.report.indicated (windowSize maxIdx) with
  | none => some (bufs, ⟨[.data window.exp], 1⟩, [])
  | some (pkt, flags, curIdx, expIdx) =>
    dhdProcessPktReorderInfo bufs (reorderInfo indication.flow maxIdx flags curIdx expIdx) pkt
      indication.allocated

def receptionStep (state : Reception) (indication : Indication) : Reception :=
  let flow := indication.flow.toNat
  let window := state.windows flow
  match hostStep maxIdx state.reorderBufs window indication with
  | none => { state with hung := true }
  | some (bufs, chain, freed) =>
    { reorderBufs := bufs
      windows := update state.windows flow
        (window.after (windowSize maxIdx) indication.report)
      received := update state.received flow
        (state.received flow ++ indication.report.received window)
      upward := update state.upward flow (state.upward flow ++ [chain])
      freed := state.freed ++ freed
      hung := state.hung }

/-- Every flow of the firmware reports what its window does. -/
def reception : Machine Reception Indication Unit where
  step state indication := (receptionStep maxIdx state indication, ())
  admits state indication :=
    (state.windows indication.flow.toNat).Reports (windowSize maxIdx) indication.report

/-- No flow is known to the host yet; each starts at a number of its own. -/
def receptionStart (start : Nat → Nat) : Reception :=
  { reorderBufs := fun _ => none
    windows := fun flow => .opened (windowSize maxIdx) (start flow)
    received := fun _ => []
    upward := fun _ => []
    freed := []
    hung := false }

/-- The packets of the flow that were passed up, in that order. -/
def delivered (state : Reception) (flow : Nat) : List Nat :=
  ((state.upward flow).flatMap Chain.pkts).filterMap Carried.seq

end BcmDhd.Cdc
