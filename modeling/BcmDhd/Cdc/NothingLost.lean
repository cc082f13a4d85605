import BcmDhd.Cdc.SlotBounds

namespace BcmDhd.Cdc

open BcmDhd.Lib Function

universe u

variable {Packet : Type u}

/-- A flow of so many slots: its indices are slots, packets lie only there, and as many are
pending as there are. -/
structure InOrder (slots : Nat) (ptr : ReorderInfo Packet) : Prop where
  bytes : slots ≤ 256
  maxIdx : ptr.maxIdx < slots
  expIdx : ptr.expIdx < slots
  only : ∀ i, slots ≤ i → ptr.p i = none
  byte : ptr.pendPkts < 256
  counted : Counted slots ptr

def heldBy (slots : Nat) : Option (ReorderInfo Packet) → List Packet
  | none => []
  | some ptr => contents slots ptr.p

/-- The packets that were held and the one received are the ones still held, passed up and
freed; as many are told as are passed up, and as many are pending as are held. -/
structure Accounted (slots : Nat) (entry : Option (ReorderInfo Packet)) (pkt : Packet) (handled : Handled Packet) :
    Prop where
  kept : (heldBy slots entry ++ [pkt]).Perm (heldBy slots handled.ptr ++ handled.chain.pkts ++ handled.freed)
  told : handled.chain.pktCount = handled.chain.pkts.length
  counted : ∀ ptr, handled.ptr = some ptr → Counted slots ptr

/-- Handling ends, with all packets accounted for. -/
def Settled (slots : Nat) (entry : Option (ReorderInfo Packet)) (pkt : Packet) (result : Option (Handled Packet)) :
    Prop := ∃ handled, result = some handled ∧ Accounted slots entry pkt handled

def NothingLost (slots : Nat) (entry : Option (ReorderInfo Packet)) (buf : List UInt8) (pkt : Packet)
    (allocated : Bool) : Prop := Settled slots entry pkt (processFlow entry buf pkt allocated)

instance (slots : Nat) (ptr : ReorderInfo Packet) : Decidable (Counted slots ptr) :=
  inferInstanceAs (Decidable (_ = _))

instance [DecidableEq Packet] (slots : Nat) (entry : Option (ReorderInfo Packet)) (pkt : Packet)
    (handled : Handled Packet) : Decidable (Accounted slots entry pkt handled) :=
  decidable_of_iff
    ((heldBy slots entry ++ [pkt]).Perm (heldBy slots handled.ptr ++ handled.chain.pkts ++ handled.freed) ∧
      handled.chain.pktCount = handled.chain.pkts.length ∧ ∀ ptr ∈ handled.ptr, Counted slots ptr)
    ⟨fun ⟨kept, told, counted⟩ => ⟨kept, told, counted⟩, fun ⟨kept, told, counted⟩ => ⟨kept, told, counted⟩⟩

instance [DecidableEq Packet] (slots : Nat) (entry : Option (ReorderInfo Packet)) (pkt : Packet)
    (result : Option (Handled Packet)) : Decidable (Settled slots entry pkt result) :=
  decidable_of_iff (∃ handled ∈ result, Accounted slots entry pkt handled) Iff.rfl

/-- A flush takes all packets: there are none, or they all lie in a window that the expected
index is in. -/
def FlushesAll (ptr : ReorderInfo Packet) : Prop :=
  ptr.pendPkts = 0 ∨ ptr.expIdx ≤ ptr.maxIdx ∧ ∀ i, ptr.maxIdx < i → ptr.p i = none

/-- A packet finds its slot empty, and one more can be counted. -/
def Fits (ptr : ReorderInfo Packet) (curIdx : Nat) : Prop := ptr.p curIdx = none ∧ ptr.pendPkts ≠ 255

/-- The window moves with the packet: up to a slot of the window, and unless the packet is passed
up its slot is empty or emptied, and one more can be counted. -/
def MovesOn (ptr : ReorderInfo Packet) (endIdx curIdx expIdx : Nat) : Prop :=
  (ptr.pendPkts = 0 ∨ endIdx ≤ ptr.maxIdx) ∧
    ((if curIdx = ptr.maxIdx then expIdx = 0 else expIdx = curIdx + 1) ∨ ptr.pendPkts = 0 ∨
      (curIdx ∈ scan ptr.maxIdx ptr.expIdx endIdx ∨ ptr.p curIdx = none) ∧
        (ptr.pendPkts = 255 → ∃ i ∈ scan ptr.maxIdx ptr.expIdx endIdx, ptr.p i ≠ none))

def FlowKeeps (ptr : ReorderInfo Packet) (flags : UInt8) (curIdx expIdx : Nat) : Prop :=
  let endIdx := if hasFlag flags reorderdataFlushAll then ptr.expIdx else expIdx
  if hasFlag flags reorderdataNewHole then FlushesAll ptr
  else if hasFlag flags reorderdataCuridxValid then
    if expIdx = ptr.expIdx ∧ curIdx ≠ ptr.expIdx then Fits ptr curIdx
    else if ptr.expIdx = curIdx then Fits ptr curIdx ∧ expIdx ≤ ptr.maxIdx
    else MovesOn ptr endIdx curIdx expIdx
  else ptr.pendPkts = 0 ∨ endIdx ≤ ptr.maxIdx

/-- What a message needs for nothing to be lost. -/
def Keeps (entry : Option (ReorderInfo Packet)) (buf : List UInt8) (allocated : Bool) : Prop :=
  let flags := buf.getD flagsOffset 0
  if flags = 0xFF then True
  else match entry with
    | none => hasFlag flags reorderdataDelFlow = true ∨ allocated = true
    | some ptr =>
      if hasFlag flags reorderdataDelFlow then FlushesAll ptr
      else FlowKeeps ptr flags (buf.getD curidxOffset 0).toNat (buf.getD expidxOffset 0).toNat

section Steps

variable {slots start stop curIdx expIdx i : Nat} {ptr : ReorderInfo Packet} {pkt : Packet}

theorem InOrder.counts (order : InOrder slots ptr) : (contents slots ptr.p).length = ptr.pendPkts := by
  rw [Contents.length]
  exact order.counted.symm

theorem InOrder.nothing (order : InOrder slots ptr) (none_ : ptr.pendPkts = 0) : ∀ i, ptr.p i = none := by
  intro i
  by_cases inside : i < slots
  · have empty : slotCount slots ptr.p Option.isSome = 0 := order.counted.symm.trans none_
    exact Option.isSome_eq_false_iff.mp (SlotCount.eq_zero_iff.mp empty i inside) |> Option.isNone_iff_eq_none.mp
  · exact order.only i (by omega)

theorem scan_inside (last : ptr.maxIdx < slots) (first : start < slots) (slot : stop ≤ ptr.maxIdx) :
    ∀ i ∈ scan ptr.maxIdx start stop, i < slots := by
  intro i member
  have place := mem_scan.mp member
  split at place
  · omega
  · omega

theorem scanned_kept (order : InOrder slots ptr) (first : start < slots) (slot : stop ≤ ptr.maxIdx) :
    (contents slots (ptr.scanned start stop).p ++ (scan ptr.maxIdx start stop).filterMap ptr.p).Perm
      (contents slots ptr.p) :=
  Contents.clear nodup_scan (scan_inside order.maxIdx first slot)

theorem scanned_counts (order : InOrder slots ptr) (first : start < slots) (slot : stop ≤ ptr.maxIdx) :
    (ptr.scanned start stop).pendPkts + ((scan ptr.maxIdx start stop).filterMap ptr.p).length = ptr.pendPkts := by
  have lengths := (scanned_kept order first slot).length_eq
  rw [List.length_append, order.counts] at lengths
  have byte := order.byte
  unfold ReorderInfo.scanned
  dsimp only
  omega

theorem scanned_order (order : InOrder slots ptr) (first : start < slots) (slot : stop ≤ ptr.maxIdx) :
    InOrder slots (ptr.scanned start stop) := by
  have counts := scanned_counts order first slot
  have lengths := (scanned_kept order first slot).length_eq
  rw [List.length_append, order.counts, Contents.length] at lengths
  have byte := order.byte
  refine ⟨order.bytes, order.maxIdx, order.expIdx, ?_, by omega, ?_⟩
  · intro i outside
    change cleared ptr.p _ i = none
    unfold cleared
    rw [order.only i outside, ite_self]
  · unfold Counted
    omega

theorem hold_kept (inside : curIdx < slots) :
    (contents slots (ptr.hold curIdx pkt).p ++ (ptr.p curIdx).toList).Perm (contents slots ptr.p ++ [pkt]) :=
  Contents.update inside ptr.p (some pkt)

theorem hold_counted_iff (order : InOrder slots ptr) (inside : curIdx < slots) :
    Counted slots (ptr.hold curIdx pkt) ↔ Fits ptr curIdx := by
  have lengths := (@hold_kept _ slots curIdx ptr pkt inside).length_eq
  rw [List.length_append, List.length_append, order.counts, Contents.length, List.length_singleton] at lengths
  have byte := order.byte
  have pending : (ptr.hold curIdx pkt).pendPkts = (ptr.pendPkts + 1) % 256 := rfl
  unfold Counted Fits
  rw [pending]
  cases found : ptr.p curIdx with
  | none =>
    rw [found, Option.toList_none, List.length_nil] at lengths
    constructor
    · intro same
      exact ⟨rfl, by omega⟩
    · intro fits
      have more := fits.2
      omega
  | some old =>
    rw [found, Option.toList_some, List.length_singleton] at lengths
    constructor
    · intro same
      omega
    · exact fun fits => absurd fits.1 (Option.some_ne_none old)

/-- What a scan that ends has taken and left. -/
structure Took (slots : Nat) (ptr : ReorderInfo Packet) (start stop : Nat) (got : ReorderInfo Packet × Chain Packet) :
    Prop where
  ends : ptr.pendPkts = 0 ∨ stop ≤ ptr.maxIdx
  order : InOrder slots got.1
  left : got.1.p = cleared ptr.p (scan ptr.maxIdx start stop)
  pkts : got.2.pkts = (scan ptr.maxIdx start stop).filterMap ptr.p
  kept : (contents slots got.1.p ++ got.2.pkts).Perm (contents slots ptr.p)
  told : got.2.pktCount = got.2.pkts.length

theorem take_ends (order : InOrder slots ptr) (first : start < slots) (ends : ptr.pendPkts = 0 ∨ stop ≤ ptr.maxIdx) :
    ∃ got, dhdGetHostreorderPkts ptr start stop = some got ∧ Took slots ptr start stop got := by
  by_cases none_ : ptr.pendPkts = 0
  · have empty := order.nothing none_
    refine ⟨_, getHostreorderPkts_nothing none_, ends, order, ?_, ?_, ?_, rfl⟩
    · funext i
      unfold cleared
      rw [empty i, ite_self]
    · exact (List.filterMap_eq_nil_iff.mpr fun i _ => empty i).symm
    · change (contents slots ptr.p ++ []).Perm _
      rw [List.append_nil]
  · have slot := ends.resolve_left none_
    have bytes := order.bytes
    have last := order.maxIdx
    refine ⟨_, getHostreorderPkts_scan none_ (by omega) (by omega) slot, ends,
      scanned_order order first slot, rfl, ?_, ?_, ?_⟩
    · simp [Chain.link, Chain.empty]
    · simpa [Chain.link, Chain.empty] using scanned_kept order first slot
    · simp [Chain.link, Chain.empty]

theorem Took.of {got : ReorderInfo Packet × Chain Packet} (order : InOrder slots ptr) (first : start < slots)
    (taken : dhdGetHostreorderPkts ptr start stop = some got) : Took slots ptr start stop got := by
  have ends : ptr.pendPkts = 0 ∨ stop ≤ ptr.maxIdx := by
    by_contra endless
    obtain ⟨some_, beyond⟩ := not_or.mp endless
    rw [getHostreorderPkts_endless some_ (not_le.mp beyond)] at taken
    cases taken
  obtain ⟨same, retaken, took⟩ := take_ends order first ends
  obtain rfl : got = same := Option.some.inj (taken.symm.trans retaken)
  exact took

theorem Took.length {got : ReorderInfo Packet × Chain Packet} (took : Took slots ptr start stop got) :
    (contents slots got.1.p).length + got.2.pkts.length = (contents slots ptr.p).length := by
  rw [← List.length_append]
  exact took.kept.length_eq

theorem counted_before (last : ptr.maxIdx < slots) (bytes : slots ≤ 256) (byte : ptr.pendPkts < 256)
    (first : start < slots) {got : ReorderInfo Packet × Chain Packet}
    (taken : dhdGetHostreorderPkts ptr start stop = some got) (after : Counted slots got.1) : Counted slots ptr := by
  by_cases none_ : ptr.pendPkts = 0
  · rw [getHostreorderPkts_nothing none_] at taken
    cases taken
    exact after
  by_cases slot : stop ≤ ptr.maxIdx
  · rw [getHostreorderPkts_scan none_ (by omega) (by omega) slot] at taken
    cases taken
    have lengths : slotCount slots (fun i => if i ∈ scan ptr.maxIdx start stop then none else ptr.p i) Option.isSome +
        ((scan ptr.maxIdx start stop).filterMap ptr.p).length = slotCount slots ptr.p Option.isSome :=
      Contents.clear_count nodup_scan (scan_inside last first slot)
    have most : slotCount slots ptr.p Option.isSome ≤ slots := SlotCount.le_size
    change (ptr.pendPkts + 256 - ((scan ptr.maxIdx start stop).filterMap ptr.p).length % 256) % 256 =
      slotCount slots (fun i => if i ∈ scan ptr.maxIdx start stop then none else ptr.p i) Option.isSome at after
    unfold Counted
    omega
  · rw [getHostreorderPkts_endless none_ (not_le.mp slot)] at taken
    cases taken

/-- A whole round takes all packets of the window. -/
theorem flushesAll_iff (order : InOrder slots ptr) {got : ReorderInfo Packet × Chain Packet}
    (taken : dhdGetHostreorderPkts ptr ptr.expIdx ptr.expIdx = some got) :
    FlushesAll ptr ↔ contents slots got.1.p = [] := by
  have took := Took.of order order.expIdx taken
  have around : ∀ i, i ∈ scan ptr.maxIdx ptr.expIdx ptr.expIdx ↔ i = ptr.expIdx ∨ i ≤ ptr.maxIdx ∨ i < ptr.expIdx := by
    intro i
    rw [mem_scan, if_neg (Nat.lt_irrefl _)]
    omega
  unfold contents FlushesAll
  rw [took.left, List.filterMap_eq_nil_iff]
  constructor
  · rintro (none_ | ⟨window, beyond⟩) i -
    · unfold cleared
      rw [order.nothing none_ i, ite_self]
    · unfold cleared
      split
      · rfl
      · rename_i outside
        exact beyond i (by have inside := mt (around i).mpr outside; omega)
  · intro empty
    rcases took.ends with none_ | window
    · exact .inl none_
    · refine .inr ⟨window, fun i beyond => ?_⟩
      by_cases inside : i < slots
      · have here := empty i (List.mem_range.mpr inside)
        unfold cleared at here
        rwa [if_neg (by rw [around]; omega)] at here
      · exact order.only i (by omega)

end Steps

section Packet

variable {slots curIdx expIdx maxIdx : Nat} {ptr : ReorderInfo Packet} {pkt : Packet}

section

variable (order : InOrder slots ptr)
include order

theorem delFlow_settled : Settled slots (some ptr) pkt (handleDelFlow ptr pkt) ↔ FlushesAll ptr := by
  have passed : ∀ chain : Chain Packet, chain.pktCount = chain.pkts.length →
      (if chain.pkts ≠ [] then chain.setNext pkt else ⟨[pkt], 1⟩) =
        (⟨chain.pkts ++ [pkt], chain.pkts.length + 1⟩ : Chain Packet) := by
    intro chain told
    split
    · rw [← told]
      rfl
    · rename_i empty
      rw [not_not.mp empty]
      rfl
  constructor
  · rintro ⟨handled, done, accounted⟩
    obtain ⟨got, taken, rfl⟩ := Option.map_eq_some_iff.mp done
    have took := Took.of order order.expIdx taken
    have lengths := accounted.kept.length_eq
    have before := took.length
    rw [flushesAll_iff order taken]
    simp only [passed _ took.told, heldBy, List.nil_append, List.append_nil, List.length_append,
      List.length_singleton] at lengths
    exact List.eq_nil_of_length_eq_zero (by omega)
  · intro flushes
    have ends : ptr.pendPkts = 0 ∨ ptr.expIdx ≤ ptr.maxIdx := flushes.imp_right And.left
    obtain ⟨got, taken, took⟩ := take_ends order order.expIdx ends
    have kept := took.kept
    rw [(flushesAll_iff order taken).mp flushes, List.nil_append] at kept
    refine ⟨_, Option.map_eq_some_iff.mpr ⟨got, taken, rfl⟩, ?_, ?_, fun _ same => absurd same (by simp)⟩
    · rw [passed _ took.told]
      simpa [heldBy] using (kept.symm.append_right [pkt])
    · rw [passed _ took.told]
      simp

theorem newHole_settled (inside : curIdx < slots) :
    Settled slots (some ptr) pkt (handleNewHole ptr curIdx expIdx maxIdx pkt) ↔ FlushesAll ptr := by
  by_cases none_ : ptr.pendPkts = 0
  · refine iff_of_true ?_ (.inl none_)
    have fits : Fits ptr curIdx := ⟨order.nothing none_ curIdx, by omega⟩
    have kept := @hold_kept _ slots curIdx ptr pkt inside
    rw [fits.1, Option.toList_none, List.append_nil] at kept
    have done : handleNewHole ptr curIdx expIdx maxIdx pkt =
        some ⟨some (({ ptr with curIdx := curIdx, expIdx := expIdx, maxIdx := maxIdx } : ReorderInfo Packet).hold
          curIdx pkt), .empty, []⟩ := by
      simp [handleNewHole, none_]
    refine ⟨_, done, ?_, rfl, ?_⟩
    · change (contents slots ptr.p ++ [pkt]).Perm (contents slots (ptr.hold curIdx pkt).p ++ [] ++ [])
      simpa using kept.symm
    · rintro after same
      cases same
      exact (@hold_counted_iff _ slots curIdx ptr pkt order inside).mpr fits
  · have flushed : handleNewHole ptr curIdx expIdx maxIdx pkt =
        (dhdGetHostreorderPkts ptr ptr.expIdx ptr.expIdx).map fun got =>
          ⟨some (({ got.1 with pendPkts := 0, curIdx := curIdx, expIdx := expIdx, maxIdx := maxIdx } :
            ReorderInfo Packet).hold curIdx pkt), got.2, []⟩ := by
      simp [handleNewHole, none_, comp_def]
    rw [flushed]
    constructor
    · rintro ⟨handled, done, accounted⟩
      obtain ⟨got, taken, rfl⟩ := Option.map_eq_some_iff.mp done
      have took := Took.of order order.expIdx taken
      have before := took.length
      have lengths := accounted.kept.length_eq
      have counted : 1 = slotCount slots (update got.1.p curIdx (some pkt)) Option.isSome :=
        accounted.counted _ rfl
      rw [← Contents.length] at counted
      rw [flushesAll_iff order taken]
      simp only [heldBy, ReorderInfo.hold, List.append_nil, List.length_append, List.length_singleton] at lengths
      exact List.eq_nil_of_length_eq_zero (by omega)
    · intro flushes
      have ends : ptr.pendPkts = 0 ∨ ptr.expIdx ≤ ptr.maxIdx := flushes.imp_right And.left
      obtain ⟨got, taken, took⟩ := take_ends order order.expIdx ends
      have empty := (flushesAll_iff order taken).mp flushes
      have kept := took.kept
      have held := @hold_kept _ slots curIdx got.1 pkt inside
      have free : got.1.p curIdx = none := List.filterMap_eq_nil_iff.mp empty curIdx (List.mem_range.mpr inside)
      rw [empty, List.nil_append] at kept held
      rw [free, Option.toList_none, List.append_nil] at held
      refine ⟨_, Option.map_eq_some_iff.mpr ⟨got, taken, rfl⟩, ?_, took.told, ?_⟩
      · change (contents slots ptr.p ++ [pkt]).Perm (contents slots (got.1.hold curIdx pkt).p ++ got.2.pkts ++ [])
        rw [List.append_nil]
        exact ((kept.symm.append_right [pkt]).trans List.perm_append_comm).trans (held.symm.append_right _)
      · rintro after same
        cases same
        change 1 = slotCount slots (got.1.hold curIdx pkt).p Option.isSome
        rw [← Contents.length, held.length_eq]
        rfl

theorem fill_settled (inside : curIdx < slots) :
    Settled slots (some ptr) pkt (handleFill ptr curIdx pkt) ↔ Fits ptr curIdx := by
  constructor
  · rintro ⟨handled, done, accounted⟩
    cases done
    have counted := accounted.counted _ rfl
    exact (@hold_counted_iff _ slots curIdx ptr pkt order inside).mp counted
  · intro fits
    refine ⟨_, rfl, ?_, rfl, ?_⟩
    · simpa [heldBy, Chain.empty] using (@hold_kept _ slots curIdx ptr pkt inside).symm
    · rintro after same
      cases same
      exact (hold_counted_iff order inside).mpr fits

/-- The expected packet: with a slot that is taken, or no more to count, it is one off. -/
theorem expected_settled (inside : curIdx < slots) (exp : expIdx < slots) :
    Settled slots (some ptr) pkt (handleExpected ptr curIdx expIdx pkt) ↔ Fits ptr curIdx ∧ expIdx ≤ ptr.maxIdx := by
  have kept := @hold_kept _ slots curIdx ptr pkt inside
  have lengths := kept.length_eq
  rw [List.length_append, List.length_append, order.counts, List.length_singleton] at lengths
  have counts := @hold_counted_iff _ slots curIdx ptr pkt order inside
  have byte := order.byte
  have last := order.maxIdx
  have bytes := order.bytes
  by_cases fits : Fits ptr curIdx
  · have held : InOrder slots { ptr.hold curIdx pkt with curIdx := curIdx, expIdx := expIdx } := by
      refine ⟨order.bytes, order.maxIdx, exp, ?_, Nat.mod_lt _ (by omega), counts.mpr fits⟩
      intro i outside
      change update ptr.p curIdx (some pkt) i = none
      rw [update_of_ne (by omega), order.only i outside]
    have some_ : (ptr.pendPkts + 1) % 256 ≠ 0 := by
      have more := fits.2
      omega
    rw [and_iff_right fits]
    rw [fits.1, Option.toList_none, List.append_nil] at kept
    constructor
    · rintro ⟨handled, done, -⟩
      obtain ⟨got, taken, -⟩ := Option.map_eq_some_iff.mp done
      exact (Took.of held inside taken).ends.resolve_left some_
    · intro slot
      obtain ⟨got, taken, took⟩ := take_ends held inside (.inr slot)
      refine ⟨_, Option.map_eq_some_iff.mpr ⟨got, taken, rfl⟩, ?_, took.told, ?_⟩
      · change (contents slots ptr.p ++ [pkt]).Perm (contents slots got.1.p ++ got.2.pkts ++ (ptr.p curIdx).toList)
        rw [fits.1, Option.toList_none, List.append_nil]
        exact kept.symm.trans took.kept.symm
      · rintro after same
        cases same
        exact took.order.counted
  · refine iff_of_false ?_ fun both => fits both.1
    rintro ⟨handled, done, accounted⟩
    obtain ⟨got, taken, rfl⟩ := Option.map_eq_some_iff.mp done
    have counted : got.1.pendPkts = slotCount slots got.1.p Option.isSome := accounted.counted _ rfl
    have held : Counted slots { ptr.hold curIdx pkt with curIdx := curIdx, expIdx := expIdx } :=
      counted_before last bytes (Nat.mod_lt _ (by omega)) inside taken counted
    exact fits (counts.mp held)

/-- Both indices are new: what is left in the packet's slot is overwritten. -/
theorem bothMoved_settled (inside : curIdx < slots) (flushAll : Bool) :
    Settled slots (some ptr) pkt (handleBothMoved ptr flushAll curIdx expIdx pkt) ↔
      MovesOn ptr (if flushAll then ptr.expIdx else expIdx) curIdx expIdx := by
  unfold handleBothMoved MovesOn
  generalize (if flushAll then ptr.expIdx else expIdx) = endIdx
  dsimp only
  by_cases ends : ptr.pendPkts = 0 ∨ endIdx ≤ ptr.maxIdx
  · obtain ⟨got, taken, took⟩ := take_ends order order.expIdx ends
    rw [taken, Option.map_some, and_iff_right ends]
    by_cases moves : if curIdx = ptr.maxIdx then expIdx = 0 else expIdx = curIdx + 1
    · refine iff_of_true ?_ (.inl moves)
      rw [if_pos moves]
      refine ⟨_, rfl, ?_, ?_, ?_⟩
      · simpa [heldBy, Chain.setNext] using took.kept.symm.append_right [pkt]
      · simp [Chain.setNext, took.told]
      · rintro after same
        cases same
        exact took.order.counted
    · rw [if_neg moves, or_iff_right moves]
      have kept := @hold_kept _ slots curIdx got.1 pkt inside
      have counts := @hold_counted_iff _ slots curIdx got.1 pkt took.order inside
      have same : Settled slots (some ptr) pkt (some ⟨some { got.1.hold curIdx pkt with
          expIdx := expIdx, curIdx := curIdx }, got.2, []⟩) ↔ Fits got.1 curIdx := by
        constructor
        · rintro ⟨handled, done, accounted⟩
          cases done
          have counted := accounted.counted _ rfl
          exact counts.mp counted
        · intro fits
          refine ⟨_, rfl, ?_, took.told, ?_⟩
          · change (contents slots ptr.p ++ [pkt]).Perm (contents slots (got.1.hold curIdx pkt).p ++ got.2.pkts ++ [])
            rw [fits.1, Option.toList_none, List.append_nil] at kept
            rw [List.append_nil]
            calc (contents slots ptr.p ++ [pkt]).Perm (contents slots got.1.p ++ got.2.pkts ++ [pkt]) :=
                  took.kept.symm.append_right _
              _ |>.Perm (contents slots got.1.p ++ [pkt] ++ got.2.pkts) := by
                  rw [List.append_assoc, List.append_assoc]
                  exact List.perm_append_comm.append_left _
              _ |>.Perm (contents slots (got.1.hold curIdx pkt).p ++ got.2.pkts) := kept.symm.append_right _
          · rintro after same
            cases same
            exact counts.mpr fits
      refine same.trans ?_
      have before := took.length
      rw [took.order.counts, order.counts] at before
      have byte := order.byte
      have found : got.2.pkts ≠ [] ↔ ∃ i ∈ scan ptr.maxIdx ptr.expIdx endIdx, ptr.p i ≠ none := by
        rw [took.pkts, ne_eq, List.filterMap_eq_nil_iff]
        push Not
        rfl
      have free : got.1.p curIdx = none ↔ curIdx ∈ scan ptr.maxIdx ptr.expIdx endIdx ∨ ptr.p curIdx = none := by
        rw [took.left]
        unfold cleared
        split
        · rename_i member
          exact iff_of_true rfl (.inl member)
        · rename_i outside
          exact (or_iff_right outside).symm
      unfold Fits
      rw [free, ← found, ← List.length_pos_iff]
      constructor
      · rintro ⟨empty, more⟩
        exact .inr ⟨empty, fun full => by omega⟩
      · rintro (none_ | ⟨empty, more⟩)
        · exact ⟨.inr (order.nothing none_ curIdx), by omega⟩
        · exact ⟨empty, by omega⟩
  · refine iff_of_false ?_ fun both => ends both.1
    rintro ⟨handled, done, -⟩
    obtain ⟨got, taken, -⟩ := Option.map_eq_some_iff.mp done
    exact ends (Took.of order order.expIdx taken).ends

theorem windowMove_settled (flushAll : Bool) :
    Settled slots (some ptr) pkt (handleWindowMove ptr flushAll expIdx pkt) ↔
      (ptr.pendPkts = 0 ∨ (if flushAll then ptr.expIdx else expIdx) ≤ ptr.maxIdx) := by
  constructor
  · rintro ⟨handled, done, -⟩
    obtain ⟨got, taken, -⟩ := Option.map_eq_some_iff.mp done
    exact (Took.of order order.expIdx taken).ends
  · intro ends
    obtain ⟨got, taken, took⟩ := take_ends order order.expIdx ends
    refine ⟨_, Option.map_eq_some_iff.mpr ⟨got, taken, rfl⟩, ?_, ?_, ?_⟩
    · simpa [heldBy, Chain.setNext] using took.kept.symm.append_right [pkt]
    · simp [Chain.setNext, took.told]
    · rintro after same
      cases same
      exact took.order.counted

theorem handleFlow_settled {flags : UInt8} (inside : curIdx < slots) (exp : expIdx < slots) :
    Settled slots (some ptr) pkt (handleFlow ptr flags curIdx expIdx maxIdx pkt) ↔
      FlowKeeps ptr flags curIdx expIdx := by
  unfold handleFlow FlowKeeps
  dsimp only
  split
  · exact newHole_settled order inside
  split
  · split
    · exact fill_settled order inside
    split
    · exact expected_settled order inside exp
    · exact bothMoved_settled order inside _
  · exact windowMove_settled order _

end

theorem inOrder_fresh (maxIdx : UInt8) : InOrder (maxIdx.toNat + 1) (.fresh maxIdx.toNat : ReorderInfo Packet) := by
  have byte := maxIdx.toNat_lt
  refine ⟨by omega, Nat.lt_succ_self _, Nat.succ_pos _, fun _ _ => rfl, Nat.zero_lt_succ _, ?_⟩
  exact (SlotCount.eq_zero_iff.mpr fun _ _ => rfl).symm

theorem fresh_keeps {flags : UInt8} (inside : expIdx ≤ maxIdx) :
    FlowKeeps (.fresh maxIdx : ReorderInfo Packet) flags curIdx expIdx := by
  have fits : Fits (.fresh maxIdx : ReorderInfo Packet) curIdx := ⟨rfl, show 0 ≠ 255 by decide⟩
  unfold FlowKeeps
  dsimp only
  split
  · exact .inl rfl
  split
  · split
    · exact fits
    split
    · exact ⟨fits, inside⟩
    · exact ⟨.inl rfl, .inr (.inl rfl)⟩
  · exact .inl rfl

theorem settled_fresh {result : Option (Handled Packet)} :
    Settled slots none pkt result ↔ Settled slots (some (.fresh maxIdx)) pkt result := by
  have nothing : contents slots (fun _ => none : Nat → Option Packet) = [] :=
    List.filterMap_eq_nil_iff.mpr fun _ _ => rfl
  have same : heldBy slots (some (.fresh maxIdx : ReorderInfo Packet)) = heldBy slots none := nothing
  constructor
  · rintro ⟨handled, done, kept, told, counted⟩
    exact ⟨handled, done, by rwa [same], told, counted⟩
  · rintro ⟨handled, done, kept, told, counted⟩
    exact ⟨handled, done, by rwa [same] at kept, told, counted⟩

end Packet

/-- With all indices inside the slots of a flow in order, no packet is lost, and as many are
pending as are held, exactly if the message has what it needs. -/
theorem nothingLost_iff (slots : Nat) (entry : Option (ReorderInfo Packet)) (buf : List UInt8) (pkt : Packet)
    (allocated : Bool) (order : ∀ ptr, entry = some ptr → InOrder slots ptr)
    (new : entry = none → slots = (buf.getD maxidxOffset 0).toNat + 1)
    (cur : (buf.getD curidxOffset 0).toNat < slots) (exp : (buf.getD expidxOffset 0).toNat < slots) :
    NothingLost slots entry buf pkt allocated ↔ Keeps entry buf allocated := by
  unfold NothingLost processFlow Keeps
  dsimp only
  by_cases invalid : buf.getD flagsOffset 0 = 0xFF
  · rw [if_pos invalid, if_pos invalid]
    refine iff_of_true ⟨_, rfl, ?_, rfl, fun ptr same => (order ptr same).counted⟩ trivial
    rw [List.append_nil]
  rw [if_neg invalid, if_neg invalid]
  cases found : entry with
  | some ptr =>
    dsimp only
    split
    · exact delFlow_settled (order ptr found)
    · exact handleFlow_settled (order ptr found) cur exp
  | none =>
    dsimp only
    split
    · rename_i deletes
      refine iff_of_true ⟨_, rfl, List.Perm.refl _, rfl, fun _ same => absurd same (by simp)⟩ (.inl deletes)
    · rename_i keeps
      have many := new found
      cases room : allocated with
      | true =>
        rw [if_pos rfl]
        refine iff_of_true ?_ (.inr rfl)
        refine settled_fresh.mpr ((handleFlow_settled ?_ cur exp).mpr (fresh_keeps (by omega)))
        rw [many]
        exact inOrder_fresh _
      | false =>
        refine iff_of_false ?_ fun either => either.elim keeps Bool.noConfusion
        rintro ⟨handled, done, accounted⟩
        cases done
        exact Nat.noConfusion accounted.told

section After

variable {slots start stop curIdx expIdx maxIdx : Nat} {ptr after : ReorderInfo Packet} {pkt : Packet}

/-- All but the count. -/
structure Tidy (slots : Nat) (ptr : ReorderInfo Packet) : Prop where
  maxIdx : ptr.maxIdx < slots
  expIdx : ptr.expIdx < slots
  only : ∀ i, slots ≤ i → ptr.p i = none
  byte : ptr.pendPkts < 256

theorem InOrder.tidy (order : InOrder slots ptr) : Tidy slots ptr :=
  ⟨order.maxIdx, order.expIdx, order.only, order.byte⟩

theorem Tidy.hold (tidy : Tidy slots ptr) (inside : curIdx < slots) : Tidy slots (ptr.hold curIdx pkt) := by
  refine ⟨tidy.maxIdx, tidy.expIdx, fun i outside => ?_, Nat.mod_lt _ (by omega)⟩
  change update ptr.p curIdx (some pkt) i = none
  rw [update_of_ne (by omega), tidy.only i outside]

theorem takeSlots_none {last rounds : Nat} {p : Nat → Option Packet} {chain : Chain Packet} {i : Nat}
    (empty : p i = none)
    {taken : (Nat → Option Packet) × Chain Packet} (done : takeSlots last stop rounds p start chain = some taken) :
    taken.1 i = none := by
  induction rounds generalizing p start chain with
  | zero => cases done
  | succ rounds ih =>
    have still : update p start none i = none := by
      by_cases same : i = start
      · rw [same, update_self]
      · rw [update_of_ne same, empty]
    rw [takeSlots_succ] at done
    split at done
    · cases done
      exact still
    · exact ih still done

theorem Tidy.taken (tidy : Tidy slots ptr) {got : ReorderInfo Packet × Chain Packet}
    (taken : dhdGetHostreorderPkts ptr start stop = some got) : Tidy slots got.1 := by
  unfold dhdGetHostreorderPkts at taken
  split at taken
  · cases taken
    exact tidy
  · obtain ⟨pair, done, rfl⟩ := Option.map_eq_some_iff.mp taken
    exact ⟨tidy.maxIdx, tidy.expIdx, fun i outside => takeSlots_none (tidy.only i outside) done,
      Nat.mod_lt _ (by omega)⟩

theorem Tidy.handled {flags : UInt8} {handled : Handled Packet} (tidy : Tidy slots ptr) (cur : curIdx < slots)
    (exp : expIdx < slots) (max_ : maxIdx < slots) (done : handleFlow ptr flags curIdx expIdx maxIdx pkt = some handled)
    (same : handled.ptr = some after) : Tidy slots after := by
  unfold handleFlow at done
  split at done
  · obtain ⟨got, flushed, rfl⟩ := Option.map_eq_some_iff.mp done
    cases same
    have emptied : Tidy slots got.1 := by
      split at flushed
      · obtain ⟨first, taken, rfl⟩ := Option.map_eq_some_iff.mp flushed
        have left := tidy.taken taken
        exact ⟨left.maxIdx, left.expIdx, left.only, Nat.zero_lt_succ _⟩
      · cases flushed
        exact tidy
    have moved : Tidy slots { got.1 with curIdx := curIdx, expIdx := expIdx, maxIdx := maxIdx } :=
      ⟨max_, exp, emptied.only, emptied.byte⟩
    exact moved.hold cur
  split at done
  · split at done
    · cases done
      cases same
      have held := @Tidy.hold _ slots curIdx ptr pkt tidy cur
      exact ⟨held.maxIdx, held.expIdx, held.only, held.byte⟩
    split at done
    · obtain ⟨got, taken, rfl⟩ := Option.map_eq_some_iff.mp done
      cases same
      have held := @Tidy.hold _ slots curIdx ptr pkt tidy cur
      have moved : Tidy slots { ptr.hold curIdx pkt with curIdx := curIdx, expIdx := expIdx } :=
        ⟨held.maxIdx, exp, held.only, held.byte⟩
      exact moved.taken taken
    · obtain ⟨got, taken, rfl⟩ := Option.map_eq_some_iff.mp done
      cases same
      have left := tidy.taken taken
      dsimp only
      by_cases moves : if curIdx = ptr.maxIdx then expIdx = 0 else expIdx = curIdx + 1
      · rw [if_pos moves]
        exact ⟨left.maxIdx, exp, left.only, left.byte⟩
      · rw [if_neg moves]
        have held := @Tidy.hold _ slots curIdx got.1 pkt left cur
        exact ⟨held.maxIdx, exp, held.only, held.byte⟩
  · obtain ⟨got, taken, rfl⟩ := Option.map_eq_some_iff.mp done
    cases same
    have left := tidy.taken taken
    exact ⟨left.maxIdx, exp, left.only, left.byte⟩

end After

section Runs

variable {flows : Flows Packet} {call : ReorderCall Packet}

def AllInOrder (flows : Flows Packet) : Prop :=
  ∀ flow ptr, flows.bufs flow = some ptr → InOrder (flows.slots flow) ptr

/-- All indices of a message are slots of its flow. -/
def Inside (flows : Flows Packet) (call : ReorderCall Packet) : Prop :=
  call.maxIdx < flows.slotsFor call ∧ call.curIdx < flows.slotsFor call ∧ call.expIdx < flows.slotsFor call

instance (flows : Flows Packet) (call : ReorderCall Packet) : Decidable (Inside flows call) :=
  inferInstanceAs (Decidable (_ ∧ _))

def LosesNothing (flows : Flows Packet) (call : ReorderCall Packet) : Prop :=
  NothingLost (flows.slotsFor call) (flows.bufs call.flowId) call.buf call.pkt call.allocated

instance [DecidableEq Packet] (flows : Flows Packet) (call : ReorderCall Packet) :
    Decidable (LosesNothing flows call) :=
  inferInstanceAs (Decidable (Settled _ _ _ _))

instance (flows : Flows Packet) (call : ReorderCall Packet) : Decidable (reorderMachine.admits flows call) :=
  .isTrue trivial

def KeepsAll (flows : Flows Packet) (call : ReorderCall Packet) : Prop :=
  Keeps (flows.bufs call.flowId) call.buf call.allocated

theorem allInOrder_none : AllInOrder (Flows.none : Flows Packet) := fun _ _ same => absurd same (by simp [Flows.none])

theorem inOrder_entry (order : AllInOrder flows) :
    ∀ ptr, flows.bufs call.flowId = some ptr → InOrder (flows.slotsFor call) ptr := by
  intro ptr found
  have here := order call.flowId ptr found
  unfold Flows.slotsFor
  rwa [found, Option.isSome_some, if_pos rfl]

theorem slotsFor_none (none_ : flows.bufs call.flowId = none) : flows.slotsFor call = call.maxIdx + 1 := by
  unfold Flows.slotsFor
  rw [none_]
  rfl

theorem losesNothing_iff (order : AllInOrder flows) (inside : Inside flows call) :
    LosesNothing flows call ↔ KeepsAll flows call :=
  nothingLost_iff (flows.slotsFor call) (flows.bufs call.flowId) call.buf call.pkt call.allocated
    (inOrder_entry order) slotsFor_none inside.2.1 inside.2.2

/-- What a call leaves of its flow is tidy. -/
theorem processFlow_tidy (order : AllInOrder flows) (inside : Inside flows call) {handled : Handled Packet}
    (done : processFlow (flows.bufs call.flowId) call.buf call.pkt call.allocated = some handled)
    {after : ReorderInfo Packet} (same : handled.ptr = some after) : Tidy (flows.slotsFor call) after := by
  obtain ⟨max_, cur, exp⟩ := inside
  unfold processFlow at done
  dsimp only at done
  split at done
  · cases done
    exact (inOrder_entry order after same).tidy
  split at done
  · split at done
    · cases done
      cases same
    · obtain ⟨got, -, rfl⟩ := Option.map_eq_some_iff.mp done
      cases same
  · split at done
    · rename_i ptr found
      exact (inOrder_entry order ptr found).tidy.handled cur exp max_ done same
    · rename_i none_
      split at done
      · have new : Tidy (flows.slotsFor call) (.fresh call.maxIdx : ReorderInfo Packet) := by
          rw [slotsFor_none none_]
          exact (inOrder_fresh _).tidy
        exact new.handled cur exp max_ done same
      · cases done
        cases same

theorem allInOrder_next (order : AllInOrder flows) (inside : Inside flows call) (kept : LosesNothing flows call) :
    AllInOrder (reorderMachine.next flows call) := by
  obtain ⟨handled, done, accounted⟩ := kept
  have bytes : flows.slotsFor call ≤ 256 := by
    unfold Flows.slotsFor
    cases found : flows.bufs call.flowId with
    | some ptr => exact (order call.flowId ptr found).bytes
    | none =>
      have byte := call.bytes.1
      rw [if_neg (by simp)]
      omega
  have stepped : reorderMachine.next flows call =
      ⟨update flows.bufs call.flowId handled.ptr,
        update flows.slots call.flowId (flows.slotsFor call)⟩ := by
    have processed : dhdProcessPktReorderInfo flows.bufs call.buf call.pkt call.allocated =
        some (update flows.bufs call.flowId handled.ptr, handled.chain, handled.freed) :=
      Option.map_eq_some_iff.mpr ⟨handled, done, rfl⟩
    change (flows.process call).1 = _
    unfold Flows.process
    rw [processed]
  rw [stepped]
  intro flow after same
  dsimp only at same ⊢
  by_cases own : flow = call.flowId
  · subst own
    rw [update_self] at same ⊢
    have tidy := processFlow_tidy order inside done same
    exact ⟨bytes, tidy.maxIdx, tidy.expIdx, tidy.only, tidy.byte, accounted.counted after same⟩
  · rw [update_of_ne own] at same ⊢
    exact order flow after same

end Runs

/-- From any flows in order, and for messages whose indices are slots of their flows: no packet is
lost, and as many are pending as are held, all along a run, exactly if every message has what it
needs where it arrives. -/
theorem run_losesNothing_iff (calls : List (ReorderCall Packet)) (flows : Flows Packet) (order : AllInOrder flows)
    (inside : (reorderMachine.restrict Inside).Admitted flows calls) :
    (reorderMachine.restrict LosesNothing).Admitted flows calls ↔
      (reorderMachine.restrict KeepsAll).Admitted flows calls := by
  induction calls generalizing flows with
  | nil => exact Iff.rfl
  | cons call rest ih =>
    obtain ⟨⟨-, here⟩, rest_⟩ := inside
    have same := losesNothing_iff order here
    constructor
    · rintro ⟨⟨free, kept⟩, later⟩
      exact ⟨⟨free, same.mp kept⟩, (ih _ (allInOrder_next order here kept) rest_).mp later⟩
    · rintro ⟨⟨free, keeps⟩, later⟩
      exact ⟨⟨free, same.mpr keeps⟩, (ih _ (allInOrder_next order here (same.mpr keeps)) rest_).mpr later⟩

/-- A packet of slot 1 waits for the one of slot 0, which comes. -/
theorem run_losesNothing_hole :
    (reorderMachine.restrict KeepsAll).Admitted Flows.none [infoOf 0x10 3 1 0, infoOf 0x04 3 0 2] :=
  (run_losesNothing_iff [infoOf 0x10 3 1 0, infoOf 0x04 3 0 2] Flows.none allInOrder_none (by decide +kernel)).mp
    (by decide +kernel)

/-- With a packet waiting in slot 1, another one of slot 1: where the expected slot moves too it is
overwritten, where it stays two are pending. And a packet whose flow gets no memory is gone. -/
theorem reordering_loses :
    ((reorderMachine.restrict Inside).Admitted Flows.none [infoOf 0x10 3 1 0, infoOf 0x04 3 1 1] ∧
      ¬(reorderMachine.restrict LosesNothing).Admitted Flows.none [infoOf 0x10 3 1 0, infoOf 0x04 3 1 1]) ∧
    ((reorderMachine.restrict Inside).Admitted Flows.none [infoOf 0x10 3 1 0, infoOf 0x04 3 1 0] ∧
      ¬(reorderMachine.restrict LosesNothing).Admitted Flows.none [infoOf 0x10 3 1 0, infoOf 0x04 3 1 0]) ∧
    ((reorderMachine.restrict Inside).Admitted Flows.none [{ infoOf 0x04 3 1 0 with allocated := false }] ∧
      ¬(reorderMachine.restrict LosesNothing).Admitted Flows.none [{ infoOf 0x04 3 1 0 with allocated := false }]) := by
  decide +kernel

end BcmDhd.Cdc
