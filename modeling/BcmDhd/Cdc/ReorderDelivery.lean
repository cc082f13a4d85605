import BcmDhd.Cdc.HostReorder
import BcmDhd.Lib.Circular
import BcmDhd.Lib.Slots

namespace BcmDhd.Cdc

open BcmDhd.Lib Function

variable {seq start before : Nat} {flushAll : Bool} {state : Reception}

universe u

section

variable {Packet : Type u}

/-- The slots without what lay in `taken`. -/
def cleared (p : Nat → Option Packet) (taken : List Nat) (i : Nat) : Option Packet :=
  if i ∈ taken then none else p i

def Chain.link (chain : Chain Packet) (pkts : List Packet) : Chain Packet :=
  ⟨chain.pkts ++ pkts, chain.pktCount + pkts.length⟩

@[simp] theorem Chain.link_nil (chain : Chain Packet) : chain.link [] = chain := by
  simp [Chain.link]

theorem slots_succ {size : Nat} (inside : start < size) (count : Nat) :
    slots size start (count + 1) = start :: slots size ((start + 1) % size) count := by
  rw [Nat.add_comm, Circular.slots_add, Circular.slots_one inside, List.singleton_append]

theorem filterMap_update {p : Nat → Option Packet} {i : Nat} {taken : List Nat} (absent : i ∉ taken) :
    taken.filterMap (update p i none) = taken.filterMap p := by
  apply List.filterMap_congr
  intro j member
  have other : j ≠ i := fun same => absent (same ▸ member)
  exact update_of_ne other none p

theorem cleared_cons (p : Nat → Option Packet) (i : Nat) (taken : List Nat) :
    cleared (update p i none) taken = cleared p (i :: taken) := by
  funext j
  unfold cleared
  by_cases same : j = i
  · simp [same]
  · simp [same]

theorem takeSlots_round {maxIdx size : Nat} (bytes : maxIdx + 1 = size) (small : size ≤ 256)
    (inside : start < size) (stop rounds : Nat) (p : Nat → Option Packet) (chain : Chain Packet) :
    takeSlots maxIdx stop (rounds + 1) p start chain =
      if (start + 1) % size = stop then
        some (update p start none, chain.link (p start).toList)
      else takeSlots maxIdx stop rounds (update p start none) ((start + 1) % size)
        (chain.link (p start).toList) := by
  have next : (if maxIdx < (start + 1) % 256 then 0 else (start + 1) % 256) = (start + 1) % size := by
    rcases Nat.lt_or_ge (start + 1) size with before | last
    · rw [Nat.mod_eq_of_lt before, Nat.mod_eq_of_lt (by omega), if_neg (by omega)]
    · have same : start + 1 = size := by omega
      rw [same, Nat.mod_self]
      split
      · rfl
      · omega
  rw [takeSlots, next]
  cases found : p start with
  | none => simp
  | some pkt => rfl

/-- The loop takes what lies in the slots from `start` up to `stop`, all around
where the two are the same. -/
theorem takeSlots_window {maxIdx size rounds count : Nat} (bytes : maxIdx + 1 = size)
    (small : size ≤ 256) (inside : start < size) (fits : count + 1 ≤ size)
    (enough : count + 1 ≤ rounds) (p : Nat → Option Packet) (chain : Chain Packet) :
    takeSlots maxIdx ((start + (count + 1)) % size) rounds p start chain =
      some (cleared p (slots size start (count + 1)),
        chain.link ((slots size start (count + 1)).filterMap p)) := by
  induction count generalizing rounds start p chain with
  | zero =>
    obtain ⟨rest, rfl⟩ := Nat.exists_eq_add_of_le' enough
    rw [takeSlots_round bytes small inside, if_pos rfl, Circular.slots_one inside]
    have emptied : update p start none = cleared p [start] := by
      funext i
      by_cases same : i = start
      · simp [cleared, same]
      · simp [cleared, same]
    rw [emptied]
    cases found : p start with
    | none => simp [found]
    | some pkt => simp [found]
  | succ count ih =>
    obtain ⟨rest, rfl⟩ := Nat.exists_eq_add_of_le' enough
    have positive : 0 < size := by omega
    have apart : (start + 1) % size ≠ (start + (count + 1 + 1)) % size := by
      intro same
      have equal := (Circular.counters_eq_iff (by omega) (by omega)).mp same.symm
      omega
    have stop : (start + (count + 1 + 1)) % size = ((start + 1) % size + (count + 1)) % size := by
      have shifted : start + (count + 1 + 1) = start + 1 + (count + 1) := by omega
      rw [Nat.mod_add_mod, shifted]
    have fresh : start ∉ slots size ((start + 1) % size) (count + 1) := by
      have distinct := Circular.nodup_slots start fits
      rw [slots_succ inside] at distinct
      exact (List.nodup_cons.mp distinct).1
    rw [show rest + (count + 1 + 1) = (rest + (count + 1)) + 1 from rfl, takeSlots_round bytes small inside,
      if_neg apart, stop, ih (Nat.mod_lt _ positive) (by omega) (by omega), filterMap_update fresh,
      cleared_cons, ← slots_succ inside]
    congr 2
    rw [slots_succ inside]
    cases found : p start with
    | none => simp [found]
    | some pkt => simp [found, Chain.link, Nat.add_assoc, Nat.add_comm]

/-- As many packets are pending as there are slots in use. -/
def Counted (size : Nat) (ptr : ReorderInfo Packet) : Prop :=
  ptr.pendPkts = slotCount size ptr.p Option.isSome

theorem getHostreorderPkts_window {ptr : ReorderInfo Packet} {size count : Nat}
    (bytes : ptr.maxIdx + 1 = size) (small : size ≤ 256) (counted : Counted size ptr)
    (below : ptr.pendPkts < 256) (inside : start < size) (fits : count + 1 ≤ size) :
    let taken := slots size start (count + 1)
    ∃ emptied, dhdGetHostreorderPkts ptr start ((start + (count + 1)) % size) =
        some (emptied, Chain.empty.link (taken.filterMap ptr.p)) ∧
      emptied = { ptr with p := cleared ptr.p taken, pendPkts := emptied.pendPkts } ∧
      Counted size emptied := by
  intro taken
  have insideAll : ∀ i ∈ taken, i < size := by
    intro i member
    obtain ⟨j, _, rfl⟩ := List.mem_map.mp member
    exact Nat.mod_lt _ (by omega)
  have left : slotCount size (cleared ptr.p taken) Option.isSome + (taken.filterMap ptr.p).length =
      slotCount size ptr.p Option.isSome :=
    Contents.clear_count (Circular.nodup_slots start fits) insideAll
  unfold dhdGetHostreorderPkts
  by_cases none_ : ptr.pendPkts = 0
  · have empty : ∀ i < size, (ptr.p i).isSome = false :=
      SlotCount.eq_zero_iff.mp (counted.symm.trans none_)
    have nothing : taken.filterMap ptr.p = [] := by
      rw [List.filterMap_eq_nil_iff]
      intro i member
      simpa using empty i (insideAll i member)
    have same : cleared ptr.p taken = ptr.p := by
      funext i
      unfold cleared
      split
      · rename_i member
        have gone := empty i (insideAll i member)
        simp only [Option.isSome_eq_false_iff, Option.isNone_iff_eq_none] at gone
        rw [gone]
      · rfl
    refine ⟨ptr, ?_, ?_, counted⟩
    · rw [if_pos none_, nothing, Chain.link_nil]
    · rw [same]
  · rw [if_neg none_, takeSlots_window bytes small inside fits (by omega)]
    refine ⟨_, rfl, rfl, ?_⟩
    unfold Counted at counted ⊢
    change (ptr.pendPkts + 256 - (0 + (taken.filterMap ptr.p).length) % 256) % 256 =
      slotCount size (cleared ptr.p taken) Option.isSome
    omega

end

/-- Every held packet lies in its slot, and nothing else does. -/
structure Holds (size : Nat) (held : Finset Nat) (p : Nat → Option Carried) : Prop where
  slot : ∀ seq ∈ held, p (seq % size) = some (.data seq)
  only : ∀ i pkt, p i = some pkt → ∃ seq ∈ held, seq % size = i ∧ pkt = .data seq

theorem slots_eq_map (size first count : Nat) :
    slots size (first % size) count = (List.range' first count).map (· % size) := by
  rw [slots, List.range'_eq_map_range, List.map_map]
  apply List.map_congr_left
  intro i _
  exact Nat.mod_add_mod first size i

section

variable {size first count : Nat} {held : Finset Nat} {p : Nat → Option Carried}

section

variable (holds : Holds size held p) (window : ∀ seq ∈ held, first ≤ seq ∧ seq < first + size)
include holds window

theorem Holds.read (after : first ≤ seq)
    (before : seq < first + size) : p (seq % size) = if seq ∈ held then some (.data seq) else none := by
  split
  · rename_i member
    exact holds.slot seq member
  · rename_i absent
    cases found : p (seq % size) with
    | none => rfl
    | some pkt =>
      obtain ⟨other, member, same, -⟩ := holds.only _ pkt found
      have equal : other = seq := Circular.counters_inj (window other member) ⟨after, before⟩ same
      exact absurd (equal ▸ member) absent

theorem Holds.stretch (fits : count ≤ size) :
    (slots size (first % size) count).filterMap p =
      ((List.range' first count).filter (· ∈ held)).map .data := by
  rw [slots_eq_map, List.filterMap_map, ← List.filterMap_eq_map, List.filterMap_filter]
  apply List.filterMap_congr
  intro seq member
  obtain ⟨low, high⟩ := List.mem_range'_1.mp member
  have read := holds.read window low (by omega)
  simpa using read

theorem Holds.cleared (fits : count ≤ size) :
    Holds size (Window.kept held (first + count)) (cleared p (slots size (first % size) count)) := by
  have member_iff : ∀ seq ∈ held, seq % size ∈ slots size (first % size) count ↔ seq < first + count := by
    intro seq member
    obtain ⟨low, high⟩ := window seq member
    rw [slots_eq_map, List.mem_map]
    constructor
    · rintro ⟨other, inside, same⟩
      obtain ⟨lowOther, highOther⟩ := List.mem_range'_1.mp inside
      have equal : other = seq :=
        Circular.counters_inj ⟨lowOther, Nat.lt_of_lt_of_le highOther (by omega)⟩ ⟨low, high⟩ same
      omega
    · intro short
      exact ⟨seq, List.mem_range'_1.mpr ⟨low, short⟩, rfl⟩
  refine ⟨?_, ?_⟩
  · intro seq member
    obtain ⟨inside, later⟩ := Finset.mem_filter.mp member
    have stays : seq % size ∉ slots size (first % size) count := by
      rw [member_iff seq inside]
      omega
    rw [BcmDhd.Cdc.cleared, if_neg stays]
    exact holds.slot seq inside
  · intro i pkt found
    rw [BcmDhd.Cdc.cleared] at found
    split at found
    · cases found
    · rename_i stays
      obtain ⟨seq, member, rfl, kind⟩ := holds.only i pkt found
      refine ⟨seq, Finset.mem_filter.mpr ⟨member, ?_⟩, rfl, kind⟩
      rw [member_iff seq member] at stays
      omega

end

theorem Holds.insert (holds : Holds size held p) (window : ∀ other ∈ held, other % size ≠ seq % size) :
    Holds size (insert seq held) (update p (seq % size) (some (.data seq))) := by
  refine ⟨?_, ?_⟩
  · intro other member
    rcases Finset.mem_insert.mp member with rfl | inside
    · exact update_self _ _ _
    · rw [update_of_ne (window other inside)]
      exact holds.slot other inside
  · intro i pkt found
    by_cases same : i = seq % size
    · subst same
      rw [update_self] at found
      cases found
      exact ⟨seq, Finset.mem_insert_self seq held, rfl, rfl⟩
    · rw [update_of_ne same] at found
      obtain ⟨other, member, place, kind⟩ := holds.only i pkt found
      exact ⟨other, Finset.mem_insert_of_mem member, place, kind⟩

theorem holds_nothing : Holds size ∅ fun _ => none := by
  refine ⟨?_, ?_⟩
  · intro seq member
    exact absurd member (Finset.notMem_empty seq)
  · intro i pkt found
    cases found

end

namespace Window

theorem filter_range'_extend {held : Finset Nat} {first count more : Nat}
    (short : ∀ seq ∈ held, seq < first + count) (longer : count ≤ more) :
    (List.range' first more).filter (· ∈ held) = (List.range' first count).filter (· ∈ held) := by
  obtain ⟨rest, rfl⟩ := Nat.exists_eq_add_of_le longer
  have beyond : (List.range' (first + count) rest).filter (· ∈ held) = [] := by
    rw [List.filter_eq_nil_iff]
    intro seq member
    have low := (List.mem_range'_1.mp member).1
    simp only [decide_eq_true_eq]
    intro inside
    exact absurd (short seq inside) (by omega)
  rw [← List.range'_append_1, List.filter_append, beyond, List.append_nil]

theorem released_all {held : Finset Nat} {exp size : Nat}
    (window : ∀ seq ∈ held, before ≤ seq ∧ seq < before + size) (past : ∀ seq ∈ held, seq < exp) :
    (List.range' before size).filter (· ∈ held) = released held before exp := by
  unfold released
  rcases Nat.le_total size (exp - before) with short | long
  · exact (filter_range'_extend (fun seq member => (window seq member).2) short).symm
  · apply filter_range'_extend _ long
    intro seq member
    have low := (window seq member).1
    have high := past seq member
    omega

theorem kept_eq_empty {held : Finset Nat} {exp : Nat} (past : ∀ seq ∈ held, seq < exp) :
    kept held exp = ∅ := by
  rw [kept, Finset.filter_eq_empty_iff]
  intro seq member
  exact Nat.not_le.mpr (past seq member)

theorem released_last {held : Finset Nat} (after : before ≤ seq) (absent : seq ∉ held) :
    released (insert seq held) before (seq + 1) = released held before (seq + 1) ++ [seq] := by
  have length : seq + 1 - before = seq - before + 1 := by omega
  have last : before + (seq - before) = seq := by omega
  have same : (List.range' before (seq - before)).filter (· ∈ insert seq held) =
      (List.range' before (seq - before)).filter (· ∈ held) := by
    apply List.filter_congr
    intro other member
    have high := (List.mem_range'_1.mp member).2
    have apart : other ≠ seq := by omega
    simp [apart]
  unfold released
  rw [length, List.range'_1_concat, List.filter_append, List.filter_append, last, same]
  simp [absent]

theorem released_insert {held : Finset Nat} {exp : Nat} (later : exp ≤ seq) :
    released (insert seq held) before exp = released held before exp := by
  apply List.filter_congr
  intro other member
  obtain ⟨low, high⟩ := List.mem_range'_1.mp member
  have apart : other ≠ seq := by omega
  simp [apart]

theorem kept_insert_of_lt {held : Finset Nat} {exp : Nat} (before : seq < exp) :
    kept (insert seq held) exp = kept held exp := by
  rw [kept, Finset.filter_insert, if_neg (Nat.not_le.mpr before), kept]

theorem kept_insert_of_le {held : Finset Nat} {exp : Nat} (later : exp ≤ seq) :
    kept (insert seq held) exp = insert seq (kept held exp) := by
  rw [kept, Finset.filter_insert, if_pos later, kept]

theorem kept_ahead {held : Finset Nat} {exp size : Nat}
    (window : ∀ seq ∈ held, before ≤ seq ∧ seq < before + size) (moves : before ≤ exp)
    (absent : exp ∉ held) : ∀ seq ∈ kept held exp, exp < seq ∧ seq < exp + size := by
  intro seq member
  obtain ⟨inside, later⟩ := Finset.mem_filter.mp member
  have other : exp ≠ seq := fun same => absent (same ▸ inside)
  have high := (window seq inside).2
  omega

theorem released_empty (before exp : Nat) : released ∅ before exp = [] := by
  simp [released]

theorem kept_empty (exp : Nat) : kept ∅ exp = ∅ := by
  simp [kept]

end Window

theorem filterMap_seq (seqs : List Nat) : (seqs.map Carried.data).filterMap Carried.seq = seqs := by
  rw [List.filterMap_map]
  exact List.filterMap_some

theorem filterMap_ofOption (carried : Option Nat) :
    [Carried.ofOption carried].filterMap Carried.seq = carried.toList := by
  cases carried with
  | none => rfl
  | some seq => rfl

/-- The chain of `seqs`. -/
def dataChain (seqs : List Nat) : Chain Carried := Chain.empty.link (seqs.map .data)

theorem dataChain_seqs (seqs : List Nat) : (dataChain seqs).pkts.filterMap Carried.seq = seqs :=
  filterMap_seq seqs

theorem dataChain_count (seqs : List Nat) : (dataChain seqs).pktCount = (dataChain seqs).pkts.length := by
  simp [dataChain, Chain.link, Chain.empty]

theorem setNext_seqs (seqs : List Nat) (carried : Option Nat) :
    ((dataChain seqs).setNext (.ofOption carried)).pkts.filterMap Carried.seq =
      seqs ++ carried.toList := by
  rw [Chain.setNext, List.filterMap_append, dataChain_seqs, filterMap_ofOption]

theorem setNext_count (seqs : List Nat) (pkt : Carried) :
    ((dataChain seqs).setNext pkt).pktCount = ((dataChain seqs).setNext pkt).pkts.length := by
  simp [Chain.setNext, dataChain_count]

theorem Holds.count_lt {size exp : Nat} {held : Finset Nat} {p : Nat → Option Carried}
    (holds : Holds size held p) (ahead : ∀ seq ∈ held, exp < seq ∧ seq < exp + size)
    (positive : 0 < size) : slotCount size p Option.isSome < size := by
  have free : p (exp % size) = none := by
    have absent : exp ∉ held := fun member => absurd (ahead _ member).1 (Nat.lt_irrefl _)
    have read := holds.read (fun seq member => ⟨Nat.le_of_lt (ahead seq member).1,
      (ahead seq member).2⟩) (Nat.le_refl exp) (by omega)
    rw [read, if_neg absent]
  have taken := SlotCount.update (Nat.mod_lt exp positive) p (some Carried.control) Option.isSome
  have bound : slotCount size (update p (exp % size) (some Carried.control))
      Option.isSome ≤ size := SlotCount.le_size
  rw [free] at taken
  simp only [Option.isSome_none, Bool.false_eq_true, if_false, Option.isSome_some, if_true] at taken
  omega

/-- The way a stretch of slots from `start` to `stop` is flushed when `exp` is expected
instead of `first`: up to the slot of `exp`, or all around. -/
def Flushes (size first : Nat) (held : Finset Nat) (exp start stop : Nat) : Prop :=
  held = ∅ ∨ start = first % size ∧ first < exp ∧
    (stop = exp % size ∧ exp ≤ first + size ∨ stop = first % size ∧ ∀ seq ∈ held, seq < exp)

theorem flush_window {ptr : ReorderInfo Carried} {held : Finset Nat} {size first exp start stop : Nat}
    (bytes : ptr.maxIdx + 1 = size) (small : size ≤ 256) (holds : Holds size held ptr.p)
    (window : ∀ seq ∈ held, first ≤ seq ∧ seq < first + size) (counted : Counted size ptr)
    (below : ptr.pendPkts < 256) (flushes : Flushes size first held exp start stop) :
    ∃ emptied, dhdGetHostreorderPkts ptr start stop =
        some (emptied, Chain.empty.link ((Window.released held first exp).map .data)) ∧
      emptied = { ptr with p := emptied.p, pendPkts := emptied.pendPkts } ∧
      Holds size (Window.kept held exp) emptied.p ∧ Counted size emptied := by
  have positive : 0 < size := by
    rw [← bytes]
    omega
  rcases flushes with nothing | ⟨rfl, moves, ⟨rfl, near⟩ | ⟨rfl, past⟩⟩
  · have none_ : ptr.pendPkts = 0 := by
      rw [counted, SlotCount.eq_zero_iff]
      intro i _
      cases found : ptr.p i with
      | none => rfl
      | some pkt =>
        obtain ⟨seq, member, -⟩ := holds.only i pkt found
        rw [nothing] at member
        exact absurd member (Finset.notMem_empty seq)
    refine ⟨ptr, ?_, rfl, ?_, counted⟩
    · rw [dhdGetHostreorderPkts, if_pos none_, nothing, Window.released_empty]
      rfl
    · rw [nothing, Window.kept_empty, ← nothing]
      exact holds
  · obtain ⟨count, rfl⟩ := Nat.exists_eq_add_of_lt moves
    have fits : count + 1 ≤ size := by omega
    obtain ⟨emptied, got, same, counted⟩ := getHostreorderPkts_window bytes small counted below
      (Nat.mod_lt first positive) fits
    have until_ : (first % size + (count + 1)) % size = (first + count + 1) % size := by
      rw [Nat.mod_add_mod, Nat.add_assoc]
    have slots_ : emptied.p = cleared ptr.p (slots size (first % size) (count + 1)) := by
      rw [same]
    refine ⟨emptied, ?_, ?_, ?_, counted⟩
    · have length : first + count + 1 - first = count + 1 := by omega
      rw [← until_, got, holds.stretch window fits, Window.released, length]
    · rw [slots_]
      exact same
    · rw [slots_]
      exact holds.cleared window fits
  · obtain ⟨count, full⟩ : ∃ count, count + 1 = size := ⟨size - 1, by omega⟩
    have fits : count + 1 ≤ size := Nat.le_of_eq full
    obtain ⟨emptied, got, same, counted⟩ := getHostreorderPkts_window bytes small counted below
      (Nat.mod_lt first positive) fits
    have around : (first % size + (count + 1)) % size = first % size := by
      rw [full, Nat.add_mod_right, Nat.mod_mod]
    have slots_ : emptied.p = cleared ptr.p (slots size (first % size) (count + 1)) := by
      rw [same]
    refine ⟨emptied, ?_, ?_, ?_, counted⟩
    · have all : (List.range' first (count + 1)).filter (· ∈ held) =
          Window.released held first exp := by
        rw [full]
        exact Window.released_all window past
      rw [around] at got
      rw [got, holds.stretch window fits, all]
    · rw [slots_]
      exact same
    · have gone : Window.kept held (first + (count + 1)) = Window.kept held exp := by
        rw [Window.kept_eq_empty past, Window.kept_eq_empty]
        intro seq member
        have high := (window seq member).2
        omega
      rw [slots_, ← gone]
      exact holds.cleared window fits

/-- The host's entry of a flow, or the one it is going to make, follows the window. -/
structure Mirrors (size : Nat) (window : Window) (ptr : ReorderInfo Carried) : Prop where
  bytes : ptr.maxIdx + 1 = size
  expected : window.told = true → ptr.expIdx = window.exp % size
  untold : window.told = false → window.held = ∅
  ahead : ∀ seq ∈ window.held, window.exp < seq ∧ seq < window.exp + size
  holds : Holds size window.held ptr.p
  counted : Counted size ptr

namespace Mirrors

variable {size exp : Nat} {window : Window} {ptr : ReorderInfo Carried}

section

variable (mirrors : Mirrors size window ptr)
include mirrors

theorem positive : 0 < size := by
  rw [← mirrors.bytes]
  omega

theorem inWindow : ∀ seq ∈ window.held, window.exp ≤ seq ∧ seq < window.exp + size :=
  fun seq member => ⟨Nat.le_of_lt (mirrors.ahead seq member).1, (mirrors.ahead seq member).2⟩

theorem pendPkts_lt : ptr.pendPkts < size := by
  rw [mirrors.counted]
  exact mirrors.holds.count_lt mirrors.ahead mirrors.positive

theorem flush (small : size ≤ 256) {stop : Nat}
    (flushes : Flushes size window.exp window.held exp start stop) :
    ∃ emptied, dhdGetHostreorderPkts ptr start stop =
        some (emptied, dataChain (Window.released window.held window.exp exp)) ∧
      emptied = { ptr with p := emptied.p, pendPkts := emptied.pendPkts } ∧
      Holds size (Window.kept window.held exp) emptied.p ∧ Counted size emptied :=
  flush_window mirrors.bytes small mirrors.holds mirrors.inWindow mirrors.counted
    (Nat.lt_of_lt_of_le mirrors.pendPkts_lt small) flushes

theorem told_of_held (held : window.held ≠ ∅) :
    window.told = true := by
  cases known : window.told with
  | true => rfl
  | false => exact absurd (mirrors.untold known) held

theorem flushes_all (past : ∀ seq ∈ window.held, seq < exp) :
    Flushes size window.exp window.held exp ptr.expIdx ptr.expIdx := by
  by_cases nothing : window.held = ∅
  · exact Or.inl nothing
  · have expected := mirrors.expected (mirrors.told_of_held nothing)
    obtain ⟨seq, member⟩ := Finset.nonempty_iff_ne_empty.mpr nothing
    have low := (mirrors.ahead seq member).1
    have high := past seq member
    exact Or.inr ⟨expected, by omega, Or.inr ⟨expected, past⟩⟩

theorem flushes_flag (moves : window.exp < exp)
    (flag : flushAll = true → ∀ seq ∈ window.held, seq < exp)
    (far : window.exp + size < exp → flushAll = true) :
    Flushes size window.exp window.held exp ptr.expIdx (if flushAll then ptr.expIdx else exp % size):= by
  by_cases nothing : window.held = ∅
  · exact Or.inl nothing
  · have expected := mirrors.expected (mirrors.told_of_held nothing)
    refine Or.inr ⟨expected, moves, ?_⟩
    split
    · rename_i all
      exact Or.inr ⟨expected, flag all⟩
    · rename_i part
      refine Or.inl ⟨rfl, ?_⟩
      by_contra beyond
      exact part (far (by omega))

end

theorem fresh {maxIdx : Nat} (bytes : maxIdx + 1 = size) (nothing : window.held = ∅)
    (told : window.told = true → window.exp % size = 0) : Mirrors size window (.fresh maxIdx) := by
  refine ⟨bytes, ?_, fun _ => nothing, ?_, ?_, ?_⟩
  · intro known
    exact (told known).symm
  · rw [nothing]
    intro seq member
    exact absurd member (Finset.notMem_empty seq)
  · rw [nothing]
    exact holds_nothing
  · exact (SlotCount.eq_zero_iff.mpr fun _ _ => rfl).symm

theorem opened {maxIdx : Nat} (bytes : maxIdx + 1 = size) (exp : Nat) :
    Mirrors size (.opened size exp) (.fresh maxIdx) :=
  fresh bytes rfl fun told => of_decide_eq_true told

theorem direct (mirrors : Mirrors size window ptr) (nothing : window.held = ∅) :
    Mirrors size (window.after size .direct) ptr := by
  refine ⟨mirrors.bytes, fun known => absurd known (by simp [Window.after]), fun _ => nothing, ?_,
    mirrors.holds, mirrors.counted⟩
  change ∀ seq ∈ window.held, _
  rw [nothing]
  intro seq member
  exact absurd member (Finset.notMem_empty seq)

/-- One more packet is put into its slot. -/
theorem hold {held : Finset Nat} {seq : Nat} (bytes : ptr.maxIdx + 1 = size) (small : size ≤ 256)
    (holds : Holds size held ptr.p) (counted : Counted size ptr) (absent : seq ∉ held)
    (ahead : ∀ other ∈ insert seq held, exp < other ∧ other < exp + size) (curIdx : Nat) :
    Mirrors size ⟨exp, insert seq held, true⟩
      { ptr.hold (seq % size) (.data seq) with curIdx := curIdx, expIdx := exp % size } := by
  have positive : 0 < size := by
    rw [← bytes]
    omega
  have own := ahead seq (Finset.mem_insert_self seq held)
  have apart : ∀ other ∈ held, other % size ≠ seq % size := by
    intro other member same
    have range := ahead other (Finset.mem_insert_of_mem member)
    have equal : other = seq := Circular.counters_inj ⟨Nat.le_of_lt range.1, range.2⟩
      ⟨Nat.le_of_lt own.1, own.2⟩ same
    exact absent (equal ▸ member)
  have held_ := holds.insert apart
  have free : ptr.p (seq % size) = none := by
    cases found : ptr.p (seq % size) with
    | none => rfl
    | some pkt =>
      obtain ⟨other, member, same, -⟩ := holds.only _ pkt found
      exact absurd same (apart other member)
  refine ⟨bytes, fun _ => rfl, fun never => absurd never (by simp), ahead, held_, ?_⟩
  have short := held_.count_lt ahead positive
  have more := SlotCount.update (Nat.mod_lt seq positive) ptr.p (some (Carried.data seq)) Option.isSome
  rw [free] at more
  simp only [Option.isSome_none, Bool.false_eq_true, if_false, Option.isSome_some, if_true] at more
  unfold Counted at counted ⊢
  change (ptr.pendPkts + 1) % 256 =
    slotCount size (update ptr.p (seq % size) (some (.data seq))) Option.isSome
  omega

end Mirrors

/-- A handled report leaves the host following the window, has passed up `seqs`
with the right count, and has freed nothing. -/
structure Follows (size maxIdx : Nat) (window : Window) (seqs : List Nat)
    (handled : Handled Carried) : Prop where
  mirrors : Mirrors size window (handled.ptr.getD (.fresh maxIdx))
  seqs : handled.chain.pkts.filterMap Carried.seq = seqs
  count : handled.chain.pktCount = handled.chain.pkts.length
  freed : handled.freed = []

section

variable {size : Nat} {window : Window} {ptr : ReorderInfo Carried} {exp : Nat}

section

variable (mirrors : Mirrors size window ptr) (small : size ≤ 256)
include mirrors small

theorem handleDelFlow_follows (past : ∀ seq ∈ window.held, seq < exp) (carried : Option Nat) :
    ∃ handled, handleDelFlow ptr (.ofOption carried) = some handled ∧
      Follows size ptr.maxIdx (.opened size exp)
        (Window.released window.held window.exp exp ++ carried.toList) handled := by
  obtain ⟨emptied, got, -, -, -⟩ := mirrors.flush small (mirrors.flushes_all past)
  have chain : ∀ seqs : List Nat, (if (dataChain seqs).pkts ≠ [] then
      (dataChain seqs).setNext (.ofOption carried) else ⟨[.ofOption carried], 1⟩) =
        (dataChain seqs).setNext (.ofOption carried) := by
    intro seqs
    cases seqs with
    | nil => rfl
    | cons first rest => rfl
  rw [handleDelFlow, got, Option.map_some, chain]
  exact ⟨_, rfl, Mirrors.opened mirrors.bytes exp, setNext_seqs _ carried, setNext_count _ _, rfl⟩

/-- Where nothing stays behind, the flow is as if it began now. -/
theorem handleNewHole_follows
    (past : ∀ seq ∈ window.held, seq < exp) (after : exp < seq) (before : seq < exp + size) :
    ∃ handled, handleNewHole ptr (seq % size) (exp % size) ptr.maxIdx (.data seq) = some handled ∧
      Follows size ptr.maxIdx ⟨exp, {seq}, true⟩ (Window.released window.held window.exp exp)
        handled := by
  obtain ⟨emptied, got, same, holds, counted⟩ := mirrors.flush small (mirrors.flushes_all past)
  rw [Window.kept_eq_empty past] at holds
  have zero : emptied.pendPkts = 0 := by
    rw [counted, SlotCount.eq_zero_iff]
    intro i _
    cases found : emptied.p i with
    | none => rfl
    | some pkt =>
      obtain ⟨other, member, -⟩ := holds.only i pkt found
      exact absurd member (Finset.notMem_empty other)
  have flushed : (if ptr.pendPkts ≠ 0 then
      (dhdGetHostreorderPkts ptr ptr.expIdx ptr.expIdx).map fun got =>
        ({ got.1 with pendPkts := 0 }, got.2)
      else some (ptr, Chain.empty)) =
        some (emptied, dataChain (Window.released window.held window.exp exp)) := by
    have settled : ({ emptied with pendPkts := 0 } : ReorderInfo Carried) = emptied := by
      rw [← zero]
    split
    · rw [got, Option.map_some, settled]
    · rename_i idle
      rw [← got, dhdGetHostreorderPkts, if_pos (not_not.mp idle)]
  have ahead : ∀ other ∈ insert seq (∅ : Finset Nat), exp < other ∧ other < exp + size := by
    simp [after, before]
  have single := @Mirrors.hold size exp { emptied with maxIdx := ptr.maxIdx } ∅ seq mirrors.bytes small
    holds counted (Finset.notMem_empty seq) ahead (seq % size)
  rw [handleNewHole, flushed]
  exact ⟨_, rfl, single, dataChain_seqs _, dataChain_count _, rfl⟩

theorem handleFill_follows (told : window.told = true) (after : window.exp < seq)
    (before : seq < window.exp + size) (absent : seq ∉ window.held) :
    ∃ handled, handleFill ptr (seq % size) (.data seq) = some handled ∧
      Follows size ptr.maxIdx ⟨window.exp, insert seq window.held, true⟩ [] handled := by
  have ahead : ∀ other ∈ insert seq window.held, window.exp < other ∧ other < window.exp + size := by
    intro other member
    rcases Finset.mem_insert.mp member with rfl | inside
    · exact ⟨after, before⟩
    · exact mirrors.ahead other inside
  have held := Mirrors.hold mirrors.bytes small mirrors.holds mirrors.counted absent ahead (seq % size)
  have free := mirrors.holds.read mirrors.inWindow (Nat.le_of_lt after) before
  rw [if_neg absent] at free
  refine ⟨_, rfl, ?_, rfl, rfl, ?_⟩
  · rw [← mirrors.expected told] at held
    exact held
  · rw [free]
    rfl

theorem handleExpected_follows
    (room : ptr.pendPkts ≠ 255) (moves : window.exp < exp) (near : exp ≤ window.exp + size)
    (absent : exp ∉ insert window.exp window.held) :
    ∃ handled, handleExpected ptr (window.exp % size) (exp % size) (.data window.exp) = some handled ∧
      Follows size ptr.maxIdx ⟨exp, Window.kept (insert window.exp window.held) exp, true⟩
        (Window.released (insert window.exp window.held) window.exp exp) handled := by
  have fresh : window.exp ∉ window.held := fun member =>
    absurd (mirrors.ahead _ member).1 (Nat.lt_irrefl _)
  have positive := mirrors.positive
  have window_ : ∀ seq ∈ insert window.exp window.held,
      window.exp ≤ seq ∧ seq < window.exp + size := by
    intro seq member
    rcases Finset.mem_insert.mp member with rfl | inside
    · omega
    · exact mirrors.inWindow seq inside
  have apart : ∀ other ∈ window.held, other % size ≠ window.exp % size := by
    intro other member same
    have equal := Circular.counters_inj (mirrors.inWindow other member)
      (window_ _ (Finset.mem_insert_self _ _)) same
    exact fresh (equal ▸ member)
  have free := mirrors.holds.read mirrors.inWindow (Nat.le_refl window.exp) (by omega)
  rw [if_neg fresh] at free
  have pending := mirrors.pendPkts_lt
  have more := SlotCount.update (Nat.mod_lt window.exp positive) ptr.p
    (some (Carried.data window.exp)) Option.isSome
  rw [free] at more
  simp only [Option.isSome_none, Bool.false_eq_true, if_false, Option.isSome_some, if_true] at more
  have counted := mirrors.counted
  unfold Counted at counted
  have flushes : Flushes size window.exp (insert window.exp window.held) exp (window.exp % size)
      (exp % size) := Or.inr ⟨rfl, moves, Or.inl ⟨rfl, near⟩⟩
  obtain ⟨emptied, got, same, holds, left⟩ := @flush_window
    { ptr.hold (window.exp % size) (.data window.exp) with
      curIdx := window.exp % size, expIdx := exp % size }
    (insert window.exp window.held) size window.exp exp _ _ mirrors.bytes small
    (mirrors.holds.insert apart) window_ (by
      change (ptr.pendPkts + 1) % 256 = slotCount size
        (update ptr.p (window.exp % size) (some (.data window.exp))) Option.isSome
      omega) (Nat.mod_lt _ (by omega)) flushes
  rw [handleExpected, got]
  refine ⟨_, rfl, ⟨?_, ?_, fun never => absurd never (by simp), ?_, holds, left⟩, dataChain_seqs _,
    dataChain_count _, ?_⟩
  · change emptied.maxIdx + 1 = size
    rw [same]
    exact mirrors.bytes
  · intro _
    change emptied.expIdx = exp % size
    rw [same]
  · exact Window.kept_ahead window_ (Nat.le_of_lt moves) absent
  · rw [free]
    rfl

end

theorem next_slot {maxIdx exp : Nat} (bytes : maxIdx + 1 = size) :
    (if seq % size = maxIdx then exp % size = 0 else exp % size = seq % size + 1) ↔
      exp % size = (seq + 1) % size := by
  have below : seq % size < size := Nat.mod_lt seq (by omega)
  have next : (seq + 1) % size = (seq % size + 1) % size := (Nat.mod_add_mod seq size 1).symm
  rw [next]
  split
  · rename_i last
    rw [last, bytes, Nat.mod_self]
  · have inner : (seq % size + 1) % size = seq % size + 1 := Nat.mod_eq_of_lt (by omega)
    rw [inner]

/-- The packet comes last of what the move lets go, or stays as a later one that
is not in the last slot of the window. -/
theorem handleBothMoved_follows (mirrors : Mirrors size window ptr) (small : size ≤ 256)
    (moves : window.exp < exp) (absent : seq ∉ window.held) (missing : exp ∉ insert seq window.held)
    (flag : flushAll = true → ∀ other ∈ window.held, other < exp)
    (far : window.exp + size < exp → flushAll = true) (after : window.exp ≤ seq)
    (place : exp ≤ seq ∧ seq + 1 < exp + size ∨ exp = seq + 1) :
    ∃ handled, handleBothMoved ptr flushAll (seq % size) (exp % size) (.data seq) = some handled ∧
      Follows size ptr.maxIdx ⟨exp, Window.kept (insert seq window.held) exp, true⟩
        (Window.released (insert seq window.held) window.exp exp) handled := by
  obtain ⟨emptied, got, same, holds, left⟩ := mirrors.flush small
    (mirrors.flushes_flag moves flag far)
  have bytes : emptied.maxIdx + 1 = size := by
    rw [same]
    exact mirrors.bytes
  have gone : exp ∉ window.held := fun member => missing (Finset.mem_insert_of_mem member)
  have ahead := Window.kept_ahead mirrors.inWindow (Nat.le_of_lt moves) gone
  rw [handleBothMoved, got]
  dsimp only [Option.map_some]
  rcases place with ⟨later, short⟩ | rfl
  · have other : exp ≠ seq := by
      rintro rfl
      exact missing (Finset.mem_insert_self exp window.held)
    have stays : ¬ (if seq % size = ptr.maxIdx then exp % size = 0 else exp % size = seq % size + 1) := by
      rw [next_slot mirrors.bytes]
      intro wraps
      have inside : exp ≤ exp ∧ exp < exp + size := ⟨Nat.le_refl exp, by omega⟩
      have equal := Circular.counters_inj inside ⟨by omega, short⟩ wraps
      omega
    have fresh : seq ∉ Window.kept window.held exp := fun member =>
      absent (Finset.mem_filter.mp member).1
    have beyond : ∀ next ∈ insert seq (Window.kept window.held exp), exp < next ∧ next < exp + size := by
      intro next member
      rcases Finset.mem_insert.mp member with rfl | inside
      · omega
      · exact ahead next inside
    have held := Mirrors.hold bytes small holds left fresh beyond (seq % size)
    rw [if_neg stays, Window.released_insert later, Window.kept_insert_of_le later]
    exact ⟨_, rfl, held, dataChain_seqs _, dataChain_count _, rfl⟩
  · have goes : (if seq % size = ptr.maxIdx then (seq + 1) % size = 0
        else (seq + 1) % size = seq % size + 1) := (next_slot mirrors.bytes).mpr rfl
    rw [if_pos goes, Window.released_last after absent, Window.kept_insert_of_lt (Nat.lt_succ_self seq)]
    exact ⟨_, rfl, ⟨bytes, fun _ => rfl, fun never => absurd never (by simp), ahead, holds, left⟩,
      setNext_seqs _ (some seq), setNext_count _ _, rfl⟩

theorem handleWindowMove_follows (mirrors : Mirrors size window ptr) (small : size ≤ 256)
    (moves : window.exp < exp) (absent : exp ∉ window.held)
    (flag : flushAll = true → ∀ seq ∈ window.held, seq < exp)
    (far : window.exp + size < exp → flushAll = true) (carried : Option Nat) :
    ∃ handled, handleWindowMove ptr flushAll (exp % size) (.ofOption carried) = some handled ∧
      Follows size ptr.maxIdx ⟨exp, Window.kept window.held exp, true⟩
        (Window.released window.held window.exp exp ++ carried.toList) handled := by
  obtain ⟨emptied, got, same, holds, left⟩ := mirrors.flush small
    (mirrors.flushes_flag moves flag far)
  rw [handleWindowMove, got]
  refine ⟨_, rfl, ⟨?_, fun _ => rfl, fun never => absurd never (by simp), ?_, holds, left⟩,
    setNext_seqs _ carried, setNext_count _ _, rfl⟩
  · change emptied.maxIdx + 1 = size
    rw [same]
    exact mirrors.bytes
  · exact Window.kept_ahead mirrors.inWindow (Nat.le_of_lt moves) absent

end

namespace Window

theorem mem_released {held : Finset Nat} {exp : Nat} :
    seq ∈ released held before exp ↔ (before ≤ seq ∧ seq < exp) ∧ seq ∈ held := by
  rw [released, List.mem_filter, List.mem_range'_1, decide_eq_true_iff]
  apply and_congr_left'
  omega

theorem released_ordered (held : Finset Nat) (before exp : Nat) :
    (released held before exp).Pairwise (· < ·) :=
  List.Pairwise.filter _ List.pairwise_lt_range'

/-- A report lets packets go in order, from the expected number on, and loses none. -/
structure LetsGo (size : Nat) (window : Window) (report : Report) : Prop where
  order : (window.sends report).Pairwise (· < ·)
  range : ∀ seq ∈ window.sends report, window.exp ≤ seq ∧ seq < (window.after size report).exp
  grows : window.exp ≤ (window.after size report).exp
  kept : ∀ seq, seq ∈ window.held ∨ seq ∈ report.received window →
    seq ∈ window.sends report ∨ seq ∈ (window.after size report).held

theorem released_carried {window : Window} {exp : Nat} {carried : Option Nat}
    (carries : Carries window exp carried) :
    (released window.held window.exp exp ++ carried.toList).Pairwise (· < ·) ∧
      ∀ seq ∈ released window.held window.exp exp ++ carried.toList, window.exp ≤ seq ∧ seq < exp := by
  refine ⟨?_, ?_⟩
  · rw [List.pairwise_append]
    refine ⟨released_ordered _ _ _, ?_, ?_⟩
    · cases carried with
      | none => exact List.Pairwise.nil
      | some seq => exact List.pairwise_singleton _ _
    · intro seq member last carried_
      obtain ⟨⟨_, high⟩, inside⟩ := mem_released.mp member
      exact (carries last carried_).2.2 seq inside high
  · intro seq member
    rcases List.mem_append.mp member with member | member
    · exact (mem_released.mp member).1
    · exact ⟨(carries seq member).1, (carries seq member).2.1⟩

theorem reports_letsGo {size : Nat} {window : Window} {report : Report}
    (ahead : ∀ seq ∈ window.held, window.exp < seq ∧ seq < window.exp + size)
    (reports : window.Reports size report) : LetsGo size window report := by
  cases report with
  | direct =>
    refine ⟨List.pairwise_singleton _ _, ?_, Nat.le_succ _, ?_⟩
    · intro seq member
      rw [List.mem_singleton.mp member]
      exact ⟨Nat.le_refl _, Nat.lt_succ_self _⟩
    · rintro seq (held | arrived)
      · exact Or.inr held
      · exact Or.inl arrived
  | hole exp seq flags =>
    obtain ⟨grows, past, _⟩ := reports
    refine ⟨released_ordered _ _ _, fun other member => (mem_released.mp member).1, grows, ?_⟩
    rintro other (held | arrived)
    · exact Or.inl (mem_released.mpr ⟨⟨Nat.le_of_lt (ahead other held).1, past other held⟩, held⟩)
    · exact Or.inr (Finset.mem_singleton.mpr (List.mem_singleton.mp arrived))
  | arrival base exp seq flags =>
    obtain ⟨_, first, after, _, _, grows, _⟩ := reports
    refine ⟨released_ordered _ _ _, fun other member => (mem_released.mp member).1,
      Nat.le_trans first grows, ?_⟩
    intro other cause
    have inside : other ∈ insert seq window.held ∧ window.exp ≤ other := by
      rcases cause with held | arrived
      · exact ⟨Finset.mem_insert_of_mem held, Nat.le_of_lt (ahead other held).1⟩
      · rw [List.mem_singleton.mp arrived]
        exact ⟨Finset.mem_insert_self _ _, Nat.le_trans first after⟩
    rcases Nat.lt_or_ge other exp with low | high
    · exact Or.inl (mem_released.mpr ⟨⟨inside.2, low⟩, inside.1⟩)
    · exact Or.inr (Finset.mem_filter.mpr ⟨inside.1, high⟩)
  | move base exp carried flags =>
    obtain ⟨first, grows, _, _, carries, _⟩ := reports
    obtain ⟨order, range⟩ := released_carried carries
    refine ⟨order, range, Nat.le_trans (Nat.le_of_lt first) grows, ?_⟩
    rintro other (held | arrived)
    · rcases Nat.lt_or_ge other exp with low | high
      · exact Or.inl (List.mem_append_left _ (mem_released.mpr
          ⟨⟨Nat.le_of_lt (ahead other held).1, low⟩, held⟩))
      · exact Or.inr (Finset.mem_filter.mpr ⟨held, high⟩)
    · exact Or.inl (List.mem_append_right _ arrived)
  | delete exp carried flags =>
    obtain ⟨grows, past, carries, _⟩ := reports
    obtain ⟨order, range⟩ := released_carried carries
    refine ⟨order, range, grows, ?_⟩
    rintro other (held | arrived)
    · exact Or.inl (List.mem_append_left _ (mem_released.mpr
        ⟨⟨Nat.le_of_lt (ahead other held).1, past other held⟩, held⟩))
    · exact Or.inl (List.mem_append_right _ arrived)

end Window

/-- The report tells the host unambiguously how the window moved: a new flow gets
its memory; the byte that counts the pending packets does not wrap; and where a
packet comes with a window that slid, neither its slot nor the newly expected one is
the slot that the host expects, and it is the last one let go or stays in another
than the window's last slot. -/
def Unambiguous (size : Nat) (window : Window) (entry : Option (ReorderInfo Carried))
    (allocated : Bool) : Report → Prop
  | .direct => True
  | .hole _ _ _ => entry.isSome ∨ allocated = true
  | .arrival _ exp seq _ => (entry.isSome ∨ allocated = true) ∧
      (seq = window.exp → (entry.map ReorderInfo.pendPkts).getD 0 ≠ 255) ∧
      (seq ≠ window.exp → exp ≠ window.exp → seq % size ≠ window.exp % size ∧
        exp % size ≠ window.exp % size ∧ (exp ≤ seq ∧ seq + 1 ≠ exp + size ∨ exp = seq + 1))
  | .move _ _ _ _ => entry.isSome ∨ allocated = true
  | .delete _ _ _ => True

instance (size : Nat) (window : Window) (entry : Option (ReorderInfo Carried)) (allocated : Bool) :
    (report : Report) → Decidable (Unambiguous size window entry allocated report)
  | .direct => .isTrue trivial
  | .hole _ _ _ => inferInstanceAs (Decidable (_ ∨ _))
  | .arrival _ _ _ _ => inferInstanceAs (Decidable (_ ∧ _))
  | .move _ _ _ _ => inferInstanceAs (Decidable (_ ∨ _))
  | .delete _ _ _ => .isTrue trivial

section

variable {size : Nat} {window : Window} {entry : Option (ReorderInfo Carried)} {allocated : Bool}
variable {flow maxIdx flags : UInt8} {pkt : Carried} {curIdx expIdx : Nat}

theorem processFlow_reorderInfo (valid : flags ≠ 0xFF) (current : curIdx < 256)
    (expected : expIdx < 256) :
    processFlow entry (reorderInfo flow maxIdx flags curIdx expIdx) pkt allocated =
      if hasFlag flags reorderdataDelFlow then
        match entry with
        | none => some ⟨none, ⟨[pkt], 1⟩, []⟩
        | some ptr => handleDelFlow ptr pkt
      else match entry with
        | some ptr => handleFlow ptr flags curIdx expIdx maxIdx.toNat pkt
        | none => if allocated then handleFlow (.fresh maxIdx.toNat) flags curIdx expIdx maxIdx.toNat pkt
          else some ⟨none, ⟨[], 1⟩, []⟩ := by
  have flags_ : (reorderInfo flow maxIdx flags curIdx expIdx).getD flagsOffset 0 = flags := rfl
  have maxIdx_ : (reorderInfo flow maxIdx flags curIdx expIdx).getD maxidxOffset 0 = maxIdx := rfl
  have curIdx_ : ((reorderInfo flow maxIdx flags curIdx expIdx).getD curidxOffset 0).toNat = curIdx :=
    UInt8.toNat_ofNat_of_lt' current
  have expIdx_ : ((reorderInfo flow maxIdx flags curIdx expIdx).getD expidxOffset 0).toNat = expIdx :=
    UInt8.toNat_ofNat_of_lt' expected
  unfold processFlow
  dsimp only
  rw [flags_, maxIdx_, curIdx_, expIdx_, if_neg valid]
  cases entry with
  | none => rfl
  | some ptr => rfl

theorem processFlow_entry (valid : flags ≠ 0xFF) (current : curIdx < 256) (expected : expIdx < 256)
    (goesOn : hasFlag flags reorderdataDelFlow = false) (memory : entry.isSome ∨ allocated = true) :
    processFlow entry (reorderInfo flow maxIdx flags curIdx expIdx) pkt allocated =
      handleFlow (entry.getD (.fresh maxIdx.toNat)) flags curIdx expIdx maxIdx.toNat pkt := by
  rw [processFlow_reorderInfo valid current expected, goesOn]
  cases entry with
  | some ptr => rfl
  | none =>
    have allocated_ : allocated = true := by simpa using memory
    rw [allocated_]
    rfl

/-- A packet in the window, or with one that slides. -/
theorem arrival_follows {ptr : ReorderInfo Carried} {base exp : Nat}
    (mirrors : Mirrors size window ptr) (small : size ≤ 256)
    (reports : window.Reports size (.arrival base exp seq flags))
    (room : seq = window.exp → ptr.pendPkts ≠ 255)
    (slid : seq ≠ window.exp → exp ≠ window.exp → seq % size ≠ window.exp % size ∧
      exp % size ≠ window.exp % size ∧ (exp ≤ seq ∧ seq + 1 ≠ exp + size ∨ exp = seq + 1)) :
    ∃ handled, handleFlow ptr flags (seq % size) (exp % size) ptr.maxIdx (.data seq) = some handled ∧
      Follows size ptr.maxIdx (window.after size (.arrival base exp seq flags))
        (window.sends (.arrival base exp seq flags)) handled := by
  obtain ⟨told, first, after, before, absent, grows, between, missing, flag, _, noHole, valid, _⟩ :=
    reports
  have expected := mirrors.expected told
  unfold handleFlow
  rw [noHole, valid, if_neg (by simp), if_pos rfl]
  change ∃ handled, _ ∧ Follows size ptr.maxIdx
    ⟨exp, Window.kept (insert seq window.held) exp, true⟩
    (Window.released (insert seq window.held) window.exp exp) handled
  have start : window.exp ∉ window.held := fun member =>
    absurd (mirrors.ahead _ member).1 (Nat.lt_irrefl _)
  by_cases next : seq = window.exp
  · subst next
    have moves : window.exp < exp := by
      rcases Nat.lt_or_ge window.exp exp with less | atMost
      · exact less
      · have same : exp = window.exp := by omega
        exact absurd (same ▸ Finset.mem_insert_self window.exp window.held) missing
    have near : exp ≤ window.exp + size := by
      have last := between (exp - 1) (Finset.mem_Ico.mpr ⟨by omega, by omega⟩)
      rcases Finset.mem_insert.mp last with same | inside
      · have positive := mirrors.positive
        omega
      · have high := (mirrors.ahead _ inside).2
        omega
    have other : ¬ (exp % size = ptr.expIdx ∧ window.exp % size ≠ ptr.expIdx) :=
      fun both => both.2 expected.symm
    rw [if_neg other, if_pos expected]
    exact handleExpected_follows mirrors small (room rfl) moves near missing
  · by_cases stays : exp = window.exp
    · have same : base = window.exp := by omega
      rw [same] at after before
      have later : window.exp < seq := by omega
      have here : exp % size = ptr.expIdx ∧ seq % size ≠ ptr.expIdx := by
        rw [stays, expected]
        refine ⟨rfl, fun wraps => next ?_⟩
        exact Circular.counters_inj ⟨after, before⟩ ⟨Nat.le_refl _, by omega⟩ wraps
      have all : Window.kept (insert seq window.held) exp = insert seq window.held := by
        rw [stays, Window.kept, Finset.filter_eq_self]
        intro other member
        rcases Finset.mem_insert.mp member with rfl | inside
        · exact after
        · exact Nat.le_of_lt (mirrors.ahead other inside).1
      have nothing : Window.released (insert seq window.held) window.exp exp = [] := by
        rw [stays, Window.released, Nat.sub_self]
        rfl
      rw [if_pos here, all, nothing, stays]
      exact handleFill_follows mirrors small told later before absent
    · obtain ⟨slot, expSlot, place⟩ := slid next stays
      have moves : window.exp < exp := by omega
      have noFill : ¬ (exp % size = ptr.expIdx ∧ seq % size ≠ ptr.expIdx) :=
        fun both => expSlot (both.1.trans expected)
      have noMatch : ptr.expIdx ≠ seq % size := fun same => slot (same.symm.trans expected)
      rw [if_neg noFill, if_neg noMatch]
      have place_ : exp ≤ seq ∧ seq + 1 < exp + size ∨ exp = seq + 1 := by omega
      exact handleBothMoved_follows mirrors small moves absent missing flag.1 flag.2 (by omega) place_

/-- What the host makes of a report. -/
theorem processFlow_follows (bytes : maxIdx.toNat + 1 = size) {report : Report}
    (mirrors : Mirrors size window (entry.getD (.fresh maxIdx.toNat)))
    (reports : window.Reports size report) (unambiguous : Unambiguous size window entry allocated report)
    (indicated : report.indicated size = some (pkt, flags, curIdx, expIdx)) :
    ∃ handled, processFlow entry (reorderInfo flow maxIdx flags curIdx expIdx) pkt allocated =
        some handled ∧
      Follows size maxIdx.toNat (window.after size report) (window.sends report) handled := by
  have small : size ≤ 256 := by
    have byte := maxIdx.toNat_lt
    omega
  obtain ⟨ptr, found⟩ : ∃ ptr, entry.getD (.fresh maxIdx.toNat) = ptr := ⟨_, rfl⟩
  rw [found] at mirrors
  have last : ptr.maxIdx = maxIdx.toNat := by
    have known := mirrors.bytes
    omega
  have inByte : ∀ n : Nat, n % size < 256 := fun n =>
    Nat.lt_of_lt_of_le (Nat.mod_lt n (by omega)) small
  cases report with
  | direct => cases indicated
  | hole exp seq flags =>
    obtain ⟨grows, past, after, before, goesOn, hole, valid⟩ := reports
    cases indicated
    rw [processFlow_entry valid (inByte seq) (inByte exp) goesOn unambiguous, found, handleFlow,
      if_pos hole, ← last]
    exact handleNewHole_follows mirrors small past after before
  | arrival base exp seq flags =>
    have flags_ := reports.2.2.2.2.2.2.2.2.2
    obtain ⟨memory, room, slid⟩ := unambiguous
    cases indicated
    rw [processFlow_entry flags_.2.2.2 (inByte seq) (inByte exp) flags_.1 memory, found, ← last]
    refine arrival_follows mirrors small reports ?_ slid
    intro next
    have few := room next
    cases entry with
    | none =>
      rw [← found]
      exact Nat.zero_ne_add_one 254
    | some ptr =>
      rw [← found]
      exact few
  | move base exp carried flags =>
    obtain ⟨first, grows, _, missing, _, flag, goesOn, noHole, noPacket, valid⟩ := reports
    cases indicated
    rw [processFlow_entry valid (by omega) (inByte exp) goesOn unambiguous, found, handleFlow, noHole,
      noPacket, if_neg (by simp), if_neg (by simp), ← last]
    exact handleWindowMove_follows mirrors small (by omega) missing flag.1 flag.2 carried
  | delete exp carried flags =>
    obtain ⟨grows, past, carries, ends, valid⟩ := reports
    cases indicated
    rw [processFlow_reorderInfo valid (by omega) (inByte exp), if_pos ends]
    cases entry with
    | some other =>
      obtain rfl : other = ptr := found
      rw [← last]
      exact handleDelFlow_follows mirrors small past carried
    | none =>
      have nothing : window.held = ∅ := by
        by_contra held
        obtain ⟨seq, member⟩ := Finset.nonempty_iff_ne_empty.mpr held
        have slot := mirrors.holds.slot seq member
        rw [← found] at slot
        cases slot
      refine ⟨_, rfl, Mirrors.opened bytes exp, ?_, rfl, rfl⟩
      change [Carried.ofOption carried].filterMap Carried.seq =
        Window.released window.held window.exp exp ++ carried.toList
      rw [nothing, Window.released_empty, filterMap_ofOption, List.nil_append]

end

/-- What holds of a flow in the whole of host and firmware. -/
structure InStep (size maxIdx : Nat) (state : Reception) (flow : Nat) : Prop where
  mirrors : Mirrors size (state.windows flow) ((state.reorderBufs flow).getD (.fresh maxIdx))
  order : (delivered state flow).Pairwise (· < ·)
  below : ∀ seq ∈ delivered state flow, seq < (state.windows flow).exp
  kept : ∀ seq ∈ state.received flow, seq ∈ delivered state flow ∨ seq ∈ (state.windows flow).held
  counts : ∀ chain ∈ state.upward flow, chain.pktCount = chain.pkts.length

/-- Everything goes up in order and at most once, what has not gone up lies in its
slot, and the numbers told are right. -/
structure DeliversInOrder (size : Nat) (state : Reception) (flow : Nat) : Prop where
  order : (delivered state flow).Pairwise (· < ·)
  kept : ∀ seq ∈ state.received flow, seq ∈ delivered state flow ∨
    ∃ ptr, state.reorderBufs flow = some ptr ∧ ptr.p (seq % size) = some (.data seq)
  counts : ∀ chain ∈ state.upward flow, chain.pktCount = chain.pkts.length
  pending : ∀ ptr, state.reorderBufs flow = some ptr →
    ptr.pendPkts = slotCount size ptr.p Option.isSome

theorem InStep.deliversInOrder {size maxIdx flow : Nat}
    (inStep : InStep size maxIdx state flow) : DeliversInOrder size state flow := by
  have mirrors := inStep.mirrors
  refine ⟨inStep.order, ?_, inStep.counts, ?_⟩
  · intro seq member
    rcases inStep.kept seq member with up | held
    · exact Or.inl up
    · have slot := mirrors.holds.slot seq held
      cases found : state.reorderBufs flow with
      | none =>
        rw [found] at slot
        cases slot
      | some ptr =>
        rw [found] at slot
        exact Or.inr ⟨ptr, rfl, slot⟩
  · intro ptr found
    rw [found] at mirrors
    exact mirrors.counted

/-- The report is unambiguous for the flow it is about. -/
def Told (maxIdx : UInt8) (state : Reception) (indication : Indication) : Prop :=
  Unambiguous (windowSize maxIdx) (state.windows indication.flow.toNat)
    (state.reorderBufs indication.flow.toNat) indication.allocated indication.report

instance (maxIdx : UInt8) (state : Reception) (indication : Indication) :
    Decidable ((reception maxIdx).admits state indication) :=
  inferInstanceAs (Decidable (Window.Reports _ _ _))

instance (maxIdx : UInt8) (state : Reception) (indication : Indication) :
    Decidable (Told maxIdx state indication) :=
  inferInstanceAs (Decidable (Unambiguous _ _ _ _ _))

/-- All flows together. -/
structure AllInStep (maxIdx : UInt8) (state : Reception) : Prop where
  flows : ∀ flow, InStep (windowSize maxIdx) maxIdx.toNat state flow
  freed : state.freed = []
  hung : state.hung = false

/-- The host's answer to a report, for the flow's entry alone. -/
theorem hostStep_follows {maxIdx : UInt8} {bufs : ReorderBufs Carried} {window : Window}
    {indication : Indication}
    (mirrors : Mirrors (windowSize maxIdx) window
      ((bufs indication.flow.toNat).getD (.fresh maxIdx.toNat)))
    (reports : window.Reports (windowSize maxIdx) indication.report)
    (unambiguous : Unambiguous (windowSize maxIdx) window (bufs indication.flow.toNat)
      indication.allocated indication.report) :
    ∃ entry chain, hostStep maxIdx bufs window indication =
        some (update bufs indication.flow.toNat entry, chain, []) ∧
      Mirrors (windowSize maxIdx) (window.after (windowSize maxIdx) indication.report)
        (entry.getD (.fresh maxIdx.toNat)) ∧
      chain.pkts.filterMap Carried.seq = window.sends indication.report ∧
      chain.pktCount = chain.pkts.length := by
  unfold hostStep
  cases indicated : indication.report.indicated (windowSize maxIdx) with
  | none =>
    cases kind : indication.report with
    | direct =>
      rw [kind] at reports
      refine ⟨bufs indication.flow.toNat, ⟨[.data window.exp], 1⟩, ?_, ?_, rfl, rfl⟩
      · rw [update_eq_self]
      · exact mirrors.direct reports
    | hole exp seq flags =>
      rw [kind] at indicated
      cases indicated
    | arrival base exp seq flags =>
      rw [kind] at indicated
      cases indicated
    | move base exp carried flags =>
      rw [kind] at indicated
      cases indicated
    | delete exp carried flags =>
      rw [kind] at indicated
      cases indicated
  | some told =>
    obtain ⟨pkt, flags, curIdx, expIdx⟩ := told
    have handled_ := @processFlow_follows (windowSize maxIdx) window (bufs indication.flow.toNat)
      indication.allocated indication.flow maxIdx flags pkt curIdx expIdx rfl indication.report mirrors
      reports unambiguous indicated
    obtain ⟨handled, at_, follows⟩ := handled_
    refine ⟨handled.ptr, handled.chain, ?_, follows.mirrors, follows.seqs, follows.count⟩
    have flow_ : ((reorderInfo indication.flow maxIdx flags curIdx expIdx).getD flowidOffset 0) =
      indication.flow := rfl
    change dhdProcessPktReorderInfo bufs (reorderInfo indication.flow maxIdx flags curIdx expIdx) pkt
      indication.allocated = _
    unfold dhdProcessPktReorderInfo
    dsimp only
    rw [flow_, at_, Option.map_some, follows.freed]

theorem receptionStep_eq {maxIdx : UInt8} {indication : Indication}
    {bufs : ReorderBufs Carried} {chain : Chain Carried}
    (answer : hostStep maxIdx state.reorderBufs (state.windows indication.flow.toNat) indication =
      some (bufs, chain, [])) :
    receptionStep maxIdx state indication =
      let flow := indication.flow.toNat
      { state with
        reorderBufs := bufs
        windows := update state.windows flow
          ((state.windows flow).after (windowSize maxIdx) indication.report)
        received := update state.received flow
          (state.received flow ++ indication.report.received (state.windows flow))
        upward := update state.upward flow (state.upward flow ++ [chain]) } := by
  unfold receptionStep
  dsimp only
  rw [answer]
  simp only [List.append_nil]

theorem delivered_update (state : Reception) (flow : Nat) (chain : Chain Carried) :
    ((state.upward flow ++ [chain]).flatMap Chain.pkts).filterMap Carried.seq =
      delivered state flow ++ chain.pkts.filterMap Carried.seq := by
  rw [List.flatMap_append, List.flatMap_singleton, List.filterMap_append, delivered]

/-- What goes up next comes after all that has gone up. -/
theorem InStep.advance {size maxIdx flow : Nat}
    (inStep : InStep size maxIdx state flow) {report : Report}
    (reports : (state.windows flow).Reports size report) :
    let after := (state.windows flow).after size report
    let up := delivered state flow ++ (state.windows flow).sends report
    up.Pairwise (· < ·) ∧ (∀ seq ∈ up, seq < after.exp) ∧
      ∀ seq ∈ state.received flow ++ report.received (state.windows flow),
        seq ∈ up ∨ seq ∈ after.held := by
  intro after up
  have letsGo := Window.reports_letsGo inStep.mirrors.ahead reports
  refine ⟨?_, ?_, ?_⟩
  · rw [List.pairwise_append]
    refine ⟨inStep.order, letsGo.order, ?_⟩
    intro before earlier seq later
    exact Nat.lt_of_lt_of_le (inStep.below before earlier) (letsGo.range seq later).1
  · intro seq member
    rcases List.mem_append.mp member with earlier | later
    · exact Nat.lt_of_lt_of_le (inStep.below seq earlier) letsGo.grows
    · exact (letsGo.range seq later).2
  · intro seq member
    have cause : seq ∈ delivered state flow ∨
        (seq ∈ (state.windows flow).held ∨ seq ∈ report.received (state.windows flow)) := by
      rcases List.mem_append.mp member with earlier | now
      · exact (inStep.kept seq earlier).imp id Or.inl
      · exact Or.inr (Or.inr now)
    rcases cause with earlier | here
    · exact Or.inl (List.mem_append_left _ earlier)
    · exact (letsGo.kept seq here).imp (List.mem_append_right _) id

theorem reception_inStep (maxIdx : UInt8) :
    ((reception maxIdx).restrict (Told maxIdx)).Preserves (AllInStep maxIdx) := by
  rintro state indication inStep ⟨reports, told⟩
  obtain ⟨entry, chain, answer, mirrors, seqs, count⟩ :=
    hostStep_follows (inStep.flows indication.flow.toNat).mirrors reports told
  obtain ⟨order, below, kept⟩ := (inStep.flows indication.flow.toNat).advance reports
  change AllInStep maxIdx (receptionStep maxIdx state indication)
  rw [receptionStep_eq answer]
  refine ⟨?_, inStep.freed, inStep.hung⟩
  intro flow
  by_cases same : flow = indication.flow.toNat
  · subst same
    have up : delivered { state with
        reorderBufs := update state.reorderBufs indication.flow.toNat entry
        windows := update state.windows indication.flow.toNat
          ((state.windows indication.flow.toNat).after (windowSize maxIdx) indication.report)
        received := update state.received indication.flow.toNat
          (state.received indication.flow.toNat ++
            indication.report.received (state.windows indication.flow.toNat))
        upward := update state.upward indication.flow.toNat
          (state.upward indication.flow.toNat ++ [chain]) } indication.flow.toNat =
        delivered state indication.flow.toNat ++
          (state.windows indication.flow.toNat).sends indication.report := by
      rw [← seqs, ← delivered_update, delivered]
      simp only [update_self]
    refine ⟨?_, ?_, ?_, ?_, ?_⟩
    · simp only [update_self]
      exact mirrors
    · rw [up]
      exact order
    · rw [up]
      simp only [update_self]
      exact below
    · rw [up]
      simp only [update_self]
      exact kept
    · simp only [update_self]
      intro other member
      rcases List.mem_append.mp member with earlier | now
      · exact (inStep.flows _).counts other earlier
      · rw [List.mem_singleton.mp now]
        exact count
  · have before := inStep.flows flow
    refine ⟨?_, ?_, ?_, ?_, ?_⟩
    · simp only [update_of_ne same]
      exact before.mirrors
    · simp only [delivered, update_of_ne same]
      exact before.order
    · simp only [delivered, update_of_ne same]
      exact before.below
    · simp only [delivered, update_of_ne same]
      exact before.kept
    · simp only [update_of_ne same]
      exact before.counts

theorem receptionStart_inStep (maxIdx : UInt8) (start : Nat → Nat) :
    AllInStep maxIdx (receptionStart maxIdx start) := by
  refine ⟨?_, rfl, rfl⟩
  intro flow
  refine ⟨Mirrors.opened rfl (start flow), List.Pairwise.nil, ?_, ?_, ?_⟩
  · intro seq member
    cases member
  · intro seq member
    cases member
  · intro chain member
    cases member

/-- In every run of unambiguous reports, each flow's packets go up in order and at
most once, none is lost, and the host always returns. -/
theorem reception_deliversInOrder (maxIdx : UInt8) (start : Nat → Nat) (calls : List Indication)
    (admitted : ((reception maxIdx).restrict (Told maxIdx)).Admitted (receptionStart maxIdx start) calls) :
    let state := (reception maxIdx).run (receptionStart maxIdx start) calls
    state.hung = false ∧ state.freed = [] ∧
      ∀ flow, DeliversInOrder (windowSize maxIdx) state flow := by
  intro state
  have inStep := ((reception maxIdx).restrict (Told maxIdx)).run_invariant (reception_inStep maxIdx)
    (receptionStart_inStep maxIdx start) admitted
  rw [Machine.restrict_run] at inStep
  exact ⟨inStep.hung, inStep.freed, fun flow => (inStep.flows flow).deliversInOrder⟩

/-- A hole is opened, filled, and the next one gives way to a window that slides. -/
def heldCalls : List Indication :=
  [⟨0, .hole 0 2 0x1C, true⟩, ⟨0, .arrival 0 0 1 0x0C, true⟩, ⟨0, .arrival 0 3 0 0x0C, true⟩,
    ⟨0, .hole 3 5 0x1C, true⟩, ⟨0, .arrival 4 4 6 0x0C, true⟩, ⟨0, .delete 8 (some 7) 0x01, true⟩]

theorem reception_deliversInOrder_heldCalls :
    ((reception 3).restrict (Told 3)).Admitted (receptionStart 3 fun _ => 0) heldCalls ∧
      DeliversInOrder (windowSize 3) ((reception 3).run (receptionStart 3 fun _ => 0) heldCalls) 0 := by
  have admitted : ((reception 3).restrict (Told 3)).Admitted (receptionStart 3 fun _ => 0) heldCalls := by
    decide +kernel
  exact ⟨admitted, (reception_deliversInOrder 3 _ heldCalls admitted).2.2 0⟩

/-- Packet 3 opens a hole at 0. Packet 5 makes the window slide to begin at 2, where
it lies in the last slot; then 2 arrives. -/
def slidCalls : List Indication :=
  [⟨0, .hole 0 3 0x1C, true⟩, ⟨0, .arrival 2 2 5 0x0C, true⟩, ⟨0, .arrival 2 4 2 0x0C, true⟩]

/-- The packet in the last slot of the window that slid goes up at once, before the
ones in front of it. -/
theorem slid_window_misorders :
    let state := (reception 3).run (receptionStart 3 fun _ => 0) slidCalls
    (reception 3).Admitted (receptionStart 3 fun _ => 0) slidCalls ∧
      delivered state 0 = [5, 2, 3] ∧ ¬ DeliversInOrder (windowSize 3) state 0 := by
  intro state
  have up : delivered state 0 = [5, 2, 3] := by decide +kernel
  refine ⟨by decide +kernel, up, ?_⟩
  intro inOrder
  have order := inOrder.order
  rw [up] at order
  exact absurd order (by decide)

end BcmDhd.Cdc
