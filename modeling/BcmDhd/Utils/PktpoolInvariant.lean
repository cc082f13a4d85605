import BcmDhd.Utils.Pktpool

namespace BcmDhd.Utils

open BcmDhd.Lib Function

/-- The free list meets these packets, each once, and `avail` counts them. -/
structure FreeList (memory : PoolMemory) (nodes : List Nat) : Prop where
  chain : Chain memory.link memory.pool.freelist nodes none
  nodup : nodes.Nodup
  count : memory.pool.avail.toNat = nodes.length

namespace FreeList

variable {memory : PoolMemory} {nodes : List Nat} {p : Nat}

theorem enq (valid : FreeList memory nodes) (absent : p ∉ nodes) (room : nodes.length + 1 < 2 ^ 16) :
    FreeList (pktpoolEnq memory p) (p :: nodes) := by
  refine ⟨⟨rfl, ?_⟩, List.nodup_cons.mpr ⟨absent, valid.nodup⟩, ?_⟩
  · simp only [pktpoolEnq, update_self]
    exact valid.chain.update_of_not_mem absent _
  · simp only [pktpoolEnq, UInt16.toNat_add, valid.count, UInt16.toNat_one, List.length_cons]
    exact Nat.mod_eq_of_lt room

theorem congr (valid : FreeList memory nodes) {other : PoolMemory} (link : other.link = memory.link)
    (head : other.pool.freelist = memory.pool.freelist)
    (avail : other.pool.avail = memory.pool.avail) : FreeList other nodes := by
  refine ⟨?_, valid.nodup, by rw [avail, valid.count]⟩
  rw [link, head]
  exact valid.chain

theorem deq_nil (valid : FreeList memory []) : pktpoolDeq memory = (memory, none) := by
  have empty : memory.pool.avail = 0 := UInt16.toNat_inj.mp valid.count
  rw [pktpoolDeq, if_pos empty]

theorem deq_cons (valid : FreeList memory (p :: nodes)) :
    ∃ after, pktpoolDeq memory = (after, some p) ∧ FreeList after nodes ∧
      after.pool.len = memory.pool.len ∧ after.pool.maxlen = memory.pool.maxlen ∧
      after.pool.plen = memory.pool.plen ∧ after.pktLen = memory.pktLen := by
  obtain ⟨⟨head, rest⟩, nodup, count⟩ := valid
  obtain ⟨absent, others⟩ := List.nodup_cons.mp nodup
  have some_ : memory.pool.avail ≠ 0 := by
    intro zero
    rw [zero] at count
    simp at count
  unfold pktpoolDeq
  rw [if_neg some_, head]
  refine ⟨_, rfl, ⟨rest.update_of_not_mem absent _, others, ?_⟩, rfl, rfl, rfl, rfl⟩
  dsimp only
  rw [List.length_cons] at count
  have one : (1 : UInt16) ≤ memory.pool.avail := by
    rw [UInt16.le_iff_toNat_le, UInt16.toNat_one]
    omega
  rw [UInt16.toNat_sub_of_le _ _ one, UInt16.toNat_one, count]
  rfl

theorem add (valid : FreeList memory nodes) (absent : p ∉ nodes)
    (short : nodes.length ≤ memory.pool.len.toNat)
    (room : memory.pool.len.toNat < memory.pool.maxlen.toNat) :
    ∃ after, pktpoolAdd memory p = (after, bcmeOk) ∧ FreeList after (p :: nodes) ∧
      after.pool.len.toNat = memory.pool.len.toNat + 1 ∧
      after.pool.maxlen = memory.pool.maxlen ∧ after.pool.plen = memory.pool.plen ∧
      after.pktLen = memory.pktLen := by
  have below := memory.pool.maxlen.toNat_lt
  have notFull : memory.pool.len ≠ memory.pool.maxlen := by
    intro same
    rw [same] at room
    omega
  have counted : FreeList { memory with pool := { memory.pool with len := memory.pool.len + 1 } }
      nodes := valid.congr rfl rfl rfl
  rw [pktpoolAdd, if_neg notFull]
  refine ⟨_, rfl, counted.enq absent (by omega), ?_, rfl, rfl, rfl⟩
  simp only [pktpoolEnq, UInt16.toNat_add, UInt16.toNat_one]
  exact Nat.mod_eq_of_lt (by omega)

theorem get_nil (valid : FreeList memory []) : pktpoolGet memory = (memory, none) := by
  rw [pktpoolGet, valid.deq_nil]
  exact valid.deq_nil

end FreeList

/-- What taking in the first `count` of some packets does: they stand in front of the
free list, the last one first, and the length of each is known. -/
structure TakesIn (before after : PoolMemory) (nodes packets : List Nat) (count : Nat)
    (length : Nat → Int) : Prop where
  free : FreeList after ((packets.take count).reverse ++ nodes)
  maxlen : after.pool.maxlen = before.pool.maxlen
  plen : after.pool.plen = before.pool.plen
  lengths : ∀ i p, i < count → packets[i]? = some p → after.pktLen p = length i
  others : ∀ p, p ∉ packets.take count → after.pktLen p = before.pktLen p

namespace TakesIn

variable {before middle after : PoolMemory} {nodes packets : List Nat} {count p : Nat}
  {length : Nat → Int}

theorem none (valid : FreeList before nodes) : TakesIn before before nodes packets 0 length := by
  refine ⟨by simpa using valid, rfl, rfl, ?_, fun _ _ => rfl⟩
  intro i p below
  omega

theorem cons (rest : TakesIn middle after (p :: nodes) packets count fun i => length (i + 1))
    (absent : p ∉ packets) (maxlen : middle.pool.maxlen = before.pool.maxlen)
    (plen : middle.pool.plen = before.pool.plen)
    (pktLen : middle.pktLen = update before.pktLen p (length 0)) :
    TakesIn before after nodes (p :: packets) (count + 1) length := by
  refine ⟨by simpa using rest.free, rest.maxlen.trans maxlen, rest.plen.trans plen, ?_, ?_⟩
  · intro i q below found
    cases i with
    | zero =>
      cases found
      rw [rest.others p (fun member => absent (List.mem_of_mem_take member)), pktLen,
        update_self]
    | succ i => exact rest.lengths i q (by omega) found
  · intro q outside
    rw [List.take_succ_cons, List.mem_cons, not_or] at outside
    rw [rest.others q outside.2, pktLen, update_of_ne outside.1]

end TakesIn

section Loops

variable {memory : PoolMemory} {nodes packets : List Nat}

theorem apart_cons {p : Nat} (fresh : (p :: packets).Nodup)
    (apart : ∀ q ∈ p :: packets, q ∉ nodes) : ∀ q ∈ packets, q ∉ p :: nodes := by
  intro q member
  rw [List.mem_cons, not_or]
  exact ⟨fun same => (List.nodup_cons.mp fresh).1 (same ▸ member),
    apart q (List.mem_cons_of_mem p member)⟩

theorem pktpoolInitLoop_spec (plen : Int) (count : Nat) (valid : FreeList memory nodes)
    (fresh : packets.Nodup) (apart : ∀ p ∈ packets, p ∉ nodes)
    (room : nodes.length + count < 2 ^ 16) :
    ∃ taken ≤ count, taken ≤ packets.length ∧
      TakesIn memory (pktpoolInitLoop plen count packets memory).1 nodes packets taken
        fun _ => plen := by
  induction count generalizing packets memory nodes with
  | zero => exact ⟨0, le_rfl, Nat.zero_le _, .none valid⟩
  | succ count ih =>
    cases packets with
    | nil => exact ⟨0, Nat.zero_le _, le_rfl, .none valid⟩
    | cons p packets =>
      obtain ⟨absent, others⟩ := List.nodup_cons.mp fresh
      have outside := apart p List.mem_cons_self
      have gotten : FreeList (pktget memory p plen) nodes := valid.congr rfl rfl rfl
      obtain ⟨taken, most, available, rest⟩ := ih (gotten.enq outside (by omega)) others
        (apart_cons fresh apart) (by rw [List.length_cons]; omega)
      refine ⟨taken + 1, by omega, by simpa using available, ?_⟩
      apply rest.cons absent
      · rfl
      · rfl
      · rfl

/-- The loop takes in as many packets as it wants and as there are; the first has the
pool's length for its size, each further one a size greater by one. -/
theorem pktpoolFillLoop_spec {psize : Nat} (valid : FreeList memory nodes)
    (fresh : packets.Nodup) (apart : ∀ p ∈ packets, p ∉ nodes)
    (short : nodes.length ≤ memory.pool.len.toNat) (limit : psize ≤ memory.pool.maxlen.toNat) :
    ∃ taken, taken = min packets.length (psize - memory.pool.len.toNat) ∧
      (pktpoolFillLoop psize memory.pool.len.toNat packets memory).1.pool.len.toNat =
        memory.pool.len.toNat + taken ∧
      TakesIn memory (pktpoolFillLoop psize memory.pool.len.toNat packets memory).1 nodes packets
        taken fun i => memory.pool.len.toNat + i := by
  induction packets generalizing memory nodes with
  | nil => exact ⟨0, by simp, rfl, .none valid⟩
  | cons p packets ih =>
    by_cases wanted : memory.pool.len.toNat < psize
    · have gotten : FreeList (pktget memory p memory.pool.len.toNat) nodes := valid.congr rfl rfl rfl
      obtain ⟨after, added, free, len, maxlen, plen, pktLen⟩ := gotten.add
        (apart p List.mem_cons_self) short (Nat.lt_of_lt_of_le wanted limit)
      have grown : after.pool.len.toNat = memory.pool.len.toNat + 1 := len
      have loop : pktpoolFillLoop psize memory.pool.len.toNat (p :: packets) memory =
          pktpoolFillLoop psize after.pool.len.toNat packets after := by
        rw [pktpoolFillLoop, if_pos wanted, added, grown]
        rfl
      obtain ⟨taken, count, length, rest⟩ := ih free (List.nodup_cons.mp fresh).2
        (apart_cons fresh apart) (by rw [List.length_cons]; omega) (maxlen ▸ limit)
      rw [loop]
      refine ⟨taken + 1, by rw [List.length_cons]; omega, by omega, ?_⟩
      have sizes : (fun i : Nat => (after.pool.len.toNat : Int) + i) =
          fun i => (memory.pool.len.toNat : Int) + (i + 1 : Nat) := by
        funext i
        omega
      rw [sizes] at rest
      exact rest.cons (List.nodup_cons.mp fresh).1 maxlen plen (by rw [pktLen]; simp [pktget])
    · refine ⟨0, by omega, ?_, ?_⟩
      · rw [pktpoolFillLoop, if_neg wanted]
        rfl
      · rw [pktpoolFillLoop, if_neg wanted]
        exact .none valid

end Loops

/-- The free list together with the packets callers hold: distinct, of the pool, and
as many as the pool's length says. -/
structure PoolHolds (state : PoolState) (nodes : List Nat) : Prop where
  free : FreeList state.memory nodes
  apart : (nodes ++ state.out).Nodup
  kept : ∀ p ∈ nodes ++ state.out, p ∈ state.held
  len : state.memory.pool.len.toNat = nodes.length + state.out.length
  bound : state.memory.pool.len.toNat ≤ state.memory.pool.maxlen.toNat
  cap : state.memory.pool.maxlen.toNat ≤ pktpoolLenMax.toNat

/-- Every packet taken in was allocated in the pool's size. -/
def PoolUniform (state : PoolState) : Prop :=
  ∀ p ∈ state.held, state.memory.pktLen p = state.memory.pool.plen.toNat

theorem exists_index {packets : List Nat} {count p : Nat} (member : p ∈ packets.take count) :
    ∃ i < count, packets[i]? = some p := by
  obtain ⟨i, found⟩ := List.mem_iff_getElem?.mp member
  rw [List.getElem?_take] at found
  split at found
  · rename_i below
    exact ⟨i, below, found⟩
  · cases found

/-- A pool that was made holds the packets it could get, and nothing else. -/
theorem pktpoolInit_spec (memory : PoolMemory) (registered : Bool) (pplen plen : Int)
    {packets : List Nat} {after : PoolMemory} (fresh : packets.Nodup)
    (made : after = (pktpoolInit memory registered pplen plen packets).1) :
    ∃ taken, after.pool.len.toNat = taken ∧ taken ≤ packets.length ∧
      FreeList after (packets.take taken).reverse ∧ taken ≤ after.pool.maxlen.toNat ∧
      after.pool.maxlen.toNat ≤ pktpoolLenMax.toNat ∧
      (taken = 0 ∨ (registered = true ∧ 0 < pplen ∧ packets ≠ [] ∧
        after.pool.plen = UInt16.ofInt plen ∧ ∀ p ∈ packets.take taken, after.pktLen p = plen)) := by
  cases registered with
  | false =>
    subst after
    exact ⟨0, rfl, Nat.zero_le _, ⟨rfl, List.nodup_nil, rfl⟩, le_rfl, Nat.zero_le _, Or.inl rfl⟩
  | true =>
    have empty : FreeList { memory with
        pool := { freelist := none, avail := 0, len := 0, maxlen := pktpoolLenMax, plen := UInt16.ofInt plen } } [] :=
      ⟨rfl, List.nodup_nil, rfl⟩
    have few : (if pplen > pktpoolLenMax.toNat then pktpoolLenMax.toNat else pplen.toNat) ≤
        pktpoolLenMax.toNat := by
      split <;> omega
    obtain ⟨taken, most, available, takes⟩ := pktpoolInitLoop_spec plen
      (if pplen > pktpoolLenMax.toNat then pktpoolLenMax.toNat else pplen.toNat) empty fresh (by simp)
      (by rw [List.length_nil, Nat.zero_add]; exact Nat.lt_of_le_of_lt few (by decide))
    have count := takes.free.count
    rw [List.append_nil, List.length_reverse, List.length_take] at count
    have maxlen : after.pool.maxlen = pktpoolLenMax := by
      subst after
      exact takes.maxlen
    refine ⟨taken, ?_, available, ?_, ?_, ?_, ?_⟩
    · subst after
      exact count.trans (by omega)
    · subst after
      have free := takes.free
      rw [List.append_nil] at free
      exact free.congr rfl rfl rfl
    · rw [maxlen]
      omega
    · rw [maxlen]
    · by_cases none : taken = 0
      · exact Or.inl none
      · refine Or.inr ⟨rfl, ?_, ?_, ?_, ?_⟩
        · by_contra negative
          rw [if_neg (by omega)] at most
          omega
        · intro no
          rw [no] at available
          exact none (Nat.le_zero.mp available)
        · subst after
          exact takes.plen
        · intro p member
          obtain ⟨i, below, found⟩ := exists_index member
          subst after
          exact takes.lengths i p below found

theorem pktpoolFillSize_le (pool : Pktpool) (minimal : Bool) :
    pktpoolFillSize pool minimal ≤ pool.maxlen.toNat := by
  unfold pktpoolFillSize
  split <;> omega

namespace PoolHolds

variable {state : PoolState} {nodes : List Nat}

theorem init (registered : Bool) (pplen plen : Int) {packets : List Nat} (fresh : packets.Nodup) :
    ∃ nodes, PoolHolds (poolMachine.next state (.init registered pplen plen packets)) nodes := by
  obtain ⟨taken, len, available, free, bound, cap, -⟩ :=
    pktpoolInit_spec state.memory registered pplen plen fresh rfl
  refine ⟨(packets.take taken).reverse, free, ?_, ?_, ?_, ?_, cap⟩
  · rw [show (poolMachine.next state (.init registered pplen plen packets)).out = [] from rfl,
      List.append_nil]
    exact free.nodup
  · intro p member
    change p ∈ packets.take _
    rw [len]
    simpa [Machine.next, poolMachine] using member
  · change _ = _ + 0
    rw [List.length_reverse, List.length_take, Nat.min_eq_left available]
    exact len
  · exact len.le.trans bound

theorem init_uniform {registered : Bool} {pplen plen : Int} {packets : List Nat}
    (fresh : packets.Nodup) (keeps : KeepsPlen state (.init registered pplen plen packets)) :
    PoolUniform (poolMachine.next state (.init registered pplen plen packets)) := by
  obtain ⟨taken, len, -, -, -, -, sizes⟩ :=
    pktpoolInit_spec state.memory registered pplen plen fresh rfl
  intro p member
  have early : p ∈ packets.take taken := by
    rw [← len]
    exact member
  rcases sizes with rfl | ⟨isRegistered, positive, nonempty, size, lengths⟩
  · rw [List.take_zero] at early
    cases early
  · rcases keeps with not | none | no | ⟨low, high⟩
    · rw [isRegistered] at not
      cases not
    · omega
    · exact absurd no nonempty
    · refine (lengths p early).trans ?_
      change plen = (pktpoolInit state.memory registered pplen plen packets).1.pool.plen.toNat
      rw [size, UInt16.ofInt]
      have bound : (plen % 2 ^ 16).toNat < 2 ^ 16 := by omega
      rw [UInt16.toNat_ofNat_of_lt' bound]
      omega

section

variable (valid : PoolHolds state nodes)
include valid

theorem fill_spec (minimal : Bool) {packets : List Nat}
    (fresh : packets.Nodup) (new : ∀ p ∈ packets, p ∉ state.held) :
    ∃ taken, taken = min packets.length (pktpoolFillSize state.memory.pool minimal -
        state.memory.pool.len.toNat) ∧
      (pktpoolFill state.memory minimal packets).1.pool.len.toNat =
        state.memory.pool.len.toNat + taken ∧
      TakesIn state.memory (pktpoolFill state.memory minimal packets).1 nodes packets taken
        fun i => state.memory.pool.len.toNat + i := by
  have count := valid.len
  exact pktpoolFillLoop_spec valid.free fresh
    (fun p member inside => new p member (valid.kept p (List.mem_append_left _ inside)))
    (by omega) (pktpoolFillSize_le state.memory.pool minimal)

theorem fill (minimal : Bool) {packets : List Nat}
    (fresh : packets.Nodup) (new : ∀ p ∈ packets, p ∉ state.held) :
    ∃ nodes, PoolHolds (poolMachine.next state (.fill minimal packets)) nodes := by
  obtain ⟨taken, most, len, takes⟩ := valid.fill_spec minimal fresh new
  have count := valid.len
  have bound := valid.bound
  have limit := pktpoolFillSize_le state.memory.pool minimal
  have held : (poolMachine.next state (.fill minimal packets)).held =
      packets.take taken ++ state.held := by
    change packets.take (_ - _) ++ state.held = _
    rw [len, Nat.add_sub_cancel_left]
  have moved : ((packets.take taken).reverse ++ nodes ++ state.out).Perm
      (packets.take taken ++ (nodes ++ state.out)) := by
    rw [List.append_assoc]
    exact (List.reverse_perm _).append_right _
  refine ⟨(packets.take taken).reverse ++ nodes, takes.free, ?_, ?_, ?_, ?_, ?_⟩
  · refine moved.nodup_iff.mpr (List.nodup_append.mpr ⟨fresh.sublist (List.take_sublist _ _),
      valid.apart, ?_⟩)
    rintro p member _ other rfl
    exact new p (List.mem_of_mem_take member) (valid.kept p other)
  · intro p member
    rw [held]
    rcases List.mem_append.mp (moved.mem_iff.mp member) with early | other
    · exact List.mem_append_left _ early
    · exact List.mem_append_right _ (valid.kept p other)
  · refine len.trans ?_
    change _ = ((packets.take taken).reverse ++ nodes).length + state.out.length
    rw [List.length_append, List.length_reverse, List.length_take]
    omega
  · have same : (poolMachine.next state (.fill minimal packets)).memory.pool.maxlen =
        state.memory.pool.maxlen := takes.maxlen
    rw [same]
    refine len.le.trans ?_
    omega
  · exact takes.maxlen ▸ valid.cap

theorem fill_uniform (uniform : PoolUniform state)
    {minimal : Bool} {packets : List Nat}
    (fresh : packets.Nodup) (new : ∀ p ∈ packets, p ∉ state.held)
    (keeps : KeepsPlen state (.fill minimal packets)) :
    PoolUniform (poolMachine.next state (.fill minimal packets)) := by
  obtain ⟨taken, most, len, takes⟩ := valid.fill_spec minimal fresh new
  have plen : (poolMachine.next state (.fill minimal packets)).memory.pool.plen =
      state.memory.pool.plen := takes.plen
  intro p member
  rw [plen]
  change p ∈ packets.take (_ - _) ++ state.held at member
  rw [len, Nat.add_sub_cancel_left] at member
  by_cases early : p ∈ packets.take taken
  · -- at most one packet came in, and the pool's length was its size
    obtain ⟨i, below, found⟩ := exists_index early
    have length : (poolMachine.next state (.fill minimal packets)).memory.pktLen p =
        (state.memory.pool.len.toNat : Int) + i := takes.lengths i p below found
    rw [length]
    rcases keeps with full | none | ⟨size, one | one⟩
    · omega
    · rw [none] at found
      cases found
    · omega
    · omega
  · have old : p ∈ state.held := (List.mem_append.mp member).resolve_left early
    exact (takes.others p early).trans (uniform p old)

theorem get_cases : (nodes = [] ∧ pktpoolGet state.memory = (state.memory, none)) ∨
    ∃ p rest after, nodes = p :: rest ∧ pktpoolGet state.memory = (after, some p) ∧
      FreeList after rest ∧ p ∉ rest ∧ after.pool.len = state.memory.pool.len ∧
      after.pool.maxlen = state.memory.pool.maxlen ∧ after.pool.plen = state.memory.pool.plen ∧
      after.pktLen = state.memory.pktLen := by
  cases nodes with
  | nil => exact Or.inl ⟨rfl, valid.free.get_nil⟩
  | cons p rest =>
    obtain ⟨after, taken, free, len, maxlen, plen, pktLen⟩ := valid.free.deq_cons
    refine Or.inr ⟨p, rest, after, rfl, ?_, free, (List.nodup_cons.mp valid.free.nodup).1, len,
      maxlen, plen, pktLen⟩
    rw [pktpoolGet, taken]

theorem get : (∃ nodes, PoolHolds (poolMachine.next state .get) nodes) ∧
      (PoolUniform state → PoolUniform (poolMachine.next state .get)) := by
  rcases valid.get_cases with ⟨empty, none⟩ | ⟨p, rest, after, rfl, taken, free, -, len, maxlen, plen, pktLen⟩
  · have same : poolMachine.next state .get = state := by
      simp only [Machine.next, poolMachine, none, Option.toList_none, List.nil_append]
    rw [same]
    exact ⟨⟨nodes, valid⟩, fun uniform => uniform⟩
  · have reached : poolMachine.next state .get = ⟨after, state.held, p :: state.out⟩ := by
      simp only [Machine.next, poolMachine, taken, Option.toList_some, List.singleton_append]
    have moved : (rest ++ p :: state.out).Perm (p :: rest ++ state.out) := List.perm_middle
    rw [reached]
    refine ⟨⟨rest, free, moved.nodup_iff.mpr valid.apart,
      fun q member => valid.kept q (moved.mem_iff.mp member), ?_, ?_, ?_⟩, ?_⟩
    · have count := valid.len
      simp only [List.length_cons, len] at count ⊢
      omega
    · rw [len, maxlen]
      exact valid.bound
    · rw [maxlen]
      exact valid.cap
    · intro uniform q member
      simp only [pktLen, plen]
      exact uniform q member

theorem add {p : Nat} (new : p ∉ state.held)
    (size : state.memory.pktLen p = state.memory.pool.plen.toNat) :
    (∃ nodes, PoolHolds (poolMachine.next state (.add p)) nodes) ∧
      (PoolUniform state → PoolUniform (poolMachine.next state (.add p))) := by
  have unknown : p ∉ nodes ++ state.out := fun member => new (valid.kept p member)
  by_cases full : state.memory.pool.len = state.memory.pool.maxlen
  · have same : poolMachine.next state (.add p) = state := by
      simp only [Machine.next, poolMachine, pktpoolAdd, if_pos full]
      rfl
    rw [same]
    exact ⟨⟨nodes, valid⟩, fun uniform => uniform⟩
  · have bound := valid.bound
    have room : state.memory.pool.len.toNat < state.memory.pool.maxlen.toNat := by
      rcases Nat.lt_or_eq_of_le bound with less | equal
      · exact less
      · exact absurd (UInt16.toNat_inj.mp equal) full
    have count := valid.len
    obtain ⟨after, added, free, len, maxlen, plen, pktLen⟩ := valid.free.add
      (fun member => unknown (List.mem_append_left _ member)) (by omega) room
    have reached : poolMachine.next state (.add p) = ⟨after, p :: state.held, state.out⟩ := by
      simp only [Machine.next, poolMachine, added, if_true]
    rw [reached]
    refine ⟨⟨p :: nodes, free, List.nodup_cons.mpr ⟨unknown, valid.apart⟩, ?_, ?_, ?_, ?_⟩, ?_⟩
    · intro q member
      rcases List.mem_cons.mp member with rfl | other
      · exact List.mem_cons_self
      · exact List.mem_cons_of_mem p (valid.kept q other)
    · simp only [List.length_cons, len]
      omega
    · rw [maxlen, len]
      omega
    · rw [maxlen]
      exact valid.cap
    · intro uniform q member
      simp only [pktLen, plen]
      rcases List.mem_cons.mp member with rfl | other
      · exact size
      · exact uniform q other

theorem release {p : Nat} (gotten : p ∈ state.out) :
    (∃ nodes, PoolHolds (poolMachine.next state (.free p)) nodes) ∧
      (PoolUniform state → PoolUniform (poolMachine.next state (.free p))) := by
  have moved : (p :: nodes ++ state.out.erase p).Perm (nodes ++ state.out) :=
    (List.perm_middle.symm).trans ((List.perm_cons_erase gotten).symm.append_left nodes)
  have absent : p ∉ nodes := fun member =>
    (List.nodup_append.mp valid.apart).2.2 p member p gotten rfl
  have count := valid.len
  have bound := valid.bound
  have cap : state.memory.pool.maxlen.toNat ≤ 40 := valid.cap
  have held := List.length_pos_of_mem gotten
  refine ⟨⟨p :: nodes, valid.free.enq absent (by omega), moved.nodup_iff.mpr valid.apart,
    fun q member => valid.kept q (moved.mem_iff.mp member), ?_, valid.bound, valid.cap⟩,
    fun uniform => uniform⟩
  change state.memory.pool.len.toNat = (p :: nodes).length + (state.out.erase p).length
  rw [List.length_erase_of_mem gotten, List.length_cons]
  omega

end

theorem setmaxlen_bounds {memory : PoolMemory} (maxlen : UInt16)
    (bound : memory.pool.len.toNat ≤ memory.pool.maxlen.toNat)
    (cap : memory.pool.maxlen.toNat ≤ pktpoolLenMax.toNat) :
    memory.pool.len.toNat ≤ (pktpoolSetmaxlen memory maxlen).1.pool.maxlen.toNat ∧
      (pktpoolSetmaxlen memory maxlen).1.pool.maxlen.toNat ≤ pktpoolLenMax.toNat := by
  unfold pktpoolSetmaxlen
  dsimp only
  have capped : (if maxlen > pktpoolLenMax then pktpoolLenMax else maxlen) ≤ pktpoolLenMax := by
    split
    · exact UInt16.le_refl _
    · rename_i small
      exact UInt16.not_lt.mp small
  generalize (if maxlen > pktpoolLenMax then pktpoolLenMax else maxlen) = limit at capped ⊢
  split
  · exact ⟨le_rfl, bound.trans cap⟩
  · rename_i fits
    exact ⟨UInt16.le_iff_toNat_le.mp (UInt16.not_lt.mp fits), UInt16.le_iff_toNat_le.mp capped⟩

theorem setmaxlen (valid : PoolHolds state nodes) (maxlen : UInt16) :
    (∃ nodes, PoolHolds (poolMachine.next state (.setmaxlen maxlen)) nodes) ∧
      (PoolUniform state → PoolUniform (poolMachine.next state (.setmaxlen maxlen))) := by
  refine ⟨⟨nodes, valid.free.congr rfl rfl rfl, valid.apart, valid.kept, valid.len, ?_, ?_⟩,
    fun uniform => uniform⟩
  · exact (setmaxlen_bounds maxlen valid.bound valid.cap).1
  · exact (setmaxlen_bounds maxlen valid.bound valid.cap).2

theorem next {call : PoolCall} (valid : PoolHolds state nodes)
    (admitted : poolMachine.admits state call) :
    (∃ nodes, PoolHolds (poolMachine.next state call) nodes) ∧
      (PoolUniform state → KeepsPlen state call → PoolUniform (poolMachine.next state call)) := by
  cases call with
  | init registered pplen plen packets =>
    exact ⟨init registered pplen plen admitted, fun _ keeps => init_uniform admitted keeps⟩
  | fill minimal packets =>
    exact ⟨valid.fill minimal admitted.1 admitted.2,
      fun uniform keeps => valid.fill_uniform uniform admitted.1 admitted.2 keeps⟩
  | get => exact ⟨valid.get.1, fun uniform _ => valid.get.2 uniform⟩
  | add p =>
    have added := valid.add admitted.1 admitted.2
    exact ⟨added.1, fun uniform _ => added.2 uniform⟩
  | free p =>
    have freed := valid.release admitted
    exact ⟨freed.1, fun uniform _ => freed.2 uniform⟩
  | setmaxlen maxlen =>
    have set := valid.setmaxlen maxlen
    exact ⟨set.1, fun uniform _ => set.2 uniform⟩

end PoolHolds

def PoolValid (state : PoolState) : Prop := ∃ nodes, PoolHolds state nodes

theorem poolValid_preserved : poolMachine.Preserves PoolValid := by
  rintro state call ⟨nodes, valid⟩ admitted
  exact (valid.next admitted).1

theorem poolUniform_preserved : (poolMachine.restrict KeepsPlen).Preserves
    fun state => PoolValid state ∧ PoolUniform state := by
  rintro state call ⟨⟨nodes, valid⟩, uniform⟩ ⟨admitted, keeps⟩
  have after := valid.next admitted
  exact ⟨after.1, after.2 uniform keeps⟩

/-- In every run from the making of a pool on, the counters are those of the free
list, no packet is on it twice, and none that is handed out stays on it. Where every
call meets `KeepsPlen`, all packets the pool ever took in have its packet size. -/
theorem pktpool_accounting {before state : PoolState} {registered : Bool} {pplen plen : Int}
    {packets : List Nat} {calls : List PoolCall}
    (admitted : poolMachine.Admitted before (.init registered pplen plen packets :: calls))
    (reached : state = poolMachine.run before (.init registered pplen plen packets :: calls)) :
    (∃ nodes, Chain state.memory.link state.memory.pool.freelist nodes none ∧ nodes.Nodup ∧
      state.memory.pool.avail.toNat = nodes.length ∧
      state.memory.pool.avail ≤ state.memory.pool.len ∧
      state.memory.pool.len ≤ state.memory.pool.maxlen ∧
      ∀ p after, pktpoolGet state.memory = (after, some p) →
        ∃ left, Chain after.link after.pool.freelist left none ∧ p ∉ left) ∧
    ((poolMachine.restrict KeepsPlen).Admitted before (.init registered pplen plen packets :: calls) →
      ∀ p ∈ state.held, state.memory.pktLen p = state.memory.pool.plen.toNat) := by
  obtain ⟨fresh, rest⟩ := admitted
  have made : PoolValid (poolMachine.next before (.init registered pplen plen packets)) :=
    PoolHolds.init registered pplen plen fresh
  rw [poolMachine.run_cons] at reached
  constructor
  · obtain ⟨nodes, valid⟩ : PoolValid state := by
      rw [reached]
      exact poolMachine.run_invariant poolValid_preserved made rest
    have count := valid.len
    have avail := valid.free.count
    refine ⟨nodes, valid.free.chain, valid.free.nodup, avail, ?_, ?_, ?_⟩
    · rw [UInt16.le_iff_toNat_le]
      omega
    · exact UInt16.le_iff_toNat_le.mpr valid.bound
    · intro p after taken
      rcases valid.get_cases with ⟨-, none⟩ | ⟨q, left, state', -, taken', free, absent, -⟩
      · exact absurd (taken.symm.trans none) (by simp)
      · cases taken.symm.trans taken'
        exact ⟨left, free.chain, absent⟩
  · rintro ⟨⟨-, first⟩, others⟩
    have kept := (poolMachine.restrict KeepsPlen).run_invariant poolUniform_preserved
      ⟨made, PoolHolds.init_uniform fresh first⟩ others
    rw [poolMachine.restrict_run, ← reached] at kept
    exact kept.2

/-- An idle pool before it is made. -/
def poolUnmade : PoolState :=
  ⟨⟨⟨none, 0, 0, 0, 0⟩, fun _ => none, fun _ => 0⟩, [], []⟩

/-- A pool of two packets of 1500 bytes; one is got, freed, and the limit lowered. -/
theorem pktpool_accounting_two_packets :
    (poolMachine.run poolUnmade [.init true 2 1500 [10, 11, 12], .get, .free 11, .setmaxlen 2,
      .fill false [13]]).memory.pktLen 10 = 1500 :=
  (@pktpool_accounting poolUnmade _ true 2 1500 [10, 11, 12]
    [.get, .free 11, .setmaxlen 2, .fill false [13]] (by decide +kernel) rfl).2 (by decide +kernel) 10
    (by decide +kernel)

/-- A pool of one packet of 1500 bytes filled up by one: the new packet has one byte. -/
theorem pktpool_fill_takes_in_wrong_size :
    poolMachine.Admitted poolUnmade [.init true 1 1500 [10], .setmaxlen 2, .fill false [11]] ∧
    11 ∈ (poolMachine.run poolUnmade [.init true 1 1500 [10], .setmaxlen 2, .fill false [11]]).held ∧
    (poolMachine.run poolUnmade
      [.init true 1 1500 [10], .setmaxlen 2, .fill false [11]]).memory.pktLen 11 = 1 ∧
    (poolMachine.run poolUnmade
      [.init true 1 1500 [10], .setmaxlen 2, .fill false [11]]).memory.pool.plen = 1500 := by
  decide +kernel

end BcmDhd.Utils
