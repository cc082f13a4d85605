import BcmDhd.PacketQueue.Queue

namespace BcmDhd.PacketQueue

open BcmDhd.Lib Function

variable {p len : Nat} {packets front rest : List Nat} {link : Nat → Option Nat}

/-- The number of packets in the first `numPrec` lists. -/
def total (numPrec : Nat) (lists : Nat → List Nat) : Nat :=
  ∑ prec ∈ Finset.range numPrec, (lists prec).length

theorem length_le_total {numPrec prec : Nat} (lists : Nat → List Nat) (inside : prec < numPrec) :
    (lists prec).length ≤ total numPrec lists :=
  Finset.single_le_sum (f := fun prec => (lists prec).length) (fun _ _ => Nat.zero_le _)
    (Finset.mem_range.mpr inside)

theorem total_update {numPrec prec : Nat} (lists : Nat → List Nat) (inside : prec < numPrec)
    (packets : List Nat) :
    total numPrec (update lists prec packets) + (lists prec).length =
      total numPrec lists + packets.length := by
  have member := Finset.mem_range.mpr inside
  have lengths : (fun other => (update lists prec packets other).length) =
      update (fun other => (lists other).length) prec packets.length := by
    funext other
    by_cases same : other = prec
    · subst other
      simp
    · simp [same]
  unfold total
  rw [lengths, Finset.sum_update_of_mem member, ← Finset.add_sum_erase _ _ member,
    Finset.sdiff_singleton_eq_erase]
  omega

theorem lenAdd_eq {count : Nat} (fits : len + count ≤ pktqLenMax) :
    lenAdd len count = len + count := by
  unfold pktqLenMax at fits
  exact Nat.mod_eq_of_lt (by omega)

theorem lenDec_eq (some : 0 < len) (fits : len ≤ pktqLenMax) :
    lenDec len = len - 1 := by
  unfold pktqLenMax at fits
  unfold lenDec
  omega

/-- Every precedence in use spells its list, a packet is in one list at most,
and the lengths are counted. -/
structure WellFormed (world : PktqWorld) (lists : Nat → List Nat) : Prop where
  spells : ∀ prec < world.pq.numPrec,
    Spells world.link (world.pq.q prec).head (world.pq.q prec).tail (lists prec)
  len_eq : ∀ prec < world.pq.numPrec, (world.pq.q prec).len = (lists prec).length
  apart : ∀ first < world.pq.numPrec, ∀ second < world.pq.numPrec, first ≠ second →
    (lists first).Disjoint (lists second)
  total_eq : world.pq.len = total world.pq.numPrec lists
  total_le : world.pq.len ≤ pktqLenMax

/-- What a removal leaves alone. -/
structure SameBounds (after world : PktqWorld) : Prop where
  numPrec : after.pq.numPrec = world.pq.numPrec
  hiPrec : after.pq.hiPrec = world.pq.hiPrec
  max : after.pq.max = world.pq.max

theorem SameBounds.store (world : PktqWorld) (link : Nat → Option Nat) (prec : Nat) (q : PktqPrec)
    (len : Nat) : SameBounds (world.store link prec q len world.pq.hiPrec) world :=
  ⟨rfl, rfl, rfl⟩

theorem SameBounds.unlinkHead (world : PktqWorld) (prec p : Nat) :
    SameBounds (unlinkHead world prec p) world := .store ..

theorem SameBounds.unlinkAfter (world : PktqWorld) (prec prev p : Nat) :
    SameBounds (unlinkAfter world prec prev p) world := .store ..

/-- No precedence in use holds the packet. -/
def Unqueued (numPrec : Nat) (lists : Nat → List Nat) (p : Nat) : Prop :=
  ∀ prec < numPrec, p ∉ lists prec

namespace WellFormed

variable {world : PktqWorld} {lists : Nat → List Nat} {prec : Nat}

variable (valid : WellFormed world lists) (inside : prec < world.pq.numPrec)
include valid inside

theorem length_le : (lists prec).length ≤ world.pq.len := by
  rw [valid.total_eq]
  exact length_le_total lists inside

/-- One precedence is rewritten; the links of all others stay. -/
theorem replace {q : PktqPrec} {hiPrec : Nat}
    (spells : Spells link q.head q.tail packets) (counted : q.len = packets.length)
    (frame : ∀ other < world.pq.numPrec, other ≠ prec → ∀ p ∈ lists other, link p = world.link p)
    (fresh : ∀ p ∈ packets, ∀ other < world.pq.numPrec, other ≠ prec → p ∉ lists other)
    (sum : len + (lists prec).length = world.pq.len + packets.length) (bounded : len ≤ pktqLenMax) :
    WellFormed (world.store link prec q len hiPrec) (update lists prec packets) where
  spells := by
    intro other within
    by_cases same : other = prec
    · subst other
      simpa [PktqWorld.store] using spells
    · simpa [PktqWorld.store, same] using
        (valid.spells other within).frame (frame other within same)
  len_eq := by
    intro other within
    by_cases same : other = prec
    · subst other
      simpa [PktqWorld.store] using counted
    · simpa [PktqWorld.store, same] using valid.len_eq other within
  apart := by
    intro first firstIn second secondIn different
    by_cases same : first = prec
    · subst first
      rw [update_self, update_of_ne different.symm]
      exact fun p member => fresh p member second secondIn different.symm
    · rw [update_of_ne same]
      by_cases same' : second = prec
      · subst second
        rw [update_self]
        exact fun p old member => fresh p member first firstIn different old
      · rw [update_of_ne same']
        exact valid.apart first firstIn second secondIn different
  total_eq := by
    have updated := total_update lists inside packets
    have before := valid.total_eq
    change len = total world.pq.numPrec _
    omega
  total_le := bounded

theorem frame_update (here : p ∈ lists prec ∨ Unqueued world.pq.numPrec lists p) (target : Option Nat) :
    ∀ other < world.pq.numPrec, other ≠ prec → ∀ x ∈ lists other,
      update world.link p target x = world.link x := by
  intro other within different x member
  apply update_of_ne
  rintro rfl
  rcases here with here | unqueued
  · exact valid.apart prec inside other within different.symm here member
  · exact unqueued other within member

/-- Rewriting one precedence to packets it already held. -/
theorem shrink {head tail : Option Nat} (max : Nat)
    (spells : Spells link head tail packets) (count : (lists prec).length = packets.length + 1)
    (subset : ∀ x ∈ packets, x ∈ lists prec) (member : p ∈ lists prec) (absent : p ∉ packets)
    (frame : ∀ other < world.pq.numPrec, other ≠ prec → ∀ x ∈ lists other, link x = world.link x) :
    WellFormed (world.store (update link p none) prec
      { head := head, tail := tail, len := lenDec (world.pq.q prec).len, max := max }
      (lenDec world.pq.len) world.pq.hiPrec)
      (update lists prec packets) := by
  have shorter := valid.length_le inside
  have bounded := valid.total_le
  have whole : lenDec world.pq.len = world.pq.len - 1 := lenDec_eq (by omega) bounded
  have part : lenDec (world.pq.q prec).len = packets.length := by
    rw [valid.len_eq prec inside, lenDec_eq (by omega) (by omega)]
    omega
  refine valid.replace inside (spells.update_of_not_mem absent none) part ?_ ?_ ?_ ?_
  · intro other within different x present
    rw [update_of_ne, frame other within different x present]
    rintro rfl
    exact valid.apart prec inside other within different.symm member present
  · intro x present other within different
    exact valid.apart prec inside other within different.symm (subset x present)
  · omega
  · omega

theorem grow {head tail : Option Nat} {max : Nat} {added : Nat}
    (hiPrec : Nat) (spells : Spells link head tail packets)
    (count : packets.length = (lists prec).length + added)
    (origin : ∀ x ∈ packets, x ∈ lists prec ∨ Unqueued world.pq.numPrec lists x)
    (frame : ∀ other < world.pq.numPrec, other ≠ prec → ∀ x ∈ lists other, link x = world.link x)
    (fits : world.pq.len + added ≤ pktqLenMax) :
    WellFormed (world.store link prec
      { head := head, tail := tail, len := lenAdd (world.pq.q prec).len added, max := max }
      (lenAdd world.pq.len added) hiPrec) (update lists prec packets) := by
  have shorter := valid.length_le inside
  have whole : lenAdd world.pq.len added = world.pq.len + added := lenAdd_eq fits
  have part : lenAdd (world.pq.q prec).len added = packets.length := by
    rw [valid.len_eq prec inside, lenAdd_eq (by omega), count]
  refine valid.replace inside spells part frame ?_ (by omega) (by omega)
  intro x present other within different
  rcases origin x present with old | unqueued
  · exact valid.apart prec inside other within different.symm old
  · exact unqueued other within

theorem head_eq : (world.pq.q prec).head = (lists prec).head? := (valid.spells prec inside).head_eq

theorem tail_eq : (world.pq.q prec).tail = (lists prec).getLast? := (valid.spells prec inside).tail_eq

theorem append {list : Spktq} (spells : Spells world.link list.q.head list.q.tail packets)
    (counted : list.q.len = packets.length) (nonempty : packets ≠ [])
    (unqueued : ∀ p ∈ packets, Unqueued world.pq.numPrec lists p)
    (fits : world.pq.len + packets.length ≤ pktqLenMax) :
    WellFormed (pktqAppend world prec list).1 (update lists prec (lists prec ++ packets)):= by
  have here := valid.spells prec inside
  have count : (lists prec ++ packets).length = (lists prec).length + list.q.len := by
    simp [counted]
  have origin : ∀ x ∈ lists prec ++ packets,
      x ∈ lists prec ∨ Unqueued world.pq.numPrec lists x := by
    intro x present
    rcases List.mem_append.mp present with old | new
    · exact Or.inl old
    · exact Or.inr (unqueued x new)
  have hasHead : list.q.head ≠ none := by
    rw [spells.head_eq]
    simpa using nonempty
  have hasTail : list.q.tail ≠ none := by
    rw [spells.tail_eq]
    simpa using nonempty
  rw [← counted] at fits
  unfold pktqAppend
  rw [if_neg hasHead]
  cases tail : (lists prec).getLast? with
  | none =>
    have empty : lists prec = [] := List.getLast?_eq_none_iff.mp tail
    have noHead : (world.pq.q prec).head.isSome = false := by
      simp [valid.head_eq inside, empty]
    simp only [noHead, Bool.false_eq_true, if_false]
    refine valid.grow inside _ ?_ count origin (fun _ _ _ _ _ => rfl) fits
    simpa [empty] using spells
  | some last =>
    have member : last ∈ lists prec := List.mem_of_getLast? tail
    have hasHead : (world.pq.q prec).head.isSome = true := by
      rw [valid.head_eq inside]
      exact List.isSome_head?.mpr (List.ne_nil_of_mem member)
    have tailed : (world.pq.q prec).tail = some last := by rw [valid.tail_eq inside, tail]
    simp only [hasHead, if_true, tailed, pktSetLink]
    have joined := Spells.join (tailed ▸ here) spells
      (fun p old new => unqueued p new prec inside old)
    rw [if_neg hasTail] at joined
    exact valid.grow inside _ joined count origin (valid.frame_update inside (Or.inl member) _) fits

theorem penq (unlinked : world.link p = none) (unqueued : Unqueued world.pq.numPrec lists p)
    (fits : world.pq.len + 1 ≤ pktqLenMax) :
    WellFormed (pktqPenq world prec p) (update lists prec (lists prec ++ [p])) := by
  let list : Spktq := { q := { head := p, tail := p, len := 1, max := 0 }, len := 1 }
  have spliced : pktqPenq world prec p = (pktqAppend world prec list).1 := by
    simp [pktqPenq, pktqAppend, list]
  rw [spliced]
  refine valid.append inside (Spells.singleton unlinked) rfl (by simp) ?_ fits
  intro x member
  rw [List.mem_singleton.mp member]
  exact unqueued

theorem penqHead (unqueued : Unqueued world.pq.numPrec lists p) (fits : world.pq.len + 1 ≤ pktqLenMax) :
    WellFormed (pktqPenqHead world prec p) (update lists prec (p :: lists prec)) := by
  have pushed := (valid.spells prec inside).push (unqueued prec inside)
  refine valid.grow inside _ pushed (by simp) ?_ (valid.frame_update inside (Or.inr unqueued) _) fits
  intro x present
  rcases List.mem_cons.mp present with same | old
  · exact Or.inr (same ▸ unqueued)
  · exact Or.inl old

theorem prepend {list : Spktq} (spells : Spells world.link list.q.head list.q.tail packets)
    (counted : list.q.len = packets.length) (nonempty : packets ≠ [])
    (unqueued : ∀ p ∈ packets, Unqueued world.pq.numPrec lists p)
    (fits : world.pq.len + packets.length ≤ pktqLenMax) :
    WellFormed (pktqPrepend world prec list).1 (update lists prec (packets ++ lists prec)):= by
  have here := valid.spells prec inside
  have hasHead : list.q.head ≠ none := by
    rw [spells.head_eq]
    simpa using nonempty
  cases tail : packets.getLast? with
  | none => exact absurd (List.getLast?_eq_none_iff.mp tail) nonempty
  | some last =>
    have tailed : list.q.tail = some last := by rw [spells.tail_eq, tail]
    have joined := Spells.join (tailed ▸ spells) here
      (fun p new old => unqueued p new prec inside old)
    have loose := unqueued last (List.mem_of_getLast? tail)
    rw [← counted] at fits
    unfold pktqPrepend
    rw [if_neg hasHead]
    simp only [tailed, pktSetLink]
    refine valid.grow inside _ joined ?_ ?_ (valid.frame_update inside (Or.inr loose) _) fits
    · rw [List.length_append, counted, Nat.add_comm]
    · intro x present
      rcases List.mem_append.mp present with new | old
      · exact Or.inr (unqueued x new)
      · exact Or.inl old

theorem walk_enough (shorter : front.length ≤ (lists prec).length) : front.length < walkFuel := by
  have whole := valid.length_le inside
  have bounded := valid.total_le
  unfold walkFuel
  omega

theorem unlinkHead (shape : lists prec = p :: rest) :
    WellFormed (unlinkHead world prec p) (update lists prec rest) := by
  have here := valid.spells prec inside
  rw [shape] at here
  have absent : p ∉ rest := (List.nodup_cons.mp here.nodup).1
  refine valid.shrink inside _ here.pop (by simp [shape]) ?_ (by simp [shape]) absent
    (fun _ _ _ _ _ => rfl)
  intro x member
  simp [shape, member]

theorem unlinkAfter {prev : Nat} (shape : lists prec = front ++ prev :: p :: rest) :
    WellFormed (unlinkAfter world prec prev p) (update lists prec (front ++ prev :: rest)):= by
  have here := valid.spells prec inside
  rw [shape] at here
  have absent : p ∉ front ++ prev :: rest := by
    have nodup := here.nodup
    rw [List.nodup_append, List.nodup_cons, List.nodup_cons] at nodup
    obtain ⟨-, ⟨prevAbsent, restAbsent, -⟩, apart⟩ := nodup
    intro member
    rcases List.mem_append.mp member with early | late
    · exact apart p early p (by simp) rfl
    · rcases List.mem_cons.mp late with same | later
      · exact prevAbsent (by simp [same])
      · exact restAbsent later
  have prevMember : prev ∈ lists prec := by simp [shape]
  refine valid.shrink inside _ here.unlink (by simp [shape]; omega) ?_ (by simp [shape]) absent
    (valid.frame_update inside (Or.inl prevMember) _)
  intro x member
  rw [shape]
  rcases List.mem_append.mp member with early | late
  · simp [early]
  · rcases List.mem_cons.mp late with same | later
    · simp [same]
    · simp [later]

theorem takeHead_nil (empty : lists prec = []) : takeHead world prec = (world, none) := by
  have none : (world.pq.q prec).head = none := by simp [valid.head_eq inside, empty]
  simp [takeHead, none]

theorem takeHead_cons (shape : lists prec = p :: rest) :
    takeHead world prec = (PacketQueue.unlinkHead world prec p, some p) := by
  have first : (world.pq.q prec).head = some p := by simp [valid.head_eq inside, shape]
  simp [takeHead, first]

/-- The first matching packet leaves, wherever it stands. -/
theorem pdeqWithFn_cases (fn : Option (Nat → Bool)) :
    ((lists prec).find? (fnMatches fn) = none ∧ pktqPdeqWithFn world prec fn = some (world, none)) ∨
    ∃ p after, (lists prec).find? (fnMatches fn) = some p ∧
      pktqPdeqWithFn world prec fn = some (after, some p) ∧ SameBounds after world ∧
      WellFormed after (update lists prec ((lists prec).eraseP (fnMatches fn))) := by
  have here := valid.spells prec inside
  cases found : (lists prec).find? (fnMatches fn) with
  | none =>
    have passed := List.find?_eq_none.mp found
    have chain : Chain world.link (world.pq.q prec).head (lists prec ++ []) none := by
      simpa using here.chain
    have walked := walk_eq (fun p => p.elim true (fnMatches fn)) none chain
      (fun node member => by simpa using passed node member) rfl
      (valid.walk_enough inside le_rfl)
    refine Or.inl ⟨rfl, ?_⟩
    simp [pktqPdeqWithFn, walked]
  | some p =>
    obtain ⟨hit, front, rest, shape, missed⟩ := List.find?_eq_some_iff_append.mp found
    have missed : ∀ node ∈ front, fnMatches fn node = false := by simpa using missed
    have erased : (lists prec).eraseP (fnMatches fn) = front ++ rest := by
      rw [shape, List.eraseP_append_right _ (fun node member => by simp [missed node member]),
        List.eraseP_cons_of_pos hit]
    have chain := here.chain
    rw [shape] at chain
    have enough : front.length < walkFuel := valid.walk_enough inside (by simp [shape])
    have walked := walk_eq (fun p => p.elim true (fnMatches fn)) none chain missed hit enough
    refine Or.inr ⟨p, ?_⟩
    rw [erased]
    -- the head has no predecessor to relink
    rcases List.eq_nil_or_concat front with rfl | ⟨before, prev, rfl⟩
    · refine ⟨PacketQueue.unlinkHead world prec p, rfl, ?_, .unlinkHead .., ?_⟩
      · simp [pktqPdeqWithFn, walked]
      · simpa using valid.unlinkHead inside shape
    · have shape : lists prec = before ++ prev :: p :: rest := by simpa using shape
      refine ⟨PacketQueue.unlinkAfter world prec prev p, rfl, ?_, .unlinkAfter .., ?_⟩
      · simp [pktqPdeqWithFn, walked]
      · simpa using valid.unlinkAfter inside shape

/-- The packet is removed if the precedence holds it. -/
theorem pdel_cases (packet : Nat) :
    (packet ∉ lists prec ∧ pktqPdel world (some packet) prec = some (world, false)) ∨
    ∃ after, packet ∈ lists prec ∧ pktqPdel world (some packet) prec = some (after, true) ∧
      SameBounds after world ∧
      WellFormed after (update lists prec ((lists prec).erase packet)) := by
  have here := valid.spells prec inside
  by_cases member : packet ∈ lists prec
  · refine Or.inr ?_
    obtain ⟨front, rest, shape⟩ := List.append_of_mem member
    have nodup := here.nodup
    rw [shape, List.nodup_append] at nodup
    obtain ⟨-, -, apart⟩ := nodup
    have absent : packet ∉ front := fun early => apart packet early packet (by simp) rfl
    have erased : (lists prec).erase packet = front ++ rest := by
      rw [shape, List.erase_append_right _ absent, List.erase_cons_head]
    rw [erased]
    rcases List.eq_nil_or_concat front with rfl | ⟨before, prev, rfl⟩
    · have first : (world.pq.q prec).head = some packet := by simp [valid.head_eq inside, shape]
      refine ⟨PacketQueue.unlinkHead world prec packet, member, ?_, .unlinkHead .., ?_⟩
      · simp [pktqPdel, first]
      · simpa using valid.unlinkHead inside shape
    · have notFirst : (world.pq.q prec).head ≠ some packet := by
        rw [valid.head_eq inside, shape]
        intro first
        exact absent (List.mem_of_head? (by simpa using first))
      have shape : lists prec = before ++ prev :: packet :: rest := by simpa using shape
      have chain := here.chain
      rw [shape] at chain
      obtain ⟨middle, early, arrived, next, -⟩ := Chain.append_iff.mp chain
      -- no packet before the predecessor links to the packet
      have passed : ∀ node ∈ before, decide (world.link node = some packet) = false := by
        intro node inFront
        apply decide_eq_false
        intro leads
        rcases early.link_of_mem inFront with out | ⟨other, inside, leads'⟩
        · rw [out, arrived, Option.some.injEq] at leads
          exact absent (by simp [leads])
        · rw [leads', Option.some.injEq] at leads
          exact absent (by simp [← leads, inside])
      have enough : before.length < walkFuel := valid.walk_enough inside (by simp [shape])
      have walked := walk_eq
        (fun p => p.elim true fun node => decide (world.link node = some packet)) none chain passed
        (by simpa using next) enough
      refine ⟨PacketQueue.unlinkAfter world prec prev packet, member, ?_, .unlinkAfter .., ?_⟩
      · simp [pktqPdel, notFirst, walked]
      · simpa using valid.unlinkAfter inside shape
  · refine Or.inl ⟨member, ?_⟩
    have notFirst : (world.pq.q prec).head ≠ some packet := by
      rw [valid.head_eq inside]
      exact fun first => member (List.mem_of_head? first)
    have chain : Chain world.link (world.pq.q prec).head (lists prec ++ []) none := by
      simpa using here.chain
    have passed : ∀ node ∈ lists prec, decide (world.link node = some packet) = false := by
      intro node inList
      apply decide_eq_false
      intro leads
      rcases here.chain.link_of_mem inList with out | ⟨other, inside, leads'⟩
      · simp [out] at leads
      · rw [leads', Option.some.injEq] at leads
        exact member (leads ▸ inside)
    have walked := walk_eq
      (fun p => p.elim true fun node => decide (world.link node = some packet)) none chain passed rfl
      (valid.walk_enough inside le_rfl)
    simp [pktqPdel, notFirst, walked]

theorem takeTail_nil (empty : lists prec = []) : takeTail world prec = some (world, none) := by
  have none : (world.pq.q prec).head = none := by simp [valid.head_eq inside, empty]
  simp [takeTail, none]

/-- The last packet leaves with its link already clear. -/
theorem takeTail_concat (shape : lists prec = front ++ [p]) :
    ∃ after, takeTail world prec = some (after, some p) ∧ after.link p = none ∧
      SameBounds after world ∧ WellFormed after (update lists prec front) := by
  have here := valid.spells prec inside
  rw [shape] at here
  have absent : p ∉ front := by
    have := List.nodup_append.mp here.nodup
    exact fun early => this.2.2 p early p (by simp) rfl
  obtain ⟨middle, early, arrived, unlinked⟩ := Chain.append_iff.mp here.chain
  have tailed : (world.pq.q prec).tail = some p := by simp [valid.tail_eq inside, shape]
  have headed : (world.pq.q prec).head ≠ none := by simp [valid.head_eq inside, shape]
  have passed : ∀ node ∈ front, decide (some node = (world.pq.q prec).tail) = false := by
    intro node member
    rw [tailed]
    simpa using fun same : node = p => absent (same ▸ member)
  have enough : front.length < walkFuel := valid.walk_enough inside (by simp [shape])
  have walked := walk_eq (fun x => decide (x = (world.pq.q prec).tail)) none here.chain passed
    (by simp [tailed]) enough
  have count : (lists prec).length = front.length + 1 := by simp [shape]
  have subset : ∀ x ∈ front, x ∈ lists prec := fun x member => by simp [shape, member]
  have member : p ∈ lists prec := by simp [shape]
  unfold takeTail
  rw [if_neg headed, walked]
  rcases List.eq_nil_or_concat front with rfl | ⟨before, prev, rfl⟩
  · have clear : update world.link p none = world.link := by
      rw [← show world.link p = none from unlinked, update_eq_self]
    refine ⟨_, rfl, unlinked, .store .., ?_⟩
    have shrunk := valid.shrink inside (world.pq.q prec).max Spells.empty count subset member
      absent (fun _ _ _ _ _ => rfl)
    rwa [clear] at shrunk
  · have shape : lists prec = before ++ prev :: p :: [] := by simpa using shape
    have spells := valid.spells prec inside
    rw [shape] at spells
    have shorter := spells.unlink
    rw [if_pos tailed, show world.link p = none from unlinked] at shorter
    have different : p ≠ prev := fun same => absent (by simp [same])
    have cleared : update world.link prev none p = none := by
      rw [update_of_ne different]
      exact unlinked
    have clear : update (update world.link prev none) p none =
        update world.link prev none := by
      nth_rewrite 2 [← cleared]
      rw [update_eq_self]
    have prevMember : prev ∈ lists prec := by simp [shape]
    refine ⟨world.store (update world.link prev none) prec
      { world.pq.q prec with tail := some prev, len := lenDec (world.pq.q prec).len }
      (lenDec world.pq.len) world.pq.hiPrec, ?_, cleared, .store .., ?_⟩
    · simp [pktSetLink]
    · have shrunk := valid.shrink inside (world.pq.q prec).max shorter (by simpa using count)
        (fun x present => subset x (by simpa using present)) member (by simpa using absent)
        (valid.frame_update inside (Or.inl prevMember) none)
      rw [clear] at shrunk
      simpa using shrunk

end WellFormed

end BcmDhd.PacketQueue
