import BcmDhd.PacketQueue.Representation

namespace BcmDhd.PacketQueue

open BcmDhd.Lib Function

variable {lists : Nat → List Nat} {world : PktqWorld} {prec prev : Nat}

/-- The packets that a flush leaves. -/
def survivors (fn : Option (Nat → Bool)) (packets : List Nat) : List Nat :=
  packets.filter fun p => !fnMatches fn p

/-- What the loop of a flush has done when it ends: the survivors are linked in
their old order, the others are unlinked and freed. -/
structure Flushed (fn : Option (Nat → Bool)) (kept remaining : List Nat) (before after : FlushState) :
    Prop where
  chain : Chain after.link after.head (kept ++ survivors fn remaining) none
  freed : after.freed = before.freed ++ remaining.filter (fnMatches fn)
  len : after.len = before.len - (remaining.filter (fnMatches fn)).length
  total : after.total = before.total - (remaining.filter (fnMatches fn)).length
  frame : ∀ p ∉ kept ++ remaining, after.link p = before.link p

/-- The loop invariant: `kept` has been passed, `prev` is its last packet, and
`p` is the first of the `remaining` ones. -/
structure Flushing (kept remaining : List Nat) (state : FlushState) : Prop where
  chain : Chain state.link state.head (kept ++ remaining) none
  nodup : (kept ++ remaining).Nodup
  current : state.p = remaining.head?
  previous : kept ≠ [] → state.prev = kept.getLast?

namespace Flushing

variable {kept rest : List Nat} {p : Nat} {state : FlushState}

theorem pass (flushing : Flushing kept (p :: rest) state) :
    Flushing (kept ++ [p]) rest (flushPass state p) := by
  obtain ⟨middle, early, arrived, later⟩ := Chain.append_iff.mp flushing.chain
  refine ⟨?_, ?_, later.start_eq, ?_⟩
  · simpa [flushPass] using flushing.chain
  · simpa using flushing.nodup
  · intro _
    simp [flushPass]

theorem drop_head (flushing : Flushing [] (p :: rest) state) :
    Flushing [] rest (flushDrop state p) ∧ ∀ x, x ≠ p → (flushDrop state p).link x = state.link x := by
  obtain ⟨here, later⟩ := flushing.chain
  have absent : p ∉ rest := (List.nodup_cons.mp flushing.nodup).1
  refine ⟨⟨?_, ?_, ?_, fun some => absurd rfl some⟩, ?_⟩
  · simpa [flushDrop, here, pktSetLink] using later.update_of_not_mem absent none
  · exact (List.nodup_cons.mp flushing.nodup).2
  · simpa [flushDrop, here] using later.start_eq
  · intro x different
    simp [flushDrop, here, pktSetLink, different]

/-- Otherwise the predecessor is relinked, and read again for the next packet. -/
theorem drop_after {before : List Nat} (flushing : Flushing (before ++ [prev]) (p :: rest) state) :
    Flushing (before ++ [prev]) rest (flushDrop state p) ∧
      ∀ x, x ≠ p → x ≠ prev → (flushDrop state p).link x = state.link x := by
  have chain : Chain state.link state.head (before ++ prev :: p :: rest) none := by
    simpa using flushing.chain
  have nodup : (before ++ prev :: p :: rest).Nodup := by simpa using flushing.nodup
  have shorter := chain.unlink nodup
  obtain ⟨-, -, -, -, later⟩ := Chain.append_iff.mp chain
  rw [List.nodup_append, List.nodup_cons, List.nodup_cons] at nodup
  obtain ⟨beforeNodup, ⟨prevAbsent, absent, restNodup⟩, apart⟩ := nodup
  have different : prev ≠ p := fun same => prevAbsent (by simp [same])
  have notBefore : p ∉ before := fun early => apart p early p (by simp) rfl
  have notHead : state.head ≠ some p := by
    rw [chain.start_eq]
    cases before with
    | nil => simpa using different
    | cons first more => simpa using fun same : first = p => notBefore (by simp [same])
  have previous : state.prev = some prev := by simpa using flushing.previous (by simp)
  refine ⟨⟨?_, ?_, ?_, ?_⟩, ?_⟩
  · have gone : p ∉ before ++ prev :: rest := by simp [notBefore, absent, different.symm]
    have unlinked := shorter.update_of_not_mem gone none
    simpa [flushDrop, notHead, previous, pktSetLink] using unlinked
  · rw [List.append_assoc, List.singleton_append, List.nodup_append, List.nodup_cons]
    refine ⟨beforeNodup, ⟨fun late => prevAbsent (by simp [late]), restNodup⟩, ?_⟩
    intro x early y late
    rcases List.mem_cons.mp late with same | later
    · exact apart x early y (by simp [same])
    · exact apart x early y (by simp [later])
  · simpa [flushDrop, notHead, previous, pktSetLink, different] using later.start_eq
  · intro _
    simpa [flushDrop] using previous
  · intro x notP notPrev
    simp [flushDrop, notHead, previous, pktSetLink, notP, notPrev]

theorem drop (flushing : Flushing kept (p :: rest) state) :
    Flushing kept rest (flushDrop state p) ∧
      ∀ x ∉ kept ++ p :: rest, (flushDrop state p).link x = state.link x := by
  rcases List.eq_nil_or_concat kept with rfl | ⟨before, prev, rfl⟩
  · obtain ⟨next, frame⟩ := flushing.drop_head
    exact ⟨next, fun x outside => frame x fun same => outside (by simp [same])⟩
  · rw [List.concat_eq_append] at flushing ⊢
    obtain ⟨next, frame⟩ := flushing.drop_after
    refine ⟨next, fun x outside => frame x ?_ ?_⟩
    · exact fun same => outside (by simp [same])
    · exact fun same => outside (by simp [same])

end Flushing

/-- The loop ends within its fuel, having dropped the matching packets. -/
theorem pflushLoop_eq (fn : Option (Nat → Bool)) {kept remaining : List Nat} {state : FlushState}
    {fuel : Nat} (flushing : Flushing kept remaining state) (enough : remaining.length < fuel)
    (counted : remaining.length ≤ state.len ∧ state.len ≤ pktqLenMax)
    (totalled : remaining.length ≤ state.total ∧ state.total ≤ pktqLenMax) :
    ∃ done, pflushLoop fn fuel state = some done ∧ Flushed fn kept remaining state done := by
  induction remaining generalizing kept state fuel with
  | nil =>
    obtain ⟨more, rfl⟩ := Nat.exists_eq_add_of_lt enough
    have ended : state.p = none := flushing.current
    refine ⟨state, by simp [pflushLoop, ended], ?_, by simp, by simp, by simp, fun _ _ => rfl⟩
    simpa [survivors] using flushing.chain
  | cons p rest ih =>
    cases fuel with
    | zero => simp at enough
    | succ fuel =>
      have current : state.p = some p := flushing.current
      have shorter : rest.length < fuel := by simpa using enough
      simp only [List.length_cons] at counted totalled
      simp only [pflushLoop, current]
      cases hit : fnMatches fn p with
      | true =>
        obtain ⟨next, frame⟩ := flushing.drop
        have len : lenDec state.len = state.len - 1 := lenDec_eq (by omega) counted.2
        have total : lenDec state.total = state.total - 1 := lenDec_eq (by omega) totalled.2
        obtain ⟨done, result, flushed⟩ := ih next shorter
          (by simp only [flushDrop, len]; omega) (by simp only [flushDrop, total]; omega)
        refine ⟨done, result, ?_, ?_, ?_, ?_, ?_⟩
        · simpa [survivors, hit] using flushed.chain
        · simpa [flushDrop, hit] using flushed.freed
        · rw [flushed.len]
          simp only [flushDrop, len, List.filter_cons, hit, if_true, List.length_cons]
          omega
        · rw [flushed.total]
          simp only [flushDrop, total, List.filter_cons, hit, if_true, List.length_cons]
          omega
        · intro x outside
          rw [flushed.frame x (fun member => outside (by
            rcases List.mem_append.mp member with early | late
            · simp [early]
            · simp [late])), frame x outside]
      | false =>
        obtain ⟨done, result, flushed⟩ := ih flushing.pass shorter
          (by simp only [flushPass]; omega) (by simp only [flushPass]; omega)
        refine ⟨done, result, ?_, ?_, ?_, ?_, ?_⟩
        · simpa [survivors, hit] using flushed.chain
        · simpa [flushPass, hit] using flushed.freed
        · simpa [flushPass, hit] using flushed.len
        · simpa [flushPass, hit] using flushed.total
        · intro x outside
          exact flushed.frame x (by simpa using outside)

/-- The queue with every tail pointer set to where its list ends. -/
def repairTails (world : PktqWorld) (lists : Nat → List Nat) : PktqWorld :=
  { world with
    pq := { world.pq with
      q := fun prec => { world.pq.q prec with tail := (lists prec).getLast? } } }

theorem wellFormed_iff_repaired :
    WellFormed world lists ↔ WellFormed (repairTails world lists) lists ∧
      ∀ prec < world.pq.numPrec, (world.pq.q prec).tail = (lists prec).getLast? := by
  constructor
  · intro valid
    refine ⟨⟨?_, valid.len_eq, valid.apart, valid.total_eq, valid.total_le⟩, ?_⟩
    · intro prec inside
      obtain ⟨chain, -, nodup⟩ := valid.spells prec inside
      exact ⟨chain, rfl, nodup⟩
    · exact fun prec inside => valid.tail_eq inside
  · intro ⟨repaired, tails⟩
    refine ⟨?_, repaired.len_eq, repaired.apart, repaired.total_eq, repaired.total_le⟩
    intro prec inside
    obtain ⟨chain, -, nodup⟩ := repaired.spells prec inside
    exact ⟨chain, tails prec inside, nodup⟩

/-- The lists after a flush of one precedence. -/
def flushOne (fn : Option (Nat → Bool)) (lists : Nat → List Nat) (prec : Nat) : Nat → List Nat :=
  update lists prec (survivors fn (lists prec))

/-- The tail that a flush of one precedence leaves. -/
def tailLeft (fn : Option (Nat → Bool)) (packets : List Nat) (tail : Option Nat) : Option Nat :=
  if survivors fn packets = [] then none else tail

/-- Whatever the tails are, a flush is right up to the tails. -/
theorem pflush_spec
    (repaired : WellFormed (repairTails world lists) lists) (inside : prec < world.pq.numPrec)
    (fn : Option (Nat → Bool)) :
    ∃ after, pktqPflush world prec fn = some (after, (lists prec).filter (fnMatches fn)) ∧
      WellFormed (repairTails after (flushOne fn lists prec)) (flushOne fn lists prec) ∧
      after.pq.numPrec = world.pq.numPrec ∧
      ∀ other, (after.pq.q other).tail =
        if other = prec then tailLeft fn (lists prec) (world.pq.q prec).tail
        else (world.pq.q other).tail := by
  have chain : Chain world.link (world.pq.q prec).head (lists prec) none :=
    (repaired.spells prec inside).chain
  have nodup : (lists prec).Nodup := (repaired.spells prec inside).nodup
  have len : (world.pq.q prec).len = (lists prec).length := repaired.len_eq prec inside
  have shorter : (lists prec).length ≤ world.pq.len := repaired.length_le inside
  have bounded : world.pq.len ≤ pktqLenMax := repaired.total_le
  have flushing : Flushing [] (lists prec) (flushStart world prec) :=
    ⟨chain, nodup, chain.start_eq, fun some => absurd rfl some⟩
  obtain ⟨done, result, flushed⟩ := pflushLoop_eq fn flushing
    (repaired.walk_enough inside le_rfl) (by simp only [flushStart]; omega)
    (by simp only [flushStart]; omega)
  have parts := List.length_eq_length_filter_add (l := lists prec) (fnMatches fn)
  have counted : done.len = (survivors fn (lists prec)).length := by
    rw [flushed.len]
    simp only [flushStart, survivors]
    omega
  have summed : done.total + (lists prec).length =
      world.pq.len + (survivors fn (lists prec)).length := by
    rw [flushed.total]
    simp only [flushStart, survivors]
    omega
  have ended : done.head = none ↔ survivors fn (lists prec) = [] := by
    rw [flushed.chain.start_eq]
    simp
  have same : repairTails (flushStore world prec done) (flushOne fn lists prec) =
      (repairTails world lists).store done.link prec
        { world.pq.q prec with
          head := done.head, tail := (survivors fn (lists prec)).getLast?, len := done.len }
        done.total world.pq.hiPrec := by
    simp only [repairTails, flushStore, PktqWorld.store, PktqWorld.mk.injEq, Pktq.mk.injEq, true_and,
      and_true]
    funext other
    by_cases here : other = prec
    · subst other
      simp [flushOne]
    · simp [flushOne, here]
  have mended : WellFormed (repairTails (flushStore world prec done) (flushOne fn lists prec))
      (flushOne fn lists prec) := by
    rw [same]
    refine repaired.replace inside ⟨flushed.chain, rfl, nodup.filter _⟩ counted ?_ ?_ summed ?_
    · intro other within different p member
      apply flushed.frame
      exact fun here => repaired.apart prec inside other within different.symm here member
    · intro p left other within different
      exact repaired.apart prec inside other within different.symm (List.mem_of_mem_filter left)
    · simp only [survivors] at summed
      omega
  refine ⟨flushStore world prec done, ?_, mended, rfl, ?_⟩
  · unfold pktqPflush
    rw [result]
    simp only [flushed.freed]
    rfl
  · intro other
    by_cases here : other = prec
    · subst other
      simp [flushStore, PktqWorld.store, tailLeft, ended]
    · simp [flushStore, PktqWorld.store, here]

/-- The tail stays right exactly when every packet is dropped or the last one
is kept. -/
theorem tailLeft_eq_iff (fn : Option (Nat → Bool)) (packets : List Nat) :
    tailLeft fn packets packets.getLast? = (survivors fn packets).getLast? ↔
      (∀ p ∈ packets, fnMatches fn p = true) ∨ ∀ p ∈ packets.getLast?, fnMatches fn p = false := by
  have gone : survivors fn packets = [] ↔ ∀ p ∈ packets, fnMatches fn p = true := by
    simp [survivors]
  unfold tailLeft
  by_cases none : survivors fn packets = []
  · rw [if_pos none, none]
    simp only [List.getLast?_nil, true_iff]
    exact Or.inl (gone.mp none)
  · rw [if_neg none]
    constructor
    · intro same
      refine Or.inr fun p last => ?_
      rw [same] at last
      have kept := (List.mem_filter.mp (List.mem_of_getLast? last)).2
      simpa using kept
    · intro kept
      have lastKept := kept.resolve_left fun all => none (gone.mpr all)
      rcases List.eq_nil_or_concat packets with rfl | ⟨front, last, rfl⟩
      · rfl
      · rw [List.concat_eq_append] at lastKept ⊢
        have unmatched : fnMatches fn last = false := lastKept last (by simp)
        simp [survivors, unmatched]

/-- The lists after a flush of several precedences. -/
def flushAll (fn : Option (Nat → Bool)) (lists : Nat → List Nat) (precs : List Nat) :
    Nat → List Nat :=
  fun prec => if prec ∈ precs then survivors fn (lists prec) else lists prec

theorem flushAll_nil (fn : Option (Nat → Bool)) (lists : Nat → List Nat) :
    flushAll fn lists [] = lists := by
  funext prec
  simp [flushAll]

theorem flushAll_cons (fn : Option (Nat → Bool)) (lists : Nat → List Nat)
    {precs : List Nat} (absent : prec ∉ precs) :
    flushAll fn (flushOne fn lists prec) precs = flushAll fn lists (prec :: precs) := by
  funext other
  by_cases here : other = prec
  · subst other
    simp [flushAll, flushOne, absent]
  · simp [flushAll, flushOne, here]

theorem flushPrecs_spec (fn : Option (Nat → Bool)) {precs : List Nat} (nodup : precs.Nodup) (freed : List Nat)
    (repaired : WellFormed (repairTails world lists) lists)
    (inside : ∀ prec ∈ precs, prec < world.pq.numPrec) :
    ∃ after, flushPrecs fn precs (world, freed) =
        some (after, freed ++ precs.flatMap fun prec => (lists prec).filter (fnMatches fn)) ∧
      WellFormed (repairTails after (flushAll fn lists precs)) (flushAll fn lists precs) ∧
      after.pq.numPrec = world.pq.numPrec ∧
      ∀ prec, (after.pq.q prec).tail =
        if prec ∈ precs then tailLeft fn (lists prec) (world.pq.q prec).tail
        else (world.pq.q prec).tail := by
  induction precs generalizing world lists freed with
  | nil =>
    refine ⟨world, by simp [flushPrecs], ?_, rfl, by simp⟩
    rwa [flushAll_nil]
  | cons prec precs ih =>
    obtain ⟨absent, restNodup⟩ := List.nodup_cons.mp nodup
    obtain ⟨next, result, nextRepaired, numPrec, tails⟩ :=
      pflush_spec repaired (inside prec (by simp)) fn
    obtain ⟨after, rest, afterRepaired, restNumPrec, restTails⟩ := ih restNodup
      (freed ++ (lists prec).filter (fnMatches fn)) nextRepaired
      (fun other member => numPrec ▸ inside other (by simp [member]))
    -- a precedence still to come keeps its own packets
    have later : ∀ other ∈ precs, flushOne fn lists prec other = lists other := by
      intro other member
      have different : other ≠ prec := fun same => absent (same ▸ member)
      simp [flushOne, different]
    refine ⟨after, ?_, ?_, restNumPrec.trans numPrec, ?_⟩
    · simp only [flushPrecs, result, rest, List.flatMap_cons, List.append_assoc]
      congr 4
      apply List.flatMap_congr
      intro other member
      rw [later other member]
    · rwa [flushAll_cons fn lists absent] at afterRepaired
    · intro other
      rw [restTails other, tails other]
      by_cases member : other ∈ precs
      · have different : other ≠ prec := fun same => absent (same ▸ member)
        simp [member, different, later other member]
      · by_cases here : other = prec
        · subst other
          simp [absent]
        · simp [member, here]

/-- The list without the packet after `prev`. -/
def eraseAfter (prev : Nat) : List Nat → List Nat
  | first :: second :: rest =>
    if first = prev then first :: rest else first :: eraseAfter prev (second :: rest)
  | packets => packets

theorem eraseAfter_last {front : List Nat} (absent : prev ∉ front) :
    eraseAfter prev (front ++ [prev]) = front ++ [prev] := by
  induction front with
  | nil => rfl
  | cons first rest ih =>
    have different : first ≠ prev := fun same => absent (by simp [same])
    have shorter := ih fun member => absent (by simp [member])
    cases rest with
    | nil => simp [eraseAfter, different]
    | cons second more =>
      rw [List.cons_append, List.cons_append, eraseAfter, if_neg different]
      rw [List.cons_append] at shorter
      rw [shorter]

theorem eraseAfter_mid {p : Nat} {front rest : List Nat} (absent : prev ∉ front) :
    eraseAfter prev (front ++ prev :: p :: rest) = front ++ prev :: rest := by
  induction front with
  | nil => simp [eraseAfter]
  | cons first more ih =>
    have different : first ≠ prev := fun same => absent (by simp [same])
    have shorter := ih fun member => absent (by simp [member])
    cases more with
    | nil => simp [eraseAfter, different]
    | cons second others =>
      rw [List.cons_append, List.cons_append, eraseAfter, if_neg different]
      rw [List.cons_append] at shorter
      rw [shorter]
      rfl

/-- The lists after the packet behind `prevP` is gone. -/
def unlinkedLists (lists : Nat → List Nat) (prec : Nat) (prevP : Option Nat) : Nat → List Nat :=
  match prevP with
  | none => lists
  | some prev => update lists prec (eraseAfter prev (lists prec))

/-- The removed packet is not the last of its list. -/
def NotLast (world : PktqWorld) (prec : Nat) (prevP : Option Nat) : Prop :=
  ∀ p ∈ prevP.bind world.link, (world.pq.q prec).tail ≠ some p

theorem pdeqPrev_iff
    (valid : WellFormed world lists) (inside : prec < world.pq.numPrec) {prevP : Option Nat}
    (queued : ∀ prev ∈ prevP, prev ∈ lists prec) :
    WellFormed (pktqPdeqPrev world prec prevP).1 (unlinkedLists lists prec prevP) ↔
      NotLast world prec prevP := by
  cases prevP with
  | none => simp [pktqPdeqPrev, unlinkedLists, NotLast, valid]
  | some prev =>
    obtain ⟨front, back, shape⟩ := List.append_of_mem (queued prev rfl)
    have spells := valid.spells prec inside
    rw [shape] at spells
    have absent : prev ∉ front := by
      have := List.nodup_append.mp spells.nodup
      exact fun early => this.2.2 prev early prev (by simp) rfl
    obtain ⟨middle, early, arrived, later⟩ := Chain.append_iff.mp spells.chain
    cases back with
    | nil =>
      have ended : world.link prev = none := later
      have same : update lists prec (front ++ [prev]) = lists := by
        rw [← shape, update_eq_self]
      simp [pktqPdeqPrev, unlinkedLists, NotLast, ended, shape, eraseAfter_last absent, same, valid]
    | cons p rest =>
      have next : world.link prev = some p := later.1
      have lists' : unlinkedLists lists prec (some prev) =
          update lists prec (front ++ prev :: rest) := by
        simp [unlinkedLists, shape, eraseAfter_mid absent]
      have condition : NotLast world prec (some prev) ↔ (world.pq.q prec).tail ≠ some p := by
        simp [NotLast, next]
      rw [lists', condition]
      constructor
      · intro after last
        have numPrec : (pktqPdeqPrev world prec (some prev)).1.pq.numPrec = world.pq.numPrec := by
          simp [pktqPdeqPrev, next, PktqWorld.store]
        have tail := after.tail_eq (numPrec.symm ▸ inside)
        have kept : ((pktqPdeqPrev world prec (some prev)).1.pq.q prec).tail = some p := by
          simpa [pktqPdeqPrev, next, PktqWorld.store] using last
        rw [kept, update_self] at tail
        have left : p ∈ front ++ prev :: rest := List.mem_of_getLast? tail.symm
        have nodup := spells.nodup
        rw [show front ++ prev :: p :: rest = (front ++ [prev]) ++ p :: rest by simp,
          List.nodup_middle, List.nodup_cons] at nodup
        exact nodup.1 (by simpa using left)
      · intro notLast
        have unlinked := valid.unlinkAfter inside shape
        simpa [pktqPdeqPrev, next, unlinkAfter, notLast] using unlinked

/-- A later enqueue at any tail is reached by dequeuing. -/
def Enqueueable (world : PktqWorld) (lists : Nat → List Nat) : Prop :=
  ∀ prec < world.pq.numPrec, ∀ p, world.link p = none → Unqueued world.pq.numPrec lists p →
    world.pq.len + 1 ≤ pktqLenMax →
    WellFormed (pktqPenq world prec p) (update lists prec (lists prec ++ [p]))

/-- A call has left a well formed queue with the given lists, and it can be used on. -/
def LeavesQueue (after : PktqWorld) (lists : Nat → List Nat) : Prop :=
  WellFormed after lists ∧ Enqueueable after lists

theorem leavesQueue_iff {after : PktqWorld} :
    LeavesQueue after lists ↔ WellFormed after lists := by
  refine ⟨And.left, fun valid => ⟨valid, ?_⟩⟩
  intro prec inside p unlinked unqueued fits
  exact valid.penq inside unlinked unqueued fits

/-- Every packet of the list matches, or the last one does not. -/
def LastKept (fn : Option (Nat → Bool)) (packets : List Nat) : Prop :=
  (∀ p ∈ packets, fnMatches fn p = true) ∨ ∀ p ∈ packets.getLast?, fnMatches fn p = false

theorem pflush_iff (valid : WellFormed world lists) (inside : prec < world.pq.numPrec)
    (fn : Option (Nat → Bool)) :
    ∃ after, pktqPflush world prec fn = some (after, (lists prec).filter (fnMatches fn)) ∧
      (WellFormed after (flushOne fn lists prec) ↔ LastKept fn (lists prec)) := by
  obtain ⟨repaired, oldTails⟩ := wellFormed_iff_repaired.mp valid
  obtain ⟨after, result, mended, numPrec, tails⟩ := pflush_spec repaired inside fn
  refine ⟨after, result, ?_⟩
  rw [wellFormed_iff_repaired, LastKept, ← tailLeft_eq_iff]
  have here := tails prec
  rw [if_pos rfl, oldTails prec inside] at here
  constructor
  · intro ⟨_, newTails⟩
    rw [← here, newTails prec (numPrec ▸ inside), flushOne, update_self]
  · intro kept
    refine ⟨mended, fun other within => ?_⟩
    by_cases same : other = prec
    · subst other
      rw [here, kept, flushOne, update_self]
    · rw [tails other, if_neg same, flushOne, update_of_ne same]
      exact oldTails other (numPrec ▸ within)

/-- The packets that a flush of the whole queue frees. -/
def flushFreed (fn : Option (Nat → Bool)) (lists : Nat → List Nat) (numPrec : Nat) : List Nat :=
  (List.range numPrec).flatMap fun prec => (lists prec).filter (fnMatches fn)

theorem flush_iff (valid : WellFormed world lists) (fn : Option (Nat → Bool)) :
    ∃ after, pktqFlush world fn = some (after, flushFreed fn lists world.pq.numPrec) ∧
      (WellFormed after (flushAll fn lists (List.range world.pq.numPrec)) ↔
        ∀ prec < world.pq.numPrec, LastKept fn (lists prec)) := by
  obtain ⟨repaired, oldTails⟩ := wellFormed_iff_repaired.mp valid
  unfold pktqFlush
  by_cases empty : world.pq.len = 0
  · -- nothing is queued, and nothing is done
    have none : ∀ prec < world.pq.numPrec, lists prec = [] := by
      intro prec inside
      have shorter := valid.length_le inside
      exact List.eq_nil_of_length_eq_zero (by omega)
    have same : flushAll fn lists (List.range world.pq.numPrec) = lists := by
      funext prec
      by_cases inside : prec < world.pq.numPrec
      · simp [flushAll, inside, none prec inside, survivors]
      · simp [flushAll, inside]
    have nothing : flushFreed fn lists world.pq.numPrec = [] := by
      apply List.flatMap_eq_nil_iff.mpr
      intro prec member
      simp [none prec (List.mem_range.mp member)]
    rw [if_pos empty, same, nothing]
    refine ⟨world, rfl, ⟨fun _ prec inside => Or.inl ?_, fun _ => valid⟩⟩
    simp [none prec inside]
  · obtain ⟨after, result, mended, numPrec, tails⟩ := flushPrecs_spec fn
      List.nodup_range [] repaired (fun prec member => List.mem_range.mp member)
    rw [if_neg empty]
    refine ⟨after, result, ?_⟩
    rw [wellFormed_iff_repaired]
    have flushed : ∀ prec < world.pq.numPrec, ((after.pq.q prec).tail =
        (flushAll fn lists (List.range world.pq.numPrec) prec).getLast? ↔
        LastKept fn (lists prec)) := by
      intro prec inside
      rw [LastKept, ← tailLeft_eq_iff, tails prec, if_pos (List.mem_range.mpr inside),
        oldTails prec inside, flushAll, if_pos (List.mem_range.mpr inside)]
    constructor
    · intro ⟨_, newTails⟩ prec inside
      exact (flushed prec inside).mp (newTails prec (numPrec ▸ inside))
    · intro kept
      refine ⟨mended, fun prec inside => ?_⟩
      rw [numPrec] at inside
      exact (flushed prec inside).mpr (kept prec inside)

/-- A flush frees the matching packets and keeps the queue well formed exactly
when no list ends in a matching packet behind a survivor; unlinking behind a
packet does so exactly when it does not remove the last one. -/
theorem pktq_filtered_removal_iff (world : PktqWorld) (lists : Nat → List Nat)
    (valid : WellFormed world lists) (prec : Nat) (inside : prec < world.pq.numPrec)
    (fn : Option (Nat → Bool)) (prevP : Option Nat) (queued : ∀ prev ∈ prevP, prev ∈ lists prec) :
    ((∃ after, pktqPflush world prec fn = some (after, (lists prec).filter (fnMatches fn)) ∧
        LeavesQueue after (flushOne fn lists prec)) ↔ LastKept fn (lists prec)) ∧
      ((∃ after, pktqFlush world fn = some (after, flushFreed fn lists world.pq.numPrec) ∧
        LeavesQueue after (flushAll fn lists (List.range world.pq.numPrec))) ↔
          ∀ other < world.pq.numPrec, LastKept fn (lists other)) ∧
      (LeavesQueue (pktqPdeqPrev world prec prevP).1 (unlinkedLists lists prec prevP) ↔
        NotLast world prec prevP) := by
  obtain ⟨afterOne, resultOne, iffOne⟩ := pflush_iff valid inside fn
  obtain ⟨afterAll, resultAll, iffAll⟩ := flush_iff valid fn
  refine ⟨?_, ?_, ?_⟩
  · simp only [leavesQueue_iff, resultOne, Option.some.injEq, Prod.mk.injEq, and_true,
      exists_eq_left', iffOne]
  · simp only [leavesQueue_iff, resultAll, Option.some.injEq, Prod.mk.injEq, and_true,
      exists_eq_left', iffAll]
  · rw [leavesQueue_iff]
    exact pdeqPrev_iff valid inside queued

/-- Packets 1, 2 and 3 at the only precedence. -/
def threePackets : PktqWorld where
  pq :=
    { numPrec := 1, hiPrec := 0, max := 8, len := 3,
      q := fun _ => { head := some 1, tail := some 3, len := 3, max := 8 } }
  link p := if p = 1 then some 2 else if p = 2 then some 3 else none

def threeLists (prec : Nat) : List Nat := if prec = 0 then [1, 2, 3] else []

theorem threePackets_wellFormed : WellFormed threePackets threeLists where
  spells prec inside := by
    obtain rfl : prec = 0 := Nat.lt_one_iff.mp inside
    decide
  len_eq prec inside := by
    obtain rfl : prec = 0 := Nat.lt_one_iff.mp inside
    rfl
  apart first firstIn second secondIn different := by
    rw [Nat.lt_one_iff.mp firstIn, Nat.lt_one_iff.mp secondIn] at different
    exact absurd rfl different
  total_eq := rfl
  total_le := by decide

/-- Dropping a packet in the middle is harmless. -/
theorem pktq_filtered_removal_iff_middle :
    ∃ after, pktqPflush threePackets 0 (some (· == 2)) =
        some (after, (threeLists 0).filter (fnMatches (some (· == 2)))) ∧
      LeavesQueue after (flushOne (some (· == 2)) threeLists 0) :=
  (pktq_filtered_removal_iff threePackets threeLists threePackets_wellFormed 0 (by decide)
    (some (· == 2)) none (by simp)).1.mpr (Or.inr (by simp [threeLists, fnMatches]))

/-- Dropping the last packet leaves the tail pointer on it, and the packet
enqueued next is never reached. -/
theorem pktq_flush_of_last_packet_breaks_tail :
    WellFormed threePackets threeLists ∧
      ¬ (∃ after, pktqPflush threePackets 0 (some (· == 3)) =
          some (after, (threeLists 0).filter (fnMatches (some (· == 3)))) ∧
        LeavesQueue after (flushOne (some (· == 3)) threeLists 0)) ∧
      (pktqPflush threePackets 0 (some (· == 3))).map (fun (after, _) =>
        let used := pktqPenq after 0 4
        let (once, first) := pktqPdeq used 0
        let (twice, second) := pktqPdeq once 0
        ((after.pq.q 0).tail, first, second, (pktqPdeq twice 0).2)) =
          some (some 3, some 1, some 2, none) := by
  refine ⟨threePackets_wellFormed, ?_, by decide⟩
  have inside : 0 < threePackets.pq.numPrec := by decide
  obtain ⟨after, result, criterion⟩ := pflush_iff threePackets_wellFormed inside (some (· == 3))
  rintro ⟨after', result', left⟩
  rw [result, Option.some.injEq, Prod.mk.injEq] at result'
  obtain ⟨rfl, -⟩ := result'
  have kept := criterion.mp left.1
  simp [LastKept, threeLists, fnMatches] at kept

end BcmDhd.PacketQueue
