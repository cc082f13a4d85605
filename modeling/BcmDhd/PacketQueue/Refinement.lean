import BcmDhd.PacketQueue.ListSpec

namespace BcmDhd.PacketQueue

open BcmDhd.Lib Function

variable {packets : List Nat}

/-- The queue spells the lists, and `hi_prec` bounds the non-empty ones. -/
structure Represents (world : PktqWorld) (spec : PktqSpec) : Prop where
  numPrec_eq : world.pq.numPrec = spec.numPrec
  wellFormed : WellFormed world spec.lists
  few : world.pq.numPrec ≤ pktqMaxPrec
  max_le : world.pq.max ≤ pktqLenMax
  hi_lt : world.pq.hiPrec < world.pq.numPrec
  hi : ∀ prec < world.pq.numPrec, spec.lists prec ≠ [] → prec ≤ world.pq.hiPrec

theorem scanDown_eq (found : Nat → Bool) (prec : Nat) :
    scanDown found prec = ((List.range (prec + 1)).filter found).getLast? := by
  induction prec with
  | zero => by_cases here : found 0 <;> simp [scanDown, here]
  | succ prec ih =>
    rw [List.range_succ, List.filter_append, scanDown]
    by_cases here : found (prec + 1)
    · simp [here]
    · simp [here, ih]

theorem lowerHiPrec_eq (q : Nat → PktqPrec) (prec : Nat) :
    lowerHiPrec q prec =
      (((List.range (prec + 1)).filter fun prec => (q prec).head.isSome).getLast?).getD 0 := by
  induction prec with
  | zero => by_cases here : (q 0).head.isSome <;> simp [lowerHiPrec, here]
  | succ prec ih =>
    rw [List.range_succ, List.filter_append, lowerHiPrec]
    cases here : (q (prec + 1)).head with
    | none => simp [here, ih]
    | some p => simp [here]

theorem le_lowerHiPrec {q : Nat → PktqPrec} {hiPrec prec : Nat} (below : prec ≤ hiPrec)
    (occupied : (q prec).head ≠ none) : prec ≤ lowerHiPrec q hiPrec := by
  induction hiPrec with
  | zero => exact below
  | succ hiPrec ih =>
    unfold lowerHiPrec
    by_cases empty : (q (hiPrec + 1)).head = none
    · rw [if_pos empty]
      rcases Nat.lt_or_eq_of_le below with lower | same
      · exact ih (Nat.le_of_lt_succ lower)
      · exact absurd (same ▸ empty) occupied
    · rw [if_neg empty]
      exact below

theorem filter_range_cut {found : Nat → Bool} {cut bound : Nat} (below : cut ≤ bound)
    (none : ∀ prec, cut ≤ prec → prec < bound → found prec = false) :
    (List.range bound).filter found = (List.range cut).filter found := by
  obtain ⟨more, rfl⟩ := Nat.exists_eq_add_of_le below
  rw [List.range_add, List.filter_append]
  have nothing : ((List.range more).map (cut + ·)).filter found = [] := by
    apply List.filter_eq_nil_iff.mpr
    intro prec member
    obtain ⟨i, inside, rfl⟩ := List.mem_map.mp member
    have := List.mem_range.mp inside
    simp [none (cut + i) (by omega) (by omega)]
  rw [nothing, List.append_nil]

namespace Represents

variable {world after : PktqWorld} {spec : PktqSpec} {prec : Nat}

section

variable (valid : Represents world spec)
include valid

theorem head_isSome (inside : prec < world.pq.numPrec) :
    (world.pq.q prec).head.isSome = !(spec.lists prec).isEmpty := by
  rw [valid.wellFormed.head_eq inside]
  cases spec.lists prec <;> rfl

theorem occupied_eq (allowed : Nat → Bool) :
    spec.occupied allowed = (List.range (world.pq.hiPrec + 1)).filter
      fun prec => allowed prec && (world.pq.q prec).head.isSome := by
  unfold PktqSpec.occupied
  rw [← valid.numPrec_eq, filter_range_cut valid.hi_lt]
  · apply List.filter_congr
    intro prec member
    have inside : prec < world.pq.numPrec :=
      lt_of_lt_of_le (List.mem_range.mp member) valid.hi_lt
    rw [valid.head_isSome inside]
  · intro prec above inside
    by_cases empty : spec.lists prec = []
    · simp [empty]
    · exact absurd (valid.hi prec inside empty) (by omega)

theorem mem_occupied {allowed : Nat → Bool}
    (member : prec ∈ spec.occupied allowed) :
    prec < world.pq.numPrec ∧ spec.lists prec ≠ [] := by
  obtain ⟨inside, chosen⟩ := List.mem_filter.mp member
  rw [Bool.and_eq_true] at chosen
  refine ⟨?_, ?_⟩
  · rw [valid.numPrec_eq]
    exact List.mem_range.mp inside
  · simpa using chosen.2

theorem occupied_eq_nil : spec.occupied (fun _ => true) = [] ↔ world.pq.len = 0 := by
  rw [valid.wellFormed.total_eq, total, Finset.sum_eq_zero_iff, PktqSpec.occupied,
    List.filter_eq_nil_iff, valid.numPrec_eq]
  simp

theorem highest_eq (some : world.pq.len ≠ 0) :
    spec.highest = Option.some (lowerHiPrec world.pq.q world.pq.hiPrec) := by
  have scanned := valid.occupied_eq fun _ => true
  simp only [Bool.true_and] at scanned
  rw [lowerHiPrec_eq, ← scanned, PktqSpec.highest]
  cases last : (spec.occupied fun _ => true).getLast? with
  | none => exact absurd (valid.occupied_eq_nil.mp (List.getLast?_eq_none_iff.mp last)) some
  | some prec => rfl

theorem lowest_eq (some : world.pq.len ≠ 0) :
    spec.lowest = Option.some (lowestPrec world.pq) := by
  have scanned := valid.occupied_eq fun _ => true
  simp only [Bool.true_and] at scanned
  have occupied : spec.occupied (fun _ => true) ≠ [] :=
    fun empty => some (valid.occupied_eq_nil.mp empty)
  rw [scanned, List.range_succ, List.filter_append] at occupied
  rw [PktqSpec.lowest, scanned, List.range_succ, List.filter_append, List.head?_append,
    List.head?_filter, lowestPrec]
  cases found : (List.range world.pq.hiPrec).find? fun prec => (world.pq.q prec).head.isSome with
  | some prec => rfl
  | none =>
    have nothing : (List.range world.pq.hiPrec).filter
        (fun prec => (world.pq.q prec).head.isSome) = [] := by
      rw [← List.head?_eq_none_iff, List.head?_filter, found]
    rw [nothing, List.nil_append] at occupied
    cases last : (world.pq.q world.pq.hiPrec).head with
    | none => simp [last] at occupied
    | some p => simp [last]

theorem highest_spec (some : world.pq.len ≠ 0) :
    lowerHiPrec world.pq.q world.pq.hiPrec < world.pq.numPrec ∧
      spec.lists (lowerHiPrec world.pq.q world.pq.hiPrec) ≠ [] :=
  valid.mem_occupied (List.mem_of_getLast? (valid.highest_eq some))

theorem lowest_spec (some : world.pq.len ≠ 0) :
    lowestPrec world.pq < world.pq.numPrec ∧ spec.lists (lowestPrec world.pq) ≠ [] :=
  valid.mem_occupied (List.mem_of_head? (valid.lowest_eq some))

theorem lowered (some : world.pq.len ≠ 0) :
    Represents (world.withHiPrec (lowerHiPrec world.pq.q world.pq.hiPrec)) spec where
  numPrec_eq := valid.numPrec_eq
  wellFormed := ⟨valid.wellFormed.spells, valid.wellFormed.len_eq, valid.wellFormed.apart,
    valid.wellFormed.total_eq, valid.wellFormed.total_le⟩
  few := valid.few
  max_le := valid.max_le
  hi_lt := (valid.highest_spec some).1
  hi := by
    intro prec inside occupied
    apply le_lowerHiPrec (valid.hi prec inside occupied)
    have headed : (world.pq.q prec).head = (spec.lists prec).head? :=
      valid.wellFormed.head_eq inside
    simpa [headed] using occupied

theorem shrunk (bounds : SameBounds after world)
    (wellFormed : WellFormed after (update spec.lists prec packets))
    (subset : packets ≠ [] → spec.lists prec ≠ []) : Represents after (spec.put prec packets) where
  numPrec_eq := by rw [bounds.numPrec, valid.numPrec_eq]; rfl
  wellFormed := wellFormed
  few := by rw [bounds.numPrec]; exact valid.few
  max_le := by rw [bounds.max]; exact valid.max_le
  hi_lt := by rw [bounds.numPrec, bounds.hiPrec]; exact valid.hi_lt
  hi := by
    intro other inside occupied
    rw [bounds.numPrec] at inside
    rw [bounds.hiPrec]
    apply valid.hi other inside
    by_cases same : other = prec
    · subst other
      exact subset (by simpa [PktqSpec.put] using occupied)
    · simpa [PktqSpec.put, same] using occupied

/-- An enqueue raises it. -/
theorem grown (inside : prec < world.pq.numPrec)
    (stored : ∃ link q len, after = world.store link prec q len (raiseHiPrec world.pq.hiPrec prec))
    (wellFormed : WellFormed after (update spec.lists prec packets)) :
    Represents after (spec.put prec packets) := by
  have few := valid.few
  have raised : raiseHiPrec world.pq.hiPrec prec = max world.pq.hiPrec prec := by
    unfold raiseHiPrec
    unfold pktqMaxPrec at few
    by_cases higher : world.pq.hiPrec < prec
    · rw [if_pos higher, Nat.mod_eq_of_lt (by omega)]
      omega
    · rw [if_neg higher]
      omega
  obtain ⟨link, q, len, rfl⟩ := stored
  refine ⟨valid.numPrec_eq, wellFormed, few, valid.max_le, ?_, ?_⟩
  · change raiseHiPrec world.pq.hiPrec prec < world.pq.numPrec
    rw [raised]
    exact max_lt valid.hi_lt inside
  · intro other within occupied
    change other ≤ raiseHiPrec world.pq.hiPrec prec
    rw [raised]
    by_cases same : other = prec
    · subst other
      exact le_max_right _ _
    · have before : spec.lists other ≠ [] := by simpa [PktqSpec.put, same] using occupied
      exact le_trans (valid.hi other within before) (le_max_left _ _)

end

theorem put_same (spec : PktqSpec) (prec : Nat) : spec.put prec (spec.lists prec) = spec := by
  simp [PktqSpec.put]

section

variable (valid : Represents world spec)
include valid

theorem room (notFull : ¬ pktqFull world.pq) :
    world.pq.len + 1 ≤ pktqLenMax := by
  have bounded := valid.max_le
  unfold pktqFull at notFull
  omega

theorem unqueued_eq (p : Nat) :
    Unqueued spec.numPrec spec.lists p ↔ Unqueued world.pq.numPrec spec.lists p := by
  rw [valid.numPrec_eq]

theorem penq {p : Nat} (asserted : penqAsserts world prec p)
    (unlinked : world.link p = none) (unqueued : Unqueued spec.numPrec spec.lists p) :
    Represents (pktqPenq world prec p) (spec.put prec (spec.lists prec ++ [p])) := by
  obtain ⟨inside, -, notFull, -⟩ := asserted
  exact valid.grown inside ⟨_, _, _, rfl⟩ (valid.wellFormed.penq inside unlinked
    ((valid.unqueued_eq p).mp unqueued) (valid.room notFull))

theorem penqHead {p : Nat} (asserted : penqAsserts world prec p)
    (unqueued : Unqueued spec.numPrec spec.lists p) :
    Represents (pktqPenqHead world prec p) (spec.put prec (p :: spec.lists prec)) := by
  obtain ⟨inside, -, notFull, -⟩ := asserted
  exact valid.grown inside ⟨_, _, _, rfl⟩ (valid.wellFormed.penqHead inside
    ((valid.unqueued_eq p).mp unqueued) (valid.room notFull))

/-- An empty list changes nothing; any other is joined on. -/
theorem append {list : Spktq}
    (asserted : spliceAsserts world prec list) (spelled : SpellsList world list packets)
    (unqueued : ∀ p ∈ packets, Unqueued spec.numPrec spec.lists p)
    (fits : total spec.numPrec spec.lists + packets.length ≤ pktqLenMax) :
    Represents (pktqMachine.next world (.append prec list packets))
        (PktqSpec.machine.next spec (.append prec list packets)) ∧
      pktqMachine.answer world (.append prec list packets) =
        PktqSpec.machine.answer spec (.append prec list packets) := by
  obtain ⟨spells, counted⟩ := spelled
  simp only [Machine.next, Machine.answer, pktqMachine, pktqStep, PktqSpec.machine, PktqSpec.step]
  by_cases empty : packets = []
  · have noHead : list.q.head = none := by simp [spells.head_eq, empty]
    simpa [pktqAppend, noHead, empty] using valid
  · have hasHead : list.q.head ≠ none := by simpa [spells.head_eq] using empty
    obtain ⟨inside, -, -, -⟩ := asserted.resolve_left hasHead
    rw [← valid.numPrec_eq, ← valid.wellFormed.total_eq] at fits
    have joined := valid.wellFormed.append inside spells counted empty
      (fun p member => (valid.unqueued_eq p).mp (unqueued p member)) fits
    rw [if_neg empty]
    refine ⟨valid.grown inside ?_ joined, ?_⟩
    · simp only [pktqAppend, if_neg hasHead]
      exact ⟨_, _, _, rfl⟩
    · simp [pktqAppend, hasHead]

theorem prepend {list : Spktq}
    (asserted : spliceAsserts world prec list) (spelled : SpellsList world list packets)
    (unqueued : ∀ p ∈ packets, Unqueued spec.numPrec spec.lists p)
    (fits : total spec.numPrec spec.lists + packets.length ≤ pktqLenMax) :
    Represents (pktqMachine.next world (.prepend prec list packets))
        (PktqSpec.machine.next spec (.prepend prec list packets)) ∧
      pktqMachine.answer world (.prepend prec list packets) =
        PktqSpec.machine.answer spec (.prepend prec list packets) := by
  obtain ⟨spells, counted⟩ := spelled
  simp only [Machine.next, Machine.answer, pktqMachine, pktqStep, PktqSpec.machine, PktqSpec.step]
  by_cases empty : packets = []
  · have noHead : list.q.head = none := by simp [spells.head_eq, empty]
    simpa [pktqPrepend, noHead, empty] using valid
  · have hasHead : list.q.head ≠ none := by simpa [spells.head_eq] using empty
    obtain ⟨inside, -, -, -⟩ := asserted.resolve_left hasHead
    rw [← valid.numPrec_eq, ← valid.wellFormed.total_eq] at fits
    have joined := valid.wellFormed.prepend inside spells counted empty
      (fun p member => (valid.unqueued_eq p).mp (unqueued p member)) fits
    rw [if_neg empty]
    refine ⟨valid.grown inside ?_ joined, ?_⟩
    · simp only [pktqPrepend, if_neg hasHead]
      exact ⟨_, _, _, rfl⟩
    · simp [pktqPrepend, hasHead]

theorem takeHead (inside : prec < world.pq.numPrec) :
    Represents (takeHead world prec).1 (spec.put prec (spec.lists prec).tail) ∧
      (PacketQueue.takeHead world prec).2 = (spec.lists prec).head? := by
  cases shape : spec.lists prec with
  | nil =>
    rw [valid.wellFormed.takeHead_nil inside shape]
    refine ⟨?_, rfl⟩
    have same := put_same spec prec
    rw [shape] at same
    exact same.symm ▸ valid
  | cons p rest =>
    rw [valid.wellFormed.takeHead_cons inside shape]
    refine ⟨?_, rfl⟩
    exact valid.shrunk (.unlinkHead ..) (valid.wellFormed.unlinkHead inside shape) (by simp [shape])

/-- The tail of one precedence, if it has one; its link is clear. -/
theorem takeTail (inside : prec < world.pq.numPrec) :
    ∃ after, takeTail world prec = some (after, (spec.lists prec).getLast?) ∧
      (∀ p ∈ (spec.lists prec).getLast?, pktSetLink after.link (some p) none = after.link) ∧
      Represents after (spec.put prec (spec.lists prec).dropLast) := by
  rcases List.eq_nil_or_concat (spec.lists prec) with empty | ⟨front, p, shape⟩
  · refine ⟨world, ?_, by simp [empty], ?_⟩
    · rw [valid.wellFormed.takeTail_nil inside empty, empty]
      rfl
    · have same := put_same spec prec
      rw [empty] at same ⊢
      exact same.symm ▸ valid
  · rw [List.concat_eq_append] at shape
    obtain ⟨after, taken, cleared, bounds, wellFormed⟩ :=
      valid.wellFormed.takeTail_concat inside shape
    refine ⟨after, ?_, ?_, ?_⟩
    · simpa [shape] using taken
    · intro other last
      have same : other = p := by simpa [shape] using last.symm
      subst other
      change update after.link p none = after.link
      rw [← cleared, update_eq_self]
    · rw [shape, List.dropLast_concat]
      exact valid.shrunk bounds wellFormed (by simp [shape])

theorem pdeqWithFn (inside : prec < world.pq.numPrec)
    (fn : Option (Nat → Bool)) :
    ∃ after, pktqPdeqWithFn world prec fn =
        some (after, (spec.lists prec).find? (fnMatches fn)) ∧
      Represents after (spec.put prec ((spec.lists prec).eraseP (fnMatches fn))) := by
  rcases valid.wellFormed.pdeqWithFn_cases inside fn with
    ⟨none, same⟩ | ⟨p, after, found, removed, bounds, wellFormed⟩
  · refine ⟨world, by rw [same, none], ?_⟩
    have untouched : (spec.lists prec).eraseP (fnMatches fn) = spec.lists prec :=
      List.eraseP_of_forall_not (List.find?_eq_none.mp none)
    rw [untouched, put_same]
    exact valid
  · refine ⟨after, by rw [removed, found], valid.shrunk bounds wellFormed ?_⟩
    exact fun _ => List.ne_nil_of_mem (List.mem_of_find?_eq_some found)

theorem pdel (inside : prec < world.pq.numPrec) (packet : Nat) :
    ∃ after, pktqPdel world (some packet) prec =
        some (after, decide (packet ∈ spec.lists prec)) ∧
      Represents after (spec.put prec ((spec.lists prec).erase packet)) := by
  rcases valid.wellFormed.pdel_cases inside packet with
    ⟨absent, same⟩ | ⟨after, member, removed, bounds, wellFormed⟩
  · refine ⟨world, by simp [same, absent], ?_⟩
    rw [List.erase_of_not_mem absent, put_same]
    exact valid
  · refine ⟨after, by simp [removed, member], valid.shrunk bounds wellFormed ?_⟩
    exact fun _ => List.ne_nil_of_mem member

theorem none_occupied (empty : world.pq.len = 0)
    (allowed : Nat → Bool) : spec.occupied allowed = [] := by
  have nothing := valid.occupied_eq_nil.mpr empty
  apply List.filter_eq_nil_iff.mpr
  intro prec member
  have blank := List.filter_eq_nil_iff.mp nothing prec member
  simp only [Bool.true_and] at blank
  simp [blank]

theorem none_chosen (empty : world.pq.len = 0) :
    spec.highest = none ∧ spec.lowest = none ∧ ∀ precBmp, spec.highestIn precBmp = none := by
  have nowhere := valid.none_occupied empty
  refine ⟨?_, ?_, fun precBmp => ?_⟩
  · simp [PktqSpec.highest, nowhere]
  · simp [PktqSpec.lowest, nowhere]
  · simp [PktqSpec.highestIn, nowhere]

theorem deq : Represents (pktqDeq world).1 (spec.keep spec.highest List.tail) ∧
      PktqAnswer.packet (pktqDeq world).2.1 (pktqDeq world).2.2 =
        spec.look spec.highest List.head? := by
  unfold pktqDeq
  by_cases empty : world.pq.len = 0
  · rw [if_pos empty, (valid.none_chosen empty).1]
    exact ⟨valid, rfl⟩
  · obtain ⟨inside, occupied⟩ := valid.highest_spec empty
    obtain ⟨taken, answer⟩ := (valid.lowered empty).takeHead inside
    rw [if_neg empty, valid.highest_eq empty]
    refine ⟨taken, ?_⟩
    obtain ⟨p, rest, shape⟩ := List.exists_cons_of_ne_nil occupied
    simp [PktqSpec.look, answer, shape]

theorem deqTail : ∃ after p precOut, pktqDeqTail world = some (after, p, precOut) ∧
      Represents after (spec.keep spec.lowest List.dropLast) ∧
      PktqAnswer.packet p precOut = spec.look spec.lowest List.getLast? := by
  unfold pktqDeqTail
  by_cases empty : world.pq.len = 0
  · rw [if_pos empty, (valid.none_chosen empty).2.1]
    exact ⟨world, _, _, rfl, valid, rfl⟩
  · obtain ⟨inside, occupied⟩ := valid.lowest_spec empty
    obtain ⟨after, taken, cleared, represents⟩ := valid.takeTail inside
    simp only [if_neg empty, valid.lowest_eq empty, taken]
    cases last : (spec.lists (lowestPrec world.pq)).getLast? with
    | none => exact absurd (List.getLast?_eq_none_iff.mp last) occupied
    | some p =>
      refine ⟨_, _, _, rfl, ?_, ?_⟩
      · rw [cleared p last]
        exact represents
      · simp [PktqSpec.look, last]

theorem peek : Represents (pktqPeek world).1 spec ∧
      PktqAnswer.packet (pktqPeek world).2.1 (pktqPeek world).2.2 =
        spec.look spec.highest List.head? := by
  unfold pktqPeek
  by_cases empty : world.pq.len = 0
  · rw [if_pos empty, (valid.none_chosen empty).1]
    exact ⟨valid, rfl⟩
  · obtain ⟨inside, -⟩ := valid.highest_spec empty
    rw [if_neg empty, valid.highest_eq empty]
    exact ⟨valid.lowered empty, by simp [PktqSpec.look, valid.wellFormed.head_eq inside]⟩

theorem peekTail : PktqAnswer.packet (pktqPeekTail world).1 (pktqPeekTail world).2 =
      spec.look spec.lowest List.getLast? := by
  unfold pktqPeekTail
  by_cases empty : world.pq.len = 0
  · rw [if_pos empty, (valid.none_chosen empty).2.1]
    rfl
  · obtain ⟨inside, -⟩ := valid.lowest_spec empty
    rw [if_neg empty, valid.lowest_eq empty]
    simp [PktqSpec.look, valid.wellFormed.tail_eq inside]

theorem scanBmp_eq (some : world.pq.len ≠ 0)
    (precBmp : BitVec 32) :
    scanBmp world.pq precBmp (lowerHiPrec world.pq.q world.pq.hiPrec) = spec.highestIn precBmp := by
  have scanned := (valid.lowered some).occupied_eq (precInBmp precBmp)
  rw [scanBmp, scanDown_eq, PktqSpec.highestIn, scanned]
  rfl

theorem mpeek (precBmp : BitVec 32) :
    Represents (pktqMpeek world precBmp).1 spec ∧
      PktqAnswer.packet (pktqMpeek world precBmp).2.1 (pktqMpeek world precBmp).2.2 =
        spec.look (spec.highestIn precBmp) List.head? := by
  unfold pktqMpeek
  by_cases empty : world.pq.len = 0
  · rw [if_pos empty, (valid.none_chosen empty).2.2 precBmp]
    exact ⟨valid, rfl⟩
  · simp only [if_neg empty, valid.scanBmp_eq empty]
    cases chosen : spec.highestIn precBmp with
    | none => exact ⟨valid.lowered empty, rfl⟩
    | some prec =>
      obtain ⟨inside, -⟩ := valid.mem_occupied (List.mem_of_getLast? chosen)
      exact ⟨valid.lowered empty, by simp [PktqSpec.look, valid.wellFormed.head_eq inside]⟩

theorem mdeq (precBmp : BitVec 32) :
    Represents (pktqMdeq world precBmp).1 (spec.keep (spec.highestIn precBmp) List.tail) ∧
      PktqAnswer.packet (pktqMdeq world precBmp).2.1 (pktqMdeq world precBmp).2.2 =
        spec.look (spec.highestIn precBmp) List.head? := by
  unfold pktqMdeq
  by_cases empty : world.pq.len = 0
  · rw [if_pos empty, (valid.none_chosen empty).2.2 precBmp]
    exact ⟨valid, rfl⟩
  · simp only [if_neg empty, valid.scanBmp_eq empty]
    cases chosen : spec.highestIn precBmp with
    | none => exact ⟨valid.lowered empty, rfl⟩
    | some prec =>
      obtain ⟨inside, occupied⟩ := valid.mem_occupied (List.mem_of_getLast? chosen)
      obtain ⟨taken, answer⟩ := (valid.lowered empty).takeHead inside
      refine ⟨taken, ?_⟩
      obtain ⟨p, rest, shape⟩ := List.exists_cons_of_ne_nil occupied
      simp [PktqSpec.look, answer, shape]

theorem mlen (precBmp : BitVec 32) :
    pktqMlen world precBmp = (((List.range spec.numPrec).filter (precInBmp precBmp)).map
      fun prec => (spec.lists prec).length).sum := by
  have counted : pktqMlen world precBmp =
      (((List.range (world.pq.hiPrec + 1)).filter (precInBmp precBmp)).map
        fun prec => (spec.lists prec).length).sum := by
    unfold pktqMlen
    congr 1
    apply List.map_congr_left
    intro prec member
    have below := List.mem_range.mp (List.mem_filter.mp member).1
    exact valid.wellFormed.len_eq prec (lt_of_lt_of_le below valid.hi_lt)
  obtain ⟨more, split⟩ := Nat.exists_eq_add_of_le (Nat.succ_le_of_lt valid.hi_lt)
  have nothing : ((((List.range more).map (world.pq.hiPrec + 1 + ·)).filter
      (precInBmp precBmp)).map fun prec => (spec.lists prec).length).sum = 0 := by
    apply List.sum_eq_zero
    intro length member
    obtain ⟨prec, chosen, rfl⟩ := List.mem_map.mp member
    obtain ⟨i, inside, rfl⟩ := List.mem_map.mp (List.mem_filter.mp chosen).1
    have inside := List.mem_range.mp inside
    by_contra occupied
    have bounded := valid.hi (world.pq.hiPrec + 1 + i) (by omega)
      (fun empty => occupied (by simp [empty]))
    omega
  have whole : List.range world.pq.numPrec =
      List.range (world.pq.hiPrec + 1) ++ (List.range more).map (world.pq.hiPrec + 1 + ·) := by
    rw [split]
    exact List.range_add
  rw [counted, ← valid.numPrec_eq, whole, List.filter_append, List.map_append, List.sum_append,
    nothing]
  rfl

end

end Represents

/-- The condition under which an enqueue at the tail terminates its list. -/
def PenqUnlinked (world : PktqWorld) : PktqCall → Prop
  | .penq _ p => world.link p = none
  | _ => True

instance (world : PktqWorld) : (call : PktqCall) → Decidable (PenqUnlinked world call)
  | .penq _ p => inferInstanceAs (Decidable (world.link p = none))
  | .setLink .. | .penqHead .. | .append .. | .prepend .. | .pdeq _ | .pdeqWithFn .. | .pdeqTail _
  | .pdel .. | .deq | .deqTail | .peek | .peekTail | .mlen _ | .mpeek _ | .mdeq _ => .isTrue trivial

theorem pktq_simulation :
    Machine.Simulation (pktqMachine.restrict PenqUnlinked) PktqSpec.machine Represents := by
  intro world spec call valid asserted promised
  obtain ⟨asserted, unlinked⟩ := asserted
  rw [Machine.restrict_next, Machine.restrict_answer]
  cases call with
  | setLink p target =>
    refine ⟨⟨valid.numPrec_eq, ?_, valid.few, valid.max_le, valid.hi_lt, valid.hi⟩, rfl⟩
    have loose := (valid.unqueued_eq p).mp promised
    refine ⟨?_, valid.wellFormed.len_eq, valid.wellFormed.apart, valid.wellFormed.total_eq,
      valid.wellFormed.total_le⟩
    intro prec inside
    exact (valid.wellFormed.spells prec inside).update_of_not_mem (loose prec inside) target
  | penq prec p => exact ⟨valid.penq asserted unlinked promised, rfl⟩
  | penqHead prec p => exact ⟨valid.penqHead asserted promised, rfl⟩
  | append prec list packets => exact valid.append asserted.1 asserted.2 promised.1 promised.2
  | prepend prec list packets => exact valid.prepend asserted.1 asserted.2 promised.1 promised.2
  | pdeq prec =>
    obtain ⟨taken, answer⟩ := valid.takeHead asserted
    exact ⟨taken, congrArg (PktqAnswer.packet · none) answer⟩
  | pdeqWithFn prec fn =>
    obtain ⟨after, result, represents⟩ := valid.pdeqWithFn asserted fn
    simp only [Machine.next, Machine.answer, pktqMachine, pktqStep, result]
    exact ⟨represents, rfl⟩
  | pdeqTail prec =>
    obtain ⟨after, result, -, represents⟩ := valid.takeTail asserted
    simp only [Machine.next, Machine.answer, pktqMachine, pktqStep, pktqPdeqTail, result]
    exact ⟨represents, rfl⟩
  | pdel pktbuf prec =>
    cases pktbuf with
    | none => exact ⟨valid, rfl⟩
    | some packet =>
      obtain ⟨after, result, represents⟩ := valid.pdel asserted packet
      simp only [Machine.next, Machine.answer, pktqMachine, pktqStep, result]
      exact ⟨represents, rfl⟩
  | deq => exact valid.deq
  | deqTail =>
    obtain ⟨after, p, precOut, result, represents, answer⟩ := valid.deqTail
    simp only [Machine.next, Machine.answer, pktqMachine, pktqStep, result]
    exact ⟨represents, answer⟩
  | peek => exact valid.peek
  | peekTail => exact ⟨valid, valid.peekTail⟩
  | mlen precBmp => exact ⟨valid, congrArg PktqAnswer.length (valid.mlen precBmp)⟩
  | mpeek precBmp => exact valid.mpeek precBmp
  | mdeq precBmp => exact valid.mdeq precBmp

theorem represents_init (world : PktqWorld) {numPrec : Nat} (maxLen : Nat) (positive : 1 ≤ numPrec)
    (few : numPrec ≤ pktqMaxPrec) :
    Represents (pktqInit world numPrec maxLen) (PktqSpec.empty numPrec) := by
  unfold pktqMaxPrec at few
  have count : (pktqInit world numPrec maxLen).pq.numPrec = numPrec :=
    Nat.mod_eq_of_lt (by omega)
  have cleared : ∀ prec < numPrec, (pktqInit world numPrec maxLen).pq.q prec =
      { head := none, tail := none, len := 0, max := maxLen % 2 ^ 16 } :=
    fun prec inside => if_pos inside
  refine ⟨count, ⟨?_, ?_, ?_, ?_, Nat.zero_le _⟩, ?_, ?_, ?_, ?_⟩
  · intro prec inside
    rw [cleared prec (count ▸ inside)]
    exact Spells.empty
  · intro prec inside
    rw [cleared prec (count ▸ inside)]
    rfl
  · intro first _ second _ _ p member
    exact absurd member (List.not_mem_nil)
  · simp [total, PktqSpec.empty, pktqInit]
  · rw [count]
    exact few
  · have small : maxLen % 2 ^ 16 < 2 ^ 16 := Nat.mod_lt _ (by norm_num)
    exact Nat.le_of_lt_succ small
  · rw [count]
    exact positive
  · intro prec _ occupied
    exact absurd rfl occupied

/-- Every call sequence that meets the assertions, queues nothing twice and
enqueues only unlinked packets at a tail: the structure spells the lists, and
the answers are those of the lists. -/
theorem pktq_refines_lists (world : PktqWorld) (numPrec maxLen : Nat) (positive : 1 ≤ numPrec)
    (few : numPrec ≤ pktqMaxPrec) (calls : List PktqCall)
    (asserted : (pktqMachine.restrict PenqUnlinked).Admitted
      (pktqInit world numPrec maxLen) calls)
    (promised : PktqSpec.machine.Admitted (PktqSpec.empty numPrec) calls) :
    Represents (pktqMachine.run (pktqInit world numPrec maxLen) calls)
        (PktqSpec.machine.run (PktqSpec.empty numPrec) calls) ∧
      pktqMachine.history (pktqInit world numPrec maxLen) calls =
        PktqSpec.machine.history (PktqSpec.empty numPrec) calls := by
  have simulated := pktq_simulation.run (represents_init world maxLen positive few) asserted promised
  simpa using simulated

/-- Memory in which packet `p` is linked to `target`, before the queue is set up. -/
def freshWorld (p : Nat) (target : Option Nat) : PktqWorld where
  pq :=
    { numPrec := 0, hiPrec := 0, max := 0, len := 0,
      q := fun _ => { head := none, tail := none, len := 0, max := 0 } }
  link := update (fun _ => none) p target

/-- Two precedences: the higher one is served first, from its new head. -/
theorem pktq_refines_lists_two_precs :
    let calls : List PktqCall := [.penq 0 5, .penq 1 7, .penqHead 1 9, .deq, .deqTail, .peek]
    Represents (pktqMachine.run (pktqInit (freshWorld 0 none) 2 8) calls)
        (PktqSpec.machine.run (PktqSpec.empty 2) calls) ∧
      (PktqSpec.machine.history (PktqSpec.empty 2) calls).map Prod.snd =
        [.packet (some 5) none, .packet (some 7) none, .packet (some 9) none,
          .packet (some 9) (some 1), .packet (some 5) (some 0), .packet (some 7) (some 1)] := by
  refine ⟨?_, by decide⟩
  exact (pktq_refines_lists (freshWorld 0 none) 2 8 (by decide) (by decide)
    [.penq 0 5, .penq 1 7, .penqHead 1 9, .deq, .deqTail, .peek] (by decide) (by decide)).1

/-- A packet linked to itself passes the assertions of `pktq_penq`, and is then
dequeued a second time from a queue that should be empty. -/
theorem pktq_self_linked_packet_dequeued_twice :
    let calls : List PktqCall := [.penq 0 7, .pdeq 0, .pdeq 0]
    let start := pktqInit (freshWorld 7 (some 7)) 1 4
    pktqMachine.Admitted start calls ∧ PktqSpec.machine.Admitted (PktqSpec.empty 1) calls ∧
      (pktqMachine.history start calls).map Prod.snd =
        [.packet (some 7) none, .packet (some 7) none, .packet (some 7) none] ∧
      (PktqSpec.machine.history (PktqSpec.empty 1) calls).map Prod.snd =
        [.packet (some 7) none, .packet (some 7) none, .packet none none] := by
  decide

end BcmDhd.PacketQueue
