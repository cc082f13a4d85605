import BcmDhd.Msgbuf.D2hRing

namespace BcmDhd.Msgbuf

open BcmDhd.Lib

universe u

/-- The unread slots run from the host's index to the dongle's, and the stream
is what was returned followed by what they hold. -/
structure D2hInvariant {Item : Type u} (system : D2hSystem Item) : Prop where
  inside : system.ring.rd < system.ring.maxItems
  narrow : system.ring.maxItems < 2 ^ 16
  sized : 0 < system.ring.itemLen ∧ system.ring.itemLen < 2 ^ 16
  fits : system.unread.length ≤ system.ring.maxItems
  unread_eq : system.unread = slots system.ring.maxItems system.ring.rd system.unread.length
  wr_eq : system.dongleWr = (system.ring.rd + system.unread.length) % system.ring.maxItems
  stream : system.produced = system.returned.flatten ++ system.unread.map system.memory
  nonempty : ∀ batch ∈ system.returned, batch ≠ []

/-- The number of items the next host call returns: a completely full ring
looks like an empty one. -/
def batchSize {Item : Type u} (system : D2hSystem Item) : Nat :=
  if system.unread.length = system.ring.maxItems then 0
  else min system.unread.length (system.ring.maxItems - system.ring.rd)

namespace D2hInvariant

variable {Item : Type u} {system : D2hSystem Item}

theorem items_eq (valid : D2hInvariant system) :
    toUint16 (readAvailSpace system.dongleWr system.ring.rd system.ring.maxItems) =
      batchSize system := by
  have narrow := valid.narrow
  have fits := valid.fits
  unfold batchSize
  by_cases full : system.unread.length = system.ring.maxItems
  · have met : system.dongleWr = system.ring.rd := by
      rw [valid.wr_eq, full, Nat.add_mod_right, Nat.mod_eq_of_lt valid.inside]
    rw [if_pos full, met]
    simp [readAvailSpace, toUint16]
  · have short : system.unread.length < system.ring.maxItems := lt_of_le_of_ne fits full
    have avail := readAvailSpace_natCast valid.inside short
    rw [← valid.wr_eq] at avail
    rw [if_neg full, avail]
    exact toUint16_natCast (by omega)

/-- What a host call does to the ring and returns. -/
theorem getReadAddr_cases (valid : D2hInvariant system) :
    (batchSize system = 0 ∧ dhdProtGetReadAddr system.ring system.dongleWr =
      ({ system.ring with wr := system.dongleWr }, none)) ∨
    (0 < batchSize system ∧ system.ring.rd + batchSize system ≤ system.ring.maxItems ∧
      batchSize system ≤ system.unread.length ∧
      dhdProtGetReadAddr system.ring system.dongleWr =
        ({ system.ring with
            wr := system.dongleWr
            rd := (system.ring.rd + batchSize system) % system.ring.maxItems },
          some (system.ring.rd * system.ring.itemLen, batchSize system * system.ring.itemLen))) := by
  have items := valid.items_eq
  unfold dhdProtGetReadAddr
  simp only [items]
  by_cases none : batchSize system = 0
  · exact Or.inl ⟨none, if_pos none⟩
  · have notFull : system.unread.length ≠ system.ring.maxItems := by
      intro full
      exact none (if_pos full)
    have size : batchSize system =
        min system.unread.length (system.ring.maxItems - system.ring.rd) := if_neg notFull
    have fits := valid.fits
    have narrow := valid.narrow
    have inside := valid.inside
    have uncut : system.ring.rd + batchSize system ≤ system.ring.maxItems := by omega
    refine Or.inr ⟨Nat.pos_of_ne_zero none, uncut, by omega, ?_⟩
    have advanced : (if system.ring.rd + batchSize system ≥ system.ring.maxItems then 0
        else system.ring.rd + batchSize system) =
        (system.ring.rd + batchSize system) % system.ring.maxItems := by
      rw [← Circular.wrap_eq_mod uncut]
      exact if_congr (by omega) rfl rfl
    -- two sixteen-bit factors cannot overflow the 32-bit length
    have length : batchSize system * system.ring.itemLen % 2 ^ 32 =
        batchSize system * system.ring.itemLen := by
      apply Nat.mod_eq_of_lt
      calc batchSize system * system.ring.itemLen < 2 ^ 16 * 2 ^ 16 :=
            Nat.mul_lt_mul'' (by omega) valid.sized.2
        _ = 2 ^ 32 := by norm_num
    rw [if_neg none, if_neg (by omega), advanced, length]

theorem batchSlots_eq (valid : D2hInvariant system)
    (uncut : system.ring.rd + batchSize system ≤ system.ring.maxItems) :
    batchSlots system.ring.itemLen (system.ring.rd * system.ring.itemLen)
        (batchSize system * system.ring.itemLen) =
      slots system.ring.maxItems system.ring.rd (batchSize system) := by
  rw [batchSlots, Nat.mul_div_cancel _ valid.sized.1, Nat.mul_div_cancel _ valid.sized.1,
    Circular.slots_eq_range uncut]

theorem room (valid : D2hInvariant system) (free : system.dongleWr ∉ system.unread) :
    system.unread.length < system.ring.maxItems := by
  apply lt_of_le_of_ne valid.fits
  intro full
  have met : system.dongleWr = system.ring.rd := by
    rw [valid.wr_eq, full, Nat.add_mod_right, Nat.mod_eq_of_lt valid.inside]
  apply free
  rw [met, valid.unread_eq, full]
  exact List.mem_map.mpr ⟨0, List.mem_range.mpr (Nat.zero_lt_of_lt valid.inside),
    Nat.mod_eq_of_lt valid.inside⟩

theorem append (valid : D2hInvariant system) (item : Item)
    (free : system.dongleWr ∉ system.unread) :
    D2hInvariant ((d2hMachine Item).next system (.dongleAppend item)) := by
  have room := valid.room free
  have wrInside : system.dongleWr < system.ring.maxItems := by
    rw [valid.wr_eq]
    exact Nat.mod_lt _ (Nat.zero_lt_of_lt valid.inside)
  have kept : system.unread.map (Function.update system.memory system.dongleWr item) =
      system.unread.map system.memory := by
    apply List.map_congr_left
    intro slot pending
    have apart : slot ≠ system.dongleWr := fun same => free (same ▸ pending)
    exact Function.update_of_ne apart _ _
  have stretch : system.unread ++ [system.dongleWr] =
      slots system.ring.maxItems system.ring.rd (system.unread.length + 1) := by
    rw [Circular.slots_add, ← valid.unread_eq, ← valid.wr_eq, Circular.slots_one wrInside]
  refine ⟨valid.inside, valid.narrow, valid.sized, ?_, ?_, ?_, ?_, valid.nonempty⟩
  · simpa [Machine.next, d2hMachine] using room
  · simpa [Machine.next, d2hMachine] using stretch
  · simp [Machine.next, d2hMachine, valid.wr_eq, Nat.add_assoc]
  · simp [Machine.next, d2hMachine, kept, valid.stream]

/-- A batch takes the front of the unread stretch. -/
theorem fetch (valid : D2hInvariant system) :
    D2hInvariant ((d2hMachine Item).next system .getReadAddr) := by
  rcases valid.getReadAddr_cases with ⟨-, result⟩ | ⟨some, uncut, available, result⟩
  · simp only [Machine.next, d2hMachine, result]
    exact ⟨valid.inside, valid.narrow, valid.sized, valid.fits, valid.unread_eq, valid.wr_eq,
      valid.stream, valid.nonempty⟩
  · have fits := valid.fits
    have split : system.unread.length = batchSize system +
        (system.unread.length - batchSize system) := by omega
    have front := Circular.slots_add system.ring.maxItems system.ring.rd (batchSize system)
      (system.unread.length - batchSize system)
    have rest := Circular.filter_slots_drop system.ring.rd
      (show batchSize system + (system.unread.length - batchSize system) ≤ system.ring.maxItems by
        omega)
    rw [← split, ← valid.unread_eq] at front rest
    simp only [Machine.next, d2hMachine, result, valid.batchSlots_eq uncut, rest]
    refine ⟨Nat.mod_lt _ (Nat.zero_lt_of_lt valid.inside), valid.narrow, valid.sized, ?_, ?_, ?_,
      ?_, ?_⟩
    · simp only [Circular.length_slots]
      omega
    · simp only [Circular.length_slots]
    · simp only [Circular.length_slots, Nat.mod_add_mod]
      rw [Nat.add_assoc, ← split]
      exact valid.wr_eq
    · simp only [List.flatten_append, List.flatten_cons, List.flatten_nil, List.append_nil,
        List.append_assoc, ← List.map_append, ← front]
      exact valid.stream
    · intro batch member
      rcases List.mem_append.mp member with old | new
      · exact valid.nonempty batch old
      · rw [List.mem_singleton.mp new]
        apply List.ne_nil_of_length_pos
        simpa using some

end D2hInvariant

theorem d2hMachine_preserves (Item : Type u) : (d2hMachine Item).Preserves D2hInvariant := by
  intro system call valid admitted
  cases call with
  | dongleAppend item => exact valid.append item admitted
  | getReadAddr => exact valid.fetch

theorem d2hIdle_valid {Item : Type u} {maxItems itemLen start : Nat} (memory : Nat → Item)
    (inside : start < maxItems) (narrow : maxItems < 2 ^ 16)
    (sized : 0 < itemLen ∧ itemLen < 2 ^ 16) :
    D2hInvariant (d2hIdle maxItems itemLen start memory) where
  inside := inside
  narrow := narrow
  sized := sized
  fits := Nat.zero_le _
  unread_eq := rfl
  wr_eq := (Nat.mod_eq_of_lt inside).symm
  stream := rfl
  nonempty := by simp [d2hIdle]

/-- A batch handed to the host: consecutive items inside the ring, and exactly
the next ones of the stream. -/
structure NextBatch {Item : Type u} (before after : D2hSystem Item) (offset len items : Nat) :
    Prop where
  nonempty : 0 < items
  inside : before.ring.rd + items ≤ before.ring.maxItems
  offset_eq : offset = before.ring.rd * before.ring.itemLen
  len_eq : len = items * before.ring.itemLen
  returned : after.returned =
    before.returned ++ [(List.range' before.ring.rd items).map before.memory]
  next : (List.range' before.ring.rd items).map before.memory =
    (before.produced.drop before.returned.flatten.length).take items

theorem D2hInvariant.nextBatch {Item : Type u} {system : D2hSystem Item}
    (valid : D2hInvariant system) {offset len : Nat}
    (answered : (d2hMachine Item).answer system .getReadAddr = some (offset, len)) :
    ∃ items, NextBatch system ((d2hMachine Item).next system .getReadAddr) offset len items := by
  rcases valid.getReadAddr_cases with ⟨-, result⟩ | ⟨some, uncut, available, result⟩
  · simp [Machine.answer, d2hMachine, result] at answered
  · have batch := valid.batchSlots_eq uncut
    have stretch := Circular.slots_eq_range uncut
    simp only [Machine.answer, d2hMachine, result, Option.some.injEq, Prod.mk.injEq] at answered
    obtain ⟨rfl, rfl⟩ := answered
    refine ⟨batchSize system, some, uncut, rfl, rfl, ?_, ?_⟩
    · simp only [Machine.next, d2hMachine, result, batch, stretch]
    · have split : system.unread.length = batchSize system +
          (system.unread.length - batchSize system) := by omega
      have front := Circular.slots_add system.ring.maxItems system.ring.rd (batchSize system)
        (system.unread.length - batchSize system)
      rw [← split, ← valid.unread_eq, stretch] at front
      rw [valid.stream, List.drop_left, front, List.map_append]
      exact (List.take_left' (by simp)).symm

/-- Every interleaving of appends and host calls: the batches are non-empty and
spell a prefix of the stream, and a call returns nothing exactly on a ring that
is empty or full to the last slot. -/
theorem d2h_ring_delivers_in_order {Item : Type u} (maxItems itemLen start : Nat)
    (memory : Nat → Item) (inside : start < maxItems) (narrow : maxItems < 2 ^ 16)
    (sized : 0 < itemLen ∧ itemLen < 2 ^ 16) (calls : List (D2hCall Item))
    (admitted : (d2hMachine Item).Admitted (d2hIdle maxItems itemLen start memory) calls) :
    let system := (d2hMachine Item).run (d2hIdle maxItems itemLen start memory) calls
    system.returned.flatten <+: system.produced ∧
      system.unread.length = system.produced.length - system.returned.flatten.length ∧
      (∀ batch ∈ system.returned, batch ≠ []) ∧
      system.ring.rd < system.ring.maxItems ∧
      ((d2hMachine Item).answer system .getReadAddr = none ↔
        system.unread = [] ∨ system.unread.length = system.ring.maxItems) ∧
      ∀ offset len, (d2hMachine Item).answer system .getReadAddr = some (offset, len) →
        ∃ items, NextBatch system ((d2hMachine Item).next system .getReadAddr) offset len items := by
  intro system
  have valid : D2hInvariant system := (d2hMachine Item).run_invariant (d2hMachine_preserves Item)
    (d2hIdle_valid memory inside narrow sized) admitted
  refine ⟨⟨_, valid.stream.symm⟩, ?_, valid.nonempty, valid.inside, ?_,
    fun offset len => valid.nextBatch⟩
  · rw [valid.stream]
    simp
  · have inside := valid.inside
    have empty : batchSize system = 0 ↔
        system.unread = [] ∨ system.unread.length = system.ring.maxItems := by
      rw [← List.length_eq_zero_iff]
      unfold batchSize
      by_cases full : system.unread.length = system.ring.maxItems
      · simp [full]
      · rw [if_neg full]
        omega
    rw [← empty]
    rcases valid.getReadAddr_cases with ⟨none, result⟩ | ⟨some, -, -, result⟩
    · simp [Machine.answer, d2hMachine, result, none]
    · simp [Machine.answer, d2hMachine, result, some.ne']

/-- Three items over the wrap of a two-slot ring, one of them still unread. -/
theorem d2h_ring_delivers_in_order_wrapping :
    let calls : List (D2hCall Nat) :=
      [.dongleAppend 7, .getReadAddr, .dongleAppend 8, .getReadAddr, .dongleAppend 9]
    let system := (d2hMachine Nat).run (d2hIdle 2 8 1 fun _ => 0) calls
    system.returned = [[7], [8]] ∧ system.returned.flatten <+: system.produced :=
  ⟨by decide, (d2h_ring_delivers_in_order 2 8 1 (fun _ => (0 : Nat)) (by decide) (by decide)
    (by decide) [.dongleAppend 7, .getReadAddr, .dongleAppend 8, .getReadAddr, .dongleAppend 9]
    (by decide)).1⟩

/-- Two unread items fill a ring of two slots, and the host call returns nothing. -/
theorem d2h_full_ring_reads_as_empty :
    let calls : List (D2hCall Nat) := [.dongleAppend 7, .dongleAppend 9]
    let full := (d2hMachine Nat).run (d2hIdle 2 8 0 fun _ => 0) calls
    (d2hMachine Nat).Admitted (d2hIdle 2 8 0 fun _ => 0) calls ∧
      (d2hMachine Nat).answer full .getReadAddr = none ∧ full.unread = [0, 1] := by
  decide

end BcmDhd.Msgbuf
