import BcmDhd.Msgbuf.H2dRing

namespace BcmDhd.Msgbuf

open BcmDhd.Lib

variable {count rd stale alloced : Nat}

/-- The slots a request may take when `active` items lie before the write index. -/
def writable (ring : MsgbufRing) (active : Nat) : Nat :=
  min (ring.maxItems - 1 - active) (ring.maxItems - ring.wr)

/-- The refusal of a request that finds `free` slots. -/
def Refused (ring : MsgbufRing) (free nitems : Nat) (exactlyNitems : Bool) : Prop :=
  free = 0 ∨ (exactlyNitems = true ∧ free < nitems ∧ nitems ≤ ring.maxItems - ring.wr)

/-- A ring whose write index is `active` items ahead of its read index. -/
structure RingAhead (ring : MsgbufRing) (active : Nat) : Prop where
  inside : ring.rd < ring.maxItems
  short : active < ring.maxItems
  narrow : ring.maxItems < 2 ^ 16
  ahead : ring.wr = (ring.rd + active) % ring.maxItems

namespace RingAhead

variable {ring : MsgbufRing} {active : Nat}

theorem wr_inside (valid : RingAhead ring active) : ring.wr < ring.maxItems := by
  rw [valid.ahead]
  exact Nat.mod_lt _ (Nat.zero_lt_of_lt valid.inside)

theorem ringAvailCnt_eq (valid : RingAhead ring active) :
    toUint16 (checkWriteSpace ring.rd ring.wr ring.maxItems) = writable ring active := by
  have space := checkWriteSpace_natCast valid.inside valid.short
  rw [← valid.ahead] at space
  rw [space]
  have narrow := valid.narrow
  exact toUint16_natCast (by omega)

/-- One attempt either refuses and changes nothing, or takes as much as it may
up to the wrap. The last exit is never reached. -/
theorem getRingSpace_cases (valid : RingAhead ring active) (nitems : Nat) (exactlyNitems : Bool) :
    (Refused ring (writable ring active) nitems exactlyNitems ∧
      dhdProtGetRingSpace ring nitems exactlyNitems = (ring, .unavailable)) ∨
    (¬ Refused ring (writable ring active) nitems exactlyNitems ∧
      dhdProtGetRingSpace ring nitems exactlyNitems =
        ({ ring with wr := (ring.wr + min nitems (writable ring active)) % ring.maxItems },
          .space (ring.wr * ring.itemLen) (min nitems (writable ring active)))) := by
  have wrInside := valid.wr_inside
  have bounded : writable ring active ≤ ring.maxItems - ring.wr := min_le_right _ _
  have uncut : ring.wr + min nitems (writable ring active) ≤ ring.maxItems := by omega
  have wrapped := Circular.wrap_eq_mod uncut
  have guard : ((ring.maxItems : Int) - ring.wr ≥ nitems) ↔ nitems ≤ ring.maxItems - ring.wr := by
    omega
  unfold dhdProtGetRingSpace
  rw [valid.ringAvailCnt_eq]
  simp only [guard]
  by_cases refused : Refused ring (writable ring active) nitems exactlyNitems
  · exact Or.inl ⟨refused, if_pos refused⟩
  · refine Or.inr ⟨refused, ?_⟩
    refine (if_neg refused).trans ?_
    rw [← wrapped]
    by_cases full : ring.wr + min nitems (writable ring active) = ring.maxItems
    · simp only [if_pos full]
    · simp only [if_neg full, if_pos (lt_of_le_of_ne uncut full)]

end RingAhead

/-- The dongle's read index lies between the cached one and the write index, and
the unread slots are the stretch from there to the write index. -/
structure H2dInvariant (system : H2dSystem) : Prop where
  inside : system.ring.rd < system.ring.maxItems
  narrow : system.ring.maxItems < 2 ^ 16
  lag : ∃ stale, system.dongleRd = (system.ring.rd + stale) % system.ring.maxItems ∧
    stale + system.unread.length < system.ring.maxItems
  unread_eq : system.unread =
    slots system.ring.maxItems system.dongleRd system.unread.length
  wr_eq : system.ring.wr =
    (system.dongleRd + system.unread.length) % system.ring.maxItems
  announced_eq : ∃ pending ≤ system.unread.length,
    system.announced = (system.dongleRd + pending) % system.ring.maxItems
  ended_eq : system.ended = system.ring.wr

namespace H2dInvariant

variable {system : H2dSystem}

theorem dongleRd_inside (valid : H2dInvariant system) :
    system.dongleRd < system.ring.maxItems := by
  obtain ⟨stale, place, -⟩ := valid.lag
  rw [place]
  exact Nat.mod_lt _ (Nat.zero_lt_of_lt valid.inside)

theorem unread_short (valid : H2dInvariant system) :
    system.unread.length < system.ring.maxItems := by
  obtain ⟨stale, -, short⟩ := valid.lag
  omega

theorem cached (valid : H2dInvariant system) :
    ∃ stale, system.dongleRd = (system.ring.rd + stale) % system.ring.maxItems ∧
      RingAhead system.ring (stale + system.unread.length) := by
  obtain ⟨stale, place, short⟩ := valid.lag
  refine ⟨stale, place, valid.inside, short, valid.narrow, ?_⟩
  rw [valid.wr_eq, place, Nat.mod_add_mod, Nat.add_assoc]

theorem refreshed (valid : H2dInvariant system) :
    RingAhead { system.ring with rd := system.dongleRd } system.unread.length :=
  ⟨valid.dongleRd_inside, valid.unread_short, valid.narrow, valid.wr_eq⟩

end H2dInvariant

/-- The system after `alloced` slots were handed out on the read index `rd`. -/
def grant (system : H2dSystem) (rd alloced : Nat) : H2dSystem :=
  { system with
    ring := { system.ring with
      rd := rd
      wr := (system.ring.wr + alloced) % system.ring.maxItems }
    unread := system.unread ++ slots system.ring.maxItems system.ring.wr alloced
    ended := (system.ring.wr + alloced) % system.ring.maxItems }

/-- A request sees `stale` items more than the dongle has to read. -/
structure Sees (system : H2dSystem) (rd stale : Nat) : Prop where
  lag : system.dongleRd = (rd + stale) % system.ring.maxItems
  ahead : RingAhead { system.ring with rd := rd } (stale + system.unread.length)

/-- Every allocation is refused on the dongle's own read index, or granted. -/
theorem h2dMachine_alloc_cases {system : H2dSystem} (valid : H2dInvariant system) (nitems : Nat)
    (exactlyNitems : Bool) :
    (Refused system.ring (writable system.ring system.unread.length) nitems exactlyNitems ∧
      h2dMachine.step system (.allocRingSpace nitems exactlyNitems) =
        ({ system with ring := { system.ring with rd := system.dongleRd } }, some .unavailable)) ∨
    ∃ rd stale alloced, Sees system rd stale ∧
      0 < writable system.ring (stale + system.unread.length) ∧
      alloced = min nitems (writable system.ring (stale + system.unread.length)) ∧
      h2dMachine.step system (.allocRingSpace nitems exactlyNitems) =
        (grant system rd alloced,
          some (.space (system.ring.wr * system.ring.itemLen) alloced)) := by
  obtain ⟨stale, lag, cached⟩ := valid.cached
  have some_writable : ∀ {free}, ¬ Refused system.ring free nitems exactlyNitems → 0 < free :=
    fun granted => Nat.pos_of_ne_zero fun none => granted (Or.inl none)
  rcases cached.getRingSpace_cases nitems exactlyNitems with ⟨-, first⟩ | ⟨granted, first⟩
  · rcases valid.refreshed.getRingSpace_cases nitems exactlyNitems with
      ⟨refused, again⟩ | ⟨granted, again⟩
    · refine Or.inl ⟨refused, ?_⟩
      simp [h2dMachine, dhdProtAllocRingSpace, first, again]
    · refine Or.inr ⟨system.dongleRd, 0, _, ⟨?_, ?_⟩, ?_, rfl, ?_⟩
      · exact (Nat.mod_eq_of_lt valid.dongleRd_inside).symm
      · simpa using valid.refreshed
      · rw [Nat.zero_add]
        exact some_writable granted
      · simp [h2dMachine, dhdProtAllocRingSpace, first, again, grant, writable]
  · refine Or.inr ⟨system.ring.rd, stale, _, ⟨lag, cached⟩, some_writable granted, rfl, ?_⟩
    simp [h2dMachine, dhdProtAllocRingSpace, first, grant]

namespace H2dInvariant

variable {system : H2dSystem}

section

variable (valid : H2dInvariant system)
include valid

theorem refresh : H2dInvariant { system with ring := { system.ring with rd := system.dongleRd } } where
  inside := valid.dongleRd_inside
  narrow := valid.narrow
  lag := ⟨0, (Nat.mod_eq_of_lt valid.dongleRd_inside).symm, by simpa using valid.unread_short⟩
  unread_eq := valid.unread_eq
  wr_eq := valid.wr_eq
  announced_eq := valid.announced_eq
  ended_eq := valid.ended_eq

theorem grant_unread (rd alloced : Nat) :
    (grant system rd alloced).unread =
      slots system.ring.maxItems system.dongleRd (system.unread.length + alloced) := by
  have extended := Circular.slots_add system.ring.maxItems system.dongleRd
    system.unread.length alloced
  rw [← valid.wr_eq, ← valid.unread_eq] at extended
  exact extended.symm

theorem grant (sees : Sees system rd stale)
    (room : stale + system.unread.length + alloced < system.ring.maxItems) :
    H2dInvariant (grant system rd alloced) := by
  have unread := valid.grant_unread rd alloced
  have length : (Msgbuf.grant system rd alloced).unread.length = system.unread.length + alloced := by
    rw [unread, Circular.length_slots]
  refine ⟨sees.ahead.inside, valid.narrow, ⟨stale, sees.lag, ?_⟩, ?_, ?_, ?_, rfl⟩
  · rw [length]
    simpa [Msgbuf.grant, Nat.add_assoc] using room
  · rw [length]
    exact unread
  · rw [length]
    simp [Msgbuf.grant, valid.wr_eq, Nat.add_assoc]
  · obtain ⟨pending, known, place⟩ := valid.announced_eq
    exact ⟨pending, by omega, place⟩

theorem announce : H2dInvariant { system with announced := system.ring.wr } :=
  { valid with announced_eq := ⟨system.unread.length, le_rfl, valid.wr_eq⟩ }

theorem read_within {pending : Nat}
    (admitted : h2dMachine.admits system (.dongleRead count)) (known : pending ≤ system.unread.length)
    (place : system.announced = (system.dongleRd + pending) % system.ring.maxItems) :
    count ≤ pending := by
  have short := valid.unread_short
  have active : (count : Int) ≤ ntxpactive system.dongleRd system.announced
    system.ring.maxItems := admitted
  rw [ntxpactive_natCast valid.dongleRd_inside, place,
    Circular.distance_add valid.dongleRd_inside (by omega)] at active
  exact Int.ofNat_le.mp active

theorem read_unread (within : count ≤ system.unread.length) :
    (h2dMachine.next system (.dongleRead count)).unread =
      slots system.ring.maxItems ((system.dongleRd + count) % system.ring.maxItems)
        (system.unread.length - count) := by
  have short := valid.unread_short
  have split : system.unread.length = count + (system.unread.length - count) := by omega
  have cut : count + (system.unread.length - count) ≤ system.ring.maxItems := by omega
  have filtered := Circular.filter_slots_drop system.dongleRd cut
  rw [← split, ← valid.unread_eq] at filtered
  exact filtered

theorem read_unread_length (within : count ≤ system.unread.length) :
    (h2dMachine.next system (.dongleRead count)).unread.length = system.unread.length - count := by
  rw [valid.read_unread within, Circular.length_slots]

/-- Reading keeps the order of the indices. -/
theorem read (admitted : h2dMachine.admits system (.dongleRead count)) :
    H2dInvariant (h2dMachine.next system (.dongleRead count)) := by
  obtain ⟨pending, known, place⟩ := valid.announced_eq
  have within : count ≤ pending := valid.read_within admitted known place
  have split : system.unread.length = count + (system.unread.length - count) := by omega
  have remaining := valid.read_unread (within.trans known)
  have length := valid.read_unread_length (within.trans known)
  obtain ⟨stale, lag, room⟩ := valid.lag
  refine ⟨valid.inside, valid.narrow, ⟨stale + count, ?_, ?_⟩, ?_, ?_, ?_, valid.ended_eq⟩
  · change (system.dongleRd + count) % _ = _
    rw [lag, Nat.mod_add_mod, Nat.add_assoc]
    rfl
  · rw [length]
    change _ < system.ring.maxItems
    omega
  · rw [length]
    exact remaining
  · rw [length]
    change system.ring.wr = ((system.dongleRd + count) % system.ring.maxItems + _) %
      system.ring.maxItems
    rw [Nat.mod_add_mod, Nat.add_assoc, ← split, ← valid.wr_eq]
  · refine ⟨pending - count, by omega, ?_⟩
    change system.announced = ((system.dongleRd + count) % system.ring.maxItems + _) %
      system.ring.maxItems
    rw [Nat.mod_add_mod, Nat.add_assoc, Nat.add_sub_cancel' within, ← place]

end

end H2dInvariant

theorem grant_room {system : H2dSystem} {nitems : Nat} (sees : Sees system rd stale)
    (granted : alloced = min nitems (writable system.ring (stale + system.unread.length))) :
    stale + system.unread.length + alloced < system.ring.maxItems ∧
      system.ring.wr + alloced ≤ system.ring.maxItems := by
  have short : stale + system.unread.length < system.ring.maxItems := sees.ahead.short
  have inside : system.ring.wr < system.ring.maxItems := sees.ahead.wr_inside
  unfold writable at granted
  omega

theorem h2dMachine_alloc_one {system : H2dSystem} (valid : H2dInvariant system) :
    h2dMachine.step system (.allocRingSpace 1 false) =
        ({ system with ring := { system.ring with rd := system.dongleRd } }, some .unavailable) ∨
      ∃ rd, H2dInvariant (grant system rd 1) ∧
        h2dMachine.step system (.allocRingSpace 1 false) =
          (grant system rd 1, some (.space (system.ring.wr * system.ring.itemLen) 1)) := by
  rcases h2dMachine_alloc_cases valid 1 false with
    ⟨-, step⟩ | ⟨rd, stale, alloced, sees, some, granted, step⟩
  · exact Or.inl step
  · have single : alloced = 1 := by omega
    subst single
    exact Or.inr ⟨rd, valid.grant sees (grant_room sees granted).1, step⟩

theorem h2dMachine_preserves : h2dMachine.Preserves H2dInvariant := by
  intro system call valid admitted
  cases call with
  | allocRingSpace nitems exactlyNitems =>
    rcases h2dMachine_alloc_cases valid nitems exactlyNitems with
      ⟨-, step⟩ | ⟨rd, stale, alloced, sees, -, granted, step⟩
    · rw [Machine.next, step]
      exact valid.refresh
    · rw [Machine.next, step]
      exact valid.grant sees (grant_room sees granted).1
  | ringWriteComplete => exact valid.announce
  | dongleRead count => exact valid.read admitted

/-- A successful allocation: consecutive slots inside the ring, from where the
last one ended, none of them still to be read, and the gap before the read
index stays. -/
structure SoundAllocation (before after : H2dSystem) (nitems offset alloced : Nat) : Prop where
  amount : 1 ≤ alloced ∧ alloced ≤ nitems
  start : offset = before.ended * before.ring.itemLen
  inside : before.ended + alloced ≤ before.ring.maxItems
  fresh : ∀ slot ∈ before.unread, ¬ (before.ended ≤ slot ∧ slot < before.ended + alloced)
  recorded : after.unread = before.unread ++ List.range' before.ended alloced
  ended : after.ended = (before.ended + alloced) % before.ring.maxItems
  gap : after.ring.wr ≠ after.ring.rd ∧ after.ring.wr ≠ after.dongleRd

private theorem wr_ne_rd {d behind count : Nat} (inside : behind < d) (some : 0 < count)
    (short : count < d) : (behind + count) % d ≠ behind := by
  intro same
  have apart := Circular.distance_add inside short
  rw [same] at apart
  simp [Circular.distance] at apart
  omega

theorem grant_sound {system : H2dSystem} (valid : H2dInvariant system) {nitems : Nat}
    (positive : 1 ≤ nitems) (sees : Sees system rd stale)
    (some : 0 < writable system.ring (stale + system.unread.length))
    (granted : alloced = min nitems (writable system.ring (stale + system.unread.length))) :
    SoundAllocation system (grant system rd alloced) nitems
      (system.ring.wr * system.ring.itemLen) alloced := by
  obtain ⟨room, uncut⟩ := grant_room sees granted
  have ended := valid.ended_eq
  have stretch := Circular.slots_eq_range uncut
  have amount : 1 ≤ alloced ∧ alloced ≤ nitems := by omega
  have wr : (grant system rd alloced).ring.wr =
      (system.ring.wr + alloced) % system.ring.maxItems := rfl
  refine ⟨amount, by rw [ended], by rwa [ended], ?_, ?_, by rw [ended]; rfl, ?_, ?_⟩
  · intro slot unread taken
    rw [ended] at taken
    rw [valid.unread_eq] at unread
    have apart := Circular.slots_disjoint system.dongleRd
      (show system.unread.length + alloced ≤ system.ring.maxItems by omega) unread
    rw [← valid.wr_eq, stretch, List.mem_range'_1] at apart
    exact apart taken
  · rw [ended, ← stretch]
    rfl
  · -- counted from the cached index
    have place : (grant system rd alloced).ring.wr =
        (rd + (stale + system.unread.length + alloced)) % system.ring.maxItems := by
      have ahead : system.ring.wr = (rd + (stale + system.unread.length)) % system.ring.maxItems :=
        sees.ahead.ahead
      rw [wr, ahead, Nat.mod_add_mod, Nat.add_assoc]
    rw [place]
    exact wr_ne_rd sees.ahead.inside (by omega) room
  · -- and from the dongle's own
    have place : (grant system rd alloced).ring.wr =
        (system.dongleRd + (system.unread.length + alloced)) % system.ring.maxItems := by
      rw [wr, valid.wr_eq, Nat.mod_add_mod, ← Nat.add_assoc]
    rw [place]
    exact wr_ne_rd valid.dongleRd_inside (by omega) (by omega)

private theorem refused_space {system : H2dSystem} (valid : H2dInvariant system) :
    checkWriteSpace system.dongleRd system.ring.wr system.ring.maxItems =
      (writable system.ring system.unread.length : Nat) := by
  have space := checkWriteSpace_natCast valid.dongleRd_inside valid.unread_short
  rw [← valid.wr_eq] at space
  exact space

theorem h2dIdle_valid {maxItems start : Nat} (itemLen : Nat) (inside : start < maxItems)
    (narrow : maxItems < 2 ^ 16) : H2dInvariant (h2dIdle maxItems itemLen start) where
  inside := inside
  narrow := narrow
  lag := ⟨0, (Nat.mod_eq_of_lt inside).symm, Nat.zero_lt_of_lt inside⟩
  unread_eq := rfl
  wr_eq := (Nat.mod_eq_of_lt inside).symm
  announced_eq := ⟨0, le_rfl, (Nat.mod_eq_of_lt inside).symm⟩
  ended_eq := rfl

/-- Ring allocation against any interleaving of announcements and dongle reads.
A request fails only if the dongle's own read index leaves no slot, or if it
insists on a number of items that fits before the wrap but not before that index. -/
theorem h2d_ring_never_overwrites (maxItems itemLen start : Nat) (inside : start < maxItems)
    (narrow : maxItems < 2 ^ 16) (calls : List H2dCall)
    (admitted : h2dMachine.Admitted (h2dIdle maxItems itemLen start) calls)
    (nitems : Nat) (positive : 1 ≤ nitems) (exactlyNitems : Bool) :
    let before := h2dMachine.run (h2dIdle maxItems itemLen start) calls
    let request := H2dCall.allocRingSpace nitems exactlyNitems
    (before.ring.rd < before.ring.maxItems ∧ before.ring.wr < before.ring.maxItems) ∧
      (∀ offset alloced, h2dMachine.answer before request = some (.space offset alloced) →
        SoundAllocation before (h2dMachine.next before request) nitems offset alloced) ∧
      (h2dMachine.answer before request = some .unavailable →
        checkWriteSpace before.dongleRd before.ring.wr before.ring.maxItems = 0 ∨
          (exactlyNitems = true ∧
            checkWriteSpace before.dongleRd before.ring.wr before.ring.maxItems < nitems ∧
            nitems ≤ before.ring.maxItems - before.ring.wr)) ∧
      (dhdProtGetRingSpace before.ring nitems exactlyNitems).2 ≠ .shouldNeverHit ∧
      h2dMachine.answer before request ≠ some .shouldNeverHit := by
  intro before request
  have valid : H2dInvariant before :=
    h2dMachine.run_invariant h2dMachine_preserves (h2dIdle_valid itemLen inside narrow) admitted
  obtain ⟨stale, -, cached⟩ := valid.cached
  have first : (dhdProtGetRingSpace before.ring nitems exactlyNitems).2 ≠ .shouldNeverHit := by
    rcases cached.getRingSpace_cases nitems exactlyNitems with ⟨-, result⟩ | ⟨-, result⟩
    · simp [result]
    · simp [result]
  refine ⟨⟨valid.inside, cached.wr_inside⟩, ?_⟩
  rcases h2dMachine_alloc_cases valid nitems exactlyNitems with
    ⟨refused, step⟩ | ⟨rd, stale, alloced, sees, some, granted, step⟩
  · refine ⟨?_, ?_, first, ?_⟩
    · intro offset alloced answered
      simp [Machine.answer, request, step] at answered
    · intro _
      rw [refused_space valid]
      rcases refused with none | ⟨exactly, short, fits⟩
      · exact Or.inl (by exact_mod_cast none)
      · exact Or.inr ⟨exactly, by exact_mod_cast short, fits⟩
    · simp [Machine.answer, request, step]
  · refine ⟨?_, ?_, first, ?_⟩
    · intro offset given answered
      rw [Machine.answer, step] at answered
      cases answered
      rw [Machine.next, step]
      exact grant_sound valid positive sees some granted
    · intro refused
      simp [Machine.answer, request, step] at refused
    · simp [Machine.answer, request, step]

/-- The bounds are met by a short run on a ring that wraps. -/
theorem h2d_ring_never_overwrites_wrapping :
    let before := h2dMachine.run (h2dIdle 4 8 3)
      [.allocRingSpace 2 false, .ringWriteComplete, .dongleRead 1]
    SoundAllocation before (h2dMachine.next before (.allocRingSpace 2 false)) 2 0 2 :=
  (h2d_ring_never_overwrites 4 8 3 (by decide) (by decide)
    [.allocRingSpace 2 false, .ringWriteComplete, .dongleRead 1] (by decide) 2 (by decide)
    false).2.1 0 2 (by decide)

/-- A request for exactly two items fails while one slot is available. -/
theorem h2d_exact_request_fails_with_space :
    let before := h2dMachine.run (h2dIdle 4 8 0) [.allocRingSpace 2 false]
    h2dMachine.Admitted (h2dIdle 4 8 0) [.allocRingSpace 2 false] ∧
      h2dMachine.answer before (.allocRingSpace 2 true) = some .unavailable ∧
      checkWriteSpace before.dongleRd before.ring.wr before.ring.maxItems = 1 := by
  decide

end BcmDhd.Msgbuf
