import BcmDhd.DebugRing.NoRoom

namespace BcmDhd.DebugRing

open BcmDhd.Lib

def RingCall.records : RingCall → List Bytes
  | .push hdr data => [hdr ++ data]
  | .pull _ => []

/-- All records that have been pushed, in order. -/
def pushedRecords (calls : List RingCall) : List Bytes := calls.flatMap RingCall.records

/-- The pointers are inside the buffer. Where they differ, the read pointer is at the oldest
of the last records, or at the end marker while this record is at the start. -/
structure InBounds (ring : DbgRing) (pushed : List Bytes) : Prop where
  rp : ring.rp ≤ ring.ringSize
  wp : ring.wp ≤ ring.ringSize
  points : ring.rp ≠ ring.wp → ∃ record rest, (record :: rest) <:+ pushed ∧
    (RecordAt ring.ringBuf ring.rp record ∨ entryLen ring.ringBuf ring.rp = 0 ∧ RecordAt ring.ringBuf 0 record)

/-- The call has returned, and all that it wrote is in the buffer. -/
def RingAnswer.WritesInside (size : Nat) : RingAnswer → Prop
  | .pushed writes _ => writes.Inside size
  | .pulled _ _ => True
  | .running => False

/-- A record that is pushed can go somewhere, and to the start of the buffer if it has no
payload; records that are pulled come to one of the lengths that end a pull. -/
def Placed (ring : DbgRing) : RingCall → Prop
  | .push hdr _ => ∃ place, landing ring (headerLen hdr + dbgRingEntrySize) = some place ∧
      (headerLen hdr = 0 → place = 0)
  | .pull bufLen => StopsAt ring ring.pending ∨ StopsAt ring bufLen

section

variable {ring : DbgRing} {stored pushed : List Bytes} {turns : Nat}

theorem inBounds_of_stores (stores : Stores ring stored) (last : stored <:+ pushed) : InBounds ring pushed := by
  have bounds := layout_bounds stores.layout
  refine ⟨bounds.1, bounds.2, fun differ => ?_⟩
  cases stored with
  | nil =>
    generalize none_ : ([] : List Bytes) = stored at stores
    have layout := stores.layout
    cases layout with
    | straight gone stored before tiles inside =>
      subst none_
      exact absurd tiles differ
    | wrapped tail front marker tiles marked inside behind below =>
      obtain ⟨_, rfl⟩ := List.append_eq_nil_iff.mp none_.symm
      have start : ring.wp = 0 := behind.symm
      have pointer := stores.started start
      omega
  | cons record rest =>
    refine ⟨record, rest, last, ?_⟩
    have there := (stores.layout.head stores.small).1
    unfold getEntry at there
    split at there
    · rename_i marked
      exact Or.inr ⟨marked, there⟩
    · exact Or.inl there

/-- One call keeps the ring as it should be. -/
theorem call_stores (enough : ring.ringSize ≤ turns) (stores : Stores ring stored) (last : stored <:+ pushed)
    {call : RingCall} (admitted : (dbgRing turns).admits ring call) (placed : Placed ring call) :
    ((dbgRing turns).answer ring call).WritesInside ring.ringSize ∧
      ((dbgRing turns).next ring call).ringSize = ring.ringSize ∧
      ∃ after, Stores ((dbgRing turns).next ring call) after ∧ after <:+ pushed ++ call.records := by
  cases call with
  | push hdr data =>
    obtain ⟨place, lands, shown⟩ := placed
    obtain ⟨gone, after, writes, pullreq, push, kept, inside, size⟩ :=
      push_spec stores admitted lands shown enough
    have step : ringStep turns ring (.push hdr data) = (after, .pushed writes pullreq) := by
      simp only [ringStep, push]
    unfold Machine.answer Machine.next
    change (ringStep turns ring (.push hdr data)).2.WritesInside _ ∧ _ = _ ∧
      ∃ after, Stores (ringStep turns ring (.push hdr data)).1 after ∧ _
    refine ⟨by rw [step]; exact inside, ?_, ?_⟩
    · change (ringStep turns ring (.push hdr data)).1.ringSize = _
      rw [step]
      exact size
    · rw [step]
      refine ⟨_, kept, ?_⟩
      obtain ⟨earlier, rfl⟩ := last
      refine ⟨earlier ++ stored.take gone, ?_⟩
      change _ = earlier ++ stored ++ [hdr ++ data]
      rw [List.append_assoc, ← List.append_assoc (stored.take gone), List.take_append_drop, List.append_assoc]
  | pull bufLen =>
    obtain ⟨count, after, pull, kept, size, _⟩ := pull_spec stores admitted placed enough
    have step : ringStep turns ring (.pull bufLen) =
        (after, .pulled (stored.take count).flatten (stored.take count).flatten.length) := by
      simp only [ringStep, pull]
    unfold Machine.answer Machine.next
    change (ringStep turns ring (.pull bufLen)).2.WritesInside _ ∧ _ = _ ∧
      ∃ after, Stores (ringStep turns ring (.pull bufLen)).1 after ∧ _
    refine ⟨by rw [step]; trivial, ?_, ?_⟩
    · change (ringStep turns ring (.pull bufLen)).1.ringSize = _
      rw [step]
      exact size
    · rw [step]
      refine ⟨_, kept, ?_⟩
      change stored.drop count <:+ pushed ++ []
      rw [List.append_nil]
      exact (List.drop_suffix count stored).trans last

end

theorem ringStart_stores {ringSize threshold : Nat} {ringBuf : Memory} (sized : dbgRingEntrySize ≤ ringSize)
    (small : ringSize < 2 ^ 31) : Stores (ringStart ringSize threshold ringBuf) [] :=
  ⟨.straight [] [] rfl rfl (Nat.zero_le _), fun _ => rfl, small, sized, rfl⟩

/-- The last records that have been pushed are stored. -/
def HoldsLast (ringSize : Nat) (ring : DbgRing) (past : List RingCall) : Prop :=
  ring.ringSize = ringSize ∧ ∃ stored, Stores ring stored ∧ stored <:+ pushedRecords past

theorem run_holds {turns ringSize threshold : Nat} {ringBuf : Memory} (sized : dbgRingEntrySize ≤ ringSize)
    (small : ringSize < 2 ^ 31) (enough : ringSize ≤ turns) {calls : List RingCall}
    (admitted : (dbgRing turns).Admitted (ringStart ringSize threshold ringBuf) calls)
    (placed : ∀ past call rest, calls = past ++ call :: rest →
      Placed ((dbgRing turns).run (ringStart ringSize threshold ringBuf) past) call) :
    HoldsLast ringSize ((dbgRing turns).run (ringStart ringSize threshold ringBuf) calls) calls := by
  have met := ((dbgRing turns).admitted_restrict_iff _ calls).mpr ⟨admitted, placed⟩
  have begins : HoldsLast ringSize (ringStart ringSize threshold ringBuf) [] :=
    ⟨rfl, [], ringStart_stores sized small, List.suffix_refl []⟩
  have reached := ((dbgRing turns).restrict Placed).run_calls_invariant (fun ring past call held accepted => by
    obtain ⟨size, stored, stores, last⟩ := held
    obtain ⟨_, kept, after, storesAfter, lastAfter⟩ :=
      call_stores (size ▸ enough) stores last accepted.1 accepted.2
    refine ⟨kept.trans size, after, storesAfter, ?_⟩
    unfold pushedRecords at lastAfter ⊢
    rw [List.flatMap_append, List.flatMap_singleton]
    exact lastAfter) begins met
  rw [Machine.restrict_run, List.nil_append] at reached
  exact reached

/-- From an empty ring on, calls return with all that they write inside the buffer, and the
pointers stay inside and where records are, if every record that is pushed can go somewhere
and every pull ends with a record. The first record that cannot leaves the buffer, or its
call does not return. -/
theorem ring_in_bounds (turns ringSize threshold : Nat) (ringBuf : Memory) (calls : List RingCall)
    (sized : dbgRingEntrySize ≤ ringSize) (small : ringSize < 2 ^ 31) (enough : ringSize ≤ turns)
    (admitted : (dbgRing turns).Admitted (ringStart ringSize threshold ringBuf) calls) :
    let reached := (dbgRing turns).run (ringStart ringSize threshold ringBuf)
    let placedIn := fun calls => ∀ past call rest, calls = past ++ call :: rest → Placed (reached past) call
    (placedIn calls → (∀ past call rest, calls = past ++ call :: rest →
        ((dbgRing turns).answer (reached past) call).WritesInside ringSize) ∧
      ∀ past rest, calls = past ++ rest → InBounds (reached past) (pushedRecords past)) ∧
    ∀ past hdr data rest, calls = past ++ .push hdr data :: rest → placedIn past →
      landing (reached past) (headerLen hdr + dbgRingEntrySize) = none →
      ¬((dbgRing turns).answer (reached past) (.push hdr data)).WritesInside ringSize := by
  intro reached placedIn
  have holds : ∀ past rest, calls = past ++ rest → placedIn past → HoldsLast ringSize (reached past) past := by
    intro past rest split placed
    rw [split, Machine.admitted_append] at admitted
    exact run_holds sized small enough admitted.1 placed
  constructor
  · intro placed
    have before : ∀ past rest, calls = past ++ rest → placedIn past := by
      intro past rest split earlier call later inside
      exact placed earlier call (later ++ rest) (by rw [split, inside, List.append_assoc, List.cons_append])
    constructor
    · intro past call rest split
      obtain ⟨size, stored, stores, last⟩ := holds past _ split (before past _ split)
      have accepted : (dbgRing turns).admits (reached past) call := by
        rw [split, Machine.admitted_append] at admitted
        exact admitted.2.1
      have inside := (call_stores (size ▸ enough) stores last accepted (placed past call rest split)).1
      rw [size] at inside
      exact inside
    · intro past rest split
      obtain ⟨_, stored, stores, last⟩ := holds past rest split (before past rest split)
      exact inBounds_of_stores stores last
  · intro past hdr data rest split placed noPlace
    obtain ⟨size, stored, stores, _⟩ := holds past _ split placed
    change ¬(ringStep turns (reached past) (.push hdr data)).2.WritesInside ringSize
    simp only [ringStep]
    cases pushed : dhdDbgRingPush turns (reached past) hdr data with
    | none => exact id
    | some result =>
      rw [← size]
      exact push_overruns stores noPlace pushed

instance decidableStopsAt (ring : DbgRing) (amount : Nat) : Decidable (StopsAt ring amount) :=
  decidable_of_iff
    ((List.range ((storedLengths ring).length + 1)).any fun count => ((storedLengths ring).take count).sum = amount) (by
      unfold StopsAt
      simp only [List.any_eq_true, List.mem_range, Nat.lt_succ_iff, decide_eq_true_iff])

instance decidablePlaced (ring : DbgRing) : (call : RingCall) → Decidable (Placed ring call)
  | .push hdr data => decidable_of_iff
      ((landing ring (headerLen hdr + dbgRingEntrySize)).any fun place => headerLen hdr ≠ 0 ∨ place = 0) (by
        unfold Placed
        rw [Option.any_eq_true]
        refine exists_congr fun place => and_congr Iff.rfl ?_
        rw [decide_eq_true_iff, imp_iff_not_or])
  | .pull bufLen => inferInstanceAs (Decidable (StopsAt ring ring.pending ∨ StopsAt ring bufLen))

/-- A header with a length and a type. -/
def header (len type : UInt8) : Bytes := [len, 0, 0, type] ++ List.replicate 12 0

def recordCall (len : UInt8) : RingCall := .push (header len 1) (List.replicate len.toNat 7)

/-- Records that wrap around, in a ring of 100 bytes. -/
def wrapsAround : List RingCall :=
  [recordCall 20, recordCall 20, recordCall 16, .pull 36, recordCall 4, .pull 52, recordCall 4]

theorem ring_in_bounds_wraps :
    let reached := (dbgRing 100).run (ringStart 100 0 fun _ => 0)
    (∀ past call rest, wrapsAround = past ++ call :: rest →
      ((dbgRing 100).answer (reached past) call).WritesInside 100) ∧
    ∀ past rest, wrapsAround = past ++ rest → InBounds (reached past) (pushedRecords past) := by
  have met : ((dbgRing 100).restrict Placed).Admitted (ringStart 100 0 fun _ => 0) wrapsAround := by decide +kernel
  have both := ((dbgRing 100).admitted_restrict_iff _ _).mp met
  exact (ring_in_bounds 100 100 0 (fun _ => 0) wrapsAround (by decide) (by decide) (by decide) both.1).1 both.2

/-- A record is pulled, and the next one is pushed to the same place, where the pointers are
equal again: its payload goes beyond the buffer. -/
theorem empty_ring_overruns :
    let reached := (dbgRing 64).run (ringStart 64 0 fun _ => 0) [recordCall 16, .pull 32]
    (dbgRing 64).Admitted (ringStart 64 0 fun _ => 0) [recordCall 16, .pull 32, recordCall 32] ∧
      reached.rp = 32 ∧ reached.wp = 32 ∧
      (dbgRing 64).answer reached (recordCall 32) = .pushed [(32, 16), (32, 2), (48, 32)] false ∧
      ¬((dbgRing 64).answer reached (recordCall 32)).WritesInside 64 := by
  intro reached
  have answer : (dbgRing 64).answer reached (recordCall 32) = .pushed [(32, 16), (32, 2), (48, 32)] false := by
    decide +kernel
  refine ⟨by decide +kernel, by decide +kernel, by decide +kernel, answer, fun inside => ?_⟩
  rw [answer] at inside
  exact absurd (inside (48, 32) (by decide)) (by decide)

end BcmDhd.DebugRing
