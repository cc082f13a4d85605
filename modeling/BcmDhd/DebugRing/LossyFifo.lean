import BcmDhd.DebugRing.RingBounds

namespace BcmDhd.DebugRing

open BcmDhd.Lib

/-- What a queue of records answers that drops some of the oldest ones for a new one, and
gives out oldest ones, whole and not more than the caller has room for. -/
inductive LossyFifo : List Bytes → List (RingCall × RingAnswer) → Prop
  | nothing (queue : List Bytes) : LossyFifo queue []
  | push {queue : List Bytes} {hdr data : Bytes} {writes : Writes} {pullreq : Bool}
      {rest : List (RingCall × RingAnswer)} (gone : Nat)
      (later : LossyFifo (queue.drop gone ++ [hdr ++ data]) rest) :
      LossyFifo queue ((.push hdr data, .pushed writes pullreq) :: rest)
  | pull {queue : List Bytes} {bufLen : Nat} {rest : List (RingCall × RingAnswer)} (count : Nat)
      (room : (queue.take count).flatten.length ≤ bufLen) (later : LossyFifo (queue.drop count) rest) :
      LossyFifo queue ((.pull bufLen,
        .pulled (queue.take count).flatten (queue.take count).flatten.length) :: rest)

theorem LossyFifo.tail {queue : List Bytes} {entry : RingCall × RingAnswer} {rest : List (RingCall × RingAnswer)}
    (fifo : LossyFifo queue (entry :: rest)) : ∃ later, LossyFifo later rest := by
  cases fifo with
  | push gone later => exact ⟨_, later⟩
  | pull count room later => exact ⟨_, later⟩

theorem LossyFifo.pull_room {queue : List Bytes} {bufLen rLen : Nat} {data : Bytes}
    {rest : List (RingCall × RingAnswer)} (fifo : LossyFifo queue ((.pull bufLen, .pulled data rLen) :: rest)) :
    data.length ≤ bufLen := by
  cases fifo with
  | pull count room later => exact room

/-- No more has been read than either counter allowed, so none wrapped around, and no more
than was stored. -/
def CountsDown (ring : DbgRing) (bufLen : Nat) : RingAnswer → Prop
  | .pulled data _ => data.length ≤ ring.pending ∧ data.length ≤ bufLen ∧ data.length ≤ (storedLengths ring).sum
  | _ => False

/-- A record that is pushed can go somewhere; the smaller of the two lengths of a pull is that
of some oldest records. -/
def Even (ring : DbgRing) : RingCall → Prop
  | .push hdr data => Placed ring (.push hdr data)
  | .pull bufLen => StopsAt ring (min ring.pending bufLen)

section

variable {ring : DbgRing} {stored : List Bytes} {turns availLen bufLen rLen : Nat} {data : Bytes}

theorem stopsAt_of_min (stops : StopsAt ring (min ring.pending bufLen)) :
    StopsAt ring ring.pending ∨ StopsAt ring bufLen := by
  rcases Nat.le_total ring.pending bufLen with le | le
  · rw [Nat.min_eq_left le] at stops
    exact Or.inl stops
  · rw [Nat.min_eq_right le] at stops
    exact Or.inr stops

theorem even_placed {call : RingCall} (even : Even ring call) : Placed ring call := by
  cases call with
  | push hdr data => exact even
  | pull bufLen => exact stopsAt_of_min even

theorem length_take_mono (stored : List Bytes) {less more : Nat} (le : less ≤ more) :
    (stored.take less).flatten.length ≤ (stored.take more).flatten.length := by
  have inner := length_take_le (stored.take more) less
  rw [List.take_take, Nat.min_eq_left le] at inner
  exact inner

theorem storedLengths_sum (stores : Stores ring stored) : (storedLengths ring).sum = stored.flatten.length := by
  rw [storedLengths_eq stores, List.length_flatten]

theorem pull_even (stores : Stores ring stored) (bufSmall : bufLen < 2 ^ 32)
    (even : StopsAt ring (min ring.pending bufLen)) (enough : ring.ringSize ≤ turns) :
    ∃ count after, dhdDbgRingPull turns ring bufLen =
        some (after, (stored.take count).flatten, (stored.take count).flatten.length) ∧
      Stores after (stored.drop count) ∧ after.ringSize = ring.ringSize ∧
      (stored.take count).flatten.length ≤ ring.pending ∧ (stored.take count).flatten.length ≤ bufLen := by
  obtain ⟨count, after, pull, kept, size, _, first⟩ := pull_spec stores bufSmall (stopsAt_of_min even) enough
  obtain ⟨least, _, smaller⟩ := (stopsAt_iff stores).mp even
  have early : count ≤ least := by
    by_contra late
    obtain ⟨notPending, notBuf⟩ := first least (Nat.lt_of_not_le late)
    omega
  have bound := length_take_mono stored early
  exact ⟨count, after, pull, kept, size, by omega, by omega⟩

/-- What has been read stays read. -/
theorem data_grows {pull stopped : Pull} (left : loopFor pullTurn turns pull = some stopped) :
    pull.data.length ≤ stopped.data.length := by
  have kept : ∀ state next : Pull, pull.data.length ≤ state.data.length → pullTurn state = .again next →
      pull.data.length ≤ next.data.length := by
    intro state next read goesOn
    unfold pullTurn at goesOn
    split at goesOn
    · cases goesOn
      rw [List.length_append]
      omega
    · cases goesOn
  have ends : ∀ state result : Pull, pull.data.length ≤ state.data.length → pullTurn state = .leave result →
      pull.data.length ≤ result.data.length := by
    intro state result read ends
    unfold pullTurn at ends
    split at ends
    · cases ends
    · cases ends
      exact read
  exact @Loop.loopFor_invariant _ _ pullTurn pull stopped turns (fun state => pull.data.length ≤ state.data.length)
    (fun result => pull.data.length ≤ result.data.length) kept ends (Nat.le_refl _) left

/-- If no number of stored records comes to one of the lengths, more than they are is read. -/
theorem pull_overreads (small : ring.ringSize < 2 ^ 31) (layout : Layout ring stored)
    (fits : stored.flatten.length < 2 ^ 32) (availSmall : availLen < 2 ^ 32) (bufSmall : bufLen < 2 ^ 32)
    (never : ∀ count ≤ stored.length, (stored.take count).flatten.length ≠ availLen ∧
      (stored.take count).flatten.length ≠ bufLen) {stopped : Pull}
    (left : loopFor pullTurn turns ⟨ring, availLen, bufLen, data, rLen⟩ = some stopped) :
    data.length + stored.flatten.length < stopped.data.length := by
  induction stored generalizing ring availLen bufLen data rLen turns with
  | nil =>
    cases turns with
    | zero => cases left
    | succ turns =>
      obtain ⟨notAvail, notBuf⟩ := never 0 (Nat.le_refl 0)
      have both : 0 < availLen ∧ 0 < bufLen := ⟨Nat.pos_of_ne_zero notAvail.symm, Nat.pos_of_ne_zero notBuf.symm⟩
      have goesOn : pullTurn ⟨ring, availLen, bufLen, data, rLen⟩ = _ := if_pos both
      rw [Loop.loopFor_again goesOn] at left
      have grown := data_grows left
      dsimp only at grown
      rw [List.length_append, Bytes.length_load] at grown
      have size : 0 < dbgRingEntrySize := by decide
      unfold entryLength at grown
      rw [List.flatten_nil, List.length_nil]
      omega
  | cons record rest ih =>
    cases turns with
    | zero => cases left
    | succ turns =>
      obtain ⟨there, later⟩ := layout.head small
      obtain ⟨notAvail, notBuf⟩ := never 0 (Nat.zero_le _)
      have both : 0 < availLen ∧ 0 < bufLen := ⟨Nat.pos_of_ne_zero notAvail.symm, Nat.pos_of_ne_zero notBuf.symm⟩
      have goesOn : pullTurn ⟨ring, availLen, bufLen, data, rLen⟩ = .again ⟨
          { ring with rp := nextEntry ring ring.rp, readBytes := (ring.readBytes + record.length) % 2 ^ 32 },
          sub32 availLen record.length, sub32 bufLen record.length, data ++ record,
          (rLen + record.length) % 2 ^ 32⟩ := by
        unfold pullTurn
        dsimp only
        rw [if_pos both, there.entryLength, there.bytes]
      rw [Loop.loopFor_again goesOn] at left
      rw [List.flatten_cons, List.length_append] at fits ⊢
      have layoutLater : Layout { ring with
          rp := nextEntry ring ring.rp, readBytes := (ring.readBytes + record.length) % 2 ^ 32 } rest :=
        layout_same later rfl rfl rfl rfl
      have neverLater : ∀ count ≤ rest.length, (rest.take count).flatten.length ≠ sub32 availLen record.length ∧
          (rest.take count).flatten.length ≠ sub32 bufLen record.length := by
        intro count bound
        obtain ⟨notAvail, notBuf⟩ := never (count + 1) (Nat.succ_le_succ bound)
        have whole := length_take_le rest count
        rw [length_take_succ] at notAvail notBuf
        exact ⟨fun at_ => notAvail ((sub32_eq_iff availSmall (by omega)).mp at_.symm).symm,
          fun at_ => notBuf ((sub32_eq_iff bufSmall (by omega)).mp at_.symm).symm⟩
      have smallLater : DbgRing.ringSize { ring with
          rp := nextEntry ring ring.rp, readBytes := (ring.readBytes + record.length) % 2 ^ 32 } < 2 ^ 31 := small
      have more := ih smallLater layoutLater (by omega) (Nat.mod_lt _ (by decide))
        (Nat.mod_lt _ (by decide)) neverLater left
      rw [List.length_append] at more
      omega

theorem pull_uneven (stores : Stores ring stored) (bufSmall : bufLen < 2 ^ 32)
    (uneven : ¬StopsAt ring (min ring.pending bufLen)) :
    ¬CountsDown ring bufLen (ringStep turns ring (.pull bufLen)).2 := by
  intro counts
  have bound := layout_length stores.layout
  have small := stores.small
  simp only [ringStep] at counts
  cases pulled : dhdDbgRingPull turns ring bufLen with
  | none =>
    rw [pulled] at counts
    exact counts
  | some result =>
    rw [pulled] at counts
    obtain ⟨underPending, underBuf, underAll⟩ := counts
    rw [storedLengths_sum stores] at underAll
    unfold dhdDbgRingPull at pulled
    rw [if_pos stores.active] at pulled
    obtain ⟨stopped, left, same⟩ := Option.map_eq_some_iff.mp pulled
    cases same
    by_cases stops : ∃ count ≤ stored.length, (stored.take count).flatten.length = ring.pending ∨
        (stored.take count).flatten.length = bufLen
    · obtain ⟨count, ended, leftEarly, taken⟩ := @pull_leaves ring.pending bufLen 0 [] stored ring small stores.layout
        (by omega) (pending_lt ring) bufSmall stops
      have same := Loop.Leaves.unique ⟨turns, left⟩ ⟨_, leftEarly⟩
      have data := taken.data
      rw [← same, List.nil_append] at data
      dsimp only at underPending underBuf
      rw [data] at underPending underBuf
      refine uneven ((stopsAt_iff stores).mpr ⟨min count stored.length, Nat.min_le_right _ _, ?_⟩)
      have capped : stored.take (min count stored.length) = stored.take count := by
        rw [← List.take_take, List.take_length]
      rw [capped]
      rcases taken.stops with at_ | at_
      · dsimp only at at_
        omega
      · dsimp only at at_
        omega
    · push Not at stops
      have more := pull_overreads small stores.layout (by omega) (pending_lt ring) bufSmall stops left
      rw [List.length_nil] at more
      dsimp only at underAll
      omega

/-- A run of even calls answers like the queue that holds what the ring stores. -/
theorem run_lossy {calls : List RingCall} (enough : ring.ringSize ≤ turns) (stores : Stores ring stored)
    (met : ((dbgRing turns).restrict Even).Admitted ring calls) :
    LossyFifo stored ((dbgRing turns).history ring calls) := by
  induction calls generalizing ring stored with
  | nil => exact .nothing stored
  | cons call rest ih =>
    obtain ⟨⟨admitted, even⟩, remaining⟩ := met
    rw [Machine.restrict_next] at remaining
    cases call with
    | push hdr data =>
      obtain ⟨place, lands, shown⟩ := even
      obtain ⟨gone, after, writes, pullreq, push, kept, _, size⟩ := push_spec stores admitted lands shown enough
      have step : (dbgRing turns).step ring (.push hdr data) = (after, .pushed writes pullreq) := by
        change ringStep turns ring (.push hdr data) = _
        simp only [ringStep, push]
      simp only [Machine.next, step] at remaining
      simp only [Machine.history, Machine.answer, Machine.next, step]
      exact .push gone (ih (size ▸ enough) kept remaining)
    | pull bufLen =>
      obtain ⟨count, after, pull, kept, size, _, room⟩ := pull_even stores admitted even enough
      have step : (dbgRing turns).step ring (.pull bufLen) =
          (after, .pulled (stored.take count).flatten (stored.take count).flatten.length) := by
        change ringStep turns ring (.pull bufLen) = _
        simp only [ringStep, pull]
      simp only [Machine.next, step] at remaining
      simp only [Machine.history, Machine.answer, Machine.next, step]
      exact .pull count room (ih (size ▸ enough) kept remaining)

theorem pull_countsDown (stores : Stores ring stored) (bufSmall : bufLen < 2 ^ 32)
    (even : StopsAt ring (min ring.pending bufLen)) (enough : ring.ringSize ≤ turns) :
    CountsDown ring bufLen ((dbgRing turns).answer ring (.pull bufLen)) := by
  obtain ⟨count, after, pull, _, _, underPending, underBuf⟩ := pull_even stores bufSmall even enough
  change CountsDown ring bufLen (ringStep turns ring (.pull bufLen)).2
  simp only [ringStep, pull]
  refine ⟨underPending, underBuf, ?_⟩
  rw [storedLengths_sum stores]
  exact length_take_le stored count

end

/-- From an empty ring on, the calls answer like a queue that may lose its oldest records
for new ones, and no counter of a pull wraps around, if every record that is pushed can go
somewhere and the smaller length of every pull is that of some oldest records. The first
pull of which it is not reads beyond one of them or beyond what is stored, or does not
return. -/
theorem ring_lossy_fifo (turns ringSize threshold : Nat) (ringBuf : Memory) (calls : List RingCall)
    (sized : dbgRingEntrySize ≤ ringSize) (small : ringSize < 2 ^ 31) (enough : ringSize ≤ turns)
    (admitted : (dbgRing turns).Admitted (ringStart ringSize threshold ringBuf) calls) :
    let reached := (dbgRing turns).run (ringStart ringSize threshold ringBuf)
    let answer := fun past call => (dbgRing turns).answer (reached past) call
    let evenIn := fun calls => ∀ past call rest, calls = past ++ call :: rest → Even (reached past) call
    (evenIn calls → LossyFifo [] ((dbgRing turns).history (ringStart ringSize threshold ringBuf) calls) ∧
      ∀ past bufLen rest, calls = past ++ .pull bufLen :: rest →
        CountsDown (reached past) bufLen (answer past (.pull bufLen))) ∧
    ∀ past bufLen rest, calls = past ++ .pull bufLen :: rest → evenIn past →
      ¬StopsAt (reached past) (min (reached past).pending bufLen) →
      ¬CountsDown (reached past) bufLen (answer past (.pull bufLen)) := by
  intro reached answer evenIn
  have holds : ∀ past rest, calls = past ++ rest → evenIn past → HoldsLast ringSize (reached past) past := by
    intro past rest split even
    rw [split, Machine.admitted_append] at admitted
    exact run_holds sized small enough admitted.1 fun earlier call later inside =>
      even_placed (even earlier call later inside)
  have accepted : ∀ past bufLen rest, calls = past ++ .pull bufLen :: rest → bufLen < 2 ^ 32 := by
    intro past bufLen rest split
    rw [split, Machine.admitted_append] at admitted
    exact admitted.2.1
  constructor
  · intro even
    constructor
    · exact run_lossy enough (ringStart_stores sized small)
        (((dbgRing turns).admitted_restrict_iff _ calls).mpr ⟨admitted, even⟩)
    · intro past bufLen rest split
      have before : evenIn past := by
        intro earlier call later inside
        exact even earlier call (later ++ .pull bufLen :: rest)
          (by rw [split, inside, List.append_assoc, List.cons_append])
      obtain ⟨size, stored, stores, _⟩ := holds past _ split before
      exact pull_countsDown stores (accepted past bufLen rest split) (even past _ rest split) (size ▸ enough)
  · intro past bufLen rest split even uneven
    obtain ⟨_, stored, stores, _⟩ := holds past _ split even
    exact pull_uneven stores (accepted past bufLen rest split) uneven

instance decidableEven (ring : DbgRing) : (call : RingCall) → Decidable (Even ring call)
  | .push hdr data => inferInstanceAs (Decidable (Placed ring (.push hdr data)))
  | .pull bufLen => inferInstanceAs (Decidable (StopsAt ring (min ring.pending bufLen)))

/-- Records that wrap around, and one that is lost for another. -/
def losesOldest : List RingCall :=
  [recordCall 20, recordCall 20, recordCall 16, .pull 36, recordCall 4, recordCall 8]

theorem ring_lossy_fifo_loses :
    LossyFifo [] ((dbgRing 100).history (ringStart 100 0 fun _ => 0) losesOldest) ∧
      ∀ past bufLen rest, losesOldest = past ++ .pull bufLen :: rest →
        CountsDown ((dbgRing 100).run (ringStart 100 0 fun _ => 0) past) bufLen
          ((dbgRing 100).answer ((dbgRing 100).run (ringStart 100 0 fun _ => 0) past) (.pull bufLen)) := by
  have met : ((dbgRing 100).restrict Even).Admitted (ringStart 100 0 fun _ => 0) losesOldest := by decide +kernel
  have both := ((dbgRing 100).admitted_restrict_iff _ _).mp met
  exact (ring_lossy_fifo 100 100 0 (fun _ => 0) losesOldest (by decide) (by decide) (by decide) both.1).1 both.2

/-- A record of 32 bytes is read for a caller who has room for 10. -/
theorem short_buffer_overrun :
    let reached := (dbgRing 64).run (ringStart 64 0 fun _ => 0) [recordCall 16]
    let read := header 16 1 ++ List.replicate 16 7
    (dbgRing 64).Admitted (ringStart 64 0 fun _ => 0) [recordCall 16, .pull 10] ∧
      (dbgRing 64).answer reached (.pull 10) = .pulled read 32 ∧
      ¬CountsDown reached 10 ((dbgRing 64).answer reached (.pull 10)) ∧
      ¬LossyFifo [] ((dbgRing 64).history (ringStart 64 0 fun _ => 0) [recordCall 16, .pull 10]) := by
  intro reached read
  have answer : (dbgRing 64).answer reached (.pull 10) = .pulled read 32 := by decide +kernel
  have tooLong : ¬read.length ≤ 10 := by decide +kernel
  refine ⟨by decide +kernel, answer, ?_, ?_⟩
  · rw [answer]
    exact fun counts => tooLong counts.2.1
  · intro fifo
    obtain ⟨queue, later⟩ := LossyFifo.tail fifo
    change LossyFifo queue [(.pull 10, (dbgRing 64).answer reached (.pull 10))] at later
    rw [answer] at later
    exact tooLong later.pull_room

end BcmDhd.DebugRing
