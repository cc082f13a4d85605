import BcmDhd.Attributes.BuffObj
import BcmDhd.Wps.BuffObj

namespace BcmDhd.Attributes

open BcmDhd.Lib

namespace BufferObj

/-- `buffobj_setbuf`. -/
def setbuf (base : Memory) (len : Nat) : BufferObj :=
  { base := base, current := 0, bufferLength := len, currentLength := 0, dataLength := 0, allocated := false }

/-- `buffobj_Set`, with the position counted from `pBase`. -/
def set (b : BufferObj) (pos : Int) : Option BufferObj :=
  if pos < 0 then none
  else if b.bufferLength < pos then none
  else
    let offset := Int.bmod (b.current - pos) (2 ^ 32)
    some { b with current := pos.toNat, currentLength := ((b.currentLength - offset) % 2 ^ 32).toNat }

/-- `buffobj_Write`, which leaves the cursor. -/
def write (b : BufferObj) (bytes : Bytes) : Option BufferObj :=
  if bytes = [] ∨ b.remaining < bytes.length then none else some { b with base := store b.base b.current bytes }

/-- The place that `buffobj_Append` returns. -/
def appendLocation (fresh : Memory) (b : BufferObj) (bytes : Bytes) : Option Nat :=
  (b.append fresh bytes).map fun after => after.current - bytes.length

end BufferObj

inductive BufferOp
  | new (block : Memory)
  | setbuf (base : Memory) (len : Nat)
  | dserial (base : Memory) (length : Nat)
  | append (fresh : Memory) (bytes : Bytes)
  | advance (offset : Nat)
  | set (pos : Int)
  | reset
  | rewind
  | rewindLength (length : Nat)
  | write (bytes : Bytes)

/-- What an operation makes of a buffer, which is the same if it is refused. Nothing if it writes
outside the buffer's block. -/
def BufferObj.apply (b : BufferObj) : BufferOp → Option BufferObj
  | .new block => some (.new block)
  | .setbuf base len => some (.setbuf base len)
  | .dserial base length => some (.dserial base length)
  | .append fresh bytes => b.append fresh bytes
  | .advance offset => some ((b.advance offset).getD b)
  | .set pos => some ((b.set pos).getD b)
  | .reset => some b.reset
  | .rewind => some b.rewind
  | .rewindLength length => some ((b.rewindLength length).getD b)
  | .write bytes => some ((b.write bytes).getD b)

namespace BufferOp

/-- Lengths and offsets are below 2^31. -/
def Small : BufferOp → Prop
  | .setbuf _ length | .dserial _ length | .advance length | .rewindLength length => length < 2 ^ 31
  | .append _ bytes | .write bytes => bytes.length < 2 ^ 31
  | .new _ | .set _ | .reset | .rewind => True

/-- The length that is added to the cursor, or the new size of the block, is counted in 32 bits. -/
def Fits (b : BufferObj) : BufferOp → Prop
  | .append _ bytes => bytes.length ≤ b.remaining ∨ b.currentLength + max bytes.length bufBlockSize < 2 ^ 32
  | .advance offset => b.currentLength + offset < 2 ^ 32
  | .new _ | .setbuf _ _ | .dserial _ _ | .set _ | .reset | .rewind | .rewindLength _ | .write _ => True

/-- What an operation is to do: put bytes at the cursor and tell where, and leave what is in front
of it; or nothing, if it is refused. -/
def Effect (b after : BufferObj) : BufferOp → Prop
  | .append fresh bytes => b.appendLocation fresh bytes = some b.current ∧
      load after.base b.current bytes.length = bytes ∧ ∀ place < b.current, after.base place = b.base place
  | .advance offset => b.advance offset = none → after = b
  | .set pos => b.set pos = none → after = b
  | .rewindLength length => b.rewindLength length = none → after = b
  | .new _ | .setbuf _ _ | .dserial _ _ | .reset | .rewind | .write _ => True

end BufferOp

namespace BufferObj

/-- The cursor and the data are inside the block, and the cursor is where it is counted to be. -/
structure Consistent (b : BufferObj) : Prop where
  current : b.current = b.currentLength
  inside : b.currentLength ≤ b.bufferLength
  data : b.dataLength ≤ b.bufferLength

/-- An operation does what it is to do. -/
def StepGood (b : BufferObj) (op : BufferOp) : Prop :=
  ∃ after, b.apply op = some after ∧ after.Consistent ∧ op.Effect b after

/-- The buffers that come of operations whose lengths fit. -/
inductive Reached : BufferObj → Prop
  | new (block : Memory) : Reached (.new block)
  | setbuf (base : Memory) {len : Nat} (small : len < 2 ^ 31) : Reached (.setbuf base len)
  | step {b after : BufferObj} {op : BufferOp} (before : Reached b) (small : op.Small) (fits : op.Fits b)
      (done : b.apply op = some after) : Reached after

/-- What makes operations go on well: lengths are counted in 32 bits, those of other's memory in 31. -/
structure Kept (b : BufferObj) : Prop extends Consistent b where
  small : b.bufferLength < 2 ^ 32
  foreign : b.allocated = false → b.bufferLength < 2 ^ 31

variable {b after : BufferObj} {fresh : Memory} {bytes : Bytes} {offset length : Nat} {pos : Int}

theorem Kept.sound (kept : b.Kept) : b.Sound := ⟨kept.current, kept.inside, kept.small⟩

theorem Kept.remaining (kept : b.Kept) : b.remaining = b.bufferLength - b.currentLength := remaining_of_sound kept.sound

theorem own_kept (kept : b.Kept) (short : length < 2 ^ 31)
    (fits : length ≤ b.remaining ∨ b.currentLength + max length bufBlockSize < 2 ^ 32) :
    ∃ owner, b.own fresh length = some owner ∧ owner.Kept ∧ (owner.remaining < length → owner.allocated = true) ∧
      (length ≤ owner.remaining ∨ owner.currentLength + max length bufBlockSize < 2 ^ 32) := by
  unfold own
  split
  · rename_i full
    have foreign := kept.foreign full.1
    have inside := kept.inside
    have data := kept.data
    have block : bufBlockSize = 256 := rfl
    have size : (b.bufferLength + bufBlockSize) % 2 ^ 32 = b.bufferLength + bufBlockSize := Nat.mod_eq_of_lt (by omega)
    dsimp only
    rw [size, if_neg (by omega)]
    refine ⟨_, rfl, ⟨⟨rfl, ?_, ?_⟩, ?_, fun none_ => by cases none_⟩, fun _ => rfl, Or.inr ?_⟩
    all_goals dsimp only; omega
  · rename_i own_
    exact ⟨b, rfl, kept, fun full => Bool.not_eq_false _ ▸ fun foreign => own_ ⟨foreign, full⟩, fits⟩

/-- There is room in a block that has been made larger. -/
theorem grown_kept (kept : b.Kept) (owned : b.remaining < length → b.allocated = true)
    (fits : length ≤ b.remaining ∨ b.currentLength + max length bufBlockSize < 2 ^ 32) :
    (b.grown fresh length).Kept ∧ (b.grown fresh length).current + length ≤ (b.grown fresh length).bufferLength := by
  have same := kept.current
  have inside := kept.inside
  have left := kept.remaining
  unfold grown
  split
  · rename_i full
    have data := kept.data
    have more := fits.resolve_left (Nat.not_le.mpr full)
    have size : (b.currentLength + max length bufBlockSize) % 2 ^ 32 = b.currentLength + max length bufBlockSize :=
      Nat.mod_eq_of_lt more
    dsimp only
    rw [size]
    refine ⟨⟨⟨rfl, ?_, ?_⟩, more, fun none_ => ?_⟩, ?_⟩
    · dsimp only
      omega
    · dsimp only
      omega
    · rw [owned full] at none_
      cases none_
    · omega
  · exact ⟨kept, by omega⟩

theorem put_kept (kept : b.Kept) (room : b.current + bytes.length ≤ b.bufferLength) : (b.put bytes).Kept := by
  have same := kept.current
  have small := kept.small
  have whole : (b.currentLength + bytes.length) % 2 ^ 32 = b.currentLength + bytes.length := Nat.mod_eq_of_lt (by omega)
  refine ⟨⟨?_, ?_, ?_⟩, small, kept.foreign⟩
  · change b.current + bytes.length = _ % _
    rw [whole, same]
  · change _ % _ ≤ b.bufferLength
    rw [whole]
    omega
  · exact (Nat.mod_le _ _).trans room

theorem append_kept (kept : b.Kept) (short : bytes.length < 2 ^ 31) (fits : (BufferOp.append fresh bytes).Fits b) :
    ∃ after, b.append fresh bytes = some after ∧ after.Kept := by
  unfold append
  split
  · exact ⟨b, rfl, kept⟩
  · obtain ⟨owner, owned, keptOwner, alone, fitsOwner⟩ := @own_kept b fresh bytes.length kept short fits
    obtain ⟨keptRoom, room⟩ := @grown_kept owner fresh bytes.length keptOwner alone fitsOwner
    rw [owned, Option.bind_some]
    dsimp only
    rw [if_neg (Nat.not_lt.mpr room)]
    exact ⟨_, rfl, put_kept keptRoom room⟩

theorem append_overrun (kept : b.Kept) (short : bytes.length < 2 ^ 31)
    (unfit : ¬ (BufferOp.append fresh bytes).Fits b) :
    b.append fresh bytes = none := by
  obtain ⟨full, large⟩ := not_or.mp unfit
  rw [Nat.not_le] at full
  have same := kept.current
  have inside := kept.inside
  have block : bufBlockSize = 256 := rfl
  have some_ : bytes ≠ [] := List.ne_nil_of_length_pos (Nat.lt_of_le_of_lt (Nat.zero_le _) full)
  have own_ : ¬ (b.allocated = false ∧ b.remaining < bytes.length) := by
    rintro ⟨foreign, _⟩
    have small := kept.foreign foreign
    omega
  have small := kept.small
  have wraps : (b.currentLength + max bytes.length bufBlockSize) % 2 ^ 32 < b.currentLength := by omega
  unfold append own
  rw [if_neg some_, if_neg own_, Option.bind_some]
  unfold grown
  rw [if_pos full]
  exact if_pos (by dsimp only; omega)

theorem append_good (kept : b.Kept) (short : bytes.length < 2 ^ 31) :
    b.StepGood (.append fresh bytes) ↔ (BufferOp.append fresh bytes).Fits b := by
  constructor
  · rintro ⟨after, done, _⟩
    by_contra unfit
    rw [apply, append_overrun kept short unfit] at done
    cases done
  · intro fits
    obtain ⟨after, done, keptAfter⟩ := append_kept kept short fits
    have appended := append_appended kept.sound done
    refine ⟨after, done, keptAfter.toConsistent, ?_, appended.there, appended.kept⟩
    unfold appendLocation
    rw [done, Option.map_some, appended.current, Nat.add_sub_cancel]

theorem advance_kept (kept : b.Kept) (fits : b.currentLength + offset < 2 ^ 32) : ((b.advance offset).getD b).Kept := by
  have same := kept.current
  unfold advance
  rw [Nat.mod_eq_of_lt fits]
  split
  · exact kept
  · rename_i room
    exact ⟨⟨congrArg (· + offset) same, Nat.le_of_not_lt room, kept.data⟩, kept.small, kept.foreign⟩

theorem advance_good (kept : b.Kept) (short : offset < 2 ^ 31) :
    b.StepGood (.advance offset) ↔ (BufferOp.advance offset).Fits b := by
  constructor
  · rintro ⟨after, done, good, _⟩
    by_contra unfit
    have same := kept.current
    have inside := kept.inside
    have small := kept.small
    change ¬ b.currentLength + offset < 2 ^ 32 at unfit
    -- the sum that wraps around passes the check
    have passes : ¬ b.bufferLength < (b.currentLength + offset) % 2 ^ 32 := by omega
    change some ((b.advance offset).getD b) = some after at done
    unfold advance at done
    rw [if_neg passes] at done
    cases done
    have moved := good.current
    change b.current + offset = (b.currentLength + offset) % 2 ^ 32 at moved
    omega
  · intro fits
    refine ⟨_, rfl, (advance_kept kept fits).toConsistent, fun refused => ?_⟩
    rw [refused]
    rfl

theorem set_kept (kept : b.Kept) : ((b.set pos).getD b).Kept := by
  have same := kept.current
  have small := kept.small
  unfold set
  split
  · exact kept
  · split
    · exact kept
    · have moved : ((b.currentLength - Int.bmod (b.current - pos) (2 ^ 32)) % 2 ^ 32).toNat = pos.toNat := by
        rw [same, Int.bmod_def]
        omega
      refine ⟨⟨moved.symm, ?_, kept.data⟩, kept.small, kept.foreign⟩
      change ((b.currentLength - Int.bmod (b.current - pos) (2 ^ 32)) % 2 ^ 32).toNat ≤ b.bufferLength
      rw [moved]
      omega

theorem rewindLength_kept (kept : b.Kept) : ((b.rewindLength length).getD b).Kept := by
  have inside := kept.inside
  unfold rewindLength
  split
  · exact kept
  · exact ⟨⟨rfl, (Nat.sub_le _ _).trans inside, kept.data⟩, kept.small, kept.foreign⟩

theorem write_kept (kept : b.Kept) : ((b.write bytes).getD b).Kept := by
  unfold write
  split
  · exact kept
  · exact ⟨⟨kept.current, kept.inside, kept.data⟩, kept.small, kept.foreign⟩

theorem new_kept (block : Memory) : (new block).Kept :=
  ⟨⟨rfl, Nat.zero_le _, Nat.zero_le _⟩, by change 256 < 2 ^ 32; decide, fun none_ => by cases none_⟩

theorem setbuf_kept {base : Memory} (small : length < 2 ^ 31) : (setbuf base length).Kept :=
  ⟨⟨rfl, Nat.zero_le _, Nat.zero_le _⟩, by change length < 2 ^ 32; omega, fun _ => small⟩

theorem step_kept {op : BufferOp} (kept : b.Kept) (small : op.Small) (fits : op.Fits b)
    (done : b.apply op = some after) :
    after.Kept := by
  cases op with
  | new block => cases done; exact new_kept block
  | setbuf base length => cases done; exact setbuf_kept small
  | dserial base length =>
    cases done
    exact ⟨⟨rfl, Nat.zero_le _, Nat.le_refl _⟩, (@setbuf_kept length base small).small, fun _ => small⟩
  | append fresh bytes =>
    obtain ⟨other, done_, keptAfter⟩ := append_kept kept small fits
    rw [apply, done_] at done
    cases done
    exact keptAfter
  | advance offset => cases done; exact advance_kept kept fits
  | set pos => cases done; exact set_kept kept
  | reset => cases done; exact ⟨⟨rfl, Nat.zero_le _, Nat.zero_le _⟩, kept.small, kept.foreign⟩
  | rewind => cases done; exact ⟨⟨rfl, Nat.zero_le _, kept.data⟩, kept.small, kept.foreign⟩
  | rewindLength length => cases done; exact rewindLength_kept kept
  | write bytes => cases done; exact write_kept kept

theorem reached_kept (reached : Reached b) : b.Kept := by
  induction reached with
  | new block => exact new_kept block
  | setbuf base small => exact setbuf_kept small
  | step _ small fits done kept => exact step_kept kept small fits done

theorem good_of_effect {op : BufferOp} (kept : b.Kept) (small : op.Small) (fits : op.Fits b)
    (done : b.apply op = some after) (effect : op.Effect b after) : b.StepGood op ↔ op.Fits b :=
  iff_of_true ⟨after, done, (step_kept kept small fits done).toConsistent, effect⟩ fits

theorem step_good {op : BufferOp} (kept : b.Kept) (small : op.Small) : b.StepGood op ↔ op.Fits b := by
  cases op with
  | append fresh bytes => exact append_good kept small
  | advance offset => exact advance_good kept small
  | new block => exact good_of_effect kept small trivial rfl trivial
  | setbuf base length => exact good_of_effect kept small trivial rfl trivial
  | dserial base length => exact good_of_effect kept small trivial rfl trivial
  | reset => exact good_of_effect kept small trivial rfl trivial
  | rewind => exact good_of_effect kept small trivial rfl trivial
  | write bytes => exact good_of_effect kept small trivial rfl trivial
  | set pos => exact good_of_effect kept small trivial rfl fun refused => by rw [refused]; rfl
  | rewindLength length => exact good_of_effect kept small trivial rfl fun refused => by rw [refused]; rfl

/-- In every run whose lengths fit, the buffer is consistent, and an operation does what it is to
do exactly if its lengths fit as well. -/
theorem bufferRuns_good (reached : Reached b) :
    b.Consistent ∧ ∀ op : BufferOp, op.Small → (b.StepGood op ↔ op.Fits b) := by
  have kept := reached_kept reached
  exact ⟨kept.toConsistent, fun op small => step_good kept small⟩

/-- Two pieces are put into a caller's buffer of four bytes, which is too small for the second. -/
theorem grownBuffer_good : ∃ b,
    [BufferOp.append (fun _ => 0) [1, 2, 3], .append (fun _ => 0) [4, 5]].foldlM apply
      (setbuf (fun _ => 0) 4) = some b ∧ b.current = 5 ∧ 4 < b.bufferLength ∧ b.Consistent ∧
      ∀ op : BufferOp, op.Small → (b.StepGood op ↔ op.Fits b) := by
  have begun : Reached (setbuf (fun _ => 0) 4) := .setbuf (fun _ => 0) (by norm_num)
  have start := reached_kept begun
  have short : ([1, 2, 3] : Bytes).length < 2 ^ 31 ∧ ([4, 5] : Bytes).length < 2 ^ 31 := by norm_num
  have fitsFirst : (BufferOp.append (fun _ => 0) [1, 2, 3]).Fits (setbuf (fun _ => 0) 4) :=
    .inl (by rw [start.remaining]; decide)
  obtain ⟨first, one, keptFirst⟩ := append_kept start short.1 fitsFirst
  have placeFirst : first.current = 3 := (append_appended start.sound one).current
  have sameFirst := keptFirst.current
  have fitsSecond : (BufferOp.append (fun _ => 0) [4, 5]).Fits first :=
    .inr (by rw [← sameFirst, placeFirst]; norm_num [bufBlockSize])
  obtain ⟨second, two, keptSecond⟩ := append_kept keptFirst short.2 fitsSecond
  have placeSecond : second.current = 5 := by
    rw [(append_appended keptFirst.sound two).current, placeFirst]
    rfl
  have smallFirst : (BufferOp.append (fun _ => 0) [1, 2, 3]).Small := short.1
  have smallSecond : (BufferOp.append (fun _ => 0) [4, 5]).Small := short.2
  have reached : Reached second := .step (.step begun smallFirst fitsFirst one) smallSecond fitsSecond two
  refine ⟨second, ?_, placeSecond, ?_, bufferRuns_good reached⟩
  · rw [List.foldlM_cons, apply, one, Option.bind_eq_bind, Option.bind_some, List.foldlM_cons, apply, two]
    rfl
  · have inside := keptSecond.inside
    rw [← keptSecond.current, placeSecond] at inside
    exact inside

/-- Behind two pieces of 2^31 - 1 bytes, the cursor moves past the end of the block. -/
theorem advance_past (zeros : Memory) (long : bytes.length = 2 ^ 31 - 1) :
    ∃ b, [BufferOp.append zeros bytes, .append zeros bytes].foldlM apply (new zeros) = some b ∧
      ¬ b.StepGood (.advance 2) := by
  have block : bufBlockSize = 256 := rfl
  have start := new_kept zeros
  have short : bytes.length < 2 ^ 31 := by omega
  obtain ⟨first, one, keptFirst⟩ := @append_kept _ zeros bytes start short (Or.inr (by
    change 0 + max bytes.length bufBlockSize < 2 ^ 32
    omega))
  have placeFirst := (append_appended start.sound one).current
  change first.current = 0 + bytes.length at placeFirst
  have sameFirst := keptFirst.current
  obtain ⟨second, two, keptSecond⟩ := @append_kept _ zeros bytes keptFirst short (Or.inr (by omega))
  have placeSecond := (append_appended keptFirst.sound two).current
  have sameSecond := keptSecond.current
  refine ⟨second, ?_, ?_⟩
  · rw [List.foldlM_cons, apply, one, Option.bind_eq_bind, Option.bind_some, List.foldlM_cons, apply, two]
    rfl
  · rw [advance_good keptSecond (by decide)]
    change ¬ second.currentLength + 2 < 2 ^ 32
    omega

theorem wrappedAdvance_accepted : ∃ b, [BufferOp.append (fun _ => 0) (List.replicate (2 ^ 31 - 1) 0),
    .append (fun _ => 0) (List.replicate (2 ^ 31 - 1) 0)].foldlM apply (new fun _ => 0) = some b ∧
      ¬ b.StepGood (.advance 2) :=
  advance_past (fun _ => 0) List.length_replicate

/-! ### The buffer of a received message -/

/-- The buffer as messages are read from it: the bytes in front of the cursor, and those from it on. -/
def reading (b : BufferObj) (blank : Memory) : Wps.BufferObj where
  before := load b.base 0 b.current
  rest := load b.base b.current (b.bufferLength - b.current)
  dataLength := b.dataLength
  around := ⟨fun i => b.base (b.bufferLength + i), blank⟩

section

variable {blank : Memory}

theorem reading_dserial (base : Memory) (length : Nat) : (dserial base length).reading blank =
    .dserial (load base 0 length) ⟨fun i => base (length + i), blank⟩ := by
  unfold dserial reading Wps.BufferObj.dserial
  dsimp only
  rw [Nat.sub_zero, Bytes.length_load]
  rfl

theorem reading_remaining (sound : b.Sound) : (b.reading blank).remaining = b.remaining := by
  rw [remaining_of_sound sound, Wps.BufferObj.remaining, reading, Bytes.length_load, sound.current]

theorem reading_byteAt (sound : b.Sound) (offset : Nat) :
    (b.reading blank).byteAt offset = b.base (b.current + offset) := by
  have inside := sound.inside
  have same := sound.current
  unfold reading Wps.BufferObj.byteAt
  dsimp only
  rw [Bytes.length_load]
  by_cases there : offset < b.bufferLength - b.current
  · simp [load, there]
  · have beyond : b.bufferLength + (offset - (b.bufferLength - b.current)) = b.current + offset := by omega
    simp [load, there, beyond]

theorem reading_ntohs (sound : b.Sound) (offset : Nat) :
    (b.reading blank).ntohs offset = ntoh b.base (b.current + offset) 2 := by
  rw [Wps.BufferObj.ntohs, reading_byteAt sound, reading_byteAt sound]
  simp only [ntoh, load, Nat.add_assoc, List.range_succ, List.range_zero, List.nil_append, List.cons_append,
    List.map_cons, add_zero, List.map_nil, List.reverse_cons, List.reverse_nil, ofLittleEndian, mul_zero]
  omega

theorem reading_rewind (sound : b.Sound) : (b.reading blank).rewind = b.rewind.reading blank := by
  have inside := sound.inside
  have same := sound.current
  have whole := Bytes.load_add b.base 0 b.current (b.bufferLength - b.current)
  rw [Nat.add_sub_cancel' (by omega), Nat.zero_add] at whole
  unfold reading rewind Wps.BufferObj.rewind Wps.BufferObj.bytes
  dsimp only
  rw [← whole]
  rfl

/-- Both cursors move, or neither does. -/
theorem reading_advance (sound : b.Sound) (fits : b.currentLength + offset < 2 ^ 32) :
    (b.reading blank).advance offset = (b.advance offset).map fun after => after.reading blank := by
  have same := sound.current
  have bound := sound.inside
  unfold advance
  rw [Nat.mod_eq_of_lt fits]
  by_cases inside : b.bufferLength < b.currentLength + offset
  · rw [if_pos inside, Option.map_none, Wps.BufferObj.advance_eq_none]
    change (load b.base b.current (b.bufferLength - b.current)).length < offset
    rw [Bytes.length_load]
    omega
  · have split : b.bufferLength - b.current = offset + (b.bufferLength - (b.current + offset)) := by omega
    have enough : offset ≤ (b.reading blank).rest.length := by
      change offset ≤ (load b.base b.current (b.bufferLength - b.current)).length
      rw [Bytes.length_load]
      omega
    rw [if_neg inside, Option.map_some, Wps.BufferObj.advance_isSome enough]
    unfold reading
    dsimp only
    rw [split, Bytes.load_add b.base b.current offset, Bytes.load_add b.base 0 b.current offset, Nat.zero_add,
      List.take_left' Bytes.length_load, List.drop_left' Bytes.length_load]

/-- Moving the cursor: so far on, or back to the start. -/
inductive Move
  | advance (offset : Nat)
  | rewind

def moved (b : BufferObj) : Move → BufferObj
  | .advance offset => b.advanced offset
  | .rewind => b.rewind

def readingMoved (b : Wps.BufferObj) : Move → Wps.BufferObj
  | .advance offset => (b.advance offset).getD b
  | .rewind => b.rewind

/-- The move is counted in 32 bits. -/
def Move.Counted (length : Nat) : Move → Prop
  | .advance offset => length + offset < 2 ^ 32
  | .rewind => True

theorem moved_spec (sound : b.Sound) {move : Move} (counted : move.Counted b.bufferLength) :
    (b.moved move).Sound ∧ (b.moved move).bufferLength = b.bufferLength ∧
      (b.moved move).reading blank = readingMoved (b.reading blank) move := by
  have inside := sound.inside
  cases move with
  | rewind => exact ⟨⟨rfl, Nat.zero_le _, sound.small⟩, rfl, (reading_rewind sound).symm⟩
  | advance offset =>
    have fits : b.currentLength + offset < 2 ^ 32 := by
      have counted : b.bufferLength + offset < 2 ^ 32 := counted
      omega
    have both := @reading_advance b offset blank sound fits
    unfold moved readingMoved advanced
    dsimp only
    rw [both]
    cases there : b.advance offset with
    | none => exact ⟨sound, rfl, rfl⟩
    | some after =>
      have large := there
      unfold advance at large
      rw [Nat.mod_eq_of_lt fits] at large
      split at large
      · cases large
      · rename_i enough
        cases large
        exact ⟨⟨congrArg (· + offset) sound.current, Nat.le_of_not_lt enough, sound.small⟩, rfl, rfl⟩

/-- However the cursor is moved, what is read of the memory is what is read of the bytes. -/
theorem moves_reading (sound : b.Sound) {moves : List Move} (counted : ∀ move ∈ moves, move.Counted b.bufferLength) :
    (moves.foldl moved b).Sound ∧ (moves.foldl moved b).reading blank = moves.foldl readingMoved (b.reading blank) := by
  induction moves generalizing b with
  | nil => exact ⟨sound, rfl⟩
  | cons move rest ih =>
    obtain ⟨still, length, same⟩ := @moved_spec b blank sound move (counted move (by simp))
    have later := ih still fun other among => length ▸ counted other (by simp [among])
    rw [same] at later
    exact later

end

end BufferObj

end BcmDhd.Attributes
