import BcmDhd.Lib.Bytes

/-! Buffers that attributes are written to and read from. A buffer may move to a larger
block of memory while it is written. -/

namespace BcmDhd.Attributes

open BcmDhd.Lib

abbrev Bytes := List UInt8

def bufBlockSize : Nat := 256

structure BufferObj where
  /-- The memory from `pBase` on. -/
  base : Memory
  /-- `pCurrent`, counted from `pBase`. -/
  current : Nat
  bufferLength : Nat
  currentLength : Nat
  dataLength : Nat
  /-- The block at `pBase` is the buffer's own. -/
  allocated : Bool

/-- The number that so many bytes hold, the highest first, as `WpsNtohs` and `WpsNtohl` read
it. -/
def ntoh (memory : Memory) (place size : Nat) : Nat := ofLittleEndian (load memory place size).reverse

/-- The bytes of a number as `WpsHtonsPtr` and `WpsHtonlPtr` leave them. -/
def hton (size value : Nat) : Bytes := (littleEndian size value).reverse

namespace BufferObj

def remaining (b : BufferObj) : Nat := (b.bufferLength + (2 ^ 32 - b.currentLength)) % 2 ^ 32

def advance (b : BufferObj) (offset : Nat) : Option BufferObj :=
  if b.bufferLength < (b.currentLength + offset) % 2 ^ 32 then none
  else some { b with currentLength := (b.currentLength + offset) % 2 ^ 32, current := b.current + offset }

/-- After `buffobj_Advance`, whose result is not looked at. -/
def advanced (b : BufferObj) (offset : Nat) : BufferObj := (b.advance offset).getD b

def rewind (b : BufferObj) : BufferObj := { b with currentLength := 0, current := 0 }

def reset (b : BufferObj) : BufferObj := { b with current := 0, currentLength := 0, dataLength := 0 }

def rewindLength (b : BufferObj) (length : Nat) : Option BufferObj :=
  if b.currentLength < length then none
  else some { b with currentLength := b.currentLength - length, current := b.currentLength - length }

/-- `buffobj_new`, with what its block holds. -/
def new (block : Memory) : BufferObj :=
  { base := block, current := 0, bufferLength := bufBlockSize, currentLength := 0, dataLength := 0, allocated := true }

/-- `buffobj_dserial` of what is in a block of memory. -/
def dserial (base : Memory) (length : Nat) : BufferObj :=
  { base := base, current := 0, bufferLength := length, currentLength := 0, dataLength := length, allocated := false }

/-- Memory that begins with the first bytes of other memory. -/
def copied (memory fresh : Memory) (count : Nat) : Memory := fun place =>
  if place < count then memory place else fresh place

/-- A buffer around memory of somebody else takes a block of its own when that is full. -/
def own (fresh : Memory) (b : BufferObj) (length : Nat) : Option BufferObj :=
  if b.allocated = false ∧ b.remaining < length then
    let size := (b.bufferLength + bufBlockSize) % 2 ^ 32
    if size < b.currentLength then none
    else some { b with
      base := copied b.base fresh b.currentLength, current := b.currentLength, bufferLength := size, allocated := true }
  else some b

/-- The block becomes larger when there is not enough room in it. -/
def grown (fresh : Memory) (b : BufferObj) (length : Nat) : BufferObj :=
  if b.remaining < length then
    let size := (b.currentLength + max length bufBlockSize) % 2 ^ 32
    { b with base := copied b.base fresh (min b.bufferLength size), current := b.currentLength, bufferLength := size }
  else b

/-- `memcpy` to the cursor. -/
def put (b : BufferObj) (bytes : Bytes) : BufferObj :=
  { b with
    base := store b.base b.current bytes
    current := b.current + bytes.length
    currentLength := (b.currentLength + bytes.length) % 2 ^ 32
    dataLength := (b.current + bytes.length) % 2 ^ 32 }

/-- `buffobj_Append`, with what new blocks hold; nothing if it writes outside its block. -/
def append (fresh : Memory) (b : BufferObj) (bytes : Bytes) : Option BufferObj :=
  if bytes = [] then some b
  else (b.own fresh bytes.length).bind fun owner =>
    let room := owner.grown fresh bytes.length
    if room.bufferLength < room.current + bytes.length then none else some (room.put bytes)

/-- The cursor is where it is counted to be, inside the block. -/
structure Sound (b : BufferObj) : Prop where
  current : b.current = b.currentLength
  inside : b.currentLength ≤ b.bufferLength
  small : b.bufferLength < 2 ^ 32

/-- What appending bytes makes of a buffer. -/
structure Appended (b : BufferObj) (bytes : Bytes) (after : BufferObj) : Prop where
  sound : after.Sound
  current : after.current = b.current + bytes.length
  data : bytes ≠ [] → after.dataLength = after.current
  same : bytes = [] → after = b
  kept : ∀ place < b.current, after.base place = b.base place
  there : load after.base b.current bytes.length = bytes

section

variable {fresh : Memory} {b middle after : BufferObj} {bytes more : Bytes} {length offset : Nat}

theorem remaining_of_sound (sound : b.Sound) : b.remaining = b.bufferLength - b.currentLength := by
  have inside := sound.inside
  have small := sound.small
  unfold remaining
  omega

theorem advance_of_le (sound : b.Sound) (le : b.current + offset ≤ b.bufferLength) :
    b.advance offset = some { b with currentLength := b.currentLength + offset, current := b.current + offset } := by
  have same := sound.current
  have small := sound.small
  have whole : (b.currentLength + offset) % 2 ^ 32 = b.currentLength + offset := Nat.mod_eq_of_lt (by omega)
  unfold advance
  rw [whole, if_neg (by omega)]

theorem own_spec {owner : BufferObj} (sound : b.Sound) (owned : b.own fresh length = some owner) :
    owner.Sound ∧ owner.current = b.current ∧ ∀ place < b.current, owner.base place = b.base place := by
  have same := sound.current
  unfold own at owned
  split at owned
  · dsimp only at owned
    split at owned
    · cases owned
    · rename_i large
      cases owned
      refine ⟨⟨rfl, Nat.le_of_not_lt large, Nat.mod_lt _ (by decide)⟩, same.symm, fun place below => ?_⟩
      exact if_pos (by omega)
  · cases owned
    exact ⟨sound, rfl, fun _ _ => rfl⟩

theorem own_some (sound : b.Sound) (fits : b.current + length + bufBlockSize < 2 ^ 32) :
    ∃ owner, b.own fresh length = some owner := by
  have same := sound.current
  have inside := sound.inside
  unfold own
  split
  · rename_i full
    have left := full.2
    rw [remaining_of_sound sound] at left
    have size : (b.bufferLength + bufBlockSize) % 2 ^ 32 = b.bufferLength + bufBlockSize := Nat.mod_eq_of_lt (by omega)
    dsimp only
    rw [size, if_neg (by omega)]
    exact ⟨_, rfl⟩
  · exact ⟨b, rfl⟩

theorem grown_spec (sound : b.Sound) (room : b.current + length ≤ (b.grown fresh length).bufferLength) :
    (b.grown fresh length).Sound ∧ ∀ place < b.current, (b.grown fresh length).base place = b.base place := by
  have same := sound.current
  have inside := sound.inside
  unfold grown at room ⊢
  split at room
  · rename_i full
    rw [if_pos full]
    dsimp only at room
    refine ⟨⟨rfl, by dsimp only; omega, Nat.mod_lt _ (by decide)⟩, fun place below => if_pos (by omega)⟩
  · rename_i enough
    rw [if_neg enough]
    exact ⟨sound, fun _ _ => rfl⟩

theorem grown_room (sound : b.Sound) (fits : b.current + length + bufBlockSize < 2 ^ 32) :
    (b.grown fresh length).current + length ≤ (b.grown fresh length).bufferLength := by
  have same := sound.current
  have inside := sound.inside
  unfold grown
  split
  · have size : (b.currentLength + max length bufBlockSize) % 2 ^ 32 = b.currentLength + max length bufBlockSize :=
      Nat.mod_eq_of_lt (by omega)
    dsimp only
    rw [size]
    omega
  · rename_i enough
    rw [remaining_of_sound sound] at enough
    omega

theorem Appended.nothing (sound : b.Sound) : Appended b [] b :=
  ⟨sound, rfl, fun some_ => absurd rfl some_, fun _ => rfl, fun _ _ => rfl, rfl⟩

theorem grown_current (sound : b.Sound) : (b.grown fresh length).current = b.current := by
  unfold grown
  split
  · exact sound.current.symm
  · rfl

/-- The bytes are put behind what is there. -/
theorem append_appended (sound : b.Sound) (done : b.append fresh bytes = some after) : Appended b bytes after := by
  unfold append at done
  split at done
  · rename_i none_
    cases done
    subst none_
    exact .nothing sound
  · rename_i some_
    obtain ⟨owner, owned, finished⟩ := Option.bind_eq_some_iff.mp done
    obtain ⟨soundOwner, sameOwner, keptOwner⟩ := own_spec sound owned
    dsimp only at finished
    split at finished
    · cases finished
    · rename_i enough
      cases finished
      have sameRoom := @grown_current fresh owner bytes.length soundOwner
      obtain ⟨soundRoom, keptRoom⟩ := @grown_spec fresh owner bytes.length soundOwner (by omega)
      have where_ := soundRoom.current
      have small := soundRoom.small
      refine ⟨⟨?_, ?_, small⟩, ?_, fun _ => Nat.mod_eq_of_lt (by omega), fun none_ => absurd none_ some_,
        fun place below => ?_, ?_⟩
      · change _ = (_ + _) % _
        rw [Nat.mod_eq_of_lt (by omega), ← where_]
        rfl
      · change (_ + _) % _ ≤ _
        rw [Nat.mod_eq_of_lt (by omega), ← where_]
        exact Nat.le_of_not_lt enough
      · change (owner.grown fresh bytes.length).current + bytes.length = _
        rw [sameRoom, sameOwner]
      · have outside : place < (owner.grown fresh bytes.length).current ∨
            (owner.grown fresh bytes.length).current + bytes.length ≤ place := Or.inl (by omega)
        exact (Bytes.store_outside outside).trans ((keptRoom place (by omega)).trans (keptOwner place below))
      · rw [← sameOwner, ← sameRoom]
        exact Bytes.load_store _ _ _

theorem append_some (sound : b.Sound) (fits : b.current + bytes.length + bufBlockSize < 2 ^ 32) :
    ∃ after, b.append fresh bytes = some after := by
  unfold append
  split
  · exact ⟨b, rfl⟩
  · obtain ⟨owner, owned⟩ := @own_some fresh b bytes.length sound fits
    obtain ⟨soundOwner, sameOwner, _⟩ := own_spec sound owned
    have room := @grown_room fresh owner bytes.length soundOwner (by omega)
    rw [owned, Option.bind_some]
    dsimp only
    rw [if_neg (by omega)]
    exact ⟨_, rfl⟩

theorem Appended.load_before (appended : Appended b bytes after) {place count : Nat}
    (before : place + count ≤ b.current) : load after.base place count = load b.base place count :=
  Bytes.load_congr fun place _ below => appended.kept place (by omega)

theorem Appended.trans (first : Appended b bytes middle) (second : Appended middle more after) :
    Appended b (bytes ++ more) after := by
  have place := first.current
  refine ⟨second.sound, ?_, ?_, ?_, fun place below => ?_, ?_⟩
  · rw [second.current, place, List.length_append, Nat.add_assoc]
  · intro some_
    by_cases last : more = []
    · subst last
      rw [second.same rfl]
      exact first.data (by simpa using some_)
    · exact second.data last
  · intro none_
    obtain ⟨rfl, rfl⟩ := List.append_eq_nil_iff.mp none_
    rw [second.same rfl, first.same rfl]
  · exact (second.kept place (by omega)).trans (first.kept place below)
  · rw [List.length_append, Bytes.load_add, ← place, second.there, second.load_before (by omega), first.there]

end

/-- From the cursor on are these bytes, inside the block. -/
structure Holds (b : BufferObj) (bytes : Bytes) : Prop where
  sound : b.Sound
  inside : b.current + bytes.length ≤ b.bufferLength
  there : load b.base b.current bytes.length = bytes

/-- Some bytes further. -/
def past (b : BufferObj) (count : Nat) : BufferObj :=
  { b with currentLength := b.currentLength + count, current := b.current + count }

section

variable {b : BufferObj} {bytes more : Bytes}

theorem Holds.first (holds : b.Holds (bytes ++ more)) : load b.base b.current bytes.length = bytes := by
  have there := holds.there
  rw [List.length_append, Bytes.load_add] at there
  exact (List.append_inj there (by simp)).1

theorem Holds.advance (holds : b.Holds (bytes ++ more)) : b.advance bytes.length = some (b.past bytes.length) := by
  have inside := holds.inside
  rw [List.length_append] at inside
  exact advance_of_le holds.sound (by omega)

theorem Holds.past (holds : b.Holds (bytes ++ more)) : (b.past bytes.length).Holds more := by
  obtain ⟨sound, inside, there⟩ := holds
  rw [List.length_append] at inside
  rw [List.length_append, Bytes.load_add] at there
  refine ⟨⟨?_, ?_, sound.small⟩, ?_, (List.append_inj there (by simp)).2⟩
  · change b.current + bytes.length = b.currentLength + bytes.length
    rw [sound.current]
  · change b.currentLength + bytes.length ≤ b.bufferLength
    rw [← sound.current]
    omega
  · change b.current + bytes.length + more.length ≤ b.bufferLength
    omega

theorem Holds.remaining (holds : b.Holds bytes) : bytes.length ≤ b.remaining := by
  have inside := holds.inside
  rw [remaining_of_sound holds.sound, ← holds.sound.current]
  omega

end

end BufferObj

@[simp] theorem length_hton (size value : Nat) : (hton size value).length = size := by
  unfold hton
  simp

theorem ntoh_of_load {memory : Memory} {place size value : Nat} (there : load memory place size = hton size value)
    (fits : value < 256 ^ size) : ntoh memory place size = value := by
  unfold ntoh
  rw [there, hton, List.reverse_reverse, Bytes.ofLittleEndian_littleEndian, Nat.mod_eq_of_lt fits]

end BcmDhd.Attributes
