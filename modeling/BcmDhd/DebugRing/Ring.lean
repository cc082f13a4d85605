import BcmDhd.Lib.Bytes
import BcmDhd.Lib.Loop
import BcmDhd.Lib.Machine

/-! The rings of `dhd_debug`: records of any length in a buffer that wraps around, where a
record without payload marks that the rest of the buffer is unused. -/

namespace BcmDhd.DebugRing

open BcmDhd.Lib

abbrev Bytes := List UInt8

/-- The size of `dhd_dbg_ring_entry_t`. -/
def dbgRingEntrySize : Nat := 16

structure DbgRing where
  ringSize : Nat
  wp : Nat
  rp : Nat
  threshold : Nat
  /-- The memory from `ring_buf` on. -/
  ringBuf : Memory
  /-- The state is `RING_ACTIVE`. -/
  active : Bool
  writtenRecords : Nat
  writtenBytes : Nat
  readBytes : Nat

/-- Subtraction in 32 bits. -/
def sub32 (a b : Nat) : Nat := (a + (2 ^ 32 - b % 2 ^ 32)) % 2 ^ 32

/-- `READ_AVAIL_SPACE`. -/
def readAvailSpace (w r d : Nat) : Nat := if w ≥ r then sub32 w r else sub32 d r

/-- The length of the payload, from the header. -/
def headerLen (hdr : Bytes) : Nat := ofLittleEndian (hdr.take 2)

def entryLen (buf : Memory) (offset : Nat) : Nat := headerLen (load buf offset dbgRingEntrySize)

/-- `ENTRY_LENGTH` of the record at an offset. -/
def entryLength (buf : Memory) (offset : Nat) : Nat := entryLen buf offset + dbgRingEntrySize

/-- Behind the record at an offset; behind the end marker is the record after the first. -/
def nextEntry (ring : DbgRing) (offset : Nat) : Nat :=
  if entryLen ring.ringBuf offset = 0 then entryLength ring.ringBuf 0
  else (offset + entryLength ring.ringBuf offset) % 2 ^ 32

/-- Where the record at an offset is: at the end marker it is the first of the buffer. -/
def getEntry (ring : DbgRing) (offset : Nat) : Nat := if entryLen ring.ringBuf offset = 0 then 0 else offset

structure Pull where
  ring : DbgRing
  availLen : Nat
  bufLen : Nat
  /-- What has been written to `data`. -/
  data : Bytes
  rLen : Nat

/-- One record, while both lengths are positive. -/
def pullTurn (pull : Pull) : Turn Pull Pull :=
  if 0 < pull.availLen ∧ 0 < pull.bufLen then
    let hdr := getEntry pull.ring pull.ring.rp
    let length := entryLength pull.ring.ringBuf hdr
    .again {
      ring := { pull.ring with
        rp := nextEntry pull.ring pull.ring.rp, readBytes := (pull.ring.readBytes + length) % 2 ^ 32 }
      availLen := sub32 pull.availLen length
      bufLen := sub32 pull.bufLen length
      data := pull.data ++ load pull.ring.ringBuf hdr length
      rLen := (pull.rLen + length) % 2 ^ 32 }
  else .leave pull

/-- What is read, and its length, if that takes no more turns. -/
def dhdDbgRingPull (turns : Nat) (ring : DbgRing) (bufLen : Nat) : Option (DbgRing × Bytes × Nat) :=
  if ring.active then
    (loopFor pullTurn turns ⟨ring, readAvailSpace ring.wp ring.rp ring.ringSize, bufLen, [], 0⟩).map fun pull =>
      (pull.ring, pull.data, pull.rLen)
  else some (ring, [], 0)

/-- Bytes of the buffer that are written: from where on, and how many. -/
abbrev Writes := List (Nat × Nat)

/-- The oldest record goes if it is at the start of the buffer. -/
def evictFirst (ring : DbgRing) : DbgRing :=
  if ring.rp = 0 then { ring with rp := nextEntry ring ring.rp } else ring

/-- One turn of making space: nothing, a record that goes, or the rest of the buffer that
is marked as unused. -/
def spaceTurn (wLen : Nat) (made : DbgRing × Writes) : Turn (DbgRing × Writes) (DbgRing × Writes) :=
  let ring := made.1
  if ring.rp = ring.wp then .leave made
  else if ring.rp < ring.wp then
    if sub32 ring.ringSize ring.wp = wLen then .leave (evictFirst ring, made.2)
    else if sub32 ring.ringSize ring.wp < wLen then
      .again ({ evictFirst ring with
        ringBuf := store ring.ringBuf ring.wp (List.replicate dbgRingEntrySize 0), wp := 0 },
        made.2 ++ [(ring.wp, dbgRingEntrySize)])
    else .leave made
  else if sub32 ring.rp ring.wp ≤ wLen then .again ({ ring with rp := nextEntry ring ring.rp }, made.2)
  else .leave made

/-- The record is written where the write pointer is: its header, the length again, and as
much of the payload. -/
def writeEntry (ring : DbgRing) (hdr data : Bytes) : DbgRing :=
  let headed := store ring.ringBuf ring.wp hdr
  let sized := store headed ring.wp (hdr.take 2)
  let wLen := headerLen hdr + dbgRingEntrySize
  { ring with
    ringBuf := store sized (ring.wp + dbgRingEntrySize) (data.take (headerLen hdr))
    wp := (ring.wp + wLen) % 2 ^ 32
    writtenRecords := (ring.writtenRecords + 1) % 2 ^ 32
    writtenBytes := (ring.writtenBytes + wLen) % 2 ^ 32 }

/-- The bytes that this writes. -/
def entryWrites (ring : DbgRing) (hdr : Bytes) : Writes :=
  [(ring.wp, dbgRingEntrySize), (ring.wp, 2), (ring.wp + dbgRingEntrySize, headerLen hdr)]

/-- Somebody is asked to pull once so much is stored. -/
def pullWanted (ring : DbgRing) : Bool :=
  0 < ring.threshold ∧ ring.threshold ≤ readAvailSpace ring.wp ring.rp ring.ringSize

/-- What has been written, and whether somebody is asked to pull, if making space takes no
more turns. -/
def dhdDbgRingPush (turns : Nat) (ring : DbgRing) (hdr data : Bytes) : Option (DbgRing × Writes × Bool) :=
  if ring.active then
    (loopFor (spaceTurn (headerLen hdr + dbgRingEntrySize)) turns (ring, [])).map fun made =>
      let written := writeEntry made.1 hdr data
      (written, made.2 ++ entryWrites made.1 hdr, pullWanted written)
  else some (ring, [], false)

inductive RingCall
  | push (hdr data : Bytes)
  | pull (bufLen : Nat)

/-- What a call did; a call that takes more turns has not returned. -/
inductive RingAnswer
  | pushed (writes : Writes) (pullreq : Bool)
  | pulled (data : Bytes) (rLen : Nat)
  | running
deriving DecidableEq

def ringStep (turns : Nat) (ring : DbgRing) : RingCall → DbgRing × RingAnswer
  | .push hdr data => match dhdDbgRingPush turns ring hdr data with
    | some (after, writes, pullreq) => (after, .pushed writes pullreq)
    | none => (ring, .running)
  | .pull bufLen => match dhdDbgRingPull turns ring bufLen with
    | some (after, data, rLen) => (after, .pulled data rLen)
    | none => (ring, .running)

/-- A record has its header and payload and is no longer than the ring, and a length is one
of 32 bits. -/
def ringAdmits (ring : DbgRing) : RingCall → Prop
  | .push hdr data => hdr.length = dbgRingEntrySize ∧ data.length = headerLen hdr ∧
      headerLen hdr + dbgRingEntrySize ≤ ring.ringSize
  | .pull bufLen => bufLen < 2 ^ 32

def dbgRing (turns : Nat) : Machine DbgRing RingCall RingAnswer where
  step := ringStep turns
  admits := ringAdmits

instance (turns : Nat) (ring : DbgRing) : (call : RingCall) → Decidable ((dbgRing turns).admits ring call)
  | .push hdr data => inferInstanceAs (Decidable (hdr.length = dbgRingEntrySize ∧ data.length = headerLen hdr ∧
      headerLen hdr + dbgRingEntrySize ≤ ring.ringSize))
  | .pull bufLen => inferInstanceAs (Decidable (bufLen < 2 ^ 32))

/-- An empty ring that is active, with whatever the buffer held. -/
def ringStart (ringSize threshold : Nat) (ringBuf : Memory) : DbgRing :=
  { ringSize := ringSize, wp := 0, rp := 0, threshold := threshold, ringBuf := ringBuf, active := true
    writtenRecords := 0, writtenBytes := 0, readBytes := 0 }

/-! Where the stored records are in the buffer, and when there is room for another one. -/

/-- A header and as much payload as it says. -/
def IsRecord (record : Bytes) : Prop := record.length = headerLen record + dbgRingEntrySize

/-- A record is in the buffer, and is not taken for the end marker. -/
structure RecordAt (buf : Memory) (offset : Nat) (record : Bytes) : Prop where
  isRecord : IsRecord record
  payload : headerLen record = 0 → offset = 0
  bytes : load buf offset record.length = record

/-- From one offset to another there are these records, one behind the other. -/
def Tiles (buf : Memory) : Nat → List Bytes → Nat → Prop
  | offset, [], stop => offset = stop
  | offset, record :: rest, stop => RecordAt buf offset record ∧ Tiles buf (offset + record.length) rest stop

/-- The stored records, oldest first, are between the pointers, and behind others that are
gone; or they start before the end marker and go on from the start of the buffer. -/
inductive Layout (ring : DbgRing) : List Bytes → Prop
  | straight (gone stored : List Bytes) (before : Tiles ring.ringBuf 0 gone ring.rp)
      (tiles : Tiles ring.ringBuf ring.rp stored ring.wp) (inside : ring.wp ≤ ring.ringSize) : Layout ring stored
  | wrapped (tail front : List Bytes) (marker : Nat) (tiles : Tiles ring.ringBuf ring.rp tail marker)
      (marked : entryLen ring.ringBuf marker = 0) (inside : marker + dbgRingEntrySize ≤ ring.ringSize)
      (behind : Tiles ring.ringBuf 0 front ring.wp) (below : ring.wp < ring.rp) : Layout ring (tail ++ front)

section

variable {buf other : Memory} {offset stop marker wLen place turns : Nat} {record : Bytes}
  {stored tail front rest : List Bytes} {ring after : DbgRing} {writes : Writes}

theorem sub32_of_le {a b : Nat} (le : b ≤ a) (small : a < 2 ^ 32) : sub32 a b = a - b := by
  unfold sub32
  rw [Nat.mod_eq_of_lt (show b < 2 ^ 32 by omega)]
  omega

theorem isRecord_length (isRecord : IsRecord record) : dbgRingEntrySize ≤ record.length := by
  rw [isRecord]
  exact Nat.le_add_left ..

theorem headerLen_take {bytes : Bytes} {count : Nat} (enough : 2 ≤ count) :
    headerLen (bytes.take count) = headerLen bytes := by
  unfold headerLen
  rw [List.take_take, Nat.min_eq_left enough]

theorem RecordAt.entryLen (there : RecordAt buf offset record) : entryLen buf offset = headerLen record := by
  have whole := @Bytes.load_take buf offset record.length dbgRingEntrySize (isRecord_length there.isRecord)
  rw [there.bytes] at whole
  unfold DebugRing.entryLen
  rw [whole, headerLen_take (by decide)]

theorem RecordAt.entryLength (there : RecordAt buf offset record) : entryLength buf offset = record.length := by
  unfold DebugRing.entryLength
  rw [there.entryLen]
  exact there.isRecord.symm

theorem RecordAt.found (there : RecordAt ring.ringBuf offset record) (small : offset + record.length < 2 ^ 32) :
    getEntry ring offset = offset ∧ nextEntry ring offset = offset + record.length := by
  unfold getEntry nextEntry
  rw [there.entryLen, there.entryLength, Nat.mod_eq_of_lt small]
  by_cases empty : headerLen record = 0
  · have start := there.payload empty
    subst start
    rw [if_pos empty, if_pos empty, there.entryLength, Nat.zero_add]
    exact ⟨rfl, rfl⟩
  · rw [if_neg empty, if_neg empty]
    exact ⟨rfl, rfl⟩

theorem RecordAt.frame (there : RecordAt buf offset record)
    (same : ∀ place, offset ≤ place → place < offset + record.length → other place = buf place) :
    RecordAt other offset record :=
  ⟨there.isRecord, there.payload, (Bytes.load_congr same).trans there.bytes⟩

theorem tiles_stop (tiles : Tiles buf offset stored stop) : stop = offset + stored.flatten.length := by
  induction stored generalizing offset with
  | nil => exact tiles.symm
  | cons record rest ih =>
    rw [ih tiles.2, List.flatten_cons, List.length_append, Nat.add_assoc]

theorem tiles_length (tiles : Tiles buf offset stored stop) : offset + dbgRingEntrySize * stored.length ≤ stop := by
  induction stored generalizing offset with
  | nil => exact Nat.le_of_eq tiles
  | cons record rest ih =>
    have long := isRecord_length tiles.1.isRecord
    have later := ih tiles.2
    rw [List.length_cons, Nat.mul_add]
    omega

theorem tiles_append : Tiles buf offset (tail ++ front) stop ↔
    ∃ middle, Tiles buf offset tail middle ∧ Tiles buf middle front stop := by
  induction tail generalizing offset with
  | nil =>
    constructor
    · intro tiles
      exact ⟨offset, rfl, tiles⟩
    · intro split
      obtain ⟨middle, here, later⟩ := split
      cases here
      exact later
  | cons record rest ih =>
    constructor
    · intro tiles
      obtain ⟨middle, before, later⟩ := ih.mp tiles.2
      exact ⟨middle, ⟨tiles.1, before⟩, later⟩
    · intro split
      obtain ⟨middle, before, later⟩ := split
      exact ⟨before.1, ih.mpr ⟨middle, before.2, later⟩⟩

theorem tiles_frame (tiles : Tiles buf offset stored stop)
    (same : ∀ place, offset ≤ place → place < stop → other place = buf place) : Tiles other offset stored stop := by
  induction stored generalizing offset with
  | nil => exact tiles
  | cons record rest ih =>
    have reach := tiles_length tiles.2
    refine ⟨tiles.1.frame fun place low high => same place low (by omega), ih tiles.2 fun place low high => ?_⟩
    exact same place (by omega) high

theorem layout_same (layout : Layout ring stored) (buf : after.ringBuf = ring.ringBuf)
    (rp : after.rp = ring.rp) (wp : after.wp = ring.wp) (size : after.ringSize = ring.ringSize) :
    Layout after stored := by
  cases layout with
  | straight gone stored before tiles inside =>
    refine .straight gone _ ?_ ?_ ?_
    · rw [buf, rp]
      exact before
    · rw [buf, rp, wp]
      exact tiles
    · rw [wp, size]
      exact inside
  | wrapped tail front marker tiles marked inside behind below =>
    refine .wrapped tail front marker ?_ ?_ ?_ ?_ ?_
    · rw [buf, rp]
      exact tiles
    · rw [buf]
      exact marked
    · rw [size]
      exact inside
    · rw [buf, wp]
      exact behind
    · rw [wp, rp]
      exact below

theorem layout_bounds (layout : Layout ring stored) : ring.rp ≤ ring.ringSize ∧ ring.wp ≤ ring.ringSize := by
  cases layout with
  | straight gone stored before tiles inside =>
    have reach := tiles_length tiles
    omega
  | wrapped tail front marker tiles marked inside behind below =>
    have reach := tiles_length tiles
    omega

theorem layout_length (layout : Layout ring stored) :
    stored.flatten.length ≤ ring.ringSize ∧ dbgRingEntrySize * stored.length ≤ ring.ringSize := by
  cases layout with
  | straight gone stored before tiles inside =>
    have reach := tiles_length tiles
    have stop := tiles_stop tiles
    omega
  | wrapped tail front marker tiles marked inside behind below =>
    have reach := tiles_length tiles
    have stop := tiles_stop tiles
    have reachFront := tiles_length behind
    have stopFront := tiles_stop behind
    rw [List.flatten_append, List.length_append, List.length_append, Nat.mul_add]
    omega

/-- The read pointer is at the oldest record, or at the end marker before it; the next entry
is right behind the record. -/
theorem Layout.head (layout : Layout ring (record :: rest)) (small : ring.ringSize < 2 ^ 31) :
    RecordAt ring.ringBuf (getEntry ring ring.rp) record ∧
      Layout { ring with rp := nextEntry ring ring.rp } rest := by
  generalize all : record :: rest = stored at layout
  cases layout with
  | straight gone stored before tiles inside =>
    subst all
    have reach := tiles_length tiles.2
    obtain ⟨found, next⟩ := tiles.1.found (by omega)
    rw [found, next]
    exact ⟨tiles.1, .straight (gone ++ [record]) rest (tiles_append.mpr ⟨ring.rp, before, tiles.1, rfl⟩) tiles.2 inside⟩
  | wrapped tail front marker tiles marked inside behind below =>
    cases tail with
    | nil =>
      rw [List.nil_append] at all
      subst all
      have here : ring.rp = marker := tiles
      have atMarker : entryLen ring.ringBuf ring.rp = 0 := by rw [here]; exact marked
      have entry : getEntry ring ring.rp = 0 := if_pos atMarker
      have next : nextEntry ring ring.rp = record.length := (if_pos atMarker).trans behind.1.entryLength
      rw [entry, next]
      refine ⟨behind.1, .straight [record] rest ⟨behind.1, Nat.zero_add _⟩ ?_ ?_⟩
      · have later := behind.2
        rw [Nat.zero_add] at later
        exact later
      · change ring.wp ≤ ring.ringSize
        omega
    | cons first tail =>
      obtain ⟨rfl, rfl⟩ := List.cons.inj all
      have reach := tiles_length tiles.2
      obtain ⟨found, next⟩ := tiles.1.found (by omega)
      rw [found, next]
      refine ⟨tiles.1, .wrapped tail front marker tiles.2 marked inside behind ?_⟩
      change ring.wp < ring.rp + record.length
      omega

end

end BcmDhd.DebugRing
