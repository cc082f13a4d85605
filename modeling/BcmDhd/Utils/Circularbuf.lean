import BcmDhd.Lib.Bytes
import BcmDhd.Lib.Machine

/-! The circular message buffer: the writer reserves a stretch and completes it, the reader is given
a stretch and completes it. The fields are `uint16`, addresses are offsets into the buffer. -/

namespace BcmDhd.Utils

open BcmDhd.Lib

structure Circularbuf where
  depth : Nat
  rPtr : Nat
  wPtr : Nat
  ePtr : Nat
  wpPtr : Nat
  rpPtr : Nat
  deriving DecidableEq

/-- The value an `int16` keeps of an `int`. -/
def int16 (value : Int) : Int := value.bmod (2 ^ 16)

def circularbufInit (totalBufLen : UInt16) : Circularbuf :=
  { depth := totalBufLen.toNat, rPtr := 0, wPtr := 0, ePtr := totalBufLen.toNat, wpPtr := 0, rpPtr := 0 }

/-- The offset reserved, or `NULL`. -/
def circularbufReserveForWrite (handle : Circularbuf) (size : Nat) : Circularbuf × Option Nat :=
  let availSpace : Int :=
    if handle.wpPtr ≥ handle.rPtr then int16 (handle.depth - handle.wpPtr)
    else int16 (handle.rPtr - handle.wpPtr)
  if availSpace > size then
    ({ handle with wpPtr := (handle.wpPtr + size) % 2 ^ 16 }, some handle.wpPtr)
  else if handle.wpPtr ≥ handle.rPtr ∧ int16 handle.rPtr > size then
    ({ handle with ePtr := handle.wpPtr, wpPtr := size }, some 0)
  else (handle, none)

def circularbufWriteComplete (handle : Circularbuf) (bytesWritten : Nat) : Circularbuf :=
  if handle.wPtr + bytesWritten ≥ handle.depth then { handle with wPtr := bytesWritten }
  else { handle with wPtr := (handle.wPtr + bytesWritten) % 2 ^ 16 }

def circularbufReadSpaceAtEnd (handle : Circularbuf) : Int :=
  if handle.wPtr ≥ handle.rpPtr then handle.wPtr - handle.rpPtr else handle.ePtr - handle.rpPtr

def circularbufReadSpaceAvail (handle : Circularbuf) : Int :=
  if circularbufReadSpaceAtEnd handle = 0 ∧ handle.wPtr < handle.rpPtr then handle.wPtr
  else circularbufReadSpaceAtEnd handle

/-- The offset and the number of bytes that can be read, or `NULL`. -/
def circularbufGetReadPtr (handle : Circularbuf) : Circularbuf × Option (Nat × Nat) :=
  let availableLen := (circularbufReadSpaceAvail handle % 2 ^ 16).toNat
  if availableLen = 0 then (handle, none)
  else
    let retAddr := if circularbufReadSpaceAtEnd handle = 0 then 0 else handle.rpPtr
    ({ handle with rpPtr := (retAddr + availableLen) % 2 ^ 16 }, some (retAddr, availableLen))

def circularbufReadComplete (handle : Circularbuf) (bytesRead : Nat) : Circularbuf :=
  if handle.wPtr < handle.ePtr ∧ handle.rPtr + bytesRead > handle.ePtr then
    { handle with rPtr := bytesRead }
  else { handle with rPtr := (handle.rPtr + bytesRead) % 2 ^ 16 }

/-- Where the writer stands: it has reserved a stretch, and then written it. -/
inductive CbufWriter
  | idle
  | reserved (addr size : Nat)
  | written (addr : Nat) (data : List UInt8)

inductive CbufReader
  | idle
  | reading (addr len : Nat)

/-- The buffer, its memory and both parties. On record are the bytes whose writes were
completed, the bytes read, and where the bytes lie that are not read yet, in order. -/
structure CbufState where
  handle : Circularbuf
  memory : Memory
  writer : CbufWriter
  reader : CbufReader
  written : List UInt8
  read : List UInt8
  unread : List Nat

inductive CbufCall
  | reserve (size : Nat)
  | write (data : List UInt8)
  | writeComplete
  | getReadPtr
  | readComplete

/-- The reader takes the bytes at the last moment, when it completes the read. -/
def cbufStep (state : CbufState) : CbufCall → CbufState
  | .reserve size =>
    match circularbufReserveForWrite state.handle size with
    | (_, none) => state
    | (handle, some addr) => { state with handle, writer := .reserved addr size }
  | .write data =>
    match state.writer with
    | .reserved addr _ =>
      { state with memory := store state.memory addr data, writer := .written addr data }
    | _ => state
  | .writeComplete =>
    match state.writer with
    | .written addr data =>
      { state with
        handle := circularbufWriteComplete state.handle data.length
        writer := .idle
        written := state.written ++ data
        unread := state.unread ++ List.range' addr data.length }
    | _ => state
  | .getReadPtr =>
    match circularbufGetReadPtr state.handle with
    | (_, none) => state
    | (handle, some (addr, len)) => { state with handle, reader := .reading addr len }
  | .readComplete =>
    match state.reader with
    | .reading addr len =>
      { state with
        handle := circularbufReadComplete state.handle len
        reader := .idle
        read := state.read ++ load state.memory addr len
        unread := state.unread.drop len }
    | .idle => state

/-- One writer and one reader, each in its own order. -/
def cbufMachine : Machine CbufState CbufCall Unit where
  step state call := (cbufStep state call, ())
  admits state
    | .reserve size => state.writer = .idle ∧ size < state.handle.depth
    | .write data => ∃ addr, state.writer = .reserved addr data.length
    | .writeComplete => ∃ addr data, state.writer = .written addr data
    | .getReadPtr => state.reader = .idle
    | .readComplete => ∃ addr len, state.reader = .reading addr len

def cbufStart (depth : UInt16) (memory : Memory) : CbufState :=
  { handle := circularbufInit depth, memory, writer := .idle, reader := .idle
    written := [], read := [], unread := [] }

/-- The free stretch from the write position on. -/
def gapAtEnd (handle : Circularbuf) : Nat :=
  if handle.wpPtr ≥ handle.rPtr then handle.depth - handle.wpPtr else handle.rPtr - handle.wpPtr

/-- The free stretch at the front, where the reader has left one behind. -/
def gapAtFront (handle : Circularbuf) : Nat :=
  if handle.wpPtr ≥ handle.rPtr then handle.rPtr else 0

/-- The stretch a writer has reserved. -/
def CbufWriter.Reserves : CbufWriter → Nat → Prop
  | .idle, _ => False
  | .reserved addr size, place => addr ≤ place ∧ place < addr + size
  | .written addr data, place => addr ≤ place ∧ place < addr + data.length

/-- What a circular buffer is for: bytes are read as they were written, a reservation
does not touch what is unread, pointers stay inside, and space is found where there
is enough. -/
structure CbufSound (state : CbufState) : Prop where
  order : state.written = state.read ++ state.unread.map state.memory
  drained : state.reader = .idle → (circularbufGetReadPtr state.handle).2 = none → state.unread = []
  apart : ∀ place, state.writer.Reserves place → place ∉ state.unread
  inside : state.handle.rPtr ≤ state.handle.depth ∧ state.handle.wPtr ≤ state.handle.depth ∧
    state.handle.ePtr ≤ state.handle.depth ∧ state.handle.wpPtr ≤ state.handle.depth ∧
    state.handle.rpPtr ≤ state.handle.depth
  refused : ∀ size, state.writer = .idle → size < state.handle.depth →
    (circularbufReserveForWrite state.handle size).2 = none →
      gapAtEnd state.handle ≤ size ∧ gapAtFront state.handle ≤ size

/-! What holds of a circular buffer in every run. The unread bytes lie in one
stretch, or in one up to the end pointer and one at the front. -/

/-- Where the unread bytes lie. -/
def unreadPlaces (handle : Circularbuf) : List Nat :=
  if handle.rPtr ≤ handle.wPtr then List.range' handle.rPtr (handle.wPtr - handle.rPtr)
  else
    List.range' handle.rPtr (handle.ePtr - handle.rPtr) ++ List.range' 0 handle.wPtr

/-- A reservation behind the last message, or at the front with the hole marked. -/
def Reservation (handle : Circularbuf) (addr size : Nat) : Prop :=
  (addr = handle.wPtr ∧ handle.wpPtr = handle.wPtr + size ∧ handle.wPtr + size < handle.depth ∧
    (handle.wPtr < handle.rPtr → handle.wPtr + size < handle.rPtr)) ∨
  (addr = 0 ∧ handle.wpPtr = size ∧ handle.rPtr ≤ handle.wPtr ∧ size < handle.rPtr ∧
    handle.ePtr = handle.wPtr ∧ handle.depth ≤ handle.wPtr + size)

/-- A read of bytes that lie together: up to the write position, up to the end
pointer, or at the front once the reader has reached the end pointer. -/
def Reading (handle : Circularbuf) (addr len : Nat) : Prop :=
  0 < len ∧
    ((handle.rPtr ≤ handle.wPtr ∧ addr = handle.rPtr ∧ handle.rpPtr = handle.rPtr + len ∧
        handle.rPtr + len ≤ handle.wPtr) ∨
      (handle.wPtr < handle.rPtr ∧ addr = handle.rPtr ∧ handle.rpPtr = handle.rPtr + len ∧
        handle.rPtr + len ≤ handle.ePtr) ∨
      (handle.wPtr < handle.rPtr ∧ handle.rPtr = handle.ePtr ∧ addr = 0 ∧ handle.rpPtr = len ∧
        len ≤ handle.wPtr))

def WriterStands (handle : Circularbuf) (memory : Memory) : CbufWriter → Prop
  | .idle => handle.wpPtr = handle.wPtr
  | .reserved addr size => Reservation handle addr size
  | .written addr data => Reservation handle addr data.length ∧ load memory addr data.length = data

def ReaderStands (handle : Circularbuf) : CbufReader → Prop
  | .idle => handle.rpPtr = handle.rPtr
  | .reading addr len => Reading handle addr len

/-- The pointers of a buffer that is neither full nor broken. -/
structure HandleValid (handle : Circularbuf) : Prop where
  small : handle.depth < 2 ^ 15
  write : handle.wPtr ≤ handle.depth
  stop : handle.ePtr ≤ handle.depth
  wrapped : handle.wPtr < handle.rPtr → handle.rPtr ≤ handle.ePtr

structure CbufInvariant (state : CbufState) : Prop where
  handle : HandleValid state.handle
  writer : WriterStands state.handle state.memory state.writer
  reader : ReaderStands state.handle state.reader
  places : state.unread = unreadPlaces state.handle
  order : state.written = state.read ++ state.unread.map state.memory

theorem int16_of_small {value : Int} (low : 0 ≤ value) (high : value < 2 ^ 15) :
    int16 value = value := by
  unfold int16
  rw [Int.bmod_eq_emod_of_lt (by omega)]
  omega

theorem load_eq_map (memory : Memory) (addr len : Nat) :
    load memory addr len = (List.range' addr len).map memory := by
  rw [List.range'_eq_map_range, List.map_map]
  rfl

section Handle

variable {handle : Circularbuf} {memory : Memory} {size addr len : Nat} {writer : CbufWriter} {reader : CbufReader}

/-- What a reservation does, and that it is refused only for want of space. -/
theorem reserve_cases (valid : HandleValid handle) (idle : handle.wpPtr = handle.wPtr)
    (stands : ReaderStands handle reader) :
    (circularbufReserveForWrite handle size = (handle, none) ∧
      gapAtEnd handle ≤ size ∧ gapAtFront handle ≤ size) ∨
    ∃ after addr, circularbufReserveForWrite handle size = (after, some addr) ∧
      HandleValid after ∧ Reservation after addr size ∧ ReaderStands after reader ∧
      unreadPlaces after = unreadPlaces handle := by
  obtain ⟨small, write, stop, wrapped⟩ := valid
  have space : (if handle.wpPtr ≥ handle.rPtr then int16 (handle.depth - handle.wpPtr)
      else int16 (handle.rPtr - handle.wpPtr)) = gapAtEnd handle := by
    unfold gapAtEnd
    split
    · rw [int16_of_small (by omega) (by omega)]
      omega
    · rw [int16_of_small (by omega) (by omega)]
      omega
  simp only [circularbufReserveForWrite, space]
  by_cases enough : gapAtEnd handle > size
  · right
    rw [if_pos (by omega)]
    unfold gapAtEnd at enough
    have fits : handle.wpPtr + size < 2 ^ 16 := by split at enough <;> omega
    refine ⟨_, _, rfl, ⟨small, write, stop, wrapped⟩, ?_, ?_, rfl⟩
    · left
      dsimp only
      rw [Nat.mod_eq_of_lt fits]
      split at enough <;> omega
    · cases reader <;> exact stands
  · rw [if_neg (by omega)]
    by_cases front : handle.wpPtr ≥ handle.rPtr ∧ int16 handle.rPtr > size
    · right
      have straight : handle.rPtr ≤ handle.wPtr := by omega
      rw [if_pos front]
      rw [int16_of_small (by omega) (by omega)] at front
      simp only [gapAtEnd, if_pos front.1] at enough
      refine ⟨_, _, rfl, ⟨small, write, ?_, ?_⟩, Or.inr ?_, ?_, ?_⟩
      · dsimp only
        omega
      · dsimp only
        omega
      · dsimp only
        omega
      · -- the reader is below the write position and does not look at the end pointer
        cases reader with
        | idle => exact stands
        | reading addr len =>
          obtain ⟨positive, cases⟩ := stands
          refine ⟨positive, Or.inl ?_⟩
          dsimp only
          omega
      · simp only [unreadPlaces, if_pos straight]
    · left
      rw [if_neg front]
      refine ⟨rfl, by omega, ?_⟩
      unfold gapAtFront
      split
      · rw [int16_of_small (by omega) (by omega)] at front
        omega
      · omega

theorem complete_write (valid : HandleValid handle) (reserved : Reservation handle addr size)
    (stands : ReaderStands handle reader) :
    HandleValid (circularbufWriteComplete handle size) ∧
      (circularbufWriteComplete handle size).wpPtr = (circularbufWriteComplete handle size).wPtr ∧
      ReaderStands (circularbufWriteComplete handle size) reader ∧
      unreadPlaces (circularbufWriteComplete handle size) =
        unreadPlaces handle ++ List.range' addr size := by
  obtain ⟨small, write, stop, wrapped⟩ := valid
  unfold circularbufWriteComplete
  rcases reserved with ⟨rfl, pending, inside, behind⟩ | ⟨rfl, pending, straight, room, hole, full⟩
  · rw [if_neg (by omega), Nat.mod_eq_of_lt (by omega)]
    refine ⟨⟨small, by dsimp only; omega, stop, by dsimp only; omega⟩, pending, ?_, ?_⟩
    · cases reader with
      | idle => exact stands
      | reading addr len =>
        obtain ⟨positive, cases⟩ := stands
        refine ⟨positive, ?_⟩
        dsimp only
        omega
    · simp only [unreadPlaces]
      by_cases straight : handle.rPtr ≤ handle.wPtr
      · rw [if_pos straight, if_pos (by omega)]
        have length : handle.wPtr + size - handle.rPtr = handle.wPtr - handle.rPtr + size := by omega
        have middle : handle.rPtr + (handle.wPtr - handle.rPtr) = handle.wPtr := by omega
        rw [length, ← List.range'_append_1, middle]
      · rw [if_neg straight, if_neg (by omega), List.append_assoc]
        congr 1
        rw [← List.range'_append_1, Nat.zero_add]
  · rw [if_pos (by omega)]
    refine ⟨⟨small, by dsimp only; omega, stop, by dsimp only; omega⟩, pending, ?_, ?_⟩
    · cases reader with
      | idle => exact stands
      | reading addr len =>
        obtain ⟨positive, cases⟩ := stands
        refine ⟨positive, ?_⟩
        dsimp only
        omega
    · simp only [unreadPlaces]
      rw [if_pos straight, if_neg (by omega), hole]

theorem getReadPtr_of {atEnd : Int} (tail : circularbufReadSpaceAtEnd handle = atEnd)
    (space : circularbufReadSpaceAvail handle = len) (positive : 0 < len)
    (fits : (if atEnd = 0 then 0 else handle.rpPtr) + len < 2 ^ 16) :
    circularbufGetReadPtr handle =
      ({ handle with rpPtr := (if atEnd = 0 then 0 else handle.rpPtr) + len },
        some (if atEnd = 0 then 0 else handle.rpPtr, len)) := by
  have length : ((len : Int) % 2 ^ 16).toNat = len := by
    rw [Int.emod_eq_of_lt (by omega) (by omega), Int.toNat_natCast]
  simp only [circularbufGetReadPtr, tail, space, length]
  rw [if_neg (by omega), Nat.mod_eq_of_lt fits]

theorem getReadPtr_empty (space : circularbufReadSpaceAvail handle = 0) :
    circularbufGetReadPtr handle = (handle, none) := by
  simp [circularbufGetReadPtr, space]

theorem get_cases (valid : HandleValid handle) (idle : handle.rpPtr = handle.rPtr)
    (stands : WriterStands handle memory writer) :
    (circularbufGetReadPtr handle = (handle, none) ∧ unreadPlaces handle = []) ∨
    ∃ after addr len, circularbufGetReadPtr handle = (after, some (addr, len)) ∧
      HandleValid after ∧ Reading after addr len ∧ WriterStands after memory writer ∧
      unreadPlaces after = unreadPlaces handle := by
  obtain ⟨small, write, stop, wrapped⟩ := valid
  have same : ∀ rp, WriterStands { handle with rpPtr := rp } memory writer := by
    intro rp
    cases writer <;> exact stands
  by_cases straight : handle.rPtr ≤ handle.wPtr
  · have tail : circularbufReadSpaceAtEnd handle = (handle.wPtr - handle.rPtr : Nat) := by
      rw [circularbufReadSpaceAtEnd, if_pos (by omega)]
      omega
    have space : circularbufReadSpaceAvail handle = (handle.wPtr - handle.rPtr : Nat) := by
      rw [circularbufReadSpaceAvail, if_neg (by omega), tail]
    by_cases empty : handle.wPtr - handle.rPtr = 0
    · rw [empty] at space
      refine Or.inl ⟨getReadPtr_empty space, ?_⟩
      rw [unreadPlaces, if_pos straight, empty, List.range'_zero]
    · have read := getReadPtr_of tail space (by omega) (by rw [if_neg (by omega)]; omega)
      rw [if_neg (by omega)] at read
      refine Or.inr ⟨_, _, _, read, ⟨small, write, stop, wrapped⟩, ⟨by omega, Or.inl ?_⟩, same _, rfl⟩
      dsimp only
      omega
  · have ordered := wrapped (by omega)
    have tail : circularbufReadSpaceAtEnd handle = (handle.ePtr - handle.rPtr : Nat) := by
      rw [circularbufReadSpaceAtEnd, if_neg (by omega)]
      omega
    by_cases reached : handle.ePtr - handle.rPtr = 0
    · -- the tail is read, the rest lies at the front
      have space : circularbufReadSpaceAvail handle = handle.wPtr := by
        rw [circularbufReadSpaceAvail, if_pos (by omega)]
      by_cases empty : handle.wPtr = 0
      · rw [empty] at space
        refine Or.inl ⟨getReadPtr_empty space, ?_⟩
        rw [unreadPlaces, if_neg straight, reached, empty]
        rfl
      · have read := getReadPtr_of tail space (by omega) (by rw [if_pos (by omega)]; omega)
        rw [if_pos (by omega), Nat.zero_add] at read
        refine Or.inr ⟨_, _, _, read, ⟨small, write, stop, wrapped⟩,
          ⟨by omega, Or.inr (Or.inr ?_)⟩, same _, rfl⟩
        dsimp only
        omega
    · have space : circularbufReadSpaceAvail handle = (handle.ePtr - handle.rPtr : Nat) := by
        rw [circularbufReadSpaceAvail, if_neg (by omega), tail]
      have read := getReadPtr_of tail space (by omega) (by rw [if_neg (by omega)]; omega)
      rw [if_neg (by omega)] at read
      refine Or.inr ⟨_, _, _, read, ⟨small, write, stop, wrapped⟩,
        ⟨by omega, Or.inr (Or.inl ?_)⟩, same _, rfl⟩
      dsimp only
      omega

theorem reservation_of_read {rPtr : Nat} (reserved : Reservation handle addr size)
    (moved : (handle.rPtr ≤ rPtr ∧ (handle.rPtr ≤ handle.wPtr → rPtr ≤ handle.wPtr)) ∨
      (handle.wPtr < handle.rPtr ∧ rPtr ≤ handle.wPtr)) :
    Reservation { handle with rPtr := rPtr } addr size := by
  unfold Reservation at reserved ⊢
  dsimp only
  omega

theorem writer_of_read {rPtr : Nat} (stands : WriterStands handle memory writer)
    (moved : (handle.rPtr ≤ rPtr ∧ (handle.rPtr ≤ handle.wPtr → rPtr ≤ handle.wPtr)) ∨
      (handle.wPtr < handle.rPtr ∧ rPtr ≤ handle.wPtr)) :
    WriterStands { handle with rPtr := rPtr } memory writer := by
  cases writer with
  | idle => exact stands
  | reserved addr size => exact reservation_of_read stands moved
  | written addr data => exact ⟨reservation_of_read stands.1 moved, stands.2⟩

theorem complete_read (valid : HandleValid handle) (reading : Reading handle addr len)
    (stands : WriterStands handle memory writer) :
    HandleValid (circularbufReadComplete handle len) ∧
      (circularbufReadComplete handle len).rpPtr = (circularbufReadComplete handle len).rPtr ∧
      WriterStands (circularbufReadComplete handle len) memory writer ∧
      (unreadPlaces handle).take len = List.range' addr len ∧
      unreadPlaces (circularbufReadComplete handle len) = (unreadPlaces handle).drop len := by
  obtain ⟨small, write, stop, wrapped⟩ := valid
  obtain ⟨positive, straight | tail | front⟩ := reading
  · obtain ⟨ordered, rfl, pending, inside⟩ := straight
    rw [circularbufReadComplete, if_neg (by omega), Nat.mod_eq_of_lt (by omega)]
    refine ⟨⟨small, write, stop, by dsimp only; omega⟩, pending, writer_of_read stands (by omega), ?_, ?_⟩
    · rw [unreadPlaces, if_pos ordered]
      exact List.take_range'_of_length_ge (by omega)
    · simp only [unreadPlaces]
      rw [if_pos (by omega), if_pos ordered, List.drop_range', Nat.mul_one]
      congr 1
      omega
  · obtain ⟨behind, rfl, pending, inside⟩ := tail
    have length : len ≤ (List.range' handle.rPtr (handle.ePtr - handle.rPtr)).length := by
      rw [List.length_range']
      omega
    rw [circularbufReadComplete, if_neg (by omega), Nat.mod_eq_of_lt (by omega)]
    refine ⟨⟨small, write, stop, by dsimp only; omega⟩, pending, writer_of_read stands (by omega), ?_, ?_⟩
    · rw [unreadPlaces, if_neg (by omega), List.take_append_of_le_length length]
      exact List.take_range'_of_length_ge (by omega)
    · simp only [unreadPlaces]
      rw [if_neg (by omega), if_neg (by omega), List.drop_append_of_le_length length,
        List.drop_range', Nat.mul_one]
      congr 2
      omega
  · obtain ⟨behind, reached, rfl, pending, inside⟩ := front
    rw [circularbufReadComplete, if_pos (by omega)]
    refine ⟨⟨small, write, stop, by dsimp only; omega⟩, pending, writer_of_read stands (by omega), ?_, ?_⟩
    · rw [unreadPlaces, if_neg (by omega), reached, Nat.sub_self, List.range'_zero, List.nil_append]
      exact List.take_range'_of_length_ge inside
    · simp only [unreadPlaces]
      rw [if_pos inside, if_neg (by omega), reached, Nat.sub_self, List.range'_zero, List.nil_append,
        List.drop_range', Nat.mul_one, Nat.zero_add]

end Handle

section Run

variable {state : CbufState}

theorem reservation_apart {handle : Circularbuf} {addr size place : Nat} (valid : HandleValid handle)
    (reserved : Reservation handle addr size) (low : addr ≤ place) (high : place < addr + size) :
    place ∉ unreadPlaces handle := by
  have wrapped := valid.wrapped
  unfold unreadPlaces Reservation at *
  split
  · rw [List.mem_range'_1]
    omega
  · rw [List.mem_append, List.mem_range'_1, List.mem_range'_1]
    omega

namespace CbufInvariant

theorem start {depth : UInt16} (memory : Memory) (small : depth.toNat < 2 ^ 15) :
    CbufInvariant (cbufStart depth memory) :=
  ⟨⟨small, Nat.zero_le _, le_rfl, fun behind => absurd behind (Nat.lt_irrefl _)⟩, rfl, rfl, rfl, rfl⟩

theorem reserve (valid : CbufInvariant state) (size : Nat) (idle : state.writer = .idle) :
    CbufInvariant (cbufStep state (.reserve size)) := by
  have free := valid.writer
  rw [idle] at free
  rcases @reserve_cases _ size _ valid.handle free valid.reader with
    ⟨refused, -⟩ | ⟨after, addr, reserved, handle, writer, reader, same⟩
  · simp only [cbufStep, refused]
    exact valid
  · simp only [cbufStep, reserved]
    exact ⟨handle, writer, reader, valid.places.trans same.symm, valid.order⟩

theorem write (valid : CbufInvariant state) {data : List UInt8} {addr : Nat}
    (reserved : state.writer = .reserved addr data.length) :
    CbufInvariant (cbufStep state (.write data)) := by
  have stands := valid.writer
  rw [reserved] at stands
  simp only [cbufStep, reserved]
  refine ⟨valid.handle, ⟨stands, Bytes.load_store _ _ _⟩, valid.reader, valid.places, ?_⟩
  have untouched : state.unread.map (store state.memory addr data) =
      state.unread.map state.memory := by
    apply List.map_congr_left
    intro place member
    apply Bytes.store_outside
    by_contra inside
    rw [valid.places] at member
    exact reservation_apart valid.handle stands (by omega) (by omega) member
  rw [untouched]
  exact valid.order

theorem writeComplete (valid : CbufInvariant state) {addr : Nat} {data : List UInt8}
    (written : state.writer = .written addr data) :
    CbufInvariant (cbufStep state .writeComplete) := by
  have stands := valid.writer
  rw [written] at stands
  obtain ⟨handle, idle, reader, places⟩ := complete_write valid.handle stands.1 valid.reader
  simp only [cbufStep, written]
  refine ⟨handle, idle, reader, ?_, ?_⟩
  · rw [places, valid.places]
  · dsimp only
    rw [List.map_append, ← load_eq_map, stands.2, ← List.append_assoc, ← valid.order]

theorem getReadPtr (valid : CbufInvariant state) (idle : state.reader = .idle) :
    CbufInvariant (cbufStep state .getReadPtr) := by
  have free := valid.reader
  rw [idle] at free
  rcases get_cases valid.handle free valid.writer with
    ⟨empty, -⟩ | ⟨after, addr, len, given, handle, reading, writer, same⟩
  · simp only [cbufStep, empty]
    exact valid
  · simp only [cbufStep, given]
    exact ⟨handle, writer, reading, valid.places.trans same.symm, valid.order⟩

theorem readComplete (valid : CbufInvariant state) {addr len : Nat}
    (reading : state.reader = .reading addr len) :
    CbufInvariant (cbufStep state .readComplete) := by
  have stands := valid.reader
  rw [reading] at stands
  obtain ⟨handle, idle, writer, first, rest⟩ := complete_read valid.handle stands valid.writer
  simp only [cbufStep, reading]
  refine ⟨handle, writer, idle, ?_, ?_⟩
  · rw [rest, valid.places]
  · dsimp only
    rw [load_eq_map, ← first, ← valid.places, List.append_assoc, ← List.map_append,
      List.take_append_drop]
    exact valid.order

theorem preserved : cbufMachine.Preserves CbufInvariant := by
  intro state call valid admitted
  cases call with
  | reserve size => exact valid.reserve size admitted.1
  | write data =>
    obtain ⟨addr, reserved⟩ := admitted
    exact valid.write reserved
  | writeComplete =>
    obtain ⟨addr, data, written⟩ := admitted
    exact valid.writeComplete written
  | getReadPtr => exact valid.getReadPtr admitted
  | readComplete =>
    obtain ⟨addr, len, reading⟩ := admitted
    exact valid.readComplete reading

theorem inside (valid : CbufInvariant state) :
    state.handle.rPtr ≤ state.handle.depth ∧ state.handle.wPtr ≤ state.handle.depth ∧
      state.handle.ePtr ≤ state.handle.depth ∧ state.handle.wpPtr ≤ state.handle.depth ∧
      state.handle.rpPtr ≤ state.handle.depth := by
  obtain ⟨small, write, stop, wrapped⟩ := valid.handle
  have read : state.handle.rPtr ≤ state.handle.depth := by omega
  have writer := valid.writer
  have reader := valid.reader
  refine ⟨read, write, stop, ?_, ?_⟩
  · cases stands : state.writer with
    | idle =>
      rw [stands] at writer
      exact writer.le.trans write
    | reserved addr size =>
      rw [stands] at writer
      unfold WriterStands Reservation at writer
      omega
    | written addr data =>
      rw [stands] at writer
      unfold WriterStands Reservation at writer
      omega
  · cases stands : state.reader with
    | idle =>
      rw [stands] at reader
      exact reader.le.trans read
    | reading addr len =>
      rw [stands] at reader
      unfold ReaderStands Reading at reader
      omega

theorem sound (valid : CbufInvariant state) : CbufSound state := by
  refine ⟨valid.order, ?_, ?_, valid.inside, ?_⟩
  · intro idle nothing
    have free := valid.reader
    rw [idle] at free
    rcases get_cases valid.handle free valid.writer with ⟨-, empty⟩ | ⟨after, addr, len, given, -⟩
    · exact valid.places.trans empty
    · rw [given] at nothing
      cases nothing
  · intro place reserves
    rw [valid.places]
    have writer := valid.writer
    cases stands : state.writer with
    | idle =>
      rw [stands] at reserves
      exact reserves.elim
    | reserved addr size =>
      rw [stands] at reserves writer
      exact reservation_apart valid.handle writer reserves.1 reserves.2
    | written addr data =>
      rw [stands] at reserves writer
      exact reservation_apart valid.handle writer.1 reserves.1 reserves.2
  · intro size idle _ refused
    have free := valid.writer
    rw [idle] at free
    rcases @reserve_cases _ size _ valid.handle free valid.reader with
      ⟨-, gaps⟩ | ⟨after, addr, reserved, -⟩
    · exact gaps
    · rw [reserved] at refused
      cases refused

end CbufInvariant

end Run

theorem reserve_refused_of_deep {handle : Circularbuf} (unread : handle.rPtr = 0)
    (unwritten : handle.wpPtr = 0) (deep : 2 ^ 15 ≤ handle.depth) (bound : handle.depth < 2 ^ 16)
    (size : Nat) : (circularbufReserveForWrite handle size).2 = none := by
  have negative : int16 (handle.depth - handle.wpPtr) = handle.depth - 2 ^ 16 := by
    unfold int16
    rw [Int.bmod_neg _ _ (by omega)]
    omega
  have nothing : int16 handle.rPtr = handle.rPtr := int16_of_small (by omega) (by omega)
  have level : handle.wpPtr ≥ handle.rPtr := by omega
  unfold circularbufReserveForWrite
  dsimp only
  rw [if_pos level, negative, if_neg (by omega), nothing, if_neg (by omega)]

/-- A circular buffer works in every run exactly when its depth fits an `int16`. -/
theorem circularbuf_sound_iff (depth : UInt16) :
    (∀ (memory : Memory) (calls : List CbufCall),
      cbufMachine.Admitted (cbufStart depth memory) calls →
        CbufSound (cbufMachine.run (cbufStart depth memory) calls)) ↔ depth.toNat < 2 ^ 15 := by
  constructor
  · intro works
    by_contra deep
    have fresh := works (fun _ => 0) [] trivial
    have gap := (fresh.refused 0 rfl (by change 0 < depth.toNat; omega)
      (reserve_refused_of_deep rfl rfl (Nat.le_of_not_lt deep) depth.toNat_lt 0)).1
    have whole : gapAtEnd (circularbufInit depth) = depth.toNat := rfl
    change gapAtEnd (circularbufInit depth) ≤ 0 at gap
    omega
  · intro small memory calls admitted
    exact (cbufMachine.run_invariant CbufInvariant.preserved (.start memory small) admitted).sound

/-- An empty buffer of 40000 bytes has no room for ten. -/
theorem circularbuf_refuses_with_space :
    (circularbufReserveForWrite (cbufStart 40000 fun _ => 0).handle 10).2 = none ∧
    gapAtEnd (cbufStart 40000 fun _ => 0).handle = 40000 := by
  decide

end BcmDhd.Utils
