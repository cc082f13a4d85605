import BcmDhd.DebugRing.Ring

namespace BcmDhd.DebugRing

open BcmDhd.Lib

/-- The offset at which the records from one on come to an end marker. -/
def markerFrom (buf : Memory) : (turns offset : Nat) → Nat
  | 0, offset => offset
  | turns + 1, offset =>
    if entryLen buf offset = 0 then offset else markerFrom buf turns (offset + entryLength buf offset)

def endMarker (ring : DbgRing) : Nat := markerFrom ring.ringBuf ring.ringSize ring.rp

/-- Where a record of a length goes that is put behind the others, or, if there is room for
an end marker then and the others reach far enough, to the start of the buffer. -/
def landingBehind (ring : DbgRing) (wLen : Nat) : Option Nat :=
  if ring.wp + wLen ≤ ring.ringSize then some ring.wp
  else if ring.wp + dbgRingEntrySize ≤ ring.ringSize ∧ wLen < ring.wp then some 0
  else none

/-- Where a record of a length goes without leaving the buffer, if it can. In a ring that has
wrapped around, records up to the end marker may go for it, and then the first one too. -/
def landing (ring : DbgRing) (wLen : Nat) : Option Nat :=
  if ring.rp = ring.wp then
    if ring.wp + wLen ≤ ring.ringSize then some ring.wp else none
  else if ring.rp < ring.wp then landingBehind ring wLen
  else if ring.wp + wLen < endMarker ring then some ring.wp
  else if entryLength ring.ringBuf 0 = ring.wp then
    if ring.wp + wLen ≤ ring.ringSize then some ring.wp else none
  else landingBehind ring wLen

/-- There is room behind the write pointer, and only pointers and the buffer have changed. -/
structure Made (ring after : DbgRing) (wLen place : Nat) (stored : List Bytes) : Prop where
  layout : Layout after stored
  wp : after.wp = place
  inside : place + wLen ≤ ring.ringSize
  apart : after.wp < after.rp → after.wp + wLen < after.rp
  same : after = { ring with rp := after.rp, wp := after.wp, ringBuf := after.ringBuf }

def Writes.Inside (writes : Writes) (size : Nat) : Prop := ∀ write ∈ writes, write.1 + write.2 ≤ size

section

variable {buf : Memory} {offset stop marker wLen place turns : Nat} {record : Bytes}
  {stored tail front rest gone : List Bytes} {ring after : DbgRing} {writes : Writes}

theorem markerFrom_eq (tiles : Tiles buf offset tail marker) (start : 0 < offset) (marked : entryLen buf marker = 0)
    (enough : tail.length < turns) : markerFrom buf turns offset = marker := by
  induction tail generalizing offset turns with
  | nil =>
    cases tiles
    cases turns with
    | zero => cases enough
    | succ turns => exact if_pos marked
  | cons record rest ih =>
    cases turns with
    | zero => cases enough
    | succ turns =>
      have payload : entryLen buf offset ≠ 0 := by
        rw [tiles.1.entryLen]
        exact fun empty => start.ne' (tiles.1.payload empty)
      rw [markerFrom, if_neg payload, tiles.1.entryLength]
      exact ih tiles.2 (by omega) (Nat.lt_of_succ_lt_succ enough)

theorem endMarker_eq (tiles : Tiles ring.ringBuf ring.rp tail marker) (marked : entryLen ring.ringBuf marker = 0)
    (inside : marker + dbgRingEntrySize ≤ ring.ringSize) (start : 0 < ring.rp) : endMarker ring = marker := by
  have reach := tiles_length tiles
  refine markerFrom_eq tiles start marked ?_
  unfold dbgRingEntrySize at *
  omega

theorem space_leaves (below : ring.wp < ring.rp) (small : ring.rp < 2 ^ 32) (room : ring.wp + wLen < ring.rp) :
    spaceTurn wLen (ring, writes) = .leave (ring, writes) := by
  unfold spaceTurn
  dsimp only
  rw [if_neg (by omega), if_neg (by omega), sub32_of_le (by omega) small, if_neg (by omega)]

theorem space_evicts (below : ring.wp < ring.rp) (small : ring.rp < 2 ^ 32) (tight : ring.rp ≤ ring.wp + wLen) :
    spaceTurn wLen (ring, writes) = .again ({ ring with rp := nextEntry ring ring.rp }, writes) := by
  unfold spaceTurn
  dsimp only
  rw [if_neg (by omega), if_neg (by omega), sub32_of_le (by omega) small, if_pos (by omega)]

/-- Records go until there is room, at the end marker at last. -/
theorem tail_made (small : ring.ringSize < 2 ^ 31) (tiles : Tiles ring.ringBuf ring.rp tail marker)
    (marked : entryLen ring.ringBuf marker = 0) (inside : marker + dbgRingEntrySize ≤ ring.ringSize)
    (behind : Tiles ring.ringBuf 0 front ring.wp) (below : ring.wp < ring.rp) (gap : ring.wp + wLen < marker) :
    ∃ gone after, loopFor (spaceTurn wLen) (tail.length + 1) (ring, writes) = some (after, writes) ∧
      Made ring after wLen ring.wp ((tail ++ front).drop gone) := by
  induction tail generalizing ring with
  | nil =>
    have here : ring.rp = marker := tiles
    refine ⟨0, ring, Loop.loopFor_leave (space_leaves below (by omega) (by omega)), ?_⟩
    exact ⟨.wrapped [] front marker tiles marked inside behind below, rfl, by omega, fun _ => by omega, rfl⟩
  | cons record rest ih =>
    have reach := tiles_length tiles
    by_cases room : ring.wp + wLen < ring.rp
    · refine ⟨0, ring, Loop.loopFor_leave (space_leaves below (by omega) room), ?_⟩
      exact ⟨.wrapped (record :: rest) front marker tiles marked inside behind below, rfl, by omega, fun _ => room, rfl⟩
    · have later := tiles_length tiles.2
      obtain ⟨_, next⟩ := tiles.1.found (by omega)
      rw [List.length_cons, Loop.loopFor_again (space_evicts below (by omega) (by omega)), next]
      have below : ring.wp < ring.rp + record.length := by omega
      obtain ⟨gone, after, left, made⟩ :=
        @ih { ring with rp := ring.rp + record.length } small tiles.2 marked inside behind below gap
      exact ⟨gone + 1, after, left, made.layout, made.wp, made.inside, made.apart, made.same⟩

theorem evictFirst_straight (small : ring.ringSize < 2 ^ 31) (before : Tiles ring.ringBuf 0 gone ring.rp)
    (tiles : Tiles ring.ringBuf ring.rp stored ring.wp)
    (inside : ring.wp ≤ ring.ringSize) (below : ring.rp < ring.wp) :
    ∃ count gone rp, evictFirst ring = { ring with rp := rp } ∧ 0 < rp ∧ Tiles ring.ringBuf 0 gone rp ∧
      Tiles ring.ringBuf rp (stored.drop count) ring.wp := by
  unfold evictFirst
  by_cases start : ring.rp = 0
  · rw [if_pos start]
    cases stored with
    | nil => exact absurd tiles below.ne
    | cons record rest =>
      have reach := tiles_length tiles.2
      have long := isRecord_length tiles.1.isRecord
      have size : 0 < dbgRingEntrySize := by decide
      obtain ⟨_, next⟩ := tiles.1.found (by omega)
      rw [next]
      exact ⟨1, gone ++ [record], _, rfl, by omega, tiles_append.mpr ⟨ring.rp, before, tiles.1, rfl⟩, tiles.2⟩
  · rw [if_neg start]
    exact ⟨0, gone, ring.rp, rfl, Nat.pos_of_ne_zero start, before, tiles⟩

theorem marked_store (buf : Memory) (offset : Nat) :
    entryLen (store buf offset (List.replicate dbgRingEntrySize 0)) offset = 0 := by
  have zeros := Bytes.load_store buf offset (List.replicate dbgRingEntrySize 0)
  rw [List.length_replicate] at zeros
  unfold entryLen
  rw [zeros]
  decide

/-- Where the records are between the pointers. -/
theorem straight_made (small : ring.ringSize < 2 ^ 31) (before : Tiles ring.ringBuf 0 gone ring.rp)
    (tiles : Tiles ring.ringBuf ring.rp stored ring.wp)
    (inside : ring.wp ≤ ring.ringSize)
    (lands : (if ring.rp = ring.wp then if ring.wp + wLen ≤ ring.ringSize then some ring.wp else none
      else landingBehind ring wLen) = some place) :
    ∃ gone after more, loopFor (spaceTurn wLen) (stored.length + 2) (ring, writes) = some (after, writes ++ more) ∧
      Made ring after wLen place (stored.drop gone) ∧ Writes.Inside more ring.ringSize := by
  have reach := tiles_length tiles
  have rest : sub32 ring.ringSize ring.wp = ring.ringSize - ring.wp := sub32_of_le inside (by omega)
  have nothing : Writes.Inside [] ring.ringSize := fun write member => absurd member List.not_mem_nil
  by_cases empty : ring.rp = ring.wp
  · rw [if_pos empty] at lands
    have left : spaceTurn wLen (ring, writes) = .leave (ring, writes) := if_pos empty
    split at lands
    · cases lands
      refine ⟨0, ring, [], ?_, ⟨.straight gone stored before tiles inside,
        rfl, by assumption, fun _ => by omega, rfl⟩, nothing⟩
      rw [List.append_nil]
      exact Loop.loopFor_leave left
    · cases lands
  · have below : ring.rp < ring.wp := by omega
    rw [if_neg empty] at lands
    obtain ⟨count, passed, rp, evicted, positive, earlier, later⟩ := evictFirst_straight small before tiles inside below
    have turn : spaceTurn wLen (ring, writes) =
        if ring.ringSize - ring.wp = wLen then .leave (evictFirst ring, writes)
        else if ring.ringSize - ring.wp < wLen then
          .again ({ evictFirst ring with
            ringBuf := store ring.ringBuf ring.wp (List.replicate dbgRingEntrySize 0), wp := 0 },
            writes ++ [(ring.wp, dbgRingEntrySize)])
        else .leave (ring, writes) := by
      unfold spaceTurn
      dsimp only
      rw [if_neg empty, if_pos below, rest]
    have reachLater := tiles_length later
    unfold landingBehind at lands
    by_cases behind : ring.wp + wLen ≤ ring.ringSize
    · rw [if_pos behind] at lands
      cases lands
      by_cases exact_ : ring.ringSize - ring.wp = wLen
      · rw [if_pos exact_, evicted] at turn
        refine ⟨count, { ring with rp := rp }, [], ?_,
          ⟨.straight passed _ earlier later inside, rfl, behind, fun before => ?_, rfl⟩, nothing⟩
        · rw [List.append_nil]
          exact Loop.loopFor_leave turn
        · change ring.wp < rp at before
          omega
      · rw [if_neg exact_, if_neg (by omega)] at turn
        refine ⟨0, ring, [], ?_, ⟨.straight gone stored before tiles inside, rfl, behind,
          fun _ => by omega, rfl⟩, nothing⟩
        rw [List.append_nil]
        exact Loop.loopFor_leave turn
    · rw [if_neg behind] at lands
      split at lands
      · rename_i room
        obtain ⟨room, gap⟩ := room
        cases lands
        rw [if_neg (by omega), if_pos (by omega), evicted] at turn
        have kept : Tiles (store ring.ringBuf ring.wp (List.replicate dbgRingEntrySize 0)) rp
            (stored.drop count) ring.wp := by
          refine tiles_frame later fun place low high => Bytes.store_outside (Or.inl high)
        obtain ⟨more, after, left, made⟩ := @tail_made ring.wp wLen (stored.drop count) []
          { ring with rp := rp, ringBuf := store ring.ringBuf ring.wp (List.replicate dbgRingEntrySize 0), wp := 0 }
          (writes ++ [(ring.wp, dbgRingEntrySize)]) small kept (marked_store _ _) room rfl positive (by simpa using gap)
        refine ⟨count + more, after, [(ring.wp, dbgRingEntrySize)], ?_,
          ⟨?_, made.wp, made.inside, made.apart, made.same⟩, ?_⟩
        · rw [Loop.loopFor_again turn]
          refine Loop.loopFor_mono left ?_
          rw [List.length_drop]
          omega
        · have layout := made.layout
          rw [List.append_nil, List.drop_drop] at layout
          exact layout
        · intro write member
          rw [List.mem_singleton.mp member]
          exact room
      · cases lands

/-- Up to the end marker, and over it: the first record goes too. -/
theorem wrapped_exhausts (small : ring.ringSize < 2 ^ 31) (tiles : Tiles ring.ringBuf ring.rp tail marker)
    (marked : entryLen ring.ringBuf marker = 0) (inside : marker + dbgRingEntrySize ≤ ring.ringSize)
    (first : RecordAt ring.ringBuf 0 record) (below : ring.wp < ring.rp) (tight : marker ≤ ring.wp + wLen) :
    loopFor (spaceTurn wLen) (tail.length + 1 + turns) (ring, writes) =
      loopFor (spaceTurn wLen) turns ({ ring with rp := record.length }, writes) := by
  induction tail generalizing ring with
  | nil =>
    have here : ring.rp = marker := tiles
    have next : nextEntry ring ring.rp = record.length := by
      unfold nextEntry
      rw [here, if_pos marked, first.entryLength]
    rw [List.length_nil, Nat.zero_add, Nat.add_comm,
      Loop.loopFor_again (space_evicts below (by omega) (by omega)), next]
  | cons other rest ih =>
    have reach := tiles_length tiles.2
    obtain ⟨_, next⟩ := tiles.1.found (by omega)
    have order : (other :: rest).length + 1 + turns = (rest.length + 1 + turns) + 1 := by
      rw [List.length_cons]
      omega
    have below : ring.wp < ring.rp + other.length := by omega
    rw [order, Loop.loopFor_again (space_evicts (by omega) (by omega) (by omega)), next]
    exact @ih { ring with rp := ring.rp + other.length } small tiles.2 marked inside first below tight

/-- Space is made for a record wherever it can go, by taking oldest records. -/
theorem space_made (small : ring.ringSize < 2 ^ 31) (layout : Layout ring stored) (started : ring.wp = 0 → ring.rp = 0)
    (lands : landing ring wLen = some place) :
    ∃ gone after more, loopFor (spaceTurn wLen) (stored.length + 2) (ring, writes) = some (after, writes ++ more) ∧
      Made ring after wLen place (stored.drop gone) ∧ Writes.Inside more ring.ringSize := by
  cases layout with
  | straight gone stored before tiles inside =>
    have reach := tiles_length tiles
    refine straight_made small before tiles inside ?_
    unfold landing at lands
    by_cases empty : ring.rp = ring.wp
    · rw [if_pos empty] at lands ⊢
      exact lands
    · rw [if_neg empty, if_pos (by omega)] at lands
      rw [if_neg empty]
      exact lands
  | wrapped tail front marker tiles marked inside behind below =>
    have reach := tiles_length tiles
    unfold landing at lands
    rw [if_neg (by omega), if_neg (by omega), endMarker_eq tiles marked inside (by omega)] at lands
    by_cases gap : ring.wp + wLen < marker
    · rw [if_pos gap] at lands
      cases lands
      obtain ⟨gone, after, left, made⟩ :=
        @tail_made marker wLen tail front ring writes small tiles marked inside behind below gap
      refine ⟨gone, after, [], ?_, made, fun write member => absurd member List.not_mem_nil⟩
      rw [List.append_nil]
      refine Loop.loopFor_mono left ?_
      rw [List.length_append]
      omega
    · rw [if_neg gap] at lands
      cases front with
      | nil =>
        have start : ring.wp = 0 := behind.symm
        have pointer := started start
        omega
      | cons record rest =>
        have size := behind.1.entryLength
        rw [size] at lands
        have later := behind.2
        rw [Nat.zero_add] at later
        have reachLater := tiles_length later
        obtain ⟨gone, after, more, left, made, written⟩ := @straight_made wLen place rest [record]
          { ring with rp := record.length } writes small ⟨behind.1,
            Nat.zero_add _⟩ later (by change ring.wp ≤ ring.ringSize; omega) lands
        refine ⟨tail.length + 1 + gone, after, more, ?_, ⟨?_, made.wp, made.inside, made.apart, made.same⟩, written⟩
        · have turns : (tail ++ record :: rest).length + 2 = tail.length + 1 + (rest.length + 2) := by
            rw [List.length_append, List.length_cons]
            omega
          rw [turns, wrapped_exhausts small tiles marked inside behind.1 below (by omega)]
          exact left
        · have dropped : (tail ++ record :: rest).drop (tail.length + 1 + gone) = rest.drop gone := by
            rw [Nat.add_assoc, List.drop_append, List.drop_of_length_le (by omega), List.nil_append,
              Nat.add_sub_cancel_left, Nat.add_comm, List.drop_succ_cons]
          rw [dropped]
          exact made.layout

/-- The header with the payload is in the buffer, and nothing else has changed there. -/
theorem writeEntry_bytes {hdr data : Bytes} (header : hdr.length = dbgRingEntrySize)
    (payload : data.length = headerLen hdr) (small : ring.wp + (hdr ++ data).length < 2 ^ 32) :
    (writeEntry ring hdr data).wp = ring.wp + (hdr ++ data).length ∧
      load (writeEntry ring hdr data).ringBuf ring.wp (hdr ++ data).length = hdr ++ data ∧
      ∀ offset, offset < ring.wp ∨ ring.wp + (hdr ++ data).length ≤ offset →
        (writeEntry ring hdr data).ringBuf offset = ring.ringBuf offset := by
  have whole : data.take (headerLen hdr) = data := List.take_of_length_le (by omega)
  have buf : (writeEntry ring hdr data).ringBuf =
      store (store ring.ringBuf ring.wp hdr) (ring.wp + dbgRingEntrySize) data := by
    change store (store (store ring.ringBuf ring.wp hdr) ring.wp (hdr.take 2)) (ring.wp + dbgRingEntrySize)
      (data.take (headerLen hdr)) = _
    rw [whole, Bytes.store_again]
  have length : (hdr ++ data).length = dbgRingEntrySize + data.length := by rw [List.length_append, header]
  refine ⟨?_, ?_, fun offset outside => ?_⟩
  · have size : headerLen hdr + dbgRingEntrySize = (hdr ++ data).length := by omega
    change (ring.wp + (headerLen hdr + dbgRingEntrySize)) % 2 ^ 32 = _
    rw [size, Nat.mod_eq_of_lt small]
  · have first : load (store (store ring.ringBuf ring.wp hdr) (ring.wp + dbgRingEntrySize) data) ring.wp
        dbgRingEntrySize = hdr := by
      have before := Bytes.load_store ring.ringBuf ring.wp hdr
      rw [header] at before
      rw [Bytes.load_store_apart (Or.inl (Nat.le_refl _)), before]
    rw [buf, length, Bytes.load_add, first, Bytes.load_store]
  · rw [buf, Bytes.store_outside (by omega), Bytes.store_outside (by omega)]

theorem record_isRecord {hdr data : Bytes} (header : hdr.length = dbgRingEntrySize)
    (payload : data.length = headerLen hdr) :
    IsRecord (hdr ++ data) ∧ headerLen (hdr ++ data) = headerLen hdr := by
  have same : headerLen (hdr ++ data) = headerLen hdr := by
    have two : (2 : Nat) ≤ hdr.length := by
      rw [header]
      decide
    unfold headerLen
    rw [List.take_append_of_le_length two]
  refine ⟨?_, same⟩
  unfold IsRecord
  rw [same, List.length_append, header, payload, Nat.add_comm]

/-- A record that is written where there is room for it is stored behind the others. -/
theorem writeEntry_layout {hdr data : Bytes} (small : ring.ringSize < 2 ^ 31) (layout : Layout ring stored)
    (header : hdr.length = dbgRingEntrySize) (payload : data.length = headerLen hdr)
    (inside : ring.wp + (hdr ++ data).length ≤ ring.ringSize)
    (apart : ring.wp < ring.rp → ring.wp + (hdr ++ data).length < ring.rp)
    (shown : headerLen hdr = 0 → ring.wp = 0) :
    Layout (writeEntry ring hdr data) (stored ++ [hdr ++ data]) := by
  obtain ⟨wp, bytes, outside⟩ := writeEntry_bytes header payload (show ring.wp + (hdr ++ data).length < 2 ^ 32 by omega)
  obtain ⟨isRecord, sameLen⟩ := record_isRecord header payload
  have new : RecordAt (writeEntry ring hdr data).ringBuf ring.wp (hdr ++ data) :=
    ⟨isRecord, fun empty => shown (sameLen ▸ empty), bytes⟩
  cases layout with
  | straight gone stored before tiles insideBefore =>
    have reach := tiles_length tiles
    have order : ring.rp ≤ ring.wp := by omega
    refine .straight gone _ ?_ (tiles_append.mpr ⟨ring.wp, ?_, new, wp.symm⟩) ?_
    · exact tiles_frame before fun place _ high => outside place (Or.inl (Nat.lt_of_lt_of_le high order))
    · exact tiles_frame tiles fun place _ high => outside place (Or.inl high)
    · rw [wp]
      exact inside
  | wrapped tail front marker tiles marked insideMarker behind below =>
    have reach := tiles_length tiles
    have room := apart below
    rw [List.append_assoc]
    refine .wrapped tail (front ++ [hdr ++ data]) marker ?_ ?_ insideMarker
      (tiles_append.mpr ⟨ring.wp, ?_, new, wp.symm⟩) ?_
    · exact tiles_frame tiles fun place low _ => outside place (Or.inr (by change ring.rp ≤ place at low; omega))
    · rw [← marked]
      unfold entryLen
      refine congrArg headerLen (Bytes.load_congr fun place low _ => outside place (Or.inr (by omega)))
    · exact tiles_frame behind fun place _ high => outside place (Or.inl high)
    · rw [wp]
      exact room

end

/-- The ring holds these records. -/
structure Stores (ring : DbgRing) (stored : List Bytes) : Prop where
  layout : Layout ring stored
  /-- The write pointer is at the start only before the first record. -/
  started : ring.wp = 0 → ring.rp = 0
  small : ring.ringSize < 2 ^ 31
  sized : dbgRingEntrySize ≤ ring.ringSize
  active : ring.active = true

/-- The lengths of the records from one offset to another. -/
def lengthsFrom (buf : Memory) : (turns offset stop : Nat) → List Nat
  | 0, _, _ => []
  | turns + 1, offset, stop =>
    if offset = stop then []
    else entryLength buf offset :: lengthsFrom buf turns (offset + entryLength buf offset) stop

/-- The lengths of the stored records, oldest first. -/
def storedLengths (ring : DbgRing) : List Nat :=
  if ring.rp ≤ ring.wp then lengthsFrom ring.ringBuf ring.ringSize ring.rp ring.wp
  else lengthsFrom ring.ringBuf ring.ringSize ring.rp (endMarker ring) ++
    lengthsFrom ring.ringBuf ring.ringSize 0 ring.wp

/-- What a pull takes for the pending length. -/
abbrev DbgRing.pending (ring : DbgRing) : Nat := readAvailSpace ring.wp ring.rp ring.ringSize

/-- So many bytes are a number of oldest records. -/
def StopsAt (ring : DbgRing) (amount : Nat) : Prop :=
  ∃ count ≤ (storedLengths ring).length, ((storedLengths ring).take count).sum = amount

section

variable {buf : Memory} {offset stop place turns availLen bufLen rLen : Nat} {record data : Bytes}
  {stored rest : List Bytes} {ring after : DbgRing} {hdr : Bytes}

theorem lengthsFrom_eq (tiles : Tiles buf offset stored stop) (enough : stored.length < turns) :
    lengthsFrom buf turns offset stop = stored.map List.length := by
  induction stored generalizing offset turns with
  | nil =>
    cases turns with
    | zero => cases enough
    | succ turns => exact if_pos tiles
  | cons record rest ih =>
    cases turns with
    | zero => cases enough
    | succ turns =>
      have reach := tiles_length tiles.2
      have long := isRecord_length tiles.1.isRecord
      have size : 0 < dbgRingEntrySize := by decide
      rw [lengthsFrom, if_neg (by omega), tiles.1.entryLength, ih tiles.2 (Nat.lt_of_succ_lt_succ enough)]
      rfl

theorem storedLengths_eq (stores : Stores ring stored) : storedLengths ring = stored.map List.length := by
  have sized := stores.sized
  unfold storedLengths
  unfold dbgRingEntrySize at sized
  cases stores.layout with
  | straight gone stored before tiles inside =>
    have reach := tiles_length tiles
    unfold dbgRingEntrySize at reach
    rw [if_pos (by omega), lengthsFrom_eq tiles (by omega)]
  | wrapped tail front marker tiles marked inside behind below =>
    have reach := tiles_length tiles
    have reachFront := tiles_length behind
    have found := endMarker_eq tiles marked inside (by omega)
    unfold dbgRingEntrySize at reach reachFront inside
    rw [if_neg (by omega), found, lengthsFrom_eq tiles (by omega),
      lengthsFrom_eq behind (by omega), List.map_append]

theorem stopsAt_iff (stores : Stores ring stored) {amount : Nat} :
    StopsAt ring amount ↔ ∃ count ≤ stored.length, (stored.take count).flatten.length = amount := by
  unfold StopsAt
  rw [storedLengths_eq stores, List.length_map]
  refine exists_congr fun count => and_congr_right fun _ => ?_
  rw [← List.map_take, List.length_flatten]

theorem push_spec (stores : Stores ring stored) (admitted : ringAdmits ring (.push hdr data))
    (lands : landing ring (headerLen hdr + dbgRingEntrySize) = some place) (shown : headerLen hdr = 0 → place = 0)
    (enough : ring.ringSize ≤ turns) :
    ∃ gone after writes pullreq, dhdDbgRingPush turns ring hdr data = some (after, writes, pullreq) ∧
      Stores after (stored.drop gone ++ [hdr ++ data]) ∧ Writes.Inside writes ring.ringSize ∧
      after.ringSize = ring.ringSize := by
  obtain ⟨header, payload, _⟩ := admitted
  obtain ⟨layout, started, small, sized, active⟩ := stores
  have length : (hdr ++ data).length = headerLen hdr + dbgRingEntrySize := by
    rw [List.length_append, header, payload, Nat.add_comm]
  obtain ⟨gone, made, more, left, ready, written⟩ := @space_made _ place stored ring [] small layout started lands
  obtain ⟨layoutMade, wp, inside, apart, same⟩ := ready
  have size : made.ringSize = ring.ringSize := by rw [same]
  have room : made.wp + (hdr ++ data).length ≤ made.ringSize := by
    rw [wp, length, size]
    exact inside
  have bound := (layout_length layout).2
  have enoughTurns : stored.length + 2 ≤ turns := by
    unfold dbgRingEntrySize at bound sized
    omega
  have entry := writeEntry_layout (size ▸ small) layoutMade header payload room
    (by rw [length]; exact apart) (fun empty => wp.trans (shown empty))
  have pointer := (writeEntry_bytes header payload (show made.wp + (hdr ++ data).length < 2 ^ 32 by omega)).1
  have entrySize : 0 < dbgRingEntrySize := by decide
  refine ⟨gone, writeEntry made hdr data, more ++ entryWrites made hdr,
    pullWanted (writeEntry made hdr data), ?_, ⟨entry, fun start => ?_, ?_, ?_, ?_⟩, ?_, size⟩
  · unfold dhdDbgRingPush
    rw [if_pos active, Loop.loopFor_mono left enoughTurns]
    rfl
  · rw [pointer] at start
    omega
  · exact size ▸ small
  · exact size ▸ sized
  · change made.active = true
    rw [same]
    exact active
  · intro write member
    rcases List.mem_append.mp member with before | header_
    · exact written write before
    · unfold entryWrites at header_
      simp only [List.mem_cons, List.not_mem_nil, or_false] at header_
      unfold dbgRingEntrySize at *
      rcases header_ with rfl | rfl | rfl
      · dsimp only
        omega
      · dsimp only
        omega
      · dsimp only
        omega

theorem sub32_eq_iff {a b c : Nat} (small : a < 2 ^ 32) (sum : b + c < 2 ^ 32) : sub32 a b = c ↔ a = b + c := by
  unfold sub32
  omega

theorem length_take_succ (record : Bytes) (rest : List Bytes) (count : Nat) :
    ((record :: rest).take (count + 1)).flatten.length = record.length + (rest.take count).flatten.length := by
  rw [List.take_succ_cons, List.flatten_cons, List.length_append]

theorem length_take_le (stored : List Bytes) (count : Nat) :
    (stored.take count).flatten.length ≤ stored.flatten.length := by
  have whole : stored.flatten.length = ((stored.take count) ++ (stored.drop count)).flatten.length := by
    rw [List.take_append_drop]
  rw [List.flatten_append, List.length_append] at whole
  omega

/-- The oldest records, so many of them that they come to one of the two lengths for the
first time, have been taken. -/
structure Taken (ring : DbgRing) (stored : List Bytes) (start stopped : Pull) (count : Nat) : Prop where
  stops : (stored.take count).flatten.length = start.availLen ∨ (stored.take count).flatten.length = start.bufLen
  first : ∀ fewer < count, (stored.take fewer).flatten.length ≠ start.availLen ∧
    (stored.take fewer).flatten.length ≠ start.bufLen
  data : stopped.data = start.data ++ (stored.take count).flatten
  rLen : start.rLen < 2 ^ 32 → stopped.rLen = (start.rLen + (stored.take count).flatten.length) % 2 ^ 32
  layout : Layout stopped.ring (stored.drop count)
  nothing : count = 0 → stopped.ring = ring
  frame : stopped.ring = { ring with rp := stopped.ring.rp, readBytes := stopped.ring.readBytes }

/-- The loop of a pull stops as soon as the records taken come to one of the two lengths. -/
theorem pull_leaves (small : ring.ringSize < 2 ^ 31) (layout : Layout ring stored)
    (fits : stored.flatten.length < 2 ^ 32) (availSmall : availLen < 2 ^ 32) (bufSmall : bufLen < 2 ^ 32)
    (stops : ∃ count ≤ stored.length, (stored.take count).flatten.length = availLen ∨
      (stored.take count).flatten.length = bufLen) :
    ∃ count stopped, loopFor pullTurn (stored.length + 1) ⟨ring, availLen, bufLen, data, rLen⟩ = some stopped ∧
      Taken ring stored ⟨ring, availLen, bufLen, data, rLen⟩ stopped count := by
  induction stored generalizing ring availLen bufLen data rLen with
  | nil =>
    obtain ⟨count, _, stop⟩ := stops
    rw [List.take_nil, List.flatten_nil] at stop
    have left : pullTurn ⟨ring, availLen, bufLen, data, rLen⟩ = .leave ⟨ring, availLen, bufLen, data, rLen⟩ :=
      if_neg fun both => stop.elim (fun none_ => both.1.ne none_) fun none_ => both.2.ne none_
    exact ⟨0, _, Loop.loopFor_leave left, stop, fun fewer none_ => absurd none_ (Nat.not_lt_zero _),
      (List.append_nil data).symm, fun smallLen => (Nat.mod_eq_of_lt smallLen).symm, layout, fun _ => rfl, rfl⟩
  | cons record rest ih =>
    by_cases over_ : 0 = availLen ∨ 0 = bufLen
    · have left : pullTurn ⟨ring, availLen, bufLen, data, rLen⟩ = .leave ⟨ring, availLen, bufLen, data, rLen⟩ :=
        if_neg fun both => over_.elim (fun none_ => both.1.ne none_) fun none_ => both.2.ne none_
      exact ⟨0, _, Loop.loopFor_leave left, over_, fun fewer none_ => absurd none_ (Nat.not_lt_zero _),
        (List.append_nil data).symm, fun smallLen => (Nat.mod_eq_of_lt smallLen).symm, layout, fun _ => rfl, rfl⟩
    · obtain ⟨there, later⟩ := layout.head small
      have goesOn : pullTurn ⟨ring, availLen, bufLen, data, rLen⟩ = .again ⟨
          { ring with rp := nextEntry ring ring.rp, readBytes := (ring.readBytes + record.length) % 2 ^ 32 },
          sub32 availLen record.length, sub32 bufLen record.length, data ++ record,
          (rLen + record.length) % 2 ^ 32⟩ := by
        unfold pullTurn
        dsimp only
        have both : 0 < availLen ∧ 0 < bufLen := by omega
        rw [if_pos both, there.entryLength, there.bytes]
      have whole := length_take_le rest
      rw [List.flatten_cons, List.length_append] at fits
      have same : ∀ count, (sub32 availLen record.length = (rest.take count).flatten.length ↔
          availLen = ((record :: rest).take (count + 1)).flatten.length) ∧
          (sub32 bufLen record.length = (rest.take count).flatten.length ↔
          bufLen = ((record :: rest).take (count + 1)).flatten.length) := by
        intro count
        have bound := whole count
        rw [length_take_succ]
        exact ⟨sub32_eq_iff availSmall (by omega), sub32_eq_iff bufSmall (by omega)⟩
      have stopsLater : ∃ count ≤ rest.length, (rest.take count).flatten.length = sub32 availLen record.length ∨
          (rest.take count).flatten.length = sub32 bufLen record.length := by
        obtain ⟨count, bound, stop⟩ := stops
        cases count with
        | zero => exact absurd stop over_
        | succ count =>
          refine ⟨count, Nat.le_of_succ_le_succ bound, ?_⟩
          exact stop.imp (fun at_ => ((same count).1.mpr at_.symm).symm) fun at_ => ((same count).2.mpr at_.symm).symm
      have lessAvail : sub32 availLen record.length < 2 ^ 32 := Nat.mod_lt _ (by decide)
      have lessBuf : sub32 bufLen record.length < 2 ^ 32 := Nat.mod_lt _ (by decide)
      have layoutLater : Layout { ring with
          rp := nextEntry ring ring.rp, readBytes := (ring.readBytes + record.length) % 2 ^ 32 } rest :=
        layout_same later rfl rfl rfl rfl
      obtain ⟨count, stopped, left, taken⟩ := @ih _ _ ((rLen + record.length) % 2 ^ 32) (data ++ record)
        { ring with rp := nextEntry ring ring.rp, readBytes := (ring.readBytes + record.length) % 2 ^ 32 } small
        layoutLater (by omega) lessAvail lessBuf stopsLater
      refine ⟨count + 1, stopped, ?_, ?_, ?_, ?_, ?_, taken.layout, fun none_ => absurd none_ (Nat.succ_ne_zero _),
        taken.frame⟩
      · rw [List.length_cons, Loop.loopFor_again goesOn]
        exact left
      · exact taken.stops.imp (fun at_ => ((same count).1.mp at_.symm).symm) fun at_ =>
          ((same count).2.mp at_.symm).symm
      · intro fewer less
        cases fewer with
        | zero => exact ⟨fun start => over_ (Or.inl start), fun start => over_ (Or.inr start)⟩
        | succ fewer =>
          obtain ⟨notAvail, notBuf⟩ := taken.first fewer (Nat.lt_of_succ_lt_succ less)
          exact ⟨fun at_ => notAvail ((same fewer).1.mpr at_.symm).symm,
            fun at_ => notBuf ((same fewer).2.mpr at_.symm).symm⟩
      · rw [taken.data, List.take_succ_cons, List.flatten_cons, List.append_assoc]
      · intro _
        rw [taken.rLen (Nat.mod_lt _ (by decide)), length_take_succ, Nat.mod_add_mod, Nat.add_assoc]

theorem pending_lt (ring : DbgRing) : ring.pending < 2 ^ 32 := by
  unfold DbgRing.pending readAvailSpace
  split
  · exact Nat.mod_lt _ (by decide)
  · exact Nat.mod_lt _ (by decide)

theorem pull_spec (stores : Stores ring stored) (bufSmall : bufLen < 2 ^ 32)
    (stops : StopsAt ring ring.pending ∨ StopsAt ring bufLen) (enough : ring.ringSize ≤ turns) :
    ∃ count after, dhdDbgRingPull turns ring bufLen =
        some (after, (stored.take count).flatten, (stored.take count).flatten.length) ∧
      Stores after (stored.drop count) ∧ after.ringSize = ring.ringSize ∧
      ((stored.take count).flatten.length = ring.pending ∨ (stored.take count).flatten.length = bufLen) ∧
      ∀ fewer < count, (stored.take fewer).flatten.length ≠ ring.pending ∧
        (stored.take fewer).flatten.length ≠ bufLen := by
  rw [stopsAt_iff stores, stopsAt_iff stores, ← exists_or] at stops
  have stop : ∃ count ≤ stored.length, (stored.take count).flatten.length = ring.pending ∨
      (stored.take count).flatten.length = bufLen := by
    obtain ⟨count, stop⟩ := stops
    exact stop.elim (fun at_ => ⟨count, at_.1, Or.inl at_.2⟩) fun at_ => ⟨count, at_.1, Or.inr at_.2⟩
  obtain ⟨layout, started, small, sized, active⟩ := stores
  have bound := layout_length layout
  unfold dbgRingEntrySize at bound sized
  obtain ⟨count, stopped, left, taken⟩ := @pull_leaves ring.pending bufLen 0 [] stored ring small layout (by omega)
    (pending_lt ring) bufSmall stop
  have below := length_take_le stored count
  have rLen : stopped.rLen = (stored.take count).flatten.length := by
    have counted := taken.rLen (Nat.two_pow_pos 32)
    rw [Nat.zero_add, Nat.mod_eq_of_lt (by omega)] at counted
    exact counted
  have frame := taken.frame
  have size : stopped.ring.ringSize = ring.ringSize := by rw [frame]
  refine ⟨count, stopped.ring, ?_, ⟨taken.layout, fun start => ?_, size ▸ small, size ▸ sized, ?_⟩, size, taken.stops,
    taken.first⟩
  · unfold dhdDbgRingPull
    rw [if_pos active, Loop.loopFor_mono left (by omega), Option.map_some, rLen, taken.data]
    rfl
  · have wp : stopped.ring.wp = ring.wp := by rw [frame]
    rw [wp] at start
    have pointer := started start
    have empty : ring.pending = 0 := by
      unfold DbgRing.pending readAvailSpace
      rw [start, pointer, if_pos (Nat.le_refl 0)]
      decide
    have none_ : count = 0 := by
      by_contra some_
      exact (taken.first 0 (Nat.pos_of_ne_zero some_)).1 empty.symm
    rw [taken.nothing none_]
    exact pointer
  · rw [frame]
    exact active

end

end BcmDhd.DebugRing
