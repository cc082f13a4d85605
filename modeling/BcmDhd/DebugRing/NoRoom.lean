import BcmDhd.DebugRing.Space

namespace BcmDhd.DebugRing

open BcmDhd.Lib

/-- The read pointer goes around over records that are gone, and never gets far enough from
the write pointer, which is at the start. -/
def Circling (wLen : Nat) (made : DbgRing × Writes) : Prop :=
  made.1.ringSize < 2 ^ 31 ∧ made.1.wp = 0 ∧ 0 < made.1.rp ∧ ∃ gone later marker,
    Tiles made.1.ringBuf 0 gone made.1.rp ∧ Tiles made.1.ringBuf made.1.rp later marker ∧
      entryLen made.1.ringBuf marker = 0 ∧ marker ≤ wLen ∧ marker ≤ made.1.ringSize

section

variable {wLen turns : Nat} {stored gone : List Bytes} {ring : DbgRing} {writes : Writes} {made : DbgRing × Writes}
  {write : Nat × Nat}

theorem circling_goes_on (circling : Circling wLen made) :
    ∃ next, spaceTurn wLen made = .again next ∧ Circling wLen next := by
  obtain ⟨small, start, positive, gone, later, marker, before, behind, marked, tight, inside⟩ := circling
  have reach := tiles_length behind
  have turn : spaceTurn wLen made = .again ({ made.1 with rp := nextEntry made.1 made.1.rp }, made.2) :=
    space_evicts (by omega) (by omega) (by omega)
  refine ⟨_, turn, small, start, ?_⟩
  dsimp only
  cases later with
  | cons record rest =>
    have reachRest := tiles_length behind.2
    have next := (behind.1.found (by omega)).2
    rw [next]
    exact ⟨by omega, gone ++ [record], rest, marker, tiles_append.mpr ⟨made.1.rp, before, behind.1, rfl⟩, behind.2,
      marked, tight, inside⟩
  | nil =>
    -- At the end marker the first record, which is gone, is passed once more.
    have here : made.1.rp = marker := behind
    cases gone with
    | nil =>
      have zero : 0 = made.1.rp := before
      omega
    | cons record rest =>
      have long := isRecord_length before.1.isRecord
      have size : 0 < dbgRingEntrySize := by decide
      have next : nextEntry made.1 made.1.rp = record.length := by
        unfold nextEntry
        rw [here, if_pos marked, before.1.entryLength]
      rw [next]
      have again := before.2
      rw [Nat.zero_add, here] at again
      exact ⟨by omega, [record], rest, marker, ⟨before.1, Nat.zero_add _⟩, again, marked, tight, inside⟩

/-- What has been written stays on record. -/
theorem written_kept (written : write ∈ made.2) {after : DbgRing × Writes}
    (left : loopFor (spaceTurn wLen) turns made = some after) : write ∈ after.2 := by
  have kept : ∀ state next : DbgRing × Writes, write ∈ state.2 → spaceTurn wLen state = .again next →
      write ∈ next.2 := by
    intro state next there goesOn
    unfold spaceTurn at goesOn
    dsimp only at goesOn
    split at goesOn
    · cases goesOn
    split at goesOn
    · split at goesOn
      · cases goesOn
      split at goesOn
      · cases goesOn
        exact List.mem_append_left _ there
      · cases goesOn
    split at goesOn
    · cases goesOn
      exact there
    · cases goesOn
  have ends : ∀ state result : DbgRing × Writes, write ∈ state.2 → spaceTurn wLen state = .leave result →
      write ∈ result.2 := by
    intro state result there ends
    unfold spaceTurn at ends
    dsimp only at ends
    split at ends
    · cases ends
      exact there
    split at ends
    · split at ends
      · cases ends
        exact there
      split at ends
      · cases ends
      · cases ends
        exact there
    split at ends
    · cases ends
    · cases ends
      exact there
  exact @Loop.loopFor_invariant _ _ (spaceTurn wLen) made after turns (fun state => write ∈ state.2)
    (fun result => write ∈ result.2) kept ends written left

/-- Something has been written outside, or will be with the record itself. -/
def Overruns (size wLen : Nat) (after : DbgRing × Writes) : Prop :=
  (∃ write ∈ after.2, size < write.1 + write.2) ∨ size < after.1.wp + wLen

/-- Behind the last record there is no place. -/
theorem straight_overruns (small : ring.ringSize < 2 ^ 31) (before : Tiles ring.ringBuf 0 gone ring.rp)
    (tiles : Tiles ring.ringBuf ring.rp stored ring.wp) (inside : ring.wp ≤ ring.ringSize)
    (noPlace : (if ring.rp = ring.wp then if ring.wp + wLen ≤ ring.ringSize then some ring.wp else none
      else landingBehind ring wLen) = none)
    (left : loopFor (spaceTurn wLen) turns (ring, writes) = some made) : Overruns ring.ringSize wLen made := by
  cases turns with
  | zero => cases left
  | succ turns =>
    have reach := tiles_length tiles
    have rest : sub32 ring.ringSize ring.wp = ring.ringSize - ring.wp := sub32_of_le inside (by omega)
    by_cases empty : ring.rp = ring.wp
    · rw [if_pos empty] at noPlace
      have here : spaceTurn wLen (ring, writes) = .leave (ring, writes) := if_pos empty
      rw [Loop.loopFor_leave here] at left
      cases left
      right
      by_contra fits
      rw [if_pos (Nat.le_of_not_lt fits)] at noPlace
      cases noPlace
    · rw [if_neg empty] at noPlace
      unfold landingBehind at noPlace
      have tooLong : ¬ring.wp + wLen ≤ ring.ringSize := by
        intro fits
        rw [if_pos fits] at noPlace
        cases noPlace
      rw [if_neg tooLong] at noPlace
      have below : ring.rp < ring.wp := by omega
      obtain ⟨count, passed, rp, evicted, positive, earlier, later⟩ :=
        evictFirst_straight small before tiles inside below
      have turn : spaceTurn wLen (ring, writes) = .again ({ ring with
          rp := rp, ringBuf := store ring.ringBuf ring.wp (List.replicate dbgRingEntrySize 0), wp := 0 },
          writes ++ [(ring.wp, dbgRingEntrySize)]) := by
        unfold spaceTurn
        dsimp only
        rw [if_neg empty, if_pos below, rest, if_neg (by omega), if_pos (by omega), evicted]
      rw [Loop.loopFor_again turn] at left
      by_cases room : ring.wp + dbgRingEntrySize ≤ ring.ringSize
      · have far : ring.wp ≤ wLen := by
          by_contra near
          rw [if_pos ⟨room, Nat.lt_of_not_le near⟩] at noPlace
          cases noPlace
        have outside : ∀ place, place < ring.wp →
            store ring.ringBuf ring.wp (List.replicate dbgRingEntrySize 0) place = ring.ringBuf place :=
          fun place high => Bytes.store_outside (Or.inl high)
        have reachLater := tiles_length later
        have order : rp ≤ ring.wp := by omega
        have circling : Circling wLen ({ ring with
            rp := rp, ringBuf := store ring.ringBuf ring.wp (List.replicate dbgRingEntrySize 0), wp := 0 },
            writes ++ [(ring.wp, dbgRingEntrySize)]) :=
          ⟨small, rfl, positive, passed, stored.drop count, ring.wp,
            tiles_frame earlier fun place _ high => outside place (Nat.lt_of_lt_of_le high order),
            tiles_frame later fun place _ high => outside place high, marked_store _ _, far, inside⟩
        rw [Loop.loopFor_none (Circling wLen) (fun state stuck => circling_goes_on stuck) circling] at left
        cases left
      · refine Or.inl ⟨(ring.wp, dbgRingEntrySize), written_kept ?_ left, Nat.lt_of_not_le room⟩
        exact List.mem_append_right _ (List.mem_singleton_self _)

/-- Without a place for the record, making space leaves the buffer or never ends. -/
theorem space_overruns (small : ring.ringSize < 2 ^ 31) (layout : Layout ring stored)
    (started : ring.wp = 0 → ring.rp = 0)
    (noPlace : landing ring wLen = none) (left : loopFor (spaceTurn wLen) turns (ring, writes) = some made) :
    Overruns ring.ringSize wLen made := by
  cases layout with
  | straight gone stored before tiles inside =>
    have reach := tiles_length tiles
    refine straight_overruns small before tiles inside ?_ left
    unfold landing at noPlace
    by_cases empty : ring.rp = ring.wp
    · rw [if_pos empty] at noPlace ⊢
      exact noPlace
    · rw [if_neg empty, if_pos (by omega)] at noPlace
      rw [if_neg empty]
      exact noPlace
  | wrapped tail front marker tiles marked inside behind below =>
    have reach := tiles_length tiles
    unfold landing at noPlace
    rw [if_neg (by omega), if_neg (by omega), endMarker_eq tiles marked inside (by omega)] at noPlace
    by_cases gap : ring.wp + wLen < marker
    · rw [if_pos gap] at noPlace
      cases noPlace
    · rw [if_neg gap] at noPlace
      cases front with
      | nil =>
        have start : ring.wp = 0 := behind.symm
        have pointer := started start
        omega
      | cons record rest =>
        rw [behind.1.entryLength] at noPlace
        have later := behind.2
        rw [Nat.zero_add] at later
        have more := Loop.loopFor_mono left (Nat.le_add_left turns (tail.length + 1))
        rw [wrapped_exhausts small tiles marked inside behind.1 below (by omega)] at more
        have shorter : ring.wp ≤ ring.ringSize := by omega
        exact @straight_overruns wLen turns rest [record] { ring with rp := record.length } writes made small
          ⟨behind.1, Nat.zero_add _⟩ later shorter noPlace more

theorem push_overruns {hdr data : Bytes} (stores : Stores ring stored)
    (noPlace : landing ring (headerLen hdr + dbgRingEntrySize) = none) {after : DbgRing} {pullreq : Bool}
    (pushed : dhdDbgRingPush turns ring hdr data = some (after, writes, pullreq)) :
    ¬writes.Inside ring.ringSize := by
  intro inside
  unfold dhdDbgRingPush at pushed
  rw [if_pos stores.active] at pushed
  obtain ⟨made, left, result⟩ := Option.map_eq_some_iff.mp pushed
  cases result
  rcases space_overruns stores.small stores.layout stores.started noPlace left with ⟨write, member, outside⟩ | outside
  · exact absurd (inside write (List.mem_append_left _ member)) (by omega)
  · have last := inside (made.1.wp + dbgRingEntrySize, headerLen hdr)
      (List.mem_append_right _ (by simp [entryWrites]))
    dsimp only at last
    omega

end

end BcmDhd.DebugRing
