import BcmDhd.Lib.Machine
import BcmDhd.Msgbuf.Ring

/-! Dongle to host rings: the dongle appends completions at its write index, the
host takes everything up to the wrap in one batch. -/

namespace BcmDhd.Msgbuf

open BcmDhd.Lib

universe u

/-- `none` is `NULL`; otherwise the byte offset to read from and `*available_len`.
`d2hWr` is the dongle's write index, fetched at the start of every call. -/
def dhdProtGetReadAddr (ring : MsgbufRing) (d2hWr : Nat) : MsgbufRing × Option (Nat × Nat) :=
  let ring := { ring with wr := d2hWr }
  let items := toUint16 (readAvailSpace ring.wr ring.rd ring.maxItems)
  if items = 0 then (ring, none)
  else if items ≥ ring.maxItems then (ring, none)
  else
    let readAddr := ring.rd * ring.itemLen
    let rd := if ring.rd + items ≥ ring.maxItems then 0 else ring.rd + items
    ({ ring with rd := rd }, some (readAddr, items * ring.itemLen % 2 ^ 32))

/-- Both ends of a ring that carries items of any type. `unread` records the
slots written and not yet returned to the host, `produced` the item stream and
`returned` the batches handed to the host. -/
structure D2hSystem (Item : Type u) where
  ring : MsgbufRing
  dongleWr : Nat
  memory : Nat → Item
  unread : List Nat
  produced : List Item
  returned : List (List Item)

inductive D2hCall (Item : Type u) where
  | dongleAppend (item : Item)
  | getReadAddr

/-- The slots of a byte range that starts at an item. -/
def batchSlots (itemLen offset len : Nat) : List Nat :=
  List.range' (offset / itemLen) (len / itemLen)

/-- The dongle appends modulo the ring size and never onto an unread slot. -/
def d2hMachine (Item : Type u) :
    Machine (D2hSystem Item) (D2hCall Item) (Option (Nat × Nat)) where
  step system
    | .dongleAppend item =>
      ({ system with
          dongleWr := (system.dongleWr + 1) % system.ring.maxItems
          memory := Function.update system.memory system.dongleWr item
          unread := system.unread ++ [system.dongleWr]
          produced := system.produced ++ [item] }, none)
    | .getReadAddr =>
      match dhdProtGetReadAddr system.ring system.dongleWr with
      | (ring, none) => ({ system with ring := ring }, none)
      | (ring, some (offset, len)) =>
        ({ system with
            ring := ring
            unread := system.unread.filter fun slot => slot ∉ batchSlots ring.itemLen offset len
            returned := system.returned ++
              [(batchSlots ring.itemLen offset len).map system.memory] }, some (offset, len))
  admits system
    | .dongleAppend _ => system.dongleWr ∉ system.unread
    | .getReadAddr => True

instance {Item : Type u} (system : D2hSystem Item) :
    (call : D2hCall Item) → Decidable ((d2hMachine Item).admits system call)
  | .dongleAppend _ => inferInstanceAs (Decidable (_ ∉ _))
  | .getReadAddr => .isTrue trivial

/-- A ring on which both sides stand at the same slot and nothing was produced. -/
def d2hIdle {Item : Type u} (maxItems itemLen start : Nat) (memory : Nat → Item) :
    D2hSystem Item where
  ring := { rd := start, wr := start, maxItems, itemLen }
  dongleWr := start
  memory := memory
  unread := []
  produced := []
  returned := []

/-! What the host reads of a ring if the dongle's write index can be any number. -/

/-- The bytes handed out lie inside the ring, and the read index stays there. -/
structure WindowInside (ring : MsgbufRing) (d2hWr : Nat) : Prop where
  bytes : ∀ offset len, (dhdProtGetReadAddr ring d2hWr).2 = some (offset, len) →
    offset + len ≤ ring.maxItems * ring.itemLen
  rd : (dhdProtGetReadAddr ring d2hWr).1.rd < ring.maxItems

/-- The types of the fields, and an index inside. -/
structure MsgbufRing.Standing (ring : MsgbufRing) : Prop where
  inside : ring.rd < ring.maxItems
  maxItems : ring.maxItems < 2 ^ 16
  itemLen : ring.itemLen < 2 ^ 16

variable {ring : MsgbufRing} {d2hWr : Nat}

/-- The items between the indices, up to the wrap if the write index is behind. -/
def readItems (ring : MsgbufRing) (d2hWr : Nat) : Nat :=
  if ring.rd ≤ d2hWr then d2hWr - ring.rd else ring.maxItems - ring.rd

theorem toUint16_readAvailSpace (standing : ring.Standing) (word : d2hWr < 2 ^ 16) :
    toUint16 (readAvailSpace d2hWr ring.rd ring.maxItems) = readItems ring d2hWr := by
  obtain ⟨inside, narrow, -⟩ := standing
  have avail : readAvailSpace d2hWr ring.rd ring.maxItems = (readItems ring d2hWr : Nat) := by
    unfold readAvailSpace readItems
    by_cases ordered : ring.rd ≤ d2hWr
    · rw [if_pos (by omega), if_pos ordered]
      omega
    · rw [if_neg (by omega), if_neg ordered]
      omega
  have small : readItems ring d2hWr < 2 ^ 16 := by
    unfold readItems
    split
    · omega
    · omega
  rw [avail, toUint16_natCast small]

theorem batch_length (standing : ring.Standing) {items : Nat} (short : items < ring.maxItems) :
    items * ring.itemLen % 2 ^ 32 = items * ring.itemLen := by
  have product : items * ring.itemLen ≤ (2 ^ 16) * (2 ^ 16 - 1) := by
    have := standing.maxItems
    have := standing.itemLen
    exact Nat.mul_le_mul (by omega) (by omega)
  exact Nat.mod_eq_of_lt (by omega)

theorem getReadAddr_cases_of_word (standing : ring.Standing) (word : d2hWr < 2 ^ 16) :
    ((readItems ring d2hWr = 0 ∨ ring.maxItems ≤ readItems ring d2hWr) ∧
      dhdProtGetReadAddr ring d2hWr = ({ ring with wr := d2hWr }, none)) ∨
    (0 < readItems ring d2hWr ∧ readItems ring d2hWr < ring.maxItems ∧
      dhdProtGetReadAddr ring d2hWr =
        ({ ring with
            wr := d2hWr
            rd := if ring.maxItems ≤ ring.rd + readItems ring d2hWr then 0
              else ring.rd + readItems ring d2hWr },
          some (ring.rd * ring.itemLen, readItems ring d2hWr * ring.itemLen))) := by
  have items := toUint16_readAvailSpace standing word
  unfold dhdProtGetReadAddr
  dsimp only
  rw [items]
  by_cases empty : readItems ring d2hWr = 0
  · exact .inl ⟨.inl empty, if_pos empty⟩
  by_cases long : ring.maxItems ≤ readItems ring d2hWr
  · exact .inl ⟨.inr long, by rw [if_neg empty, if_pos long]⟩
  · refine .inr ⟨by omega, by omega, ?_⟩
    rw [if_neg empty, if_neg long, batch_length standing (by omega)]

theorem rd_getReadAddr (standing : ring.Standing) (word : d2hWr < 2 ^ 16) :
    (dhdProtGetReadAddr ring d2hWr).1.rd < ring.maxItems := by
  have inside := standing.inside
  rcases getReadAddr_cases_of_word standing word with ⟨-, fetched⟩ | ⟨-, -, fetched⟩
  · rw [fetched]
    exact inside
  · rw [fetched]
    dsimp only
    split
    · omega
    · omega

/-- The window leaves the ring exactly for a write index behind its end that is less than a whole
ring ahead of the read index. -/
theorem windowInside_iff (standing : ring.Standing) (word : d2hWr < 2 ^ 16) :
    WindowInside ring d2hWr ↔
      d2hWr ≤ ring.maxItems ∨ ring.rd + ring.maxItems ≤ d2hWr ∨ ring.itemLen = 0 := by
  have inside := standing.inside
  have kept := rd_getReadAddr standing word
  rcases getReadAddr_cases_of_word standing word with ⟨refused, fetched⟩ | ⟨some_, short, fetched⟩
  · refine iff_of_true ⟨fun offset len given => ?_, kept⟩ ?_
    · rw [fetched] at given
      cases given
    · unfold readItems at refused
      split at refused
      · omega
      · omega
  · have window : WindowInside ring d2hWr ↔
        (ring.rd + readItems ring d2hWr) * ring.itemLen ≤ ring.maxItems * ring.itemLen := by
      rw [Nat.add_mul]
      constructor
      · intro inside
        exact inside.bytes _ _ (by rw [fetched])
      · refine fun bytes => ⟨fun offset len given => ?_, kept⟩
        rw [fetched] at given
        cases given
        exact bytes
    rw [window]
    rcases Nat.eq_zero_or_pos ring.itemLen with none_ | sized
    · exact iff_of_true (by simp [none_]) (.inr (.inr none_))
    · rw [Nat.mul_le_mul_right_iff sized]
      unfold readItems at some_ short ⊢
      by_cases ordered : ring.rd ≤ d2hWr
      · rw [if_pos ordered] at some_ short ⊢
        omega
      · rw [if_neg ordered] at some_ short ⊢
        omega

theorem windowInside_batch : WindowInside ⟨60, 0, 64, 24⟩ 64 :=
  (windowInside_iff ⟨by decide, by decide, by decide⟩ (by decide)).mpr (.inl (by decide))

/-- A write index six slots behind the end of a ring of 64: seven items are handed out from the
last slot on. -/
theorem window_leaves_ring :
    dhdProtGetReadAddr ⟨63, 0, 64, 24⟩ 70 = (⟨0, 70, 64, 24⟩, some (1512, 168)) ∧
      ¬ WindowInside ⟨63, 0, 64, 24⟩ 70 := by
  have fetched : dhdProtGetReadAddr ⟨63, 0, 64, 24⟩ 70 = (⟨0, 70, 64, 24⟩, some (1512, 168)) := by
    decide
  refine ⟨fetched, fun window => ?_⟩
  have bytes := window.bytes 1512 168 (by rw [fetched])
  simp at bytes

end BcmDhd.Msgbuf
