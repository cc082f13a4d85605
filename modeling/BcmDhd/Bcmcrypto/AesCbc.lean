import BcmDhd.Lib.BlockMode
import BcmDhd.Lib.FixedBuffer

/-! Cipher block chaining with AES, from one array into another or in place. AES is any
function of blocks, whose key schedule has been set up. -/

namespace BcmDhd.Bcmcrypto

open BcmDhd.Lib

abbrev Bytes := List UInt8

abbrev Block := {bytes : Bytes // bytes.length = 16}

def noPadding : UInt8 := 0
def padLenPadding : UInt8 := 1

/-- `xor_128bit_block`. -/
def xorBlock (first second : Block) : Block :=
  ⟨List.zipWith (fun one two => one ^^^ two) first.val second.val, by
    rw [List.length_zipWith, first.property, second.property, Nat.min_self]⟩

/-- Bytes that a pointer leads to, `place` behind it, while the output is this buffer. -/
def readFrom {size : Nat} (source : Source) (out : FixedBuffer size) (place count : Nat) : Bytes :=
  match source with
  | .inside address => load out.memory (address + place) count
  | .outside memory => load memory place count

@[simp] theorem length_readFrom {size : Nat} (source : Source) (out : FixedBuffer size) (place count : Nat) :
    (readFrom source out place count).length = count := by
  cases source with
  | inside address => exact Bytes.length_load
  | outside memory => exact Bytes.length_load

def blockFrom {size : Nat} (source : Source) (out : FixedBuffer size) (place : Nat) : Block :=
  ⟨readFrom source out place 16, length_readFrom source out place 16⟩

/-- The state of a loop over blocks: what the output holds, where the block before is that
`iv` points to (the nonce at first), how far the two pointers have come, and the counters. -/
structure CbcRun (size : Nat) where
  out : FixedBuffer size
  iv : Option Nat
  place : Nat
  remaining : UInt32
  len : UInt32

variable {size : Nat}

/-- The block that masks the next one. In the output it is the block before. -/
def CbcRun.crypted (nonce : Block) (run : CbcRun size) : Block :=
  run.iv.elim nonce (blockFrom (.inside 0) run.out)

def cbcEncryptTurn (aes : Block → Block) (nonce : Block) (ptxt : Source) (run : CbcRun size) : CbcRun size :=
  let tmp := xorBlock (run.crypted nonce) (blockFrom ptxt run.out run.place)
  { out := run.out.write run.place (aes tmp).val, iv := some run.place, place := run.place + 16
    remaining := run.remaining - 16, len := run.len + 16 }

theorem sub_smaller {remaining : UInt32} (enough : 16 ≤ remaining) : (remaining - 16).toNat < remaining.toNat := by
  rw [UInt32.toNat_sub_of_le _ _ enough]
  have long := UInt32.le_iff_toNat_le.mp enough
  change 16 ≤ remaining.toNat at long
  change remaining.toNat - 16 < remaining.toNat
  omega

/-- The loop over whole blocks. -/
def cbcEncryptLoop (aes : Block → Block) (nonce : Block) (ptxt : Source) (run : CbcRun size) : CbcRun size :=
  if 16 ≤ run.remaining then cbcEncryptLoop aes nonce ptxt (cbcEncryptTurn aes nonce ptxt run) else run
termination_by run.remaining.toNat
decreasing_by exact sub_smaller (by assumption)

/-- The bytes that remain, and as many more as are missing, each with their number. -/
def paddedFrom (ptxt : Source) (out : FixedBuffer size) (place remaining : Nat) : Block :=
  ⟨(List.range 16).map fun j =>
    if j < remaining then (readFrom ptxt out place remaining).getD j 0 else UInt8.ofNat (16 - remaining), by simp⟩

/-- `aes_cbc_encrypt_pad`: the length, or -1, and the output. -/
def aesCbcEncryptPad (aes : Block → Block) (nonce : Block) (dataLen : Nat) (ptxt : Source)
    (out : FixedBuffer size) (paddType : UInt8) : UInt32 × FixedBuffer size :=
  let run := cbcEncryptLoop aes nonce ptxt
    { out := out, iv := none, place := 0, remaining := UInt32.ofNat dataLen, len := 0 }
  if paddType = noPadding then (run.len, run.out)
  else if paddType = padLenPadding then
    let tmp := xorBlock (run.crypted nonce) (paddedFrom ptxt run.out run.place run.remaining.toNat)
    (run.len + 16, run.out.write run.place (aes tmp).val)
  else (-1, run.out)

/-- The block that masks the next one. It is the block before of what is decrypted. -/
def CbcRun.crypt (nonce : Block) (ctxt : Source) (run : CbcRun size) : Block :=
  run.iv.elim nonce (blockFrom ctxt run.out)

def cbcDecryptTurn (aes : Block → Block) (nonce : Block) (ctxt : Source) (run : CbcRun size) : CbcRun size :=
  let tmp := aes (blockFrom ctxt run.out run.place)
  { out := run.out.write run.place (xorBlock tmp (run.crypt nonce ctxt)).val, iv := some run.place
    place := run.place + 16, remaining := run.remaining - 16, len := run.len + 16 }

def cbcDecryptLoop (aes : Block → Block) (nonce : Block) (ctxt : Source) (run : CbcRun size) : CbcRun size :=
  if 16 ≤ run.remaining then cbcDecryptLoop aes nonce ctxt (cbcDecryptTurn aes nonce ctxt run) else run
termination_by run.remaining.toNat
decreasing_by exact sub_smaller (by assumption)

/-- `aes_cbc_decrypt_pad`, where the last byte is taken for the length of the padding. -/
def aesCbcDecryptPad (aes : Block → Block) (nonce : Block) (dataLen : Nat) (ctxt : Source)
    (out : FixedBuffer size) (paddType : UInt8) : UInt32 × FixedBuffer size :=
  if dataLen % 16 ≠ 0 then (-1, out)
  else if dataLen < 16 then (-1, out)
  else
    let run := cbcDecryptLoop aes nonce ctxt
      { out := out, iv := none, place := 0, remaining := UInt32.ofNat dataLen, len := 0 }
    if paddType = padLenPadding then
      (run.len - (run.out.memory (run.len - 1).toNat).toUInt32, run.out)
    else (run.len, run.out)

theorem xor_masking : Masking xorBlock := by
  constructor
  · intro first second
    apply Subtype.ext
    simp only [xorBlock]
    rw [List.zipWith_comm]
    simp only [UInt8.xor_comm]
  · intro first second
    apply Subtype.ext
    apply List.ext_getElem
    · rw [(xorBlock (xorBlock first second) second).property, first.property]
    · intro i _ _
      simp only [xorBlock, List.getElem_zipWith, UInt8.xor_assoc, UInt8.xor_self, UInt8.xor_zero]

/-- So many blocks from a place on. -/
def blocksAt (block : Nat → Block) : (place count : Nat) → List Block
  | _, 0 => []
  | place, count + 1 => block place :: blocksAt block (place + 16) count

theorem blocksAt_congr {block other : Nat → Block} {place count : Nat}
    (same : ∀ at_, place ≤ at_ → at_ + 16 ≤ place + 16 * count → block at_ = other at_) :
    blocksAt block place count = blocksAt other place count := by
  induction count generalizing place with
  | zero => rfl
  | succ count ih =>
    rw [blocksAt, blocksAt, same place (Nat.le_refl _) (by omega)]
    rw [ih fun at_ low high => same at_ (by omega) (by omega)]

theorem blocksAt_succ (block : Nat → Block) (place count : Nat) :
    blocksAt block place (count + 1) = blocksAt block place count ++ [block (place + 16 * count)] := by
  induction count generalizing place with
  | zero => rfl
  | succ count ih =>
    rw [blocksAt, ih, blocksAt, List.cons_append]
    congr 4
    omega

variable {out : FixedBuffer size} {source : Source} {memory : Memory} {place later count : Nat} {bytes : Bytes}

/-- What is read behind the output's place does not depend on what has been written. -/
def Ahead (size : Nat) (source : Source) : Prop :=
  ∀ (out : FixedBuffer size) place bytes later count, place + bytes.length ≤ later →
    readFrom source (out.write place bytes) later count = readFrom source out later count

theorem ahead_outside (memory : Memory) : Ahead size (.outside memory) := fun _ _ _ _ _ _ => rfl

theorem ahead_inPlace : Ahead size (.inside 0) := by
  intro out place bytes later count behind
  exact Bytes.load_store_apart (Or.inr (by omega))

theorem Ahead.block (ahead : Ahead size source) (behind : place + bytes.length ≤ later) :
    blockFrom source (out.write place bytes) later = blockFrom source out later :=
  Subtype.ext (ahead out place bytes later 16 behind)

theorem block_written (block : Block) : blockFrom (.inside 0) (out.write place block.val) place = block := by
  apply Subtype.ext
  have written := Bytes.load_store out.memory place block.val
  rw [block.property] at written
  change load _ (0 + place) 16 = block.val
  rw [Nat.zero_add]
  exact written

/-- A loop has come so many blocks further, has written these, and nothing else. -/
structure Advanced (run after : CbcRun size) (count left : Nat) (blocks : List Block) : Prop where
  place : after.place = run.place + 16 * count
  remaining : after.remaining.toNat = left
  len : after.len = run.len + UInt32.ofNat (16 * count)
  blocks : blocksAt (blockFrom (.inside 0) after.out) run.place count = blocks
  kept : ∀ at_, at_ < run.place ∨ run.place + 16 * count ≤ at_ → after.out.memory at_ = run.out.memory at_
  intact : after.out.intact = true ↔ run.out.intact = true ∧ (0 < count → run.place + 16 * count ≤ size)

variable {run after : CbcRun size} {left : Nat} {blocks : List Block} {block : Block}

theorem Advanced.stays (remaining : run.remaining.toNat = left) : Advanced run run 0 left [] :=
  ⟨rfl, remaining, by simp, rfl, fun _ _ => rfl, by simp⟩

/-- One more turn in front. -/
theorem Advanced.turn {next : CbcRun size} (out : next.out = run.out.write run.place block.val)
    (place : next.place = run.place + 16) (len : next.len = run.len + 16)
    (rest : Advanced next after count left blocks) : Advanced run after (count + 1) left (block :: blocks) := by
  have sized := block.property
  constructor
  case place => rw [rest.place, place]; omega
  case remaining => exact rest.remaining
  case len =>
    rw [rest.len, len, UInt32.add_assoc]
    congr 1
    apply UInt32.toNat_inj.mp
    simp
    omega
  case blocks =>
    have written : blockFrom (.inside 0) after.out run.place = block := by
      rw [← @block_written size run.out run.place block, ← out]
      apply Subtype.ext
      refine Bytes.load_congr fun at_ low high => rest.kept at_ (Or.inl ?_)
      omega
    rw [blocksAt, written, ← place, rest.blocks]
  case kept =>
    intro at_ outside
    rw [rest.kept at_ (by omega), out, FixedBuffer.write_memory]
    exact Bytes.store_outside (by omega)
  case intact =>
    rw [rest.intact, out, FixedBuffer.write_intact, sized, place]
    constructor
    · rintro ⟨⟨before, inside⟩, more⟩
      refine ⟨before, fun _ => ?_⟩
      by_cases some_ : 0 < count
      · have := more some_
        omega
      · have : count = 0 := by omega
        omega
    · rintro ⟨before, inside⟩
      have := inside (Nat.succ_pos _)
      exact ⟨⟨before, by omega⟩, fun _ => by omega⟩

theorem enough_iff {remaining : UInt32} : 16 ≤ remaining ↔ 16 ≤ remaining.toNat := UInt32.le_iff_toNat_le

theorem toNat_sub {remaining : UInt32} (enough : 16 ≤ remaining.toNat) :
    (remaining - 16).toNat = remaining.toNat - 16 := UInt32.toNat_sub_of_le _ _ (enough_iff.mpr enough)

variable {aes : Block → Block} {nonce : Block}

/-- The loop encrypts the blocks that it reads, from another array or from the output itself. -/
theorem encrypt_advanced (ahead : Ahead size source) (small : left < 16)
    (remaining : run.remaining.toNat = 16 * count + left) :
    Advanced run (cbcEncryptLoop aes nonce source run) count left
        (Cbc.encrypted xorBlock aes (run.crypted nonce) (blocksAt (blockFrom source run.out) run.place count)) ∧
      (cbcEncryptLoop aes nonce source run).crypted nonce = (Cbc.encrypted xorBlock aes (run.crypted nonce)
        (blocksAt (blockFrom source run.out) run.place count)).getLastD (run.crypted nonce) ∧
      ∀ later size, run.place + 16 * count ≤ later →
        readFrom source (cbcEncryptLoop aes nonce source run).out later size = readFrom source run.out later size := by
  induction count generalizing run with
  | zero =>
    rw [cbcEncryptLoop, if_neg (by rw [enough_iff]; omega)]
    exact ⟨.stays (by omega), rfl, fun _ _ _ => rfl⟩
  | succ count ih =>
    have enough : 16 ≤ run.remaining.toNat := by omega
    have sized := fun block : Block => block.property
    have turned := @ih (cbcEncryptTurn aes nonce source run) (by
      change (run.remaining - 16).toNat = _
      rw [toNat_sub enough]
      omega)
    rw [cbcEncryptLoop, if_pos (enough_iff.mpr enough)]
    obtain ⟨advanced, chain, rest⟩ := turned
    -- the block that has just been written masks the next one
    have mask : (cbcEncryptTurn aes nonce source run).crypted nonce =
        aes (xorBlock (run.crypted nonce) (blockFrom source run.out run.place)) := block_written _
    have unread : blocksAt (blockFrom source (cbcEncryptTurn aes nonce source run).out) (run.place + 16) count =
        blocksAt (blockFrom source run.out) (run.place + 16) count :=
      blocksAt_congr fun at_ low _ => ahead.block (by rw [sized]; exact low)
    change Advanced _ _ _ _ (Cbc.encrypted _ _ _ (blocksAt _ (run.place + 16) count)) at advanced
    change _ = (Cbc.encrypted _ _ _ (blocksAt _ (run.place + 16) count)).getLastD _ at chain
    rw [mask, unread] at advanced chain
    refine ⟨advanced.turn rfl rfl rfl, ?_, ?_⟩
    · rw [chain, blocksAt, Cbc.encrypted, List.getLastD_cons]
    · intro later size behind
      rw [rest later size (by change run.place + 16 + _ ≤ _; omega)]
      exact ahead _ _ _ _ _ (by rw [sized]; omega)

theorem decrypt_advanced (small : left < 16) (remaining : run.remaining.toNat = 16 * count + left) :
    Advanced run (cbcDecryptLoop aes nonce (.outside memory) run) count left
      (Cbc.decrypted xorBlock aes (run.crypt nonce (.outside memory))
        (blocksAt (blockFrom (.outside memory) run.out) run.place count)) := by
  induction count generalizing run with
  | zero =>
    rw [cbcDecryptLoop, if_neg (by rw [enough_iff]; omega)]
    exact .stays (by omega)
  | succ count ih =>
    have enough : 16 ≤ run.remaining.toNat := by omega
    have turned := @ih (cbcDecryptTurn aes nonce (.outside memory) run) (by
      change (run.remaining - 16).toNat = _
      rw [toNat_sub enough]
      omega)
    rw [cbcDecryptLoop, if_pos (enough_iff.mpr enough)]
    exact turned.turn rfl rfl rfl

/-- In place, each block is masked with what has been decrypted into the block before. -/
theorem decrypt_inPlace (small : left < 16) (remaining : run.remaining.toNat = 16 * count + left) :
    Advanced run (cbcDecryptLoop aes nonce (.inside 0) run) count left
      (Cbc.overwritten xorBlock aes (run.crypt nonce (.inside 0))
        (blocksAt (blockFrom (.inside 0) run.out) run.place count)) := by
  induction count generalizing run with
  | zero =>
    rw [cbcDecryptLoop, if_neg (by rw [enough_iff]; omega)]
    exact .stays (by omega)
  | succ count ih =>
    have enough : 16 ≤ run.remaining.toNat := by omega
    have sized := fun block : Block => block.property
    have turned := @ih (cbcDecryptTurn aes nonce (.inside 0) run) (by
      change (run.remaining - 16).toNat = _
      rw [toNat_sub enough]
      omega)
    rw [cbcDecryptLoop, if_pos (enough_iff.mpr enough)]
    have mask : (cbcDecryptTurn aes nonce (.inside 0) run).crypt nonce (.inside 0) =
        xorBlock (aes (blockFrom (.inside 0) run.out run.place)) (run.crypt nonce (.inside 0)) := block_written _
    have unread : blocksAt (blockFrom (.inside 0) (cbcDecryptTurn aes nonce (.inside 0) run).out)
      (run.place + 16) count =
        blocksAt (blockFrom (.inside 0) run.out) (run.place + 16) count :=
      blocksAt_congr fun at_ low _ => ahead_inPlace.block (by rw [sized]; exact low)
    change Advanced _ _ _ _ (Cbc.overwritten _ _ _ (blocksAt _ (run.place + 16) count)) at turned
    rw [mask, unread] at turned
    exact turned.turn rfl rfl rfl

/-- The blocks of an array, from its start. -/
def blocksOf (memory : Memory) (count : Nat) : List Block := blocksAt (fun at_ => ⟨load memory at_ 16, by simp⟩) 0 count

/-- So many whole blocks are counted, in 32 bits. -/
def counted (dataLen : Nat) : Nat := dataLen % 2 ^ 32 / 16

theorem counted_remaining (dataLen : Nat) :
    (UInt32.ofNat dataLen).toNat = 16 * counted dataLen + dataLen % 2 ^ 32 % 16 := by
  rw [UInt32.toNat_ofNat', counted, Nat.div_add_mod]

/-- The blocks that are encrypted: the whole ones, and one that fills up what remains. -/
def plainBlocks (source : Source) (out : FixedBuffer size) (dataLen : Nat) (paddType : UInt8) : List Block :=
  blocksAt (blockFrom source out) 0 (counted dataLen) ++
    if paddType = padLenPadding then [paddedFrom source out (16 * counted dataLen) (dataLen % 2 ^ 32 % 16)] else []

def blockCount (dataLen : Nat) (paddType : UInt8) : Nat :=
  counted dataLen + if paddType = padLenPadding then 1 else 0

theorem blocksOf_inside (out : FixedBuffer size) (count : Nat) :
    blocksAt (blockFrom (.inside 0) out) 0 count = blocksOf out.memory count := by
  refine blocksAt_congr fun at_ _ _ => Subtype.ext ?_
  change load out.memory (0 + at_) 16 = load out.memory at_ 16
  rw [Nat.zero_add]

theorem blocksOf_outside (memory : Memory) (out : FixedBuffer size) (count : Nat) :
    blocksAt (blockFrom (.outside memory) out) 0 count = blocksOf memory count := rfl

theorem load_eq_iff {other : Memory} : load memory place count = load other place count ↔
    ∀ i < count, memory (place + i) = other (place + i) := by
  unfold load
  rw [List.map_inj_left]
  simp only [List.mem_range]

theorem blocksOf_bytes (memory : Memory) (count : Nat) :
    (blocksOf memory count).flatMap Subtype.val = load memory 0 (16 * count) := by
  unfold blocksOf
  induction count with
  | zero => rfl
  | succ count ih =>
    rw [blocksAt_succ, List.flatMap_append, ih, Nat.mul_succ, Bytes.load_add]
    simp

theorem blocksOf_eq_iff {other : Memory} : blocksOf memory count = blocksOf other count ↔
    load memory 0 (16 * count) = load other 0 (16 * count) := by
  constructor
  · intro same
    rw [← blocksOf_bytes, same, blocksOf_bytes]
  · intro same
    refine blocksAt_congr fun at_ _ high => Subtype.ext (Bytes.load_congr fun byte low below => ?_)
    have bytes := load_eq_iff.mp same byte (by omega)
    rw [Nat.zero_add] at bytes
    exact bytes

/-- What a call leaves: so many blocks at the start of the output, and nothing else. -/
structure Leaves (before : FixedBuffer size) (result : UInt32 × FixedBuffer size) (count : Nat) (blocks : List Block) :
    Prop where
  blocks : blocksOf result.2.memory count = blocks
  kept : ∀ at_, 16 * count ≤ at_ → result.2.memory at_ = before.memory at_
  intact : result.2.intact = true ↔ before.intact = true ∧ (0 < count → 16 * count ≤ size)

theorem Advanced.leaves {number : UInt32} (advanced : Advanced run after count left blocks) (start : run.place = 0) :
    Leaves run.out (number, after.out) count blocks := by
  constructor
  case blocks =>
    have read := advanced.blocks
    rw [start] at read
    exact (blocksOf_inside _ _).symm.trans read
  case kept => exact fun at_ behind => advanced.kept at_ (Or.inr (by omega))
  case intact =>
    rw [advanced.intact, start, Nat.zero_add]

/-- The state in which the loops start. -/
abbrev cbcStart (out : FixedBuffer size) (dataLen : Nat) : CbcRun size :=
  { out := out, iv := none, place := 0, remaining := UInt32.ofNat dataLen, len := 0 }

/-- One more block behind those of a loop. -/
theorem Leaves.padded {number other : UInt32} (leaves : Leaves out (number, after.out) count blocks)
    (place : after.place = 16 * count) (block : Block) :
    Leaves out (other, after.out.write after.place block.val) (count + 1) (blocks ++ [block]) := by
  have sized := block.property
  constructor
  case blocks =>
    have last := @block_written size after.out after.place block
    have first : blocksAt (blockFrom (.inside 0) (after.out.write after.place block.val)) 0 count =
        blocksAt (blockFrom (.inside 0) after.out) 0 count := by
      refine blocksAt_congr fun at_ _ high => Subtype.ext ?_
      exact Bytes.load_store_apart (Or.inl (by omega))
    rw [← blocksOf_inside, blocksAt_succ, first, blocksOf_inside, leaves.blocks, Nat.zero_add, ← place, last]
  case kept =>
    intro at_ behind
    rw [FixedBuffer.write_memory, Bytes.store_outside (Or.inr (by omega))]
    exact leaves.kept at_ (by omega)
  case intact =>
    rw [FixedBuffer.write_intact, leaves.intact, sized, place]
    constructor
    · rintro ⟨⟨before, _⟩, inside⟩
      exact ⟨before, fun _ => by omega⟩
    · rintro ⟨before, inside⟩
      have room := inside (Nat.succ_pos _)
      exact ⟨⟨before, fun _ => by omega⟩, by omega⟩

/-- Encrypting leaves the encrypted blocks, from another array or in place. -/
theorem encryptPad_leaves (ahead : Ahead size source) (dataLen : Nat) (paddType : UInt8) :
    Leaves out (aesCbcEncryptPad aes nonce dataLen source out paddType) (blockCount dataLen paddType)
      (Cbc.encrypted xorBlock aes nonce (plainBlocks source out dataLen paddType)) := by
  obtain ⟨advanced, chain, unread⟩ := @encrypt_advanced size source (counted dataLen) (cbcStart out dataLen)
    (dataLen % 2 ^ 32 % 16) aes nonce
    ahead (Nat.mod_lt _ (by decide)) (counted_remaining dataLen)
  have place := advanced.place
  rw [Nat.zero_add] at place
  have leaves : ∀ number, Leaves out (number, (cbcEncryptLoop aes nonce source (cbcStart out dataLen)).out)
      (counted dataLen) (Cbc.encrypted xorBlock aes nonce (blocksAt (blockFrom source out) 0 (counted dataLen))) :=
    fun number => advanced.leaves rfl
  unfold aesCbcEncryptPad blockCount plainBlocks
  by_cases padded : paddType = padLenPadding
  · have other : paddType ≠ noPadding := by rw [padded]; decide
    have last : paddedFrom source (cbcEncryptLoop aes nonce source (cbcStart out dataLen)).out
        (16 * counted dataLen) (dataLen % 2 ^ 32 % 16) =
        paddedFrom source out (16 * counted dataLen) (dataLen % 2 ^ 32 % 16) := by
      unfold paddedFrom
      rw [unread _ _ (by change 0 + _ ≤ _; omega)]
    rw [if_pos padded, if_pos padded, Cbc.encrypted_append]
    dsimp only
    rw [if_neg other, if_pos padded, chain, advanced.remaining, place, last, ← place]
    exact (leaves 0).padded place _
  · rw [if_neg padded, if_neg padded, List.append_nil]
    dsimp only
    split
    · exact leaves _
    · exact leaves _

theorem encryptPad_number (ahead : Ahead size source) (dataLen : Nat) (paddType : UInt8) :
    (aesCbcEncryptPad aes nonce dataLen source out paddType).1 =
      if paddType = noPadding ∨ paddType = padLenPadding then UInt32.ofNat (16 * blockCount dataLen paddType)
      else -1 := by
  obtain ⟨advanced, _⟩ := @encrypt_advanced size source (counted dataLen) (cbcStart out dataLen)
    (dataLen % 2 ^ 32 % 16) aes nonce
    ahead (Nat.mod_lt _ (by decide)) (counted_remaining dataLen)
  have len := advanced.len
  rw [UInt32.zero_add] at len
  unfold aesCbcEncryptPad blockCount
  dsimp only
  by_cases none_ : paddType = noPadding
  · rw [none_, if_pos rfl, if_pos (Or.inl rfl), if_neg (by decide), len, Nat.add_zero]
  rw [if_neg none_]
  by_cases padded : paddType = padLenPadding
  · rw [if_pos padded, if_pos (Or.inr padded), if_pos padded, len, Nat.mul_succ]
    apply UInt32.toNat_inj.mp
    simp
  · rw [if_neg padded, if_neg (not_or.mpr ⟨none_, padded⟩)]

theorem decryptPad_of_loop {dataLen : Nat} (whole : dataLen % 16 = 0) (paddType : UInt8)
    (leaves : ∀ number, Leaves out (number, (cbcDecryptLoop aes nonce source (cbcStart out dataLen)).out)
      (counted dataLen) blocks) :
    Leaves out (aesCbcDecryptPad aes nonce dataLen source out paddType) (counted dataLen) blocks := by
  unfold aesCbcDecryptPad
  rw [if_neg (not_not.mpr whole)]
  by_cases short : dataLen < 16
  · have zero : dataLen = 0 := by omega
    subst zero
    rw [if_pos short]
    have same := leaves (-1)
    rw [cbcDecryptLoop, if_neg (show ¬(16 : UInt32) ≤ UInt32.ofNat 0 by decide)] at same
    exact same
  · rw [if_neg short]
    dsimp only
    split
    · exact leaves _
    · exact leaves _

theorem decryptPad_leaves {dataLen : Nat} (whole : dataLen % 16 = 0) (paddType : UInt8) :
    Leaves out (aesCbcDecryptPad aes nonce dataLen (.outside memory) out paddType) (counted dataLen)
      (Cbc.decrypted xorBlock aes nonce (blocksOf memory (counted dataLen))) := by
  refine decryptPad_of_loop whole paddType fun number => ?_
  have advanced := @decrypt_advanced size memory (counted dataLen) (cbcStart out dataLen) _ aes nonce
    (Nat.mod_lt _ (by decide)) (counted_remaining dataLen)
  exact advanced.leaves rfl

theorem decryptPad_inPlace {dataLen : Nat} (whole : dataLen % 16 = 0) (paddType : UInt8) :
    Leaves out (aesCbcDecryptPad aes nonce dataLen (.inside 0) out paddType) (counted dataLen)
      (Cbc.overwritten xorBlock aes nonce (blocksOf out.memory (counted dataLen))) := by
  refine decryptPad_of_loop whole paddType fun number => ?_
  have advanced := @decrypt_inPlace size (counted dataLen) (cbcStart out dataLen) _ aes nonce
    (Nat.mod_lt _ (by decide)) (counted_remaining dataLen)
  rw [← blocksOf_inside]
  exact advanced.leaves rfl

theorem decryptPad_number {dataLen : Nat} (whole : dataLen % 16 = 0) (long : 16 ≤ dataLen)
    (len : (cbcDecryptLoop aes nonce source (cbcStart out dataLen)).len = UInt32.ofNat (16 * counted dataLen)) :
    (aesCbcDecryptPad aes nonce dataLen source out padLenPadding).1 = UInt32.ofNat (16 * counted dataLen) -
      ((aesCbcDecryptPad aes nonce dataLen source out padLenPadding).2.memory
        (UInt32.ofNat (16 * counted dataLen) - 1).toNat).toUInt32 := by
  unfold aesCbcDecryptPad
  rw [if_neg (not_not.mpr whole), if_neg (Nat.not_lt.mpr long)]
  dsimp only
  rw [if_pos rfl, len]

theorem decrypt_len (dataLen : Nat) :
    (cbcDecryptLoop aes nonce (.outside memory) (cbcStart out dataLen)).len = UInt32.ofNat (16 * counted dataLen) := by
  have advanced := @decrypt_advanced size memory (counted dataLen) (cbcStart out dataLen) _ aes nonce
    (Nat.mod_lt _ (by decide)) (counted_remaining dataLen)
  rw [advanced.len, UInt32.zero_add]

theorem decrypt_len_inPlace (dataLen : Nat) :
    (cbcDecryptLoop aes nonce (.inside 0) (cbcStart out dataLen)).len = UInt32.ofNat (16 * counted dataLen) := by
  have advanced := @decrypt_inPlace size (counted dataLen) (cbcStart out dataLen) _ aes nonce
    (Nat.mod_lt _ (by decide)) (counted_remaining dataLen)
  rw [advanced.len, UInt32.zero_add]

end BcmDhd.Bcmcrypto
