import BcmDhd.Bcmcrypto.AesCbc
import BcmDhd.Lib.ByteStream

/-! Counter mode with AES. -/

namespace BcmDhd.Bcmcrypto

open BcmDhd.Lib

def aesCtrMaxBlocks : Nat := 2 ^ 16

/-- The counter goes up. -/
def increment (ctr : Block) : Block :=
  let last := ctr.val.getD 15 0 + 1
  let bytes := ctr.val.set 15 last
  ⟨if last = 0 then bytes.set 14 (bytes.getD 14 0 + 1) else bytes, by
    split <;> simp [bytes, ctr.property]⟩

/-- The state of the loop: both pointers are at the same place of their arrays. -/
structure CtrRun (size : Nat) where
  out : FixedBuffer size
  place : Nat
  ctr : Block
  /-- The counters that have been encrypted. -/
  used : List Block

variable {size : Nat}

def ctrTurn (aes : Block → Block) (ptxt : Source) (run : CtrRun size) : CtrRun size :=
  let tmp := aes run.ctr
  { out := run.out.write run.place (xorBlock (blockFrom ptxt run.out run.place) tmp).val, place := run.place + 16
    ctr := increment run.ctr, used := run.used ++ [run.ctr] }

/-- The loop over whole blocks. -/
def ctrLoop (aes : Block → Block) (ptxt : Source) : (blocks : Nat) → CtrRun size → CtrRun size
  | 0, run => run
  | blocks + 1, run => ctrLoop aes ptxt blocks (ctrTurn aes ptxt run)

/-- What remains is masked with the first bytes of one more block. -/
def ctrRest (aes : Block → Block) (ptxt : Source) (left : Nat) (run : CtrRun size) : CtrRun size :=
  if left = 0 then run
  else
    let tmp := aes run.ctr
    { run with
      out := run.out.write run.place
        (List.zipWith (fun one two => one ^^^ two) (readFrom ptxt run.out run.place left) tmp.val)
      used := run.used ++ [run.ctr] }

/-- `aes_ctr_crypt`, from a place of both arrays on. Nothing stands for -1. -/
def aesCtrCrypt (aes : Block → Block) (nonce : Block) (dataLen : Nat) (ptxt : Source) (out : FixedBuffer size)
    (place : Nat) : Option (CtrRun size) :=
  if 16 * aesCtrMaxBlocks < dataLen then none
  else some (ctrRest aes ptxt (dataLen % 16) (ctrLoop aes ptxt (dataLen / 16)
    { out := out, place := place, ctr := nonce, used := [] }))

/-- A block that ends with a number. -/
def withCounter (front : {bytes : Bytes // bytes.length = 14}) (count : Nat) : Block :=
  ⟨front.val ++ [UInt8.ofNat (count / 256), UInt8.ofNat count], by simp [front.property]⟩

variable {front : {bytes : Bytes // bytes.length = 14}} {count other : Nat} {high low byte : UInt8}

theorem set_low : (front.val ++ [high, low]).set 15 byte = front.val ++ [high, byte] := by
  rw [List.set_append_right 15 byte (by rw [front.property]; decide), front.property]
  rfl

theorem set_high : (front.val ++ [high, low]).set 14 byte = front.val ++ [byte, low] := by
  rw [List.set_append_right 14 byte (by rw [front.property]), front.property]
  rfl

theorem get_low : (front.val ++ [high, low]).getD 15 0 = low := by
  rw [List.getD_eq_getElem?_getD, List.getElem?_append_right (by rw [front.property]; decide), front.property]
  rfl

theorem get_high : (front.val ++ [high, low]).getD 14 0 = high := by
  rw [List.getD_eq_getElem?_getD, List.getElem?_append_right (by rw [front.property]), front.property]
  rfl

theorem increment_withCounter : increment (withCounter front count) = withCounter front (count + 1) := by
  have last : UInt8.ofNat count + 1 = UInt8.ofNat (count + 1) := UInt8.toNat_inj.mp (by simp)
  have zero : UInt8.ofNat (count + 1) = 0 ↔ (count + 1) % 256 = 0 := by
    rw [← UInt8.toNat_inj, UInt8.toNat_ofNat']
    rfl
  apply Subtype.ext
  unfold increment withCounter
  dsimp only
  rw [get_low, last, set_low]
  by_cases carry : (count + 1) % 256 = 0
  · have up : (count + 1) / 256 = count / 256 + 1 := by omega
    rw [if_pos (zero.mpr carry), get_high, set_high, up]
    exact congrArg (fun high => front.val ++ [high, _]) (UInt8.toNat_inj.mp (by simp))
  · have same : (count + 1) / 256 = count / 256 := by omega
    rw [if_neg fun none_ => carry (zero.mp none_), same]

theorem exists_withCounter (block : Block) : ∃ front count, block = withCounter front count := by
  have sized := block.property
  obtain ⟨high, low, last⟩ : ∃ high low, block.val.drop 14 = [high, low] :=
    List.length_eq_two.mp (by rw [List.length_drop, sized])
  refine ⟨⟨block.val.take 14, by rw [List.length_take, sized]; rfl⟩, 256 * high.toNat + low.toNat, ?_⟩
  apply Subtype.ext
  have small := low.toNat_lt
  have first : UInt8.ofNat ((256 * high.toNat + low.toNat) / 256) = high := by
    have whole : (256 * high.toNat + low.toNat) / 256 = high.toNat := by omega
    rw [whole, UInt8.ofNat_toNat]
  have second : UInt8.ofNat (256 * high.toNat + low.toNat) = low := by
    apply UInt8.toNat_inj.mp
    rw [UInt8.toNat_ofNat']
    omega
  change block.val = block.val.take 14 ++ [UInt8.ofNat _, UInt8.ofNat _]
  rw [first, second, ← last, List.take_append_drop]

theorem withCounter_inj (same : withCounter front count = withCounter front other) :
    count % 2 ^ 16 = other % 2 ^ 16 := by
  have bytes := List.append_cancel_left (congrArg Subtype.val same)
  have high := congrArg UInt8.toNat (List.cons.inj bytes).1
  have low := congrArg UInt8.toNat (List.cons.inj (List.cons.inj bytes).2).1
  rw [UInt8.toNat_ofNat', UInt8.toNat_ofNat'] at high low
  omega

theorem iterate_withCounter (blocks : Nat) : List.iterate increment (withCounter front count) blocks =
    (List.range' count blocks).map (withCounter front) := by
  induction blocks generalizing count with
  | zero => rfl
  | succ blocks ih => rw [List.iterate, increment_withCounter, ih, List.range'_succ, List.map_cons]

theorem counters_nodup {blocks : Nat} (ctr : Block) (few : blocks ≤ aesCtrMaxBlocks) :
    (List.iterate increment ctr blocks).Nodup := by
  obtain ⟨front, count, rfl⟩ := exists_withCounter ctr
  rw [iterate_withCounter]
  refine List.Nodup.map_on (fun one first two second same => ?_) List.nodup_range'
  have number := withCounter_inj same
  have max : aesCtrMaxBlocks = 2 ^ 16 := rfl
  rw [List.mem_range'_1] at first second
  omega

/-- The two pointers are the same, or lead to different arrays. -/
def SameOrApart (source : Source) : Prop := ∀ address, source = .inside address → address = 0

variable {source : Source} {out written : FixedBuffer size} {place later dataLen : Nat}

theorem SameOrApart.read (pointers : SameOrApart source)
    (same : ∀ at_, later ≤ at_ → at_ < later + count → written.memory at_ = out.memory at_) :
    readFrom source written later count = readFrom source out later count := by
  cases source with
  | inside address =>
    have start := pointers address rfl
    subst start
    refine Bytes.load_congr fun at_ low high => same at_ (by omega) (by omega)
  | outside memory => rfl

theorem readFrom_add (source : Source) (out : FixedBuffer size) (place first second : Nat) :
    readFrom source out place (first + second) =
      readFrom source out place first ++ readFrom source out (place + first) second := by
  cases source with
  | inside address =>
    have add := Bytes.load_add out.memory (address + place) first second
    rw [Nat.add_assoc] at add
    exact add
  | outside memory => exact Bytes.load_add memory place first second

/-- The blocks that so many bytes take. -/
def blocksFor (dataLen : Nat) : Nat := (dataLen + 15) / 16

/-- A run has masked so many bytes, and changed nothing else. -/
structure Crypts (aes : Block → Block) (source : Source) (dataLen : Nat) (run after : CtrRun size) : Prop where
  data : load after.out.memory run.place dataLen = List.zipWith (fun one two => one ^^^ two)
    (readFrom source run.out run.place dataLen) (Ctr.stream aes increment run.ctr (blocksFor dataLen))
  kept : ∀ at_, at_ < run.place ∨ run.place + dataLen ≤ at_ → after.out.memory at_ = run.out.memory at_
  intact : after.out.intact = true ↔ run.out.intact = true ∧ (0 < dataLen → run.place + dataLen ≤ size)
  used : after.used = run.used ++ List.iterate increment run.ctr (blocksFor dataLen)

variable {aes : Block → Block} {run : CtrRun size} {left blocks : Nat}

theorem ctrRest_crypts (small : left < 16) : Crypts aes source left run (ctrRest aes source left run) := by
  unfold ctrRest
  by_cases none_ : left = 0
  · rw [if_pos none_, none_]
    exact ⟨by simp [blocksFor, Ctr.stream, List.iterate, load],
      fun _ _ => rfl, by simp, by simp [blocksFor, List.iterate]⟩
  · have one : blocksFor left = 1 := by unfold blocksFor; omega
    have sized := (aes run.ctr).property
    have length : (List.zipWith (fun one two => one ^^^ two) (readFrom source run.out run.place left)
        (aes run.ctr).val).length = left := by
      rw [List.length_zipWith, length_readFrom, sized]
      omega
    rw [if_neg none_]
    constructor
    case data =>
      have written := Bytes.load_store run.out.memory run.place (List.zipWith (fun one two => one ^^^ two)
        (readFrom source run.out run.place left) (aes run.ctr).val)
      rw [length] at written
      rw [one, Ctr.stream_succ]
      exact written.trans (by simp [Ctr.stream, List.iterate])
    case kept =>
      intro at_ outside
      exact Bytes.store_outside (by rw [length]; exact outside)
    case intact =>
      rw [FixedBuffer.write_intact, length]
      exact and_congr_right fun _ => ⟨fun inside _ => inside, fun inside => inside (Nat.pos_of_ne_zero none_)⟩
    case used => rw [one]; rfl

/-- One more block in front. -/
theorem Crypts.turn {after : CtrRun size} (pointers : SameOrApart source)
    (rest : Crypts aes source dataLen (ctrTurn aes source run) after) :
    Crypts aes source (16 + dataLen) run after := by
  have one : blocksFor (16 + dataLen) = blocksFor dataLen + 1 := by unfold blocksFor; omega
  have sized := (xorBlock (blockFrom source run.out run.place) (aes run.ctr)).property
  constructor
  case data =>
    have unread : readFrom source (ctrTurn aes source run).out (run.place + 16) dataLen =
        readFrom source run.out (run.place + 16) dataLen :=
      pointers.read fun at_ low _ => Bytes.store_outside (Or.inr (by rw [sized]; exact low))
    have first : load after.out.memory run.place 16 = (xorBlock (blockFrom source run.out run.place)
        (aes run.ctr)).val := by
      have written := Bytes.load_store run.out.memory run.place
        (xorBlock (blockFrom source run.out run.place) (aes run.ctr)).val
      rw [sized] at written
      rw [← written]
      exact Bytes.load_congr fun at_ low high => rest.kept at_ (Or.inl high)
    have behind := rest.data
    change load after.out.memory (run.place + 16) dataLen = List.zipWith _ (readFrom _ _ (run.place + 16) _) _ at behind
    rw [one, Bytes.load_add, first, behind, readFrom_add, unread, Ctr.mask_append (length_readFrom _ _ _ _)]
    rfl
  case kept =>
    intro at_ outside
    have written : (ctrTurn aes source run).out.memory at_ = run.out.memory at_ :=
      Bytes.store_outside (by rw [sized]; omega)
    rw [rest.kept at_ (by change at_ < run.place + 16 ∨ run.place + 16 + dataLen ≤ at_; omega), written]
  case intact =>
    rw [rest.intact]
    change (run.out.write run.place _).intact = true ∧ (_ → run.place + 16 + dataLen ≤ size) ↔ _
    rw [FixedBuffer.write_intact, sized]
    constructor
    · rintro ⟨⟨before, inside⟩, more⟩
      refine ⟨before, fun _ => ?_⟩
      by_cases some_ : 0 < dataLen
      · have := more some_
        omega
      · omega
    · rintro ⟨before, inside⟩
      have room := inside (by omega)
      exact ⟨⟨before, by omega⟩, fun _ => by omega⟩
  case used =>
    rw [rest.used, one, List.iterate]
    exact List.append_assoc _ _ _

theorem ctrLoop_crypts (pointers : SameOrApart source) (small : left < 16) :
    Crypts aes source (16 * blocks + left) run (ctrRest aes source left (ctrLoop aes source blocks run)) := by
  induction blocks generalizing run with
  | zero =>
    rw [Nat.mul_zero, Nat.zero_add]
    exact ctrRest_crypts small
  | succ blocks ih =>
    have turned := (@ih (ctrTurn aes source run)).turn pointers
    rw [← Nat.add_assoc, Nat.add_comm 16, ← Nat.mul_succ] at turned
    exact turned

/-- The state in which a call starts. -/
abbrev ctrStart (out : FixedBuffer size) (nonce : Block) (place : Nat) : CtrRun size :=
  { out := out, place := place, ctr := nonce, used := [] }

theorem aesCtrCrypt_some (pointers : SameOrApart source) (nonce : Block) (fits : dataLen ≤ 16 * aesCtrMaxBlocks) :
    ∃ after, aesCtrCrypt aes nonce dataLen source out place = some after ∧
      Crypts aes source dataLen (ctrStart out nonce place) after := by
  refine ⟨_, if_neg (Nat.not_lt.mpr fits), ?_⟩
  have whole : 16 * (dataLen / 16) + dataLen % 16 = dataLen := Nat.div_add_mod _ _
  have done := @ctrLoop_crypts size source aes (ctrStart out nonce place) (dataLen % 16) (dataLen / 16) pointers
    (Nat.mod_lt _ (by decide))
  rw [whole] at done
  exact done

theorem aesCtrCrypt_nodup (pointers : SameOrApart source) {nonce : Block} {after : CtrRun size}
    (done : aesCtrCrypt aes nonce dataLen source out place = some after) : after.used.Nodup := by
  by_cases fits : dataLen ≤ 16 * aesCtrMaxBlocks
  · obtain ⟨other, same, crypts⟩ := @aesCtrCrypt_some size source out place dataLen aes pointers nonce fits
    rw [done] at same
    cases same
    rw [crypts.used, List.nil_append]
    exact counters_nodup nonce (by unfold blocksFor; omega)
  · unfold aesCtrCrypt at done
    rw [if_pos (Nat.lt_of_not_le fits)] at done
    cases done

/-- A second run over what the first has written gives the data back. It takes the same counters, and
the bytes around the data stay. -/
theorem aesCtrCrypt_twice (aes : Block → Block) (pointers : SameOrApart source) (nonce : Block)
    (fits : dataLen ≤ 16 * aesCtrMaxBlocks) (room : place + dataLen ≤ size) (before : out.intact = true) :
    ∃ once twice, aesCtrCrypt aes nonce dataLen source out place = some once ∧
      aesCtrCrypt aes nonce dataLen (.inside 0) once.out place = some twice ∧
      load twice.out.memory place dataLen = readFrom source out place dataLen ∧
      (∀ at_, at_ < place ∨ place + dataLen ≤ at_ → twice.out.memory at_ = out.memory at_) ∧
      twice.out.intact = true ∧ twice.used = once.used := by
  obtain ⟨once, first, masked⟩ := @aesCtrCrypt_some size source out place dataLen aes pointers nonce fits
  obtain ⟨twice, second, bared⟩ := @aesCtrCrypt_some size (.inside 0) once.out place dataLen aes
    (fun _ same => (Source.inside.inj same).symm) nonce fits
  refine ⟨once, twice, first, second, ?_, fun at_ outside => (bared.kept at_ outside).trans (masked.kept at_ outside),
    bared.intact.mpr ⟨masked.intact.mpr ⟨before, fun _ => room⟩, fun _ => room⟩, bared.used.trans masked.used.symm⟩
  have written : readFrom (.inside 0) once.out place dataLen = load once.out.memory place dataLen :=
    congrArg (load once.out.memory · dataLen) (Nat.zero_add place)
  have data := masked.data
  have again := bared.data
  dsimp only at data again
  rw [again, written, data]
  refine Ctr.mask_twice (fun one two => ?_) ?_
  · rw [UInt8.xor_assoc, UInt8.xor_self, UInt8.xor_zero]
  · rw [length_readFrom, Ctr.length_stream]
    unfold blocksFor
    omega

theorem aesCtrCrypt_twice_five : ∃ once twice,
    aesCtrCrypt id ⟨List.replicate 16 255, rfl⟩ 5 (.outside fun at_ => UInt8.ofNat at_)
      (⟨fun _ => 0, true⟩ : FixedBuffer 8) 2 = some once ∧
    aesCtrCrypt id ⟨List.replicate 16 255, rfl⟩ 5 (.inside 0) once.out 2 = some twice ∧
      load twice.out.memory 2 5 = [2, 3, 4, 5, 6] := by
  obtain ⟨once, twice, first, second, data, -⟩ := @aesCtrCrypt_twice 8 (.outside fun at_ => UInt8.ofNat at_)
    ⟨fun _ => 0, true⟩ 2 5 id (fun _ same => by cases same) ⟨List.replicate 16 255, rfl⟩ (by decide) (by decide) rfl
  exact ⟨once, twice, first, second, data⟩

end BcmDhd.Bcmcrypto
