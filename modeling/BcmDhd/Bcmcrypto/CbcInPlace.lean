import BcmDhd.Bcmcrypto.AesCbc

namespace BcmDhd.Bcmcrypto

open BcmDhd.Lib

variable {size : Nat}

/-- The data are encrypted in place as they are into any other array. -/
def EncryptsInPlace (aes : Equiv.Perm Block) (nonce : Block) (count : Nat) (paddType : UInt8)
    (data : FixedBuffer size) : Prop :=
  ∀ out : FixedBuffer size,
    let inPlace := aesCbcEncryptPad aes nonce (16 * count) (.inside 0) data paddType
    let apart := aesCbcEncryptPad aes nonce (16 * count) (.outside data.memory) out paddType
    inPlace.1 = apart.1 ∧ load inPlace.2.memory 0 (16 * blockCount (16 * count) paddType) =
      load apart.2.memory 0 (16 * blockCount (16 * count) paddType)

/-- The data are decrypted in place as they are into any other array. -/
def DecryptsInPlace (aes : Equiv.Perm Block) (nonce : Block) (count : Nat) (paddType : UInt8)
    (data : FixedBuffer size) : Prop :=
  ∀ out : FixedBuffer size,
    let inPlace := aesCbcDecryptPad aes.symm nonce (16 * count) (.inside 0) data paddType
    let apart := aesCbcDecryptPad aes.symm nonce (16 * count) (.outside data.memory) out paddType
    load inPlace.2.memory 0 (16 * counted (16 * count)) = load apart.2.memory 0 (16 * counted (16 * count))

/-- Data that were encrypted in place are what they were after they are decrypted in place. With
padding, their length is the one that is returned. -/
def UndoneInPlace (aes : Equiv.Perm Block) (nonce : Block) (count : Nat) (paddType : UInt8)
    (data : FixedBuffer size) : Prop :=
  let encrypted := aesCbcEncryptPad aes nonce (16 * count) (.inside 0) data paddType
  let length := if paddType = padLenPadding then encrypted.1.toNat else 16 * count
  let decrypted := aesCbcDecryptPad aes.symm nonce length (.inside 0) encrypted.2 paddType
  load decrypted.2.memory 0 (16 * count) = load data.memory 0 (16 * count) ∧
    (paddType = padLenPadding → decrypted.1.toNat = 16 * count)

/-- Two blocks with the same last byte. -/
def SameLast (first second : Block) : Prop := first.val[15]? = second.val[15]?

/-- Every block but the last is encrypted to itself. With padding, the last keeps its last
byte, and the length with the padding is counted in 32 bits. -/
def Undoable (aes : Equiv.Perm Block) (nonce : Block) (count : Nat) (paddType : UInt8)
    (data : FixedBuffer size) : Prop :=
  if paddType = padLenPadding then 16 * (count + 1) < 2 ^ 32 ∧
    Cbc.SelfEncrypted xorBlock aes SameLast nonce (blocksOf data.memory count)
  else Cbc.SelfEncrypted xorBlock aes (fun _ _ => True) nonce (blocksOf data.memory (counted (16 * count)))

variable {aes : Equiv.Perm Block} {nonce : Block} {count : Nat} {paddType : UInt8} {data out : FixedBuffer size}

theorem encrypts_inPlace : EncryptsInPlace aes nonce count paddType data := by
  intro out
  have plain : plainBlocks (.inside 0) data (16 * count) paddType =
      plainBlocks (.outside data.memory) out (16 * count) paddType := by
    have read : readFrom (.inside 0) data = readFrom (.outside data.memory) out := by
      funext place count
      change load data.memory (0 + place) count = load data.memory place count
      rw [Nat.zero_add]
    unfold plainBlocks paddedFrom
    rw [blocksOf_inside, blocksOf_outside, read]
  have inPlace := @encryptPad_leaves size data (.inside 0) aes nonce ahead_inPlace (16 * count) paddType
  have apart := @encryptPad_leaves size out (.outside data.memory) aes nonce (ahead_outside _) (16 * count) paddType
  constructor
  · rw [encryptPad_number ahead_inPlace, encryptPad_number (ahead_outside _)]
  · rw [← blocksOf_eq_iff, inPlace.blocks, apart.blocks, plain]

theorem whole (count : Nat) : 16 * count % 16 = 0 := Nat.mul_mod_right 16 count

theorem decrypts_inPlace_iff : DecryptsInPlace aes nonce count paddType data ↔
    Cbc.SelfDecrypted xorBlock aes.symm nonce (blocksOf data.memory (counted (16 * count))) := by
  have inPlace := @decryptPad_inPlace size data aes.symm nonce (16 * count) (whole count) paddType
  have apart := fun out => @decryptPad_leaves size out data.memory aes.symm nonce (16 * count) (whole count) paddType
  rw [← Cbc.overwritten_iff xor_masking]
  constructor
  · intro same
    have bytes := same data
    dsimp only at bytes
    rw [← blocksOf_eq_iff, inPlace.blocks, (apart data).blocks] at bytes
    exact bytes
  · intro same out
    dsimp only
    rw [← blocksOf_eq_iff, inPlace.blocks, (apart out).blocks, same]

theorem load_same_iff {memory other : Memory} {blocks total : Nat} (inside : 16 * blocks ≤ total)
    (kept : ∀ at_, 16 * blocks ≤ at_ → other at_ = memory at_) :
    load other 0 total = load memory 0 total ↔ blocksOf other blocks = blocksOf memory blocks := by
  rw [blocksOf_eq_iff, load_eq_iff, load_eq_iff]
  constructor
  · intro same i small
    exact same i (by omega)
  · intro same i small
    by_cases low : i < 16 * blocks
    · exact same i low
    · rw [Nat.zero_add]
      exact kept i (by omega)

theorem undone_plain_iff (plain : paddType ≠ padLenPadding) : UndoneInPlace aes nonce count paddType data ↔
    Cbc.SelfEncrypted xorBlock aes (fun _ _ => True) nonce (blocksOf data.memory (counted (16 * count))) := by
  have encrypted := @encryptPad_leaves size data (.inside 0) aes nonce ahead_inPlace (16 * count) paddType
  have decrypted := @decryptPad_inPlace size (aesCbcEncryptPad aes nonce (16 * count) (.inside 0) data paddType).2
    aes.symm nonce (16 * count) (whole count) paddType
  have blocks : blockCount (16 * count) paddType = counted (16 * count) := by
    rw [blockCount, if_neg plain, Nat.add_zero]
  have data_ : plainBlocks (.inside 0) data (16 * count) paddType = blocksOf data.memory (counted (16 * count)) := by
    rw [plainBlocks, if_neg plain, List.append_nil, blocksOf_inside]
  rw [blocks, data_] at encrypted
  have few : 16 * counted (16 * count) ≤ 16 * count := by
    have := Nat.mod_le (16 * count) (2 ^ 32)
    unfold counted
    omega
  unfold UndoneInPlace
  dsimp only
  rw [if_neg plain, load_same_iff few, decrypted.blocks, encrypted.blocks,
    Cbc.overwritten_encrypted_iff xor_masking (fun block => aes.symm_apply_apply block)]
  · exact and_iff_left fun padded => absurd padded plain
  · intro at_ behind
    rw [decrypted.kept at_ behind, encrypted.kept at_ behind]

/-- The block of padding behind whole blocks. -/
def fullPadding : Block := ⟨List.replicate 16 16, by simp⟩

theorem lastByte (block : Block) : ∃ byte, block.val[15]? = some byte :=
  ⟨_, List.getElem?_eq_getElem (by rw [block.property]; decide)⟩

theorem padding_right_iff (crypt plain : Block) :
    (xorBlock (xorBlock crypt fullPadding) plain).val[15]? = some 16 ↔ SameLast crypt plain := by
  obtain ⟨first, crypt_⟩ := lastByte crypt
  obtain ⟨second, plain_⟩ := lastByte plain
  have padding_ : fullPadding.val[15]? = some 16 := rfl
  unfold SameLast
  simp only [xorBlock, List.getElem?_zipWith, crypt_, plain_, padding_, Option.some.injEq]
  rw [UInt8.xor_comm first 16, UInt8.xor_assoc]
  constructor
  · intro right
    have none_ : first ^^^ second = 0 := by rw [← UInt8.xor_right_inj 16, right, UInt8.xor_zero]
    exact UInt8.xor_eq_zero_iff.mp none_
  · intro same
    rw [same, UInt8.xor_self, UInt8.xor_zero]

theorem counted_fits {blocks : Nat} (fits : 16 * blocks < 2 ^ 32) : counted (16 * blocks) = blocks := by
  unfold counted
  rw [Nat.mod_eq_of_lt fits, Nat.mul_div_cancel_left _ (by decide)]

theorem length_back_iff {last : UInt8} (fits : 16 * (count + 1) < 2 ^ 32) :
    (UInt32.ofNat (16 * (count + 1)) - last.toUInt32).toNat = 16 * count ↔ last = 16 := by
  have length : (UInt32.ofNat (16 * (count + 1))).toNat = 16 * (count + 1) := UInt32.toNat_ofNat_of_lt' fits
  have small : last.toUInt32.toNat = last.toNat := UInt8.toNat_toUInt32 last
  have bound := last.toNat_lt
  rw [UInt32.toNat_sub, length, small, ← UInt8.toNat_inj]
  change _ ↔ last.toNat = 16
  omega

theorem undone_padded_fits (fits : 16 * (count + 1) < 2 ^ 32) : UndoneInPlace aes nonce count padLenPadding data ↔
    Cbc.SelfEncrypted xorBlock aes SameLast nonce (blocksOf data.memory count) := by
  have data_ : plainBlocks (.inside 0) data (16 * count) padLenPadding = blocksOf data.memory count ++
      [fullPadding] := by
    have rest : 16 * count % 2 ^ 32 % 16 = 0 := by omega
    rw [plainBlocks, if_pos rfl, blocksOf_inside, rest, counted_fits (by omega)]
    rfl
  have encrypted := @encryptPad_leaves size data (.inside 0) aes nonce ahead_inPlace (16 * count) padLenPadding
  have number := @encryptPad_number size data (.inside 0) aes nonce ahead_inPlace (16 * count) padLenPadding
  have blocks : blockCount (16 * count) padLenPadding = count + 1 := by
    rw [blockCount, if_pos rfl, counted_fits (by omega)]
  rw [if_pos (Or.inr rfl), blocks] at number
  rw [blocks, data_] at encrypted
  have length : (UInt32.ofNat (16 * (count + 1))).toNat = 16 * (count + 1) := UInt32.toNat_ofNat_of_lt' fits
  unfold UndoneInPlace
  dsimp only
  rw [if_pos rfl, number, length]
  have undone := encrypted.blocks
  have kept := encrypted.kept
  generalize (aesCbcEncryptPad aes nonce (16 * count) (.inside 0) data padLenPadding).2 = crypt at undone kept
  clear encrypted number
  have decrypted := @decryptPad_inPlace size crypt aes.symm nonce (16 * (count + 1)) (whole _) padLenPadding
  have number := @decryptPad_number size crypt (.inside 0) aes.symm nonce (16 * (count + 1)) (whole _) (by omega)
    (decrypt_len_inPlace _)
  have place : (UInt32.ofNat (16 * (count + 1)) - 1).toNat = 16 * count + 15 := by
    rw [UInt32.toNat_sub_of_le _ _ (UInt32.le_iff_toNat_le.mpr (by rw [length]; change 1 ≤ _; omega)), length]
    change 16 * (count + 1) - 1 = _
    omega
  have found := decrypted.blocks
  rw [counted_fits fits] at number found
  rw [undone] at found
  rw [number, place, length_back_iff fits]
  generalize (aesCbcDecryptPad aes.symm nonce (16 * (count + 1)) (.inside 0) crypt padLenPadding).2 = out at found
  have split_ : blocksOf out.memory (count + 1) = blocksOf out.memory count ++
      [⟨load out.memory (16 * count) 16, by simp⟩] := by
    rw [blocksOf, blocksAt_succ, Nat.zero_add]
    rfl
  have byte : (load out.memory (16 * count) 16)[15]? = some (out.memory (16 * count + 15)) := rfl
  have exact_ := Cbc.overwritten_padded_iff xor_masking (fun block => aes.symm_apply_apply block)
    (fun block => block.val[15]? = some 16) nonce (blocksOf data.memory count) fullPadding rfl
  have allowed : (fun crypt plain => (xorBlock (xorBlock crypt fullPadding) plain).val[15]? = some 16) = SameLast := by
    funext crypt plain
    exact propext (padding_right_iff crypt plain)
  rw [allowed, ← found, split_] at exact_
  rw [← blocksOf_eq_iff, ← exact_]
  constructor
  · rintro ⟨same, last⟩
    exact ⟨_, congrArg (· ++ _) same, byte.trans (congrArg some (last rfl))⟩
  · rintro ⟨last, same, right⟩
    obtain ⟨first, one⟩ := List.append_inj' same rfl
    rw [← (List.cons.inj one).1] at right
    exact ⟨first, fun _ => Option.some.inj (byte.symm.trans right)⟩

theorem not_undone_long (long : ¬ 16 * (count + 1) < 2 ^ 32) : ¬ UndoneInPlace aes nonce count padLenPadding data := by
  intro undone
  have number := @encryptPad_number size data (.inside 0) aes nonce ahead_inPlace (16 * count) padLenPadding
  have back := undone.2 rfl
  have bound := (aesCbcDecryptPad aes.symm nonce (if padLenPadding = padLenPadding then
    (aesCbcEncryptPad aes nonce (16 * count) (.inside 0) data padLenPadding).1.toNat else 16 * count) (.inside 0)
    (aesCbcEncryptPad aes nonce (16 * count) (.inside 0) data padLenPadding).2 padLenPadding).1.toNat_lt
  rw [back] at bound
  -- only one length is left, for which the encrypted one is 0
  have blocks : blockCount (16 * count) padLenPadding = 2 ^ 28 := by
    rw [blockCount, if_pos rfl, counted_fits bound]
    omega
  have zero : (aesCbcEncryptPad aes nonce (16 * count) (.inside 0) data padLenPadding).1 = 0 := by
    rw [number, if_pos (Or.inr rfl), blocks]
    rfl
  rw [if_pos rfl, zero] at back
  change (2 ^ 32 - 1 : Nat) = 16 * count at back
  omega

theorem undone_iff : UndoneInPlace aes nonce count paddType data ↔ Undoable aes nonce count paddType data := by
  unfold Undoable
  by_cases padded : paddType = padLenPadding
  · subst padded
    rw [if_pos rfl]
    by_cases fits : 16 * (count + 1) < 2 ^ 32
    · rw [undone_padded_fits fits]
      exact (and_iff_right fits).symm
    · exact iff_of_false (not_undone_long fits) fun undoable => fits undoable.1
  · rw [if_neg padded]
    exact undone_plain_iff padded

/-- Encryption in place is encryption. Decryption in place masks blocks with decrypted ones, so it
is right if these are the encrypted ones. -/
theorem cbc_inPlace_iff (aes : Equiv.Perm Block) (nonce : Block) (count : Nat) (paddType : UInt8)
    (data : FixedBuffer size) : EncryptsInPlace aes nonce count paddType data ∧
      (DecryptsInPlace aes nonce count paddType data ↔
        Cbc.SelfDecrypted xorBlock aes.symm nonce (blocksOf data.memory (counted (16 * count)))) ∧
      (UndoneInPlace aes nonce count paddType data ↔ Undoable aes nonce count paddType data) :=
  ⟨encrypts_inPlace, decrypts_inPlace_iff, undone_iff⟩

/-- Two blocks of zeros, masked with ones at first. -/
theorem twoBlocks_notUndone :
    let ones : Block := ⟨List.replicate 16 1, by decide⟩
    let zeros : FixedBuffer 32 := { memory := fun _ => 0, intact := true }
    ¬ DecryptsInPlace (Equiv.refl Block) ones 2 noPadding zeros ∧
      ¬ UndoneInPlace (Equiv.refl Block) ones 2 noPadding zeros := by
  intro ones zeros
  constructor
  · intro same
    have decrypted := decrypts_inPlace_iff.mp same
    have mask := congrArg Subtype.val decrypted.1
    revert mask
    decide +kernel
  · intro undone
    have encrypted := undone_iff.mp undone
    have mask := congrArg Subtype.val encrypted.1
    revert mask
    decide +kernel

end BcmDhd.Bcmcrypto
