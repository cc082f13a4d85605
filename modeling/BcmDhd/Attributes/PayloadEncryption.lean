import BcmDhd.Attributes.BuffObj
import BcmDhd.Bcmcrypto.AesCbc

/-! The encrypted settings of a registration message. -/

namespace BcmDhd.Attributes

open BcmDhd.Lib BcmDhd.Bcmcrypto

def outBufSize : Nat := 1024

/-- The data from the start of a buffer. -/
def BufferObj.contents (b : BufferObj) : Bytes := load b.base 0 b.dataLength

/-- `buffobj_Append` of the first bytes of an array. Nothing if there are not so many, or if
it writes outside the buffer's block. -/
def appendOut (fresh : Memory) (b : BufferObj) (outBuf : FixedBuffer outBufSize) (length : UInt32) :
    Option BufferObj :=
  if outBufSize < length.toNat then none else b.append fresh (load outBuf.memory 0 length.toNat)

/-- What a call has made of its array and of the buffer that it appends to. -/
structure PayloadCall where
  outBuf : FixedBuffer outBufSize
  appended : Option BufferObj

/-- What the stack holds where a call has its array. -/
def stackArray (stack : Memory) : FixedBuffer outBufSize where
  memory := stack
  intact := true

/-- `reg_proto_encrypt_data`, with what new blocks hold, the random IV and what its buffer
becomes. -/
def regProtoEncryptData (aes : Block → Block) (ivBuf : Block) (fresh stack : Memory)
    (plainText cipherText iv : BufferObj) : PayloadCall × Option BufferObj :=
  if plainText.dataLength = 0 then (⟨stackArray stack, some cipherText⟩, some iv)
  else
    (match (BufferObj.new fresh).append fresh plainText.contents with
      | none => ⟨stackArray stack, none⟩
      | some buf =>
        let result := aesCbcEncryptPad aes ivBuf buf.dataLength (.outside plainText.base)
          (stackArray stack) padLenPadding
        ⟨result.2, appendOut fresh cipherText result.2 result.1⟩,
    iv.reset.append fresh ivBuf.val)

/-- The block at the start of a buffer. -/
def BufferObj.firstBlock (b : BufferObj) : Block := ⟨load b.base 0 16, by simp⟩

/-- `reg_proto_decrypt_data`, which appends as many bytes as it is told, also after an error. -/
def regProtoDecryptData (aes : Block → Block) (fresh stack : Memory) (cipherText iv plainText : BufferObj) :
    PayloadCall :=
  let result := aesCbcDecryptPad aes iv.firstBlock cipherText.dataLength (.outside cipherText.base) (stackArray stack)
    padLenPadding
  ⟨result.2, (appendOut fresh plainText result.2 result.1).map fun appended =>
    (appended.rewindLength appended.dataLength).getD appended⟩

/-- A buffer as its callers give it: it has been reset. -/
abbrev ResetBuffer := {b : BufferObj // b.Sound ∧ b.current = 0 ∧ b.dataLength = 0}

/-- A buffer whose data are counted in 32 bits. -/
abbrev DataBuffer := {b : BufferObj // b.dataLength < 2 ^ 32}

/-- The data are what they were after they have been encrypted and decrypted. -/
def PayloadRoundTrips (aes : Equiv.Perm Block) (ivBuf : Block) (fresh stack other : Memory) (data : DataBuffer)
    (cipherText iv plainText : ResetBuffer) : Prop :=
  let sent := regProtoEncryptData aes ivBuf fresh stack data.val cipherText.val iv.val
  sent.1.outBuf.intact = true ∧ ∃ crypt ∈ sent.1.appended, ∃ sentIv ∈ sent.2,
    let received := regProtoDecryptData aes.symm fresh other crypt sentIv plainText.val
    received.outBuf.intact = true ∧ ∃ plain ∈ received.appended, plain.contents = data.val.contents

/-- What CBC makes of the data of a buffer. -/
def decryptedBytes (aes : Block → Block) (iv : Block) (crypt : BufferObj) : Bytes :=
  (Cbc.decrypted xorBlock aes iv (blocksOf crypt.base (crypt.dataLength / 16))).flatMap Subtype.val

/-- A prefix of the decrypted bytes is appended, or nothing. -/
def AppendsPrefix (aes : Block → Block) (fresh stack : Memory) (cipherText : DataBuffer) (iv : BufferObj)
    (plainText : ResetBuffer) : Prop :=
  let call := regProtoDecryptData aes fresh stack cipherText.val iv plainText.val
  call.outBuf.intact = true ∧
    ∃ plain ∈ call.appended, plain.contents <+: decryptedBytes aes iv.firstBlock cipherText.val

section

variable {fresh : Memory} {outBuf : FixedBuffer outBufSize} {length : UInt32} {b after : BufferObj}

theorem append_reset {bytes : Bytes} (b : ResetBuffer) (few : bytes.length ≤ outBufSize) :
    ∃ after, b.val.append fresh bytes = some after ∧ after.Sound ∧ after.current = bytes.length ∧
      after.dataLength = bytes.length ∧ after.contents = bytes := by
  obtain ⟨sound, start, empty⟩ := b.property
  obtain ⟨after, done⟩ := @BufferObj.append_some fresh b.val bytes sound (by
    rw [start]
    exact lt_of_le_of_lt (Nat.add_le_add_right (Nat.add_le_add_left few 0) _) (by decide))
  have appended := BufferObj.append_appended sound done
  have current := appended.current
  rw [start, Nat.zero_add] at current
  have counted : after.dataLength = bytes.length := by
    by_cases none_ : bytes = []
    · rw [appended.same none_, empty, none_]
      rfl
    · rw [appended.data none_, current]
  have there := appended.there
  rw [start] at there
  refine ⟨after, done, appended.sound, current, counted, ?_⟩
  unfold BufferObj.contents
  rw [counted, there]

theorem appendOut_some (b : ResetBuffer) (few : length.toNat ≤ outBufSize) :
    ∃ after, appendOut fresh b.val outBuf length = some after ∧ after.Sound ∧ after.current = length.toNat ∧
      after.dataLength = length.toNat ∧ after.contents = load outBuf.memory 0 length.toNat := by
  unfold appendOut
  rw [if_neg (Nat.not_lt.mpr few)]
  have done := @append_reset fresh (load outBuf.memory 0 length.toNat) b (by rw [Bytes.length_load]; exact few)
  rw [Bytes.length_load] at done
  exact done

theorem appendOut_none (b : BufferObj) (many : outBufSize < length.toNat) :
    appendOut fresh b outBuf length = none := if_pos many

/-- The buffer that is made for it takes all of the data. -/
theorem new_append {bytes : Bytes} (some_ : bytes ≠ []) (fits : bytes.length < 2 ^ 32) :
    ∃ buf, (BufferObj.new fresh).append fresh bytes = some buf ∧ buf.dataLength = bytes.length := by
  have own : (BufferObj.new fresh).own fresh bytes.length = some (BufferObj.new fresh) := rfl
  have current : ((BufferObj.new fresh).grown fresh bytes.length).current = 0 := by
    unfold BufferObj.grown
    split
    · rfl
    · rfl
  have room : bytes.length ≤ ((BufferObj.new fresh).grown fresh bytes.length).bufferLength := by
    unfold BufferObj.grown
    split
    · change bytes.length ≤ (0 + max bytes.length 256) % 2 ^ 32
      rw [Nat.zero_add, Nat.mod_eq_of_lt (max_lt fits (by decide))]
      exact le_max_left _ _
    · rename_i enough
      have whole : (BufferObj.new fresh).remaining = bufBlockSize := by
        norm_num [BufferObj.remaining, BufferObj.new, bufBlockSize]
      rw [whole] at enough
      exact Nat.le_of_not_lt enough
  unfold BufferObj.append
  rw [if_neg some_, own, Option.bind_some]
  dsimp only
  rw [current, Nat.zero_add, if_neg (Nat.not_lt.mpr room)]
  refine ⟨_, rfl, ?_⟩
  unfold BufferObj.put
  dsimp only
  rw [current, Nat.zero_add, Nat.mod_eq_of_lt fits]

end

section

variable {fresh stack : Memory} {ivBuf : Block}

theorem encryptData_eq (aes : Block → Block) (data : DataBuffer) (some_ : data.val.dataLength ≠ 0)
    (cipherText iv : BufferObj) :
    let result := aesCbcEncryptPad aes ivBuf data.val.dataLength (.outside data.val.base)
      (stackArray stack) padLenPadding
    regProtoEncryptData aes ivBuf fresh stack data.val cipherText iv =
      (⟨result.2, appendOut fresh cipherText result.2 result.1⟩, iv.reset.append fresh ivBuf.val) := by
  have length : data.val.contents.length = data.val.dataLength := Bytes.length_load
  obtain ⟨buf, done, counted⟩ := @new_append fresh data.val.contents
    (List.ne_nil_of_length_pos (by omega)) (by rw [length]; exact data.property)
  unfold regProtoEncryptData
  rw [if_neg some_, done]
  dsimp only
  rw [counted, length]

theorem blockCount_data (data : DataBuffer) :
    blockCount data.val.dataLength padLenPadding = data.val.dataLength / 16 + 1 := by
  unfold blockCount counted
  rw [if_pos rfl, Nat.mod_eq_of_lt data.property]

theorem encryptData_intact_iff (aes : Block → Block) (data : DataBuffer) (cipherText iv : BufferObj) :
    (regProtoEncryptData aes ivBuf fresh stack data.val cipherText iv).1.outBuf.intact = true ↔
      data.val.dataLength < outBufSize := by
  by_cases none_ : data.val.dataLength = 0
  · unfold regProtoEncryptData
    rw [if_pos none_, none_]
    exact iff_of_true rfl (by decide)
  · have leaves := @encryptPad_leaves outBufSize (stackArray stack) (.outside data.val.base) aes ivBuf (ahead_outside _)
      data.val.dataLength padLenPadding
    have start : (stackArray stack).intact = true := rfl
    rw [encryptData_eq aes data none_, leaves.intact, blockCount_data, and_iff_right start]
    unfold outBufSize
    omega

/-- The last block that is encrypted: what remains, and as many more bytes as are missing, each
with their number. -/
theorem paddedFrom_val {size : Nat} {out : FixedBuffer size} {memory : Memory} {place remaining : Nat}
    (few : remaining ≤ 16) : (paddedFrom (.outside memory) out place remaining).val =
      load memory place remaining ++ List.replicate (16 - remaining) (UInt8.ofNat (16 - remaining)) := by
  apply List.ext_getElem
  · rw [(paddedFrom _ _ _ _).property, List.length_append, Bytes.length_load, List.length_replicate]
    omega
  · intro i below _
    rw [(paddedFrom _ _ _ _).property] at below
    by_cases inside : i < remaining
    · rw [List.getElem_append_left (by rw [Bytes.length_load]; exact inside)]
      simp [paddedFrom, readFrom, inside]
    · rw [List.getElem_append_right (by rw [Bytes.length_load]; omega)]
      simp [paddedFrom, inside]

theorem plainBlocks_bytes (data : DataBuffer) {size : Nat} (out : FixedBuffer size) :
    (plainBlocks (.outside data.val.base) out data.val.dataLength padLenPadding).flatMap Subtype.val =
      data.val.contents ++ List.replicate (16 - data.val.dataLength % 16)
        (UInt8.ofNat (16 - data.val.dataLength % 16)) := by
  have counts : counted data.val.dataLength = data.val.dataLength / 16 := by
    unfold counted
    rw [Nat.mod_eq_of_lt data.property]
  have whole : 16 * (data.val.dataLength / 16) + data.val.dataLength % 16 = data.val.dataLength := Nat.div_add_mod _ _
  have halves := Bytes.load_add data.val.base 0 (16 * (data.val.dataLength / 16)) (data.val.dataLength % 16)
  rw [whole, Nat.zero_add] at halves
  unfold plainBlocks BufferObj.contents
  rw [if_pos rfl, counts, Nat.mod_eq_of_lt data.property, List.flatMap_append, blocksOf_outside, blocksOf_bytes, halves,
    List.append_assoc, List.flatMap_singleton, paddedFrom_val (Nat.le_of_lt (Nat.mod_lt _ (by decide)))]

end

section

variable {fresh stack : Memory} {aes : Block → Block} {iv : BufferObj}

theorem decryptData_intact_iff (cipherText : DataBuffer) (plainText : BufferObj) :
    (regProtoDecryptData aes fresh stack cipherText.val iv plainText).outBuf.intact = true ↔
      (cipherText.val.dataLength % 16 ≠ 0 ∨ cipherText.val.dataLength ≤ outBufSize) := by
  unfold regProtoDecryptData
  dsimp only
  by_cases whole : cipherText.val.dataLength % 16 = 0
  · have leaves := @decryptPad_leaves outBufSize (stackArray stack) cipherText.val.base aes iv.firstBlock
      cipherText.val.dataLength whole padLenPadding
    have start : (stackArray stack).intact = true := rfl
    rw [leaves.intact, and_iff_right start]
    unfold counted outBufSize
    rw [Nat.mod_eq_of_lt cipherText.property]
    omega
  · unfold aesCbcDecryptPad
    rw [if_pos whole]
    exact iff_of_true rfl (Or.inl whole)

theorem decryptPad_failed {size : Nat} {source : Source} {out : FixedBuffer size} {nonce : Block} {dataLen : Nat}
    (bad : dataLen % 16 ≠ 0 ∨ dataLen < 16) : (aesCbcDecryptPad aes nonce dataLen source out padLenPadding).1 = -1 := by
  unfold aesCbcDecryptPad
  by_cases part : dataLen % 16 ≠ 0
  · rw [if_pos part]
  · rw [if_neg part, if_pos (bad.resolve_left part)]

/-- Whole blocks are decrypted, and the last byte is taken for the length of the padding. -/
theorem decryptPad_whole {out : FixedBuffer outBufSize} (cipherText : DataBuffer)
    (whole : cipherText.val.dataLength % 16 = 0) (long : 16 ≤ cipherText.val.dataLength) :
    let result := aesCbcDecryptPad aes iv.firstBlock cipherText.val.dataLength
      (.outside cipherText.val.base) out padLenPadding
    let bytes := decryptedBytes aes iv.firstBlock cipherText.val
    load result.2.memory 0 cipherText.val.dataLength = bytes ∧
      result.1 = UInt32.ofNat cipherText.val.dataLength - (bytes.getLastD 0).toUInt32 := by
  intro result bytes
  have leaves := @decryptPad_leaves outBufSize out cipherText.val.base aes iv.firstBlock _ whole padLenPadding
  have number := @decryptPad_number outBufSize out _ aes iv.firstBlock _ whole long
    (@decrypt_len _ out cipherText.val.base aes iv.firstBlock cipherText.val.dataLength)
  have counts : counted cipherText.val.dataLength = cipherText.val.dataLength / 16 := by
    unfold counted
    rw [Nat.mod_eq_of_lt cipherText.property]
  have again : 16 * (cipherText.val.dataLength / 16) = cipherText.val.dataLength := by omega
  have read : load result.2.memory 0 cipherText.val.dataLength = bytes := by
    have found := leaves.blocks
    rw [counts] at found
    have read := blocksOf_bytes result.2.memory (cipherText.val.dataLength / 16)
    rw [again, found] at read
    exact read.symm
  refine ⟨read, ?_⟩
  have place : (UInt32.ofNat cipherText.val.dataLength - 1).toNat = cipherText.val.dataLength - 1 := by
    have same : (UInt32.ofNat cipherText.val.dataLength).toNat = cipherText.val.dataLength :=
      UInt32.toNat_ofNat_of_lt' cipherText.property
    rw [UInt32.toNat_sub_of_le _ _ (UInt32.le_iff_toNat_le.mpr (by rw [same]; change 1 ≤ _; omega)), same]
    rfl
  have last : bytes.getLastD 0 = result.2.memory (cipherText.val.dataLength - 1) := by
    obtain ⟨before, more⟩ := Nat.exists_eq_add_of_lt (Nat.lt_of_lt_of_le (by decide : 0 < 16) long)
    rw [← read, more, Nat.zero_add, Nat.add_sub_cancel, Bytes.load_add, Nat.zero_add]
    exact List.getLastD_concat
  rw [counts, again, place] at number
  rw [last]
  exact number

theorem contents_rewound (b : BufferObj) (length : Nat) : ((b.rewindLength length).getD b).contents = b.contents := by
  unfold BufferObj.rewindLength
  split
  · rfl
  · rfl

/-- A length that is no longer than the array is that of the decrypted bytes without their padding. -/
theorem decryptData_appended (cipherText : DataBuffer) (plainText : ResetBuffer)
    (whole : cipherText.val.dataLength % 16 = 0) (long : 16 ≤ cipherText.val.dataLength)
    (fits : cipherText.val.dataLength ≤ outBufSize) :
    let bytes := decryptedBytes aes iv.firstBlock cipherText.val
    let padding := (bytes.getLastD 0).toNat
    let call := regProtoDecryptData aes fresh stack cipherText.val iv plainText.val
    (padding ≤ cipherText.val.dataLength →
      ∃ plain ∈ call.appended, plain.contents = bytes.take (cipherText.val.dataLength - padding)) ∧
    (cipherText.val.dataLength < padding → call.appended = none) := by
  intro bytes padding call
  obtain ⟨read, number⟩ := @decryptPad_whole aes iv (stackArray stack) cipherText whole long
  have same : (UInt32.ofNat cipherText.val.dataLength).toNat = cipherText.val.dataLength :=
    UInt32.toNat_ofNat_of_lt' cipherText.property
  have byte : (bytes.getLastD 0).toUInt32.toNat = padding := UInt8.toNat_toUInt32 _
  have bound : padding < 256 := (bytes.getLastD 0).toNat_lt
  have small := cipherText.property
  have array : outBufSize = 1024 := rfl
  constructor
  · intro enough
    have length : (UInt32.ofNat cipherText.val.dataLength - (bytes.getLastD 0).toUInt32).toNat =
        cipherText.val.dataLength - padding := by
      rw [UInt32.toNat_sub, same, byte]
      omega
    obtain ⟨after, appended, _, _, _, contents⟩ := @appendOut_some fresh
      (aesCbcDecryptPad aes iv.firstBlock cipherText.val.dataLength (.outside cipherText.val.base)
        (stackArray stack) padLenPadding).2
      (UInt32.ofNat cipherText.val.dataLength - (bytes.getLastD 0).toUInt32) plainText (by rw [length]; omega)
    refine ⟨_, by dsimp only [call, regProtoDecryptData]; rw [number, appended]; rfl, ?_⟩
    rw [contents_rewound, contents, length, Bytes.load_take (Nat.sub_le _ _), read]
  · intro large
    have length : outBufSize < (UInt32.ofNat cipherText.val.dataLength - (bytes.getLastD 0).toUInt32).toNat := by
      rw [UInt32.toNat_sub, same, byte]
      omega
    dsimp only [call, regProtoDecryptData]
    rw [number, appendOut_none _ length]
    rfl

/-- Whether a prefix is appended depends on the length and on the last byte that comes out. -/
theorem appendsPrefix_iff (cipherText : DataBuffer) (plainText : ResetBuffer) :
    AppendsPrefix aes fresh stack cipherText iv plainText ↔
      cipherText.val.dataLength % 16 = 0 ∧ 16 ≤ cipherText.val.dataLength ∧ cipherText.val.dataLength ≤ outBufSize ∧
        ((decryptedBytes aes iv.firstBlock cipherText.val).getLastD 0).toNat ≤ cipherText.val.dataLength := by
  unfold AppendsPrefix
  dsimp only
  rw [decryptData_intact_iff]
  constructor
  · rintro ⟨inside, plain, appended, _⟩
    have good : ¬ (cipherText.val.dataLength % 16 ≠ 0 ∨ cipherText.val.dataLength < 16) := by
      intro bad
      unfold regProtoDecryptData at appended
      dsimp only at appended
      rw [decryptPad_failed bad, appendOut_none _ (by decide)] at appended
      cases appended
    rw [not_or, not_not, Nat.not_lt] at good
    have fits := inside.resolve_left (not_not.mpr good.1)
    refine ⟨good.1, good.2, fits, Nat.le_of_not_lt fun large => ?_⟩
    rw [(@decryptData_appended fresh stack aes iv cipherText plainText good.1 good.2 fits).2 large] at appended
    cases appended
  · rintro ⟨whole, long, fits, enough⟩
    obtain ⟨plain, appended, contents⟩ :=
      (@decryptData_appended fresh stack aes iv cipherText plainText whole long fits).1 enough
    exact ⟨Or.inr fits, plain, appended, contents ▸ List.take_prefix _ _⟩

end

section

variable {aes : Equiv.Perm Block} {ivBuf : Block} {fresh stack other : Memory} {data : DataBuffer}
  {cipherText iv plainText : ResetBuffer}

theorem reset_again (b : ResetBuffer) : b.val.reset = b.val := by
  obtain ⟨sound, start, empty⟩ := b.property
  have length := sound.current
  unfold BufferObj.reset
  rw [start] at length
  generalize b.val = buffer at start empty length
  cases buffer
  subst start empty length
  rfl

/-- What is sent: the encrypted blocks of the data and their padding, and the IV. -/
theorem encryptData_sent (some_ : data.val.dataLength ≠ 0) (fits : data.val.dataLength < outBufSize) :
    ∃ crypt ∈ (regProtoEncryptData aes ivBuf fresh stack data.val cipherText.val iv.val).1.appended,
      ∃ sentIv ∈ (regProtoEncryptData aes ivBuf fresh stack data.val cipherText.val iv.val).2,
        crypt.dataLength = 16 * (data.val.dataLength / 16 + 1) ∧ sentIv.firstBlock = ivBuf ∧
        blocksOf crypt.base (data.val.dataLength / 16 + 1) = Cbc.encrypted xorBlock aes ivBuf
          (plainBlocks (.outside data.val.base) (stackArray stack) data.val.dataLength padLenPadding) := by
  have array : outBufSize = 1024 := rfl
  have leaves := @encryptPad_leaves outBufSize (stackArray stack) (.outside data.val.base) aes ivBuf (ahead_outside _)
    data.val.dataLength padLenPadding
  have number := @encryptPad_number outBufSize (stackArray stack) (.outside data.val.base) aes ivBuf (ahead_outside _)
    data.val.dataLength padLenPadding
  rw [if_pos (Or.inr rfl), blockCount_data] at number
  rw [blockCount_data] at leaves
  have length : (UInt32.ofNat (16 * (data.val.dataLength / 16 + 1))).toNat = 16 * (data.val.dataLength / 16 + 1) :=
    UInt32.toNat_ofNat_of_lt' (by change _ < 2 ^ 32; omega)
  obtain ⟨crypt, appended, _, _, counted, contents⟩ := @appendOut_some fresh
    (aesCbcEncryptPad aes ivBuf data.val.dataLength (.outside data.val.base) (stackArray stack) padLenPadding).2
    (UInt32.ofNat (16 * (data.val.dataLength / 16 + 1))) cipherText (by rw [length]; omega)
  obtain ⟨sentIv, appendedIv, _, _, countedIv, contentsIv⟩ := @append_reset fresh ivBuf.val iv (by
    rw [ivBuf.property]
    decide)
  rw [encryptData_eq aes data some_]
  dsimp only
  rw [number, appended, reset_again, appendedIv]
  unfold BufferObj.contents at contents contentsIv
  rw [counted, length] at contents
  rw [countedIv, ivBuf.property] at contentsIv
  refine ⟨crypt, rfl, sentIv, rfl, counted.trans length, Subtype.ext contentsIv, ?_⟩
  rw [← leaves.blocks]
  exact blocksOf_eq_iff.mpr contents

/-- The data come back exactly if there are any, and fewer bytes than the array has. -/
theorem payload_roundTrips_iff : PayloadRoundTrips aes ivBuf fresh stack other data cipherText iv plainText ↔
    0 < data.val.dataLength ∧ data.val.dataLength < outBufSize := by
  unfold PayloadRoundTrips
  dsimp only
  rw [encryptData_intact_iff]
  constructor
  · rintro ⟨fits, crypt, sent, sentIv, _, _, plain, appended, _⟩
    refine ⟨Nat.pos_of_ne_zero fun none_ => ?_, fits⟩
    unfold regProtoEncryptData at sent
    rw [if_pos none_] at sent
    cases sent
    have empty := cipherText.property.2.2
    unfold regProtoDecryptData at appended
    dsimp only at appended
    rw [decryptPad_failed (Or.inr (by rw [empty]; decide)), appendOut_none _ (by decide)] at appended
    cases appended
  · rintro ⟨some_, fits⟩
    have array : outBufSize = 1024 := rfl
    obtain ⟨crypt, sent, sentIv, given, counted, first, blocks⟩ :=
      @encryptData_sent aes ivBuf fresh stack data cipherText iv (by omega) fits
    refine ⟨fits, crypt, sent, sentIv, given, ?_⟩
    have small : crypt.dataLength < 2 ^ 32 := by omega
    have whole : crypt.dataLength % 16 = 0 := by omega
    have inside : crypt.dataLength ≤ outBufSize := by omega
    refine ⟨(decryptData_intact_iff ⟨crypt, small⟩ plainText.val).mpr (Or.inr inside), ?_⟩
    have bytes : decryptedBytes aes.symm sentIv.firstBlock crypt = data.val.contents ++
        List.replicate (16 - data.val.dataLength % 16) (UInt8.ofNat (16 - data.val.dataLength % 16)) := by
      unfold decryptedBytes
      rw [counted, Nat.mul_div_cancel_left _ (by decide), blocks, first,
        Cbc.decrypted_encrypted xor_masking (fun block => aes.symm_apply_apply block), plainBlocks_bytes]
    have padding : ((decryptedBytes aes.symm sentIv.firstBlock crypt).getLastD 0).toNat =
        16 - data.val.dataLength % 16 := by
      obtain ⟨fewer, more⟩ :=
        Nat.exists_eq_add_of_lt (Nat.sub_pos_of_lt (Nat.mod_lt data.val.dataLength (by decide : 16 > 0)))
      rw [bytes, more, Nat.zero_add, List.replicate_succ', ← List.append_assoc, List.getLastD_concat]
      exact Nat.mod_eq_of_lt (by omega)
    obtain ⟨plain, appended, contents⟩ := (@decryptData_appended fresh other aes.symm sentIv ⟨crypt, small⟩ plainText
      whole (by dsimp only; omega) inside).1 (by rw [padding]; dsimp only; omega)
    refine ⟨plain, appended, contents.trans ?_⟩
    have length : data.val.contents.length = data.val.dataLength := Bytes.length_load
    have before : crypt.dataLength - (16 - data.val.dataLength % 16) = data.val.contents.length := by omega
    dsimp only
    rw [padding, before, bytes, List.take_left]

end

/-- Data that fill the array are encrypted past its end, longer ones are decrypted past it, and a
length that no encryption gives, or a last byte that is larger, is appended all the same. -/
theorem payloadEncryption_iff (aes : Equiv.Perm Block) (ivBuf : Block) (fresh stack other : Memory)
    (data crypt : DataBuffer) (cipherText iv plainText : ResetBuffer) (givenIv : BufferObj) :
    (PayloadRoundTrips aes ivBuf fresh stack other data cipherText iv plainText ↔
      0 < data.val.dataLength ∧ data.val.dataLength < outBufSize) ∧
    ((regProtoEncryptData aes ivBuf fresh stack data.val cipherText.val iv.val).1.outBuf.intact = true ↔
      data.val.dataLength < outBufSize) ∧
    ((regProtoDecryptData aes.symm fresh stack crypt.val givenIv plainText.val).outBuf.intact = true ↔
      (crypt.val.dataLength % 16 ≠ 0 ∨ crypt.val.dataLength ≤ outBufSize)) ∧
    (AppendsPrefix aes.symm fresh stack crypt givenIv plainText ↔
      crypt.val.dataLength % 16 = 0 ∧ 16 ≤ crypt.val.dataLength ∧ crypt.val.dataLength ≤ outBufSize ∧
        ((decryptedBytes aes.symm givenIv.firstBlock crypt.val).getLastD 0).toNat ≤ crypt.val.dataLength) :=
  ⟨payload_roundTrips_iff, encryptData_intact_iff aes data cipherText.val iv.val,
    decryptData_intact_iff crypt plainText.val,
    appendsPrefix_iff crypt plainText⟩

/-- 1024 bytes of data, and a block that ends with 17. -/
theorem fullArray_overrun :
    let memory : Memory := fun _ => 17
    let zeros : Memory := fun _ => 0
    let given : ResetBuffer := ⟨BufferObj.new zeros, ⟨⟨rfl, by decide, by decide⟩, rfl, rfl⟩⟩
    let data : DataBuffer := ⟨BufferObj.dserial memory 1024, by decide⟩
    let block : DataBuffer := ⟨BufferObj.dserial memory 16, by decide⟩
    let iv := BufferObj.dserial zeros 16
    ¬ PayloadRoundTrips (Equiv.refl Block) iv.firstBlock zeros zeros zeros data given given given ∧
      (regProtoEncryptData (Equiv.refl Block) iv.firstBlock zeros zeros data.val given.val given.val).1.outBuf.intact =
        false ∧ ¬ AppendsPrefix (Equiv.refl Block) zeros zeros block iv given := by
  intro memory zeros given data block iv
  refine ⟨?_, ?_, ?_⟩
  · rw [payload_roundTrips_iff]
    decide
  · rw [← Bool.not_eq_true, encryptData_intact_iff]
    decide
  · rw [appendsPrefix_iff]
    decide +kernel

end BcmDhd.Attributes
