import BcmDhd.Bcmcrypto.AesCtr

/-! CCM with AES: a chain over additional data and a message gives a tag, and both message and
tag are masked in counter mode. -/

namespace BcmDhd.Bcmcrypto

open BcmDhd.Lib

def aesCcmLenFieldLen : Nat := 2
def aesCcmAadMaxLen : Nat := 0xFEFF
def aesCcmAuthLen : Nat := 8
def aesCcmCryptFlags : UInt8 := UInt8.ofNat (aesCcmLenFieldLen - 1)
def aesCcmAuthFlags : UInt8 := UInt8.ofNat (4 * (aesCcmAuthLen - 2) + (aesCcmLenFieldLen - 1))
def aesCcmAuthAadFlag : UInt8 := 0x40

abbrev CcmNonce := {bytes : Bytes // bytes.length = 13}

/-- `B_0`. -/
def firstMacBlock (nonce : CcmNonce) (aadLen dataLen : Nat) : Block :=
  ⟨(if aadLen = 0 then aesCcmAuthFlags else aesCcmAuthFlags ||| aesCcmAuthAadFlag) :: nonce.val ++
    [UInt8.ofNat (dataLen / 256), UInt8.ofNat dataLen], by simp [nonce.property]⟩

/-- `X[k] ^= byte`. -/
def xorAt (x : Block) (k : Nat) (byte : UInt8) : Block :=
  ⟨x.val.modify k fun old => old ^^^ byte, by rw [List.length_modify, x.property]⟩

def aadTurn (aes : Block → Block) (state : Block × Nat) (byte : UInt8) : Block × Nat :=
  let x := xorAt state.1 state.2 byte
  if state.2 + 1 = 16 then (aes x, 0) else (x, state.2 + 1)

/-- The additional data, behind the two bytes of their length. -/
def absorbAad (aes : Block → Block) (x : Block) (aad : Bytes) : Block :=
  if aad.length = 0 then x
  else
    let x := xorAt (xorAt x 0 (UInt8.ofNat (aad.length / 256))) 1 (UInt8.ofNat aad.length)
    let state := aad.foldl (aadTurn aes) (x, 2)
    if state.2 % 16 = 0 then state.1 else aes state.1

variable {size : Nat}

/-- The loop over whole blocks of the message. -/
def macLoop (aes : Block → Block) (ptxt : Source) (out : FixedBuffer size) :
    (blocks place : Nat) → Block → Block
  | 0, _, x => x
  | blocks + 1, place, x => macLoop aes ptxt out blocks (place + 16) (aes (xorBlock x (blockFrom ptxt out place)))

/-- The bytes of the last block, one after the other. -/
def xorFirst (x : Block) (bytes : Bytes) : Block :=
  (bytes.foldl (fun state byte => (xorAt state.1 state.2 byte, state.2 + 1)) (x, 0)).1

/-- `aes_ccm_mac` of data in an array, or in the one that is written to. Nothing stands for -1. -/
def aesCcmMac (aes : Block → Block) (nonce : CcmNonce) (aad : Bytes) (dataLen : Nat) (ptxt : Source)
    (out : FixedBuffer size) : Option Bytes :=
  if aesCcmAadMaxLen < aad.length then none
  else
    let x := absorbAad aes (aes (firstMacBlock nonce aad.length dataLen)) aad
    let x := macLoop aes ptxt out (dataLen / 16) 0 x
    let left := dataLen % 16
    let x := xorFirst x (readFrom ptxt out (16 * (dataLen / 16)) left)
    some ((if left = 0 then x else aes x).val.take aesCcmAuthLen)

/-- Where the tag goes: to a place of the output, or elsewhere. -/
inductive MacPlace
  | inside (address : Nat)
  | apart

def MacPlace.put (mac : MacPlace) (out : FixedBuffer size) (tag : Bytes) : FixedBuffer size :=
  match mac with
  | .inside address => out.write address tag
  | .apart => out

/-- What a call leaves: whether it returns 0, the output, and the counters that it has encrypted. -/
structure CcmResult (size : Nat) where
  ok : Bool
  out : FixedBuffer size
  used : List Block

/-- `A`, with a number in its last byte. -/
def counterBlock (nonce : CcmNonce) (number : UInt8) : Block :=
  ⟨aesCcmCryptFlags :: nonce.val ++ [0, number], by simp [nonce.property]⟩

/-- `aes_ccm_encrypt`, with what the stack holds. It also gives the tag, which is found at `mac`. -/
def aesCcmEncrypt (aes : Block → Block) (nonce : CcmNonce) (aad : Bytes) (dataLen : Nat) (ptxt : Source)
    (out : FixedBuffer size) (mac : MacPlace) (stack : Memory) : CcmResult size × Bytes :=
  match aesCcmMac aes nonce aad dataLen ptxt out with
  | none => (⟨false, out, []⟩, [])
  | some tag =>
    let x : FixedBuffer 16 := FixedBuffer.write ⟨stack, true⟩ 0 tag
    match aesCtrCrypt aes (counterBlock nonce 0) aesCcmAuthLen (.inside 0) x 0 with
    | none => (⟨false, out, []⟩, [])
    | some masked =>
      let tag := load masked.out.memory 0 aesCcmAuthLen
      match aesCtrCrypt aes (counterBlock nonce 1) dataLen ptxt (mac.put out tag) 0 with
      | none => (⟨false, mac.put out tag, masked.used⟩, tag)
      | some run => (⟨true, run.out, masked.used ++ run.used⟩, tag)

/-- The tag that an encryption leaves. -/
def MacPlace.tag (mac : MacPlace) (result : CcmResult size × Bytes) : Bytes :=
  match mac with
  | .inside address => load result.1.out.memory address aesCcmAuthLen
  | .apart => result.2

/-- `aes_ccm_decrypt` of data and the tag behind them. -/
def aesCcmDecrypt (aes : Block → Block) (nonce : CcmNonce) (aad : Bytes) (dataLen : Nat) (ctxt : Source)
    (out : FixedBuffer size) : CcmResult size :=
  -- the length without the tag wraps around, to one that is too large
  if dataLen < aesCcmAuthLen then ⟨false, out, []⟩
  else
    let textLen := dataLen - aesCcmAuthLen
    match aesCtrCrypt aes (counterBlock nonce 1) textLen ctxt out 0 with
    | none => ⟨false, out, []⟩
    | some run =>
      match aesCtrCrypt aes (counterBlock nonce 0) aesCcmAuthLen ctxt run.out textLen with
      | none => ⟨false, run.out, run.used⟩
      | some masked =>
        match aesCcmMac aes nonce aad textLen (.inside 0) masked.out with
        | none => ⟨false, masked.out, run.used ++ masked.used⟩
        | some tag =>
          ⟨decide (tag = load masked.out.memory textLen aesCcmAuthLen), masked.out, run.used ++ masked.used⟩

/-! CCM as RFC 3610 defines it, with 8 bytes of tag and 2 of length, and that this is what the
code computes. -/

namespace Rfc3610

/-- A number in two bytes, the higher one first. -/
def twoBytes (number : Nat) : Bytes := [UInt8.ofNat (number / 256), UInt8.ofNat number]

/-- `64 * Adata + 8 * M' + L'`, where the tag has `2 * M' + 2` bytes and the length `L' + 1`. -/
def flags (aad : Bytes) : UInt8 := UInt8.ofNat (64 * (if aad = [] then 0 else 1) + 8 * ((8 - 2) / 2) + (2 - 1))

/-- The first block that is authenticated. -/
def b0 (nonce : CcmNonce) (aad message : Bytes) : Block :=
  ⟨flags aad :: nonce.val ++ twoBytes message.length, by simp [nonce.property, twoBytes]⟩

/-- The blocks behind it: the additional data with their length, and the message, each filled up
with zeros. -/
def authBlocks (aad message : Bytes) : List Block :=
  (if aad = [] then [] else Cells.padded 0 (twoBytes aad.length ++ aad)) ++ Cells.padded 0 message

/-- `T`. -/
def tag (aes : Block → Block) (nonce : CcmNonce) (aad message : Bytes) : Bytes :=
  (Cbc.authenticated xorBlock aes (aes (b0 nonce aad message)) (authBlocks aad message)).val.take 8

/-- `A_i`. -/
def counter (nonce : CcmNonce) (i : Nat) : Block :=
  ⟨1 :: nonce.val ++ twoBytes i, by simp [nonce.property, twoBytes]⟩

/-- The message masked with `S_1`, `S_2` and so on. -/
def crypt (aes : Block → Block) (nonce : CcmNonce) (message : Bytes) : Bytes :=
  List.zipWith (fun one two => one ^^^ two) message
    ((List.range' 1 (blocksFor message.length)).flatMap fun i => (aes (counter nonce i)).val)

/-- A tag masked with `S_0`. -/
def maskTag (aes : Block → Block) (nonce : CcmNonce) (tag : Bytes) : Bytes :=
  List.zipWith (fun one two => one ^^^ two) tag (aes (counter nonce 0)).val

end Rfc3610

variable {size : Nat} {aes : Block → Block} {nonce : CcmNonce} {aad message : Bytes} {source : Source}
  {out : FixedBuffer size} {x : Block} {place left : Nat}

theorem xor_neutral (byte : UInt8) : byte ^^^ 0 = byte := UInt8.xor_zero

theorem firstMacBlock_eq : firstMacBlock nonce aad.length message.length = Rfc3610.b0 nonce aad message := by
  unfold firstMacBlock Rfc3610.b0 Rfc3610.flags Rfc3610.twoBytes
  by_cases none_ : aad = []
  · subst none_
    rfl
  · have some_ : aad.length ≠ 0 := fun zero => none_ (List.length_eq_zero_iff.mp zero)
    simp only [if_neg none_, if_neg some_]
    rfl

theorem xorFirst_eq (bytes : Bytes) : xorFirst x bytes = xorBlock x (Cells.filled 0 bytes) := by
  have run : bytes.foldl (fun state byte => (xorAt state.1 state.2 byte, state.2 + 1)) (x, 0) =
      (xorBlock x (Cells.filled 0 bytes), bytes.length) := by
    induction bytes using List.reverseRecOn with
    | nil => exact congrArg (fun block => (block, 0)) (Cells.mixed_nothing xor_neutral x).symm
    | append_singleton bytes byte ih =>
      rw [List.foldl_append, ih, List.length_append]
      exact congrArg (fun block => (block, bytes.length + 1)) (Cells.absorbAt_mixed xor_neutral)
  unfold xorFirst
  rw [run]

theorem absorbAad_eq : absorbAad aes x aad =
    Cbc.authenticated xorBlock aes x (if aad = [] then []
      else Cells.padded 0 (Rfc3610.twoBytes aad.length ++ aad)) := by
  unfold absorbAad
  by_cases none_ : aad = []
  · subst none_
    rfl
  · have some_ : aad.length ≠ 0 := fun zero => none_ (List.length_eq_zero_iff.mp zero)
    rw [if_neg some_, if_neg none_]
    have whole := @Cells.absorbRest_foldl UInt8 16 (fun one two => one ^^^ two) 0 aes xor_neutral (by decide) x
      (Rfc3610.twoBytes aad.length ++ aad)
    have inside := @Cells.absorb_place UInt8 16 (fun one two => one ^^^ two) aes aad (by decide)
      (xorAt (xorAt x 0 (UInt8.ofNat (aad.length / 256))) 1 (UInt8.ofNat aad.length), 2) (by decide : 2 < 16)
    refine Eq.trans ?_ whole
    rw [List.foldl_append]
    change (if (aad.foldl (aadTurn aes) _).2 % 16 = 0 then _ else _) = Cells.absorbRest aes (aad.foldl (aadTurn aes) _)
    change (aad.foldl (aadTurn aes) _).2 < 16 at inside
    rw [Nat.mod_eq_of_lt inside]
    rfl

/-- The loop and the rest authenticate the blocks of the message. -/
theorem macLoop_eq (small : left < 16) (blocks : Nat) :
    (let after := xorFirst (macLoop aes source out blocks place x) (readFrom source out (place + 16 * blocks) left)
      if left = 0 then after else aes after) =
      Cbc.authenticated xorBlock aes x (Cells.padded 0 (readFrom source out place (16 * blocks + left))) := by
  induction blocks generalizing place x with
  | zero =>
    have length := length_readFrom source out place left
    rw [Nat.mul_zero, Nat.add_zero, Nat.zero_add, macLoop]
    dsimp only
    rw [xorFirst_eq]
    by_cases none_ : left = 0
    · have empty : readFrom source out place left = [] := List.eq_nil_of_length_eq_zero (length.trans none_)
      rw [if_pos none_, empty, Cells.padded_nil (by decide)]
      exact Cells.mixed_nothing xor_neutral x
    · have some_ : readFrom source out place left ≠ [] := List.ne_nil_of_length_pos (by omega)
      rw [if_neg none_, Cells.padded_part some_ (by omega)]
      rfl
  | succ blocks ih =>
    have behind := @ih (aes (xorBlock x (blockFrom source out place))) (place + 16)
    have first : readFrom source out place (16 * (blocks + 1) + left) =
        (blockFrom source out place).val ++ readFrom source out (place + 16) (16 * blocks + left) := by
      rw [Nat.mul_succ, Nat.add_comm (16 * blocks), Nat.add_assoc, readFrom_add]
      rfl
    have further : place + 16 * (blocks + 1) = place + 16 + 16 * blocks := by omega
    rw [first, Cells.padded_cons (by decide), macLoop, further, behind]
    rfl

theorem aesCcmMac_eq (short : aad.length ≤ aesCcmAadMaxLen) (dataLen : Nat) :
    aesCcmMac aes nonce aad dataLen source out = some (Rfc3610.tag aes nonce aad (readFrom source out 0 dataLen)) := by
  have whole : 16 * (dataLen / 16) + dataLen % 16 = dataLen := Nat.div_add_mod _ _
  have blocks := @macLoop_eq size aes source out (absorbAad aes (aes (firstMacBlock nonce aad.length dataLen)) aad) 0
    (dataLen % 16) (Nat.mod_lt _ (by decide)) (dataLen / 16)
  have first := @firstMacBlock_eq nonce aad (readFrom source out 0 dataLen)
  rw [whole, Nat.zero_add] at blocks
  rw [length_readFrom] at first
  unfold aesCcmMac Rfc3610.tag Rfc3610.authBlocks
  rw [if_neg (Nat.not_lt.mpr short)]
  dsimp only at blocks ⊢
  rw [blocks, absorbAad_eq, first, ← Cbc.authenticated_append]
  rfl

/-- A nonce behind the flags of a counter. -/
def counterFront (nonce : CcmNonce) : {bytes : Bytes // bytes.length = 14} :=
  ⟨1 :: nonce.val, by simp [nonce.property]⟩

theorem counterBlock_zero : counterBlock nonce 0 = Rfc3610.counter nonce 0 := rfl

theorem counterBlock_one : counterBlock nonce 1 = Rfc3610.counter nonce 1 := rfl

theorem iterate_counter (first blocks : Nat) : List.iterate increment (Rfc3610.counter nonce first) blocks =
    (List.range' first blocks).map (Rfc3610.counter nonce) :=
  @iterate_withCounter (counterFront nonce) first blocks

theorem stream_counter (first blocks : Nat) : Ctr.stream aes increment (Rfc3610.counter nonce first) blocks =
    (List.range' first blocks).flatMap fun i => (aes (Rfc3610.counter nonce i)).val := by
  unfold Ctr.stream
  rw [iterate_counter, List.flatMap_map]

@[simp] theorem length_crypt : (Rfc3610.crypt aes nonce message).length = message.length := by
  have enough := @Ctr.length_stream UInt8 16 Block aes increment (Rfc3610.counter nonce 1) (blocksFor message.length)
  rw [stream_counter] at enough
  unfold Rfc3610.crypt
  rw [List.length_zipWith, enough]
  unfold blocksFor
  omega

@[simp] theorem length_tag : (Rfc3610.tag aes nonce aad message).length = 8 := by
  have sized := (Cbc.authenticated xorBlock aes (aes (Rfc3610.b0 nonce aad message))
    (Rfc3610.authBlocks aad message)).property
  unfold Rfc3610.tag
  rw [List.length_take, sized]
  rfl

theorem crypt_crypt : Rfc3610.crypt aes nonce (Rfc3610.crypt aes nonce message) = message := by
  have enough := @Ctr.length_stream UInt8 16 Block aes increment (Rfc3610.counter nonce 1) (blocksFor message.length)
  have length := @length_crypt aes nonce message
  unfold Rfc3610.crypt at length ⊢
  rw [length]
  rw [stream_counter] at enough
  refine Ctr.mask_twice (fun first second => ?_) ?_
  · rw [UInt8.xor_assoc, UInt8.xor_self, UInt8.xor_zero]
  · rw [enough]
    unfold blocksFor
    omega

theorem maskTag_maskTag {tag : Bytes} (few : tag.length ≤ 16) :
    Rfc3610.maskTag aes nonce (Rfc3610.maskTag aes nonce tag) = tag := by
  refine Ctr.mask_twice (fun first second => ?_) ?_
  · rw [UInt8.xor_assoc, UInt8.xor_self, UInt8.xor_zero]
  · rw [(aes _).property]
    exact few

end BcmDhd.Bcmcrypto
