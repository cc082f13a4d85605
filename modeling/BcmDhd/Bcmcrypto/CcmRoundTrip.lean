import BcmDhd.Bcmcrypto.AesCcm

namespace BcmDhd.Bcmcrypto

open BcmDhd.Lib

variable {size : Nat} {aes : Block → Block} {nonce : CcmNonce} {aad : Bytes} {source : Source}
  {out : FixedBuffer size} {place dataLen textLen : Nat} {mac : MacPlace} {stack : Memory}

/-- The messages that the two bytes of the length and of the counter are for. -/
def ccmMaxLen : Nat := 65536

theorem ctr_tag (pointers : SameOrApart source) :
    ∃ run, aesCtrCrypt aes (counterBlock nonce 0) aesCcmAuthLen source out place = some run ∧
      load run.out.memory place 8 = Rfc3610.maskTag aes nonce (readFrom source out place 8) ∧
      run.used = [Rfc3610.counter nonce 0] ∧
      (∀ at_, at_ < place ∨ place + 8 ≤ at_ → run.out.memory at_ = out.memory at_) ∧
      (run.out.intact = true ↔ out.intact = true ∧ place + 8 ≤ size) := by
  obtain ⟨run, done, crypts⟩ :=
    @aesCtrCrypt_some size source out place 8 aes pointers (counterBlock nonce 0) (by decide)
  have intact := crypts.intact
  rw [forall_prop_of_true (by decide)] at intact
  refine ⟨run, done, crypts.data.trans ?_, crypts.used, crypts.kept, intact⟩
  rw [counterBlock_zero, stream_counter]
  unfold Rfc3610.maskTag
  congr 1
  exact List.append_nil _

theorem ctr_data (pointers : SameOrApart source) (small : dataLen < ccmMaxLen) :
    ∃ run, aesCtrCrypt aes (counterBlock nonce 1) dataLen source out 0 = some run ∧
      load run.out.memory 0 dataLen = Rfc3610.crypt aes nonce (readFrom source out 0 dataLen) ∧
      run.used = (List.range' 1 (blocksFor dataLen)).map (Rfc3610.counter nonce) ∧
      (∀ at_, dataLen ≤ at_ → run.out.memory at_ = out.memory at_) ∧
      (out.intact = true → dataLen ≤ size → run.out.intact = true) := by
  have max : ccmMaxLen = 65536 := rfl
  have limit : aesCtrMaxBlocks = 65536 := rfl
  obtain ⟨run, done, crypts⟩ :=
    @aesCtrCrypt_some size source out 0 dataLen aes pointers (counterBlock nonce 1) (by omega)
  refine ⟨run, done, crypts.data.trans ?_, ?_, fun at_ behind => crypts.kept at_ (Or.inr (by dsimp only; omega)),
    fun before fits => crypts.intact.mpr ⟨before, fun _ => by dsimp only; omega⟩⟩
  · rw [counterBlock_one, stream_counter]
    unfold Rfc3610.crypt
    rw [length_readFrom]
  · rw [crypts.used, counterBlock_one, iterate_counter]
    rfl

/-- The tag does not go over the data. -/
def MacPlace.Clear (mac : MacPlace) (dataLen : Nat) : Prop := ∀ address, mac = .inside address → dataLen ≤ address

/-- There is room for the tag. -/
def MacPlace.Fits (mac : MacPlace) (size : Nat) : Prop := ∀ address, mac = .inside address → address + 8 ≤ size

theorem put_memory {tag : Bytes} {at_ : Nat} (clear : mac.Clear dataLen) (before : at_ < dataLen) :
    (mac.put out tag).memory at_ = out.memory at_ := by
  cases mac with
  | inside address =>
    have behind := clear address rfl
    exact Bytes.store_outside (Or.inl (by omega))
  | apart => rfl

theorem put_intact {tag : Bytes} (length : tag.length = 8) (fits : mac.Fits size) (before : out.intact = true) :
    (mac.put out tag).intact = true := by
  cases mac with
  | inside address => exact FixedBuffer.write_intact.mpr ⟨before, by rw [length]; exact fits address rfl⟩
  | apart => exact before

/-- What an encryption leaves: the encrypted message and tag of the standard. -/
structure Encrypted (aes : Block → Block) (nonce : CcmNonce) (aad message : Bytes) (mac : MacPlace)
    (result : CcmResult size × Bytes) : Prop where
  ok : result.1.ok = true
  data : load result.1.out.memory 0 message.length = Rfc3610.crypt aes nonce message
  tag : mac.tag result = Rfc3610.maskTag aes nonce (Rfc3610.tag aes nonce aad message)
  used : result.1.used = (List.range' 0 (blocksFor message.length + 1)).map (Rfc3610.counter nonce)

theorem aesCcmEncrypt_encrypted (pointers : SameOrApart source) (short : aad.length ≤ aesCcmAadMaxLen)
    (small : dataLen < ccmMaxLen) (clear : mac.Clear dataLen) :
    Encrypted aes nonce aad (readFrom source out 0 dataLen) mac
        (aesCcmEncrypt aes nonce aad dataLen source out mac stack) ∧
      (out.intact = true → dataLen ≤ size → mac.Fits size →
        (aesCcmEncrypt aes nonce aad dataLen source out mac stack).1.out.intact = true) := by
  have given := @aesCcmMac_eq size aes nonce aad source out short dataLen
  have length := @length_tag aes nonce aad (readFrom source out 0 dataLen)
  generalize same : Rfc3610.tag aes nonce aad (readFrom source out 0 dataLen) = tag at given length
  -- the tag is masked where it is
  have local_ : SameOrApart (.inside 0) := fun address same => (Source.inside.inj same).symm
  obtain ⟨masked, doneTag, tagBytes, usedTag, _, _⟩ :=
    @ctr_tag 16 aes nonce (.inside 0) (FixedBuffer.write ⟨stack, true⟩ 0 tag) 0 local_
  have kept : readFrom (.inside 0) (FixedBuffer.write (⟨stack, true⟩ : FixedBuffer 16) 0 tag) 0 8 = tag := by
    have written := Bytes.load_store stack 0 tag
    rw [length] at written
    exact written
  rw [kept] at tagBytes
  -- the message does not see that the tag was put behind it
  obtain ⟨run, done, data, used, behind, intact⟩ :=
    @ctr_data size aes nonce source (mac.put out (load masked.out.memory 0 8)) dataLen pointers small
  have unread : readFrom source (mac.put out (load masked.out.memory 0 8)) 0 dataLen = readFrom source out 0 dataLen :=
    pointers.read fun at_ _ below => put_memory clear (by omega)
  rw [unread] at data
  have result : aesCcmEncrypt aes nonce aad dataLen source out mac stack =
      (⟨true, run.out, masked.used ++ run.used⟩, load masked.out.memory 0 8) := by
    unfold aesCcmEncrypt
    rw [given]
    dsimp only
    rw [doneTag]
    dsimp only
    rw [show aesCcmAuthLen = 8 from rfl, done]
  rw [result]
  refine ⟨⟨rfl, ?_, ?_, ?_⟩, fun before fits room => ?_⟩
  · rw [length_readFrom]
    exact data
  · rw [same, ← tagBytes]
    cases mac with
    | inside address =>
      have written := Bytes.load_store out.memory address (load masked.out.memory 0 8)
      rw [Bytes.length_load] at written
      have after := clear address rfl
      exact (Bytes.load_congr fun at_ low _ => behind at_ (Nat.le_trans after low)).trans written
    | apart => rfl
  · rw [length_readFrom, List.range'_succ, List.map_cons, usedTag, used]
    rfl
  · exact intact (put_intact (by simp) room before) fits

/-- What a decryption leaves of data and a tag. -/
structure Decrypted (aes : Block → Block) (nonce : CcmNonce) (aad crypt mask : Bytes)
    (result : CcmResult size) : Prop where
  ok : result.ok = true ↔ Rfc3610.tag aes nonce aad (Rfc3610.crypt aes nonce crypt) = Rfc3610.maskTag aes nonce mask
  data : load result.out.memory 0 crypt.length = Rfc3610.crypt aes nonce crypt
  tag : load result.out.memory crypt.length 8 = Rfc3610.maskTag aes nonce mask
  used : result.used = (List.range' 1 (blocksFor crypt.length) ++ [0]).map (Rfc3610.counter nonce)

theorem aesCcmDecrypt_decrypted (pointers : SameOrApart source) (short : aad.length ≤ aesCcmAadMaxLen)
    (small : textLen < ccmMaxLen) :
    Decrypted aes nonce aad (readFrom source out 0 textLen) (readFrom source out textLen 8)
        (aesCcmDecrypt aes nonce aad (textLen + 8) source out) ∧
      (out.intact = true → textLen + 8 ≤ size →
        (aesCcmDecrypt aes nonce aad (textLen + 8) source out).out.intact = true) := by
  obtain ⟨run, done, data, used, behind, intact⟩ := @ctr_data size aes nonce source out textLen pointers small
  obtain ⟨masked, doneTag, tagBytes, usedTag, kept, intactTag⟩ :=
    @ctr_tag size aes nonce source run.out textLen pointers
  have unread : readFrom source run.out textLen 8 = readFrom source out textLen 8 :=
    pointers.read fun at_ low _ => behind at_ low
  rw [unread] at tagBytes
  -- the message is still there when its tag is computed
  have there : load masked.out.memory 0 textLen = Rfc3610.crypt aes nonce (readFrom source out 0 textLen) := by
    rw [← data]
    exact Bytes.load_congr fun at_ _ below => kept at_ (Or.inl (by omega))
  have message : readFrom (.inside 0) masked.out 0 textLen =
    Rfc3610.crypt aes nonce (readFrom source out 0 textLen) := there
  have given := @aesCcmMac_eq size aes nonce aad (.inside 0) masked.out short textLen
  rw [message] at given
  have result : aesCcmDecrypt aes nonce aad (textLen + 8) source out = ⟨decide (Rfc3610.tag aes nonce aad
      (Rfc3610.crypt aes nonce (readFrom source out 0 textLen)) = load masked.out.memory textLen aesCcmAuthLen),
      masked.out, run.used ++ masked.used⟩ := by
    have length : textLen + 8 - aesCcmAuthLen = textLen := Nat.add_sub_cancel _ _
    unfold aesCcmDecrypt
    rw [if_neg (show ¬ textLen + 8 < aesCcmAuthLen from Nat.not_lt.mpr (Nat.le_add_left 8 textLen)), length]
    dsimp only
    rw [done]
    dsimp only
    rw [doneTag]
    dsimp only
    rw [given]
  rw [result]
  refine ⟨⟨?_, ?_, ?_, ?_⟩, fun before fits => ?_⟩
  · rw [← tagBytes]
    exact decide_eq_true_iff
  · rw [length_readFrom]
    exact there
  · rw [length_readFrom]
    exact tagBytes
  · rw [length_readFrom, List.map_append, used, usedTag]
    rfl
  · exact intactTag.mpr ⟨intact before (by omega), fits⟩

/-- Whatever the lengths are, a call that succeeds has found the tag of the data that it leaves. -/
theorem aesCcmDecrypt_tag (ok : (aesCcmDecrypt aes nonce aad dataLen source out).ok = true) :
    aesCcmAuthLen ≤ dataLen ∧
      aesCcmMac aes nonce aad (dataLen - aesCcmAuthLen) (.inside 0)
        (aesCcmDecrypt aes nonce aad dataLen source out).out =
        some (load (aesCcmDecrypt aes nonce aad dataLen source out).out.memory (dataLen - aesCcmAuthLen)
          aesCcmAuthLen) := by
  unfold aesCcmDecrypt at ok ⊢
  split at ok
  · cases ok
  · rename_i long
    rw [if_neg long]
    refine ⟨Nat.le_of_not_lt long, ?_⟩
    dsimp only at ok ⊢
    cases first : aesCtrCrypt aes (counterBlock nonce 1) (dataLen - aesCcmAuthLen) source out 0 with
    | none => rw [first] at ok; cases ok
    | some run =>
      rw [first] at ok
      dsimp only at ok ⊢
      cases second : aesCtrCrypt aes (counterBlock nonce 0) aesCcmAuthLen source run.out (dataLen - aesCcmAuthLen) with
      | none => rw [second] at ok; cases ok
      | some masked =>
        rw [second] at ok
        dsimp only at ok ⊢
        cases given : aesCcmMac aes nonce aad (dataLen - aesCcmAuthLen) (.inside 0) masked.out with
        | none => rw [given] at ok; cases ok
        | some tag =>
          rw [given] at ok
          dsimp only at ok ⊢
          rw [given, of_decide_eq_true ok]

theorem counters_of_nodup {numbers : List Nat} (different : numbers.Nodup)
    (small : ∀ number ∈ numbers, number < 65536) :
    (numbers.map (Rfc3610.counter nonce)).Nodup := by
  refine List.Nodup.map_on (fun one first two second same => ?_) different
  have number := @withCounter_inj (counterFront nonce) one two same
  have bound := small one first
  have other := small two second
  omega

theorem encrypted_nodup {message : Bytes} {result : CcmResult size × Bytes}
    (encrypted : Encrypted aes nonce aad message mac result) (small : message.length < ccmMaxLen) :
    result.1.used.Nodup := by
  have max : ccmMaxLen = 65536 := rfl
  rw [encrypted.used]
  refine counters_of_nodup List.nodup_range' fun number member => ?_
  rw [List.mem_range'_1] at member
  unfold blocksFor at member
  omega

theorem decrypted_nodup {crypt mask : Bytes} {result : CcmResult size}
    (decrypted : Decrypted aes nonce aad crypt mask result) (small : crypt.length < ccmMaxLen) : result.used.Nodup := by
  have max : ccmMaxLen = 65536 := rfl
  rw [decrypted.used]
  refine counters_of_nodup ?_ fun number member => ?_
  · rw [List.nodup_append]
    refine ⟨List.nodup_range', List.nodup_singleton 0, fun number first other second same => ?_⟩
    rw [List.mem_range'_1] at first
    rw [List.mem_singleton] at second
    omega
  · rw [List.mem_append, List.mem_range'_1, List.mem_singleton] at member
    unfold blocksFor at member
    omega

/-- Encryption is the standard's, what it gives is decrypted again, only data with their tag are
accepted, and no counter is used twice. -/
theorem aesCcm_correct (aes : Block → Block) (nonce : CcmNonce) (aad : Bytes) (source : Source) (out : FixedBuffer size)
    (dataLen : Nat) (mac : MacPlace) (stack : Memory) (pointers : SameOrApart source)
    (short : aad.length ≤ aesCcmAadMaxLen) (small : dataLen < ccmMaxLen) (clear : mac.Clear dataLen) :
    let message := readFrom source out 0 dataLen
    let sent := aesCcmEncrypt aes nonce aad dataLen source out mac stack
    (sent.1.ok = true ∧ load sent.1.out.memory 0 dataLen = Rfc3610.crypt aes nonce message ∧
      mac.tag sent = Rfc3610.maskTag aes nonce (Rfc3610.tag aes nonce aad message) ∧ sent.1.used.Nodup ∧
      (out.intact = true → dataLen ≤ size → mac.Fits size → sent.1.out.intact = true)) ∧
    (∀ (room : Nat) (other : FixedBuffer room) (crypt : Source), SameOrApart crypt →
      (readFrom crypt other 0 (dataLen + 8) = load sent.1.out.memory 0 dataLen ++ mac.tag sent →
        (aesCcmDecrypt aes nonce aad (dataLen + 8) crypt other).ok = true ∧
        load (aesCcmDecrypt aes nonce aad (dataLen + 8) crypt other).out.memory 0 dataLen = message) ∧
      (aesCcmDecrypt aes nonce aad (dataLen + 8) crypt other).used.Nodup ∧
      (other.intact = true → dataLen + 8 ≤ room →
        (aesCcmDecrypt aes nonce aad (dataLen + 8) crypt other).out.intact = true)) ∧
    (∀ (room len : Nat) (other : FixedBuffer room) (crypt : Source) (any : Bytes),
      (aesCcmDecrypt aes nonce any len crypt other).ok = true → aesCcmAuthLen ≤ len ∧
        aesCcmMac aes nonce any (len - aesCcmAuthLen) (.inside 0) (aesCcmDecrypt aes nonce any len crypt other).out =
          some (load (aesCcmDecrypt aes nonce any len crypt other).out.memory (len - aesCcmAuthLen) aesCcmAuthLen)) ∧
    ∀ (room len place : Nat) (other : FixedBuffer room) (crypt : Source) (ctr : Block) (run : CtrRun room),
      SameOrApart crypt → aesCtrCrypt aes ctr len crypt other place = some run → run.used.Nodup := by
  intro message sent
  obtain ⟨encrypted, intact⟩ :=
    @aesCcmEncrypt_encrypted size aes nonce aad source out dataLen mac stack pointers short small clear
  have length : message.length = dataLen := length_readFrom _ _ _ _
  have data := encrypted.data
  rw [length] at data
  refine ⟨⟨encrypted.ok, data, encrypted.tag,
    encrypted_nodup encrypted (by rw [length_readFrom]; exact small), intact⟩, ?_,
    fun room len other crypt any ok => aesCcmDecrypt_tag ok,
    fun room len place other crypt ctr run apart done => aesCtrCrypt_nodup apart done⟩
  intro room other crypt apart
  obtain ⟨decrypted, intactBack⟩ := @aesCcmDecrypt_decrypted room aes nonce aad crypt other dataLen apart short small
  refine ⟨fun received => ?_, decrypted_nodup decrypted (by rw [length_readFrom]; exact small), intactBack⟩
  rw [readFrom_add, Nat.zero_add, data, encrypted.tag] at received
  obtain ⟨text, mask⟩ := List.append_inj received (by rw [length_readFrom, length_crypt, length])
  have plain := decrypted.data
  have accepted := decrypted.ok
  rw [length_readFrom, text, crypt_crypt] at plain
  rw [text, mask, crypt_crypt, maskTag_maskTag (by rw [length_tag]; decide)] at accepted
  exact ⟨accepted.mpr rfl, plain⟩

/-- Three bytes are encrypted in place, with their tag behind them. -/
theorem aesCcm_threeBytes :
    let nonce : CcmNonce := ⟨List.replicate 13 0, by decide⟩
    let out : FixedBuffer 11 := ⟨fun _ => 7, true⟩
    let sent := aesCcmEncrypt id nonce [1] 3 (.inside 0) out (.inside 3) (fun _ => 0)
    (aesCcmDecrypt id nonce [1] 11 (.outside sent.1.out.memory) out).ok = true ∧
      load (aesCcmDecrypt id nonce [1] 11 (.outside sent.1.out.memory) out).out.memory 0 3 = [7, 7, 7] := by
  intro nonce out sent
  have correct := aesCcm_correct id nonce [1] (.inside 0) out 3 (.inside 3) (fun _ => 0)
    (fun address same => (Source.inside.inj same).symm) (by decide) (by decide)
    (fun address same => Nat.le_of_eq (MacPlace.inside.inj same))
  exact (correct.2.1 11 out (.outside sent.1.out.memory) (fun address same => absurd same (by simp))).1
    (Bytes.load_add _ 0 3 8)

end BcmDhd.Bcmcrypto
