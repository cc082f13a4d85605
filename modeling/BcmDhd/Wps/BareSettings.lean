import BcmDhd.Wps.Acceptance
import BcmDhd.Wps.SettingsReading

/-! Encrypted settings that are no more than a nonce of eight bytes and an authenticator without
any. -/

namespace BcmDhd.Wps

open BcmDhd.Lib

def bareNonce (byte : UInt8) : Bytes := List.replicate 8 byte

def bareSettings (theType : Nat) (byte : UInt8) : Bytes :=
  tlv theType (bareNonce byte) ++ tlv wpsIdKeyWrapAuth []

/-- Whatever is decrypted, the bare settings come out, filled up with zeros. -/
def bareDecrypt (theType : Nat) (byte : UInt8) : Decrypt := fun _ _ cipherText =>
  ⟨(bareSettings theType byte ++ List.replicate cipherText.length 0).take cipherText.length, by simp⟩

/-- The bytes that are compared with the MAC if there are none in the attribute. -/
def blankBytes (around : Surroundings) : Bytes :=
  (List.range 8).map fun i => if i = 0 then 0 else around.blank (i - 1)

@[simp] theorem length_bareSettings (theType : Nat) (byte : UInt8) :
    (bareSettings theType byte).length = 16 := by simp [bareSettings, bareNonce]

/-- The bare settings end with a zero: nothing is taken off them as padding. -/
theorem regProtoDecryptData_bare {encr : EncrSettings} (whole : encr.Whole) (theType : Nat) (byte : UInt8)
    (regInfo : RegData) (msg : BufferObj) (stale : Bytes) :
    ∃ behind dataLength, regProtoDecryptData (bareDecrypt theType byte) regInfo msg encr stale =
      .ok ⟨[], bareSettings theType byte ++ behind, dataLength, msg.around⟩ ∧
        dataLength ≤ (bareSettings theType byte ++ behind).length := by
  obtain ⟨iv, there⟩ := Option.ne_none_iff_exists'.mp whole.iv
  have blocks := whole.blocks
  have some_ := whole.some_
  have fits := whole.fits
  have able : ¬(encr.encrDataLength % 16 ≠ 0 ∨ encr.encrDataLength < 16 ∨ 1024 < encr.encrDataLength) := by
    omega
  have filled : (bareSettings theType byte ++ List.replicate encr.encrDataLength 0).take
      encr.encrDataLength =
      bareSettings theType byte ++ List.replicate (encr.encrDataLength - 16) 0 := by
    rw [List.take_append, length_bareSettings, List.take_of_length_le (by simpa using some_),
      List.take_replicate, Nat.min_eq_left (by omega)]
  have last : ((bareSettings theType byte ++ List.replicate (encr.encrDataLength - 16) 0).getLast?.getD 0) =
      0 := by
    by_cases one : encr.encrDataLength - 16 = 0
    · have ends : bareSettings theType byte =
          tlv theType (bareNonce byte) ++ wpsHtons wpsIdKeyWrapAuth ++ [0] ++ [0] := by
        simp [bareSettings, tlv, wpsHtons]
      rw [one, List.replicate_zero, List.append_nil, ends, List.getLast?_concat]
      rfl
    · rw [List.getLast?_append, List.getLast?_replicate, if_neg one]
      rfl
  refine ⟨List.replicate (encr.encrDataLength - 16) 0 ++ stale, encr.encrDataLength, ?_, ?_⟩
  rotate_left
  · simp only [List.length_append, length_bareSettings, List.length_replicate]
    omega
  unfold regProtoDecryptData
  rw [there]
  dsimp only
  rw [if_neg able]
  simp only [bareDecrypt, BufferObj.length_load, filled, last]
  have sized : (bareSettings theType byte ++ List.replicate (encr.encrDataLength - 16) 0).length =
      encr.encrDataLength := by
    rw [List.length_append, length_bareSettings, List.length_replicate]
    omega
  have all : (bareSettings theType byte ++ List.replicate (encr.encrDataLength - 16) 0).take
      (encr.encrDataLength - 0) =
      bareSettings theType byte ++ List.replicate (encr.encrDataLength - 16) 0 := by
    rw [Nat.sub_zero, List.take_of_length_le (Nat.le_of_eq sized)]
  rw [if_neg (by simp), sized, UInt8.toNat_zero, all, sized, List.append_assoc]

section

variable {before later : Bytes} {dataLength : Nat} {around : Surroundings} {theType : Nat} {byte : UInt8}
  (hmac : Hmac) (authKey : Bytes)

theorem checkKeyWrapAuth_bare : checkKeyWrapAuth hmac authKey
    ⟨before, tlv wpsIdKeyWrapAuth [] ++ later, dataLength, around⟩ =
      .ok (true, decide ((hmac authKey (before.take (before.length % 256))).val.take 8 =
        blankBytes around)) := by
  have found : BufferObj.header ⟨before, tlv wpsIdKeyWrapAuth [] ++ later, dataLength, around⟩
      wpsIdKeyWrapAuth = .found 0 :=
    BufferObj.header_tlv rfl (show wpsIdKeyWrapAuth < 65536 by decide) (show ([] : Bytes).length < 65536 by simp)
  have counted : (before ++ (tlv wpsIdKeyWrapAuth [] ++ later)).take (before.length % 256) =
      before.take (before.length % 256) :=
    List.take_append_of_le_length (Nat.mod_le _ _)
  unfold checkKeyWrapAuth tlvDserialize
  rw [found]
  simp only [BufferObj.bytes, BufferObj.pos, counted]
  rfl

theorem regMsgNonceParse_bare (small : theType < 65536) :
    Settles (fun turns => regMsgNonceParse hmac turns theType
        ⟨[], bareSettings theType byte ++ later, dataLength, around⟩ authKey)
      (.ok ⟨true, ⟨8, .inside 4⟩,
        ⟨tlv theType (bareNonce byte), tlv wpsIdKeyWrapAuth [] ++ later, dataLength, around⟩⟩) := by
  have sized : (bareNonce byte).length = 8 := by simp [bareNonce]
  unfold regMsgNonceParse
  rw [bareSettings, List.append_assoc, tlvDserialize_at _ small (by omega) (Or.inr (by omega))
    (List.ne_nil_of_length_pos (by omega)), sized]
  refine Settles.bind (Settles.map (Settles.loop (skip_here (by decide) [])) orUnfinished) ?_
  dsimp only
  rw [checkKeyWrapAuth_bare]
  exact Settles.const _

theorem secretNonce_bare (small : theType < 65536) :
    Settles (fun turns => secretNonce hmac turns theType
      ⟨[], bareSettings theType byte ++ later, dataLength, around⟩ authKey) (.ok (bareNonce byte)) := by
  have loaded : BufferObj.load ⟨[], bareSettings theType byte ++ later, dataLength, around⟩ 4 8 =
      bareNonce byte := by
    have room : 4 + 8 ≤ (BufferObj.bytes ⟨[], bareSettings theType byte ++ later, dataLength, around⟩).length := by
      rw [BufferObj.bytes, List.nil_append, List.length_append, length_bareSettings]
      omega
    rw [BufferObj.load_inside room]
    simp [BufferObj.bytes, bareSettings, tlv, wpsHtons, bareNonce]
  unfold secretNonce
  refine Settles.bind (regMsgNonceParse_bare hmac authKey small) ?_
  rw [if_neg (by simp), BufferObj.read, loaded]
  exact Settles.const _

theorem checkSettings_bare {Es : Type} (es : Es) {hmac : Hmac} {authKey : Bytes}
    (right : (hmac authKey (before.take (before.length % 256))).val.take 8 = blankBytes around) :
    checkSettings hmac authKey true es
      (some ⟨before, tlv wpsIdKeyWrapAuth [] ++ later, dataLength, around⟩) = .ok (wpsSuccess, es) := by
  unfold checkSettings
  dsimp only
  rw [checkKeyWrapAuth_bare, decide_eq_true right]
  rfl

theorem tlvDserializeCopy_other {other dataSize : Nat} {value : Bytes} (old : TlvCopy) (small : theType < 65536)
    (differs : other ≠ theType) :
    tlvDserializeCopy old other ⟨before, tlv theType value ++ later, dataLength, around⟩ dataSize =
      ⟨false, old, ⟨before, tlv theType value ++ later, dataLength, around⟩⟩ := by
  rw [tlvDserializeCopy, BufferObj.header_other rfl small differs]

theorem tlvDserializeShort_other {other : Nat} {value : Bytes} (old : Nat) (small : theType < 65536)
    (differs : other ≠ theType) :
    tlvDserializeShort old other ⟨before, tlv theType value ++ later, dataLength, around⟩ =
      ⟨false, old, ⟨before, tlv theType value ++ later, dataLength, around⟩⟩ := by
  rw [tlvDserializeShort, BufferObj.header_other rfl small differs]

/-- The nonce of bare settings, as it is kept. -/
def bareCopy (byte : UInt8) : TlvCopy := ⟨8, bareNonce byte⟩

section

variable {hmac : Hmac} {authKey : Bytes}
  (right : (hmac authKey (tlv wpsIdESnonce2 (bareNonce byte))).val.take 8 = blankBytes around)
include right

theorem regMsgM7enrParse_bare : Settles
    (fun turns => regMsgM7enrParse hmac turns
      ⟨[], bareSettings wpsIdESnonce2 byte ++ later, dataLength, around⟩ authKey)
    (.ok (wpsSuccess, ⟨bareCopy byte, .unset⟩)) := by
  have sized : (bareNonce byte).length = 8 := by simp [bareNonce]
  unfold regMsgM7enrParse
  rw [bareSettings, List.append_assoc, tlvDserializeCopy_at _ (by decide) (by omega) (Or.inr (by omega)), sized]
  dsimp only
  rw [nextType_at (by decide), if_neg (by decide), List.nil_append]
  refine Settles.bind (Settles.map (Settles.loop (skip_here (by decide) [])) orUnfinished) ?_
  have counted : (tlv wpsIdESnonce2 (bareNonce byte)).take
      ((tlv wpsIdESnonce2 (bareNonce byte)).length % 256) = tlv wpsIdESnonce2 (bareNonce byte) := by
    rw [length_tlv, sized]
    exact List.take_of_length_le (by rw [length_tlv, sized])
  exact checkSettings_bare _ (counted.symm ▸ right) ▸ Settles.const _

/-- An access point's settings are taken without any of its attributes. -/
theorem regMsgM7apParse_bare : ∃ es, es.nonce = bareCopy byte ∧ Settles
    (fun turns => regMsgM7apParse hmac turns
      ⟨[], bareSettings wpsIdESnonce2 byte ++ later, dataLength, around⟩ authKey) (.ok (wpsSuccess, es)) := by
  have sized : (bareNonce byte).length = 8 := by simp [bareNonce]
  have small : wpsIdKeyWrapAuth < 65536 := by decide
  have stops : ∀ before, BufferObj.nextType
      ⟨before, tlv wpsIdKeyWrapAuth [] ++ later, dataLength, around⟩ ≠ wpsIdNwKeyIndex ∧
      BufferObj.nextType ⟨before, tlv wpsIdKeyWrapAuth [] ++ later, dataLength, around⟩ ≠ wpsIdNwKey := by
    intro before
    rw [nextType_at small]
    decide
  have keys := nwKeysParse_settles [] [] (tlv wpsIdESnonce2 (bareNonce byte)) stops
  have wep : Leaves wepSkipTurn
      (1, ⟨tlv wpsIdESnonce2 (bareNonce byte), tlv wpsIdKeyWrapAuth [] ++ later, dataLength, around⟩)
      (1, some ⟨tlv wpsIdESnonce2 (bareNonce byte), tlv wpsIdKeyWrapAuth [] ++ later, dataLength, around⟩) := by
    apply Loop.leaves_of_leave
    rw [wepSkipTurn, nextType_at small, if_pos rfl]
  have counted : (tlv wpsIdESnonce2 (bareNonce byte)).take
      ((tlv wpsIdESnonce2 (bareNonce byte)).length % 256) = tlv wpsIdESnonce2 (bareNonce byte) := by
    rw [length_tlv, sized]
    exact List.take_of_length_le (by rw [length_tlv, sized])
  simp only [keyBytes, List.nil_append, List.append_nil] at keys
  refine ⟨{ nonce := bareCopy byte, ssid := .unset, macAddr := .unset, authType := 0, encrType := 0
            keys := keysWritten [] [], wepIdx := some 1 }, rfl, ?_⟩
  unfold regMsgM7apParse
  rw [bareSettings, List.append_assoc, tlvDserializeCopy_at _ (by decide) (by omega) (Or.inr (by omega)), sized]
  dsimp only
  rw [tlvDserializeCopy_other _ small (by decide)]
  dsimp only
  rw [tlvDserializeCopy_other _ small (by decide)]
  dsimp only
  rw [tlvDserializeShort_other _ small (by decide)]
  dsimp only
  rw [tlvDserializeShort_other _ small (by decide), List.nil_append]
  refine Settles.bind (Settles.map keys orUnfinished) (Settles.bind (Settles.map (Settles.loop wep) orUnfinished) ?_)
  exact checkSettings_bare _ (counted.symm ▸ right) ▸ Settles.const _

end

end

theorem findTurn_smaller {theType : Nat} {search next : BufferObj × Nat}
    (counted : search.2 ≤ search.1.remaining) (goesOn : findTurn theType search = .again next) :
    next.2 ≤ next.1.remaining ∧ next.1.remaining < search.1.remaining := by
  unfold findTurn at goesOn
  dsimp only at goesOn
  split at goesOn
  · cases goesOn
  split at goesOn
  · cases goesOn
  split at goesOn
  · cases goesOn
  · rename_i room
    split at goesOn
    · rename_i after moved
      cases goesOn
      have less := BufferObj.advance_remaining moved
      exact ⟨Nat.le_refl _, by dsimp only; omega⟩
    · rename_i stays
      have short := BufferObj.advance_eq_none.mp stays
      unfold BufferObj.remaining at counted
      omega

theorem settingsOfAp_settles (regInfo : RegData) (plainText : BufferObj)
    (counted : plainText.dataLength ≤ plainText.bytes.length) :
    ∃ bAp, Settles (fun turns => orUnfinished (settingsOfAp turns regInfo plainText)) (.ok bAp) := by
  obtain ⟨found, done⟩ := Loop.leaves_of_measure (findTurn wpsIdSsid)
    (fun search => search.2 ≤ search.1.remaining) (fun search => search.1.remaining)
    (fun _ _ counted goesOn => findTurn_smaller counted goesOn)
    (plainText.rewind, plainText.dataLength) counted
  unfold settingsOfAp
  by_cases station : regInfo.bAp = false
  · simp only [if_pos station]
    exact ⟨false, Settles.const _⟩
  by_cases empty_ : plainText.dataLength = 0
  · simp only [if_neg station, if_pos empty_]
    exact ⟨false, Settles.const _⟩
  · simp only [if_neg station, if_neg empty_]
    have left := Settles.map (Settles.loop ⟨_, done⟩) (Option.map fun found : Option BufferObj =>
      found.any fun b => (tlvDserialize .unset wpsIdSsid b 32).ok)
    exact ⟨_, Settles.map left orUnfinished⟩

theorem parseM7_bare {later : Bytes} {dataLength : Nat} {around : Surroundings} {byte : UInt8} {hmac : Hmac}
    {authKey : Bytes}
    (right : (hmac authKey (tlv wpsIdESnonce2 (bareNonce byte))).val.take 8 = blankBytes around)
    (bAp : Bool) : ∃ es, es.nonce = bareCopy byte ∧ Settles
      (fun turns => parseM7 hmac turns bAp
        ⟨[], bareSettings wpsIdESnonce2 byte ++ later, dataLength, around⟩ authKey) (.ok (wpsSuccess, es)) := by
  unfold parseM7
  cases bAp with
  | true =>
    simp only [if_true]
    obtain ⟨es, nonce, settled⟩ := @regMsgM7apParse_bare later dataLength around byte hmac authKey right
    exact ⟨.ap es, nonce,
      Settles.map settled (Except.map fun parsed : Nat × EsM7Ap => (parsed.1, EsM7.ap parsed.2))⟩
  | false =>
    simp only [Bool.false_eq_true, if_false]
    have settled := @regMsgM7enrParse_bare later dataLength around byte hmac authKey right
    exact ⟨.enr ⟨bareCopy byte, .unset⟩, rfl,
      Settles.map settled (Except.map fun parsed : Nat × EsM7Enr => (parsed.1, EsM7.enr parsed.2))⟩

/-- A MAC that starts with these bytes. -/
def macOf (bytes : {bytes : Bytes // bytes.length = 8}) : Mac :=
  ⟨bytes.val ++ List.replicate 24 0, by rw [List.length_append, bytes.property, List.length_replicate]⟩

@[simp] theorem take_macOf (bytes : {bytes : Bytes // bytes.length = 8}) :
    (macOf bytes).val.take 8 = bytes.val := List.take_left' bytes.property

/-- A MAC that does not start with a value. -/
def otherMac (value : Bytes) : Mac :=
  if value = List.replicate 8 0 then repeated 32 1
  else repeated 32 0

theorem take_otherMac (value : Bytes) : (otherMac value).val.take 8 ≠ value := by
  unfold otherMac
  split
  · rename_i zero
    rw [zero]
    decide
  · rename_i other
    intro same
    exact other same.symm

theorem nonceData_head (regInfo : RegData) (es psk : Nonce) (byte : UInt8) :
    (nonceData regInfo (overlay es (bareNonce byte)) psk).head? = some byte := by
  simp [nonceData, overlay, bareNonce, List.replicate_succ]

theorem nonceData_injective {regInfo : RegData} {es psk : Nonce} {one two : UInt8}
    (same : nonceData regInfo (overlay es (bareNonce one)) psk =
      nonceData regInfo (overlay es (bareNonce two)) psk) : one = two := by
  have heads := congrArg List.head? same
  rw [nonceData_head, nonceData_head] at heads
  exact Option.some.inj heads

theorem exists_free (fault other : UInt8 → Prop) (one : ∀ x y, fault x → fault y → x = y)
    (two : ∀ x y, other x → other y → x = y) : ∃ byte, byte < 3 ∧ ¬fault byte ∧ ¬other byte := by
  by_contra none_
  have each : ∀ byte, byte < 3 → fault byte ∨ other byte := by
    intro byte small
    by_contra free
    exact none_ ⟨byte, small, not_or.mp free⟩
  rcases each 0 (by decide) with zero | zero <;> rcases each 1 (by decide) with first | first <;>
    rcases each 2 (by decide) with second | second
  · exact absurd (one _ _ zero first) (by decide)
  · exact absurd (one _ _ zero first) (by decide)
  · exact absurd (one _ _ zero second) (by decide)
  · exact absurd (two _ _ first second) (by decide)
  · exact absurd (one _ _ first second) (by decide)
  · exact absurd (two _ _ zero second) (by decide)
  · exact absurd (two _ _ zero first) (by decide)
  · exact absurd (two _ _ zero first) (by decide)

section

variable {msg : BufferObj} {regInfo : RegData} {front : Front}

/-- An M3 that can be checked is accepted for some MAC, and what else the authenticator
might be about has another MAC. -/
theorem m3_acceptable (whole : msg.dataLength = msg.bytes.length)
    (settled : Settles (fun turns => m3Front turns regInfo msg) (.ok (.ok front)))
    (passes : M3Passes regInfo front) (claimed value : Bytes) :
    ∃ hmac, (∃ after, Settles (fun turns => regProtoProcessM3 hmac turns regInfo msg) (.ok (wpsSuccess, after))) ∧
      (claimed ≠ front.hashed regInfo.outMsg → (hmac regInfo.authKey claimed).val.take 8 ≠ value) := by
  obtain ⟨received, read⟩ := received_of_ok passes.checkable.authenticator (front.appendOutMsg regInfo.outMsg)
  let hmac : Hmac := fun _ bytes =>
    if bytes = front.hashed regInfo.outMsg then macOf ⟨received, BufferObj.length_read read⟩
    else otherMac value
  have valid : front.Valid hmac regInfo := by
    rw [Front.Valid, read]
    simp only [hmac, if_true, take_macOf]
  refine ⟨hmac, (m3_accepted_iff whole hmac regInfo).mpr ⟨front, settled, passes, valid⟩, ?_⟩
  intro differs
  simp only [hmac, if_neg differs]
  exact take_otherMac value

/-- An M5 that can be checked is accepted for some MAC and some plain text, and what else
the authenticator might be about has another MAC. -/
theorem m5_acceptable (whole : msg.dataLength = msg.bytes.length)
    (settled : Settles (fun turns => m5Front turns regInfo msg) (.ok (.ok front)))
    (passes : EncrPasses regInfo front) (stale claimed value : Bytes) :
    ∃ hmac decrypt, (∃ after, Settles
        (fun turns => regProtoProcessM5 hmac decrypt turns stale regInfo msg) (.ok (wpsSuccess, after))) ∧
      (claimed ≠ front.hashed regInfo.outMsg → (hmac regInfo.authKey claimed).val.take 8 ≠ value) := by
  have still := (reached_of_settles (m5Front_outcome regInfo msg) settled).whole whole
  obtain ⟨received, read⟩ := received_of_ok passes.checkable.authenticator (front.appendOutMsg regInfo.outMsg)
  let hashed := front.hashed regInfo.outMsg
  let data := fun byte => nonceData regInfo (overlay regInfo.es1 (bareNonce byte)) regInfo.psk1
  obtain ⟨byte, _, free, other⟩ := exists_free (fun byte => data byte = hashed)
    (fun byte => data byte = claimed)
    (fun _ _ one two => nonceData_injective (one.trans two.symm))
    (fun _ _ one two => nonceData_injective (one.trans two.symm))
  let hmac : Hmac := fun _ bytes =>
    if bytes = hashed then macOf ⟨received, BufferObj.length_read read⟩
    else if bytes = data byte then regInfo.eHash1 else otherMac value
  have valid : front.Valid hmac regInfo := by
    rw [Front.Valid, read]
    simp only [hmac, hashed, if_true, take_macOf]
  have known : nonceHash hmac regInfo (overlay regInfo.es1 (bareNonce byte)) regInfo.psk1 = regInfo.eHash1 := by
    change hmac regInfo.authKey (data byte) = regInfo.eHash1
    simp only [hmac, if_neg free, if_true]
  obtain ⟨checked, iff, here⟩ := checkMessage_of passes.checkable still hmac regInfo
  rw [iff.mpr valid] at here
  obtain ⟨behind, dataLength, decrypted, _⟩ := regProtoDecryptData_bare passes.encrSettings wpsIdESnonce1 byte
    regInfo (front.appendOutMsg regInfo.outMsg) stale
  refine ⟨hmac, bareDecrypt wpsIdESnonce1 byte, ⟨{ regInfo with
    es1 := overlay regInfo.es1 (bareNonce byte), inMsg := (front.appendOutMsg regInfo.outMsg).bytes }, ?_⟩, ?_⟩
  · refine Settles.bind settled (Settles.bind (Settles.of_eq here) ?_)
    refine Settles.bind (Settles.of_eq decrypted) ?_
    refine Settles.bind (secretNonce_bare hmac regInfo.authKey (by decide)) ?_
    dsimp only
    rw [if_pos known]
    exact Settles.const _
  · intro differs
    have apart : claimed ≠ hashed := differs
    simp only [hmac, if_neg apart, if_neg (Ne.symm other)]
    exact take_otherMac value

/-- An M7 that can be checked is accepted for some MAC and some plain text, whatever its
authenticator is. -/
theorem m7_acceptable (whole : msg.dataLength = msg.bytes.length)
    (settled : Settles (fun turns => m7Front turns regInfo msg) (.ok (.ok front)))
    (passes : EncrPasses regInfo front) (stale claimed value : Bytes) :
    ∃ hmac decrypt, (∃ after, Settles
        (fun turns => regProtoProcessM7 hmac decrypt turns stale regInfo msg) (.ok (wpsSuccess, after))) ∧
      (hmac regInfo.authKey claimed).val.take 8 ≠ value := by
  have still := (reached_of_settles (m7Front_outcome regInfo msg) settled).whole whole
  let around := (front.appendOutMsg regInfo.outMsg).around
  let data := fun byte => nonceData regInfo (overlay regInfo.es2 (bareNonce byte)) regInfo.psk2
  let settings := fun byte => tlv wpsIdESnonce2 (bareNonce byte)
  obtain ⟨byte, small, other, free⟩ := exists_free (fun byte => data byte = claimed)
    (fun byte => settings byte = claimed)
    (fun _ _ one two => nonceData_injective (one.trans two.symm))
    (fun _ _ one two => by simpa [settings, tlv, bareNonce, List.replicate_succ] using one.trans two.symm)
  have apart : settings byte ≠ data byte := by
    intro same
    have heads := congrArg List.head? same
    rw [nonceData_head] at heads
    have first : (0x10 : UInt8) = byte := Option.some.inj heads
    subst first
    exact absurd small (by decide)
  let hmac : Hmac := fun _ bytes =>
    if bytes = data byte then regInfo.eHash2
    else if bytes = settings byte then macOf ⟨blankBytes around, by simp [blankBytes]⟩ else otherMac value
  have known : nonceHash hmac regInfo (overlay regInfo.es2 (bareNonce byte)) regInfo.psk2 = regInfo.eHash2 := by
    change hmac regInfo.authKey (data byte) = regInfo.eHash2
    simp only [hmac, if_true]
  have right : (hmac regInfo.authKey (settings byte)).val.take 8 = blankBytes around := by
    simp only [hmac, if_neg apart, if_true, take_macOf]
  obtain ⟨checked, _, here⟩ := checkMessage_of passes.checkable still hmac regInfo
  obtain ⟨behind, dataLength, decrypted, counted⟩ := regProtoDecryptData_bare passes.encrSettings
    wpsIdESnonce2 byte regInfo (front.appendOutMsg regInfo.outMsg) stale
  obtain ⟨bAp, found⟩ := settingsOfAp_settles regInfo
    ⟨[], bareSettings wpsIdESnonce2 byte ++ behind, dataLength, around⟩ counted
  obtain ⟨es, nonce, parsed⟩ := @parseM7_bare behind dataLength around byte hmac regInfo.authKey right bAp
  refine ⟨hmac, bareDecrypt wpsIdESnonce2 byte, ⟨({ regInfo with
    bAp := bAp, es2 := overlay regInfo.es2 (bareNonce byte)
    inMsg := (front.appendOutMsg regInfo.outMsg).bytes }, some es), ?_⟩, ?_⟩
  · refine Settles.bind settled (Settles.bind (Settles.of_eq here) ?_)
    refine Settles.bind (Settles.of_eq decrypted) (Settles.bind found (Settles.bind parsed ?_))
    have sized : ¬(bareCopy byte).len ≠ (bareCopy byte).bytes.length := by simp [bareCopy, bareNonce]
    refine Settles.of_eq ?_
    rw [if_neg (by simp), nonce, if_neg sized]
    exact if_pos known
  · simp only [hmac, if_neg (Ne.symm other), if_neg (Ne.symm free)]
    exact take_otherMac value

end

end BcmDhd.Wps
