import BcmDhd.Wps.RegProtoMsg

namespace BcmDhd.Wps

open BcmDhd.Lib

/-- A value as `tlv_set` sets it. -/
def TlvCopy.of (bytes : Bytes) : TlvCopy := ⟨bytes.length, bytes⟩

/-- The settings of a network, each within the bounds of its attribute. -/
structure NetworkSettings where
  ssid : {ssid : Bytes // ssid.length ≤ 32}
  macAddr : {macAddr : Bytes // macAddr.length = 6}
  authType : UInt16
  encrType : UInt16
  nwKeyIndex : List UInt8
  nwKey : List {key : Bytes // key.length ≤ 64}
  wepIdx : Option UInt8

namespace NetworkSettings

def keys (settings : NetworkSettings) : NwKeys :=
  ⟨settings.nwKeyIndex, settings.nwKey.map fun key => .of key.val⟩

def m7 (settings : NetworkSettings) (nonce : Nonce) : EsM7Ap :=
  { nonce := .of nonce.val, ssid := .of settings.ssid.val, macAddr := .of settings.macAddr.val
    authType := settings.authType.toNat, encrType := settings.encrType.toNat
    keys := settings.keys, wepIdx := settings.wepIdx }

def m8 (settings : NetworkSettings) (nwIndex : Option UInt8)
    (newPwd : {newPwd : Bytes // newPwd.length ≤ 64}) (pwdId : UInt16) : EsM8Ap :=
  { nwIndex := nwIndex, ssid := .of settings.ssid.val, authType := settings.authType.toNat
    encrType := settings.encrType.toNat, keys := settings.keys
    macAddr := .of settings.macAddr.val, newPwd := .of newPwd.val, pwdId := pwdId.toNat
    wepIdx := settings.wepIdx }

/-- One key without an index, or as many keys as indices. -/
def Listed (settings : NetworkSettings) : Prop :=
  settings.nwKeyIndex = [] ∧ settings.nwKey.length = 1 ∨
    settings.nwKeyIndex ≠ [] ∧ settings.nwKeyIndex.length = settings.nwKey.length

end NetworkSettings

abbrev NwKey := {key : Bytes // key.length ≤ 64}

def pairBytes : List UInt8 → List NwKey → Bytes
  | index :: indices, key :: keys =>
    tlv wpsIdNwKeyIndex [index] ++ (tlv wpsIdNwKey key.val ++ pairBytes indices keys)
  | _, _ => []

/-- The bytes of the keys that are written. -/
def keyBytes : List UInt8 → List NwKey → Bytes
  | [], [] => []
  | [], key :: _ => tlv wpsIdNwKey key.val
  | indices, keys => pairBytes indices keys

/-- The keys that are written. -/
def keysWritten : List UInt8 → List NwKey → NwKeys
  | [], [] => ⟨[], []⟩
  | [], key :: _ => ⟨[], [.of key.val]⟩
  | indices, keys => ⟨indices.take keys.length, (keys.take indices.length).map fun key => .of key.val⟩

theorem tlvWrite_of (theType : Nat) (bytes theBuf : Bytes) :
    tlvWrite theType (.of bytes) theBuf = theBuf ++ tlv theType bytes := by
  simp [tlvWrite, TlvCopy.of, tlv]

theorem indexedKeysWrite_eq (indices : List UInt8) (keys : List NwKey) (theBuf : Bytes) :
    indexedKeysWrite indices (keys.map fun key => .of key.val) theBuf =
      (theBuf ++ pairBytes indices keys, decide (indices.length ≤ keys.length)) := by
  induction indices generalizing keys theBuf with
  | nil => simp [indexedKeysWrite, pairBytes]
  | cons index indices ih =>
    cases keys with
    | nil => simp [indexedKeysWrite, pairBytes]
    | cons key keys =>
      rw [List.map_cons, indexedKeysWrite, ih, tlvWrite_of]
      simp [pairBytes, tlvWriteByte]

/-- Writing goes on behind the keys if there is one without an index, or one for each. -/
def writesOn (indices : List UInt8) (keys : List NwKey) : Bool :=
  decide (keys ≠ [] ∧ indices.length ≤ keys.length)

theorem nwKeysWrite_eq (indices : List UInt8) (keys : List NwKey) (theBuf : Bytes) :
    nwKeysWrite ⟨indices, keys.map fun key => .of key.val⟩ theBuf =
      (theBuf ++ keyBytes indices keys, writesOn indices keys) := by
  cases indices with
  | nil =>
    cases keys with
    | nil => simp [nwKeysWrite, keyBytes, writesOn]
    | cons key keys => simp [nwKeysWrite, keyBytes, writesOn, tlvWrite_of]
  | cons index indices =>
    change indexedKeysWrite (index :: indices) _ theBuf = _
    rw [indexedKeysWrite_eq]
    cases keys with
    | nil => simp [keyBytes, writesOn]
    | cons key keys => simp [keyBytes, writesOn]

section

variable {dataLength : Nat} {around : Surroundings} {later : Bytes}

/-- The pairs that were written are read, one turn for each. -/
theorem indexedKeys_leaves (indices : List UInt8) (keys : List NwKey) (before : Bytes) (read : NwKeys)
    (stops : ∀ before, BufferObj.nextType ⟨before, later, dataLength, around⟩ ≠ wpsIdNwKeyIndex) :
    Leaves indexedKeyTurn ⟨false, read, ⟨before, pairBytes indices keys ++ later, dataLength, around⟩⟩
      ⟨false, ⟨read.nwKeyIndex ++ indices.take keys.length,
        read.nwKey ++ (keys.take indices.length).map fun key => .of key.val⟩,
        ⟨before ++ pairBytes indices keys, later, dataLength, around⟩⟩ := by
  induction indices generalizing keys before read with
  | nil =>
    apply Loop.leaves_of_leave
    simp [indexedKeyTurn, pairBytes, stops]
  | cons index indices ih =>
    cases keys with
    | nil =>
      apply Loop.leaves_of_leave
      simp [indexedKeyTurn, pairBytes, stops]
    | cons key keys =>
      have rest := ih keys (before ++ tlv wpsIdNwKeyIndex [index] ++ tlv wpsIdNwKey key.val)
        ⟨read.nwKeyIndex ++ [index], read.nwKey ++ [.of key.val]⟩
      simp only [pairBytes, List.append_assoc, List.length_cons, List.take_succ_cons, List.map_cons,
        List.nil_append, List.cons_append] at rest ⊢
      refine Loop.Leaves.back rest ?_
      have limit := key.property
      rw [indexedKeyTurn, nextType_at (by decide)]
      dsimp only
      rw [if_neg (not_not.mpr rfl), tlvDserializeByte_at _ _ (by decide)]
      dsimp only
      rw [tlvDserializeCopy_at _ (by decide) (by omega) (Or.inr limit)]
      simp [TlvCopy.of]

/-- What was written of the keys is read, if no key seems to follow. -/
theorem nwKeysParse_settles (indices : List UInt8) (keys : List NwKey) (before : Bytes)
    (stops : ∀ before, BufferObj.nextType ⟨before, later, dataLength, around⟩ ≠ wpsIdNwKeyIndex ∧
      BufferObj.nextType ⟨before, later, dataLength, around⟩ ≠ wpsIdNwKey) :
    Settles (fun turns => nwKeysParse turns ⟨before, keyBytes indices keys ++ later, dataLength, around⟩)
      (some ⟨false, keysWritten indices keys,
        ⟨before ++ keyBytes indices keys, later, dataLength, around⟩⟩) := by
  have pairs : ∀ indices keys,
      BufferObj.nextType ⟨before, pairBytes indices keys ++ later, dataLength, around⟩ ≠ wpsIdNwKey →
      Settles (fun turns => nwKeysParse turns
          ⟨before, pairBytes indices keys ++ later, dataLength, around⟩)
        (some ⟨false, ⟨indices.take keys.length,
          (keys.take indices.length).map fun key => .of key.val⟩,
          ⟨before ++ pairBytes indices keys, later, dataLength, around⟩⟩) := by
    intro indices keys other
    simp only [nwKeysParse, if_neg other]
    exact Settles.loop (indexedKeys_leaves indices keys before ⟨[], []⟩ fun before => (stops before).1)
  cases indices with
  | nil =>
    cases keys with
    | nil => exact pairs [] [] (stops before).2
    | cons key keys =>
      have limit := key.property
      simp only [nwKeysParse, keyBytes, keysWritten, nextType_at (show wpsIdNwKey < 65536 by decide), if_true]
      rw [tlvDserializeCopy_at _ (by decide) (by omega) (Or.inr limit)]
      exact Settles.const _
  | cons index indices =>
    refine pairs (index :: indices) keys ?_
    cases keys with
    | nil => exact (stops before).2
    | cons key keys =>
      rw [pairBytes, List.append_assoc, nextType_at (by decide)]
      decide

/-- The bytes of a WEP index, which the default has none of. -/
def wepBytes (wepIdx : Option UInt8) : Bytes := wepIdxWrite wepIdx []

theorem wepIdxWrite_eq (wepIdx : Option UInt8) (theBuf : Bytes) :
    wepIdxWrite wepIdx theBuf = theBuf ++ wepBytes wepIdx := by
  cases wepIdx with
  | none => simp [wepBytes, wepIdxWrite]
  | some index =>
    by_cases default_ : index = 1
    · simp [wepBytes, wepIdxWrite, default_]
    · simp [wepBytes, wepIdxWrite, default_, tlvWriteByte]

theorem nextType_wep (wepIdx : Option UInt8) (before auth : Bytes) :
    BufferObj.nextType ⟨before, wepBytes wepIdx ++ (tlv wpsIdKeyWrapAuth auth ++ later),
      dataLength, around⟩ = wpsIdKeyWrapAuth ∨
    BufferObj.nextType ⟨before, wepBytes wepIdx ++ (tlv wpsIdKeyWrapAuth auth ++ later),
      dataLength, around⟩ = wpsIdWepTransmitKey := by
  cases wepIdx with
  | none => exact Or.inl (nextType_at (by decide) auth)
  | some index =>
    by_cases default_ : index = 1
    · rw [default_]
      exact Or.inl (nextType_at (by decide) auth)
    · have bytes : wepBytes (some index) = tlv wpsIdWepTransmitKey [index] := by
        simp [wepBytes, wepIdxWrite, default_, tlvWriteByte]
      rw [bytes]
      exact Or.inr (nextType_at (by decide) [index])

theorem wepSkip_leaves (wepIdx : Option UInt8) (before auth later : Bytes) :
    Leaves wepSkipTurn
      (1, ⟨before, wepBytes wepIdx ++ (tlv wpsIdKeyWrapAuth auth ++ later), dataLength, around⟩)
      (wepIdx.getD 1, some ⟨before ++ wepBytes wepIdx, tlv wpsIdKeyWrapAuth auth ++ later,
        dataLength, around⟩) := by
  have ends : ∀ index before, Leaves wepSkipTurn
      (index, ⟨before, tlv wpsIdKeyWrapAuth auth ++ later, dataLength, around⟩)
      (index, some ⟨before, tlv wpsIdKeyWrapAuth auth ++ later, dataLength, around⟩) := by
    intro index before
    apply Loop.leaves_of_leave
    rw [wepSkipTurn, nextType_at (by decide), if_pos rfl]
  cases wepIdx with
  | none => simpa [wepBytes, wepIdxWrite] using ends 1 before
  | some index =>
    by_cases default_ : index = 1
    · simpa [wepBytes, wepIdxWrite, default_] using ends 1 before
    · have bytes : wepBytes (some index) = tlv wpsIdWepTransmitKey [index] := by
        simp [wepBytes, wepIdxWrite, default_, tlvWriteByte]
      rw [bytes]
      refine Loop.Leaves.back (ends index _) ?_
      rw [wepSkipTurn, nextType_at (by decide), if_neg (by decide), if_pos rfl,
        tlvDserializeByte_at _ _ (by decide)]

/-- The authenticator is right if the bytes counted in one byte have the same MAC. -/
theorem checkKeyWrapAuth_at (hmac : Hmac) (authKey before auth : Bytes) (sized : auth.length = 8) :
    checkKeyWrapAuth hmac authKey
      ⟨before, tlv wpsIdKeyWrapAuth auth ++ later, dataLength, around⟩ =
      .ok (true, decide ((hmac authKey (before.take (before.length % 256))).val.take 8 = auth)) := by
  have some_ : auth ≠ [] := List.ne_nil_of_length_pos (by omega)
  have data : BufferObj.load ⟨before ++ tlv wpsIdKeyWrapAuth auth, later, dataLength, around⟩
      (before.length + 4) 8 = auth := by
    rw [BufferObj.load_inside]
    · have split : before ++ tlv wpsIdKeyWrapAuth auth ++ later =
          (before ++ (wpsHtons wpsIdKeyWrapAuth ++ wpsHtons auth.length)) ++ (auth ++ later) := by
        simp [tlv]
      rw [BufferObj.bytes]
      dsimp only
      rw [split, List.drop_left' (by simp), List.take_left' sized]
    · simp [BufferObj.bytes]
      omega
  have counted : (before ++ (tlv wpsIdKeyWrapAuth auth ++ later)).take (before.length % 256) =
      before.take (before.length % 256) :=
    List.take_append_of_le_length (Nat.mod_le _ _)
  unfold checkKeyWrapAuth
  simp only [tlvDserialize_at _ (show wpsIdKeyWrapAuth < 65536 by decide) (show auth.length < 65536 by omega)
    (Or.inr (show auth.length ≤ 8 by omega)) some_, BufferObj.read, data, BufferObj.pos, BufferObj.bytes,
    counted]
  rfl

/-- The code for settings whose authenticator was found. -/
def authResult (hmac : Hmac) (authKey settings auth : Bytes) : Nat :=
  if (hmac authKey (settings.take (settings.length % 256))).val.take 8 = auth then wpsSuccess
  else rprotErrCrypto

theorem checkSettings_at {Es : Type} (hmac : Hmac) (authKey before auth : Bytes) (es : Es)
    (sized : auth.length = 8) :
    checkSettings hmac authKey true es
      (some ⟨before, tlv wpsIdKeyWrapAuth auth ++ later, dataLength, around⟩) =
      .ok (authResult hmac authKey before auth, es) := by
  unfold checkSettings authResult
  dsimp only
  rw [checkKeyWrapAuth_at _ _ _ _ sized]
  by_cases same : (hmac authKey (before.take (before.length % 256))).val.take 8 = auth
  · rw [decide_eq_true same, if_pos same]
    rfl
  · rw [decide_eq_false same, if_neg same]
    rfl

end

/-- The settings up to the keys. -/
def m7Head (settings : NetworkSettings) (nonce : Nonce) : Bytes :=
  tlv wpsIdESnonce2 nonce.val ++ (tlv wpsIdSsid settings.ssid.val ++
    (tlv wpsIdMacAddr settings.macAddr.val ++
      (tlv wpsIdAuthType (wpsHtons settings.authType.toNat) ++
        (tlv wpsIdEncrType (wpsHtons settings.encrType.toNat) ++
          keyBytes settings.nwKeyIndex settings.nwKey))))

/-- The settings that the authenticator is about. -/
def m7Bytes (settings : NetworkSettings) (nonce : Nonce) : Bytes :=
  m7Head settings nonce ++ wepBytes settings.wepIdx

theorem m7Write_eq (hmac : Hmac) (settings : NetworkSettings) (nonce : Nonce) (authKey : Bytes) :
    regMsgM7apWrite hmac (settings.m7 nonce) [] authKey =
      if writesOn settings.nwKeyIndex settings.nwKey then
        writeKeyWrapAuth hmac authKey (m7Bytes settings nonce)
      else m7Head settings nonce := by
  unfold regMsgM7apWrite
  dsimp only [NetworkSettings.m7, NetworkSettings.keys]
  rw [nwKeysWrite_eq]
  simp only [tlvWrite_of, tlvWriteShort, wepIdxWrite_eq, List.nil_append]
  unfold m7Bytes m7Head
  simp only [List.append_assoc]

section

variable (hmac : Hmac) (settings : NetworkSettings) (nonce : Nonce) (authKey : Bytes)
  (dataLength : Nat) (around : Surroundings)

/-- What the parser has read of the settings when it returns. -/
def m7Read (wepIdx : UInt8) : EsM7Ap :=
  { settings.m7 nonce with
    keys := keysWritten settings.nwKeyIndex settings.nwKey, wepIdx := some wepIdx }

/-- Parsing up to the keys does not depend on what lies behind them. -/
theorem m7Parse_settles (later : Bytes)
    (stops : ∀ before, BufferObj.nextType ⟨before, later, dataLength, around⟩ ≠ wpsIdNwKeyIndex ∧
      BufferObj.nextType ⟨before, later, dataLength, around⟩ ≠ wpsIdNwKey)
    {skipped : UInt8 × Option BufferObj}
    (left : Leaves wepSkipTurn (1, ⟨m7Head settings nonce, later, dataLength, around⟩) skipped) :
    Settles (fun turns => regMsgM7apParse hmac turns
        ⟨[], m7Head settings nonce ++ later, dataLength, around⟩ authKey)
      (checkSettings hmac authKey true (m7Read settings nonce skipped.1) skipped.2) := by
  have whole : m7Head settings nonce ++ later =
      tlv wpsIdESnonce2 nonce.val ++ (tlv wpsIdSsid settings.ssid.val ++
        (tlv wpsIdMacAddr settings.macAddr.val ++
          (tlv wpsIdAuthType (wpsHtons settings.authType.toNat) ++
            (tlv wpsIdEncrType (wpsHtons settings.encrType.toNat) ++
              (keyBytes settings.nwKeyIndex settings.nwKey ++ later))))) := by
    simp [m7Head]
  have head : m7Head settings nonce =
      [] ++ tlv wpsIdESnonce2 nonce.val ++ tlv wpsIdSsid settings.ssid.val ++
        tlv wpsIdMacAddr settings.macAddr.val ++ tlv wpsIdAuthType (wpsHtons settings.authType.toNat) ++
        tlv wpsIdEncrType (wpsHtons settings.encrType.toNat) ++
        keyBytes settings.nwKeyIndex settings.nwKey := by
    simp [m7Head]
  have nonceFits := nonce.property
  have ssidFits := settings.ssid.property
  have macFits := settings.macAddr.property
  rw [head] at left
  rw [whole]
  unfold regMsgM7apParse
  simp only [tlvDserializeCopy_at _ (show wpsIdESnonce2 < 65536 by decide)
      (show nonce.val.length < 65536 by omega) (Or.inr (show nonce.val.length ≤ 16 by omega)),
    tlvDserializeCopy_at _ (show wpsIdSsid < 65536 by decide)
      (show settings.ssid.val.length < 65536 by omega)
      (Or.inr (show settings.ssid.val.length ≤ 32 by omega)),
    tlvDserializeCopy_at _ (show wpsIdMacAddr < 65536 by decide)
      (show settings.macAddr.val.length < 65536 by omega)
      (Or.inr (show settings.macAddr.val.length ≤ 6 by omega)),
    tlvDserializeShort_at _ (show wpsIdAuthType < 65536 by decide) settings.authType.toNat_lt,
    tlvDserializeShort_at _ (show wpsIdEncrType < 65536 by decide) settings.encrType.toNat_lt]
  refine Settles.bind (Settles.map (nwKeysParse_settles _ _ _ stops) orUnfinished) ?_
  refine Settles.bind (Settles.map (Settles.loop left) orUnfinished) ?_
  exact Settles.const _

theorem m7Parse_written (auth slack : Bytes) (sized : auth.length = 8) :
    Settles (fun turns => regMsgM7apParse hmac turns
        ⟨[], m7Bytes settings nonce ++ (tlv wpsIdKeyWrapAuth auth ++ slack), dataLength, around⟩ authKey)
      (.ok (authResult hmac authKey (m7Bytes settings nonce) auth,
        m7Read settings nonce (settings.wepIdx.getD 1))) := by
  have left : Leaves wepSkipTurn (1, ⟨m7Head settings nonce, _, dataLength, around⟩) _ :=
    wepSkip_leaves settings.wepIdx (m7Head settings nonce) auth slack
  have parsed := m7Parse_settles hmac settings nonce authKey dataLength around _ (fun before => by
    rcases nextType_wep settings.wepIdx before auth with type | type
    · rw [type]
      decide
    · rw [type]
      decide) left
  rw [m7Bytes, List.append_assoc]
  rw [checkSettings_at _ _ _ _ _ sized] at parsed
  exact parsed

theorem m7Parse_head :
    Settles (fun turns => regMsgM7apParse hmac turns
        ⟨[], m7Head settings nonce, dataLength, around⟩ authKey)
      (.ok (rprotErrReqdTlvMissing, m7Read settings nonce 1)) := by
  have left : Leaves wepSkipTurn (1, ⟨m7Head settings nonce, [], dataLength, around⟩) (1, none) := by
    apply Loop.leaves_of_leave
    rw [wepSkipTurn, nextType_end, if_neg (by decide), if_neg (by decide)]
    dsimp only
    rw [BufferObj.advance_eq_none.mpr (by simp)]
  have parsed := m7Parse_settles hmac settings nonce authKey dataLength around []
    (fun before => by
      rw [nextType_end]
      decide) left
  rw [List.append_nil] at parsed
  exact parsed

end

abbrev IdentityProof := {idProof : Bytes // idProof.length < 65536}

def m7Enr (nonce : Nonce) (idProof : IdentityProof) : EsM7Enr :=
  { nonce := .of nonce.val, idProof := .of idProof.val }

def idProofBytes (idProof : IdentityProof) : Bytes :=
  if idProof.val = [] then [] else tlv wpsIdIdentityProof idProof.val

def m7EnrBytes (nonce : Nonce) (idProof : IdentityProof) : Bytes :=
  tlv wpsIdESnonce2 nonce.val ++ idProofBytes idProof

theorem m7EnrWrite_eq (hmac : Hmac) (nonce : Nonce) (idProof : IdentityProof) (authKey : Bytes) :
    regMsgM7enrWrite hmac (m7Enr nonce idProof) [] authKey =
      writeKeyWrapAuth hmac authKey (m7EnrBytes nonce idProof) := by
  unfold regMsgM7enrWrite m7EnrBytes idProofBytes
  simp only [m7Enr, tlvWrite_of, List.nil_append]
  by_cases none_ : idProof.val = []
  · simp [TlvCopy.of, none_]
  · simp [TlvCopy.of, none_]

theorem m7EnrParse_written (hmac : Hmac) (nonce : Nonce) (idProof : IdentityProof) (authKey auth slack : Bytes)
    (dataLength : Nat) (around : Surroundings) (sized : auth.length = 8) :
    Settles (fun turns => regMsgM7enrParse hmac turns
        ⟨[], m7EnrBytes nonce idProof ++ (tlv wpsIdKeyWrapAuth auth ++ slack), dataLength, around⟩ authKey)
      (.ok (authResult hmac authKey (m7EnrBytes nonce idProof) auth, m7Enr nonce idProof)) := by
  have nonceFits := nonce.property
  have proofFits := idProof.property
  have checked : ∀ before, checkSettings hmac authKey true (m7Enr nonce idProof)
      (some ⟨before, tlv wpsIdKeyWrapAuth auth ++ slack, dataLength, around⟩) =
      .ok (authResult hmac authKey before auth, m7Enr nonce idProof) :=
    fun before => checkSettings_at hmac authKey before auth _ sized
  rw [m7EnrBytes, List.append_assoc]
  unfold regMsgM7enrParse
  rw [tlvDserializeCopy_at _ (by decide) (by omega) (Or.inr (by omega))]
  dsimp only
  by_cases none_ : idProof.val = []
  · have bytes : idProofBytes idProof = [] := if_pos none_
    have read : (⟨⟨nonce.val.length, nonce.val⟩, .unset⟩ : EsM7Enr) = m7Enr nonce idProof := by
      simp [m7Enr, TlvCopy.of, TlvCopy.unset, none_]
    rw [bytes]
    simp only [List.nil_append, List.append_nil]
    rw [nextType_at (by decide), if_neg (by decide)]
    refine Settles.bind (Settles.map (Settles.loop (skip_here (by decide) auth)) orUnfinished) ?_
    rw [read]
    exact checked _ ▸ Settles.const _
  · have bytes : idProofBytes idProof = tlv wpsIdIdentityProof idProof.val := if_neg none_
    rw [bytes, nextType_at (by decide), if_pos rfl,
      tlvDserializeCopy_at _ (by decide) proofFits (Or.inl rfl)]
    refine Settles.bind (Settles.map (Settles.loop (skip_here (by decide) auth)) orUnfinished) ?_
    exact checked _ ▸ Settles.const _

abbrev NewPassword := {newPwd : Bytes // newPwd.length ≤ 64}

def nwIndexBytes (nwIndex : Option UInt8) (version2 : Bool) : Bytes := nwIndexWrite nwIndex version2 []

def pwdBytes (newPwd : NewPassword) (pwdId : UInt16) : Bytes :=
  if newPwd.val = [] then []
  else tlv wpsIdNewPwd newPwd.val ++ tlv wpsIdDevicePwdId (wpsHtons pwdId.toNat)

theorem newPwdWrite_eq (newPwd : NewPassword) (pwdId : UInt16) (theBuf : Bytes) :
    newPwdWrite (.of newPwd.val) pwdId.toNat theBuf = theBuf ++ pwdBytes newPwd pwdId := by
  by_cases none_ : newPwd.val = []
  · simp [newPwdWrite, pwdBytes, TlvCopy.of, none_]
  · have some_ : (TlvCopy.of newPwd.val).len ≠ 0 := by simp [TlvCopy.of, none_]
    rw [newPwdWrite, if_pos some_, pwdBytes, if_neg none_, tlvWrite_of, tlvWriteShort, List.append_assoc]

/-- The settings up to the keys. -/
def m8Head (settings : NetworkSettings) (nwIndex : Option UInt8) (version2 : Bool) : Bytes :=
  nwIndexBytes nwIndex version2 ++ (tlv wpsIdSsid settings.ssid.val ++
    (tlv wpsIdAuthType (wpsHtons settings.authType.toNat) ++
      (tlv wpsIdEncrType (wpsHtons settings.encrType.toNat) ++
        keyBytes settings.nwKeyIndex settings.nwKey)))

/-- The settings behind the keys. -/
def m8Tail (settings : NetworkSettings) (newPwd : NewPassword) (pwdId : UInt16) : Bytes :=
  tlv wpsIdMacAddr settings.macAddr.val ++ (pwdBytes newPwd pwdId ++ wepBytes settings.wepIdx)

theorem m8Write_eq (hmac : Hmac) (settings : NetworkSettings) (nwIndex : Option UInt8)
    (newPwd : NewPassword) (pwdId : UInt16) (authKey : Bytes) (version2 : Bool) :
    regMsgM8apWrite hmac (settings.m8 nwIndex newPwd pwdId) [] authKey version2 =
      if writesOn settings.nwKeyIndex settings.nwKey then
        writeKeyWrapAuth hmac authKey (m8Head settings nwIndex version2 ++ m8Tail settings newPwd pwdId)
      else m8Head settings nwIndex version2 := by
  unfold regMsgM8apWrite
  dsimp only [NetworkSettings.m8, NetworkSettings.keys]
  rw [nwKeysWrite_eq]
  simp only [tlvWrite_of, tlvWriteShort, wepIdxWrite_eq, newPwdWrite_eq]
  unfold m8Head m8Tail nwIndexBytes
  simp only [List.append_assoc]

section

variable {dataLength : Nat} {around : Surroundings} {later : Bytes}

theorem nwIndexParse_at (nwIndex : Option UInt8) (version2 : Bool)
    (other : ∀ before, BufferObj.nextType ⟨before, later, dataLength, around⟩ ≠ wpsIdNwIndex) :
    nwIndexParse ⟨[], nwIndexBytes nwIndex version2 ++ later, dataLength, around⟩ =
      ⟨true, if version2 then none else nwIndex,
        ⟨nwIndexBytes nwIndex version2, later, dataLength, around⟩⟩ := by
  have absent : nwIndexParse ⟨[], later, dataLength, around⟩ =
      ⟨true, none, ⟨[], later, dataLength, around⟩⟩ := if_neg (other [])
  cases nwIndex with
  | none => simpa [nwIndexBytes, nwIndexWrite] using absent
  | some index =>
    cases version2 with
    | true => simpa [nwIndexBytes, nwIndexWrite] using absent
    | false =>
      have bytes : nwIndexBytes (some index) false = tlv wpsIdNwIndex [index] := rfl
      rw [bytes, nwIndexParse, nextType_at (by decide), if_pos rfl, tlvDserializeByte_at _ _ (by decide)]
      rfl

theorem newPwdParse_at (newPwd : NewPassword) (pwdId : UInt16) (before : Bytes)
    (other : BufferObj.nextType ⟨before, later, dataLength, around⟩ ≠ wpsIdNewPwd) :
    newPwdParse ⟨before, pwdBytes newPwd pwdId ++ later, dataLength, around⟩ =
      ⟨true, (.of newPwd.val, if newPwd.val = [] then 0 else pwdId.toNat),
        ⟨before ++ pwdBytes newPwd pwdId, later, dataLength, around⟩⟩ := by
  have limit := newPwd.property
  by_cases none_ : newPwd.val = []
  · have bytes : pwdBytes newPwd pwdId = [] := if_pos none_
    rw [bytes, List.nil_append, List.append_nil, newPwdParse, if_neg other, if_pos none_, none_]
    rfl
  · have bytes : pwdBytes newPwd pwdId =
        tlv wpsIdNewPwd newPwd.val ++ tlv wpsIdDevicePwdId (wpsHtons pwdId.toNat) := if_neg none_
    rw [bytes, List.append_assoc, newPwdParse, nextType_at (by decide), if_pos rfl,
      tlvDserializeCopy_at _ (by decide) (by omega) (Or.inr limit), if_neg none_]
    dsimp only
    rw [tlvDserializeShort_at _ (by decide) pwdId.toNat_lt, List.append_assoc]
    rfl

theorem wepIdxParse_at (wepIdx : Option UInt8) (before : Bytes)
    (other : BufferObj.nextType ⟨before, later, dataLength, around⟩ ≠ wpsIdWepTransmitKey) :
    ∃ read, wepIdxParse ⟨before, wepBytes wepIdx ++ later, dataLength, around⟩ =
      ⟨true, read, ⟨before ++ wepBytes wepIdx, later, dataLength, around⟩⟩ ∧
      wepIdxClamp read = wepIdxClamp (wepIdx.getD 1) := by
  have absent : wepIdxParse ⟨before, later, dataLength, around⟩ =
      ⟨true, 0, ⟨before, later, dataLength, around⟩⟩ := if_neg other
  cases wepIdx with
  | none => exact ⟨0, by simpa [wepBytes, wepIdxWrite] using absent, rfl⟩
  | some index =>
    by_cases default_ : index = 1
    · exact ⟨0, by simpa [wepBytes, wepIdxWrite, default_] using absent, by rw [default_]; rfl⟩
    · refine ⟨index, ?_, rfl⟩
      have bytes : wepBytes (some index) = tlv wpsIdWepTransmitKey [index] := by
        simp [wepBytes, wepIdxWrite, default_, tlvWriteByte]
      rw [bytes, wepIdxParse, nextType_at (by decide), if_pos rfl, tlvDserializeByte_at _ _ (by decide)]

end

section

variable (hmac : Hmac) (settings : NetworkSettings) (nwIndex : Option UInt8) (newPwd : NewPassword)
  (pwdId : UInt16) (version2 : Bool) (authKey : Bytes) (dataLength : Nat) (around : Surroundings)

/-- What the parser has read of the settings when it comes behind the keys. -/
def m8KeysRead : EsM8Ap :=
  { nwIndex := if version2 then none else nwIndex, ssid := .of settings.ssid.val
    authType := settings.authType.toNat, encrType := settings.encrType.toNat
    keys := keysWritten settings.nwKeyIndex settings.nwKey, macAddr := .unset, newPwd := .unset
    pwdId := 0, wepIdx := none }

/-- What the parser has read of the settings when it returns. -/
def m8Read : EsM8Ap :=
  { m8KeysRead settings nwIndex version2 with
    macAddr := .of settings.macAddr.val, newPwd := .of newPwd.val
    pwdId := if newPwd.val = [] then 0 else pwdId.toNat
    wepIdx := some (wepIdxClamp (settings.wepIdx.getD 1)) }

/-- Parsing up to the keys does not depend on what lies behind them. -/
theorem m8Parse_settles {later : Bytes} {es : EsM8Ap}
    (stops : ∀ before, BufferObj.nextType ⟨before, later, dataLength, around⟩ ≠ wpsIdNwKeyIndex ∧
      BufferObj.nextType ⟨before, later, dataLength, around⟩ ≠ wpsIdNwKey)
    (parsed : Settles (fun turns => m8apParseRest hmac turns authKey (m8KeysRead settings nwIndex version2)
        ⟨m8Head settings nwIndex version2, later, dataLength, around⟩) (.ok es)) :
    Settles (fun turns => regMsgM8apParse hmac turns
        ⟨[], m8Head settings nwIndex version2 ++ later, dataLength, around⟩ authKey) (.ok es) := by
  have whole : m8Head settings nwIndex version2 ++ later =
      nwIndexBytes nwIndex version2 ++ (tlv wpsIdSsid settings.ssid.val ++
        (tlv wpsIdAuthType (wpsHtons settings.authType.toNat) ++
          (tlv wpsIdEncrType (wpsHtons settings.encrType.toNat) ++
            (keyBytes settings.nwKeyIndex settings.nwKey ++ later)))) := by
    simp [m8Head]
  have head : m8Head settings nwIndex version2 =
      nwIndexBytes nwIndex version2 ++ tlv wpsIdSsid settings.ssid.val ++
        tlv wpsIdAuthType (wpsHtons settings.authType.toNat) ++
        tlv wpsIdEncrType (wpsHtons settings.encrType.toNat) ++
        keyBytes settings.nwKeyIndex settings.nwKey := by
    simp [m8Head]
  have ssidFits := settings.ssid.property
  rw [head] at parsed
  rw [whole]
  unfold regMsgM8apParse
  rw [nwIndexParse_at nwIndex version2 (fun before => by
    rw [nextType_at (by decide)]
    decide)]
  simp only [tlvDserializeCopy_at _ (show wpsIdSsid < 65536 by decide)
      (show settings.ssid.val.length < 65536 by omega)
      (Or.inr (show settings.ssid.val.length ≤ 32 by omega)),
    tlvDserializeShort_at _ (show wpsIdAuthType < 65536 by decide) settings.authType.toNat_lt,
    tlvDserializeShort_at _ (show wpsIdEncrType < 65536 by decide) settings.encrType.toNat_lt]
  refine Settles.bind (Settles.map (nwKeysParse_settles _ _ _ stops) orUnfinished) ?_
  exact parsed

/-- The settings with their authenticator are read, whatever lies behind them and
whether or not it is right. -/
theorem m8Parse_written (auth slack : Bytes) (sized : auth.length = 8) :
    Settles (fun turns => regMsgM8apParse hmac turns
        ⟨[], m8Head settings nwIndex version2 ++ m8Tail settings newPwd pwdId ++
          (tlv wpsIdKeyWrapAuth auth ++ slack), dataLength, around⟩ authKey)
      (.ok (m8Read settings nwIndex newPwd pwdId version2)) := by
  have macFits := settings.macAddr.property
  have wep : ∀ before, BufferObj.nextType ⟨before, wepBytes settings.wepIdx ++
      (tlv wpsIdKeyWrapAuth auth ++ slack), dataLength, around⟩ ≠ wpsIdNewPwd := by
    intro before
    rcases nextType_wep settings.wepIdx before auth with type | type
    · rw [type]
      decide
    · rw [type]
      decide
  rw [List.append_assoc, m8Tail]
  simp only [List.append_assoc]
  apply m8Parse_settles
  · intro before
    rw [nextType_at (by decide)]
    decide
  unfold m8apParseRest
  rw [tlvDserializeCopy_at _ (by decide) (by omega) (Or.inr (by omega))]
  dsimp only
  rw [newPwdParse_at newPwd pwdId _ (wep _)]
  have stop : ∀ before, BufferObj.nextType
      ⟨before, tlv wpsIdKeyWrapAuth auth ++ slack, dataLength, around⟩ ≠ wpsIdWepTransmitKey := by
    intro before
    rw [nextType_at (by decide)]
    decide
  obtain ⟨read, parsed, clamped⟩ := wepIdxParse_at settings.wepIdx _ (stop _)
  rw [parsed]
  dsimp only
  have behind : ∀ before, permCfgMethodsSkip ⟨before, tlv wpsIdKeyWrapAuth auth ++ slack, dataLength, around⟩ =
      ⟨before, tlv wpsIdKeyWrapAuth auth ++ slack, dataLength, around⟩ := by
    intro before
    rw [permCfgMethodsSkip, nextType_at (by decide), if_neg (by decide)]
  rw [behind]
  refine Settles.bind (Settles.map (Settles.loop (skip_here (by decide) auth)) orUnfinished) ?_
  dsimp only
  rw [checkKeyWrapAuth_at _ _ _ _ sized, clamped]
  exact Settles.const _

theorem m8Parse_head : ∃ es, es.macAddr = .unset ∧
    Settles (fun turns => regMsgM8apParse hmac turns
        ⟨[], m8Head settings nwIndex version2, dataLength, around⟩ authKey) (.ok es) := by
  have skip : ∀ before, Leaves (skipTurn wpsIdKeyWrapAuth) ⟨before, [], dataLength, around⟩ none := by
    intro before
    apply Loop.leaves_of_leave
    rw [skipTurn, nextType_end, if_neg (by decide), BufferObj.advance_eq_none.mpr (by simp)]
  refine ⟨{ m8KeysRead settings nwIndex version2 with wepIdx := some 1 }, rfl, ?_⟩
  rw [← List.append_nil (m8Head settings nwIndex version2)]
  apply m8Parse_settles
  · intro before
    rw [nextType_end]
    decide
  · exact Settles.bind (Settles.map (Settles.loop (skip _)) orUnfinished) (Settles.const _)

end

end BcmDhd.Wps
