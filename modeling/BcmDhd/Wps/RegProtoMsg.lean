import BcmDhd.Wps.Tlv

/-! The settings that M7 and M8 carry encrypted, as they are written and parsed, and
the nonces that M4 to M6 carry. -/

namespace BcmDhd.Wps

open BcmDhd.Lib

/-- So many times one byte. -/
abbrev repeated (count : Nat) (byte : UInt8) : {bytes : Bytes // bytes.length = count} :=
  ⟨List.replicate count byte, List.length_replicate⟩

/-- What HMAC-SHA256 gives: 32 bytes. -/
abbrev Mac := {bytes : Bytes // bytes.length = 32}

theorem length_take_eight (mac : Mac) : (mac.val.take 8).length = 8 := by
  have sized := mac.property
  rw [List.length_take]
  omega

abbrev Nonce := {nonce : Bytes // nonce.length = 16}

/-- `hmac_sha256`, by key and data. -/
abbrev Hmac := (key data : Bytes) → Mac

/-- The network keys and their indices, in the order of their lists. -/
structure NwKeys where
  nwKeyIndex : List UInt8
  nwKey : List TlvCopy
deriving DecidableEq

structure EsM7Ap where
  nonce : TlvCopy
  ssid : TlvCopy
  macAddr : TlvCopy
  authType : Nat
  encrType : Nat
  keys : NwKeys
  /-- Nothing while its `m_len` is 0. -/
  wepIdx : Option UInt8
deriving DecidableEq

structure EsM7Enr where
  nonce : TlvCopy
  idProof : TlvCopy
deriving DecidableEq

structure EsM8Ap where
  nwIndex : Option UInt8
  ssid : TlvCopy
  authType : Nat
  encrType : Nat
  keys : NwKeys
  macAddr : TlvCopy
  newPwd : TlvCopy
  pwdId : Nat
  wepIdx : Option UInt8
deriving DecidableEq

/-- `tlv_write` of a pointer attribute behind what is in the buffer. -/
def tlvWrite (theType : Nat) (value : TlvCopy) (theBuf : Bytes) : Bytes :=
  theBuf ++ wpsHtons theType ++ wpsHtons value.len ++ value.bytes

def tlvWriteByte (theType : Nat) (value : UInt8) (theBuf : Bytes) : Bytes :=
  theBuf ++ tlv theType [value]

def tlvWriteShort (theType : Nat) (value : Nat) (theBuf : Bytes) : Bytes :=
  theBuf ++ tlv theType (wpsHtons value)

/-- The MAC of what has been written goes behind it, with 8 of its bytes. -/
def writeKeyWrapAuth (hmac : Hmac) (authKey theBuf : Bytes) : Bytes :=
  theBuf ++ tlv wpsIdKeyWrapAuth ((hmac authKey theBuf).val.take 8)

/-- Pairs of index and key, as long as there are indices; a missing key ends it. -/
def indexedKeysWrite : List UInt8 → List TlvCopy → Bytes → Bytes × Bool
  | [], _, theBuf => (theBuf, true)
  | _ :: _, [], theBuf => (theBuf, false)
  | index :: indices, key :: keys, theBuf =>
    indexedKeysWrite indices keys (tlvWrite wpsIdNwKey key (tlvWriteByte wpsIdNwKeyIndex index theBuf))

/-- The network keys, and whether writing goes on behind them. -/
def nwKeysWrite (keys : NwKeys) (theBuf : Bytes) : Bytes × Bool :=
  match keys.nwKeyIndex, keys.nwKey with
  | [], [] => (theBuf, false)
  | [], key :: _ => (tlvWrite wpsIdNwKey key theBuf, true)
  | indices, nwKey => indexedKeysWrite indices nwKey theBuf

/-- The WEP index is written unless it is the default. -/
def wepIdxWrite (wepIdx : Option UInt8) (theBuf : Bytes) : Bytes :=
  match wepIdx with
  | some index => if index ≠ 1 then tlvWriteByte wpsIdWepTransmitKey index theBuf else theBuf
  | none => theBuf

def regMsgM7enrWrite (hmac : Hmac) (es : EsM7Enr) (theBuf authKey : Bytes) : Bytes :=
  let nonce := tlvWrite wpsIdESnonce2 es.nonce theBuf
  let settings := if es.idProof.len ≠ 0 then tlvWrite wpsIdIdentityProof es.idProof nonce else nonce
  writeKeyWrapAuth hmac authKey settings

def regMsgM7apWrite (hmac : Hmac) (es : EsM7Ap) (theBuf authKey : Bytes) : Bytes :=
  let nonce := tlvWrite wpsIdESnonce2 es.nonce theBuf
  let ssid := tlvWrite wpsIdSsid es.ssid nonce
  let macAddr := tlvWrite wpsIdMacAddr es.macAddr ssid
  let authType := tlvWriteShort wpsIdAuthType es.authType macAddr
  let encrType := tlvWriteShort wpsIdEncrType es.encrType authType
  let keys := nwKeysWrite es.keys encrType
  if keys.2 then writeKeyWrapAuth hmac authKey (wepIdxWrite es.wepIdx keys.1) else keys.1

/-- The network index is written if it is there, in the first version only. -/
def nwIndexWrite (nwIndex : Option UInt8) (version2 : Bool) (theBuf : Bytes) : Bytes :=
  match nwIndex with
  | some index => if version2 then theBuf else tlvWriteByte wpsIdNwIndex index theBuf
  | none => theBuf

/-- The optional new password with its identifier. -/
def newPwdWrite (newPwd : TlvCopy) (pwdId : Nat) (theBuf : Bytes) : Bytes :=
  if newPwd.len ≠ 0 then tlvWriteShort wpsIdDevicePwdId pwdId (tlvWrite wpsIdNewPwd newPwd theBuf)
  else theBuf

def regMsgM8apWrite (hmac : Hmac) (es : EsM8Ap) (theBuf authKey : Bytes) (version2 : Bool) : Bytes :=
  let ssid := tlvWrite wpsIdSsid es.ssid (nwIndexWrite es.nwIndex version2 theBuf)
  let authType := tlvWriteShort wpsIdAuthType es.authType ssid
  let encrType := tlvWriteShort wpsIdEncrType es.encrType authType
  let keys := nwKeysWrite es.keys encrType
  if keys.2 then
    let macAddr := tlvWrite wpsIdMacAddr es.macAddr keys.1
    let password := newPwdWrite es.newPwd es.pwdId macAddr
    writeKeyWrapAuth hmac authKey (wepIdxWrite es.wepIdx password)
  else keys.1

/-- The keys read so far, whether one of them was cut off, and the place. -/
structure KeyScan where
  failed : Bool
  keys : NwKeys
  buf : BufferObj

/-- One turn of the loop over pairs of index and key. -/
def indexedKeyTurn (scan : KeyScan) : Turn KeyScan KeyScan :=
  if scan.buf.nextType ≠ wpsIdNwKeyIndex then .leave scan
  else
    let index := tlvDserializeByte 0 wpsIdNwKeyIndex scan.buf
    let key := tlvDserializeCopy .unset wpsIdNwKey index.buf 64
    .again
      { failed := scan.failed || !index.ok || !key.ok
        keys := ⟨scan.keys.nwKeyIndex ++ [index.value], scan.keys.nwKey ++ [key.value]⟩
        buf := key.buf }

/-- One key without an index, or pairs of index and key. -/
def nwKeysParse (turns : Nat) (b : BufferObj) : Option KeyScan :=
  if b.nextType = wpsIdNwKey then
    let key := tlvDserializeCopy .unset wpsIdNwKey b 64
    some { failed := !key.ok, keys := ⟨[], [key.value]⟩, buf := key.buf }
  else loopFor indexedKeyTurn turns { failed := false, keys := ⟨[], []⟩, buf := b }

/-- One turn of the loop that takes a WEP index on the way to the authenticator. -/
def wepSkipTurn (scan : UInt8 × BufferObj) : Turn (UInt8 × BufferObj) (UInt8 × Option BufferObj) :=
  if scan.2.nextType = wpsIdKeyWrapAuth then .leave (scan.1, some scan.2)
  else if scan.2.nextType = wpsIdWepTransmitKey then
    let index := tlvDserializeByte scan.1 wpsIdWepTransmitKey scan.2
    .again (index.value, index.buf)
  else match scan.2.advance (4 + scan.2.ntohs 2) with
    | some next => .again (scan.1, next)
    | none => .leave (scan.1, none)

def orUnfinished {α : Type} : Option α → Except Halt α
  | some done => .ok done
  | none => .error .unfinished

/-- Whether the authenticator at the current place could be read, and whether it is the
MAC of the bytes before it. Their number is kept in one byte. -/
def checkKeyWrapAuth (hmac : Hmac) (authKey : Bytes) (b : BufferObj) : Except Halt (Bool × Bool) := do
  let hmacLen := b.pos % 256
  let auth := tlvDserialize .unset wpsIdKeyWrapAuth b 8
  let received ← auth.buf.read auth.value.data 8
  let dataMac := (hmac authKey (b.bytes.take hmacLen)).val.take 8
  .ok (auth.ok, dataMac = received)

/-- The end of parsing the settings of an M7: the code for what was read of them, if the
authenticator was found. -/
def checkSettings {Es : Type} (hmac : Hmac) (authKey : Bytes) (parsed : Bool) (es : Es)
    (found : Option BufferObj) : Except Halt (Nat × Es) :=
  match found with
  | none => .ok (rprotErrReqdTlvMissing, es)
  | some b => do
    let auth ← checkKeyWrapAuth hmac authKey b
    if auth.2 = false then .ok (rprotErrCrypto, es)
    else if parsed && auth.1 then .ok (wpsSuccess, es)
    else .ok (wpsErrGeneric, es)

/-- The encrypted settings of M4, M5 and M6: their nonce, whatever comes of the
authenticator behind it. -/
def regMsgNonceParse (hmac : Hmac) (turns theType : Nat) (theBuf : BufferObj) (authKey : Bytes) :
    Except Halt (Reading TlvPtr) := do
  let nonce := tlvDserialize .unset theType theBuf 16
  match ← orUnfinished (loopFor (skipTurn wpsIdKeyWrapAuth) turns nonce.buf) with
  | none => .ok nonce
  | some b =>
    let _ ← checkKeyWrapAuth hmac authKey b
    .ok nonce

def regMsgM7enrParse (hmac : Hmac) (turns : Nat) (theBuf : BufferObj) (authKey : Bytes) :
    Except Halt (Nat × EsM7Enr) := do
  let nonce := tlvDserializeCopy .unset wpsIdESnonce2 theBuf 16
  let idProof := if nonce.buf.nextType = wpsIdIdentityProof then
    tlvDserializeCopy .unset wpsIdIdentityProof nonce.buf 0 else ⟨true, .unset, nonce.buf⟩
  let es := { nonce := nonce.value, idProof := idProof.value }
  let skipped ← orUnfinished (loopFor (skipTurn wpsIdKeyWrapAuth) turns idProof.buf)
  checkSettings hmac authKey (nonce.ok && idProof.ok) es skipped

def regMsgM7apParse (hmac : Hmac) (turns : Nat) (theBuf : BufferObj) (authKey : Bytes) :
    Except Halt (Nat × EsM7Ap) := do
  let nonce := tlvDserializeCopy .unset wpsIdESnonce2 theBuf 16
  let ssid := tlvDserializeCopy .unset wpsIdSsid nonce.buf 32
  let macAddr := tlvDserializeCopy .unset wpsIdMacAddr ssid.buf 6
  let authType := tlvDserializeShort 0 wpsIdAuthType macAddr.buf
  let encrType := tlvDserializeShort 0 wpsIdEncrType authType.buf
  let scan ← orUnfinished (nwKeysParse turns encrType.buf)
  let skipped ← orUnfinished (loopFor wepSkipTurn turns (1, scan.buf))
  let es : EsM7Ap :=
    { nonce := nonce.value, ssid := ssid.value, macAddr := macAddr.value, authType := authType.value
      encrType := encrType.value, keys := scan.keys, wepIdx := some skipped.1 }
  checkSettings hmac authKey (!scan.failed) es skipped.2

/-- A WEP index that is not one of 1 to 4 becomes 1. -/
def wepIdxClamp (wepIdx : UInt8) : UInt8 := if wepIdx < 1 ∨ 4 < wepIdx then 1 else wepIdx

/-- A network index, which is optional. -/
def nwIndexParse (b : BufferObj) : Reading (Option UInt8) :=
  if b.nextType = wpsIdNwIndex then
    let index := tlvDserializeByte 0 wpsIdNwIndex b
    ⟨index.ok, some index.value, index.buf⟩
  else ⟨true, none, b⟩

/-- A new password, which is optional, with the identifier that it then must have. -/
def newPwdParse (b : BufferObj) : Reading (TlvCopy × Nat) :=
  if b.nextType = wpsIdNewPwd then
    let newPwd := tlvDserializeCopy .unset wpsIdNewPwd b 64
    let pwdId := tlvDserializeShort 0 wpsIdDevicePwdId newPwd.buf
    ⟨newPwd.ok && pwdId.ok, (newPwd.value, pwdId.value), pwdId.buf⟩
  else ⟨true, (.unset, 0), b⟩

def wepIdxParse (b : BufferObj) : Reading UInt8 :=
  if b.nextType = wpsIdWepTransmitKey then tlvDserializeByte 0 wpsIdWepTransmitKey b else ⟨true, 0, b⟩

/-- Past the permitted configuration methods, if they are there. -/
def permCfgMethodsSkip (b : BufferObj) : BufferObj :=
  if b.nextType = wpsIdPermCfgMethods then (b.advance (4 + b.ntohs 2)).getD b else b

/-- What follows the keys in the settings of an M8. They are kept whether or not the
authenticator is found and is right. -/
def m8apParseRest (hmac : Hmac) (turns : Nat) (authKey : Bytes) (es : EsM8Ap) (b : BufferObj) :
    Except Halt EsM8Ap := do
  let macAddr := tlvDserializeCopy .unset wpsIdMacAddr b 6
  let newPwd := newPwdParse macAddr.buf
  let wepIdx := wepIdxParse newPwd.buf
  let es := { es with
    macAddr := macAddr.value, newPwd := newPwd.value.1, pwdId := newPwd.value.2
    wepIdx := some (wepIdxClamp wepIdx.value) }
  match ← orUnfinished (loopFor (skipTurn wpsIdKeyWrapAuth) turns (permCfgMethodsSkip wepIdx.buf)) with
  | none => .ok es
  | some b =>
    let _ ← checkKeyWrapAuth hmac authKey b
    .ok es

def regMsgM8apParse (hmac : Hmac) (turns : Nat) (theBuf : BufferObj) (authKey : Bytes) :
    Except Halt EsM8Ap := do
  let nwIndex := nwIndexParse theBuf
  let ssid := tlvDserializeCopy .unset wpsIdSsid nwIndex.buf 32
  let authType := tlvDserializeShort 0 wpsIdAuthType ssid.buf
  let encrType := tlvDserializeShort 0 wpsIdEncrType authType.buf
  let scan ← orUnfinished (nwKeysParse turns encrType.buf)
  m8apParseRest hmac turns authKey
    { nwIndex := nwIndex.value, ssid := ssid.value, authType := authType.value
      encrType := encrType.value, keys := scan.keys, macAddr := .unset, newPwd := .unset
      pwdId := 0, wepIdx := none } scan.buf

end BcmDhd.Wps
