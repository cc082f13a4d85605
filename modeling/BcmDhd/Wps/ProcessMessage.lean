import BcmDhd.Wps.MessageFront

/-! Checking received messages: their nonces, their authenticator, and the hashes that
reveal what a party knew before. -/

namespace BcmDhd.Wps

open BcmDhd.Lib

/-- `rijndael` decryption of whole blocks, by key, initialisation vector and cipher text. -/
abbrev Decrypt := (key iv cipherText : Bytes) → {plain : Bytes // plain.length = cipherText.length}

/-- Writing over bytes of a buffer. -/
def BufferObj.store (b : BufferObj) (offset : Nat) (bytes : Bytes) : BufferObj :=
  let whole := b.bytes.take offset ++ bytes ++ b.bytes.drop (offset + bytes.length)
  { b with before := whole.take b.pos, rest := whole.drop b.pos }

/-- 32 bytes behind a pointer. -/
def BufferObj.readMac (b : BufferObj) : Ptr → Except Halt Mac
  | .null => .error .crash
  | .empty => .ok ⟨(List.range 32).map fun i => if i = 0 then 0 else b.around.blank (i - 1), by simp⟩
  | .inside offset => .ok ⟨b.load offset 32, by simp⟩

/-- A copy of at most 16 bytes over a nonce. -/
def overlay (nonce : Nonce) (bytes : Bytes) : Nonce :=
  ⟨(bytes ++ nonce.val.drop bytes.length).take 16, by
    have sized := nonce.property
    rw [List.length_take, List.length_append, List.length_drop]
    omega⟩

/-- `memcmp` with a nonce over as many bytes as the received attribute has. -/
def confirmNonce (nonce : Nonce) (msg : BufferObj) (received : TlvPtr) : Except Halt Bool := do
  let bytes ← msg.read received.data received.len
  .ok (nonce.val.take received.len = bytes)

/-- Version, type and both nonces of a message without authenticator, and the place
behind the nonces. -/
def bothNonces (msgId : Message) (msg : BufferObj) : Except Nat (TlvPtr × Reading TlvPtr) :=
  (regMsgVersionCheck msgId msg).map fun b =>
    let enrolleeNonce := tlvDserialize .unset wpsIdEnrolleeNonce b 16
    (enrolleeNonce.value, tlvDserialize .unset wpsIdRegistrarNonce enrolleeNonce.buf 16)

/-- The message is right if both nonces are; the vendor extension is only looked for. -/
def confirmNonces (turns : Nat) (regInfo : RegData) (msg : BufferObj) (nonces : TlvPtr × TlvPtr) :
    Except Halt Nat := do
  let _ ← orUnfinished (vendorExtSearch turns regInfo.devInfoVersion2 msg)
  let enrollee ← confirmNonce regInfo.enrolleeNonce msg nonces.1
  if enrollee = false then .ok rprotErrNonceMismatch
  else
    let registrar ← confirmNonce regInfo.registrarNonce msg nonces.2
    .ok (if registrar then wpsSuccess else rprotErrNonceMismatch)

def regProtoProcessDone (turns : Nat) (regInfo : RegData) (msg : BufferObj) : Except Halt Nat :=
  match bothNonces .done msg with
  | .error code => .ok code
  | .ok nonces => confirmNonces turns regInfo msg (nonces.1, nonces.2.value)

def regProtoProcessAck (turns : Nat) (regInfo : RegData) (msg : BufferObj) : Except Halt Nat :=
  match bothNonces .ack msg with
  | .error code => .ok code
  | .ok nonces => confirmNonces turns regInfo msg (nonces.1, nonces.2.value)

/-- Also gives the error that the message carries, if it is accepted. -/
def regProtoProcessNack (turns : Nat) (regInfo : RegData) (msg : BufferObj) :
    Except Halt (Nat × Option Nat) :=
  match bothNonces .nack msg with
  | .error code => .ok (code, none)
  | .ok nonces => do
    let configError := tlvDserializeShort 0 wpsIdConfigError nonces.2.buf
    let code ← confirmNonces turns regInfo msg (nonces.1, nonces.2.value)
    .ok (code, if code = wpsSuccess then some configError.value else none)

def Front.authenticator (front : Front) : Reading TlvPtr :=
  tlvDserialize .unset wpsIdAuthenticator front.buf 8

/-- Putting the last message sent in front of the HMAC data. These have the buffer of the
vendor extension if there was one: where its data is long enough, the message goes over
the data in the received message. -/
def Front.appendOutMsg (front : Front) (outMsg : Bytes) : BufferObj :=
  match front.vendorExt with
  | some ext =>
    if outMsg.length ≤ ext.dataLength then front.buf.store ext.vendorData outMsg else front.buf
  | none => front.buf

/-- The last message sent and the received one up to its last attribute. -/
def hmacData (outMsg : Bytes) (msg : BufferObj) (authenticatorLen : Nat) : Bytes :=
  outMsg ++ msg.bytes.take (msg.dataLength - (4 + authenticatorLen))

/-- Whether the authenticator is valid, after the nonce was confirmed, with the message as
it is left. -/
def checkMessage (hmac : Hmac) (regInfo : RegData) (nonce : Nonce) (front : Front) :
    Except Halt (Except Nat (Bool × BufferObj)) := do
  let same ← confirmNonce nonce front.buf front.nonce
  if same = false then .ok (.error rprotErrNonceMismatch)
  else
    let authenticator := front.authenticator.value
    let msg := front.appendOutMsg regInfo.outMsg
    -- a length that is too large leaves a negative number of bytes to copy
    if msg.dataLength < 4 + authenticator.len then .error .crash
    else
      let received ← msg.read authenticator.data 8
      let dataMac := hmac regInfo.authKey (hmacData regInfo.outMsg msg authenticator.len)
      .ok (.ok (dataMac.val.take 8 = received, msg))

def regProtoProcessM3 (hmac : Hmac) (turns : Nat) (regInfo : RegData) (msg : BufferObj) :
    Except Halt (Nat × RegData) := do
  match ← m3Front turns regInfo msg with
  | .error code => .ok (code, regInfo)
  | .ok front =>
    match ← checkMessage hmac regInfo regInfo.registrarNonce front with
    | .error code => .ok (code, regInfo)
    | .ok (false, _) => .ok (rprotErrCrypto, regInfo)
    | .ok (true, msg) =>
      let eHash1 ← msg.readMac front.hash1.data
      let eHash2 ← msg.readMac front.hash2.data
      .ok (wpsSuccess, { regInfo with eHash1 := eHash1, eHash2 := eHash2, inMsg := msg.bytes })

/-- `reg_proto_decrypt_data`: the plain text without its padding, in front of what its
buffer held before. -/
def regProtoDecryptData (decrypt : Decrypt) (regInfo : RegData) (msg : BufferObj) (encr : EncrSettings)
    (stale : Bytes) : Except Halt BufferObj :=
  match encr.iv with
  | none => .error .crash
  | some iv =>
    if encr.encrDataLength % 16 ≠ 0 ∨ encr.encrDataLength < 16 ∨ 1024 < encr.encrDataLength then
      .error .crash
    else
      let plain := (decrypt regInfo.keyWrapKey (msg.load iv 16) (msg.load (iv + 16) encr.encrDataLength)).val
      let padding := (plain.getLast?.getD 0).toNat
      if plain.length < padding then .error .crash
      else
        let plainText := plain.take (plain.length - padding)
        .ok ⟨[], plainText ++ stale, plainText.length, msg.around⟩

def nonceData (regInfo : RegData) (snonce psk : Nonce) : Bytes :=
  snonce.val ++ psk.val ++ regInfo.pke.val ++ regInfo.pkr.val

/-- The hash that a party gave in M3 or M4 for a nonce and a part of the password. -/
def nonceHash (hmac : Hmac) (regInfo : RegData) (snonce psk : Nonce) : Mac :=
  hmac regInfo.authKey (nonceData regInfo snonce psk)

/-- The secret nonce of a message. One that could not be read leaves a pointer that was
never set. -/
def secretNonce (hmac : Hmac) (turns theType : Nat) (plainText : BufferObj) (authKey : Bytes) :
    Except Halt Bytes := do
  let nonce ← regMsgNonceParse hmac turns theType plainText authKey
  if nonce.ok = false then .error .crash else plainText.read nonce.value.data nonce.value.len

def regProtoProcessM4 (hmac : Hmac) (decrypt : Decrypt) (turns : Nat) (stale : Bytes) (regInfo : RegData)
    (msg : BufferObj) : Except Halt (Nat × RegData) := do
  match ← m4Front turns regInfo msg with
  | .error code => .ok (code, regInfo)
  | .ok front =>
    if front.tlvErr ∨ front.authenticator.ok = false then .ok (rprotErrReqdTlvMissing, regInfo)
    else match ← checkMessage hmac regInfo regInfo.enrolleeNonce front with
    | .error code => .ok (code, regInfo)
    | .ok (false, _) => .ok (rprotErrCrypto, regInfo)
    | .ok (true, msg) =>
      let rHash1 ← msg.readMac front.hash1.data
      let rHash2 ← msg.readMac front.hash2.data
      let plainText ← regProtoDecryptData decrypt regInfo msg front.encrSettings stale
      let rNonce ← secretNonce hmac turns wpsIdRSnonce1 plainText regInfo.authKey
      let rs1 := overlay regInfo.rs1 rNonce
      let known := { regInfo with rHash1 := rHash1, rHash2 := rHash2, rs1 := rs1 }
      if nonceHash hmac regInfo rs1 regInfo.psk1 = rHash1 then
        .ok (wpsSuccess, { known with inMsg := msg.bytes })
      else .ok (rprotErrCrypto, known)

def regProtoProcessM5 (hmac : Hmac) (decrypt : Decrypt) (turns : Nat) (stale : Bytes) (regInfo : RegData)
    (msg : BufferObj) : Except Halt (Nat × RegData) := do
  match ← m5Front turns regInfo msg with
  | .error code => .ok (code, regInfo)
  | .ok front =>
    match ← checkMessage hmac regInfo regInfo.registrarNonce front with
    | .error code => .ok (code, regInfo)
    | .ok (false, _) => .ok (rprotErrCrypto, regInfo)
    | .ok (true, msg) =>
      let plainText ← regProtoDecryptData decrypt regInfo msg front.encrSettings stale
      let eNonce ← secretNonce hmac turns wpsIdESnonce1 plainText regInfo.authKey
      let es1 := overlay regInfo.es1 eNonce
      if nonceHash hmac regInfo es1 regInfo.psk1 = regInfo.eHash1 then
        .ok (wpsSuccess, { regInfo with es1 := es1, inMsg := msg.bytes })
      else .ok (rprotErrCrypto, { regInfo with es1 := es1 })

/-- The settings of an M7, of an access point or of a station. -/
inductive EsM7
  | ap (es : EsM7Ap)
  | enr (es : EsM7Enr)
deriving DecidableEq

def EsM7.nonce : EsM7 → TlvCopy
  | .ap es => es.nonce
  | .enr es => es.nonce

/-- An access point whose settings have no SSID is taken for a station. -/
def settingsOfAp (turns : Nat) (regInfo : RegData) (plainText : BufferObj) : Option Bool :=
  if regInfo.bAp = false then some false
  else if plainText.dataLength = 0 then some false
  else (loopFor (findTurn wpsIdSsid) turns (plainText.rewind, plainText.dataLength)).map fun found =>
    found.any fun b => (tlvDserialize .unset wpsIdSsid b 32).ok

def parseM7 (hmac : Hmac) (turns : Nat) (bAp : Bool) (plainText : BufferObj) (authKey : Bytes) :
    Except Halt (Nat × EsM7) :=
  if bAp then (regMsgM7apParse hmac turns plainText authKey).map fun parsed => (parsed.1, .ap parsed.2)
  else (regMsgM7enrParse hmac turns plainText authKey).map fun parsed => (parsed.1, .enr parsed.2)

/-- The settings are given out if the message is accepted. A wrong authenticator is noted
as an error and then forgotten. -/
def regProtoProcessM7 (hmac : Hmac) (decrypt : Decrypt) (turns : Nat) (stale : Bytes) (regInfo : RegData)
    (msg : BufferObj) : Except Halt (Nat × RegData × Option EsM7) := do
  match ← m7Front turns regInfo msg with
  | .error code => .ok (code, regInfo, none)
  | .ok front =>
    match ← checkMessage hmac regInfo regInfo.registrarNonce front with
    | .error code => .ok (code, regInfo, none)
    | .ok (_, msg) =>
      let plainText ← regProtoDecryptData decrypt regInfo msg front.encrSettings stale
      let bAp ← orUnfinished (settingsOfAp turns regInfo plainText)
      let regInfo := { regInfo with bAp := bAp }
      let parsed ← parseM7 hmac turns bAp plainText regInfo.authKey
      if parsed.1 ≠ wpsSuccess then .ok (parsed.1, regInfo, none)
      else if parsed.2.nonce.len ≠ parsed.2.nonce.bytes.length then .error .crash
      else
        let es2 := overlay regInfo.es2 parsed.2.nonce.bytes
        if nonceHash hmac regInfo es2 regInfo.psk2 = regInfo.eHash2 then
          .ok (wpsSuccess, { regInfo with es2 := es2, inMsg := msg.bytes }, some parsed.2)
        else .ok (rprotErrCrypto, { regInfo with es2 := es2 }, none)

end BcmDhd.Wps
