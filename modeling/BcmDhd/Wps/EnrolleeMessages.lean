import BcmDhd.Wps.EnrolleeSettings

/-! The messages that an enrollee receives: M2, M2D, M6 and M8. -/

namespace BcmDhd.Wps

open BcmDhd.Lib

/-- The error and the message type; the type is 0 if there is none. -/
def regProtoGetMsgType (msg : BufferObj) : Nat × Nat :=
  let version := tlvDserializeByte 0 wpsIdVersion msg
  let msgType := tlvDserializeByte 0 wpsIdMsgType version.buf
  (if version.ok && msgType.ok then wpsSuccess else wpsErrInvalidParameters, msgType.value.toNat)

/-- The code, and the error that the registrar reports. -/
def regProtoProcessM2d (turns : Nat) (regInfo : RegData) (msg : BufferObj) : Except Halt (Nat × Nat) :=
  match regMsgVersionCheck .m2d msg with
  | .error code => .ok (code, 0)
  | .ok b => do
    let enrolleeNonce := tlvDserialize .unset wpsIdEnrolleeNonce b 16
    let registrarNonce := tlvDserialize .unset wpsIdRegistrarNonce enrolleeNonce.buf 16
    let maker := tlvDserializeAll [wpsIdUuidR, wpsIdAuthTypeFlags, wpsIdEncrTypeFlags, wpsIdConnTypeFlags,
      wpsIdConfigMethods, wpsIdManufacturer, wpsIdModelName, wpsIdModelNumber, wpsIdSerialNum] registrarNonce.buf
    let primDeviceType := tlvPrimDeviceTypeParse maker.2
    let device := tlvDserializeAll [wpsIdDeviceName, wpsIdRfBand, wpsIdAssocState] primDeviceType.2
    let configError := tlvDserializeShort 0 wpsIdConfigError device.2
    let _ ← orUnfinished (vendorExtSearch turns regInfo.enrolleeVersion2 configError.buf)
    let same ← confirmNonce regInfo.enrolleeNonce msg enrolleeNonce.value
    if same = false then .ok (rprotErrNonceMismatch, 0)
    else
      let _ ← msg.read registrarNonce.value.data registrarNonce.value.len
      .ok (wpsSuccess, configError.value)

def regProtoProcessM6 (hmac : Hmac) (decrypt : Decrypt) (turns : Nat) (stale : Bytes) (regInfo : RegData)
    (msg : BufferObj) : Except Halt (Nat × RegData) := do
  match ← m6Front turns regInfo msg with
  | .error code => .ok (code, regInfo)
  | .ok front =>
    if front.tlvErr ∨ front.authenticator.ok = false then .ok (rprotErrReqdTlvMissing, regInfo)
    else match ← checkMessage hmac regInfo regInfo.enrolleeNonce front with
    | .error code => .ok (code, regInfo)
    | .ok (false, _) => .ok (rprotErrCrypto, regInfo)
    | .ok (true, msg) =>
      let plainText ← regProtoDecryptData decrypt regInfo msg front.encrSettings stale
      let rNonce ← secretNonce hmac turns wpsIdRSnonce2 plainText regInfo.authKey
      let rs2 := overlay regInfo.rs2 rNonce
      if nonceHash hmac regInfo rs2 regInfo.psk2 = regInfo.rHash2 then
        .ok (wpsSuccess, { regInfo with rs2 := rs2, inMsg := msg.bytes })
      else .ok (rprotErrCrypto, { regInfo with rs2 := rs2 })

/-- The settings are given out where they were read, whatever the code is. -/
def regProtoProcessM8 (hmac : Hmac) (decrypt : Decrypt) (turns : Nat) (stale : Bytes) (regInfo : RegData)
    (msg : BufferObj) : Except Halt (Nat × RegData × Option EsM8) := do
  match ← m8Front turns regInfo msg with
  | .error code => .ok (code, regInfo, none)
  | .ok front =>
    if front.tlvErr ∨ front.authenticator.ok = false then .ok (rprotErrReqdTlvMissing, regInfo, none)
    else match ← checkMessage hmac regInfo regInfo.enrolleeNonce front with
    | .error code => .ok (code, regInfo, none)
    | .ok (false, _) => .ok (rprotErrCrypto, regInfo, none)
    | .ok (true, msg) =>
      let plainText ← regProtoDecryptData decrypt regInfo msg front.encrSettings stale
      let settings ← m8Settings hmac turns regInfo plainText
      let known := if settings.1 = wpsSuccess then { regInfo with inMsg := msg.bytes } else regInfo
      .ok (settings.1, known, settings.2)

/-- AuthKey, KeyWrapKey and EMSK as they are derived, in this order. -/
abbrev DerivedKeys := {keys : Bytes // keys.length = 80}

/-- The key exchange with the public key of an M2 and the key derivation, and in a build
for NFC the checks against what was received out of band. -/
abbrev KeyExchange := (regInfo : RegData) → (msg : BufferObj) → Except Nat DerivedKeys

/-- 192 bytes behind a pointer. -/
def BufferObj.readKey (b : BufferObj) : Ptr → Except Halt PublicKey
  | .null => .error .crash
  | .empty => .ok ⟨(List.range 192).map fun i => if i = 0 then 0 else b.around.blank (i - 1), by simp⟩
  | .inside offset => .ok ⟨b.load offset 192, by simp⟩

/-- A buffer for intermediate data, which is the data of the vendor extension in the
received message until something does not fit in there. -/
structure Scratch where
  place : Option VendorExt
  used : Nat
  msg : BufferObj

def Scratch.reset (scratch : Scratch) : Scratch := { scratch with used := 0 }

def Scratch.append (scratch : Scratch) (bytes : Bytes) : Scratch :=
  match scratch.place with
  | none => scratch
  | some ext =>
    if ext.dataLength - scratch.used < bytes.length then { scratch with place := none }
    else { scratch with
      used := scratch.used + bytes.length
      msg := scratch.msg.store (ext.vendorData + scratch.used) bytes }

/-- The message as key derivation and the HMAC data leave it. -/
def m2Scratch (regInfo : RegData) (front : Front) (keys : DerivedKeys) : BufferObj :=
  let kdkData := (((Scratch.mk front.vendorExt 0 front.buf).append regInfo.enrolleeNonce.val).append
    regInfo.macAddr.val).append regInfo.registrarNonce.val
  (((kdkData.reset.append keys.val).reset).append regInfo.outMsg).msg

/-- Keys go behind those of an earlier M2, and the first ones are used. -/
def RegData.withKeys (regInfo : RegData) (keys : DerivedKeys) : RegData :=
  { regInfo with
    authKey := (regInfo.authKey ++ keys.val.take 32).take 32
    keyWrapKey := (regInfo.keyWrapKey ++ (keys.val.drop 32).take 16).take 16 }

/-- Whether the authenticator is valid for the message as it is left. -/
def checkMac (hmac : Hmac) (regInfo : RegData) (authenticator : TlvPtr) (msg : BufferObj) : Except Halt Bool := do
  if msg.dataLength < 4 + authenticator.len then .error .crash
  else
    let received ← msg.read authenticator.data 8
    .ok ((hmac regInfo.authKey (hmacData regInfo.outMsg msg authenticator.len)).val.take 8 = received)

/-- What follows a valid authenticator: the registrar is noted, and settings are taken. -/
def m2Accepted (hmac : Hmac) (decrypt : Decrypt) (turns : Nat) (stale : Bytes) (regInfo : RegData)
    (front : Front) (uuid : TlvPtr) (msg : BufferObj) : Except Halt (Nat × RegData × Option EsM8) := do
  let bytes ← msg.read uuid.data uuid.len
  let old := regInfo.registrarUuid.getD (repeated 16 0)
  let known := { regInfo with
    registrarUuid := some (overlay old bytes)
    registrarVersion2 := (front.vendorExt.map (version2Of front.buf)).getD 0 }
  if front.encrSettings.encrDataLength = 0 then .ok (wpsSuccess, { known with inMsg := msg.bytes }, none)
  else
    let plainText ← regProtoDecryptData decrypt known msg front.encrSettings stale
    let settings ← m2Settings hmac turns known plainText
    let final := if settings.1 = wpsSuccess then { known with inMsg := msg.bytes } else known
    .ok (settings.1, final, settings.2)

def regProtoProcessM2 (hmac : Hmac) (decrypt : Decrypt) (exchange : KeyExchange) (turns : Nat) (stale : Bytes)
    (regInfo : RegData) (msg : BufferObj) : Except Halt (Nat × RegData × Option EsM8) := do
  match ← m2Front turns regInfo msg with
  | .error code => .ok (code, regInfo, none)
  | .ok front =>
    if front.tlvErr ∨ front.authenticator.ok = false then .ok (rprotErrReqdTlvMissing, regInfo, none)
    else
      let same ← confirmNonce regInfo.enrolleeNonce front.buf front.nonce
      if same = false then .ok (rprotErrNonceMismatch, regInfo, none)
      else match regMsgVersionCheck .m2 msg with
      | .error code => .ok (code, regInfo, none)
      | .ok b =>
        let head := m2Head b
        let registrarNonce ← msg.read head.registrarNonce.data head.registrarNonce.len
        let pkr ← msg.readKey head.publicKey.data
        let known := { regInfo with registrarNonce := overlay regInfo.registrarNonce registrarNonce, pkr := pkr }
        match exchange known msg with
        | .error code => .ok (code, known, none)
        | .ok keys =>
          let left := m2Scratch known front keys
          let known := known.withKeys keys
          let valid ← checkMac hmac known front.authenticator.value left
          if valid = false then .ok (rprotErrCrypto, known, none)
          else m2Accepted hmac decrypt turns stale known front head.uuid left

end BcmDhd.Wps
