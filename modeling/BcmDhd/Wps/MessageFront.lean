import BcmDhd.Wps.RegProtoMsg

/-! Taking a received message apart, up to its authenticator. -/

namespace BcmDhd.Wps

open BcmDhd.Lib

def wpsVersion : UInt8 := 0x10

abbrev PublicKey := {key : Bytes // key.length = 192}

/-- What a registration has come to know, as far as received messages are checked
against it. -/
structure RegData where
  enrolleeNonce : Nonce
  registrarNonce : Nonce
  outMsg : Bytes
  inMsg : Bytes
  authKey : Bytes
  keyWrapKey : Bytes
  eHash1 : Mac
  eHash2 : Mac
  rHash1 : Mac
  rHash2 : Mac
  es1 : Nonce
  es2 : Nonce
  rs1 : Nonce
  rs2 : Nonce
  psk1 : Nonce
  psk2 : Nonce
  pke : PublicKey
  pkr : PublicKey
  macAddr : {mac : Bytes // mac.length = 6}
  registrarVersion2 : UInt8
  enrolleeVersion2 : UInt8
  devInfoVersion2 : UInt8
  authTypeFlags : UInt16
  encrTypeFlags : UInt16
  /-- Nothing while there is no registrar. -/
  registrarUuid : Option {uuid : Bytes // uuid.length = 16}
  bAp : Bool

/-- `reg_msg_version_check`: the place behind the message type, or an error. -/
def regMsgVersionCheck (msgId : Message) (theBuf : BufferObj) : Except Nat BufferObj :=
  let version := tlvDserializeByte 0 wpsIdVersion theBuf
  let msgType := tlvDserializeByte 0 wpsIdMsgType version.buf
  if version.ok = false ∨ msgType.ok = false then .error rprotErrReqdTlvMissing
  else if version.value ≠ wpsVersion then .error rprotErrIncompatible
  else if msgId.id ≠ msgType.value.toNat then .error rprotErrWrongMsgtype
  else .ok msgType.buf

/-- Reading goes on behind the vendor extension, or from the start if there is none. -/
def behindVendorExt (msg : BufferObj) : Option (VendorExt × BufferObj) → Option VendorExt × BufferObj
  | some (ext, next) => (some ext, next)
  | none => (none, msg.rewind)

/-- The vendor extension is looked for from the start of the message. -/
def vendorExtSearch (turns : Nat) (version2 : UInt8) (msg : BufferObj) :
    Option (Option VendorExt × BufferObj) :=
  if version2 < wpsVersion2 then some (none, msg)
  else (tlvFindVendorExtParse turns msg).map (behindVendorExt msg)

/-- The data of a vendor extension as a buffer of its own. -/
def BufferObj.vendorBuf (b : BufferObj) (ext : VendorExt) : BufferObj :=
  { before := [], rest := (b.bytes.drop ext.vendorData).take ext.dataLength, dataLength := ext.dataLength
    around := b.around }

/-- The second version in the data of the extension; 0 if there is none. -/
def version2Of (b : BufferObj) (ext : VendorExt) : UInt8 :=
  let vendorBuf := b.vendorBuf ext
  if vendorBuf.nextSubId = wpsWfaSubidVersion2 ∧ vendorBuf.remaining ≠ 0 ∧
      (vendorBuf.byteAt 0).toNat = wpsWfaSubidVersion2 ∧
      (vendorBuf.byteAt 1).toNat + 2 ≤ vendorBuf.remaining then vendorBuf.byteAt 2
  else 0

/-- A second version that is announced by the extension and cannot be read. -/
def version2Err (b : BufferObj) (ext : VendorExt) : Bool :=
  let vendorBuf := b.vendorBuf ext
  decide (vendorBuf.nextSubId = wpsWfaSubidVersion2 ∧
    (vendorBuf.remaining = 0 ∨ (vendorBuf.byteAt 0).toNat ≠ wpsWfaSubidVersion2 ∨
      vendorBuf.remaining < (vendorBuf.byteAt 1).toNat + 2))

/-- What was read of a message whose authenticator is the next attribute. -/
structure Front where
  /-- The nonce of the party that receives the message. -/
  nonce : TlvPtr
  hash1 : TlvPtr
  hash2 : TlvPtr
  encrSettings : EncrSettings
  vendorExt : Option VendorExt
  tlvErr : Bool
  buf : BufferObj

/-- The loop that skips other attributes until the authenticator. -/
def skipToAuthenticator (turns : Nat) (front : Front) : Except Halt (Except Nat Front) := do
  match ← orUnfinished (loopFor (skipTurn wpsIdAuthenticator) turns front.buf) with
  | some b => .ok (.ok { front with buf := b })
  | none => .ok (.error rprotErrReqdTlvMissing)

def m3Front (turns : Nat) (regInfo : RegData) (msg : BufferObj) : Except Halt (Except Nat Front) :=
  match regMsgVersionCheck .m3 msg with
  | .error code => .ok (.error code)
  | .ok b => do
    let nonce := tlvDserialize .unset wpsIdRegistrarNonce b 16
    let eHash1 := tlvDserialize .unset wpsIdEHash1 nonce.buf 32
    let eHash2 := tlvDserialize .unset wpsIdEHash2 eHash1.buf 32
    let vendor ← orUnfinished (vendorExtSearch turns regInfo.registrarVersion2 eHash2.buf)
    skipToAuthenticator turns
      { nonce := nonce.value, hash1 := eHash1.value, hash2 := eHash2.value, encrSettings := .unset
        vendorExt := vendor.1, tlvErr := false, buf := vendor.2 }

def m4Front (turns : Nat) (regInfo : RegData) (msg : BufferObj) : Except Halt (Except Nat Front) :=
  match regMsgVersionCheck .m4 msg with
  | .error code => .ok (.error code)
  | .ok b => do
    let nonce := tlvDserialize .unset wpsIdEnrolleeNonce b 16
    let rHash1 := tlvDserialize .unset wpsIdRHash1 nonce.buf 32
    let rHash2 := tlvDserialize .unset wpsIdRHash2 rHash1.buf 32
    let encr := tlvEncrSettingsParse .unset rHash2.buf
    if (nonce.ok && rHash1.ok && rHash2.ok && encr.ok) = false then .ok (.error rprotErrReqdTlvMissing)
    else
      let vendor ← orUnfinished (vendorExtSearch turns regInfo.enrolleeVersion2 encr.buf)
      skipToAuthenticator turns
        { nonce := nonce.value, hash1 := rHash1.value, hash2 := rHash2.value
          encrSettings := encr.value, vendorExt := vendor.1
          tlvErr := vendor.1.any (version2Err msg), buf := vendor.2 }

def m6Front (turns : Nat) (regInfo : RegData) (msg : BufferObj) : Except Halt (Except Nat Front) :=
  match regMsgVersionCheck .m6 msg with
  | .error code => .ok (.error code)
  | .ok b => do
    let nonce := tlvDserialize .unset wpsIdEnrolleeNonce b 16
    let encr := tlvEncrSettingsParse .unset nonce.buf
    if (nonce.ok && encr.ok) = false then .ok (.error rprotErrReqdTlvMissing)
    else
      let vendor ← orUnfinished (vendorExtSearch turns regInfo.enrolleeVersion2 encr.buf)
      skipToAuthenticator turns
        { nonce := nonce.value, hash1 := .unset, hash2 := .unset
          encrSettings := encr.value, vendorExt := vendor.1
          tlvErr := vendor.1.any (version2Err msg), buf := vendor.2 }

/-- One turn of the loop of `reg_proto_process_m5`, which only notes that there are no
more attributes. -/
def m5SkipTurn (b : BufferObj) : Turn BufferObj BufferObj :=
  if b.nextType = wpsIdAuthenticator then .leave b
  else .again ((b.advance (4 + b.ntohs 2)).getD b)

def m5Front (turns : Nat) (regInfo : RegData) (msg : BufferObj) : Except Halt (Except Nat Front) :=
  match regMsgVersionCheck .m5 msg with
  | .error code => .ok (.error code)
  | .ok b => do
    let nonce := tlvDserialize .unset wpsIdRegistrarNonce b 16
    let encr := tlvEncrSettingsParse .unset nonce.buf
    let vendor ← orUnfinished (vendorExtSearch turns regInfo.registrarVersion2 encr.buf)
    let skipped ← orUnfinished (loopFor m5SkipTurn turns vendor.2)
    .ok (.ok
      { nonce := nonce.value, hash1 := .unset, hash2 := .unset, encrSettings := encr.value
        vendorExt := vendor.1, tlvErr := false, buf := skipped })

/-- A certificate or the request for one, if it is there. -/
def x509Parse (theType : Nat) (b : BufferObj) : Reading TlvPtr :=
  if b.nextType = theType then tlvDserialize .unset theType b 0 else ⟨true, .unset, b⟩

def m7Front (turns : Nat) (regInfo : RegData) (msg : BufferObj) : Except Halt (Except Nat Front) :=
  match regMsgVersionCheck .m7 msg with
  | .error code => .ok (.error code)
  | .ok b => do
    let nonce := tlvDserialize .unset wpsIdRegistrarNonce b 16
    let encr := tlvEncrSettingsParse .unset nonce.buf
    let certReq := x509Parse wpsIdX509CertReq encr.buf
    let vendor ← orUnfinished (vendorExtSearch turns regInfo.registrarVersion2 certReq.buf)
    skipToAuthenticator turns
      { nonce := nonce.value, hash1 := .unset, hash2 := .unset, encrSettings := encr.value
        vendorExt := vendor.1, tlvErr := false, buf := vendor.2 }

def m8Front (turns : Nat) (regInfo : RegData) (msg : BufferObj) : Except Halt (Except Nat Front) :=
  match regMsgVersionCheck .m8 msg with
  | .error code => .ok (.error code)
  | .ok b => do
    let nonce := tlvDserialize .unset wpsIdEnrolleeNonce b 16
    let encr := tlvEncrSettingsParse .unset nonce.buf
    let cert := x509Parse wpsIdX509Cert encr.buf
    if (nonce.ok && encr.ok && cert.ok) = false then .ok (.error rprotErrReqdTlvMissing)
    else
      let vendor ← orUnfinished (vendorExtSearch turns regInfo.enrolleeVersion2 cert.buf)
      skipToAuthenticator turns
        { nonce := nonce.value, hash1 := .unset, hash2 := .unset, encrSettings := encr.value
          vendorExt := vendor.1, tlvErr := vendor.1.any (version2Err msg), buf := vendor.2 }

/-- Attributes in this order, whose values are not looked at: whether all are there, and
the place. -/
def tlvDserializeAll (types : List Nat) (b : BufferObj) : Bool × BufferObj :=
  types.foldl (fun read theType => match read.2.header theType with
    | .found len => (read.1, read.2.past len)
    | _ => (false, read.2)) (true, b)

/-- `tlv_primDeviceTypeParse`, which takes 8 bytes however many there are. -/
def tlvPrimDeviceTypeParse (b : BufferObj) : Bool × BufferObj :=
  match cplxtlvParseHdr wpsIdPrimDevType b 8 with
  | some _ => (true, b.past 8)
  | none => (false, b)

/-- Where the loop of `reg_proto_process_m2` is, and what it found. -/
structure M2Scan where
  encrSettings : EncrSettings
  tlvErr : Bool
  buf : BufferObj

def m2SkipTurn (scan : M2Scan) : Turn M2Scan (Option M2Scan) :=
  if scan.buf.nextType = wpsIdAuthenticator then .leave (some scan)
  else if scan.buf.nextType = wpsIdEncrSettings ∧ scan.encrSettings.encrDataLength = 0 then
    let encr := tlvEncrSettingsParse scan.encrSettings scan.buf
    .again ⟨encr.value, scan.tlvErr || !encr.ok, encr.buf⟩
  else match scan.buf.advance (4 + scan.buf.ntohs 2) with
    | some next => .again { scan with buf := next }
    | none => .leave none

/-- Whether an M2 comes from another registrar than the one that is known. -/
def multipleM2 (regInfo : RegData) (msg : BufferObj) (uuid : TlvPtr) : Except Halt Bool :=
  match regInfo.registrarUuid with
  | none => .ok false
  | some known =>
    if known.val = List.replicate 16 0 then .ok false
    else do
      let received ← msg.read uuid.data uuid.len
      .ok (known.val.take uuid.len ≠ received)

/-- The attributes of an M2 up to its operating system. -/
structure M2Head where
  enrolleeNonce : TlvPtr
  registrarNonce : TlvPtr
  uuid : TlvPtr
  publicKey : TlvPtr
  authTypeFlags : Nat
  encrTypeFlags : Nat
  tlvErr : Bool
  buf : BufferObj

def m2Head (b : BufferObj) : M2Head :=
  let enrolleeNonce := tlvDserialize .unset wpsIdEnrolleeNonce b 16
  let registrarNonce := tlvDserialize .unset wpsIdRegistrarNonce enrolleeNonce.buf 16
  let uuid := tlvDserialize .unset wpsIdUuidR registrarNonce.buf 16
  let publicKey := tlvDserialize .unset wpsIdPublicKey uuid.buf 192
  let authTypeFlags := tlvDserializeShort 0 wpsIdAuthTypeFlags publicKey.buf
  let encrTypeFlags := tlvDserializeShort 0 wpsIdEncrTypeFlags authTypeFlags.buf
  let maker := tlvDserializeAll [wpsIdConnTypeFlags, wpsIdConfigMethods, wpsIdManufacturer,
    wpsIdModelName, wpsIdModelNumber, wpsIdSerialNum] encrTypeFlags.buf
  let primDeviceType := tlvPrimDeviceTypeParse maker.2
  let device := tlvDserializeAll [wpsIdDeviceName, wpsIdRfBand, wpsIdAssocState, wpsIdConfigError,
    wpsIdDevicePwdId, wpsIdOsVersion] primDeviceType.2
  { enrolleeNonce := enrolleeNonce.value, registrarNonce := registrarNonce.value, uuid := uuid.value
    publicKey := publicKey.value, authTypeFlags := authTypeFlags.value, encrTypeFlags := encrTypeFlags.value
    tlvErr := !(enrolleeNonce.ok && registrarNonce.ok && uuid.ok && publicKey.ok && authTypeFlags.ok &&
      encrTypeFlags.ok && maker.1 && primDeviceType.1 && device.1)
    buf := device.2 }

/-- The checks of an M2 before its loop, and the loop. -/
def m2Skip (turns : Nat) (regInfo : RegData) (msg : BufferObj) (head : M2Head)
    (vendor : Option VendorExt × BufferObj) : Except Halt (Except Nat Front) :=
  let tlvErr := head.tlvErr || vendor.1.any (version2Err msg)
  if head.authTypeFlags &&& regInfo.authTypeFlags.toNat = 0 ∨
      head.encrTypeFlags &&& regInfo.encrTypeFlags.toNat = 0 then .ok (.error rprotErrAuthEncFlag)
  else do
    let multiple ← multipleM2 regInfo msg head.uuid
    if multiple then .ok (.error rprotErrMultipleM2)
    else if tlvErr then .ok (.error rprotErrReqdTlvMissing)
    else match ← orUnfinished (loopFor m2SkipTurn turns ⟨.unset, false, vendor.2⟩) with
      | some scan => .ok (.ok
        { nonce := head.enrolleeNonce, hash1 := .unset, hash2 := .unset
          encrSettings := scan.encrSettings, vendorExt := vendor.1, tlvErr := scan.tlvErr
          buf := scan.buf })
      | none => .ok (.error rprotErrReqdTlvMissing)

/-- The registrar nonce is copied for the caller whatever comes of the message. -/
def m2Front (turns : Nat) (regInfo : RegData) (msg : BufferObj) : Except Halt (Except Nat Front) :=
  match regMsgVersionCheck .m2 msg with
  | .error code => .ok (.error code)
  | .ok b => do
    let head := m2Head b
    let vendor ← orUnfinished (vendorExtSearch turns regInfo.enrolleeVersion2 head.buf)
    let _ ← msg.read head.registrarNonce.data head.registrarNonce.len
    m2Skip turns regInfo msg head vendor

end BcmDhd.Wps
