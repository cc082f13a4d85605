import BcmDhd.Wps.ProcessMessage

/-! The settings that an enrollee is given, in M8 or out of band in M2: reading them,
and the checks before they are handed out. -/

namespace BcmDhd.Wps

open BcmDhd.Lib

structure Credential where
  nwIndex : UInt8
  ssid : TlvCopy
  authType : Nat
  encrType : Nat
  nwKeyIndex : UInt8
  nwKey : TlvCopy
  macAddr : TlvCopy
  eapType : TlvCopy
  eapIdentity : TlvCopy
  keyProvidedAuto : UInt8
  oneXEnabled : UInt8
  keyLifetime : Nat
  rekeyKey : TlvCopy
  x509Cert : TlvCopy
  wepKeyIndex : UInt8
  nwKeyShareable : UInt8
deriving DecidableEq

def Credential.unset : Credential :=
  { nwIndex := 0, ssid := .unset, authType := 0, encrType := 0, nwKeyIndex := 0, nwKey := .unset
    macAddr := .unset, eapType := .unset, eapIdentity := .unset, keyProvidedAuto := 0, oneXEnabled := 0
    keyLifetime := 0, rekeyKey := .unset, x509Cert := .unset, wepKeyIndex := 0, nwKeyShareable := 0 }

structure EsM8Sta where
  credential : List Credential
  newPwd : TlvCopy
  pwdId : Nat
deriving DecidableEq

/-- The settings of an M8, for an access point or for a station. -/
inductive EsM8
  | ap (es : EsM8Ap)
  | sta (es : EsM8Sta)
deriving DecidableEq

/-- A credential in the making, and the place in its bytes. -/
structure CredentialScan where
  credential : Credential
  buf : BufferObj

/-- `buffobj_Set` to a place inside the buffer. -/
def BufferObj.set (b : BufferObj) (pos : Nat) : BufferObj :=
  { b with before := b.bytes.take pos, rest := b.bytes.drop pos }

/-- An optional attribute of one byte. -/
def byteParse (old : UInt8) (theType : Nat) (b : BufferObj) : Reading UInt8 :=
  if b.nextType = theType then tlvDserializeByte old theType b else ⟨true, old, b⟩

/-- An optional attribute that is copied. -/
def copyParse (old : TlvCopy) (theType : Nat) (b : BufferObj) (dataSize : Nat) : Reading TlvCopy :=
  if b.nextType = theType then tlvDserializeCopy old theType b dataSize else ⟨true, old, b⟩

/-- Whether a key may be shared, if the vendor extension at the place is the WFA's. -/
def nwKeyShareableParse (old : UInt8) (b : BufferObj) : Reading UInt8 :=
  match tlvVendorExtParse b with
  | none => ⟨false, old, b⟩
  | some (ext, next) =>
    let vendorBuf := next.vendorBuf ext
    let shareable := [b.byteAt 4, b.byteAt 5, b.byteAt 6] = wfaVendorExtId ∧
      vendorBuf.nextSubId = wpsWfaSubidNwKeyShareable ∧
      (vendorBuf.byteAt 1).toNat + 2 ≤ vendorBuf.remaining
    ⟨true, if shareable then vendorBuf.byteAt 2 else old, next⟩

/-- One turn of the loop of `tlv_credentialParseAKey` over attributes in any order, in a
credential whose `len` bytes start at `start`. -/
def aKeyTurn (start len : Nat) (scan : CredentialScan) : Turn CredentialScan CredentialScan :=
  let b := scan.buf
  let c := scan.credential
  if b.nextType = 0 then .leave scan
  else if b.nextType = wpsIdKeyLifetime then
    let read := tlvDserializeWord c.keyLifetime wpsIdKeyLifetime b
    .again ⟨{ c with keyLifetime := read.value }, read.buf⟩
  else if b.nextType = wpsIdRekeyKey then
    let read := tlvDserializeCopy c.rekeyKey wpsIdRekeyKey b 0
    .again ⟨{ c with rekeyKey := read.value }, read.buf⟩
  else if b.nextType = wpsIdX509Cert then
    let read := tlvDserializeCopy c.x509Cert wpsIdX509Cert b 0
    .again ⟨{ c with x509Cert := read.value }, read.buf⟩
  else if b.nextType = wpsIdWepTransmitKey then
    let read := tlvDserializeByte c.wepKeyIndex wpsIdWepTransmitKey b
    .again ⟨{ c with wepKeyIndex := read.value }, read.buf⟩
  else if b.nextType = wpsIdNwKeyIndex then .leave scan
  else if b.nextType = wpsIdVendorExt then
    let read := nwKeyShareableParse c.nwKeyShareable b
    .again ⟨{ c with nwKeyShareable := read.value }, read.buf⟩
  else match b.advance (4 + b.ntohs 2) with
    | none => .leave scan
    | some next => if start + len ≤ next.pos then .leave { scan with buf := next } else .again { scan with buf := next }

/-- A network key up to the attributes in any order. -/
def aKeyBegin (scan : CredentialScan) : CredentialScan :=
  let c := scan.credential
  let nwKey := tlvDserializeCopy c.nwKey wpsIdNwKey scan.buf 64
  let macAddr := tlvDserializeCopy c.macAddr wpsIdMacAddr nwKey.buf 6
  let eapType := copyParse c.eapType wpsIdEapType macAddr.buf 8
  let eapIdentity := copyParse c.eapIdentity wpsIdEapIdentity eapType.buf 0
  let keyProvidedAuto := byteParse c.keyProvidedAuto wpsIdKeyProvidedAuto eapIdentity.buf
  let oneXEnabled := byteParse c.oneXEnabled wpsId8021xEnabled keyProvidedAuto.buf
  ⟨{ c with
    nwKey := nwKey.value, macAddr := macAddr.value, eapType := eapType.value
    eapIdentity := eapIdentity.value, keyProvidedAuto := keyProvidedAuto.value
    oneXEnabled := oneXEnabled.value }, oneXEnabled.buf⟩

/-- `tlv_credentialParseAKey`. -/
def credentialParseAKey (turns start len : Nat) (scan : CredentialScan) : Option CredentialScan :=
  loopFor (aKeyTurn start len) turns (aKeyBegin scan)

/-- A network key with its index in front. -/
def indexedKeyParse (turns start len : Nat) (scan : CredentialScan) : Option CredentialScan :=
  if scan.buf.nextType = wpsIdNwKeyIndex then
    let index := tlvDserializeByte scan.credential.nwKeyIndex wpsIdNwKeyIndex scan.buf
    credentialParseAKey turns start len ⟨{ scan.credential with nwKeyIndex := index.value }, index.buf⟩
  else some scan

/-- A credential up to its network key. -/
def credentialHead (old : Credential) (b : BufferObj) : CredentialScan :=
  let nwIndex := tlvDserializeByte old.nwIndex wpsIdNwIndex b
  let ssid := tlvDserializeCopy old.ssid wpsIdSsid nwIndex.buf 32
  let authType := tlvDserializeShort old.authType wpsIdAuthType ssid.buf
  let encrType := tlvDserializeShort old.encrType wpsIdEncrType authType.buf
  ⟨{ old with
      nwIndex := nwIndex.value, ssid := ssid.value, authType := authType.value,
        encrType := encrType.value }, encrType.buf⟩

/-- `tlv_credentialParse` into a credential that has its values already; it ends behind the credential
whatever it read. -/
def tlvCredentialParseInto (turns : Nat) (old : Credential) (theBuf : BufferObj) : Option CredentialScan :=
  match cplxtlvParseHdr wpsIdCredential theBuf 0 with
  | none => some ⟨old, theBuf⟩
  | some (len, b) =>
    let start := b.pos
    (indexedKeyParse turns start len (credentialHead old b)).bind fun scan =>
      let rest := if scan.buf.pos < start + len ∧ scan.buf.nextType = wpsIdNwKey then
        credentialParseAKey turns start len ⟨{ scan.credential with nwKeyIndex := 1 }, scan.buf⟩ else some scan
      rest.map fun scan => ⟨scan.credential, scan.buf.set (start + len)⟩

def tlvCredentialParse (turns : Nat) (theBuf : BufferObj) : Option CredentialScan :=
  tlvCredentialParseInto turns .unset theBuf

/-- One turn of the loop over further credentials. -/
def credentialTurn (turns : Nat) (read : List Credential × BufferObj) :
    Turn (List Credential × BufferObj) (Option (List Credential × BufferObj)) :=
  if read.2.nextType = wpsIdCredential then
    match tlvCredentialParse turns read.2 with
    | none => .leave none
    | some scan => .again (read.1 ++ [scan.credential], scan.buf)
  else .leave (some read)

/-- At least one credential is taken, whatever there is. -/
def credentialsParse (turns : Nat) (theBuf : BufferObj) : Option (List Credential × BufferObj) :=
  (tlvCredentialParse turns theBuf).bind fun scan =>
    (loopFor (credentialTurn turns) turns ([scan.credential], scan.buf)).join

/-- The settings are kept whether or not the authenticator is found and is right. -/
def regMsgM8staParse (hmac : Hmac) (turns : Nat) (theBuf : BufferObj) (authKey : Bytes) :
    Except Halt EsM8Sta := do
  let credentials ← orUnfinished (credentialsParse turns theBuf)
  let newPwd := newPwdParse credentials.2
  let es := { credential := credentials.1, newPwd := newPwd.value.1, pwdId := newPwd.value.2 }
  match ← orUnfinished (loopFor (skipTurn wpsIdKeyWrapAuth) turns newPwd.buf) with
  | none => .ok es
  | some b =>
    let _ ← checkKeyWrapAuth hmac authKey b
    .ok es

def parseM8 (hmac : Hmac) (turns : Nat) (bAp : Bool) (plainText : BufferObj) (authKey : Bytes) :
    Except Halt EsM8 :=
  if bAp then (regMsgM8apParse hmac turns plainText authKey).map .ap
  else (regMsgM8staParse hmac turns plainText authKey).map .sta

/-- A copied address of which six bytes are compared, however many it has; `behind` is
what follows the copy and its zero. -/
def sameAddr (mac : Bytes) (behind : Lib.Memory) (copy : TlvCopy) : Bool :=
  copy.bytes ≠ [] && (List.range 6).all fun i => mac[i]? =
    some ((copy.bytes[i]?).getD (if i = copy.bytes.length then 0 else behind (i - copy.bytes.length - 1)))

/-- `reg_proto_MacCheck`: whether the settings are for this enrollee. -/
def regProtoMacCheck (regInfo : RegData) (behind : Lib.Memory) : EsM8 → Nat
  | .ap es => if sameAddr regInfo.macAddr.val behind es.macAddr then wpsSuccess else rprotErrRogueSuspected
  | .sta es =>
    if es.credential ≠ [] ∧ es.credential.all fun c => sameAddr regInfo.macAddr.val behind c.macAddr then
      wpsSuccess
    else rprotErrRogueSuspected

/-- `reg_proto_EncrSettingsCheck`, which takes credentials for WEP out. -/
def regProtoEncrSettingsCheck : EsM8 → Nat × EsM8
  | .ap es => (if es.encrType = wpsEncrtypeWep.toNat then rprotErrIncompatibleWep else wpsSuccess, .ap es)
  | .sta es =>
    if es.credential = [] then (rprotErrIncompatible, .sta es)
    else
      let kept := es.credential.filter fun c => c.encrType ≠ wpsEncrtypeWep.toNat
      (if kept = [] then rprotErrIncompatibleWep else wpsSuccess, .sta { es with credential := kept })

/-- The checks of settings that were read, and the settings as they are handed out. -/
def checkM8 (regInfo : RegData) (behind : Lib.Memory) (es : EsM8) : Nat × EsM8 :=
  if wpsVersion2 ≤ regInfo.registrarVersion2 ∧ regProtoMacCheck regInfo behind es ≠ wpsSuccess then
    (rprotErrRogueSuspected, es)
  else regProtoEncrSettingsCheck es

/-- What `reg_proto_process_m2` does with decrypted settings. -/
def m2Settings (hmac : Hmac) (turns : Nat) (regInfo : RegData) (plainText : BufferObj) :
    Except Halt (Nat × Option EsM8) := do
  let es ← parseM8 hmac turns regInfo.bAp plainText regInfo.authKey
  let checked := checkM8 regInfo plainText.around.beyond es
  .ok (checked.1, some checked.2)

/-- What `reg_proto_process_m8` does with decrypted settings. The registrar must be known
for the checks of the second version. -/
def m8Settings (hmac : Hmac) (turns : Nat) (regInfo : RegData) (plainText : BufferObj) :
    Except Halt (Nat × Option EsM8) := do
  let es ← parseM8 hmac turns regInfo.bAp plainText regInfo.authKey
  if regInfo.enrolleeVersion2 < wpsVersion2 then .ok (wpsSuccess, some es)
  else if regInfo.registrarUuid = none then .error .crash
  else
    let checked := checkM8 regInfo plainText.around.beyond es
    .ok (checked.1, some checked.2)

end BcmDhd.Wps
