import BcmDhd.Wps.SettingsLoops
import BcmDhd.Wps.SettingsReading

namespace BcmDhd.Wps

open BcmDhd.Lib

/-- The value of a text attribute, without bytes while it is not set. -/
abbrev TlvText := {bytes : Bytes // bytes.length < 65536}

/-- A credential as it is filled by `tlv_set`: of the numbers, those that are optional
may not be set. -/
structure CTlvCredential where
  nwIndex : UInt8
  ssid : TlvText
  authType : UInt16
  encrType : UInt16
  nwKeyIndex : Option UInt8
  nwKey : TlvText
  macAddr : TlvText
  eapType : TlvText
  eapIdentity : TlvText
  keyLifetime : Option UInt32
  rekeyKey : TlvText
  x509Cert : TlvText
  keyProvidedAuto : Option UInt8
  oneXEnabled : Option UInt8
  wepKeyIndex : Option UInt8
  nwKeyShareable : Option UInt8
deriving DecidableEq

def wpsHtonl (value : UInt32) : Bytes := wpsHtons (value.toNat / 65536) ++ wpsHtons (value.toNat % 65536)

def tlvWriteWord (theType : Nat) (value : UInt32) (theBuf : Bytes) : Bytes :=
  theBuf ++ tlv theType (wpsHtonl value)

/-- `tlv_write` of a text if its `m_len` is not 0. -/
def textWrite (theType : Nat) (value : TlvText) (theBuf : Bytes) : Bytes :=
  if value.val.length ≠ 0 then tlvWrite theType (.of value.val) theBuf else theBuf

def byteWrite (theType : Nat) (value : Option UInt8) (theBuf : Bytes) : Bytes :=
  match value with
  | some byte => tlvWriteByte theType byte theBuf
  | none => theBuf

def wordWrite (theType : Nat) (value : Option UInt32) (theBuf : Bytes) : Bytes :=
  match value with
  | some word => tlvWriteWord theType word theBuf
  | none => theBuf

/-- `subtlv_write` of one byte. -/
def subtlvWriteByte (theId value : UInt8) (theBuf : Bytes) : Bytes := theBuf ++ [theId, 1, value]

/-- `tlv_vendorExtWrite`. -/
def tlvVendorExtWrite (vendorId vendorData theBuf : Bytes) : Bytes :=
  theBuf ++ wpsHtons wpsIdVendorExt ++ wpsHtons (3 + vendorData.length) ++ vendorId ++ vendorData

def shareableWrite (nwKeyShareable : Option UInt8) (theBuf : Bytes) : Bytes :=
  match nwKeyShareable with
  | some shareable =>
    tlvVendorExtWrite wfaVendorExtId (subtlvWriteByte (UInt8.ofNat wpsWfaSubidNwKeyShareable) shareable []) theBuf
  | none => theBuf

/-- The `m_len` of a number, which is 0 while it is not set. -/
def mLen {Value : Type} (size : Nat) (value : Option Value) : Nat := if value.isSome then size else 0

/-- One attribute more, if it is set. -/
def tlvCounted (mLen : Nat) : Nat := if mLen ≠ 0 then 1 else 0

/-- The length in the header of a credential, which is kept in two bytes all along. -/
def credentialLen (c : CTlvCredential) : Nat :=
  let len := (1 + c.ssid.val.length + 2 + 2 + mLen 1 c.nwKeyIndex + c.nwKey.val.length +
    c.macAddr.val.length + c.eapType.val.length + c.eapIdentity.val.length + mLen 4 c.keyLifetime +
    c.rekeyKey.val.length + c.x509Cert.val.length + mLen 1 c.wepKeyIndex) % 65536
  let tlvCount := 6 + tlvCounted (mLen 1 c.nwKeyIndex) + tlvCounted c.eapType.val.length +
    tlvCounted c.eapIdentity.val.length + tlvCounted (mLen 4 c.keyLifetime) +
    tlvCounted c.rekeyKey.val.length + tlvCounted c.x509Cert.val.length + tlvCounted (mLen 1 c.wepKeyIndex)
  if c.nwKeyShareable.isSome then
    (((len + (2 + mLen 1 c.nwKeyShareable)) % 65536 + 3) % 65536 + 4 * (tlvCount + 1)) % 65536
  else (len + 4 * tlvCount) % 65536

/-- `tlv_credentialWrite`. -/
def tlvCredentialWrite (c : CTlvCredential) (theBuf : Bytes) : Bytes :=
  let header := theBuf ++ wpsHtons wpsIdCredential ++ wpsHtons (credentialLen c)
  let nwIndex := tlvWriteByte wpsIdNwIndex c.nwIndex header
  let ssid := tlvWrite wpsIdSsid (.of c.ssid.val) nwIndex
  let authType := tlvWriteShort wpsIdAuthType c.authType.toNat ssid
  let encrType := tlvWriteShort wpsIdEncrType c.encrType.toNat authType
  let nwKey := tlvWrite wpsIdNwKey (.of c.nwKey.val) encrType
  let macAddr := tlvWrite wpsIdMacAddr (.of c.macAddr.val) nwKey
  let nwKeyIndex := byteWrite wpsIdNwKeyIndex c.nwKeyIndex macAddr
  let eapType := textWrite wpsIdEapType c.eapType nwKeyIndex
  let eapIdentity := textWrite wpsIdEapIdentity c.eapIdentity eapType
  let keyLifetime := wordWrite wpsIdKeyLifetime c.keyLifetime eapIdentity
  let rekeyKey := textWrite wpsIdRekeyKey c.rekeyKey keyLifetime
  let x509Cert := textWrite wpsIdX509Cert c.x509Cert rekeyKey
  let wepKeyIndex := byteWrite wpsIdWepTransmitKey c.wepKeyIndex x509Cert
  shareableWrite c.nwKeyShareable wepKeyIndex

/-- A credential that has been initialised: its texts are not set, and its numbers have
any value. -/
structure Credential.Initialised (old : Credential) : Prop where
  ssid : old.ssid = .unset
  nwKey : old.nwKey = .unset
  macAddr : old.macAddr = .unset
  eapType : old.eapType = .unset
  eapIdentity : old.eapIdentity = .unset
  rekeyKey : old.rekeyKey = .unset
  x509Cert : old.x509Cert = .unset

/-- A credential has every attribute that was set, with the same value. -/
structure Recovers (c : CTlvCredential) (read : Credential) : Prop where
  nwIndex : read.nwIndex = c.nwIndex
  ssid : read.ssid = .of c.ssid.val
  authType : read.authType = c.authType.toNat
  encrType : read.encrType = c.encrType.toNat
  nwKeyIndex : ∀ index, c.nwKeyIndex = some index → read.nwKeyIndex = index
  nwKey : read.nwKey = .of c.nwKey.val
  macAddr : read.macAddr = .of c.macAddr.val
  eapType : c.eapType.val ≠ [] → read.eapType = .of c.eapType.val
  eapIdentity : c.eapIdentity.val ≠ [] → read.eapIdentity = .of c.eapIdentity.val
  keyLifetime : ∀ lifetime, c.keyLifetime = some lifetime → read.keyLifetime = lifetime.toNat
  rekeyKey : c.rekeyKey.val ≠ [] → read.rekeyKey = .of c.rekeyKey.val
  x509Cert : c.x509Cert.val ≠ [] → read.x509Cert = .of c.x509Cert.val
  keyProvidedAuto : ∀ provided, c.keyProvidedAuto = some provided → read.keyProvidedAuto = provided
  oneXEnabled : ∀ enabled, c.oneXEnabled = some enabled → read.oneXEnabled = enabled
  wepKeyIndex : ∀ index, c.wepKeyIndex = some index → read.wepKeyIndex = index
  nwKeyShareable : ∀ shareable, c.nwKeyShareable = some shareable → read.nwKeyShareable = shareable

/-- The header has the number of bytes behind it, and what is read of the bytes is the
credential that was written. -/
structure RoundTrips (c : CTlvCredential) : Prop where
  counted : ∀ theBuf, ∃ body, tlvCredentialWrite c theBuf = theBuf ++ tlv wpsIdCredential body ∧ body.length < 65536
  recovered : ∀ old before dataLength around, old.Initialised → ∃ scan,
    Settles (fun turns => tlvCredentialParseInto turns old ⟨before, tlvCredentialWrite c [], dataLength, around⟩)
      (some scan) ∧ Recovers c scan.credential

/-- An attribute that may be missing. -/
def optionalTlv (theType : Nat) (value : Option Bytes) : Bytes := value.elim [] (tlv theType)

def textValue (value : TlvText) : Option Bytes := if value.val = [] then none else some value.val

def byteValue (value : Option UInt8) : Option Bytes := value.map fun byte => [byte]

/-- The value of the vendor extension with the one element. -/
def shareableExt (shareable : UInt8) : Bytes :=
  wfaVendorExtId ++ [UInt8.ofNat wpsWfaSubidNwKeyShareable, 1, shareable]

def shareableValue (nwKeyShareable : Option UInt8) : Option Bytes := nwKeyShareable.map shareableExt

/-- The attributes that may stand in any order behind a key. -/
def elementBytes (c : CTlvCredential) : Bytes :=
  optionalTlv wpsIdKeyLifetime (c.keyLifetime.map wpsHtonl) ++ (optionalTlv wpsIdRekeyKey (textValue c.rekeyKey) ++
    (optionalTlv wpsIdX509Cert (textValue c.x509Cert) ++
      (optionalTlv wpsIdWepTransmitKey (byteValue c.wepKeyIndex) ++
        (optionalTlv wpsIdVendorExt (shareableValue c.nwKeyShareable) ++ []))))

/-- What is written behind the index of the key. -/
def behindIndex (c : CTlvCredential) : Bytes :=
  optionalTlv wpsIdEapType (textValue c.eapType) ++
    (optionalTlv wpsIdEapIdentity (textValue c.eapIdentity) ++ elementBytes c)

/-- What is written from the network key on. -/
def keyedBytes (c : CTlvCredential) : Bytes :=
  tlv wpsIdNwKey c.nwKey.val ++ (tlv wpsIdMacAddr c.macAddr.val ++
    (optionalTlv wpsIdNwKeyIndex (byteValue c.nwKeyIndex) ++ behindIndex c))

/-- The bytes that are written behind the header. -/
def credentialBody (c : CTlvCredential) : Bytes :=
  tlv wpsIdNwIndex [c.nwIndex] ++ (tlv wpsIdSsid c.ssid.val ++ (tlv wpsIdAuthType (wpsHtons c.authType.toNat) ++
    (tlv wpsIdEncrType (wpsHtons c.encrType.toNat) ++ keyedBytes c)))

@[simp] theorem optionalTlv_none (theType : Nat) : optionalTlv theType none = [] := rfl

@[simp] theorem optionalTlv_some (theType : Nat) (value : Bytes) :
    optionalTlv theType (some value) = tlv theType value := rfl

theorem textWrite_eq (theType : Nat) (value : TlvText) (theBuf : Bytes) :
    textWrite theType value theBuf = theBuf ++ optionalTlv theType (textValue value) := by
  unfold textWrite textValue
  by_cases unset : value.val = []
  · simp [unset]
  · simp [unset, tlvWrite_of]

theorem byteWrite_eq (theType : Nat) (value : Option UInt8) (theBuf : Bytes) :
    byteWrite theType value theBuf = theBuf ++ optionalTlv theType (byteValue value) := by
  cases value with
  | none => simp [byteWrite, byteValue]
  | some byte => rfl

theorem wordWrite_eq (theType : Nat) (value : Option UInt32) (theBuf : Bytes) :
    wordWrite theType value theBuf = theBuf ++ optionalTlv theType (value.map wpsHtonl) := by
  cases value with
  | none => simp [wordWrite]
  | some word => rfl

theorem shareableWrite_eq (nwKeyShareable : Option UInt8) (theBuf : Bytes) :
    shareableWrite nwKeyShareable theBuf = theBuf ++ optionalTlv wpsIdVendorExt (shareableValue nwKeyShareable) := by
  cases nwKeyShareable with
  | none => simp [shareableWrite, shareableValue]
  | some shareable => simp [shareableWrite, shareableValue, shareableExt, tlvVendorExtWrite,
      subtlvWriteByte, tlv, wfaVendorExtId]

theorem tlvCredentialWrite_eq (c : CTlvCredential) (theBuf : Bytes) : tlvCredentialWrite c theBuf =
    theBuf ++ (wpsHtons wpsIdCredential ++ wpsHtons (credentialLen c) ++ credentialBody c) := by
  unfold tlvCredentialWrite
  simp only [shareableWrite_eq, byteWrite_eq, textWrite_eq, wordWrite_eq, tlvWriteByte, tlvWriteShort, tlvWrite_of]
  simp only [credentialBody, keyedBytes, behindIndex, elementBytes, List.append_assoc, List.append_nil]

theorem length_textTlv (theType : Nat) (value : TlvText) :
    (optionalTlv theType (textValue value)).length = value.val.length + 4 * tlvCounted value.val.length := by
  unfold textValue tlvCounted
  by_cases unset : value.val = []
  · simp [unset]
  · simp [unset]
    omega

theorem length_byteTlv (theType : Nat) (value : Option UInt8) :
    (optionalTlv theType (byteValue value)).length = mLen 1 value + 4 * tlvCounted (mLen 1 value) := by
  cases value with
  | none => rfl
  | some byte => rfl

theorem length_wordTlv (theType : Nat) (value : Option UInt32) :
    (optionalTlv theType (value.map wpsHtonl)).length = mLen 4 value + 4 * tlvCounted (mLen 4 value) := by
  cases value with
  | none => rfl
  | some word => rfl

/-- The sizes of the attributes that are written. -/
def credentialSize (c : CTlvCredential) : Nat :=
  1 + c.ssid.val.length + 2 + 2 + mLen 1 c.nwKeyIndex + c.nwKey.val.length + c.macAddr.val.length +
    c.eapType.val.length + c.eapIdentity.val.length + mLen 4 c.keyLifetime + c.rekeyKey.val.length +
    c.x509Cert.val.length + mLen 1 c.wepKeyIndex +
    4 * (6 + tlvCounted (mLen 1 c.nwKeyIndex) + tlvCounted c.eapType.val.length +
      tlvCounted c.eapIdentity.val.length + tlvCounted (mLen 4 c.keyLifetime) +
      tlvCounted c.rekeyKey.val.length + tlvCounted c.x509Cert.val.length + tlvCounted (mLen 1 c.wepKeyIndex)) +
    mLen 10 c.nwKeyShareable

theorem length_credentialBody (c : CTlvCredential) : (credentialBody c).length = credentialSize c := by
  have shareable : (optionalTlv wpsIdVendorExt (shareableValue c.nwKeyShareable)).length =
      mLen 10 c.nwKeyShareable := by
    cases c.nwKeyShareable with
    | none => rfl
    | some shareable => rfl
  simp only [credentialBody, keyedBytes, behindIndex, elementBytes, List.length_append, length_textTlv,
    length_byteTlv, length_wordTlv, length_tlv, List.length_nil, length_wpsHtons, List.length_cons, shareable,
    credentialSize]
  omega

theorem credentialLen_eq (c : CTlvCredential) : credentialLen c = credentialSize c % 65536 := by
  unfold credentialLen credentialSize
  cases c.nwKeyShareable with
  | none =>
    have zero : mLen 10 (none : Option UInt8) = 0 := rfl
    rw [zero]
    simp only [Option.isSome_none]
    rw [if_neg (by decide)]
    omega
  | some shareable =>
    have one : mLen 1 (some shareable) = 1 := rfl
    have ten : mLen 10 (some shareable) = 10 := rfl
    rw [ten]
    simp only [Option.isSome_some, if_true, one]
    omega

/-- What is kept of a text, of which so many bytes are allowed. -/
def cutCopy (dataSize : Nat) (value : Bytes) : TlvCopy :=
  ⟨limited value.length dataSize, value.take (limited value.length dataSize)⟩

/-- What is kept of a text that may be missing. -/
def cutText (old : TlvCopy) (dataSize : Nat) (value : TlvText) : TlvCopy :=
  if value.val = [] then old else cutCopy dataSize value.val

theorem textValue_none {value : TlvText} : textValue value = none ↔ value.val = [] := by
  unfold textValue
  split
  · rename_i unset
    exact iff_of_true rfl unset
  · rename_i there
    exact iff_of_false (by simp) there

theorem textValue_some {value : TlvText} {bytes : Bytes} :
    textValue value = some bytes ↔ value.val ≠ [] ∧ value.val = bytes := by
  unfold textValue
  split
  · rename_i unset
    exact iff_of_false (by simp) fun there => there.1 unset
  · rename_i there
    exact ⟨fun same => ⟨there, Option.some.inj same⟩, fun same => congrArg some same.2⟩

theorem cutCopy_of {dataSize : Nat} {value : Bytes} :
    cutCopy dataSize value = .of value ↔ dataSize = 0 ∨ value.length ≤ dataSize := by
  unfold cutCopy TlvCopy.of
  by_cases long : dataSize ≠ 0 ∧ dataSize < value.length
  · rw [limited, if_pos long]
    refine iff_of_false (fun same => ?_) (by omega)
    have lengths := congrArg TlvCopy.len same
    dsimp only at lengths
    omega
  · rw [limited, if_neg long, List.take_length]
    exact iff_of_true rfl (by omega)

section

variable {before later : Bytes} {dataLength : Nat} {around : Surroundings} {theType : Nat}

theorem tlvDserializeCopy_cut (old : TlvCopy) {value : Bytes} (dataSize : Nat) (small : theType < 65536)
    (fits : value.length < 65536) :
    tlvDserializeCopy old theType ⟨before, tlv theType value ++ later, dataLength, around⟩ dataSize =
      ⟨true, cutCopy dataSize value, ⟨before ++ tlv theType value, later, dataLength, around⟩⟩ := by
  have found := BufferObj.header_tlv (b := ⟨before, tlv theType value ++ later, dataLength, around⟩)
    rfl small fits
  have less : limited value.length dataSize ≤ value.length := by
    unfold limited
    split
    · omega
    · exact Nat.le_refl _
  have taken : ((tlv theType value ++ later).drop 4).take (limited value.length dataSize) =
      value.take (limited value.length dataSize) := by
    change (value ++ later).take _ = _
    rw [List.take_append_of_le_length less]
  rw [tlvDserializeCopy, found]
  dsimp only
  rw [taken, BufferObj.past_tlv rfl, cutCopy]

theorem tlvDserializeWord_at (old : Nat) (value : UInt32) (small : theType < 65536) :
    tlvDserializeWord old theType ⟨before, tlv theType (wpsHtonl value) ++ later, dataLength, around⟩ =
      ⟨true, value.toNat, ⟨before ++ tlv theType (wpsHtonl value), later, dataLength, around⟩⟩ := by
  have found := BufferObj.header_tlv (b := ⟨before, tlv theType (wpsHtonl value) ++ later, dataLength, around⟩)
    rfl small (by simp [wpsHtonl])
  have bound := value.toNat_lt
  have high : BufferObj.ntohs ⟨before, tlv theType (wpsHtonl value) ++ later, dataLength, around⟩ 4 =
      value.toNat / 65536 := wpsHtons_toNat (by omega)
  have low : BufferObj.ntohs ⟨before, tlv theType (wpsHtonl value) ++ later, dataLength, around⟩ 6 =
      value.toNat % 65536 := wpsHtons_toNat (by omega)
  rw [tlvDserializeWord, found]
  dsimp only
  rw [high, low, BufferObj.past_tlv rfl, Nat.div_add_mod']

theorem nextType_optional (small : theType < 65536) (value : Option Bytes) :
    BufferObj.nextType ⟨before, optionalTlv theType value ++ later, dataLength, around⟩ =
      if value.isSome then theType else BufferObj.nextType ⟨before, later, dataLength, around⟩ := by
  cases value with
  | none => rfl
  | some value => exact nextType_at small value

theorem copyParse_optional (old : TlvCopy) (dataSize : Nat) (value : TlvText) (small : theType < 65536)
    (other : BufferObj.nextType ⟨before, later, dataLength, around⟩ ≠ theType) : ∃ ok,
    copyParse old theType ⟨before, optionalTlv theType (textValue value) ++ later, dataLength, around⟩ dataSize =
      ⟨ok, cutText old dataSize value,
        ⟨before ++ optionalTlv theType (textValue value), later, dataLength, around⟩⟩ := by
  unfold copyParse textValue cutText
  by_cases unset : value.val = []
  · rw [if_pos unset, if_pos unset, optionalTlv_none, List.nil_append, if_neg other, List.append_nil]
    exact ⟨true, rfl⟩
  · rw [if_neg unset, if_neg unset, optionalTlv_some, nextType_at small, if_pos rfl,
      tlvDserializeCopy_cut _ _ small value.property]
    exact ⟨true, rfl⟩

theorem byteParse_other (old : UInt8) (other : BufferObj.nextType ⟨before, later, dataLength, around⟩ ≠ theType) :
    byteParse old theType ⟨before, later, dataLength, around⟩ = ⟨true, old, ⟨before, later, dataLength, around⟩⟩ :=
  if_neg other

/-- The attributes in any order that were written take the place of what was there. -/
def withElements (old : Credential) (c : CTlvCredential) : Credential := { old with
  keyLifetime := (c.keyLifetime.map UInt32.toNat).getD old.keyLifetime
  rekeyKey := cutText old.rekeyKey 0 c.rekeyKey
  x509Cert := cutText old.x509Cert 0 c.x509Cert
  wepKeyIndex := c.wepKeyIndex.getD old.wepKeyIndex
  nwKeyShareable := c.nwKeyShareable.getD old.nwKeyShareable }

variable {start len : Nat} {credential after : Credential} {value : Option Bytes} {result : CredentialScan}

theorem element_back (absent : value = none → after = credential)
    (present : ∀ bytes, value = some bytes →
      aKeyTurn start len ⟨credential, ⟨before, tlv theType bytes ++ later, dataLength, around⟩⟩ =
        .again ⟨after, ⟨before ++ tlv theType bytes, later, dataLength, around⟩⟩)
    (rest : Leaves (aKeyTurn start len)
      ⟨after, ⟨before ++ optionalTlv theType value, later, dataLength, around⟩⟩ result) :
    Leaves (aKeyTurn start len)
      ⟨credential, ⟨before, optionalTlv theType value ++ later, dataLength, around⟩⟩ result := by
  cases value with
  | none =>
    rw [absent rfl, optionalTlv_none, List.append_nil] at rest
    exact rest
  | some bytes => exact Loop.Leaves.back rest (present bytes rfl)

theorem lifetime_back (value : Option UInt32) (rest : Leaves (aKeyTurn start len)
      ⟨{ credential with keyLifetime := (value.map UInt32.toNat).getD credential.keyLifetime },
        ⟨before ++ optionalTlv wpsIdKeyLifetime (value.map wpsHtonl), later, dataLength, around⟩⟩ result) :
    Leaves (aKeyTurn start len) ⟨credential,
      ⟨before, optionalTlv wpsIdKeyLifetime (value.map wpsHtonl) ++ later, dataLength, around⟩⟩ result := by
  refine element_back ?_ ?_ rest
  · intro unset
    rw [Option.map_eq_none_iff.mp unset]
    rfl
  · intro bytes set
    obtain ⟨lifetime, rfl, rfl⟩ := Option.map_eq_some_iff.mp set
    unfold aKeyTurn
    dsimp only
    rw [nextType_at (by decide), if_neg (by decide), if_pos rfl, tlvDserializeWord_at _ _ (by decide)]
    rfl

theorem rekeyKey_back (value : TlvText) (rest : Leaves (aKeyTurn start len)
      ⟨{ credential with rekeyKey := cutText credential.rekeyKey 0 value },
        ⟨before ++ optionalTlv wpsIdRekeyKey (textValue value), later, dataLength, around⟩⟩ result) :
    Leaves (aKeyTurn start len) ⟨credential,
      ⟨before, optionalTlv wpsIdRekeyKey (textValue value) ++ later, dataLength, around⟩⟩ result := by
  refine element_back ?_ ?_ rest
  · intro unset
    rw [cutText, if_pos (textValue_none.mp unset)]
  · intro bytes set
    obtain ⟨there, rfl⟩ := textValue_some.mp set
    unfold aKeyTurn
    dsimp only
    rw [nextType_at (by decide), if_neg (by decide), if_neg (by decide), if_pos rfl,
      tlvDserializeCopy_cut _ _ (by decide) value.property, cutText, if_neg there]

theorem x509Cert_back (value : TlvText) (rest : Leaves (aKeyTurn start len)
      ⟨{ credential with x509Cert := cutText credential.x509Cert 0 value },
        ⟨before ++ optionalTlv wpsIdX509Cert (textValue value), later, dataLength, around⟩⟩ result) :
    Leaves (aKeyTurn start len) ⟨credential,
      ⟨before, optionalTlv wpsIdX509Cert (textValue value) ++ later, dataLength, around⟩⟩ result := by
  refine element_back ?_ ?_ rest
  · intro unset
    rw [cutText, if_pos (textValue_none.mp unset)]
  · intro bytes set
    obtain ⟨there, rfl⟩ := textValue_some.mp set
    unfold aKeyTurn
    dsimp only
    rw [nextType_at (by decide), if_neg (by decide), if_neg (by decide), if_neg (by decide), if_pos rfl,
      tlvDserializeCopy_cut _ _ (by decide) value.property, cutText, if_neg there]

theorem wepKeyIndex_back (value : Option UInt8) (rest : Leaves (aKeyTurn start len)
      ⟨{ credential with wepKeyIndex := value.getD credential.wepKeyIndex },
        ⟨before ++ optionalTlv wpsIdWepTransmitKey (byteValue value), later, dataLength, around⟩⟩ result) :
    Leaves (aKeyTurn start len) ⟨credential,
      ⟨before, optionalTlv wpsIdWepTransmitKey (byteValue value) ++ later, dataLength, around⟩⟩ result := by
  refine element_back ?_ ?_ rest
  · intro unset
    rw [Option.map_eq_none_iff.mp unset]
    rfl
  · intro bytes set
    obtain ⟨index, rfl, rfl⟩ := Option.map_eq_some_iff.mp set
    unfold aKeyTurn
    dsimp only
    rw [nextType_at (by decide), if_neg (by decide), if_neg (by decide), if_neg (by decide), if_neg (by decide),
      if_pos rfl, tlvDserializeByte_at _ _ (by decide)]
    rfl

/-- The WFA's extension with the one element that is written. -/
theorem nwKeyShareableParse_at (old shareable : UInt8) : nwKeyShareableParse old
    ⟨before, tlv wpsIdVendorExt (shareableExt shareable) ++ later, dataLength, around⟩ =
      ⟨true, shareable, ⟨before ++ tlv wpsIdVendorExt (shareableExt shareable), later, dataLength, around⟩⟩ := by
  let b : BufferObj := ⟨before, tlv wpsIdVendorExt (shareableExt shareable) ++ later, dataLength, around⟩
  have type : b.nextType = wpsIdVendorExt := nextType_at (by decide) _
  have here : b.rest = tlv wpsIdVendorExt (shareableExt shareable) ++ later := rfl
  have six : b.ntohs 2 = 6 := BufferObj.ntohs_tlv_len here (by simp [shareableExt, wfaVendorExtId])
  have whole : ¬CutOff b := by
    unfold CutOff
    rw [six, BufferObj.remaining_tlv (b := b) rfl]
    change ¬(4 + 6 + later.length < 4 + 6)
    omega
  have parsed := vendorExtParse_whole type whole (by rw [six]; decide)
  have next : b.past (b.ntohs 2) =
      ⟨before ++ tlv wpsIdVendorExt (shareableExt shareable), later, dataLength, around⟩ := by
    rw [six]
    exact BufferObj.past_tlv (b := b) rfl
  have data : BufferObj.vendorBuf
      ⟨before ++ tlv wpsIdVendorExt (shareableExt shareable), later, dataLength, around⟩
      ⟨b.pos + 7, b.ntohs 2 - 3⟩ = ⟨[], [2, 1, shareable], 3, around⟩ := by
    have split : before ++ tlv wpsIdVendorExt (shareableExt shareable) ++ later =
        (before ++ (wpsHtons wpsIdVendorExt ++ wpsHtons 6 ++ wfaVendorExtId)) ++ ([2, 1, shareable] ++ later) := by
      simp [tlv, shareableExt, wfaVendorExtId, wpsWfaSubidNwKeyShareable]
    rw [six, BufferObj.vendorBuf, BufferObj.bytes]
    dsimp only
    rw [split, List.drop_left' (by simp [b, BufferObj.pos, wfaVendorExtId])]
    rfl
  rw [next] at parsed
  unfold nwKeyShareableParse
  rw [parsed]
  dsimp only
  rw [data, if_pos]
  · rfl
  · exact ⟨rfl, rfl, Nat.le_refl 3⟩

theorem shareable_back (value : Option UInt8) (rest : Leaves (aKeyTurn start len)
      ⟨{ credential with nwKeyShareable := value.getD credential.nwKeyShareable },
        ⟨before ++ optionalTlv wpsIdVendorExt (shareableValue value), later, dataLength, around⟩⟩ result) :
    Leaves (aKeyTurn start len) ⟨credential,
      ⟨before, optionalTlv wpsIdVendorExt (shareableValue value) ++ later, dataLength, around⟩⟩ result := by
  refine element_back ?_ ?_ rest
  · intro unset
    rw [Option.map_eq_none_iff.mp unset]
    rfl
  · intro bytes set
    obtain ⟨shareable, rfl, rfl⟩ := Option.map_eq_some_iff.mp set
    unfold aKeyTurn
    dsimp only
    rw [nextType_at (by decide), if_neg (by decide), if_neg (by decide), if_neg (by decide), if_neg (by decide),
      if_neg (by decide), if_neg (by decide), if_pos rfl, nwKeyShareableParse_at]
    rfl

theorem elements_leave (c : CTlvCredential) : Leaves (aKeyTurn start len)
    ⟨credential, ⟨before, elementBytes c, dataLength, around⟩⟩
    ⟨withElements credential c, ⟨before ++ elementBytes c, [], dataLength, around⟩⟩ := by
  unfold elementBytes
  refine lifetime_back _ (rekeyKey_back _ (x509Cert_back _ (wepKeyIndex_back _ (shareable_back _ ?_))))
  apply Loop.leaves_of_leave
  rw [aKeyTurn_ends (Or.inl nextType_end)]
  simp only [withElements, List.append_assoc, List.append_nil]

theorem nextType_elements (c : CTlvCredential) :
    BufferObj.nextType ⟨before, elementBytes c, dataLength, around⟩ ∈ 0 :: aKeyElements := by
  unfold elementBytes
  rw [nextType_optional (by decide), nextType_optional (by decide), nextType_optional (by decide),
    nextType_optional (by decide), nextType_optional (by decide), nextType_end]
  repeat' split
  all_goals decide

/-- What is read from the network key on. An index behind the key ends it. -/
def keyRead (old : Credential) (c : CTlvCredential) : Credential :=
  let keyed := { old with nwKey := cutCopy 64 c.nwKey.val, macAddr := cutCopy 6 c.macAddr.val }
  if c.nwKeyIndex.isSome then keyed
  else withElements { keyed with
    eapType := cutText old.eapType 8 c.eapType, eapIdentity := cutText old.eapIdentity 0 c.eapIdentity } c

theorem nextType_identity (c : CTlvCredential) : BufferObj.nextType ⟨before,
    optionalTlv wpsIdEapIdentity (textValue c.eapIdentity) ++ elementBytes c, dataLength, around⟩ ∈
      wpsIdEapIdentity :: 0 :: aKeyElements := by
  rw [nextType_optional (by decide)]
  split
  · exact List.mem_cons_self
  · exact List.mem_cons_of_mem _ (nextType_elements c)

theorem aKey_read (c : CTlvCredential) : ∃ buf, Leaves (aKeyTurn start len)
    (aKeyBegin ⟨credential, ⟨before, keyedBytes c, dataLength, around⟩⟩) ⟨keyRead credential c, buf⟩ := by
  unfold aKeyBegin keyedBytes keyRead
  dsimp only
  rw [tlvDserializeCopy_cut _ _ (by decide) c.nwKey.property]
  dsimp only
  rw [tlvDserializeCopy_cut _ _ (by decide) c.macAddr.property]
  dsimp only
  cases set : c.nwKeyIndex with
  | some index =>
    have type : ∀ before, BufferObj.nextType ⟨before,
      optionalTlv wpsIdNwKeyIndex (byteValue (some index)) ++ behindIndex c,
        dataLength, around⟩ = wpsIdNwKeyIndex := fun before => nextType_at (by decide) _
    rw [copyParse, if_neg (by rw [type]; decide)]
    dsimp only
    rw [copyParse, if_neg (by rw [type]; decide)]
    dsimp only
    rw [byteParse_other _ (by rw [type]; decide)]
    dsimp only
    rw [byteParse_other _ (by rw [type]; decide)]
    exact ⟨_, Loop.leaves_of_leave (aKeyTurn_ends (Or.inr (type _)))⟩
  | none =>
    have identity := fun before => @nextType_identity before dataLength around c
    have elements := fun before => @nextType_elements before dataLength around c
    have none_ : optionalTlv wpsIdNwKeyIndex (byteValue none) = [] := rfl
    rw [none_, List.nil_append, behindIndex]
    obtain ⟨_, eapType⟩ := copyParse_optional credential.eapType 8 c.eapType
      (show wpsIdEapType < 65536 by decide)
      (fun same => absurd (identity (before ++ tlv wpsIdNwKey c.nwKey.val ++ tlv wpsIdMacAddr c.macAddr.val))
        (by rw [same]; decide))
    rw [eapType]
    dsimp only
    obtain ⟨_, eapIdentity⟩ := copyParse_optional credential.eapIdentity 0 c.eapIdentity
      (show wpsIdEapIdentity < 65536 by decide)
      (fun same => absurd (elements (before ++ tlv wpsIdNwKey c.nwKey.val ++ tlv wpsIdMacAddr c.macAddr.val ++
        optionalTlv wpsIdEapType (textValue c.eapType))) (by rw [same]; decide))
    rw [eapIdentity]
    dsimp only
    rw [byteParse_other _ (fun same => absurd (elements _) (by rw [same]; decide))]
    dsimp only
    rw [byteParse_other _ (fun same => absurd (elements _) (by rw [same]; decide))]
    exact ⟨_, elements_leave c⟩

/-- What is read of a credential that was written. -/
def readBack (old : Credential) (c : CTlvCredential) : Credential :=
  keyRead { old with
    nwIndex := c.nwIndex, ssid := cutCopy 32 c.ssid.val, authType := c.authType.toNat
    encrType := c.encrType.toNat, nwKeyIndex := 1 } c

theorem cplxtlvParseHdr_at (small : theType < 65536) {value : Bytes} (fits : value.length < 65536) :
    cplxtlvParseHdr theType ⟨before, tlv theType value ++ later, dataLength, around⟩ 0 =
      some (value.length, ⟨before ++ (wpsHtons theType ++ wpsHtons value.length), value ++ later,
        dataLength, around⟩) := by
  have here : BufferObj.rest ⟨before, tlv theType value ++ later, dataLength, around⟩ = tlv theType value ++
    later := rfl
  have room := BufferObj.remaining_tlv here
  unfold cplxtlvParseHdr
  rw [if_neg (by omega), BufferObj.ntohs_tlv here small, if_neg (not_not.mpr rfl),
    BufferObj.ntohs_tlv_len here fits, if_neg (Nat.not_lt_zero _), if_neg (by omega)]
  rfl

theorem keyed_settles (c : CTlvCredential) (inside : before.length < start + len) : ∃ buf, Settles (fun turns =>
    (indexedKeyParse turns start len ⟨credential, ⟨before, keyedBytes c, dataLength, around⟩⟩).bind fun scan =>
      (if scan.buf.pos < start + len ∧ scan.buf.nextType = wpsIdNwKey then
        credentialParseAKey turns start len ⟨{ scan.credential with nwKeyIndex := 1 }, scan.buf⟩ else some scan).map
          fun scan => CredentialScan.mk scan.credential (scan.buf.set (start + len)))
      (some (CredentialScan.mk (keyRead { credential with nwKeyIndex := 1 } c) buf)) := by
  have type : BufferObj.nextType ⟨before, keyedBytes c, dataLength, around⟩ = wpsIdNwKey := nextType_at (by decide) _
  obtain ⟨buf, left⟩ := @aKey_read before dataLength around start len { credential with nwKeyIndex := 1 } c
  refine ⟨buf.set (start + len), ?_⟩
  have plain : ∀ turns, indexedKeyParse turns start len ⟨credential, ⟨before, keyedBytes c, dataLength, around⟩⟩ =
      some ⟨credential, ⟨before, keyedBytes c, dataLength, around⟩⟩ := by
    intro turns
    refine if_neg ?_
    rw [type]
    decide
  have again : BufferObj.pos ⟨before, keyedBytes c, dataLength, around⟩ < start + len ∧
      BufferObj.nextType ⟨before, keyedBytes c, dataLength, around⟩ = wpsIdNwKey := ⟨inside, type⟩
  simp only [plain, Option.bind_some, if_pos again]
  exact Settles.map (Settles.loop left)
    (Option.map fun scan => CredentialScan.mk scan.credential (scan.buf.set (start + len)))

theorem tlvCredentialParse_settles (old : Credential) (c : CTlvCredential) (fits : (credentialBody c).length < 65536) :
    ∃ buf, Settles (fun turns => tlvCredentialParseInto turns old
      ⟨before, tlv wpsIdCredential (credentialBody c), dataLength, around⟩) (some ⟨readBack old c, buf⟩) := by
  have header := @cplxtlvParseHdr_at before [] dataLength around wpsIdCredential (by decide) _ fits
  rw [List.append_nil, List.append_nil] at header
  unfold tlvCredentialParseInto credentialHead
  rw [header]
  dsimp only
  rw [credentialBody, tlvDserializeByte_at _ _ (by decide)]
  dsimp only
  rw [tlvDserializeCopy_cut _ _ (by decide) c.ssid.property]
  dsimp only
  rw [tlvDserializeShort_at _ (by decide) c.authType.toNat_lt]
  dsimp only
  rw [tlvDserializeShort_at _ (by decide) c.encrType.toNat_lt]
  refine keyed_settles c ?_
  rw [BufferObj.pos]
  simp only [List.length_append, length_tlv, length_wpsHtons, keyedBytes]
  omega

end

/-- Nothing is set that is written behind the index of a key. -/
structure NothingBehind (c : CTlvCredential) : Prop where
  eapType : c.eapType.val = []
  eapIdentity : c.eapIdentity.val = []
  keyLifetime : c.keyLifetime = none
  rekeyKey : c.rekeyKey.val = []
  x509Cert : c.x509Cert.val = []
  wepKeyIndex : c.wepKeyIndex = none
  nwKeyShareable : c.nwKeyShareable = none

/-- The texts have the sizes that the reader allows, an index of the key is 1 and nothing is
written behind it, and what is never written is not set. -/
structure Recoverable (c : CTlvCredential) : Prop where
  fits : credentialSize c < 65536
  ssid : c.ssid.val.length ≤ 32
  nwKey : c.nwKey.val.length ≤ 64
  macAddr : c.macAddr.val.length ≤ 6
  eapType : c.eapType.val.length ≤ 8
  index : ∀ index, c.nwKeyIndex = some index → index = 1 ∧ NothingBehind c
  keyProvidedAuto : c.keyProvidedAuto = none
  oneXEnabled : c.oneXEnabled = none

/-- A number other than the one that is set. -/
def contrary (value : Option UInt8) : UInt8 := value.getD 0 + 1

/-- A credential whose numbers are not those that are set in this one. -/
def Credential.against (c : CTlvCredential) : Credential := { Credential.unset with
  keyProvidedAuto := contrary c.keyProvidedAuto, oneXEnabled := contrary c.oneXEnabled
  keyLifetime := (c.keyLifetime.getD 0).toNat + 1, wepKeyIndex := contrary c.wepKeyIndex
  nwKeyShareable := contrary c.nwKeyShareable }

variable {c : CTlvCredential} {old : Credential}

theorem against_initialised : (Credential.against c).Initialised := ⟨rfl, rfl, rfl, rfl, rfl, rfl, rfl⟩

theorem contrary_ne {value : Option UInt8} {byte : UInt8} (set : value = some byte) : contrary value ≠ byte := by
  rw [set, contrary, Option.getD_some]
  simp

theorem readBack_indexed {index : UInt8} (set : c.nwKeyIndex = some index) : readBack old c = { old with
    nwIndex := c.nwIndex, ssid := cutCopy 32 c.ssid.val, authType := c.authType.toNat
    encrType := c.encrType.toNat, nwKeyIndex := 1, nwKey := cutCopy 64 c.nwKey.val
    macAddr := cutCopy 6 c.macAddr.val } := by
  simp [readBack, keyRead, set]

theorem readBack_plain (unset : c.nwKeyIndex = none) : readBack old c = withElements { old with
    nwIndex := c.nwIndex, ssid := cutCopy 32 c.ssid.val, authType := c.authType.toNat
    encrType := c.encrType.toNat, nwKeyIndex := 1, nwKey := cutCopy 64 c.nwKey.val
    macAddr := cutCopy 6 c.macAddr.val, eapType := cutText old.eapType 8 c.eapType
    eapIdentity := cutText old.eapIdentity 0 c.eapIdentity } c := by
  simp [readBack, keyRead, unset]

theorem readBack_inOrder (old : Credential) (c : CTlvCredential) :
    (readBack old c).nwIndex = c.nwIndex ∧ (readBack old c).ssid = cutCopy 32 c.ssid.val ∧
      (readBack old c).authType = c.authType.toNat ∧ (readBack old c).encrType = c.encrType.toNat ∧
      (readBack old c).nwKeyIndex = 1 ∧ (readBack old c).nwKey = cutCopy 64 c.nwKey.val ∧
      (readBack old c).macAddr = cutCopy 6 c.macAddr.val ∧
      (readBack old c).keyProvidedAuto = old.keyProvidedAuto ∧ (readBack old c).oneXEnabled = old.oneXEnabled := by
  cases set : c.nwKeyIndex with
  | none =>
    rw [readBack_plain set]
    exact ⟨rfl, rfl, rfl, rfl, rfl, rfl, rfl, rfl, rfl⟩
  | some index =>
    rw [readBack_indexed set]
    exact ⟨rfl, rfl, rfl, rfl, rfl, rfl, rfl, rfl, rfl⟩

theorem cutText_of {dataSize : Nat} {value : TlvText} {kept : TlvCopy} (there : value.val ≠ [])
    (fits : dataSize = 0 ∨ value.val.length ≤ dataSize) : cutText kept dataSize value = .of value.val := by
  rw [cutText, if_neg there]
  exact cutCopy_of.mpr fits

theorem getD_of {value : Option UInt8} {byte kept : UInt8} (set : value = some byte) : value.getD kept = byte := by
  rw [set, Option.getD_some]

theorem recovers_readBack (fine : Recoverable c) : Recovers c (readBack old c) := by
  obtain ⟨nwIndex, ssid, authType, encrType, nwKeyIndex, nwKey, macAddr, _, _⟩ := readBack_inOrder old c
  -- whatever is set behind the key, there is no index in front of it
  have plain : (NothingBehind c → False) → c.nwKeyIndex = none := by
    intro set
    cases indexed : c.nwKeyIndex with
    | none => rfl
    | some index => exact (set (fine.index index indexed).2).elim
  constructor
  case nwIndex => exact nwIndex
  case ssid => exact ssid.trans (cutCopy_of.mpr (Or.inr fine.ssid))
  case authType => exact authType
  case encrType => exact encrType
  case nwKeyIndex =>
    intro index there
    exact nwKeyIndex.trans (fine.index index there).1.symm
  case nwKey => exact nwKey.trans (cutCopy_of.mpr (Or.inr fine.nwKey))
  case macAddr => exact macAddr.trans (cutCopy_of.mpr (Or.inr fine.macAddr))
  case eapType =>
    intro there
    rw [readBack_plain (plain fun none_ => there none_.eapType)]
    exact cutText_of there (Or.inr fine.eapType)
  case eapIdentity =>
    intro there
    rw [readBack_plain (plain fun none_ => there none_.eapIdentity)]
    exact cutText_of there (Or.inl rfl)
  case keyLifetime =>
    intro lifetime there
    rw [readBack_plain (plain fun none_ => Option.some_ne_none _ (there.symm.trans none_.keyLifetime)),
      withElements, there]
    rfl
  case rekeyKey =>
    intro there
    rw [readBack_plain (plain fun none_ => there none_.rekeyKey)]
    exact cutText_of there (Or.inl rfl)
  case x509Cert =>
    intro there
    rw [readBack_plain (plain fun none_ => there none_.x509Cert)]
    exact cutText_of there (Or.inl rfl)
  case keyProvidedAuto =>
    intro provided there
    exact absurd (there.symm.trans fine.keyProvidedAuto) (Option.some_ne_none _)
  case oneXEnabled =>
    intro enabled there
    exact absurd (there.symm.trans fine.oneXEnabled) (Option.some_ne_none _)
  case wepKeyIndex =>
    intro index there
    rw [readBack_plain (plain fun none_ => Option.some_ne_none _ (there.symm.trans none_.wepKeyIndex))]
    exact getD_of there
  case nwKeyShareable =>
    intro shareable there
    rw [readBack_plain (plain fun none_ => Option.some_ne_none _ (there.symm.trans none_.nwKeyShareable))]
    exact getD_of there

theorem unset_of_contrary {value : Option UInt8} (same : ∀ byte, value = some byte → contrary value = byte) :
    value = none := by
  cases read : value with
  | none => rfl
  | some byte => exact absurd (same byte read) (contrary_ne read)

theorem nothing_behind {index : UInt8} (set : c.nwKeyIndex = some index)
    (recovers : Recovers c (readBack (.against c) c)) : NothingBehind c := by
  have unset : ∀ {value : TlvText}, (value.val ≠ [] → TlvCopy.unset = .of value.val) → value.val = [] := by
    intro value same
    by_contra there
    exact there (List.length_eq_zero_iff.mp (congrArg TlvCopy.len (same there)).symm)
  rw [readBack_indexed set] at recovers
  refine ⟨unset recovers.eapType, unset recovers.eapIdentity, ?_, unset recovers.rekeyKey, unset recovers.x509Cert,
    unset_of_contrary recovers.wepKeyIndex, unset_of_contrary recovers.nwKeyShareable⟩
  cases read : c.keyLifetime with
  | none => rfl
  | some lifetime =>
    have same : (c.keyLifetime.getD 0).toNat + 1 = lifetime.toNat := recovers.keyLifetime lifetime read
    rw [read, Option.getD_some] at same
    omega

theorem recoverable_of (fits : credentialSize c < 65536) (recovers : Recovers c (readBack (.against c) c)) :
    Recoverable c := by
  obtain ⟨_, ssid, _, _, nwKeyIndex, nwKey, macAddr, provided, enabled⟩ := readBack_inOrder (.against c) c
  have small : ∀ {dataSize : Nat} {value : Bytes}, dataSize ≠ 0 → cutCopy dataSize value = .of value →
      value.length ≤ dataSize := fun some_ same => (cutCopy_of.mp same).resolve_left some_
  refine ⟨fits, small (by decide) (ssid.symm.trans recovers.ssid), small (by decide) (nwKey.symm.trans recovers.nwKey),
    small (by decide) (macAddr.symm.trans recovers.macAddr), ?_, ?_, ?_, ?_⟩
  · cases set : c.nwKeyIndex with
    | some index =>
      rw [(nothing_behind set recovers).eapType]
      exact Nat.zero_le _
    | none =>
      by_cases unset : c.eapType.val = []
      · rw [unset]
        exact Nat.zero_le _
      · have same := recovers.eapType unset
        rw [readBack_plain set] at same
        change cutText _ 8 c.eapType = _ at same
        rw [cutText, if_neg unset] at same
        exact small (by decide) same
  · intro index set
    exact ⟨(recovers.nwKeyIndex index set).symm.trans nwKeyIndex, nothing_behind set recovers⟩
  · exact unset_of_contrary fun byte read => provided.symm.trans (recovers.keyProvidedAuto byte read)
  · exact unset_of_contrary fun byte read => enabled.symm.trans (recovers.oneXEnabled byte read)

theorem tlvCredentialWrite_fits (fits : credentialSize c < 65536) (theBuf : Bytes) :
    tlvCredentialWrite c theBuf = theBuf ++ tlv wpsIdCredential (credentialBody c) := by
  rw [tlvCredentialWrite_eq, credentialLen_eq, Nat.mod_eq_of_lt fits, ← length_credentialBody, tlv]

theorem recoverable_of_trips (trips : RoundTrips c) : Recoverable c := by
  obtain ⟨body, written, small⟩ := trips.counted []
  have same : credentialBody c = body := by
    rw [tlvCredentialWrite_eq, tlv] at written
    exact (List.append_inj (List.append_cancel_left written) (by simp)).2
  have fits : credentialSize c < 65536 := by
    rw [← length_credentialBody, same]
    exact small
  obtain ⟨scan, settled, recovers⟩ := trips.recovered (.against c) [] 0 ⟨fun _ => 0, fun _ => 0⟩ against_initialised
  rw [tlvCredentialWrite_fits fits, List.nil_append] at settled
  obtain ⟨buf, also⟩ := tlvCredentialParse_settles (.against c) c (by rw [length_credentialBody]; exact fits)
  cases Option.some.inj (also.unique settled)
  exact recoverable_of fits recovers

theorem trips_of_recoverable (fine : Recoverable c) : RoundTrips c := by
  have fits : (credentialBody c).length < 65536 := by
    rw [length_credentialBody]
    exact fine.fits
  constructor
  · intro theBuf
    exact ⟨_, tlvCredentialWrite_fits fine.fits theBuf, fits⟩
  · intro old before dataLength around _
    obtain ⟨buf, settled⟩ := @tlvCredentialParse_settles before dataLength around old c fits
    rw [tlvCredentialWrite_fits fine.fits, List.nil_append]
    exact ⟨_, settled, recovers_readBack fine⟩

/-- A credential is recovered from the bytes it is written as exactly if it has no index of its
key other than 1 or with anything behind it, nothing that is never written, and texts of the
sizes that the reader allows. -/
theorem credential_roundTrips_iff (c : CTlvCredential) : RoundTrips c ↔ Recoverable c :=
  ⟨recoverable_of_trips, trips_of_recoverable⟩

/-- A WEP network with the second of its keys, for a device of the first version. -/
def indexedWep : CTlvCredential :=
  { nwIndex := 1, ssid := ⟨[0x61], by decide⟩, authType := 1, encrType := 2, nwKeyIndex := some 1
    nwKey := ⟨[1, 2, 3, 4, 5], by decide⟩, macAddr := ⟨[2, 0, 0, 0, 0, 1], by decide⟩, eapType := ⟨[], by decide⟩
    eapIdentity := ⟨[], by decide⟩, keyLifetime := none, rekeyKey := ⟨[], by decide⟩, x509Cert := ⟨[], by decide⟩
    keyProvidedAuto := none, oneXEnabled := none, wepKeyIndex := some 2, nwKeyShareable := none }

/-- The index of the network key is written behind the key, and hides the one for WEP. -/
theorem indexedWep_hidden : ¬RoundTrips indexedWep ∧
    (tlvCredentialParse 2 (.dserial (tlvCredentialWrite indexedWep []) ⟨fun _ => 0, fun _ => 0⟩)).map
      (fun scan => (scan.credential.nwKey, scan.credential.wepKeyIndex)) = some (.of [1, 2, 3, 4, 5], 0) ∧
    (tlvCredentialParse 2 (.dserial (tlvCredentialWrite { indexedWep with nwKeyIndex := none } [])
      ⟨fun _ => 0, fun _ => 0⟩)).map (fun scan => scan.credential.wepKeyIndex) = some 2 := by
  refine ⟨fun trips => ?_, by decide +kernel, by decide +kernel⟩
  exact absurd ((recoverable_of_trips trips).index 1 rfl).2.wepKeyIndex (by decide)

end BcmDhd.Wps
