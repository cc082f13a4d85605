import BcmDhd.Wps.Tlv

/-! The types of attributes and of the elements inside a vendor extension. -/

namespace BcmDhd.Attributes

open BcmDhd.Wps

def wpsIdApChannel : Nat := 0x1001
def wpsIdConfUrl4 : Nat := 0x100A
def wpsIdConfUrl6 : Nat := 0x100B
def wpsIdConnType : Nat := 0x100C
def wpsIdFeatureId : Nat := 0x101B
def wpsIdIdentity : Nat := 0x101C
def wpsIdKeyIdentifier : Nat := 0x101F
def wpsIdNewDeviceName : Nat := 0x1029
def wpsIdOobDevPwd : Nat := 0x102C
def wpsIdPowerLevel : Nat := 0x102F
def wpsIdPskCurrent : Nat := 0x1030
def wpsIdPskMax : Nat := 0x1031
def wpsIdRadioEnabled : Nat := 0x1033
def wpsIdReboot : Nat := 0x1034
def wpsIdRegistrarCurrent : Nat := 0x1035
def wpsIdRegistrarEstblshd : Nat := 0x1036
def wpsIdRegistrarMax : Nat := 0x1038
def wpsIdReqType : Nat := 0x103A
def wpsIdRespType : Nat := 0x103B
def wpsIdSelRegistrar : Nat := 0x1041
def wpsIdScState : Nat := 0x1044
def wpsIdTotNetworks : Nat := 0x1046
def wpsIdUuidE : Nat := 0x1047
def wpsIdPubkeyHash : Nat := 0x104F
def wpsIdSelRegCfgMethods : Nat := 0x1053
def wpsIdPortableDevice : Nat := 0x1056
def wpsIdApSetupLocked : Nat := 0x1057
def wpsIdAppList : Nat := 0x1058
def wpsIdInitVector : Nat := 0x1060

def wpsWfaSubidAuthorizedMacs : Nat := 1
def wpsWfaSubidReqToEnroll : Nat := 3
def wpsWfaSubidSettingsDelayTime : Nat := 4
def wpsWfaSubidRegCfgMethods : Nat := 5

inductive TlvType
  | uint8
  | uint16
  | uint32
  | charPtr
  | uint8Ptr
  | credential
deriving DecidableEq

/-- Flags and small numbers. -/
def uint8Types : List Nat :=
  [wpsIdRadioEnabled, wpsIdReboot, wpsIdRegistrarEstblshd, wpsIdSelRegistrar, wpsIdPortableDevice,
    wpsIdApSetupLocked, wpsIdKeyProvidedAuto, wpsId8021xEnabled,
    wpsIdConnType, wpsIdConnTypeFlags, wpsIdMsgType, wpsIdNwIndex, wpsIdNwKeyIndex, wpsIdPowerLevel,
    wpsIdPskCurrent, wpsIdPskMax, wpsIdRegistrarCurrent, wpsIdRegistrarMax, wpsIdReqType, wpsIdRespType,
    wpsIdRfBand, wpsIdScState, wpsIdTotNetworks, wpsIdVersion, wpsIdWepTransmitKey]

def uint16Types : List Nat :=
  [wpsIdApChannel, wpsIdAssocState, wpsIdAuthType, wpsIdAuthTypeFlags, wpsIdConfigMethods, wpsIdConfigError,
    wpsIdDevicePwdId, wpsIdEncrType, wpsIdEncrTypeFlags, wpsIdPermCfgMethods, wpsIdSelRegCfgMethods]

def uint32Types : List Nat := [wpsIdFeatureId, wpsIdOsVersion, wpsIdKeyLifetime]

def charPtrTypes : List Nat :=
  [wpsIdConfUrl4, wpsIdConfUrl6, wpsIdDeviceName, wpsIdIdentity, wpsIdIdentityProof, wpsIdManufacturer,
    wpsIdModelName, wpsIdModelNumber, wpsIdNwKey, wpsIdNewDeviceName, wpsIdNewPwd, wpsIdSerialNum, wpsIdAppList]

def uint8PtrTypes : List Nat :=
  [wpsIdMacAddr, wpsIdAuthenticator, wpsIdKeyWrapAuth, wpsIdRSnonce1, wpsIdESnonce1, wpsIdRSnonce2,
    wpsIdESnonce2, wpsIdEnrolleeNonce, wpsIdKeyIdentifier, wpsIdRegistrarNonce, wpsIdUuidE, wpsIdUuidR,
    wpsIdPubkeyHash, wpsIdEHash1, wpsIdEHash2, wpsIdRHash1, wpsIdRHash2, wpsIdInitVector, wpsIdSsid,
    wpsIdRekeyKey, wpsIdPublicKey, wpsIdEapIdentity, wpsIdX509Cert, wpsIdX509CertReq, wpsIdEapType]

/-- The type that an attribute's value has; nothing for an attribute of no known type. -/
def tlvGettype (theType : Nat) : Option TlvType :=
  if theType ∈ uint8Types then some .uint8
  else if theType ∈ uint16Types then some .uint16
  else if theType ∈ uint32Types then some .uint32
  else if theType ∈ charPtrTypes then some .charPtr
  else if theType ∈ uint8PtrTypes then some .uint8Ptr
  else if theType = wpsIdCredential then some .credential
  else none

def subtlvGetid (theId : Nat) : Option TlvType :=
  if theId ∈ [wpsWfaSubidNwKeyShareable, wpsWfaSubidReqToEnroll, wpsWfaSubidVersion2, wpsWfaSubidSettingsDelayTime]
  then some .uint8
  else if theId = wpsWfaSubidAuthorizedMacs then some .uint8Ptr
  else if theId = wpsWfaSubidRegCfgMethods then some .uint16
  else none

/-- How a value is kept: as a number of so many bytes, or behind a pointer. -/
inductive Kind
  | number (size : Nat)
  | pointer
deriving DecidableEq

def TlvType.kind : TlvType → Option Kind
  | .uint8 => some (.number 1)
  | .uint16 => some (.number 2)
  | .uint32 => some (.number 4)
  | .charPtr => some .pointer
  | .uint8Ptr => some .pointer
  | .credential => none

theorem tlvGettype_small {theType : Nat} (known : tlvGettype theType ≠ none) : theType < 65536 := by
  have first : ∀ t ∈ uint8Types ++ uint16Types ++ uint32Types ++ charPtrTypes ++ uint8PtrTypes, t < 65536 := by decide
  unfold tlvGettype at known
  split at known
  · exact first theType (by simp [*])
  split at known
  · exact first theType (by simp [*])
  split at known
  · exact first theType (by simp [*])
  split at known
  · exact first theType (by simp [*])
  split at known
  · exact first theType (by simp [*])
  split at known
  · rename_i same
    subst same
    decide
  · exact absurd rfl known

theorem subtlvGetid_small {theId : Nat} (known : subtlvGetid theId ≠ none) : theId < 256 := by
  unfold subtlvGetid at known
  split at known
  · rename_i member
    have first : ∀ id ∈ [wpsWfaSubidNwKeyShareable, wpsWfaSubidReqToEnroll, wpsWfaSubidVersion2,
        wpsWfaSubidSettingsDelayTime], id < 256 := by decide
    exact first theId member
  split at known
  · rename_i same
    subst same
    decide
  split at known
  · rename_i same
    subst same
    decide
  · exact absurd rfl known

theorem TlvType.kind_number {type : Option TlvType} {size : Nat}
    (number : type.bind TlvType.kind = some (.number size)) :
    0 < size ∧ size ≤ 4 := by
  obtain ⟨known, _, same⟩ := Option.bind_eq_some_iff.mp number
  cases known <;> cases same <;> decide

/-- Attributes and elements are laid out alike. They differ in how many bytes a type takes,
and a length, and in what an empty value that is not copied points to. -/
structure Format where
  width : Nat
  kind : Nat → Option Kind
  /-- An empty value is the empty string. -/
  blank : Bool
  wide : 0 < width
  /-- A type that is known fits in its bytes. -/
  narrow : ∀ {theType : Nat} {known : Kind}, kind theType = some known → theType < 256 ^ width
  numbers : ∀ {theType size : Nat}, kind theType = some (.number size) → 0 < size ∧ size ≤ 4

def tlvFormat : Format where
  width := 2
  kind := fun theType => (tlvGettype theType).bind TlvType.kind
  blank := true
  wide := by decide
  narrow := by
    intro theType known same
    refine tlvGettype_small fun none_ => ?_
    rw [none_] at same
    cases same
  numbers := TlvType.kind_number

def subtlvFormat : Format where
  width := 1
  kind := fun theId => (subtlvGetid theId).bind TlvType.kind
  blank := false
  wide := by decide
  narrow := by
    intro theId known same
    refine subtlvGetid_small fun none_ => ?_
    rw [none_] at same
    cases same
  numbers := TlvType.kind_number

/-- `sizeof(WpsTlvHdr)` or `sizeof(WpsSubTlvHdr)`. -/
def Format.header (format : Format) : Nat := 2 * format.width

end BcmDhd.Attributes
