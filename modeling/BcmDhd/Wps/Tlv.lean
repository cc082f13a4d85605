import BcmDhd.Wps.BuffObj

/-! The attributes of a message: type, length, value. -/

namespace BcmDhd.Wps

open BcmDhd.Lib

def wpsIdAssocState : Nat := 0x1002
def wpsIdAuthType : Nat := 0x1003
def wpsIdAuthTypeFlags : Nat := 0x1004
def wpsIdAuthenticator : Nat := 0x1005
def wpsIdConfigMethods : Nat := 0x1008
def wpsIdConfigError : Nat := 0x1009
def wpsIdConnTypeFlags : Nat := 0x100D
def wpsIdCredential : Nat := 0x100E
def wpsIdDeviceName : Nat := 0x1011
def wpsIdDevicePwdId : Nat := 0x1012
def wpsIdEapIdentity : Nat := 0x104D
def wpsIdEapType : Nat := 0x1059
def wpsIdEHash1 : Nat := 0x1014
def wpsIdEHash2 : Nat := 0x1015
def wpsIdESnonce1 : Nat := 0x1016
def wpsIdESnonce2 : Nat := 0x1017
def wpsIdEncrSettings : Nat := 0x1018
def wpsIdEncrType : Nat := 0x100F
def wpsIdEncrTypeFlags : Nat := 0x1010
def wpsIdEnrolleeNonce : Nat := 0x101A
def wpsIdIdentityProof : Nat := 0x101D
def wpsIdKeyLifetime : Nat := 0x1051
def wpsIdKeyProvidedAuto : Nat := 0x1061
def wpsIdKeyWrapAuth : Nat := 0x101E
def wpsIdMacAddr : Nat := 0x1020
def wpsIdManufacturer : Nat := 0x1021
def wpsIdMsgType : Nat := 0x1022
def wpsIdModelName : Nat := 0x1023
def wpsIdModelNumber : Nat := 0x1024
def wpsIdNwIndex : Nat := 0x1026
def wpsIdNwKey : Nat := 0x1027
def wpsIdNwKeyIndex : Nat := 0x1028
def wpsIdNewPwd : Nat := 0x102A
def wpsIdOsVersion : Nat := 0x102D
def wpsIdPublicKey : Nat := 0x1032
def wpsIdRegistrarNonce : Nat := 0x1039
def wpsIdRekeyKey : Nat := 0x1050
def wpsIdRfBand : Nat := 0x103C
def wpsIdRHash1 : Nat := 0x103D
def wpsIdRHash2 : Nat := 0x103E
def wpsIdRSnonce1 : Nat := 0x103F
def wpsIdRSnonce2 : Nat := 0x1040
def wpsIdSerialNum : Nat := 0x1042
def wpsIdSsid : Nat := 0x1045
def wpsIdUuidR : Nat := 0x1048
def wpsIdVendorExt : Nat := 0x1049
def wpsIdVersion : Nat := 0x104A
def wpsIdX509CertReq : Nat := 0x104B
def wpsIdX509Cert : Nat := 0x104C
def wpsIdPermCfgMethods : Nat := 0x1052
def wpsIdPrimDevType : Nat := 0x1054
def wpsIdWepTransmitKey : Nat := 0x1064
def wpsId8021xEnabled : Nat := 0x1062

def wpsWfaSubidVersion2 : Nat := 0
def wpsWfaSubidNwKeyShareable : Nat := 2

def wfaVendorExtId : Bytes := [0x00, 0x37, 0x2A]

/-- An attribute as it is written. -/
def tlv (theType : Nat) (value : Bytes) : Bytes :=
  wpsHtons theType ++ wpsHtons value.length ++ value

@[simp] theorem length_tlv (theType : Nat) (value : Bytes) :
    (tlv theType value).length = 4 + value.length := by simp [tlv]; omega

/-- What `m_data` points to: nothing, the empty string that stands for a value without
bytes, or a place in the buffer. -/
inductive Ptr
  | null
  | empty
  | inside (offset : Nat)
deriving DecidableEq

/-- A run that does not return: it reads through a null pointer or asks for memory that
is not there, or its loops have not left within the turns they were given. -/
inductive Halt
  | crash
  | unfinished
deriving DecidableEq

/-- The bytes from `offset` of the buffer on, wherever they are. -/
def BufferObj.load (b : BufferObj) (offset count : Nat) : Bytes :=
  (List.range count).map fun i =>
    (b.bytes[offset + i]?).getD (b.around.beyond (offset + i - b.bytes.length))

/-- The bytes that a pointer leads to. -/
def BufferObj.read (b : BufferObj) (data : Ptr) (count : Nat) : Except Halt Bytes :=
  match data with
  | .null => if count = 0 then .ok [] else .error .crash
  | .empty => .ok ((List.range count).map fun i => if i = 0 then 0 else b.around.blank (i - 1))
  | .inside offset => .ok (b.load offset count)

/-- An attribute that is left where it is. -/
structure TlvPtr where
  len : Nat
  data : Ptr
deriving DecidableEq

/-- An attribute before anything was read into it. -/
def TlvPtr.unset : TlvPtr := ⟨0, .null⟩

/-- An attribute whose value was copied, as far as it was allowed to be long. -/
structure TlvCopy where
  len : Nat
  bytes : Bytes
deriving DecidableEq

def TlvCopy.unset : TlvCopy := ⟨0, []⟩

/-- What a reader finds at the current place: not this type, a length that does not fit
in the buffer, or a value. -/
inductive Header
  | refused
  | truncated (len : Nat)
  | found (len : Nat)
deriving DecidableEq

/-- The checks at the start of `tlv_dserialize_imp`. -/
def BufferObj.header (b : BufferObj) (theType : Nat) : Header :=
  if b.remaining = 0 then .refused
  else if theType ≠ b.ntohs 0 then .refused
  else if b.remaining < b.ntohs 2 + 4 then .truncated (b.ntohs 2)
  else .found (b.ntohs 2)

/-- Past an attribute of this length, which is known to fit. -/
def BufferObj.past (b : BufferObj) (len : Nat) : BufferObj :=
  { b with before := b.before ++ b.rest.take (4 + len), rest := b.rest.drop (4 + len) }

/-- The result of a reader: whether it succeeded, what it has in hand, and the place. -/
structure Reading (Value : Type) where
  ok : Bool
  value : Value
  buf : BufferObj

/-- `m_len` after the limit `dataSize`, where 0 is none. -/
def limited (len dataSize : Nat) : Nat := if dataSize ≠ 0 ∧ dataSize < len then dataSize else len

/-- `tlv_dserialize` of a pointer attribute without a copy. -/
def tlvDserialize (old : TlvPtr) (theType : Nat) (b : BufferObj) (dataSize : Nat) : Reading TlvPtr :=
  match b.header theType with
  | .refused => ⟨false, old, b⟩
  | .truncated len => ⟨false, { old with len := len }, b⟩
  | .found len =>
    let data := if limited len dataSize = 0 then .empty else .inside (b.pos + 4)
    ⟨true, ⟨limited len dataSize, data⟩, b.past len⟩

/-- `tlv_dserialize` of a pointer attribute with a copy. -/
def tlvDserializeCopy (old : TlvCopy) (theType : Nat) (b : BufferObj) (dataSize : Nat) :
    Reading TlvCopy :=
  match b.header theType with
  | .refused => ⟨false, old, b⟩
  | .truncated len => ⟨false, { old with len := len }, b⟩
  | .found len =>
    let kept := limited len dataSize
    ⟨true, ⟨kept, (b.rest.drop 4).take kept⟩, b.past len⟩

/-- `tlv_dserialize` of one byte, whatever its length says. -/
def tlvDserializeByte (old : UInt8) (theType : Nat) (b : BufferObj) : Reading UInt8 :=
  match b.header theType with
  | .found len => ⟨true, b.byteAt 4, b.past len⟩
  | _ => ⟨false, old, b⟩

/-- `tlv_dserialize` of two bytes. -/
def tlvDserializeShort (old : Nat) (theType : Nat) (b : BufferObj) : Reading Nat :=
  match b.header theType with
  | .found len => ⟨true, b.ntohs 4, b.past len⟩
  | _ => ⟨false, old, b⟩

/-- `tlv_dserialize` of four bytes. -/
def tlvDserializeWord (old : Nat) (theType : Nat) (b : BufferObj) : Reading Nat :=
  match b.header theType with
  | .found len => ⟨true, b.ntohs 4 * 65536 + b.ntohs 6, b.past len⟩
  | _ => ⟨false, old, b⟩

/-- `cplxtlv_parseHdr`: the length, and the place behind the header. -/
def cplxtlvParseHdr (theType : Nat) (b : BufferObj) (minDataSize : Nat) : Option (Nat × BufferObj) :=
  if b.remaining < 4 + minDataSize then none
  else if theType ≠ b.ntohs 0 then none
  else if b.ntohs 2 < minDataSize then none
  else if b.remaining < b.ntohs 2 + 4 then none
  else some (b.ntohs 2, { b with before := b.before ++ b.rest.take 4, rest := b.rest.drop 4 })

/-- Where the initialisation vector is, and the number of bytes encrypted behind it. -/
structure EncrSettings where
  iv : Option Nat
  encrDataLength : Nat
deriving DecidableEq

def EncrSettings.unset : EncrSettings := ⟨none, 0⟩

def tlvEncrSettingsParse (old : EncrSettings) (b : BufferObj) : Reading EncrSettings :=
  match cplxtlvParseHdr wpsIdEncrSettings b 32 with
  | none => ⟨false, old, b⟩
  | some (len, _) => ⟨true, ⟨some (b.pos + 4), len - 16⟩, b.past len⟩

/-- One turn of `while (theType != buffobj_NextType(msg))` that leaves at the end of the
buffer. The length that is read behind the end does not matter there. -/
def skipTurn (theType : Nat) (b : BufferObj) : Turn BufferObj (Option BufferObj) :=
  if b.nextType = theType then .leave (some b)
  else match b.advance (4 + b.ntohs 2) with
    | some next => .again next
    | none => .leave none

/-- Where a vendor extension keeps its data. -/
structure VendorExt where
  vendorData : Nat
  dataLength : Nat
deriving DecidableEq

abbrev VendorId := {vendorId : Bytes // vendorId.length = 3}

def wfaVendorId : VendorId := ⟨wfaVendorExtId, rfl⟩

/-- One turn of the search in `tlv_find_vendorExtParse_imp`. What it compares with the size of
an identifier is not the length of the attribute, but the first two bytes behind its header. -/
def findVendorIdTurn (vendorId : VendorId) (b : BufferObj) : Turn BufferObj (Option BufferObj) :=
  if b.remaining = 0 then .leave none
  else if b.ntohs 0 = wpsIdVendorExt ∧ b.ntohs 4 < 3 then .leave none
  else if b.ntohs 0 = wpsIdVendorExt ∧ [b.byteAt 4, b.byteAt 5, b.byteAt 6] = vendorId.val then
    .leave (some b)
  else if b.remaining < b.ntohs 2 + 4 then .leave none
  else .again (b.past (b.ntohs 2))

/-- `tlv_vendorExtParse`. -/
def tlvVendorExtParse (b : BufferObj) : Option (VendorExt × BufferObj) :=
  match cplxtlvParseHdr wpsIdVendorExt b 3 with
  | none => none
  | some (len, _) => some (⟨b.pos + 7, len - 3⟩, b.past len)

/-- `tlv_find_vendorExtParse_imp` in a received message, where the buffer ends with the data;
nothing if the search does not end within `turns`. -/
def tlvFindVendorExtParseImp (vendorId : VendorId) (turns : Nat) (b : BufferObj) :
    Option (Option (VendorExt × BufferObj)) :=
  if b.dataLength = 0 then some none
  else (loopFor (findVendorIdTurn vendorId) turns b.rewind).map fun found => found.bind tlvVendorExtParse

/-- `tlv_find_vendorExtParse` for the WFA extension. -/
def tlvFindVendorExtParse (turns : Nat) (b : BufferObj) : Option (Option (VendorExt × BufferObj)) :=
  tlvFindVendorExtParseImp wfaVendorId turns b

/-- One turn of the search in `tlv_find_dserialize_imp`. What remains is first counted to
the end of the data, later to the end of the buffer. -/
def findTurn (theType : Nat) (search : BufferObj × Nat) : Turn (BufferObj × Nat) (Option BufferObj) :=
  let b := search.1
  if b.ntohs 0 = theType then .leave (if search.2 = 0 then none else some b)
  else if search.2 = 0 then .leave none
  else if search.2 < b.ntohs 2 + 4 then .leave none
  else match b.advance (4 + b.ntohs 2) with
    | some next => .again (next, next.remaining)
    | none => .again (b, b.remaining)

namespace BufferObj

variable {b : BufferObj} {theType len : Nat} {value later : Bytes}

section

variable (here : b.rest = tlv theType value ++ later)
include here

theorem remaining_tlv : b.remaining = 4 + value.length + later.length := by
  rw [remaining, here, List.length_append, length_tlv]

theorem ntohs_tlv (small : theType < 65536) :
    b.ntohs 0 = theType := by
  rw [ntohs_cons (by rw [here]; rfl), wpsHtons_toNat small]

theorem ntohs_tlv_len (fits : value.length < 65536) :
    b.ntohs 2 = value.length := by
  have high : b.byteAt 2 = UInt8.ofNat (value.length / 256) := by simp [byteAt, here, tlv, wpsHtons]
  have low : b.byteAt (2 + 1) = UInt8.ofNat value.length := by simp [byteAt, here, tlv, wpsHtons]
  rw [ntohs, high, low, wpsHtons_toNat fits]

theorem nextType_tlv (small : theType < 65536) :
    b.nextType = theType := by
  rw [nextType, if_neg (by rw [remaining_tlv here]; omega), ntohs_tlv here small]

theorem header_tlv (small : theType < 65536)
    (fits : value.length < 65536) : b.header theType = .found value.length := by
  have room := remaining_tlv here
  rw [header, if_neg (by omega), ntohs_tlv here small, if_neg (not_not.mpr rfl),
    ntohs_tlv_len here fits, if_neg (by omega)]

theorem header_other {other : Nat}
    (small : theType < 65536) (differs : other ≠ theType) : b.header other = .refused := by
  have room := remaining_tlv here
  rw [header, if_neg (by omega), ntohs_tlv here small, if_pos differs]

theorem past_tlv : b.past value.length = { b with before := b.before ++ tlv theType value, rest := later } := by
  rw [past, here, List.take_left' (length_tlv theType value), List.drop_left' (length_tlv theType value)]

end

@[simp] theorem length_load (b : BufferObj) (offset count : Nat) :
    (b.load offset count).length = count := by simp [load]

theorem length_read {data : Ptr} {count : Nat} {bytes : Bytes} (done : b.read data count = .ok bytes) :
    bytes.length = count := by
  unfold read at done
  split at done
  · split at done
    · cases done
      exact (by assumption : count = 0).symm
    · cases done
  · cases done
    simp
  · cases done
    simp

theorem load_inside {offset count : Nat} (inside : offset + count ≤ b.bytes.length) :
    b.load offset count = (b.bytes.drop offset).take count := by
  apply List.ext_getElem
  · rw [length_load, List.length_take, List.length_drop]
    omega
  · intro i small _
    rw [length_load] at small
    have there : offset + i < b.bytes.length := by omega
    simp [load, there]

end BufferObj

section

variable {before later : Bytes} {dataLength : Nat} {around : Surroundings} {theType : Nat}

theorem nextType_at (small : theType < 65536) (value : Bytes) :
    BufferObj.nextType ⟨before, tlv theType value ++ later, dataLength, around⟩ = theType :=
  BufferObj.nextType_tlv rfl small

theorem nextType_end : BufferObj.nextType ⟨before, [], dataLength, around⟩ = 0 := rfl

theorem skip_here (small : theType < 65536) (value : Bytes) :
    Leaves (skipTurn theType) ⟨before, tlv theType value ++ later, dataLength, around⟩
      (some ⟨before, tlv theType value ++ later, dataLength, around⟩) := by
  apply Loop.leaves_of_leave
  rw [skipTurn, nextType_at small, if_pos rfl]

theorem tlvDserializeCopy_at (old : TlvCopy) {value : Bytes} {dataSize : Nat} (small : theType < 65536)
    (fits : value.length < 65536) (limit : dataSize = 0 ∨ value.length ≤ dataSize) :
    tlvDserializeCopy old theType ⟨before, tlv theType value ++ later, dataLength, around⟩ dataSize =
      ⟨true, ⟨value.length, value⟩, ⟨before ++ tlv theType value, later, dataLength, around⟩⟩ := by
  have found := BufferObj.header_tlv (b := ⟨before, tlv theType value ++ later, dataLength, around⟩)
    rfl small fits
  have kept : limited value.length dataSize = value.length := by
    unfold limited
    split
    · omega
    · rfl
  have taken : ((tlv theType value ++ later).drop 4).take value.length = value := by
    change (value ++ later).take value.length = value
    rw [List.take_left]
  rw [tlvDserializeCopy, found]
  dsimp only
  rw [kept, taken, BufferObj.past_tlv rfl]

theorem tlvDserializeByte_at (old byte : UInt8) (small : theType < 65536) :
    tlvDserializeByte old theType ⟨before, tlv theType [byte] ++ later, dataLength, around⟩ =
      ⟨true, byte, ⟨before ++ tlv theType [byte], later, dataLength, around⟩⟩ := by
  have found := BufferObj.header_tlv (b := ⟨before, tlv theType [byte] ++ later, dataLength, around⟩)
    rfl small (by simp)
  have read : BufferObj.byteAt ⟨before, tlv theType [byte] ++ later, dataLength, around⟩ 4 = byte := by
    simp [BufferObj.byteAt, tlv, wpsHtons]
  rw [tlvDserializeByte, found]
  dsimp only
  rw [read, BufferObj.past_tlv rfl]

theorem tlvDserializeShort_at (old : Nat) {value : Nat} (small : theType < 65536)
    (fits : value < 65536) :
    tlvDserializeShort old theType ⟨before, tlv theType (wpsHtons value) ++ later, dataLength, around⟩ =
      ⟨true, value, ⟨before ++ tlv theType (wpsHtons value), later, dataLength, around⟩⟩ := by
  have found := BufferObj.header_tlv
    (b := ⟨before, tlv theType (wpsHtons value) ++ later, dataLength, around⟩) rfl small (by simp)
  have read : BufferObj.ntohs ⟨before, tlv theType (wpsHtons value) ++ later, dataLength, around⟩ 4 =
      value := by
    simp [BufferObj.ntohs, BufferObj.byteAt, tlv, wpsHtons]
    omega
  rw [tlvDserializeShort, found]
  dsimp only
  rw [read, BufferObj.past_tlv rfl]

theorem tlvDserialize_at (old : TlvPtr) {value : Bytes} {dataSize : Nat} (small : theType < 65536)
    (fits : value.length < 65536) (limit : dataSize = 0 ∨ value.length ≤ dataSize)
    (some_ : value ≠ []) :
    tlvDserialize old theType ⟨before, tlv theType value ++ later, dataLength, around⟩ dataSize =
      ⟨true, ⟨value.length, .inside (before.length + 4)⟩,
        ⟨before ++ tlv theType value, later, dataLength, around⟩⟩ := by
  have found := BufferObj.header_tlv (b := ⟨before, tlv theType value ++ later, dataLength, around⟩)
    rfl small fits
  have kept : limited value.length dataSize = value.length := by
    unfold limited
    split
    · omega
    · rfl
  have long := List.length_pos_of_ne_nil some_
  rw [tlvDserialize, found]
  dsimp only
  rw [kept, if_neg (by omega), BufferObj.past_tlv rfl]
  rfl

end

namespace BufferObj

variable {b : BufferObj} {theType len : Nat} {value later : Bytes}

theorem exists_four {bytes : Bytes} (long : 4 ≤ bytes.length) :
    ∃ t0 t1 l0 l1 tail, bytes = t0 :: t1 :: l0 :: l1 :: tail := by
  rcases bytes with _ | ⟨t0, _ | ⟨t1, _ | ⟨l0, _ | ⟨l1, tail⟩⟩⟩⟩
  · simp at long
  · simp at long
  · simp at long
  · simp at long
  · exact ⟨t0, t1, l0, l1, tail, rfl⟩

/-- What is found is an attribute of that type. -/
theorem header_found (found : b.header theType = .found len) :
    ∃ value later, b.rest = tlv theType value ++ later ∧ value.length = len ∧ theType < 65536 ∧
      len < 65536 := by
  unfold header at found
  split at found
  · cases found
  split at found
  · cases found
  split at found
  · cases found
  rename_i type room
  cases found
  have type : theType = b.ntohs 0 := not_not.mp type
  have room : b.ntohs 2 + 4 ≤ b.rest.length := Nat.not_lt.mp room
  have fits := b.ntohs_lt 2
  obtain ⟨t0, t1, l0, l1, tail, here⟩ := exists_four (show 4 ≤ b.rest.length by omega)
  have typeBytes : wpsHtons theType = [t0, t1] := by
    rw [type, ntohs_cons here, wpsHtons_of_bytes]
  have lenBytes : wpsHtons (b.ntohs 2) = [l0, l1] := by
    have same : b.ntohs 2 = l0.toNat * 256 + l1.toNat := by simp [ntohs, byteAt, here]
    rw [same, wpsHtons_of_bytes]
  have taken : (tail.take (b.ntohs 2)).length = b.ntohs 2 := by
    rw [here] at room
    simp only [List.length_cons] at room
    rw [List.length_take]
    omega
  refine ⟨tail.take (b.ntohs 2), tail.drop (b.ntohs 2), ?_, taken, type ▸ b.ntohs_lt 0, fits⟩
  rw [tlv, taken, typeBytes, lenBytes, List.append_assoc, List.take_append_drop, here]
  rfl

end BufferObj

theorem tlv_inj {one two : Nat} {first second later after : Bytes} (small : one < 65536) (little : two < 65536)
    (short : first.length < 65536) (brief : second.length < 65536)
    (same : tlv one first ++ later = tlv two second ++ after) :
    one = two ∧ first = second ∧ later = after := by
  let b : BufferObj := ⟨[], tlv one first ++ later, 0, ⟨fun _ => 0, fun _ => 0⟩⟩
  have types : one = two :=
    (BufferObj.ntohs_tlv (b := b) rfl small).symm.trans (BufferObj.ntohs_tlv (b := b) same little)
  have lengths : first.length = second.length :=
    (BufferObj.ntohs_tlv_len (b := b) rfl short).symm.trans (BufferObj.ntohs_tlv_len (b := b) same brief)
  obtain ⟨attributes, rests⟩ := List.append_inj same (by rw [length_tlv, length_tlv, lengths])
  exact ⟨types, (List.append_inj attributes (by simp)).2, rests⟩

end BcmDhd.Wps
