import BcmDhd.Attributes.BuffObj
import BcmDhd.Attributes.TlvTypes

/-! Writing attributes. -/

namespace BcmDhd.Attributes

open BcmDhd.Lib

/-- What a value is: a number of so many bytes, or a string. -/
inductive Value
  | number (size value : Nat)
  | string (bytes : Bytes)
deriving DecidableEq

/-- The value as it is sent. -/
def Value.wire : Value → Bytes
  | .number size value => hton size value
  | .string bytes => bytes

/-- The value as it is in memory. -/
def Value.image : Value → Bytes
  | .number size value => littleEndian size value
  | .string bytes => bytes

/-- The value is one that the type prescribes. -/
def Value.Fits (format : Format) (theType : Nat) : Value → Prop
  | .number size value => format.kind theType = some (.number size) ∧ value < 256 ^ size
  | .string bytes => format.kind theType = some .pointer ∧ bytes.length < 256 ^ format.width

/-- `m_data`: a number, or where it points to. -/
inductive Data
  | null
  | number (size value : Nat)
  | copy (bytes : Bytes)
  /-- A place in the buffer that was read. -/
  | place (offset : Nat)
  /-- The empty string. -/
  | blank
deriving DecidableEq

/-- Memory outside of a buffer: what its new blocks hold, what is behind a short string, and
the buffer that pointers lead into. -/
structure Elsewhere where
  fresh : Memory
  stale : Memory
  source : Memory

/-- The memory from where a pointer leads to. -/
def Data.leadsTo (elsewhere : Elsewhere) : Data → Option Memory
  | .null => none
  | .number _ _ => none
  | .copy bytes => some (store elsewhere.stale 0 bytes)
  | .place offset => some fun place => elsewhere.source (offset + place)
  | .blank => some (store elsewhere.stale 0 [0])

structure TlvObj where
  mType : Nat
  mLen : Nat
  /-- `m_pos`, counted from the start of the buffer. -/
  mPos : Nat
  mData : Data
deriving DecidableEq

def TlvObj.unset : TlvObj := ⟨0, 0, 0, .null⟩

/-- `buffobj_Append` of what a pointer leads to. -/
def BufferObj.appendFrom (elsewhere : Elsewhere) (b : BufferObj) (length : Nat) : Option Memory → Option BufferObj
  | none => some b
  | some there => b.append elsewhere.fresh (load there 0 length)

/-- The type and the length that a value begins with. -/
def writeHeader (format : Format) (elsewhere : Elsewhere) (b : BufferObj) (theType mLen : Nat) : Option BufferObj :=
  (b.append elsewhere.fresh (hton format.width theType)).bind fun typed =>
    typed.append elsewhere.fresh (hton format.width mLen)

/-- Numbers of more than one byte are swapped on the stack, other values are taken from
where they are. Nothing if a number is behind a null pointer. -/
def serialize (format : Format) (elsewhere : Elsewhere) (b : BufferObj) (theType : Nat) (data : Option Memory)
    (mLen : Nat) : Option BufferObj :=
  (writeHeader format elsewhere b theType mLen).bind fun headed =>
    if mLen = 0 then some headed
    else match format.kind theType with
      | some (.number size) =>
        if 1 < size then
          data.bind fun there =>
            headed.append elsewhere.fresh (load (store elsewhere.stale 0 (load there 0 size).reverse) 0 mLen)
        else headed.appendFrom elsewhere mLen data
      | _ => headed.appendFrom elsewhere mLen data

def tlvSerialize (elsewhere : Elsewhere) (b : BufferObj) (theType : Nat) (data : Option Memory) (mLen : Nat) :
    Option BufferObj := serialize tlvFormat elsewhere b theType data mLen

def subtlvSerialize (elsewhere : Elsewhere) (b : BufferObj) (theId : Nat) (data : Option Memory) (mLen : Nat) :
    Option BufferObj := serialize subtlvFormat elsewhere b theId data mLen

/-- A number has the length of its type, a string the length that is given. -/
def tlvSet (old : TlvObj) (theType : Nat) (val : Value) (len : Nat) : Option TlvObj :=
  match tlvFormat.kind theType, val with
  | some (.number size), .number _ value =>
    some { old with mType := theType, mLen := size, mData := .number size (value % 256 ^ size) }
  | some .pointer, .string bytes => some { old with mType := theType, mLen := len, mData := .copy bytes }
  | _, _ => none

def tlvWrite (elsewhere : Elsewhere) (b : BufferObj) (obj : TlvObj) : Option BufferObj :=
  (writeHeader tlvFormat elsewhere b obj.mType obj.mLen).bind fun headed =>
    if obj.mLen = 0 then some headed
    else match tlvFormat.kind obj.mType, obj.mData with
      | some (.number size), .number _ value =>
        headed.append elsewhere.fresh (load (store elsewhere.stale 0 (hton size value)) 0 obj.mLen)
      | _, data => headed.appendFrom elsewhere obj.mLen (data.leadsTo elsewhere)

def cplxtlvWriteHdr (elsewhere : Elsewhere) (b : BufferObj) (theType length : Nat) : Option BufferObj :=
  writeHeader tlvFormat elsewhere b theType length

structure EncrSettings where
  iv : Data
  encryptedData : Data
  encrDataLength : Nat

def tlvEncrSettingsWrite (elsewhere : Elsewhere) (b : BufferObj) (tlv : EncrSettings) : Option BufferObj :=
  (cplxtlvWriteHdr elsewhere b Wps.wpsIdEncrSettings (16 + tlv.encrDataLength)).bind fun headed =>
    (headed.appendFrom elsewhere 16 (tlv.iv.leadsTo elsewhere)).bind fun started =>
      started.appendFrom elsewhere tlv.encrDataLength (tlv.encryptedData.leadsTo elsewhere)

structure OobDevPwd where
  publicKeyHash : Data
  pwdId : Nat
  devPwd : Data
  devPwdLength : Nat

def tlvOobDevPwdWrite (elsewhere : Elsewhere) (b : BufferObj) (tlv : OobDevPwd) : Option BufferObj :=
  (cplxtlvWriteHdr elsewhere b wpsIdOobDevPwd (20 + 2 + tlv.devPwdLength)).bind fun headed =>
    (headed.appendFrom elsewhere 20 (tlv.publicKeyHash.leadsTo elsewhere)).bind fun hashed =>
      (hashed.append elsewhere.fresh (hton 2 tlv.pwdId)).bind fun named =>
        named.appendFrom elsewhere tlv.devPwdLength (tlv.devPwd.leadsTo elsewhere)

structure PrimDeviceType where
  categoryId : Nat
  oui : Nat
  subCategoryId : Nat
deriving DecidableEq

def tlvPrimDeviceTypeWrite (elsewhere : Elsewhere) (b : BufferObj) (tlv : PrimDeviceType) : Option BufferObj :=
  (cplxtlvWriteHdr elsewhere b Wps.wpsIdPrimDevType 8).bind fun headed =>
    (headed.append elsewhere.fresh (hton 2 tlv.categoryId)).bind fun first =>
      (first.append elsewhere.fresh (hton 4 tlv.oui)).bind fun second =>
        second.append elsewhere.fresh (hton 2 tlv.subCategoryId)

structure VendorExt where
  vendorId : Data
  vendorData : Data
  dataLength : Nat

def tlvVendorExtWrite (elsewhere : Elsewhere) (b : BufferObj) (tlv : VendorExt) : Option BufferObj :=
  (cplxtlvWriteHdr elsewhere b Wps.wpsIdVendorExt (3 + tlv.dataLength)).bind fun headed =>
    (headed.appendFrom elsewhere 3 (tlv.vendorId.leadsTo elsewhere)).bind fun named =>
      named.appendFrom elsewhere tlv.dataLength (tlv.vendorData.leadsTo elsewhere)

/-- An attribute as it is sent. -/
def encoded (format : Format) (theType : Nat) (value : Bytes) : Bytes :=
  hton format.width theType ++ hton format.width value.length ++ value

/-- What is written are these bytes, behind what is in the buffer; it is while the buffer's
length fits in 32 bits. -/
def Writes (write : BufferObj → Option BufferObj) (bytes : Bytes) : Prop :=
  ∀ b : BufferObj, b.Sound → (∀ after, write b = some after → b.Appended bytes after) ∧
    (b.current + bytes.length + bufBlockSize < 2 ^ 32 → ∃ after, write b = some after)

section

variable {elsewhere : Elsewhere} {first second write : BufferObj → Option BufferObj} {bytes more : Bytes}
  {format : Format} {theType size value length : Nat}

theorem Writes.append (fresh : Memory) (bytes : Bytes) : Writes (fun b => b.append fresh bytes) bytes :=
  fun _ sound => ⟨fun _ done => BufferObj.append_appended sound done, fun fits => BufferObj.append_some sound fits⟩

theorem Writes.bind (one : Writes first bytes) (two : Writes second more) :
    Writes (fun b => (first b).bind second) (bytes ++ more) := by
  intro b sound
  constructor
  · intro after done
    obtain ⟨middle, begun, finished⟩ := Option.bind_eq_some_iff.mp done
    have written := (one b sound).1 middle begun
    exact written.trans ((two middle written.sound).1 after finished)
  · intro fits
    rw [List.length_append] at fits
    obtain ⟨middle, begun⟩ := (one b sound).2 (by omega)
    have written := (one b sound).1 middle begun
    have place := written.current
    obtain ⟨after, finished⟩ := (two middle written.sound).2 (by omega)
    exact ⟨after, Option.bind_eq_some_iff.mpr ⟨middle, begun, finished⟩⟩

theorem Writes.nothing : Writes some [] := by
  intro b sound
  exact ⟨fun after same => Option.some.inj same ▸ .nothing sound, fun _ => ⟨b, rfl⟩⟩

theorem load_copy (stale : Memory) (bytes : Bytes) : load (store stale 0 bytes) 0 bytes.length = bytes :=
  Bytes.load_store stale 0 bytes

theorem Writes.copy (bytes : Bytes) :
    Writes (fun b => b.appendFrom elsewhere bytes.length ((Data.copy bytes).leadsTo elsewhere)) bytes := by
  intro b sound
  unfold Data.leadsTo BufferObj.appendFrom
  dsimp only
  rw [load_copy]
  exact Writes.append _ _ b sound

theorem writes_header (format : Format) (theType length : Nat) :
    Writes (fun b => writeHeader format elsewhere b theType length)
      (hton format.width theType ++ hton format.width length) :=
  .bind (.append _ _) (.append _ _)

theorem writes_encoded (value : Bytes) (rest : Writes write value) (same : length = value.length) :
    Writes (fun b => (writeHeader format elsewhere b theType length).bind write) (encoded format theType value) := by
  subst same
  exact .bind (writes_header format theType value.length) rest

theorem length_wire (value : Value) : value.wire.length = value.image.length := by
  cases value with
  | number size value => simp [Value.wire, Value.image]
  | string bytes => rfl

theorem serialize_writes {value : Value} (fits : value.Fits format theType) {there : Memory}
    (image : load there 0 value.image.length = value.image) :
    Writes (fun b => serialize format elsewhere b theType (some there) value.image.length)
      (encoded format theType value.wire) := by
  refine writes_encoded _ ?_ (length_wire value).symm
  intro b sound
  dsimp only
  by_cases empty : value.image.length = 0
  · rw [if_pos empty]
    rw [← length_wire] at empty
    rw [List.eq_nil_of_length_eq_zero empty]
    exact Writes.nothing b sound
  rw [if_neg empty]
  cases value with
  | string bytes =>
    rw [fits.1]
    dsimp only [BufferObj.appendFrom]
    rw [image]
    exact Writes.append _ _ b sound
  | number size value =>
    obtain ⟨kind, small⟩ := fits
    have positive := (format.numbers kind).1
    have sized : (Value.number size value).image.length = size := Bytes.length_littleEndian size value
    rw [sized] at image ⊢
    rw [kind]
    dsimp only [Option.bind_some]
    split
    · rw [image]
      have swapped : (Value.number size value).image.reverse = hton size value := rfl
      have whole := load_copy elsewhere.stale (hton size value)
      rw [length_hton] at whole
      rw [swapped, whole]
      exact Writes.append _ _ b sound
    · have one : size = 1 := by omega
      subst one
      dsimp only [BufferObj.appendFrom]
      rw [image]
      exact Writes.append _ _ b sound

/-- What `tlv_set` made. -/
def Value.obj (theType : Nat) : Value → TlvObj
  | .number size value => ⟨theType, size, 0, .number size value⟩
  | .string bytes => ⟨theType, bytes.length, 0, .copy bytes⟩

theorem tlvSet_eq {value : Value} (fits : value.Fits tlvFormat theType) :
    tlvSet .unset theType value value.image.length = some (value.obj theType) := by
  unfold tlvSet
  cases value with
  | string bytes =>
    rw [fits.1]
    rfl
  | number size value =>
    rw [fits.1]
    dsimp only
    rw [Nat.mod_eq_of_lt fits.2]
    rfl

theorem tlvWrite_writes {value : Value} (fits : value.Fits tlvFormat theType) :
    Writes (fun b => tlvWrite elsewhere b (value.obj theType)) (encoded tlvFormat theType value.wire) := by
  cases value with
  | string bytes =>
    unfold tlvWrite
    refine writes_encoded bytes ?_ rfl
    intro b sound
    dsimp only
    by_cases empty : (Value.obj theType (.string bytes)).mLen = 0
    · have none_ : bytes = [] := List.eq_nil_of_length_eq_zero empty
      rw [if_pos empty]
      rw [none_]
      exact Writes.nothing b sound
    · rw [if_neg empty]
      dsimp only [Value.obj]
      rw [fits.1]
      exact Writes.copy bytes b sound
  | number size value =>
    unfold tlvWrite
    refine writes_encoded (hton size value) ?_ (length_hton size value).symm
    intro b sound
    have positive := (tlvFormat.numbers fits.1).1
    have whole := load_copy elsewhere.stale (hton size value)
    rw [length_hton] at whole
    have some_ : (Value.obj theType (.number size value)).mLen ≠ 0 := positive.ne'
    dsimp only
    rw [if_neg some_]
    dsimp only [Value.obj]
    rw [fits.1]
    dsimp only
    rw [whole]
    exact Writes.append _ _ b sound

theorem writes_parts {length : Nat} (one : Writes first bytes) (two : Writes second more)
    (same : length = (bytes ++ more).length) :
    Writes (fun b => (cplxtlvWriteHdr elsewhere b theType length).bind fun headed => (first headed).bind second)
      (encoded tlvFormat theType (bytes ++ more)) :=
  writes_encoded (bytes ++ more) (.bind one two) same

theorem encrSettings_writes {iv encrypted : Bytes} (sized : iv.length = 16) :
    Writes (fun b => tlvEncrSettingsWrite elsewhere b ⟨.copy iv, .copy encrypted, encrypted.length⟩)
      (encoded tlvFormat Wps.wpsIdEncrSettings (iv ++ encrypted)) := by
  have started := @Writes.copy elsewhere iv
  rw [sized] at started
  exact writes_parts started (.copy encrypted) (by rw [List.length_append, sized])

theorem oobDevPwd_writes {hash devPwd : Bytes} (pwdId : Nat) (sized : hash.length = 20) :
    Writes (fun b => tlvOobDevPwdWrite elsewhere b ⟨.copy hash, pwdId, .copy devPwd, devPwd.length⟩)
      (encoded tlvFormat wpsIdOobDevPwd (hash ++ (hton 2 pwdId ++ devPwd))) := by
  have hashed := @Writes.copy elsewhere hash
  rw [sized] at hashed
  refine writes_parts hashed (.bind (.append _ _) (.copy devPwd)) ?_
  rw [List.length_append, List.length_append, length_hton, sized, Nat.add_assoc]

theorem primDeviceType_writes (tlv : PrimDeviceType) :
    Writes (fun b => tlvPrimDeviceTypeWrite elsewhere b tlv) (encoded tlvFormat Wps.wpsIdPrimDevType
      (hton 2 tlv.categoryId ++ (hton 4 tlv.oui ++ hton 2 tlv.subCategoryId))) :=
  writes_parts (.append _ _) (.bind (.append _ _) (.append _ _)) (by simp)

theorem vendorExt_writes {vendorId vendorData : Bytes} (sized : vendorId.length = 3) :
    Writes (fun b => tlvVendorExtWrite elsewhere b ⟨.copy vendorId, .copy vendorData, vendorData.length⟩)
      (encoded tlvFormat Wps.wpsIdVendorExt (vendorId ++ vendorData)) := by
  have named := @Writes.copy elsewhere vendorId
  rw [sized] at named
  exact writes_parts named (.copy vendorData) (by rw [List.length_append, sized])

end

end BcmDhd.Attributes
