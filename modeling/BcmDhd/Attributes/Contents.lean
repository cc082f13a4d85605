import BcmDhd.Attributes.TlvRead

namespace BcmDhd.Attributes

open BcmDhd.Lib

/-- What an attribute says. -/
inductive Content
  | plain (theType : Nat) (value : Value)
  | encrSettings (iv encrypted : Bytes)
  | oobDevPwd (publicKeyHash : Bytes) (pwdId : Nat) (devPwd : Bytes)
  | primDeviceType (tlv : PrimDeviceType)
  | vendorExt (vendorId vendorData : Bytes)
deriving DecidableEq

namespace Content

def type : Content → Nat
  | .plain theType _ => theType
  | .encrSettings _ _ => Wps.wpsIdEncrSettings
  | .oobDevPwd _ _ _ => wpsIdOobDevPwd
  | .primDeviceType _ => Wps.wpsIdPrimDevType
  | .vendorExt _ _ => Wps.wpsIdVendorExt

def value : Content → Bytes
  | .plain _ value => value.wire
  | .encrSettings iv encrypted => iv ++ encrypted
  | .oobDevPwd publicKeyHash pwdId devPwd => publicKeyHash ++ (hton 2 pwdId ++ devPwd)
  | .primDeviceType tlv => hton 2 tlv.categoryId ++ (hton 4 tlv.oui ++ hton 2 tlv.subCategoryId)
  | .vendorExt vendorId vendorData => vendorId ++ vendorData

def wire (content : Content) : Bytes := encoded tlvFormat content.type content.value

/-- The parts have the lengths that they are known to have, and all of them one that can be
told. Settings are encrypted in blocks, of which there is one at least. -/
def Fits : Content → Prop
  | .plain theType value => value.Fits tlvFormat theType
  | .encrSettings iv encrypted => iv.length = 16 ∧ 16 ≤ encrypted.length ∧ 16 + encrypted.length < 2 ^ 16
  | .oobDevPwd publicKeyHash pwdId devPwd =>
    publicKeyHash.length = 20 ∧ pwdId < 2 ^ 16 ∧ 20 + 2 + devPwd.length < 2 ^ 16
  | .primDeviceType tlv => tlv.categoryId < 2 ^ 16 ∧ tlv.oui < 2 ^ 32 ∧ tlv.subCategoryId < 2 ^ 16
  | .vendorExt vendorId vendorData => vendorId.length = 3 ∧ 3 + vendorData.length < 2 ^ 16

end Content

/-- An attribute, whether `tlv_serialize` or `tlv_write` writes it if it is a plain one, and
how it is to be read then. -/
structure Item where
  content : Content
  serialized : Bool
  old : TlvObj
  dataSize : Nat
  alloc : Bool

namespace Item

def write (elsewhere : Elsewhere) (item : Item) (b : BufferObj) : Option BufferObj :=
  match item.content with
  | .plain theType value =>
    if item.serialized then
      tlvSerialize elsewhere b theType (some (store elsewhere.stale 0 value.image)) value.image.length
    else (tlvSet .unset theType value value.image.length).bind (tlvWrite elsewhere b)
  | .encrSettings iv encrypted => tlvEncrSettingsWrite elsewhere b ⟨.copy iv, .copy encrypted, encrypted.length⟩
  | .oobDevPwd publicKeyHash pwdId devPwd =>
    tlvOobDevPwdWrite elsewhere b ⟨.copy publicKeyHash, pwdId, .copy devPwd, devPwd.length⟩
  | .primDeviceType tlv => tlvPrimDeviceTypeWrite elsewhere b tlv
  | .vendorExt vendorId vendorData =>
    tlvVendorExtWrite elsewhere b ⟨.copy vendorId, .copy vendorData, vendorData.length⟩

/-- What the reader of such an attribute finds at the cursor, if it succeeds. -/
def read (elsewhere : Elsewhere) (item : Item) (b : BufferObj) : Option (Content × BufferObj) :=
  let inBuffer := { elsewhere with source := b.base }
  match item.content with
  | .plain theType _ =>
    let reading := tlvDserialize item.old theType b item.dataSize item.alloc
    if reading.ok then (reading.obj.value inBuffer).map fun value => (.plain theType value, reading.buf) else none
  | .encrSettings _ _ => (tlvEncrSettingsParse b).bind fun parsed =>
    (parsed.1.iv.string inBuffer 16).bind fun iv =>
      (parsed.1.encryptedData.string inBuffer parsed.1.encrDataLength).map fun encrypted =>
        (.encrSettings iv encrypted, parsed.2)
  | .oobDevPwd _ _ _ => (tlvOobDevPwdParse b).bind fun parsed =>
    (parsed.1.publicKeyHash.string inBuffer 20).bind fun publicKeyHash =>
      (parsed.1.devPwd.string inBuffer parsed.1.devPwdLength).map fun devPwd =>
        (.oobDevPwd publicKeyHash parsed.1.pwdId devPwd, parsed.2)
  | .primDeviceType _ => (tlvPrimDeviceTypeParse b).map fun parsed => (.primDeviceType parsed.1, parsed.2)
  | .vendorExt _ _ => (tlvVendorExtParse b).bind fun parsed =>
    (parsed.1.vendorId.string inBuffer 3).bind fun vendorId =>
      (parsed.1.vendorData.string inBuffer parsed.1.dataLength).map fun vendorData =>
        (.vendorExt vendorId vendorData, parsed.2)

/-- A plain value is one of its type, within the limit of its reader. -/
def Fits (item : Item) : Prop :=
  item.content.Fits ∧ ∀ theType value, item.content = .plain theType value → value.Within item.dataSize

end Item

section

variable {elsewhere : Elsewhere} {b : BufferObj} {theType minDataSize : Nat} {bytes part rest more : Bytes}

theorem Item.writes {item : Item} (fits : item.Fits) : Writes (item.write elsewhere) item.content.wire := by
  obtain ⟨content, serialized, old, dataSize, alloc⟩ := item
  have whole := fits.1
  cases content with
  | plain theType value =>
    cases serialized with
    | true => exact serialize_writes whole (load_copy _ _)
    | false =>
      have written := @tlvWrite_writes elsewhere theType value whole
      unfold Item.write
      dsimp only
      rw [tlvSet_eq whole]
      exact written
  | encrSettings iv encrypted => exact encrSettings_writes whole.1
  | oobDevPwd publicKeyHash pwdId devPwd => exact oobDevPwd_writes pwdId whole.1
  | primDeviceType tlv => exact primDeviceType_writes tlv
  | vendorExt vendorId vendorData => exact vendorExt_writes whole.1

theorem cplxtlvParseHdr_holds (holds : b.Holds (encoded tlvFormat theType bytes ++ more)) (narrow : theType < 2 ^ 16)
    (short : bytes.length < 2 ^ 16) (least : minDataSize ≤ bytes.length) :
    cplxtlvParseHdr theType b minDataSize = some (bytes.length, b.past 4) ∧ (b.past 4).Holds (bytes ++ more) := by
  obtain ⟨type, len, _⟩ := holds_encoded holds narrow short
  have left := holds.remaining
  rw [List.length_append, length_encoded] at left
  have header : tlvFormat.header = 4 := rfl
  have split : b.Holds ((hton 2 theType ++ hton 2 bytes.length) ++ (bytes ++ more)) := by
    rw [← List.append_assoc]
    exact holds
  have four : (hton 2 theType ++ hton 2 bytes.length).length = 4 := by simp
  have moved := split.advance
  have behind := split.past
  rw [four] at moved behind
  refine ⟨?_, behind⟩
  unfold cplxtlvParseHdr
  rw [header] at left ⊢
  rw [if_neg (by omega), if_neg (not_not.mpr type.symm), len, if_neg (by omega), if_neg (by omega)]
  unfold BufferObj.advanced
  rw [moved, Option.getD_some]

theorem advanced_holds (holds : b.Holds (part ++ rest)) : b.advanced part.length = b.past part.length := by
  unfold BufferObj.advanced
  rw [holds.advance, Option.getD_some]

theorem advancePtr_holds (holds : b.Holds (part ++ rest)) :
    b.advancePtr part.length = .place (b.current + part.length) := by
  unfold BufferObj.advancePtr
  rw [holds.advance]
  rfl

theorem place_string (holds : b.Holds (part ++ rest)) (source : elsewhere.source = b.base) :
    (Data.place b.current).string elsewhere part.length = some part := by
  unfold Data.string
  split
  · rename_i empty
    rw [List.eq_nil_of_length_eq_zero empty]
  · dsimp only [Data.leadsTo]
    rw [source, Option.map_some]
    refine congrArg some (Eq.trans ?_ holds.first)
    refine List.map_congr_left fun i _ => ?_
    rw [Nat.zero_add]

theorem past_past (b : BufferObj) (first second : Nat) : (b.past first).past second = b.past (first + second) := by
  unfold BufferObj.past
  dsimp only
  rw [Nat.add_assoc, Nat.add_assoc]

theorem parts_hold (holds : b.Holds (encoded tlvFormat theType (part ++ rest) ++ more)) (narrow : theType < 2 ^ 16)
    (short : (part ++ rest).length < 2 ^ 16) (least : minDataSize ≤ (part ++ rest).length) :
    cplxtlvParseHdr theType b minDataSize = some ((part ++ rest).length, b.past 4) ∧
      (b.past 4).Holds (part ++ (rest ++ more)) ∧ ((b.past 4).past part.length).Holds (rest ++ more) := by
  obtain ⟨parsed, first⟩ := cplxtlvParseHdr_holds holds narrow short least
  rw [List.append_assoc] at first
  exact ⟨parsed, first, first.past⟩

theorem past_encoded (b : BufferObj) (theType : Nat) (part rest : Bytes) :
    ((b.past 4).past part.length).past rest.length = b.past (encoded tlvFormat theType (part ++ rest)).length := by
  rw [past_past, past_past, length_encoded, List.length_append]
  rfl

theorem encrSettings_reads {iv encrypted : Bytes} (fits : (Content.encrSettings iv encrypted).Fits)
    (holds : b.Holds ((Content.encrSettings iv encrypted).wire ++ more)) (source : elsewhere.source = b.base) :
    ∃ parsed, tlvEncrSettingsParse b = some (parsed, b.past (Content.encrSettings iv encrypted).wire.length) ∧
      parsed.iv.string elsewhere 16 = some iv ∧
      parsed.encryptedData.string elsewhere parsed.encrDataLength = some encrypted := by
  obtain ⟨sized, least, short⟩ := fits
  have total : (iv ++ encrypted).length = 16 + encrypted.length := by rw [List.length_append, sized]
  obtain ⟨parsed, first, second⟩ :=
    @parts_hold b Wps.wpsIdEncrSettings (16 + 16) iv encrypted more holds (by decide) (by omega) (by omega)
  have rest : (if 16 < 16 + encrypted.length then 16 + encrypted.length - 16 else 0) = encrypted.length := by
    rw [if_pos (by omega)]
    omega
  have before := place_string first source
  have behind := place_string second source
  have step := advanced_holds first
  have pointer := advancePtr_holds first
  rw [sized] at before step pointer
  refine ⟨⟨.place (b.past 4).current, .place ((b.past 4).current + 16), encrypted.length⟩, ?_, before, ?_⟩
  · unfold tlvEncrSettingsParse
    rw [parsed, Option.map_some]
    dsimp only
    rw [total, rest, pointer, step, ← sized, advanced_holds second, past_encoded b Wps.wpsIdEncrSettings]
    rfl
  · rw [sized] at behind
    exact behind

theorem vendorExt_reads {vendorId vendorData : Bytes} (fits : (Content.vendorExt vendorId vendorData).Fits)
    (holds : b.Holds ((Content.vendorExt vendorId vendorData).wire ++ more)) (source : elsewhere.source = b.base) :
    ∃ parsed, tlvVendorExtParse b = some (parsed, b.past (Content.vendorExt vendorId vendorData).wire.length) ∧
      parsed.vendorId.string elsewhere 3 = some vendorId ∧
      parsed.vendorData.string elsewhere parsed.dataLength = some vendorData := by
  obtain ⟨sized, short⟩ := fits
  have total : (vendorId ++ vendorData).length = 3 + vendorData.length := by rw [List.length_append, sized]
  obtain ⟨parsed, first, second⟩ :=
    @parts_hold b Wps.wpsIdVendorExt 3 vendorId vendorData more holds (by decide) (by omega) (by omega)
  have before := place_string first source
  have behind := place_string second source
  have step := advanced_holds first
  have pointer := advancePtr_holds first
  rw [sized] at before step pointer
  refine ⟨⟨.place (b.past 4).current, .place ((b.past 4).current + 3), vendorData.length⟩, ?_, before, ?_⟩
  · unfold tlvVendorExtParse
    rw [parsed, Option.map_some]
    dsimp only
    rw [total, Nat.add_sub_cancel_left, pointer, step, ← sized, advanced_holds second,
      past_encoded b Wps.wpsIdVendorExt]
    rfl
  · rw [sized] at behind
    exact behind

theorem oobDevPwd_reads {hash devPwd : Bytes} {pwdId : Nat} (fits : (Content.oobDevPwd hash pwdId devPwd).Fits)
    (holds : b.Holds ((Content.oobDevPwd hash pwdId devPwd).wire ++ more)) (source : elsewhere.source = b.base) :
    ∃ parsed, tlvOobDevPwdParse b = some (parsed, b.past (Content.oobDevPwd hash pwdId devPwd).wire.length) ∧
      parsed.publicKeyHash.string elsewhere 20 = some hash ∧ parsed.pwdId = pwdId ∧
      parsed.devPwd.string elsewhere parsed.devPwdLength = some devPwd := by
  obtain ⟨sized, small, short⟩ := fits
  have total : (hash ++ (hton 2 pwdId ++ devPwd)).length = 20 + (2 + devPwd.length) := by
    rw [List.length_append, List.length_append, length_hton, sized]
  obtain ⟨parsed, first, second⟩ :=
    @parts_hold b wpsIdOobDevPwd (20 + 2) hash (hton 2 pwdId ++ devPwd) more holds (by decide) (by omega) (by omega)
  rw [List.append_assoc] at second
  have third := second.past
  have before := place_string first source
  have named := ntoh_of_load (by simpa only [length_hton] using second.first) small
  have behind := place_string third source
  have step := advanced_holds first
  have further := advanced_holds second
  have pointer := advancePtr_holds second
  have last := advanced_holds third
  rw [length_hton] at behind further pointer last
  rw [sized] at before step named behind further pointer last
  refine ⟨⟨.place (b.past 4).current, pwdId, .place (((b.past 4).past 20).current + 2), devPwd.length⟩, ?_, before,
    rfl, behind⟩
  unfold tlvOobDevPwdParse
  rw [parsed, Option.map_some]
  dsimp only
  have rest : 20 + (2 + devPwd.length) - 20 - 2 = devPwd.length := by omega
  rw [total, rest, step, pointer, further, last]
  have same : ntoh b.base ((b.past 4).past 20).current 2 = pwdId := named
  have ends := past_encoded b wpsIdOobDevPwd hash (hton 2 pwdId ++ devPwd)
  rw [List.length_append, length_hton, sized, ← past_past] at ends
  rw [same, ends]
  rfl

theorem primDeviceType_reads {tlv : PrimDeviceType} (fits : (Content.primDeviceType tlv).Fits)
    (holds : b.Holds ((Content.primDeviceType tlv).wire ++ more)) :
    tlvPrimDeviceTypeParse b = some (tlv, b.past (Content.primDeviceType tlv).wire.length) := by
  obtain ⟨category, oui, subCategory⟩ := fits
  obtain ⟨parsed, first, second⟩ := @parts_hold b Wps.wpsIdPrimDevType 8 (hton 2 tlv.categoryId)
    (hton 4 tlv.oui ++ hton 2 tlv.subCategoryId)
    more holds (by decide) (by simp) (by simp)
  rw [List.append_assoc] at second
  have third := second.past
  have one := ntoh_of_load (by simpa only [length_hton] using first.first) category
  have two := ntoh_of_load (by simpa only [length_hton] using second.first) oui
  have three := ntoh_of_load (by simpa only [length_hton] using third.first) subCategory
  have step := advanced_holds first
  have further := advanced_holds second
  have last := advanced_holds third
  simp only [length_hton] at two three step further last
  unfold tlvPrimDeviceTypeParse
  rw [parsed, Option.map_some]
  dsimp only
  rw [step, further, last]
  have first_ : ntoh b.base (b.past 4).current 2 = tlv.categoryId := one
  have second_ : ntoh b.base ((b.past 4).past 2).current 4 = tlv.oui := two
  have third_ : ntoh b.base (((b.past 4).past 2).past 4).current 2 = tlv.subCategoryId := three
  rw [first_, second_, third_, past_past, past_past, past_past]
  rfl

/-- Any attribute that was written comes back, and the cursor is behind it. -/
theorem Item.reads {item : Item} (fits : item.Fits) (holds : b.Holds (item.content.wire ++ more)) :
    item.read elsewhere b = some (item.content, b.past item.content.wire.length) := by
  obtain ⟨content, serialized, old, dataSize, alloc⟩ := item
  unfold Item.read
  cases content with
  | plain theType value =>
    obtain ⟨ok, found, moved⟩ := @dserialize_holds tlvFormat b theType dataSize alloc more value
      { elsewhere with source := b.base } old fits.1 (fits.2 theType value rfl) holds rfl
    dsimp only [tlvDserialize]
    rw [if_pos ok, found, moved, Option.map_some]
    rfl
  | encrSettings iv encrypted =>
    obtain ⟨parsed, done, before, behind⟩ :=
      @encrSettings_reads { elsewhere with source := b.base } b more iv encrypted fits.1 holds rfl
    dsimp only
    rw [done, Option.bind_some, before, Option.bind_some, behind, Option.map_some]
  | oobDevPwd hash pwdId devPwd =>
    obtain ⟨parsed, done, before, same, behind⟩ :=
      @oobDevPwd_reads { elsewhere with source := b.base } b more hash devPwd pwdId fits.1 holds rfl
    dsimp only
    rw [done, Option.bind_some, before, Option.bind_some, behind, Option.map_some, same]
  | primDeviceType tlv =>
    dsimp only
    rw [primDeviceType_reads fits.1 holds, Option.map_some]
  | vendorExt vendorId vendorData =>
    obtain ⟨parsed, done, before, behind⟩ :=
      @vendorExt_reads { elsewhere with source := b.base } b more vendorId vendorData fits.1 holds rfl
    dsimp only
    rw [done, Option.bind_some, before, Option.bind_some, behind, Option.map_some]

end

end BcmDhd.Attributes
