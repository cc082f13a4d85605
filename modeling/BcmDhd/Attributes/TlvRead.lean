import BcmDhd.Attributes.TlvWrite

/-! Reading attributes, with the bytes of the buffer that this reads. -/

namespace BcmDhd.Attributes

open BcmDhd.Lib

/-- Bytes of a buffer that are read or given out: from where on, and how many. -/
abbrev Reads := List (Nat × Nat)

/-- What a reader returns, what it has in hand, where the buffer is then, and what it read. -/
structure Reading where
  ok : Bool
  obj : TlvObj
  buf : BufferObj
  reads : Reads

namespace BufferObj

variable (format : Format) (b : BufferObj)

/-- The type at the cursor. -/
def typeAt : Nat := ntoh b.base b.current format.width

def typeRead : Nat × Nat := (b.current, format.width)

/-- The length behind it. -/
def lenAt : Nat := ntoh b.base (b.current + format.width) format.width

def lenRead : Nat × Nat := (b.current + format.width, format.width)

/-- Behind the header. -/
def valueAt : Nat := b.current + format.header

end BufferObj

/-- `m_len` with the limit that the caller sets, where 0 is none. -/
def limited (len dataSize : Nat) : Nat := if dataSize ≠ 0 ∧ dataSize < len then dataSize else len

/-- A number has to have the length that the caller asks for, where 0 is any. -/
def tooShort (format : Format) (b : BufferObj) (dataSize : Nat) : Prop :=
  dataSize ≠ 0 ∧ (b.remaining < format.header + dataSize ∨ b.lenAt format < dataSize)

instance (format : Format) (b : BufferObj) (dataSize : Nat) : Decidable (tooShort format b dataSize) :=
  inferInstanceAs (Decidable (_ ∧ _))

/-- Where the value of a string is kept. -/
def pointerData (format : Format) (b : BufferObj) (kept : Nat) (alloc : Bool) : Data :=
  if alloc then if kept = 0 then .null else .copy (load b.base (b.valueAt format) kept)
  else if kept = 0 ∧ format.blank then .blank
  else .place (b.valueAt format)

def dserialize (format : Format) (old : TlvObj) (theType : Nat) (b : BufferObj) (dataSize : Nat) (alloc : Bool) :
    Reading :=
  if b.remaining = 0 then ⟨false, old, b, []⟩
  else if theType ≠ b.typeAt format then ⟨false, { old with mPos := b.current }, b, [b.typeRead format]⟩
  else
    let header := [b.typeRead format, b.lenRead format]
    let len := b.lenAt format
    if b.remaining < len + format.header then
      ⟨false, ⟨theType, len, b.current + format.width, old.mData⟩, b, header⟩
    else match format.kind theType with
      | some (.number size) =>
        if tooShort format b dataSize then ⟨false, ⟨theType, len, b.valueAt format, old.mData⟩, b, header⟩
        else ⟨true, ⟨theType, len, b.valueAt format, .number size (ntoh b.base (b.valueAt format) size)⟩,
          b.advanced (format.header + len), header ++ [(b.valueAt format, size)]⟩
      | some .pointer =>
        let kept := limited len dataSize
        ⟨true, ⟨theType, kept, b.valueAt format, pointerData format b kept alloc⟩,
          b.advanced (format.header + len), header ++ [(b.valueAt format, kept)]⟩
      | none => ⟨false, ⟨theType, len, b.valueAt format, old.mData⟩, b, header⟩

def tlvDserialize (old : TlvObj) (theType : Nat) (b : BufferObj) (dataSize : Nat) (alloc : Bool) : Reading :=
  dserialize tlvFormat old theType b dataSize alloc

def subtlvDserialize (old : TlvObj) (theId : Nat) (b : BufferObj) (dataSize : Nat) (alloc : Bool) : Reading :=
  dserialize subtlvFormat old theId b dataSize alloc

/-- So many bytes from where a pointer leads to. -/
def Data.string (elsewhere : Elsewhere) (data : Data) (len : Nat) : Option Bytes :=
  if len = 0 then some [] else (data.leadsTo elsewhere).map fun there => load there 0 len

def TlvObj.value (elsewhere : Elsewhere) (obj : TlvObj) : Option Value :=
  match obj.mData with
  | .number size value => some (.number size value)
  | data => (data.string elsewhere obj.mLen).map Value.string

structure Search where
  obj : TlvObj
  buf : BufferObj
  /-- What remains, counted to the end of the data at first, then to the end of the block. -/
  remaining : Nat
  reads : Reads

/-- One turn of `tlv_find_dserialize_imp`. The type is read before it is known whether there
is any. -/
def findTurn (theType dataSize : Nat) (alloc : Bool) (search : Search) : Turn Search Reading :=
  let b := search.buf
  let header := search.reads ++ [b.typeRead tlvFormat, b.lenRead tlvFormat]
  if search.remaining = 0 then
    .leave ⟨false, { search.obj with mLen := 0 }, b, search.reads ++ [b.typeRead tlvFormat]⟩
  else if theType ≠ b.typeAt tlvFormat then
    let len := b.lenAt tlvFormat
    if search.remaining < len + tlvFormat.header then
      .leave ⟨false, { search.obj with mLen := 0, mPos := b.current + 2 }, b, header⟩
    else
      let next := b.advanced (tlvFormat.header + len)
      .again ⟨{ search.obj with mLen := len, mPos := next.current }, next, next.remaining, header⟩
  else
    let found := tlvDserialize { search.obj with mLen := b.lenAt tlvFormat } theType b dataSize alloc
    .leave { found with reads := header ++ found.reads }

/-- Nothing if the search does not end within some turns. -/
def tlvFindDserialize (turns : Nat) (old : TlvObj) (theType : Nat) (b : BufferObj) (dataSize : Nat) (alloc : Bool) :
    Option Reading :=
  if b.dataLength = 0 then some ⟨false, old, b.rewind, []⟩
  else loopFor (findTurn theType dataSize alloc) turns ⟨{ old with mPos := 0 }, b.rewind, b.dataLength, []⟩

/-- `cplxtlv_parseHdr`: the length, and the place behind the header. -/
def cplxtlvParseHdr (theType : Nat) (b : BufferObj) (minDataSize : Nat) : Option (Nat × BufferObj) :=
  if b.remaining < tlvFormat.header + minDataSize then none
  else if theType ≠ b.typeAt tlvFormat then none
  else if b.lenAt tlvFormat < minDataSize then none
  else if b.remaining < b.lenAt tlvFormat + tlvFormat.header then none
  else some (b.lenAt tlvFormat, b.advanced tlvFormat.header)

/-- What `buffobj_Advance` returns. -/
def BufferObj.advancePtr (b : BufferObj) (offset : Nat) : Data :=
  match b.advance offset with
  | some after => .place after.current
  | none => .null

/-- The initialisation vector and at least one block. -/
def tlvEncrSettingsParse (b : BufferObj) : Option (EncrSettings × BufferObj) :=
  (cplxtlvParseHdr Wps.wpsIdEncrSettings b (16 + 16)).map fun header =>
    let rest := if 16 < header.1 then header.1 - 16 else 0
    (⟨.place header.2.current, header.2.advancePtr 16, rest⟩, (header.2.advanced 16).advanced rest)

def tlvOobDevPwdParse (b : BufferObj) : Option (OobDevPwd × BufferObj) :=
  (cplxtlvParseHdr wpsIdOobDevPwd b (20 + 2)).map fun header =>
    let hashed := header.2.advanced 20
    let rest := header.1 - 20 - 2
    (⟨.place header.2.current, ntoh b.base hashed.current 2, hashed.advancePtr 2, rest⟩,
      (hashed.advanced 2).advanced rest)

/-- Eight bytes, whatever the length is. -/
def tlvPrimDeviceTypeParse (b : BufferObj) : Option (PrimDeviceType × BufferObj) :=
  (cplxtlvParseHdr Wps.wpsIdPrimDevType b 8).map fun header =>
    let second := header.2.advanced 2
    let third := second.advanced 4
    (⟨ntoh b.base header.2.current 2, ntoh b.base second.current 4, ntoh b.base third.current 2⟩, third.advanced 2)

def tlvVendorExtParse (b : BufferObj) : Option (VendorExt × BufferObj) :=
  (cplxtlvParseHdr Wps.wpsIdVendorExt b 3).map fun header =>
    let rest := header.1 - 3
    (⟨.place header.2.current, header.2.advancePtr 3, rest⟩, (header.2.advanced 3).advanced rest)

/-- The limit of a string is at least its length, a number has the length that is asked for. -/
def Value.Within (dataSize : Nat) : Value → Prop
  | .number size _ => dataSize = 0 ∨ dataSize ≤ size
  | .string bytes => dataSize = 0 ∨ bytes.length ≤ dataSize

section

variable {format : Format} {b : BufferObj} {theType dataSize : Nat} {alloc : Bool} {bytes more : Bytes} {value : Value}
  {elsewhere : Elsewhere} {old : TlvObj}

theorem length_encoded (format : Format) (theType : Nat) (value : Bytes) :
    (encoded format theType value).length = format.header + value.length := by
  unfold encoded Format.header
  simp only [List.length_append, length_hton]
  omega

theorem holds_encoded (holds : b.Holds (encoded format theType bytes ++ more)) (narrow : theType < 256 ^ format.width)
    (short : bytes.length < 256 ^ format.width) : b.typeAt format = theType ∧ b.lenAt format = bytes.length ∧
      load b.base (b.valueAt format) bytes.length = bytes := by
  unfold encoded at holds
  rw [List.append_assoc, List.append_assoc] at holds
  have first := holds.first
  have second := holds.past.first
  have third := holds.past.past.first
  simp only [length_hton] at first second third
  refine ⟨ntoh_of_load first narrow, ntoh_of_load second short, ?_⟩
  have place : b.valueAt format = b.current + format.width + format.width := by
    unfold BufferObj.valueAt Format.header
    omega
  rw [place]
  exact third

theorem limited_eq (enough : dataSize = 0 ∨ bytes.length ≤ dataSize) :
    limited bytes.length dataSize = bytes.length := by
  unfold limited
  split
  · omega
  · rfl

theorem pointerData_string (there : load b.base (b.valueAt format) bytes.length = bytes)
    (source : elsewhere.source = b.base) :
    (pointerData format b bytes.length alloc).string elsewhere bytes.length = some bytes := by
  unfold Data.string pointerData
  by_cases empty : bytes.length = 0
  · rw [if_pos empty, List.eq_nil_of_length_eq_zero empty]
  · rw [if_neg empty]
    cases alloc with
    | true =>
      rw [if_pos rfl, if_neg empty, there]
      exact congrArg some (load_copy _ _)
    | false =>
      rw [if_neg (by decide), if_neg (by tauto)]
      dsimp only [Data.leadsTo]
      rw [source, Option.map_some]
      refine congrArg some (Eq.trans ?_ there)
      refine List.map_congr_left fun i _ => ?_
      rw [Nat.zero_add]

theorem pointerData_not_number (format : Format) (b : BufferObj) (kept : Nat) (alloc : Bool) (size number : Nat) :
    pointerData format b kept alloc ≠ .number size number := by
  unfold pointerData
  split
  · split <;> exact Data.noConfusion
  · split <;> exact Data.noConfusion

theorem value_of_string {obj : TlvObj} (found : obj.mData.string elsewhere obj.mLen = some bytes)
    (pointer : ∀ size number, obj.mData ≠ .number size number) : obj.value elsewhere = some (.string bytes) := by
  unfold TlvObj.value
  split
  · rename_i size number same
    exact absurd same (pointer size number)
  · rw [found, Option.map_some]

theorem Value.Fits.bounds (fits : value.Fits format theType) :
    theType < 256 ^ format.width ∧ value.wire.length < 256 ^ format.width := by
  cases value with
  | number size number =>
    have wide : 256 ^ 1 ≤ 256 ^ format.width := Nat.pow_le_pow_right (by decide) format.wide
    have small := (format.numbers fits.1).2
    have sized : (Value.number size number).wire.length = size := length_hton size number
    exact ⟨format.narrow fits.1, by omega⟩
  | string bytes => exact ⟨format.narrow fits.1, fits.2⟩

/-- A value that was written comes back, and the cursor is behind it. -/
theorem dserialize_holds (fits : value.Fits format theType) (within : value.Within dataSize)
    (holds : b.Holds (encoded format theType value.wire ++ more)) (source : elsewhere.source = b.base) :
    (dserialize format old theType b dataSize alloc).ok = true ∧
      (dserialize format old theType b dataSize alloc).obj.value elsewhere = some value ∧
      (dserialize format old theType b dataSize alloc).buf = b.past (encoded format theType value.wire).length := by
  obtain ⟨narrow, short⟩ := fits.bounds
  obtain ⟨type, len, there⟩ := holds_encoded holds narrow short
  have left := holds.remaining
  have moved := holds.advance
  rw [List.length_append] at left
  rw [length_encoded] at left moved ⊢
  have wide := format.wide
  unfold dserialize
  rw [if_neg (by unfold Format.header at left; omega), if_neg (not_not.mpr type.symm), len]
  dsimp only
  rw [if_neg (by omega), show b.advanced (format.header + value.wire.length) = _ from congrArg (Option.getD · b) moved,
    Option.getD_some]
  cases value with
  | number size number =>
    have sized : (Value.number size number).wire.length = size := length_hton size number
    rw [sized] at there left
    have long : ¬tooShort format b dataSize := by
      unfold tooShort
      rw [len, sized]
      rcases within with none_ | enough
      · exact fun short => short.1 none_
      · omega
    rw [fits.1]
    dsimp only
    rw [if_neg long]
    refine ⟨rfl, ?_, rfl⟩
    rw [ntoh_of_load there fits.2]
    rfl
  | string bytes =>
    rw [fits.1]
    dsimp only [Value.wire]
    rw [limited_eq within]
    refine ⟨rfl, ?_, rfl⟩
    exact value_of_string (pointerData_string there source) (pointerData_not_number format b _ alloc)

end

end BcmDhd.Attributes
