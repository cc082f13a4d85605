import BcmDhd.Attributes.Contents

namespace BcmDhd.Attributes

open BcmDhd.Lib

/-- An element of a vendor extension, and how it is to be read. -/
structure Element where
  theId : Nat
  value : Value
  old : TlvObj
  dataSize : Nat
  alloc : Bool

namespace Element

def wire (element : Element) : Bytes := encoded subtlvFormat element.theId element.value.wire

def write (elsewhere : Elsewhere) (element : Element) (b : BufferObj) : Option BufferObj :=
  subtlvSerialize elsewhere b element.theId (some (store elsewhere.stale 0 element.value.image))
    element.value.image.length

def read (elsewhere : Elsewhere) (element : Element) (b : BufferObj) : Option (Value × BufferObj) :=
  let reading := subtlvDserialize element.old element.theId b element.dataSize element.alloc
  if reading.ok then (reading.obj.value { elsewhere with source := b.base }).map fun value => (value, reading.buf)
  else none

def Fits (element : Element) : Prop :=
  element.value.Fits subtlvFormat element.theId ∧ element.value.Within element.dataSize

theorem writes {elsewhere : Elsewhere} {element : Element} (fits : element.Fits) :
    Writes (element.write elsewhere) element.wire := serialize_writes fits.1 (load_copy _ _)

theorem reads {elsewhere : Elsewhere} {element : Element} {b : BufferObj} {more : Bytes} (fits : element.Fits)
    (holds : b.Holds (element.wire ++ more)) :
    element.read elsewhere b = some (element.value, b.past element.wire.length) := by
  obtain ⟨ok, found, moved⟩ := @dserialize_holds subtlvFormat b element.theId element.dataSize element.alloc more
    element.value { elsewhere with source := b.base } element.old fits.1 fits.2 holds rfl
  unfold Element.read
  dsimp only [subtlvDserialize]
  rw [if_pos ok, found, moved, Option.map_some]
  rfl

end Element

section

universe u v

variable {α : Type u} {β : Type v} {write : α → BufferObj → Option BufferObj}
  {read : α → BufferObj → Option (β × BufferObj)} {wire : α → Bytes} {content : α → β} {items : List α}
  {b after : BufferObj} {bytes more : Bytes}

def writeAll (write : α → BufferObj → Option BufferObj) : List α → BufferObj → Option BufferObj
  | [], b => some b
  | item :: rest, b => (write item b).bind (writeAll write rest)

def readAll (read : α → BufferObj → Option (β × BufferObj)) : List α → BufferObj → Option (List β × BufferObj)
  | [], b => some ([], b)
  | item :: rest, b => (read item b).bind fun found =>
    (readAll read rest found.2).map fun others => (found.1 :: others.1, others.2)

theorem writeAll_writes (each : ∀ item ∈ items, Writes (write item) (wire item)) :
    Writes (writeAll write items) (items.flatMap wire) := by
  induction items with
  | nil => exact .nothing
  | cons item rest ih =>
    have first := each item List.mem_cons_self
    exact .bind first (ih fun other among => each other (List.mem_cons_of_mem item among))

theorem readAll_reads (each : ∀ item ∈ items, ∀ (b : BufferObj) (more : Bytes), b.Holds (wire item ++ more) →
      read item b = some (content item, b.past (wire item).length))
    (holds : b.Holds (items.flatMap wire ++ more)) :
    readAll read items b = some (items.map content, b.past (items.flatMap wire).length) := by
  induction items generalizing b with
  | nil => rfl
  | cons item rest ih =>
    rw [List.flatMap_cons, List.append_assoc] at holds
    have first := each item List.mem_cons_self b _ holds
    have others := ih (fun other among => each other (List.mem_cons_of_mem item among)) holds.past
    rw [readAll, first, Option.bind_some]
    dsimp only
    rw [others, Option.map_some, past_past, List.flatMap_cons, List.length_append, List.map_cons]

theorem rewound (appended : b.Appended bytes after) :
    ∃ back, after.rewindLength bytes.length = some back ∧ back.Holds bytes ∧ back.past bytes.length = after := by
  obtain ⟨sound, place, _, _, _, there⟩ := appended
  have same := sound.current
  have inside := sound.inside
  have back : after.currentLength - bytes.length = b.current := by omega
  refine ⟨{ after with currentLength := b.current, current := b.current }, ?_, ⟨⟨rfl, ?_, sound.small⟩, ?_, there⟩, ?_⟩
  · unfold BufferObj.rewindLength
    rw [if_neg (by omega), back]
  · change b.current ≤ after.bufferLength
    omega
  · change b.current + bytes.length ≤ after.bufferLength
    omega
  · unfold BufferObj.past
    dsimp only
    rw [← place]
    cases after
    cases same
    rfl

theorem received (appended : b.Appended bytes after) (start : b.current = 0) :
    (BufferObj.dserial after.base bytes.length).Holds bytes := by
  have place := appended.current
  have same := appended.sound.current
  have inside := appended.sound.inside
  have small := appended.sound.small
  refine ⟨⟨rfl, Nat.zero_le _, ?_⟩, ?_, ?_⟩
  · change bytes.length < 2 ^ 32
    omega
  · change 0 + bytes.length ≤ bytes.length
    rw [Nat.zero_add]
  · have there := appended.there
    rw [start] at there
    exact there

theorem rewind_holds (appended : b.Appended bytes after) (start : b.current = 0) : after.rewind.Holds bytes := by
  obtain ⟨back, rewinds, holds, _⟩ := rewound appended
  have place := appended.current
  have same := appended.sound.current
  have none_ : after.currentLength - bytes.length = 0 := by omega
  unfold BufferObj.rewindLength at rewinds
  rw [if_neg (by omega), none_] at rewinds
  cases rewinds
  exact holds

end

section

variable {elsewhere : Elsewhere} {b : BufferObj} {theType dataSize : Nat} {alloc : Bool} {old : TlvObj} {value : Value}
  {earlier : List Content} {more : Bytes} {search : Search}

theorem Content.Fits.bounds {content : Content} (fits : content.Fits) :
    content.type < 2 ^ 16 ∧ content.value.length < 2 ^ 16 := by
  cases content with
  | plain theType value => exact @Value.Fits.bounds tlvFormat theType value fits
  | encrSettings iv encrypted =>
    obtain ⟨sized, _, short⟩ := fits
    refine ⟨show Wps.wpsIdEncrSettings < 2 ^ 16 by decide, ?_⟩
    unfold Content.value
    rw [List.length_append, sized]
    exact short
  | oobDevPwd hash pwdId devPwd =>
    obtain ⟨sized, _, short⟩ := fits
    refine ⟨show wpsIdOobDevPwd < 2 ^ 16 by decide, ?_⟩
    unfold Content.value
    rw [List.length_append, List.length_append, sized, length_hton]
    omega
  | primDeviceType tlv =>
    refine ⟨show Wps.wpsIdPrimDevType < 2 ^ 16 by decide, ?_⟩
    unfold Content.value
    simp
  | vendorExt vendorId vendorData =>
    obtain ⟨sized, short⟩ := fits
    refine ⟨show Wps.wpsIdVendorExt < 2 ^ 16 by decide, ?_⟩
    unfold Content.value
    rw [List.length_append, sized]
    exact short

/-- The search ends at the first attribute of the type. -/
theorem find_leaves (each : ∀ content ∈ earlier, content.Fits ∧ content.type ≠ theType)
    (fits : value.Fits tlvFormat theType) (within : value.Within dataSize)
    (holds : search.buf.Holds (earlier.flatMap Content.wire ++ (encoded tlvFormat theType value.wire ++ more)))
    (enough : (earlier.flatMap Content.wire ++ encoded tlvFormat theType value.wire).length ≤ search.remaining)
    (source : elsewhere.source = search.buf.base) :
    ∃ reading, Leaves (findTurn theType dataSize alloc) search reading ∧ reading.ok = true ∧
      reading.obj.value elsewhere = some value ∧ reading.buf =
        search.buf.past (earlier.flatMap Content.wire ++ encoded tlvFormat theType value.wire).length := by
  induction earlier generalizing search with
  | nil =>
    obtain ⟨narrow, short⟩ := fits.bounds
    obtain ⟨type, _, _⟩ := holds_encoded holds narrow short
    obtain ⟨ok, found, moved⟩ := @dserialize_holds tlvFormat search.buf theType dataSize alloc more value elsewhere
      { search.obj with mLen := search.buf.lenAt tlvFormat } fits within holds source
    rw [List.flatMap_nil, List.nil_append] at enough ⊢
    have header : tlvFormat.header = 4 := rfl
    have left := length_encoded tlvFormat theType value.wire
    have leaves : findTurn theType dataSize alloc search = .leave (
        let read := tlvDserialize { search.obj with mLen := search.buf.lenAt tlvFormat } theType search.buf
          dataSize alloc
        { read with reads :=
          (search.reads ++ [search.buf.typeRead tlvFormat, search.buf.lenRead tlvFormat]) ++ read.reads }) := by
      unfold findTurn
      dsimp only
      rw [if_neg (by omega), if_neg (not_not.mpr type.symm)]
    exact ⟨_, Loop.leaves_of_leave leaves, ok, found, moved⟩
  | cons content rest ih =>
    obtain ⟨⟨fitsHere, differs⟩, later⟩ := List.forall_mem_cons.mp each
    obtain ⟨narrow, short⟩ := fitsHere.bounds
    rw [List.flatMap_cons, List.append_assoc] at holds enough
    obtain ⟨type, len, _⟩ := holds_encoded holds narrow short
    have header : tlvFormat.header = 4 := rfl
    have whole : content.wire.length = tlvFormat.header + content.value.length := length_encoded _ _ _
    have moved := advanced_holds holds
    have left := holds.past.remaining
    rw [List.length_append] at enough
    rw [← List.append_assoc, List.length_append] at left
    rw [whole] at moved
    have goesOn : findTurn theType dataSize alloc search = .again ⟨
        { search.obj with mLen := content.value.length, mPos := (search.buf.past content.wire.length).current },
        search.buf.past content.wire.length, (search.buf.past content.wire.length).remaining,
        search.reads ++ [search.buf.typeRead tlvFormat, search.buf.lenRead tlvFormat]⟩ := by
      unfold findTurn
      dsimp only
      rw [if_neg (by omega), if_pos (by rw [type]; exact differs.symm), len, if_neg (by omega), moved, whole]
    obtain ⟨reading, leaves, ok, found, ends⟩ := @ih ⟨
        { search.obj with mLen := content.value.length, mPos := (search.buf.past content.wire.length).current },
        search.buf.past content.wire.length, (search.buf.past content.wire.length).remaining,
        search.reads ++ [search.buf.typeRead tlvFormat, search.buf.lenRead tlvFormat]⟩
      later holds.past (by dsimp only; omega) source
    refine ⟨reading, Loop.Leaves.back leaves goesOn, ok, found, ?_⟩
    rw [ends]
    simp only [past_past, List.flatMap_cons, List.append_assoc, List.length_append]

/-- Wherever the cursor is. -/
theorem find_holds (each : ∀ content ∈ earlier, content.Fits ∧ content.type ≠ theType)
    (fits : value.Fits tlvFormat theType) (within : value.Within dataSize)
    (holds : b.rewind.Holds (earlier.flatMap Content.wire ++ (encoded tlvFormat theType value.wire ++ more)))
    (enough : (earlier.flatMap Content.wire ++ encoded tlvFormat theType value.wire).length ≤ b.dataLength)
    (source : elsewhere.source = b.base) :
    ∃ turns reading, tlvFindDserialize turns old theType b dataSize alloc = some reading ∧ reading.ok = true ∧
      reading.obj.value elsewhere = some value ∧ reading.buf.current =
        (earlier.flatMap Content.wire ++ encoded tlvFormat theType value.wire).length := by
  obtain ⟨reading, leaves, ok, found, ends⟩ := @find_leaves elsewhere theType dataSize alloc value earlier more
    ⟨{ old with mPos := 0 }, b.rewind, b.dataLength, []⟩ each fits within holds enough source
  obtain ⟨turns, done⟩ := leaves
  have some_ : b.dataLength ≠ 0 := by
    have left := length_encoded tlvFormat theType value.wire
    have header : tlvFormat.header = 4 := rfl
    rw [List.length_append] at enough
    omega
  refine ⟨turns, reading, ?_, ok, found, ?_⟩
  · unfold tlvFindDserialize
    rw [if_neg some_, done]
  · rw [ends]
    exact Nat.zero_add _

end

/-- All that attributes are sent as. -/
def stream (items : List Item) : Bytes := items.flatMap fun item => item.content.wire

/-- The search for a plain attribute gives the value of the first one of its type, and ends
behind it. -/
def FoundFirst (elsewhere : Elsewhere) (items : List Item) (b : BufferObj) : Prop :=
  ∀ earlier item later theType value, items = earlier ++ item :: later → item.content = .plain theType value →
    (∀ other ∈ earlier, other.content.type ≠ theType) →
    ∃ turns reading, tlvFindDserialize turns item.old theType b item.dataSize item.alloc = some reading ∧
      reading.ok = true ∧ reading.obj.value { elsewhere with source := b.base } = some value ∧
      reading.buf.current = (stream (earlier ++ [item])).length

section

variable {elsewhere : Elsewhere} {b after : BufferObj} {items : List Item} {elements : List Element}

theorem found_first (fit : ∀ item ∈ items, item.Fits) (holds : b.rewind.Holds (stream items))
    (data : items ≠ [] → (stream items).length ≤ b.dataLength) : FoundFirst elsewhere items b := by
  intro earlier item later theType value split plain first
  have here : item.Fits := fit item (by simp [split])
  have fits : Content.Fits (.plain theType value) := plain ▸ here.1
  have each : ∀ content ∈ earlier.map Item.content, content.Fits ∧ content.type ≠ theType := by
    intro content among
    obtain ⟨other, member, same⟩ := List.mem_map.mp among
    subst same
    exact ⟨(fit other (by simp [split, member])).1, first other member⟩
  have wire : item.content.wire = encoded tlvFormat theType value.wire := by
    rw [plain]
    rfl
  have whole : stream items = (earlier.map Item.content).flatMap Content.wire ++
      (encoded tlvFormat theType value.wire ++ stream later) := by
    unfold stream
    rw [split, List.flatMap_append, List.flatMap_cons, wire, List.flatMap_map]
  have part : stream (earlier ++ [item]) =
      (earlier.map Item.content).flatMap Content.wire ++ encoded tlvFormat theType value.wire := by
    unfold stream
    rw [List.flatMap_append, List.flatMap_singleton, wire, List.flatMap_map]
  have enough := data (by simp [split])
  rw [whole] at holds enough
  rw [part]
  refine find_holds each fits (here.2 theType value plain) holds ?_ rfl
  rw [← List.append_assoc, List.length_append] at enough
  omega

theorem stream_ne_nil (some_ : items ≠ []) : stream items ≠ [] := by
  cases items with
  | nil => exact absurd rfl some_
  | cons item rest =>
    intro none_
    have empty := (List.append_eq_nil_iff.mp none_).1
    have whole : item.content.wire.length = tlvFormat.header + item.content.value.length := length_encoded _ _ _
    have header : tlvFormat.header = 4 := rfl
    dsimp only at empty
    rw [empty, List.length_nil] at whole
    omega

theorem items_read (fit : ∀ item ∈ items, item.Fits) (holds : b.Holds (stream items)) :
    readAll (Item.read elsewhere) items b = some (items.map Item.content, b.past (stream items).length) := by
  rw [← List.append_nil (stream items)] at holds
  exact readAll_reads (fun item among b more here => Item.reads (fit item among) here) holds

theorem elements_read (fine : ∀ element ∈ elements, element.Fits) (holds : b.Holds (elements.flatMap Element.wire)) :
    readAll (Element.read elsewhere) elements b =
      some (elements.map Element.value, b.past (elements.flatMap Element.wire).length) := by
  rw [← List.append_nil (elements.flatMap Element.wire)] at holds
  exact readAll_reads (fun element among b more here => Element.reads (fine element among) here) holds

end

/-- Attributes of all kinds, in any order, are written behind what is in a buffer, while its
length fits in 32 bits. What was written comes back: in order from where it began, with the
cursor behind it, and, in a buffer that began with it or was received as it is, by a search.
So do the elements of a vendor extension. -/
theorem attributes_roundTrip (elsewhere : Elsewhere) (b : BufferObj) (sound : b.Sound)
    (items : List Item) (fit : ∀ item ∈ items, item.Fits) (elements : List Element)
    (fine : ∀ element ∈ elements, element.Fits) :
    ((b.current + (stream items).length + bufBlockSize < 2 ^ 32 →
        ∃ after, writeAll (Item.write elsewhere) items b = some after) ∧
      ∀ after, writeAll (Item.write elsewhere) items b = some after →
        (∃ back, after.rewindLength (stream items).length = some back ∧
          readAll (Item.read elsewhere) items back = some (items.map Item.content, after)) ∧
        (b.current = 0 →
          let message := BufferObj.dserial after.base (stream items).length
          readAll (Item.read elsewhere) items message =
            some (items.map Item.content, message.past (stream items).length) ∧
          FoundFirst elsewhere items after ∧ FoundFirst elsewhere items message)) ∧
    (b.current + (elements.flatMap Element.wire).length + bufBlockSize < 2 ^ 32 →
        ∃ after, writeAll (Element.write elsewhere) elements b = some after) ∧
      ∀ after, writeAll (Element.write elsewhere) elements b = some after →
        (∃ back, after.rewindLength (elements.flatMap Element.wire).length = some back ∧
          readAll (Element.read elsewhere) elements back = some (elements.map Element.value, after)) ∧
        (b.current = 0 →
          let extension := BufferObj.dserial after.base (elements.flatMap Element.wire).length
          readAll (Element.read elsewhere) elements extension =
            some (elements.map Element.value, extension.past (elements.flatMap Element.wire).length)) := by
  obtain ⟨appends, finishes⟩ :=
    writeAll_writes (fun item among => @Item.writes elsewhere item (fit item among)) b sound
  obtain ⟨adds, ends⟩ :=
    writeAll_writes (fun element among => @Element.writes elsewhere element (fine element among)) b sound
  refine ⟨⟨finishes, fun after written => ?_⟩, ends, fun after written => ?_⟩
  · have appended := appends after written
    obtain ⟨back, rewinds, holds, place⟩ := rewound appended
    have reads := @items_read elsewhere back items fit holds
    change back.past (stream items).length = after at place
    rw [place] at reads
    refine ⟨⟨back, rewinds, reads⟩, fun start => ?_⟩
    have whole := received appended start
    have data : items ≠ [] → (stream items).length ≤ after.dataLength := by
      intro some_
      have length := appended.data (stream_ne_nil some_)
      have current := appended.current
      change after.current = b.current + (stream items).length at current
      omega
    exact ⟨items_read fit whole, found_first fit (rewind_holds appended start) data,
      found_first fit whole fun _ => Nat.le_refl _⟩
  · have appended := adds after written
    obtain ⟨back, rewinds, holds, place⟩ := rewound appended
    have reads := @elements_read elsewhere back elements fine holds
    rw [place] at reads
    exact ⟨⟨back, rewinds, reads⟩, fun start => elements_read fine (received appended start)⟩

theorem too_long {elsewhere : Elsewhere} {b : BufferObj} (sound : b.Sound) {items : List Item}
    (fit : ∀ item ∈ items, item.Fits) (long : 2 ^ 32 ≤ b.current + (stream items).length) :
    writeAll (Item.write elsewhere) items b = none := by
  rw [Option.eq_none_iff_forall_ne_some]
  intro after written
  have appended := (writeAll_writes (fun item among => @Item.writes elsewhere item (fit item among)) b sound).1
    after written
  have current := appended.current
  have same := appended.sound.current
  have inside := appended.sound.inside
  have small := appended.sound.small
  change after.current = b.current + (stream items).length at current
  omega

def nowhere : Elsewhere := ⟨fun _ => 0, fun _ => 0, fun _ => 0⟩

theorem new_sound (block : Memory) : (BufferObj.new block).Sound := by
  refine ⟨rfl, Nat.zero_le _, ?_⟩
  change bufBlockSize < 2 ^ 32
  decide

/-- An attribute of each kind. -/
def someItems : List Item :=
  [⟨.plain Wps.wpsIdVersion (.number 1 16), true, .unset, 0, false⟩,
    ⟨.plain Wps.wpsIdSsid (.string [110, 101, 116]), false, .unset, 32, true⟩,
    ⟨.encrSettings (List.replicate 16 1) (List.replicate 16 2), true, .unset, 0, false⟩,
    ⟨.oobDevPwd (List.replicate 20 3) 4 [5, 6], true, .unset, 0, false⟩,
    ⟨.primDeviceType ⟨6, 0x0050F204, 1⟩, true, .unset, 0, false⟩,
    ⟨.vendorExt Wps.wfaVendorExtId [0, 1, 32], true, .unset, 0, false⟩,
    ⟨.plain Wps.wpsIdOsVersion (.number 4 0x80000001), false, .unset, 4, false⟩]

def someElements : List Element :=
  [⟨Wps.wpsWfaSubidVersion2, .number 1 32, .unset, 0, false⟩,
    ⟨wpsWfaSubidAuthorizedMacs, .string [1, 2, 3, 4, 5, 6], .unset, 30, true⟩,
    ⟨wpsWfaSubidRegCfgMethods, .number 2 0x2688, .unset, 2, false⟩]

theorem someItems_fit : ∀ item ∈ someItems, item.Fits := by
  unfold someItems
  simp only [List.forall_mem_cons, Item.Fits, Content.Fits, Value.Fits]
  refine ⟨⟨by decide, ?_⟩, ⟨by decide, ?_⟩, ⟨by decide, ?_⟩, ⟨by decide, ?_⟩, ⟨by decide, ?_⟩, ⟨by decide, ?_⟩,
    ⟨by decide, ?_⟩, by simp⟩
  all_goals
    intro theType value same
    cases same
  all_goals simp [Value.Within]

theorem someElements_fit : ∀ element ∈ someElements, element.Fits := by
  unfold someElements
  simp only [List.forall_mem_cons, Element.Fits, Value.Fits]
  exact ⟨⟨by decide, by simp [Value.Within]⟩, ⟨by decide, by simp [Value.Within]⟩,
    ⟨by decide, by simp [Value.Within]⟩, by simp⟩

theorem attributes_roundTrip_someItems :
    ∃ after, writeAll (Item.write nowhere) someItems (.new fun _ => 0) = some after ∧
      (∃ back, after.rewindLength (stream someItems).length = some back ∧
        readAll (Item.read nowhere) someItems back = some (someItems.map Item.content, after)) ∧
      FoundFirst nowhere someItems after := by
  have both := (attributes_roundTrip nowhere (.new fun _ => 0) (new_sound _) someItems someItems_fit
    someElements someElements_fit).1
  obtain ⟨after, written⟩ := both.1 (by decide)
  obtain ⟨inOrder, whole⟩ := both.2 after written
  exact ⟨after, written, inOrder, (whole rfl).2.1⟩

/-- Settings without a block are written, but not parsed, and what takes more than 4 GiB is
not written at all. -/
theorem roundTrip_fails :
    (let settings : Item := ⟨.encrSettings (List.replicate 16 1) [], true, .unset, 0, false⟩
      let written := settings.write nowhere (.new fun _ => 0)
      written.isSome = true ∧
        ((written.bind fun after => after.rewindLength 20).bind (settings.read nowhere)).isNone = true) ∧
      let names := List.replicate 65538
        (⟨.plain Wps.wpsIdSsid (.string (List.replicate 65535 0)), true, .unset, 0, false⟩ : Item)
      (∀ item ∈ names, item.Fits) ∧ writeAll (Item.write nowhere) names (.new fun _ => 0) = none := by
  constructor
  · decide +kernel
  · intro names
    have fit : ∀ item ∈ names, item.Fits := by
      intro item among
      rw [List.eq_of_mem_replicate among]
      refine ⟨⟨by decide, ?_⟩, fun theType value same => ?_⟩
      · rw [List.length_replicate]
        decide
      · cases same
        exact Or.inl rfl
    refine ⟨fit, too_long (new_sound _) fit ?_⟩
    have long : ∀ bytes, (Content.plain Wps.wpsIdSsid (.string bytes)).wire.length = 4 + bytes.length :=
      fun bytes => length_encoded _ _ _
    have each : ∀ item ∈ names, item.content.wire.length = 65539 := by
      intro item among
      rw [List.eq_of_mem_replicate among, long, List.length_replicate]
    have total : (stream names).length = 65538 * 65539 := by
      unfold stream
      rw [List.length_flatMap, List.map_congr_left each, List.map_const', List.sum_replicate, List.length_replicate]
      rfl
    rw [total]
    decide

end BcmDhd.Attributes
