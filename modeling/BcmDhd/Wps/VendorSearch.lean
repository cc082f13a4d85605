import BcmDhd.Wps.SettingsLoops

/-! The search for a vendor's extension in a list of attributes. -/

namespace BcmDhd.Wps

open BcmDhd.Lib

/-- An attribute whose type and length fit in their fields. -/
structure Attribute where
  theType : UInt16
  value : {value : Bytes // value.length < 65536}

/-- An attribute as it is sent. -/
def Attribute.bytes (item : Attribute) : Bytes := tlv item.theType.toNat item.value.val

/-- A list of attributes as it is sent. -/
def wire (items : List Attribute) : Bytes := items.flatMap Attribute.bytes

/-- A vendor extension of this vendor. -/
def Wanted (vendorId : VendorId) (item : Attribute) : Prop :=
  item.theType.toNat = wpsIdVendorExt ∧ 3 ≤ item.value.val.length ∧ item.value.val.take 3 = vendorId.val

/-- The three bytes behind the header of an attribute. They are those of its value only as far
as it has them. -/
def seen (value : Bytes) (later : List Attribute) : Bytes := (value ++ wire later).take 3

/-- The first two of some bytes as a number. -/
def firstTwo (bytes : Bytes) : Nat := (bytes.getD 0 0).toNat * 256 + (bytes.getD 1 0).toNat

/-- What the search gives is the first extension of the vendor, if there is one. -/
structure FindsFirst (vendorId : VendorId) (items : List Attribute)
    (found : Option (VendorExt × BufferObj)) : Prop where
  succeeds : found.isSome ↔ ∃ item ∈ items, Wanted vendorId item
  first : ∀ ext next, found = some (ext, next) → ∃ skipped item later, items = skipped ++ item :: later ∧
    (∀ item ∈ skipped, ¬Wanted vendorId item) ∧ Wanted vendorId item ∧
    ext.vendorData = (wire skipped).length + 7 ∧ ext.dataLength = item.value.val.length - 3 ∧
    (next.vendorBuf ext).rest = item.value.val.drop 3

/-- Up to the first extension of the vendor, every vendor extension has two bytes behind its
header that make at least 3, and none that is too short has the vendor's there. -/
def Unhidden (vendorId : VendorId) (items : List Attribute) : Prop :=
  ∀ skipped item later, items = skipped ++ item :: later → item.theType.toNat = wpsIdVendorExt →
    (∀ item ∈ skipped, ¬Wanted vendorId item) → (∃ one ∈ item :: later, Wanted vendorId one) →
      3 ≤ firstTwo (seen item.value.val later) ∧ (seen item.value.val later = vendorId.val → 3 ≤ item.value.val.length)

variable {vendorId : VendorId} {item : Attribute} {items later : List Attribute} {before : Bytes} {dataLength : Nat}
  {around : Surroundings}

theorem wire_cons (item : Attribute) (later : List Attribute) :
    wire (item :: later) = tlv item.theType.toNat item.value.val ++ wire later := rfl

theorem wire_append (items later : List Attribute) : wire (items ++ later) = wire items ++ wire later :=
  List.flatMap_append

/-- Where a list of attributes is read. -/
abbrev listAt (before : Bytes) (items : List Attribute) (dataLength : Nat) (around : Surroundings) : BufferObj :=
  ⟨before, wire items, dataLength, around⟩

theorem seen_at (long : 3 ≤ (item.value.val ++ wire later).length) :
    [(listAt before (item :: later) dataLength around).byteAt 4,
      (listAt before (item :: later) dataLength around).byteAt 5,
      (listAt before (item :: later) dataLength around).byteAt 6] = seen item.value.val later ∧
    (listAt before (item :: later) dataLength around).ntohs 4 = firstTwo (seen item.value.val later) := by
  have three : ∃ x y z tail, item.value.val ++ wire later = x :: y :: z :: tail := by
    rcases bytes : item.value.val ++ wire later with _ | ⟨x, _ | ⟨y, _ | ⟨z, tail⟩⟩⟩
    · simp [bytes] at long
    · simp [bytes] at long
    · simp [bytes] at long
    · exact ⟨x, y, z, tail, rfl⟩
  obtain ⟨x, y, z, tail, bytes⟩ := three
  have rest : wire (item :: later) =
      wpsHtons item.theType.toNat ++ wpsHtons item.value.val.length ++ (x :: y :: z :: tail) := by
    rw [← bytes]
    simp [wire_cons, tlv]
  rw [seen, bytes]
  simp [BufferObj.ntohs, BufferObj.byteAt, rest, firstTwo, wpsHtons]

theorem turn_at : findVendorIdTurn vendorId (listAt before (item :: later) dataLength around) =
    if item.theType.toNat = wpsIdVendorExt ∧ (listAt before (item :: later) dataLength around).ntohs 4 < 3 then
      .leave none
    else if item.theType.toNat = wpsIdVendorExt ∧ [(listAt before (item :: later) dataLength around).byteAt 4,
        (listAt before (item :: later) dataLength around).byteAt 5,
        (listAt before (item :: later) dataLength around).byteAt 6] = vendorId.val then
      .leave (some (listAt before (item :: later) dataLength around))
    else .again (listAt (before ++ item.bytes) later dataLength around) := by
  have here : (listAt before (item :: later) dataLength around).rest =
      tlv item.theType.toNat item.value.val ++ wire later := rfl
  have room := BufferObj.remaining_tlv here
  unfold findVendorIdTurn
  rw [if_neg (by omega), BufferObj.ntohs_tlv here item.theType.toNat_lt,
    BufferObj.ntohs_tlv_len here item.value.property]
  split
  · rfl
  split
  · rfl
  rw [if_neg (by omega), BufferObj.past_tlv here]
  rfl

theorem long_of_later (wanted : ∃ item ∈ later, Wanted vendorId item) (value : Bytes) :
    3 ≤ (value ++ wire later).length := by
  obtain ⟨wantedItem, member, _⟩ := wanted
  obtain ⟨skipped, rest, rfl⟩ := List.append_of_mem member
  rw [wire_append, wire_cons]
  simp only [List.length_append, length_tlv]
  omega

theorem seen_long (long : 3 ≤ item.value.val.length) : seen item.value.val later = item.value.val.take 3 :=
  List.take_append_of_le_length long

theorem Unhidden.behind (unhidden : Unhidden vendorId (item :: later)) (other : ¬Wanted vendorId item) :
    Unhidden vendorId later := by
  intro skipped ext rest split type none_ wanted
  refine unhidden (item :: skipped) ext rest (by rw [split]; rfl) type ?_ wanted
  intro earlier member
  rcases List.mem_cons.mp member with rfl | member
  · exact other
  · exact none_ earlier member

theorem Unhidden.cons (unhidden : Unhidden vendorId later)
    (head : item.theType.toNat = wpsIdVendorExt → 3 ≤ firstTwo (seen item.value.val later) ∧
      (seen item.value.val later = vendorId.val → 3 ≤ item.value.val.length)) : Unhidden vendorId (item :: later) := by
  intro skipped ext rest split type none_ wanted
  cases skipped with
  | nil =>
    cases split
    exact head type
  | cons first skipped =>
    cases split
    exact unhidden skipped ext rest rfl type (fun earlier member =>
      none_ earlier (List.mem_cons_of_mem _ member)) wanted

/-- The search comes to the first extension of the vendor if none in front of it hides it. -/
theorem search_found (wanted : ∃ item ∈ items, Wanted vendorId item) (unhidden : Unhidden vendorId items) :
    ∃ skipped item later, items = skipped ++ item :: later ∧ (∀ item ∈ skipped, ¬Wanted vendorId item) ∧
      Wanted vendorId item ∧ Leaves (findVendorIdTurn vendorId) (listAt before items dataLength around)
        (some (listAt (before ++ wire skipped) (item :: later) dataLength around)) := by
  induction items generalizing before with
  | nil =>
    obtain ⟨item, member, _⟩ := wanted
    cases member
  | cons item later ih =>
    have head := fun type => unhidden [] item later rfl type (fun _ member => (List.not_mem_nil member).elim) wanted
    by_cases here : Wanted vendorId item
    · have three : 3 ≤ (item.value.val ++ wire later).length := by
        rw [List.length_append]
        exact Nat.le_add_right_of_le here.2.1
      obtain ⟨bytes, number⟩ := @seen_at item later before dataLength around three
      refine ⟨[], item, later, rfl, fun _ member => (List.not_mem_nil member).elim, here, ?_⟩
      apply Loop.leaves_of_leave
      rw [turn_at, number, bytes, if_neg (by have := (head here.1).1; omega),
        if_pos ⟨here.1, (seen_long here.2.1).trans here.2.2⟩]
      simp [wire]
    · have behind : ∃ item ∈ later, Wanted vendorId item := by
        obtain ⟨one, member, wantedOne⟩ := wanted
        rcases List.mem_cons.mp member with rfl | member
        · exact absurd wantedOne here
        · exact ⟨one, member, wantedOne⟩
      obtain ⟨skipped, found, rest, split, none_, wantedOne, leaves⟩ :=
        @ih (before ++ item.bytes) behind (unhidden.behind here)
      refine ⟨item :: skipped, found, rest, by rw [split]; rfl, ?_, wantedOne, ?_⟩
      · intro earlier member
        rcases List.mem_cons.mp member with rfl | member
        · exact here
        · exact none_ earlier member
      · rw [wire_cons, ← List.append_assoc]
        refine Loop.Leaves.back leaves ?_
        obtain ⟨bytes, number⟩ := @seen_at item later before dataLength around (long_of_later behind _)
        rw [turn_at, number, bytes, if_neg, if_neg]
        · rintro ⟨type, same⟩
          have long := (head type).2 same
          exact here ⟨type, long, (seen_long long).symm.trans same⟩
        · rintro ⟨type, small⟩
          have big := (head type).1
          omega

/-- Otherwise nothing is found. -/
theorem search_hidden (hidden : ¬((∃ item ∈ items, Wanted vendorId item) ∧ Unhidden vendorId items)) :
    ∃ found, Leaves (findVendorIdTurn vendorId) (listAt before items dataLength around) found ∧
      found.bind tlvVendorExtParse = none := by
  induction items generalizing before with
  | nil => exact ⟨none, Loop.leaves_of_leave (if_pos rfl), rfl⟩
  | cons item later ih =>
    have turn := @turn_at vendorId item later before dataLength around
    split at turn
    · exact ⟨none, Loop.leaves_of_leave turn, rfl⟩
    rename_i big
    split at turn
    · rename_i same
      refine ⟨_, Loop.leaves_of_leave turn, ?_⟩
      by_cases long : 3 ≤ item.value.val.length
      · have three : 3 ≤ (item.value.val ++ wire later).length := by
          rw [List.length_append]
          exact Nat.le_add_right_of_le long
        obtain ⟨bytes, number⟩ := @seen_at item later before dataLength around three
        rw [bytes] at same
        have wanted : Wanted vendorId item := ⟨same.1, long, (seen_long long).symm.trans same.2⟩
        refine absurd ⟨⟨item, List.mem_cons_self, wanted⟩, ?_⟩ hidden
        intro skipped ext rest split type none_ _
        cases skipped with
        | nil =>
          cases split
          rw [number] at big
          exact ⟨Nat.not_lt.mp fun small => big ⟨type, small⟩, fun _ => long⟩
        | cons first skipped =>
          cases split
          exact absurd wanted (none_ item List.mem_cons_self)
      · rw [Option.bind_some]
        refine vendorExtParse_broken (Or.inr ?_)
        rw [BufferObj.ntohs_tlv_len (wire_cons item later) item.value.property]
        omega
    · rename_i other
      have onward : ¬((∃ item ∈ later, Wanted vendorId item) ∧ Unhidden vendorId later) := by
        rintro ⟨wanted, unhidden⟩
        obtain ⟨bytes, number⟩ := @seen_at item later before dataLength around (long_of_later wanted _)
        rw [number] at big
        rw [bytes] at other
        obtain ⟨one, member, wantedOne⟩ := wanted
        refine hidden ⟨⟨one, List.mem_cons_of_mem _ member, wantedOne⟩, unhidden.cons fun type => ?_⟩
        exact ⟨Nat.not_lt.mp fun small => big ⟨type, small⟩, fun same => absurd ⟨type, same⟩ other⟩
      obtain ⟨found, leaves, none_⟩ := @ih (before ++ item.bytes) onward
      exact ⟨found, Loop.Leaves.back leaves turn, none_⟩

/-- A received list of attributes that has been read up to some place. -/
def received (items : List Attribute) (place : Nat) (around : Surroundings) : BufferObj :=
  ⟨(wire items).take place, (wire items).drop place, (wire items).length, around⟩

/-- The search returns with the first extension of the vendor, or with nothing if there is none. -/
def SearchedRight (vendorId : VendorId) (items : List Attribute) : Prop :=
  ∀ place around, ∃ found,
    Settles (fun turns => tlvFindVendorExtParseImp vendorId turns (received items place around)) (some found) ∧
      FindsFirst vendorId items found

theorem received_rewind (items : List Attribute) (place : Nat) (around : Surroundings) :
    (received items place around).rewind = listAt [] items (wire items).length around := by
  simp [received, BufferObj.rewind, BufferObj.bytes]

theorem search_settles {found : Option BufferObj} {place : Nat}
    (leaves : Leaves (findVendorIdTurn vendorId) (listAt [] items (wire items).length around) found) :
    Settles (fun turns => tlvFindVendorExtParseImp vendorId turns (received items place around))
      (some (found.bind tlvVendorExtParse)) := by
  unfold tlvFindVendorExtParseImp
  rw [received_rewind]
  by_cases nothing : (received items place around).dataLength = 0
  · have none_ : Leaves (findVendorIdTurn vendorId) (listAt [] items (wire items).length around) none :=
      Loop.leaves_of_leave (if_pos nothing)
    rw [Loop.Leaves.unique leaves none_]
    simp only [if_pos nothing]
    exact Settles.const _
  · simp only [if_neg nothing]
    exact Settles.map (Settles.loop leaves) (Option.map fun found => found.bind tlvVendorExtParse)

/-- A wanted extension is parsed, and its data are what follows the vendor. -/
theorem wanted_parsed (wanted : Wanted vendorId item) : ∃ ext next,
    tlvVendorExtParse (listAt before (item :: later) dataLength around) = some (ext, next) ∧
      ext.vendorData = before.length + 7 ∧ ext.dataLength = item.value.val.length - 3 ∧
      (next.vendorBuf ext).rest = item.value.val.drop 3 := by
  obtain ⟨type, long, _⟩ := wanted
  have here : (listAt before (item :: later) dataLength around).rest = _ := wire_cons item later
  have number := BufferObj.ntohs_tlv_len here item.value.property
  have nextType := (BufferObj.nextType_tlv here item.theType.toNat_lt).trans type
  have whole : ¬CutOff (listAt before (item :: later) dataLength around) := by
    unfold CutOff
    rw [number, BufferObj.remaining_tlv here]
    omega
  refine ⟨_, _, vendorExtParse_whole nextType whole (by omega), rfl, by rw [number], ?_⟩
  rw [number, BufferObj.past_tlv here, BufferObj.vendorBuf, BufferObj.bytes]
  have split : before ++ tlv item.theType.toNat item.value.val ++ wire later =
      (before ++ (wpsHtons item.theType.toNat ++ wpsHtons item.value.val.length ++ item.value.val.take 3)) ++
        (item.value.val.drop 3 ++ wire later) := by
    rw [tlv]
    simp only [List.append_assoc]
    rw [← List.append_assoc (item.value.val.take 3), List.take_append_drop]
  dsimp only
  rw [split, List.drop_left' (by simp [BufferObj.pos]; omega), List.take_left' (by simp)]

theorem unhidden_of_none (none_ : ¬∃ item ∈ items, Wanted vendorId item) : Unhidden vendorId items := by
  intro skipped item later split _ _ wanted
  obtain ⟨one, member, wantedOne⟩ := wanted
  exact (none_ ⟨one, split ▸ List.mem_append_right _ member, wantedOne⟩).elim

theorem finds_none (none_ : ¬∃ item ∈ items, Wanted vendorId item) : FindsFirst vendorId items none := by
  constructor
  · exact iff_of_false (by simp) none_
  · intro ext next found
    cases found

theorem unhidden_of_right (right : SearchedRight vendorId items) : Unhidden vendorId items := by
  by_contra hidden
  obtain ⟨found, settled, finds⟩ := right 0 ⟨fun _ => 0, fun _ => 0⟩
  obtain ⟨place, leaves, none_⟩ := @search_hidden vendorId items [] (wire items).length ⟨fun _ => 0, fun _ => 0⟩
    fun both => hidden both.2
  have also := @search_settles vendorId items ⟨fun _ => 0, fun _ => 0⟩ place 0 leaves
  rw [none_] at also
  cases Option.some.inj (settled.unique also)
  refine hidden (unhidden_of_none fun wanted => ?_)
  exact absurd (finds.succeeds.mpr wanted) (by simp)

theorem right_of_unhidden (unhidden : Unhidden vendorId items) : SearchedRight vendorId items := by
  intro place around
  by_cases wanted : ∃ item ∈ items, Wanted vendorId item
  · obtain ⟨skipped, item, later, split, none_, wantedItem, leaves⟩ :=
      @search_found vendorId items [] (wire items).length around wanted unhidden
    obtain ⟨ext, next, parsed, data, length, bytes⟩ :=
      @wanted_parsed vendorId item later ([] ++ wire skipped) (wire items).length around wantedItem
    have settled := @search_settles vendorId items around _ place leaves
    rw [Option.bind_some, parsed] at settled
    refine ⟨_, settled, iff_of_true rfl wanted, ?_⟩
    intro other behind same
    cases same
    exact ⟨skipped, item, later, split, none_, wantedItem, data, length, bytes⟩
  · obtain ⟨found, leaves, nothing⟩ := @search_hidden vendorId items [] (wire items).length around
      fun both => wanted both.1
    have settled := @search_settles vendorId items around _ place leaves
    rw [nothing] at settled
    exact ⟨none, settled, finds_none wanted⟩

/-- The search for a vendor's extension is right exactly if no vendor extension up to the first
of this vendor starts with two bytes below 3, and none of them is too short and seems to be of
this vendor. -/
theorem vendorSearch_iff (vendorId : VendorId) (items : List Attribute) :
    SearchedRight vendorId items ↔ Unhidden vendorId items :=
  ⟨unhidden_of_right, right_of_unhidden⟩

/-- An extension of another vendor in front of the WFA's. -/
def foreignFirst : List Attribute :=
  [⟨0x1049, ⟨[0x00, 0x01, 0x37, 0x05], by decide⟩⟩, ⟨0x1049, ⟨[0x00, 0x37, 0x2A, 0x00, 0x01, 0x20], by decide⟩⟩]

/-- The vendor's first two bytes are taken for a length that is too short. -/
theorem foreignFirst_hides : ¬SearchedRight wfaVendorId foreignFirst ∧
    (tlvFindVendorExtParseImp wfaVendorId 3 (received foreignFirst 0 ⟨fun _ => 0, fun _ => 0⟩)).map
      Option.isSome = some false ∧
    (tlvFindVendorExtParseImp wfaVendorId 3
      (received foreignFirst.reverse 0 ⟨fun _ => 0, fun _ => 0⟩)).map Option.isSome = some true := by
  refine ⟨fun right => ?_, by decide +kernel, by decide +kernel⟩
  have wanted : Wanted wfaVendorId ⟨0x1049, ⟨[0x00, 0x37, 0x2A, 0x00, 0x01, 0x20], by decide⟩⟩ :=
    ⟨rfl, by decide, rfl⟩
  have big := (unhidden_of_right right [] _ _ rfl rfl (fun _ member => (List.not_mem_nil member).elim)
    ⟨_, List.mem_cons_of_mem _ List.mem_cons_self, wanted⟩).1
  exact absurd big (by decide)

end BcmDhd.Wps
