import BcmDhd.Utils.Xtlv

namespace BcmDhd.Utils

open BcmDhd.Lib

variable {opts : UInt16} {tbuf : BcmXtlvbuf} {cursor : XtlvCursor}

theorem load16_store16 (mem : Memory) (address : Nat) (value : UInt16) :
    load16 (store16 mem address value) address = value := by
  have written : load (store16 mem address value) address 2 = littleEndian 2 value.toNat := by
    have back := Bytes.load_store mem address (littleEndian 2 value.toNat)
    rwa [Bytes.length_littleEndian] at back
  have small : value.toNat < 256 ^ 2 := value.toNat_lt
  rw [load16, written, Bytes.ofLittleEndian_littleEndian, Nat.mod_eq_of_lt small,
    UInt16.ofNat_toNat]

theorem load16_apart {mem : Memory} {address other : Nat} {bytes : List UInt8}
    (apart : other + 2 ≤ address ∨ address + bytes.length ≤ other) :
    load16 (store mem address bytes) other = load16 mem other := by
  rw [load16, Bytes.load_store_apart apart, load16]

section StoreXtlv

variable (mem : Memory) (address : Nat) (id len : UInt16) (data : List UInt8)

theorem storeXtlv_id : load16 (storeXtlv mem address id len data) address = id := by
  rw [storeXtlv, load16_apart (.inl (Nat.add_le_add_left (by decide) address)), store16,
    load16_apart (.inl le_rfl), load16_store16]

theorem storeXtlv_len : load16 (storeXtlv mem address id len data) (address + 2) = len := by
  have before : address + 2 + 2 ≤ address + bcmXtlvHdrSize := le_rfl
  rw [storeXtlv, load16_apart (.inl before), load16_store16]

theorem storeXtlv_data :
    load (storeXtlv mem address id len data) (address + bcmXtlvHdrSize) data.length = data :=
  Bytes.load_store _ _ _

theorem storeXtlv_outside {place : Nat}
    (outside : place < address ∨ address + bcmXtlvHdrSize + data.length ≤ place) :
    storeXtlv mem address id len data place = mem place := by
  have idLength := Bytes.length_littleEndian 2 id.toNat
  have lenLength := Bytes.length_littleEndian 2 len.toNat
  simp only [bcmXtlvHdrSize] at outside
  rw [storeXtlv, Bytes.store_outside (by simp only [bcmXtlvHdrSize]; omega), store16,
    Bytes.store_outside (by omega), store16, Bytes.store_outside (by omega)]

end StoreXtlv

/-- A record to be packed: `src` is the memory that holds its data. -/
structure XtlvRecord where
  id : UInt16
  len : UInt16
  src : Memory

variable {records : List XtlvRecord}

namespace XtlvRecord

def data (record : XtlvRecord) : List UInt8 := load record.src 0 record.len.toNat

def size (record : XtlvRecord) (opts : UInt16) : Nat := bcmXtlvSizeForData record.len.toNat opts

@[simp] theorem length_data (record : XtlvRecord) : record.data.length = record.len.toNat :=
  Bytes.length_load

theorem size_ge (record : XtlvRecord) (opts : UInt16) :
    record.len.toNat + 4 ≤ record.size opts := bcmXtlvSizeForData_ge _ _

end XtlvRecord

/-- The space that records take up. -/
def packedSize (opts : UInt16) (records : List XtlvRecord) : Nat :=
  (records.map (·.size opts)).sum

theorem packedSize_cons (opts : UInt16) (record : XtlvRecord) (rest : List XtlvRecord) :
    packedSize opts (record :: rest) = record.size opts + packedSize opts rest := List.sum_cons

/-- Pack one record after the other into a buffer that has room for all of them. -/
def packEntries (opts : UInt16) : List XtlvRecord → XtlvCursor → Option XtlvCursor
  | [], cursor => some cursor
  | record :: rest, cursor =>
    match bcmPackXtlvEntry cursor record.id record.len record.src opts with
    | (next, res) => if res = bcmeOk then packEntries opts rest next else none

/-- The records lie in memory one behind the other. -/
def Packed (opts : UInt16) (mem : Memory) : Nat → List XtlvRecord → Prop
  | _, [] => True
  | address, record :: rest =>
    load16 mem address = record.id ∧ load16 mem (address + 2) = record.len ∧
      load mem (address + bcmXtlvHdrSize) record.len.toNat = record.data ∧
      Packed opts mem (address + record.size opts) rest

theorem bcmPackXtlvEntry_cases (cursor : XtlvCursor) (record : XtlvRecord) (opts : UInt16) :
    (cursor.buflen.toNat < record.size opts ∧
        bcmPackXtlvEntry cursor record.id record.len record.src opts = (cursor, bcmeBadlen)) ∨
      (record.size opts ≤ cursor.buflen.toNat ∧
        bcmPackXtlvEntry cursor record.id record.len record.src opts =
          ({ mem := storeXtlv cursor.mem cursor.tlvBuf record.id record.len record.data
             tlvBuf := cursor.tlvBuf + record.size opts
             buflen := cursor.buflen - UInt16.ofNat (record.size opts) }, bcmeOk)) := by
  by_cases full : record.size opts > cursor.buflen.toNat
  · exact .inl ⟨full, if_pos full⟩
  · exact .inr ⟨Nat.le_of_not_lt full, if_neg full⟩

theorem buflen_sub {buflen : UInt16} {size : Nat} (fits : size ≤ buflen.toNat) :
    (buflen - UInt16.ofNat size).toNat = buflen.toNat - size := by
  have small : size < UInt16.size := lt_of_le_of_lt fits buflen.toNat_lt
  have value := UInt16.toNat_ofNat_of_lt' small
  rw [UInt16.toNat_sub_of_le _ _ (by rw [UInt16.le_iff_toNat_le, value]; exact fits), value]

/-- Records in a stretch of memory stay packed while the stretch is left alone. -/
theorem Packed.frame {mem mem' : Memory} {address : Nat} (packed : Packed opts mem address records)
    (same : ∀ place, address ≤ place → place < address + packedSize opts records →
      mem' place = mem place) : Packed opts mem' address records := by
  induction records generalizing address with
  | nil => trivial
  | cons record rest ih =>
    obtain ⟨id, len, data, later⟩ := packed
    have room := record.size_ge opts
    have total := packedSize_cons opts record rest
    have here : ∀ place count, place + count ≤ record.size opts →
        load mem' (address + place) count = load mem (address + place) count := by
      intro place count inside
      apply Bytes.load_congr
      intro byte low high
      exact same byte (by omega) (by omega)
    refine ⟨?_, ?_, ?_, ih later fun place low high => same place (by omega) (by omega)⟩
    · rw [← id, load16, load16]
      exact congrArg _ (congrArg _ (here 0 2 (by omega)))
    · rw [← len, load16, load16, here 2 2 (by omega)]
    · rw [← data]
      exact here 4 record.len.toNat (by omega)

theorem packed_storeXtlv (mem : Memory) (address : Nat) (record : XtlvRecord) (opts : UInt16) :
    Packed opts (storeXtlv mem address record.id record.len record.data) address [record] := by
  refine ⟨storeXtlv_id _ _ _ _ _, storeXtlv_len _ _ _ _ _, ?_, trivial⟩
  have data := storeXtlv_data mem address record.id record.len record.data
  rwa [record.length_data] at data

/-- Packing lays the records out behind each other and counts their space; the
memory in front of the cursor is left alone. -/
theorem packEntries_packed {final : XtlvCursor}
    (accepted : packEntries opts records cursor = some final) :
    Packed opts final.mem cursor.tlvBuf records ∧
      final.tlvBuf = cursor.tlvBuf + packedSize opts records ∧
      final.buflen.toNat + packedSize opts records = cursor.buflen.toNat ∧
      ∀ place < cursor.tlvBuf, final.mem place = cursor.mem place := by
  induction records generalizing cursor with
  | nil =>
    cases accepted
    exact ⟨trivial, rfl, rfl, fun _ _ => rfl⟩
  | cons record rest ih =>
    have room := record.size_ge opts
    have total := packedSize_cons opts record rest
    rcases bcmPackXtlvEntry_cases cursor record opts with ⟨-, refused⟩ | ⟨fits, written⟩
    · simp [packEntries, refused, bcmeBadlen, bcmeOk] at accepted
    · simp only [packEntries, written, if_true] at accepted
      obtain ⟨packed, moved, space, kept⟩ := ih accepted
      have remaining := buflen_sub fits
      dsimp only at packed moved space kept
      have single : packedSize opts [record] = record.size opts := List.sum_singleton
      have first : Packed opts final.mem cursor.tlvBuf [record] :=
        (packed_storeXtlv cursor.mem cursor.tlvBuf record opts).frame
          fun place _ below => kept place (by omega)
      refine ⟨⟨first.1, first.2.1, first.2.2.1, packed⟩, ?_, ?_, ?_⟩
      · omega
      · omega
      · intro place below
        rw [kept place (by omega), storeXtlv_outside _ _ _ _ _ (.inl below)]

/-- The callback is called on the records in order, until it refuses one. -/
def callOnRecords {Ctx : Type} (cbfn : Ctx → List UInt8 → UInt16 → UInt16 → Ctx × Int) :
    List XtlvRecord → Ctx → Ctx × Int
  | [], ctx => (ctx, bcmeOk)
  | record :: rest, ctx =>
    match cbfn ctx record.data record.id record.len with
    | (ctx, res) => if res ≠ bcmeOk then (ctx, res) else callOnRecords cbfn rest ctx

/-- The arithmetic of a reader at a packed record: there is a header to be read,
and what is left behind the record is the space of the others. -/
private theorem packedSize_step (opts : UInt16) (record : XtlvRecord) (rest : List XtlvRecord) :
    ((packedSize opts (record :: rest) : Nat) : Int) ≥ bcmXtlvHdrSize ∧
      ((packedSize opts (record :: rest) : Nat) : Int) -
          (bcmXtlvSizeForData record.len.toNat opts : Nat) = (packedSize opts rest : Nat) := by
  have room := record.size_ge opts
  have total := packedSize_cons opts record rest
  have sized : bcmXtlvSizeForData record.len.toNat opts = record.size opts := rfl
  simp only [bcmXtlvHdrSize]
  omega

private theorem packedSize_nil (opts : UInt16) :
    ¬ ((packedSize opts [] : Nat) : Int) ≥ bcmXtlvHdrSize := by
  simp [packedSize, bcmXtlvHdrSize]

theorem unpackLoop_packed {Ctx : Type}
    (cbfn : Ctx → List UInt8 → UInt16 → UInt16 → Ctx × Int) {mem : Memory}
    {address : Nat} (packed : Packed opts mem address records) (ctx : Ctx) :
    unpackLoop cbfn mem opts ctx address (packedSize opts records) =
      callOnRecords cbfn records ctx := by
  induction records generalizing address ctx with
  | nil => rw [unpackLoop, if_neg (packedSize_nil opts), callOnRecords]
  | cons record rest ih =>
    obtain ⟨id, len, data, later⟩ := packed
    obtain ⟨headed, left⟩ := packedSize_step opts record rest
    rw [unpackLoop, if_pos headed, callOnRecords, id, len]
    dsimp only
    rw [left, if_neg (by omega), data]
    cases called : cbfn ctx record.data record.id record.len with
    | mk next res =>
      by_cases refused : res ≠ bcmeOk
      · simp only [if_pos refused]
      · simp only [if_neg refused]
        exact ih later next

theorem callOnRecords_accepting {Ctx : Type}
    {cbfn : Ctx → List UInt8 → UInt16 → UInt16 → Ctx × Int}
    (accepting : ∀ ctx data id len, (cbfn ctx data id len).2 = bcmeOk) (records : List XtlvRecord)
    (ctx : Ctx) :
    callOnRecords cbfn records ctx =
      (records.foldl (fun ctx record => (cbfn ctx record.data record.id record.len).1) ctx,
        bcmeOk) := by
  induction records generalizing ctx with
  | nil => rfl
  | cons record rest ih =>
    have accepted := accepting ctx record.data record.id record.len
    rw [callOnRecords, List.foldl_cons, ← ih]
    exact if_neg (not_not.mpr accepted)

theorem getDataLoop_cons (id : UInt16) {mem : Memory} {address : Nat}
    {record : XtlvRecord} {rest : List XtlvRecord} (packed : Packed opts mem address (record :: rest)) :
    getDataLoop mem id opts address (packedSize opts (record :: rest)) =
      if id = record.id then some (address + bcmXtlvHdrSize, record.len)
      else getDataLoop mem id opts (address + record.size opts) (packedSize opts rest) := by
  obtain ⟨type, len, -, -⟩ := packed
  obtain ⟨headed, left⟩ := packedSize_step opts record rest
  rw [getDataLoop, if_pos headed, type, len]
  dsimp only
  rw [left, if_neg (by omega)]
  rfl

theorem getDataLoop_absent (id : UInt16) {mem : Memory} {address : Nat} (packed : Packed opts mem address records)
    (absent : ∀ record ∈ records, record.id ≠ id) :
    getDataLoop mem id opts address (packedSize opts records) = none := by
  induction records generalizing address with
  | nil => rw [getDataLoop, if_neg (packedSize_nil opts)]
  | cons record rest ih =>
    have other : ¬ id = record.id := fun same => absent record List.mem_cons_self same.symm
    rw [getDataLoop_cons id packed, if_neg other]
    exact ih packed.2.2.2 fun later member => absent later (List.mem_cons_of_mem _ member)

theorem getDataLoop_first {mem : Memory} {address : Nat}
    {before after : List XtlvRecord} {record : XtlvRecord}
    (packed : Packed opts mem address (before ++ record :: after))
    (first : ∀ earlier ∈ before, earlier.id ≠ record.id) :
    getDataLoop mem record.id opts address (packedSize opts (before ++ record :: after)) =
        some (address + packedSize opts before + bcmXtlvHdrSize, record.len) ∧
      load mem (address + packedSize opts before + bcmXtlvHdrSize) record.len.toNat =
        record.data := by
  induction before generalizing address with
  | nil =>
    rw [List.nil_append] at packed ⊢
    rw [getDataLoop_cons record.id packed, if_pos rfl]
    exact ⟨rfl, packed.2.2.1⟩
  | cons head rest ih =>
    have other : ¬ record.id = head.id := fun same => first head List.mem_cons_self same.symm
    have shifted : address + packedSize opts (head :: rest) =
        address + head.size opts + packedSize opts rest := by
      rw [Nat.add_assoc]
      exact congrArg _ List.sum_cons
    rw [List.cons_append] at packed ⊢
    rw [getDataLoop_cons record.id packed, if_neg other, shifted]
    exact ih packed.2.2.2 fun earlier member => first earlier (List.mem_cons_of_mem _ member)

/-- Calls of `bcm_unpack_xtlv_entry` for ids with room for their data, up to the first that fails. -/
def unpackEntries (mem : Memory) (opts : UInt16) : Nat → List (UInt16 × UInt16) → (Nat × List (List UInt8)) × Int
  | tlvBuf, [] => ((tlvBuf, []), bcmeOk)
  | tlvBuf, (xpctType, xpctLen) :: rest =>
    let entry := bcmUnpackXtlvEntry mem tlvBuf xpctType xpctLen opts
    if entry.2 = bcmeOk then
      let later := unpackEntries mem opts entry.1.1 rest
      ((later.1.1, entry.1.2 :: later.1.2), later.2)
    else ((entry.1.1, []), entry.2)

/-- A record without data is taken for any other. -/
def Expected (expected : UInt16 × UInt16) (record : XtlvRecord) : Prop :=
  record.len = 0 ∨ record.id = expected.1 ∧ record.len ≤ expected.2

theorem bcmUnpackXtlvEntry_packed {mem : Memory} {address : Nat} {record : XtlvRecord} {rest : List XtlvRecord}
    (packed : Packed opts mem address (record :: rest)) (expected : UInt16 × UInt16) :
    (Expected expected record → bcmUnpackXtlvEntry mem address expected.1 expected.2 opts =
        ((address + record.size opts, record.data), bcmeOk)) ∧
      (¬ Expected expected record →
        bcmUnpackXtlvEntry mem address expected.1 expected.2 opts = ((address, []), bcmeBadarg)) := by
  obtain ⟨type, len, data, -⟩ := packed
  unfold bcmUnpackXtlvEntry Expected
  rw [type, len]
  dsimp only
  by_cases empty : record.len = 0
  · have nothing : record.data = [] := by
      rw [XtlvRecord.data, empty]
      rfl
    rw [if_pos empty, nothing]
    exact ⟨fun _ => rfl, fun other => absurd (.inl empty) other⟩
  · rw [if_neg empty, or_iff_right empty, data]
    refine ⟨fun known => ?_, fun other => ?_⟩
    · rw [if_neg (not_or.mpr ⟨not_not.mpr known.1, UInt16.not_lt.mpr known.2⟩)]
      rfl
    · rw [if_pos ((not_and_or.mp other).imp id UInt16.not_le.mp)]

theorem unpackEntries_packed {mem : Memory} {address : Nat} {expected others : List (UInt16 × UInt16)}
    {taken rest : List XtlvRecord} (matching : List.Forall₂ Expected expected taken)
    (packed : Packed opts mem address (taken ++ rest)) :
    Packed opts mem (address + packedSize opts taken) rest ∧
      unpackEntries mem opts address (expected ++ others) =
        let later := unpackEntries mem opts (address + packedSize opts taken) others
        ((later.1.1, taken.map XtlvRecord.data ++ later.1.2), later.2) := by
  induction matching generalizing address with
  | nil => exact ⟨packed, rfl⟩
  | cons known _ ih =>
    have entry := (bcmUnpackXtlvEntry_packed packed _).1 known
    obtain ⟨behind, later⟩ := ih packed.2.2.2
    rw [packedSize_cons, ← Nat.add_assoc]
    refine ⟨behind, ?_⟩
    rw [List.cons_append, unpackEntries, entry]
    dsimp only
    rw [if_pos rfl, later]
    rfl

/-- What `bcm_pack_xtlv_entry` has packed, `bcm_unpack_xtlv_entry` unpacks in order; the first record
that is not the expected one is refused, and the pointer stays in front of it. -/
theorem xtlv_entries_unpacked {mem : Memory} {start : Nat} {buflen : UInt16} {taken rest : List XtlvRecord}
    {final : XtlvCursor} (accepted : packEntries opts (taken ++ rest) ⟨mem, start, buflen⟩ = some final)
    {expected : List (UInt16 × UInt16)} (matching : List.Forall₂ Expected expected taken) :
    unpackEntries final.mem opts start expected =
        ((start + packedSize opts taken, taken.map XtlvRecord.data), bcmeOk) ∧
      ∀ next more, (∃ record ∈ rest.head?, ¬ Expected next record) →
        unpackEntries final.mem opts start (expected ++ next :: more) =
          ((start + packedSize opts taken, taken.map XtlvRecord.data), bcmeBadarg) := by
  obtain ⟨packed, -⟩ := packEntries_packed accepted
  refine ⟨?_, ?_⟩
  · have all := (@unpackEntries_packed _ _ _ _ [] _ _ matching packed).2
    rw [List.append_nil] at all
    rw [all]
    simp [unpackEntries]
  · rintro next more ⟨record, first, other⟩
    obtain ⟨behind, all⟩ := @unpackEntries_packed _ _ _ _ (next :: more) _ _ matching packed
    obtain ⟨after, rfl⟩ := List.head?_eq_some_iff.mp first
    rw [all, unpackEntries, (bcmUnpackXtlvEntry_packed behind next).2 other]
    simp [bcmeBadarg, bcmeOk]

/-- Two records, of which the second one is not the expected one in the second try. -/
theorem xtlv_entries_unpacked_two : ∃ final,
    packEntries bcmXtlvOptionAlign32 [⟨5, 1, fun _ => 7⟩, ⟨6, 3, fun i => UInt8.ofNat i⟩] ⟨fun _ => 0, 100, 16⟩ =
      some final ∧
    unpackEntries final.mem bcmXtlvOptionAlign32 100 [(5, 1), (6, 4)] = ((116, [[7], [0, 1, 2]]), bcmeOk) ∧
    unpackEntries final.mem bcmXtlvOptionAlign32 100 [(5, 1), (9, 4)] = ((108, [[7]]), bcmeBadarg) := by
  have first : Expected (5, 1) ⟨5, 1, fun _ => 7⟩ := .inr (by decide)
  have second : Expected (6, 4) ⟨6, 3, fun i => UInt8.ofNat i⟩ := .inr (by decide)
  have stranger : ¬ Expected (9, 4) ⟨6, 3, fun i => UInt8.ofNat i⟩ := by
    rintro (empty_ | ⟨id_, -⟩)
    · exact absurd empty_ (by decide)
    · exact absurd id_ (by decide)
  refine ⟨_, rfl, ?_, ?_⟩
  · exact (@xtlv_entries_unpacked bcmXtlvOptionAlign32 (fun _ => 0) 100 16
      [⟨5, 1, fun _ => 7⟩, ⟨6, 3, fun i => UInt8.ofNat i⟩] [] _ rfl [(5, 1), (6, 4)]
      (.cons first (.cons second .nil))).1
  · exact (@xtlv_entries_unpacked bcmXtlvOptionAlign32 (fun _ => 0) 100 16
      [⟨5, 1, fun _ => 7⟩] [⟨6, 3, fun i => UInt8.ofNat i⟩] _ rfl [(5, 1)] (.cons first .nil)).2 (9, 4) []
      ⟨_, rfl, stranger⟩

/-- The calls that write into a `bcm_xtlvbuf`. -/
inductive XtlvPut where
  | putData (type : UInt16) (data : Memory) (dlen : UInt16)
  | put8 (type : UInt16) (data : Int8)
  | put16 (type : UInt16) (data : Int16)
  | put32 (type : UInt16) (data : Int32)

namespace XtlvPut

def apply (mem : Memory) (tbuf : BcmXtlvbuf) : XtlvPut → (Memory × BcmXtlvbuf) × Int
  | .putData type data dlen => bcmXtlvPutData mem tbuf type data dlen
  | .put8 type data => bcmXtlvPut8 mem tbuf type data
  | .put16 type data => bcmXtlvPut16 mem tbuf type data
  | .put32 type data => bcmXtlvPut32 mem tbuf type data

/-- The record that a call stands for; a number lies in memory with its low byte first. -/
def record : XtlvPut → XtlvRecord
  | .putData type data dlen => ⟨type, dlen, data⟩
  | .put8 type data => ⟨type, 1, store (fun _ => 0) 0 [data.toUInt8]⟩
  | .put16 type data => ⟨type, 2, store (fun _ => 0) 0 (littleEndian 2 data.toUInt16.toNat)⟩
  | .put32 type data => ⟨type, 4, store (fun _ => 0) 0 (littleEndian 4 data.toUInt32.toNat)⟩

theorem apply_eq (mem : Memory) (tbuf : BcmXtlvbuf) (put : XtlvPut) :
    put.apply mem tbuf = xtlvPut mem tbuf put.record.id put.record.len put.record.data := by
  cases put with
  | putData type data dlen => rfl
  | put8 type data =>
    exact congrArg (xtlvPut mem tbuf type 1) (Bytes.load_store _ 0 [data.toUInt8]).symm
  | put16 type data =>
    exact congrArg (xtlvPut mem tbuf type 2)
      (Bytes.load_store _ 0 (littleEndian 2 data.toUInt16.toNat)).symm
  | put32 type data =>
    exact congrArg (xtlvPut mem tbuf type 4)
      (Bytes.load_store _ 0 (littleEndian 4 data.toUInt32.toNat)).symm

end XtlvPut

/-- A buffer and a cursor with the same memory, position and remaining space. -/
structure SamePlace (mem : Memory) (tbuf : BcmXtlvbuf) (cursor : XtlvCursor) : Prop where
  mem : cursor.mem = mem
  tlvBuf : cursor.tlvBuf = tbuf.buf
  buflen : cursor.buflen = bcmXtlvBufRlen tbuf
  low : tbuf.head ≤ tbuf.buf
  high : tbuf.buf - tbuf.head ≤ tbuf.size.toNat

theorem bcmXtlvBufRlen_toNat (high : tbuf.buf - tbuf.head ≤ tbuf.size.toNat) :
    (bcmXtlvBufRlen tbuf).toNat = tbuf.size.toNat - (tbuf.buf - tbuf.head) :=
  buflen_sub high

/-- Putting a record into the buffer is packing it at the cursor. -/
theorem SamePlace.put {mem : Memory} (same : SamePlace mem tbuf cursor) (put : XtlvPut) :
    let packed := bcmPackXtlvEntry cursor put.record.id put.record.len put.record.src tbuf.opts
    SamePlace (put.apply mem tbuf).1.1 (put.apply mem tbuf).1.2 packed.1 ∧
      (put.apply mem tbuf).1.2.opts = tbuf.opts ∧
      ((put.apply mem tbuf).2 = bcmeOk ↔ packed.2 = bcmeOk) := by
  intro packed
  have remaining := bcmXtlvBufRlen_toNat same.high
  have low := same.low
  have high := same.high
  have space : cursor.buflen.toNat = (bcmXtlvBufRlen tbuf).toNat := by rw [same.buflen]
  rw [put.apply_eq mem tbuf]
  rcases bcmPackXtlvEntry_cases cursor put.record tbuf.opts with ⟨short, refused⟩ | ⟨fits, written⟩
  · have noRoom : (bcmXtlvBufRlen tbuf).toNat <
        bcmXtlvSizeForData put.record.len.toNat tbuf.opts := by
      rw [← space]
      exact short
    have kept : xtlvPut mem tbuf put.record.id put.record.len put.record.data =
        ((mem, tbuf), bcmeNomem) := if_pos noRoom
    rw [kept]
    simp only [packed, refused]
    exact ⟨same, trivial, by decide⟩
  · have room : ¬ (bcmXtlvBufRlen tbuf).toNat <
        bcmXtlvSizeForData put.record.len.toNat tbuf.opts := by
      rw [← space]
      exact Nat.not_lt.mpr fits
    have stored : xtlvPut mem tbuf put.record.id put.record.len put.record.data =
        ((storeXtlv mem tbuf.buf put.record.id put.record.len put.record.data,
          { tbuf with buf := tbuf.buf + put.record.size tbuf.opts }), bcmeOk) := if_neg room
    rw [stored]
    simp only [packed, written]
    have bounded : tbuf.buf + put.record.size tbuf.opts - tbuf.head ≤ tbuf.size.toNat := by omega
    refine ⟨⟨?_, ?_, ?_, ?_, bounded⟩, trivial, trivial⟩
    · rw [same.mem, same.tlvBuf]
    · rw [same.tlvBuf]
    · apply UInt16.toNat_inj.mp
      rw [buflen_sub fits, bcmXtlvBufRlen_toNat bounded, space, remaining]
      dsimp only
      omega
    · exact low.trans (Nat.le_add_right _ _)

/-- The buffer after some puts, and the cursor after packing the same records;
what finds no space is left out by both. -/
def putAll (puts : List XtlvPut) (place : Memory × BcmXtlvbuf) : Memory × BcmXtlvbuf :=
  puts.foldl (fun place put => (put.apply place.1 place.2).1) place

def packAll (opts : UInt16) (puts : List XtlvPut) (cursor : XtlvCursor) : XtlvCursor :=
  puts.foldl (fun cursor put =>
    (bcmPackXtlvEntry cursor put.record.id put.record.len put.record.src opts).1) cursor

theorem SamePlace.puts (puts : List XtlvPut) {mem : Memory} (same : SamePlace mem tbuf cursor) :
    SamePlace (putAll puts (mem, tbuf)).1 (putAll puts (mem, tbuf)).2 (packAll tbuf.opts puts cursor) ∧
      (putAll puts (mem, tbuf)).2.opts = tbuf.opts := by
  induction puts generalizing mem tbuf cursor with
  | nil => exact ⟨same, rfl⟩
  | cons put rest ih =>
    obtain ⟨next, opts, -⟩ := same.put put
    have remaining := ih next
    rw [opts] at remaining
    exact remaining

theorem SamePlace.init {buf : Nat} {len : UInt16}
    (started : bcmXtlvBufInit buf len opts = some tbuf) (mem : Memory) :
    SamePlace mem tbuf ⟨mem, buf, len⟩ ∧ tbuf.opts = opts := by
  unfold bcmXtlvBufInit at started
  split at started
  · cases started
  · cases started
    refine ⟨⟨rfl, rfl, ?_, le_rfl, ?_⟩, rfl⟩
    · simp [bcmXtlvBufRlen, bcmXtlvBufLen]
    · simp

/-- Records that are packed into one buffer are read back: the callback of the
unpacker is called on them in order, a search finds the first one with an id, a
refused entry moves nothing, and the put functions write the same bytes. -/
theorem xtlv_buffers_round_trip (opts : UInt16) (mem : Memory) (start : Nat) (buflen : UInt16)
    (records : List XtlvRecord) (final : XtlvCursor)
    (accepted : packEntries opts records ⟨mem, start, buflen⟩ = some final) :
    let region := buflen - final.buflen
    final.tlvBuf = start + region.toNat ∧
      (∀ (Ctx : Type) (cbfn : Ctx → List UInt8 → UInt16 → UInt16 → Ctx × Int) (ctx : Ctx),
        bcmUnpackXtlvBuf cbfn final.mem ctx start region opts = callOnRecords cbfn records ctx ∧
          ((∀ ctx data id len, (cbfn ctx data id len).2 = bcmeOk) →
            bcmUnpackXtlvBuf cbfn final.mem ctx start region opts =
              (records.foldl (fun ctx record => (cbfn ctx record.data record.id record.len).1) ctx,
                bcmeOk))) ∧
      (∀ before record after, records = before ++ record :: after →
        (∀ earlier ∈ before, earlier.id ≠ record.id) →
        bcmGetDataFromXtlvBuf final.mem start region record.id opts =
            some (start + packedSize opts before + bcmXtlvHdrSize, record.len) ∧
          load final.mem (start + packedSize opts before + bcmXtlvHdrSize) record.len.toNat =
            record.data) ∧
      (∀ id, (∀ record ∈ records, record.id ≠ id) →
        bcmGetDataFromXtlvBuf final.mem start region id opts = none) ∧
      (∀ (cursor : XtlvCursor) (type len : UInt16) (src : Memory),
        (bcmPackXtlvEntry cursor type len src opts).2 ≠ bcmeOk →
          (bcmPackXtlvEntry cursor type len src opts).1 = cursor) ∧
      (∀ (puts : List XtlvPut) (tbuf : BcmXtlvbuf), bcmXtlvBufInit start buflen opts = some tbuf →
        let put := putAll puts (mem, tbuf)
        let packed := packAll opts puts ⟨mem, start, buflen⟩
        put.1 = packed.mem ∧ put.2.buf = packed.tlvBuf ∧ bcmXtlvBufRlen put.2 = packed.buflen ∧
          ∀ next : XtlvPut, (next.apply put.1 put.2).2 = bcmeOk ↔
            (bcmPackXtlvEntry packed next.record.id next.record.len next.record.src opts).2 =
              bcmeOk) := by
  intro region
  obtain ⟨packed, moved, space, -⟩ := packEntries_packed accepted
  dsimp only at packed moved space
  have filled : region.toNat = packedSize opts records := by
    have below : final.buflen ≤ buflen := UInt16.le_iff_toNat_le.mpr (by omega)
    rw [UInt16.toNat_sub_of_le _ _ below]
    omega
  refine ⟨by rw [filled]; exact moved, ?_, ?_, ?_, ?_, ?_⟩
  · intro Ctx cbfn ctx
    have unpacked := unpackLoop_packed cbfn packed ctx
    rw [← filled] at unpacked
    refine ⟨unpacked, fun accepting => ?_⟩
    rw [← callOnRecords_accepting accepting]
    exact unpacked
  · rintro before record after rfl first
    rw [bcmGetDataFromXtlvBuf, filled]
    exact getDataLoop_first packed first
  · intro id absent
    rw [bcmGetDataFromXtlvBuf, filled]
    exact getDataLoop_absent id packed absent
  · intro cursor type len src failed
    rcases bcmPackXtlvEntry_cases cursor ⟨type, len, src⟩ opts with ⟨-, refused⟩ | ⟨-, written⟩
    · rw [refused]
    · rw [written] at failed
      exact (failed rfl).elim
  · intro puts tbuf started
    obtain ⟨same, options⟩ := SamePlace.init started mem
    obtain ⟨place, kept⟩ := same.puts puts
    rw [options] at place kept
    refine ⟨place.mem.symm, place.tlvBuf.symm, place.buflen.symm, fun next => ?_⟩
    have agree := (place.put next).2.2
    rw [kept] at agree
    exact agree

/-- Two padded records that fill a buffer to its last byte. -/
theorem xtlv_buffers_round_trip_full_buffer :
    let records : List XtlvRecord := [⟨5, 1, fun _ => 7⟩, ⟨6, 3, fun i => UInt8.ofNat i⟩]
    let logged : List (UInt16 × List UInt8) → List UInt8 → UInt16 → UInt16 →
        List (UInt16 × List UInt8) × Int :=
      fun log data id _ => (log ++ [(id, data)], bcmeOk)
    ∃ final, packEntries bcmXtlvOptionAlign32 records ⟨fun _ => 0, 100, 16⟩ = some final ∧
      bcmUnpackXtlvBuf logged final.mem [] 100 (16 - final.buflen) bcmXtlvOptionAlign32 =
        ([(5, [7]), (6, [0, 1, 2])], bcmeOk) := by
  intro records logged
  refine ⟨_, rfl, ?_⟩
  have unpacked := ((xtlv_buffers_round_trip bcmXtlvOptionAlign32 (fun _ => 0) 100 16 records _
    rfl).2.1 _ logged []).2 (fun _ _ _ _ => rfl)
  exact unpacked

end BcmDhd.Utils
