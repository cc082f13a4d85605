import BcmDhd.Lib.Region
import BcmDhd.Utils.Xtlv

/-! The readers of xtlv records over a buffer that ends: every header field and every data byte is a
checked read. -/

namespace BcmDhd.Utils

open BcmDhd.Lib

/-- The bytes a caller hands over with a length; a negative length leaves none. -/
def xtlvRegion (mem : Memory) (tlvBuf : Nat) (buflen : Int) : Region :=
  { memory := mem, base := tlvBuf, size := buflen.toNat }

def read16 (region : Region) (address : Nat) : Option UInt16 :=
  (region.read address 2).map fun bytes => UInt16.ofNat (ofLittleEndian bytes)

def bcmXtlvSize (region : Region) (elt : Nat) (opts : UInt16) : Option Nat :=
  (read16 region (elt + 2)).map fun len => bcmXtlvSizeForData len.toNat opts

def bcmValidXtlv (region : Region) (elt : Nat) (buflen : Int) (opts : UInt16) : Option Bool :=
  (bcmXtlvSize region elt opts).map fun size : Nat => decide (buflen ≥ size)

/-- The next element or `NULL`, and the updated length. -/
def bcmNextXtlv (region : Region) (elt : Nat) (buflen : Int) (opts : UInt16) :
    Option (Option Nat × Int) :=
  match bcmXtlvSize region elt opts with
  | none => none
  | some sz =>
    (bcmValidXtlv region (elt + sz) (buflen - sz) opts).map fun valid =>
      (if valid then some (elt + sz) else none, buflen - sz)

/-- The loop of `bcm_unpack_xtlv_buf` with checked reads. -/
def unpackLoopChecked {Ctx : Type} (cbfn : Ctx → List UInt8 → UInt16 → UInt16 → Ctx × Int)
    (region : Region) (opts : UInt16) (ctx : Ctx) (tlvBuf : Nat) (sbuflen : Int) :
    Option (Ctx × Int) :=
  if sbuflen ≥ bcmXtlvHdrSize then
    match read16 region (tlvBuf + 2), read16 region tlvBuf with
    | some len, some type =>
      let size := bcmXtlvSizeForData len.toNat opts
      if sbuflen - size < 0 then some (ctx, bcmeOk)
      else
        match region.read (tlvBuf + bcmXtlvHdrSize) len.toNat with
        | none => none
        | some data =>
          match cbfn ctx data type len with
          | (ctx, res) =>
            if res ≠ bcmeOk then some (ctx, res)
            else unpackLoopChecked cbfn region opts ctx (tlvBuf + size) (sbuflen - size)
    | _, _ => none
  else some (ctx, bcmeOk)
termination_by sbuflen.toNat
decreasing_by
  exact remaining_shrinks (Nat.le_of_add_left_le (bcmXtlvSizeForData_ge _ _)) ‹_›

def bcmUnpackXtlvBufChecked {Ctx : Type} (cbfn : Ctx → List UInt8 → UInt16 → UInt16 → Ctx × Int)
    (mem : Memory) (ctx : Ctx) (tlvBuf : Nat) (buflen opts : UInt16) : Option (Ctx × Int) :=
  unpackLoopChecked cbfn (xtlvRegion mem tlvBuf buflen.toNat) opts ctx tlvBuf buflen.toNat

/-- The loop of `bcm_get_data_from_xtlv_buf` with checked reads; the data that is
returned must be readable too. -/
def getDataLoopChecked (region : Region) (id opts : UInt16) (tlvBuf : Nat) (sbuflen : Int) :
    Option (Option (Nat × UInt16)) :=
  if sbuflen ≥ bcmXtlvHdrSize then
    match read16 region tlvBuf, read16 region (tlvBuf + 2) with
    | some type, some len =>
      let size := bcmXtlvSizeForData len.toNat opts
      if sbuflen - size < 0 then some none
      else if id = type then
        (region.read (tlvBuf + bcmXtlvHdrSize) len.toNat).map fun _ =>
          some (tlvBuf + bcmXtlvHdrSize, len)
      else getDataLoopChecked region id opts (tlvBuf + size) (sbuflen - size)
    | _, _ => none
  else some none
termination_by sbuflen.toNat
decreasing_by
  exact remaining_shrinks (Nat.le_of_add_left_le (bcmXtlvSizeForData_ge _ _)) ‹_›

def bcmGetDataFromXtlvBufChecked (mem : Memory) (tlvBuf : Nat) (buflen id opts : UInt16) :
    Option (Option (Nat × UInt16)) :=
  getDataLoopChecked (xtlvRegion mem tlvBuf buflen.toNat) id opts tlvBuf buflen.toNat

/-- `xtlv_desc_t`: where the data of a type goes. -/
structure XtlvDesc where
  type : UInt16
  len : UInt16
  ptr : Nat
  deriving DecidableEq

/-- The first descriptor of an id; the descriptors end with type zero. -/
def matchDesc : List XtlvDesc → UInt16 → Option XtlvDesc
  | [], _ => none
  | desc :: rest, id =>
    if desc.type = 0 then none else if id = desc.type then some desc else matchDesc rest id

/-- One pass through the body of `bcm_unpack_xtlv_buf_to_mem`'s loop: the copy it
makes, as the target and the bytes, and the result. -/
def unpackToMemBody (region : Region) (items : List XtlvDesc) (elt : Nat) :
    Option (List (Nat × List UInt8) × Int) :=
  match read16 region (elt + 2), read16 region elt with
  | some len, some id =>
    match matchDesc items id with
    | none => some ([], bcmeOk)
    | some desc =>
      if len ≠ desc.len then some ([], bcmeBadlen)
      else (region.read (elt + bcmXtlvHdrSize) len.toNat).map fun data => ([(desc.ptr, data)], bcmeOk)
  | _, _ => none

/-- The size the length field at an element announces, wherever the field lies. -/
def xtlvSizeAt (mem : Memory) (elt : Nat) (opts : UInt16) : Nat :=
  bcmXtlvSizeForData (load16 mem (elt + 2)).toNat opts

theorem xtlvSizeAt_ge (mem : Memory) (elt : Nat) (opts : UInt16) :
    (load16 mem (elt + 2)).toNat + 4 ≤ xtlvSizeAt mem elt opts := bcmXtlvSizeForData_ge _ _

theorem read16_of {region : Region} {address : Nat} (inside : region.Inside address 2) :
    read16 region address = some (load16 region.memory address) := by
  rw [read16, Region.read_inside inside]
  rfl

theorem bcmXtlvSize_of {region : Region} {elt : Nat} (opts : UInt16)
    (inside : region.Inside (elt + 2) 2) : bcmXtlvSize region elt opts =
      some (xtlvSizeAt region.memory elt opts) := by
  rw [bcmXtlvSize, read16_of inside]
  rfl

theorem bcmXtlvSize_outside {region : Region} {elt : Nat} (opts : UInt16)
    (outside : ¬ region.Inside (elt + 2) 2) : bcmXtlvSize region elt opts = none := by
  rw [bcmXtlvSize, read16, Region.read_outside outside]
  rfl

theorem bcmXtlvSize_ge {region : Region} {elt size : Nat} {opts : UInt16}
    (found : bcmXtlvSize region elt opts = some size) : 4 ≤ size := by
  obtain ⟨len, -, rfl⟩ := Option.map_eq_some_iff.mp found
  exact Nat.le_of_add_left_le (bcmXtlvSizeForData_ge _ _)

theorem bcmNextXtlv_shrinks {region : Region} {elt elt' : Nat} {buflen buflen' : Int}
    {opts : UInt16} (next : bcmNextXtlv region elt buflen opts = some (some elt', buflen')) :
    buflen'.toNat < buflen.toNat := by
  unfold bcmNextXtlv at next
  cases current : bcmXtlvSize region elt opts with
  | none =>
    rw [current] at next
    cases next
  | some sz =>
    rw [current] at next
    obtain ⟨valid, checked, same⟩ := Option.map_eq_some_iff.mp next
    cases valid with
    | false => cases same
    | true =>
      cases same
      obtain ⟨size, found, fits⟩ := Option.map_eq_some_iff.mp checked
      have positive := bcmXtlvSize_ge current
      have behind := bcmXtlvSize_ge found
      have enough := of_decide_eq_true fits
      omega

/-- The loop of `bcm_unpack_xtlv_buf_to_mem`: the copies made, the result and the
length left. The next element is fetched before the result is looked at. -/
def unpackToMemLoop (region : Region) (items : List XtlvDesc) (opts : UInt16)
    (copies : List (Nat × List UInt8)) (elt : Nat) (buflen : Int) :
    Option (List (Nat × List UInt8) × Int × Int) :=
  match unpackToMemBody region items elt with
  | none => none
  | some (copy, res) =>
    match _next : bcmNextXtlv region elt buflen opts with
    | none => none
    | some (none, buflen') => some (copies ++ copy, res, buflen')
    | some (some elt', buflen') =>
      if res = bcmeOk then unpackToMemLoop region items opts (copies ++ copy) elt' buflen'
      else some (copies ++ copy, res, buflen')
termination_by buflen.toNat
decreasing_by
  exact bcmNextXtlv_shrinks _next

/-- `items` is `NULL` or the descriptors. Returns the copies, `*buflen` and the result. -/
def bcmUnpackXtlvBufToMem (mem : Memory) (tlvBuf : Nat) (buflen : Int)
    (items : Option (List XtlvDesc)) (opts : UInt16) :
    Option ((List (Nat × List UInt8) × Int) × Int) :=
  let region := xtlvRegion mem tlvBuf buflen
  match bcmValidXtlv region tlvBuf buflen opts, items with
  | none, _ => none
  | some true, some items =>
    (unpackToMemLoop region items opts [] tlvBuf buflen).map fun done =>
      ((done.1, done.2.2), if done.2.1 = bcmeOk ∧ done.2.2 ≠ 0 then bcmeBuftooshort else done.2.1)
  | _, _ => some (([], buflen), bcmeBadarg)

section Bounds

variable {region : Region} {elt : Nat} {left : Int} {opts : UInt16}

@[simp] theorem xtlvRegion_memory (mem : Memory) (tlvBuf : Nat) (buflen : Int) :
    (xtlvRegion mem tlvBuf buflen).memory = mem := rfl

theorem xtlvRegion_endsAt (mem : Memory) (tlvBuf : Nat) (buflen : Int) (valid : 0 ≤ buflen) :
    (xtlvRegion mem tlvBuf buflen).EndsAt tlvBuf buflen := by
  refine ⟨le_rfl, ?_⟩
  simp only [xtlvRegion]
  omega

theorem header_inside (ends : region.EndsAt elt left) (enough : 4 ≤ left) :
    region.Inside elt 2 ∧ region.Inside (elt + 2) 2 :=
  ⟨ends.inside 0 (by omega), ends.inside 2 (by omega)⟩

theorem data_inside (ends : region.EndsAt elt left)
    (fits : ¬ left - xtlvSizeAt region.memory elt opts < 0) :
    region.Inside (elt + bcmXtlvHdrSize) (load16 region.memory (elt + 2)).toNat := by
  have size := xtlvSizeAt_ge region.memory elt opts
  exact ends.inside _ (by simp only [bcmXtlvHdrSize]; omega)

theorem unpackLoopChecked_eq {Ctx : Type} (cbfn : Ctx → List UInt8 → UInt16 → UInt16 → Ctx × Int)
    (ctx : Ctx) (ends : region.EndsAt elt left) :
    unpackLoopChecked cbfn region opts ctx elt left =
      some (unpackLoop cbfn region.memory opts ctx elt left) := by
  fun_induction unpackLoop cbfn region.memory opts ctx elt left with
  | case1 ctx elt left enough len size short =>
    obtain ⟨first, second⟩ := header_inside ends enough
    rw [unpackLoopChecked, if_pos enough, read16_of first, read16_of second]
    exact if_pos short
  | case2 ctx elt left enough len type size fits ctx' res called failed =>
    obtain ⟨first, second⟩ := header_inside ends enough
    have data := data_inside ends fits
    rw [unpackLoopChecked, if_pos enough, read16_of first, read16_of second]
    dsimp only
    rw [if_neg fits, Region.read_inside data]
    dsimp only
    rw [called]
    exact if_pos failed
  | case3 ctx elt left enough len type size fits ctx' res called passed ih =>
    obtain ⟨first, second⟩ := header_inside ends enough
    have data := data_inside ends fits
    rw [unpackLoopChecked, if_pos enough, read16_of first, read16_of second]
    dsimp only
    rw [if_neg fits, Region.read_inside data]
    dsimp only
    rw [called]
    dsimp only
    rw [if_neg passed]
    exact ih (ends.advance size)
  | case4 ctx elt left short =>
    rw [unpackLoopChecked, if_neg short]

theorem getDataLoopChecked_eq (id : UInt16) (ends : region.EndsAt elt left) :
    getDataLoopChecked region id opts elt left =
      some (getDataLoop region.memory id opts elt left) := by
  fun_induction getDataLoop region.memory id opts elt left with
  | case1 elt left enough len size short =>
    obtain ⟨first, second⟩ := header_inside ends enough
    rw [getDataLoopChecked, if_pos enough, read16_of first, read16_of second]
    exact if_pos short
  | case2 elt left enough type len size fits same =>
    obtain ⟨first, second⟩ := header_inside ends enough
    have data := data_inside ends fits
    rw [getDataLoopChecked, if_pos enough, read16_of first, read16_of second]
    dsimp only
    rw [if_neg fits, if_pos same, Region.read_inside data]
    rfl
  | case3 elt left enough type len size fits other ih =>
    obtain ⟨first, second⟩ := header_inside ends enough
    rw [getDataLoopChecked, if_pos enough, read16_of first, read16_of second]
    dsimp only
    rw [if_neg fits, if_neg other]
    exact ih (ends.advance size)
  | case4 elt left short =>
    rw [getDataLoopChecked, if_neg short]

/-- Both lengths `bcm_next_xtlv` takes, that of the element and that of the next
one, are read before either is known to be in the buffer. -/
theorem bcmNextXtlv_of {sz : Nat} (size : sz = xtlvSizeAt region.memory elt opts)
    (ends : region.EndsAt elt left) : bcmNextXtlv region elt left opts =
      if left - sz < 4 then none
      else some (if left - sz - xtlvSizeAt region.memory (elt + sz) opts < 0 then none
        else some (elt + sz), left - sz) := by
  have positive := xtlvSizeAt_ge region.memory elt opts
  unfold bcmNextXtlv
  by_cases current : left < 4
  · rw [bcmXtlvSize_outside opts (ends.outside 2 (by omega)), if_pos (by omega)]
  · rw [bcmXtlvSize_of opts (ends.inside 2 (by omega)), ← size]
    dsimp only
    have behind := ends.advance sz
    by_cases short : left - sz < 4
    · rw [if_pos short, bcmValidXtlv, bcmXtlvSize_outside opts (behind.outside 2 (by omega))]
      rfl
    · rw [if_neg short, bcmValidXtlv, bcmXtlvSize_of opts (behind.inside 2 (by omega))]
      simp only [Option.map_some, decide_eq_true_eq]
      by_cases fits : left - sz - xtlvSizeAt region.memory (elt + sz) opts < 0
      · rw [if_pos fits, if_neg (by omega)]
      · rw [if_neg fits, if_pos (by omega)]

end Bounds

/-- A complete record of a buffer: its place and header, and the length left behind it. -/
structure XtlvPlaced where
  elt : Nat
  id : UInt16
  len : UInt16
  left : Int
  deriving DecidableEq

/-- The complete records of a buffer from the left. -/
def xtlvSplit (mem : Memory) (opts : UInt16) (elt : Nat) (left : Int) : List XtlvPlaced :=
  if left - xtlvSizeAt mem elt opts < 0 then []
  else
    ⟨elt, load16 mem elt, load16 mem (elt + 2), left - xtlvSizeAt mem elt opts⟩ ::
      xtlvSplit mem opts (elt + xtlvSizeAt mem elt opts) (left - xtlvSizeAt mem elt opts)
termination_by left.toNat
decreasing_by
  exact remaining_shrinks (Nat.le_of_add_left_le (xtlvSizeAt_ge _ _ _)) ‹_›

/-- Whether a descriptor of the id asks for another length. -/
def lengthMismatch (items : List XtlvDesc) (id len : UInt16) : Prop :=
  ∃ desc, matchDesc items id = some desc ∧ len ≠ desc.len

instance (items : List XtlvDesc) (id len : UInt16) : Decidable (lengthMismatch items id len) :=
  decidable_of_iff (∃ desc ∈ matchDesc items id, len ≠ desc.len) Iff.rfl

/-- The records up to the first one with a wrong length. -/
def throughMismatch (items : List XtlvDesc) : List XtlvPlaced → List XtlvPlaced
  | [] => []
  | record :: rest =>
    record :: if lengthMismatch items record.id record.len then [] else throughMismatch items rest

section ToMem

variable {region : Region} {elt : Nat} {left : Int} {opts : UInt16}

/-- The result of the body is decided by the length alone. -/
theorem unpackToMemBody_of (items : List XtlvDesc) (ends : region.EndsAt elt left)
    (fits : ¬ left - xtlvSizeAt region.memory elt opts < 0) :
    ∃ copy, unpackToMemBody region items elt = some (copy,
      if lengthMismatch items (load16 region.memory elt) (load16 region.memory (elt + 2))
      then bcmeBadlen else bcmeOk) := by
  have size := xtlvSizeAt_ge region.memory elt opts
  obtain ⟨first, second⟩ := header_inside ends (by omega)
  unfold unpackToMemBody
  rw [read16_of first, read16_of second]
  dsimp only
  cases found : matchDesc items (load16 region.memory elt) with
  | none =>
    have right : ¬ lengthMismatch items (load16 region.memory elt) (load16 region.memory (elt + 2)) := by
      rintro ⟨desc, other, -⟩
      rw [found] at other
      cases other
    exact ⟨[], by rw [if_neg right]⟩
  | some desc =>
    dsimp only
    by_cases same : load16 region.memory (elt + 2) = desc.len
    · have right : ¬ lengthMismatch items (load16 region.memory elt)
          (load16 region.memory (elt + 2)) := by
        rintro ⟨desc', other, wrong⟩
        rw [found] at other
        cases other
        exact wrong same
      rw [if_neg (not_not_intro same), Region.read_inside (data_inside ends fits), if_neg right]
      exact ⟨_, rfl⟩
    · rw [if_pos same, if_pos ⟨desc, found, same⟩]
      exact ⟨[], rfl⟩

theorem unpackToMemLoop_of {items : List XtlvDesc} {copies copy : List (Nat × List UInt8)}
    {res : Int} (body : unpackToMemBody region items elt = some (copy, res)) :
    unpackToMemLoop region items opts copies elt left =
      match bcmNextXtlv region elt left opts with
      | none => none
      | some (none, left') => some (copies ++ copy, res, left')
      | some (some elt', left') =>
        if res = bcmeOk then unpackToMemLoop region items opts (copies ++ copy) elt' left'
        else some (copies ++ copy, res, left') := by
  rw [unpackToMemLoop, body]
  dsimp only
  split <;> rename_i next <;> rw [next]

/-- The loop stays inside exactly when every record it passes leaves a whole header. -/
theorem unpackToMemLoop_isSome (items : List XtlvDesc) (copies : List (Nat × List UInt8))
    (ends : region.EndsAt elt left) (fits : ¬ left - xtlvSizeAt region.memory elt opts < 0) :
    (unpackToMemLoop region items opts copies elt left).isSome ↔
      ∀ record ∈ throughMismatch items (xtlvSplit region.memory opts elt left), 4 ≤ record.left := by
  fun_induction xtlvSplit region.memory opts elt left generalizing copies with
  | case1 elt left short => exact absurd short fits
  | case2 elt left complete ih =>
    obtain ⟨copy, body⟩ := unpackToMemBody_of items ends fits
    rw [unpackToMemLoop_of body, @bcmNextXtlv_of region elt left opts _ rfl ends]
    simp only [throughMismatch, List.forall_mem_cons]
    by_cases short : left - xtlvSizeAt region.memory elt opts < 4
    · rw [if_pos short]
      simp only [Option.isSome_none, Bool.false_eq_true, false_iff]
      rintro ⟨enough, -⟩
      omega
    · rw [if_neg short]
      have enough : 4 ≤ left - xtlvSizeAt region.memory elt opts := by omega
      by_cases last : left - xtlvSizeAt region.memory elt opts -
          xtlvSizeAt region.memory (elt + xtlvSizeAt region.memory elt opts) opts < 0
      · -- what is left is a header that announces more than there is
        rw [if_pos last, xtlvSplit, if_pos last]
        simp [enough, throughMismatch]
      · rw [if_neg last]
        by_cases mismatch : lengthMismatch items (load16 region.memory elt)
            (load16 region.memory (elt + 2))
        · rw [if_pos mismatch, if_pos mismatch]
          simp [enough, bcmeBadlen, bcmeOk]
        · rw [if_neg mismatch, if_neg mismatch]
          dsimp only
          rw [if_pos rfl, ih _ (ends.advance _) last]
          simp [enough]

end ToMem

theorem bcmXtlvSize_short (mem : Memory) (tlvBuf : Nat) (opts : UInt16) {buflen : Int}
    (short : buflen < 4) : bcmXtlvSize (xtlvRegion mem tlvBuf buflen) tlvBuf opts = none := by
  apply bcmXtlvSize_outside
  rintro ⟨-, inside⟩
  simp only [xtlvRegion] at inside
  omega

theorem bcmNextXtlv_isSome (mem : Memory) (tlvBuf : Nat) (buflen : Int) (opts : UInt16) :
    (bcmNextXtlv (xtlvRegion mem tlvBuf buflen) tlvBuf buflen opts).isSome ↔
      bcmXtlvHdrSize ≤ buflen - xtlvSizeAt mem tlvBuf opts := by
  have positive := xtlvSizeAt_ge mem tlvBuf opts
  simp only [bcmXtlvHdrSize]
  by_cases short : buflen < 4
  · rw [bcmNextXtlv, bcmXtlvSize_short mem tlvBuf opts short]
    simp only [Option.isSome_none, Bool.false_eq_true, false_iff]
    omega
  · rw [bcmNextXtlv_of rfl (xtlvRegion_endsAt mem tlvBuf buflen (by omega)), xtlvRegion_memory]
    split
    · simp only [Option.isSome_none, Bool.false_eq_true, false_iff]
      omega
    · simp only [Option.isSome_some, true_iff]
      omega

theorem bcmUnpackXtlvBufToMem_isSome (mem : Memory) (tlvBuf : Nat) (buflen : Int)
    (items : Option (List XtlvDesc)) (opts : UInt16) :
    (bcmUnpackXtlvBufToMem mem tlvBuf buflen items opts).isSome ↔
      bcmXtlvHdrSize ≤ buflen ∧ ∀ descs, items = some descs →
        ∀ record ∈ throughMismatch descs (xtlvSplit mem opts tlvBuf buflen),
          bcmXtlvHdrSize ≤ record.left := by
  simp only [bcmXtlvHdrSize, Nat.cast_ofNat]
  simp only [bcmUnpackXtlvBufToMem]
  by_cases short : buflen < 4
  · rw [bcmValidXtlv, bcmXtlvSize_short mem tlvBuf opts short]
    simp only [Option.map_none, Option.isSome_none, Bool.false_eq_true, false_iff]
    omega
  · have ends := xtlvRegion_endsAt mem tlvBuf buflen (by omega)
    have enough : 4 ≤ buflen := by omega
    rw [bcmValidXtlv, bcmXtlvSize_of opts (ends.inside 2 (by omega)), xtlvRegion_memory]
    simp only [Option.map_some, enough, true_and]
    by_cases fits : buflen - xtlvSizeAt mem tlvBuf opts < 0
    · -- the first record is not complete: an argument error, nothing else is read
      have split : xtlvSplit mem opts tlvBuf buflen = [] := by rw [xtlvSplit, if_pos fits]
      rw [decide_eq_false (by omega), split]
      simp [throughMismatch]
    · rw [decide_eq_true (by omega)]
      cases items with
      | none => simp
      | some descs =>
        simp only [Option.isSome_map, Option.some.injEq, forall_eq']
        exact unpackToMemLoop_isSome descs [] ends fits

/-- `bcm_unpack_xtlv_buf` and `bcm_get_data_from_xtlv_buf` read inside every buffer.
`bcm_next_xtlv` does so exactly when a whole header is left behind its element, and
`bcm_unpack_xtlv_buf_to_mem` when the buffer holds one and, with descriptors, each
complete record up to the first of a wrong length leaves one. -/
theorem xtlv_reads_inside (mem : Memory) (tlvBuf : Nat) (opts : UInt16) :
    (∀ (Ctx : Type) (cbfn : Ctx → List UInt8 → UInt16 → UInt16 → Ctx × Int) (ctx : Ctx)
      (buflen : UInt16), bcmUnpackXtlvBufChecked cbfn mem ctx tlvBuf buflen opts =
        some (bcmUnpackXtlvBuf cbfn mem ctx tlvBuf buflen opts)) ∧
    (∀ buflen id : UInt16, bcmGetDataFromXtlvBufChecked mem tlvBuf buflen id opts =
      some (bcmGetDataFromXtlvBuf mem tlvBuf buflen id opts)) ∧
    (∀ buflen : Int, (bcmNextXtlv (xtlvRegion mem tlvBuf buflen) tlvBuf buflen opts).isSome ↔
      bcmXtlvHdrSize ≤ buflen - xtlvSizeAt mem tlvBuf opts) ∧
    ∀ (buflen : Int) (items : Option (List XtlvDesc)),
      (bcmUnpackXtlvBufToMem mem tlvBuf buflen items opts).isSome ↔
        bcmXtlvHdrSize ≤ buflen ∧ ∀ descs, items = some descs →
          ∀ record ∈ throughMismatch descs (xtlvSplit mem opts tlvBuf buflen),
            bcmXtlvHdrSize ≤ record.left := by
  refine ⟨?_, ?_, ?_, ?_⟩
  · intro Ctx cbfn ctx buflen
    exact unpackLoopChecked_eq cbfn ctx (xtlvRegion_endsAt mem tlvBuf buflen.toNat (by omega))
  · intro buflen id
    exact getDataLoopChecked_eq id (xtlvRegion_endsAt mem tlvBuf buflen.toNat (by omega))
  · intro buflen
    exact bcmNextXtlv_isSome mem tlvBuf buflen opts
  · intro buflen items
    exact bcmUnpackXtlvBufToMem_isSome mem tlvBuf buflen items opts

/-- A buffer that is one whole record, of type 5 and without data. Both readers
take the length of a record that would start behind the end. -/
theorem xtlv_end_read_outside :
    bcmUnpackXtlvBufToMem (store (fun _ => 0) 0 [5, 0, 0, 0]) 0 4 (some [⟨5, 0, 100⟩]) 0 = none ∧
    bcmNextXtlv (xtlvRegion (store (fun _ => 0) 0 [5, 0, 0, 0]) 0 4) 0 4 0 = none := by
  constructor
  · rw [← Option.not_isSome_iff_eq_none, bcmUnpackXtlvBufToMem_isSome]
    rintro ⟨-, left⟩
    have first := left _ rfl ⟨0, 5, 0, 0⟩ (by rw [xtlvSplit]; exact List.mem_cons_self)
    exact absurd first (by decide)
  · decide

end BcmDhd.Utils
