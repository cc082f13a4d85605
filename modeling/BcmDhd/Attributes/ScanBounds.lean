import BcmDhd.Attributes.TlvRead

namespace BcmDhd.Attributes

open BcmDhd.Lib

/-- One turn of the loops of `reg_proto_check_nonce` and `reg_proto_get_nonce`, which end with
the place of a nonce; 16 bytes are read there, whatever the attribute's length is. -/
def nonceTurn (nonceType : Nat) (search : BufferObj × Reads) : Turn (BufferObj × Reads) (Option Nat × Reads) :=
  let msg := search.1
  let typed := search.2 ++ [msg.typeRead tlvFormat]
  if msg.remaining < 4 then .leave (none, search.2)
  else if msg.typeAt tlvFormat = 0 then .leave (none, typed)
  else if msg.typeAt tlvFormat = nonceType then
    .leave (some (msg.valueAt tlvFormat), typed ++ [(msg.valueAt tlvFormat, 16)])
  else match msg.advance (4 + msg.lenAt tlvFormat) with
    | some next => .again (next, typed ++ [msg.lenRead tlvFormat])
    | none => .leave (none, typed ++ [msg.lenRead tlvFormat])

structure NonceResult where
  code : Nat
  nonce : Bytes
  buf : BufferObj
  reads : Reads

def IsNonceType (nonceType : Nat) : Prop := nonceType = Wps.wpsIdRegistrarNonce ∨ nonceType = Wps.wpsIdEnrolleeNonce

instance (nonceType : Nat) : Decidable (IsNonceType nonceType) := inferInstanceAs (Decidable (_ ∨ _))

def regProtoCheckNonce (turns : Nat) (nonce : Bytes) (msg : BufferObj) (nonceType : Nat) : Option NonceResult :=
  if IsNonceType nonceType then
    (loopFor (nonceTurn nonceType) turns (msg, [])).map fun found =>
      let code := match found.1 with
        | none => Wps.rprotErrReqdTlvMissing
        | some place => if load msg.base place 16 = nonce then Wps.wpsSuccess else Wps.rprotErrNonceMismatch
      ⟨code, nonce, msg.rewind, found.2⟩
  else some ⟨Wps.wpsErrInvalidParameters, nonce, msg, []⟩

def regProtoGetNonce (turns : Nat) (nonce : Bytes) (msg : BufferObj) (nonceType : Nat) : Option NonceResult :=
  if IsNonceType nonceType then
    (loopFor (nonceTurn nonceType) turns (msg, [])).map fun found =>
      match found.1 with
      | none => ⟨Wps.rprotErrReqdTlvMissing, nonce, msg.rewind, found.2⟩
      | some place => ⟨Wps.wpsSuccess, load msg.base place 16, msg.rewind, found.2⟩
  else some ⟨Wps.wpsErrInvalidParameters, nonce, msg, []⟩

def Reads.Inside (reads : Reads) (size : Nat) : Prop := ∀ read ∈ reads, read.2 = 0 ∨ read.1 + read.2 ≤ size

/-- All bytes that were read or given out are data, and a number is as long as the attribute
at most. -/
structure Reading.Safe (format : Format) (theType size : Nat) (reading : Reading) : Prop where
  inside : reading.reads.Inside size
  whole : ∀ wide, reading.ok = true → format.kind theType = some (.number wide) → wide ≤ reading.obj.mLen

/-- The value behind the header is data, as far as it is used. -/
def SafeValue (format : Format) (theType : Nat) (b : BufferObj) (dataSize : Nat) : Prop :=
  match format.kind theType with
  | some (.number size) =>
    tooShort format b dataSize ∨ size ≤ b.lenAt format ∧ b.valueAt format + size ≤ b.dataLength
  | some .pointer =>
    limited (b.lenAt format) dataSize = 0 ∨ b.valueAt format + limited (b.lenAt format) dataSize ≤ b.dataLength
  | none => True

/-- Nothing remains of the block, or the type at the cursor is data and another one, or the
header is data, and the length too large for the block or the value data as well. -/
def SafeAttribute (format : Format) (theType : Nat) (b : BufferObj) (dataSize : Nat) : Prop :=
  b.remaining = 0 ∨ b.current + format.width ≤ b.dataLength ∧ (b.typeAt format ≠ theType ∨
    b.current + format.header ≤ b.dataLength ∧
      (b.remaining < b.lenAt format + format.header ∨ SafeValue format theType b dataSize))

/-- From one header to the next one, as far as a search goes, headers are data. -/
inductive SafeSearch (theType dataSize : Nat) : BufferObj → Nat → Prop
  | ended {b : BufferObj} (type : b.current + 2 ≤ b.dataLength) : SafeSearch theType dataSize b 0
  | refused {b : BufferObj} {remaining : Nat} (some_ : remaining ≠ 0) (other : b.typeAt tlvFormat ≠ theType)
      (header : b.current + 4 ≤ b.dataLength) (large : remaining < b.lenAt tlvFormat + 4) :
      SafeSearch theType dataSize b remaining
  | passed {b : BufferObj} {remaining : Nat} (some_ : remaining ≠ 0) (other : b.typeAt tlvFormat ≠ theType)
      (header : b.current + 4 ≤ b.dataLength) (fits : b.lenAt tlvFormat + 4 ≤ remaining)
      (later : SafeSearch theType dataSize (b.advanced (4 + b.lenAt tlvFormat))
        (b.advanced (4 + b.lenAt tlvFormat)).remaining) : SafeSearch theType dataSize b remaining
  | found {b : BufferObj} {remaining : Nat} (some_ : remaining ≠ 0) (same : b.typeAt tlvFormat = theType)
      (header : b.current + 4 ≤ b.dataLength) (value : SafeAttribute tlvFormat theType b dataSize) :
      SafeSearch theType dataSize b remaining

/-- As far as the search for a nonce goes, headers are data, and so are 16 bytes behind the
nonce's. -/
inductive SafeNonce (nonceType : Nat) : BufferObj → Prop
  | ended {b : BufferObj} (short : b.remaining < 4) : SafeNonce nonceType b
  | zero {b : BufferObj} (long : 4 ≤ b.remaining) (type : b.current + 2 ≤ b.dataLength)
      (none_ : b.typeAt tlvFormat = 0) : SafeNonce nonceType b
  | found {b : BufferObj} (long : 4 ≤ b.remaining) (type : b.current + 2 ≤ b.dataLength)
      (some_ : b.typeAt tlvFormat ≠ 0) (same : b.typeAt tlvFormat = nonceType)
      (nonce : b.current + 4 + 16 ≤ b.dataLength) : SafeNonce nonceType b
  | stuck {b : BufferObj} (long : 4 ≤ b.remaining) (some_ : b.typeAt tlvFormat ≠ 0)
      (other : b.typeAt tlvFormat ≠ nonceType) (header : b.current + 4 ≤ b.dataLength)
      (large : b.advance (4 + b.lenAt tlvFormat) = none) : SafeNonce nonceType b
  | passed {b next : BufferObj} (long : 4 ≤ b.remaining) (some_ : b.typeAt tlvFormat ≠ 0)
      (other : b.typeAt tlvFormat ≠ nonceType) (header : b.current + 4 ≤ b.dataLength)
      (fits : b.advance (4 + b.lenAt tlvFormat) = some next) (later : SafeNonce nonceType next) : SafeNonce nonceType b

section

variable {format : Format} {theType dataSize size turns nonceType : Nat} {alloc : Bool} {b next : BufferObj}
  {old : TlvObj} {reads more : Reads} {reading : Reading} {search : Search}

theorem inside_append : (reads ++ more : Reads).Inside size ↔ reads.Inside size ∧ more.Inside size :=
  List.forall_mem_append

theorem inside_singleton {place count : Nat} : Reads.Inside [(place, count)] size ↔ count = 0 ∨ place + count ≤ size :=
  List.forall_mem_singleton

theorem inside_nil : Reads.Inside [] size := fun _ among => absurd among List.not_mem_nil

theorem Reads.Inside.before (inside : more.Inside size) (first : reads <+: more) : reads.Inside size :=
  fun read among => inside read (first.subset among)

theorem inside_type : Reads.Inside [b.typeRead format] size ↔ b.current + format.width ≤ size := by
  unfold BufferObj.typeRead
  rw [inside_singleton]
  have wide := format.wide
  omega

theorem inside_len : Reads.Inside [b.lenRead format] size ↔ b.current + format.header ≤ size := by
  unfold BufferObj.lenRead Format.header
  rw [inside_singleton]
  have wide := format.wide
  omega

theorem inside_header : Reads.Inside [b.typeRead format, b.lenRead format] size ↔ b.current + format.header ≤ size := by
  have split : [b.typeRead format, b.lenRead format] = [b.typeRead format] ++ [b.lenRead format] := rfl
  rw [split, inside_append, inside_type, inside_len]
  unfold Format.header
  omega

theorem safe_failed (failed : reading.ok = false) : reading.Safe format theType size ↔ reading.reads.Inside size :=
  ⟨Reading.Safe.inside, fun inside => ⟨inside, fun wide done => absurd (failed.symm.trans done) (by decide)⟩⟩

theorem dserialize_safe_iff : (dserialize format old theType b dataSize alloc).Safe format theType b.dataLength ↔
    SafeAttribute format theType b dataSize := by
  have wide := format.wide
  have header : format.header = 2 * format.width := rfl
  unfold dserialize SafeAttribute
  by_cases ended : b.remaining = 0
  · rw [if_pos ended, safe_failed rfl]
    exact ⟨fun _ => Or.inl ended, fun _ => inside_nil⟩
  rw [if_neg ended]
  by_cases other : theType ≠ b.typeAt format
  · rw [if_pos other, safe_failed rfl, inside_type]
    exact ⟨fun inside => Or.inr ⟨inside, Or.inl other.symm⟩, fun safe => (safe.resolve_left ended).1⟩
  rw [if_neg other]
  have same := not_not.mp other
  have rest : ∀ {safe : Prop}, (b.remaining = 0 ∨ b.current + format.width ≤ b.dataLength ∧ (b.typeAt format ≠ theType ∨
      b.current + format.header ≤ b.dataLength ∧ safe)) ↔ b.current + format.header ≤ b.dataLength ∧ safe := by
    intro safe
    constructor
    · intro inside
      exact (inside.resolve_left ended).2.resolve_left (not_not.mpr same.symm)
    · intro inside
      exact Or.inr ⟨by omega, Or.inr inside⟩
  rw [rest]
  dsimp only
  by_cases large : b.remaining < b.lenAt format + format.header
  · rw [if_pos large, safe_failed rfl, inside_header]
    exact ⟨fun inside => ⟨inside, Or.inl large⟩, And.left⟩
  rw [if_neg large]
  unfold SafeValue
  cases kind : format.kind theType with
  | none =>
    dsimp only
    rw [safe_failed rfl, inside_header]
    exact ⟨fun inside => ⟨inside, Or.inr trivial⟩, And.left⟩
  | some known =>
    cases known with
    | number size =>
      have positive := (format.numbers kind).1
      dsimp only
      by_cases short : tooShort format b dataSize
      · rw [if_pos short, safe_failed rfl, inside_header]
        exact ⟨fun inside => ⟨inside, Or.inr (Or.inl short)⟩, And.left⟩
      · rw [if_neg short]
        constructor
        · intro safe
          obtain ⟨before, value⟩ := inside_append.mp safe.inside
          have fits := (inside_singleton.mp value).resolve_left positive.ne'
          exact ⟨inside_header.mp before, Or.inr (Or.inr ⟨safe.whole size rfl kind, fits⟩)⟩
        · intro safe
          obtain ⟨long, fits⟩ := (safe.2.resolve_left large).resolve_left short
          refine ⟨inside_append.mpr ⟨inside_header.mpr safe.1, inside_singleton.mpr (Or.inr fits)⟩,
            fun other done known => ?_⟩
          rw [kind] at known
          cases known
          exact long
    | pointer =>
      dsimp only
      constructor
      · intro safe
        obtain ⟨before, value⟩ := inside_append.mp safe.inside
        exact ⟨inside_header.mp before, Or.inr (inside_singleton.mp value)⟩
      · intro safe
        refine ⟨inside_append.mpr ⟨inside_header.mpr safe.1, inside_singleton.mpr (safe.2.resolve_left large)⟩,
          fun other done known => ?_⟩
        rw [kind] at known
        cases known

@[simp] theorem advanced_dataLength (b : BufferObj) (offset : Nat) : (b.advanced offset).dataLength = b.dataLength := by
  unfold BufferObj.advanced BufferObj.advance
  split <;> rfl

theorem advance_dataLength {offset : Nat} (moved : b.advance offset = some next) : next.dataLength = b.dataLength := by
  unfold BufferObj.advance at moved
  split at moved
  · cases moved
  · cases moved
    rfl

/-- What has been read stays in the log. -/
theorem find_grows (done : loopFor (findTurn theType dataSize alloc) turns search = some reading) :
    search.reads <+: reading.reads := by
  refine @Loop.loopFor_invariant _ _ _ search reading turns (fun state => search.reads <+: state.reads)
    (fun result => search.reads <+: result.reads) (fun state next kept goesOn => ?_) (fun state result kept left => ?_)
    List.prefix_rfl done
  · unfold findTurn at goesOn
    dsimp only at goesOn
    split at goesOn
    · cases goesOn
    split at goesOn
    · split at goesOn
      · cases goesOn
      · cases goesOn
        exact kept.trans (List.prefix_append _ _)
    · cases goesOn
  · unfold findTurn at left
    dsimp only at left
    split at left
    · cases left
      exact kept.trans (List.prefix_append _ _)
    split at left
    · split at left
      · cases left
        exact kept.trans (List.prefix_append _ _)
      · cases left
    · cases left
      exact kept.trans ((List.prefix_append _ _).trans (List.prefix_append _ _))

theorem found_safe_iff (before : search.reads.Inside search.buf.dataLength) :
    Reading.Safe tlvFormat theType search.buf.dataLength
      { tlvDserialize old theType search.buf dataSize alloc with
        reads := (search.reads ++ [search.buf.typeRead tlvFormat, search.buf.lenRead tlvFormat]) ++
          (tlvDserialize old theType search.buf dataSize alloc).reads } ↔
      search.buf.current + 4 ≤ search.buf.dataLength ∧ SafeAttribute tlvFormat theType search.buf dataSize := by
  rw [← dserialize_safe_iff]
  constructor
  · intro safe
    obtain ⟨first, value⟩ := inside_append.mp safe.inside
    exact ⟨inside_header.mp (inside_append.mp first).2, value, safe.whole⟩
  · intro safe
    exact ⟨inside_append.mpr ⟨inside_append.mpr ⟨before, inside_header.mpr safe.1⟩, safe.2.inside⟩, safe.2.whole⟩

theorem safeSearch_of_loop (done : loopFor (findTurn theType dataSize alloc) turns search = some reading)
    (safe : reading.Safe tlvFormat theType search.buf.dataLength) :
    SafeSearch theType dataSize search.buf search.remaining := by
  induction turns generalizing search with
  | zero => cases done
  | succ turns ih =>
    have header : tlvFormat.header = 4 := rfl
    have all := safe.inside.before (find_grows done)
    by_cases ended : search.remaining = 0
    · have left : findTurn theType dataSize alloc search = .leave _ := if_pos ended
      rw [Loop.loopFor_leave left] at done
      cases done
      rw [ended]
      exact .ended (inside_type.mp (inside_append.mp safe.inside).2)
    by_cases other : theType ≠ search.buf.typeAt tlvFormat
    · by_cases large : search.remaining < search.buf.lenAt tlvFormat + tlvFormat.header
      · have left : findTurn theType dataSize alloc search = .leave _ :=
          (if_neg ended).trans ((if_pos other).trans (if_pos large))
        rw [Loop.loopFor_leave left] at done
        cases done
        exact .refused ended other.symm (inside_header.mp (inside_append.mp safe.inside).2) large
      · have goesOn : findTurn theType dataSize alloc search = .again _ :=
          (if_neg ended).trans ((if_pos other).trans (if_neg large))
        rw [Loop.loopFor_again goesOn] at done
        have read := (safe.inside.before (find_grows done))
        refine .passed ended other.symm (inside_header.mp (inside_append.mp read).2) (by omega) (ih done ?_)
        dsimp only
        rw [advanced_dataLength]
        exact safe
    · have left : findTurn theType dataSize alloc search = .leave _ := (if_neg ended).trans (if_neg other)
      rw [Loop.loopFor_leave left] at done
      cases done
      obtain ⟨inside, value⟩ := (found_safe_iff all).mp safe
      exact .found ended (not_not.mp other).symm inside value

theorem loop_of_safeSearch {remaining : Nat} (safe : SafeSearch theType dataSize b remaining)
    (at_ : search.buf = b) (left_ : search.remaining = remaining) (before : search.reads.Inside b.dataLength) :
    ∃ turns reading, loopFor (findTurn theType dataSize alloc) turns search = some reading ∧
      reading.Safe tlvFormat theType b.dataLength := by
  have header : tlvFormat.header = 4 := rfl
  induction safe generalizing search with
  | @ended b type =>
    subst at_
    have left : findTurn theType dataSize alloc search = .leave _ := if_pos left_
    refine ⟨1, _, Loop.loopFor_leave left, (safe_failed rfl).mpr ?_⟩
    exact inside_append.mpr ⟨before, inside_type.mpr type⟩
  | @refused b remaining some_ other inside large =>
    subst at_
    subst left_
    have left : findTurn theType dataSize alloc search = .leave _ :=
      (if_neg some_).trans ((if_pos other.symm).trans (if_pos large))
    refine ⟨1, _, Loop.loopFor_leave left, (safe_failed rfl).mpr ?_⟩
    exact inside_append.mpr ⟨before, inside_header.mpr inside⟩
  | @passed b remaining some_ other inside fits later ih =>
    subst at_
    subst left_
    have goesOn : findTurn theType dataSize alloc search = .again _ :=
      (if_neg some_).trans ((if_pos other.symm).trans (if_neg (Nat.not_lt.mpr fits)))
    obtain ⟨turns, reading, done, safe⟩ := @ih ⟨{ search.obj with
        mLen := search.buf.lenAt tlvFormat, mPos := (search.buf.advanced (4 + search.buf.lenAt tlvFormat)).current },
      search.buf.advanced (4 + search.buf.lenAt tlvFormat),
        (search.buf.advanced (4 + search.buf.lenAt tlvFormat)).remaining,
      search.reads ++ [search.buf.typeRead tlvFormat, search.buf.lenRead tlvFormat]⟩ rfl rfl (by
        rw [advanced_dataLength]
        exact inside_append.mpr ⟨before, inside_header.mpr inside⟩)
    rw [advanced_dataLength] at safe
    exact ⟨turns + 1, reading, (Loop.loopFor_again goesOn).trans done, safe⟩
  | @found b remaining some_ same inside value =>
    subst at_
    subst left_
    have left : findTurn theType dataSize alloc search = .leave _ :=
      (if_neg some_).trans (if_neg (not_not.mpr same.symm))
    exact ⟨1, _, Loop.loopFor_leave left, (found_safe_iff before).mpr ⟨inside, value⟩⟩

theorem find_safe_iff : (∃ turns reading, tlvFindDserialize turns old theType b dataSize alloc = some reading ∧
      reading.Safe tlvFormat theType b.dataLength) ↔
    b.dataLength = 0 ∨ SafeSearch theType dataSize b.rewind b.dataLength := by
  unfold tlvFindDserialize
  by_cases empty : b.dataLength = 0
  · refine ⟨fun _ => Or.inl empty, fun _ => ⟨0, ⟨false, old, b.rewind, []⟩, if_pos empty, ?_⟩⟩
    exact (safe_failed rfl).mpr inside_nil
  · constructor
    · intro found
      obtain ⟨turns, reading, done, safe⟩ := found
      rw [if_neg empty] at done
      exact Or.inr (safeSearch_of_loop done safe)
    · intro safe
      obtain ⟨turns, reading, done, inside⟩ := @loop_of_safeSearch theType dataSize alloc b.rewind
        ⟨{ old with mPos := 0 }, b.rewind, b.dataLength, []⟩ b.dataLength (safe.resolve_left empty) rfl rfl inside_nil
      exact ⟨turns, reading, (if_neg empty).trans done, inside⟩

theorem nonce_grows {state : BufferObj × Reads} {found : Option Nat × Reads}
    (done : loopFor (nonceTurn nonceType) turns state = some found) : state.2 <+: found.2 := by
  refine @Loop.loopFor_invariant _ _ _ state found turns (fun other => state.2 <+: other.2)
    (fun result => state.2 <+: result.2) (fun other next kept goesOn => ?_) (fun other result kept left => ?_)
    List.prefix_rfl done
  · unfold nonceTurn at goesOn
    dsimp only at goesOn
    split at goesOn
    · cases goesOn
    split at goesOn
    · cases goesOn
    split at goesOn
    · cases goesOn
    split at goesOn
    · cases goesOn
      exact kept.trans ((List.prefix_append _ _).trans (List.prefix_append _ _))
    · cases goesOn
  · unfold nonceTurn at left
    dsimp only at left
    split at left
    · cases left
      exact kept
    split at left
    · cases left
      exact kept.trans (List.prefix_append _ _)
    split at left
    · cases left
      exact kept.trans ((List.prefix_append _ _).trans (List.prefix_append _ _))
    split at left
    · cases left
    · cases left
      exact kept.trans ((List.prefix_append _ _).trans (List.prefix_append _ _))

theorem safeNonce_of_loop {found : Option Nat × Reads}
    (done : loopFor (nonceTurn nonceType) turns (b, reads) = some found) (safe : found.2.Inside b.dataLength) :
    SafeNonce nonceType b := by
  induction turns generalizing b reads with
  | zero => cases done
  | succ turns ih =>
    by_cases short : b.remaining < 4
    · exact .ended short
    have long := Nat.le_of_not_lt short
    by_cases none_ : b.typeAt tlvFormat = 0
    · have left : nonceTurn nonceType (b, reads) = .leave _ := (if_neg short).trans (if_pos none_)
      rw [Loop.loopFor_leave left] at done
      cases done
      exact .zero long (inside_type.mp (inside_append.mp safe).2) none_
    by_cases same : b.typeAt tlvFormat = nonceType
    · have left : nonceTurn nonceType (b, reads) = .leave _ :=
        (if_neg short).trans ((if_neg none_).trans (if_pos same))
      rw [Loop.loopFor_leave left] at done
      cases done
      obtain ⟨typed, nonce⟩ := inside_append.mp safe
      exact .found long (inside_type.mp (inside_append.mp typed).2) none_ same
        ((inside_singleton.mp nonce).resolve_left (by decide))
    have step : nonceTurn nonceType (b, reads) = _ := (if_neg short).trans ((if_neg none_).trans (if_neg same))
    cases moved : b.advance (4 + b.lenAt tlvFormat) with
    | none =>
      dsimp only at step
      rw [moved] at step
      rw [Loop.loopFor_leave step] at done
      cases done
      exact .stuck long none_ same (inside_len.mp (inside_append.mp safe).2) moved
    | some next =>
      dsimp only at step
      rw [moved] at step
      rw [Loop.loopFor_again step] at done
      have read := safe.before (nonce_grows done)
      rw [← advance_dataLength moved] at safe
      exact .passed long none_ same (inside_len.mp (inside_append.mp read).2) moved (ih done safe)

theorem loop_of_safeNonce (safe : SafeNonce nonceType b) (before : reads.Inside b.dataLength) :
    ∃ turns found, loopFor (nonceTurn nonceType) turns (b, reads) = some found ∧ found.2.Inside b.dataLength := by
  induction safe generalizing reads with
  | @ended b short => exact ⟨1, _, Loop.loopFor_leave (if_pos short), before⟩
  | @zero b long type none_ =>
    have left : nonceTurn nonceType (b, reads) = .leave _ := (if_neg (Nat.not_lt.mpr long)).trans (if_pos none_)
    exact ⟨1, _, Loop.loopFor_leave left, inside_append.mpr ⟨before, inside_type.mpr type⟩⟩
  | @found b long type some_ same nonce =>
    have left : nonceTurn nonceType (b, reads) = .leave _ :=
      (if_neg (Nat.not_lt.mpr long)).trans ((if_neg some_).trans (if_pos same))
    refine ⟨1, _, Loop.loopFor_leave left, inside_append.mpr ⟨inside_append.mpr ⟨before, inside_type.mpr type⟩, ?_⟩⟩
    exact inside_singleton.mpr (Or.inr nonce)
  | @stuck b long some_ other header large =>
    have left : nonceTurn nonceType (b, reads) = _ :=
      (if_neg (Nat.not_lt.mpr long)).trans ((if_neg some_).trans (if_neg other))
    dsimp only at left
    rw [large] at left
    refine ⟨1, _, Loop.loopFor_leave left, ?_⟩
    dsimp only
    rw [List.append_assoc]
    exact inside_append.mpr ⟨before, inside_header.mpr header⟩
  | @passed b next long some_ other header fits later ih =>
    have goesOn : nonceTurn nonceType (b, reads) = _ :=
      (if_neg (Nat.not_lt.mpr long)).trans ((if_neg some_).trans (if_neg other))
    dsimp only at goesOn
    rw [fits, List.append_assoc] at goesOn
    have same := advance_dataLength fits
    obtain ⟨turns, found, done, inside⟩ := @ih (reads ++ [b.typeRead tlvFormat, b.lenRead tlvFormat]) (by
      rw [same]
      exact inside_append.mpr ⟨before, inside_header.mpr header⟩)
    rw [same] at inside
    exact ⟨turns + 1, found, (Loop.loopFor_again goesOn).trans done, inside⟩

theorem nonce_safe_iff (result : Option Nat × Reads → NonceResult) (kept : ∀ found, (result found).reads = found.2)
    (refused : NonceResult) (unread : refused.reads = []) :
    (∃ turns found, (if IsNonceType nonceType then (loopFor (nonceTurn nonceType) turns (b, [])).map result
      else some refused) = some found ∧ found.reads.Inside b.dataLength) ↔
      ¬IsNonceType nonceType ∨ SafeNonce nonceType b := by
  by_cases valid : IsNonceType nonceType
  · simp only [if_pos valid]
    constructor
    · intro returned
      obtain ⟨turns, result, done, inside⟩ := returned
      obtain ⟨found, finished, same⟩ := Option.map_eq_some_iff.mp done
      subst same
      rw [kept] at inside
      exact Or.inr (safeNonce_of_loop finished inside)
    · intro safe
      obtain ⟨turns, found, done, inside⟩ := loop_of_safeNonce (safe.resolve_left (not_not.mpr valid)) inside_nil
      exact ⟨turns, result found, by rw [done, Option.map_some], (kept found).symm ▸ inside⟩
  · simp only [if_neg valid]
    exact ⟨fun _ => Or.inl valid, fun _ => ⟨0, refused, rfl, unread.symm ▸ inside_nil⟩⟩

end

/-- Reading attributes, elements and nonces returns, with all bytes that are read or given
out inside the data and numbers inside their attribute, exactly if nothing remains of the
block at once, or the headers that are reached and the value that is used are data and a
number has its length. -/
theorem scans_inside_iff (old : TlvObj) (theType dataSize : Nat) (alloc : Bool) (nonce : Bytes) (nonceType : Nat)
    (b : BufferObj) :
    ((tlvDserialize old theType b dataSize alloc).Safe tlvFormat theType b.dataLength ↔
      SafeAttribute tlvFormat theType b dataSize) ∧
    ((∃ turns reading, tlvFindDserialize turns old theType b dataSize alloc = some reading ∧
        reading.Safe tlvFormat theType b.dataLength) ↔
      b.dataLength = 0 ∨ SafeSearch theType dataSize b.rewind b.dataLength) ∧
    ((subtlvDserialize old theType b dataSize alloc).Safe subtlvFormat theType b.dataLength ↔
      SafeAttribute subtlvFormat theType b dataSize) ∧
    ((∃ turns result, regProtoCheckNonce turns nonce b nonceType = some result ∧ result.reads.Inside b.dataLength) ↔
      ¬IsNonceType nonceType ∨ SafeNonce nonceType b) ∧
    ((∃ turns result, regProtoGetNonce turns nonce b nonceType = some result ∧ result.reads.Inside b.dataLength) ↔
      ¬IsNonceType nonceType ∨ SafeNonce nonceType b) := by
  refine ⟨dserialize_safe_iff, find_safe_iff, dserialize_safe_iff, ?_, ?_⟩
  · exact nonce_safe_iff _ (fun _ => rfl) _ rfl
  · refine nonce_safe_iff _ (fun found => ?_) _ rfl
    cases found.1 with
    | none => rfl
    | some place => rfl

/-- A message that a registrar may receive, with what is behind it in memory. -/
def receivedBytes (bytes : Bytes) : BufferObj := .dserial (store (fun _ => 0) 0 bytes) bytes.length

/-- An association state without a value is read two bytes beyond the message; so is the
type at the end, for an attribute that is not there, and a nonce of no bytes. -/
theorem short_messages_overread :
    (let state := tlvDserialize .unset Wps.wpsIdAssocState (receivedBytes [0x10, 0x02, 0, 0]) 0 false;
      state.ok = true ∧ state.reads = [(0, 2), (2, 2), (4, 2)] ∧
        ¬state.Safe tlvFormat Wps.wpsIdAssocState 4) ∧
    (let version := tlvFindDserialize 9 .unset Wps.wpsIdVersion (receivedBytes [0x10, 0x02, 0, 0]) 0 false;
      version.map Reading.reads = some [(0, 2), (2, 2), (4, 2)] ∧ ¬Reads.Inside [(0, 2), (2, 2), (4, 2)] 4) ∧
    (let nonce := regProtoCheckNonce 9 [] (receivedBytes [0x10, 0x1A, 0, 0]) Wps.wpsIdEnrolleeNonce;
      nonce.map NonceResult.reads = some [(0, 2), (4, 16)] ∧ ¬Reads.Inside [(0, 2), (4, 16)] 4) := by
  have beyond : ¬Reads.Inside [(0, 2), (2, 2), (4, 2)] 4 := by
    intro inside
    exact absurd (inside (4, 2) (by decide)) (by decide)
  refine ⟨⟨by decide +kernel, by decide +kernel, fun safe => ?_⟩, ⟨by decide +kernel, beyond⟩, by decide +kernel,
    fun inside => ?_⟩
  · have reads : (tlvDserialize .unset Wps.wpsIdAssocState (receivedBytes [0x10, 0x02, 0, 0]) 0 false).reads =
        [(0, 2), (2, 2), (4, 2)] := by decide +kernel
    have inside := safe.inside
    rw [reads] at inside
    exact beyond inside
  · exact absurd (inside (4, 16) (by decide)) (by decide)

end BcmDhd.Attributes
