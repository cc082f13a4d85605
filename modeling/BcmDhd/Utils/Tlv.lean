import BcmDhd.Lib.Region

/-! Information elements: an id byte, a length byte and that many bytes of data, one behind the
other. The walkers keep their own count of what is left of the buffer. -/

namespace BcmDhd.Utils

open BcmDhd.Lib

def tlvHdrLen : Nat := 2

def bcmTlvMaxDataSize : Nat := 255

def readByte (region : Region) (address : Nat) : Option UInt8 :=
  if region.Inside address 1 then some (region.memory address) else none

/-- `bcm_valid_tlv`: the length field is read only behind a whole header. -/
def bcmValidTlv (region : Region) (elt : Nat) (buflen : Int) : Option Bool :=
  if buflen ≥ tlvHdrLen then
    (readByte region (elt + 1)).map fun len => decide (buflen ≥ (tlvHdrLen + len.toNat : Nat))
  else some false

/-- The next element or `NULL`, and `*buflen`. -/
def bcmNextTlv (region : Region) (elt : Nat) (buflen : Int) : Option (Option Nat × Int) :=
  match bcmValidTlv region elt buflen with
  | none => none
  | some false => some (none, buflen)
  | some true =>
    match readByte region (elt + 1) with
    | none => none
    | some len =>
      let next := elt + tlvHdrLen + len.toNat
      let left := buflen - (tlvHdrLen + len.toNat : Nat)
      (bcmValidTlv region next left).map fun valid => (if valid then some next else none, left)

theorem tlv_shrinks {totlen : Int} (len : UInt8) (enough : totlen ≥ tlvHdrLen) :
    (totlen - (len.toNat + tlvHdrLen : Nat)).toNat < totlen.toNat := by
  simp only [tlvHdrLen] at *
  omega

/-- The loop of `bcm_parse_tlvs`. -/
def parseTlvsLoop (region : Region) (key : UInt32) (elt : Nat) (totlen : Int) :
    Option (Option Nat) :=
  if totlen ≥ tlvHdrLen then
    match readByte region (elt + 1), readByte region elt with
    | some len, some id =>
      if id.toNat = key.toNat ∧ totlen ≥ (len.toNat + tlvHdrLen : Nat) then some (some elt)
      else parseTlvsLoop region key (elt + (len.toNat + tlvHdrLen))
        (totlen - (len.toNat + tlvHdrLen : Nat))
    | _, _ => none
  else some none
termination_by totlen.toNat
decreasing_by
  exact tlv_shrinks _ ‹_›

/-- `buf` may be `NULL`. -/
def bcmParseTlvs (region : Region) (buf : Option Nat) (buflen : Int) (key : UInt32) :
    Option (Option Nat) :=
  match buf with
  | none => some none
  | some elt => parseTlvsLoop region key elt buflen

/-- The loop of `bcm_parse_ordered_tlvs`, which gives up at a greater id. -/
def parseOrderedLoop (region : Region) (key : UInt32) (elt : Nat) (totlen : Int) :
    Option (Option Nat) :=
  if totlen ≥ tlvHdrLen then
    match readByte region elt, readByte region (elt + 1) with
    | some id, some len =>
      if id.toNat > key.toNat then some none
      else if id.toNat = key.toNat ∧ totlen ≥ (len.toNat + tlvHdrLen : Nat) then some (some elt)
      else parseOrderedLoop region key (elt + (len.toNat + tlvHdrLen))
        (totlen - (len.toNat + tlvHdrLen : Nat))
    | _, _ => none
  else some none
termination_by totlen.toNat
decreasing_by
  exact tlv_shrinks _ ‹_›

def bcmParseOrderedTlvs (region : Region) (buf : Nat) (buflen : Int) (key : UInt32) :
    Option (Option Nat) :=
  parseOrderedLoop region key buf buflen

/-- `data` is the caller's memory from its pointer on, or `NULL`. The pointer behind
the element written is returned, `dst` itself for arguments that are not valid. -/
def bcmWriteTlv (mem : Memory) (type : Int) (data : Option Memory) (datalen : Int) (dst : Nat) :
    Memory × Nat :=
  if (0 ≤ datalen ∧ datalen ≤ bcmTlvMaxDataSize) ∧ (data ≠ none ∨ datalen = 0) then
    let header := store mem dst [UInt8.ofInt type, UInt8.ofInt datalen]
    let written := match data with
      | some source => store header (dst + tlvHdrLen) (load source 0 datalen.toNat)
      | none => header
    (written, dst + tlvHdrLen + datalen.toNat)
  else (mem, dst)

def bcmWriteTlvSafe (mem : Memory) (type : Int) (data : Option Memory) (datalen : Int) (dst : Nat)
    (dstMaxlen : Int) : Memory × Nat :=
  if 0 ≤ datalen ∧ datalen ≤ bcmTlvMaxDataSize then
    if datalen + tlvHdrLen ≤ dstMaxlen then bcmWriteTlv mem type data datalen dst else (mem, dst)
  else (mem, dst)

/-- An element of a buffer: its place, the length of the buffer from it on, its id and data. -/
structure TlvElement where
  elt : Nat
  left : Int
  id : UInt8
  data : List UInt8
  deriving DecidableEq

/-- The canonical split of a buffer: the elements that lie entirely inside, from the left. -/
def tlvSplit (mem : Memory) (elt : Nat) (left : Int) : List TlvElement :=
  if left < tlvHdrLen then []
  else if left < ((mem (elt + 1)).toNat + tlvHdrLen : Nat) then []
  else
    ⟨elt, left, mem elt, load mem (elt + tlvHdrLen) (mem (elt + 1)).toNat⟩ ::
      tlvSplit mem (elt + ((mem (elt + 1)).toNat + tlvHdrLen))
        (left - ((mem (elt + 1)).toNat + tlvHdrLen : Nat))
termination_by left.toNat
decreasing_by
  exact tlv_shrinks _ (by omega)

/-! The walkers over information elements agree on one split of the buffer, and
what is written element by element is the split that is read. -/

section Walkers

variable {region : Region} {elt : Nat} {left : Int} (key : UInt32)

theorem readByte_of {address : Nat} (inside : region.Inside address 1) :
    readByte region address = some (region.memory address) := if_pos inside

theorem readHeader (covers : region.Covers elt left) (enough : ¬ left < tlvHdrLen) :
    readByte region elt = some (region.memory elt) ∧
      readByte region (elt + 1) = some (region.memory (elt + 1)) := by
  simp only [tlvHdrLen] at enough
  exact ⟨readByte_of (covers.inside 0 (by omega)), readByte_of (covers.inside 1 (by omega))⟩

theorem parseTlvsLoop_negative {totlen : Int} (short : totlen < tlvHdrLen) :
    parseTlvsLoop region key elt totlen = some none := by
  rw [parseTlvsLoop, if_neg (by omega)]

theorem parseTlvsLoop_eq (covers : region.Covers elt left) :
    parseTlvsLoop region key elt left =
      some (((tlvSplit region.memory elt left).find?
        fun element => element.id.toNat = key.toNat).map TlvElement.elt) := by
  fun_induction tlvSplit region.memory elt left with
  | case1 elt left short => exact parseTlvsLoop_negative key short
  | case2 elt left enough truncated =>
    obtain ⟨id, len⟩ := readHeader covers enough
    rw [parseTlvsLoop, if_pos (by omega), len, id]
    dsimp only
    rw [if_neg (by omega), parseTlvsLoop_negative key (by simp only [tlvHdrLen] at *; omega)]
    rfl
  | case3 elt left enough complete ih =>
    obtain ⟨id, len⟩ := readHeader covers enough
    rw [parseTlvsLoop, if_pos (by omega), len, id]
    dsimp only
    by_cases same : (region.memory elt).toNat = key.toNat
    · rw [if_pos ⟨same, by omega⟩]
      simp [same]
    · rw [if_neg (by omega), ih (covers.advance _)]
      simp [same]

theorem parseOrderedLoop_negative {totlen : Int} (short : totlen < tlvHdrLen) :
    parseOrderedLoop region key elt totlen = some none := by
  rw [parseOrderedLoop, if_neg (by omega)]

theorem parseOrderedLoop_eq (covers : region.Covers elt left) :
    parseOrderedLoop region key elt left =
      some ((((tlvSplit region.memory elt left).takeWhile
        fun element => element.id.toNat ≤ key.toNat).find?
          fun element => element.id.toNat = key.toNat).map TlvElement.elt) := by
  fun_induction tlvSplit region.memory elt left with
  | case1 elt left short => exact parseOrderedLoop_negative key short
  | case2 elt left enough truncated =>
    obtain ⟨id, len⟩ := readHeader covers enough
    rw [parseOrderedLoop, if_pos (by omega), len, id]
    dsimp only
    split
    · rfl
    · rw [if_neg (by omega), parseOrderedLoop_negative key (by simp only [tlvHdrLen] at *; omega)]
      rfl
  | case3 elt left enough complete ih =>
    obtain ⟨id, len⟩ := readHeader covers enough
    rw [parseOrderedLoop, if_pos (by omega), len, id]
    dsimp only
    by_cases greater : (region.memory elt).toNat > key.toNat
    · rw [if_pos greater, List.takeWhile_cons_of_neg (by simpa using greater)]
      rfl
    · rw [if_neg greater, List.takeWhile_cons_of_pos (by simpa using greater)]
      by_cases same : (region.memory elt).toNat = key.toNat
      · rw [if_pos ⟨same, by omega⟩]
        simp [same]
      · rw [if_neg (by omega), ih (covers.advance _)]
        simp [same]

/-- Where the ids do not decrease, no element of the key hides behind a greater id. -/
theorem find?_takeWhile_of_sorted (elements : List TlvElement)
    (ordered : elements.Pairwise fun earlier later => earlier.id ≤ later.id) :
    ((elements.takeWhile fun element => element.id.toNat ≤ key.toNat).find?
        fun element => element.id.toNat = key.toNat) =
      elements.find? fun element => element.id.toNat = key.toNat := by
  induction elements with
  | nil => rfl
  | cons first rest ih =>
    obtain ⟨least, tail⟩ := List.pairwise_cons.mp ordered
    by_cases greater : first.id.toNat ≤ key.toNat
    · rw [List.takeWhile_cons_of_pos (by simpa using greater)]
      simp only [List.find?_cons, ih tail]
    · rw [List.takeWhile_cons_of_neg (by simpa using greater)]
      symm
      apply List.find?_eq_none.mpr
      intro element member
      have above : first.id ≤ element.id := by
        rcases List.mem_cons.mp member with rfl | later
        · exact UInt8.le_refl _
        · exact least element later
      have order := UInt8.le_iff_toNat_le.mp above
      simp only [decide_eq_true_eq]
      omega

theorem bcmValidTlv_of (covers : region.Covers elt left) :
    bcmValidTlv region elt left = some !(tlvSplit region.memory elt left).isEmpty := by
  unfold bcmValidTlv
  rw [tlvSplit]
  by_cases short : left < tlvHdrLen
  · rw [if_neg (by omega), if_pos short]
    rfl
  · rw [if_pos (by omega), if_neg short, (readHeader covers short).2]
    simp only [Option.map_some, Option.some.injEq]
    split
    · simp only [List.isEmpty_nil, Bool.not_true, decide_eq_false_iff_not]
      omega
    · simp only [List.isEmpty_cons, Bool.not_false, decide_eq_true_eq]
      omega

theorem tlvSplit_nonempty {element : TlvElement} {rest : List TlvElement}
    {mem : Memory} (split : tlvSplit mem elt left = element :: rest) :
    (tlvHdrLen : Int) ≤ left ∧ element.elt = elt ∧ element.left = left ∧
      rest = tlvSplit mem (elt + ((mem (elt + 1)).toNat + tlvHdrLen))
        (left - ((mem (elt + 1)).toNat + tlvHdrLen : Nat)) := by
  rw [tlvSplit] at split
  by_cases short : left < tlvHdrLen
  · rw [if_pos short] at split
    cases split
  · rw [if_neg short] at split
    by_cases truncated : left < ((mem (elt + 1)).toNat + tlvHdrLen : Nat)
    · rw [if_pos truncated] at split
      cases split
    · rw [if_neg truncated] at split
      cases split
      exact ⟨by omega, rfl, rfl, rfl⟩

theorem bcmNextTlv_of {element : TlvElement} {rest : List TlvElement}
    (covers : region.Covers elt left) (split : tlvSplit region.memory elt left = element :: rest) :
    bcmNextTlv region elt left = some (rest.head?.map TlvElement.elt,
      left - ((region.memory (elt + 1)).toNat + tlvHdrLen : Nat)) := by
  obtain ⟨enough, -, -, rest_eq⟩ := tlvSplit_nonempty split
  have behind := covers.advance ((region.memory (elt + 1)).toNat + tlvHdrLen)
  have valid : bcmValidTlv region elt left = some true := by rw [bcmValidTlv_of covers, split]; rfl
  unfold bcmNextTlv
  rw [valid, (readHeader covers (by omega)).2]
  dsimp only
  rw [Nat.add_assoc, Nat.add_comm tlvHdrLen, bcmValidTlv_of behind, ← rest_eq]
  cases rest with
  | nil => rfl
  | cons next others =>
    obtain ⟨-, place, -, -⟩ := tlvSplit_nonempty rest_eq.symm
    rw [← place]
    rfl

end Walkers

/-- A next element has less of the buffer from it on. -/
theorem bcmNextTlv_shrinks {region : Region} {elt next : Nat} {buflen left : Int}
    (found : bcmNextTlv region elt buflen = some (some next, left)) :
    left.toNat < buflen.toNat := by
  unfold bcmNextTlv bcmValidTlv at found
  by_cases enough : buflen ≥ tlvHdrLen
  · rw [if_pos enough] at found
    cases len : readByte region (elt + 1) with
    | none =>
      rw [len] at found
      cases found
    | some len' =>
      rw [len] at found
      simp only [Option.map_some] at found
      split at found
      · cases found
      · cases found
      · obtain ⟨valid, -, same⟩ := Option.map_eq_some_iff.mp found
        have length := congrArg Prod.snd same
        simp only [tlvHdrLen] at *
        omega
  · rw [if_neg enough] at found
    cases found

/-- The elements a loop over `bcm_next_tlv` sees from an element on, with `buflen` there. -/
def nextTlvWalk (region : Region) (elt : Nat) (buflen : Int) : Option (List (Nat × Int)) :=
  match _next : bcmNextTlv region elt buflen with
  | none => none
  | some (none, _) => some [(elt, buflen)]
  | some (some next, left) =>
    (nextTlvWalk region next left).map fun rest => (elt, buflen) :: rest
termination_by buflen.toNat
decreasing_by
  exact bcmNextTlv_shrinks _next

/-- `for (elt = bcm_valid_tlv(buf, buflen) ? buf : NULL; elt; elt = bcm_next_tlv(elt, &buflen))`. -/
def enumerateTlvs (region : Region) (buf : Nat) (buflen : Int) : Option (List (Nat × Int)) :=
  match bcmValidTlv region buf buflen with
  | none => none
  | some false => some []
  | some true => nextTlvWalk region buf buflen

section Enumeration

variable {region : Region} {elt : Nat} {left : Int}

theorem nextTlvWalk_of :
    nextTlvWalk region elt left =
      match bcmNextTlv region elt left with
      | none => none
      | some (none, _) => some [(elt, left)]
      | some (some next, left') =>
        (nextTlvWalk region next left').map fun rest => (elt, left) :: rest := by
  rw [nextTlvWalk]
  split <;> rename_i next <;> rw [next]

theorem nextTlvWalk_eq {element : TlvElement} {rest : List TlvElement}
    (covers : region.Covers elt left) (split : tlvSplit region.memory elt left = element :: rest) :
    nextTlvWalk region elt left =
      some ((element :: rest).map fun seen => (seen.elt, seen.left)) := by
  induction rest generalizing element elt left with
  | nil =>
    obtain ⟨-, place, length, -⟩ := tlvSplit_nonempty split
    rw [nextTlvWalk_of, bcmNextTlv_of covers split, ← place, ← length]
    rfl
  | cons next others ih =>
    obtain ⟨-, place, length, behind⟩ := tlvSplit_nonempty split
    obtain ⟨-, here, -, -⟩ := tlvSplit_nonempty behind.symm
    rw [nextTlvWalk_of, bcmNextTlv_of covers split]
    simp only [List.head?_cons, Option.map_some, here]
    rw [ih (covers.advance _) behind.symm, ← place, ← length]
    rfl

theorem enumerateTlvs_eq (covers : region.Covers elt left) :
    enumerateTlvs region elt left =
      some ((tlvSplit region.memory elt left).map fun seen => (seen.elt, seen.left)) := by
  rw [enumerateTlvs, bcmValidTlv_of covers]
  cases split : tlvSplit region.memory elt left with
  | nil => rfl
  | cons element rest => exact nextTlvWalk_eq covers split

end Enumeration

/-- What a caller writes: a type, of which the low byte is stored, and the data. -/
structure TlvSource where
  type : Int
  len : UInt8
  data : Memory

def TlvSource.id (source : TlvSource) : UInt8 := UInt8.ofInt source.type

def TlvSource.bytes (source : TlvSource) : List UInt8 := load source.data 0 source.len.toNat

/-- The bytes a list of elements takes. -/
def tlvTotal (sources : List TlvSource) : Nat :=
  (sources.map fun source => source.len.toNat + tlvHdrLen).sum

/-- Elements written back to back, each where the one before ended. -/
def writeTlvs (mem : Memory) (dst : Nat) (maxlen : Int) : List TlvSource → Memory × Nat
  | [] => (mem, dst)
  | source :: rest =>
    let written := bcmWriteTlvSafe mem source.type (some source.data) source.len.toNat dst maxlen
    writeTlvs written.1 written.2 (maxlen - (written.2 - dst : Nat)) rest

section Writing

variable {mem : Memory} {dst : Nat} {maxlen : Int}

theorem bcmWriteTlvSafe_of (source : TlvSource)
    (fits : (source.len.toNat + tlvHdrLen : Nat) ≤ maxlen) :
    bcmWriteTlvSafe mem source.type (some source.data) source.len.toNat dst maxlen =
      (store (store mem dst [source.id, source.len]) (dst + tlvHdrLen) source.bytes,
        dst + (source.len.toNat + tlvHdrLen)) := by
  have short : source.len.toNat ≤ bcmTlvMaxDataSize := Nat.le_of_lt_succ source.len.toNat_lt
  have valid : (0 : Int) ≤ source.len.toNat ∧ (source.len.toNat : Int) ≤ bcmTlvMaxDataSize := by
    omega
  unfold bcmWriteTlvSafe bcmWriteTlv
  rw [if_pos valid, if_pos (by exact_mod_cast fits), if_pos ⟨valid, Or.inl (by simp)⟩]
  have low : UInt8.ofInt (source.len.toNat : Int) = source.len := by
    have bound := source.len.toNat_lt
    apply UInt8.toNat_inj.mp
    simp only [UInt8.ofInt, UInt8.toNat_ofNat']
    omega
  simp only [Int.toNat_natCast, low]
  rw [Nat.add_assoc, Nat.add_comm tlvHdrLen source.len.toNat]
  rfl

theorem bcmWriteTlvSafe_before (type datalen : Int) (data : Option Memory) {place : Nat}
    (before : place < dst) : (bcmWriteTlvSafe mem type data datalen dst maxlen).1 place = mem place ∧
      dst ≤ (bcmWriteTlvSafe mem type data datalen dst maxlen).2 := by
  unfold bcmWriteTlvSafe
  split
  · split
    · unfold bcmWriteTlv
      split
      · dsimp only
        refine ⟨?_, by omega⟩
        cases data with
        | none => exact Bytes.store_outside (Or.inl before)
        | some source =>
          exact (Bytes.store_outside (Or.inl (by omega))).trans (Bytes.store_outside (Or.inl before))
      · exact ⟨rfl, le_rfl⟩
    · exact ⟨rfl, le_rfl⟩
  · exact ⟨rfl, le_rfl⟩

theorem writeTlvs_before (sources : List TlvSource) {place : Nat} (before : place < dst) :
    (writeTlvs mem dst maxlen sources).1 place = mem place := by
  induction sources generalizing mem dst maxlen with
  | nil => rfl
  | cons source rest ih =>
    obtain ⟨same, later⟩ := @bcmWriteTlvSafe_before mem dst maxlen source.type source.len.toNat
      (some source.data) place before
    rw [writeTlvs, ih (Nat.lt_of_lt_of_le before later), same]

theorem written_holds (source : TlvSource) (rest : List TlvSource) (maxlen' : Int)
    {written : Memory}
    (same : written = (writeTlvs (store (store mem dst [source.id, source.len]) (dst + tlvHdrLen)
      source.bytes) (dst + (source.len.toNat + tlvHdrLen)) maxlen' rest).1) :
    written dst = source.id ∧ written (dst + 1) = source.len ∧
      load written (dst + tlvHdrLen) source.len.toNat = source.bytes := by
  have kept : ∀ place, place < dst + (source.len.toNat + tlvHdrLen) → written place =
      store (store mem dst [source.id, source.len]) (dst + tlvHdrLen) source.bytes place := by
    intro place before
    rw [same, writeTlvs_before rest before]
  refine ⟨?_, ?_, ?_⟩
  · rw [kept dst (by simp only [tlvHdrLen]; omega),
      Bytes.store_outside (Or.inl (by simp only [tlvHdrLen]; omega))]
    simp [store]
  · rw [kept (dst + 1) (by simp only [tlvHdrLen]; omega),
      Bytes.store_outside (Or.inl (by simp only [tlvHdrLen]; omega))]
    simp [store]
  · have length : source.bytes.length = source.len.toNat := Bytes.length_load
    rw [Bytes.load_congr (fun place _ high => kept place (by omega)), ← length]
    exact Bytes.load_store _ _ _

theorem tlvSplit_cons {id len : UInt8} {left : Int} (first : mem dst = id)
    (second : mem (dst + 1) = len) (fits : (len.toNat + tlvHdrLen : Nat) ≤ left) :
    tlvSplit mem dst left = ⟨dst, left, id, load mem (dst + tlvHdrLen) len.toNat⟩ ::
      tlvSplit mem (dst + (len.toNat + tlvHdrLen)) (left - (len.toNat + tlvHdrLen : Nat)) := by
  rw [tlvSplit, first, second, if_neg (by omega), if_neg (by omega)]

/-- The elements written are the first of the split, whatever follows them. -/
theorem tlvSplit_writeTlvs (sources : List TlvSource) (extra : Nat)
    (fits : (tlvTotal sources : Int) ≤ maxlen) :
    (writeTlvs mem dst maxlen sources).2 = dst + tlvTotal sources ∧
      (tlvSplit (writeTlvs mem dst maxlen sources).1 dst (tlvTotal sources + extra : Nat)).map
          (fun element => (element.id, element.data)) =
        sources.map (fun source => (source.id, source.bytes)) ++
          (tlvSplit (writeTlvs mem dst maxlen sources).1 (dst + tlvTotal sources) extra).map
            fun element => (element.id, element.data) := by
  induction sources generalizing mem dst maxlen with
  | nil => simp [writeTlvs, tlvTotal]
  | cons source rest ih =>
    have total : tlvTotal (source :: rest) = source.len.toNat + tlvHdrLen + tlvTotal rest := by
      simp [tlvTotal]
    have room : (source.len.toNat + tlvHdrLen : Nat) ≤ maxlen := by omega
    simp only [writeTlvs, bcmWriteTlvSafe_of source room]
    obtain ⟨stop, split⟩ := @ih (store (store mem dst [source.id, source.len]) (dst + tlvHdrLen)
      source.bytes) (dst + (source.len.toNat + tlvHdrLen))
      (maxlen - (dst + (source.len.toNat + tlvHdrLen) - dst : Nat)) (by omega)
    obtain ⟨id, len, bytes⟩ := written_holds source rest
      (maxlen - (dst + (source.len.toNat + tlvHdrLen) - dst : Nat)) rfl
    refine ⟨by rw [stop, total]; omega, ?_⟩
    rw [tlvSplit_cons id len (by omega), bytes]
    have behind : (tlvTotal (source :: rest) + extra : Nat) -
        ((source.len.toNat + tlvHdrLen : Nat) : Int) = (tlvTotal rest + extra : Nat) := by omega
    have place : dst + tlvTotal (source :: rest) =
        dst + (source.len.toNat + tlvHdrLen) + tlvTotal rest := by omega
    rw [behind, List.map_cons, split, place]
    rfl

end Writing

/-- The walkers and the writer agree on one split of a buffer, and none of them
reads outside it: `bcm_parse_tlvs` finds the first element of an id, `bcm_next_tlv`
goes through the split, `bcm_parse_ordered_tlvs` agrees where ids do not decrease,
and what is written back to back is the split. -/
theorem tlv_scan_spec (mem : Memory) (buf : Nat) (buflen : Int) (key : UInt32) :
    bcmParseTlvs ⟨mem, buf, buflen.toNat⟩ (some buf) buflen key =
      some (((tlvSplit mem buf buflen).find? fun element =>
        element.id.toNat = key.toNat).map TlvElement.elt) ∧
    enumerateTlvs ⟨mem, buf, buflen.toNat⟩ buf buflen =
      some ((tlvSplit mem buf buflen).map fun element => (element.elt, element.left)) ∧
    (bcmParseOrderedTlvs ⟨mem, buf, buflen.toNat⟩ buf buflen key).isSome ∧
    ((tlvSplit mem buf buflen).Pairwise (fun earlier later => earlier.id ≤ later.id) →
      bcmParseOrderedTlvs ⟨mem, buf, buflen.toNat⟩ buf buflen key =
        bcmParseTlvs ⟨mem, buf, buflen.toNat⟩ (some buf) buflen key) ∧
    ∀ sources : List TlvSource, (tlvTotal sources : Int) ≤ buflen →
      (tlvSplit (writeTlvs mem buf buflen sources).1 buf
          ((writeTlvs mem buf buflen sources).2 - buf)).map
          (fun element => (element.id, element.data)) =
        sources.map fun source => (source.id, source.bytes) := by
  have covers : Region.Covers ⟨mem, buf, buflen.toNat⟩ buf buflen := ⟨le_rfl, by dsimp only; omega⟩
  have parsed : bcmParseTlvs ⟨mem, buf, buflen.toNat⟩ (some buf) buflen key =
      some (((tlvSplit mem buf buflen).find? fun element =>
        element.id.toNat = key.toNat).map TlvElement.elt) := parseTlvsLoop_eq key covers
  have ordered := parseOrderedLoop_eq key covers
  refine ⟨parsed, enumerateTlvs_eq covers, ?_, ?_, ?_⟩
  · rw [bcmParseOrderedTlvs, ordered]
    rfl
  · intro sorted
    rw [parsed, bcmParseOrderedTlvs, ordered, find?_takeWhile_of_sorted key _ sorted]
  · intro sources fits
    obtain ⟨stop, split⟩ := @tlvSplit_writeTlvs mem buf buflen sources 0 fits
    have length : ((writeTlvs mem buf buflen sources).2 : Int) - buf =
        (tlvTotal sources + 0 : Nat) := by omega
    have nothing : tlvSplit (writeTlvs mem buf buflen sources).1 (buf + tlvTotal sources) (0 : Nat) =
        [] := by rw [tlvSplit]; exact if_pos (by decide)
    rw [length, split, nothing]
    simp

/-- A rates element and an empty one, written into eight bytes. -/
theorem tlv_scan_spec_written :
    (tlvSplit (writeTlvs (fun _ => 0) 16 8 [⟨1, 2, fun _ => 130⟩, ⟨48, 0, fun _ => 0⟩]).1 16
        ((writeTlvs (fun _ => 0) 16 8 [⟨1, 2, fun _ => 130⟩, ⟨48, 0, fun _ => 0⟩]).2 - 16)).map
        (fun element => (element.id, element.data)) = [(1, [130, 130]), (48, [])] :=
  (tlv_scan_spec (fun _ => 0) 16 8 1).2.2.2.2 [⟨1, 2, fun _ => 130⟩, ⟨48, 0, fun _ => 0⟩] (by decide)

end BcmDhd.Utils
