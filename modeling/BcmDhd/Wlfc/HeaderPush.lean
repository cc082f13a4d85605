import BcmDhd.Wlfc.HeaderParse

/-! The header that the host puts in front of a packet, byte by byte as it is written into the
headroom, and what the parser's rules make of it. -/

namespace BcmDhd.Wlfc

open BcmDhd.Lib

def tlvHdrLen : Nat := 2

def wlfcCtlValueLenPkttag : Nat := 4

def wlfcCtlValueLenPendingTrafficBmp : Nat := 2

/-- The bytes in front of `PKTDATA`, and those of the packet. -/
structure PktBuf where
  headroom : List UInt8
  data : List UInt8
  deriving DecidableEq

/-- `none` stands for the panic of a packet without headroom. The bytes are what was there. -/
def pktpush (p : PktBuf) (count : Nat) : Option PktBuf :=
  if count ≤ p.headroom.length then
    some ⟨p.headroom.take (p.headroom.length - count), p.headroom.drop (p.headroom.length - count) ++ p.data⟩
  else none

def pktpull (p : PktBuf) (count : Nat) : PktBuf := ⟨p.headroom ++ p.data.take count, p.data.drop count⟩

/-- Bytes are written over others. -/
def put (data : List UInt8) (offset : Nat) (bytes : List UInt8) : List UInt8 :=
  data.take offset ++ bytes ++ data.drop (offset + bytes.length)

def roundup (x y : Nat) : Nat := (x + (y - 1)) / y * y

/-- `wlh[..] = ..` for the wl-header of `dataOffset` bytes, of which the last are fillers. -/
def putWlHeader (wlh : List UInt8) (dataOffset fillers timSignalLen : Nat) (reuseseq : Bool)
    (timBmp macHandle : UInt8) (htodtag : UInt32) (htodseq : UInt16) : List UInt8 :=
  let wlh := put wlh 0 [wlfcCtlTypePkttag]
  let wlh := put wlh 1 [UInt8.ofNat wlfcCtlValueLenPkttag]
  let wlh := put wlh tlvHdrLen (littleEndian 4 htodtag.toNat)
  let wlh :=
    if reuseseq then
      let wlh := put wlh 1 [wlh.getD 1 0 + UInt8.ofNat wlfcCtlValueLenSeq]
      put wlh (tlvHdrLen + wlfcCtlValueLenPkttag) (littleEndian wlfcCtlValueLenSeq htodseq.toNat)
    else wlh
  let wlh :=
    if timSignalLen ≠ 0 then
      let wlh := put wlh (dataOffset - fillers - timSignalLen) [wlfcCtlTypePendingTrafficBmp]
      let wlh := put wlh (dataOffset - fillers - timSignalLen + 1) [UInt8.ofNat wlfcCtlValueLenPendingTrafficBmp]
      let wlh := put wlh (dataOffset - fillers - timSignalLen + 2) [macHandle]
      put wlh (dataOffset - fillers - timSignalLen + 3) [timBmp]
    else wlh
  if fillers ≠ 0 then put wlh (dataOffset - fillers) (List.replicate fillers wlfcCtlTypeFiller) else wlh

/-- What a header is to say. -/
structure HeaderArgs where
  reuseseq : Bool
  timSignal : Bool
  timBmp : UInt8
  macHandle : UInt8
  htodtag : UInt32
  htodseq : UInt16
  skipWlfcHdr : Bool

/-- The wl-header, and its length. -/
def pushWlHeader (args : HeaderArgs) (p : PktBuf) : Option (PktBuf × Nat) :=
  if args.skipWlfcHdr then some (p, 0)
  else
    let timSignalLen := if args.timSignal then tlvHdrLen + wlfcCtlValueLenPendingTrafficBmp else 0
    let unfilled := wlfcCtlValueLenPkttag + tlvHdrLen + timSignalLen + if args.reuseseq then wlfcCtlValueLenSeq else 0
    let fillers := roundup unfilled 4 - unfilled
    let dataOffset := unfilled + fillers
    (pktpush p dataOffset).map fun p =>
      ({ p with
        data := putWlHeader p.data dataOffset fillers timSignalLen args.reuseseq args.timBmp args.macHandle
          args.htodtag args.htodseq }, dataOffset)

/-- `pkt` has the tags that go into the BDC header. -/
def pushheader (args : HeaderArgs) (pkt : Pkt) (p : PktBuf) : Option PktBuf :=
  (pushWlHeader args p).bind fun (p, dataOffset) =>
    (pktpush p bdcHeaderLen).map fun p => { p with data := put p.data 0 (bdcHeader pkt dataOffset) }

def pullheader (p : PktBuf) : PktBuf × Int :=
  if p.data.length < bdcHeaderLen then (p, bcmeError)
  else
    let dataOffset := (p.data.getD 3 0).toNat * 4
    let p := pktpull p bdcHeaderLen
    if p.data.length < dataOffset then (p, bcmeError) else (pktpull p dataOffset, bcmeOk)

/-- A byte that fills, or a TLV. -/
inductive HeaderItem
  | filler
  | tlv (type : UInt8) (value : List UInt8)
  deriving DecidableEq

def HeaderItem.bytes : HeaderItem → List UInt8
  | .filler => [wlfcCtlTypeFiller]
  | .tlv type value => type :: UInt8.ofNat value.length :: value

/-- The tag of the packet, with the sequence word if that is reused. -/
def pkttagItem (args : HeaderArgs) : HeaderItem :=
  .tlv wlfcCtlTypePkttag (littleEndian 4 args.htodtag.toNat ++
    if args.reuseseq then littleEndian 2 args.htodseq.toNat else [])

/-- The traffic bitmap of a node, if it is to be told. -/
def timItems (args : HeaderArgs) : List HeaderItem :=
  if args.timSignal then [.tlv wlfcCtlTypePendingTrafficBmp [args.macHandle, args.timBmp]] else []

def itemBytes (items : List HeaderItem) : List UInt8 := items.flatMap HeaderItem.bytes

/-- What a header that is not skipped has to consist of: it is filled up to a multiple of four bytes. -/
def headerItems (args : HeaderArgs) : List HeaderItem :=
  let signals := pkttagItem args :: timItems args
  signals ++ List.replicate ((4 - (itemBytes signals).length % 4) % 4) .filler

/-- The length of the header, as it is computed when it is written. -/
def headerLen (args : HeaderArgs) : Nat :=
  if args.skipWlfcHdr then 0
  else roundup (wlfcCtlValueLenPkttag + tlvHdrLen +
    (if args.timSignal then tlvHdrLen + wlfcCtlValueLenPendingTrafficBmp else 0) +
      if args.reuseseq then wlfcCtlValueLenSeq else 0) 4

def headerBytes (args : HeaderArgs) : List UInt8 :=
  if args.skipWlfcHdr then [] else itemBytes (headerItems args)

theorem length_signals (args : HeaderArgs) : (itemBytes (pkttagItem args :: timItems args)).length =
    wlfcCtlValueLenPkttag + tlvHdrLen + (if args.timSignal then tlvHdrLen + wlfcCtlValueLenPendingTrafficBmp else 0) +
      if args.reuseseq then wlfcCtlValueLenSeq else 0 := by
  obtain ⟨reuseseq, timSignal, timBmp, macHandle, htodtag, htodseq, skipWlfcHdr⟩ := args
  cases reuseseq <;> cases timSignal <;> rfl

theorem itemBytes_headerItems (args : HeaderArgs) : itemBytes (headerItems args) =
    itemBytes (pkttagItem args :: timItems args) ++
      List.replicate ((4 - (itemBytes (pkttagItem args :: timItems args)).length % 4) % 4) wlfcCtlTypeFiller := by
  have fillers : ∀ count, itemBytes (List.replicate count .filler) = List.replicate count wlfcCtlTypeFiller := by
    intro count
    induction count with
    | zero => rfl
    | succ count ih =>
      rw [List.replicate_succ, List.replicate_succ, ← ih]
      rfl
  unfold headerItems
  dsimp only
  rw [← fillers]
  exact List.flatMap_append

theorem length_headerBytes (args : HeaderArgs) : (headerBytes args).length = headerLen args := by
  unfold headerBytes headerLen
  cases args.skipWlfcHdr with
  | true => rfl
  | false =>
    rw [if_neg (by decide), if_neg (by decide), itemBytes_headerItems, List.length_append, List.length_replicate,
      ← length_signals]
    unfold roundup
    omega

theorem putWlHeader_eq (args : HeaderArgs) (wlh : List UInt8) :
    let timSignalLen := if args.timSignal then tlvHdrLen + wlfcCtlValueLenPendingTrafficBmp else 0
    let unfilled := wlfcCtlValueLenPkttag + tlvHdrLen + timSignalLen + if args.reuseseq then wlfcCtlValueLenSeq else 0
    let fillers := roundup unfilled 4 - unfilled
    putWlHeader wlh (unfilled + fillers) fillers timSignalLen args.reuseseq args.timBmp args.macHandle args.htodtag
        args.htodseq = itemBytes (headerItems args) ++ wlh.drop (unfilled + fillers) := by
  obtain ⟨reuseseq, timSignal, timBmp, macHandle, htodtag, htodseq, skipWlfcHdr⟩ := args
  rw [itemBytes_headerItems]
  cases reuseseq <;> cases timSignal <;>
    simp [putWlHeader, put, roundup, itemBytes, pkttagItem, timItems, HeaderItem.bytes, littleEndian,
      wlfcCtlValueLenPkttag, tlvHdrLen, wlfcCtlValueLenPendingTrafficBmp, wlfcCtlValueLenSeq]

theorem headerLen_le (args : HeaderArgs) : headerLen args = 0 ∨ headerLen args = 8 ∨ headerLen args = 12 := by
  unfold headerLen
  generalize args.skipWlfcHdr = skip, args.timSignal = tim, args.reuseseq = reuseseq
  cases skip <;> cases tim <;> cases reuseseq <;> decide

theorem pushWlHeader_eq (args : HeaderArgs) (p : PktBuf) (room : headerLen args ≤ p.headroom.length) :
    pushWlHeader args p = some (⟨p.headroom.take (p.headroom.length - headerLen args), headerBytes args ++ p.data⟩,
      headerLen args) := by
  unfold pushWlHeader
  unfold headerLen headerBytes at *
  cases skip : args.skipWlfcHdr with
  | true => simp
  | false =>
    rw [skip] at room
    simp only [Bool.false_eq_true, ↓reduceIte] at room ⊢
    have written := putWlHeader_eq args
    dsimp only at written ⊢
    generalize (wlfcCtlValueLenPkttag + tlvHdrLen +
      (if args.timSignal = true then tlvHdrLen + wlfcCtlValueLenPendingTrafficBmp else 0) +
      if args.reuseseq = true then wlfcCtlValueLenSeq else 0) = unfilled at *
    have grows : unfilled + (roundup unfilled 4 - unfilled) = roundup unfilled 4 := by
      unfold roundup
      omega
    rw [grows] at written ⊢
    unfold pktpush
    rw [if_pos room, Option.map_some]
    dsimp only
    rw [written, List.drop_left' (by rw [List.length_drop]; omega)]

theorem pushheader_eq (args : HeaderArgs) (pkt : Pkt) (p : PktBuf)
    (room : headerLen args + bdcHeaderLen ≤ p.headroom.length) :
    pushheader args pkt p = some
      ⟨p.headroom.take (p.headroom.length - (headerLen args + bdcHeaderLen)),
        bdcHeader pkt (headerLen args) ++ headerBytes args ++ p.data⟩ := by
  have len : (bdcHeader pkt (headerLen args)).length = bdcHeaderLen := rfl
  unfold pushheader
  rw [pushWlHeader_eq args p (by omega), Option.bind_some]
  dsimp only
  unfold pktpush
  dsimp only
  rw [List.length_take, Nat.min_eq_left (by omega), if_pos (by omega), Option.map_some]
  dsimp only
  unfold put
  rw [List.take_zero, List.nil_append, Nat.zero_add, len, List.take_take, List.append_assoc,
    List.drop_left' (by rw [List.length_drop, List.length_take]; omega), Nat.min_eq_left (by omega), Nat.sub_sub]

theorem dataOffset_byte (args : HeaderArgs) :
    (UInt8.ofNat (headerLen args / 4)).toNat * 4 = headerLen args := by
  rcases headerLen_le args with none_ | short | long
  · rw [none_]
    rfl
  · rw [short]
    rfl
  · rw [long]
    rfl

theorem pullheader_pushed (args : HeaderArgs) (pkt : Pkt) (headroom data : List UInt8) :
    pullheader ⟨headroom, bdcHeader pkt (headerLen args) ++ headerBytes args ++ data⟩ =
      (⟨headroom ++ bdcHeader pkt (headerLen args) ++ headerBytes args, data⟩, bcmeOk) := by
  have bytes := length_headerBytes args
  have offset : ((bdcHeader pkt (headerLen args) ++ headerBytes args ++ data).getD 3 0).toNat * 4 = headerLen args :=
    dataOffset_byte args
  have pulled : pktpull ⟨headroom, bdcHeader pkt (headerLen args) ++ headerBytes args ++ data⟩ bdcHeaderLen =
      ⟨headroom ++ bdcHeader pkt (headerLen args), headerBytes args ++ data⟩ := rfl
  unfold pullheader
  dsimp only
  rw [if_neg (by simp [bdcHeader, bdcHeaderLen]), offset, pulled, if_neg (by rw [List.length_append]; omega)]
  unfold pktpull
  dsimp only
  rw [List.take_left' bytes, List.drop_left' bytes]

/-- What a round of the parser takes off. -/
def Parsing.item (parsing : Parsing) : HeaderItem :=
  if parsing.type = wlfcCtlTypeFiller then .filler
  else .tlv parsing.type ((List.range parsing.len).map fun i => parsing.state.tmpbuf (parsing.value + i))

/-- The items that the rounds of the parser take off one after the other, and where it stops. -/
def splitTlvs (target : ReorderTarget) : Nat → Parsing → List HeaderItem × Parsing
  | 0, parsing => ([], parsing)
  | rounds + 1, parsing =>
    if parsing.goesOn then
      match (parseRound target parsing).1 with
      | none => ([], parsing)
      | some next => (parsing.item :: (splitTlvs target rounds next).1, (splitTlvs target rounds next).2)
    else ([], parsing)

/-- Items that the parser passes over: no handler is called for them. -/
def HeaderItem.Passive : HeaderItem → Prop
  | .filler => True
  | .tlv type value => (type = wlfcCtlTypePkttag ∨ type = wlfcCtlTypePendingTrafficBmp) ∧ value.length < 2 ^ 8

theorem handleTlv_passive (target : ReorderTarget) (state : ParseState) {type : UInt8} (len value : Nat)
    (passive : type = wlfcCtlTypePkttag ∨ type = wlfcCtlTypePendingTrafficBmp) :
    (handleTlv target state type len value).1 = state := by
  obtain ⟨wlfc, tmpbuf, reorderInfo⟩ := state
  rcases passive with rfl | rfl
  · cases wlfc with
    | none => rfl
    | some ctx => rfl
  · cases wlfc with
    | none => rfl
    | some ctx => rfl

/-- One item that stands where the parser is. -/
theorem round_item (target : ReorderTarget) (parsing : Parsing) {item : HeaderItem} (passive : item.Passive)
    (there : ∀ (i : Nat) (inside : i < item.bytes.length), parsing.state.tmpbuf (parsing.processed + i) = item.bytes[i])
    (enough : item.bytes.length ≤ parsing.remainder) :
    parsing.item = item ∧ (parseRound target parsing).1 =
      some ⟨parsing.state, parsing.processed + item.bytes.length, parsing.remainder - item.bytes.length⟩ := by
  cases item with
  | filler =>
    have filler : parsing.type = wlfcCtlTypeFiller := there 0 (Nat.zero_lt_one)
    refine ⟨if_pos filler, ?_⟩
    unfold parseRound
    rw [if_pos filler]
    rfl
  | tlv type value =>
    obtain ⟨types, short⟩ := passive
    have own : parsing.type = type := there 0 (Nat.zero_lt_succ _)
    have len : parsing.len = value.length := by
      have second : parsing.state.tmpbuf (parsing.processed + 1) = UInt8.ofNat value.length :=
        there 1 (Nat.succ_lt_succ (Nat.zero_lt_succ _))
      unfold Parsing.len
      rw [second, UInt8.toNat_ofNat', Nat.mod_eq_of_lt short]
    have bytes : (HeaderItem.tlv type value).bytes.length = 2 + value.length := Nat.add_comm _ 2
    have noFiller : ¬ parsing.type = wlfcCtlTypeFiller := by
      rw [own]
      rcases types with rfl | rfl
      · decide
      · decide
    constructor
    · unfold Parsing.item
      rw [if_neg noFiller, own, len]
      congr 1
      apply List.ext_getElem
      · rw [List.length_map, List.length_range]
      · intro i inside below
        rw [List.getElem_map, List.getElem_range]
        have at_ := there (2 + i) (by rw [bytes]; omega)
        have place : parsing.value + i = parsing.processed + (2 + i) := Nat.add_assoc _ _ _
        rw [place, at_]
        have behind : (HeaderItem.tlv type value).bytes = [type, UInt8.ofNat value.length] ++ value := rfl
        simp only [behind]
        rw [List.getElem_append_right (Nat.le_add_right 2 i)]
        congr 1
        exact Nat.add_sub_cancel_left 2 i
    · unfold parseRound
      rw [if_neg noFiller, len, if_neg (by omega)]
      dsimp only
      rw [handleTlv_passive target parsing.state _ _ (own ▸ types), bytes]

/-- The parser takes written items apart again. -/
theorem splitTlvs_items (target : ReorderTarget) (rounds : Nat) (parsing : Parsing) (items : List HeaderItem)
    (passive : ∀ item ∈ items, item.Passive) (bound : items.length ≤ rounds)
    (there : ∀ (i : Nat) (inside : i < (itemBytes items).length),
      parsing.state.tmpbuf (parsing.processed + i) = (itemBytes items)[i])
    (all : parsing.remainder = (itemBytes items).length)
    (short : parsing.processed + (itemBytes items).length ≤ wlfcMaxPendingDatalen * 2) :
    splitTlvs target rounds parsing =
      (items, ⟨parsing.state, parsing.processed + (itemBytes items).length, 0⟩) := by
  induction items generalizing rounds parsing with
  | nil =>
    obtain ⟨state, processed, remainder⟩ := parsing
    change remainder = 0 at all
    subst all
    cases rounds with
    | zero => rfl
    | succ rounds =>
      unfold splitTlvs Parsing.goesOn
      simp [itemBytes]
  | cons item rest ih =>
    have bytes : itemBytes (item :: rest) = item.bytes ++ itemBytes rest := rfl
    have some_ : 0 < item.bytes.length := by
      cases item with
      | filler => exact Nat.zero_lt_one
      | tlv type value => exact Nat.zero_lt_succ _
    rw [bytes, List.length_append] at all short
    simp only [bytes] at there
    cases rounds with
    | zero => exact absurd bound (Nat.not_succ_le_zero _)
    | succ rounds =>
      have goes : parsing.goesOn = true := by
        unfold Parsing.goesOn
        rw [decide_eq_true_iff]
        exact ⟨by omega, by omega⟩
      obtain ⟨own, next⟩ := round_item target parsing (passive item List.mem_cons_self)
        (fun i inside => by
          rw [there i (by rw [List.length_append]; omega), List.getElem_append_left inside]) (by omega)
      have later := ih rounds ⟨parsing.state, parsing.processed + item.bytes.length,
          parsing.remainder - item.bytes.length⟩ (fun item member => passive item (List.mem_cons_of_mem _ member))
        (Nat.le_of_succ_le_succ bound)
        (fun i inside => by
          dsimp only
          rw [Nat.add_assoc, there (item.bytes.length + i) (by rw [List.length_append]; omega),
            List.getElem_append_right (Nat.le_add_right _ _)]
          congr 1
          exact Nat.add_sub_cancel_left _ _) (by dsimp only; omega) (by dsimp only; omega)
      unfold splitTlvs
      rw [if_pos goes, next]
      dsimp only
      rw [later, own, bytes, List.length_append]
      dsimp only
      rw [Nat.add_assoc]

theorem passive_headerItems (args : HeaderArgs) : ∀ item ∈ headerItems args, item.Passive := by
  intro item member
  unfold headerItems at member
  dsimp only at member
  rcases List.mem_append.mp member with signal | filler
  · rcases List.mem_cons.mp signal with rfl | tim
    · refine ⟨.inl rfl, ?_⟩
      cases args.reuseseq with
      | true => simp
      | false => simp
    · unfold timItems at tim
      split at tim
      · obtain rfl := List.mem_singleton.mp tim
        exact ⟨.inr rfl, by simp⟩
      · cases tim
  · rw [List.eq_of_mem_replicate filler]
    trivial

theorem length_headerItems (args : HeaderArgs) : (headerItems args).length ≤ 5 := by
  unfold headerItems timItems
  dsimp only
  rw [List.length_append, List.length_replicate, List.length_cons]
  split
  · rw [List.length_singleton]
    omega
  · rw [List.length_nil]
    omega

/-- What the bytes between the BDC header and the payload are to be. -/
def expectedItems (args : HeaderArgs) : List HeaderItem := if args.skipWlfcHdr then [] else headerItems args

/-- A packet with a header in front of it: the header is pulled off again, the byte in the BDC header
tells its length, and the parser splits it into these items and is then through. -/
structure Headed (p q : PktBuf) (items : List HeaderItem) : Prop where
  pulls : ∃ headroom, pullheader q = (⟨headroom, p.data⟩, bcmeOk) ∧ headroom.length = p.headroom.length
  filled : (itemBytes items).length % 4 = 0
  told : (q.data.getD 3 0).toNat * 4 = (itemBytes items).length
  splits : ∀ (target : ReorderTarget) (wlfc : Option Ctx) (tmpbuf : Tmpbuf),
    (∀ i < (itemBytes items).length, tmpbuf i = (q.data.drop bdcHeaderLen).getD i 0) →
      splitTlvs target (wlfcMaxPendingDatalen * 2) ⟨⟨wlfc, tmpbuf, []⟩, 0, (q.data.getD 3 0).toNat * 4⟩ =
        (items, ⟨⟨wlfc, tmpbuf, []⟩, (itemBytes items).length, 0⟩)

theorem itemBytes_expected (args : HeaderArgs) : itemBytes (expectedItems args) = headerBytes args := by
  unfold expectedItems headerBytes
  cases args.skipWlfcHdr with
  | true => rfl
  | false => rfl

/-- Pushing and pulling are inverse, and what is pushed is read back: the tag, the traffic bitmap if it
is to be told, and fillers; or nothing, if the header is skipped. -/
theorem pushheader_headed (args : HeaderArgs) (pkt : Pkt) (p : PktBuf)
    (room : headerLen args + bdcHeaderLen ≤ p.headroom.length) :
    ∃ q, pushheader args pkt p = some q ∧ Headed p q (expectedItems args) := by
  have bytes := length_headerBytes args
  have offset : ((bdcHeader pkt (headerLen args) ++ headerBytes args ++ p.data).getD 3 0).toNat * 4 = headerLen args :=
    dataOffset_byte args
  refine ⟨_, pushheader_eq args pkt p room, ?_, ?_, ?_, ?_⟩
  · refine ⟨_, pullheader_pushed args pkt _ p.data, ?_⟩
    rw [List.length_append, List.length_append, List.length_take, bytes]
    change min _ _ + bdcHeaderLen + _ = _
    omega
  · rw [itemBytes_expected, bytes]
    rcases headerLen_le args with none_ | short | long
    · omega
    · omega
    · omega
  · rw [itemBytes_expected, bytes, offset]
  · intro target wlfc tmpbuf there
    dsimp only at there ⊢
    have behind : (bdcHeader pkt (headerLen args) ++ headerBytes args ++ p.data).drop bdcHeaderLen =
        headerBytes args ++ p.data := rfl
    rw [behind] at there
    have split := splitTlvs_items target (wlfcMaxPendingDatalen * 2) ⟨⟨wlfc, tmpbuf, []⟩, 0, headerLen args⟩
      (expectedItems args) (by
        intro item member
        unfold expectedItems at member
        split at member
        · cases member
        · exact passive_headerItems args item member) (by
        have few := length_headerItems args
        unfold expectedItems wlfcMaxPendingDatalen
        split
        · exact Nat.zero_le _
        · omega) (by
        intro i inside
        have below : i < (headerBytes args).length := by
          rwa [itemBytes_expected] at inside
        dsimp only
        rw [Nat.zero_add, there i inside, List.getD_eq_getElem?_getD, List.getElem?_append_left below,
          List.getElem?_eq_getElem below, Option.getD_some]
        simp only [itemBytes_expected]) (by
        dsimp only
        rw [itemBytes_expected, bytes]) (by
        dsimp only
        rw [itemBytes_expected, bytes]
        unfold wlfcMaxPendingDatalen
        rcases headerLen_le args with none_ | short | long
        · omega
        · omega
        · omega)
    rw [offset, split]
    dsimp only
    rw [Nat.zero_add]

/-- A tag with the traffic bitmap of a node, in front of one byte. -/
def timArgs : HeaderArgs := ⟨false, true, 7, 3, 0x12345678, 0, false⟩

theorem pushheader_headed_tim : ∃ q,
    pushheader timArgs (freshPkt 0 0 [] []) ⟨List.replicate 16 0, [9]⟩ = some q ∧
      Headed ⟨List.replicate 16 0, [9]⟩ q
        [.tlv 5 [0x78, 0x56, 0x34, 0x12], .tlv 12 [3, 7], .filler, .filler] := by
  have headed := pushheader_headed timArgs (freshPkt 0 0 [] []) ⟨List.replicate 16 0, [9]⟩ (by decide)
  have items : expectedItems timArgs = [.tlv 5 [0x78, 0x56, 0x34, 0x12], .tlv 12 [3, 7], .filler, .filler] := by
    decide
  rwa [items] at headed

/-- Of a header that is skipped no tag can be read, whatever it was to say. -/
theorem skipped_header_has_no_tag :
    ∃ q, pushheader { timArgs with skipWlfcHdr := true } (freshPkt 0 0 [] []) ⟨List.replicate 16 0, [9]⟩ = some q ∧
      (q.data.getD 3 0).toNat = 0 ∧
      (splitTlvs ⟨false, false⟩ (wlfcMaxPendingDatalen * 2)
        ⟨⟨none, fun i => (q.data.drop bdcHeaderLen).getD i 0, []⟩, 0,
        (q.data.getD 3 0).toNat * 4⟩).1 ≠ headerItems { timArgs with skipWlfcHdr := true } := by
  refine ⟨⟨List.replicate 12 0, [32, 0, 0, 0, 9]⟩, by decide, by decide, ?_⟩
  decide

end BcmDhd.Wlfc
