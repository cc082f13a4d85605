import BcmDhd.Lib.Walk

/-! The trace messages of the firmware: log entries split from the end of a message, and the
events that stand in them. -/

namespace BcmDhd.EventLog

open Lib

/-- The bytes of memory, by their distance from the start of a message. -/
abbrev Memory := Int → UInt8

def Memory.u8 (mem : Memory) (place : Int) : Nat := (mem place).toNat

/-- A `uint16` of a little-endian host. -/
def Memory.u16 (mem : Memory) (place : Int) : Nat := mem.u8 place + 256 * mem.u8 (place + 1)

/-- A `uint32` in network order. -/
def Memory.ntoh32 (mem : Memory) (place : Int) : Nat :=
  ((mem.u8 place * 256 + mem.u8 (place + 1)) * 256 + mem.u8 (place + 2)) * 256 + mem.u8 (place + 3)

/-- How wide pointers are. -/
inductive Pointers
  | ilp32
  | lp64
deriving DecidableEq

/-- `tlv_log`: a tag, a length and a pointer to the value. -/
def Pointers.sizeofTlvLog : Pointers → Nat
  | .ilp32 => 8
  | .lp64 => 16

/-- A pointer, and where it stands in `log_conn_event_t` and `log_nan_event_t`. -/
def Pointers.sizeofPointer : Pointers → Nat
  | .ilp32 => 4
  | .lp64 => 8

/-- `log_conn_event_t`: an event and a pointer to its values. -/
def Pointers.sizeofLogConnEvent : Pointers → Nat
  | .ilp32 => 8
  | .lp64 => 16

/-- `log_nan_event_t`: a version, an event and a pointer to its values. -/
def Pointers.sizeofLogNanEvent : Pointers → Nat
  | .ilp32 => 8
  | .lp64 => 16

/-- What is done to memory and to `datalen`. -/
inductive Access
  /-- Bytes from a place on are read. -/
  | read (place : Int) (len : Nat)
  /-- An amount is taken from `datalen`. -/
  | shrink (datalen amount : Nat)
  /-- `event_get_tlv` returns a place with a length in it. -/
  | found (tlvs : Int) (tlvsLen : Nat) (tlv : Int) (len : Nat)
  /-- Bytes are copied to a place, counted from the start of a payload buffer of some size. -/
  | copy (payloadLen dest : Int) (len : Nat)
  /-- Bytes of a payload buffer of some size are written or read, from a place in it on. -/
  | payload (payloadLen place : Int) (len : Nat)
deriving DecidableEq

/-- What the entry at a place meets: whether there is room for its list item, what the pointer of
its payload buffer, counted from the buffer's start, happens to be, and whether the ring is active. -/
structure Heap where
  item : Int → Bool
  payload : Int → Option Int
  active : Int → Bool

def msgtraceHdrlen : Nat := 16
/-- `sizeof(event_log_hdr_t)`. -/
def hdrlen : Nat := 4
def eventLogTagNull : Nat := 0
def eventLogTagTs : Nat := 1
def diagVersion : Nat := 0x100
def maxNoOfArg : Nat := 16

/-- The `event_log_hdr_t` at a place: `tag`, `count` and `fmt_num`. -/
def hdrTag (mem : Memory) (hdr : Int) : Nat := mem.u8 hdr
def hdrCount (mem : Memory) (hdr : Int) : Nat := mem.u8 (hdr + 1)
def hdrFmtNum (mem : Memory) (hdr : Int) : Nat := mem.u16 (hdr + 2)

/-- The `wl_event_log_id_t` at a place: `event` and `version`. -/
def idEvent (mem : Memory) (data : Int) : Nat := mem.u16 data
def idVersion (mem : Memory) (data : Int) : Nat := mem.u16 (data + 2)

/-- The `fw_id`s of `event_map`. -/
def eventMap : List Nat :=
  [3, 7, 0x8000, 0x8001, 0x8002, 0x8003, 138, 11, 9, 0x8004, 101, 0x8004, 0x8005, 0x800f, 3, 0x8002, 7,
    0x8005, 0x8009, 0x800a, 0x800b, 0x800c, 0x800d, 0x800e, 25, 0x8006, 0x8007, 0x8008]

/-- The `fw_id`s of `event_tag_map`. -/
def eventTagMap : List Nat := [0, 1, 2, 3, 4, 5, 6, 7, 8, 9, 10, 11, 12, 13, 14, 15]

/-- `fw_event_level_map`: log levels and tags. -/
def fwEventLevelMap : List (Nat × Nat) := [(1, 104), (1, 105), (2, 45)]

/-- The `fw_id`s of `nan_event_map`. -/
def nanEventMap : List Nat := [0x9000, 0x9001, 0x9002, 0x9003, 0x9004, 0x9005]

/-- `nan_event_level_map`: log levels and tags. -/
def nanEventLevelMap : List (Nat × Nat) := [(1, 107), (2, 108), (3, 109)]

/-- The `fw_id`s of `nan_evt_tag_map`. -/
def nanEvtTagMap : List Nat := [1, 2]

/-- One turn of the search for a tag, at a place. -/
def eventGetTlvTurn (mem : Memory) (id : Nat) (finish : Int) (scan : Int × List Access) :
    Turn (Int × List Access) (Option Int × List Access) :=
  let pos := scan.1
  if pos + 1 < finish then
    let log := scan.2 ++ [.read (pos + 1) 1]
    -- the byte behind the first one is taken for the length; it is the tag's upper half
    if finish < pos + 4 + mem.u8 (pos + 1) then .leave (none, log)
    else
      let log := log ++ [.read pos 2]
      if mem.u16 pos = id then .leave (some pos, log)
      else
        let len := mem.u16 (pos + 2)
        .again (pos + 4 + len + len % 4, log ++ [.read (pos + 2) 2])
  else .leave (none, scan.2)

/-- `tlvs + tlvs_len` for an `int` that is passed as a `uint`: addresses of 32 bits wrap around
to the sum of the two. -/
def tlvsEnd (ptr : Pointers) (tlvs tlvLen : Int) : Int :=
  match ptr with
  | .ilp32 => tlvs + tlvLen
  | .lp64 => tlvs + tlvLen % 2 ^ 32

def eventGetTlv (ptr : Pointers) (turns : Nat) (mem : Memory) (id : Nat) (tlvs tlvLen : Int) :
    Option (Option Int × List Access) :=
  loopFor (eventGetTlvTurn mem id (tlvsEnd ptr tlvs tlvLen)) turns (tlvs, [])

/-- The handlers' loop over the tags of a map: what is found is copied one behind the other, and
counted in `tot_payload_len`. -/
def copyTlvs (ptr : Pointers) (turns : Nat) (mem : Memory) (tlvs tlvLen payloadLen : Int) :
    List Nat → Int → Nat → Option (Nat × List Access)
  | [], _, total => some (total, [])
  | id :: ids, dest, total => do
    let got ← eventGetTlv ptr turns mem id tlvs tlvLen
    match got.1 with
    | none =>
      let rest ← copyTlvs ptr turns mem tlvs tlvLen payloadLen ids dest total
      return (rest.1, got.2 ++ rest.2)
    | some tlv =>
      let len := mem.u16 (tlv + 2)
      let rest ← copyTlvs ptr turns mem tlvs tlvLen payloadLen ids (dest + (len + ptr.sizeofTlvLog))
        ((total + (len + ptr.sizeofTlvLog)) % 2 ^ 16)
      return (rest.1, got.2 ++ [.found tlvs (tlvLen % 2 ^ 32).toNat tlv len,
        .read tlv (ptr.sizeofTlvLog + len), .copy payloadLen dest (ptr.sizeofTlvLog + len)] ++ rest.2)

inductive Bcme
  | ok
  | nomem
  | version
deriving DecidableEq

/-- The time stamp in front of an entry's data, if one stands there. -/
def readTimestamp (mem : Memory) (data : Int) : List Access :=
  let tsHdr := data - hdrlen
  .read tsHdr 1 ::
    if hdrTag mem tsHdr = eventLogTagTs then
      [.read (tsHdr + 1) 1, .read (tsHdr - 4 * hdrCount mem tsHdr) 4]
    else []

/-- `(hdr->count - 2) * DATA_UNIT_FOR_LOG_CNT`. -/
def tlvLen (mem : Memory) (hdr : Int) : Int := (hdrCount mem hdr - 2) * 4

/-- The struct at the start of a payload buffer: some of its fields are set, and the pointer behind
them, which nobody has set, is read. -/
def fillPayload (ptr : Pointers) (payloadLen : Int) (fields : List (Int × Nat)) : List Access :=
  fields.map (fun field => .payload payloadLen field.1 field.2) ++
    [.payload payloadLen ptr.sizeofPointer ptr.sizeofPointer]

/-- What `dhd_dbg_ring_push` reads of a payload buffer: as much as the record's header says. -/
def pushPayload (active : Bool) (payloadLen : Int) (total : Nat) : List Access :=
  if active then [.payload payloadLen 0 total] else []

def dhdDbgNanEventHandler (ptr : Pointers) (turns : Nat) (mem : Memory) (heap : Heap) (hdr data : Int) :
    Option (Bcme × List Access) :=
  if idVersion mem data ≠ diagVersion then some (.version, [.read data 4])
  else
    let log := .read data 4 :: readTimestamp mem data
    if idEvent mem data ∈ nanEventMap then
      match heap.payload hdr with
      | none => some (.nomem, log ++ [.read hdr 4])
      | some tlvs => do
        -- the values go to where the new buffer's own pointer points, not behind it
        let payloadLen := ptr.sizeofLogNanEvent + tlvLen mem hdr
        let copied ← copyTlvs ptr turns mem (data + 4) (tlvLen mem hdr) payloadLen nanEvtTagMap tlvs
          ptr.sizeofLogNanEvent
        return (.ok, log ++ .read hdr 4 :: (fillPayload ptr payloadLen [(0, 1), (2, 2)] ++ copied.2 ++
          pushPayload (heap.active hdr) payloadLen copied.1))
    else some (.ok, log)

/-- Whether `fw_event_level_map` leaves out a tag at the ring's level. -/
def filteredOut (logLevel : Int) (tag : Nat) : Bool :=
  fwEventLevelMap.any fun entry => entry.2 = tag && decide (logLevel < entry.1)

def dhdDbgCustomEvntHandler (ptr : Pointers) (turns : Nat) (mem : Memory) (heap : Heap) (logLevel : Int)
    (hdr data : Int) : Option (Bcme × List Access) :=
  if idVersion mem data ≠ diagVersion then some (.version, [.read data 4])
  else
    let log := .read data 4 :: readTimestamp mem data ++ [.read hdr 4, .read data (4 * hdrCount mem hdr)]
    if idEvent mem data ∈ eventMap then
      if filteredOut logLevel (hdrTag mem hdr) = true then some (.ok, log)
      else
        match heap.payload hdr with
        | none => some (.nomem, log)
        | some tlvs => do
          let payloadLen := ptr.sizeofLogConnEvent + tlvLen mem hdr
          let copied ← copyTlvs ptr turns mem (data + 4) (tlvLen mem hdr) payloadLen eventTagMap tlvs
            ptr.sizeofLogConnEvent
          return (.ok, log ++ (fillPayload ptr payloadLen [(0, 2)] ++ copied.2 ++
            pushPayload (heap.active hdr) payloadLen copied.1))
    else some (.ok, log)

/-- The log levels of the two event rings. -/
structure LogLevels where
  nanEvent : Nat
  fwEvent : Int

/-- The part of a turn that is about the NAN event ring, and whether it has processed the entry. -/
def nanPart (ptr : Pointers) (turns : Nat) (mem : Memory) (heap : Heap) (levels : LogLevels) (hdr data : Int) :
    Option (Bool × List Access) :=
  if levels.nanEvent = 0 then some (false, [])
  else
    match nanEventLevelMap.find? fun entry => entry.2 = hdrTag mem hdr with
    | none => some (false, [])
    | some entry =>
      if levels.nanEvent < entry.1 then some (true, [])
      else do
        let handled ← dhdDbgNanEventHandler ptr turns mem heap hdr data
        return (decide (handled.1 ≠ .version), handled.2)

/-- A turn of the loop over the list of entries. -/
def handleItem (ptr : Pointers) (turns : Nat) (mem : Memory) (heap : Heap) (dbg : Option LogLevels) (hdr : Int) :
    Option (List Access) :=
  match dbg with
  | none => some []
  | some levels => do
    let data := hdr - 4 * hdrCount mem hdr
    let nan ← nanPart ptr turns mem heap levels hdr data
    if nan.1 = true then return nan.2
    else if hdrTag mem hdr ∈ fwEventLevelMap.map Prod.snd then
      let handled ← dhdDbgCustomEvntHandler ptr turns mem heap levels.fwEvent hdr data
      return nan.2 ++ handled.2
    else return nan.2

/-- `datalen - amount` as a `uint`. -/
def minus (datalen amount : Nat) : Nat := (datalen + (2 ^ 32 - amount)) % 2 ^ 32

/-- The loop that goes through a message from its end. -/
structure Splitting where
  datalen : Nat
  /-- The headers of the entries, the last one found first. -/
  list : List Int
  log : List Access

/-- A part of the message, with its header as the last word, is left out. -/
def Splitting.drop (split : Splitting) (amount : Nat) : Splitting :=
  { split with datalen := minus split.datalen amount, log := split.log ++ [.shrink split.datalen amount] }

/-- The start of the log data: behind the message's header and the first two words. -/
def dataStart : Int := msgtraceHdrlen + 8

/-- `log_hdr` where so many bytes of log data are left. -/
def entryHdr (left : Nat) : Int := dataStart + left - hdrlen

def splitTurn (mem : Memory) (heap : Heap) (split : Splitting) : Turn Splitting Splitting :=
  if split.datalen = 0 then .leave split
  else
    let hdr := entryHdr split.datalen
    let split := { split with log := split.log ++ [.read hdr hdrlen] }
    -- the difference of two pointers to words, rounded down
    if (hdr - dataStart) / 4 < (hdrCount mem hdr : Int) then .leave split
    else if maxNoOfArg < hdrCount mem hdr ∧ hdrFmtNum mem hdr ≠ 0xffff then .leave split
    else if hdrTag mem hdr = eventLogTagNull then .again (split.drop hdrlen)
    else if hdrTag mem hdr = eventLogTagTs then .again (split.drop (hdrCount mem hdr * 4 + hdrlen))
    else if heap.item hdr = false then .leave split
    else .again ({ split with list := hdr :: split.list }.drop (hdrCount mem hdr * 4 + hdrlen))

/-- Whether `dhd_dbg_msgtrace_seqchk` finds a message again. -/
def seqchkFails (prev cur : Nat) : Bool :=
  if cur = 0 ∧ prev = 0xffffffff ∨ minus cur prev = 1 then false else decide (cur = prev)

/-- What the parser does with a message, as far as the loops come to an end within some number
of turns. -/
def dhdDbgMsgtraceLogParser (ptr : Pointers) (turns : Nat) (heap : Heap) (dbg : Option LogLevels)
    (seqnumPrev : Nat) (mem : Memory) (datalen : Nat) : Option (List Access) :=
  let log := [.shrink datalen msgtraceHdrlen, .read 4 4]
  let datalen := minus datalen msgtraceHdrlen
  if seqchkFails seqnumPrev (mem.ntoh32 4) = true then some log
  else do
    let log := log ++ [.read msgtraceHdrlen 8, .shrink datalen 8]
    let split ← loopFor (splitTurn mem heap) turns ⟨minus datalen 8, [], log⟩
    let handled ← split.list.mapM (handleItem ptr turns mem heap dbg)
    return split.log ++ handled.flatten

end BcmDhd.EventLog
