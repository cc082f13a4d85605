import BcmDhd.Lib.Bytes

/-! Ethernet frames as the TCP-ACK suppression reads them, and the order of
TCP sequence numbers. -/

namespace BcmDhd.TcpAck

open BcmDhd.Lib Function

def etherHdrLen : Nat := 14
def etherTypeIp : Nat := 0x0800
def ipVer4 : Nat := 4
def ipProtTcp : Nat := 6
def ipv4MinHeaderLen : Nat := 20
def tcpMinHeaderLen : Nat := 20
def tcpFlagAck : UInt8 := 0x10

def tcpackszmin : Nat := etherHdrLen + ipv4MinHeaderLen + tcpMinHeaderLen
def tcpackszmax : Nat := tcpackszmin + 100

/-- A packet's bytes from its Ethernet header on. The buffer goes on behind the
`len` bytes of the frame. -/
structure Frame where
  len : Nat
  data : Memory

/-- The number in two bytes, the high one first. -/
def ntoh16 (data : Memory) (place : Nat) : Nat := (data place).toNat * 256 + (data (place + 1)).toNat

def ntoh32 (data : Memory) (place : Nat) : UInt32 :=
  UInt32.ofNat (ntoh16 data place * 65536 + ntoh16 data (place + 2))

namespace Frame

def ofBytes (bytes : List UInt8) : Frame := ⟨bytes.length, fun place => bytes.getD place 0⟩

/-- A frame of 54 bytes that reads as the TCP ACK `ack` from port `port`, in an IP
packet with `frag` as the high byte of its fragment field. -/
def sample (frag port ack : UInt8) : Frame := ofBytes
  ([2, 0, 0, 0, 0, 1, 2, 0, 0, 0, 0, 2, 8, 0] ++
    [0x45, 0, 0, 40, 0, 0, frag, 0, 64, 6, 0, 0, 10, 0, 0, 1, 10, 0, 0, 2] ++
    [0, port, 0, 80, 0, 0, 0, 0, 0, 0, 0, ack, 0x50, 0x10, 0, 0, 0, 0, 0, 0])

def etherType (frame : Frame) : Nat := ntoh16 frame.data 12

def ipVer (frame : Frame) : Nat := (frame.data etherHdrLen).toNat / 16

def ipHdrLen (frame : Frame) : Nat := 4 * ((frame.data etherHdrLen).toNat % 16)

def ipTotalLen (frame : Frame) : Nat := ntoh16 frame.data (etherHdrLen + 2)

def ipFrag (frame : Frame) : Nat := ntoh16 frame.data (etherHdrLen + 6)

def ipProt (frame : Frame) : Nat := (frame.data (etherHdrLen + 9)).toNat

/-- Where the TCP header starts by the header length in the IP header. -/
def tcpHdr (frame : Frame) : Nat := etherHdrLen + frame.ipHdrLen

def tcpAckNum (frame : Frame) : UInt32 := ntoh32 frame.data (frame.tcpHdr + 8)

def tcpHdrLen (frame : Frame) : Nat := 4 * ((frame.data (frame.tcpHdr + 12)).toNat / 16)

def tcpFlags (frame : Frame) : UInt8 := frame.data (frame.tcpHdr + 13)

/-- Source and destination address, and source and destination port. -/
def flow (frame : Frame) : List UInt8 × List UInt8 :=
  (load frame.data (etherHdrLen + 12) 8, load frame.data frame.tcpHdr 4)

/-- The IP packet in the frame. -/
def ipPacket (frame : Frame) : List UInt8 := load frame.data etherHdrLen frame.ipTotalLen

/-- What the code takes for a TCP ACK without data. -/
def LooksAck (frame : Frame) : Prop :=
  tcpackszmin ≤ frame.len ∧ frame.len ≤ tcpackszmax ∧ frame.etherType = etherTypeIp ∧
    frame.ipVer = ipVer4 ∧ frame.ipProt = ipProtTcp ∧ frame.tcpFlags = tcpFlagAck ∧
    frame.ipTotalLen ≤ frame.ipHdrLen + frame.tcpHdrLen

instance : DecidablePred LooksAck := fun frame => by unfold LooksAck; infer_instance

/-- The IP packet is a whole one and lies inside the frame: not a fragment, and
its lengths agree with each other. -/
structure Whole (frame : Frame) : Prop where
  unfragmented : frame.ipFrag % 0x4000 = 0
  ipHeader : ipv4MinHeaderLen ≤ frame.ipHdrLen
  tcpHeader : tcpMinHeaderLen ≤ frame.tcpHdrLen
  headers : frame.ipHdrLen + frame.tcpHdrLen ≤ frame.ipTotalLen
  inside : etherHdrLen + frame.ipTotalLen ≤ frame.len

instance (frame : Frame) : Decidable frame.Whole :=
  decidable_of_iff (frame.ipFrag % 0x4000 = 0 ∧ ipv4MinHeaderLen ≤ frame.ipHdrLen ∧
      tcpMinHeaderLen ≤ frame.tcpHdrLen ∧ frame.ipHdrLen + frame.tcpHdrLen ≤ frame.ipTotalLen ∧
      etherHdrLen + frame.ipTotalLen ≤ frame.len)
    ⟨fun all => ⟨all.1, all.2.1, all.2.2.1, all.2.2.2.1, all.2.2.2.2⟩,
      fun whole => ⟨whole.unfragmented, whole.ipHeader, whole.tcpHeader, whole.headers, whole.inside⟩⟩

/-- A TCP segment over IPv4 with the ACK flag alone and no data. -/
structure PureAck (frame : Frame) : Prop where
  whole : frame.Whole
  ethernet : frame.etherType = etherTypeIp
  version : frame.ipVer = ipVer4
  protocol : frame.ipProt = ipProtTcp
  flags : frame.tcpFlags = tcpFlagAck
  empty : frame.ipTotalLen = frame.ipHdrLen + frame.tcpHdrLen

theorem LooksAck.pure {frame : Frame} (looks : frame.LooksAck) (whole : frame.Whole) :
    frame.PureAck := by
  obtain ⟨_, _, ethernet, version, protocol, flags, short⟩ := looks
  have long := whole.headers
  exact ⟨whole, ethernet, version, protocol, flags, by omega⟩

end Frame

/-- How far `new` lies ahead of `old` on the circle of sequence numbers. -/
def ahead (new old : UInt32) : Nat := (new - old).toNat

/-- The comparisons of the TCP header file. They follow the circle wherever one
of the two numbers is less than half a turn ahead; at half a turn they may say either. -/
structure TcpSeq where
  ge : UInt32 → UInt32 → Bool
  gt : UInt32 → UInt32 → Bool
  ge_near : ∀ new old, ahead new old < 2 ^ 31 → ge new old = true
  ge_far : ∀ new old, 2 ^ 31 < ahead new old → ge new old = false
  gt_near : ∀ new old, 0 < ahead new old → ahead new old < 2 ^ 31 → gt new old = true
  gt_same : ∀ new, gt new new = false
  gt_far : ∀ new old, 2 ^ 31 < ahead new old → gt new old = false

/-- The comparisons by the difference of the numbers. -/
def tcpSeq : TcpSeq where
  ge new old := decide (ahead new old < 2 ^ 31)
  gt new old := !decide (ahead old new < 2 ^ 31)
  ge_near _ _ near := decide_eq_true near
  ge_far _ _ far := decide_eq_false (by omega)
  gt_near new old apart near := by
    have turn := UInt32.toNat_sub new old
    have back := UInt32.toNat_sub old new
    have small := new.toNat_lt
    have low := old.toNat_lt
    unfold ahead at *
    simp only [Bool.not_eq_true', decide_eq_false_iff_not]
    omega
  gt_same new := by simp [ahead]
  gt_far new old far := by
    have turn := UInt32.toNat_sub new old
    have back := UInt32.toNat_sub old new
    have small := new.toNat_lt
    have low := old.toNat_lt
    unfold ahead at *
    simp only [Bool.not_eq_false', decide_eq_true_eq]
    omega

/-! The table of TCP ACKs that wait for transmission. In replace mode a later
ACK overwrites the queued one of its flow; in hold mode the table itself keeps
ACKs back until a timer or their number releases them. -/

def tcpackInfoMaxnum : Nat := 4
def customTcpackSuppRatio : Nat := 3

def bcmeOk : Int := 0
def bcmeError : Int := -1
def bcmeBadarg : Int := -2
def bcmeNomem : Int := -27

inductive SupMode
  | off
  | replace
  | delaytx
  | hold
deriving DecidableEq

/-- `mode` as the byte that is asked for, up to `TCPACK_SUP_LAST_MODE`. -/
def supModeOf (mode : UInt8) : Option SupMode :=
  if mode = 0 then some .off else if mode = 1 then some .replace
  else if mode = 2 then some .delaytx else if mode = 3 then some .hold else none

/-- `pkt_ether_hdr` is left out: it points to the buffer of `pktInQ`. -/
structure TcpackInfo where
  pktInQ : Option Nat
  ifidx : Nat
  suppCnt : UInt8
  /-- The entry knows its driver, as its timer's handler needs. -/
  dhdp : Bool
  /-- The entry's timer says that it is pending. -/
  timer : Bool

def TcpackInfo.zero : TcpackInfo := ⟨none, 0, 0, false, false⟩

/-- The entry without its packet; the timer and the driver stay. -/
def TcpackInfo.release (info : TcpackInfo) : TcpackInfo :=
  { info with pktInQ := none, ifidx := 0, suppCnt := 0 }

structure TcpackSupModule where
  tcpackInfoCnt : Int
  tcpackInfoTbl : Nat → TcpackInfo
  /-- A pending timer has been written over: it denies it, and the kernel's queue still holds it. -/
  timerLost : Bool

def newModule : TcpackSupModule := ⟨0, fun _ => .zero, false⟩

inductive Effect
  | freed (pkt : Nat)
  | sent (ifidx pkt : Nat)
deriving DecidableEq

structure Dhd where
  tcpackSupMode : SupMode
  tcpackSupRatio : Nat
  tcpackSupModule : Option TcpackSupModule
  /-- The packets' buffers. -/
  frames : Nat → Option Frame
  /-- `PKTFREE` and `dhd_sendpkt` calls so far. -/
  effects : List Effect

def dhdStart : Dhd := ⟨.off, 0, none, fun _ => none, []⟩

namespace Dhd

/-- A packet that the network stack hands over. -/
def arrive (dhd : Dhd) (pkt : Nat) (frame : Frame) : Dhd :=
  { dhd with frames := update dhd.frames pkt (some frame) }

def pktfree (dhd : Dhd) (pkt : Nat) : Dhd :=
  { dhd with frames := update dhd.frames pkt none, effects := dhd.effects ++ [.freed pkt] }

/-- The table, all empty where there is no module. -/
def tbl (dhd : Dhd) : Nat → TcpackInfo :=
  match dhd.tcpackSupModule with
  | none => fun _ => .zero
  | some mod => mod.tcpackInfoTbl

def timerLost (dhd : Dhd) : Bool := (dhd.tcpackSupModule.map (·.timerLost)).getD false

def withModule (dhd : Dhd) (module' : TcpackSupModule) : Dhd :=
  { dhd with tcpackSupModule := some module' }

end Dhd

theorem tbl_of {dhd : Dhd} {mod : TcpackSupModule} (present : dhd.tcpackSupModule = some mod) :
    dhd.tbl = mod.tcpackInfoTbl := by
  unfold Dhd.tbl
  rw [present]

namespace TcpackSupModule

def setInfo (module' : TcpackSupModule) (i : Nat) (info : TcpackInfo) : TcpackSupModule :=
  { module' with tcpackInfoTbl := update module'.tcpackInfoTbl i info }

def count (module' : TcpackSupModule) (cnt : Int) : TcpackSupModule :=
  { module' with tcpackInfoCnt := cnt }

/-- The timers of the entries `indices` are about to be written over. -/
def overwriting (module' : TcpackSupModule) (indices : List Nat) : TcpackSupModule :=
  { module' with
    timerLost := module'.timerLost || indices.any fun i => (module'.tcpackInfoTbl i).timer }

end TcpackSupModule

/-- The handler of entry `i`'s timer. -/
def dhdTcpackSend (dhd : Dhd) (i : Nat) : Dhd :=
  match dhd.tcpackSupModule with
  | none => dhd
  | some mod =>
    let info := { mod.tcpackInfoTbl i with timer := false }
    if info.dhdp = false then dhd.withModule (mod.setInfo i info)
    else match info.pktInQ with
      | none => dhd.withModule (mod.setInfo i info)
      | some pkt =>
        let mod := (mod.setInfo i info.release).count (mod.tcpackInfoCnt - 1)
        { dhd.withModule mod with effects := dhd.effects ++ [.sent info.ifidx pkt] }

/-- Free the packets of the entries `indices` and clear these. -/
def freeHeld (dhd : Dhd) (mod : TcpackSupModule) : List Nat → Dhd × TcpackSupModule
  | [] => (dhd, mod)
  | i :: rest =>
    match (mod.tcpackInfoTbl i).pktInQ with
    | none => freeHeld dhd mod rest
    | some pkt => freeHeld (dhd.pktfree pkt) (mod.setInfo i (mod.tcpackInfoTbl i).release) rest

theorem freeHeld_mode (dhd : Dhd) (mod : TcpackSupModule) (indices : List Nat) :
    (freeHeld dhd mod indices).1.tcpackSupMode = dhd.tcpackSupMode := by
  induction indices generalizing dhd mod with
  | nil => rfl
  | cons i rest ih =>
    unfold freeHeld
    split
    · exact ih dhd mod
    · exact ih _ _

theorem freeHeld_cnt (dhd : Dhd) (mod : TcpackSupModule) (indices : List Nat) :
    (freeHeld dhd mod indices).2.tcpackInfoCnt = mod.tcpackInfoCnt := by
  induction indices generalizing dhd mod with
  | nil => rfl
  | cons i rest ih =>
    unfold freeHeld
    split
    · exact ih dhd mod
    · exact ih _ _

theorem freeHeld_empty (dhd : Dhd) (mod : TcpackSupModule) (indices : List Nat) {i : Nat}
    (empty : (mod.tcpackInfoTbl i).pktInQ = none) :
    ((freeHeld dhd mod indices).2.tcpackInfoTbl i).pktInQ = none := by
  induction indices generalizing dhd mod with
  | nil => exact empty
  | cons first rest ih =>
    unfold freeHeld
    split
    · exact ih dhd mod empty
    · apply ih
      change (update mod.tcpackInfoTbl first _ i).pktInQ = none
      by_cases same : i = first
      · rw [same, update_self]
        rfl
      · rw [update_of_ne same, empty]

theorem freeHeld_cleared (dhd : Dhd) (mod : TcpackSupModule) (indices : List Nat) {i : Nat}
    (member : i ∈ indices) : ((freeHeld dhd mod indices).2.tcpackInfoTbl i).pktInQ = none := by
  induction indices generalizing dhd mod with
  | nil => simp at member
  | cons first rest ih =>
    unfold freeHeld
    rcases List.mem_cons.mp member with rfl | later
    · split
      · rename_i empty
        exact freeHeld_empty dhd mod rest empty
      · apply freeHeld_empty
        change (update mod.tcpackInfoTbl i _ i).pktInQ = none
        rw [update_self]
        rfl
    · split
      · exact ih dhd mod later
      · exact ih _ _ later

def delTimers (mod : TcpackSupModule) : TcpackSupModule :=
  { mod with tcpackInfoTbl := fun i =>
      if i < tcpackInfoMaxnum then { mod.tcpackInfoTbl i with timer := false }
      else mod.tcpackInfoTbl i }

@[simp] theorem delTimers_pktInQ (mod : TcpackSupModule) (i : Nat) :
    ((delTimers mod).tcpackInfoTbl i).pktInQ = (mod.tcpackInfoTbl i).pktInQ := by
  dsimp only [delTimers]
  split <;> rfl

def dhdTcpackInfoTblClean (dhd : Dhd) : Dhd :=
  if dhd.tcpackSupMode = .off then dhd
  else match dhd.tcpackSupModule with
    | none => dhd
    | some mod =>
      if dhd.tcpackSupMode = .hold then
        let freed := freeHeld dhd mod (List.range tcpackInfoMaxnum)
        freed.1.withModule (delTimers freed.2)
      else dhd.withModule { mod.overwriting (List.range tcpackInfoMaxnum) with
        tcpackInfoCnt := 0,
        tcpackInfoTbl := fun i => if i < tcpackInfoMaxnum then .zero else mod.tcpackInfoTbl i }

/-- Every entry gets its driver and a timer that was never started. -/
def initTimers (mod : TcpackSupModule) : TcpackSupModule :=
  { mod.overwriting (List.range tcpackInfoMaxnum) with
    tcpackInfoTbl := fun i =>
      if i < tcpackInfoMaxnum then { mod.tcpackInfoTbl i with dhdp := true, timer := false }
      else mod.tcpackInfoTbl i }

@[simp] theorem initTimers_pktInQ (mod : TcpackSupModule) (i : Nat) :
    ((initTimers mod).tcpackInfoTbl i).pktInQ = (mod.tcpackInfoTbl i).pktInQ := by
  dsimp only [initTimers]
  split <;> rfl

/-- `allocated` says whether `MALLOC` found memory for a new module. -/
def dhdTcpackSuppressSet (dhd : Dhd) (mode : UInt8) (allocated : Bool) : Dhd × Int :=
  if supModeOf mode = some dhd.tcpackSupMode then (dhd, bcmeOk)
  else match supModeOf mode with
    | none => (dhd, bcmeBadarg)
    | some .delaytx => (dhd, bcmeBadarg)
    | some .off =>
      -- the clean-up finds the mode off already and does nothing
      let dhd := dhdTcpackInfoTblClean { dhd with tcpackSupMode := .off }
      ({ dhd with tcpackSupModule := none }, bcmeOk)
    | some mode =>
      let dhd := { dhd with tcpackSupMode := mode }
      if dhd.tcpackSupModule.isNone && !allocated then
        ({ dhd with tcpackSupMode := .off }, bcmeNomem)
      else
        let mod := dhd.tcpackSupModule.getD newModule
        if mode = .hold then
          ({ dhd with tcpackSupRatio := customTcpackSuppRatio }.withModule (initTimers mod), bcmeOk)
        else (dhd.withModule mod, bcmeOk)

/-- `pktlen` is the packet's length without the headers pushed for the dongle. -/
def dhdTcpackCheckXmit (dhd : Dhd) (pkt pktlen : Nat) : Dhd × Int :=
  if dhd.tcpackSupMode = .off then (dhd, bcmeOk)
  else if pktlen < tcpackszmin || pktlen > tcpackszmax then (dhd, bcmeOk)
  else match dhd.tcpackSupModule with
    | none => (dhd, bcmeError)
    | some mod =>
      let tblCnt := mod.tcpackInfoCnt.toNat
      match (List.range tblCnt).find? fun i => (mod.tcpackInfoTbl i).pktInQ == some pkt with
      | none => (dhd, bcmeOk)
      | some i =>
        let last := mod.tcpackInfoTbl (tblCnt - 1)
        let moved := if i < tblCnt - 1 then mod.setInfo i last else mod
        let tcpackInfoCnt := mod.tcpackInfoCnt - 1
        let moved := (moved.setInfo (tblCnt - 1) .zero).count tcpackInfoCnt
        (dhd.withModule { moved with timerLost := (mod.overwriting [i, tblCnt - 1]).timerLost },
          if tcpackInfoCnt < 0 then bcmeError else bcmeOk)

/-- Where a search of the table ends. -/
inductive Search
  | found (i oldpkt : Nat) (old : Frame)
  | broken
  | ended

/-- The first of the entries `indices` that holds a packet of `flow`. -/
def findQueued (frames : Nat → Option Frame) (tbl : Nat → TcpackInfo)
    (flow : List UInt8 × List UInt8) : List Nat → Search
  | [] => .ended
  | i :: rest =>
    match (tbl i).pktInQ with
    | none => .broken
    | some oldpkt =>
      match frames oldpkt with
      | none => .broken
      | some old => if old.flow = flow then .found i oldpkt old else findQueued frames tbl flow rest

section

variable {frames : Nat → Option Frame} {tbl : Nat → TcpackInfo}
  {flow : List UInt8 × List UInt8} {indices : List Nat}

theorem findQueued_found {i oldpkt : Nat} {old : Frame}
    (found : findQueued frames tbl flow indices = .found i oldpkt old) :
    i ∈ indices ∧ (tbl i).pktInQ = some oldpkt ∧ frames oldpkt = some old ∧ old.flow = flow := by
  induction indices with
  | nil => cases found
  | cons first rest ih =>
    unfold findQueued at found
    split at found
    · cases found
    · rename_i queued
      split at found
      · cases found
      · rename_i buffered
        split at found
        · rename_i same
          cases found
          exact ⟨by simp, queued, buffered, same⟩
        · obtain ⟨member, entry⟩ := ih found
          exact ⟨by simp [member], entry⟩

theorem findQueued_ended (ended : findQueued frames tbl flow indices = .ended) :
    ∀ i ∈ indices, ∃ oldpkt old, (tbl i).pktInQ = some oldpkt ∧ frames oldpkt = some old ∧
      old.flow ≠ flow := by
  induction indices with
  | nil => simp
  | cons first rest ih =>
    unfold findQueued at ended
    split at ended
    · cases ended
    · rename_i oldpkt queued
      split at ended
      · cases ended
      · rename_i old buffered
        split at ended
        · cases ended
        · rename_i apart
          intro i member
          rcases List.mem_cons.mp member with rfl | later
          · exact ⟨oldpkt, old, queued, buffered, apart⟩
          · exact ih ended i later

end

/-- Copy the new IP packet over the old one. -/
def Frame.overwrite (old new : Frame) : Frame :=
  { old with data := store old.data etherHdrLen new.ipPacket }

/-- `pkt` was handed over with `new` in its buffer. The answer tells whether it
has been consumed. -/
def dhdTcpackSuppress (order : TcpSeq) (dhd : Dhd) (pkt : Nat) (new : Frame) : Dhd × Bool :=
  if dhd.tcpackSupMode = .off then (dhd, false)
  else if ¬ new.LooksAck then (dhd, false)
  else match dhd.tcpackSupModule with
    -- `BCME_ERROR` is returned as a truth value
    | none => (dhd, true)
    | some mod =>
      let tblCnt := mod.tcpackInfoCnt.toNat
      match findQueued dhd.frames mod.tcpackInfoTbl new.flow (List.range tblCnt) with
      | .found _ oldpkt old =>
        if order.gt new.tcpAckNum old.tcpAckNum then
          if new.ipHdrLen = old.ipHdrLen ∧ new.tcpHdrLen = old.tcpHdrLen then
            let frames := update dhd.frames oldpkt (some (old.overwrite new))
            ({ dhd with frames := frames }.pktfree pkt, true)
          else (dhd, false)
        else (dhd, false)
      | .broken => (dhd, false)
      | .ended =>
        if tblCnt < tcpackInfoMaxnum then
          let info := { mod.tcpackInfoTbl tblCnt with pktInQ := some pkt }
          (dhd.withModule ((mod.setInfo tblCnt info).count (mod.tcpackInfoCnt + 1)), false)
        else (dhd, false)

/-- Where a search for a held packet ends; empty entries are passed over and the
first of them is noted. -/
inductive HeldSearch
  | found (i oldpkt : Nat) (old : Frame)
  | broken
  | ended (freeSlot : Option Nat)

def findHeld (frames : Nat → Option Frame) (tbl : Nat → TcpackInfo)
    (flow : List UInt8 × List UInt8) : List Nat → Option Nat → HeldSearch
  | [], freeSlot => .ended freeSlot
  | i :: rest, freeSlot =>
    match (tbl i).pktInQ with
    | none => findHeld frames tbl flow rest (freeSlot.orElse fun _ => some i)
    | some oldpkt =>
      match frames oldpkt with
      | none => .broken
      | some old =>
        if old.flow = flow then .found i oldpkt old else findHeld frames tbl flow rest freeSlot

section

variable {frames : Nat → Option Frame} {tbl : Nat → TcpackInfo}
  {flow : List UInt8 × List UInt8} {indices : List Nat} {freeSlot : Option Nat}

theorem findHeld_found {i oldpkt : Nat} {old : Frame}
    (found : findHeld frames tbl flow indices freeSlot = .found i oldpkt old) :
    i ∈ indices ∧ (tbl i).pktInQ = some oldpkt ∧ frames oldpkt = some old ∧ old.flow = flow := by
  induction indices generalizing freeSlot with
  | nil => cases found
  | cons first rest ih =>
    unfold findHeld at found
    split at found
    · obtain ⟨member, entry⟩ := ih found
      exact ⟨by simp [member], entry⟩
    · rename_i queued
      split at found
      · cases found
      · rename_i buffered
        split at found
        · rename_i same
          cases found
          exact ⟨by simp, queued, buffered, same⟩
        · obtain ⟨member, entry⟩ := ih found
          exact ⟨by simp [member], entry⟩

theorem findHeld_broken (broken : findHeld frames tbl flow indices freeSlot = .broken) :
    ∃ i ∈ indices, ∃ oldpkt, (tbl i).pktInQ = some oldpkt ∧ frames oldpkt = none := by
  induction indices generalizing freeSlot with
  | nil => cases broken
  | cons first rest ih =>
    unfold findHeld at broken
    split at broken
    · obtain ⟨i, member, entry⟩ := ih broken
      exact ⟨i, by simp [member], entry⟩
    · rename_i oldpkt queued
      split at broken
      · rename_i gone
        exact ⟨first, by simp, oldpkt, queued, gone⟩
      · split at broken
        · cases broken
        · obtain ⟨i, member, entry⟩ := ih broken
          exact ⟨i, by simp [member], entry⟩

/-- A search that comes back with nothing has met packets of other flows only. -/
theorem findHeld_full (ended : findHeld frames tbl flow indices freeSlot = .ended none) :
    freeSlot = none ∧ ∀ i ∈ indices, ∃ oldpkt old, (tbl i).pktInQ = some oldpkt ∧
      frames oldpkt = some old ∧ old.flow ≠ flow := by
  induction indices generalizing freeSlot with
  | nil =>
    simp only [findHeld, HeldSearch.ended.injEq] at ended
    exact ⟨ended, by simp⟩
  | cons first rest ih =>
    unfold findHeld at ended
    split at ended
    · -- an empty entry would have been noted
      obtain ⟨noted, _⟩ := ih ended
      cases freeSlot with
      | none => cases noted
      | some slot => cases noted
    · rename_i oldpkt queued
      split at ended
      · cases ended
      · rename_i old buffered
        split at ended
        · cases ended
        · rename_i apart
          obtain ⟨noted, others⟩ := ih ended
          refine ⟨noted, fun i member => ?_⟩
          rcases List.mem_cons.mp member with rfl | later
          · exact ⟨oldpkt, old, queued, buffered, apart⟩
          · exact others i later

/-- The empty entry a search comes back with is one of those it passed. -/
theorem findHeld_free {slot : Nat}
    (ended : findHeld frames tbl flow indices freeSlot = .ended (some slot)) :
    freeSlot = some slot ∨ slot ∈ indices ∧ (tbl slot).pktInQ = none := by
  induction indices generalizing freeSlot with
  | nil =>
    simp only [findHeld, HeldSearch.ended.injEq] at ended
    exact Or.inl ended
  | cons first rest ih =>
    unfold findHeld at ended
    split at ended
    · rename_i empty
      rcases ih ended with noted | ⟨member, found⟩
      · cases freeSlot with
        | some noted' => exact Or.inl noted
        | none =>
          cases noted
          exact Or.inr ⟨by simp, empty⟩
      · exact Or.inr ⟨by simp [member], found⟩
    · split at ended
      · cases ended
      · split at ended
        · cases ended
        · rcases ih ended with noted | ⟨member, found⟩
          · exact Or.inl noted
          · exact Or.inr ⟨by simp [member], found⟩

end

/-- The answer tells whether the packet has been held back or freed. -/
def dhdTcpackHold (order : TcpSeq) (dhd : Dhd) (pkt : Nat) (new : Frame) (ifidx : Nat) :
    Dhd × Bool :=
  if dhd.tcpackSupMode ≠ .hold then (dhd, false)
  else if dhd.tcpackSupRatio = 1 then (dhd, false)
  else if ¬ new.LooksAck then (dhd, false)
  else match dhd.tcpackSupModule with
    | none => (dhd, false)
    | some mod =>
      match findHeld dhd.frames mod.tcpackInfoTbl new.flow (List.range tcpackInfoMaxnum) none with
      | .broken => (dhd, false)
      | .found i oldpkt old =>
        if order.ge new.tcpAckNum old.tcpAckNum then
          let info := mod.tcpackInfoTbl i
          let suppCnt := info.suppCnt + 1
          if dhd.tcpackSupRatio ≤ suppCnt.toNat then
            -- enough ACKs held back: the caller sends the new one, and the timer is deleted
            let info := { info.release with timer := false }
            ((dhd.withModule (mod.setInfo i info)).pktfree oldpkt, false)
          else
            let info := { info with pktInQ := some pkt, ifidx := ifidx, suppCnt := suppCnt }
            ((dhd.withModule (mod.setInfo i info)).pktfree oldpkt, true)
        else (dhd.pktfree pkt, true)
      | .ended (some freeSlot) =>
        let info := { mod.tcpackInfoTbl freeSlot with
          pktInQ := some pkt, ifidx := ifidx, suppCnt := 1, timer := true }
        (dhd.withModule ((mod.setInfo freeSlot info).count (mod.tcpackInfoCnt + 1)), true)
      -- no empty entry either
      | .ended none => (dhd, true)

end BcmDhd.TcpAck
