import BcmDhd.Lib.FixedBuffer
import BcmDhd.Wps.RegSm

/-! EAP packets that carry WPS messages, and their fragments. -/

namespace BcmDhd.Wps

open BcmDhd.Lib

def wpsEapDataMaxLength : Nat := 2048
def eapWpsFragMax : Nat := 1398
def eapWpsFlagsMf : UInt8 := 0x01
def eapWpsFlagsLf : UInt8 := 0x02
def eapWpsLfOffset : Nat := 2
def wpsMsgtypeOffset : Nat := 9
def sizeofWpsEapHdr : Nat := 14

def eapCodeRequest : UInt8 := 1
def eapCodeResponse : UInt8 := 2
def eapCodeFailure : UInt8 := 4
def eapTypeIdentity : UInt8 := 1
def eapTypeWps : UInt8 := 254

def opWpsStart : UInt8 := 0x01
def opWpsAck : UInt8 := 0x02
def opWpsNack : UInt8 := 0x03
def opWpsMsg : UInt8 := 0x04
def opWpsDone : UInt8 := 0x05
def opWpsFragAck : UInt8 := 0x06

/-- `WpsNtohs` of the two bytes at `place`. -/
def wpsNtohs (memory : Lib.Memory) (place : Nat) : Nat :=
  (memory place).toNat * 256 + (memory (place + 1)).toNat

/-- The bytes of `WpsHtons`, for the low 16 bits of a number. -/
def wpsHtons (value : Nat) : Bytes := [UInt8.ofNat (value / 256), UInt8.ofNat value]

@[simp] theorem length_wpsHtons (value : Nat) : (wpsHtons value).length = 2 := rfl

def eapCode (memory : Lib.Memory) (at_ : Nat) : UInt8 := memory at_
def eapIdentifier (memory : Lib.Memory) (at_ : Nat) : UInt8 := memory (at_ + 1)
def eapLength (memory : Lib.Memory) (at_ : Nat) : Nat := wpsNtohs memory (at_ + 2)
def eapType (memory : Lib.Memory) (at_ : Nat) : UInt8 := memory (at_ + 4)
def eapOpcode (memory : Lib.Memory) (at_ : Nat) : UInt8 := memory (at_ + 12)
def eapFlags (memory : Lib.Memory) (at_ : Nat) : UInt8 := memory (at_ + 13)

/-- The header up to the opcode: code, identifier, length, type, vendor id and type. -/
def eapHdrStart (code id : UInt8) (length : Nat) : Bytes :=
  [code, id] ++ wpsHtons length ++ [eapTypeWps, 0x00, 0x37, 0x2A, 0, 0, 0, 1]

def eapHdr (code id : UInt8) (length : Nat) (opcode flags : UInt8) : Bytes :=
  eapHdrStart code id length ++ [opcode, flags]

/-- The outgoing message and how far its fragments have been sent. `nextFragToSend` and
`lastSent` are offsets in `msgToSend`; the first is 0 while no fragment is under way. -/
structure Outgoing where
  msgToSend : FixedBuffer wpsEapDataMaxLength
  nextFragToSend : Nat
  fragSize : Int
  eapFragThreshold : Nat
  lastSent : Nat
  lastSentLen : Nat

def Outgoing.fragmenting (out : Outgoing) : Bool := out.nextFragToSend ≠ 0

/-- The opcode for a message by its type. -/
def messageOpcode (msgType : UInt8) : Option UInt8 :=
  if 4 ≤ msgType ∧ msgType ≤ 12 then some opWpsMsg
  else if msgType = 13 then some opWpsAck
  else if msgType = 14 then some opWpsNack
  else if msgType = 15 then some opWpsDone
  else none

/-- What stands in front of the EAP header: its length, and its bytes for an EAP
packet of a given length. -/
structure LinkHeader where
  bytes : Nat → Bytes
  size : Nat
  sized : ∀ eapLen, (bytes eapLen).length = size

variable (link : LinkHeader)

/-- Put the link header at `start`, the EAP packet behind it, and send both. -/
def Outgoing.sendPacket (out : Outgoing) (start : Nat) (eapData : Source) (eapLen : Nat) :
    Outgoing × Bytes :=
  let headed := out.msgToSend.write start (link.bytes eapLen)
  let placed := match eapData with
    | .inside place => if start + link.size = place then headed
      else headed.copy (start + link.size) eapData eapLen
    | .outside _ => headed.copy (start + link.size) eapData eapLen
  let sent := placed.touch start (link.size + eapLen)
  let out := { out with msgToSend := sent, lastSent := start, lastSentLen := link.size + eapLen }
  (out, load sent.memory start (link.size + eapLen))

/-- The byte at `offset` of what a source points to. -/
def Outgoing.byteAt (out : Outgoing) (data : Source) (offset : Nat) : UInt8 :=
  match data with
  | .inside place => out.msgToSend.memory (place + offset)
  | .outside memory => memory offset

/-- Where the packet starts: two bytes are left for the length field where a message
will not be fragmented. -/
def Outgoing.packetStart (out : Outgoing) (dataLen : Nat) : Nat :=
  if dataLen < out.eapFragThreshold then eapWpsLfOffset else 0

/-- The EAP header of a message and, unless it was built in place, the message. The
result is the message's type. -/
def Outgoing.createPkt (out : Outgoing) (data : Source) (dataLen : Nat) (code id : UInt8) :
    Outgoing × Option UInt8 :=
  let lfBytes := if dataLen < out.eapFragThreshold then 0 else eapWpsLfOffset
  let eapAt := out.packetStart dataLen + link.size
  let started := out.msgToSend.write eapAt (eapHdrStart code id (sizeofWpsEapHdr + dataLen))
  let msgType := { out with msgToSend := started }.byteAt data wpsMsgtypeOffset
  match messageOpcode msgType with
  | none => ({ out with msgToSend := started }, none)
  | some opcode =>
    let headed := started.write (eapAt + 12) [opcode, 0]
    let dataAt := eapAt + sizeofWpsEapHdr + lfBytes
    let placed := match data with
      | .inside place => if place = dataAt then headed else headed.copy dataAt data dataLen
      | .outside _ => headed.copy dataAt data dataLen
    ({ out with msgToSend := placed }, some msgType)

/-- Send the packet whose EAP header is at `eapAt`, or the first fragment of it. -/
def Outgoing.sendEap (out : Outgoing) (eapAt eapLen : Nat) : Outgoing × Bytes :=
  let wpsLen := ((eapLen - sizeofWpsEapHdr : Int) % 65536).toNat
  if wpsLen ≤ out.eapFragThreshold then
    out.sendPacket link eapWpsLfOffset (.inside eapAt) eapLen
  else
    let flagged := out.msgToSend.write (eapAt + 13) [eapWpsFlagsMf ||| eapWpsFlagsLf]
    let shortened := flagged.write (eapAt + 2) (wpsHtons (sizeofWpsEapHdr + out.eapFragThreshold))
    let announced := shortened.write (eapAt + sizeofWpsEapHdr) (wpsHtons wpsLen)
    let out := { out with
      msgToSend := announced, nextFragToSend := link.size, fragSize := wpsLen }
    out.sendPacket link 0 (.inside eapAt) (eapLength announced.memory eapAt)

/-- Build a message's packet and send it; nothing is sent for an unknown type. -/
def Outgoing.sendMsg (out : Outgoing) (data : Source) (dataLen : Nat) (code id : UInt8) :
    Outgoing × Option (UInt8 × Bytes) :=
  let created := out.createPkt link data dataLen code id
  match created.2 with
  | none => (created.1, none)
  | some msgType =>
    let eapAt := created.1.packetStart dataLen + link.size
    let sent := created.1.sendEap link eapAt (eapLength created.1.msgToSend.memory eapAt)
    (sent.1, some (msgType, sent.2))

/-- The header of a fragment: that of the message, with its own identifier, flags and length. -/
def createFragHdr (buffer : FixedBuffer wpsEapDataMaxLength) (eapAt messageAt : Nat)
    (id flags : UInt8) (length : Nat) : FixedBuffer wpsEapDataMaxLength :=
  let copied := buffer.copy eapAt (.inside messageAt) sizeofWpsEapHdr
  let marked := (copied.write (eapAt + 1) [id]).write (eapAt + 13) [flags]
  marked.write (eapAt + 2) (wpsHtons length)

/-- Send the fragment at `nextFragToSend`. Its headers are written over the bytes in
front of it, which have been sent. -/
def Outgoing.sendNextFrag (out : Outgoing) (eapId : UInt8) : Outgoing × Bytes :=
  let maxToSend := if out.fragSize < out.eapFragThreshold then out.fragSize
    else (out.eapFragThreshold : Int)
  let flags := if maxToSend < out.fragSize then eapWpsFlagsMf else 0
  let start := out.nextFragToSend - (link.size + sizeofWpsEapHdr)
  let eapAt := start + link.size
  let length := ((sizeofWpsEapHdr + maxToSend) % 65536).toNat
  let headed := createFragHdr out.msgToSend eapAt link.size eapId flags length
  ({ out with msgToSend := headed }).sendPacket link start (.inside eapAt)
    (eapLength headed.memory eapAt)

/-- A fragment has been acknowledged. The first one carried the length field, too. -/
def Outgoing.advance (out : Outgoing) : Outgoing :=
  if out.nextFragToSend = link.size then
    { out with
      nextFragToSend := out.nextFragToSend + (out.eapFragThreshold + sizeofWpsEapHdr)
      fragSize := out.fragSize - (out.eapFragThreshold - eapWpsLfOffset : Int) }
  else
    { out with
      nextFragToSend := out.nextFragToSend + out.eapFragThreshold
      fragSize := out.fragSize - out.eapFragThreshold }

/-- `uint32` arithmetic. -/
def toUint32 (value : Int) : Int := value % 4294967296

/-- What a 32-bit `int` holds. -/
def toInt32 (value : Int) : Int := (value + 2147483648) % 4294967296 - 2147483648

structure Reassembly where
  fragsReceived : FixedBuffer wpsEapDataMaxLength
  totalBytesToRecv : Int
  totalReceived : Int

def Reassembly.reassembling (r : Reassembly) (eapMsg : Lib.Memory) : Bool :=
  r.totalBytesToRecv ≠ 0 ∨ eapFlags eapMsg 0 &&& eapWpsFlagsMf ≠ 0

/-- The EAP length field without the header, in a `uint32`. -/
def wpsLen (eapMsg : Lib.Memory) : Int := toUint32 (eapLength eapMsg 0 - sizeofWpsEapHdr)

/-- Copy to `frags_received` as `memcpy` does: a negative place, and a size that has
wrapped around, leave the array. -/
def copyFrag (buffer : FixedBuffer wpsEapDataMaxLength) (place : Int) (eapMsg : Lib.Memory)
    (start : Nat) (count : Int) : FixedBuffer wpsEapDataMaxLength :=
  if 0 ≤ place ∧ place + count ≤ wpsEapDataMaxLength then
    buffer.write place.toNat (load eapMsg start count.toNat)
  else { buffer with intact := false }

/-- The length field is left out of the first fragment. -/
def Reassembly.lfBytes (r : Reassembly) : Nat := if r.totalReceived = 0 then eapWpsLfOffset else 0

/-- The first fragment brings the header. -/
def Reassembly.takeHdr (r : Reassembly) (eapMsg : Lib.Memory) : Reassembly :=
  if r.totalReceived = 0 then
    { r with
      fragsReceived := r.fragsReceived.write 0 (load eapMsg 0 sizeofWpsEapHdr)
      totalReceived := sizeofWpsEapHdr }
  else r

/-- The number of bytes that is given to `memcpy`. -/
def Reassembly.copied (r : Reassembly) (eapMsg : Lib.Memory) : Int :=
  toUint32 (wpsLen eapMsg - r.lfBytes)

def Reassembly.takeData (r : Reassembly) (eapMsg : Lib.Memory) : Reassembly :=
  let begun := r.takeHdr eapMsg
  { begun with
    fragsReceived := copyFrag begun.fragsReceived begun.totalReceived eapMsg
      (sizeofWpsEapHdr + r.lfBytes) (r.copied eapMsg)
    totalReceived := toInt32 (begun.totalReceived + r.copied eapMsg) }

/-- All fragments are in: the header gets the length of the whole. -/
def Reassembly.adjustHdr (r : Reassembly) : Reassembly :=
  { r with fragsReceived := r.fragsReceived.write 2 (wpsHtons (r.totalReceived % 65536).toNat) }

/-- Take in one fragment whose length `exceeds` says nothing against; `none` where it does. -/
def Reassembly.processFrag (exceeds : Int → Int → Int → Bool) (r : Reassembly)
    (eapMsg : Lib.Memory) : Option Reassembly :=
  if exceeds r.totalBytesToRecv (r.totalReceived - sizeofWpsEapHdr) (wpsLen eapMsg) then none
  else if eapFlags eapMsg 0 &&& eapWpsFlagsMf ≠ 0 then some (r.takeData eapMsg)
  else some (r.takeData eapMsg).adjustHdr

/-- The WPS message of an EAP packet. -/
def messageOf (eapMsg : Lib.Memory) : Bytes :=
  load eapMsg sizeofWpsEapHdr (eapLength eapMsg 0 - sizeofWpsEapHdr)

/-- What becomes of a received packet. -/
inductive FragResult
  | refused
  | more
  | whole
deriving DecidableEq

/-- A packet for which `REASSEMBLING` holds. The announced total is read first if
there is none yet; all is forgotten once the last fragment is in. -/
def Reassembly.receive (exceeds : Int → Int → Int → Bool) (r : Reassembly) (eapMsg : Lib.Memory) :
    Reassembly × FragResult :=
  if r.totalBytesToRecv = 0 ∧ eapFlags eapMsg 0 &&& eapWpsFlagsLf = 0 then (r, .refused)
  else
    let r := if r.totalBytesToRecv = 0 then
        { r with totalBytesToRecv := wpsNtohs eapMsg sizeofWpsEapHdr } else r
    match r.processFrag exceeds eapMsg with
    | none => (r, .refused)
    | some taken =>
      if eapFlags eapMsg 0 &&& eapWpsFlagsMf ≠ 0 then (taken, .more)
      else ({ taken with totalReceived := 0, totalBytesToRecv := 0 }, .whole)

end BcmDhd.Wps
