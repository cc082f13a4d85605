import BcmDhd.Wps.EapFragment

/-! The access point's EAP state machine: one station at a time, with the fragments
that go out to it and those that come in. -/

namespace BcmDhd.Wps

open BcmDhd.Lib

abbrev EtherAddr := Vector UInt8 6

def zeroMac : EtherAddr := Vector.replicate 6 0

def etherAddrAt (memory : Lib.Memory) (place : Nat) : EtherAddr :=
  Vector.ofFn fun i => memory (place + i.val)

def eapolHeaderLen : Nat := 18
def etherType8021x : Nat := 0x888e
def eapPacketType : UInt8 := 0
def eapolLogoff : UInt8 := 2
def eapHeaderLen : Nat := 4

def eapFailure : Nat := 4
def wpsSendRetMsgCont : Nat := 0x1019
def wpsIgnoreMsgCont : Nat := 0x101C
def wpsErrEnrollmentPinfail : Nat := 0x1015
def treapErrSendrecv : Nat := 0x5301
def wpsErrorMsgTimeout : Nat := 16

def wpsPrivateIdWpsStart : UInt8 := 17

inductive ApEapState
  | init
  | eapolStartSent
  | eapStartSend
  | processingProtocol
  | regSuccessful
  | regFailed
  | eapTimeout
  | eapFailured
deriving DecidableEq

inductive ScMode
  | unknown
  | staEnrollee
  | staRegistrar
  | apEnrollee
  | apRegistrar
deriving DecidableEq

inductive WpsId
  | enrollee
  | registrar
  | none
deriving DecidableEq

/-- What `wps_processMsg` answers: a code, the bytes it has left in the output
buffer, and the length it reports for them. -/
structure WpsReply (Mc : Type) where
  code : Nat
  written : Bytes
  msgLen : Nat
  mcDev : Mc

/-- The registration protocol behind the EAP state machine. -/
structure WpsApi (Mc : Type) where
  getMode : Mc → ScMode
  processMsg : Mc → Option (Lib.Memory × Nat) → WpsReply Mc

structure EapWpsApState (Mc : Type) where
  state : ApEapState
  sentMsgId : UInt8
  recvMsgId : UInt8
  staMac : EtherAddr
  bssid : EtherAddr
  eapId : UInt8
  out : Outgoing
  msgLen : Nat
  reassembly : Reassembly
  resentCount : Nat
  mcDev : Mc
  /-- Everything given to `send_data`. -/
  sentData : List Bytes

variable {Mc : Type}

namespace EapWpsApState

/-- `WPS_STA_ACTIVE` -/
def staActive (s : EapWpsApState Mc) : Bool := s.staMac ≠ zeroMac

def link (s : EapWpsApState Mc) : LinkHeader where
  bytes eapLen := s.staMac.toList ++ s.bssid.toList ++ [0x88, 0x8e, 1, eapPacketType] ++ wpsHtons eapLen
  size := eapolHeaderLen
  sized _ := by simp [eapolHeaderLen, wpsHtons]

def sent (s : EapWpsApState Mc) (packet : Outgoing × Bytes) : EapWpsApState Mc :=
  { s with out := packet.1, sentData := s.sentData ++ [packet.2] }

end EapWpsApState

inductive StaLookupMode
  | searchOnly
  | searchEnter
deriving DecidableEq

/-- Whether the station is known; with `searchEnter` a new one is taken in. -/
def lookupSta (s : EapWpsApState Mc) (staMac : EtherAddr) (mode : StaLookupMode) :
    EapWpsApState Mc × Bool :=
  if s.staActive ∧ s.staMac = staMac then (s, true)
  else if mode = .searchEnter ∧ s.staActive = false then
    ({ s with staMac := staMac, state := .init, eapId := 0 }, true)
  else (s, false)

def cleanUpSta (s : EapWpsApState Mc) : EapWpsApState Mc :=
  if s.staActive then { s with staMac := zeroMac, sentMsgId := 0, recvMsgId := 0 } else s

def identityStr : WpsId → Bytes
  | .enrollee => "WFA-SimpleConfig-Enrollee-1-0".toList.map fun c => UInt8.ofNat c.toNat
  | .registrar => "WFA-SimpleConfig-Registrar-1-0".toList.map fun c => UInt8.ofNat c.toNat
  | .none => []

def apEapSmGetWpsid (msg : Lib.Memory) : WpsId :=
  if msg (eapolHeaderLen + 4) ≠ eapTypeIdentity then .none
  else
    let names (id : WpsId) : Bool := load msg (eapolHeaderLen + 5) (identityStr id).length = identityStr id
    if names .enrollee then .enrollee else if names .registrar then .registrar else .none

def apEapSmSendEapol (s : EapWpsApState Mc) (start : Nat) (eapData : Source) (eapLen : Nat) :
    EapWpsApState Mc :=
  s.sent (s.out.sendPacket s.link start eapData eapLen)

def apEapSmSendNextFrag (s : EapWpsApState Mc) : EapWpsApState Mc :=
  s.sent (s.out.sendNextFrag s.link s.eapId)

def apEapSmSendEap (s : EapWpsApState Mc) (eapAt eapLen : Nat) : EapWpsApState Mc :=
  s.sent (s.out.sendEap s.link eapAt eapLen)

def apEapSmSendFailure (s : EapWpsApState Mc) : EapWpsApState Mc :=
  let hdr := [eapCodeFailure, s.eapId] ++ wpsHtons 4 ++ List.replicate 10 0
  let s := { s with out := { s.out with msgToSend := s.out.msgToSend.write eapolHeaderLen hdr } }
  { apEapSmSendEapol s 0 (.inside eapolHeaderLen) 4 with state := .eapStartSend }

def apEapSmFailure (s : EapWpsApState Mc) : EapWpsApState Mc :=
  cleanUpSta (apEapSmSendFailure { s with state := .eapFailured })

/-- Give a message to the registration protocol; its answer is built in place. -/
def wpsProcessMsg (api : WpsApi Mc) (s : EapWpsApState Mc) (input : Option (Lib.Memory × Nat)) :
    EapWpsApState Mc × Nat :=
  let reply := api.processMsg s.mcDev input
  let built := s.out.msgToSend.write (eapolHeaderLen + sizeofWpsEapHdr + eapWpsLfOffset) reply.written
  ({ s with out := { s.out with msgToSend := built }, msgLen := reply.msgLen, mcDev := reply.mcDev },
    reply.code)

def apEapSmReqStart (api : WpsApi Mc) (s : EapWpsApState Mc) : EapWpsApState Mc × Nat :=
  wpsProcessMsg api s none

def apEapSmProcessProtocol (api : WpsApi Mc) (s : EapWpsApState Mc) (eapMsg : Lib.Memory) :
    EapWpsApState Mc × Nat :=
  let inData : Lib.Memory := fun place => eapMsg (sizeofWpsEapHdr + place)
  let s := if eapOpcode eapMsg 0 ≠ opWpsStart then
    { s with recvMsgId := inData wpsMsgtypeOffset } else s
  wpsProcessMsg api s (some (inData, (wpsLen eapMsg).toNat))

/-- `IS_EAP_TYPE_WPS` -/
def apIsEapTypeWps (eapMsg : Lib.Memory) : Bool :=
  eapCode eapMsg 0 = eapCodeResponse ∧ eapType eapMsg 0 = eapTypeWps

def apEapSmStaValidate (s : EapWpsApState Mc) (eapol : Lib.Memory) : EapWpsApState Mc × Nat :=
  let type := eapol (eapolHeaderLen + 4)
  if wpsNtohs eapol 12 ≠ etherType8021x then (s, wpsErrGeneric)
  else if eapol 15 = eapolLogoff then (s, wpsCont)
  else if wpsNtohs eapol 16 ≤ eapHeaderLen ∨ eapol 15 ≠ eapPacketType ∨
      (type ≠ eapTypeWps ∧ type ≠ eapTypeIdentity) then (s, wpsErrGeneric)
  else
    let found := lookupSta s (etherAddrAt eapol 6) .searchEnter
    if found.2 then (found.1, wpsSuccess) else (found.1, wpsErrGeneric)

/-- Whether a packet is a new one; the station is dropped for one that cannot be. -/
def apEapSmStaRetrans (s : EapWpsApState Mc) (eapol : Lib.Memory) : EapWpsApState Mc × Nat :=
  let eapMsg : Lib.Memory := fun place => eapol (eapolHeaderLen + place)
  let id := eapIdentifier eapMsg 0
  let previous : Bool := id.toNat + 1 = s.eapId.toNat
  if apIsEapTypeWps eapMsg ∧ (s.out.fragmenting ∨ s.reassembly.reassembling eapMsg) then
    (s, if previous then wpsIgnoreMsgCont else wpsCont)
  else match s.state with
    | .init =>
      if eapType eapMsg 0 ≠ eapTypeIdentity then (s, wpsErrGeneric)
      else if id ≠ s.eapId ∨ eapCode eapMsg 0 ≠ eapCodeResponse then (cleanUpSta s, wpsErrGeneric)
      else ({ s with bssid := etherAddrAt eapol 0 }, wpsCont)
    | .eapStartSend | .processingProtocol =>
      let expected : Bool := (s.sentMsgId = 5 ∨ s.sentMsgId = 6) ∧ (eapOpcode eapMsg 0 = opWpsAck ∨
        eapOpcode eapMsg 0 = opWpsMsg ∧ eapMsg (sizeofWpsEapHdr + wpsMsgtypeOffset) = 7)
      if eapCode eapMsg 0 ≠ eapCodeResponse then (cleanUpSta s, wpsErrGeneric)
      else if id = s.eapId ∨ expected then (s, wpsCont)
      else if previous then (s, wpsIgnoreMsgCont)
      else (cleanUpSta s, wpsErrGeneric)
    | _ => (s, wpsCont)

def apEapSmCreatePkt (s : EapWpsApState Mc) (data : Source) (dataLen : Nat) (code : UInt8) :
    EapWpsApState Mc × Nat :=
  let created := s.out.createPkt s.link data dataLen code s.eapId
  match created.2 with
  | none => ({ s with out := created.1 }, treapErrSendrecv)
  | some msgType => ({ s with out := created.1, sentMsgId := msgType }, wpsSuccess)

def apEapSmSendMsg (s : EapWpsApState Mc) (data : Source) (dataLen : Nat) : EapWpsApState Mc × Nat :=
  let created := apEapSmCreatePkt s data dataLen eapCodeRequest
  if created.2 = wpsSuccess then
    let eapAt := created.1.out.packetStart dataLen + eapolHeaderLen
    let sent := apEapSmSendEap created.1 eapAt (eapLength created.1.out.msgToSend.memory eapAt)
    ({ sent with state := .processingProtocol }, wpsSuccess)
  else (apEapSmFailure created.1, treapErrSendrecv)

def apEapSmSendWpsStart (s : EapWpsApState Mc) : EapWpsApState Mc × Nat :=
  if s.staActive then
    let hdr := eapHdr eapCodeRequest s.eapId sizeofWpsEapHdr opWpsStart 0
    let sent := apEapSmSendEapol s 0 (.outside (ofBytes hdr)) sizeofWpsEapHdr
    ({ sent with state := .eapStartSend, sentMsgId := wpsPrivateIdWpsStart }, wpsSuccess)
  else (s, wpsErrorMsgTimeout)

def apEapSmSendFack (s : EapWpsApState Mc) : EapWpsApState Mc × Nat :=
  if s.staActive then
    let hdr := eapHdr eapCodeRequest s.eapId sizeofWpsEapHdr opWpsFragAck 0
    (apEapSmSendEapol s 0 (.outside (ofBytes hdr)) sizeofWpsEapHdr, wpsSuccess)
  else (s, wpsErrorMsgTimeout)

def apEapSmResendLastSent (s : EapWpsApState Mc) : EapWpsApState Mc :=
  { s with
    sentData := s.sentData ++ [load s.out.msgToSend.memory s.out.lastSent s.out.lastSentLen]
    resentCount := s.resentCount + 1 }

/-- The total length check compares `uint32` numbers. -/
def apExceeds (total received len : Int) : Bool := toUint32 total < toUint32 (received + len)

def apEapSmProcessFrag (s : EapWpsApState Mc) (eapMsg : Lib.Memory) : EapWpsApState Mc × Nat :=
  match s.reassembly.processFrag apExceeds eapMsg with
  | none => (s, eapFailure)
  | some taken =>
    let s := { s with reassembly := taken }
    if eapFlags eapMsg 0 &&& eapWpsFlagsMf ≠ 0 then
      let acked := apEapSmSendFack { s with eapId := s.eapId + 1 }
      (acked.1, if acked.2 = wpsSuccess then wpsCont else acked.2)
    else (s, wpsSuccess)

/-- The peer has acknowledged a fragment. -/
def apEapSmFragAck (s : EapWpsApState Mc) : EapWpsApState Mc :=
  apEapSmSendNextFrag { s with out := s.out.advance s.link, eapId := s.eapId + 1 }

/-- What the state machine does with a whole message. -/
def apEapSmHandle (api : WpsApi Mc) (s : EapWpsApState Mc) (eapMsg : Lib.Memory) :
    EapWpsApState Mc × Nat :=
  match s.state with
  | .init => apEapSmReqStart api { s with eapId := 1 }
  | .eapStartSend | .processingProtocol =>
    let processed := apEapSmProcessProtocol api { s with eapId := s.eapId + 1 } eapMsg
    (processed.1, if processed.2 = wpsApM2dReadyCont then wpsCont else processed.2)
  | .regSuccessful => (s, 4)
  | _ => (s, wpsCont)

/-- A packet for which `REASSEMBLING` holds: `wpsSuccess` once the whole is in
`frags_received`. -/
def apEapSmGather (s : EapWpsApState Mc) (eapMsg : Lib.Memory) : EapWpsApState Mc × Nat :=
  if s.reassembly.totalBytesToRecv = 0 ∧ eapFlags eapMsg 0 &&& eapWpsFlagsLf = 0 then (s, eapFailure)
  else
    let s := if s.reassembly.totalBytesToRecv = 0 then
      { s with reassembly := { s.reassembly with
          totalBytesToRecv := wpsNtohs eapMsg sizeofWpsEapHdr } } else s
    let processed := apEapSmProcessFrag s eapMsg
    if processed.2 ≠ wpsSuccess then processed
    else
      let s := processed.1
      ({ s with reassembly := { s.reassembly with totalReceived := 0, totalBytesToRecv := 0 } }, wpsSuccess)

/-- Reassembly, in front of the state machine. -/
def apEapSmReassemble (api : WpsApi Mc) (s : EapWpsApState Mc) (eapMsg : Lib.Memory) :
    EapWpsApState Mc × Nat :=
  if apIsEapTypeWps eapMsg ∧ s.reassembly.reassembling eapMsg then
    let gathered := apEapSmGather s eapMsg
    if gathered.2 ≠ wpsSuccess then gathered
    else apEapSmHandle api gathered.1 gathered.1.reassembly.fragsReceived.memory
  else apEapSmHandle api s eapMsg

/-- While fragments go out only their acknowledgements are taken, until the last one
is out: that one is told by its size. -/
def apEapSmFragments (api : WpsApi Mc) (s : EapWpsApState Mc) (eapMsg : Lib.Memory) :
    EapWpsApState Mc × Nat :=
  if apIsEapTypeWps eapMsg ∧ s.out.fragmenting then
    if eapOpcode eapMsg 0 = opWpsFragAck then (apEapSmFragAck s, wpsCont)
    else if eapOpcode eapMsg 0 = opWpsMsg then
      if s.out.fragSize < s.out.eapFragThreshold then
        apEapSmReassemble api { s with out := { s.out with nextFragToSend := 0, fragSize := 0 } } eapMsg
      else (s, wpsCont)
    else apEapSmReassemble api s eapMsg
  else apEapSmReassemble api s eapMsg

/-- An identity response that comes again; `none` if it is to be handled as any packet. -/
def apEapSmIdentityAgain (api : WpsApi Mc) (s : EapWpsApState Mc) (msg : Lib.Memory) :
    Option (EapWpsApState Mc × Nat) :=
  match apEapSmGetWpsid msg, api.getMode s.mcDev with
  | .none, _ => some (s, wpsCont)
  | .enrollee, .apEnrollee => some (s, wpsMessageProcessingError)
  | .registrar, .apEnrollee =>
    if s.sentMsgId = 4 then some (apEapSmResendLastSent s, wpsCont) else none
  | .registrar, .apRegistrar => some (s, wpsMessageProcessingError)
  | .enrollee, .apRegistrar =>
    if s.state = .eapStartSend then some (apEapSmResendLastSent s, wpsCont) else none
  | _, _ => none

/-- A packet of the station's, unless it came before. -/
def apEapSmTakeMsg (api : WpsApi Mc) (s : EapWpsApState Mc) (eapol : Lib.Memory) :
    EapWpsApState Mc × Nat :=
  let checked := apEapSmStaRetrans s eapol
  if checked.2 = wpsIgnoreMsgCont then (checked.1, wpsCont)
  else if checked.2 ≠ wpsCont then checked
  else apEapSmFragments api checked.1 fun place => eapol (eapolHeaderLen + place)

/-- A packet from the station: `msg` as it came, `eapol` where `parse_msg` finds the
EAPOL header in it. -/
def apEapSmProcessStaMsg (api : WpsApi Mc) (s : EapWpsApState Mc) (msg : Lib.Memory)
    (eapol : Option Lib.Memory) : EapWpsApState Mc × Nat :=
  match eapol with
  | none => (s, wpsErrGeneric)
  | some eapol =>
    let valid := apEapSmStaValidate s eapol
    if valid.2 ≠ wpsSuccess then valid
    else
      let s := { valid.1 with resentCount := 0 }
      let eapMsg : Lib.Memory := fun place => eapol (eapolHeaderLen + place)
      let again := if eapType eapMsg 0 = eapTypeIdentity then apEapSmIdentityAgain api s msg else none
      match again with
      | some result => result
      | none => apEapSmTakeMsg api s eapol

def apEapSmStartWpsReg (api : WpsApi Mc) (s : EapWpsApState Mc) (staMac apMac : EtherAddr) :
    EapWpsApState Mc × Int :=
  let found := lookupSta s staMac .searchEnter
  if found.2 then
    let started := apEapSmReqStart api { found.1 with eapId := 1, bssid := apMac }
    (started.1, started.2)
  else (found.1, -1)

def apEapSmInit (mcDev : Mc) (macSta : EtherAddr) (eapFragThreshold : Int) : EapWpsApState Mc :=
  let empty : FixedBuffer wpsEapDataMaxLength := { memory := fun _ => 0, intact := true }
  let threshold := if 100 ≤ eapFragThreshold ∧ eapFragThreshold < eapWpsFragMax
    then eapFragThreshold.toNat else eapWpsFragMax
  { state := .init, sentMsgId := 0, recvMsgId := 0, staMac := macSta, bssid := zeroMac, eapId := 0
    out := { msgToSend := empty, nextFragToSend := 0, fragSize := 0, eapFragThreshold := threshold
             lastSent := 0, lastSentLen := 0 }
    msgLen := 0
    reassembly := { fragsReceived := empty, totalBytesToRecv := 0, totalReceived := 0 }
    resentCount := 0, mcDev := mcDev, sentData := [] }

end BcmDhd.Wps
