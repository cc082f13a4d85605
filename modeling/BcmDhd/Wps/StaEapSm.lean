import BcmDhd.Wps.ApEapSm

/-! The station's EAP state machine. -/

namespace BcmDhd.Wps

open BcmDhd.Lib

def eapMsgOffset : Nat := 4
def wpsDataOffset : Nat := eapMsgOffset + sizeofWpsEapHdr
def eapolStartType : UInt8 := 1

def wpsPrivateIdIdentity : UInt8 := 16
def wpsPrivateIdFailure : UInt8 := 18
def wpsPrivateIdFrag : UInt8 := 19
def wpsPrivateIdFragAck : UInt8 := 20

def regSuccess : Nat := 1
def regFailure : Nat := 2
def staEapFailure : Nat := 7
def wpsSendMsgIdresp : Nat := 0x1010
def wpsSendFragCont : Nat := 0x101A
def wpsSendFragAckCont : Nat := 0x101B

inductive StaEapState
  | init
  | eapolStartSent
  | eapIdentitySent
  | processingProtocol
  | regSuccessful
  | regFailed
  | eapTimeout
  | eapFailure
deriving DecidableEq

/-- The states in their order, of which the source makes use. -/
def StaEapState.number : StaEapState → Nat
  | .init => 0
  | .eapolStartSent => 1
  | .eapIdentitySent => 2
  | .processingProtocol => 3
  | .regSuccessful => 4
  | .regFailed => 5
  | .eapTimeout => 6
  | .eapFailure => 7

/-- What `reg_sm_step` or `enr_sm_step` answers. -/
structure StepReply (Sm : Type) where
  code : Nat
  written : Bytes
  msgLen : Int
  smHdle : Sm

/-- The codes by which the caller learns of a fragment, or an acknowledgement, to send. -/
def sendsFragment (code : Nat) : Bool := code = wpsSendFragCont ∨ code = wpsSendFragAckCont

/-- The two state machines behind the EAP state machine. They know of no fragments. -/
structure WpsSteps (Sm : Type) where
  regSmStep : Sm → Lib.Memory → Nat → StepReply Sm
  enrSmStep : Sm → Lib.Memory → Nat → StepReply Sm
  regSmPlain : ∀ sm msg len, sendsFragment (regSmStep sm msg len).code = false
  enrSmPlain : ∀ sm msg len, sendsFragment (enrSmStep sm msg len).code = false

structure EapWpsStaState (Sm : Type) where
  state : StaEapState
  sentMsgId : UInt8
  recvMsgId : UInt8
  eapId : UInt8
  out : Outgoing
  msgLen : Int
  reassembly : Reassembly
  smHdle : Sm
  /-- The last fragment that came in; empty if there is none. -/
  prevFrag : Bytes
  retcode : Nat
  staEMode : ScMode

variable {Sm : Type}

def staLink : LinkHeader where
  bytes eapLen := [1, 0] ++ wpsHtons eapLen
  size := eapMsgOffset
  sized _ := by simp [eapMsgOffset, wpsHtons]

/-- `IS_EAP_TYPE_WPS` -/
def staIsEapTypeWps (eapMsg : Lib.Memory) : Bool :=
  eapCode eapMsg 0 = eapCodeRequest ∧ eapType eapMsg 0 = eapTypeWps

/-- `IS_PREV_FRAG` -/
def isPrevFrag (s : EapWpsStaState Sm) (eapMsg : Lib.Memory) (len : Nat) : Bool :=
  s.prevFrag ≠ [] ∧ s.prevFrag.length = len ∧ load eapMsg 0 len = s.prevFrag

def wpsRecvMsgIdUpd (s : EapWpsStaState Sm) (eapMsg : Lib.Memory) : EapWpsStaState Sm :=
  if eapCode eapMsg 0 = eapCodeFailure then { s with recvMsgId := wpsPrivateIdFailure }
  else if eapType eapMsg 0 = eapTypeIdentity then { s with recvMsgId := wpsPrivateIdIdentity }
  else if eapOpcode eapMsg 0 = opWpsStart then { s with recvMsgId := wpsPrivateIdWpsStart }
  else s

/-- What the caller fetches to send: `wps_get_frag_msg_to_send`. -/
def wpsGetFragMsgToSend (s : EapWpsStaState Sm) : Bytes :=
  load s.out.msgToSend.memory s.out.lastSent s.out.lastSentLen

/-- The next fragment, in front of which its headers are written. -/
def wpsEapNextFrag (s : EapWpsStaState Sm) : EapWpsStaState Sm :=
  let maxToSend : Int := if s.out.fragSize < s.out.eapFragThreshold then s.out.fragSize
    else s.out.eapFragThreshold
  let flags := if s.out.fragSize - maxToSend ≠ 0 then eapWpsFlagsMf else 0
  let feapol := s.out.nextFragToSend - wpsDataOffset
  let eapLen := ((sizeofWpsEapHdr + maxToSend) % 65536).toNat
  let headed := createFragHdr s.out.msgToSend (feapol + eapMsgOffset) eapMsgOffset s.eapId flags eapLen
  let framed := headed.write feapol (staLink.bytes (eapLength headed.memory (feapol + eapMsgOffset)))
  { s with out := { s.out with
      msgToSend := framed.touch feapol (eapMsgOffset + eapLen)
      lastSent := feapol, lastSentLen := eapMsgOffset + eapLen } }

/-- The message's packet, or its first fragment, behind an EAPOL header. -/
def wpsEapolCreatePkt (s : EapWpsStaState Sm) (eapData eapLen : Nat) : EapWpsStaState Sm :=
  { s with out := (s.out.sendEap staLink eapData eapLen).1 }

/-- The total length check compares signed numbers. -/
def staExceeds (total received len : Int) : Bool := total < toInt32 (received + toInt32 len)

def wpsEapFragAck (s : EapWpsStaState Sm) : EapWpsStaState Sm × Nat :=
  let hdr := eapHdr eapCodeResponse s.eapId sizeofWpsEapHdr opWpsFragAck 0
  ({ s with
      out := { s.out with
        msgToSend := (s.out.msgToSend.write eapMsgOffset hdr).write 0 (staLink.bytes sizeofWpsEapHdr)
        lastSent := 0, lastSentLen := eapMsgOffset + sizeofWpsEapHdr }
      msgLen := eapMsgOffset + sizeofWpsEapHdr }, wpsSendFragAckCont)

def wpsEapProcessFrag (s : EapWpsStaState Sm) (eapMsg : Lib.Memory) : EapWpsStaState Sm × Nat :=
  match s.reassembly.processFrag staExceeds eapMsg with
  | none => (s, staEapFailure)
  | some taken =>
    let s := { s with reassembly := taken }
    if eapFlags eapMsg 0 &&& eapWpsFlagsMf ≠ 0 then wpsEapFragAck s else (s, wpsSuccess)

/-- The type of a message, which for a packet that carries none is a private one. -/
def wpsGetMsgType (s : EapWpsStaState Sm) (eapMsg : Lib.Memory) (eapolLen : Nat) : UInt8 :=
  if eapCode eapMsg 0 = eapCodeFailure then wpsPrivateIdFailure
  else if eapType eapMsg 0 = eapTypeIdentity then wpsPrivateIdIdentity
  else if eapOpcode eapMsg 0 = opWpsStart then wpsPrivateIdWpsStart
  else if eapOpcode eapMsg 0 = opWpsFragAck then wpsPrivateIdFragAck
  else
    let announced := eapFlags eapMsg 0 &&& eapWpsFlagsLf ≠ 0
    if (s.reassembly.reassembling eapMsg ∨ isPrevFrag s eapMsg (eapolLen - eapMsgOffset)) ∧ ¬ announced
      then wpsPrivateIdFrag
    else eapMsg (sizeofWpsEapHdr + (if announced then eapWpsLfOffset else 0) + wpsMsgtypeOffset)

/-- Whether this request has been answered already. -/
def wpsEapApRetrans (s : EapWpsStaState Sm) (eapMsg : Lib.Memory) (eapolLen : Nat) :
    EapWpsStaState Sm × Nat :=
  let id := eapIdentifier eapMsg 0
  let len := eapolLen - eapMsgOffset
  if staIsEapTypeWps eapMsg ∧ (s.out.fragmenting ∨ s.reassembly.reassembling eapMsg) then
    if id = s.eapId then (s, wpsSendRetMsgCont)
    else
      let s := { s with eapId := id }
      if s.reassembly.reassembling eapMsg then
        ({ s with prevFrag := if eapWpsFragMax < len then [] else load eapMsg 0 len }, wpsCont)
      else (s, wpsCont)
  else
    let wpsMsgType := wpsGetMsgType s eapMsg eapolLen
    if id = s.eapId ∧ (isPrevFrag s eapMsg len ∨ eapOpcode eapMsg 0 = opWpsFragAck ∨
        wpsMsgType = s.recvMsgId) then
      match s.state with
      | .eapolStartSent | .eapIdentitySent => (s, wpsCont)
      | .processingProtocol =>
        if eapType eapMsg 0 ≠ eapTypeWps then (s, regFailure)
        else ({ s with msgLen := s.msgLen - wpsDataOffset }, wpsSendRetMsgCont)
      | _ => (s, wpsSendRetMsgCont)
    else if id ≠ s.eapId ∧ wpsMsgType = s.recvMsgId ∧ wpsMsgType = wpsPrivateIdIdentity then
      ({ s with state := .eapolStartSent, eapId := id }, wpsCont)
    else ({ s with eapId := id }, wpsCont)

/-- Give a message to the protocol; its answer is built in place. -/
def wpsEapEnrProcessProtocol (steps : WpsSteps Sm) (s : EapWpsStaState Sm) (eapMsg : Lib.Memory)
    (eapLen : Nat) : EapWpsStaState Sm × Nat :=
  let msgIn : Lib.Memory := fun place => eapMsg (sizeofWpsEapHdr + place)
  let s := if eapOpcode eapMsg 0 ≠ opWpsStart then
    { s with recvMsgId := msgIn wpsMsgtypeOffset } else s
  let s := { s with
    state := .processingProtocol
    msgLen := wpsEapDataMaxLength - wpsDataOffset - eapWpsLfOffset }
  if 14 ≤ eapLen then
    let step := if s.staEMode = .staRegistrar then steps.regSmStep else steps.enrSmStep
    let reply := step s.smHdle msgIn (eapLen - sizeofWpsEapHdr)
    let built := s.out.msgToSend.write (wpsDataOffset + eapWpsLfOffset) reply.written
    ({ s with out := { s.out with msgToSend := built }, msgLen := reply.msgLen, smHdle := reply.smHdle },
      reply.code)
  else (s, wpsCont)

def wpsEapIdentityResp (s : EapWpsStaState Sm) : EapWpsStaState Sm × Nat :=
  let identity := identityStr (if s.staEMode = .staRegistrar then .registrar else .enrollee)
  let size := identity.length + 5
  let packet := [1, 0] ++ wpsHtons size ++ [eapCodeResponse, s.eapId] ++ wpsHtons size ++
    [eapTypeIdentity] ++ identity
  ({ s with
      out := { s.out with msgToSend := s.out.msgToSend.write 0 packet }
      msgLen := eapMsgOffset + size, state := .eapIdentitySent }, wpsSendMsgIdresp)

/-- What the state machine does with a whole message. -/
def wpsApMsgHandle (steps : WpsSteps Sm) (s : EapWpsStaState Sm) (eapMsg : Lib.Memory)
    (eapLen : Nat) : EapWpsStaState Sm × Nat :=
  match s.state with
  | .eapolStartSent =>
    if eapType eapMsg 0 ≠ eapTypeIdentity then (s, wpsCont) else wpsEapIdentityResp s
  | .eapIdentitySent | .processingProtocol =>
    let processed := wpsEapEnrProcessProtocol steps s eapMsg eapLen
    if processed.2 = wpsSendMsgSuccess ∨ processed.2 = wpsSuccess then
      ({ processed.1 with retcode := wpsSuccess },
        if processed.2 = wpsSendMsgSuccess then wpsSendMsgCont else wpsCont)
    else processed
  | .regSuccessful => (s, regSuccess)
  | _ => (s, wpsCont)

/-- A packet for which `REASSEMBLING` holds: `wpsSuccess` once the whole is in
`frags_received`. -/
def wpsApMsgGather (s : EapWpsStaState Sm) (eapMsg : Lib.Memory) : EapWpsStaState Sm × Nat :=
  if s.reassembly.totalBytesToRecv = 0 ∧ eapFlags eapMsg 0 &&& eapWpsFlagsLf = 0 then (s, staEapFailure)
  else
    let s := if s.reassembly.totalBytesToRecv = 0 then
      { s with reassembly := { s.reassembly with
          totalBytesToRecv := wpsNtohs eapMsg sizeofWpsEapHdr } } else s
    let processed := wpsEapProcessFrag s eapMsg
    if processed.2 ≠ wpsSuccess then processed
    else
      let s := processed.1
      ({ s with reassembly := { s.reassembly with totalReceived := 0, totalBytesToRecv := 0 } }, wpsSuccess)

/-- Reassembly, in front of the state machine. -/
def wpsApMsgReassemble (steps : WpsSteps Sm) (s : EapWpsStaState Sm) (eapMsg : Lib.Memory) :
    EapWpsStaState Sm × Nat :=
  if staIsEapTypeWps eapMsg ∧ s.reassembly.reassembling eapMsg then
    let gathered := wpsApMsgGather s eapMsg
    if gathered.2 ≠ wpsSuccess then gathered
    else
      let whole := gathered.1.reassembly.fragsReceived.memory
      wpsApMsgHandle steps gathered.1 whole (eapLength whole 0)
  else wpsApMsgHandle steps s eapMsg (eapLength eapMsg 0)

/-- The peer has acknowledged a fragment. -/
def wpsApMsgFragAck (s : EapWpsStaState Sm) : EapWpsStaState Sm × Nat :=
  (wpsEapNextFrag { s with out := s.out.advance staLink }, wpsSendFragCont)

/-- While fragments go out only their acknowledgements are taken, until the last one
is out: that one is told by its size. -/
def wpsApMsgFragments (steps : WpsSteps Sm) (s : EapWpsStaState Sm) (eapMsg : Lib.Memory) :
    EapWpsStaState Sm × Nat :=
  if staIsEapTypeWps eapMsg ∧ s.out.fragmenting then
    if eapOpcode eapMsg 0 = opWpsFragAck then wpsApMsgFragAck s
    else if eapOpcode eapMsg 0 = opWpsMsg then
      if s.out.fragSize < s.out.eapFragThreshold then
        wpsApMsgReassemble steps { s with out := { s.out with nextFragToSend := 0, fragSize := 0 } } eapMsg
      else (s, wpsCont)
    else wpsApMsgReassemble steps s eapMsg
  else wpsApMsgReassemble steps s eapMsg

/-- A packet of `eapolLen` bytes from the access point. -/
def wpsProcessApMsg (steps : WpsSteps Sm) (s : EapWpsStaState Sm) (eapolMsg : Lib.Memory)
    (eapolLen : Nat) : EapWpsStaState Sm × Nat :=
  let eapMsg : Lib.Memory := fun place => eapolMsg (eapMsgOffset + place)
  if eapCode eapMsg 0 ≠ eapCodeRequest then
    if eapCode eapMsg 0 = eapCodeFailure then
      (s, if s.retcode = wpsSuccess then wpsSuccess else staEapFailure)
    else (s, wpsCont)
  else if eapolLen < eapLength eapMsg 0 + eapMsgOffset then (s, wpsCont)
  else
    let checked := wpsEapApRetrans s eapMsg eapolLen
    if checked.2 = wpsSendRetMsgCont ∨ checked.2 = regFailure then checked
    else wpsApMsgFragments steps (wpsRecvMsgIdUpd checked.1 eapMsg) eapMsg

/-- The message as the protocol has left it, or the EAPOL or identity packet. -/
def wpsGetMsgToSend (s : EapWpsStaState Sm) : EapWpsStaState Sm × Nat :=
  let data := if 3 ≤ s.state.number then wpsDataOffset + eapWpsLfOffset else 0
  ({ s with out := { s.out with lastSent := data, lastSentLen := s.msgLen.toNat } }, data)

def wpsEapCreatePkt (s : EapWpsStaState Sm) (dataBuffer dataLen : Nat) (eapCode : UInt8) :
    EapWpsStaState Sm × Nat :=
  let created := s.out.createPkt staLink (.inside dataBuffer) dataLen eapCode s.eapId
  match created.2 with
  | none => ({ s with out := created.1 }, treapErrSendrecv)
  | some msgType =>
    ({ s with
        out := created.1, sentMsgId := msgType, msgLen := dataLen + wpsDataOffset
        state := if msgType = 14 then .regFailed else if msgType = 15 then .regSuccessful else s.state },
      wpsSuccess)

/-- The packet that is ready to be sent, if there is one. -/
def wpsGetEapolMsgToSend (s : EapWpsStaState Sm) : EapWpsStaState Sm × Option Bytes :=
  let fetched := wpsGetMsgToSend s
  let wpsLen := fetched.1.msgLen.toNat
  let created := wpsEapCreatePkt fetched.1 fetched.2 wpsLen eapCodeResponse
  if created.2 ≠ wpsSuccess then (created.1, none)
  else
    let eapAt := created.1.out.packetStart wpsLen + eapMsgOffset
    let packed := wpsEapolCreatePkt created.1 eapAt (eapLength created.1.out.msgToSend.memory eapAt)
    (packed, some (wpsGetFragMsgToSend packed))

def wpsEapStaInit (smHdle : Sm) (eMode : ScMode) (eapFragThreshold : Nat) : EapWpsStaState Sm :=
  let empty : FixedBuffer wpsEapDataMaxLength := { memory := fun _ => 0, intact := true }
  { state := .eapolStartSent, sentMsgId := 0, recvMsgId := 0, eapId := 0
    out := { msgToSend := empty.write 0 [1, eapolStartType, 0, 0], nextFragToSend := 0, fragSize := 0
             eapFragThreshold := eapFragThreshold, lastSent := 0, lastSentLen := 0 }
    msgLen := eapMsgOffset
    reassembly := { fragsReceived := empty, totalBytesToRecv := 0, totalReceived := 0 }
    smHdle := smHdle, prevFrag := [], retcode := 0, staEMode := eMode }

end BcmDhd.Wps
