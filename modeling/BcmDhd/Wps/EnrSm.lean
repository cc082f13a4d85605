import BcmDhd.Wps.ApEapSm
import BcmDhd.Wps.EnrolleeMessages

/-! The enrollee's side of the registration protocol: which message it answers with
which, and when it ends. Building the messages is left to `EnrProto`. -/

namespace BcmDhd.Wps

open BcmDhd.Lib

def wpsM2dNackCont : Nat := 0x101E

inductive M2dStatus
  | awaitM2
  | recvdM2
  | recvdM2d
  | m2dReset
deriving DecidableEq

/-- Cryptography, and building messages: each builder may read and change the session and
tells an error code. The nonce that an ACK or NACK carries goes into the message only. -/
structure EnrProto where
  hmac : Hmac
  decrypt : Decrypt
  exchange : KeyExchange
  create : Message → RegData → Nat × RegData
  createNack : RegData → UInt16 → Nat × RegData
  /-- The build option `WPS_NFC_DEVICE`. -/
  nfcDevice : Bool

/-- What has been done with success since the last restart, with the session before and
after a message was processed and the settings it carried. -/
inductive EnrEvent
  | processed (message : Message) (before after : RegData) (settings : Option EsM8)
  | built (message : Message)

def EnrEvent.kind : EnrEvent → Event
  | .processed message _ _ _ => .processed message
  | .built message => .built message

structure EnrSm where
  smState : SmState
  lastMsgRecd : EMsg
  lastMsgSent : EMsg
  initialized : Bool
  transportType : TransportType
  regInfo : RegData
  m2dStatus : M2dStatus
  errCode : Nat
  peerEncrSettings : Option EsM8
  events : List EnrEvent

namespace EnrSm

def note (e : EnrSm) (event : EnrEvent) : EnrSm := { e with events := e.events ++ [event] }

def withInfo (e : EnrSm) (regInfo : RegData) : EnrSm := { e with regInfo := regInfo }

end EnrSm

/-- A call of `enr_sm_step`: the message and the memory around it, what the buffer for
plain text held before, the room for an answer, whether there is memory, and a bound on
the turns of the loops. -/
structure Delivery where
  msg : Bytes
  around : Surroundings
  stale : Bytes
  outLen : Nat
  memory : Memory
  turns : Nat

def Delivery.buf (d : Delivery) : BufferObj := .dserial d.msg d.around

/-- The registration data after they were cleared: what belongs to the device stays. -/
def RegData.cleared (regInfo : RegData) : RegData :=
  let nonce : Nonce := repeated 16 0
  let mac : Mac := repeated 32 0
  let key : PublicKey := repeated 192 0
  { regInfo with
    enrolleeNonce := nonce, registrarNonce := nonce, outMsg := [], inMsg := [], authKey := []
    keyWrapKey := [], eHash1 := mac, eHash2 := mac, rHash1 := mac, rHash2 := mac, es1 := nonce
    es2 := nonce, rs1 := nonce, rs2 := nonce, psk1 := nonce, psk2 := nonce, pke := key, pkr := key
    registrarVersion2 := 0, registrarUuid := none }

/-- The state machine after `state_machine_init_sm`, for which there may be no memory. -/
def enrSmRestartSM (e : EnrSm) (allocated : Bool) : EnrSm :=
  { e with
    smState := .start, lastMsgRecd := .mnone, lastMsgSent := .mnone, initialized := allocated
    transportType := .unset, regInfo := e.regInfo.cleared, events := [] }

def EnrProto.sendAck (proto : EnrProto) (regInfo : RegData) : Nat × RegData :=
  let ack := proto.create .ack regInfo
  (if ack.1 ≠ wpsSuccess then ack.1 else wpsSendMsgCont, ack.2)

def EnrProto.sendNack (proto : EnrProto) (regInfo : RegData) (configError : UInt16) : Nat × RegData :=
  let nack := proto.createNack regInfo configError
  (if nack.1 ≠ wpsSuccess then nack.1 else wpsSendMsgCont, nack.2)

/-- Send a NACK and leave. -/
def enrNack (proto : EnrProto) (e : EnrSm) (configError : UInt16) : EnrSm × Nat :=
  let nack := proto.sendNack e.regInfo configError
  (e.withInfo nack.2, nack.1)

/-- Send a NACK and start over. -/
def enrNackRestart (proto : EnrProto) (e : EnrSm) (configError : UInt16) (restart : Bool) : EnrSm × Nat :=
  let nack := enrNack proto e configError
  (enrSmRestartSM nack.1 restart, nack.2)

/-- `e_lastMsgSent` is MNONE: whatever comes, unless it belongs to an exchange, is
answered with M1. -/
def enrMnone (proto : EnrProto) (e : EnrSm) (msgType : Nat) : EnrSm × Nat :=
  if msgType = Message.m2.id ∨ msgType = Message.m4.id ∨ msgType = Message.m6.id ∨
      msgType = Message.m8.id ∨ msgType = Message.nack.id then (e, wpsCont)
  else
    let m1 := proto.create .m1 e.regInfo
    let e := e.withInfo m1.2
    if m1.1 ≠ wpsSuccess then (e, wpsCont)
    else ({ e.note (.built .m1) with lastMsgSent := .m1, m2dStatus := .awaitM2, smState := .continue_ },
      wpsSendMsgCont)

/-- DONE goes out, and only an access point over EAP waits for the answer. Building DONE
does not change what the device is. -/
def enrSendDone (proto : EnrProto) (e : EnrSm) : EnrSm × Nat :=
  let done := proto.create .done e.regInfo
  let waits := e.regInfo.bAp = true ∧ e.transportType = .eap
  ({ e.withInfo done.2 with lastMsgSent := .done, smState := if waits then .continue_ else .success },
    if done.1 ≠ wpsSuccess then done.1 else wpsSendMsgCont)

/-- Build the next message and send it. -/
def enrAnswer (proto : EnrProto) (e : EnrSm) (message : Message) (sent : EMsg) : EnrSm × Nat :=
  let built := proto.create message e.regInfo
  let e := e.withInfo built.2
  if built.1 ≠ wpsSuccess then enrNack proto e wpsErrorDeviceBusy
  else ({ e.note (.built message) with lastMsgSent := sent, smState := .continue_ }, wpsSendMsgCont)

/-- An M2D while M2 is awaited. -/
def enrM2d (proto : EnrProto) (e : EnrSm) (d : Delivery) : Except Halt (EnrSm × Nat) := do
  let m2d ← regProtoProcessM2d d.turns e.regInfo d.buf
  if m2d.1 ≠ wpsSuccess then .ok (e, wpsCont)
  else
    let mismatch := proto.nfcDevice ∧ m2d.2 = wpsErrorPkhMismatch.toNat
    let e := if mismatch then { e with errCode := rprotErrPubKeyHashMismatch } else e
    let answer :=
      if e.regInfo.bAp then proto.sendNack e.regInfo wpsErrorNoError else proto.sendAck e.regInfo
    let e := e.withInfo answer.2
    if answer.1 = wpsSendMsgCont ∧ e.m2dStatus = .awaitM2 then
      .ok ({ e with m2dStatus := .recvdM2d, smState := .continue_ }, answer.1)
    else .ok (e, answer.1)

/-- What follows an M2 that was not accepted. -/
def enrM2Refused (proto : EnrProto) (e : EnrSm) (err : Nat) (restart : Bool) : EnrSm × Nat :=
  if err = rprotErrAuthEncFlag then enrNackRestart proto e wpsErrorNwAuthFail restart
  else if err = rprotErrMultipleM2 then enrNack proto e wpsErrorDeviceBusy
  else if err = rprotErrRogueSuspected then enrNack proto e wpsErrorRogueSuspected
  else if err = rprotErrPubKeyHashMismatch then enrNack proto { e with errCode := err } wpsErrorPkhMismatch
  else if err = rprotErrDevPwIdMismatch then enrNack proto { e with errCode := err } wpsErrorRogueSuspected
  else enrNackRestart proto e wpsErrorDecryptCrcFail restart

/-- Any other message while M2 is awaited is taken for M2. -/
def enrM2 (proto : EnrProto) (e : EnrSm) (d : Delivery) : Except Halt (EnrSm × Nat) := do
  let e := { e with m2dStatus := .recvdM2 }
  let m2 ← regProtoProcessM2 proto.hmac proto.decrypt proto.exchange d.turns d.stale e.regInfo d.buf
  if m2.1 ≠ wpsSuccess then .ok (enrM2Refused proto (e.withInfo m2.2.1) m2.1 d.memory.restart)
  else
    let event := EnrEvent.processed .m2 e.regInfo m2.2.1 m2.2.2
    let e := { (e.withInfo m2.2.1).note event with lastMsgRecd := .m2 }
    match m2.2.2 with
    | some settings => .ok (enrSendDone proto { e with peerEncrSettings := some settings })
    | none => .ok (enrAnswer proto e .m3 .m3)

/-- `e_lastMsgSent` is M1. -/
def enrM1 (proto : EnrProto) (e : EnrSm) (d : Delivery) (msgType : Nat) : Except Halt (EnrSm × Nat) :=
  if e.m2dStatus = .recvdM2d ∧ msgType = Message.nack.id then do
    let _ ← regProtoProcessNack d.turns e.regInfo d.buf
    .ok (enrSmRestartSM { e with errCode := wpsM2dNackCont } d.memory.restart, wpsMessageProcessingError)
  else if msgType = Message.m2d.id then enrM2d proto e d
  else if e.m2dStatus = .m2dReset then .ok (e, wpsCont)
  else enrM2 proto e d

/-- What follows an M4 or M6 that was not accepted. -/
def enrSecretRefused (proto : EnrProto) (e : EnrSm) (err msgType : Nat) (restart : Bool) : EnrSm × Nat :=
  if err = rprotErrCrypto then
    ((enrNackRestart proto e wpsErrorDevPwdAuthFail restart).1, wpsErrEnrollmentPinfail)
  else if err = rprotErrWrongMsgtype ∧ msgType = Message.nack.id then
    ({ e with smState := .failure }, wpsMessageProcessingError)
  else enrNackRestart proto e wpsErrorDeviceBusy restart

/-- `e_lastMsgSent` is M3. Another M2 is ignored. -/
def enrM3 (proto : EnrProto) (e : EnrSm) (d : Delivery) (msgType : Nat) : Except Halt (EnrSm × Nat) := do
  let m4 ← regProtoProcessM4 proto.hmac proto.decrypt d.turns d.stale e.regInfo d.buf
  if m4.1 ≠ wpsSuccess then
    if msgType = Message.m2.id then .ok (e.withInfo m4.2, wpsCont)
    else .ok (enrSecretRefused proto (e.withInfo m4.2) m4.1 msgType d.memory.restart)
  else
    let event := EnrEvent.processed .m4 e.regInfo m4.2 none
    .ok (enrAnswer proto { (e.withInfo m4.2).note event with lastMsgRecd := .m4 } .m5 .m5)

/-- `e_lastMsgSent` is M5. -/
def enrM5 (proto : EnrProto) (e : EnrSm) (d : Delivery) (msgType : Nat) : Except Halt (EnrSm × Nat) := do
  let m6 ← regProtoProcessM6 proto.hmac proto.decrypt d.turns d.stale e.regInfo d.buf
  if m6.1 ≠ wpsSuccess then
    .ok (enrSecretRefused proto (e.withInfo m6.2) m6.1 msgType d.memory.restart)
  else
    let event := EnrEvent.processed .m6 e.regInfo m6.2 none
    .ok (enrAnswer proto { (e.withInfo m6.2).note event with lastMsgRecd := .m6 } .m7 .m7)

/-- The error that a NACK carries after an M8 that was not accepted. -/
def m8ConfigError (err : Nat) : UInt16 :=
  if err = rprotErrRogueSuspected then wpsErrorRogueSuspected
  else if err = rprotErrCrypto then wpsErrorDevPwdAuthFail
  else wpsErrorDeviceBusy

/-- `e_lastMsgSent` is M7. A NACK that an access point receives ends the exchange, whatever
comes of checking it. -/
def enrM7 (proto : EnrProto) (e : EnrSm) (d : Delivery) (msgType : Nat) : Except Halt (EnrSm × Nat) :=
  if e.regInfo.bAp = true ∧ msgType = Message.nack.id then do
    let _ ← regProtoProcessNack d.turns e.regInfo d.buf
    .ok ({ e with smState := .success }, wpsSuccess)
  else do
    let m8 ← regProtoProcessM8 proto.hmac proto.decrypt d.turns d.stale e.regInfo d.buf
    if m8.1 ≠ wpsSuccess then
      let e := { e.withInfo m8.2.1 with errCode := m8.1 }
      .ok (enrNackRestart proto e (m8ConfigError m8.1) d.memory.restart)
    else
      let event := EnrEvent.processed .m8 e.regInfo m8.2.1 m8.2.2
      let e := { (e.withInfo m8.2.1).note event with lastMsgRecd := .m8, peerEncrSettings := m8.2.2 }
      .ok (enrSendDone proto e)

/-- `e_lastMsgSent` is DONE. A mismatch sets the state to go on, and then joins the branch
of an ACK that was accepted. -/
def enrDone (e : EnrSm) (d : Delivery) : Except Halt (EnrSm × Nat) := do
  let err ← regProtoProcessAck d.turns e.regInfo d.buf
  if err = rprotErrNonceMismatch then
    let e := { e with smState := .continue_ }
    .ok ({ e with smState := .success }, wpsCont)
  else if err ≠ wpsSuccess then .ok (e, wpsCont)
  else .ok ({ e with smState := .success }, wpsCont)

def enrSmHandleMessage (proto : EnrProto) (e : EnrSm) (d : Delivery) : Except Halt (EnrSm × Nat) :=
  let msgType := (regProtoGetMsgType d.buf).2
  if e.lastMsgSent ≠ .mnone ∧ e.m2dStatus = .recvdM2 ∧ msgType = Message.m2d.id then
    let ack := proto.sendAck e.regInfo
    .ok (e.withInfo ack.2, ack.1)
  else match e.lastMsgSent with
    | .mnone => .ok (enrMnone proto e msgType)
    | .m1 => enrM1 proto e d msgType
    | .m3 => enrM3 proto e d msgType
    | .m5 => enrM5 proto e d msgType
    | .m7 => enrM7 proto e d msgType
    | .done => enrDone e d
    | _ => .ok (e, wpsCont)

/-- What follows a handled message: the end of the exchange restarts the machine. -/
def enrActOnState (handled : EnrSm × Nat) (restart : Bool) : EnrSm × Nat :=
  match handled.1.smState with
  | .success => (enrSmRestartSM handled.1 restart,
      if handled.2 = wpsSendMsgCont then wpsSendMsgSuccess else wpsSuccess)
  | .failure => (enrSmRestartSM handled.1 restart,
      if handled.2 = wpsSendMsgCont then wpsSendMsgError else wpsMessageProcessingError)
  | _ => handled

/-- Another request for M1: the one that was sent goes out again, if there is room. -/
def enrResend (e : EnrSm) (outLen : Nat) : EnrSm × Nat :=
  if e.lastMsgSent ≠ .m1 then (e, wpsCont)
  else if outLen < e.regInfo.outMsg.length then
    ({ e with smState := .failure }, wpsMessageProcessingError)
  else (e, wpsSendMsgCont)

def enrSmStep (proto : EnrProto) (e : EnrSm) (d : Delivery) : Except Halt (EnrSm × Nat) :=
  if e.initialized = false then .ok (e, wpsErrNotInitialized)
  else if e.smState ≠ .start ∧ d.msg = [] then .ok (enrResend e d.outLen)
  else if d.memory.inMsg = false ∨ d.memory.outMsg = false then .ok (e, wpsErrOutofmemory)
  else (enrSmHandleMessage proto e d).map fun handled => enrActOnState handled d.memory.restart

/-- What `wps_processMsg` does in front of an M2 that comes first: with the nonce that was
built before, it goes on as if M1 had been sent. -/
def EnrSm.prebuild (proto : EnrProto) (e : EnrSm) (preNonce : Nonce) : EnrSm :=
  if e.smState ≠ .start then e
  else
    let m1 := proto.create .m1 { e.regInfo with enrolleeNonce := preNonce }
    { e.withInfo m1.2 with lastMsgSent := .m1, m2dStatus := .awaitM2, smState := .continue_ }

/-- What the enrollee hears, and what its surroundings do to it. -/
inductive EnrCall
  | message (d : Delivery)
  | transport (transportType : TransportType)
  | prebuild (preNonce : Nonce)
  | restart (allocated : Bool)

/-- A call that does not return leaves nothing to be seen. -/
def enrCallStep (proto : EnrProto) (e : EnrSm) : EnrCall → EnrSm × Except Halt Nat
  | .message d => match enrSmStep proto e d with
    | .ok handled => (handled.1, .ok handled.2)
    | .error halt => (e, .error halt)
  | .transport transportType => ({ e with transportType := transportType }, .ok wpsCont)
  | .prebuild preNonce => (e.prebuild proto preNonce, .ok wpsCont)
  | .restart allocated => (enrSmRestartSM e allocated, .ok wpsCont)

def enrollee (proto : EnrProto) : Machine EnrSm EnrCall (Except Halt Nat) where
  step := enrCallStep proto
  admits _ _ := True

/-- The machine as `enr_sm_initializeSM` sets it up. -/
def enrSmStart (regInfo : RegData) : EnrSm :=
  { smState := .start, lastMsgRecd := .mnone, lastMsgSent := .mnone, initialized := true
    transportType := .unset, regInfo := regInfo, m2dStatus := .awaitM2, errCode := 0
    peerEncrSettings := none, events := [] }

end BcmDhd.Wps
