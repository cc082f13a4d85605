import BcmDhd.Lib.Machine

/-! The registrar's side of the registration protocol: which message it answers
with which, and when it ends. Parsing, checking and building the messages is left
to `RegProto`. -/

namespace BcmDhd.Wps

open BcmDhd.Lib

abbrev Bytes := List UInt8

inductive SmState
  | start
  | continue_
  | restart
  | success
  | failure
deriving DecidableEq

inductive EMsg
  | mstart
  | m1
  | m2
  | m2d
  | m3
  | m4
  | m5
  | m6
  | m7
  | m8
  | done
  | mnone
deriving DecidableEq

/-- `unset` is what clearing the registration data leaves. -/
inductive TransportType
  | unset
  | ufd
  | eap
  | wlan
  | nfc
  | bt
  | ip
  | upnpCp
  | upnpDev
deriving DecidableEq

/-- The messages that are processed or built, by `WPS_ID_MESSAGE_*`. -/
inductive Message
  | m1
  | m2
  | m2d
  | m3
  | m4
  | m5
  | m6
  | m7
  | m8
  | ack
  | nack
  | done
deriving DecidableEq

def Message.id : Message → Nat
  | .m1 => 0x04
  | .m2 => 0x05
  | .m2d => 0x06
  | .m3 => 0x07
  | .m4 => 0x08
  | .m5 => 0x09
  | .m6 => 0x0A
  | .m7 => 0x0B
  | .m8 => 0x0C
  | .ack => 0x0D
  | .nack => 0x0E
  | .done => 0x0F

def wpsMessageProcessingError : Nat := 19
def wpsSuccess : Nat := 0x1001
def wpsErrOutofmemory : Nat := 0x1002
def wpsErrNotInitialized : Nat := 0x1004
def wpsErrInvalidParameters : Nat := 0x1005
def wpsErrGeneric : Nat := 0x1009
def wpsSendMsgCont : Nat := 0x100D
def wpsSendMsgSuccess : Nat := 0x100E
def wpsSendMsgError : Nat := 0x100F
def wpsSendFailCont : Nat := 0x1011
def wpsCont : Nat := 0x1012
def wpsErrRegistrationPinfail : Nat := 0x1014
def wpsApM2dReadyCont : Nat := 0x1018
def wpsErrPbcOverlap : Nat := 0x101D
def rprotErrReqdTlvMissing : Nat := 0x6001
def rprotErrCrypto : Nat := 0x6002
def rprotErrIncompatible : Nat := 0x6003
def rprotErrNonceMismatch : Nat := 0x6005
def rprotErrWrongMsgtype : Nat := 0x6006
def rprotErrMultipleM2 : Nat := 0x6007
def rprotErrAuthEncFlag : Nat := 0x6008
def rprotErrRogueSuspected : Nat := 0x6009
def rprotErrIncompatibleWep : Nat := 0x600A
def rprotErrDevPwIdMismatch : Nat := 0x600B
def rprotErrPubKeyHashMismatch : Nat := 0x600C

def wpsErrorNoError : UInt16 := 0
def wpsErrorDecryptCrcFail : UInt16 := 2
def wpsErrorNwAuthFail : UInt16 := 6
def wpsErrorRogueSuspected : UInt16 := 13
def wpsErrorDeviceBusy : UInt16 := 14
def wpsErrorDevPwdAuthFail : UInt16 := 18
def wpsErrorPkhMismatch : UInt16 := 20
def wpsDevicepwdidPushBtn : UInt16 := 4
def wpsEncrtypeWep : UInt16 := 2
def wpsVersion2 : UInt8 := 0x20

structure DevInfo where
  uuid : Bytes
  devPwdId : UInt16
  configError : UInt16
  bAp : Bool
  version2 : UInt8
  bOobM2 : Bool
  configap : Bool
  pin : Bytes
  pbcUuids : List Bytes

/-- The registration data apart from the state machine's own. `registrar` and
`dev_info` point to the same device information. -/
structure Session (Keys : Type) where
  transportType : TransportType
  enrollee : Option DevInfo
  devInfo : DevInfo
  keys : Keys

def Session.enrolleeAp {Keys : Type} (session : Session Keys) : Bool :=
  (session.enrollee.map DevInfo.bAp).getD false

/-- Parsing and building messages. Each function may read and change the session
and tells an error code; none of them reaches the state machine. -/
structure RegProto (Keys : Type) where
  checkNonce : Session Keys → Bytes → Nat
  getMsgType : Bytes → Nat × Nat
  process : Message → Session Keys → Bytes → Nat × Session Keys
  /-- The encryption type in the settings that a processed M7 carries. -/
  m7EncrSettings : Session Keys → Bytes → Option UInt16
  /-- The error that a NACK carries, if it could be read. -/
  nackConfigError : Session Keys → Bytes → Option UInt16
  create : Message → Session Keys → Nat × Session Keys
  createNack : Session Keys → UInt16 → Nat × Session Keys
  freshKeys : Keys

/-- What has been done with success since the last restart. -/
inductive Event
  | processed (message : Message)
  | built (message : Message)
deriving DecidableEq

structure RegSm (Keys : Type) where
  smState : SmState
  lastMsgRecd : EMsg
  lastMsgSent : EMsg
  initialized : Bool
  session : Session Keys
  sentM2 : Bool
  errCode : Nat
  peerEncrSettings : Option UInt16
  events : List Event

variable {Keys : Type}

namespace RegSm

def note (r : RegSm Keys) (event : Event) : RegSm Keys := { r with events := r.events ++ [event] }

def withSession (r : RegSm Keys) (session : Session Keys) : RegSm Keys :=
  { r with session := session }

end RegSm

/-- The state machine after `state_machine_init_sm`, for which there may be no memory. -/
def regSmRestartsm (proto : RegProto Keys) (r : RegSm Keys) (allocated : Bool) : RegSm Keys :=
  let session := { r.session with transportType := .unset, enrollee := none, keys := proto.freshKeys }
  let cleared := { r with
    smState := .start, lastMsgRecd := .mnone, lastMsgSent := .mnone, initialized := allocated,
    session := session, events := [] }
  if allocated then { cleared with sentM2 := false } else cleared

def stateMachineSendAck (proto : RegProto Keys) (session : Session Keys) : Nat × Session Keys :=
  let ack := proto.create .ack session
  (if ack.1 ≠ wpsSuccess then ack.1 else wpsSendMsgCont, ack.2)

def stateMachineSendNack (proto : RegProto Keys) (session : Session Keys) (configError : UInt16) :
    Nat × Session Keys :=
  let nack := proto.createNack session configError
  (if nack.1 ≠ wpsSuccess then nack.1 else wpsSendMsgCont, nack.2)

/-- Push button mode: more than one station has pressed its button, or another
one than this enrollee. -/
def m1PbcOverlap (session : Session Keys) : Bool :=
  let info := session.devInfo
  if info.devPwdId = wpsDevicepwdidPushBtn then
    let uuidCnt := info.pbcUuids.countP fun uuid => uuid.any (· ≠ 0)
    if uuidCnt = 0 then false
    else if 1 < uuidCnt then true
    else !info.pbcUuids.any fun uuid => some uuid == session.enrollee.map DevInfo.uuid
  else false

def m7apEncrSettingsCheck (encrSettings : Option UInt16) : Nat :=
  match encrSettings with
  | none => wpsErrInvalidParameters
  | some encrType => if encrType = wpsEncrtypeWep then rprotErrIncompatibleWep else wpsSuccess

/-- Send a NACK with `configError` and leave. -/
def leaveWithNack (proto : RegProto Keys) (r : RegSm Keys) (configError : UInt16) :
    RegSm Keys × Nat :=
  let nack := stateMachineSendNack proto r.session configError
  (r.withSession nack.2, nack.1)

/-- Answer an M1 with M2, or with M2D while no password is there. -/
def answerM1 (proto : RegProto Keys) (r : RegSm Keys) (oobAttMatched : Bool) : RegSm Keys × Nat :=
  let r := { r with lastMsgRecd := .m1 }
  let mayPair := r.session.devInfo.pin ≠ [] ∧ oobAttMatched
  if mayPair ∧ m1PbcOverlap r.session = false then
    let m2 := proto.create .m2 r.session
    if m2.1 ≠ wpsSuccess then (r.withSession m2.2, wpsSendFailCont)
    else
      ({ (r.withSession m2.2).note (.built .m2) with
        lastMsgSent := .m2, sentM2 := true, smState := .continue_ }, wpsSendMsgCont)
  else
    let m2d := proto.create .m2d r.session
    if m2d.1 ≠ wpsSuccess then (r.withSession m2d.2, wpsSendFailCont)
    else
      let errCode := if mayPair then wpsErrPbcOverlap else r.errCode
      ({ (r.withSession m2d.2).note (.built .m2d) with
        lastMsgSent := .m2d, errCode := errCode, smState := .continue_ }, wpsApM2dReadyCont)

/-- `e_lastMsgSent` is MSTART. `nfcDevice` is the build option `WPS_NFC_DEVICE`. -/
def handleMstart (proto : RegProto Keys) (nfcDevice : Bool) (r : RegSm Keys) (msg : Bytes)
    (msgType : Nat) : RegSm Keys × Nat :=
  if msgType ≠ Message.m1.id then (r, wpsSendFailCont)
  else
    let m1 := proto.process .m1 r.session msg
    let r := r.withSession m1.2
    if m1.1 ≠ wpsSuccess then
      let retVal := if r.session.devInfo.pin ≠ [] then m1.1 else wpsCont
      if nfcDevice then
        let r := { r with errCode := m1.1 }
        -- the registrar sends M2D where the out-of-band data do not match
        if m1.1 = rprotErrDevPwIdMismatch ∨ m1.1 = rprotErrPubKeyHashMismatch then
          let configError :=
            if m1.1 = rprotErrPubKeyHashMismatch then wpsErrorPkhMismatch else wpsErrorNoError
          let devInfo := { r.session.devInfo with configError := configError }
          answerM1 proto (r.withSession { r.session with devInfo := devInfo }) false
        else (r, retVal)
      else (r, retVal)
    else answerM1 proto (r.note (.processed .m1)) true

/-- The end of the exchange: DONE has come. -/
def handleDone (proto : RegProto Keys) (r : RegSm Keys) (msg : Bytes) : RegSm Keys × Nat :=
  let done := proto.process .done r.session msg
  let r := r.withSession done.2
  if done.1 ≠ wpsSuccess then (r, wpsCont)
  else
    let r := r.note (.processed .done)
    if r.session.enrolleeAp = true ∧ r.session.transportType = .eap then
      let ack := stateMachineSendAck proto r.session
      ({ r.withSession ack.2 with smState := .success }, ack.1)
    else ({ r with smState := .success }, wpsCont)

/-- `e_lastMsgSent` is M2, which carried the settings out of band. -/
def handleOobM2 (proto : RegProto Keys) (nfcDevice : Bool) (r : RegSm Keys) (msg : Bytes)
    (msgType : Nat) : RegSm Keys × Nat :=
  if msgType ≠ Message.done.id then
    if msgType = Message.nack.id then
      let configError := (proto.nackConfigError r.session msg).getD 0xffff
      let r := r.withSession (proto.process .nack r.session msg).2
      let errCode := if nfcDevice ∧ configError = wpsErrorPkhMismatch then
        rprotErrPubKeyHashMismatch else r.errCode
      let r := { r with errCode := errCode, smState := .failure }
      if r.session.devInfo.bAp then (r, wpsCont) else leaveWithNack proto r configError
    else ({ r with smState := .failure }, wpsCont)
  else handleDone proto r msg

/-- `e_lastMsgSent` is M2. -/
def handleM3 (proto : RegProto Keys) (r : RegSm Keys) (msg : Bytes) (msgType : Nat) :
    RegSm Keys × Nat :=
  if msgType ≠ Message.m3.id then (r, wpsCont)
  else
    let m3 := proto.process .m3 r.session msg
    let r := r.withSession m3.2
    if m3.1 ≠ wpsSuccess then leaveWithNack proto r wpsErrorDeviceBusy
    else
      let r := { r.note (.processed .m3) with lastMsgRecd := .m3 }
      let m4 := proto.create .m4 r.session
      let r := r.withSession m4.2
      if m4.1 ≠ wpsSuccess then leaveWithNack proto r wpsErrorDeviceBusy
      else ({ r.note (.built .m4) with lastMsgSent := .m4, smState := .continue_ }, wpsSendMsgCont)

/-- `e_lastMsgSent` is M2D. -/
def handleM2d (proto : RegProto Keys) (r : RegSm Keys) (msg : Bytes) (msgType : Nat) :
    RegSm Keys × Nat :=
  if msgType = Message.ack.id then
    let ack := proto.process .ack r.session msg
    let r := r.withSession ack.2
    if ack.1 ≠ wpsSuccess then (r, wpsCont)
    else ({ r.note (.processed .ack) with smState := .continue_ }, wpsCont)
  else if msgType = Message.nack.id then
    let r := r.withSession (proto.process .nack r.session msg).2
    ({ r with smState := .continue_ }, wpsCont)
  else ({ r with smState := .continue_ }, wpsCont)

/-- Another message than the expected one after M4 or M6: the PIN has failed. -/
def pinfailUnexpected (proto : RegProto Keys) (r : RegSm Keys) (msg : Bytes) (msgType : Nat) :
    RegSm Keys × Nat :=
  if r.session.devInfo.bAp = false ∧ msgType = Message.nack.id then
    let r := r.withSession (proto.process .nack r.session msg).2
    ((leaveWithNack proto r wpsErrorDevPwdAuthFail).1, wpsErrRegistrationPinfail)
  else (r, wpsErrRegistrationPinfail)

/-- `e_lastMsgSent` is M4. -/
def handleM4 (proto : RegProto Keys) (r : RegSm Keys) (msg : Bytes) (msgType : Nat) :
    RegSm Keys × Nat :=
  if msgType ≠ Message.m5.id then pinfailUnexpected proto r msg msgType
  else
    let m5 := proto.process .m5 r.session msg
    let r := r.withSession m5.2
    if m5.1 ≠ wpsSuccess then
      if m5.1 = rprotErrCrypto then
        ((leaveWithNack proto r wpsErrorDevPwdAuthFail).1, wpsErrRegistrationPinfail)
      else leaveWithNack proto r wpsErrorDeviceBusy
    else
      let r := { r.note (.processed .m5) with lastMsgRecd := .m5 }
      let m6 := proto.create .m6 r.session
      let r := r.withSession m6.2
      if m6.1 ≠ wpsSuccess then leaveWithNack proto r wpsErrorDeviceBusy
      else ({ r.note (.built .m6) with lastMsgSent := .m6, smState := .continue_ }, wpsSendMsgCont)

/-- `e_lastMsgSent` is M6. -/
def handleM6 (proto : RegProto Keys) (r : RegSm Keys) (msg : Bytes) (msgType : Nat) :
    RegSm Keys × Nat :=
  if msgType ≠ Message.m7.id then pinfailUnexpected proto r msg msgType
  else
    let encrSettings := proto.m7EncrSettings r.session msg
    let m7 := proto.process .m7 r.session msg
    let r := r.withSession m7.2
    if m7.1 ≠ wpsSuccess then
      if m7.1 = rprotErrCrypto then
        ((leaveWithNack proto r wpsErrorDevPwdAuthFail).1, wpsErrRegistrationPinfail)
      else leaveWithNack proto r wpsErrorDeviceBusy
    else
      let r : RegSm Keys :=
        { r.note (.processed .m7) with lastMsgRecd := .m7, peerEncrSettings := encrSettings }
      -- the settings of an access point that is not to be configured are all that was wanted
      if r.session.enrolleeAp = true ∧ r.session.devInfo.configap = false then
        let nack : RegSm Keys × Nat := leaveWithNack proto r wpsErrorNoError
        let check := m7apEncrSettingsCheck encrSettings
        if wpsVersion2 ≤ nack.1.session.devInfo.version2 ∧ check ≠ wpsSuccess then
          ({ nack.1 with errCode := check, smState := .failure }, nack.2)
        else ({ nack.1 with smState := .success }, nack.2)
      else
        let m8 := proto.create .m8 r.session
        let r := r.withSession m8.2
        if m8.1 ≠ wpsSuccess then leaveWithNack proto r wpsErrorDeviceBusy
        else ({ r.note (.built .m8) with lastMsgSent := .m8, smState := .continue_ }, wpsSendMsgCont)

/-- `e_lastMsgSent` is M8. -/
def handleM8 (proto : RegProto Keys) (r : RegSm Keys) (msg : Bytes) (msgType : Nat) :
    RegSm Keys × Nat :=
  if msgType ≠ Message.done.id then
    if r.session.devInfo.bAp = false ∧ msgType = Message.nack.id then
      let configError := (proto.nackConfigError r.session msg).getD 0xffff
      let nack := leaveWithNack proto (r.withSession (proto.process .nack r.session msg).2) configError
      ({ nack.1 with smState := .failure }, nack.2)
    else ({ r with smState := .failure }, wpsCont)
  else handleDone proto r msg

/-- Any other `e_lastMsgSent`. -/
def handleOther (proto : RegProto Keys) (r : RegSm Keys) (msg : Bytes) (msgType : Nat) :
    RegSm Keys × Nat :=
  if msgType = Message.nack.id then
    let nack := proto.process .nack r.session msg
    let r := r.withSession nack.2
    if nack.1 ≠ wpsSuccess then (r, wpsCont) else ({ r with smState := .failure }, wpsCont)
  else (r, wpsCont)

def regSmHandleMessage (proto : RegProto Keys) (nfcDevice : Bool) (r : RegSm Keys) (msg : Bytes) :
    RegSm Keys × Nat :=
  let msgType := proto.getMsgType msg
  if msgType.1 ≠ wpsSuccess then (r, wpsCont)
  else match r.lastMsgSent with
    | .mstart => handleMstart proto nfcDevice r msg msgType.2
    | .m2 => if r.session.devInfo.bOobM2 then handleOobM2 proto nfcDevice r msg msgType.2
      else handleM3 proto r msg msgType.2
    | .m2d => handleM2d proto r msg msgType.2
    | .m4 => handleM4 proto r msg msgType.2
    | .m6 => handleM6 proto r msg msgType.2
    | .m8 => handleM8 proto r msg msgType.2
    | _ => handleOther proto r msg msgType.2

/-- Whether there is memory for the message's buffer, the answer's buffer, and a restart. -/
structure Memory where
  inMsg : Bool
  outMsg : Bool
  restart : Bool

/-- What follows a handled message: the end of the exchange restarts the machine. -/
def actOnState (proto : RegProto Keys) (handled : RegSm Keys × Nat) (restart : Bool) :
    RegSm Keys × Nat :=
  match handled.1.smState with
  | .start | .continue_ => handled
  | .restart => (regSmRestartsm proto handled.1 restart, handled.2)
  | .success => (regSmRestartsm proto handled.1 restart,
      if handled.2 = wpsSendMsgCont then wpsSendMsgSuccess else wpsSuccess)
  | .failure => (regSmRestartsm proto handled.1 restart,
      if handled.2 = wpsSendMsgCont then wpsSendMsgError else wpsMessageProcessingError)

/-- A message that comes first is one the enrollee has started with. -/
def markStarted (r : RegSm Keys) (msg : Bytes) : RegSm Keys :=
  if r.lastMsgSent = .mnone ∧ msg ≠ [] then { r with lastMsgSent := .mstart } else r

def regSmLocalRegStep (proto : RegProto Keys) (nfcDevice : Bool) (r : RegSm Keys) (msg : Bytes)
    (memory : Memory) : RegSm Keys × Nat :=
  if msg = [] ∧ r.smState ≠ .start then (regSmRestartsm proto r memory.restart, wpsCont)
  else
    let r := markStarted r msg
    if memory.inMsg = false then (r, wpsErrOutofmemory)
    else
      let err := proto.checkNonce r.session msg
      if err ≠ wpsSuccess ∧ err ≠ rprotErrReqdTlvMissing then (r, wpsCont)
      else if memory.outMsg = false then (r, wpsErrOutofmemory)
      else actOnState proto (regSmHandleMessage proto nfcDevice r msg) memory.restart

end BcmDhd.Wps
