import BcmDhd.Wlfc.TxStatus

/-! The flow-control header that the dongle puts in front of what it sends: its TLVs,
one after the other, and all that is read and indexed on the way. -/

namespace BcmDhd.Wlfc

def wlfcUnsupported : Int := -9999

def wlfcMaxPendingDatalen : Nat := 120

def wlhostReorderdataTotlen : Nat := 12

def wlfcCtlTypeMacOpen : UInt8 := 1
def wlfcCtlTypeMacClose : UInt8 := 2
def wlfcCtlTypeMacRequestCredit : UInt8 := 3
def wlfcCtlTypeTxstatus : UInt8 := 4
def wlfcCtlTypeMacdescAdd : UInt8 := 6
def wlfcCtlTypeMacdescDel : UInt8 := 7
def wlfcCtlTypeInterfaceOpen : UInt8 := 9
def wlfcCtlTypeInterfaceClose : UInt8 := 10
def wlfcCtlTypeFifoCreditback : UInt8 := 11
def wlfcCtlTypeMacRequestPacket : UInt8 := 13
def wlfcCtlTypeHostReorderRxpkts : UInt8 := 14
def wlfcCtlTypeTransId : UInt8 := 18
def wlfcCtlTypeCompTxstatus : UInt8 := 19

def wlfcCtlValueLenTxstatus : Nat := 4
def wlfcCtlValueLenSeq : Nat := 2

/-- Something that parsing touches: a byte of the header, or an item of a table by an index
that came out of the header. A precedence is one of a queue with `numPrec` of them. -/
inductive Access
  | header (offset : Nat)
  | hangerSlot (slot : Nat)
  | interface (ifid : Nat)
  | precedence (prec numPrec : Nat)
  | node (index : Nat)
  deriving DecidableEq

/-- The access stays within the header, or within its table. -/
def Access.InRange (tlvHdrLen : Nat) : Access → Prop
  | .header offset => offset < tlvHdrLen
  | .hangerSlot slot => slot < wlfcHangerMaxitems
  | .interface ifid => ifid < wlfcMaxIfnum
  | .precedence prec numPrec => prec < numPrec
  | .node index => index < wlfcMacDescTableSize

instance (tlvHdrLen : Nat) : (access : Access) → Decidable (access.InRange tlvHdrLen)
  | .header _ => inferInstanceAs (Decidable (_ < _))
  | .hangerSlot _ => inferInstanceAs (Decidable (_ < _))
  | .interface _ => inferInstanceAs (Decidable (_ < _))
  | .precedence _ _ => inferInstanceAs (Decidable (_ < _))
  | .node _ => inferInstanceAs (Decidable (_ < _))

/-- `count` bytes from `offset` on. -/
def reads (offset count : Nat) : List Access := (List.range count).map fun i => .header (offset + i)

/-- What follows the start of the header in memory. -/
abbrev Tmpbuf := Nat → UInt8

def readH2dSeq (tmpbuf : Tmpbuf) (value : Nat) : H2dSeq :=
  let word := (tmpbuf value).toNat + (tmpbuf (value + 1)).toNat * 2 ^ 8
  { num := word % 2 ^ 12, fromdrv := word / 2 ^ 12 % 2, fromfw := word / 2 ^ 13 % 2
    amsdu := word / 2 ^ 14 % 2 }

def readTxStatus (mode : WlfcMode) (tmpbuf : Tmpbuf) (value : Nat) : TxStatus :=
  let word := (tmpbuf value).toNat + (tmpbuf (value + 1)).toNat * 2 ^ 8 +
    (tmpbuf (value + 2)).toNat * 2 ^ 16 + (tmpbuf (value + 3)).toNat * 2 ^ 24
  { flags := word / 2 ^ 27 % 2 ^ 4
    hcnt := tmpbuf value
    hslot := word / 2 ^ 8 % 2 ^ 16
    fifo := word / 2 ^ 24 % 2 ^ 3
    gen := word / 2 ^ 31
    seq := if mode.reuseseq then readH2dSeq tmpbuf (value + wlfcCtlValueLenTxstatus) else ⟨0, 0, 0, 0⟩ }

/-- The length of a status. -/
def txStatusLen (mode : WlfcMode) : Nat :=
  wlfcCtlValueLenTxstatus + if mode.reuseseq then wlfcCtlValueLenSeq else 0

/-- The indices that the rounds over a status make of it. The FIFO is the one of the header
only until the first packet is found. -/
def statusIndices (status : TxStatus) : Nat → Bool → Ctx × StatusCursor → List Access
  | 0, _, _ => []
  | left + 1, fromHeader, at_ =>
    let cursor := at_.2
    let acked := if cursor.flags = wlfcCtlPktflagSuppressAcked ∧ fromHeader then
      [.precedence (psqSupIdx cursor.fifo) wlfcPsqPrecCount] else []
    let place :=
      if at_.1.mode.afq then if fromHeader then [.precedence cursor.fifo wlfcAfqPrecCount] else []
      else if cursor.hslot = wlfcHangerMaxitems then [] else [.hangerSlot cursor.hslot]
    let found := (statusPkt (ackSuppressed at_.1 cursor) status cursor).2
    acked ++ place ++
      statusIndices status left (fromHeader && found.isNone) (statusRound at_.1 status cursor)

def txstatusAccesses (ctx : Ctx) (tmpbuf : Tmpbuf) (value len : Nat) : List Access :=
  let status := readTxStatus ctx.mode tmpbuf value
  reads value (txStatusLen ctx.mode) ++
    if ctx.txstatusIgnore then [] else statusIndices status len true (ctx, status.cursor)

/-- The address in a MACDESC_ADD. -/
def readEa (tmpbuf : Tmpbuf) (value : Nat) : List UInt8 :=
  (List.range 6).map fun i => tmpbuf (value + 2 + i)

/-- The table entry is looked at for its interface where one is to be made. -/
def macdescAddAccesses (ctx : Ctx) (tmpbuf : Tmpbuf) (value : Nat) : List Access :=
  let e := lookupIndex (tmpbuf value)
  let removed := { ctx with
    requestedEntries := dhdWlfcRemoveRequestedEntry ctx.requestedEntries e }
  reads value 8 ++ [.node e] ++
    if ((evictExisting removed e (readEa tmpbuf value)).entries e).occupied then []
    else [.interface (tmpbuf (value + 1)).toNat]

def macdescDelAccesses (ctx : Ctx) (tmpbuf : Tmpbuf) (value : Nat) : List Access :=
  let e := lookupIndex (tmpbuf value)
  reads value 2 ++ [.node e] ++
    if (ctx.entries e).occupied then [.interface (tmpbuf (value + 1)).toNat] else []

/-- The common course of the two requests. -/
def requestAccesses (ctx : Ctx) (tmpbuf : Tmpbuf) (value : Nat) : List Access :=
  let e := lookupIndex (tmpbuf (value + 1))
  reads value 2 ++ [.node e] ++ if (ctx.entries e).occupied then reads (value + 2) 1 else []

def interfaceAccesses (tmpbuf : Tmpbuf) (value : Nat) : List Access :=
  let ifid := (tmpbuf value).toNat
  reads value 1 ++ if ifid < wlfcMaxIfnum then [.interface ifid] else []

/-- What the handler of a TLV reads and indexes, whatever length the TLV tells. -/
def tlvAccesses (ctx : Ctx) (tmpbuf : Tmpbuf) (type : UInt8) (value : Nat) : List Access :=
  if type = wlfcCtlTypeTxstatus then txstatusAccesses ctx tmpbuf value 1
  else if type = wlfcCtlTypeCompTxstatus then
    let compcntOffset := txStatusLen ctx.mode
    reads (value + compcntOffset) 1 ++
      txstatusAccesses ctx tmpbuf value (tmpbuf (value + compcntOffset)).toNat
  else if type = wlfcCtlTypeFifoCreditback then
    if ctx.proptxstatusMode = .explicitCredit then reads value fifoCount else []
  else if type = wlfcCtlTypeMacRequestCredit ∨ type = wlfcCtlTypeMacRequestPacket then
    requestAccesses ctx tmpbuf value
  else if type = wlfcCtlTypeMacOpen ∨ type = wlfcCtlTypeMacClose then
    reads value 1 ++ [.node (lookupIndex (tmpbuf value))]
  else if type = wlfcCtlTypeMacdescAdd then macdescAddAccesses ctx tmpbuf value
  else if type = wlfcCtlTypeMacdescDel then macdescDelAccesses ctx tmpbuf value
  else if type = wlfcCtlTypeTransId then reads (value + 2) 4
  else if type = wlfcCtlTypeInterfaceOpen ∨ type = wlfcCtlTypeInterfaceClose then
    interfaceAccesses tmpbuf value
  else []

/-- A credit-back is used up where it stands. -/
def creditbackBytes (credits : Credits) (tmpbuf : Tmpbuf) (value : Nat) : Tmpbuf :=
  ((List.range fifoCount).foldl (fun (at_ : Credits × Tmpbuf) fifo =>
    (creditbackFifo at_.1 fifo (at_.2 (value + fifo)),
      Function.update at_.2 (value + fifo)
        (creditsToLenders fifo (List.range (acCount + 1)).reverse at_.1 (at_.2 (value + fifo))).2))
    (credits, tmpbuf)).2

def creditback (ctx : Ctx) (tmpbuf : Tmpbuf) (value : Nat) : Ctx × Tmpbuf :=
  (ctx.setCredits (dhdWlfcFifocreditbackIndicate ctx.proptxstatusMode ctx.credits
      fun fifo => tmpbuf (value + fifo)),
    if ctx.proptxstatusMode = .explicitCredit then creditbackBytes ctx.credits tmpbuf value else tmpbuf)

/-- What the handler of a TLV does. -/
def tlvEffect (ctx : Ctx) (tmpbuf : Tmpbuf) (type : UInt8) (value : Nat) : Ctx × Tmpbuf :=
  let byte := fun i => tmpbuf (value + i)
  if type = wlfcCtlTypeTxstatus then
    (indicateTxstatus ctx (readTxStatus ctx.mode tmpbuf value) 1, tmpbuf)
  else if type = wlfcCtlTypeCompTxstatus then
    (indicateTxstatus ctx (readTxStatus ctx.mode tmpbuf value) (byte (txStatusLen ctx.mode)).toNat, tmpbuf)
  else if type = wlfcCtlTypeFifoCreditback then creditback ctx tmpbuf value
  else if type = wlfcCtlTypeMacRequestCredit then
    (dhdWlfcCreditRequest ctx (byte 0) (byte 1) (byte 2), tmpbuf)
  else if type = wlfcCtlTypeMacRequestPacket then
    (dhdWlfcPacketRequest ctx (byte 0) (byte 1) (byte 2), tmpbuf)
  else if type = wlfcCtlTypeMacOpen ∨ type = wlfcCtlTypeMacClose then
    (dhdWlfcPsmodeUpdate ctx (byte 0) (decide (type = wlfcCtlTypeMacOpen)), tmpbuf)
  else if type = wlfcCtlTypeMacdescAdd ∨ type = wlfcCtlTypeMacdescDel then
    (dhdWlfcMacTableUpdate ctx (byte 0) (byte 1).toNat (readEa tmpbuf value)
      (decide (type = wlfcCtlTypeMacdescAdd)), tmpbuf)
  else if type = wlfcCtlTypeInterfaceOpen ∨ type = wlfcCtlTypeInterfaceClose then
    (dhdWlfcInterfaceUpdate ctx (byte 0).toNat (decide (type = wlfcCtlTypeInterfaceOpen)), tmpbuf)
  else (ctx, tmpbuf)

/-- Where the caller wants the reordering information: whether it gave a buffer, and a place
for the length. -/
structure ReorderTarget where
  infoBuf : Bool
  infoLen : Bool

/-- The state of the driver, if it is there, what is left in memory, and the reordering
information that was indicated. -/
structure ParseState where
  wlfc : Option Ctx
  tmpbuf : Tmpbuf
  reorderInfo : List UInt8

def reorderinfoFits (target : ReorderTarget) (len : Nat) : Bool :=
  target.infoBuf ∧ len ≤ wlhostReorderdataTotlen

/-- A TLV of `len` bytes at `value`. -/
def handleTlv (target : ReorderTarget) (state : ParseState) (type : UInt8) (len value : Nat) :
    ParseState × List Access :=
  let reorders := type = wlfcCtlTypeHostReorderRxpkts ∧ target.infoLen
  let info :=
    if reorders then
      if reorderinfoFits target len then (List.range len).map fun i => state.tmpbuf (value + i) else []
    else state.reorderInfo
  let copied := if reorders ∧ reorderinfoFits target len then reads value len else []
  match state.wlfc with
  | none => ({ state with reorderInfo := info }, copied)
  | some ctx =>
    let done := tlvEffect ctx state.tmpbuf type value
    (⟨some done.1, done.2, info⟩, copied ++ tlvAccesses ctx state.tmpbuf type value)

/-- Parsing so far. -/
structure Parsing where
  state : ParseState
  processed : Nat
  remainder : Nat

namespace Parsing

def goesOn (parsing : Parsing) : Bool :=
  parsing.processed < wlfcMaxPendingDatalen * 2 ∧ 0 < parsing.remainder

def type (parsing : Parsing) : UInt8 := parsing.state.tmpbuf parsing.processed

def len (parsing : Parsing) : Nat := (parsing.state.tmpbuf (parsing.processed + 1)).toNat

def value (parsing : Parsing) : Nat := parsing.processed + 2

end Parsing

/-- One round: what is touched, and where it goes on, if it does. -/
def parseRound (target : ReorderTarget) (parsing : Parsing) : Option Parsing × List Access :=
  if parsing.type = wlfcCtlTypeFiller then
    (some { parsing with processed := parsing.processed + 1, remainder := parsing.remainder - 1 },
      [.header parsing.processed])
  else if parsing.remainder < 2 + parsing.len then (none, reads parsing.processed 2)
  else
    let handled := handleTlv target parsing.state parsing.type parsing.len parsing.value
    (some ⟨handled.1, parsing.processed + (2 + parsing.len), parsing.remainder - (2 + parsing.len)⟩,
      reads parsing.processed 2 ++ handled.2)

/-- The loop. `none` if it does not end within the given rounds. -/
def parseLoop (target : ReorderTarget) : Nat → Parsing → List Access → Option (Parsing × List Access)
  | rounds, parsing, touched =>
    if parsing.goesOn then
      match rounds, parseRound target parsing with
      | 0, _ => none
      | _ + 1, (none, more) => some (parsing, touched ++ more)
      | rounds + 1, (some next, more) => parseLoop target rounds next (touched ++ more)
    else some (parsing, touched)

structure ParseResult where
  rc : Int
  wlfcState : Option Ctx
  reorderInfo : List UInt8
  touched : List Access

/-- The mode of `dhd_pub`, of which the state of the driver knows if it is there. -/
def proptxstatusMode (wlfcState : Option Ctx) (mode : FcMode) : FcMode :=
  match wlfcState with
  | some ctx => ctx.proptxstatusMode
  | none => mode

/-- Where parsing begins. Only for reordering, the state of the driver is out of reach. -/
def parseStart (wlfcState : Option Ctx) (mode : FcMode) (tmpbuf : Tmpbuf) (tlvHdrLen : Nat) : Parsing :=
  let reach := if proptxstatusMode wlfcState mode = .onlyAmpduHostreorder then none else wlfcState
  ⟨⟨reach, tmpbuf, []⟩, 0, tlvHdrLen % 2 ^ 16⟩

def dhdWlfcParseHeaderInfo (wlfcState : Option Ctx) (mode : FcMode) (target : ReorderTarget)
    (tmpbuf : Tmpbuf) (tlvHdrLen : Nat) : Option ParseResult :=
  let mode_ := proptxstatusMode wlfcState mode
  if mode_ ≠ .onlyAmpduHostreorder ∧ (wlfcState.isNone ∨ mode_ = .none) then
    some ⟨wlfcUnsupported, wlfcState, [], []⟩
  else
    (parseLoop target (wlfcMaxPendingDatalen * 2) (parseStart wlfcState mode tmpbuf tlvHdrLen) []).map
      fun done => ⟨bcmeOk, done.1.state.wlfc.or wlfcState, done.1.state.reorderInfo, done.2⟩

end BcmDhd.Wlfc
