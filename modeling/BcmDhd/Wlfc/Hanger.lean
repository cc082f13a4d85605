import BcmDhd.Wlfc.State

/-! Where packets are while the dongle has them: the hanger, or the at-firmware queue of their
entry. -/

namespace BcmDhd.Wlfc

open BcmDhd.Lib

/-- The slots after `slot_pos`, up to the one before it. -/
def slotOrder (slotPos : Nat) : List Nat :=
  (List.range (wlfcHangerMaxitems - 1)).map fun i => (slotPos + 1 + i) % wlfcHangerMaxitems

def dhdWlfcHangerGetFreeSlot (h : Hanger) : Hanger × Nat :=
  match (slotOrder h.slotPos).find? fun i => (h.items i).state = .free with
  | some i => ({ h with slotPos := i }, i)
  | none => (h, wlfcHangerMaxitems)

def dhdWlfcHangerGetGenbit (h : Hanger) (slot : Nat) : Nat :=
  if slot = wlfcHangerMaxitems then 0xff
  else if (h.items slot).state ≠ .free then (h.items slot).gen else 0xff

def dhdWlfcHangerPushpkt (ctx : Ctx) (p slot : Nat) : Ctx × Bool :=
  if slot < wlfcHangerMaxitems ∧ (ctx.hanger.items slot).state = .free then
    (ctx.setItem slot { ctx.hanger.items slot with
      state := .inuse, pkt := some p, txstatus := false, busreturned := false }, true)
  else (ctx, false)

/-- A freed item keeps its packet state. -/
def freedItem (item : HangerItem) : HangerItem :=
  { item with state := .free, pkt := none, gen := 0xff }

def dhdWlfcHangerPoppkt (ctx : Ctx) (slot : Nat) (removeFromHanger : Bool) : Ctx × Option Nat :=
  if slot = wlfcHangerMaxitems then (ctx, none)
  else
    let item := ctx.hanger.items slot
    if item.state ≠ .free then
      (if removeFromHanger then ctx.setItem slot (freedItem item) else ctx, item.pkt)
    else (ctx, none)

def dhdWlfcHangerMarkSuppressed (ctx : Ctx) (slot gen : Nat) : Ctx :=
  if slot = wlfcHangerMaxitems then ctx
  else
    let item := ctx.hanger.items slot
    ctx.setItem slot { item with
      gen := gen, state := if item.state = .inuse then .inuseSuppressed else item.state }

/-- Only the reference of a suppressed packet is removed. -/
def dhdWlfcHangerRemoveReference (ctx : Ctx) (p : Nat) : Ctx :=
  let slot := (ctx.pkts p).h2dtag.hslot
  let item := ctx.hanger.items slot
  if slot < wlfcHangerMaxitems ∧ item.pkt = some p ∧ item.state = .inuseSuppressed then
    ctx.setItem slot (freedItem item)
  else ctx

/-- The entry that a slot number of the at-firmware queues stands for. -/
def slotEntry (hslot : Nat) : Nat := if hslot < otherEntry then hslot else otherEntry

def dhdWlfcEnqueAfq (ctx : Ctx) (p : Nat) : Ctx :=
  let e := slotEntry (ctx.pkts p).h2dtag.hslot
  let prec := (ctx.pkts p).fifo
  ctx.setAfq e prec ((ctx.entries e).afq prec ++ [p])

def counterMatches (pkts : Nat → Pkt) (hcnt : UInt8) (p : Nat) : Bool :=
  hcnt = (pkts p).h2dtag.freerunctr

/-- The first packet with the counter is taken out. -/
def dhdWlfcDequeAfq (ctx : Ctx) (hslot : Nat) (hcnt : UInt8) (prec : Nat) : Ctx × Option Nat :=
  let e := slotEntry hslot
  let packets := (ctx.entries e).afq prec
  match packets.find? (counterMatches ctx.pkts hcnt) with
  | none => (ctx, none)
  | some p => (ctx.setAfq e prec (packets.eraseP (counterMatches ctx.pkts hcnt)), some p)

def bdcHeaderLen : Nat := 4

def wlfcCtlTypePkttag : UInt8 := 5

def wlfcCtlTypePendingTrafficBmp : UInt8 := 12

def wlfcCtlTypeFiller : UInt8 := 255

/-- The signals in front of a packet, filled up to a multiple of four bytes. `tim`
carries the MAC handle and the traffic bitmap when they are to be reported. -/
def wlHeader (reuseseq : Bool) (tim : Option (UInt8 × UInt8)) (htodtag : H2dTag) (htodseq : H2dSeq) :
    List UInt8 :=
  let signals := [wlfcCtlTypePkttag, if reuseseq then 6 else 4] ++ littleEndian 4 htodtag.word ++
    (if reuseseq then littleEndian 2 htodseq.word else []) ++
    (match tim with
      | some (macHandle, timBmp) => [wlfcCtlTypePendingTrafficBmp, 2, macHandle, timBmp]
      | none => [])
  signals ++ List.replicate ((4 - signals.length % 4) % 4) wlfcCtlTypeFiller

def bdcHeader (pkt : Pkt) (dataOffset : Nat) : List UInt8 :=
  [UInt8.ofNat (2 * 2 ^ 4 + if pkt.sumNeeded then 8 else 0), UInt8.ofNat (pkt.prio % 8),
    UInt8.ofNat pkt.ifidx, UInt8.ofNat (dataOffset / 4)]

def dhdWlfcPushheader (reuseseq : Bool) (pkt : Pkt) (tim : Option (UInt8 × UInt8)) (htodtag : H2dTag)
    (htodseq : H2dSeq) : List UInt8 :=
  let header := wlHeader reuseseq tim htodtag htodseq
  bdcHeader pkt header.length ++ header ++ pkt.data

/-- What is left of the bytes, also on failure. -/
def dhdWlfcPullheader (data : List UInt8) : List UInt8 × Int :=
  if data.length < bdcHeaderLen then (data, bcmeError)
  else
    let dataOffset := ((data[3]?).getD 0).toNat * 4
    let rest := data.drop bdcHeaderLen
    if rest.length < dataOffset then (rest, bcmeError) else (rest.drop dataOffset, bcmeOk)

theorem length_wlHeader (reuseseq : Bool) (tim : Option (UInt8 × UInt8)) (htodtag : H2dTag)
    (htodseq : H2dSeq) : (wlHeader reuseseq tim htodtag htodseq).length = 8 ∨
      (wlHeader reuseseq tim htodtag htodseq).length = 12 := by
  cases reuseseq <;> cases tim <;> simp [wlHeader]

theorem dhdWlfcPullheader_pushheader (reuseseq : Bool) (pkt : Pkt) (tim : Option (UInt8 × UInt8))
    (htodtag : H2dTag) (htodseq : H2dSeq) :
    dhdWlfcPullheader (dhdWlfcPushheader reuseseq pkt tim htodtag htodseq) = (pkt.data, bcmeOk) := by
  have length := length_wlHeader reuseseq tim htodtag htodseq
  have offset : (UInt8.ofNat ((wlHeader reuseseq tim htodtag htodseq).length / 4)).toNat * 4 =
      (wlHeader reuseseq tim htodtag htodseq).length := by
    rcases length with length | length <;> rw [length] <;> rfl
  have four : (dhdWlfcPushheader reuseseq pkt tim htodtag htodseq).drop bdcHeaderLen =
      wlHeader reuseseq tim htodtag htodseq ++ pkt.data := by
    simp [dhdWlfcPushheader, bdcHeader, bdcHeaderLen]
  have long : ¬ (dhdWlfcPushheader reuseseq pkt tim htodtag htodseq).length < bdcHeaderLen := by
    simp [dhdWlfcPushheader, bdcHeader, bdcHeaderLen]
  have third : ((dhdWlfcPushheader reuseseq pkt tim htodtag htodseq)[3]?).getD 0 =
      UInt8.ofNat ((wlHeader reuseseq tim htodtag htodseq).length / 4) := by
    simp [dhdWlfcPushheader, bdcHeader]
  unfold dhdWlfcPullheader
  rw [if_neg long]
  dsimp only
  rw [four, third, offset, if_neg (by simp), List.drop_left]

end BcmDhd.Wlfc
