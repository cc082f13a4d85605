import BcmDhd.Wlfc.Cleanup
import BcmDhd.Wlfc.Frame

namespace BcmDhd.Wlfc

open Function

/-- The state that a rollback into an entry has to restore. -/
structure Stake where
  psq : Nat → List Nat
  seq : Nat → UInt8
  requestedCredit : UInt8
  requestedPacket : UInt8
  slots : Nat → HangerState × Option Nat
  cntInQ : Nat → Nat → Int
  cntPerAc : Nat → Int
  cntInPsq : Int

def Ctx.stake (ctx : Ctx) (e : Nat) : Stake where
  psq := (ctx.entries e).psq
  seq := (ctx.entries e).seq
  requestedCredit := (ctx.entries e).requestedCredit
  requestedPacket := (ctx.entries e).requestedPacket
  slots slot := ((ctx.hanger.items slot).state, (ctx.hanger.items slot).pkt)
  cntInQ := ctx.pktCntInQ
  cntPerAc := ctx.pktCntPerAc
  cntInPsq := ctx.pktCntInPsq

namespace Stake

def countQueued (stake : Stake) (by_ : Int) (i ac : Nat) : Stake :=
  { stake with
    cntInQ := update stake.cntInQ i
      (update (stake.cntInQ i) ac (stake.cntInQ i ac + by_))
    cntPerAc := update stake.cntPerAc ac (stake.cntPerAc ac + by_)
    cntInPsq := stake.cntInPsq + by_ }

def setPsq (stake : Stake) (sub : Nat) (packets : List Nat) : Stake :=
  { stake with psq := update stake.psq sub packets }

theorem psq_setPsq (stake : Stake) (sub : Nat) (packets : List Nat) :
    (stake.setPsq sub packets).psq sub = packets := by
  simp [setPsq]

def setSeq (stake : Stake) (prec : Nat) (seq : UInt8) : Stake :=
  { stake with seq := update stake.seq prec seq }

def setSlot (stake : Stake) (slot : Nat) (state : HangerState) (pkt : Option Nat) : Stake :=
  { stake with slots := update stake.slots slot (state, pkt) }

def takeRequest (stake : Stake) : Stake :=
  { stake with
    requestedCredit :=
      if stake.requestedCredit > 0 then stake.requestedCredit - 1 else stake.requestedCredit
    requestedPacket :=
      if stake.requestedCredit > 0 ∨ stake.requestedPacket = 0 then stake.requestedPacket
      else stake.requestedPacket - 1 }

def returnRequest (stake : Stake) (due : Prop) [Decidable due] : Stake :=
  { stake with
    requestedCredit := if due then stake.requestedCredit + 1 else stake.requestedCredit }

/-- The sequence count of a delayed packet is taken back. -/
def countDown (stake : Stake) (prec : Nat) (delayed : Bool) : Stake :=
  { stake with
    seq := if delayed then update stake.seq prec (decrSeqcount (stake.seq prec))
      else stake.seq }

/-- A slot in use, with the new packet or the one that it has. -/
def hangUp (stake : Stake) (afq : Bool) (slot p : Nat) (headerNeeded : Bool) : Stake :=
  { stake with
    slots :=
      if afq then stake.slots
      else update stake.slots slot
        (.inuse, if headerNeeded then some p else (stake.slots slot).2) }

end Stake

/-- What the entry of a packet is looked up by, and the mode. -/
structure Route where
  mode : WlfcMode
  entry : Nat → Option Nat
  dstn : Nat → List UInt8
  ifidx : Nat → Nat
  fifo : Nat → Nat
  occupied : Nat → Bool
  interfaceId : Nat → Nat
  iftype : Nat → Nat
  ea : Nat → List UInt8

def Ctx.route (ctx : Ctx) : Route where
  mode := ctx.mode
  entry p := (ctx.pkts p).entry
  dstn p := (ctx.pkts p).dstn
  ifidx p := (ctx.pkts p).ifidx
  fifo p := (ctx.pkts p).fifo
  occupied e := (ctx.entries e).occupied
  interfaceId e := (ctx.entries e).interfaceId
  iftype e := (ctx.entries e).iftype
  ea e := (ctx.entries e).ea

theorem image_update {Key Value Image : Type} [DecidableEq Key] (f : Key → Value) (key : Key)
    (value : Value) (image : Value → Image) (same : image value = image (f key)) :
    (fun other => image (update f key value other)) = fun other => image (f other) :=
  (comp_update image f key value).trans (update_eq_self_iff.mpr same)

theorem route_setEntry {ctx : Ctx} {e : Nat} {entry : MacDescriptor}
    (same : SameDstn (ctx.entries e) entry) (ea : entry.ea = (ctx.entries e).ea) :
    (ctx.setEntry e entry).route = ctx.route := by
  unfold Ctx.route Ctx.setEntry
  dsimp only
  rw [image_update _ e entry MacDescriptor.occupied same.occupied,
    image_update _ e entry MacDescriptor.interfaceId same.interfaceId,
    image_update _ e entry MacDescriptor.iftype same.iftype,
    image_update _ e entry MacDescriptor.ea ea]

theorem route_setPkt {ctx : Ctx} {p : Nat} {pkt : Pkt} (entry : pkt.entry = (ctx.pkts p).entry)
    (dstn : pkt.dstn = (ctx.pkts p).dstn) (ifidx : pkt.ifidx = (ctx.pkts p).ifidx)
    (fifo : pkt.fifo = (ctx.pkts p).fifo) : (ctx.setPkt p pkt).route = ctx.route := by
  unfold Ctx.route Ctx.setPkt
  dsimp only
  rw [image_update _ p pkt Pkt.entry entry, image_update _ p pkt Pkt.dstn dstn,
    image_update _ p pkt Pkt.ifidx ifidx, image_update _ p pkt Pkt.fifo fifo]

/-- The look-up goes by the route alone. -/
theorem findTableEntry_route {ctx other : Ctx} (same : ctx.route = other.route) (p : Nat) :
    (dhdWlfcFindTableEntry ctx p).2 = (dhdWlfcFindTableEntry other p).2 := by
  have entry := congrFun (congrArg Route.entry same) p
  have dstn := congrFun (congrArg Route.dstn same) p
  have ifidx := congrFun (congrArg Route.ifidx same) p
  have occupied := congrFun (congrArg Route.occupied same)
  have interfaceId := congrFun (congrArg Route.interfaceId same)
  have iftype := congrFun (congrArg Route.iftype same)
  have ea := congrFun (congrArg Route.ea same)
  dsimp only [Ctx.route] at entry dstn ifidx occupied interfaceId iftype ea
  have served : interfaceServes ctx (ctx.pkts p) = interfaceServes other (other.pkts p) := by
    simp only [interfaceServes, dstn, ifidx, occupied, iftype]
  have node : findNode ctx (ctx.pkts p) = findNode other (other.pkts p) := by
    simp only [findNode, dstn, ifidx, occupied, interfaceId, ea]
  have looked : lookUpEntry ctx (ctx.pkts p) = lookUpEntry other (other.pkts p) := by
    simp only [lookUpEntry, served, node, dstn, ifidx]
  unfold dhdWlfcFindTableEntry
  dsimp only
  rw [← entry]
  cases (ctx.pkts p).entry with
  | some e => rfl
  | none => exact looked

section Steps

variable (ctx : Ctx) (e p : Nat)

theorem stake_setEntry (entry : MacDescriptor) : (ctx.setEntry e entry).stake e =
    { ctx.stake e with
      psq := entry.psq, seq := entry.seq, requestedCredit := entry.requestedCredit
      requestedPacket := entry.requestedPacket } := by
  unfold Ctx.stake
  rw [Ctx.entries_setEntry, update_self]
  rfl

theorem stake_setPsq (sub : Nat) (packets : List Nat) :
    (ctx.setPsq e sub packets).stake e = (ctx.stake e).setPsq sub packets :=
  stake_setEntry ctx e _

theorem stake_setSeq (prec : Nat) (seq : UInt8) :
    (setSeq ctx e prec seq).stake e = (ctx.stake e).setSeq prec seq :=
  stake_setEntry ctx e _

theorem stake_checkTraffic (prec : Nat) : (checkTraffic ctx e prec).stake e = ctx.stake e :=
  stake_setEntry ctx e _

theorem stake_countQueued (by_ : Int) (ac : Nat) : (ctx.countQueued by_ p ac).stake e =
    (ctx.stake e).countQueued by_ (ctx.pkts p).ifidx ac := rfl

theorem stake_setItem (slot : Nat) (item : HangerItem) : (ctx.setItem slot item).stake e =
    (ctx.stake e).setSlot slot item.state item.pkt := by
  have slots : (fun other => ((update ctx.hanger.items slot item other).state,
      (update ctx.hanger.items slot item other).pkt)) =
      update (ctx.stake e).slots slot (item.state, item.pkt) :=
    comp_update (fun item : HangerItem => (item.state, item.pkt)) ctx.hanger.items slot item
  unfold Stake.setSlot
  rw [← slots]
  rfl

theorem stake_takeRequest : (takeRequest ctx e p).stake e = (ctx.stake e).takeRequest := by
  unfold takeRequest
  dsimp only
  by_cases credit : (ctx.entries e).requestedCredit > 0
  · rw [if_pos credit, stake_setEntry]
    simp [Stake.takeRequest, Ctx.stake, credit]
  · rw [if_neg credit]
    by_cases packet : (ctx.entries e).requestedPacket > 0
    · rw [if_pos packet]
      have some : (ctx.entries e).requestedPacket ≠ 0 := UInt8.pos_iff_ne_zero.mp packet
      refine (stake_setEntry ctx e _).trans ?_
      simp [Stake.takeRequest, Ctx.stake, credit, some]
    · rw [if_neg packet]
      have none : (ctx.entries e).requestedPacket = 0 := by
        by_contra some
        exact packet (UInt8.pos_iff_ne_zero.mpr some)
      simp [Stake.takeRequest, Ctx.stake, credit, none]

theorem stake_returnRequest (prec : Nat) : (returnRequest ctx e prec p).stake e =
    (ctx.stake e).returnRequest (prec ≠ acCount ∧ ¬ (ctx.pkts p).creditcheck) := by
  unfold returnRequest Stake.returnRequest
  dsimp only
  split
  · exact stake_setEntry ctx e _
  · rfl

theorem stake_findTableEntry : (dhdWlfcFindTableEntry ctx p).1.stake e = ctx.stake e := by
  unfold dhdWlfcFindTableEntry
  dsimp only
  split
  · rfl
  · rfl

theorem stake_timSignal : (timSignal ctx e).1.stake e = ctx.stake e := by
  unfold timSignal
  dsimp only
  split
  · exact stake_setEntry ctx e _
  · rfl

theorem items_getFreeSlot (h : Hanger) : (dhdWlfcHangerGetFreeSlot h).1.items = h.items := by
  unfold dhdWlfcHangerGetFreeSlot
  split
  · rfl
  · rfl

theorem stake_identify (headerNeeded : Bool) :
    (identify ctx e p headerNeeded).1.stake e = ctx.stake e := by
  cases headerNeeded with
  | true =>
    have same : (if ctx.mode.afq then (ctx.hanger, e)
        else dhdWlfcHangerGetFreeSlot ctx.hanger).1.items = ctx.hanger.items := by
      split
      · rfl
      · exact items_getFreeSlot ctx.hanger
    unfold Ctx.stake
    change Stake.mk _ _ _ _ (fun slot =>
      (((if ctx.mode.afq then (ctx.hanger, e) else dhdWlfcHangerGetFreeSlot ctx.hanger).1.items slot).state,
        ((if ctx.mode.afq then (ctx.hanger, e)
          else dhdWlfcHangerGetFreeSlot ctx.hanger).1.items slot).pkt)) _ _ _ = _
    rw [same]
    rfl
  | false => rfl

theorem route_setSeq (prec : Nat) (seq : UInt8) : (setSeq ctx e prec seq).route = ctx.route :=
  route_setEntry ⟨rfl, rfl, rfl, rfl, rfl⟩ rfl

theorem route_setPsq (sub : Nat) (packets : List Nat) : (ctx.setPsq e sub packets).route = ctx.route :=
  route_setEntry ⟨rfl, rfl, rfl, rfl, rfl⟩ rfl

theorem route_takeRequest : (takeRequest ctx e p).route = ctx.route := by
  unfold takeRequest
  dsimp only
  split
  · exact route_setEntry ⟨rfl, rfl, rfl, rfl, rfl⟩ rfl
  · split
    · refine (route_setPkt ?_ ?_ ?_ ?_).trans (route_setEntry ?_ ?_)
      case refine_5 => exact ⟨rfl, rfl, rfl, rfl, rfl⟩
      all_goals rfl
    · rfl

theorem route_pickUp (prec sub : Nat) (rest : List Nat) :
    (pickUp ctx e prec sub p rest).route = ctx.route := by
  have taken := (route_takeRequest (ctx.setPsq e sub rest) e p).trans (route_setPsq ctx e sub rest)
  have checked : ∀ counted : Ctx, (checkTraffic counted e prec).route = counted.route :=
    fun counted => route_setEntry ⟨rfl, rfl, rfl, rfl, rfl⟩ rfl
  exact (checked _).trans taken

theorem route_timSignal : (timSignal ctx e).1.route = ctx.route := by
  unfold timSignal
  dsimp only
  split
  · exact route_setEntry ⟨rfl, rfl, rfl, rfl, rfl⟩ rfl
  · rfl

theorem route_identify (headerNeeded : Bool) : (identify ctx e p headerNeeded).1.route = ctx.route := by
  cases headerNeeded with
  | true => rfl
  | false => exact route_setPkt rfl rfl rfl rfl

theorem route_hangUp (hslot : Nat) (headerNeeded : Bool) :
    (hangUp ctx p hslot headerNeeded).1.route = ctx.route := by
  unfold hangUp
  split
  · rfl
  · split
    · unfold dhdWlfcHangerPushpkt
      split
      · rfl
      · rfl
    · rfl

theorem route_pretx (headerNeeded : Bool) :
    (dhdWlfcPretxPktprocess ctx e p headerNeeded).1.route = ctx.route := by
  have ready := (route_identify (timSignal ctx e).1 e p headerNeeded).trans (route_timSignal ctx e)
  have headed : ∀ identified : Ctx, ∀ tim id,
      (identified.setPkt p (headedPkt ctx.mode (identified.pkts p) tim id)).route = identified.route :=
    fun identified tim id => route_setPkt rfl rfl rfl rfl
  unfold dhdWlfcPretxPktprocess
  dsimp only
  split
  · exact ready
  · split
    · split
      · exact (route_setSeq _ e _ _).trans ((route_hangUp _ p _ _).trans ((headed _ _ _).trans ready))
      · exact (route_hangUp _ p _ _).trans ((headed _ _ _).trans ready)
    · exact (route_hangUp _ p _ _).trans ((headed _ _ _).trans ready)

/-- The slot that a packet goes out with, if there is one. -/
def commitSlot (headerNeeded : Bool) : Nat :=
  if headerNeeded then (if ctx.mode.afq then e else (dhdWlfcHangerGetFreeSlot ctx.hanger).2)
  else (ctx.pkts p).h2dtag.hslot

/-- The packet without the header of its last commit. -/
def bared (headerNeeded : Bool) : Pkt :=
  if headerNeeded then ctx.pkts p
  else { ctx.pkts p with data := (dhdWlfcPullheader (ctx.pkts p).data).1 }

theorem getFreeSlot_free {h : Hanger} (inside : (dhdWlfcHangerGetFreeSlot h).2 < wlfcHangerMaxitems) :
    (h.items (dhdWlfcHangerGetFreeSlot h).2).state = .free := by
  unfold dhdWlfcHangerGetFreeSlot at inside ⊢
  split
  · rename_i i found
    simpa using List.find?_some found
  · rename_i none
    rw [none] at inside
    exact absurd inside (lt_irrefl _)

theorem identify_hslot (ctx : Ctx) (e p : Nat) (headerNeeded : Bool) :
    (identify ctx e p headerNeeded).2.hslot =
      if headerNeeded then (if ctx.mode.afq then e else (dhdWlfcHangerGetFreeSlot ctx.hanger).2)
      else (ctx.pkts p).h2dtag.hslot := by
  cases headerNeeded with
  | true =>
    change (if ctx.mode.afq then (ctx.hanger, e) else dhdWlfcHangerGetFreeSlot ctx.hanger).2 = _
    rw [if_pos rfl]
    split <;> rfl
  | false => rfl

theorem timSignal_same : (timSignal ctx e).1.mode = ctx.mode ∧
    (timSignal ctx e).1.hanger = ctx.hanger ∧ (timSignal ctx e).1.pkts = ctx.pkts := by
  unfold timSignal
  dsimp only
  split
  · exact ⟨rfl, rfl, rfl⟩
  · exact ⟨rfl, rfl, rfl⟩

theorem identified_slot (headerNeeded : Bool) :
    (identify (timSignal ctx e).1 e p headerNeeded).2.hslot = commitSlot ctx e p headerNeeded := by
  obtain ⟨mode, hanger, pkts⟩ := timSignal_same ctx e
  rw [identify_hslot, commitSlot, mode, hanger, ← pkts]

theorem identified_pkts (headerNeeded : Bool) :
    (identify (timSignal ctx e).1 e p headerNeeded).1.pkts =
      update ctx.pkts p (bared ctx p headerNeeded) := by
  obtain ⟨-, -, pkts⟩ := timSignal_same ctx e
  cases headerNeeded with
  | true =>
    change (timSignal ctx e).1.pkts = update ctx.pkts p (ctx.pkts p)
    rw [pkts, update_eq_self]
  | false =>
    change update (timSignal ctx e).1.pkts p _ = _
    rw [pkts]
    rfl

theorem pretx_stuck {headerNeeded : Bool} (none : commitSlot ctx e p headerNeeded ≥ wlfcHangerMaxitems) :
    (dhdWlfcPretxPktprocess ctx e p headerNeeded).2 = bcmeError ∧
    (dhdWlfcPretxPktprocess ctx e p headerNeeded).1.stake e = ctx.stake e ∧
    (dhdWlfcPretxPktprocess ctx e p headerNeeded).1.pkts =
      update ctx.pkts p (bared ctx p headerNeeded) := by
  unfold dhdWlfcPretxPktprocess
  dsimp only
  rw [identified_slot, if_pos none]
  exact ⟨rfl, (stake_identify _ e p headerNeeded).trans (stake_timSignal ctx e),
    identified_pkts ctx e p headerNeeded⟩

theorem stake_hangUp (slot : Nat) (headerNeeded : Bool)
    (free : ctx.mode.afq = false → headerNeeded = true →
      slot < wlfcHangerMaxitems ∧ (ctx.hanger.items slot).state = .free) :
    (hangUp ctx p slot headerNeeded).2 = true ∧
    (hangUp ctx p slot headerNeeded).1.pkts = ctx.pkts ∧
    (hangUp ctx p slot headerNeeded).1.stake e =
      (ctx.stake e).hangUp ctx.mode.afq slot p headerNeeded := by
  unfold hangUp Stake.hangUp
  cases afq : ctx.mode.afq with
  | true => exact ⟨rfl, rfl, rfl⟩
  | false =>
    cases headerNeeded with
    | true =>
      rw [if_neg (by simp), if_pos rfl, dhdWlfcHangerPushpkt, if_pos (free afq rfl)]
      exact ⟨rfl, rfl, stake_setItem ctx e slot _⟩
    | false =>
      rw [if_neg (by simp), if_neg (by simp)]
      exact ⟨rfl, rfl, stake_setItem ctx e slot _⟩

/-- With a slot the packet gets a header, and a new one its place in the sequence. -/
theorem pretx_ready {headerNeeded : Bool} (slot : commitSlot ctx e p headerNeeded < wlfcHangerMaxitems) :
    (dhdWlfcPretxPktprocess ctx e p headerNeeded).2 = bcmeOk ∧
    ((dhdWlfcPretxPktprocess ctx e p headerNeeded).1.stake e =
      let hung := (ctx.stake e).hangUp ctx.mode.afq (commitSlot ctx e p headerNeeded) p headerNeeded
      if headerNeeded then hung.setSeq (ctx.pkts p).fifo (hung.seq (ctx.pkts p).fifo + 1) else hung) ∧
    ∃ tim id, id.hslot = commitSlot ctx e p headerNeeded ∧
      (headerNeeded = false → id.freeCtr = (ctx.pkts p).h2dtag.freerunctr) ∧
      (dhdWlfcPretxPktprocess ctx e p headerNeeded).1.pkts = update ctx.pkts p
        (headedPkt ctx.mode (bared ctx p headerNeeded) tim id) := by
  have mode : (identify (timSignal ctx e).1 e p headerNeeded).1.mode = ctx.mode :=
    ((Aging.timSignal ctx e).trans (Aging.identify _ e p headerNeeded)).mode
  have stake := (stake_identify (timSignal ctx e).1 e p headerNeeded).trans (stake_timSignal ctx e)
  have named := identified_slot ctx e p headerNeeded
  have pkts := identified_pkts ctx e p headerNeeded
  have counted : headerNeeded = false →
      (identify (timSignal ctx e).1 e p headerNeeded).2.freeCtr = (ctx.pkts p).h2dtag.freerunctr := by
    rintro rfl
    rw [← (timSignal_same ctx e).2.2]
    rfl
  have free : ctx.mode.afq = false → headerNeeded = true →
      (ctx.hanger.items (commitSlot ctx e p headerNeeded)).state = .free := by
    rintro hanger rfl
    rw [commitSlot, if_pos rfl, hanger, if_neg (by simp)] at slot ⊢
    exact getFreeSlot_free slot
  unfold dhdWlfcPretxPktprocess
  dsimp only
  generalize (timSignal ctx e).2 = tim
  rw [named, if_neg (by omega)]
  generalize identify (timSignal ctx e).1 e p headerNeeded = identified at mode stake named pkts counted ⊢
  obtain ⟨found, id⟩ := identified
  dsimp only at mode stake named pkts counted ⊢
  have bare : found.pkts p = bared ctx p headerNeeded := by
    rw [pkts, update_self]
  have headedStake : (found.setPkt p (headedPkt ctx.mode (found.pkts p) tim id)).stake e = ctx.stake e :=
    stake
  have headedMode : (found.setPkt p (headedPkt ctx.mode (found.pkts p) tim id)).mode = ctx.mode := mode
  have headedPkts : (found.setPkt p (headedPkt ctx.mode (found.pkts p) tim id)).pkts =
      update ctx.pkts p (headedPkt ctx.mode (bared ctx p headerNeeded) tim id) := by
    change update found.pkts p _ = _
    rw [bare, pkts, update_idem]
  generalize found.setPkt p (headedPkt ctx.mode (found.pkts p) tim id) = headed
    at headedStake headedMode headedPkts ⊢
  obtain ⟨hung, hungPkts, hungStake⟩ := stake_hangUp headed e p (commitSlot ctx e p headerNeeded)
    headerNeeded (by
      intro hanger new
      rw [headedMode] at hanger
      have state := congrArg (fun stake : Stake =>
        (stake.slots (commitSlot ctx e p headerNeeded)).1) headedStake
      exact ⟨slot, state.trans (free hanger new)⟩)
  rw [if_pos hung]
  rw [headedStake, headedMode] at hungStake
  have shape : ∃ tim id, id.hslot = commitSlot ctx e p headerNeeded ∧
      (headerNeeded = false → id.freeCtr = (ctx.pkts p).h2dtag.freerunctr) ∧
      (hangUp headed p (commitSlot ctx e p headerNeeded) headerNeeded).1.pkts =
        update ctx.pkts p (headedPkt ctx.mode (bared ctx p headerNeeded) tim id) :=
    ⟨tim, id, named, counted, hungPkts.trans headedPkts⟩
  generalize (hangUp headed p (commitSlot ctx e p headerNeeded) headerNeeded).1 = hungCtx
    at hungStake shape ⊢
  cases headerNeeded with
  | true =>
    rw [if_pos rfl, if_pos rfl, ← hungStake]
    exact ⟨rfl, stake_setSeq hungCtx e _ _, shape⟩
  | false =>
    rw [if_neg (by simp), if_neg (by simp)]
    exact ⟨rfl, hungStake, shape⟩

/-- The counters that suppressed packets are ordered by. -/
def Ctx.counters (q : Nat) : UInt8 := (ctx.pkts q).h2dtag.freerunctr

theorem counters_setPkt {pkt : Pkt} (same : pkt.h2dtag.freerunctr = (ctx.pkts p).h2dtag.freerunctr) :
    (ctx.setPkt p pkt).counters = ctx.counters :=
  image_update ctx.pkts p pkt (fun pkt => pkt.h2dtag.freerunctr) same

theorem counters_findTableEntry : (dhdWlfcFindTableEntry ctx p).1.counters = ctx.counters := by
  unfold dhdWlfcFindTableEntry
  dsimp only
  split
  · rfl
  · exact counters_setPkt ctx p rfl

theorem findTableEntry_pkt : (dhdWlfcFindTableEntry ctx p).1.mode = ctx.mode ∧
    ((dhdWlfcFindTableEntry ctx p).1.pkts p).data = (ctx.pkts p).data ∧
    ((dhdWlfcFindTableEntry ctx p).1.pkts p).ifidx = (ctx.pkts p).ifidx ∧
    ((dhdWlfcFindTableEntry ctx p).1.pkts p).creditcheck = (ctx.pkts p).creditcheck := by
  unfold dhdWlfcFindTableEntry
  dsimp only
  split
  · exact ⟨rfl, rfl, rfl, rfl⟩
  · simp [Ctx.setPkt]

theorem returnRequest_same (prec : Nat) : (returnRequest ctx e prec p).mode = ctx.mode ∧
    (returnRequest ctx e prec p).pkts = ctx.pkts := by
  unfold returnRequest
  dsimp only
  split
  · exact ⟨rfl, rfl⟩
  · exact ⟨rfl, rfl⟩

theorem precEnque_counters {pkts others : Nat → Pkt} {packets : List Nat} {prec : Nat} {qHead reOrder : Bool}
    {currentSeq : UInt8} (same : ∀ q, (pkts q).h2dtag.freerunctr = (others q).h2dtag.freerunctr) :
    dhdWlfcPrecEnque pkts packets prec p qHead currentSeq reOrder =
      dhdWlfcPrecEnque others packets prec p qHead currentSeq reOrder := by
  have adjusted : dhdWlfcAdjustedSeq pkts currentSeq = dhdWlfcAdjustedSeq others currentSeq := by
    funext q
    simp only [dhdWlfcAdjustedSeq, same q]
  simp only [dhdWlfcPrecEnque, adjusted]

theorem precEnque_delayed (pkts : Nat → Pkt) (packets : List Nat) (ac : Nat) (currentSeq : UInt8)
    (reOrder : Bool) :
    dhdWlfcPrecEnque pkts packets (psqDlyIdx ac) p true currentSeq reOrder = p :: packets := by
  unfold dhdWlfcPrecEnque psqDlyIdx
  cases packets with
  | nil => rfl
  | cons next rest =>
    simp

/-- A suppressed packet goes back to the head unless it is reordered behind the next one. -/
theorem precEnque_suppressed_iff (pkts : Nat → Pkt) (packets : List Nat) (ac : Nat) (currentSeq : UInt8)
    (reOrder : Bool) :
    dhdWlfcPrecEnque pkts packets (psqSupIdx ac) p true currentSeq reOrder = p :: packets ↔
      (reOrder = true → ∀ next ∈ packets.head?,
        dhdWlfcAdjustedSeq pkts currentSeq p ≤ dhdWlfcAdjustedSeq pkts currentSeq next) := by
  unfold dhdWlfcPrecEnque psqSupIdx
  cases packets with
  | nil => simp
  | cons next rest =>
    have ordered : insertBySeq (dhdWlfcAdjustedSeq pkts currentSeq) p (next :: rest) = p :: next :: rest ↔
        dhdWlfcAdjustedSeq pkts currentSeq p ≤ dhdWlfcAdjustedSeq pkts currentSeq next := by
      unfold insertBySeq
      split
      · rename_i behind
        refine ⟨fun same => ?_, fun before => absurd before (by omega)⟩
        have is := (List.cons.inj same).1
        rw [is]
      · rename_i before
        exact ⟨fun _ => by omega, fun _ => rfl⟩
    cases reOrder with
    | false => simp
    | true =>
      have odd : (ac * 2 + 1) % 2 = 1 := by omega
      by_cases behind : dhdWlfcAdjustedSeq pkts currentSeq p + 1 > dhdWlfcAdjustedSeq pkts currentSeq next
      · simpa [odd, behind] using ordered
      · have before : dhdWlfcAdjustedSeq pkts currentSeq p ≤ dhdWlfcAdjustedSeq pkts currentSeq next := by
          omega
        simp [odd, behind, before]

theorem stake_enqueCounted (prec : Nat) (qHead : Bool) (currentSeq : UInt8) :
    (enqueCounted ctx e p prec qHead currentSeq).stake e =
      ((ctx.stake e).setPsq prec (dhdWlfcPrecEnque ctx.pkts ((ctx.stake e).psq prec) prec p qHead
        currentSeq ctx.mode.reordersupp)).countQueued 1 (ctx.pkts p).ifidx (prec / 2) := by
  unfold enqueCounted
  rw [stake_countQueued, stake_setPsq]
  rfl

theorem stake_rollbackHeader (prec : Nat) (delayed : Bool)
    (pulled : delayed = true → (dhdWlfcPullheader (ctx.pkts p).data).2 = bcmeOk) :
    (rollbackHeader ctx e prec p delayed).2 = bcmeOk ∧
    (rollbackHeader ctx e prec p delayed).1.mode = ctx.mode ∧
    (rollbackHeader ctx e prec p delayed).1.counters = ctx.counters ∧
    ((rollbackHeader ctx e prec p delayed).1.pkts p).ifidx = (ctx.pkts p).ifidx ∧
    ((rollbackHeader ctx e prec p delayed).1.pkts p).data =
      (if delayed then (dhdWlfcPullheader (ctx.pkts p).data).1 else (ctx.pkts p).data) ∧
    (rollbackHeader ctx e prec p delayed).1.stake e = (ctx.stake e).countDown prec delayed := by
  cases delayed with
  | true =>
    refine ⟨pulled rfl, rfl, counters_setPkt _ p rfl, ?_, ?_, stake_setSeq ctx e prec _⟩
    · simp [rollbackHeader, Ctx.setPkt]
    · simp [rollbackHeader, Ctx.setPkt]
  | false => exact ⟨rfl, rfl, rfl, rfl, rfl, rfl⟩

/-- A rollback into the entry that the packet came from, as far as the header comes off. -/
theorem stake_rollBack {info : CommitInfo} (own : (dhdWlfcFindTableEntry ctx info.p).2 = e)
    (room : chooseEvict (ctx.stake e).psq
      (if info.needsHdr then (ctx.pkts info.p).fifo * 2 else (ctx.pkts info.p).fifo * 2 + 1) = .room)
    (pulled : info.needsHdr = true → (dhdWlfcPullheader (ctx.pkts info.p).data).2 = bcmeOk) :
    ∃ pkts : Nat → Pkt, (∀ q, (pkts q).h2dtag.freerunctr = ctx.counters q) ∧
    ((rollBack ctx info).stake e =
      let ac := (ctx.pkts info.p).fifo
      let sub := if info.needsHdr then ac * 2 else ac * 2 + 1
      let returned :=
        (ctx.stake e).returnRequest (ac ≠ acCount ∧ ¬ (ctx.pkts info.p).creditcheck)
      let bare := returned.countDown ac info.needsHdr
      (bare.setPsq sub (dhdWlfcPrecEnque pkts (bare.psq sub) sub info.p true (bare.seq ac)
        ctx.mode.reordersupp)).countQueued 1 (ctx.pkts info.p).ifidx ac) ∧
    ((rollBack ctx info).pkts info.p).data =
      if info.needsHdr then (dhdWlfcPullheader (ctx.pkts info.p).data).1
      else (ctx.pkts info.p).data := by
  obtain ⟨foundMode, foundData, foundIfidx, foundCheck⟩ := findTableEntry_pkt ctx info.p
  have foundStake := stake_findTableEntry ctx e info.p
  have foundCounters := counters_findTableEntry ctx info.p
  unfold rollBack dhdWlfcRollbackPacketToq
  dsimp only
  rw [own]
  generalize (dhdWlfcFindTableEntry ctx info.p).1 = found
    at foundMode foundData foundIfidx foundCheck foundStake foundCounters ⊢
  generalize (ctx.pkts info.p).fifo = ac at room ⊢
  generalize named : (if info.needsHdr then ac * 2 else ac * 2 + 1) = sub at room ⊢
  have half : sub / 2 = ac := by
    rw [← named]
    split
    · omega
    · omega
  have returnedStake := stake_returnRequest found e info.p ac
  obtain ⟨returnedMode, returnedPkts⟩ := returnRequest_same found e info.p ac
  rw [foundStake, foundCheck] at returnedStake
  generalize returnRequest found e ac info.p = returned at returnedStake returnedMode returnedPkts ⊢
  have returnedData : (returned.pkts info.p).data = (ctx.pkts info.p).data := by
    rw [returnedPkts, foundData]
  have returnedCounters : returned.counters = ctx.counters := by
    rw [← foundCounters]
    unfold Ctx.counters
    rw [returnedPkts]
  have returnedIfidx : (returned.pkts info.p).ifidx = (ctx.pkts info.p).ifidx := by
    rw [returnedPkts, foundIfidx]
  obtain ⟨ok, bareMode, bareCounters, bareIfidx, bareData, bareStake⟩ :=
    stake_rollbackHeader returned e info.p ac info.needsHdr (by rwa [returnedData])
  rw [returnedStake] at bareStake
  rw [if_neg (by rw [ok]; decide)]
  generalize (rollbackHeader returned e ac info.p info.needsHdr).1 = bare
    at bareMode bareCounters bareIfidx bareData bareStake ⊢
  have barePsq : (bare.entries e).psq = (ctx.stake e).psq := by
    change (bare.stake e).psq = _
    rw [bareStake]
    rfl
  have enqueued : dhdWlfcPrecEnqWithDrop bare e info.p sub true ((bare.entries e).seq ac) =
      (enqueCounted bare e info.p sub true ((bare.entries e).seq ac), true) := by
    unfold dhdWlfcPrecEnqWithDrop
    rw [barePsq, room]
  rw [enqueued]
  refine ⟨bare.pkts, fun q => ?_, ?_, ?_⟩
  · exact congrFun (bareCounters.trans returnedCounters) q
  · change (enqueCounted bare e info.p sub true ((bare.entries e).seq ac)).stake e = _
    rw [stake_enqueCounted, half, bareMode, returnedMode, foundMode, bareIfidx, returnedIfidx]
    change (((bare.stake e).setPsq sub (dhdWlfcPrecEnque bare.pkts ((bare.stake e).psq sub) sub info.p
      true ((bare.stake e).seq ac) ctx.mode.reordersupp)).countQueued 1 (ctx.pkts info.p).ifidx ac) = _
    rw [bareStake]
  · simp only [setCreditcheck, Ctx.setPkt, update_self]
    exact bareData.trans (by rw [returnedData])

end Steps

end BcmDhd.Wlfc
