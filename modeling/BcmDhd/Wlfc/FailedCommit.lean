import BcmDhd.Wlfc.CommitStake
import BcmDhd.Wlfc.Driver

namespace BcmDhd.Wlfc

open Function

/-- The sub-queue that a packet was dequeued from. -/
def CommitInfo.sub (info : CommitInfo) (ac : Nat) : Nat :=
  if info.needsHdr then psqDlyIdx ac else psqSupIdx ac

/-- The bytes of a packet behind the header of an earlier commit, if there was one. -/
def payload (pkt : Pkt) (committed : Bool) : List UInt8 :=
  if committed then (dhdWlfcPullheader pkt.data).1 else pkt.data

/-- The packet is back at the head of its queue, and nothing else is left of the commit. -/
structure Undone (before after : Ctx) (info : CommitInfo) (ac : Nat) : Prop where
  queue : (after.entries info.macEntry).psq (info.sub ac) =
    (before.entries info.macEntry).psq (info.sub ac)
  bytes : payload (after.pkts info.p) (!info.needsHdr) = payload (before.pkts info.p) (!info.needsHdr)
  seq : (after.entries info.macEntry).seq = (before.entries info.macEntry).seq
  requestedCredit : (after.entries info.macEntry).requestedCredit =
    (before.entries info.macEntry).requestedCredit
  requestedPacket : (after.entries info.macEntry).requestedPacket =
    (before.entries info.macEntry).requestedPacket
  slotState : ∀ slot, (after.hanger.items slot).state = (before.hanger.items slot).state
  slotPkt : ∀ slot, (after.hanger.items slot).pkt = (before.hanger.items slot).pkt
  cntInQ : after.pktCntInQ = before.pktCntInQ
  cntPerAc : after.pktCntPerAc = before.pktCntPerAc
  cntInPsq : after.pktCntInPsq = before.pktCntInPsq

/-- The rollback gives back a requested credit, if and only if the dequeue takes one; a requested
packet it does not give back. -/
def RequestReturned (entry : MacDescriptor) (ac : Nat) : Prop :=
  if entry.requestedCredit > 0 then ac ≠ acCount ∧ entry.state = .closed
  else entry.requestedPacket = 0 ∧ (ac = acCount ∨ entry.state ≠ .closed)

/-- There is a slot for a new packet, with no packet left in it. -/
def SlotWaits (ctx : Ctx) (e : Nat) : Prop :=
  if ctx.mode.afq then e < wlfcHangerMaxitems
  else ∃ slot, ((slotOrder ctx.hanger.slotPos).find? fun i => (ctx.hanger.items i).state = .free) =
    some slot ∧ (ctx.hanger.items slot).pkt = none

/-- A suppressed packet keeps its slot, whose state does not tell that it was suppressed. Without
a slot it loses a header for good. -/
def SlotKept (ctx : Ctx) (p : Nat) : Prop :=
  if (ctx.pkts p).h2dtag.hslot < wlfcHangerMaxitems then
    ctx.mode.afq = true ∨ (ctx.hanger.items (ctx.pkts p).h2dtag.hslot).state = .inuse
  else
    (dhdWlfcPullheader (dhdWlfcPullheader (ctx.pkts p).data).1).1 =
      (dhdWlfcPullheader (ctx.pkts p).data).1

/-- No packet of the queue goes before its first one when this is put back in order. -/
def HeadFirst (ctx : Ctx) (e ac p : Nat) : Prop :=
  ctx.mode.reordersupp = true → ∀ next ∈ ((ctx.entries e).psq (psqSupIdx ac)).tail.head?,
    dhdWlfcAdjustedSeq ctx.pkts ((ctx.entries e).seq ac) p ≤
      dhdWlfcAdjustedSeq ctx.pkts ((ctx.entries e).seq ac) next

/-- The states in which a dequeued packet can be put back as if nothing had happened. -/
structure Undoable (ctx : Ctx) (info : CommitInfo) (ac : Nat) : Prop where
  entry : (dhdWlfcFindTableEntry ctx info.p).2 = info.macEntry
  fifo : (ctx.pkts info.p).fifo = ac
  request : RequestReturned (ctx.entries info.macEntry) ac
  delayed : info.needsHdr = true → SlotWaits ctx info.macEntry
  suppressed : info.needsHdr = false → SlotKept ctx info.p ∧ HeadFirst ctx info.macEntry ac info.p

/-- The way of a dequeue, as far as it is at stake. -/
structure Taken (ctx dequeued : Ctx) (info : CommitInfo) (ac : Nat) (rest : List Nat) : Prop where
  queue : (ctx.entries info.macEntry).psq (info.sub ac) = info.p :: rest
  route : dequeued.route = ctx.route
  stake : dequeued.stake info.macEntry = (((ctx.stake info.macEntry).setPsq (info.sub ac)
    rest).takeRequest).countQueued (-1) (ctx.pkts info.p).ifidx ac
  hanger : dequeued.hanger = ctx.hanger
  data : (dequeued.pkts info.p).data = (ctx.pkts info.p).data
  tag : ∀ q, (dequeued.pkts q).h2dtag = (ctx.pkts q).h2dtag
  spent : info.acFifoCreditSpent =
    decide (creditSpent ctx ac = true ∧ (ctx.entries info.macEntry).state ≠ .closed)

theorem takeRequest_pkts (ctx : Ctx) (e p : Nat) : (takeRequest ctx e p).hanger = ctx.hanger ∧
    ((takeRequest ctx e p).pkts p).data = (ctx.pkts p).data ∧
    ((takeRequest ctx e p).pkts p).ifidx = (ctx.pkts p).ifidx ∧
    ∀ q, ((takeRequest ctx e p).pkts q).h2dtag = (ctx.pkts q).h2dtag := by
  unfold takeRequest
  dsimp only
  split
  · exact ⟨rfl, rfl, rfl, fun _ => rfl⟩
  · split
    · refine ⟨rfl, ?_, ?_, fun q => ?_⟩
      · simp [Ctx.setPkt]
      · simp [Ctx.setPkt]
      · by_cases same : q = p
        · simp [Ctx.setPkt, Ctx.setEntry, same]
        · simp [Ctx.setPkt, Ctx.setEntry, same]
    · exact ⟨rfl, rfl, rfl, fun _ => rfl⟩

theorem dequeued_taken {ctx dequeued : Ctx} {ac : Nat} {onlyNoCredit : Bool} {info : CommitInfo}
    (found : dhdWlfcDequeDelayedq ctx ac onlyNoCredit = (dequeued, some info)) :
    ∃ rest, Taken ctx dequeued info ac rest := by
  obtain ⟨actives, -, ⟨e, -, after, found', here, same⟩ | same⟩ :=
    dhdWlfcDequeDelayedq_cases ctx ac onlyNoCredit
  · rw [found] at same
    obtain ⟨rfl, is⟩ := Prod.mk.inj same
    obtain rfl := Option.some.inj is
    obtain ⟨-, rfl, spent, sub, rest, packets, rfl, kind⟩ := dequeFrom_cases here
    have named : info.sub ac = sub := by
      rcases kind with ⟨old, rfl⟩ | ⟨new, rfl, -⟩
      · simp [CommitInfo.sub, old]
      · simp [CommitInfo.sub, new]
    obtain ⟨hanger, data, ifidx, tag⟩ := takeRequest_pkts
      (Ctx.setPsq { ctx with activeEntries := actives } info.macEntry sub rest) info.macEntry info.p
    refine ⟨rest, ?_⟩
    constructor
    case queue => rw [named]; exact packets
    case route => exact route_pickUp _ info.macEntry info.p ac sub rest
    case stake =>
      unfold pickUp
      rw [stake_checkTraffic, stake_countQueued, stake_takeRequest, stake_setPsq, named, ifidx]
      rfl
    case hanger => exact hanger
    case data => exact data
    case tag => exact tag
    case spent => exact spent
  · rw [found] at same
    exact absurd (congrArg Prod.snd same) (by simp)

/-- The state that the rollback of a failed commit starts from. -/
structure Beaten (dequeued beaten : Ctx) (info : CommitInfo) : Prop where
  route : beaten.route = dequeued.route
  creditcheck : (beaten.pkts info.p).creditcheck = info.acFifoCreditSpent

section Failing

variable {ctx : Ctx} {info : CommitInfo} {answer : BusAnswer}

theorem commitSlot_checked (ctx : Ctx) (e p : Nat) (check headerNeeded : Bool) :
    commitSlot (setCreditcheck ctx p check) e p headerNeeded = commitSlot ctx e p headerNeeded := by
  cases headerNeeded with
  | true => rfl
  | false => simp [commitSlot, setCreditcheck, Ctx.setPkt]

theorem route_setCreditcheck (ctx : Ctx) (p : Nat) (check : Bool) :
    (setCreditcheck ctx p check).route = ctx.route := route_setPkt rfl rfl rfl rfl

theorem bared_checked (ctx : Ctx) (p : Nat) (check headerNeeded : Bool) :
    bared (setCreditcheck ctx p check) p headerNeeded =
      { bared ctx p headerNeeded with creditcheck := check } := by
  cases headerNeeded with
  | true => simp [bared, setCreditcheck, Ctx.setPkt]
  | false => simp [bared, setCreditcheck, Ctx.setPkt]

theorem bared_same (ctx : Ctx) (p : Nat) (headerNeeded : Bool) :
    (bared ctx p headerNeeded).h2dtag = (ctx.pkts p).h2dtag ∧
    (bared ctx p headerNeeded).fifo = (ctx.pkts p).fifo := by
  cases headerNeeded with
  | true => exact ⟨rfl, rfl⟩
  | false => exact ⟨rfl, rfl⟩

/-- There is no slot for the packet. -/
theorem commit_stuck (none : commitSlot ctx info.macEntry info.p info.needsHdr ≥ wlfcHangerMaxitems) :
    ∃ beaten, (dhdWlfcHandlePacketCommit ctx info answer).1 = rollBack beaten info ∧
      Beaten ctx beaten info ∧ beaten.stake info.macEntry = ctx.stake info.macEntry ∧
      (beaten.pkts info.p).data = (bared ctx info.p info.needsHdr).data ∧
      beaten.counters = ctx.counters := by
  rw [← commitSlot_checked ctx info.macEntry info.p info.acFifoCreditSpent] at none
  obtain ⟨rc, stake, pkts⟩ := pretx_stuck (setCreditcheck ctx info.p info.acFifoCreditSpent)
    info.macEntry info.p none
  have route := (route_pretx (setCreditcheck ctx info.p info.acFifoCreditSpent) info.macEntry info.p
    info.needsHdr).trans (route_setCreditcheck ctx info.p info.acFifoCreditSpent)
  rw [bared_checked] at pkts
  unfold dhdWlfcHandlePacketCommit
  dsimp only
  generalize dhdWlfcPretxPktprocess (setCreditcheck ctx info.p info.acFifoCreditSpent) info.macEntry
    info.p info.needsHdr = ready at rc stake pkts route ⊢
  rw [if_neg (by rw [rc]; decide)]
  refine ⟨ready.1, rfl, ⟨route, ?_⟩, stake, ?_, ?_⟩
  · rw [pkts, update_self]
  · rw [pkts, update_self]
  · funext q
    unfold Ctx.counters
    rw [pkts]
    by_cases same : q = info.p
    · rw [same, update_self]
      simp only [(bared_same ctx info.p info.needsHdr).1]
    · rw [update_of_ne same]
      simp [setCreditcheck, Ctx.setPkt, same]

theorem unhang_stake (e slot : Nat) (named : (ctx.pkts info.p).h2dtag.hslot = slot)
    (small : slot < wlfcHangerMaxitems)
    (hung : info.needsHdr = true → ctx.mode.afq = false → (ctx.hanger.items slot).state = .inuse) :
    (unhang ctx info).route = ctx.route ∧ (unhang ctx info).pkts = ctx.pkts ∧
    (unhang ctx info).stake e =
      if info.needsHdr ∧ ¬ ctx.mode.afq then (ctx.stake e).setSlot slot .free none
      else ctx.stake e := by
  unfold unhang
  split
  · rename_i new
    have state : (ctx.hanger.items slot).state ≠ .free := by
      rw [hung new.1 (by simpa using new.2)]
      decide
    rw [named, dhdWlfcHangerPoppkt, if_neg (by omega)]
    dsimp only
    rw [if_pos state, if_pos rfl]
    exact ⟨rfl, rfl, stake_setItem ctx e slot _⟩
  · exact ⟨rfl, rfl, rfl⟩

/-- The bus did not take a packet that was ready for it. -/
theorem commit_refused (slot : commitSlot ctx info.macEntry info.p info.needsHdr < wlfcHangerMaxitems)
    (failed : (dhdWlfcHandlePacketCommit ctx info answer).2 ≠ bcmeOk) :
    ∃ beaten, (dhdWlfcHandlePacketCommit ctx info answer).1 = rollBack beaten info ∧
      Beaten ctx beaten info ∧
      (beaten.stake info.macEntry =
        let hung := (ctx.stake info.macEntry).hangUp ctx.mode.afq
          (commitSlot ctx info.macEntry info.p info.needsHdr) info.p info.needsHdr
        let counted := if info.needsHdr then
          hung.setSeq (ctx.pkts info.p).fifo (hung.seq (ctx.pkts info.p).fifo + 1) else hung
        if info.needsHdr ∧ ¬ ctx.mode.afq then
          counted.setSlot (commitSlot ctx info.macEntry info.p info.needsHdr) .free none
        else counted) ∧
      dhdWlfcPullheader (beaten.pkts info.p).data =
        ((bared ctx info.p info.needsHdr).data, bcmeOk) ∧
      (info.needsHdr = false → beaten.counters = ctx.counters) := by
  have slot' := slot
  rw [← commitSlot_checked ctx info.macEntry info.p info.acFifoCreditSpent] at slot'
  obtain ⟨rc, stake, tim, id, named, counter, pkts⟩ := pretx_ready
    (setCreditcheck ctx info.p info.acFifoCreditSpent) info.macEntry info.p slot'
  have route := (route_pretx (setCreditcheck ctx info.p info.acFifoCreditSpent) info.macEntry info.p
    info.needsHdr).trans (route_setCreditcheck ctx info.p info.acFifoCreditSpent)
  have same := bared_same ctx info.p info.needsHdr
  have fifo : ((setCreditcheck ctx info.p info.acFifoCreditSpent).pkts info.p).fifo =
      (ctx.pkts info.p).fifo := by
    simp [setCreditcheck, Ctx.setPkt]
  have oldCounter : ((setCreditcheck ctx info.p info.acFifoCreditSpent).pkts info.p).h2dtag =
      (ctx.pkts info.p).h2dtag := by
    simp [setCreditcheck, Ctx.setPkt]
  rw [commitSlot_checked] at named stake
  rw [bared_checked] at pkts
  rw [fifo] at stake
  rw [oldCounter] at counter
  unfold dhdWlfcHandlePacketCommit at failed ⊢
  dsimp only at failed stake ⊢
  generalize dhdWlfcPretxPktprocess (setCreditcheck ctx info.p info.acFifoCreditSpent) info.macEntry
    info.p info.needsHdr = ready at failed rc stake pkts route ⊢
  rw [if_pos rc] at failed ⊢
  have refused : answer.rc ≠ bcmeOk := by
    intro taken
    rw [if_pos taken] at failed
    exact failed rfl
  rw [if_neg refused]
  change ready.1.stake info.macEntry = _ at stake
  have readyPkt : ready.1.pkts info.p = headedPkt (setCreditcheck ctx info.p info.acFifoCreditSpent).mode
      { bared ctx info.p info.needsHdr with creditcheck := info.acFifoCreditSpent } tim id := by
    rw [pkts, update_self]
  have readySlot : (ready.1.pkts info.p).h2dtag.hslot =
      commitSlot ctx info.macEntry info.p info.needsHdr := by
    rw [readyPkt]
    change id.hslot % 2 ^ 16 = _
    rw [named]
    apply Nat.mod_eq_of_lt
    unfold wlfcHangerMaxitems at slot
    omega
  have mode : ready.1.mode = ctx.mode := congrArg Route.mode route
  have hung : info.needsHdr = true → ready.1.mode.afq = false →
      (ready.1.hanger.items (commitSlot ctx info.macEntry info.p info.needsHdr)).state = .inuse := by
    intro new hanger
    rw [mode] at hanger
    change ((ready.1.stake info.macEntry).slots _).1 = _
    rw [stake, new, if_pos rfl]
    change ((Stake.hangUp _ ctx.mode.afq _ _ _).slots _).1 = _
    simp [Stake.hangUp, hanger]
  obtain ⟨unhangRoute, unhangPkts, unhangStake⟩ := unhang_stake
    info.macEntry _ (show ((hearBus ready.1 answer).pkts info.p).h2dtag.hslot = _ from readySlot) slot hung
  refine ⟨unhang (hearBus ready.1 answer) info, rfl, ⟨unhangRoute.trans route, ?_⟩, ?_, ?_, ?_⟩
  · rw [unhangPkts]
    change (ready.1.pkts info.p).creditcheck = _
    rw [readyPkt]
    rfl
  · rw [unhangStake]
    change (if info.needsHdr ∧ ¬ ready.1.mode.afq then
      (ready.1.stake info.macEntry).setSlot _ _ _ else ready.1.stake info.macEntry) = _
    rw [mode, stake]
    rfl
  · rw [unhangPkts]
    change dhdWlfcPullheader (ready.1.pkts info.p).data = _
    rw [readyPkt]
    exact dhdWlfcPullheader_pushheader _ _ _ _ _
  · intro old
    funext q
    unfold Ctx.counters
    rw [unhangPkts]
    change (ready.1.pkts q).h2dtag.freerunctr = _
    by_cases is : q = info.p
    · rw [is, readyPkt]
      exact counter old
    · rw [pkts, update_of_ne is]
      simp [setCreditcheck, Ctx.setPkt, is]

theorem enqueCounted_elsewhere {e e' prec sub : Nat} (apart : ¬ (e = e' ∧ sub = prec)) (ctx : Ctx) (p : Nat)
    (qHead : Bool) (currentSeq : UInt8) :
    ((enqueCounted ctx e' p prec qHead currentSeq).entries e).psq sub = (ctx.entries e).psq sub := by
  refine (psq_setPsq ctx e' prec _ e sub).trans ?_
  rw [if_neg apart]

/-- A packet that is rolled back elsewhere, or dropped on the way, is not in its queue again. -/
theorem rollBack_elsewhere {ac : Nat} (apart : (dhdWlfcFindTableEntry ctx info.p).2 ≠ info.macEntry ∨
      (ctx.pkts info.p).fifo ≠ ac ∨
      info.needsHdr = true ∧ (dhdWlfcPullheader (ctx.pkts info.p).data).2 ≠ bcmeOk) :
    (((rollBack ctx info).entries info.macEntry).psq (info.sub ac)).length ≤
      ((ctx.entries info.macEntry).psq (info.sub ac)).length := by
  have shorter : ∀ {before after : Ctx}, Aging before after →
      ((after.entries info.macEntry).psq (info.sub ac)).length ≤
        ((before.entries info.macEntry).psq (info.sub ac)).length :=
    fun aging => (aging.ages info.macEntry).psq (info.sub ac)
  have found := Aging.findTableEntry ctx info.p
  have foundData := (findTableEntry_pkt ctx info.p).2.1
  unfold rollBack dhdWlfcRollbackPacketToq
  dsimp only
  generalize (dhdWlfcFindTableEntry ctx info.p).2 = e at apart ⊢
  have bare := (found.trans (Aging.returnRequest _ e (ctx.pkts info.p).fifo info.p)).trans
    (Aging.rollbackHeader _ e (ctx.pkts info.p).fifo info.p info.needsHdr)
  have dropped : info.needsHdr = true → (dhdWlfcPullheader (ctx.pkts info.p).data).2 ≠ bcmeOk →
      (rollbackHeader (returnRequest (dhdWlfcFindTableEntry ctx info.p).1 e (ctx.pkts info.p).fifo info.p)
        e (ctx.pkts info.p).fifo info.p info.needsHdr).2 ≠ bcmeOk := by
    intro new failed
    rw [new]
    change (dhdWlfcPullheader ((returnRequest (dhdWlfcFindTableEntry ctx info.p).1 e
      (ctx.pkts info.p).fifo info.p).pkts info.p).data).2 ≠ bcmeOk
    rwa [(returnRequest_same _ e info.p _).2, foundData]
  generalize rollbackHeader (returnRequest (dhdWlfcFindTableEntry ctx info.p).1 e
    (ctx.pkts info.p).fifo info.p) e (ctx.pkts info.p).fifo info.p info.needsHdr = header
    at bare dropped ⊢
  by_cases pulled : header.2 = bcmeOk
  · rw [if_neg (by simpa using pulled)]
    have elsewhere : ¬ (info.macEntry = e ∧ info.sub ac =
        if info.needsHdr then (ctx.pkts info.p).fifo * 2 else (ctx.pkts info.p).fifo * 2 + 1) := by
      rintro ⟨entry, sub⟩
      rcases apart with other | other | ⟨new, failed⟩
      · exact other entry.symm
      · unfold CommitInfo.sub psqDlyIdx psqSupIdx at sub
        split at sub
        · omega
        · omega
      · exact dropped new failed pulled
    generalize (if info.needsHdr then (ctx.pkts info.p).fifo * 2 else (ctx.pkts info.p).fifo * 2 + 1) = sub
      at elsewhere ⊢
    unfold dhdWlfcPrecEnqWithDrop
    cases chooseEvict (header.1.entries e).psq sub with
    | room =>
      refine (shorter (Aging.setCreditcheck _ info.p false)).trans (le_trans ?_ (shorter bare))
      dsimp only
      rw [enqueCounted_elsewhere elsewhere]
    | «from» eprec =>
      refine (shorter (Aging.setCreditcheck _ info.p false)).trans
        (le_trans ?_ (shorter (bare.trans (Aging.precDropPkts _ e eprec))))
      dsimp only
      rw [enqueCounted_elsewhere elsewhere]
    | refuse =>
      exact shorter ((bare.trans (Aging.precDrop _ sub info.p false)).trans
        (Aging.setCreditcheck _ info.p false))
  · rw [if_pos pulled]
    exact shorter ((bare.trans (Aging.precDrop _ _ info.p false)).trans
      (Aging.setCreditcheck _ info.p false))

end Failing

theorem decrSeqcount_succ (seq : UInt8) : decrSeqcount (seq + 1) = seq := by
  unfold decrSeqcount
  split
  · rename_i wrapped
    grind
  · exact UInt8.add_sub_cancel seq 1

theorem decrSeqcount_ne (seq : UInt8) : decrSeqcount seq ≠ seq := by
  unfold decrSeqcount
  split
  · rename_i zero
    rw [zero]
    decide
  · grind

theorem request_returned_iff (stake : Stake) (due : Prop) [Decidable due] :
    (stake.takeRequest.returnRequest due).requestedCredit = stake.requestedCredit ∧
      stake.takeRequest.requestedPacket = stake.requestedPacket ↔
    if stake.requestedCredit > 0 then due else stake.requestedPacket = 0 ∧ ¬ due := by
  have one : ∀ n : UInt8, n - 1 ≠ n := by grind
  have more : ∀ n : UInt8, n + 1 ≠ n := by grind
  by_cases credit : stake.requestedCredit > 0
  · by_cases back : due
    · simp [Stake.returnRequest, Stake.takeRequest, credit, back]
    · simp [Stake.returnRequest, Stake.takeRequest, credit, back, one]
  · by_cases back : due
    · simp [Stake.returnRequest, Stake.takeRequest, credit, back, more]
    · by_cases packet : stake.requestedPacket = 0
      · simp [Stake.returnRequest, Stake.takeRequest, credit, back, packet]
      · simp [Stake.returnRequest, Stake.takeRequest, credit, back, packet, one]

/-- The rollback so far has moved nothing but counters of the sequence and slots. -/
structure SameClaims (before after : Stake) : Prop where
  psq : after.psq = before.psq
  requestedCredit : after.requestedCredit = before.requestedCredit
  requestedPacket : after.requestedPacket = before.requestedPacket
  cntInQ : after.cntInQ = before.cntInQ
  cntPerAc : after.cntPerAc = before.cntPerAc
  cntInPsq : after.cntInPsq = before.cntInPsq

theorem countQueued_back {before after : Stake} {i ac : Nat}
    (same : SameClaims (before.countQueued (-1) i ac) after) :
    (after.countQueued 1 i ac).cntInQ = before.cntInQ ∧
    (after.countQueued 1 i ac).cntPerAc = before.cntPerAc ∧
    (after.countQueued 1 i ac).cntInPsq = before.cntInPsq := by
  unfold Stake.countQueued
  dsimp only
  rw [same.cntInQ, same.cntPerAc, same.cntInPsq]
  simp [Stake.countQueued]

section Own

variable {ctx dequeued beaten : Ctx} {info : CommitInfo} {ac : Nat} {rest : List Nat}

/-- What is left to compare when the packet goes back to where it was. -/
theorem undone_iff_own (taken : Taken ctx dequeued info ac rest)
    (own : (dhdWlfcFindTableEntry ctx info.p).2 = info.macEntry) (fifo : (ctx.pkts info.p).fifo = ac)
    (room : chooseEvict (dequeued.entries info.macEntry).psq (info.sub ac) = .room)
    (is : Beaten dequeued beaten info)
    (same : SameClaims (dequeued.stake info.macEntry) (beaten.stake info.macEntry))
    (pulled : info.needsHdr = true → (dhdWlfcPullheader (beaten.pkts info.p).data).2 = bcmeOk)
    (old : info.needsHdr = false → beaten.counters = ctx.counters ∧
      (beaten.stake info.macEntry).seq = (ctx.stake info.macEntry).seq) :
    Undone ctx (rollBack beaten info) info ac ↔
      payload { beaten.pkts info.p with
          data := if info.needsHdr then (dhdWlfcPullheader (beaten.pkts info.p).data).1
            else (beaten.pkts info.p).data } (!info.needsHdr) =
        payload (ctx.pkts info.p) (!info.needsHdr) ∧
      (if info.needsHdr then update (beaten.stake info.macEntry).seq ac
          (decrSeqcount ((beaten.stake info.macEntry).seq ac))
        else (beaten.stake info.macEntry).seq) = (ctx.stake info.macEntry).seq ∧
      (beaten.stake info.macEntry).slots = (ctx.stake info.macEntry).slots ∧
      RequestReturned (ctx.entries info.macEntry) ac ∧
      (info.needsHdr = false → HeadFirst ctx info.macEntry ac info.p) := by
  have ownBeaten : (dhdWlfcFindTableEntry beaten info.p).2 = info.macEntry :=
    (findTableEntry_route (is.route.trans taken.route) info.p).trans own
  have fifoBeaten : (beaten.pkts info.p).fifo = ac :=
    (congrFun (congrArg Route.fifo (is.route.trans taken.route)) info.p).trans fifo
  have ifidx : (beaten.pkts info.p).ifidx = (ctx.pkts info.p).ifidx :=
    congrFun (congrArg Route.ifidx (is.route.trans taken.route)) info.p
  have mode : beaten.mode = ctx.mode := congrArg Route.mode (is.route.trans taken.route)
  have sub : (if info.needsHdr then (beaten.pkts info.p).fifo * 2
      else (beaten.pkts info.p).fifo * 2 + 1) = info.sub ac := by
    rw [fifoBeaten]
    rfl
  obtain ⟨pkts, tags, stake, data⟩ := stake_rollBack beaten info.macEntry ownBeaten
    (by rw [sub, same.psq]; exact room) pulled
  dsimp only at stake
  rw [sub, fifoBeaten, ifidx, mode, is.creditcheck] at stake
  have due : ac ≠ acCount ∧ ¬ info.acFifoCreditSpent = true ↔
      ac ≠ acCount ∧ (ctx.entries info.macEntry).state = .closed := by
    rw [taken.spent]
    unfold creditSpent
    by_cases bcmc : ac = acCount
    · simp [bcmc]
    · simp [bcmc]
  have requests : ((rollBack beaten info).stake info.macEntry).requestedCredit =
        (ctx.stake info.macEntry).requestedCredit ∧
      ((rollBack beaten info).stake info.macEntry).requestedPacket =
        (ctx.stake info.macEntry).requestedPacket ↔
      RequestReturned (ctx.entries info.macEntry) ac := by
    have returned := request_returned_iff (ctx.stake info.macEntry)
      (ac ≠ acCount ∧ ¬ info.acFifoCreditSpent = true)
    have credit : ((rollBack beaten info).stake info.macEntry).requestedCredit =
        ((ctx.stake info.macEntry).takeRequest.returnRequest
          (ac ≠ acCount ∧ ¬ info.acFifoCreditSpent = true)).requestedCredit := by
      rw [stake]
      change (if _ then (beaten.stake info.macEntry).requestedCredit + 1
        else (beaten.stake info.macEntry).requestedCredit) = _
      rw [same.requestedCredit, taken.stake]
      rfl
    have packet : ((rollBack beaten info).stake info.macEntry).requestedPacket =
        (ctx.stake info.macEntry).takeRequest.requestedPacket := by
      rw [stake]
      change (beaten.stake info.macEntry).requestedPacket = _
      rw [same.requestedPacket, taken.stake]
      rfl
    rw [credit, packet, returned, due]
    unfold RequestReturned
    change (if (ctx.entries info.macEntry).requestedCredit > 0 then _
      else (ctx.entries info.macEntry).requestedPacket = 0 ∧ _) ↔ _
    by_cases some : (ctx.entries info.macEntry).requestedCredit > 0
    · rw [if_pos some, if_pos some]
    · rw [if_neg some, if_neg some, not_and_or, not_not]
  have queue : ((rollBack beaten info).stake info.macEntry).psq (info.sub ac) =
      dhdWlfcPrecEnque pkts rest (info.sub ac) info.p true
        (((beaten.stake info.macEntry).countDown ac info.needsHdr).seq ac) ctx.mode.reordersupp := by
    have left : (beaten.stake info.macEntry).psq (info.sub ac) = rest := by
      rw [same.psq, taken.stake]
      exact (ctx.stake info.macEntry).psq_setPsq (info.sub ac) rest
    rw [stake]
    refine (Stake.psq_setPsq _ (info.sub ac) _).trans ?_
    change dhdWlfcPrecEnque pkts ((beaten.stake info.macEntry).psq (info.sub ac)) _ _ _ _ _ = _
    rw [left]
    rfl
  have order : ((rollBack beaten info).stake info.macEntry).psq (info.sub ac) =
      (ctx.stake info.macEntry).psq (info.sub ac) ↔
      (info.needsHdr = false → HeadFirst ctx info.macEntry ac info.p) := by
    have head : (ctx.stake info.macEntry).psq (info.sub ac) = info.p :: rest := taken.queue
    rw [queue, head]
    cases hdr : info.needsHdr with
    | true =>
      have delayed : info.sub ac = psqDlyIdx ac := by simp [CommitInfo.sub, hdr]
      rw [delayed, precEnque_delayed]
      exact ⟨fun _ other => absurd other (by simp), fun _ => rfl⟩
    | false =>
      have suppressed : info.sub ac = psqSupIdx ac := by simp [CommitInfo.sub, hdr]
      obtain ⟨counters, seq⟩ := old hdr
      have tagged : ∀ q, (pkts q).h2dtag.freerunctr = (ctx.pkts q).h2dtag.freerunctr :=
        fun q => (tags q).trans (congrFun counters q)
      have counted : ((beaten.stake info.macEntry).countDown ac false).seq ac =
          (ctx.entries info.macEntry).seq ac := congrFun seq ac
      rw [suppressed, precEnque_counters info.p tagged, precEnque_suppressed_iff, counted]
      have tail : ((ctx.entries info.macEntry).psq (psqSupIdx ac)).tail = rest := by
        rw [← suppressed, taken.queue]
        rfl
      unfold HeadFirst
      rw [tail]
      exact ⟨fun first _ => first, fun first => first rfl⟩
  have counts : ((rollBack beaten info).stake info.macEntry).cntInQ = (ctx.stake info.macEntry).cntInQ ∧
      ((rollBack beaten info).stake info.macEntry).cntPerAc = (ctx.stake info.macEntry).cntPerAc ∧
      ((rollBack beaten info).stake info.macEntry).cntInPsq = (ctx.stake info.macEntry).cntInPsq := by
    rw [taken.stake] at same
    rw [stake]
    have back := countQueued_back same
    exact back
  have seq : ((rollBack beaten info).stake info.macEntry).seq =
      if info.needsHdr then update (beaten.stake info.macEntry).seq ac
        (decrSeqcount ((beaten.stake info.macEntry).seq ac))
      else (beaten.stake info.macEntry).seq := by
    rw [stake]
    rfl
  have slots : ((rollBack beaten info).stake info.macEntry).slots =
      (beaten.stake info.macEntry).slots := by
    rw [stake]
    rfl
  have bytes : payload ((rollBack beaten info).pkts info.p) (!info.needsHdr) =
      payload { beaten.pkts info.p with
        data := if info.needsHdr then (dhdWlfcPullheader (beaten.pkts info.p).data).1
          else (beaten.pkts info.p).data } (!info.needsHdr) := by
    unfold payload
    rw [data]
  rw [← bytes, ← seq, ← slots, ← requests, ← order]
  constructor
  · intro undone
    refine ⟨undone.bytes, undone.seq, ?_, ⟨undone.requestedCredit, undone.requestedPacket⟩, undone.queue⟩
    funext slot
    exact Prod.ext (undone.slotState slot) (undone.slotPkt slot)
  · rintro ⟨bytes, seq, slots, ⟨credit, packet⟩, queue⟩
    exact ⟨queue, bytes, seq, credit, packet, fun slot => congrArg Prod.fst (congrFun slots slot),
      fun slot => congrArg Prod.snd (congrFun slots slot), counts.1, counts.2.1, counts.2.2⟩

theorem not_undone_elsewhere (taken : Taken ctx dequeued info ac rest)
    (queues : (beaten.stake info.macEntry).psq = (dequeued.stake info.macEntry).psq)
    (apart : (dhdWlfcFindTableEntry beaten info.p).2 ≠ info.macEntry ∨
      (beaten.pkts info.p).fifo ≠ ac ∨
      info.needsHdr = true ∧ (dhdWlfcPullheader (beaten.pkts info.p).data).2 ≠ bcmeOk) :
    ¬ Undone ctx (rollBack beaten info) info ac := by
  intro undone
  have shorter := rollBack_elsewhere apart
  have left : (beaten.entries info.macEntry).psq (info.sub ac) = rest := by
    change (beaten.stake info.macEntry).psq (info.sub ac) = rest
    rw [queues, taken.stake]
    exact (ctx.stake info.macEntry).psq_setPsq (info.sub ac) rest
  rw [left, undone.queue, taken.queue, List.length_cons] at shorter
  omega

theorem bared_taken (taken : Taken ctx dequeued info ac rest) :
    (bared dequeued info.p info.needsHdr).data = payload (ctx.pkts info.p) (!info.needsHdr) := by
  unfold bared payload
  cases info.needsHdr with
  | true => exact taken.data
  | false =>
    change (dhdWlfcPullheader (dequeued.pkts info.p).data).1 = _
    rw [taken.data]
    rfl

theorem commitSlot_taken (taken : Taken ctx dequeued info ac rest) :
    commitSlot dequeued info.macEntry info.p info.needsHdr =
      commitSlot ctx info.macEntry info.p info.needsHdr := by
  unfold commitSlot
  rw [taken.hanger, taken.tag, show dequeued.mode = ctx.mode from congrArg Route.mode taken.route]

theorem slotWaits_iff (ctx : Ctx) (e p : Nat) : SlotWaits ctx e ↔
    commitSlot ctx e p true < wlfcHangerMaxitems ∧
      (ctx.mode.afq = false → (ctx.hanger.items (commitSlot ctx e p true)).pkt = none) := by
  unfold SlotWaits commitSlot
  cases afq : ctx.mode.afq with
  | true => simp
  | false =>
    simp only [Bool.false_eq_true, if_false, if_true, true_implies]
    unfold dhdWlfcHangerGetFreeSlot
    split
    · rename_i slot found
      have inside : slot < wlfcHangerMaxitems := by
        obtain ⟨i, -, rfl⟩ := List.mem_map.mp (List.mem_of_find?_eq_some found)
        exact Nat.mod_lt _ (by decide)
      simp [found, inside]
    · rename_i missing
      simp [missing]

section

variable (taken : Taken ctx dequeued info ac rest)
  (room : chooseEvict (dequeued.entries info.macEntry).psq (info.sub ac) = .room)
  (own : (dhdWlfcFindTableEntry ctx info.p).2 = info.macEntry)
  (fifo : (ctx.pkts info.p).fifo = ac)
include taken room own fifo

theorem stuck_delayed {answer : BusAnswer}
    (new : info.needsHdr = true)
    (none : commitSlot dequeued info.macEntry info.p info.needsHdr ≥ wlfcHangerMaxitems) :
    ¬ Undone ctx (dhdWlfcHandlePacketCommit dequeued info answer).1 info ac := by
  obtain ⟨beaten, same, is, stake, -, -⟩ := @commit_stuck dequeued info answer none
  rw [same]
  by_cases pulled : (dhdWlfcPullheader (beaten.pkts info.p).data).2 = bcmeOk
  · rw [undone_iff_own taken own fifo room is (by rw [stake]; exact ⟨rfl, rfl, rfl, rfl, rfl, rfl⟩)
      (fun _ => pulled) (fun old => absurd new (by simp [old]))]
    rintro ⟨-, seq, -⟩
    rw [if_pos new, stake, taken.stake] at seq
    have here := congrFun seq ac
    rw [update_self] at here
    exact decrSeqcount_ne _ here
  · exact not_undone_elsewhere taken (congrArg Stake.psq stake) (Or.inr (Or.inr ⟨new, pulled⟩))

theorem stuck_suppressed {answer : BusAnswer}
    (old : info.needsHdr = false)
    (none : commitSlot dequeued info.macEntry info.p info.needsHdr ≥ wlfcHangerMaxitems) :
    Undone ctx (dhdWlfcHandlePacketCommit dequeued info answer).1 info ac ↔
      SlotKept ctx info.p ∧ RequestReturned (ctx.entries info.macEntry) ac ∧
        HeadFirst ctx info.macEntry ac info.p := by
  obtain ⟨beaten, same, is, stake, data, counters⟩ := @commit_stuck dequeued info answer none
  have seq : (beaten.stake info.macEntry).seq = (ctx.stake info.macEntry).seq := by
    rw [stake, taken.stake]
    rfl
  have slots : (beaten.stake info.macEntry).slots = (ctx.stake info.macEntry).slots := by
    rw [stake, taken.stake]
    rfl
  have tags : dequeued.counters = ctx.counters :=
    funext fun q => congrArg H2dTag.freerunctr (taken.tag q)
  have bare := bared_taken taken
  have outside : ¬ (ctx.pkts info.p).h2dtag.hslot < wlfcHangerMaxitems := by
    rw [commitSlot_taken taken, old] at none
    exact not_lt.mpr none
  rw [same, undone_iff_own taken own fifo room is (by rw [stake]; exact ⟨rfl, rfl, rfl, rfl, rfl, rfl⟩)
    (fun new => absurd old (by simp [new])) (fun _ => ⟨counters.trans tags, seq⟩)]
  unfold SlotKept
  rw [if_neg outside]
  rw [old] at bare data ⊢
  simp only [payload, Bool.not_false, if_true, Bool.false_eq_true, if_false] at bare ⊢
  rw [data, bare]
  simp [seq, slots]

theorem refused_delayed {answer : BusAnswer}
    (new : info.needsHdr = true)
    (slot : commitSlot dequeued info.macEntry info.p info.needsHdr < wlfcHangerMaxitems)
    (failed : (dhdWlfcHandlePacketCommit dequeued info answer).2 ≠ bcmeOk) :
    Undone ctx (dhdWlfcHandlePacketCommit dequeued info answer).1 info ac ↔
      SlotWaits ctx info.macEntry ∧ RequestReturned (ctx.entries info.macEntry) ac := by
  obtain ⟨beaten, same, is, stake, pulled, -⟩ := commit_refused slot failed
  have dequeuedFifo : (dequeued.pkts info.p).fifo = ac :=
    (congrFun (congrArg Route.fifo taken.route) info.p).trans fifo
  have mode : dequeued.mode = ctx.mode := congrArg Route.mode taken.route
  have bare := bared_taken taken
  rw [commitSlot_taken taken, new] at slot
  rw [commitSlot_taken taken, new, dequeuedFifo, mode] at stake
  dsimp only at stake
  rw [if_pos rfl] at stake
  have claims : SameClaims (dequeued.stake info.macEntry) (beaten.stake info.macEntry) := by
    rw [stake]
    split
    · exact ⟨rfl, rfl, rfl, rfl, rfl, rfl⟩
    · exact ⟨rfl, rfl, rfl, rfl, rfl, rfl⟩
  have before : (dequeued.stake info.macEntry).seq = (ctx.stake info.macEntry).seq ∧
      (dequeued.stake info.macEntry).slots = (ctx.stake info.macEntry).slots := by
    rw [taken.stake]
    exact ⟨rfl, rfl⟩
  have seq : (beaten.stake info.macEntry).seq = update (ctx.stake info.macEntry).seq ac
      ((ctx.stake info.macEntry).seq ac + 1) := by
    rw [stake, ← before.1]
    split
    · rfl
    · rfl
  have counted : update (beaten.stake info.macEntry).seq ac
      (decrSeqcount ((beaten.stake info.macEntry).seq ac)) = (ctx.stake info.macEntry).seq := by
    rw [seq, update_self, update_idem, decrSeqcount_succ, update_eq_self]
  have free : ctx.mode.afq = false →
      (ctx.hanger.items (commitSlot ctx info.macEntry info.p true)).state = .free := by
    intro hanger
    rw [commitSlot, if_pos rfl, hanger, if_neg (by simp)] at slot ⊢
    exact getFreeSlot_free slot
  have slots : (beaten.stake info.macEntry).slots = (ctx.stake info.macEntry).slots ↔
      (ctx.mode.afq = false →
        (ctx.hanger.items (commitSlot ctx info.macEntry info.p true)).pkt = none) := by
    rw [stake, ← before.2]
    cases afq : ctx.mode.afq with
    | true => simp [Stake.hangUp, Stake.setSeq]
    | false =>
      simp only [Stake.hangUp, Stake.setSeq, Stake.setSlot, Bool.false_eq_true, not_false_eq_true,
        and_self, if_true, if_false, update_idem, before.2, true_implies]
      rw [update_eq_self_iff]
      change (HangerState.free, none) = ((ctx.hanger.items _).state, (ctx.hanger.items _).pkt) ↔ _
      rw [free afq, Prod.mk.injEq]
      exact ⟨fun both => both.2.symm, fun none => ⟨rfl, none.symm⟩⟩
  rw [same, undone_iff_own taken own fifo room is claims (fun _ => congrArg Prod.snd pulled)
    (fun old => absurd new (by simp [old])), slotWaits_iff ctx info.macEntry info.p]
  rw [new] at bare ⊢
  simp only [payload, Bool.not_true, if_true, Bool.false_eq_true, if_false] at bare ⊢
  rw [pulled, counted, slots]
  simp [bare, new, slot]

theorem refused_suppressed {answer : BusAnswer}
    (old : info.needsHdr = false)
    (slot : commitSlot dequeued info.macEntry info.p info.needsHdr < wlfcHangerMaxitems)
    (failed : (dhdWlfcHandlePacketCommit dequeued info answer).2 ≠ bcmeOk) :
    Undone ctx (dhdWlfcHandlePacketCommit dequeued info answer).1 info ac ↔
      SlotKept ctx info.p ∧ RequestReturned (ctx.entries info.macEntry) ac ∧
        HeadFirst ctx info.macEntry ac info.p := by
  obtain ⟨beaten, same, is, stake, pulled, counters⟩ := commit_refused slot failed
  have mode : dequeued.mode = ctx.mode := congrArg Route.mode taken.route
  have bare := bared_taken taken
  have tags : dequeued.counters = ctx.counters :=
    funext fun q => congrArg H2dTag.freerunctr (taken.tag q)
  have named : commitSlot ctx info.macEntry info.p false = (ctx.pkts info.p).h2dtag.hslot := rfl
  rw [commitSlot_taken taken, old, named] at slot
  rw [commitSlot_taken taken, old, named, mode] at stake
  simp only [Bool.false_eq_true, if_false, false_and] at stake
  have claims : SameClaims (dequeued.stake info.macEntry) (beaten.stake info.macEntry) := by
    rw [stake]
    exact ⟨rfl, rfl, rfl, rfl, rfl, rfl⟩
  have seq : (beaten.stake info.macEntry).seq = (ctx.stake info.macEntry).seq := by
    rw [stake, taken.stake]
    rfl
  have before : (dequeued.stake info.macEntry).slots = (ctx.stake info.macEntry).slots := by
    rw [taken.stake]
    rfl
  have slots : (beaten.stake info.macEntry).slots = (ctx.stake info.macEntry).slots ↔
      SlotKept ctx info.p := by
    unfold SlotKept
    rw [if_pos slot, stake, ← before]
    cases afq : ctx.mode.afq with
    | true => simp [Stake.hangUp]
    | false =>
      simp only [Stake.hangUp, Bool.false_eq_true, if_false, before, false_or]
      rw [update_eq_self_iff]
      change (HangerState.inuse, (ctx.hanger.items _).pkt) =
        ((ctx.hanger.items _).state, (ctx.hanger.items _).pkt) ↔ _
      rw [Prod.mk.injEq]
      exact ⟨fun both => both.1.symm, fun state => ⟨state.symm, rfl⟩⟩
  rw [same, undone_iff_own taken own fifo room is claims (fun new => absurd old (by simp [new]))
    (fun _ => ⟨(counters old).trans tags, seq⟩), slots]
  rw [old] at pulled bare ⊢
  simp only [payload, Bool.not_false, if_true, Bool.false_eq_true, if_false] at bare ⊢
  rw [pulled]
  simp [seq, bare]

end

end Own

/-- A commit that fails is undone if and only if the state before it was undoable. -/
theorem failedCommit_undone_iff {ctx dequeued : Ctx} {ac : Nat} {onlyNoCredit : Bool} {info : CommitInfo}
    {answer : BusAnswer}
    (found : dhdWlfcDequeDelayedq ctx ac onlyNoCredit = (dequeued, some info))
    (failed : (dhdWlfcHandlePacketCommit dequeued info answer).2 ≠ bcmeOk)
    (room : chooseEvict (dequeued.entries info.macEntry).psq (info.sub ac) = .room) :
    Undone ctx (dhdWlfcHandlePacketCommit dequeued info answer).1 info ac ↔ Undoable ctx info ac := by
  obtain ⟨rest, taken⟩ := dequeued_taken found
  by_cases own : (dhdWlfcFindTableEntry ctx info.p).2 = info.macEntry ∧ (ctx.pkts info.p).fifo = ac
  · obtain ⟨entry, fifo⟩ := own
    by_cases slot : commitSlot dequeued info.macEntry info.p info.needsHdr < wlfcHangerMaxitems
    · cases kind : info.needsHdr with
      | true =>
        rw [refused_delayed taken room entry fifo kind slot failed]
        exact ⟨fun both => ⟨entry, fifo, both.2, fun _ => both.1, fun old => absurd kind (by simp [old])⟩,
          fun undoable => ⟨undoable.delayed kind, undoable.request⟩⟩
      | false =>
        rw [refused_suppressed taken room entry fifo kind slot failed]
        exact ⟨fun all => ⟨entry, fifo, all.2.1, fun new => absurd kind (by simp [new]),
            fun _ => ⟨all.1, all.2.2⟩⟩,
          fun undoable => ⟨(undoable.suppressed kind).1, undoable.request, (undoable.suppressed kind).2⟩⟩
    · rw [not_lt] at slot
      cases kind : info.needsHdr with
      | true =>
        refine iff_of_false (stuck_delayed taken room entry fifo kind slot) ?_
        intro undoable
        have waits := (slotWaits_iff ctx info.macEntry info.p).mp (undoable.delayed kind)
        rw [commitSlot_taken taken, kind] at slot
        omega
      | false =>
        rw [stuck_suppressed taken room entry fifo kind slot]
        exact ⟨fun all => ⟨entry, fifo, all.2.1, fun new => absurd kind (by simp [new]),
            fun _ => ⟨all.1, all.2.2⟩⟩,
          fun undoable => ⟨(undoable.suppressed kind).1, undoable.request, (undoable.suppressed kind).2⟩⟩
  · refine iff_of_false ?_ fun undoable => own ⟨undoable.entry, undoable.fifo⟩
    have elsewhere : ∀ beaten, Beaten dequeued beaten info →
        (dhdWlfcFindTableEntry beaten info.p).2 ≠ info.macEntry ∨ (beaten.pkts info.p).fifo ≠ ac := by
      intro beaten is
      rw [findTableEntry_route (is.route.trans taken.route) info.p,
        show (beaten.pkts info.p).fifo = (ctx.pkts info.p).fifo from
          congrFun (congrArg Route.fifo (is.route.trans taken.route)) info.p]
      exact not_and_or.mp own
    by_cases slot : commitSlot dequeued info.macEntry info.p info.needsHdr < wlfcHangerMaxitems
    · obtain ⟨beaten, same, is, stake, -⟩ := commit_refused slot failed
      rw [same]
      refine not_undone_elsewhere taken ?_ ((elsewhere beaten is).imp_right Or.inl)
      rw [stake]
      dsimp only
      split
      · split
        · rfl
        · rfl
      · split
        · rfl
        · rfl
    · obtain ⟨beaten, same, is, stake, -⟩ := @commit_stuck dequeued info answer (not_lt.mp slot)
      rw [same]
      exact not_undone_elsewhere taken (congrArg Stake.psq stake) ((elsewhere beaten is).imp_right Or.inl)

/-- The bus that cannot send. -/
def refusal : BusAnswer := ⟨bcmeError, false⟩

/-- A packet of an open destination waits in the queue. -/
def openCalls : List DriverCall :=
  [.interfaceEntry .add 0 0 none, .creditmap fun _ => 4,
    .commitPackets 7 (freshPkt 0 1 [0, 0, 0, 0, 0, 0] [1, 2])]

def openQueued : Ctx := driver.run (driverStart ⟨false, false, false⟩) openCalls

theorem failedCommit_undone_iff_open : Undone openQueued
    (dhdWlfcHandlePacketCommit (dhdWlfcDequeDelayedq openQueued 1 false).1 ⟨true, true, 32, 7⟩ refusal).1
    ⟨true, true, 32, 7⟩ 1 := by
  have taken : (dhdWlfcDequeDelayedq openQueued 1 false).2 = some ⟨true, true, 32, 7⟩ := by
    decide +kernel
  have undoable : Undoable openQueued ⟨true, true, 32, 7⟩ 1 := by
    constructor
    case entry => decide +kernel
    case fifo => decide +kernel
    case request =>
      have none : (openQueued.entries 32).requestedCredit = 0 ∧
          (openQueued.entries 32).requestedPacket = 0 ∧ (openQueued.entries 32).state ≠ .closed := by
        decide +kernel
      simp [RequestReturned, none]
    case delayed =>
      intro _
      have hanger : openQueued.mode.afq = false := by decide +kernel
      unfold SlotWaits
      rw [hanger, if_neg (by simp)]
      exact ⟨1, by decide +kernel, by decide +kernel⟩
    case suppressed => exact fun old => absurd old (by simp)
  exact (failedCommit_undone_iff (Prod.ext rfl taken) (by decide +kernel) (by decide +kernel)).mpr undoable

/-- A packet waits for a sleeping destination that asked for one. -/
def requestCalls : List DriverCall :=
  [.macTable 0 0 [2, 0, 0, 0, 0, 1] true, .psmode 0 false, .requestPacket 1 0 2,
    .commitPackets 7 (freshPkt 0 1 [2, 0, 0, 0, 0, 1] [1, 2])]

def packetRequested : Ctx := driver.run (driverStart ⟨false, false, false⟩) requestCalls

/-- The requested packet is used up, and a credit that nobody asked for is there instead. -/
theorem requested_packet_lost :
    driver.Admitted (driverStart ⟨false, false, false⟩) requestCalls ∧
    (dhdWlfcDequeDelayedq packetRequested 1 true).2 = some ⟨true, false, 0, 7⟩ ∧
    (dhdWlfcHandlePacketCommit (dhdWlfcDequeDelayedq packetRequested 1 true).1 ⟨true, false, 0, 7⟩
      refusal).2 ≠ bcmeOk ∧
    chooseEvict ((dhdWlfcDequeDelayedq packetRequested 1 true).1.entries 0).psq (psqDlyIdx 1) = .room ∧
    ¬ Undone packetRequested (dhdWlfcHandlePacketCommit (dhdWlfcDequeDelayedq packetRequested 1 true).1
      ⟨true, false, 0, 7⟩ refusal).1 ⟨true, false, 0, 7⟩ 1 := by
  refine ⟨by decide +kernel, by decide +kernel, by decide +kernel, by decide +kernel, fun undone => ?_⟩
  exact absurd undone.requestedPacket (by decide +kernel)

end BcmDhd.Wlfc
