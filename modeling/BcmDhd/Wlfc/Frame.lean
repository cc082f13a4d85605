import BcmDhd.Wlfc.Transfer

namespace BcmDhd.Wlfc

open Function

variable {ctx : Ctx} {e : Nat} {entry : MacDescriptor}

/-- The part of a descriptor that only the dongle and interface events change. -/
structure SameDstn (before after : MacDescriptor) : Prop where
  occupied : after.occupied = before.occupied
  interfaceId : after.interfaceId = before.interfaceId
  iftype : after.iftype = before.iftype
  state : after.state = before.state
  acBitmap : after.acBitmap = before.acBitmap

theorem SameDstn.refl (entry : MacDescriptor) : SameDstn entry entry := ⟨rfl, rfl, rfl, rfl, rfl⟩

theorem SameDstn.trans {before middle after : MacDescriptor} (first : SameDstn before middle)
    (second : SameDstn middle after) : SameDstn before after :=
  ⟨second.occupied.trans first.occupied, second.interfaceId.trans first.interfaceId,
    second.iftype.trans first.iftype, second.state.trans first.state,
    second.acBitmap.trans first.acBitmap⟩

/-- No sub-queue grows, and a destination that is held up stays so. -/
structure Ages (before after : MacDescriptor) : Prop where
  transitCount : before.transitCount ≤ after.transitCount
  suppressed : before.suppressed = true → after.suppressed = true
  psq : ∀ prec, (after.psq prec).length ≤ (before.psq prec).length

theorem Ages.refl (entry : MacDescriptor) : Ages entry entry := ⟨le_rfl, id, fun _ => le_rfl⟩

theorem Ages.trans {before middle after : MacDescriptor} (first : Ages before middle)
    (second : Ages middle after) : Ages before after :=
  ⟨first.transitCount.trans second.transitCount, second.suppressed ∘ first.suppressed,
    fun prec => (second.psq prec).trans (first.psq prec)⟩

/-- Whatever is done to queues and packets keeps these. -/
structure Kept (before after : Ctx) : Prop where
  mode : after.mode = before.mode
  proptxstatusMode : after.proptxstatusMode = before.proptxstatusMode
  creditIgnore : after.creditIgnore = before.creditIgnore
  bcmcCreditSupported : after.bcmcCreditSupported = before.bcmcCreditSupported
  credits : after.credits = before.credits
  requestedEntries : after.requestedEntries = before.requestedEntries
  activeEntries : after.activeEntries.Perm before.activeEntries
  dstn : ∀ e, SameDstn (before.entries e) (after.entries e)

namespace Kept

variable {before middle after : Ctx}

theorem refl (ctx : Ctx) : Kept ctx ctx := ⟨rfl, rfl, rfl, rfl, rfl, rfl, .refl _, fun _ => .refl _⟩

theorem trans (first : Kept before middle) (second : Kept middle after) : Kept before after where
  mode := second.mode.trans first.mode
  proptxstatusMode := second.proptxstatusMode.trans first.proptxstatusMode
  creditIgnore := second.creditIgnore.trans first.creditIgnore
  bcmcCreditSupported := second.bcmcCreditSupported.trans first.bcmcCreditSupported
  credits := second.credits.trans first.credits
  requestedEntries := second.requestedEntries.trans first.requestedEntries
  activeEntries := second.activeEntries.trans first.activeEntries
  dstn e := (first.dstn e).trans (second.dstn e)

end Kept

/-- What dequeuing and committing do, as long as nothing fails. -/
structure Aging (before after : Ctx) : Prop extends Kept before after where
  ages : ∀ e, Ages (before.entries e) (after.entries e)

namespace Aging

variable {before middle after : Ctx}

theorem refl (ctx : Ctx) : Aging ctx ctx :=
  ⟨.refl ctx, fun _ => .refl _⟩

theorem trans (first : Aging before middle) (second : Aging middle after) : Aging before after :=
  ⟨first.toKept.trans second.toKept, fun e => (first.ages e).trans (second.ages e)⟩

theorem setEntry (same : SameDstn (ctx.entries e) entry) (ages : Ages (ctx.entries e) entry) :
    Aging ctx (ctx.setEntry e entry) := by
  have here : ∀ other, SameDstn (ctx.entries other) ((ctx.setEntry e entry).entries other) ∧
      Ages (ctx.entries other) ((ctx.setEntry e entry).entries other) := by
    intro other
    by_cases is : other = e
    · subst is
      rw [Ctx.entries_setEntry, update_self]
      exact ⟨same, ages⟩
    · rw [Ctx.entries_setEntry, update_of_ne is]
      exact ⟨.refl _, .refl _⟩
  exact ⟨⟨rfl, rfl, rfl, rfl, rfl, rfl, .refl _, fun other => (here other).1⟩, fun other => (here other).2⟩

theorem setFields
    (same : SameDstn (ctx.entries e) entry) (transit : entry.transitCount = (ctx.entries e).transitCount)
    (suppressed : entry.suppressed = (ctx.entries e).suppressed)
    (psq : entry.psq = (ctx.entries e).psq) : Aging ctx (ctx.setEntry e entry) := by
  apply setEntry same
  refine ⟨transit.ge, ?_, ?_⟩
  · intro held
    rw [suppressed, held]
  · intro prec
    rw [psq]

theorem setPkt (ctx : Ctx) (p : Nat) (pkt : Pkt) : Aging ctx (ctx.setPkt p pkt) :=
  ⟨⟨rfl, rfl, rfl, rfl, rfl, rfl, .refl _, fun _ => .refl _⟩, fun _ => .refl _⟩

theorem setCreditcheck (ctx : Ctx) (p : Nat) (check : Bool) :
    Aging ctx (Wlfc.setCreditcheck ctx p check) := setPkt ctx p _

theorem setItem (ctx : Ctx) (slot : Nat) (item : HangerItem) : Aging ctx (ctx.setItem slot item) :=
  ⟨⟨rfl, rfl, rfl, rfl, rfl, rfl, .refl _, fun _ => .refl _⟩, fun _ => .refl _⟩

theorem setSeq (ctx : Ctx) (e prec : Nat) (seq : UInt8) : Aging ctx (Wlfc.setSeq ctx e prec seq) :=
  setFields ⟨rfl, rfl, rfl, rfl, rfl⟩ rfl rfl rfl

theorem countQueued (ctx : Ctx) (by_ : Int) (p ac : Nat) : Aging ctx (ctx.countQueued by_ p ac) :=
  ⟨⟨rfl, rfl, rfl, rfl, rfl, rfl, .refl _, fun _ => .refl _⟩, fun _ => .refl _⟩

theorem countInDrv (ctx : Ctx) (by_ : Int) (i ac : Nat) : Aging ctx (ctx.countInDrv by_ i ac) :=
  ⟨⟨rfl, rfl, rfl, rfl, rfl, rfl, .refl _, fun _ => .refl _⟩, fun _ => .refl _⟩

theorem txcomplete (ctx : Ctx) (p : Nat) : Aging ctx (ctx.txcomplete p) :=
  ⟨⟨rfl, rfl, rfl, rfl, rfl, rfl, .refl _, fun _ => .refl _⟩, fun _ => .refl _⟩

theorem checkTraffic (ctx : Ctx) (e prec : Nat) : Aging ctx (Wlfc.checkTraffic ctx e prec) :=
  setFields ⟨rfl, rfl, rfl, rfl, rfl⟩ rfl rfl rfl

theorem poppkt (ctx : Ctx) (slot : Nat) (remove : Bool) :
    Aging ctx (dhdWlfcHangerPoppkt ctx slot remove).1 := by
  unfold dhdWlfcHangerPoppkt
  dsimp only
  split
  · exact .refl ctx
  · split
    · dsimp only
      split
      · exact setItem ctx slot _
      · exact .refl ctx
    · exact .refl ctx

theorem findTableEntry (ctx : Ctx) (p : Nat) : Aging ctx (dhdWlfcFindTableEntry ctx p).1 := by
  unfold dhdWlfcFindTableEntry
  dsimp only
  split
  · exact .refl ctx
  · exact setPkt ctx p _

theorem takeRequest (ctx : Ctx) (e p : Nat) : Aging ctx (Wlfc.takeRequest ctx e p) := by
  unfold Wlfc.takeRequest
  dsimp only
  split
  · exact setFields ⟨rfl, rfl, rfl, rfl, rfl⟩ rfl rfl rfl
  · split
    · refine trans (setFields ?_ ?_ ?_ ?_) (setPkt _ p _)
      · exact ⟨rfl, rfl, rfl, rfl, rfl⟩
      all_goals rfl
    · exact .refl ctx

theorem setPsq {sub : Nat} {packets : List Nat}
    (fewer : packets.length ≤ ((ctx.entries e).psq sub).length) : Aging ctx (ctx.setPsq e sub packets) := by
  refine setEntry ⟨rfl, rfl, rfl, rfl, rfl⟩ ⟨le_rfl, id, ?_⟩
  intro other
  by_cases same : other = sub
  · simpa [same] using fewer
  · simp [same]

theorem pickUp {sub p : Nat} {rest : List Nat} (prec : Nat)
    (packets : (ctx.entries e).psq sub = p :: rest) :
    Aging ctx (Wlfc.pickUp ctx e prec sub p rest) := by
  have taken : Aging ctx (ctx.setPsq e sub rest) := setPsq (by simp [packets])
  exact ((taken.trans (takeRequest _ e p)).trans (countQueued _ (-1) p prec)).trans
    (checkTraffic _ e prec)

theorem dequeFrom {prec : Nat} {info : CommitInfo}
    (dequeued : Wlfc.dequeFrom ctx prec e = some (after, info)) : Aging ctx after := by
  obtain ⟨-, -, -, sub, rest, packets, rfl, -⟩ := dequeFrom_cases dequeued
  exact pickUp prec packets

theorem turn {actives : List Nat} (turned : actives.Perm ctx.activeEntries) :
    Aging ctx { ctx with activeEntries := actives } :=
  ⟨⟨rfl, rfl, rfl, rfl, rfl, rfl, turned, fun _ => .refl _⟩, fun _ => .refl _⟩

theorem dequeDelayedq (ctx : Ctx) (prec : Nat) (onlyNoCredit : Bool) :
    Aging ctx (dhdWlfcDequeDelayedq ctx prec onlyNoCredit).1 := by
  obtain ⟨actives, turned, ⟨e, -, after, info, found, same⟩ | same⟩ :=
    dhdWlfcDequeDelayedq_cases ctx prec onlyNoCredit
  · rw [same]
    exact (turn turned).trans (dequeFrom found)
  · rw [same]
    exact turn turned

theorem timSignal (ctx : Ctx) (e : Nat) : Aging ctx (Wlfc.timSignal ctx e).1 := by
  unfold Wlfc.timSignal
  dsimp only
  split
  · exact setFields ⟨rfl, rfl, rfl, rfl, rfl⟩ rfl rfl rfl
  · exact .refl ctx

theorem hangUp (ctx : Ctx) (p hslot : Nat) (headerNeeded : Bool) :
    Aging ctx (Wlfc.hangUp ctx p hslot headerNeeded).1 := by
  unfold Wlfc.hangUp
  split
  · exact .refl ctx
  · split
    · unfold dhdWlfcHangerPushpkt
      split
      · exact setItem ctx hslot _
      · exact .refl ctx
    · exact setItem ctx hslot _

theorem identify (ctx : Ctx) (e p : Nat) (headerNeeded : Bool) :
    Aging ctx (Wlfc.identify ctx e p headerNeeded).1 := by
  cases headerNeeded with
  | true => exact ⟨⟨rfl, rfl, rfl, rfl, rfl, rfl, .refl _, fun _ => .refl _⟩, fun _ => .refl _⟩
  | false => exact setPkt ctx p _

theorem pretxPktprocess (ctx : Ctx) (e p : Nat) (headerNeeded : Bool) :
    Aging ctx (dhdWlfcPretxPktprocess ctx e p headerNeeded).1 := by
  unfold dhdWlfcPretxPktprocess
  dsimp only
  have ready := (timSignal ctx e).trans (identify _ e p headerNeeded)
  split
  · exact ready
  · split
    · split
      · exact ((ready.trans (setPkt _ p _)).trans (hangUp _ p _ headerNeeded)).trans (setSeq _ e _ _)
      · exact (ready.trans (setPkt _ p _)).trans (hangUp _ p _ headerNeeded)
    · exact (ready.trans (setPkt _ p _)).trans (hangUp _ p _ headerNeeded)

theorem hearBus (ctx : Ctx) (answer : BusAnswer) : Aging ctx (Wlfc.hearBus ctx answer) :=
  ⟨⟨rfl, rfl, rfl, rfl, rfl, rfl, .refl _, fun _ => .refl _⟩, fun _ => .refl _⟩

theorem noteCommitted (ctx : Ctx) (e p : Nat) : Aging ctx (Wlfc.noteCommitted ctx e p) := by
  have noted : ∀ other, SameDstn (ctx.entries other) ((Wlfc.noteCommitted ctx e p).entries other) ∧
      Ages (ctx.entries other) ((Wlfc.noteCommitted ctx e p).entries other) := by
    intro other
    by_cases is : other = e
    · subst is
      simp only [Wlfc.noteCommitted, Ctx.entries_setEntry, update_self]
      refine ⟨⟨rfl, rfl, rfl, rfl, rfl⟩, Nat.le_succ _, ?_, fun _ => le_rfl⟩
      intro held
      simp [held]
    · simp only [Wlfc.noteCommitted, Ctx.entries_setEntry, update_of_ne is]
      exact ⟨.refl _, .refl _⟩
  exact ⟨⟨rfl, rfl, rfl, rfl, rfl, rfl, .refl _, fun other => (noted other).1⟩, fun other => (noted other).2⟩

theorem handlePacketCommit {info : CommitInfo} {answer : BusAnswer}
    (good : (dhdWlfcHandlePacketCommit ctx info answer).2 = bcmeOk) :
    Aging ctx (dhdWlfcHandlePacketCommit ctx info answer).1 := by
  have ready := (setCreditcheck ctx info.p info.acFifoCreditSpent).trans
    (pretxPktprocess _ info.macEntry info.p info.needsHdr)
  unfold dhdWlfcHandlePacketCommit at good ⊢
  dsimp only at good ⊢
  split at good
  · rename_i isReady
    rw [if_pos isReady]
    split at good
    · rename_i taken
      rw [if_pos taken]
      exact (ready.trans (hearBus _ answer)).trans (noteCommitted _ info.macEntry info.p)
    · rename_i refused
      exact absurd good refused
  · rename_i failed
    exact absurd good failed

theorem popSuppressed (ctx : Ctx) (prec p : Nat) : Aging ctx (Wlfc.popSuppressed ctx prec p) := by
  unfold Wlfc.popSuppressed
  split
  · exact poppkt ctx _ true
  · exact .refl ctx

theorem precDrop (ctx : Ctx) (prec p : Nat) (bPktInQ : Bool) :
    Aging ctx (dhdWlfcPrecDrop ctx prec p bPktInQ) := by
  unfold dhdWlfcPrecDrop
  dsimp only
  refine (trans (popSuppressed ctx prec p) ?_).trans ((countInDrv _ (-1) _ _).trans (txcomplete _ p))
  split
  · exact countQueued _ (-1) p (prec / 2)
  · exact .refl _

theorem foldl_precDrop (ctx : Ctx) (prec : Nat) (packets : List Nat) :
    Aging ctx (packets.foldl (fun ctx p => dhdWlfcPrecDrop ctx prec p true) ctx) := by
  induction packets generalizing ctx with
  | nil => exact .refl ctx
  | cons p rest ih => exact (precDrop ctx prec p true).trans (ih _)

theorem precDropPkts (ctx : Ctx) (e prec : Nat) : Aging ctx (dhdPrecDropPkts ctx e prec) := by
  refine (setPsq ?_).trans (foldl_precDrop _ prec _)
  rw [List.length_append, List.length_take, List.length_drop]
  omega

theorem returnRequest (ctx : Ctx) (e prec p : Nat) : Aging ctx (Wlfc.returnRequest ctx e prec p) := by
  unfold Wlfc.returnRequest
  dsimp only
  split
  · exact setFields ⟨rfl, rfl, rfl, rfl, rfl⟩ rfl rfl rfl
  · exact .refl ctx

theorem rollbackHeader (ctx : Ctx) (e prec p : Nat) (delayed : Bool) :
    Aging ctx (Wlfc.rollbackHeader ctx e prec p delayed).1 := by
  cases delayed with
  | true => exact (setSeq ctx e prec _).trans (setPkt _ p _)
  | false => exact .refl ctx

end Aging

namespace Kept

variable {after : Ctx}

theorem setEntry (same : SameDstn (ctx.entries e) entry) :
    Kept ctx (ctx.setEntry e entry) := by
  refine ⟨rfl, rfl, rfl, rfl, rfl, rfl, .refl _, ?_⟩
  intro other
  by_cases is : other = e
  · subst is
    rw [Ctx.entries_setEntry, update_self]
    exact same
  · rw [Ctx.entries_setEntry, update_of_ne is]
    exact .refl _

theorem setPsq (ctx : Ctx) (e prec : Nat) (packets : List Nat) : Kept ctx (ctx.setPsq e prec packets) :=
  setEntry ⟨rfl, rfl, rfl, rfl, rfl⟩

theorem precDrop (ctx : Ctx) (prec p : Nat) (bPktInQ : Bool) :
    Kept ctx (dhdWlfcPrecDrop ctx prec p bPktInQ) := (Aging.precDrop ctx prec p bPktInQ).toKept

theorem precDropPkts (ctx : Ctx) (e prec : Nat) : Kept ctx (dhdPrecDropPkts ctx e prec) :=
  (Aging.precDropPkts ctx e prec).toKept

theorem enqueCounted (ctx : Ctx) (e p prec : Nat) (qHead : Bool) (seq : UInt8) :
    Kept ctx (Wlfc.enqueCounted ctx e p prec qHead seq) :=
  (setPsq ctx e prec _).trans (Aging.countQueued _ 1 p (prec / 2)).toKept

theorem precEnqWithDrop (ctx : Ctx) (e p prec : Nat) (qHead : Bool) (seq : UInt8) :
    Kept ctx (dhdWlfcPrecEnqWithDrop ctx e p prec qHead seq).1 := by
  unfold dhdWlfcPrecEnqWithDrop
  split
  · exact enqueCounted ctx e p prec qHead seq
  · rename_i eprec _
    exact (precDropPkts ctx e eprec).trans (enqueCounted _ e p prec qHead seq)
  · exact .refl ctx

theorem of_precEnqWithDrop {p prec : Nat} {qHead queued : Bool} {seq : UInt8}
    (enqueued : dhdWlfcPrecEnqWithDrop ctx e p prec qHead seq = (after, queued)) : Kept ctx after := by
  have kept := precEnqWithDrop ctx e p prec qHead seq
  rw [enqueued] at kept
  exact kept

theorem rollbackPacketToq (ctx : Ctx) (p : Nat) (delayed : Bool) :
    Kept ctx (dhdWlfcRollbackPacketToq ctx p delayed).1 := by
  unfold dhdWlfcRollbackPacketToq
  dsimp only
  have bare := (((Aging.findTableEntry ctx p).trans
    (Aging.returnRequest _ (dhdWlfcFindTableEntry ctx p).2 (ctx.pkts p).fifo p)).trans
    (Aging.rollbackHeader _ (dhdWlfcFindTableEntry ctx p).2 (ctx.pkts p).fifo p delayed)).toKept
  split
  · exact bare.trans (precDrop _ _ p false)
  · split
    · rename_i queued enqueued
      exact bare.trans (of_precEnqWithDrop enqueued)
    · rename_i refused enqueued
      exact (bare.trans (of_precEnqWithDrop enqueued)).trans (precDrop refused _ p false)

theorem rollBack (ctx : Ctx) (info : CommitInfo) : Kept ctx (Wlfc.rollBack ctx info) :=
  (rollbackPacketToq ctx info.p info.needsHdr).trans (Aging.setCreditcheck _ info.p false).toKept

theorem unhang (ctx : Ctx) (info : CommitInfo) : Kept ctx (Wlfc.unhang ctx info) := by
  unfold Wlfc.unhang
  split
  · exact (Aging.poppkt ctx _ true).toKept
  · exact .refl ctx

theorem handlePacketCommit (ctx : Ctx) (info : CommitInfo) (answer : BusAnswer) :
    Kept ctx (dhdWlfcHandlePacketCommit ctx info answer).1 := by
  unfold dhdWlfcHandlePacketCommit
  dsimp only
  have ready := ((Aging.setCreditcheck ctx info.p info.acFifoCreditSpent).trans
    (Aging.pretxPktprocess _ info.macEntry info.p info.needsHdr)).toKept
  split
  · have left := ready.trans (Aging.hearBus _ answer).toKept
    split
    · exact left.trans (Aging.noteCommitted _ info.macEntry info.p).toKept
    · exact (left.trans (unhang _ info)).trans (rollBack _ info)
  · exact ready.trans (rollBack _ info)

end Kept

end BcmDhd.Wlfc
