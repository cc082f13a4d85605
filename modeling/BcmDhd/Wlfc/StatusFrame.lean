import BcmDhd.Wlfc.Frame
import BcmDhd.Wlfc.TxStatus

namespace BcmDhd.Wlfc

open Function

/-- What neither statuses nor the clean-up of an entry's packets change. -/
structure Unmoved (before after : Ctx) : Prop where
  mode : after.mode = before.mode
  occupied : ∀ e, (after.entries e).occupied = (before.entries e).occupied

theorem Kept.unmoved {before after : Ctx} (kept : Kept before after) : Unmoved before after :=
  ⟨kept.mode, fun e => (kept.dstn e).occupied⟩

theorem Aging.unmoved {before after : Ctx} (aging : Aging before after) : Unmoved before after :=
  aging.toKept.unmoved

namespace Unmoved

variable {before middle after : Ctx}

theorem refl (ctx : Ctx) : Unmoved ctx ctx := ⟨rfl, fun _ => rfl⟩

theorem trans (first : Unmoved before middle) (second : Unmoved middle after) :
    Unmoved before after :=
  ⟨second.mode.trans first.mode, fun e => (second.occupied e).trans (first.occupied e)⟩

theorem setEntry {ctx : Ctx} {e : Nat} {entry : MacDescriptor}
    (same : entry.occupied = (ctx.entries e).occupied) : Unmoved ctx (ctx.setEntry e entry) := by
  refine ⟨rfl, fun other => ?_⟩
  by_cases is : other = e
  · subst is
    rw [Ctx.entries_setEntry, update_self]
    exact same
  · rw [Ctx.entries_setEntry, update_of_ne is]

theorem setAfq (ctx : Ctx) (e prec : Nat) (packets : List Nat) : Unmoved ctx (ctx.setAfq e prec packets) :=
  setEntry rfl

theorem land (ctx : Ctx) (e : Nat) : Unmoved ctx (ctx.setEntry e (landed (ctx.entries e))) :=
  setEntry rfl

theorem foldl {Item : Type} {step : Ctx → Item → Ctx} (items : List Item)
    (one : ∀ ctx item, Unmoved ctx (step ctx item)) (ctx : Ctx) :
    Unmoved ctx (items.foldl step ctx) := by
  induction items generalizing ctx with
  | nil => exact .refl ctx
  | cons item rest ih => exact (one ctx item).trans (ih _)

theorem pushpkt (ctx : Ctx) (p slot : Nat) : Unmoved ctx (dhdWlfcHangerPushpkt ctx p slot).1 := by
  unfold dhdWlfcHangerPushpkt
  split
  · exact (Aging.setItem ctx slot _).unmoved
  · exact .refl ctx

theorem enqueAfq (ctx : Ctx) (p : Nat) : Unmoved ctx (dhdWlfcEnqueAfq ctx p) := setAfq ctx _ _ _

theorem suppressedAckedUpdate (ctx : Ctx) (hslot prec : Nat) (hcnt : UInt8) :
    Unmoved ctx (dhdWlfcSuppressedAckedUpdate ctx hslot prec hcnt) := by
  unfold dhdWlfcSuppressedAckedUpdate
  dsimp only
  split
  · exact .refl ctx
  · rename_i p found
    have back : ∀ counted : Ctx, Unmoved ctx counted →
        Unmoved ctx (if ctx.mode.afq then dhdWlfcEnqueAfq counted p
          else (dhdWlfcHangerPushpkt counted p hslot).1) := by
      intro counted same
      split
      · exact same.trans (enqueAfq counted p)
      · exact same.trans (pushpkt counted p hslot)
    have taken := (Kept.setPsq ctx (slotEntry hslot) (psqSupIdx prec)
      ((ackedQueue ctx hslot prec).eraseP (counterMatches ctx.pkts hcnt))).unmoved
    refine trans (back _ ?_) (setEntry rfl)
    exact ⟨rfl, taken.occupied⟩

theorem hangerFreePkt (ctx : Ctx) (slot : Nat) (txstatus busreturned : Bool) :
    Unmoved ctx (dhdWlfcHangerFreePkt ctx slot txstatus busreturned) := by
  unfold dhdWlfcHangerFreePkt
  dsimp only
  split
  · exact .refl ctx
  · split
    · exact (Aging.setItem ctx slot _).unmoved
    · split
      · have popped : ∀ item result,
            dhdWlfcHangerPoppkt (ctx.setItem slot item) slot true = result → Unmoved ctx result.1 := by
          rintro item result rfl
          exact ((Aging.setItem ctx slot item).trans (Aging.poppkt _ slot true)).unmoved
        split
        · rename_i after p pop
          exact (popped _ _ pop).trans
            ((Aging.countInDrv after (-1) _ _).trans (Aging.txcomplete _ p)).unmoved
        · rename_i after pop
          exact popped _ _ pop
      · exact (Aging.setItem ctx slot _).unmoved

theorem returnImpliedCredit (ctx : Ctx) (p : Nat) : Unmoved ctx (dhdWlfcReturnImpliedCredit ctx p) := by
  unfold dhdWlfcReturnImpliedCredit
  dsimp only
  split
  · split
    · exact ⟨rfl, fun _ => rfl⟩
    · exact ⟨rfl, fun _ => rfl⟩
  · exact .refl ctx

theorem enqueSubqueue (ctx : Ctx) (p prec ac : Nat) : Unmoved ctx (Wlfc.enqueSubqueue ctx p prec ac).1 := by
  unfold Wlfc.enqueSubqueue
  dsimp only
  have found := (Aging.findTableEntry ctx p).unmoved
  split
  · rename_i enqueued
    exact (found.trans (Kept.of_precEnqWithDrop enqueued).unmoved).trans (setEntry rfl)
  · rename_i enqueued
    exact found.trans (Kept.of_precEnqWithDrop enqueued).unmoved

theorem markSuppressed (ctx : Ctx) (slot gen : Nat) :
    Unmoved ctx (dhdWlfcHangerMarkSuppressed ctx slot gen) := by
  unfold dhdWlfcHangerMarkSuppressed
  split
  · exact .refl ctx
  · exact (Aging.setItem ctx slot _).unmoved

theorem requeueSuppressed (ctx : Ctx) (p hslot gen : Nat) (seq : H2dSeq) :
    Unmoved ctx (Wlfc.requeueSuppressed ctx p hslot gen seq) := by
  unfold Wlfc.requeueSuppressed
  dsimp only
  have queued := (Aging.setPkt ctx p (suppressedPkt ctx.mode (ctx.pkts p) gen seq)).unmoved.trans
    (enqueSubqueue _ p (psqSupIdx (ctx.pkts p).fifo) (ctx.pkts p).fifo)
  change Unmoved ctx (dhdWlfcEnqueSuppressed _ (ctx.pkts p).fifo p).1 at queued
  generalize dhdWlfcEnqueSuppressed _ (ctx.pkts p).fifo p = result at queued ⊢
  split
  · exact queued.trans (Kept.precDrop _ _ p false).unmoved
  · split
    · exact queued
    · exact queued.trans (markSuppressed _ hslot gen)

theorem finishPkt (ctx : Ctx) (p hslot : Nat) : Unmoved ctx (Wlfc.finishPkt ctx p hslot) := by
  unfold Wlfc.finishPkt
  split
  · exact ((Aging.txcomplete ctx p).trans (Aging.countInDrv _ (-1) _ _)).unmoved
  · exact hangerFreePkt ctx hslot true false

theorem returnCreditOf (ctx : Ctx) (e p : Nat) : Unmoved ctx (Wlfc.returnCreditOf ctx e p) := by
  unfold Wlfc.returnCreditOf
  split
  · exact returnImpliedCredit ctx p
  · split
    · exact .refl ctx
    · exact setEntry rfl

theorem settleStatus (ctx : Ctx) (p hslot flags gen : Nat) (seq : H2dSeq) :
    Unmoved ctx (Wlfc.settleStatus ctx p hslot flags gen seq).1 := by
  unfold Wlfc.settleStatus
  dsimp only
  have found := (Aging.findTableEntry ctx p).unmoved
  have noted : Unmoved ctx (if suppressFlag flags = true then
      noteSuppressed (dhdWlfcFindTableEntry ctx p).1 (dhdWlfcFindTableEntry ctx p).2 gen
      else ((dhdWlfcFindTableEntry ctx p).1, false)).1 := by
    split
    · exact found.trans (setEntry rfl)
    · exact found
  have credited := noted.trans (returnCreditOf _ (dhdWlfcFindTableEntry ctx p).2 p)
  generalize (if suppressFlag flags = true then
      noteSuppressed (dhdWlfcFindTableEntry ctx p).1 (dhdWlfcFindTableEntry ctx p).2 gen
      else ((dhdWlfcFindTableEntry ctx p).1, false)) = first at credited ⊢
  refine trans ?_ (land _ _)
  split
  · exact credited.trans (requeueSuppressed _ p hslot gen seq)
  · exact credited.trans (finishPkt _ p hslot)

theorem statusPkt (ctx : Ctx) (status : TxStatus) (cursor : StatusCursor) :
    Unmoved ctx (Wlfc.statusPkt ctx status cursor).1 := by
  unfold Wlfc.statusPkt
  split
  · have taken : Unmoved ctx (dhdWlfcDequeAfq ctx cursor.hslot cursor.hcnt cursor.fifo).1 := by
      unfold dhdWlfcDequeAfq
      dsimp only
      split
      · exact .refl ctx
      · exact setAfq ctx _ _ _
    split
    · rename_i after p dequeued
      rw [dequeued] at taken
      exact taken
    · rename_i after dequeued
      rw [dequeued] at taken
      exact taken
  · split
    · exact .refl ctx
    · exact hangerFreePkt ctx _ true false

theorem ackSuppressed (ctx : Ctx) (cursor : StatusCursor) :
    Unmoved ctx (Wlfc.ackSuppressed ctx cursor) := by
  unfold Wlfc.ackSuppressed
  split
  · exact suppressedAckedUpdate ctx _ _ _
  · exact .refl ctx

theorem statusRound (ctx : Ctx) (status : TxStatus) (cursor : StatusCursor) :
    Unmoved ctx (Wlfc.statusRound ctx status cursor).1 := by
  unfold Wlfc.statusRound
  have taken := (ackSuppressed ctx cursor).trans (statusPkt _ status cursor)
  split
  · rename_i after found
    rw [found] at taken
    exact taken
  · rename_i after p flags found
    rw [found] at taken
    exact taken.trans (settleStatus after p _ _ _ _)

theorem removeReference (ctx : Ctx) (p : Nat) : Unmoved ctx (dhdWlfcHangerRemoveReference ctx p) := by
  unfold dhdWlfcHangerRemoveReference
  dsimp only
  split
  · exact (Aging.setItem ctx _ _).unmoved
  · exact .refl ctx

theorem leave (ctx : Ctx) (p i ac : Nat) : Unmoved ctx ((ctx.countInDrv (-1) i ac).txcomplete p) :=
  ((Aging.countInDrv ctx (-1) i ac).trans (Aging.txcomplete _ p)).unmoved

theorem cleanupTxqPkt (ctx : Ctx) (p : Nat) : Unmoved ctx (Wlfc.cleanupTxqPkt ctx p) := by
  unfold Wlfc.cleanupTxqPkt
  dsimp only
  have found := (Aging.findTableEntry ctx p).unmoved
  refine trans (trans (trans ?_ (land _ _)) (returnImpliedCredit _ p)) (leave _ p _ _)
  split
  · exact found
  · exact found.trans (removeReference _ p)

theorem cleanupTxq (ctx : Ctx) (fn : FlushFn) : Unmoved ctx (dhdWlfcCleanupTxq ctx fn) := by
  unfold dhdWlfcCleanupTxq
  have kept : Unmoved ctx { ctx with txq := ctx.txq.filter fun p => ¬ fn.takes (ctx.pkts p) } :=
    ⟨rfl, fun _ => rfl⟩
  exact kept.trans (foldl _ cleanupTxqPkt _)

theorem flushPsqPkt (prec : Nat) (ctx : Ctx) (p : Nat) : Unmoved ctx (Wlfc.flushPsqPkt prec ctx p) := by
  unfold Wlfc.flushPsqPkt
  dsimp only
  refine trans (trans ?_ (Aging.countQueued _ (-1) p (prec / 2)).unmoved) (leave _ p _ _)
  split
  · exact removeReference ctx p
  · exact .refl ctx

theorem psqFlush (ctx : Ctx) (e : Nat) (fn : FlushFn) : Unmoved ctx (dhdWlfcPsqFlush ctx e fn) := by
  unfold dhdWlfcPsqFlush
  apply foldl
  intro ctx prec
  exact (Kept.setPsq ctx e prec _).unmoved.trans (foldl _ (flushPsqPkt prec) _)

theorem flushAfqPkt (prec : Nat) (ctx : Ctx) (p : Nat) : Unmoved ctx (Wlfc.flushAfqPkt prec ctx p) := by
  unfold Wlfc.flushAfqPkt
  dsimp only
  exact (((Aging.findTableEntry ctx p).unmoved.trans (land _ _)).trans
    (returnImpliedCredit _ p)).trans (leave _ p _ _)

theorem afqFlush (ctx : Ctx) (e : Nat) (fn : FlushFn) : Unmoved ctx (dhdWlfcAfqFlush ctx e fn) := by
  unfold dhdWlfcAfqFlush
  apply foldl
  intro ctx prec
  exact (setAfq ctx e prec _).trans (foldl _ (flushAfqPkt prec) _)

theorem cleanupEntry {fn : FlushFn} (part : fn ≠ .all) (ctx : Ctx) (e : Nat) :
    Unmoved ctx (Wlfc.cleanupEntry fn ctx e) := by
  unfold Wlfc.cleanupEntry
  split
  · dsimp only
    rw [if_neg (fun both => part both.1)]
    split
    · exact (psqFlush ctx e fn).trans (afqFlush _ e fn)
    · exact psqFlush ctx e fn
  · exact .refl ctx

theorem cleanup {fn : FlushFn} (part : fn ≠ .all) (ctx : Ctx) : Unmoved ctx (dhdWlfcCleanup ctx fn) := by
  unfold dhdWlfcCleanup
  have flushed := (cleanupTxq ctx fn).trans (foldl (List.range entryCount) (cleanupEntry part) _)
  generalize (List.range entryCount).foldl (Wlfc.cleanupEntry fn) (dhdWlfcCleanupTxq ctx fn) =
    drained at flushed ⊢
  dsimp only
  split
  · exact flushed
  · exact flushed.trans ⟨rfl, fun _ => rfl⟩

end Unmoved

theorem evictExisting_occupied (ctx : Ctx) (e : Nat) (ea : List UInt8) :
    ((evictExisting ctx e ea).entries e).occupied = (ctx.entries e).occupied := by
  unfold evictExisting
  split
  · rename_i existing found
    split
    · rename_i other
      have cleaned := (@Unmoved.cleanup (.entrypkt existing) (by simp) ctx).occupied e
      unfold delMacEntry
      generalize dhdWlfcCleanup ctx (.entrypkt existing) = done at cleaned ⊢
      dsimp only
      rw [Ctx.entries_setEntry, update_of_ne other.symm]
      exact cleaned
    · rfl
  · rfl

end BcmDhd.Wlfc
