import BcmDhd.Wlfc.CleanupReferences
import BcmDhd.Wlfc.FailedCommit
import BcmDhd.Wlfc.HeaderParse

namespace BcmDhd.Wlfc

open BcmDhd.Lib

/-- `FIFO_credit` over all FIFOs. -/
def fifoCreditSum (ctx : Ctx) : Int := ctx.credits.ledger.holdings (Finset.range fifoCount)

/-- The packet was committed with `ac_fifo_credit_spent`. -/
structure Charged (ctx : Ctx) (p : Nat) : Prop where
  creditcheck : (ctx.pkts p).creditcheck = true
  fifo : (ctx.pkts p).fifo < fifoCount

instance (ctx : Ctx) (p : Nat) : Decidable (Charged ctx p) :=
  decidable_of_iff ((ctx.pkts p).creditcheck = true ∧ (ctx.pkts p).fifo < fifoCount)
    ⟨fun both => ⟨both.1, both.2⟩, fun charged => ⟨charged.creditcheck, charged.fifo⟩⟩

/-- `dhd_wlfc_txcomplete` with its return code. -/
def txcompleteOrUnsupported (ctx : Ctx) (p : Nat) (success : Bool) : Ctx × Int :=
  if ctx.proptxstatusMode = .none then (ctx, wlfcUnsupported)
  else (dhdWlfcTxcomplete ctx p success, bcmeOk)

/-- Exactly one credit more is at hand. -/
def Repaid (before after : Ctx) : Prop := fifoCreditSum after = fifoCreditSum before + 1

instance (before after : Ctx) : Decidable (Repaid before after) :=
  inferInstanceAs (Decidable (_ = _))

/-- Credits, mode, and what the packets were charged are as they were. -/
structure SameCharges (before after : Ctx) : Prop where
  credits : after.credits = before.credits
  proptxstatusMode : after.proptxstatusMode = before.proptxstatusMode
  creditcheck : ∀ q, (after.pkts q).creditcheck = (before.pkts q).creditcheck
  fifo : ∀ q, (after.pkts q).fifo = (before.pkts q).fifo

namespace SameCharges

variable {before middle after : Ctx}

theorem trans (first : SameCharges before middle) (second : SameCharges middle after) :
    SameCharges before after where
  credits := second.credits.trans first.credits
  proptxstatusMode := second.proptxstatusMode.trans first.proptxstatusMode
  creditcheck q := (second.creditcheck q).trans (first.creditcheck q)
  fifo q := (second.fifo q).trans (first.fifo q)

theorem of_pkts (kept : Kept before after) (pkts : after.pkts = before.pkts) :
    SameCharges before after :=
  ⟨kept.credits, kept.proptxstatusMode, fun q => by rw [pkts], fun q => by rw [pkts]⟩

theorem setEntry (ctx : Ctx) (e : Nat) (entry : MacDescriptor) :
    SameCharges ctx (ctx.setEntry e entry) := ⟨rfl, rfl, fun _ => rfl, fun _ => rfl⟩

theorem findTableEntry (ctx : Ctx) (p : Nat) : SameCharges ctx (dhdWlfcFindTableEntry ctx p).1 := by
  obtain ⟨kept, -⟩ := Aging.findTableEntry ctx p
  refine ⟨kept.credits, kept.proptxstatusMode, fun q => ?_, fun q => ?_⟩
  all_goals
    unfold dhdWlfcFindTableEntry
    dsimp only
    split
    · rfl
    · by_cases same : q = p
      · subst same
        simp [Ctx.setPkt]
      · simp [Ctx.setPkt, same]

theorem poppkt (ctx : Ctx) (slot : Nat) (remove : Bool) :
    SameCharges ctx (dhdWlfcHangerPoppkt ctx slot remove).1 := by
  apply of_pkts (Aging.poppkt ctx slot remove).toKept
  unfold dhdWlfcHangerPoppkt
  dsimp only
  split
  · rfl
  · split
    · cases remove with
      | true => rfl
      | false => rfl
    · rfl

theorem removeReference (ctx : Ctx) (p : Nat) :
    SameCharges ctx (dhdWlfcHangerRemoveReference ctx p) := by
  unfold dhdWlfcHangerRemoveReference
  dsimp only
  split
  · exact ⟨rfl, rfl, fun _ => rfl, fun _ => rfl⟩
  · exact ⟨rfl, rfl, fun _ => rfl, fun _ => rfl⟩

theorem fifoCreditSum_eq (same : SameCharges before after) :
    fifoCreditSum after = fifoCreditSum before := by
  rw [fifoCreditSum, fifoCreditSum, same.credits]

end SameCharges

theorem fifoCreditSum_returnImpliedCredit {ctx : Ctx} {p : Nat} (inside : (ctx.pkts p).fifo < fifoCount) :
    fifoCreditSum (dhdWlfcReturnImpliedCredit ctx p) = fifoCreditSum ctx +
      if ctx.proptxstatusMode = .impliedCredit ∧ (ctx.pkts p).creditcheck = true then 1 else 0 := by
  unfold dhdWlfcReturnImpliedCredit
  dsimp only
  split
  · split
    · rename_i lender found
      have member : lender ∈ Finset.range fifoCount := by
        have within := List.mem_of_find?_eq_some found
        rw [List.mem_reverse, List.mem_range] at within
        rw [Finset.mem_range, fifoCount]
        omega
      change (ctx.credits.move (-1) _ lender).ledger.holdings _ = _
      rw [Credits.ledger_move, Ledger.holdings_lend member, fifoCreditSum]
      ring
    · change (ctx.credits.add 1 _).ledger.holdings _ = _
      rw [Credits.ledger_add, Ledger.holdings_deposit (Finset.mem_range.mpr inside), fifoCreditSum]
  · rw [add_zero]

theorem fifo_returnImpliedCredit (ctx : Ctx) (p : Nat) :
    (dhdWlfcReturnImpliedCredit ctx p).pkts = ctx.pkts ∧
    (dhdWlfcReturnImpliedCredit ctx p).proptxstatusMode = ctx.proptxstatusMode := by
  unfold dhdWlfcReturnImpliedCredit
  dsimp only
  split
  · split
    · exact ⟨rfl, rfl⟩
    · exact ⟨rfl, rfl⟩
  · exact ⟨rfl, rfl⟩

/-- What a step does to the credits of a packet that leaves through it. -/
structure LetsGo (p : Nat) (before after : Ctx) : Prop where
  sum : fifoCreditSum after = fifoCreditSum before +
    if before.proptxstatusMode = .impliedCredit ∧ (before.pkts p).creditcheck = true then 1 else 0
  proptxstatusMode : after.proptxstatusMode = before.proptxstatusMode
  creditcheck : ∀ q, (after.pkts q).creditcheck = (before.pkts q).creditcheck
  fifo : ∀ q, (after.pkts q).fifo = (before.pkts q).fifo

namespace LetsGo

variable {p : Nat} {before middle after : Ctx}

theorem returnImpliedCredit {ctx : Ctx} (inside : (ctx.pkts p).fifo < fifoCount) :
    LetsGo p ctx (dhdWlfcReturnImpliedCredit ctx p) := by
  obtain ⟨pkts, mode⟩ := fifo_returnImpliedCredit ctx p
  exact ⟨fifoCreditSum_returnImpliedCredit inside, mode, fun q => by rw [pkts], fun q => by rw [pkts]⟩

theorem after_same (first : SameCharges before middle) (then_ : LetsGo p middle after) :
    LetsGo p before after where
  sum := by rw [then_.sum, first.fifoCreditSum_eq, first.proptxstatusMode, first.creditcheck]
  proptxstatusMode := then_.proptxstatusMode.trans first.proptxstatusMode
  creditcheck q := (then_.creditcheck q).trans (first.creditcheck q)
  fifo q := (then_.fifo q).trans (first.fifo q)

theorem before_same (first : LetsGo p before middle) (then_ : SameCharges middle after) :
    LetsGo p before after where
  sum := by rw [then_.fifoCreditSum_eq, first.sum]
  proptxstatusMode := then_.proptxstatusMode.trans first.proptxstatusMode
  creditcheck q := (then_.creditcheck q).trans (first.creditcheck q)
  fifo q := (then_.fifo q).trans (first.fifo q)

theorem completeFailed {ctx : Ctx} (e : Nat) (inside : (ctx.pkts p).fifo < fifoCount) :
    LetsGo p ctx (Wlfc.completeFailed ctx e p) := by
  unfold Wlfc.completeFailed
  dsimp only
  have popped : SameCharges ctx (if ctx.mode.afq then ctx
      else (dhdWlfcHangerPoppkt ctx (ctx.pkts p).h2dtag.hslot true).1) := by
    split
    · exact ⟨rfl, rfl, fun _ => rfl, fun _ => rfl⟩
    · exact .poppkt ctx _ true
  generalize (if ctx.mode.afq then ctx
    else (dhdWlfcHangerPoppkt ctx (ctx.pkts p).h2dtag.hslot true).1) = left at popped ⊢
  have completed : SameCharges ctx (left.txcomplete p) :=
    popped.trans ⟨rfl, rfl, fun _ => rfl, fun _ => rfl⟩
  have returned : LetsGo p ctx (dhdWlfcReturnImpliedCredit (left.txcomplete p) p) := by
    apply after_same completed
    apply returnImpliedCredit
    rw [completed.fifo]
    exact inside
  exact returned.before_same ⟨rfl, rfl, fun _ => rfl, fun _ => rfl⟩

theorem txcomplete {ctx : Ctx} (inside : (ctx.pkts p).fifo < fifoCount) :
    LetsGo p ctx (dhdWlfcTxcomplete ctx p false) := by
  have off : SameCharges ctx { ctx with flying := ctx.flying.erase p } :=
    ⟨rfl, rfl, fun _ => rfl, fun _ => rfl⟩
  have found := off.trans (.findTableEntry _ p)
  unfold dhdWlfcTxcomplete
  dsimp only
  rw [if_pos (Or.inl (by simp))]
  refine before_same (after_same found (completeFailed _ ?_)) (.setEntry _ _ _)
  rw [found.fifo]
  exact inside

theorem cleanupTxqPkt {ctx : Ctx} (inside : (ctx.pkts p).fifo < fifoCount) :
    LetsGo p ctx (Wlfc.cleanupTxqPkt ctx p) := by
  have found := SameCharges.findTableEntry ctx p
  unfold Wlfc.cleanupTxqPkt
  dsimp only
  generalize (dhdWlfcFindTableEntry ctx p).1 = looked at found ⊢
  have unhung : SameCharges ctx
      (if looked.mode.afq then looked else dhdWlfcHangerRemoveReference looked p) := by
    split
    · exact found
    · exact found.trans (.removeReference looked p)
  generalize (if looked.mode.afq then looked else dhdWlfcHangerRemoveReference looked p) = left
    at unhung ⊢
  have back := unhung.trans (.setEntry left (dhdWlfcFindTableEntry ctx p).2
    (landed (left.entries (dhdWlfcFindTableEntry ctx p).2)))
  refine before_same (after_same back (returnImpliedCredit ?_)) ⟨rfl, rfl, fun _ => rfl, fun _ => rfl⟩
  rw [back.fifo]
  exact inside

theorem repaid_iff (goes : LetsGo p before after) (charged : Charged before p) :
    Repaid before after ↔ before.proptxstatusMode = .impliedCredit := by
  rw [Repaid, goes.sum, charged.creditcheck]
  by_cases implied : before.proptxstatusMode = .impliedCredit
  · simp [implied]
  · simp [implied]

end LetsGo

/-- A packet that the dongle never sees gives its credit back where credits are implied, and
nowhere else, whether the bus fails to send it or a clean-up takes it back. -/
theorem unseen_repaid_iff {ctx : Ctx} {p : Nat} (charged : Charged ctx p) :
    (Repaid ctx (txcompleteOrUnsupported ctx p false).1 ↔ ctx.proptxstatusMode = .impliedCredit) ∧
      (Repaid ctx (cleanupTxqPkt ctx p) ↔ ctx.proptxstatusMode = .impliedCredit) := by
  refine ⟨?_, (LetsGo.cleanupTxqPkt charged.fifo).repaid_iff charged⟩
  unfold txcompleteOrUnsupported
  by_cases none_ : ctx.proptxstatusMode = .none
  · rw [if_pos none_, none_]
    simp [Repaid]
  · rw [if_neg none_]
    exact (LetsGo.txcomplete charged.fifo).repaid_iff charged

theorem unseen_repaid_iff_queuedAtBus :
    Charged { queuedAtBus with proptxstatusMode := .impliedCredit } 7 ∧
      Repaid { queuedAtBus with proptxstatusMode := .impliedCredit }
        (cleanupTxqPkt { queuedAtBus with proptxstatusMode := .impliedCredit } 7) := by
  have charged : Charged { queuedAtBus with proptxstatusMode := .impliedCredit } 7 := by decide +kernel
  exact ⟨charged, (unseen_repaid_iff charged).2.mpr rfl⟩

/-- The bus takes the only packet and cannot send it, or a clean-up takes it. Three of the four
credits of its FIFO are left for good. -/
theorem unseen_not_repaid :
    driver.Admitted (driverStart ⟨false, false, false⟩) (busQueueCalls ++ [.take 7, .txcomplete 7 false]) ∧
      Charged queuedAtBus 7 ∧ 7 ∈ queuedAtBus.txq ∧
      queuedAtBus.credits.initFifoCredit 1 = 4 ∧ queuedAtBus.credits.fifoCredit 1 = 3 ∧
      (txcompleteOrUnsupported (busTake queuedAtBus 7) 7 false).1.credits.fifoCredit 1 = 3 ∧
      ¬ Repaid (busTake queuedAtBus 7) (txcompleteOrUnsupported (busTake queuedAtBus 7) 7 false).1 ∧
      ¬ Repaid queuedAtBus (dhdWlfcCleanupTxq queuedAtBus .all) := by
  decide +kernel

end BcmDhd.Wlfc
