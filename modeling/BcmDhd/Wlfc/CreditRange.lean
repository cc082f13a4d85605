import BcmDhd.Lib.Machine
import BcmDhd.Wlfc.Destinations
import BcmDhd.Wlfc.PassCredits

namespace BcmDhd.Wlfc

open BcmDhd.Lib

/-- Every FIFO has credits left, and its share is not exceeded once its loans are back. -/
structure InRange (credits : Credits) : Prop where
  low : ∀ fifo < fifoCount, 0 ≤ credits.fifoCredit fifo
  high : ∀ fifo < fifoCount,
    credits.ledger.capital (Finset.range fifoCount) fifo ≤ credits.initFifoCredit fifo
  lends : credits.ledger.Lends
  atim : ∀ borrower, credits.creditsBorrowed borrower (acCount + 1) = 0

/-- A credit-back that does no harm: its FIFO has lent nothing to another, or it is not more
than the FIFO's debts and what its share lacks. -/
def Fits (credits : Credits) (fifo : Nat) (back : UInt8) : Prop :=
  (∀ borrower < fifoCount, borrower ≠ fifo → credits.creditsBorrowed borrower fifo = 0) ∨
    (back.toNat : Int) ≤ credits.ledger.debts (Finset.range fifoCount) fifo +
      (credits.initFifoCredit fifo - credits.ledger.capital (Finset.range fifoCount) fifo)

instance (credits : Credits) (fifo : Nat) (back : UInt8) : Decidable (Fits credits fifo back) :=
  inferInstanceAs (Decidable (_ ∨ _))

namespace InRange

variable {credits now : Credits}

theorem fifoCredit_le (valid : InRange credits) {fifo : Nat} (inside : fifo < fifoCount) :
    credits.fifoCredit fifo ≤ credits.initFifoCredit fifo :=
  valid.lends.held_le_capital.trans (valid.high fifo inside)

theorem solvent (valid : InRange credits) : Solvent credits := by
  intro fifo below
  have inside : fifo < fifoCount := by
    unfold fifoCount
    omega
  exact ⟨(valid.low fifo inside).trans (valid.fifoCredit_le inside), valid.low fifo inside⟩

theorem own (valid : InRange credits) {ac : Nat} (funded : 1 ≤ credits.fifoCredit ac) :
    InRange (credits.add (-1) ac) := by
  refine ⟨?_, ?_, valid.lends, valid.atim⟩
  · intro fifo inside
    have before := valid.low fifo inside
    by_cases same : fifo = ac
    · simp [Credits.add, same]
      omega
    · simpa [Credits.add, same] using before
  · intro fifo inside
    have before := valid.high fifo inside
    rw [Credits.ledger_add, Ledger.capital_deposit, Credits.init_add]
    split <;> omega

theorem loan (valid : InRange credits) {ac lender : Nat} (below : ac ≤ acCount)
    (lends : lender ≤ acCount) (spare : 1 ≤ credits.fifoCredit lender) :
    InRange (credits.move 1 ac lender) := by
  have borrower : ac ∈ Finset.range fifoCount := Finset.mem_range.mpr (by unfold fifoCount; omega)
  refine ⟨?_, ?_, ?_, ?_⟩
  · intro fifo inside
    have before := valid.low fifo inside
    by_cases same : fifo = lender
    · simp [Credits.move, same]
      omega
    · simpa [Credits.move, same] using before
  · intro fifo inside
    rw [Credits.ledger_move, Ledger.capital_lend borrower, Credits.init_move]
    exact valid.high fifo inside
  · rw [Credits.ledger_move]
    apply valid.lends.lend
    have least := valid.lends ac lender
    omega
  · intro other
    rw [← Credits.lent_ledger, Credits.ledger_move, Ledger.lent_lend, if_neg (by omega),
      Credits.lent_ledger, valid.atim, add_zero]

theorem spends (valid : InRange credits) {Careful : Prop} {charged : List Nat} (careful : Careful)
    (spends : Spends Careful credits now charged) : InRange now := by
  induction spends with
  | start => exact valid
  | own _ _ funded ih => exact ih.own (funded careful)
  | @loan now charged ac lender bBorrowAll _ below lends spare ih =>
    have positive := borrowLimit_nonneg bBorrowAll (ih.solvent lender lends).1
    exact ih.loan below lends (by omega)

theorem clamp_add (credits : Credits) {rest : Int} {fifo : Nat} (positive : 0 ≤ rest)
    (high : credits.fifoCredit fifo ≤ credits.initFifoCredit fifo) :
    ∃ kept, clampFifoCredit (credits.add rest fifo) fifo = credits.add kept fifo ∧ 0 ≤ kept ∧
      kept ≤ rest ∧ credits.fifoCredit fifo + kept ≤ credits.initFifoCredit fifo := by
  have sum : (credits.add rest fifo).fifoCredit fifo = credits.fifoCredit fifo + rest := by
    simp [Credits.add]
  unfold clampFifoCredit
  split
  · rename_i cut
    rw [sum, Credits.init_add] at cut
    refine ⟨credits.initFifoCredit fifo - credits.fifoCredit fifo, ?_, by omega, by omega, by omega⟩
    simp [Credits.add]
  · rename_i whole
    rw [sum, Credits.init_add] at whole
    exact ⟨rest, rfl, positive, le_rfl, not_lt.mp whole⟩

theorem lendings_eq_zero {fifo : Nat} (lends : credits.ledger.Lends) (inside : fifo < fifoCount)
    (debtless : credits.ledger.debts (Finset.range fifoCount) fifo = 0)
    (alone : ∀ borrower < fifoCount, borrower ≠ fifo → credits.creditsBorrowed borrower fifo = 0) :
    credits.ledger.lendings (Finset.range fifoCount) fifo = 0 := by
  apply Finset.sum_eq_zero
  intro borrower member
  by_cases own : borrower = fifo
  · rw [own]
    exact lends.lent_eq_zero debtless (Finset.mem_range.mpr inside)
  · exact alone borrower (Finset.mem_range.mp member) own

/-- A credit-back that fits. -/
theorem creditback (valid : InRange credits) {fifo : Nat} {back : UInt8} (inside : fifo < fifoCount)
    (fits : Fits credits fifo back) : InRange (creditbackFifo credits fifo back) := by
  obtain ⟨middle, amount, rest, gives, -, positive, split, same, atim, debtless⟩ :=
    distributeCreditback_spec back valid.lends valid.atim inside
  have returned : InRange middle := by
    refine ⟨fun other member => (valid.low other member).trans (gives.grows other), ?_, gives.lends,
      atim⟩
    intro other member
    rw [gives.capital, gives.init]
    exact valid.high other member
  obtain ⟨kept, clamped, least, most, high⟩ :=
    clamp_add middle positive (returned.fifoCredit_le inside)
  rw [creditbackFifo, same, clamped]
  refine ⟨?_, ?_, gives.lends, atim⟩
  · intro other member
    have before := returned.low other member
    by_cases here : other = fifo
    · simp [Credits.add, here] at before ⊢
      omega
    · simpa [Credits.add, here] using before
  · intro other member
    rw [Credits.ledger_add, Ledger.capital_deposit, Credits.init_add]
    have before := returned.high other member
    split
    · rename_i here
      subst here
      by_cases more : 0 < rest
      · have free := debtless more
        rcases fits with alone | small
        · have none := lendings_eq_zero gives.lends inside free fun borrower below apart => by
            rw [gives.rows borrower other (Or.inl apart), alone borrower below apart]
          rw [Ledger.capital, none]
          simpa using high
        · rw [gives.debts, if_pos rfl] at free
          rw [gives.capital, gives.init]
          omega
      · omega
    · simpa using before

theorem indicate (valid : InRange credits) {back : Nat → UInt8} {count : Nat}
    (bound : count ≤ fifoCount) (fits : ∀ fifo < count, Fits ((List.range fifo).foldl
      (fun credits fifo => creditbackFifo credits fifo (back fifo)) credits) fifo (back fifo)) :
    InRange ((List.range count).foldl
      (fun credits fifo => creditbackFifo credits fifo (back fifo)) credits) := by
  induction count with
  | zero => exact valid
  | succ count ih =>
    have before := ih (by omega) fun fifo below => fits fifo (by omega)
    rw [List.range_succ, List.foldl_append]
    exact before.creditback (by omega) (fits count (Nat.lt_succ_self count))

end InRange

theorem InRange.creditmap (map : Nat → UInt8) :
    InRange (dhdWlfcFIFOcreditmapUpdate zeroCredits map) := by
  have nothing : ∀ fifo, zeroCredits.ledger.lendings (Finset.range fifoCount) fifo = 0 := fun _ =>
    Finset.sum_eq_zero fun _ _ => rfl
  have same : ∀ fifo, (dhdWlfcFIFOcreditmapUpdate zeroCredits map).fifoCredit fifo =
      (dhdWlfcFIFOcreditmapUpdate zeroCredits map).initFifoCredit fifo := by
    intro fifo
    simp [dhdWlfcFIFOcreditmapUpdate, zeroCredits]
  refine ⟨?_, ?_, fun _ _ => le_rfl, fun _ => rfl⟩
  · intro fifo _
    simp only [dhdWlfcFIFOcreditmapUpdate, zeroCredits]
    split
    · omega
    · split <;> exact le_rfl
  · intro fifo _
    change (dhdWlfcFIFOcreditmapUpdate zeroCredits map).fifoCredit fifo +
      zeroCredits.ledger.lendings (Finset.range fifoCount) fifo ≤ _
    rw [nothing, same, add_zero]

/-- Flow control, and whether the assertion of the pass has held so far. -/
structure RangeState where
  ctx : Ctx
  asserted : Bool

/-- `others` is whatever else the driver does in between, which leaves the credits alone. -/
inductive RangeCall
  | transfer (input : PassInput)
  | creditback (back : Nat → UInt8)
  | requestCredit (credit macHandle acBitmap : UInt8)
  | requestPacket (packetCount macHandle acBitmap : UInt8)
  | macOpen (macHandle : UInt8)
  | macClose (macHandle : UInt8)
  | others (next : Ctx)

def RangeState.setCtx (state : RangeState) (ctx : Ctx) : RangeState := { state with ctx := ctx }

/-- The dongle may send anything. -/
def rangeMachine : Machine RangeState RangeCall Unit where
  step state
    | .transfer input =>
      let pass := dhdWlfcTransferPackets state.ctx input
      (⟨pass.ctx, state.asserted && pass.asserted⟩, ())
    | .creditback back =>
      (state.setCtx (state.ctx.setCredits
        (dhdWlfcFifocreditbackIndicate state.ctx.proptxstatusMode state.ctx.credits back)), ())
    | .requestCredit credit macHandle acBitmap =>
      (state.setCtx (dhdWlfcCreditRequest state.ctx credit macHandle acBitmap), ())
    | .requestPacket packetCount macHandle acBitmap =>
      (state.setCtx (dhdWlfcPacketRequest state.ctx packetCount macHandle acBitmap), ())
    | .macOpen macHandle => (state.setCtx (dhdWlfcPsmodeUpdate state.ctx macHandle true), ())
    | .macClose macHandle => (state.setCtx (dhdWlfcPsmodeUpdate state.ctx macHandle false), ())
    | .others next => (state.setCtx { next with credits := state.ctx.credits }, ())
  admits _ _ := True

instance (state : RangeState) (call : RangeCall) : Decidable (rangeMachine.admits state call) :=
  .isTrue trivial

/-- No pass finds an open request without enough credits, and every credit-back fits when
its turn comes. -/
def Orderly (state : RangeState) : RangeCall → Prop
  | .transfer _ => Careful state.ctx
  | .creditback back => state.ctx.proptxstatusMode = .explicitCredit →
      ∀ fifo < fifoCount, Fits ((List.range fifo).foldl
        (fun credits fifo => creditbackFifo credits fifo (back fifo)) state.ctx.credits) fifo (back fifo)
  | _ => True

instance (state : RangeState) (call : RangeCall) : Decidable (Orderly state call) :=
  match call with
  | .transfer _ => inferInstanceAs (Decidable (Careful _))
  | .creditback _ => inferInstanceAs (Decidable (_ → ∀ fifo < fifoCount, _))
  | .requestCredit _ _ _ => .isTrue trivial
  | .requestPacket _ _ _ => .isTrue trivial
  | .macOpen _ => .isTrue trivial
  | .macClose _ => .isTrue trivial
  | .others _ => .isTrue trivial

theorem noteRequest_credits (ctx : Ctx) (macHandle acBitmap : UInt8)
    (set : MacDescriptor → MacDescriptor) :
    (noteRequest ctx macHandle acBitmap set).credits = ctx.credits := by
  unfold noteRequest
  dsimp only
  split <;> rfl

theorem dhdWlfcPsmodeUpdate_credits (ctx : Ctx) (macHandle : UInt8) (opens : Bool) :
    (dhdWlfcPsmodeUpdate ctx macHandle opens).credits = ctx.credits := by
  unfold dhdWlfcPsmodeUpdate
  dsimp only
  split
  · cases opens with
    | true => rfl
    | false =>
      have checks : ∀ (precs : List Nat) (ctx : Ctx), (precs.foldl
          (fun ctx prec => checkTraffic ctx (lookupIndex macHandle) prec) ctx).credits = ctx.credits := by
        intro precs
        induction precs with
        | nil => exact fun _ => rfl
        | cons prec rest ih => exact fun ctx => ih (checkTraffic ctx (lookupIndex macHandle) prec)
      exact checks _ _
  · rfl

structure RangeInvariant (state : RangeState) : Prop where
  credits : InRange state.ctx.credits
  asserted : state.asserted = true

theorem RangeInvariant.preserved : (rangeMachine.restrict Orderly).Preserves RangeInvariant := by
  intro state call valid admitted
  cases call with
  | transfer input =>
    have goes := dhdWlfcTransferPackets_goes state.ctx input
    have careful : Careful state.ctx := admitted.2
    refine ⟨valid.credits.spends careful goes.spends, ?_⟩
    change (state.asserted && (dhdWlfcTransferPackets state.ctx input).asserted) = true
    rw [valid.asserted, goes.asserted careful valid.credits.solvent]
    rfl
  | creditback back =>
    refine ⟨?_, valid.asserted⟩
    change InRange (dhdWlfcFifocreditbackIndicate state.ctx.proptxstatusMode state.ctx.credits back)
    unfold dhdWlfcFifocreditbackIndicate
    split
    · rename_i explicit
      exact valid.credits.indicate le_rfl (admitted.2 explicit)
    · exact valid.credits
  | requestCredit credit macHandle acBitmap =>
    refine ⟨?_, valid.asserted⟩
    change InRange (noteRequest _ _ _ _).credits
    rw [noteRequest_credits]
    exact valid.credits
  | requestPacket packetCount macHandle acBitmap =>
    refine ⟨?_, valid.asserted⟩
    change InRange (noteRequest _ _ _ _).credits
    rw [noteRequest_credits]
    exact valid.credits
  | macOpen macHandle =>
    refine ⟨?_, valid.asserted⟩
    change InRange (dhdWlfcPsmodeUpdate _ _ _).credits
    rw [dhdWlfcPsmodeUpdate_credits]
    exact valid.credits
  | macClose macHandle =>
    refine ⟨?_, valid.asserted⟩
    change InRange (dhdWlfcPsmodeUpdate _ _ _).credits
    rw [dhdWlfcPsmodeUpdate_credits]
    exact valid.credits
  | others next => exact ⟨valid.credits, valid.asserted⟩

/-- In an orderly run from credits in range they stay in range, and the assertion never fails. -/
theorem credits_in_range {start : RangeState} {calls : List RangeCall}
    (fresh : InRange start.ctx.credits) (asserted : start.asserted = true)
    (orderly : (rangeMachine.restrict Orderly).Admitted start calls) :
    (∀ fifo < fifoCount, 0 ≤ (rangeMachine.run start calls).ctx.credits.fifoCredit fifo ∧
      (rangeMachine.run start calls).ctx.credits.fifoCredit fifo ≤
        (rangeMachine.run start calls).ctx.credits.initFifoCredit fifo) ∧
    (rangeMachine.run start calls).asserted = true := by
  have valid := (rangeMachine.restrict Orderly).run_invariant RangeInvariant.preserved
    ⟨fresh, asserted⟩ orderly
  rw [Machine.restrict_run] at valid
  exact ⟨fun fifo inside => ⟨valid.credits.low fifo inside, valid.credits.fifoCredit_le inside⟩,
    valid.asserted⟩

/-- An access point with one station, after a credit map. -/
def stationCtx (map : Nat → UInt8) : Ctx :=
  let enabled := dhdWlfcEnable ⟨false, false, false⟩ fun _ => freshPkt 0 0 [] []
  let interface := dhdWlfcInterfaceEntryUpdate enabled .add 0 1 none
  let station := dhdWlfcMacTableUpdate interface 0 0 [2, 0, 0, 0, 0, 1] true
  station.setCredits (dhdWlfcFIFOcreditmapUpdate station.credits map)

def stationPkt (fifo : Nat) : Pkt := freshPkt 0 fifo [2, 0, 0, 0, 0, 1] [7]

def quietPass : PassInput := ⟨fun _ => ⟨bcmeOk, false⟩, fun _ => 1000, 0⟩

/-- A packet goes out on a loan, and its credit comes back together with one that nobody
was waiting for. -/
def orderlyCalls : List RangeCall :=
  [.others (dhdWlfcCommitPackets (stationCtx fun _ => 0) 7 (stationPkt 1)),
    .requestCredit 3 0 0xff, .macClose 0, .macOpen 0, .transfer quietPass,
    .creditback fun fifo => if fifo = 1 then 2 else 0]

theorem credits_in_range_orderlyCalls :
    (rangeMachine.restrict Orderly).Admitted
      ⟨stationCtx fun fifo => if fifo = 0 then 8 else 0, true⟩ orderlyCalls ∧
    (rangeMachine.run ⟨stationCtx fun fifo => if fifo = 0 then 8 else 0, true⟩
      orderlyCalls).asserted = true := by
  have orderly : (rangeMachine.restrict Orderly).Admitted
      ⟨stationCtx fun fifo => if fifo = 0 then 8 else 0, true⟩ orderlyCalls := by
    decide +kernel
  exact ⟨orderly, (credits_in_range (InRange.creditmap _) rfl orderly).2⟩

/-- A station that is open asks for a packet, and the second of two packets is charged to
a FIFO without credit. A FIFO that has lent a credit gets one too many, and then its loan back. -/
theorem credits_out_of_range :
    let two := dhdWlfcCommitPackets (dhdWlfcCommitPackets
      (stationCtx fun fifo => if fifo = 0 then 1 else 0) 7 (stationPkt 0)) 8 (stationPkt 0)
    let overdrawn := rangeMachine.run ⟨two, true⟩ [.requestPacket 1 0 0xff, .transfer quietPass]
    let one := dhdWlfcCommitPackets (stationCtx fun fifo => if fifo = 0 then 8 else 0) 7 (stationPkt 1)
    let overfull := rangeMachine.run ⟨one, true⟩ [.transfer quietPass,
      .creditback fun fifo => if fifo = 0 then 1 else 0,
      .creditback fun fifo => if fifo = 1 then 1 else 0]
    overdrawn.ctx.credits.fifoCredit 0 = -1 ∧ overdrawn.asserted = false ∧
      overfull.ctx.credits.fifoCredit 0 = 9 ∧ overfull.ctx.credits.initFifoCredit 0 = 8 := by
  decide +kernel

end BcmDhd.Wlfc
