import BcmDhd.Lib.Machine
import BcmDhd.Wlfc.Destinations
import BcmDhd.Wlfc.PassCredits

namespace BcmDhd.Wlfc

open BcmDhd.Lib Function

/-- The books of the FIFOs, given the outstanding packets that were charged. Nothing
is borrowed from the ATIM FIFO, and every loan is with an outstanding packet. -/
structure Balanced (credits : Credits) (outstanding : Nat → Int) : Prop where
  total : ∀ fifo < fifoCount, credits.ledger.capital (Finset.range fifoCount) fifo +
    (outstanding fifo - credits.ledger.debts (Finset.range fifoCount) fifo) =
      credits.initFifoCredit fifo
  lends : credits.ledger.Lends
  atim : ∀ borrower, credits.creditsBorrowed borrower (acCount + 1) = 0
  covered : ∀ fifo < fifoCount,
    credits.ledger.debts (Finset.range fifoCount) fifo ≤ outstanding fifo
  idle : outstanding (acCount + 1) = 0

namespace Balanced

variable {credits now : Credits} {outstanding : Nat → Int}

/-- One more packet of a FIFO is outstanding. -/
def charge (outstanding : Nat → Int) (ac : Nat) : Nat → Int :=
  update outstanding ac (outstanding ac + 1)

theorem charge_apply (outstanding : Nat → Int) (ac fifo : Nat) :
    charge outstanding ac fifo = outstanding fifo + if fifo = ac then 1 else 0 := by
  by_cases same : fifo = ac
  · subst same
    simp [charge]
  · simp [charge, same]

theorem own (balanced : Balanced credits outstanding) {ac : Nat} (below : ac ≤ acCount) :
    Balanced (credits.add (-1) ac) (charge outstanding ac) := by
  refine ⟨?_, balanced.lends, balanced.atim, ?_, ?_⟩
  · intro fifo inside
    rw [Credits.ledger_add, Ledger.capital_deposit, Ledger.debts_deposit, charge_apply,
      Credits.init_add, ← balanced.total fifo inside]
    split <;> ring
  · intro fifo inside
    rw [Credits.ledger_add, Ledger.debts_deposit, charge_apply]
    have covered := balanced.covered fifo inside
    split <;> omega
  · rw [charge_apply, balanced.idle, if_neg (by omega), add_zero]

theorem loan (balanced : Balanced credits outstanding) {ac lender : Nat} (below : ac ≤ acCount)
    (lends : lender ≤ acCount) : Balanced (credits.move 1 ac lender) (charge outstanding ac) := by
  have borrower : ac ∈ Finset.range fifoCount := Finset.mem_range.mpr (by unfold fifoCount; omega)
  have member : lender ∈ Finset.range fifoCount := Finset.mem_range.mpr (by unfold fifoCount; omega)
  refine ⟨?_, ?_, ?_, ?_, ?_⟩
  · intro fifo inside
    rw [Credits.ledger_move, Ledger.capital_lend borrower, Ledger.debts_lend member, charge_apply,
      Credits.init_move, ← balanced.total fifo inside]
    split <;> ring
  · rw [Credits.ledger_move]
    apply balanced.lends.lend
    have least := balanced.lends ac lender
    omega
  · intro other
    rw [← Credits.lent_ledger, Credits.ledger_move, Ledger.lent_lend, if_neg (by omega),
      Credits.lent_ledger, balanced.atim, add_zero]
  · intro fifo inside
    rw [Credits.ledger_move, Ledger.debts_lend member, charge_apply]
    have covered := balanced.covered fifo inside
    split <;> omega
  · rw [charge_apply, balanced.idle, if_neg (by omega), add_zero]

theorem charge_count (outstanding : Nat → Int) (charged : List Nat) (ac : Nat) :
    charge (fun fifo => outstanding fifo + charged.count fifo) ac =
      fun fifo => outstanding fifo + (ac :: charged).count fifo := by
  funext fifo
  rw [charge_apply, List.count_cons]
  by_cases same : fifo = ac
  · subst same
    simp
    ring
  · simp [same, Ne.symm same]

section

variable (balanced : Balanced credits outstanding)
include balanced

theorem spends {Careful : Prop} {charged : List Nat}
    (spends : Spends Careful credits now charged) :
    Balanced now fun fifo => outstanding fifo + charged.count fifo := by
  induction spends with
  | start => simpa using balanced
  | own _ below _ ih =>
    rw [← charge_count]
    exact ih.own below
  | loan _ _ below lends _ ih =>
    rw [← charge_count]
    exact ih.loan below lends

theorem fifoCredit_le {fifo : Nat}
    (inside : fifo < fifoCount) : credits.fifoCredit fifo ≤ credits.initFifoCredit fifo := by
  have total := balanced.total fifo inside
  have covered := balanced.covered fifo inside
  have least : credits.fifoCredit fifo ≤ credits.ledger.capital (Finset.range fifoCount) fifo :=
    balanced.lends.held_le_capital
  omega

/-- Some of the outstanding packets' credits come back to a FIFO. -/
theorem distribute {fifo : Nat} {back : UInt8}
    (inside : fifo < fifoCount) (owed : (back.toNat : Int) ≤ outstanding fifo) :
    Balanced (distributeCreditback credits fifo back)
      (update outstanding fifo (outstanding fifo - back.toNat)) := by
  obtain ⟨middle, amount, rest, gives, -, positive, split, same, atim, debtless⟩ :=
    distributeCreditback_spec back balanced.lends balanced.atim inside
  rw [same]
  refine ⟨?_, gives.lends, atim, ?_, ?_⟩
  · intro other otherInside
    have total := balanced.total other otherInside
    rw [Credits.ledger_add, Ledger.capital_deposit, Ledger.debts_deposit, Credits.init_add,
      gives.init, gives.capital, gives.debts]
    by_cases same : other = fifo
    · subst same
      rw [update_self, if_pos rfl, if_pos rfl]
      omega
    · rw [update_of_ne same, if_neg same, if_neg same]
      omega
  · intro other otherInside
    have covered := balanced.covered other otherInside
    rw [Credits.ledger_add, Ledger.debts_deposit]
    by_cases same : other = fifo
    · subst same
      rw [update_self]
      by_cases more : 0 < rest
      · rw [debtless more]
        omega
      · rw [gives.debts, if_pos rfl]
        omega
    · rw [update_of_ne same, gives.debts, if_neg same]
      omega
  · by_cases same : acCount + 1 = fifo
    · subst same
      rw [update_self]
      have none := balanced.idle
      omega
    · rw [update_of_ne same, balanced.idle]

theorem creditback {fifo : Nat} {back : UInt8}
    (inside : fifo < fifoCount) (owed : (back.toNat : Int) ≤ outstanding fifo) :
    creditbackFifo credits fifo back = distributeCreditback credits fifo back := by
  have after := (balanced.distribute inside owed).fifoCredit_le inside
  rw [creditbackFifo, clampFifoCredit, if_neg (not_lt.mpr after)]

/-- Several FIFOs get credits back, one after the other. -/
theorem indicate {back : Nat → UInt8} {fifos : List Nat}
    (inside : ∀ fifo ∈ fifos, fifo < fifoCount) (nodup : fifos.Nodup)
    (owed : ∀ fifo ∈ fifos, ((back fifo).toNat : Int) ≤ outstanding fifo) :
    Balanced (fifos.foldl (fun credits fifo => creditbackFifo credits fifo (back fifo)) credits)
        (fun fifo => outstanding fifo - if fifo ∈ fifos then ((back fifo).toNat : Int) else 0) ∧
      fifos.foldl (fun credits fifo => creditbackFifo credits fifo (back fifo)) credits =
        fifos.foldl (fun credits fifo => distributeCreditback credits fifo (back fifo)) credits := by
  induction fifos generalizing credits outstanding with
  | nil => exact ⟨by simpa using balanced, rfl⟩
  | cons first rest ih =>
    obtain ⟨apart, others⟩ := List.nodup_cons.mp nodup
    have here := inside first List.mem_cons_self
    have firstOwed := owed first List.mem_cons_self
    have whole := balanced.creditback here firstOwed
    have restOwed : ∀ fifo ∈ rest, ((back fifo).toNat : Int) ≤
        update outstanding first (outstanding first - (back first).toNat) fifo := by
      intro fifo member
      rw [update_of_ne (ne_of_mem_of_not_mem member apart)]
      exact owed fifo (List.mem_cons_of_mem first member)
    obtain ⟨after, unclamped⟩ := ih (balanced.distribute here firstOwed)
      (fun fifo member => inside fifo (List.mem_cons_of_mem first member)) others restOwed
    rw [List.foldl_cons, List.foldl_cons, whole]
    refine ⟨?_, unclamped⟩
    convert after using 1
    funext fifo
    by_cases same : fifo = first
    · subst same
      simp [apart]
    · simp [same]

/-- A new credit map changes what a FIFO has at hand by as much as its share. -/
theorem creditmap (map : Nat → UInt8) :
    Balanced (dhdWlfcFIFOcreditmapUpdate credits map) outstanding := by
  refine ⟨?_, balanced.lends, balanced.atim, balanced.covered, balanced.idle⟩
  intro fifo inside
  have total := balanced.total fifo inside
  change (dhdWlfcFIFOcreditmapUpdate credits map).fifoCredit fifo +
    credits.ledger.lendings (Finset.range fifoCount) fifo +
    (outstanding fifo - credits.ledger.debts (Finset.range fifoCount) fifo) = _
  rw [Ledger.capital, Credits.held_ledger] at total
  unfold dhdWlfcFIFOcreditmapUpdate
  dsimp only
  by_cases packets : fifo ≤ acCount
  · rw [if_pos packets, if_pos packets]
    omega
  · have last : fifo = acCount + 1 := by
      unfold fifoCount at inside
      omega
    subst last
    have nothing : credits.ledger.lendings (Finset.range fifoCount) (acCount + 1) = 0 :=
      Finset.sum_eq_zero fun borrower _ => balanced.atim borrower
    have covered := balanced.covered (acCount + 1) inside
    have least : 0 ≤ credits.ledger.debts (Finset.range fifoCount) (acCount + 1) :=
      balanced.lends.debts_nonneg
    have idle := balanced.idle
    rw [if_neg packets, if_pos rfl, if_neg packets, if_pos rfl]
    omega

theorem settled {borrower lender : Nat}
    (inside : borrower < fifoCount) (member : lender < fifoCount)
    (none : outstanding borrower = 0) : credits.creditsBorrowed borrower lender = 0 := by
  have covered := balanced.covered borrower inside
  have least : 0 ≤ credits.ledger.debts (Finset.range fifoCount) borrower :=
    balanced.lends.debts_nonneg
  exact balanced.lends.lent_eq_zero (le_antisymm (covered.trans none.le) least)
    (Finset.mem_range.mpr member)

theorem whole (none : ∀ fifo < fifoCount, outstanding fifo = 0)
    {fifo : Nat} (inside : fifo < fifoCount) :
    credits.fifoCredit fifo = credits.initFifoCredit fifo := by
  have total := balanced.total fifo inside
  have lendings : credits.ledger.lendings (Finset.range fifoCount) fifo = 0 :=
    Finset.sum_eq_zero fun borrower member =>
      balanced.settled (Finset.mem_range.mp member) inside (none borrower (Finset.mem_range.mp member))
  have debts : credits.ledger.debts (Finset.range fifoCount) fifo = 0 :=
    Finset.sum_eq_zero fun lender member =>
      balanced.settled inside (Finset.mem_range.mp member) (none fifo inside)
  rw [Ledger.capital, lendings, debts, none fifo inside] at total
  simpa using total

end

end Balanced

/-- Flow control together with the credits that the dongle still has to give back:
for each FIFO the packets that were committed against a credit. -/
structure CreditState where
  ctx : Ctx
  outstanding : Nat → Nat

/-- `others` is whatever else the driver does in between, which leaves the credits alone. -/
inductive CreditCall
  | transfer (input : PassInput)
  | creditback (back : Nat → UInt8)
  | creditmap (map : Nat → UInt8)
  | others (next : Ctx)

/-- The dongle gives no credit back twice. -/
def creditMachine : Machine CreditState CreditCall Unit where
  step state
    | .transfer input =>
      let pass := dhdWlfcTransferPackets state.ctx input
      (⟨pass.ctx, fun fifo => state.outstanding fifo + pass.charged.count fifo⟩, ())
    | .creditback back =>
      (⟨state.ctx.setCredits
          (dhdWlfcFifocreditbackIndicate state.ctx.proptxstatusMode state.ctx.credits back),
        fun fifo => state.outstanding fifo - if fifo < fifoCount then (back fifo).toNat else 0⟩, ())
    | .creditmap map =>
      (⟨state.ctx.setCredits (dhdWlfcFIFOcreditmapUpdate state.ctx.credits map),
        state.outstanding⟩, ())
    | .others next =>
      (⟨{ next with credits := state.ctx.credits, proptxstatusMode := state.ctx.proptxstatusMode },
        state.outstanding⟩, ())
  admits state
    | .creditback back => ∀ fifo < fifoCount, (back fifo).toNat ≤ state.outstanding fifo
    | _ => True

instance (state : CreditState) (call : CreditCall) : Decidable (creditMachine.admits state call) :=
  match call with
  | .creditback back =>
    inferInstanceAs (Decidable (∀ fifo < fifoCount, (back fifo).toNat ≤ state.outstanding fifo))
  | .transfer _ => .isTrue trivial
  | .creditmap _ => .isTrue trivial
  | .others _ => .isTrue trivial

def creditStart (mode : WlfcMode) (pkts : Nat → Pkt) : CreditState :=
  ⟨dhdWlfcEnable mode pkts, fun _ => 0⟩

structure CreditInvariant (state : CreditState) : Prop where
  explicit : state.ctx.proptxstatusMode = .explicitCredit
  balanced : Balanced state.ctx.credits fun fifo => state.outstanding fifo

namespace CreditInvariant

theorem start (mode : WlfcMode) (pkts : Nat → Pkt) : CreditInvariant (creditStart mode pkts) := by
  have nothing : ∀ fifo, zeroCredits.ledger.debts (Finset.range fifoCount) fifo = 0 := fun _ =>
    Finset.sum_eq_zero fun _ _ => rfl
  have lendings : ∀ fifo, zeroCredits.ledger.lendings (Finset.range fifoCount) fifo = 0 := fun _ =>
    Finset.sum_eq_zero fun _ _ => rfl
  refine ⟨rfl, ?_, fun _ _ => le_rfl, fun _ => rfl, fun fifo _ => (nothing fifo).le, rfl⟩
  intro fifo _
  change zeroCredits.fifoCredit fifo + zeroCredits.ledger.lendings (Finset.range fifoCount) fifo +
    (0 - zeroCredits.ledger.debts (Finset.range fifoCount) fifo) = 0
  rw [nothing, lendings]
  rfl

theorem preserved : creditMachine.Preserves CreditInvariant := by
  intro state call valid admitted
  cases call with
  | transfer input =>
    have goes := dhdWlfcTransferPackets_goes state.ctx input
    refine ⟨goes.proptxstatusMode.trans valid.explicit, ?_⟩
    have spent := valid.balanced.spends goes.spends
    simp only [← Nat.cast_add] at spent
    exact spent
  | creditback back =>
    have owed : ∀ fifo ∈ List.range fifoCount, ((back fifo).toNat : Int) ≤ state.outstanding fifo :=
      fun fifo member => Int.ofNat_le.mpr (admitted fifo (List.mem_range.mp member))
    have after := (valid.balanced.indicate (fun _ => List.mem_range.mp) List.nodup_range owed).1
    refine ⟨valid.explicit, ?_⟩
    change Balanced (dhdWlfcFifocreditbackIndicate state.ctx.proptxstatusMode state.ctx.credits back)
      fun fifo => ((state.outstanding fifo -
        if fifo < fifoCount then (back fifo).toNat else 0 : Nat) : Int)
    rw [dhdWlfcFifocreditbackIndicate, if_pos valid.explicit]
    convert after using 1
    funext fifo
    simp only [List.mem_range]
    by_cases inside : fifo < fifoCount
    · have least := admitted fifo inside
      rw [if_pos inside, if_pos inside]
      omega
    · rw [if_neg inside, if_neg inside]
      simp
  | creditmap map => exact ⟨valid.explicit, valid.balanced.creditmap map⟩
  | others next => exact ⟨valid.explicit, valid.balanced⟩

end CreditInvariant

/-- In every run each FIFO's share is at hand, lent to others, or with its own packets
that did not go out on a loan. A FIFO with no packets outstanding has given all loans back,
without any packets outstanding every share is whole, and the clamp on a credit-back
never takes a credit away. -/
theorem credits_conserved {mode : WlfcMode} {pkts : Nat → Pkt} {calls : List CreditCall}
    {state : CreditState} (admitted : creditMachine.Admitted (creditStart mode pkts) calls)
    (reached : creditMachine.run (creditStart mode pkts) calls = state) :
    (∀ fifo < fifoCount, state.ctx.credits.fifoCredit fifo +
        ∑ borrower ∈ Finset.range fifoCount, state.ctx.credits.creditsBorrowed borrower fifo +
        (state.outstanding fifo -
          ∑ lender ∈ Finset.range fifoCount, state.ctx.credits.creditsBorrowed fifo lender) =
        state.ctx.credits.initFifoCredit fifo) ∧
    (∀ borrower < fifoCount, state.outstanding borrower = 0 →
      ∀ lender < fifoCount, state.ctx.credits.creditsBorrowed borrower lender = 0) ∧
    ((∀ fifo < fifoCount, state.outstanding fifo = 0) → ∀ fifo < fifoCount,
      state.ctx.credits.fifoCredit fifo = state.ctx.credits.initFifoCredit fifo) ∧
    (∀ back, creditMachine.admits state (.creditback back) →
      dhdWlfcFifocreditbackIndicate state.ctx.proptxstatusMode state.ctx.credits back =
        (List.range fifoCount).foldl
          (fun credits fifo => distributeCreditback credits fifo (back fifo)) state.ctx.credits) := by
  subst reached
  have valid := creditMachine.run_invariant CreditInvariant.preserved (.start mode pkts) admitted
  refine ⟨valid.balanced.total, ?_, ?_, ?_⟩
  · intro borrower inside none lender member
    exact valid.balanced.settled inside member (Int.natCast_eq_zero.mpr none)
  · intro idle fifo inside
    exact valid.balanced.whole (fun fifo below => Int.natCast_eq_zero.mpr (idle fifo below)) inside
  · intro back owed
    have whole := (valid.balanced.indicate (fun _ => List.mem_range.mp) List.nodup_range
      fun fifo member => Int.ofNat_le.mpr (owed fifo (List.mem_range.mp member))).2
    rw [dhdWlfcFifocreditbackIndicate, if_pos valid.explicit]
    exact whole

def besteffortPkt : Pkt := freshPkt 0 1 (List.replicate 6 0) [1, 2]

/-- FIFO 1 has no credits of its own, sends a packet on a loan, and gets the credit back. -/
def loanCalls : List CreditCall :=
  [.creditmap fun fifo => if fifo = 0 then 8 else 0,
    .others (dhdWlfcCommitPackets (dhdWlfcInterfaceEntryUpdate (dhdWlfcEnable ⟨false, false, false⟩
      fun _ => besteffortPkt) .add 0 0 none) 7 besteffortPkt),
    .transfer ⟨fun _ => ⟨bcmeOk, false⟩, fun _ => 1000, 0⟩,
    .creditback fun fifo => if fifo = 1 then 1 else 0]

theorem credits_conserved_loanCalls :
    (creditMachine.run (creditStart ⟨false, false, false⟩ fun _ => besteffortPkt)
      (loanCalls.take 3)).ctx.credits.creditsBorrowed 1 0 = 1 ∧
    (creditMachine.run (creditStart ⟨false, false, false⟩ fun _ => besteffortPkt)
      loanCalls).ctx.credits.fifoCredit 0 = 8 := by
  refine ⟨by decide +kernel, ?_⟩
  have admitted : creditMachine.Admitted (creditStart ⟨false, false, false⟩ fun _ => besteffortPkt)
      loanCalls := by decide +kernel
  exact ((credits_conserved admitted rfl).2.2.1 (by decide +kernel) 0 (by decide)).trans
    (by decide +kernel)

end BcmDhd.Wlfc
