import BcmDhd.Lib.Ledger

/-! Credits of the transmit FIFOs: one FIFO for each access category, one for broadcast and
multicast, one for ATIM. -/

namespace BcmDhd.Wlfc

open BcmDhd.Lib Function

def acCount : Nat := 4

/-- `AC_COUNT + 2`, the length of the credit arrays and of a credit-back. -/
def fifoCount : Nat := acCount + 2

def wlfcBorrowLimitRatio : Int := 4

inductive FcMode
  | none
  | impliedCredit
  | explicitCredit
  | onlyAmpduHostreorder
  deriving DecidableEq

/-- `creditsBorrowed` is indexed by borrower, then by lender. -/
structure Credits where
  initFifoCredit : Nat → Int
  fifoCredit : Nat → Int
  creditsBorrowed : Nat → Nat → Int

namespace Credits

/-- The FIFOs as pools that lend to each other. -/
def ledger (credits : Credits) : Ledger Nat := ⟨credits.fifoCredit, credits.creditsBorrowed⟩

/-- `amount` credits pass from the lender to the borrower, or back. -/
def move (credits : Credits) (amount : Int) (borrower lender : Nat) : Credits :=
  { credits with
    fifoCredit :=
      update credits.fifoCredit lender (credits.fifoCredit lender - amount)
    creditsBorrowed := update credits.creditsBorrowed borrower
      (update (credits.creditsBorrowed borrower) lender
        (credits.creditsBorrowed borrower lender + amount)) }

/-- `amount` credits of its own for a FIFO. -/
def add (credits : Credits) (amount : Int) (fifo : Nat) : Credits :=
  { credits with
    fifoCredit := update credits.fifoCredit fifo (credits.fifoCredit fifo + amount) }

@[simp] theorem ledger_move (credits : Credits) (amount : Int) (borrower lender : Nat) :
    (credits.move amount borrower lender).ledger = credits.ledger.lend amount borrower lender := rfl

@[simp] theorem ledger_add (credits : Credits) (amount : Int) (fifo : Nat) :
    (credits.add amount fifo).ledger = credits.ledger.deposit amount fifo := rfl

@[simp] theorem init_move (credits : Credits) (amount : Int) (borrower lender : Nat) :
    (credits.move amount borrower lender).initFifoCredit = credits.initFifoCredit := rfl

@[simp] theorem init_add (credits : Credits) (amount : Int) (fifo : Nat) :
    (credits.add amount fifo).initFifoCredit = credits.initFifoCredit := rfl

@[simp] theorem held_ledger (credits : Credits) : credits.ledger.held = credits.fifoCredit := rfl

@[simp] theorem lent_ledger (credits : Credits) : credits.ledger.lent = credits.creditsBorrowed := rfl

end Credits

/-- Nothing is kept back for the lender when all may be borrowed. -/
def borrowLimit (credits : Credits) (bBorrowAll : Bool) (lenderAc : Nat) : Int :=
  if bBorrowAll then 0 else (credits.initFifoCredit lenderAc).tdiv wlfcBorrowLimitRatio

/-- The lenders are FIFO 0 up to `highestLenderAc`, which is -1 for the lowest
borrower. -/
def dhdWlfcBorrowCredit (credits : Credits) (highestLenderAc : Int) (borrowerAc : Nat)
    (bBorrowAll : Bool) : Credits × Option Nat :=
  let lender := (List.range (highestLenderAc + 1).toNat).find? fun lenderAc =>
    credits.fifoCredit lenderAc > borrowLimit credits bBorrowAll lenderAc
  match lender with
  | none => (credits, none)
  | some lenderAc => (credits.move 1 borrowerAc lenderAc, some lenderAc)

def dhdWlfcReturnCredit (credits : Credits) (lenderAc borrowerAc : Nat) : Credits :=
  if lenderAc > acCount ∨ borrowerAc > acCount then credits
  else credits.move (-1) borrowerAc lenderAc

/-- The loop over the lenders, with the credits that are left to distribute. -/
def creditsToLenders (fifo : Nat) : List Nat → Credits → UInt8 → Credits × UInt8
  | [], credits, left => (credits, left)
  | lender :: rest, credits, left =>
    if left > 0 then
      let borrowed := credits.creditsBorrowed fifo lender
      if borrowed > 0 then
        if (left.toNat : Int) ≥ borrowed then
          creditsToLenders fifo rest (credits.move (-borrowed) fifo lender)
            (left - UInt8.ofInt borrowed)
        else creditsToLenders fifo rest (credits.move (-left.toNat) fifo lender) 0
      else creditsToLenders fifo rest credits left
    else (credits, left)

/-- The highest lender is served first, and what is left is the FIFO's own. -/
def distributeCreditback (credits : Credits) (fifo : Nat) (back : UInt8) : Credits :=
  let returned := creditsToLenders fifo (List.range (acCount + 1)).reverse credits back
  if returned.2 > 0 then returned.1.add returned.2.toNat fifo else returned.1

def clampFifoCredit (credits : Credits) (fifo : Nat) : Credits :=
  if credits.fifoCredit fifo > credits.initFifoCredit fifo then
    { credits with
      fifoCredit := update credits.fifoCredit fifo (credits.initFifoCredit fifo) }
  else credits

def creditbackFifo (credits : Credits) (fifo : Nat) (back : UInt8) : Credits :=
  clampFifoCredit (distributeCreditback credits fifo back) fifo

def dhdWlfcFifocreditbackIndicate (mode : FcMode) (credits : Credits) (back : Nat → UInt8) :
    Credits :=
  if mode = .explicitCredit then
    (List.range fifoCount).foldl (fun credits fifo => creditbackFifo credits fifo (back fifo)) credits
  else credits

/-- The ATIM FIFO has no credits. -/
def dhdWlfcFIFOcreditmapUpdate (credits : Credits) (map : Nat → UInt8) : Credits :=
  { credits with
    fifoCredit := fun fifo =>
      if fifo ≤ acCount then
        credits.fifoCredit fifo + ((map fifo).toNat - credits.initFifoCredit fifo)
      else if fifo = acCount + 1 then 0 else credits.fifoCredit fifo
    initFifoCredit := fun fifo =>
      if fifo ≤ acCount then (map fifo).toNat
      else if fifo = acCount + 1 then 0 else credits.initFifoCredit fifo }

/-- What giving credits of a borrower back to lenders does. -/
structure GivesBack (before after : Credits) (fifo : Nat) (lenders : List Nat) (amount : Int) :
    Prop where
  init : after.initFifoCredit = before.initFifoCredit
  capital : ∀ pool, after.ledger.capital (Finset.range fifoCount) pool =
    before.ledger.capital (Finset.range fifoCount) pool
  debts : ∀ pool, after.ledger.debts (Finset.range fifoCount) pool =
    before.ledger.debts (Finset.range fifoCount) pool - if pool = fifo then amount else 0
  lends : after.ledger.Lends
  rows : ∀ borrower lender, borrower ≠ fifo ∨ lender ∉ lenders →
    after.creditsBorrowed borrower lender = before.creditsBorrowed borrower lender
  shrinks : ∀ borrower lender,
    after.creditsBorrowed borrower lender ≤ before.creditsBorrowed borrower lender
  grows : ∀ pool, before.fifoCredit pool ≤ after.fifoCredit pool

namespace GivesBack

variable {before middle after : Credits} {fifo lender : Nat} {rest lenders : List Nat}
  {amount more : Int}

theorem nothing (lends : before.ledger.Lends) : GivesBack before before fifo lenders 0 :=
  ⟨rfl, fun _ => rfl, fun _ => by simp, lends, fun _ _ _ => rfl, fun _ _ => le_rfl,
    fun _ => le_rfl⟩

/-- One lender gets an amount that the borrower has from it. -/
theorem one (lends : before.ledger.Lends) (inside : fifo < fifoCount) (lender_lt : lender < fifoCount)
    (positive : 0 ≤ amount) (covered : amount ≤ before.creditsBorrowed fifo lender) :
    GivesBack before (before.move (-amount) fifo lender) fifo [lender] amount := by
  refine ⟨rfl, ?_, ?_, ?_, ?_, ?_, ?_⟩
  · intro pool
    rw [Credits.ledger_move, Ledger.capital_lend (Finset.mem_range.mpr inside)]
  · intro pool
    rw [Credits.ledger_move, Ledger.debts_lend (Finset.mem_range.mpr lender_lt)]
    split <;> ring
  · rw [Credits.ledger_move]
    apply lends.lend
    rw [Credits.lent_ledger]
    omega
  · intro borrower other apart
    rw [← Credits.lent_ledger, Credits.ledger_move, Ledger.lent_lend, if_neg, add_zero]
    · rfl
    · rintro ⟨rfl, rfl⟩
      simp at apart
  · intro borrower other
    rw [← Credits.lent_ledger, Credits.ledger_move, Ledger.lent_lend, Credits.lent_ledger]
    split <;> omega
  · intro pool
    rw [← Credits.held_ledger (before.move _ _ _), Credits.ledger_move, Ledger.held_lend,
      Credits.held_ledger]
    split <;> omega

theorem trans (first : GivesBack before middle fifo [lender] amount)
    (then_ : GivesBack middle after fifo rest more) :
    GivesBack before after fifo (lender :: rest) (amount + more) := by
  refine ⟨then_.init.trans first.init, ?_, ?_, then_.lends, ?_, ?_, ?_⟩
  · intro pool
    rw [then_.capital, first.capital]
  · intro pool
    rw [then_.debts, first.debts]
    split <;> ring
  · intro borrower other apart
    rw [List.mem_cons, not_or] at apart
    rw [then_.rows borrower other (apart.imp id And.right),
      first.rows borrower other (apart.imp id fun outside => by simpa using outside.1)]
  · intro borrower other
    exact (then_.shrinks borrower other).trans (first.shrinks borrower other)
  · intro pool
    exact (first.grows pool).trans (then_.grows pool)

end GivesBack

/-- The loop gives back what it can, and what is left finds no more debts. -/
theorem creditsToLenders_spec {fifo : Nat} {lenders : List Nat} {credits : Credits} (back : UInt8)
    (lends : credits.ledger.Lends) (inside : fifo < fifoCount)
    (below : ∀ lender ∈ lenders, lender < fifoCount) (nodup : lenders.Nodup) :
    ∃ amount : Int, 0 ≤ amount ∧
      GivesBack credits (creditsToLenders fifo lenders credits back).1 fifo lenders amount ∧
      ((creditsToLenders fifo lenders credits back).2.toNat : Int) = back.toNat - amount ∧
      (0 < (creditsToLenders fifo lenders credits back).2 → ∀ lender ∈ lenders,
        (creditsToLenders fifo lenders credits back).1.creditsBorrowed fifo lender = 0) := by
  induction lenders generalizing credits back with
  | nil => exact ⟨0, le_rfl, .nothing lends, by simp [creditsToLenders], by simp⟩
  | cons lender rest ih =>
    obtain ⟨outside, others⟩ := List.nodup_cons.mp nodup
    have lender_lt := below lender List.mem_cons_self
    have rest_lt : ∀ other ∈ rest, other < fifoCount := fun other member =>
      below other (List.mem_cons_of_mem lender member)
    unfold creditsToLenders
    split
    · rename_i some_
      dsimp only
      split
      · rename_i borrowed
        split
        · rename_i enough
          -- the lender gets all it lent
          have first := GivesBack.one lends inside lender_lt borrowed.le le_rfl
          obtain ⟨amount, positive, gives, left, emptied⟩ := ih
            (back - UInt8.ofInt (credits.creditsBorrowed fifo lender)) first.lends rest_lt others
          refine ⟨_, add_nonneg borrowed.le positive, first.trans gives, ?_, ?_⟩
          · rw [left]
            have small : (UInt8.ofInt (credits.creditsBorrowed fifo lender)).toNat =
                (credits.creditsBorrowed fifo lender).toNat := by
              have bound := back.toNat_lt
              have fits : (credits.creditsBorrowed fifo lender % 2 ^ 8).toNat < 2 ^ 8 := by omega
              rw [UInt8.ofInt, UInt8.toNat_ofNat_of_lt' fits]
              omega
            rw [UInt8.toNat_sub_of_le _ _ (by rw [UInt8.le_iff_toNat_le, small]; omega), small]
            omega
          · intro more other member
            rcases List.mem_cons.mp member with rfl | later
            · rw [gives.rows fifo other (Or.inr outside), ← Credits.lent_ledger,
                Credits.ledger_move, Ledger.lent_lend, if_pos ⟨rfl, rfl⟩, Credits.lent_ledger]
              omega
            · exact emptied more other later
        · rename_i short
          -- the lender gets what there is, and the loop goes on with nothing
          have first := GivesBack.one lends inside lender_lt (Int.natCast_nonneg back.toNat)
            (by omega)
          obtain ⟨amount, positive, gives, left, emptied⟩ := ih 0 first.lends rest_lt others
          refine ⟨_, add_nonneg (Int.natCast_nonneg _) positive, first.trans gives, ?_, ?_⟩
          · rw [left]
            have none : ((0 : UInt8).toNat : Int) = 0 := rfl
            omega
          · intro more
            have positiveLeft := UInt8.lt_iff_toNat_lt.mp more
            have none : ((0 : UInt8).toNat : Int) = 0 := rfl
            omega
      · rename_i nothing
        obtain ⟨amount, positive, gives, left, emptied⟩ := ih back lends rest_lt others
        have zero : credits.creditsBorrowed fifo lender = 0 :=
          le_antisymm (not_lt.mp nothing) (lends fifo lender)
        have first : GivesBack credits credits fifo [lender] 0 := .nothing lends
        refine ⟨amount, positive, zero_add amount ▸ first.trans gives, left, ?_⟩
        intro more other member
        rcases List.mem_cons.mp member with rfl | later
        · rw [gives.rows fifo other (Or.inr outside), zero]
        · exact emptied more other later
    · rename_i none
      have zero : back.toNat = 0 := by
        have low := UInt8.lt_iff_toNat_lt.not.mp none
        simpa using low
      refine ⟨0, le_rfl, .nothing lends, by simp, ?_⟩
      intro more
      exact absurd more none

theorem Credits.add_zero (credits : Credits) (fifo : Nat) : credits.add 0 fifo = credits := by
  simp [Credits.add]

/-- A credit-back goes to the lenders first, and the FIFO gets the rest once it has no
more debts. -/
theorem distributeCreditback_spec {credits : Credits} {fifo : Nat} (back : UInt8)
    (lends : credits.ledger.Lends) (atim : ∀ borrower, credits.creditsBorrowed borrower (acCount + 1) = 0)
    (inside : fifo < fifoCount) : ∃ (middle : Credits) (amount rest : Int),
      GivesBack credits middle fifo (List.range (acCount + 1)).reverse amount ∧
      0 ≤ amount ∧ 0 ≤ rest ∧ amount + rest = back.toNat ∧
      distributeCreditback credits fifo back = middle.add rest fifo ∧
      (∀ borrower, middle.creditsBorrowed borrower (acCount + 1) = 0) ∧
      (0 < rest → middle.ledger.debts (Finset.range fifoCount) fifo = 0) := by
  have below : ∀ lender ∈ (List.range (acCount + 1)).reverse, lender < fifoCount := by
    intro lender member
    rw [List.mem_reverse, List.mem_range] at member
    unfold fifoCount
    omega
  obtain ⟨amount, positive, gives, left, emptied⟩ := creditsToLenders_spec back lends inside below
    (List.nodup_reverse.mpr List.nodup_range)
  have atimAfter : ∀ borrower, (creditsToLenders fifo (List.range (acCount + 1)).reverse credits
      back).1.creditsBorrowed borrower (acCount + 1) = 0 := by
    intro borrower
    rw [gives.rows borrower (acCount + 1) (Or.inr (by simp)), atim]
  refine ⟨_, amount, (creditsToLenders fifo (List.range (acCount + 1)).reverse credits back).2.toNat,
    gives, positive, Int.natCast_nonneg _, by omega, ?_, atimAfter, ?_⟩
  · unfold distributeCreditback
    dsimp only
    split
    · rfl
    · rename_i nothing
      have zero : (creditsToLenders fifo (List.range (acCount + 1)).reverse credits back).2.toNat = 0 := by
        have low := UInt8.lt_iff_toNat_lt.not.mp nothing
        simpa using low
      rw [zero]
      exact (Credits.add_zero _ fifo).symm
  · intro rest
    apply Finset.sum_eq_zero
    intro lender member
    rw [Finset.mem_range, fifoCount] at member
    rw [Credits.lent_ledger]
    by_cases last : lender = acCount + 1
    · rw [last, atimAfter]
    · refine emptied (UInt8.lt_iff_toNat_lt.mpr ?_) lender ?_
      · simpa using rest
      · rw [List.mem_reverse, List.mem_range]
        omega

end BcmDhd.Wlfc
