import BcmDhd.Wlfc.Frame

namespace BcmDhd.Wlfc

open Function

variable {ac txMap rxMap : Nat} {ctx start : Ctx} {base credits : Credits} {lender : Option Nat}
  {info : CommitInfo} {pass : Pass} {spent : Bool}

/-- The packet was charged to its own FIFO or to a lender. `Careful` is a promise
under which nothing is charged to a FIFO without credit. -/
inductive Spends (Careful : Prop) (credits : Credits) : Credits → List Nat → Prop
  | start : Spends Careful credits credits []
  | own {now : Credits} {charged : List Nat} {ac : Nat} (past : Spends Careful credits now charged)
      (below : ac ≤ acCount) (funded : Careful → 1 ≤ now.fifoCredit ac) :
      Spends Careful credits (now.add (-1) ac) (ac :: charged)
  | loan {now : Credits} {charged : List Nat} {ac lender : Nat} (bBorrowAll : Bool)
      (past : Spends Careful credits now charged) (below : ac ≤ acCount) (lends : lender ≤ acCount)
      (spare : borrowLimit now bBorrowAll lender < now.fifoCredit lender) :
      Spends Careful credits (now.move 1 ac lender) (ac :: charged)

/-- No FIFO that packets are charged to is in the negative. -/
def Solvent (credits : Credits) : Prop :=
  ∀ fifo ≤ acCount, 0 ≤ credits.initFifoCredit fifo ∧ 0 ≤ credits.fifoCredit fifo

theorem borrowLimit_nonneg {lender : Nat} (bBorrowAll : Bool)
    (share : 0 ≤ credits.initFifoCredit lender) : 0 ≤ borrowLimit credits bBorrowAll lender := by
  unfold borrowLimit
  split
  · exact le_rfl
  · exact Int.tdiv_nonneg share (by decide)

theorem Spends.solvent {Careful : Prop} {start now : Credits} {charged : List Nat}
    (spends : Spends Careful start now charged) (careful : Careful) (solvent : Solvent start) :
    Solvent now := by
  induction spends with
  | start => exact solvent
  | @own now charged ac _ below funded ih =>
    have least := funded careful
    intro fifo inside
    refine ⟨(ih fifo inside).1, ?_⟩
    have before := (ih fifo inside).2
    by_cases same : fifo = ac
    · subst same
      simp only [Credits.add, update_self]
      omega
    · simp only [Credits.add, update_of_ne same]
      exact before
  | @loan now charged ac lender bBorrowAll _ below lends spare ih =>
    have positive := borrowLimit_nonneg bBorrowAll (ih lender lends).1
    intro fifo inside
    refine ⟨(ih fifo inside).1, ?_⟩
    have before := (ih fifo inside).2
    by_cases same : fifo = lender
    · subst same
      simp only [Credits.move, update_self]
      omega
    · simp only [Credits.move, update_of_ne same]
      exact before

/-- The packets of an access category that a pass can reach. -/
def waiting (ctx : Ctx) (ac : Nat) : Nat :=
  ∑ e ∈ (ctx.activeEntries ++ ctx.requestedEntries).toFinset,
    (((ctx.entries e).psq (psqDlyIdx ac)).length + ((ctx.entries e).psq (psqSupIdx ac)).length)

/-- The packets that may take a credit of a FIFO: its own, and those of higher access
categories, which may borrow. -/
def drawing (ctx : Ctx) (fifo : Nat) : Nat :=
  ∑ ac ∈ (Finset.range (acCount + 1)).filter (fun ac => ac = fifo ∨ fifo < ac ∧ ac < acCount),
    waiting ctx ac

/-- Some destination asked for packets while it is open, and has some that cost credits. -/
def OpenRequest (ctx : Ctx) (ac : Nat) : Prop :=
  creditSpent ctx ac = true ∧ ∃ e ∈ ctx.requestedEntries,
    (ctx.entries e).state ≠ .closed ∧ eligible ctx e ac = true ∧
      ((ctx.entries e).psq (psqSupIdx ac) ≠ [] ∨ (ctx.entries e).psq (psqDlyIdx ac) ≠ [])

instance (ctx : Ctx) (ac : Nat) : Decidable (OpenRequest ctx ac) :=
  inferInstanceAs (Decidable (_ ∧ ∃ e ∈ ctx.requestedEntries, _))

/-- Credits count, and where an open destination has a request there is one for every
packet. -/
def Covers (credits : Credits) (ctx : Ctx) : Prop :=
  ctx.creditIgnore = false ∧
    ∀ fifo ≤ acCount, OpenRequest ctx fifo → (drawing ctx fifo : Int) ≤ credits.fifoCredit fifo

/-- A pass that finds credits and requests in order. -/
def Careful (ctx : Ctx) : Prop := Covers ctx.credits ctx

instance (ctx : Ctx) : Decidable (Careful ctx) :=
  inferInstanceAs (Decidable (_ ∧ ∀ fifo ≤ acCount, _ → _))

/-- A later moment of a pass, as far as requests are concerned. -/
structure Later (before after : Ctx) : Prop where
  proptxstatusMode : after.proptxstatusMode = before.proptxstatusMode
  creditIgnore : after.creditIgnore = before.creditIgnore
  bcmcCreditSupported : after.bcmcCreditSupported = before.bcmcCreditSupported
  requestedEntries : after.requestedEntries = before.requestedEntries
  activeEntries : after.activeEntries.Perm before.activeEntries
  dstn : ∀ e, SameDstn (before.entries e) (after.entries e)
  ages : ∀ e, Ages (before.entries e) (after.entries e)

namespace Later

variable {before middle after : Ctx}

theorem refl (ctx : Ctx) : Later ctx ctx := ⟨rfl, rfl, rfl, rfl, .refl _, fun _ => .refl _, fun _ => .refl _⟩

theorem trans (first : Later before middle) (second : Later middle after) : Later before after :=
  ⟨second.proptxstatusMode.trans first.proptxstatusMode,
    second.creditIgnore.trans first.creditIgnore,
    second.bcmcCreditSupported.trans first.bcmcCreditSupported,
    second.requestedEntries.trans first.requestedEntries,
    second.activeEntries.trans first.activeEntries,
    fun e => (first.dstn e).trans (second.dstn e), fun e => (first.ages e).trans (second.ages e)⟩

theorem age (first : Later before middle) (second : Aging middle after) : Later before after :=
  first.trans ⟨second.proptxstatusMode, second.creditIgnore, second.bcmcCreditSupported,
    second.requestedEntries, second.activeEntries, second.dstn, second.ages⟩

theorem setCredits (later : Later before after) (credits : Credits) :
    Later before (after.setCredits credits) :=
  ⟨later.proptxstatusMode, later.creditIgnore, later.bcmcCreditSupported, later.requestedEntries,
    later.activeEntries, later.dstn, later.ages⟩

theorem timed (later : Later before after) (allowed : Bool) (ac : Nat) (time : UInt32) :
    Later before { after with
      allowCreditBorrow := allowed, singleAc := ac, singleAcTimestamp := time } :=
  ⟨later.proptxstatusMode, later.creditIgnore, later.bcmcCreditSupported, later.requestedEntries,
    later.activeEntries, later.dstn, later.ages⟩

end Later

theorem eligible_iff {e : Nat} (open_ : (ctx.entries e).state ≠ .closed) :
    eligible ctx e ac = true ↔ (ctx.entries e).occupied = true ∧
      ((ctx.entries e).interfaceId ≥ wlfcMaxIfnum ∨
        (ctx.entries e).acBitmap &&& UInt8.ofNat (2 ^ ac) ≠ 0) ∧
      (ctx.entries e).transitCount < freerunctrMask ∧ (ctx.entries e).suppressed = false := by
  have awake : dhdWlfcIsDestinationOpen ctx e ac = true ↔
      ((ctx.entries e).interfaceId ≥ wlfcMaxIfnum ∨
        (ctx.entries e).acBitmap &&& UInt8.ofNat (2 ^ ac) ≠ 0) := by
    unfold dhdWlfcIsDestinationOpen
    dsimp only
    by_cases beyond : (ctx.entries e).interfaceId ≥ wlfcMaxIfnum
    · simp [beyond]
    · simp [beyond, open_]
  simp only [eligible, decide_eq_true_eq, awake, Bool.not_eq_true]

theorem ne_nil_of_length_le {Item : Type*} {short long : List Item} (bound : short.length ≤ long.length)
    (some_ : short ≠ []) : long ≠ [] := by
  have positive := List.length_pos_iff.mpr some_
  exact List.length_pos_iff.mp (positive.trans_le bound)

namespace Later

variable {before after : Ctx}

theorem openRequest (later : Later before after) (requested : OpenRequest after ac) :
    OpenRequest before ac := by
  obtain ⟨costs, e, member, open_, may, packets⟩ := requested
  have same := later.dstn e
  have ages := later.ages e
  have openBefore : (before.entries e).state ≠ .closed := same.state ▸ open_
  refine ⟨?_, e, later.requestedEntries ▸ member, openBefore, ?_, ?_⟩
  · rw [creditSpent, ← later.bcmcCreditSupported]
    exact costs
  · obtain ⟨occupied, ready, transit, clear⟩ := (eligible_iff open_).mp may
    rw [same.occupied] at occupied
    rw [same.interfaceId, same.acBitmap] at ready
    refine (eligible_iff openBefore).mpr ⟨occupied, ready, ages.transitCount.trans_lt transit, ?_⟩
    by_contra held
    rw [ages.suppressed (by simpa using held)] at clear
    cases clear
  · exact packets.imp (ne_nil_of_length_le (ages.psq _)) (ne_nil_of_length_le (ages.psq _))

theorem reach (later : Later before after) :
    (after.activeEntries ++ after.requestedEntries).toFinset =
      (before.activeEntries ++ before.requestedEntries).toFinset := by
  rw [later.requestedEntries]
  exact List.toFinset_eq_of_perm _ _ (later.activeEntries.append_right _)

theorem waiting_le (later : Later before after) (ac : Nat) : waiting after ac ≤ waiting before ac := by
  unfold waiting
  rw [later.reach]
  apply Finset.sum_le_sum
  intro e _
  exact Nat.add_le_add ((later.ages e).psq _) ((later.ages e).psq _)

theorem drawing_le (later : Later before after) (fifo : Nat) :
    drawing after fifo ≤ drawing before fifo :=
  Finset.sum_le_sum fun ac _ => later.waiting_le ac

theorem covers (later : Later before after) (covers : Covers credits before) :
    Covers credits after := by
  refine ⟨later.creditIgnore.trans covers.1, ?_⟩
  intro fifo inside requested
  have enough := covers.2 fifo inside (later.openRequest requested)
  have fewer := later.drawing_le fifo
  omega

/-- A packet is gone, and so may be a credit that it could take. -/
theorem covers_spent (later : Later before after) {now : Credits} {fifo : Nat}
    (covers : Covers credits before) (gone : waiting after ac < waiting before ac)
    (below : ac ≤ acCount) (takes : ac = fifo ∨ fifo < ac ∧ ac < acCount)
    (least : ∀ other, credits.fifoCredit other - (if other = fifo then 1 else 0) ≤
      now.fifoCredit other) : Covers now after := by
  refine ⟨later.creditIgnore.trans covers.1, ?_⟩
  intro other inside requested
  have enough := covers.2 other inside (later.openRequest requested)
  have left := least other
  by_cases same : other = fifo
  · subst same
    have fewer : drawing after other < drawing before other := by
      apply Finset.sum_lt_sum
      · intro i _
        exact later.waiting_le i
      · exact ⟨ac, Finset.mem_filter.mpr ⟨Finset.mem_range.mpr (by omega), takes⟩, gone⟩
    rw [if_pos rfl] at left
    omega
  · have fewer := later.drawing_le other
    rw [if_neg same] at left
    omega

end Later

theorem dequeDelayedq_spent {after : Ctx} {onlyNoCredit : Bool}
    (dequeued : dhdWlfcDequeDelayedq ctx ac onlyNoCredit = (after, some info))
    (spent : info.acFifoCreditSpent = true) :
    creditSpent ctx ac = true ∧ (onlyNoCredit = true → OpenRequest ctx ac) := by
  obtain ⟨actives, -, ⟨e, member, other, info', found, same⟩ | none⟩ :=
    dhdWlfcDequeDelayedq_cases ctx ac onlyNoCredit
  · rw [dequeued] at same
    cases same
    obtain ⟨may, -, charged, sub, rest, packets, -, from_⟩ := dequeFrom_cases found
    rw [spent] at charged
    obtain ⟨costs, open_⟩ := of_decide_eq_true charged.symm
    refine ⟨costs, fun without => ⟨costs, e, ?_, open_, may, ?_⟩⟩
    · rcases member with member | ⟨funded, -⟩
      · exact member
      · exact absurd without (by simp [funded])
    · rcases from_ with ⟨-, rfl⟩ | ⟨-, rfl, -⟩
      · exact Or.inl (ne_of_eq_of_ne packets (List.cons_ne_nil _ _))
      · exact Or.inr (ne_of_eq_of_ne packets (List.cons_ne_nil _ _))
  · rw [dequeued] at none
    cases none

/-- A dequeued packet waits no longer. -/
theorem waiting_dequeued {after : Ctx} {onlyNoCredit : Bool}
    (dequeued : dhdWlfcDequeDelayedq ctx ac onlyNoCredit = (after, some info)) :
    waiting after ac < waiting ctx ac := by
  have later := (Later.refl ctx).age (Aging.dequeDelayedq ctx ac onlyNoCredit)
  obtain ⟨actives, turned, ⟨e, member, other, info', found, same⟩ | none⟩ :=
    dhdWlfcDequeDelayedq_cases ctx ac onlyNoCredit
  · rw [dequeued] at same later
    cases same
    obtain ⟨-, -, -, sub, rest, packets, rfl, from_⟩ := dequeFrom_cases found
    have shorter : ((pickUp { ctx with activeEntries := actives } e ac sub info.p rest).entries e).psq
        sub = rest := by
      rw [pickUp_psq, if_pos ⟨rfl, rfl⟩]
    unfold waiting
    rw [later.reach]
    apply Finset.sum_lt_sum
    · intro i _
      exact Nat.add_le_add ((later.ages i).psq _) ((later.ages i).psq _)
    · refine ⟨e, ?_, ?_⟩
      · rw [List.mem_toFinset, List.mem_append]
        exact member.symm.imp And.right id
      · have gone : (((pickUp { ctx with activeEntries := actives } e ac sub info.p rest).entries
            e).psq sub).length < ((ctx.entries e).psq sub).length := by
          rw [shorter, packets]
          exact Nat.lt_succ_self _
        rcases from_ with ⟨-, rfl⟩ | ⟨-, rfl, -⟩
        · exact Nat.add_lt_add_of_le_of_lt ((later.ages e).psq _) gone
        · exact Nat.add_lt_add_of_lt_of_le gone ((later.ages e).psq _)
  · rw [dequeued] at none
    cases none

theorem Credits.move_back (credits : Credits) (borrower lender : Nat) :
    (credits.move 1 borrower lender).move (-1) borrower lender = credits := by
  simp [Credits.move]

/-- The credits after an attempt to borrow. -/
structure Loan (base now : Credits) (ac : Nat) (lender : Option Nat) : Prop where
  absent : lender = none → now = base
  present : ∀ l, lender = some l → l ≤ acCount ∧ now = base.move 1 ac l ∧
    ∃ bBorrowAll, borrowLimit base bBorrowAll l < base.fifoCredit l

theorem dhdWlfcBorrowCredit_loan (credits : Credits) {highest : Int} (ac : Nat) (bBorrowAll : Bool)
    (bound : highest ≤ acCount) :
    Loan credits (dhdWlfcBorrowCredit credits highest ac bBorrowAll).1 ac
      (dhdWlfcBorrowCredit credits highest ac bBorrowAll).2 := by
  unfold dhdWlfcBorrowCredit
  dsimp only
  split
  · exact ⟨fun _ => rfl, fun l taken => absurd taken (by simp)⟩
  · rename_i lender found
    refine ⟨fun alone => absurd alone (by simp), fun l taken => ?_⟩
    cases taken
    have inside := List.mem_range.mp (List.mem_of_find?_eq_some found)
    have spare := List.find?_some found
    exact ⟨by omega, rfl, bBorrowAll, of_decide_eq_true spare⟩

theorem Loan.returned (loan : Loan base ctx.credits ac lender) (below : ac ≤ acCount) :
    (returnLender ctx lender ac).credits = base := by
  cases lender with
  | none => exact loan.absent rfl
  | some l =>
    obtain ⟨lends, same, -⟩ := loan.present l rfl
    rw [returnLender, dhdWlfcReturnCredit, if_neg (by omega), same]
    exact base.move_back ac l

theorem returnLender_mode (ctx : Ctx) (lender : Option Nat) (ac : Nat) :
    (returnLender ctx lender ac).proptxstatusMode = ctx.proptxstatusMode := by
  cases lender <;> rfl

theorem returnLender_later {before after : Ctx} (later : Later before after) (lender : Option Nat)
    (ac : Nat) : Later before (returnLender after lender ac) := by
  cases lender with
  | none => exact later
  | some l => exact later.setCredits _

theorem settleCredit_later {before after : Ctx} (later : Later before after) (ac : Nat)
    (spent : Bool) (lender : Option Nat) : Later before (settleCredit after ac spent lender) := by
  unfold settleCredit
  split
  · split
    · exact later.setCredits _
    · exact later
  · exact returnLender_later later lender ac

/-- Where a pass stands against its start. -/
structure PassGoes (start : Ctx) (pass : Pass) : Prop where
  proptxstatusMode : pass.ctx.proptxstatusMode = start.proptxstatusMode
  spends : Spends (Careful start) start.credits pass.ctx.credits pass.charged
  asserted : Careful start → Solvent start.credits → pass.asserted = true

/-- A pass that may still go on. -/
structure Going (start : Ctx) (pass : Pass) : Prop extends PassGoes start pass where
  later : Later start pass.ctx
  careful : Careful start → Careful pass.ctx

theorem Spends.settle {Careful : Prop} {start : Credits} {charged : List Nat} (past : Spends Careful start base charged)
    (loan : Loan base ctx.credits ac lender) (below : ac ≤ acCount)
    (funded : Careful → spent = true → lender = none → 1 ≤ base.fifoCredit ac) :
    Spends Careful start (settleCredit ctx ac spent lender).credits
      (if spent then ac :: charged else charged) := by
  cases spent with
  | false =>
    rw [settleCredit, if_neg (by decide), if_neg (by decide), loan.returned below]
    exact past
  | true =>
    rw [settleCredit, if_pos rfl, if_pos rfl]
    cases lender with
    | none =>
      rw [if_pos rfl, loan.absent rfl]
      exact past.own below fun careful => funded careful rfl rfl
    | some l =>
      obtain ⟨lends, same, bBorrowAll, spare⟩ := loan.present l rfl
      rw [if_neg (by simp), same]
      exact past.loan bBorrowAll below lends spare

theorem commitDequeued_goes (pass : Pass) (info : CommitInfo) (input : PassInput)
    (past : Spends (Careful start) start.credits base pass.charged)
    (asserted : Careful start → Solvent start.credits → pass.asserted = true)
    (later : Later start ctx) (loan : Loan base ctx.credits ac lender) (below : ac ≤ acCount)
    (funded : Careful start → info.acFifoCreditSpent = true → lender = none →
      1 ≤ base.fifoCredit ac) :
    PassGoes start (commitDequeued pass input ac lender ctx info).1 ∧
      ((commitDequeued pass input ac lender ctx info).2 = false →
        Later start (commitDequeued pass input ac lender ctx info).1.ctx) := by
  have kept := Kept.handlePacketCommit ctx info (input.bus pass.commits)
  have loaned : Loan base (dhdWlfcHandlePacketCommit ctx info (input.bus pass.commits)).1.credits
      ac lender := by
    rw [kept.credits]
    exact loan
  unfold commitDequeued
  dsimp only
  split
  · rename_i good
    have aged := later.age (Aging.handlePacketCommit good)
    have settled := settleCredit_later aged ac info.acFifoCreditSpent lender
    exact ⟨⟨settled.proptxstatusMode, past.settle loaned below funded, asserted⟩, fun _ => settled⟩
  · -- one failed commit ends the pass
    refine ⟨⟨?_, ?_, asserted⟩, fun going => ?_⟩
    · dsimp only
      rw [returnLender_mode, kept.proptxstatusMode, later.proptxstatusMode]
    · dsimp only
      rw [loaned.returned below]
      exact past
    · exact absurd going (by simp [busRetries])

theorem noCredit_of (attentive : ctx.creditIgnore = false)
    (costs : creditSpent ctx ac = true) (has : noCredit ctx ac = false) :
    1 ≤ ctx.credits.fifoCredit ac := by
  unfold noCredit at has
  have counted : ¬ (ctx.creditIgnore = true ∨ (ac = acCount ∧ ¬ ctx.bcmcCreditSupported = true)) := by
    rintro (ignored | free)
    · rw [attentive] at ignored
      cases ignored
    · exact of_decide_eq_true costs free
  rw [if_neg counted] at has
  exact not_lt.mp (of_decide_eq_false has)

theorem borrowLimited_loan (ctx : Ctx) (ac txMap rxMap : Nat) :
    Loan ctx.credits (borrowLimited ctx ac txMap rxMap).1.credits ac
      (borrowLimited ctx ac txMap rxMap).2 := by
  unfold borrowLimited
  split
  · rename_i wanting
    exact dhdWlfcBorrowCredit_loan ctx.credits ac false (by omega)
  · exact ⟨fun _ => rfl, fun l taken => absurd taken (by simp)⟩

theorem borrowLimited_eq (ctx : Ctx) (ac txMap rxMap : Nat) :
    (borrowLimited ctx ac txMap rxMap).1 =
      ctx.setCredits (borrowLimited ctx ac txMap rxMap).1.credits := by
  unfold borrowLimited
  split <;> rfl

theorem borrowLimited_lower {l : Nat}
    (taken : (borrowLimited ctx ac txMap rxMap).2 = some l) : l < ac ∧ ac < acCount := by
  unfold borrowLimited at taken
  split at taken
  · rename_i wanting
    refine ⟨?_, wanting.2.1⟩
    unfold dhdWlfcBorrowCredit at taken
    dsimp only at taken
    split at taken
    · cases taken
    · rename_i lender found
      cases taken
      have inside := List.mem_range.mp (List.mem_of_find?_eq_some found)
      omega
  · cases taken

theorem funded_of_dequeued {after : Ctx} (careful : Careful ctx) (below : ac ≤ acCount)
    (alone : (borrowLimited ctx ac txMap rxMap).2 = none)
    (dequeued : dhdWlfcDequeDelayedq (borrowLimited ctx ac txMap rxMap).1 ac
      (noCredit ctx ac ∧ (borrowLimited ctx ac txMap rxMap).2 = none) = (after, some info))
    (spent : info.acFifoCreditSpent = true) : 1 ≤ ctx.credits.fifoCredit ac := by
  have gone := waiting_dequeued dequeued
  obtain ⟨costs, requested⟩ := dequeDelayedq_spent dequeued spent
  rw [borrowLimited_eq] at costs requested gone
  cases without : noCredit ctx ac with
  | false => exact noCredit_of careful.1 costs without
  | true =>
    rw [without, alone] at requested
    have enough := careful.2 ac below (requested (by simp))
    have draws : waiting ctx ac ≤ drawing ctx ac :=
      Finset.single_le_sum (fun _ _ => Nat.zero_le _)
        (Finset.mem_filter.mpr ⟨Finset.mem_range.mpr (by omega), Or.inl rfl⟩)
    have some_ : 0 < waiting ctx ac := (Nat.zero_le _).trans_lt gone
    omega

theorem creditAsserted_of (loan : Loan base ctx.credits ac lender)
    (funded : spent = true → lender = none → 1 ≤ base.fifoCredit ac)
    (solvent : 0 ≤ base.fifoCredit ac) : creditAsserted ctx ac lender spent = true := by
  rw [creditAsserted, decide_eq_true_eq]
  by_cases alone : lender = none
  · refine Or.inr (Or.inr ?_)
    rw [loan.absent alone]
    cases spent with
    | false => simpa using solvent
    | true => simpa using funded rfl alone
  · exact Or.inr (Or.inl alone)

/-- Every FIFO has credits left as before, less the one that was taken. -/
theorem settleCredit_covers {before : Ctx} (covers : Covers base before) (later : Later before ctx)
    (gone : waiting ctx ac < waiting before ac) (loan : Loan base ctx.credits ac lender)
    (below : ac ≤ acCount) (lower : ∀ l, lender = some l → l < ac ∧ ac < acCount) :
    Careful (settleCredit ctx ac spent lender) := by
  cases spent with
  | false =>
    have same : (settleCredit ctx ac false lender).credits = base := by
      rw [settleCredit, if_neg (by decide), loan.returned below]
    rw [Careful, same]
    exact (settleCredit_later later ac false lender).covers covers
  | true =>
    have settled := settleCredit_later later ac true lender
    rw [settleCredit, if_pos rfl] at settled ⊢
    cases lender with
    | none =>
      rw [if_pos rfl] at settled ⊢
      refine settled.covers_spent covers gone below (Or.inl rfl) ?_
      intro other
      rw [loan.absent rfl]
      by_cases same : other = ac
      · simp [Credits.add, same]
      · simp [Credits.add, same]
    | some l =>
      obtain ⟨-, moved, -⟩ := loan.present l rfl
      rw [if_neg (by simp)] at settled ⊢
      refine settled.covers_spent covers gone below (Or.inr (lower l rfl)) ?_
      intro other
      rw [moved]
      by_cases same : other = l
      · simp [Credits.move, same]
      · simp [Credits.move, same]

theorem commitDequeued_careful {input : PassInput} {before : Ctx}
    (ongoing : (commitDequeued pass input ac lender ctx info).2 = false)
    (covers : Covers base before) (later : Later before ctx)
    (gone : waiting ctx ac < waiting before ac) (loan : Loan base ctx.credits ac lender)
    (below : ac ≤ acCount) (lower : ∀ l, lender = some l → l < ac ∧ ac < acCount) :
    Careful (commitDequeued pass input ac lender ctx info).1.ctx := by
  unfold commitDequeued at ongoing ⊢
  dsimp only at ongoing ⊢
  split
  · rename_i good
    have aging := Aging.handlePacketCommit good
    have committed := (Later.refl ctx).age aging
    refine settleCredit_covers covers (later.trans committed) ?_ ?_ below lower
    · exact (committed.waiting_le ac).trans_lt gone
    · rw [aging.credits]
      exact loan
  · rename_i failed
    rw [if_neg failed] at ongoing
    exact absurd ongoing (by simp [busRetries])

/-- One round of the loop. -/
theorem transferRound_goes (input : PassInput) (below : ac ≤ acCount) (going : Going start pass)
    (dequeued : dhdWlfcDequeDelayedq (borrowLimited pass.ctx ac txMap rxMap).1 ac
      (noCredit pass.ctx ac ∧ (borrowLimited pass.ctx ac txMap rxMap).2 = none) = (ctx, some info))
    (now : Later pass.ctx ctx)
    (loan : Loan pass.ctx.credits ctx.credits ac (borrowLimited pass.ctx ac txMap rxMap).2) :
    PassGoes start (commitDequeued (assertCredit pass ctx ac
        (borrowLimited pass.ctx ac txMap rxMap).2 info.acFifoCreditSpent) input ac
        (borrowLimited pass.ctx ac txMap rxMap).2 ctx info).1 ∧
      ((commitDequeued (assertCredit pass ctx ac
        (borrowLimited pass.ctx ac txMap rxMap).2 info.acFifoCreditSpent) input ac
        (borrowLimited pass.ctx ac txMap rxMap).2 ctx info).2 = false →
        Going start (commitDequeued (assertCredit pass ctx ac
          (borrowLimited pass.ctx ac txMap rxMap).2 info.acFifoCreditSpent) input ac
          (borrowLimited pass.ctx ac txMap rxMap).2 ctx info).1) := by
  have funded : Careful start → info.acFifoCreditSpent = true →
      (borrowLimited pass.ctx ac txMap rxMap).2 = none → 1 ≤ pass.ctx.credits.fifoCredit ac :=
    fun careful spent alone =>
      funded_of_dequeued (going.careful careful) below alone dequeued spent
  have checked : Careful start → Solvent start.credits → (assertCredit pass ctx ac
      (borrowLimited pass.ctx ac txMap rxMap).2 info.acFifoCreditSpent).asserted = true := by
    intro careful solvent
    simp only [assertCredit, going.asserted careful solvent, Bool.true_and]
    exact creditAsserted_of loan (funded careful) (going.spends.solvent careful solvent ac below).2
  have step := commitDequeued_goes (assertCredit pass ctx ac
    (borrowLimited pass.ctx ac txMap rxMap).2 info.acFifoCreditSpent) info input going.spends
    checked (going.later.trans now) loan below funded
  refine ⟨step.1, fun ongoing => ⟨step.1, step.2 ongoing, fun careful => ?_⟩⟩
  have gone : waiting ctx ac < waiting pass.ctx ac := by
    have fewer := waiting_dequeued dequeued
    rw [borrowLimited_eq] at fewer
    exact fewer
  exact commitDequeued_careful ongoing (going.careful careful) now gone loan below
    fun l => borrowLimited_lower

theorem transferLoop_goes (input : PassInput)
    (txMap rxMap fuel : Nat) (below : ac ≤ acCount) (going : Going start pass) :
    PassGoes start (transferLoop input ac txMap rxMap fuel pass).1 ∧
      ((transferLoop input ac txMap rxMap fuel pass).2 = false →
        Going start (transferLoop input ac txMap rxMap fuel pass).1) := by
  induction fuel generalizing pass with
  | zero => exact ⟨going.toPassGoes, fun _ => going⟩
  | succ fuel ih =>
    unfold transferLoop
    split
    · exact ⟨going.toPassGoes, fun _ => going⟩
    · dsimp only
      have borrowed := borrowLimited_loan pass.ctx ac txMap rxMap
      have aging := Aging.dequeDelayedq (borrowLimited pass.ctx ac txMap rxMap).1 ac
        (noCredit pass.ctx ac ∧ (borrowLimited pass.ctx ac txMap rxMap).2 = none)
      have begun := (Later.refl pass.ctx).setCredits (borrowLimited pass.ctx ac txMap rxMap).1.credits
      rw [← borrowLimited_eq] at begun
      split
      · rename_i ctx empty
        rw [empty] at aging
        have loan : Loan pass.ctx.credits ctx.credits ac (borrowLimited pass.ctx ac txMap rxMap).2 :=
          aging.credits ▸ borrowed
        have returned := returnLender_later (begun.age aging)
          (borrowLimited pass.ctx ac txMap rxMap).2 ac
        have same := loan.returned below
        have goes : PassGoes start { pass with
            ctx := returnLender ctx (borrowLimited pass.ctx ac txMap rxMap).2 ac } := by
          refine ⟨(going.later.trans returned).proptxstatusMode, ?_, going.asserted⟩
          dsimp only
          rw [same]
          exact going.spends
        refine ⟨goes, fun _ => ⟨goes, going.later.trans returned, fun careful => ?_⟩⟩
        dsimp only
        rw [Careful, same]
        exact returned.covers (going.careful careful)
      · rename_i ctx info dequeued
        rw [dequeued] at aging
        have step := transferRound_goes input below going dequeued (begun.age aging)
          (aging.credits ▸ borrowed)
        split
        · rename_i ended
          exact ⟨step.1, fun ongoing => by simp [ended] at ongoing⟩
        · rename_i ongoing
          exact ih (step.2 (by simpa using ongoing))

theorem borrowAllLoop_goes (input : PassInput) (fuel : Nat)
    (below : ac ≤ acCount) (goes : PassGoes start pass) (later : Later start pass.ctx) :
    PassGoes start (borrowAllLoop input ac fuel pass).1 := by
  induction fuel generalizing pass with
  | zero => exact goes
  | succ fuel ih =>
    have borrowed := dhdWlfcBorrowCredit_loan pass.ctx.credits ac true (le_refl (acCount : Int))
    unfold borrowAllLoop
    split
    · exact goes
    · split
      · exact goes
      · rename_i credits lender lent
        rw [lent] at borrowed
        have aging := Aging.dequeDelayedq (pass.ctx.setCredits credits) ac false
        split
        · rename_i ctx empty
          rw [empty] at aging
          have loan : Loan pass.ctx.credits ctx.credits ac (some lender) :=
            aging.credits ▸ borrowed
          have returned := returnLender_later ((later.setCredits credits).age aging) (some lender) ac
          refine ⟨returned.proptxstatusMode, ?_, goes.asserted⟩
          dsimp only
          rw [loan.returned below]
          exact goes.spends
        · rename_i ctx info dequeued
          rw [dequeued] at aging
          have loan : Loan pass.ctx.credits ctx.credits ac (some lender) :=
            aging.credits ▸ borrowed
          have step := commitDequeued_goes pass info input goes.spends goes.asserted
            ((later.setCredits credits).age aging) loan below (fun _ _ alone => absurd alone (by simp))
          dsimp only
          split
          · exact step.1
          · rename_i going
            exact ih step.1 (step.2 (by simpa using going))

theorem transferAcs_goes (input : PassInput) {acs : List Nat}
    (maps : PassMaps) (below : ∀ ac ∈ acs, ac ≤ acCount) (going : Going start pass) :
    PassGoes start (transferAcs input acs pass maps).1.1 ∧
      ((transferAcs input acs pass maps).2 = false →
        Going start (transferAcs input acs pass maps).1.1) := by
  induction acs generalizing pass maps with
  | nil => exact ⟨going.toPassGoes, fun _ => going⟩
  | cons ac rest ih =>
    have others : ∀ ac ∈ rest, ac ≤ acCount := fun other member =>
      below other (List.mem_cons_of_mem ac member)
    unfold transferAcs
    dsimp only
    split
    · exact ih _ others going
    · have step := fun txMap rxMap => transferLoop_goes input txMap rxMap
        (queuedPackets pass.ctx ac + 1) (below ac List.mem_cons_self) going
      split
      · rename_i ended
        exact ⟨(step _ _).1, fun ongoing => absurd ongoing (by simp)⟩
      · rename_i ongoing
        exact ih _ others ((step _ _).2 (by simpa using ongoing))

theorem transferAcs_singleAc (input : PassInput) {acs : List Nat} (pass : Pass) {maps : PassMaps}
    (below : ∀ ac ∈ acs, ac ≤ acCount) (bound : maps.singleAc ≤ acCount + 1) :
    (transferAcs input acs pass maps).1.2.singleAc ≤ acCount + 1 := by
  induction acs generalizing pass maps with
  | nil => exact bound
  | cons ac rest ih =>
    have others : ∀ ac ∈ rest, ac ≤ acCount := fun other member =>
      below other (List.mem_cons_of_mem ac member)
    have this := below ac List.mem_cons_self
    unfold transferAcs
    dsimp only
    split
    · exact ih _ others bound
    · split
      · exact Nat.succ_le_succ this
      · exact ih _ others (Nat.succ_le_succ this)

theorem singleAcCheck_later (input : PassInput) (maps : PassMaps)
    (later : Later start ctx) : Later start (singleAcCheck ctx input maps).1 ∧
      (singleAcCheck ctx input maps).1.credits = ctx.credits := by
  unfold singleAcCheck
  split
  · split
    · exact ⟨later, rfl⟩
    · split
      · exact ⟨later.timed _ _ _, rfl⟩
      · split
        · exact ⟨later.timed _ _ _, rfl⟩
        · exact ⟨later, rfl⟩
  · exact ⟨later.timed _ _ _, rfl⟩

/-- What a whole pass does to the credits, in any state and with any answers. -/
theorem dhdWlfcTransferPackets_goes (ctx : Ctx) (input : PassInput) :
    PassGoes ctx (dhdWlfcTransferPackets ctx input) := by
  have below : ∀ ac ∈ (List.range (acCount + 1)).reverse, ac ≤ acCount := by
    intro ac member
    rw [List.mem_reverse, List.mem_range] at member
    omega
  have begun : Going ctx ⟨ctx, 0, 0, [], true⟩ :=
    ⟨⟨rfl, .start, fun _ _ => rfl⟩, .refl ctx, id⟩
  obtain ⟨goes, going⟩ := transferAcs_goes input ⟨0, 0, 0, 0⟩ below begun
  unfold dhdWlfcTransferPackets
  dsimp only
  split
  · exact goes
  · rename_i ongoing
    rw [not_or, Bool.not_eq_true] at ongoing
    obtain ⟨later, same⟩ := singleAcCheck_later input
      (transferAcs input (List.range (acCount + 1)).reverse ⟨ctx, 0, 0, [], true⟩ ⟨0, 0, 0, 0⟩).1.2
      (going ongoing.1).later
    have checked : PassGoes ctx { (transferAcs input (List.range (acCount + 1)).reverse
        ⟨ctx, 0, 0, [], true⟩ ⟨0, 0, 0, 0⟩).1.1 with ctx := (singleAcCheck (transferAcs input
        (List.range (acCount + 1)).reverse ⟨ctx, 0, 0, [], true⟩ ⟨0, 0, 0, 0⟩).1.1.ctx input
        (transferAcs input (List.range (acCount + 1)).reverse ⟨ctx, 0, 0, [], true⟩
          ⟨0, 0, 0, 0⟩).1.2).1 } := by
      refine ⟨later.proptxstatusMode, ?_, goes.asserted⟩
      dsimp only
      rw [same]
      exact goes.spends
    split
    · have bound := @transferAcs_singleAc input _ ⟨ctx, 0, 0, [], true⟩ ⟨0, 0, 0, 0⟩ below
        (Nat.zero_le _)
      exact borrowAllLoop_goes input _ (by omega) checked later
    · exact checked

end BcmDhd.Wlfc
