import BcmDhd.Wlfc.Driver

/-! The search for a free slot of the hanger, from the slot after the one that was found last. -/

namespace BcmDhd.Wlfc

open BcmDhd.Lib Function

def nextHangerSlot (i : Nat) : Nat := if i + 1 = wlfcHangerMaxitems then 0 else i + 1

/-- The rounds of `while (i != h->slot_pos)`. -/
def hangerScan (h : Hanger) : Nat → Nat → Option (Hanger × Nat)
  | 0, _ => none
  | rounds + 1, i =>
    if i = h.slotPos then some (h, wlfcHangerMaxitems)
    else if (h.items i).state = .free then some ({ h with slotPos := i }, i)
    else hangerScan h rounds (nextHangerSlot i)

/-- The search ends; it gives a free slot if there is one, and none only if there is none. -/
def SearchFinds (h : Hanger) : Prop :=
  ∃ found, hangerScan h wlfcHangerMaxitems (nextHangerSlot h.slotPos) = some found ∧
    ((∃ i < wlfcHangerMaxitems, (h.items i).state = .free) →
      found.2 < wlfcHangerMaxitems ∧ (h.items found.2).state = .free) ∧
    (found.2 = wlfcHangerMaxitems → ∀ i < wlfcHangerMaxitems, (h.items i).state ≠ .free)

/-- What is done with the hanger. -/
inductive HangerCall where
  | getFreeSlot
  | pushpkt (p slot : Nat)
  | poppkt (slot : Nat) (removeFromHanger : Bool)
  | markSuppressed (slot gen : Nat)
  | removeReference (p : Nat)
  | freePkt (slot : Nat) (txstatus busreturned : Bool)

def HangerCall.step (ctx : Ctx) : HangerCall → Ctx
  | .getFreeSlot => { ctx with hanger := (dhdWlfcHangerGetFreeSlot ctx.hanger).1 }
  | .pushpkt p slot => (dhdWlfcHangerPushpkt ctx p slot).1
  | .poppkt slot removeFromHanger => (dhdWlfcHangerPoppkt ctx slot removeFromHanger).1
  | .markSuppressed slot gen => dhdWlfcHangerMarkSuppressed ctx slot gen
  | .removeReference p => dhdWlfcHangerRemoveReference ctx p
  | .freePkt slot txstatus busreturned => dhdWlfcHangerFreePkt ctx slot txstatus busreturned

/-- Any calls, one after the other. -/
def hangerMachine : Machine Ctx HangerCall Unit where
  step ctx call := (call.step ctx, ())
  admits _ _ := True

variable {h : Hanger} {ctx : Ctx}

theorem mem_slotOrder (inside : h.slotPos < wlfcHangerMaxitems) {i : Nat} :
    i ∈ slotOrder h.slotPos ↔ i < wlfcHangerMaxitems ∧ i ≠ h.slotPos := by
  unfold slotOrder wlfcHangerMaxitems at *
  rw [List.mem_map]
  constructor
  · rintro ⟨offset, member, rfl⟩
    have below := List.mem_range.mp member
    omega
  · rintro ⟨below, other⟩
    refine ⟨(i + 3072 - h.slotPos - 1) % 3072, List.mem_range.mpr (by omega), by omega⟩

/-- The answer of a search that found this. -/
def slotAnswer (h : Hanger) : Option Nat → Hanger × Nat
  | some i => ({ h with slotPos := i }, i)
  | none => (h, wlfcHangerMaxitems)

theorem getFreeSlot_eq (h : Hanger) : dhdWlfcHangerGetFreeSlot h =
    slotAnswer h ((slotOrder h.slotPos).find? fun i => (h.items i).state = .free) := by
  unfold dhdWlfcHangerGetFreeSlot
  split
  · rename_i i found
    rw [found]
    rfl
  · rename_i none_
    rw [none_]
    rfl

theorem hangerScan_from (inside : h.slotPos < wlfcHangerMaxitems) {left offset : Nat}
    (all : offset + left = wlfcHangerMaxitems - 1) :
    hangerScan h (left + 1) ((h.slotPos + 1 + offset) % wlfcHangerMaxitems) =
      some (slotAnswer h (((List.range' offset left).map fun i => (h.slotPos + 1 + i) % wlfcHangerMaxitems).find?
        fun i => (h.items i).state = .free)) := by
  induction left generalizing offset with
  | zero =>
    have back : (h.slotPos + 1 + offset) % wlfcHangerMaxitems = h.slotPos := by
      unfold wlfcHangerMaxitems at *
      omega
    rw [hangerScan, if_pos back]
    rfl
  | succ left ih =>
    have other : (h.slotPos + 1 + offset) % wlfcHangerMaxitems ≠ h.slotPos := by
      unfold wlfcHangerMaxitems at *
      omega
    have next : nextHangerSlot ((h.slotPos + 1 + offset) % wlfcHangerMaxitems) =
        (h.slotPos + 1 + (offset + 1)) % wlfcHangerMaxitems := by
      unfold nextHangerSlot wlfcHangerMaxitems at *
      split
      · omega
      · omega
    rw [hangerScan, if_neg other, List.range'_succ, List.map_cons, List.find?_cons]
    by_cases free : (h.items ((h.slotPos + 1 + offset) % wlfcHangerMaxitems)).state = .free
    · rw [if_pos free]
      simp [free, slotAnswer]
    · rw [if_neg free, next, ih (by omega)]
      simp [free]

theorem hangerScan_eq (inside : h.slotPos < wlfcHangerMaxitems) :
    hangerScan h wlfcHangerMaxitems (nextHangerSlot h.slotPos) = some (dhdWlfcHangerGetFreeSlot h) := by
  have start : nextHangerSlot h.slotPos = (h.slotPos + 1 + 0) % wlfcHangerMaxitems := by
    unfold nextHangerSlot wlfcHangerMaxitems at *
    split
    · omega
    · omega
  have whole := hangerScan_from inside (Nat.zero_add (wlfcHangerMaxitems - 1))
  rw [start]
  rw [getFreeSlot_eq]
  unfold slotOrder
  rw [List.range_eq_range']
  exact whole

/-- It misses a free slot exactly if that is the slot it starts behind, and no other is free. -/
theorem searchFinds_iff (inside : h.slotPos < wlfcHangerMaxitems) :
    SearchFinds h ↔ (h.items h.slotPos).state ≠ .free ∨
      ∃ i < wlfcHangerMaxitems, i ≠ h.slotPos ∧ (h.items i).state = .free := by
  unfold SearchFinds
  rw [hangerScan_eq inside, getFreeSlot_eq]
  cases found : (slotOrder h.slotPos).find? fun i => (h.items i).state = .free with
  | some i =>
    have free : (h.items i).state = .free := by simpa using List.find?_some found
    obtain ⟨below, other⟩ := (mem_slotOrder inside).mp (List.mem_of_find?_eq_some found)
    refine iff_of_true ⟨_, rfl, fun _ => ⟨below, free⟩, fun same => ?_⟩ (.inr ⟨i, below, other, free⟩)
    exact absurd same (ne_of_lt below)
  | none =>
    have taken : ∀ i < wlfcHangerMaxitems, i ≠ h.slotPos → (h.items i).state ≠ .free := by
      intro i below other
      have here := List.find?_eq_none.mp found i ((mem_slotOrder inside).mpr ⟨below, other⟩)
      simpa using here
    constructor
    · rintro ⟨result, same, -, all⟩
      cases same
      exact .inl (all rfl h.slotPos inside)
    · rintro (last | ⟨i, below, other, free⟩)
      · have none_ : ∀ i < wlfcHangerMaxitems, (h.items i).state ≠ .free := by
          intro i below
          by_cases same : i = h.slotPos
          · rwa [same]
          · exact taken i below same
        exact ⟨_, rfl, fun ⟨i, below, free⟩ => absurd free (none_ i below), fun _ => none_⟩
      · exact absurd free (taken i below other)

theorem slotPos_getFreeSlot (inside : h.slotPos < wlfcHangerMaxitems) :
    (dhdWlfcHangerGetFreeSlot h).1.slotPos < wlfcHangerMaxitems := by
  rw [getFreeSlot_eq]
  cases found : (slotOrder h.slotPos).find? fun i => (h.items i).state = .free with
  | some i => exact ((mem_slotOrder inside).mp (List.mem_of_find?_eq_some found)).1
  | none => exact inside

theorem slotPos_poppkt (ctx : Ctx) (slot : Nat) (removeFromHanger : Bool) :
    (dhdWlfcHangerPoppkt ctx slot removeFromHanger).1.hanger.slotPos = ctx.hanger.slotPos := by
  unfold dhdWlfcHangerPoppkt
  dsimp only
  split
  · rfl
  split
  · cases removeFromHanger with
    | true => rfl
    | false => rfl
  · rfl

theorem slotPos_freePkt (ctx : Ctx) (slot : Nat) (txstatus busreturned : Bool) :
    (dhdWlfcHangerFreePkt ctx slot txstatus busreturned).hanger.slotPos = ctx.hanger.slotPos := by
  unfold dhdWlfcHangerFreePkt
  dsimp only
  split
  · rfl
  split
  · rfl
  split
  · split
    · rename_i popped p same
      have kept := slotPos_poppkt (ctx.setItem slot { ctx.hanger.items slot with
        txstatus := (ctx.hanger.items slot).txstatus || txstatus
        busreturned := (ctx.hanger.items slot).busreturned || busreturned }) slot true
      rw [same] at kept
      exact kept
    · rename_i popped same
      have kept := slotPos_poppkt (ctx.setItem slot { ctx.hanger.items slot with
        txstatus := (ctx.hanger.items slot).txstatus || txstatus
        busreturned := (ctx.hanger.items slot).busreturned || busreturned }) slot true
      rw [same] at kept
      exact kept
  · rfl

theorem slotPos_step (inside : ctx.hanger.slotPos < wlfcHangerMaxitems) (call : HangerCall) :
    (call.step ctx).hanger.slotPos < wlfcHangerMaxitems := by
  cases call with
  | getFreeSlot =>
    have found : (HangerCall.getFreeSlot.step ctx).hanger = (dhdWlfcHangerGetFreeSlot ctx.hanger).1 := by
      simp only [HangerCall.step]
    rw [found]
    exact slotPos_getFreeSlot inside
  | pushpkt p slot =>
    change (dhdWlfcHangerPushpkt ctx p slot).1.hanger.slotPos < _
    unfold dhdWlfcHangerPushpkt
    split
    · exact inside
    · exact inside
  | poppkt slot removeFromHanger => exact (slotPos_poppkt ctx slot removeFromHanger).symm ▸ inside
  | markSuppressed slot gen =>
    change (dhdWlfcHangerMarkSuppressed ctx slot gen).hanger.slotPos < _
    unfold dhdWlfcHangerMarkSuppressed
    split
    · exact inside
    · exact inside
  | removeReference p =>
    change (dhdWlfcHangerRemoveReference ctx p).hanger.slotPos < _
    unfold dhdWlfcHangerRemoveReference
    dsimp only
    split
    · exact inside
    · exact inside
  | freePkt slot txstatus busreturned => exact (slotPos_freePkt ctx slot txstatus busreturned).symm ▸ inside

/-- After any calls from an empty hanger on, the search finds a free slot exactly if the slot that
was found last is taken or another one is free. -/
theorem run_searchFinds_iff (ctx : Ctx) (created : ctx.hanger = dhdWlfcHangerCreate) (calls : List HangerCall) :
    SearchFinds (hangerMachine.run ctx calls).hanger ↔
      ((hangerMachine.run ctx calls).hanger.items (hangerMachine.run ctx calls).hanger.slotPos).state ≠ .free ∨
        ∃ i < wlfcHangerMaxitems, i ≠ (hangerMachine.run ctx calls).hanger.slotPos ∧
          ((hangerMachine.run ctx calls).hanger.items i).state = .free := by
  apply searchFinds_iff
  have preserved : hangerMachine.Preserves fun ctx => ctx.hanger.slotPos < wlfcHangerMaxitems :=
    fun ctx call inside _ => slotPos_step inside call
  apply Machine.run_invariant _ preserved
  · rw [created]
    exact (show 0 < 3072 by decide)
  · exact hangerMachine.admitted_of_forall fun _ _ => trivial

/-- A slot is looked for, and a packet put into the next one. -/
def filling : Nat → List HangerCall
  | 0 => []
  | count + 1 => filling count ++ [.getFreeSlot, .pushpkt 0 ((count + 1) % wlfcHangerMaxitems)]

/-- After so many packets, their slots are taken, and the others free. -/
theorem run_filling (ctx : Ctx) (created : ctx.hanger = dhdWlfcHangerCreate) {count : Nat}
    (room : count ≤ wlfcHangerMaxitems) :
    (hangerMachine.run ctx (filling count)).hanger.slotPos = count % wlfcHangerMaxitems ∧
      ∀ i < wlfcHangerMaxitems, ((hangerMachine.run ctx (filling count)).hanger.items i).state = .free ↔
        count < wlfcHangerMaxitems ∧ i = 0 ∨ count < i := by
  induction count with
  | zero =>
    change ctx.hanger.slotPos = 0 % 3072 ∧ ∀ i < 3072, (ctx.hanger.items i).state = .free ↔ _
    rw [created]
    refine ⟨rfl, fun i inside => iff_of_true rfl ?_⟩
    unfold wlfcHangerMaxitems
    omega
  | succ count ih =>
    obtain ⟨at_, free⟩ := ih (by omega)
    have here : ((hangerMachine.run ctx (filling count)).hanger.items
        ((count + 1) % wlfcHangerMaxitems)).state = .free := by
      refine (free _ (Nat.mod_lt _ (by decide))).mpr ?_
      unfold wlfcHangerMaxitems at *
      omega
    have first : dhdWlfcHangerGetFreeSlot (hangerMachine.run ctx (filling count)).hanger =
        ({ (hangerMachine.run ctx (filling count)).hanger with slotPos := (count + 1) % wlfcHangerMaxitems },
          (count + 1) % wlfcHangerMaxitems) := by
      have order : slotOrder (hangerMachine.run ctx (filling count)).hanger.slotPos =
          (count + 1) % wlfcHangerMaxitems ::
            (List.range' 1 3070).map fun i =>
              ((hangerMachine.run ctx (filling count)).hanger.slotPos + 1 + i) % 3072 := by
        unfold slotOrder
        rw [show wlfcHangerMaxitems - 1 = 3070 + 1 from rfl, List.range_eq_range', List.range'_succ, List.map_cons, at_]
        unfold wlfcHangerMaxitems at *
        rw [show (count % 3072 + 1 + 0) % 3072 = (count + 1) % 3072 by omega]
      rw [getFreeSlot_eq, order, List.find?_cons]
      simp [here, slotAnswer]
    rw [filling, Machine.run_append]
    generalize hangerMachine.run ctx (filling count) = filled at at_ free here first
    have pushed : hangerMachine.run filled [.getFreeSlot, .pushpkt 0 ((count + 1) % wlfcHangerMaxitems)] =
        (dhdWlfcHangerPushpkt { filled with hanger := (dhdWlfcHangerGetFreeSlot filled.hanger).1 } 0
          ((count + 1) % wlfcHangerMaxitems)).1 := rfl
    rw [pushed, first]
    unfold dhdWlfcHangerPushpkt
    rw [if_pos ⟨Nat.mod_lt _ (by decide), here⟩]
    refine ⟨rfl, fun i inside => ?_⟩
    change (update filled.hanger.items ((count + 1) % wlfcHangerMaxitems) _ i).state = .free ↔ _
    by_cases same : i = (count + 1) % wlfcHangerMaxitems
    · rw [same, update_self]
      refine iff_of_false nofun ?_
      unfold wlfcHangerMaxitems at *
      omega
    · rw [update_of_ne same, free i inside]
      unfold wlfcHangerMaxitems at *
      omega

/-- All the slots but slot 0 have been filled, and the search goes round to it. -/
theorem run_searchFinds_filled :
    let hanger := (hangerMachine.run (driverStart ⟨false, false, false⟩)
      (filling (wlfcHangerMaxitems - 1))).hanger
    (hanger.items 0).state = .free ∧ (hanger.items hanger.slotPos).state ≠ .free ∧
      SearchFinds hanger := by
  have all : wlfcHangerMaxitems = 3072 := rfl
  generalize equal : wlfcHangerMaxitems - 1 = count
  obtain ⟨at_, free⟩ := @run_filling (driverStart ⟨false, false, false⟩) rfl count (by omega)
  have taken : ((hangerMachine.run (driverStart ⟨false, false, false⟩) (filling count)).hanger.items
      (hangerMachine.run (driverStart ⟨false, false, false⟩) (filling count)).hanger.slotPos).state ≠
        .free := by
    rw [at_]
    have last : count % wlfcHangerMaxitems = count := Nat.mod_eq_of_lt (by omega)
    rw [last]
    exact (free count (by omega)).not.mpr (by omega)
  exact ⟨(free 0 (by omega)).mpr (by omega), taken,
    (run_searchFinds_iff (driverStart ⟨false, false, false⟩) rfl (filling count)).mpr (.inl taken)⟩

theorem popped_hanger (taken : (ctx.hanger.items 0).state ≠ .free) :
    (hangerMachine.run ctx [.poppkt 0 true]).hanger =
      ⟨ctx.hanger.slotPos, update ctx.hanger.items 0 (freedItem (ctx.hanger.items 0))⟩ := by
  change (dhdWlfcHangerPoppkt ctx 0 true).1.hanger = _
  unfold dhdWlfcHangerPoppkt
  rw [if_neg (by decide)]
  dsimp only
  rw [if_pos taken]
  rfl

theorem popped_missed (last : ctx.hanger.slotPos = 0)
    (full : ∀ i < wlfcHangerMaxitems, (ctx.hanger.items i).state ≠ .free) :
    ((hangerMachine.run ctx [.poppkt 0 true]).hanger.items 0).state = .free ∧
      ¬ SearchFinds (hangerMachine.run ctx [.poppkt 0 true]).hanger := by
  rw [popped_hanger (full 0 (by decide)), last]
  constructor
  · dsimp only
    rw [update_self]
    rfl
  · rw [searchFinds_iff (Nat.zero_lt_succ 3071)]
    dsimp only
    rw [update_self]
    rintro (still | ⟨i, inside, other, here⟩)
    · exact still rfl
    · rw [update_of_ne other] at here
      exact full i inside here

theorem run_popped (ctx : Ctx) (created : ctx.hanger = dhdWlfcHangerCreate) {count : Nat}
    (full : count = wlfcHangerMaxitems) :
    ((hangerMachine.run ctx (filling count ++ [.poppkt 0 true])).hanger.items 0).state = .free ∧
      ¬ SearchFinds (hangerMachine.run ctx (filling count ++ [.poppkt 0 true])).hanger := by
  obtain ⟨at_, free⟩ := run_filling ctx created (le_of_eq full)
  rw [Machine.run_append]
  refine popped_missed (by rw [at_, full, Nat.mod_self]) fun i inside here => ?_
  have := (free i inside).mp here
  omega

/-- A hanger is filled and the packet that went in last popped: the only free slot is the one the
search starts behind, and it does not get there. -/
theorem search_misses_slot :
    let calls := filling wlfcHangerMaxitems ++ [.poppkt 0 true]
    ((hangerMachine.run (driverStart ⟨false, false, false⟩) calls).hanger.items 0).state = .free ∧
      ¬ SearchFinds (hangerMachine.run (driverStart ⟨false, false, false⟩) calls).hanger := by
  generalize equal : wlfcHangerMaxitems = count
  exact run_popped (driverStart ⟨false, false, false⟩) rfl equal.symm

end BcmDhd.Wlfc
