import BcmDhd.Msgbuf.PktidMap
import BcmDhd.Utils.MwbmapInvariant

namespace BcmDhd.Msgbuf

open BcmDhd.Lib Function

variable {locker : DhdPktidItem} {nkey : Nat}

/-- A key of the map whose locker may be handed out. -/
def FreeKey (map : DhdPktidMap) (key : Nat) : Prop :=
  1 ≤ key ∧ key ≤ map.items ∧ (map.lockers key).state = .isFree

/-- The stack is popped at `keys[avail]`, so its first slot is `keys[1]`. -/
structure PktidMapInvariant (map : DhdPktidMap) : Prop where
  positive : 1 ≤ map.items
  bounded : map.items ≤ maxPktidItems
  stack : FreeStack (fun i => map.keys (i + 1)) map.avail (FreeKey map)

namespace PktidMapInvariant

variable {map : DhdPktidMap}

theorem init {numItems : Nat} (positive : 1 ≤ numItems) (bounded : numItems ≤ maxPktidItems) :
    PktidMapInvariant (dhdPktidMapInit numItems) := by
  have keys : ∀ i < numItems, (dhdPktidMapInit numItems).keys (i + 1) = i + 1 := by
    intro i below
    simp only [dhdPktidMapInit]
    rw [fill_apply, if_pos ⟨by omega, by omega⟩]
  refine ⟨positive, bounded, ?_, ?_⟩
  · intro i iBelow j jBelow same
    have iKey := keys i iBelow
    have jKey := keys j jBelow
    omega
  · intro key
    constructor
    · rintro ⟨low, high, _⟩
      refine ⟨key - 1, ?_, ?_⟩
      · change key - 1 < numItems
        change key ≤ numItems at high
        omega
      · change key ≤ numItems at high
        rw [keys (key - 1) (by omega)]
        omega
    · rintro ⟨i, below, found⟩
      change i < numItems at below
      change (dhdPktidMapInit numItems).keys (i + 1) = key at found
      rw [keys i below] at found
      subst key
      refine ⟨by omega, below, ?_⟩
      simp only [dhdPktidMapInit, dhdPktidInvalid]
      rw [update_of_ne (by omega), fill_apply]
      split <;> rfl

section

variable (valid : PktidMapInvariant map)
include valid

theorem avail_le : map.avail ≤ map.items := by
  have bound := valid.stack.count_le (Finset.Icc 1 map.items)
    (fun key free => Finset.mem_Icc.mpr ⟨free.1, free.2.1⟩)
  simpa using bound

theorem take (some : 0 < map.avail) {after : DhdPktidMap} (items : after.items = map.items)
    (avail : after.avail = map.avail - 1)
    (keys : after.keys = map.keys)
    (lockers : after.lockers = update map.lockers (map.keys map.avail) locker)
    (used : locker.state ≠ .isFree) : PktidMapInvariant after := by
  refine ⟨by rw [items]; exact valid.positive, by rw [items]; exact valid.bounded, ?_⟩
  have stack := valid.stack
  rw [← Nat.sub_add_cancel some] at stack
  have top : map.avail - 1 + 1 = map.avail := Nat.sub_add_cancel some
  rw [keys, avail]
  refine stack.pop.congr fun key => ?_
  rw [top, FreeKey, FreeKey, items, lockers]
  by_cases same : key = map.keys map.avail
  · subst key
    simp [used]
  · rw [update_of_ne same]
    simp [same]

theorem relabel (before : (map.lockers nkey).state ≠ .isFree) (used : locker.state ≠ .isFree) :
    PktidMapInvariant { map with lockers := update map.lockers nkey locker } := by
  refine ⟨valid.positive, valid.bounded, valid.stack.congr fun key => ?_⟩
  rw [FreeKey, FreeKey]
  by_cases same : key = nkey
  · subst key
    simp [before, used]
  · simp only [update_of_ne same]

/-- Giving a key back: its locker becomes free and the key is stacked. -/
theorem give (low : 1 ≤ nkey) (high : nkey ≤ map.items)
    (before : (map.lockers nkey).state ≠ .isFree) (opened : locker.state = .isFree) :
    PktidMapInvariant { map with
      avail := map.avail + 1
      keys := update map.keys (map.avail + 1) nkey
      lockers := update map.lockers nkey locker } := by
  refine ⟨valid.positive, valid.bounded, ?_⟩
  have used : ¬ FreeKey map nkey := fun free => before free.2.2
  have shifted : (fun i => update map.keys (map.avail + 1) nkey (i + 1)) =
      update (fun i => map.keys (i + 1)) map.avail nkey := by
    funext i
    by_cases same : i = map.avail
    · subst i; simp
    · rw [update_of_ne (by omega), update_of_ne same]
  rw [shifted]
  refine (valid.stack.push used).congr fun key => ?_
  rw [FreeKey, FreeKey]
  by_cases same : key = nkey
  · subst key
    simp [opened, low, high]
  · simp [same]

theorem top_free (some : 0 < map.avail) :
    FreeKey map (map.keys map.avail) := by
  have stack := valid.stack
  rw [← Nat.sub_add_cancel some] at stack
  have top := stack.top_free
  rwa [Nat.sub_add_cancel some] at top

theorem below_free {i : Nat} (below : i < map.avail) : FreeKey map (map.keys (map.avail - i)) := by
  refine (valid.stack.lists _).mpr ⟨map.avail - i - 1, by omega, ?_⟩
  rw [Nat.sub_add_cancel (by omega)]

theorem avail_eq_zero : map.avail = 0 ↔ ∀ key, ¬ FreeKey map key :=
  valid.stack.count_eq_zero

end

end PktidMapInvariant

theorem dhdPktidMapReserve_cases (map : DhdPktidMap) (pkt : NativePtr) :
    (map.avail = 0 ∧ dhdPktidMapReserve map pkt =
        ({ map with failures := map.failures + 1 }, dhdPktidInvalid)) ∨
      (0 < map.avail ∧ dhdPktidMapReserve map pkt =
        ({ map with
            avail := map.avail - 1
            lockers := update map.lockers (map.keys map.avail)
              { map.lockers (map.keys map.avail) with pkt := pkt, len := 0, state := .isBusy } },
          map.keys map.avail)) := by
  by_cases empty : map.avail = 0
  · exact .inl ⟨empty, by simp [dhdPktidMapReserve, empty]⟩
  · exact .inr ⟨Nat.pos_of_ne_zero empty, by simp [dhdPktidMapReserve, empty]⟩

/-- The locker a save leaves behind. -/
def savedLocker (params : PktParams) : DhdPktidItem where
  state := .isBusy
  dir := params.dir
  pkttype := params.pkttype
  len := params.len % 2 ^ 16
  pkt := params.pkt
  pa := params.pa
  dmah := params.dmah
  secdma := params.secdma

theorem dhdPktidMapAlloc_cases {map : DhdPktidMap} (valid : PktidMapInvariant map)
    (params : PktParams) :
    (map.avail = 0 ∧ dhdPktidMapAlloc map params =
        ({ map with failures := map.failures + 1 }, dhdPktidInvalid)) ∨
      (0 < map.avail ∧ dhdPktidMapAlloc map params =
        ({ map with
            avail := map.avail - 1
            lockers := update map.lockers (map.keys map.avail) (savedLocker params) },
          map.keys map.avail)) := by
  rcases dhdPktidMapReserve_cases map params.pkt with ⟨empty, refused⟩ | ⟨some, taken⟩
  · exact .inl ⟨empty, by simp [dhdPktidMapAlloc, refused]⟩
  · refine .inr ⟨some, ?_⟩
    have notZero : map.keys map.avail ≠ dhdPktidInvalid := by
      have low := (valid.top_free some).1
      simp only [dhdPktidInvalid]
      omega
    simp [dhdPktidMapAlloc, taken, notZero, dhdPktidMapSave, savedLocker]

/-- A free refuses, or empties the locker and then stacks or keeps its key. -/
theorem dhdPktidMapFree_cases (map : DhdPktidMap) (nkey : Nat) (pkttype : DhdPkttype)
    (rsvLocker : Bool) :
    (((map.lockers nkey).state = .isFree ∨
          pkttype ≠ .noCheck ∧ (map.lockers nkey).pkttype ≠ pkttype) ∧
        dhdPktidMapFree map nkey pkttype rsvLocker = (map, none, none)) ∨
      (¬ ((map.lockers nkey).state = .isFree ∨
          pkttype ≠ .noCheck ∧ (map.lockers nkey).pkttype ≠ pkttype) ∧
        (dhdPktidMapFree map nkey pkttype rsvLocker).2 = ((map.lockers nkey).pkt,
          some { pa := (map.lockers nkey).pa, len := (map.lockers nkey).len,
                 dmah := (map.lockers nkey).dmah, secdma := (map.lockers nkey).secdma }) ∧
        (dhdPktidMapFree map nkey pkttype rsvLocker).1 =
          if rsvLocker = false then
            { map with
              avail := map.avail + 1
              keys := update map.keys (map.avail + 1) nkey
              lockers := update map.lockers nkey
                { map.lockers nkey with state := .isFree, pkt := none, len := 0 } }
          else
            { map with
              lockers := update map.lockers nkey
                { map.lockers nkey with state := .isRsvd, pkt := none, len := 0 } }) := by
  unfold dhdPktidMapFree
  by_cases free : (map.lockers nkey).state = .isFree
  · exact .inl ⟨.inl free, by simp [free]⟩
  · by_cases other : pkttype ≠ .noCheck ∧ (map.lockers nkey).pkttype ≠ pkttype
    · exact .inl ⟨.inr other, by simp [free, other]⟩
    · refine .inr ⟨by simp [free, other], ?_⟩
      cases rsvLocker <;> simp [free, other]

theorem dhdPktidMapFree_free {map : DhdPktidMap} (pkttype : DhdPkttype)
    (rsvLocker : Bool) (free : (map.lockers nkey).state = .isFree) :
    dhdPktidMapFree map nkey pkttype rsvLocker = (map, none, none) := by
  rcases dhdPktidMapFree_cases map nkey pkttype rsvLocker with ⟨-, refused⟩ | ⟨accepted, -⟩
  · exact refused
  · exact (accepted (.inl free)).elim

/-- Every admitted call keeps the stack in step with the free lockers. -/
theorem pktidMachine_preserves : pktidMachine.Preserves PktidMapInvariant := by
  intro map call valid admitted
  cases call with
  | reserve pkt =>
    rcases dhdPktidMapReserve_cases map pkt with ⟨-, refused⟩ | ⟨some, taken⟩
    · simp only [Machine.next, pktidMachine, refused]
      exact ⟨valid.positive, valid.bounded, valid.stack⟩
    · simp only [Machine.next, pktidMachine, taken]
      exact valid.take some rfl rfl rfl rfl (by simp)
  | save nkey params =>
    have filled : (savedLocker params).state ≠ .isFree := by simp [savedLocker]
    refine valid.relabel ?_ filled
    intro free
    rcases admitted.2 with ⟨busy, -⟩ | ⟨reserved, -⟩
    · simp [free] at busy
    · simp [free] at reserved
  | alloc params =>
    rcases dhdPktidMapAlloc_cases valid params with ⟨-, refused⟩ | ⟨some, taken⟩
    · simp only [Machine.next, pktidMachine, refused]
      exact ⟨valid.positive, valid.bounded, valid.stack⟩
    · simp only [Machine.next, pktidMachine, taken]
      exact valid.take some rfl rfl rfl rfl (by simp [savedLocker])
  | free nkey pkttype rsvLocker =>
    rcases dhdPktidMapFree_cases map nkey pkttype rsvLocker with ⟨-, refused⟩ | ⟨accepted, -, after⟩
    · simp only [Machine.next, pktidMachine, refused]
      exact valid
    · have used : (map.lockers nkey).state ≠ .isFree := fun free => accepted (.inl free)
      simp only [Machine.next, pktidMachine, after]
      split
      · exact valid.give admitted.1 admitted.2 used rfl
      · exact valid.relabel used (by simp)

/-! The audit of packet ids at the rings: a bitmap beside the map which the message
handlers update when an id goes out and when it comes back. A failed audit is
reported and changes nothing, and no handler looks at its result. -/

open BcmDhd.Utils

def dhdIoctlReqPktid : Nat := 0xFFFE

def dhdFakePktid : Nat := 0xFACE

inductive PktidAuditTest where
  | duplicateAlloc
  | duplicateFree
  | testIsAlloc
  | testIsFree
  deriving DecidableEq

/-- The result is whether the audit passed. -/
def dhdPktidAudit (map : DhdPktidMap) (pktid : Nat) (testFor : PktidAuditTest) :
    DhdPktidMap × Bool :=
  if pktid = dhdIoctlReqPktid ∨ pktid = dhdFakePktid then (map, true)
  else if pktid = dhdPktidInvalid ∨ maxPktidItems < pktid then (map, false)
  else
    let free := bcmMwbmapIsfree map.pktidAudit pktid
    match testFor with
    | .duplicateAlloc =>
      if free = false then (map, false)
      else ({ map with pktidAudit := bcmMwbmapForce map.pktidAudit pktid }, true)
    | .duplicateFree =>
      if free = true then (map, false)
      else ({ map with pktidAudit := bcmMwbmapFree map.pktidAudit pktid }, true)
    | .testIsAlloc => (map, !free)
    | .testIsFree => (map, free)

theorem dhdPktidAudit_map (map : DhdPktidMap) (pktid : Nat) (testFor : PktidAuditTest) :
    ∃ pktidAudit, (dhdPktidAudit map pktid testFor).1 = { map with pktidAudit } := by
  unfold dhdPktidAudit
  split
  · exact ⟨map.pktidAudit, rfl⟩
  · split
    · exact ⟨map.pktidAudit, rfl⟩
    · cases testFor with
      | duplicateAlloc =>
        dsimp only
        split
        · exact ⟨map.pktidAudit, rfl⟩
        · exact ⟨_, rfl⟩
      | duplicateFree =>
        dsimp only
        split
        · exact ⟨map.pktidAudit, rfl⟩
        · exact ⟨_, rfl⟩
      | testIsAlloc => exact ⟨map.pktidAudit, rfl⟩
      | testIsFree => exact ⟨map.pktidAudit, rfl⟩

theorem dhdPktidAudit_inside {map : DhdPktidMap} {pktid : Nat} (low : 1 ≤ pktid)
    (high : pktid ≤ maxPktidItems) :
    (dhdPktidAudit map pktid .duplicateAlloc).1.pktidAudit =
        (if bcmMwbmapIsfree map.pktidAudit pktid then bcmMwbmapForce map.pktidAudit pktid
        else map.pktidAudit) ∧
      (dhdPktidAudit map pktid .duplicateFree).1.pktidAudit =
        (if bcmMwbmapIsfree map.pktidAudit pktid then map.pktidAudit
        else bcmMwbmapFree map.pktidAudit pktid) := by
  have ordinary : ¬ (pktid = dhdIoctlReqPktid ∨ pktid = dhdFakePktid) := by
    simp only [maxPktidItems] at high
    simp only [dhdIoctlReqPktid, dhdFakePktid]
    omega
  have inRange : ¬ (pktid = dhdPktidInvalid ∨ maxPktidItems < pktid) := by
    simp only [dhdPktidInvalid]
    omega
  simp only [dhdPktidAudit, if_neg ordinary, if_neg inRange]
  constructor
  · cases bcmMwbmapIsfree map.pktidAudit pktid <;> rfl
  · cases bcmMwbmapIsfree map.pktidAudit pktid <;> rfl

theorem dhdPktidAudit_outside {map : DhdPktidMap} {pktid : Nat} (testFor : PktidAuditTest)
    (outside : ¬ (1 ≤ pktid ∧ pktid ≤ maxPktidItems)) :
    (dhdPktidAudit map pktid testFor).1 = map := by
  have invalid : pktid = dhdPktidInvalid ∨ maxPktidItems < pktid := by
    simp only [dhdPktidInvalid]
    omega
  rw [dhdPktidAudit, if_pos invalid]
  split
  · rfl
  · rfl

theorem dhdPktidAudit_testIsAlloc (map : DhdPktidMap) (pktid : Nat) :
    (dhdPktidAudit map pktid .testIsAlloc).1 = map := by
  unfold dhdPktidAudit
  split
  · rfl
  · split
    · rfl
    · rfl

theorem PktidMapInvariant.audit {map : DhdPktidMap} (valid : PktidMapInvariant map)
    (pktid : Nat) (testFor : PktidAuditTest) :
    PktidMapInvariant (dhdPktidAudit map pktid testFor).1 := by
  obtain ⟨pktidAudit, same⟩ := dhdPktidAudit_map map pktid testFor
  rw [same]
  exact ⟨valid.positive, valid.bounded, valid.stack⟩

end BcmDhd.Msgbuf
