import BcmDhd.Msgbuf.PktidMapInvariant

namespace BcmDhd.Msgbuf

open BcmDhd.Lib Function

/-- What the calls so far say about one key. -/
inductive PktidSlot where
  | free
  | reserved (pkt : NativePtr)
  | saved (params : PktParams)
  | vacant
  deriving DecidableEq

/-- The key a call and its answer are about, and what becomes of it there. A
refused request says nothing about any key. -/
def touches : PktidCall × PktidAnswer → Option (Nat × PktidSlot)
  | (.reserve pkt, .key nkey) => if nkey = dhdPktidInvalid then none else some (nkey, .reserved pkt)
  | (.save nkey params, _) => some (nkey, .saved params)
  | (.alloc params, .key nkey) => if nkey = dhdPktidInvalid then none else some (nkey, .saved params)
  | (.free nkey _ rsvLocker, .freed _ (some _)) => some (nkey, if rsvLocker then .vacant else .free)
  | _ => none

/-- The last thing that happened to a key. -/
def slotOf (history : List (PktidCall × PktidAnswer)) (key : Nat) : PktidSlot :=
  history.foldl (fun slot entry =>
    match touches entry with
    | some (nkey, after) => if nkey = key then after else slot
    | none => slot) .free

/-- The parameters of the latest save for a key, an allocation being one. -/
def latestSave (history : List (PktidCall × PktidAnswer)) (key : Nat) : Option PktParams :=
  history.foldl (fun latest entry =>
    match touches entry with
    | some (nkey, .saved params) => if nkey = key then some params else latest
    | _ => latest) none

theorem slotOf_append (history : List (PktidCall × PktidAnswer))
    (entry : PktidCall × PktidAnswer) (key : Nat) :
    slotOf (history ++ [entry]) key =
      match touches entry with
      | some (nkey, after) => if nkey = key then after else slotOf history key
      | none => slotOf history key := by
  simp [slotOf, List.foldl_append]

theorem latestSave_append (history : List (PktidCall × PktidAnswer))
    (entry : PktidCall × PktidAnswer) (key : Nat) :
    latestSave (history ++ [entry]) key =
      match touches entry with
      | some (nkey, .saved params) => if nkey = key then some params else latestSave history key
      | _ => latestSave history key := by
  simp [latestSave, List.foldl_append]

/-- A locker that holds what the slot says. -/
def Holds : PktidSlot → DhdPktidItem → Prop
  | .free, locker => locker.state = .isFree
  | .reserved pkt, locker => locker.state = .isBusy ∧ locker.pkt = pkt ∧ locker.len = 0
  | .saved params, locker => locker = savedLocker params
  | .vacant, locker => locker.state = .isRsvd ∧ locker.pkt = none ∧ locker.len = 0

/-- The lockers hold what the history says, and a saved slot holds the latest save. -/
structure Recorded (map : DhdPktidMap) (history : List (PktidCall × PktidAnswer)) : Prop where
  valid : PktidMapInvariant map
  holds : ∀ key, 1 ≤ key → key ≤ map.items → Holds (slotOf history key) (map.lockers key)
  latest : ∀ key params, slotOf history key = .saved params → latestSave history key = some params

namespace Recorded

variable {map after : DhdPktidMap} {history : List (PktidCall × PktidAnswer)}
variable {entry : PktidCall × PktidAnswer}

theorem untouched (recorded : Recorded map history) (valid : PktidMapInvariant after)
    (items : after.items = map.items) (lockers : after.lockers = map.lockers)
    (silent : touches entry = none) : Recorded after (history ++ [entry]) := by
  refine ⟨valid, ?_, ?_⟩
  · intro key low high
    rw [slotOf_append, silent, lockers]
    exact recorded.holds key low (items ▸ high)
  · intro key params saved
    rw [slotOf_append, silent] at saved
    rw [latestSave_append, silent]
    exact recorded.latest key params saved

/-- A call that rewrites the locker of the one key it touches. -/
theorem touched (recorded : Recorded map history) (valid : PktidMapInvariant after)
    (items : after.items = map.items) {nkey : Nat} {slot : PktidSlot} {locker : DhdPktidItem}
    (lockers : after.lockers = update map.lockers nkey locker)
    (about : touches entry = some (nkey, slot)) (holding : Holds slot locker) :
    Recorded after (history ++ [entry]) := by
  refine ⟨valid, ?_, ?_⟩
  · intro key low high
    simp only [slotOf_append, about]
    by_cases same : key = nkey
    · subst key
      simpa [lockers] using holding
    · rw [lockers, update_of_ne same]
      simpa [Ne.symm same] using recorded.holds key low (items ▸ high)
  · intro key params saved
    simp only [slotOf_append, about] at saved
    simp only [latestSave_append, about]
    by_cases same : nkey = key
    · simp only [same, if_true] at saved
      simp [saved, same]
    · simp only [same, if_false] at saved
      have old := recorded.latest key params saved
      cases slot <;> simp [same, old]

end Recorded

/-- Every admitted call keeps the lockers and the history in agreement. -/
theorem pktidMachine_records (map : DhdPktidMap) (history : List (PktidCall × PktidAnswer))
    (call : PktidCall) (recorded : Recorded map history) (admitted : pktidMachine.admits map call) :
    Recorded (pktidMachine.next map call) (history ++ [(call, pktidMachine.answer map call)]) := by
  have valid := pktidMachine_preserves map call recorded.valid admitted
  have notInvalid : 0 < map.avail → map.keys map.avail ≠ dhdPktidInvalid := fun some =>
    Nat.ne_of_gt (recorded.valid.top_free some).1
  cases call with
  | reserve pkt =>
    rcases dhdPktidMapReserve_cases map pkt with ⟨-, refused⟩ | ⟨some, taken⟩
    · simp only [Machine.next, Machine.answer, pktidMachine, refused] at valid ⊢
      exact recorded.untouched valid rfl rfl rfl
    · simp only [Machine.next, Machine.answer, pktidMachine, taken] at valid ⊢
      have about : touches (.reserve pkt, .key (map.keys map.avail)) =
          Option.some (map.keys map.avail, .reserved pkt) := if_neg (notInvalid some)
      exact recorded.touched valid rfl rfl about ⟨rfl, rfl, rfl⟩
  | save nkey params => exact recorded.touched valid rfl rfl rfl rfl
  | alloc params =>
    rcases dhdPktidMapAlloc_cases recorded.valid params with ⟨-, refused⟩ | ⟨some, taken⟩
    · simp only [Machine.next, Machine.answer, pktidMachine, refused] at valid ⊢
      exact recorded.untouched valid rfl rfl rfl
    · simp only [Machine.next, Machine.answer, pktidMachine, taken] at valid ⊢
      have about : touches (.alloc params, .key (map.keys map.avail)) =
          Option.some (map.keys map.avail, .saved params) := if_neg (notInvalid some)
      exact recorded.touched valid rfl rfl about rfl
  | free nkey pkttype rsvLocker =>
    rcases dhdPktidMapFree_cases map nkey pkttype rsvLocker with ⟨-, refused⟩ | ⟨-, contents, after⟩
    · simp only [Machine.next, Machine.answer, pktidMachine, refused] at valid ⊢
      exact recorded.untouched valid rfl rfl rfl
    · simp only [Machine.next, Machine.answer, pktidMachine, contents, after] at valid ⊢
      cases rsvLocker with
      | false => exact recorded.touched valid rfl rfl rfl rfl
      | true => exact recorded.touched valid rfl rfl rfl ⟨rfl, rfl, rfl⟩

theorem recorded_init {numItems : Nat} (positive : 1 ≤ numItems)
    (bounded : numItems ≤ maxPktidItems) : Recorded (dhdPktidMapInit numItems) [] := by
  have valid := PktidMapInvariant.init positive bounded
  refine ⟨valid, ?_, ?_⟩
  · intro key low high
    have stacked : ∃ i < numItems, (dhdPktidMapInit numItems).keys (i + 1) = key := by
      change key ≤ numItems at high
      refine ⟨key - 1, by omega, ?_⟩
      simp only [dhdPktidMapInit]
      rw [fill_apply, if_pos ⟨by omega, by omega⟩]
      omega
    exact ((valid.stack.lists key).mpr stacked).2.2
  · intro key params saved
    simp [slotOf] at saved

theorem pktid_recorded {numItems : Nat} (positive : 1 ≤ numItems)
    (bounded : numItems ≤ maxPktidItems) {calls : List PktidCall}
    (admitted : pktidMachine.Admitted (dhdPktidMapInit numItems) calls) :
    Recorded (pktidMachine.run (dhdPktidMapInit numItems) calls)
      (pktidMachine.history (dhdPktidMapInit numItems) calls) := by
  have reached := pktidMachine.run_history_invariant pktidMachine_records
    (recorded_init positive bounded) admitted
  simpa using reached

/-- The keys on the stack are distinct keys of the map, and they are exactly
those whose locker is free. -/
structure StackListsFreeLockers (map : DhdPktidMap) : Prop where
  avail_le : map.avail ≤ map.items
  distinct : ∀ i j, 1 ≤ i → i ≤ map.avail → 1 ≤ j → j ≤ map.avail →
    map.keys i = map.keys j → i = j
  range : ∀ i, 1 ≤ i → i ≤ map.avail → 1 ≤ map.keys i ∧ map.keys i ≤ map.items
  free : ∀ key, 1 ≤ key → key ≤ map.items →
    ((map.lockers key).state = .isFree ↔ ∃ i, 1 ≤ i ∧ i ≤ map.avail ∧ map.keys i = key)

theorem PktidMapInvariant.listsFreeLockers {map : DhdPktidMap} (valid : PktidMapInvariant map) :
    StackListsFreeLockers map := by
  have stacked : ∀ i, 1 ≤ i → i ≤ map.avail → FreeKey map (map.keys i) := by
    intro i low high
    exact (valid.stack.lists _).mpr ⟨i - 1, by omega, by simp only [Nat.sub_add_cancel low]⟩
  refine ⟨valid.avail_le, ?_, ?_, ?_⟩
  · intro i j iLow iHigh jLow jHigh same
    have equal := valid.stack.distinct (i - 1) (by omega) (j - 1) (by omega)
      (by simpa only [Nat.sub_add_cancel iLow, Nat.sub_add_cancel jLow] using same)
    omega
  · intro i low high
    exact ⟨(stacked i low high).1, (stacked i low high).2.1⟩
  · intro key low high
    constructor
    · intro free
      obtain ⟨i, below, found⟩ := (valid.stack.lists key).mp ⟨low, high, free⟩
      exact ⟨i + 1, by omega, by omega, found⟩
    · rintro ⟨i, iLow, iHigh, rfl⟩
      exact (stacked i iLow iHigh).2.2

/-- The key a reservation or an allocation is answered with. -/
def handedOut (map : DhdPktidMap) (call : PktidCall) : Option Nat :=
  match call, pktidMachine.answer map call with
  | .reserve _, .key nkey => some nkey
  | .alloc _, .key nkey => some nkey
  | _, _ => none

/-- A request is refused exactly when no locker is free; otherwise the key it
receives belongs to a free locker, which it takes out of the free state. -/
theorem handedOut_spec {map : DhdPktidMap} (valid : PktidMapInvariant map) {call : PktidCall}
    {nkey : Nat} (handed : handedOut map call = some nkey) :
    (nkey = dhdPktidInvalid ↔ ∀ key, ¬ FreeKey map key) ∧
      (nkey ≠ dhdPktidInvalid → FreeKey map nkey ∧ ¬ FreeKey (pktidMachine.next map call) nkey) := by
  have taken : ∀ after : DhdPktidMap, ∀ locker : DhdPktidItem, 0 < map.avail →
      after.lockers = update map.lockers (map.keys map.avail) locker →
      locker.state ≠ .isFree → nkey = map.keys map.avail → (nkey = dhdPktidInvalid ↔
        ∀ key, ¬ FreeKey map key) ∧ (nkey ≠ dhdPktidInvalid → FreeKey map nkey ∧ ¬ FreeKey after nkey) := by
    intro after locker some lockers used same
    have top := valid.top_free some
    refine ⟨iff_of_false (Nat.ne_of_gt (same ▸ top.1)) (fun none => none _ top), fun _ => ?_⟩
    refine ⟨same ▸ top, fun free => used ?_⟩
    simpa [lockers, same] using free.2.2
  have refused : map.avail = 0 → nkey = dhdPktidInvalid → (nkey = dhdPktidInvalid ↔
      ∀ key, ¬ FreeKey map key) ∧ (nkey ≠ dhdPktidInvalid → FreeKey map nkey ∧
        ¬ FreeKey (pktidMachine.next map call) nkey) := fun empty same =>
    ⟨iff_of_true same (valid.avail_eq_zero.mp empty), fun different => (different same).elim⟩
  cases call with
  | reserve pkt =>
    rcases dhdPktidMapReserve_cases map pkt with ⟨empty, result⟩ | ⟨some, result⟩ <;>
      simp only [handedOut, Machine.answer, pktidMachine, result, Option.some.injEq] at handed
    · exact refused empty handed.symm
    · simp only [Machine.next, pktidMachine, result]
      exact taken _ _ some rfl (by simp) handed.symm
  | alloc params =>
    rcases dhdPktidMapAlloc_cases valid params with ⟨empty, result⟩ | ⟨some, result⟩ <;>
      simp only [handedOut, Machine.answer, pktidMachine, result, Option.some.injEq] at handed
    · exact refused empty handed.symm
    · simp only [Machine.next, pktidMachine, result]
      exact taken _ _ some rfl (by simp [savedLocker]) handed.symm
  | save nkey params => simp [handedOut] at handed
  | free nkey pkttype rsvLocker => simp [handedOut] at handed

/-- A call that frees the given key, whether it succeeds or not. -/
def FreesKey (key : Nat) (call : PktidCall) : Prop :=
  ∃ pkttype rsvLocker, call = .free key pkttype rsvLocker

/-- A key in use stays in use until a free names it. -/
theorem stays_used {key : Nat} (map : DhdPktidMap) (call : PktidCall)
    (other : ¬ FreesKey key call) (used : PktidMapInvariant map ∧ ¬ FreeKey map key)
    (admitted : pktidMachine.admits map call) :
    PktidMapInvariant (pktidMachine.next map call) ∧ ¬ FreeKey (pktidMachine.next map call) key := by
  obtain ⟨valid, notFree⟩ := used
  refine ⟨pktidMachine_preserves map call valid admitted, ?_⟩
  have rewritten : ∀ (after : DhdPktidMap) (nkey : Nat) (locker : DhdPktidItem),
      after.items = map.items → after.lockers = update map.lockers nkey locker →
      (nkey = key → locker.state ≠ .isFree) → ¬ FreeKey after key := by
    intro after nkey locker items lockers kept free
    by_cases same : nkey = key
    · apply kept same
      simpa [lockers, same] using free.2.2
    · apply notFree
      refine ⟨free.1, items ▸ free.2.1, ?_⟩
      simpa [lockers, update_of_ne (Ne.symm same)] using free.2.2
  cases call with
  | reserve pkt =>
    rcases dhdPktidMapReserve_cases map pkt with ⟨-, result⟩ | ⟨-, result⟩
    · simp only [Machine.next, pktidMachine, result]
      exact notFree
    · simp only [Machine.next, pktidMachine, result]
      exact rewritten _ _ _ rfl rfl (by simp)
  | save nkey params => exact rewritten _ nkey (savedLocker params) rfl rfl (by simp [savedLocker])
  | alloc params =>
    rcases dhdPktidMapAlloc_cases valid params with ⟨-, result⟩ | ⟨-, result⟩
    · simp only [Machine.next, pktidMachine, result]
      exact notFree
    · simp only [Machine.next, pktidMachine, result]
      exact rewritten _ _ _ rfl rfl (by simp [savedLocker])
  | free nkey pkttype rsvLocker =>
    have different : nkey ≠ key := fun same => other ⟨pkttype, rsvLocker, by rw [same]⟩
    rcases dhdPktidMapFree_cases map nkey pkttype rsvLocker with ⟨-, result⟩ | ⟨-, -, result⟩
    · simpa only [Machine.next, pktidMachine, result] using notFree
    · simp only [Machine.next, pktidMachine, result]
      split
      · exact rewritten _ _ _ rfl rfl (fun same => (different same).elim)
      · exact rewritten _ _ _ rfl rfl (fun same => (different same).elim)

theorem pktidMachine_items (map : DhdPktidMap) (call : PktidCall) :
    (pktidMachine.next map call).items = map.items := by
  cases call with
  | reserve pkt =>
    rcases dhdPktidMapReserve_cases map pkt with ⟨-, result⟩ | ⟨-, result⟩ <;>
      simp only [Machine.next, pktidMachine, result]
  | save nkey params => rfl
  | alloc params =>
    rcases dhdPktidMapReserve_cases map params.pkt with ⟨-, result⟩ | ⟨-, result⟩ <;>
      simp only [Machine.next, pktidMachine, dhdPktidMapAlloc, result] <;> split <;> rfl
  | free nkey pkttype rsvLocker =>
    rcases dhdPktidMapFree_cases map nkey pkttype rsvLocker with ⟨-, result⟩ | ⟨-, -, result⟩ <;>
      simp only [Machine.next, pktidMachine, result]
    split <;> rfl

/-- The two refusals of a free. -/
def RefusesFree (map : DhdPktidMap) (nkey : Nat) (pkttype : DhdPkttype) : Prop :=
  (map.lockers nkey).state = .isFree ∨
    (pkttype ≠ .noCheck ∧ (map.lockers nkey).pkttype ≠ pkttype)

/-- What the locker of a key gives back, by what happened last to the key. -/
theorem Recorded.freed {map : DhdPktidMap} {history : List (PktidCall × PktidAnswer)}
    (recorded : Recorded map history) {nkey : Nat} (low : 1 ≤ nkey) (high : nkey ≤ map.items)
    {pkttype : DhdPkttype} (rsvLocker : Bool) (accepted : ¬ RefusesFree map nkey pkttype) :
    ∃ contents, (dhdPktidMapFree map nkey pkttype rsvLocker).2 =
        ((map.lockers nkey).pkt, some contents) ∧
      match slotOf history nkey with
      | .free => False
      | .reserved pkt => (map.lockers nkey).pkt = pkt ∧ contents.len = 0
      | .saved params => latestSave history nkey = some params ∧
          (map.lockers nkey).pkt = params.pkt ∧
          contents = ⟨params.pa, params.len % 2 ^ 16, params.dmah, params.secdma⟩
      | .vacant => (map.lockers nkey).pkt = none ∧ contents.len = 0 := by
  have holds := recorded.holds nkey low high
  rcases dhdPktidMapFree_cases map nkey pkttype rsvLocker with ⟨refused, -⟩ | ⟨-, result, -⟩
  · exact (accepted refused).elim
  · refine ⟨_, result, ?_⟩
    cases slot : slotOf history nkey with
    | free =>
      rw [slot] at holds
      exact accepted (.inl holds)
    | reserved pkt =>
      rw [slot] at holds
      exact ⟨holds.2.1, holds.2.2⟩
    | saved params =>
      rw [slot] at holds
      refine ⟨recorded.latest nkey params slot, ?_⟩
      rw [show map.lockers nkey = savedLocker params from holds]
      exact ⟨rfl, rfl⟩
    | vacant =>
      rw [slot] at holds
      exact ⟨holds.2.1, holds.2.2⟩

/-- From any admitted history: the stack lists the free lockers; a request fails
exactly when none is free; a key is not handed out twice without a free of it in
between; and a free gives back what was last put under the key or refuses and
changes nothing. -/
theorem pktid_map_is_store (numItems : Nat) (positive : 1 ≤ numItems)
    (bounded : numItems ≤ maxPktidItems) (calls : List PktidCall)
    (admitted : pktidMachine.Admitted (dhdPktidMapInit numItems) calls) :
    let map := pktidMachine.run (dhdPktidMapInit numItems) calls
    let history := pktidMachine.history (dhdPktidMapInit numItems) calls
    map.items = numItems ∧ StackListsFreeLockers map ∧
      (∀ call nkey, handedOut map call = some nkey →
        (nkey = dhdPktidInvalid ↔
          ∀ key, 1 ≤ key → key ≤ numItems → (map.lockers key).state ≠ .isFree) ∧
        (nkey ≠ dhdPktidInvalid → 1 ≤ nkey ∧ nkey ≤ numItems)) ∧
      (∀ first nkey between second, handedOut map first = some nkey → nkey ≠ dhdPktidInvalid →
        pktidMachine.Admitted map (first :: between) → (∀ call ∈ between, ¬ FreesKey nkey call) →
        handedOut (pktidMachine.run map (first :: between)) second ≠ some nkey) ∧
      (∀ nkey pkttype rsvLocker, 1 ≤ nkey → nkey ≤ numItems →
        (RefusesFree map nkey pkttype →
          dhdPktidMapFree map nkey pkttype rsvLocker = (map, none, none)) ∧
        (¬ RefusesFree map nkey pkttype →
          ∃ pkt contents, (dhdPktidMapFree map nkey pkttype rsvLocker).2 = (pkt, some contents) ∧
            match slotOf history nkey with
            | .free => False
            | .reserved reservedPkt => pkt = reservedPkt ∧ contents.len = 0
            | .saved params => latestSave history nkey = some params ∧ pkt = params.pkt ∧
                contents = ⟨params.pa, params.len % 2 ^ 16, params.dmah, params.secdma⟩
            | .vacant => pkt = none ∧ contents.len = 0)) := by
  intro map history
  have recorded : Recorded map history := pktid_recorded positive bounded admitted
  have items : map.items = numItems := pktidMachine.run_invariant
    (fun state call same _ => (pktidMachine_items state call).trans same) rfl admitted
  refine ⟨items, recorded.valid.listsFreeLockers, ?_, ?_, ?_⟩
  · intro call nkey handed
    obtain ⟨refused, granted⟩ := handedOut_spec recorded.valid handed
    refine ⟨refused.trans ?_, ?_⟩
    · simp only [FreeKey, items, not_and, ne_eq]
    · intro different
      obtain ⟨low, high, -⟩ := (granted different).1
      exact ⟨low, items ▸ high⟩
  · intro first nkey between second handed different allowed untouched again
    obtain ⟨accepted, remaining⟩ := allowed
    have taken := ((handedOut_spec recorded.valid handed).2 different).2
    have valid := pktidMachine_preserves map first recorded.valid accepted
    obtain ⟨validAfter, used⟩ := pktidMachine.run_invariant_of_allowed stays_used
      ⟨valid, taken⟩ untouched remaining
    exact used ((handedOut_spec validAfter again).2 different).1
  · intro nkey pkttype rsvLocker low high
    constructor
    · intro refuses
      rcases dhdPktidMapFree_cases map nkey pkttype rsvLocker with ⟨-, result⟩ | ⟨accepts, -⟩
      · exact result
      · exact (accepts refuses).elim
    · intro accepts
      obtain ⟨contents, result, given⟩ :=
        recorded.freed low (items.symm ▸ high) rsvLocker accepts
      exact ⟨_, contents, result, given⟩

private def sampleParams : PktParams where
  pkt := some 5
  pa := 0x1000
  len := 0x10040
  dir := 1
  dmah := some 6
  secdma := none
  pkttype := .dataTx

/-- One key: it is refused while the only locker is busy, and the free returns
the saved parameters with the length cut to 16 bits. -/
theorem pktid_map_is_store_one_key :
    let map := pktidMachine.run (dhdPktidMapInit 1) [.alloc sampleParams]
    handedOut map (.reserve none) = some dhdPktidInvalid ∧
      (dhdPktidMapFree map 1 .dataTx false).2 = (some 5, some ⟨0x1000, 0x40, some 6, none⟩) ∧
      (map.lockers 1).state ≠ .isFree := by
  intro map
  obtain ⟨-, -, requests, -, frees⟩ :=
    pktid_map_is_store 1 (by decide) (by decide) [.alloc sampleParams] ⟨trivial, trivial⟩
  have refused : handedOut map (.reserve none) = some dhdPktidInvalid := by decide
  have busy := (requests _ _ refused).1.mp rfl 1 (by decide) (by decide)
  refine ⟨refused, ?_, busy⟩
  have accepts : ¬ RefusesFree map 1 .dataTx := by
    rintro (free | ⟨-, other⟩)
    · exact busy free
    · exact other (by decide)
  obtain ⟨pkt, contents, result, given⟩ := (frees 1 .dataTx false (by decide) (by decide)).2 accepts
  have slot : slotOf (pktidMachine.history (dhdPktidMapInit 1) [.alloc sampleParams]) 1 =
      .saved sampleParams := by decide
  rw [slot] at given
  rw [result, given.2.1, given.2.2]
  rfl

/-- A key that was reserved again but not saved gives back the reserved packet
with the length 0 and the address of an earlier packet, not its latest save. -/
theorem pktid_free_of_reserved_key :
    ¬ ∀ (numItems : Nat) (calls : List PktidCall), 1 ≤ numItems → numItems ≤ maxPktidItems →
      pktidMachine.Admitted (dhdPktidMapInit numItems) calls →
      ∀ nkey pkttype rsvLocker pkt contents, 1 ≤ nkey → nkey ≤ numItems →
        (dhdPktidMapFree (pktidMachine.run (dhdPktidMapInit numItems) calls)
          nkey pkttype rsvLocker).2 = (pkt, some contents) →
        ∃ params, latestSave (pktidMachine.history (dhdPktidMapInit numItems) calls) nkey =
            some params ∧ pkt = params.pkt ∧
          contents = ⟨params.pa, params.len % 2 ^ 16, params.dmah, params.secdma⟩ := by
  intro claim
  have admitted : pktidMachine.Admitted (dhdPktidMapInit 1)
      [.alloc sampleParams, .free 1 .dataTx false, .reserve (some 7)] :=
    ⟨trivial, ⟨by decide, by decide⟩, trivial, trivial⟩
  obtain ⟨params, latest, same, -⟩ := claim 1 _ (by decide) (by decide) admitted 1 .dataTx false
    (some 7) ⟨0x1000, 0, some 6, none⟩ (by decide) (by decide) (by decide)
  have saved : latestSave (pktidMachine.history (dhdPktidMapInit 1)
      [.alloc sampleParams, .free 1 .dataTx false, .reserve (some 7)]) 1 = some sampleParams := by
    decide
  rw [saved] at latest
  obtain rfl := Option.some.inj latest
  simp [sampleParams] at same

end BcmDhd.Msgbuf
