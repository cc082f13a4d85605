import BcmDhd.Lib.Machine
import BcmDhd.Utils.Id16Map

/-! The 16-bit id allocator with its debug bitmap: one flag for each id that says whether the id is
available. -/

namespace BcmDhd.Utils

open BcmDhd.Lib Function

/-- `id16_map_dbg_t`. The flags are memory of the heap: those beyond the managed
ids hold whatever was there. The block has `room` of them, and `intact` tells that
nothing else was written. -/
structure Id16MapDbg where
  total : Nat
  avail : Int → Bool
  room : Nat
  intact : Bool

/-- The allocator and what its `dbg` pointer leads to, if that memory was there. -/
structure Id16Allocator where
  map : Id16Map
  dbg : Option Id16MapDbg

/-- The loop that marks the first `total` flags. -/
def id16MarkAll (totalIds : Nat) (avail : Int → Bool) : Int → Bool := fun idx =>
  if 0 ≤ idx ∧ idx < totalIds then true else avail idx

/-- `id16_map_init` for a start that is an id, with `memory` as the flags' contents
or `none` where they could not be allocated. -/
def id16AllocatorInit (totalIds startVal16 : Nat) (memory : Option (Int → Bool)) : Id16Allocator where
  map := id16MapInit totalIds startVal16
  dbg := memory.map fun avail =>
    { total := totalIds, avail := id16MarkAll totalIds avail, room := totalIds, intact := true }

/-- `id16_map_clear`, with no look at what was allocated. The marker `ID16_UNDEFINED` as start leaves
the stack empty and the flags as they are. -/
def id16AllocatorClear (allocator : Id16Allocator) (totalIds startVal16 : Nat) : Id16Allocator :=
  if startVal16 = id16Invalid then
    { allocator with
      map := { allocator.map with failures := 0, total := totalIds, start := startVal16, stackIdx := -1 } }
  else
    { map :=
        { failures := 0, total := totalIds, start := startVal16, stackIdx := (totalIds : Int) - 1
          stack := fill 0 totalIds (fun idx => startVal16 + idx) allocator.map.stack
          room := allocator.map.room
          intact := allocator.map.intact && decide (totalIds ≤ allocator.map.room) }
      dbg := allocator.dbg.map fun dbg =>
        { dbg with
          total := totalIds, avail := id16MarkAll totalIds dbg.avail
          intact := dbg.intact && decide (totalIds ≤ dbg.room) } }

/-- The flag of an id is set. -/
def id16SetFlag (map : Id16Map) (val16 : Nat) (flag : Bool) (dbg : Id16MapDbg) : Id16MapDbg :=
  let idx := (val16 : Int) - map.start
  { dbg with
    avail := update dbg.avail idx flag
    intact := dbg.intact && decide (0 ≤ idx ∧ idx < dbg.room) }

def id16AllocatorAlloc (allocator : Id16Allocator) : Id16Allocator × Nat :=
  if allocator.map.stackIdx < 0 then
    ({ allocator with map := (id16MapAlloc allocator.map).1 }, id16Invalid)
  else
    let val16 := (id16MapAlloc allocator.map).2
    ({ map := (id16MapAlloc allocator.map).1
       dbg := allocator.dbg.map (id16SetFlag allocator.map val16 false) }, val16)

def id16AllocatorFree (allocator : Id16Allocator) (val16 : Nat) : Id16Allocator :=
  { map := id16MapFree allocator.map val16
    dbg := allocator.dbg.map (id16SetFlag allocator.map val16 true) }

/-- A stacked id whose flag is not set. The flag is looked up at the id itself, not
at its distance from the first id. -/
def id16StackInsane (map : Id16Map) (dbg : Id16MapDbg) : Bool :=
  (List.range (map.stackIdx + 1).toNat).any fun idx => !dbg.avail (map.stack idx)

/-- The number of flags set, in a 16-bit counter. -/
def id16AvailCount (dbg : Id16MapDbg) : Nat :=
  (List.range dbg.total).countP (fun idx : Nat => dbg.avail idx) % 2 ^ 16

def id16CountInsane (map : Id16Map) (dbg : Id16MapDbg) : Bool :=
  id16AvailCount dbg ≠ 0 ∧ (id16AvailCount dbg : Int) ≠ map.stackIdx + 1

/-- `id16_map_audit`: whether an error was found. -/
def id16MapAudit (allocator : Id16Allocator) : Bool :=
  if allocator.map.start = id16Invalid then false
  else
    match allocator.dbg with
    | none => false
    | some dbg => id16StackInsane allocator.map dbg || id16CountInsane allocator.map dbg

inductive Id16Call
  | alloc
  | free (val16 : Nat)
  | clear (totalIds startVal16 : Nat)

/-- Totals and start ids the assertions of `id16_map_init` and `id16_map_clear` let pass. -/
def Id16Accepts (totalIds startVal16 : Nat) : Prop :=
  0 < totalIds ∧ startVal16 + totalIds < id16Invalid

instance (totalIds startVal16 : Nat) : Decidable (Id16Accepts totalIds startVal16) :=
  inferInstanceAs (Decidable (_ ∧ _))

/-- The allocator and the ids handed out and not freed. -/
structure Id16State where
  allocator : Id16Allocator
  out : Finset Nat

/-- Callers free only what they were handed. -/
def id16Machine : Machine Id16State Id16Call (Option Nat) where
  step state
    | .alloc =>
      let taken := id16AllocatorAlloc state.allocator
      ({ allocator := taken.1
         out := if taken.2 = id16Invalid then state.out else insert taken.2 state.out }, some taken.2)
    | .free val16 => (⟨id16AllocatorFree state.allocator val16, state.out.erase val16⟩, none)
    | .clear totalIds startVal16 =>
      (⟨id16AllocatorClear state.allocator totalIds startVal16, ∅⟩, none)
  admits state
    | .alloc => True
    | .free val16 => val16 ∈ state.out
    | .clear totalIds startVal16 => Id16Accepts totalIds startVal16

instance (state : Id16State) (call : Id16Call) : Decidable (id16Machine.admits state call) :=
  match call with
  | .alloc => .isTrue trivial
  | .free val16 => inferInstanceAs (Decidable (val16 ∈ state.out))
  | .clear totalIds startVal16 => inferInstanceAs (Decidable (Id16Accepts totalIds startVal16))

/-- A clear asks for no more ids than the allocation was made for. -/
def Id16Sized (state : Id16State) : Id16Call → Prop
  | .alloc | .free _ => True
  | .clear totalIds _ => totalIds ≤ state.allocator.map.room

instance (state : Id16State) (call : Id16Call) : Decidable (Id16Sized state call) :=
  match call with
  | .alloc | .free _ => .isTrue trivial
  | .clear totalIds _ => inferInstanceAs (Decidable (totalIds ≤ state.allocator.map.room))

/-- Nothing outside the blocks of the map and its flags was accessed. -/
def id16Intact (allocator : Id16Allocator) : Bool :=
  allocator.map.intact && allocator.dbg.all (·.intact)

def id16Start (totalIds startVal16 : Nat) (memory : Option (Int → Bool)) : Id16State :=
  ⟨id16AllocatorInit totalIds startVal16 memory, ∅⟩

/-- The ids an allocator manages. -/
def id16Range (map : Id16Map) : Finset Nat := Finset.Ico map.start (map.start + map.total)

/-- Stack and flags both list the ids that are not out. -/
structure Id16Consistent (state : Id16State) : Prop where
  accepted : Id16Accepts state.allocator.map.total state.allocator.map.start
  held : state.out ⊆ id16Range state.allocator.map
  stack : Id16Valid state.allocator.map
    (fun id => id ∈ id16Range state.allocator.map ∧ id ∉ state.out)
  room : state.allocator.map.total ≤ state.allocator.map.room
  intact : state.allocator.map.intact = true
  dbgTotal : ∀ dbg ∈ state.allocator.dbg, dbg.total = state.allocator.map.total ∧
    dbg.room = state.allocator.map.room ∧ dbg.intact = true
  flags : ∀ dbg ∈ state.allocator.dbg, ∀ id ∈ id16Range state.allocator.map,
    dbg.avail (id - state.allocator.map.start) = true ↔ id ∉ state.out

namespace Id16Consistent

variable {state : Id16State}

theorem mem_range {map : Id16Map} {id : Nat} :
    id ∈ id16Range map ↔ map.start ≤ id ∧ id < map.start + map.total := Finset.mem_Ico

theorem marked (totalIds startVal16 : Nat) (avail : Int → Bool) {id : Nat} (low : startVal16 ≤ id)
    (high : id < startVal16 + totalIds) :
    id16MarkAll totalIds avail ((id : Int) - startVal16) = true :=
  if_pos (by omega)

theorem fresh {allocator : Id16Allocator} {before : Nat → Nat}
    (accepted : Id16Accepts allocator.map.total allocator.map.start)
    (top : allocator.map.stackIdx = (allocator.map.total : Int) - 1)
    (stack : allocator.map.stack =
      fill 0 allocator.map.total (fun idx => allocator.map.start + idx) before)
    (room : allocator.map.total ≤ allocator.map.room) (intact : allocator.map.intact = true)
    (marks : ∀ dbg ∈ allocator.dbg, (dbg.total = allocator.map.total ∧
      dbg.room = allocator.map.room ∧ dbg.intact = true) ∧
      ∃ avail, dbg.avail = id16MarkAll allocator.map.total avail) :
    Id16Consistent ⟨allocator, ∅⟩ := by
  refine ⟨accepted, Finset.empty_subset _, ?_, room, intact, fun dbg found => (marks dbg found).1, ?_⟩
  · refine (Id16Valid.filled top stack).congr fun id => ?_
    rw [mem_range]
    simp
  · intro dbg found id inside
    obtain ⟨-, avail, same⟩ := marks dbg found
    obtain ⟨low, high⟩ := mem_range.mp inside
    simp [same, marked _ _ avail low high]

theorem start {totalIds startVal16 : Nat} (memory : Option (Int → Bool))
    (accepted : Id16Accepts totalIds startVal16) :
    Id16Consistent (id16Start totalIds startVal16 memory) := by
  refine fresh accepted rfl rfl le_rfl rfl ?_
  intro dbg found
  obtain ⟨avail, -, rfl⟩ := Option.map_eq_some_iff.mp found
  exact ⟨⟨rfl, rfl, rfl⟩, avail, rfl⟩

theorem clear (valid : Id16Consistent state) {totalIds startVal16 : Nat}
    (accepted : Id16Accepts totalIds startVal16) (sized : totalIds ≤ state.allocator.map.room) :
    Id16Consistent ⟨id16AllocatorClear state.allocator totalIds startVal16, ∅⟩ := by
  have defined : startVal16 ≠ id16Invalid := by
    obtain ⟨positive, bound⟩ := accepted
    omega
  unfold id16AllocatorClear
  rw [if_neg defined]
  refine fresh accepted rfl rfl sized (by simp [valid.intact, sized]) ?_
  intro dbg found
  obtain ⟨old, before, rfl⟩ := Option.map_eq_some_iff.mp found
  obtain ⟨-, room, intact⟩ := valid.dbgTotal old before
  exact ⟨⟨rfl, room, by simp [room, intact, sized]⟩, old.avail, rfl⟩

/-- The stack is as deep as there are ids that are not out. -/
theorem stackIdx_eq (valid : Id16Consistent state) :
    state.allocator.map.stackIdx + 1 =
      ((id16Range state.allocator.map).filter (· ∉ state.out)).card := by
  obtain ⟨count, top, stack⟩ := valid.stack
  rw [stack.card_eq fun id => Finset.mem_filter, top]
  omega

theorem stackIdx_le (valid : Id16Consistent state) :
    state.allocator.map.stackIdx < state.allocator.map.room := by
  have most := Finset.card_filter_le (id16Range state.allocator.map) (· ∉ state.out)
  have depth := valid.stackIdx_eq
  have room := valid.room
  rw [id16Range, Nat.card_Ico] at most
  rw [id16Range] at depth
  omega

theorem stackIdx_lt (valid : Id16Consistent state) {val16 : Nat} (handedOut : val16 ∈ state.out) :
    state.allocator.map.stackIdx + 1 < state.allocator.map.room := by
  have fewer : ((id16Range state.allocator.map).filter (· ∉ state.out)).card <
      (id16Range state.allocator.map).card := by
    apply Finset.card_lt_card
    exact Finset.filter_ssubset.mpr ⟨val16, valid.held handedOut, not_not_intro handedOut⟩
  have depth := valid.stackIdx_eq
  have room := valid.room
  rw [id16Range, Nat.card_Ico] at fewer
  rw [id16Range] at depth
  omega

theorem setFlag (valid : Id16Consistent state) {val16 : Nat} {flag : Bool} {out : Finset Nat}
    (inside : val16 ∈ id16Range state.allocator.map)
    (own : flag = true ↔ val16 ∉ out)
    (others : ∀ id ≠ val16, id ∉ out ↔ id ∉ state.out) {dbg : Id16MapDbg}
    (found : dbg ∈ state.allocator.dbg.map (id16SetFlag state.allocator.map val16 flag)) :
    (dbg.total = state.allocator.map.total ∧ dbg.room = state.allocator.map.room ∧
      dbg.intact = true) ∧ ∀ id ∈ id16Range state.allocator.map,
      dbg.avail (id - state.allocator.map.start) = true ↔ id ∉ out := by
  obtain ⟨old, before, rfl⟩ := Option.map_eq_some_iff.mp found
  obtain ⟨total, room, intact⟩ := valid.dbgTotal old before
  refine ⟨⟨total, room, ?_⟩, ?_⟩
  · obtain ⟨low, high⟩ := mem_range.mp inside
    have enough := valid.room
    simp only [id16SetFlag, intact, Bool.true_and, decide_eq_true_eq]
    omega
  intro id member
  simp only [id16SetFlag]
  by_cases same : id = val16
  · subst id
    rw [update_self, own]
  · rw [update_of_ne (by omega), valid.flags old before id member, others id same]

theorem free (valid : Id16Consistent state) {val16 : Nat} (handedOut : val16 ∈ state.out) :
    Id16Consistent ⟨id16AllocatorFree state.allocator val16, state.out.erase val16⟩ := by
  have inside := valid.held handedOut
  have range : id16Range (id16AllocatorFree state.allocator val16).map =
      id16Range state.allocator.map := rfl
  have flags := @setFlag state valid val16 true (state.out.erase val16) inside (by simp)
    (fun id different => by simp [different])
  refine ⟨valid.accepted, (Finset.erase_subset _ _).trans valid.held, ?_, valid.room,
    by simp [id16AllocatorFree, id16MapFree, Id16Map.touch, valid.intact, valid.stackIdx_lt handedOut],
    fun dbg found => (flags found).1, fun dbg found => (flags found).2⟩
  refine (valid.stack.free (fun available => available.2 handedOut)).congr fun id => ?_
  rw [range]
  by_cases same : id = val16
  · subst id
    simpa using inside
  · simp [same]

/-- An allocation fails when every id is out, or hands out an id that was not. -/
theorem alloc_cases (valid : Id16Consistent state) :
    (state.out = id16Range state.allocator.map ∧
      (id16AllocatorAlloc state.allocator).2 = id16Invalid ∧
      Id16Consistent ⟨(id16AllocatorAlloc state.allocator).1, state.out⟩) ∨
    ∃ id ∈ id16Range state.allocator.map, id ∉ state.out ∧ id ≠ id16Invalid ∧
      (id16AllocatorAlloc state.allocator).2 = id ∧
      Id16Consistent ⟨(id16AllocatorAlloc state.allocator).1, insert id state.out⟩ := by
  by_cases empty : state.allocator.map.stackIdx < 0
  · have allOut : ∀ id ∈ id16Range state.allocator.map, id ∈ state.out := by
      intro id inside
      by_contra missing
      obtain ⟨idx, below, -⟩ := (valid.stack.available_iff id).mpr ⟨inside, missing⟩
      omega
    have failed : id16AllocatorAlloc state.allocator = (⟨{ state.allocator.map with
        failures := state.allocator.map.failures + 1 }, state.allocator.dbg⟩, id16Invalid) := by
      rw [id16AllocatorAlloc, if_pos empty, id16MapAlloc, if_pos empty]
    refine Or.inl ⟨valid.held.antisymm allOut, by rw [failed], ?_⟩
    rw [failed]
    exact ⟨valid.accepted, valid.held, valid.stack.frame ⟨rfl, rfl⟩, valid.room, valid.intact,
      valid.dbgTotal, valid.flags⟩
  · obtain ⟨inside, missing⟩ := (valid.stack.available_iff
      (state.allocator.map.stack 0)).mp ⟨0, by omega, rfl⟩
    rcases valid.stack.alloc_cases with ⟨none, -⟩ | ⟨id, after, ⟨managed, unused⟩, allocated, stack⟩
    · exact absurd ⟨inside, missing⟩ (none _)
    · have taken : after = { state.allocator.map.touch state.allocator.map.stackIdx with
          stackIdx := state.allocator.map.stackIdx - 1 } := by
        rw [id16MapAlloc, if_neg empty] at allocated
        exact (congrArg Prod.fst allocated).symm
      have succeeded : id16AllocatorAlloc state.allocator =
          (⟨after, state.allocator.dbg.map (id16SetFlag state.allocator.map id false)⟩, id) := by
        rw [id16AllocatorAlloc, if_neg empty, allocated]
      have range : id16Range after = id16Range state.allocator.map := by rw [taken]; rfl
      have flags := @setFlag state valid id false (insert id state.out) managed (by simp)
        (fun other different => by simp [different])
      have bound : id < id16Invalid := by
        have limit := valid.accepted.2
        have high := (mem_range.mp managed).2
        omega
      refine Or.inr ⟨id, managed, unused, Nat.ne_of_lt bound, by rw [succeeded], ?_⟩
      rw [succeeded]
      refine ⟨by rw [taken]; exact valid.accepted, ?_, ?_, by rw [taken]; exact valid.room,
        by simp [taken, Id16Map.touch, valid.intact, valid.stackIdx_le], ?_, ?_⟩
      · rw [range]
        exact Finset.insert_subset managed valid.held
      · refine stack.congr fun other => ?_
        rw [range, Finset.mem_insert]
        tauto
      · intro dbg found
        rw [taken]
        exact (flags found).1
      · intro dbg found
        rw [range, taken]
        exact (flags found).2

theorem preserved : (id16Machine.restrict Id16Sized).Preserves Id16Consistent := by
  intro state call valid ⟨admitted, sized⟩
  cases call with
  | alloc =>
    change Id16Consistent ⟨(id16AllocatorAlloc state.allocator).1, _⟩
    rcases valid.alloc_cases with ⟨-, invalid, after⟩ | ⟨id, -, -, different, taken, after⟩
    · rw [if_pos invalid]
      exact after
    · rw [taken, if_neg different]
      exact after
  | free val16 => exact valid.free admitted
  | clear totalIds startVal16 => exact valid.clear admitted sized

/-- The number of flags set is the number of ids on the stack. -/
theorem availCount_eq (valid : Id16Consistent state) {dbg : Id16MapDbg}
    (found : dbg ∈ state.allocator.dbg) :
    (id16AvailCount dbg : Int) = state.allocator.map.stackIdx + 1 := by
  have stacked := valid.stackIdx_eq
  have total := (valid.dbgTotal dbg found).1
  have shifted : (id16Range state.allocator.map).filter (· ∉ state.out) =
      ((Finset.range dbg.total).filter fun idx : Nat => dbg.avail idx = true).image
        (state.allocator.map.start + ·) := by
    ext id
    rw [Finset.mem_filter, Finset.mem_image]
    constructor
    · rintro ⟨inside, unused⟩
      obtain ⟨low, high⟩ := mem_range.mp inside
      have flag := (valid.flags dbg found id inside).mpr unused
      have index : ((id - state.allocator.map.start : Nat) : Int) =
          id - state.allocator.map.start := by omega
      refine ⟨id - state.allocator.map.start, ?_, by omega⟩
      rw [Finset.mem_filter, Finset.mem_range, index]
      exact ⟨by omega, flag⟩
    · rintro ⟨idx, member, rfl⟩
      obtain ⟨below, flag⟩ := Finset.mem_filter.mp member
      have inside : state.allocator.map.start + idx ∈ id16Range state.allocator.map :=
        mem_range.mpr ⟨by omega, by have := Finset.mem_range.mp below; omega⟩
      have index : ((state.allocator.map.start + idx : Nat) : Int) -
          state.allocator.map.start = idx := by omega
      exact ⟨inside, (valid.flags dbg found _ inside).mp (by rw [index]; exact flag)⟩
  have counted : (List.range dbg.total).countP (fun idx : Nat => dbg.avail idx) =
      ((Finset.range dbg.total).filter fun idx : Nat => dbg.avail idx = true).card := by
    rw [List.countP_eq_length_filter]
    simp only [Finset.card, Finset.filter_val, Finset.range_val, Multiset.range, Multiset.filter_coe,
      Multiset.coe_card, Bool.decide_eq_true]
  have small : (((id16Range state.allocator.map).filter (· ∉ state.out)).card) < 2 ^ 16 := by
    have limit := valid.accepted.2
    have most := Finset.card_filter_le (id16Range state.allocator.map) (· ∉ state.out)
    rw [id16Range, Nat.card_Ico] at most
    rw [id16Range]
    simp only [id16Invalid] at limit
    omega
  have injective : Function.Injective (state.allocator.map.start + · : Nat → Nat) :=
    fun _ _ equal => Nat.add_left_cancel equal
  rw [shifted, Finset.card_image_of_injective _ injective, ← counted] at stacked small
  rw [id16AvailCount, Nat.mod_eq_of_lt small, stacked]

/-- With the bitmap, what the audit reports depends on where it looks for the flags
of the stacked ids. -/
theorem audit_iff (valid : Id16Consistent state) :
    id16MapAudit state.allocator = false ↔ ∀ dbg ∈ state.allocator.dbg, ∀ id,
      Id16Available state.allocator.map id → dbg.avail id = true := by
  have defined : state.allocator.map.start ≠ id16Invalid := by
    obtain ⟨positive, bound⟩ := valid.accepted
    omega
  unfold id16MapAudit
  rw [if_neg defined]
  cases found : state.allocator.dbg with
  | none => simp
  | some dbg =>
    have counted : id16CountInsane state.allocator.map dbg = false := by
      simp [id16CountInsane, valid.availCount_eq found]
    simp only [counted, Bool.or_false, Option.mem_def, Option.some.injEq, forall_eq']
    unfold id16StackInsane
    rw [List.any_eq_false]
    constructor
    · rintro sane id ⟨idx, below, rfl⟩
      simpa using sane idx (List.mem_range.mpr (by omega))
    · intro sane idx inside
      have below := List.mem_range.mp inside
      simpa using sane _ ⟨idx, by omega, rfl⟩

end Id16Consistent

/-- In every run in which no clear outgrows the allocation, the allocator stays in its
blocks, the stack lists each id once, exactly those of the range that are not out, and so
does the bitmap. Allocation fails exactly when all ids are out and never hands an id out
twice. Where the ids begin at zero the audit finds no error. -/
theorem id16_allocator_consistent {totalIds startVal16 : Nat} {memory : Option (Int → Bool)}
    {calls : List Id16Call} {state : Id16State} (accepted : Id16Accepts totalIds startVal16)
    (admitted : (id16Machine.restrict Id16Sized).Admitted (id16Start totalIds startVal16 memory) calls)
    (reached : state = id16Machine.run (id16Start totalIds startVal16 memory) calls) :
    id16Intact state.allocator = true ∧
    (∀ i j : Nat, i ≤ state.allocator.map.stackIdx → j ≤ state.allocator.map.stackIdx →
      state.allocator.map.stack i = state.allocator.map.stack j → i = j) ∧
    (∀ id, id ∈ id16Range state.allocator.map ↔
      Id16Available state.allocator.map id ∨ id ∈ state.out) ∧
    (∀ id, Id16Available state.allocator.map id → id ∉ state.out) ∧
    ((id16AllocatorAlloc state.allocator).2 = id16Invalid ↔
      state.out = id16Range state.allocator.map) ∧
    ((id16AllocatorAlloc state.allocator).2 ≠ id16Invalid →
      (id16AllocatorAlloc state.allocator).2 ∉ state.out) ∧
    (∀ dbg ∈ state.allocator.dbg, ∀ id ∈ id16Range state.allocator.map,
      dbg.avail (id - state.allocator.map.start) = true ↔
        Id16Available state.allocator.map id) ∧
    (state.allocator.map.start = 0 → id16MapAudit state.allocator = false) := by
  have valid : Id16Consistent state := by
    rw [reached, ← Machine.restrict_run]
    exact (id16Machine.restrict Id16Sized).run_invariant Id16Consistent.preserved
      (.start memory accepted) admitted
  have available := valid.stack.available_iff
  refine ⟨?_, ?_, ?_, fun id onStack => ((available id).mp onStack).2, ?_, ?_, ?_, ?_⟩
  · rw [id16Intact, valid.intact, Bool.true_and, Option.all_eq_true]
    exact fun dbg found => (valid.dbgTotal dbg found).2.2
  · obtain ⟨count, top, stack⟩ := valid.stack
    intro i j iBelow jBelow same
    exact stack.distinct i (by omega) j (by omega) same
  · intro id
    rw [available id]
    constructor
    · intro inside
      by_cases held : id ∈ state.out
      · exact Or.inr held
      · exact Or.inl ⟨inside, held⟩
    · rintro (⟨inside, -⟩ | held)
      · exact inside
      · exact valid.held held
  · rcases valid.alloc_cases with ⟨full, invalid, -⟩ | ⟨id, inside, unused, different, taken, -⟩
    · exact ⟨fun _ => full, fun _ => invalid⟩
    · rw [taken]
      refine ⟨fun invalid => absurd invalid different, fun full => ?_⟩
      exact absurd (full ▸ inside) unused
  · rcases valid.alloc_cases with ⟨-, invalid, -⟩ | ⟨id, -, unused, -, taken, -⟩
    · exact fun success => absurd invalid success
    · exact fun _ => taken ▸ unused
  · intro dbg found id inside
    rw [valid.flags dbg found id inside, available id]
    exact ⟨fun unused => ⟨inside, unused⟩, fun onStack => onStack.2⟩
  · intro zero
    apply valid.audit_iff.mpr
    intro dbg found id onStack
    obtain ⟨inside, unused⟩ := (available id).mp onStack
    have flag := (valid.flags dbg found id inside).mpr unused
    simpa [zero] using flag

/-- Three ids from zero, one of them out, one of them freed again. -/
theorem id16_allocator_consistent_three_ids :
    id16MapAudit (id16Machine.run (id16Start 3 0 (some fun _ => false))
      [.alloc, .alloc, .free 2]).allocator = false :=
  (id16_allocator_consistent (by decide) (by decide) rfl).2.2.2.2.2.2.2 (by decide)

/-- Two station ids from one, one of them handed out: the audit looks up the flag of
id 1 at index 1, which belongs to id 2, and reports an error. And a map made for one id and
cleared for two writes behind its block. -/
theorem id16_audit_reports_healthy_map :
    Id16Accepts 2 1 ∧
    id16Machine.Admitted (id16Start 2 1 (some fun _ => true)) [.alloc] ∧
    id16MapAudit (id16Machine.run (id16Start 2 1 (some fun _ => true)) [.alloc]).allocator = true ∧
    id16Machine.Admitted (id16Start 1 0 none) [.clear 2 0] ∧
    id16Intact (id16Machine.run (id16Start 1 0 none) [.clear 2 0]).allocator = false := by
  decide

end BcmDhd.Utils
