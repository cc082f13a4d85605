import Mathlib.Data.List.ReduceOption
import BcmDhd.NxAshmem.Areas

namespace BcmDhd.NxAshmem

open BcmDhd.Lib Function

variable {asma : Area} {other : AreaPtr} {block : Handle}

/-- The areas of the list and the blocks that NEXUS has given belong together. -/
structure Held (s : Ashmem) : Prop where
  nodup : s.blockList.Nodup
  objects : s.cache.Nodup
  cached : ∀ a ∈ s.blockList, a ∈ s.cache
  counted : ∀ a ∈ s.blockList, 0 ≤ (s.area a).extRefcnt ∧ (s.area a).extRefcnt < 2 ^ 31
  /-- An address is kept only of a block that may not move. -/
  pinned : ∀ a ∈ s.blockList, (s.area a).pAddress ≠ 0 → (s.area a).movable = 0 ∧ s.locked = true
  /-- A block is locked once while its address is kept. -/
  given : ∀ a ∈ s.blockList, ∀ block, (s.area a).block = some block →
    s.nexus.locks block = some (if (s.area a).pAddress = 0 then 0 else 1)
  owner : ∀ block, s.nexus.locks block ≠ none → ∃ a ∈ s.blockList, (s.area a).block = some block
  single : ∀ a ∈ s.blockList, ∀ other ∈ s.blockList, ∀ block,
    (s.area a).block = some block → (s.area other).block = some block → a = other
  intact : s.nexus.misused = false

/-- An area is on the list while its file is open, and then as long as there are external
references to its block. -/
structure Owned (s : Ashmem) : Prop extends Held s where
  files : s.files.Nodup
  opened : ∀ a ∈ s.files, a ∈ s.blockList ∧ (s.area a).deferFree = false
  deferred : ∀ a ∈ s.blockList, a ∉ s.files →
    (s.area a).deferFree = true ∧ 0 < (s.area a).extRefcnt ∧ (s.area a).block.isSome = true

/-- Areas, lists and blocks are the same. -/
structure SameAreas (s after : Ashmem) : Prop where
  locked : after.locked = s.locked
  blockList : after.blockList = s.blockList
  area : after.area = s.area
  cache : after.cache = s.cache
  files : after.files = s.files
  nexus : after.nexus = s.nexus

section

variable {s after : Ashmem} {a : AreaPtr} {marker : UInt32} {add : Bool}

theorem SameAreas.processMarker : SameAreas s (nxAshmemProcessMarker s marker add) := by
  unfold nxAshmemProcessMarker
  split
  · exact ⟨rfl, rfl, rfl, rfl, rfl, rfl⟩
  split
  · exact ⟨rfl, rfl, rfl, rfl, rfl, rfl⟩
  · exact ⟨rfl, rfl, rfl, rfl, rfl, rfl⟩

theorem Held.same (held : Held s) (same : SameAreas s after) : Held after := by
  obtain ⟨locked, blockList, area, cache, files, nexus⟩ := same
  constructor
  · rw [blockList]
    exact held.nodup
  · rw [cache]
    exact held.objects
  · rw [blockList, cache]
    exact held.cached
  · rw [blockList, area]
    exact held.counted
  · rw [blockList, area, locked]
    exact held.pinned
  · rw [blockList, area, nexus]
    exact held.given
  · rw [blockList, area, nexus]
    exact held.owner
  · rw [blockList, area]
    exact held.single
  · rw [nexus]
    exact held.intact

theorem Owned.same (owned : Owned s) (same : SameAreas s after) : Owned after := by
  refine ⟨owned.toHeld.same same, ?_, ?_, ?_⟩
  · rw [same.files]
    exact owned.files
  · rw [same.files, same.blockList, same.area]
    exact owned.opened
  · rw [same.files, same.blockList, same.area]
    exact owned.deferred

theorem setArea_self (s : Ashmem) (a : AreaPtr) (asma : Area) : (s.setArea a asma).area a = asma :=
  update_self ..

theorem setArea_other (differs : other ≠ a) :
    (s.setArea a asma).area other = s.area other := update_of_ne differs ..

theorem setArea_holds (property : Area → Prop) (new : property asma)
    (old : property (s.area other)) : property ((s.setArea a asma).area other) := by
  by_cases same : other = a
  · subst same
    rw [setArea_self]
    exact new
  · rw [setArea_other same]
    exact old

theorem block_setArea (block : asma.block = (s.area a).block) (other : AreaPtr) :
    ((s.setArea a asma).area other).block = (s.area other).block := by
  by_cases same : other = a
  · subst same
    rw [setArea_self]
    exact block
  · rw [setArea_other same]

/-- An area changes, but neither its block nor the address. -/
theorem Held.setArea (held : Held s) (block : asma.block = (s.area a).block)
    (address : asma.pAddress = (s.area a).pAddress) (counted : 0 ≤ asma.extRefcnt ∧ asma.extRefcnt < 2 ^ 31)
    (pinned : asma.pAddress ≠ 0 → asma.movable = 0 ∧ s.locked = true) : Held (s.setArea a asma) := by
  refine ⟨held.nodup, held.objects, held.cached, ?_, ?_, ?_, ?_, ?_, held.intact⟩
  · intro other member
    exact setArea_holds (fun x => 0 ≤ x.extRefcnt ∧ x.extRefcnt < 2 ^ 31) counted (held.counted other member)
  · intro other member
    exact setArea_holds (fun x => x.pAddress ≠ 0 → x.movable = 0 ∧ s.locked = true) pinned
      (held.pinned other member)
  · intro other member found same
    rw [block_setArea block] at same
    have before := held.given other member found same
    by_cases here : other = a
    · subst here
      rw [setArea_self, address]
      exact before
    · rw [setArea_other here]
      exact before
  · intro found given
    obtain ⟨other, member, same⟩ := held.owner found given
    exact ⟨other, member, (block_setArea block other).trans same⟩
  · intro one first two second found same also
    rw [block_setArea block] at same also
    exact held.single one first two second found same also

theorem freeBlock_eq (held : Held s) (member : a ∈ s.blockList)
    (found : (s.area a).block = some block) :
    nxAshmemAsmaFreeBlock s a =
      { s.setArea a { s.area a with pAddress := 0, block := none } with
        nexus := { s.nexus with locks := update s.nexus.locks block none } } := by
  have given := held.given a member block found
  simp only [nxAshmemAsmaFreeBlock, found]
  by_cases address : (s.area a).pAddress = 0
  · rw [if_pos address] at given
    rw [if_neg (fun fixed => fixed.2.2 address), LockedBlocks.free_unlocked given, ← address]
  · rw [if_neg address] at given
    obtain ⟨fixed, locked⟩ := held.pinned a member address
    rw [if_pos ⟨fixed, locked, address⟩, LockedBlocks.free_unlock given]

/-- Freeing the block of an area and taking the area off the list. -/
theorem Held.freed (held : Held s) (member : a ∈ s.blockList) :
    Held ((nxAshmemAsmaFreeBlock s a).listDel a) := by
  have elsewhere : ∀ other ∈ s.blockList.erase a, other ∈ s.blockList ∧ other ≠ a := by
    intro other remains
    exact ⟨List.mem_of_mem_erase remains, (held.nodup.mem_erase_iff.mp remains).1⟩
  cases found : (s.area a).block with
  | none =>
    have same : nxAshmemAsmaFreeBlock s a = s := by
      simp only [nxAshmemAsmaFreeBlock, found]
    rw [same]
    refine ⟨held.nodup.erase a, held.objects, fun other remains => held.cached other (elsewhere other remains).1,
      fun other remains => held.counted other (elsewhere other remains).1,
      fun other remains => held.pinned other (elsewhere other remains).1,
      fun other remains => held.given other (elsewhere other remains).1, ?_, ?_, held.intact⟩
    · intro block given
      obtain ⟨other, among, owns⟩ := held.owner block given
      have differs : other ≠ a := by
        intro here
        rw [here, found] at owns
        cases owns
      exact ⟨other, held.nodup.mem_erase_iff.mpr ⟨differs, among⟩, owns⟩
    · intro one first two second
      exact held.single one (elsewhere one first).1 two (elsewhere two second).1
  | some block =>
    rw [freeBlock_eq held member found]
    have area : ∀ other ∈ s.blockList.erase a, (s.setArea a
        { s.area a with pAddress := 0, block := none }).area other = s.area other := by
      intro other remains
      exact setArea_other (elsewhere other remains).2
    refine ⟨held.nodup.erase a, held.objects, fun other remains =>
      held.cached other (elsewhere other remains).1, ?_, ?_, ?_, ?_,
      ?_, held.intact⟩
    · intro other remains
      change 0 ≤ ((s.setArea a _).area other).extRefcnt ∧ ((s.setArea a _).area other).extRefcnt < 2 ^ 31
      rw [area other remains]
      exact held.counted other (elsewhere other remains).1
    · intro other remains
      change ((s.setArea a _).area other).pAddress ≠ 0 →
        ((s.setArea a _).area other).movable = 0 ∧ s.locked = true
      rw [area other remains]
      exact held.pinned other (elsewhere other remains).1
    · intro other remains owned owns
      obtain ⟨among, differs⟩ := elsewhere other remains
      change ((s.setArea a _).area other).block = some owned at owns
      change update s.nexus.locks block none owned =
        some (if ((s.setArea a _).area other).pAddress = 0 then 0 else 1)
      rw [area other remains] at owns ⊢
      have distinct : owned ≠ block := by
        intro same
        subst same
        exact differs (held.single other among a member owned owns found)
      rw [update_of_ne distinct]
      exact held.given other among owned owns
    · intro owned given
      change update s.nexus.locks block none owned ≠ none at given
      have distinct : owned ≠ block := by
        intro same
        rw [same, update_self] at given
        exact given rfl
      rw [update_of_ne distinct] at given
      obtain ⟨other, among, owns⟩ := held.owner owned given
      have differs : other ≠ a := by
        intro here
        rw [here, found] at owns
        exact distinct (Option.some.inj owns).symm
      refine ⟨other, held.nodup.mem_erase_iff.mpr ⟨differs, among⟩, ?_⟩
      change ((s.setArea a _).area other).block = some owned
      rw [setArea_other differs]
      exact owns
    · intro one first two second owned owns also
      change ((s.setArea a _).area one).block = some owned at owns
      change ((s.setArea a _).area two).block = some owned at also
      rw [area one first] at owns
      rw [area two second] at also
      exact held.single one (elsewhere one first).1 two (elsewhere two second).1 owned owns also

theorem Held.cacheFree (held : Held s) (gone : a ∉ s.blockList) : Held (s.cacheFree a) := by
  refine ⟨held.nodup, held.objects.erase a, fun other member => ?_, held.counted, held.pinned, held.given,
    held.owner, held.single,
    held.intact⟩
  have differs : other ≠ a := by
    intro here
    exact gone (here ▸ member)
  exact (List.mem_erase_of_ne differs).mpr (held.cached other member)

theorem placeBlock_eq (s : Ashmem) (a : AreaPtr) (block : Handle) (addr : Nat) :
    let fixed := (s.area a).movable = 0 ∧ s.locked = true
    placeBlock s a block addr =
      { s.setArea a { s.area a with block := some block, pAddress := if fixed then addr else 0 } with
        nexus := { s.nexus with
          locks := update s.nexus.locks block (some (if fixed then 1 else 0)) } } := by
  intro fixed
  unfold placeBlock
  dsimp only
  have given : (s.nexus.allocate block).locks block = some 0 := update_self ..
  by_cases holds : fixed
  · rw [if_pos holds, if_pos holds, if_pos holds, LockedBlocks.lock_held given]
    simp only [LockedBlocks.allocate, update_idem]
  · rw [if_neg holds, if_neg holds, if_neg holds]
    rfl

/-- A block that nobody has becomes that of an area which has none. -/
theorem Held.placed (held : Held s) (member : a ∈ s.blockList) (without : (s.area a).block = none)
    (fresh : s.nexus.locks block = none) {addr : Nat} (address : addr ≠ 0) :
    Held (placeBlock s a block addr) := by
  have unowned : ∀ other ∈ s.blockList, (s.area other).block ≠ some block := by
    intro other among owns
    rw [held.given other among block owns] at fresh
    cases fresh
  rw [placeBlock_eq]
  refine ⟨held.nodup, held.objects, held.cached, ?_, ?_, ?_, ?_, ?_, held.intact⟩
  · intro other among
    exact setArea_holds (fun x => 0 ≤ x.extRefcnt ∧ x.extRefcnt < 2 ^ 31) (held.counted a member)
      (held.counted other among)
  · intro other among
    refine setArea_holds (fun x => x.pAddress ≠ 0 → x.movable = 0 ∧ s.locked = true) ?_ (held.pinned other among)
    intro kept
    by_contra moves
    exact kept (if_neg moves)
  · intro other among owned owns
    change ((s.setArea a _).area other).block = some owned at owns
    change update s.nexus.locks block _ owned =
      some (if ((s.setArea a _).area other).pAddress = 0 then 0 else 1)
    by_cases here : other = a
    · subst here
      rw [setArea_self] at owns ⊢
      cases owns
      rw [update_self]
      dsimp only
      split
      · rfl
      · rfl
    · rw [setArea_other here] at owns ⊢
      have distinct : owned ≠ block := by
        intro same
        exact unowned other among (same ▸ owns)
      rw [update_of_ne distinct]
      exact held.given other among owned owns
  · intro owned given
    change update s.nexus.locks block _ owned ≠ none at given
    by_cases same : owned = block
    · refine ⟨a, member, ?_⟩
      change ((s.setArea a _).area a).block = some owned
      rw [setArea_self, same]
    · rw [update_of_ne same] at given
      obtain ⟨other, among, owns⟩ := held.owner owned given
      have differs : other ≠ a := by
        intro here
        rw [here, without] at owns
        cases owns
      refine ⟨other, among, ?_⟩
      change ((s.setArea a _).area other).block = some owned
      rw [setArea_other differs]
      exact owns
  · intro one first two second owned owns also
    change ((s.setArea a _).area one).block = some owned at owns
    change ((s.setArea a _).area two).block = some owned at also
    by_cases here : one = a
    · by_cases there : two = a
      · rw [here, there]
      · rw [here, setArea_self] at owns
        rw [setArea_other there] at also
        cases owns
        exact absurd also (unowned two second)
    · rw [setArea_other here] at owns
      by_cases there : two = a
      · rw [there, setArea_self] at also
        cases also
        exact absurd owns (unowned one first)
      · rw [setArea_other there] at also
        exact held.single one first two second owned owns also

/-- Printing changes nothing: a block that may move is locked only for that. -/
theorem dumpAll_eq (held : Held s) : nxAshmemDumpAll s = s := by
  have each : ∀ a ∈ s.blockList, dumpArea s a = s := by
    intro a member
    unfold dumpArea
    cases found : (s.area a).block with
    | none => rfl
    | some block =>
      dsimp only
      split
      · rfl
      rename_i moves
      have address : (s.area a).pAddress = 0 := by
        by_contra kept
        exact moves (held.pinned a member kept).2
      rw [LockedBlocks.unlock_lock (held.given a member block found), ← address]
      simp only [Ashmem.setArea, update_eq_self]
  unfold nxAshmemDumpAll
  generalize s.blockList = list at each
  induction list with
  | nil => rfl
  | cons a rest ih =>
    rw [List.foldl_cons, each a List.mem_cons_self]
    exact ih fun other member => each other (List.mem_cons_of_mem a member)

variable {hdl : Handle} {cnt : UInt32}

theorem count_skips {list : List AreaPtr} {counted : Ashmem × Option AreaPtr}
    (others : ∀ a ∈ list, (counted.1.area a).block ≠ some hdl) :
    list.foldl (countArea hdl cnt) counted = counted := by
  induction list with
  | nil => rfl
  | cons a rest ih =>
    have here : countArea hdl cnt counted a = counted := if_neg (others a List.mem_cons_self)
    rw [List.foldl_cons, here]
    exact ih fun other member => others other (List.mem_cons_of_mem a member)

/-- Only one area of the list has the block. -/
theorem count_list (held : Held s) (member : a ∈ s.blockList) (found : (s.area a).block = some hdl) :
    s.blockList.foldl (countArea hdl cnt) (s, none) =
      (s.setArea a (countReference cnt (s.area a)),
        if (countReference cnt (s.area a)).extRefcnt = 0 ∧ (s.area a).deferFree then some a else none) := by
  obtain ⟨before, after, split⟩ := List.append_of_mem member
  have apart := held.nodup
  rw [split, List.nodup_append] at apart
  obtain ⟨_, rest, disjoint⟩ := apart
  have earlier : ∀ other ∈ before, (s.area other).block ≠ some hdl := by
    intro other among owns
    have same := held.single other (by rw [split]; exact List.mem_append_left _ among) a member hdl owns found
    exact disjoint other among a List.mem_cons_self same
  have later : ∀ other ∈ after, ((s.setArea a (countReference cnt (s.area a))).area other).block ≠ some hdl := by
    intro other among owns
    have differs : other ≠ a := fun here => (List.nodup_cons.mp rest).1 (here ▸ among)
    rw [setArea_other differs] at owns
    have inside : other ∈ s.blockList := by
      rw [split]
      exact List.mem_append_right _ (List.mem_cons_of_mem a among)
    exact differs (held.single other inside a member hdl owns found)
  have here : countArea hdl cnt (s, none) a = (s.setArea a (countReference cnt (s.area a)),
      if (countReference cnt (s.area a)).extRefcnt = 0 ∧ (s.area a).deferFree then some a else none) := if_pos found
  have first : before.foldl (countArea hdl cnt) (s, none) = (s, none) := count_skips earlier
  rw [split, List.foldl_append, first, List.foldl_cons, here, count_skips later]

theorem countReference_counted (asma : Area) :
    0 ≤ (countReference cnt asma).extRefcnt ∧ (countReference cnt asma).extRefcnt < 2 ^ 31 := by
  unfold countReference
  generalize (if cnt = refcntAdd then asma.extRefcnt + 1 else asma.extRefcnt - 1) = moved
  have small := @Int.bmod_lt moved (2 ^ 32) (by decide)
  dsimp only
  split
  · decide
  · omega

/-- Counting a reference does nothing else to the area, and the last one of an area that
was closed frees its block. -/
theorem extRefcnt_cases (held : Held s) :
    (nxAshmemProcessExtRefcnt s hdl cnt).1 = s ∧
        ¬((∃ a ∈ s.blockList, (s.area a).block = some hdl) ∧ (cnt = refcntAdd ∨ cnt = refcntRem)) ∨
      ∃ a ∈ s.blockList, (s.area a).block = some hdl ∧ (cnt = refcntAdd ∨ cnt = refcntRem) ∧
        let last := (countReference cnt (s.area a)).extRefcnt = 0 ∧ (s.area a).deferFree = true
        let counted := s.setArea a (countReference cnt (s.area a))
        (nxAshmemProcessExtRefcnt s hdl cnt).1 =
          if last then (nxAshmemAsmaFreeBlock counted a).listDel a else counted := by
  by_cases matched : ∃ a ∈ s.blockList, (s.area a).block = some hdl
  · by_cases valid : cnt ≠ refcntAdd ∧ cnt ≠ refcntRem
    · refine Or.inl ⟨?_, fun both => both.2.elim valid.1 valid.2⟩
      rw [nxAshmemProcessExtRefcnt, if_neg (not_not.mpr matched), if_pos valid]
    · right
      obtain ⟨a, member, found⟩ := matched
      refine ⟨a, member, found, ?_, ?_⟩
      · by_contra neither
        exact valid (not_or.mp neither)
      · rw [nxAshmemProcessExtRefcnt, if_neg (not_not.mpr ⟨a, member, found⟩), if_neg valid,
          count_list held member found]
        dsimp only
        by_cases last : (countReference cnt (s.area a)).extRefcnt = 0 ∧ (s.area a).deferFree = true
        · rw [if_pos last, if_pos last]
        · rw [if_neg last, if_neg last]
  · refine Or.inl ⟨?_, fun both => matched both.1⟩
    rw [nxAshmemProcessExtRefcnt, if_pos matched]

theorem freeBlock_none (without : (s.area a).block = none) : nxAshmemAsmaFreeBlock s a = s := by
  simp only [nxAshmemAsmaFreeBlock, without]

theorem freeBlock_lists (s : Ashmem) (a : AreaPtr) :
    (nxAshmemAsmaFreeBlock s a).blockList = s.blockList ∧ (nxAshmemAsmaFreeBlock s a).files = s.files ∧
      (nxAshmemAsmaFreeBlock s a).cache = s.cache := by
  unfold nxAshmemAsmaFreeBlock
  dsimp only
  split
  · exact ⟨rfl, rfl, rfl⟩
  split
  · exact ⟨rfl, rfl, rfl⟩
  · exact ⟨rfl, rfl, rfl⟩

theorem freeBlock_other (differs : other ≠ a) :
    (nxAshmemAsmaFreeBlock s a).area other = s.area other := by
  unfold nxAshmemAsmaFreeBlock
  dsimp only
  split
  · rfl
  split
  · exact setArea_other differs
  · exact setArea_other differs

theorem freeBlock_refcnt (s : Ashmem) (a : AreaPtr) :
    ((nxAshmemAsmaFreeBlock s a).area a).extRefcnt = (s.area a).extRefcnt := by
  unfold nxAshmemAsmaFreeBlock
  dsimp only
  split
  · rfl
  split
  · change ((s.setArea a _).area a).extRefcnt = _
    rw [setArea_self]
  · change ((s.setArea a _).area a).extRefcnt = _
    rw [setArea_self]

theorem freeBlock_frees (held : Held s) (member : a ∈ s.blockList) {owned : Handle}
    (given : s.nexus.locks owned ≠ none) (gone : (nxAshmemAsmaFreeBlock s a).nexus.locks owned = none) :
    (s.area a).block = some owned := by
  cases found : (s.area a).block with
  | none =>
    rw [freeBlock_none found] at gone
    exact absurd gone given
  | some block =>
    rw [freeBlock_eq held member found] at gone
    by_cases same : owned = block
    · rw [same]
    · exact absurd ((update_of_ne same none s.nexus.locks).symm.trans gone) given

theorem closeArea_eq (s : Ashmem) (a : AreaPtr) :
    closeArea s a =
      if (s.area a).block.isSome = true ∧ 0 < (s.area a).extRefcnt then
        s.setArea a { s.area a with deferFree := true }
      else ((nxAshmemAsmaFreeBlock s a).listDel a).cacheFree a := by
  unfold closeArea
  dsimp only
  cases found : (s.area a).block with
  | none => rw [freeBlock_none found, if_neg (by decide), if_neg (fun both => absurd both.1 (by decide))]
  | some block =>
    rw [if_pos (show (some block).isSome = true from rfl)]
    by_cases references : 0 < (s.area a).extRefcnt
    · rw [if_pos references, if_pos ⟨rfl, references⟩]
    · rw [if_neg references, if_neg fun both => references both.2]

/-- A block is freed only when its file is closed and nobody refers to it from outside. -/
def FreedRightly (s after : Ashmem) : Prop :=
  ∀ block, s.nexus.locks block ≠ none → after.nexus.locks block = none →
    ∃ a ∈ s.blockList, (s.area a).block = some block ∧ a ∉ after.files ∧ (after.area a).extRefcnt = 0

theorem FreedRightly.of_kept (kept : ∀ block, s.nexus.locks block ≠ none → after.nexus.locks block ≠ none) :
    FreedRightly s after := fun block given gone => absurd gone (kept block given)

theorem Owned.openFile (owned : Owned s) (fresh : a ∉ s.cache) : Owned (nxAshmemOpen s (some a)).1 := by
  have unlisted : a ∉ s.blockList := fun member => fresh (owned.cached a member)
  have unopened : a ∉ s.files := fun member => unlisted (owned.opened a member).1
  have area : ∀ other ∈ s.blockList, (s.setArea a Area.zeroed).area other = s.area other := by
    intro other member
    exact setArea_other fun here => unlisted (here ▸ member)
  have new : (s.setArea a Area.zeroed).area a = .zeroed := setArea_self ..
  refine ⟨⟨List.nodup_cons.mpr ⟨unlisted, owned.nodup⟩, List.nodup_cons.mpr ⟨fresh, owned.objects⟩, ?_, ?_,
    ?_, ?_, ?_, ?_, owned.intact⟩,
    List.nodup_cons.mpr ⟨unopened, owned.files⟩, ?_, ?_⟩
  · intro other member
    rcases List.mem_cons.mp member with rfl | old
    · exact List.mem_cons_self
    · exact List.mem_cons_of_mem a (owned.cached other old)
  · intro other member
    change 0 ≤ ((s.setArea a Area.zeroed).area other).extRefcnt ∧
      ((s.setArea a Area.zeroed).area other).extRefcnt < 2 ^ 31
    rcases List.mem_cons.mp member with rfl | old
    · rw [new]
      exact ⟨by decide, by decide⟩
    · rw [area other old]
      exact owned.counted other old
  · intro other member address
    change ((s.setArea a Area.zeroed).area other).pAddress ≠ 0 at address
    change ((s.setArea a Area.zeroed).area other).movable = 0 ∧ s.locked = true
    rcases List.mem_cons.mp member with rfl | old
    · rw [new] at address
      exact absurd rfl address
    · rw [area other old] at address ⊢
      exact owned.pinned other old address
  · intro other member block found
    change ((s.setArea a Area.zeroed).area other).block = some block at found
    change s.nexus.locks block = some (if ((s.setArea a Area.zeroed).area other).pAddress = 0 then 0 else 1)
    rcases List.mem_cons.mp member with rfl | old
    · rw [new] at found
      cases found
    · rw [area other old] at found ⊢
      exact owned.given other old block found
  · intro block given
    obtain ⟨other, member, found⟩ := owned.owner block given
    exact ⟨other, List.mem_cons_of_mem a member, (congrArg Area.block (area other member)).trans found⟩
  · intro one first two second block found also
    change ((s.setArea a Area.zeroed).area one).block = some block at found
    change ((s.setArea a Area.zeroed).area two).block = some block at also
    rcases List.mem_cons.mp first with rfl | old
    · rw [new] at found
      cases found
    · rcases List.mem_cons.mp second with rfl | older
      · rw [new] at also
        cases also
      · rw [area one old] at found
        rw [area two older] at also
        exact owned.single one old two older block found also
  · intro other member
    change other ∈ a :: s.blockList ∧ ((s.setArea a Area.zeroed).area other).deferFree = false
    rcases List.mem_cons.mp member with rfl | old
    · rw [new]
      exact ⟨List.mem_cons_self, rfl⟩
    · obtain ⟨listed, kept⟩ := owned.opened other old
      rw [area other listed]
      exact ⟨List.mem_cons_of_mem a listed, kept⟩
  · intro other member closed
    change ((s.setArea a Area.zeroed).area other).deferFree = true ∧
      0 < ((s.setArea a Area.zeroed).area other).extRefcnt ∧
      ((s.setArea a Area.zeroed).area other).block.isSome = true
    obtain ⟨differs, shut⟩ := not_or.mp fun either => closed (List.mem_cons.mpr either)
    have old : other ∈ s.blockList := (List.mem_cons.mp member).resolve_left differs
    rw [area other old]
    exact owned.deferred other old shut

theorem Owned.setArea (owned : Owned s) (member : a ∈ s.files)
    (block : asma.block = (s.area a).block) (address : asma.pAddress = (s.area a).pAddress)
    (counted : asma.extRefcnt = (s.area a).extRefcnt) (kept : asma.deferFree = (s.area a).deferFree)
    (pinned : asma.pAddress ≠ 0 → asma.movable = 0 ∧ s.locked = true) : Owned (s.setArea a asma) := by
  obtain ⟨listed, open_⟩ := owned.opened a member
  refine ⟨owned.toHeld.setArea block address (counted ▸ owned.counted a listed) pinned, owned.files, ?_, ?_⟩
  · intro other among
    obtain ⟨also, still⟩ := owned.opened other among
    refine ⟨also, ?_⟩
    by_cases here : other = a
    · rw [here, setArea_self, kept]
      exact open_
    · rw [setArea_other here]
      exact still
  · intro other among closed
    have differs : other ≠ a := fun here => closed (here ▸ member)
    rw [setArea_other differs]
    exact owned.deferred other among closed

theorem Owned.setSize (owned : Owned s) (member : a ∈ s.files) (alloc : Option NxAlloc) :
    Owned (nxAshmemSetSize s a alloc).1 ∧ (nxAshmemSetSize s a alloc).1.nexus = s.nexus := by
  unfold nxAshmemSetSize
  dsimp only
  split
  · exact ⟨owned, rfl⟩
  rename_i address
  split
  · exact ⟨owned, rfl⟩
  · refine ⟨(owned.setArea member ?_ ?_ ?_ ?_ ?_).same SameAreas.processMarker, SameAreas.processMarker.nexus⟩
    · rfl
    · rfl
    · rfl
    · rfl
    · exact fun kept => absurd kept address

/-- What NEXUS gives is one of the blocks it answers with. -/
theorem allocatedBlock_mem {nexus : Nexus}
    (allocated : allocatedBlock s asma nexus = some block) : block ∈ nexus.handles := by
  have from_ : ∀ {use : Prop} [Decidable use] {answer : Option Handle},
      answer ∈ [nexus.altBlock 0, nexus.altBlock 1, nexus.block, nexus.grownBlock] →
      (if use then answer else none) = some block → block ∈ nexus.handles := by
    intro use _ answer member taken
    split at taken
    · rw [taken] at member
      exact List.reduceOption_mem_iff.mpr member
    · cases taken
  unfold allocatedBlock alternateBlock at allocated
  rcases Option.or_eq_some_iff.mp allocated with alternate | ⟨_, main⟩
  · split at alternate
    · cases alternate
    obtain ⟨status, _, chosen⟩ := Option.bind_eq_some_iff.mp alternate
    rcases Option.or_eq_some_iff.mp chosen with first | ⟨_, second⟩
    · exact from_ (by simp) first
    · exact from_ (by simp) second
  · rcases Option.or_eq_some_iff.mp main with plain | ⟨_, grown⟩
    · exact List.reduceOption_mem_iff.mpr (by simp [plain])
    · exact from_ (by simp) grown

theorem Owned.getMem (owned : Owned s) (member : a ∈ s.files) {nexus : Nexus} (address : nexus.addr ≠ 0)
    (fresh : ∀ block ∈ nexus.handles, s.nexus.locks block = none) :
    Owned (nxAshmemMmap s a nexus).1 ∧ FreedRightly s (nxAshmemMmap s a nexus).1 := by
  have unchanged : Owned s ∧ FreedRightly s s := ⟨owned, .of_kept fun _ given => given⟩
  unfold nxAshmemMmap
  dsimp only
  split
  · exact unchanged
  cases found : (s.area a).block with
  | some block => exact unchanged
  | none =>
    dsimp only
    cases allocated : allocatedBlock s (s.area a) nexus with
    | none => exact unchanged
    | some block =>
      dsimp only
      obtain ⟨listed, open_⟩ := owned.opened a member
      have unowned := fresh block (allocatedBlock_mem allocated)
      refine ⟨⟨owned.toHeld.placed listed found unowned address, ?_, ?_, ?_⟩, ?_⟩
      · rw [placeBlock_eq]
        exact owned.files
      · rw [placeBlock_eq]
        intro other among
        obtain ⟨also, still⟩ := owned.opened other among
        exact ⟨also, setArea_holds (fun x => x.deferFree = false) open_ still⟩
      · rw [placeBlock_eq]
        intro other among closed
        have differs : other ≠ a := fun here => closed (here ▸ member)
        change ((s.setArea a _).area other).deferFree = true ∧ 0 < ((s.setArea a _).area other).extRefcnt ∧
          ((s.setArea a _).area other).block.isSome = true
        rw [setArea_other differs]
        exact owned.deferred other among closed
      · rw [placeBlock_eq]
        refine .of_kept fun owned given => ?_
        change update s.nexus.locks block _ owned ≠ none
        by_cases same : owned = block
        · rw [same, update_self]
          exact Option.some_ne_none _
        · rw [update_of_ne same]
          exact given

theorem Owned.extRefcnt (owned : Owned s) :
    Owned (nxAshmemProcessExtRefcnt s hdl cnt).1 ∧ FreedRightly s (nxAshmemProcessExtRefcnt s hdl cnt).1 := by
  rcases extRefcnt_cases owned.toHeld with ⟨same, _⟩ | ⟨a, member, found, _, step⟩
  · rw [same]
    exact ⟨owned, .of_kept fun _ given => given⟩
  rw [step]
  have counted : Held (s.setArea a (countReference cnt (s.area a))) :=
    owned.toHeld.setArea rfl rfl (countReference_counted _) (owned.pinned a member)
  have self := setArea_self s a (countReference cnt (s.area a))
  by_cases last : (countReference cnt (s.area a)).extRefcnt = 0 ∧ (s.area a).deferFree = true
  · rw [if_pos last]
    have closed : a ∉ s.files := by
      intro still
      rw [(owned.opened a still).2] at last
      cases last.2
    obtain ⟨blockList, files, cache⟩ := freeBlock_lists (s.setArea a (countReference cnt (s.area a))) a
    have area : ∀ other, other ≠ a →
        ((nxAshmemAsmaFreeBlock (s.setArea a (countReference cnt (s.area a))) a).listDel a).area other =
          s.area other := by
      intro other differs
      exact (freeBlock_other differs).trans (setArea_other differs)
    refine ⟨⟨counted.freed member, ?_, ?_, ?_⟩, ?_⟩
    · exact files ▸ owned.files
    · intro other among
      have before : other ∈ s.files := files ▸ among
      obtain ⟨listed, kept⟩ := owned.opened other before
      have differs : other ≠ a := fun here => closed (here ▸ before)
      refine ⟨?_, (congrArg Area.deferFree (area other differs)).trans kept⟩
      change other ∈ (nxAshmemAsmaFreeBlock _ a).blockList.erase a
      rw [blockList]
      exact (List.mem_erase_of_ne differs).mpr listed
    · intro other among shut
      change other ∈ (nxAshmemAsmaFreeBlock _ a).blockList.erase a at among
      rw [blockList] at among
      obtain ⟨differs, listed⟩ := owned.nodup.mem_erase_iff.mp among
      rw [area other differs]
      exact owned.deferred other listed fun still => shut (files.symm ▸ still)
    · intro block given gone
      have owns := freeBlock_frees counted member given gone
      rw [self] at owns
      refine ⟨a, member, owns, fun still => closed (files ▸ still), ?_⟩
      refine (freeBlock_refcnt _ a).trans ?_
      rw [self]
      exact last.1
  · rw [if_neg last]
    refine ⟨⟨counted, owned.files, ?_, ?_⟩, .of_kept fun _ given => given⟩
    · intro other among
      obtain ⟨listed, kept⟩ := owned.opened other among
      refine ⟨listed, ?_⟩
      by_cases here : other = a
      · rw [here, self]
        exact here ▸ kept
      · rw [setArea_other here]
        exact kept
    · intro other among shut
      obtain ⟨deferFree, references, holds⟩ := owned.deferred other among shut
      by_cases here : other = a
      · subst here
        rw [self]
        have left := @countReference_counted cnt (s.area other)
        have nonzero : ¬(countReference cnt (s.area other)).extRefcnt = 0 := fun none_ => last ⟨none_, deferFree⟩
        exact ⟨deferFree, by omega, holds⟩
      · rw [setArea_other here]
        exact ⟨deferFree, references, holds⟩

theorem Owned.closeArea (owned : Owned s) (member : a ∈ s.files) :
    Owned (closeArea { s with files := s.files.erase a } a) ∧
      FreedRightly s (closeArea { s with files := s.files.erase a } a) := by
  obtain ⟨listed, _⟩ := owned.opened a member
  have held : Held { s with files := s.files.erase a } :=
    ⟨owned.nodup, owned.objects, owned.cached, owned.counted, owned.pinned, owned.given, owned.owner,
      owned.single, owned.intact⟩
  have shut : a ∉ s.files.erase a := fun still => (owned.files.mem_erase_iff.mp still).1 rfl
  rw [closeArea_eq]
  by_cases kept : (s.area a).block.isSome = true ∧ 0 < (s.area a).extRefcnt
  · rw [if_pos kept]
    refine ⟨⟨held.setArea rfl rfl (owned.counted a listed) (owned.pinned a listed), owned.files.erase a, ?_, ?_⟩,
      .of_kept fun _ given => given⟩
    · intro other among
      obtain ⟨differs, still⟩ := owned.files.mem_erase_iff.mp among
      obtain ⟨also, open_⟩ := owned.opened other still
      exact ⟨also, (congrArg Area.deferFree (setArea_other differs)).trans open_⟩
    · intro other among closed
      by_cases here : other = a
      · subst here
        rw [setArea_self]
        exact ⟨rfl, kept.2, kept.1⟩
      · rw [setArea_other here]
        exact owned.deferred other among fun still => closed ((List.mem_erase_of_ne here).mpr still)
  · rw [if_neg kept]
    obtain ⟨blockList, files, _⟩ := freeBlock_lists { s with files := s.files.erase a } a
    have gone : a ∉ ((nxAshmemAsmaFreeBlock { s with files := s.files.erase a } a).listDel a).blockList := by
      change a ∉ (nxAshmemAsmaFreeBlock _ a).blockList.erase a
      rw [blockList]
      exact fun still => (owned.nodup.mem_erase_iff.mp still).1 rfl
    refine ⟨⟨(held.freed listed).cacheFree gone, ?_, ?_, ?_⟩, ?_⟩
    · change (nxAshmemAsmaFreeBlock { s with files := s.files.erase a } a).files.Nodup
      rw [files]
      exact owned.files.erase a
    · intro other among
      change other ∈ (nxAshmemAsmaFreeBlock { s with files := s.files.erase a } a).files at among
      rw [files] at among
      obtain ⟨differs, still⟩ := owned.files.mem_erase_iff.mp among
      obtain ⟨also, open_⟩ := owned.opened other still
      refine ⟨?_, (congrArg Area.deferFree (freeBlock_other differs)).trans open_⟩
      change other ∈ (nxAshmemAsmaFreeBlock _ a).blockList.erase a
      rw [blockList]
      exact (List.mem_erase_of_ne differs).mpr also
    · intro other among closed
      change other ∈ (nxAshmemAsmaFreeBlock _ a).blockList.erase a at among
      rw [blockList] at among
      obtain ⟨differs, also⟩ := owned.nodup.mem_erase_iff.mp among
      change other ∉ (nxAshmemAsmaFreeBlock { s with files := s.files.erase a } a).files at closed
      rw [files] at closed
      have area := freeBlock_other (s := { s with files := s.files.erase a }) differs
      change ((nxAshmemAsmaFreeBlock { s with files := s.files.erase a } a).area other).deferFree = true ∧
        0 < ((nxAshmemAsmaFreeBlock { s with files := s.files.erase a } a).area other).extRefcnt ∧
        ((nxAshmemAsmaFreeBlock { s with files := s.files.erase a } a).area other).block.isSome = true
      rw [area]
      exact owned.deferred other also fun still => closed ((List.mem_erase_of_ne differs).mpr still)
    · intro block given lost
      have owns := freeBlock_frees held listed given lost
      refine ⟨a, listed, owns, ?_, ?_⟩
      · change a ∉ (nxAshmemAsmaFreeBlock { s with files := s.files.erase a } a).files
        rw [files]
        exact shut
      · refine (freeBlock_refcnt _ a).trans ?_
        by_contra nonzero
        have counted := owned.counted a listed
        change ¬(s.area a).extRefcnt = 0 at nonzero
        refine kept ⟨?_, by omega⟩
        rw [show (s.area a).block = some block from owns]
        rfl

theorem Owned.release (owned : Owned s) (member : a ∈ s.files) :
    Owned (nxAshmemRelease s a) ∧ FreedRightly s (nxAshmemRelease s a) := by
  obtain ⟨closed, freed⟩ := owned.closeArea member
  unfold nxAshmemRelease
  dsimp only
  split
  · refine ⟨closed.same SameAreas.processMarker, ?_⟩
    intro block given gone
    rw [SameAreas.processMarker.nexus] at gone
    obtain ⟨b, listed, owns, shut, none_⟩ := freed block given gone
    refine ⟨b, listed, owns, ?_, ?_⟩
    · rw [SameAreas.processMarker.files]
      exact shut
    · rw [SameAreas.processMarker.area]
      exact none_
  · exact ⟨closed, freed⟩

end

theorem ashmem_call {s : Ashmem} (owned : Owned s) (call : AshmemCall) (admitted : ashmem.admits s call) :
    Owned (ashmem.next s call) ∧ FreedRightly s (ashmem.next s call) := by
  have unchanged : Owned s ∧ FreedRightly s s := ⟨owned, .of_kept fun _ given => given⟩
  cases call with
  | openFile object =>
    cases object with
    | none => exact unchanged
    | some a => exact ⟨owned.openFile admitted, .of_kept fun _ given => given⟩
  | setSize a alloc =>
    obtain ⟨sized, nexus⟩ := owned.setSize admitted alloc
    refine ⟨sized, .of_kept fun block given => ?_⟩
    change (nxAshmemSetSize s a alloc).1.nexus.locks block ≠ none
    rw [nexus]
    exact given
  | getMem a nexus => exact owned.getMem admitted.1 admitted.2.1 admitted.2.2
  | extRefcnt hdl cnt => exact owned.extRefcnt
  | dumpAll =>
    change Owned (nxAshmemDumpAll s) ∧ FreedRightly s (nxAshmemDumpAll s)
    rw [dumpAll_eq owned.toHeld]
    exact unchanged
  | mgrCfg cfg altHeap =>
    exact ⟨owned.same ⟨rfl, rfl, rfl, rfl, rfl, rfl⟩, .of_kept fun _ given => given⟩
  | release a => exact owned.release admitted

theorem ashmem_owned : ashmem.Preserves Owned := fun _ call owned admitted => (ashmem_call owned call admitted).1

theorem ashmemStart_owned (locked : Bool) (gfxHeap gfxFbHeap : Nat) (gfxHeapDyn : Bool) :
    Owned (ashmemStart locked gfxHeap gfxFbHeap gfxHeapDyn) := by
  refine ⟨⟨List.nodup_nil, List.nodup_nil, ?_, ?_, ?_, ?_, ?_, ?_, rfl⟩, List.nodup_nil, ?_, ?_⟩
  · exact fun _ member => absurd member List.not_mem_nil
  · exact fun _ member => absurd member List.not_mem_nil
  · exact fun _ member => absurd member List.not_mem_nil
  · exact fun _ member => absurd member List.not_mem_nil
  · exact fun _ given => absurd rfl given
  · exact fun _ member => absurd member List.not_mem_nil
  · exact fun _ member => absurd member List.not_mem_nil
  · exact fun _ member => absurd member List.not_mem_nil

/-- The blocks in state `s`, and what the next call may do to them. -/
structure BlocksKept (s : Ashmem) : Prop where
  /-- No block was freed twice or while locked, and no lock was opened that was not closed. -/
  intact : s.nexus.misused = false
  /-- The block of an area whose file is open or that is referred to has not been freed. -/
  held : ∀ a ∈ s.files, ∀ block, (s.area a).block = some block → s.nexus.locks block ≠ none
  referred : ∀ a ∈ s.blockList, 0 < (s.area a).extRefcnt → ∀ block, (s.area a).block = some block →
    s.nexus.locks block ≠ none
  /-- What has not been freed belongs to an area that is open or referred to. -/
  needed : ∀ block, s.nexus.locks block ≠ none →
    ∃ a ∈ s.blockList, (s.area a).block = some block ∧ (a ∈ s.files ∨ 0 < (s.area a).extRefcnt)
  single : ∀ a ∈ s.blockList, ∀ other ∈ s.blockList, ∀ block,
    (s.area a).block = some block → (s.area other).block = some block → a = other
  freed : ∀ call, ashmem.admits s call → FreedRightly s (ashmem.next s call)

/-- In every run, each block that NEXUS gave is kept as long as it is needed, then freed
once and unlocked, and no longer kept. -/
theorem ashmem_blocks_kept (locked : Bool) (gfxHeap gfxFbHeap : Nat) (gfxHeapDyn : Bool) (calls : List AshmemCall)
    (admitted : ashmem.Admitted (ashmemStart locked gfxHeap gfxFbHeap gfxHeapDyn) calls) :
    BlocksKept (ashmem.run (ashmemStart locked gfxHeap gfxFbHeap gfxHeapDyn) calls) := by
  have owned := ashmem.run_invariant ashmem_owned (ashmemStart_owned locked gfxHeap gfxFbHeap gfxHeapDyn) admitted
  generalize ashmem.run (ashmemStart locked gfxHeap gfxFbHeap gfxHeapDyn) calls = s at owned
  have given : ∀ a ∈ s.blockList, ∀ block, (s.area a).block = some block → s.nexus.locks block ≠ none := by
    intro a member block found none_
    rw [owned.given a member block found] at none_
    cases none_
  refine ⟨owned.intact, fun a open_ => given a (owned.opened a open_).1, fun a member _ => given a member, ?_,
    owned.single, fun call allowed => (ashmem_call owned call allowed).2⟩
  intro block kept
  obtain ⟨a, member, found⟩ := owned.owner block kept
  refine ⟨a, member, found, ?_⟩
  by_cases open_ : a ∈ s.files
  · exact Or.inl open_
  · exact Or.inr (owned.deferred a member open_).2.1

/-- NEXUS gives a block of its main heap. -/
def givesBlock (block : Handle) : Nexus :=
  { mainStatus := none, altStatus := fun _ => none, altBlock := fun _ => none, block := some block
    grows := false, grownBlock := none, addr := 4096 }

/-- A file gets a block that is referred to from outside when the file is closed. -/
def outlivedFile : List AshmemCall :=
  [.openFile (some 1), .setSize 1 (some ⟨100, 4, 0, markerVideoDecoder, 0⟩), .getMem 1 (givesBlock 7),
    .extRefcnt 7 refcntAdd, .release 1]

theorem outlivedFile_admitted : ashmem.Admitted (ashmemStart true 0 1 true) outlivedFile := by
  decide +kernel

theorem ashmem_blocks_kept_outlived : BlocksKept (ashmem.run (ashmemStart true 0 1 true) outlivedFile) :=
  ashmem_blocks_kept true 0 1 true outlivedFile outlivedFile_admitted

end BcmDhd.NxAshmem
