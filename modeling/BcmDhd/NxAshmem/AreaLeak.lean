import BcmDhd.NxAshmem.BlockLifetime

namespace BcmDhd.NxAshmem

open BcmDhd.Lib

/-- The objects taken from the cache are those on the list, which are open or referred to. -/
structure NoLeak (s : Ashmem) : Prop where
  listed : ∀ a, a ∈ s.cache ↔ a ∈ s.blockList
  used : ∀ a ∈ s.cache, a ∈ s.blockList ↔
    a ∈ s.files ∨ (s.area a).deferFree = true ∧ 0 < (s.area a).extRefcnt

/-- The last reference to the block of an area whose file has been closed goes away: it is
the only one, or there are so many that their number overflows. -/
def LastReference (s : Ashmem) : AshmemCall → Prop
  | .extRefcnt hdl cnt => ∃ a ∈ s.blockList, a ∉ s.files ∧ (s.area a).block = some hdl ∧
      (cnt = refcntRem ∧ (s.area a).extRefcnt = 1 ∨ cnt = refcntAdd ∧ (s.area a).extRefcnt = 2 ^ 31 - 1)
  | _ => False

section

variable {s after : Ashmem} {a : AreaPtr} {hdl : Handle} {cnt : UInt32}

theorem noLeak_iff (owned : Owned s) : NoLeak s ↔ ∀ a, a ∈ s.cache ↔ a ∈ s.blockList := by
  constructor
  · exact NoLeak.listed
  · intro listed
    refine ⟨listed, fun a object => iff_of_true ((listed a).mp object) ?_⟩
    by_cases open_ : a ∈ s.files
    · exact Or.inl open_
    · obtain ⟨deferFree, references, _⟩ := owned.deferred a ((listed a).mp object) open_
      exact Or.inr ⟨deferFree, references⟩

theorem countReference_zero_iff {asma : Area} (references : 0 < asma.extRefcnt) (small : asma.extRefcnt < 2 ^ 31)
    (valid : cnt = refcntAdd ∨ cnt = refcntRem) :
    (countReference cnt asma).extRefcnt = 0 ↔
      cnt = refcntRem ∧ asma.extRefcnt = 1 ∨ cnt = refcntAdd ∧ asma.extRefcnt = 2 ^ 31 - 1 := by
  unfold countReference
  simp only [Int.bmod_def]
  rcases valid with rfl | rfl
  · have differs : ¬refcntAdd = refcntRem := by decide
    simp only [if_true, differs, false_and, true_and, false_or]
    split
    · omega
    · omega
  · have differs : ¬refcntRem = refcntAdd := by decide
    simp only [differs, if_false, false_and, true_and, or_false]
    split
    · omega
    · omega

theorem lastReference_iff (owned : Owned s) (member : a ∈ s.blockList) (found : (s.area a).block = some hdl)
    (valid : cnt = refcntAdd ∨ cnt = refcntRem) :
    LastReference s (.extRefcnt hdl cnt) ↔
      (countReference cnt (s.area a)).extRefcnt = 0 ∧ (s.area a).deferFree = true := by
  constructor
  · intro last
    obtain ⟨other, among, closed, owns, kind⟩ := last
    cases owned.single other among a member hdl owns found
    obtain ⟨deferFree, references, _⟩ := owned.deferred a member closed
    exact ⟨(countReference_zero_iff references (owned.counted a member).2 valid).mpr kind, deferFree⟩
  · intro last
    have closed : a ∉ s.files := by
      intro open_
      rw [(owned.opened a open_).2] at last
      cases last.2
    obtain ⟨_, references, _⟩ := owned.deferred a member closed
    exact ⟨a, member, closed, found,
      (countReference_zero_iff references (owned.counted a member).2 valid).mp last.1⟩

/-- Counting references leaks an area exactly with the last one. -/
theorem extRefcnt_leaks_iff (owned : Owned s) (listed : ∀ a, a ∈ s.cache ↔ a ∈ s.blockList) :
    (∀ a, a ∈ (nxAshmemProcessExtRefcnt s hdl cnt).1.cache ↔
      a ∈ (nxAshmemProcessExtRefcnt s hdl cnt).1.blockList) ↔ ¬LastReference s (.extRefcnt hdl cnt) := by
  rcases @extRefcnt_cases s hdl cnt owned.toHeld with ⟨same, nothing⟩ | ⟨a, member, found, valid, step⟩
  · rw [same]
    refine iff_of_true listed fun last => nothing ?_
    obtain ⟨a, member, _, found, kind⟩ := last
    exact ⟨⟨a, member, found⟩, kind.elim (fun removed => Or.inr removed.1) fun added => Or.inl added.1⟩
  · rw [step, lastReference_iff owned member found valid]
    by_cases last : (countReference cnt (s.area a)).extRefcnt = 0 ∧ (s.area a).deferFree = true
    · rw [if_pos last]
      refine iff_of_false ?_ (not_not.mpr last)
      intro all
      obtain ⟨blockList, _, cache⟩ := freeBlock_lists (s.setArea a (countReference cnt (s.area a))) a
      have gone := (all a).mp (by
        change a ∈ (nxAshmemAsmaFreeBlock _ a).cache
        rw [cache]
        exact owned.cached a member)
      change a ∈ (nxAshmemAsmaFreeBlock _ a).blockList.erase a at gone
      rw [blockList] at gone
      exact (owned.nodup.mem_erase_iff.mp gone).1 rfl
    · rw [if_neg last]
      exact iff_of_true listed last

theorem release_listed (owned : Owned s) (listed : ∀ a, a ∈ s.cache ↔ a ∈ s.blockList) (b : AreaPtr) :
    b ∈ (nxAshmemRelease s a).cache ↔ b ∈ (nxAshmemRelease s a).blockList := by
  have closed : b ∈ (closeArea { s with files := s.files.erase a } a).cache ↔
      b ∈ (closeArea { s with files := s.files.erase a } a).blockList := by
    rw [closeArea_eq]
    split
    · exact listed b
    · obtain ⟨blockList, _, cache⟩ := freeBlock_lists { s with files := s.files.erase a } a
      change b ∈ (nxAshmemAsmaFreeBlock _ a).cache.erase a ↔ b ∈ (nxAshmemAsmaFreeBlock _ a).blockList.erase a
      rw [blockList, cache, owned.objects.mem_erase_iff, owned.nodup.mem_erase_iff]
      exact and_congr_right fun _ => listed b
  unfold nxAshmemRelease
  dsimp only
  split
  · rw [SameAreas.processMarker.cache, SameAreas.processMarker.blockList]
    exact closed
  · exact closed

/-- One call leaks no area, unless it takes the last reference to a closed one. -/
theorem call_leaks_iff (owned : Owned s) (none_ : NoLeak s) (call : AshmemCall) (admitted : ashmem.admits s call) :
    NoLeak (ashmem.next s call) ↔ ¬LastReference s call := by
  have listed := none_.listed
  rw [noLeak_iff (ashmem_call owned call admitted).1]
  cases call with
  | openFile object =>
    refine iff_of_true (fun b => ?_) id
    cases object with
    | none => exact listed b
    | some a =>
      change b ∈ a :: s.cache ↔ b ∈ a :: s.blockList
      rw [List.mem_cons, List.mem_cons, listed b]
  | setSize a alloc =>
    refine iff_of_true (fun b => ?_) id
    change b ∈ (nxAshmemSetSize s a alloc).1.cache ↔ b ∈ (nxAshmemSetSize s a alloc).1.blockList
    unfold nxAshmemSetSize
    dsimp only
    split
    · exact listed b
    split
    · exact listed b
    · rw [SameAreas.processMarker.cache, SameAreas.processMarker.blockList]
      exact listed b
  | getMem a nexus =>
    refine iff_of_true (fun b => ?_) id
    change b ∈ (nxAshmemMmap s a nexus).1.cache ↔ b ∈ (nxAshmemMmap s a nexus).1.blockList
    unfold nxAshmemMmap
    dsimp only
    split
    · exact listed b
    split
    · exact listed b
    split
    · rw [placeBlock_eq]
      exact listed b
    · exact listed b
  | extRefcnt hdl cnt => exact extRefcnt_leaks_iff owned listed
  | dumpAll =>
    refine iff_of_true (fun b => ?_) id
    change b ∈ (nxAshmemDumpAll s).cache ↔ b ∈ (nxAshmemDumpAll s).blockList
    rw [dumpAll_eq owned.toHeld]
    exact listed b
  | mgrCfg cfg altHeap => exact iff_of_true (fun b => listed b) id
  | release a => exact iff_of_true (fun b => release_listed owned listed b) id

end

/-- All along a run no area leaks, exactly if no call takes the last reference to the block
of an area whose file was closed before. -/
theorem ashmem_leaks_iff (locked : Bool) (gfxHeap gfxFbHeap : Nat) (gfxHeapDyn : Bool) (calls : List AshmemCall)
    (admitted : ashmem.Admitted (ashmemStart locked gfxHeap gfxFbHeap gfxHeapDyn) calls) :
    let reached := ashmem.run (ashmemStart locked gfxHeap gfxFbHeap gfxHeapDyn)
    (∀ past rest, calls = past ++ rest → NoLeak (reached past)) ↔
      ∀ past call rest, calls = past ++ call :: rest → ¬LastReference (reached past) call := by
  have owned := ashmemStart_owned locked gfxHeap gfxFbHeap gfxHeapDyn
  have begins : NoLeak (ashmemStart locked gfxHeap gfxFbHeap gfxHeapDyn) :=
    (noLeak_iff owned).mpr fun _ => Iff.rfl
  exact ashmem.always_iff ashmem_owned
    (fun s call owned none_ admitted => call_leaks_iff owned none_ call admitted) owned begins admitted

theorem ashmem_leaks_iff_outlived :
    (∀ past rest, outlivedFile = past ++ rest → NoLeak (ashmem.run (ashmemStart true 0 1 true) past)) ↔
      ∀ past call rest, outlivedFile = past ++ call :: rest →
        ¬LastReference (ashmem.run (ashmemStart true 0 1 true) past) call :=
  ashmem_leaks_iff true 0 1 true outlivedFile outlivedFile_admitted

/-- The last reference to a closed file's block frees the block, and the area is lost. -/
theorem last_reference_leaks :
    let s := ashmem.run (ashmemStart true 0 1 true) (outlivedFile ++ [.extRefcnt 7 refcntRem])
    ashmem.Admitted (ashmemStart true 0 1 true) (outlivedFile ++ [.extRefcnt 7 refcntRem]) ∧
      s.nexus.locks 7 = none ∧ 1 ∈ s.cache ∧ 1 ∉ s.blockList ∧ ¬NoLeak s := by
  intro s
  have object : 1 ∈ s.cache := by decide +kernel
  have unlisted : 1 ∉ s.blockList := by decide +kernel
  exact ⟨(ashmem.admitted_append _ _ _).mpr ⟨outlivedFile_admitted, trivial, trivial⟩, by decide +kernel, object,
    unlisted, fun none_ => unlisted ((none_.listed 1).mp object)⟩

end BcmDhd.NxAshmem
