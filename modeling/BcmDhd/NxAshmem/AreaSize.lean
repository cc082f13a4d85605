import BcmDhd.Lib.Word
import BcmDhd.NxAshmem.Areas

namespace BcmDhd.NxAshmem

open BcmDhd.Lib

/-- The numbers of a `size_t`, and the size of a page. -/
structure SizeT where
  width : Nat
  pageShift : Nat

namespace SizeT

def word (t : SizeT) (size : Nat) : BitVec t.width := BitVec.ofNat t.width size

def pageSize (t : SizeT) : Nat := 2 ^ t.pageShift

end SizeT

/-- `allocation` when the area's block was given: whole pages of an alternate heap, or so much that
it is a multiple of the alignment. -/
def requestedBytes (t : SizeT) (s : Ashmem) (asma : Area) (nexus : Nexus) : Nat :=
  if (alternateBlock s asma nexus).isSome then (roundUp (t.word asma.size) (t.word t.pageSize)).toNat
  else (roundUp (t.word asma.size) (t.word asma.align)).toNat

/-- A file's area, with how much was requested for its block. -/
structure SizedFile where
  s : Ashmem
  requested : Nat

inductive SizeCall
  | setSize (alloc : Option NxAlloc)
  | getMem (nexus : Nexus)

def sizeStep (t : SizeT) (a : AreaPtr) (file : SizedFile) : SizeCall → SizedFile × Int
  | .setSize alloc =>
    let result := nxAshmemSetSize file.s a alloc
    ({ file with s := result.1 }, result.2)
  | .getMem nexus =>
    let result := nxAshmemMmap file.s a nexus
    let given := (file.s.area a).block = none ∧ (result.1.area a).block.isSome
    ({ s := result.1, requested := if given then requestedBytes t file.s (file.s.area a) nexus else file.requested },
      result.2)

/-- The size that is reported was requested. -/
def Honest (a : AreaPtr) (file : SizedFile) : Prop :=
  (file.s.area a).block.isSome = true → (file.s.area a).size ≤ file.requested

/-- The rounding does not wrap around, and a size that is set for a block there is no more than was
requested for it. -/
def SizeFits (t : SizeT) (a : AreaPtr) (file : SizedFile) : SizeCall → Prop
  | .setSize alloc => ∀ given ∈ alloc, (file.s.area a).pAddress = 0 → (file.s.area a).block.isSome = true →
      given.size ≤ file.requested
  | .getMem nexus =>
    let asma := file.s.area a
    asma.block = none → asma.size ≠ 0 → (allocatedBlock file.s asma nexus).isSome = true →
      asma.size + (if (alternateBlock file.s asma nexus).isSome then t.word t.pageSize - 1
        else t.word asma.align - 1).toNat < 2 ^ t.width

/-- The calls on one file. Which of them fit is the promise. -/
def areaSizes (t : SizeT) (a : AreaPtr) : Machine SizedFile SizeCall Int where
  step := sizeStep t a
  admits := SizeFits t a

variable {t : SizeT} {a : AreaPtr} {file : SizedFile} {s : Ashmem} {nexus : Nexus} {alloc : Option NxAlloc}

theorem requestedBytes_iff {asma : Area} (some_ : asma.size ≠ 0) : asma.size ≤ requestedBytes t s asma nexus ↔
    asma.size + (if (alternateBlock s asma nexus).isSome then t.word t.pageSize - 1 else t.word asma.align - 1).toNat <
      2 ^ t.width := by
  have rounds : ∀ align : BitVec t.width, asma.size ≤ (roundUp (t.word asma.size) align).toNat ↔
      asma.size + (align - 1).toNat < 2 ^ t.width := by
    intro align
    by_cases small : asma.size < 2 ^ t.width
    · have same : (t.word asma.size).toNat = asma.size := by
        unfold SizeT.word
        rw [BitVec.toNat_ofNat, Nat.mod_eq_of_lt small]
      have exact_ := @le_roundUp_iff _ (t.word asma.size) align (by rw [same]; omega)
      rw [same] at exact_
      exact exact_
    · have less := (roundUp (t.word asma.size) align).isLt
      exact iff_of_false (by omega) (by omega)
  unfold requestedBytes
  split
  · exact rounds _
  · exact rounds _

/-- A call to get memory gives a block to an area that has none, if there is any, and keeps its size. -/
theorem getMem_cases : ((nxAshmemMmap s a nexus).1.area a).size = (s.area a).size ∧
    (((nxAshmemMmap s a nexus).1.area a).block.isSome = true ↔ (s.area a).block.isSome = true ∨
      ((s.area a).size ≠ 0 ∧ (allocatedBlock s (s.area a) nexus).isSome = true)) := by
  unfold nxAshmemMmap
  dsimp only
  split
  · rename_i none_
    exact ⟨rfl, ⟨Or.inl, fun given => given.resolve_right fun more => more.1 none_⟩⟩
  · rename_i some_
    split
    · rename_i block there
      rw [there]
      exact ⟨rfl, iff_of_true rfl (Or.inl rfl)⟩
    · rename_i missing
      split
      · rename_i block found
        rw [missing, found]
        unfold placeBlock
        dsimp only
        split
        · exact ⟨by simp [Ashmem.setArea], iff_of_true (by simp [Ashmem.setArea]) (Or.inr ⟨some_, rfl⟩)⟩
        · exact ⟨by simp [Ashmem.setArea], iff_of_true (by simp [Ashmem.setArea]) (Or.inr ⟨some_, rfl⟩)⟩
      · rename_i refused
        rw [missing, refused]
        exact ⟨rfl, iff_of_false (by simp) (by simp)⟩

/-- A size is set unless the block has an address. -/
theorem setSize_cases : ((nxAshmemSetSize s a alloc).1.area a).block = (s.area a).block ∧
    ((nxAshmemSetSize s a alloc).1.area a).size =
      if (s.area a).pAddress ≠ 0 then (s.area a).size else alloc.elim (s.area a).size NxAlloc.size := by
  have marked : ∀ (s : Ashmem) marker add, (nxAshmemProcessMarker s marker add).area = s.area := by
    intro s marker add
    unfold nxAshmemProcessMarker
    split
    · rfl
    · split
      · rfl
      · rfl
  unfold nxAshmemSetSize
  dsimp only
  by_cases placed : (s.area a).pAddress ≠ 0
  · rw [if_pos placed, if_pos placed]
    exact ⟨rfl, rfl⟩
  · rw [if_neg placed, if_neg placed]
    cases alloc with
    | none => exact ⟨rfl, rfl⟩
    | some alloc =>
      dsimp only
      rw [marked]
      simp [Ashmem.setArea]

/-- Of honest sizes, those stay honest that fit. -/
theorem sizeStep_honest_iff (honest : Honest a file) (call : SizeCall) :
    Honest a ((areaSizes t a).next file call) ↔ (areaSizes t a).admits file call := by
  cases call with
  | setSize alloc =>
    obtain ⟨block, size⟩ := @setSize_cases a file.s alloc
    change (((nxAshmemSetSize file.s a alloc).1.area a).block.isSome = true →
      ((nxAshmemSetSize file.s a alloc).1.area a).size ≤ file.requested) ↔ SizeFits t a file (.setSize alloc)
    rw [block, size]
    unfold SizeFits
    by_cases placed : (file.s.area a).pAddress = 0
    · rw [if_neg (not_not.mpr placed)]
      cases alloc with
      | none => exact iff_of_true honest fun given none_ => by cases none_
      | some alloc =>
        constructor
        · intro enough given same _ there
          cases same
          exact enough there
        · intro enough there
          exact enough alloc rfl placed there
    · rw [if_pos placed]
      exact iff_of_true honest fun given _ start => absurd start placed
  | getMem nexus =>
    obtain ⟨size, block⟩ := @getMem_cases a file.s nexus
    have enough := @requestedBytes_iff t file.s nexus (file.s.area a)
    change (((nxAshmemMmap file.s a nexus).1.area a).block.isSome = true →
      ((nxAshmemMmap file.s a nexus).1.area a).size ≤
      (if (file.s.area a).block = none ∧ ((nxAshmemMmap file.s a nexus).1.area a).block.isSome = true
        then requestedBytes t file.s (file.s.area a) nexus else file.requested)) ↔ SizeFits t a file (.getMem nexus)
    rw [size]
    unfold SizeFits
    dsimp only
    by_cases missing : (file.s.area a).block = none
    · rw [missing, Option.isSome_none, Bool.false_eq_true, false_or] at block
      constructor
      · intro reported _ some_ given
        have there := block.mpr ⟨some_, given⟩
        have requested := reported there
        rw [if_pos ⟨missing, there⟩] at requested
        exact (enough some_).mp requested
      · intro fits there
        obtain ⟨some_, given⟩ := block.mp there
        rw [if_pos ⟨missing, there⟩]
        exact (enough some_).mpr (fits missing some_ given)
    · refine iff_of_true (fun there => ?_) fun none_ => absurd none_ missing
      rw [if_neg fun given => missing given.1]
      exact honest (Option.isSome_iff_ne_none.mpr missing)

/-- In every run whose sizes fit, the size that is reported was requested, and a call keeps it so
exactly if its size fits as well. -/
theorem sizes_honest (t : SizeT) (a : AreaPtr) (file : SizedFile) (opened : (file.s.area a).block = none)
    (calls : List SizeCall) (fitting : (areaSizes t a).Admitted file calls) :
    Honest a ((areaSizes t a).run file calls) ∧ ∀ call,
      (Honest a ((areaSizes t a).next ((areaSizes t a).run file calls) call) ↔
        (areaSizes t a).admits ((areaSizes t a).run file calls) call) := by
  have start : Honest a file := by
    intro there
    rw [opened] at there
    cases there
  have honest := (areaSizes t a).run_invariant
    (fun file call before fits => (sizeStep_honest_iff before call).mpr fits) start fitting
  exact ⟨honest, fun call => sizeStep_honest_iff honest call⟩

/-- A file that has just been opened. -/
def openedFile : SizedFile := ⟨(nxAshmemOpen (ashmemStart false 1 2 true) (some 7)).1, 0⟩

/-- NEXUS gives a block of the main heap. -/
def givingNexus : Nexus where
  mainStatus := none
  altStatus := fun _ => none
  altBlock := fun _ => none
  block := some 5
  grows := false
  grownBlock := none
  addr := 0x1000

theorem openedFile_honest : Honest 7 ((areaSizes ⟨32, 12⟩ 7).run openedFile
    [.setSize (some ⟨100, 4096, 0, 0, 0⟩), .getMem givingNexus]) := by
  refine (sizes_honest ⟨32, 12⟩ 7 openedFile rfl [.setSize (some ⟨100, 4096, 0, 0, 0⟩), .getMem givingNexus]
    ⟨?_, ?_, trivial⟩).1
  · intro given _ _ there
    cases there
  · intro _ _ _
    decide +kernel

/-- A size that is set again, and an alignment of 0. -/
theorem largerSize_reported :
    ¬ Honest 7 ((areaSizes ⟨32, 12⟩ 7).run openedFile
      [.setSize (some ⟨100, 4096, 0, 0, 0⟩), .getMem givingNexus, .setSize (some ⟨10000, 4096, 0, 0, 0⟩)]) ∧
    ¬ Honest 7 ((areaSizes ⟨32, 12⟩ 7).run openedFile [.setSize (some ⟨100, 0, 0, 0, 0⟩), .getMem givingNexus]) := by
  unfold Honest
  decide +kernel

end BcmDhd.NxAshmem
