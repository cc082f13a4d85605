import BcmDhd.Lib.LockedBlocks
import BcmDhd.Lib.Machine
import Mathlib.Tactic

/-! The memory areas of `nx_ashmem`, each with the block that NEXUS gave for it. A file is
its area, which is behind `private_data` as long as the file is open. -/

namespace BcmDhd.NxAshmem

open BcmDhd.Lib

/-- A block handle of NEXUS that is not null. -/
abbrev Handle := Nat

/-- The address of an object from `nx_ashmem_area_cachep`. -/
abbrev AreaPtr := Nat

def markerVideoDecoder : UInt32 := 0xCAFE0001
def markerVideoDecSecure : UInt32 := 0xCAFE0002
def markerVideoEncoder : UInt32 := 0xCAFE0003
def refcntAdd : UInt32 := 0xBAAD0001
def refcntRem : UInt32 := 0xBAAD0002
def heapFb : UInt32 := 0xABCD0001

def eNoMem : Int := -12
def eFault : Int := -14
def eInval : Int := -22

structure Area where
  pAddress : Nat
  block : Option Handle
  size : Nat
  align : Nat
  movable : UInt32
  marker : UInt32
  extRefcnt : Int
  deferFree : Bool
  heapWanted : UInt32

/-- An object as `kmem_cache_zalloc` gives it. -/
def Area.zeroed : Area :=
  { pAddress := 0, block := none, size := 0, align := 0, movable := 0, marker := 0, extRefcnt := 0
    deferFree := false, heapWanted := 0 }

/-- `struct nx_ashmem_alloc`. -/
structure NxAlloc where
  size : Nat
  align : Nat
  movable : UInt32
  marker : UInt32
  heap : UInt32

structure MgrCfg where
  altUseThreshold : Nat
  altUseMax : Fin 2 → Int

structure MemoryStatus where
  size : Nat
  free : Nat

/-- What NEXUS answers while memory is obtained for an area. -/
structure Nexus where
  mainStatus : Option MemoryStatus
  altStatus : Fin 2 → Option MemoryStatus
  altBlock : Fin 2 → Option Handle
  block : Option Handle
  /-- Growing the heap succeeds, and what it gives then. -/
  grows : Bool
  grownBlock : Option Handle
  addr : Nat

def Nexus.handles (nexus : Nexus) : List Handle :=
  [nexus.altBlock 0, nexus.altBlock 1, nexus.block, nexus.grownBlock].reduceOption

structure Ashmem where
  /-- `block_mgmt_mode` is "locked". -/
  locked : Bool
  gfxHeap : Nat
  gfxFbHeap : Nat
  gfxHeapDyn : Bool
  /-- Whether the alternate heaps are there. -/
  gfxAltHeap : Fin 2 → Bool
  mgrCfg : MgrCfg
  videoInUse : Int
  videoSecureInUse : Int
  blockList : List AreaPtr
  area : AreaPtr → Area
  /-- The objects that were taken from `nx_ashmem_area_cachep` and not given back. -/
  cache : List AreaPtr
  /-- The areas of open files. -/
  files : List AreaPtr
  nexus : LockedBlocks Handle

def Ashmem.setArea (s : Ashmem) (a : AreaPtr) (area : Area) : Ashmem :=
  { s with area := Function.update s.area a area }

def isVideo (marker : UInt32) : Bool := marker = markerVideoDecoder || marker = markerVideoEncoder

def isSecureVideo (marker : UInt32) : Bool := marker = markerVideoDecSecure

/-- A counter that is not left below 0. -/
def countDown (counter : Int) : Int := if counter - 1 < 0 then 0 else counter - 1

def nxAshmemProcessMarker (s : Ashmem) (marker : UInt32) (add : Bool) : Ashmem :=
  if isVideo marker then
    { s with videoInUse := if add then s.videoInUse + 1 else countDown s.videoInUse }
  else if isSecureVideo marker then
    { s with videoSecureInUse := if add then s.videoSecureInUse + 1 else countDown s.videoSecureInUse }
  else s

/-- An alternate heap is used while less of it is taken than its limit, in percent. -/
def altIndex (s : Ashmem) (nexus : Nexus) (i : Fin 2) : Bool :=
  s.gfxAltHeap i && match nexus.altStatus i with
    | some status =>
      (status.size - status.free) % 2 ^ 32 / (status.size / 100 % 2 ^ 32) < (s.mgrCfg.altUseMax i % 2 ^ 32).toNat
    | none => false

/-- Which of the alternate heaps may be used: none while video is. -/
def nxAshmemAllocateFromAlternate (s : Ashmem) (nexus : Nexus) (currentMain : Nat) : Fin 2 → Bool :=
  if s.videoInUse ≠ 0 ∨ s.videoSecureInUse ≠ 0 then fun _ => false
  else if s.mgrCfg.altUseThreshold < currentMain then altIndex s nexus
  else fun _ => false

/-- A new area, unless there is no memory. -/
def nxAshmemOpen (s : Ashmem) : Option AreaPtr → Ashmem × Int
  | none => (s, eNoMem)
  | some a =>
    ({ s.setArea a .zeroed with cache := a :: s.cache, blockList := a :: s.blockList, files := a :: s.files }, 0)

def nxAshmemAsmaFreeBlock (s : Ashmem) (a : AreaPtr) : Ashmem :=
  let asma := s.area a
  match asma.block with
  | none => s
  | some block =>
    if asma.movable = 0 ∧ s.locked = true ∧ asma.pAddress ≠ 0 then
      { s.setArea a { asma with pAddress := 0, block := none } with
        nexus := (s.nexus.unlock block).free block }
    else { s.setArea a { asma with block := none } with nexus := s.nexus.free block }

/-- The area leaves the list. -/
def Ashmem.listDel (s : Ashmem) (a : AreaPtr) : Ashmem := { s with blockList := s.blockList.erase a }

/-- The object goes back to the cache. -/
def Ashmem.cacheFree (s : Ashmem) (a : AreaPtr) : Ashmem := { s with cache := s.cache.erase a }

/-- What closing does to the area: its block is kept as long as there are external
references. -/
def closeArea (s : Ashmem) (a : AreaPtr) : Ashmem :=
  let asma := s.area a
  if asma.block.isSome then
    if 0 < asma.extRefcnt then s.setArea a { asma with deferFree := true }
    else ((nxAshmemAsmaFreeBlock s a).listDel a).cacheFree a
  else (s.listDel a).cacheFree a

def nxAshmemRelease (s : Ashmem) (a : AreaPtr) : Ashmem :=
  let marker := (s.area a).marker
  let closed := closeArea { s with files := s.files.erase a } a
  if marker ≠ 0 then nxAshmemProcessMarker closed marker false else closed

/-- The block that comes from an alternate heap. -/
def alternateBlock (s : Ashmem) (asma : Area) (nexus : Nexus) : Option Handle :=
  if asma.movable = 0 then none else nexus.mainStatus.bind fun status =>
    let index := nxAshmemAllocateFromAlternate s nexus status.size
    (if index 0 then nexus.altBlock 0 else none).or (if index 1 then nexus.altBlock 1 else none)

/-- The block that NEXUS gives: a movable one first from the alternate heaps. -/
def allocatedBlock (s : Ashmem) (asma : Area) (nexus : Nexus) : Option Handle :=
  let heap := if asma.heapWanted = heapFb then s.gfxFbHeap else s.gfxHeap
  let grown := if s.gfxHeapDyn ∧ heap = s.gfxHeap ∧ nexus.grows then nexus.grownBlock else none
  (alternateBlock s asma nexus).or (nexus.block.or grown)

/-- The block becomes the area's, and is locked if it may not move. -/
def placeBlock (s : Ashmem) (a : AreaPtr) (block : Handle) (addr : Nat) : Ashmem :=
  let asma := s.area a
  let given := s.nexus.allocate block
  if asma.movable = 0 ∧ s.locked = true then
    { s.setArea a { asma with block := some block, pAddress := addr } with nexus := given.lock block }
  else { s.setArea a { asma with block := some block, pAddress := 0 } with nexus := given }

/-- What the caller is told: the handle, or the address. -/
def sharedBlock (s : Ashmem) (a : AreaPtr) (block : Handle) : Int :=
  if s.gfxHeapDyn then block else (s.area a).pAddress

def nxAshmemMmap (s : Ashmem) (a : AreaPtr) (nexus : Nexus) : Ashmem × Int :=
  let asma := s.area a
  if asma.size = 0 then (s, 0)
  else match asma.block with
    | some block => (s, sharedBlock s a block)
    | none => match allocatedBlock s asma nexus with
      | some block =>
        let placed := placeBlock s a block nexus.addr
        (placed, sharedBlock placed a block)
      | none => (s, 0)

/-- `NX_ASHMEM_SET_SIZE`, with what was copied from the caller, if it could be. -/
def nxAshmemSetSize (s : Ashmem) (a : AreaPtr) (alloc : Option NxAlloc) : Ashmem × Int :=
  let asma := s.area a
  if asma.pAddress ≠ 0 then (s, eInval)
  else match alloc with
    | none => (s, eFault)
    | some alloc =>
      let sized := s.setArea a { asma with
        size := alloc.size, align := alloc.align, movable := alloc.movable, marker := alloc.marker
        heapWanted := alloc.heap }
      (nxAshmemProcessMarker sized alloc.marker true, 0)

/-- A reference more or less, in 32 bits, and not below 0. -/
def countReference (cnt : UInt32) (asma : Area) : Area :=
  let moved := (if cnt = refcntAdd then asma.extRefcnt + 1 else asma.extRefcnt - 1).bmod (2 ^ 32)
  { asma with extRefcnt := if moved < 0 then 0 else moved }

/-- One area of the list: its references are counted if the block is its own, and it is
noted if its block can be freed now. -/
def countArea (hdl : Handle) (cnt : UInt32) (counted : Ashmem × Option AreaPtr) (a : AreaPtr) :
    Ashmem × Option AreaPtr :=
  if (counted.1.area a).block = some hdl then
    let asma := countReference cnt (counted.1.area a)
    (counted.1.setArea a asma, if asma.extRefcnt = 0 ∧ asma.deferFree then some a else counted.2)
  else counted

/-- A count that is neither of the two is refused at the first area that matches. -/
def nxAshmemProcessExtRefcnt (s : Ashmem) (hdl : Handle) (cnt : UInt32) : Ashmem × Int :=
  if ¬∃ a ∈ s.blockList, (s.area a).block = some hdl then (s, eNoMem)
  else if cnt ≠ refcntAdd ∧ cnt ≠ refcntRem then (s, eInval)
  else
    let counted := s.blockList.foldl (countArea hdl cnt) (s, none)
    match counted.2 with
    | none => (counted.1, 0)
    | some a => ((nxAshmemAsmaFreeBlock counted.1 a).listDel a, 0)

/-- One area of the list is printed. Where blocks may move, its block is locked for that. -/
def dumpArea (s : Ashmem) (a : AreaPtr) : Ashmem :=
  match (s.area a).block with
  | none => s
  | some block =>
    if s.locked then s
    else { s.setArea a { s.area a with pAddress := 0 } with nexus := (s.nexus.lock block).unlock block }

def nxAshmemDumpAll (s : Ashmem) : Ashmem := s.blockList.foldl dumpArea s

/-- What processes do with the device; the object that the cache gives, what is copied
from the caller, and the answers of NEXUS come with the call. -/
inductive AshmemCall
  | openFile (object : Option AreaPtr)
  | setSize (a : AreaPtr) (alloc : Option NxAlloc)
  | getMem (a : AreaPtr) (nexus : Nexus)
  | extRefcnt (hdl : Handle) (cnt : UInt32)
  | dumpAll
  | mgrCfg (cfg : MgrCfg) (altHeap : Fin 2 → Bool)
  | release (a : AreaPtr)

def ashmemStep (s : Ashmem) : AshmemCall → Ashmem × Int
  | .openFile object => nxAshmemOpen s object
  | .setSize a alloc => nxAshmemSetSize s a alloc
  | .getMem a nexus => nxAshmemMmap s a nexus
  | .extRefcnt hdl cnt => nxAshmemProcessExtRefcnt s hdl cnt
  | .dumpAll => (nxAshmemDumpAll s, 0)
  | .mgrCfg cfg altHeap =>
    ({ s with mgrCfg := cfg, gfxAltHeap := if cfg.altUseThreshold ≠ 0 then altHeap else s.gfxAltHeap }, 0)
  | .release a => (nxAshmemRelease s a, 0)

/-- An object or block is given only while nobody has it, an address is not 0, and a file
is used only while it is open. -/
def ashmemAdmits (s : Ashmem) : AshmemCall → Prop
  | .openFile (some a) => a ∉ s.cache
  | .setSize a _ => a ∈ s.files
  | .getMem a nexus => a ∈ s.files ∧ nexus.addr ≠ 0 ∧ ∀ block ∈ nexus.handles, s.nexus.locks block = none
  | .release a => a ∈ s.files
  | _ => True

def ashmem : Machine Ashmem AshmemCall Int where
  step := ashmemStep
  admits := ashmemAdmits

instance decidableAdmits (s : Ashmem) : (call : AshmemCall) → Decidable (ashmem.admits s call)
  | .openFile none => inferInstanceAs (Decidable True)
  | .openFile (some a) => inferInstanceAs (Decidable (a ∉ s.cache))
  | .setSize a _ => inferInstanceAs (Decidable (a ∈ s.files))
  | .getMem a nexus => inferInstanceAs
    (Decidable (a ∈ s.files ∧ nexus.addr ≠ 0 ∧ ∀ block ∈ nexus.handles, s.nexus.locks block = none))
  | .extRefcnt _ _ => inferInstanceAs (Decidable True)
  | .dumpAll => inferInstanceAs (Decidable True)
  | .mgrCfg _ _ => inferInstanceAs (Decidable True)
  | .release a => inferInstanceAs (Decidable (a ∈ s.files))

/-- The module after its initialisation, for a mode, heaps, and whether they are dynamic. -/
def ashmemStart (locked : Bool) (gfxHeap gfxFbHeap : Nat) (gfxHeapDyn : Bool) : Ashmem :=
  { locked := locked, gfxHeap := gfxHeap, gfxFbHeap := gfxFbHeap, gfxHeapDyn := gfxHeapDyn
    gfxAltHeap := fun _ => false, mgrCfg := ⟨0, fun _ => 0⟩, videoInUse := 0, videoSecureInUse := 0
    blockList := [], area := fun _ => .zeroed, cache := [], files := [], nexus := .none_ }

end BcmDhd.NxAshmem
