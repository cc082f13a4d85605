import Mathlib.Logic.Function.Basic

/-! An allocator of blocks that can be locked: what it has given out, how many locks are
outstanding on each block, and whether it was ever used wrongly. -/

namespace BcmDhd.Lib

open Function

universe u

/-- The outstanding locks of each block that is given out; `misused` once a block was
freed, locked or unlocked that was not given out, or freed while it was locked. -/
structure LockedBlocks (Handle : Type u) where
  locks : Handle → Option Nat
  misused : Bool

namespace LockedBlocks

variable {Handle : Type u} [DecidableEq Handle] (blocks : LockedBlocks Handle)

def none_ : LockedBlocks Handle := ⟨fun _ => none, false⟩

def allocate (handle : Handle) : LockedBlocks Handle :=
  { blocks with locks := update blocks.locks handle (some 0) }

def lock (handle : Handle) : LockedBlocks Handle :=
  match blocks.locks handle with
  | some held => { blocks with locks := update blocks.locks handle (some (held + 1)) }
  | none => { blocks with misused := true }

def unlock (handle : Handle) : LockedBlocks Handle :=
  match blocks.locks handle with
  | some (held + 1) => { blocks with locks := update blocks.locks handle (some held) }
  | _ => { blocks with misused := true }

def free (handle : Handle) : LockedBlocks Handle :=
  match blocks.locks handle with
  | some 0 => { blocks with locks := update blocks.locks handle none }
  | _ => ⟨update blocks.locks handle none, true⟩

variable {blocks} {handle : Handle} {held : Nat}

theorem lock_held (given : blocks.locks handle = some held) :
    blocks.lock handle = { blocks with locks := update blocks.locks handle (some (held + 1)) } := by
  simp only [lock, given]

theorem unlock_held (given : blocks.locks handle = some (held + 1)) :
    blocks.unlock handle = { blocks with locks := update blocks.locks handle (some held) } := by
  simp only [unlock, given]

theorem free_unlocked (given : blocks.locks handle = some 0) :
    blocks.free handle = { blocks with locks := update blocks.locks handle none } := by
  simp only [free, given]

theorem unlock_lock (given : blocks.locks handle = some held) : (blocks.lock handle).unlock handle = blocks := by
  have locked : (blocks.lock handle).locks handle = some (held + 1) := by
    rw [lock_held given]
    exact update_self ..
  rw [unlock_held locked, lock_held given]
  dsimp only
  rw [update_idem, ← given, update_eq_self]

theorem free_unlock (given : blocks.locks handle = some 1) :
    (blocks.unlock handle).free handle =
      { blocks with locks := update blocks.locks handle none } := by
  have unlocked : (blocks.unlock handle).locks handle = some 0 := by
    rw [unlock_held given]
    exact update_self ..
  rw [free_unlocked unlocked, unlock_held given]
  dsimp only
  rw [update_idem]

end LockedBlocks

end BcmDhd.Lib
