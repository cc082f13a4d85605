import BcmDhd.Lib.Circular
import BcmDhd.Lib.Machine

/-! The lock-less circular ring of `bcm_ring.h` and the pair of work queues built
on it: the producer and the consumer keep a ring context each, and flush or fetch
one index at a time.

The pend and done variants, `bcm_ring_copy` and `bcm_ring_cons_all`, which no
work queue of the driver uses, are left out. -/

namespace BcmDhd.Utils

open BcmDhd.Lib

universe u

/-- `bcm_ring_t` -/
structure BcmRing where
  write : Nat
  read : Nat
deriving DecidableEq

def bcmRingInit : BcmRing where
  write := 0
  read := 0

def bcmRingIsEmpty (ring : BcmRing) : Bool := ring.read = ring.write

def bcmRingNextWrite (ring : BcmRing) (ringSize : Nat) : Nat := (ring.write + 1) % ringSize

def bcmRingFull (ring : BcmRing) (nextWrite : Nat) : Bool := nextWrite = ring.read

def bcmRingProdDone (ring : BcmRing) (write : Nat) : BcmRing := { ring with write := write }

/-- `none` is `BCM_RING_FULL`. -/
def bcmRingProd (ring : BcmRing) (ringSize : Nat) : BcmRing × Option Nat :=
  let nextWrite := bcmRingNextWrite ring ringSize
  if bcmRingFull ring nextWrite then (ring, none)
  else (bcmRingProdDone ring nextWrite, some ring.write)

/-- `none` is `BCM_RING_EMPTY`. -/
def bcmRingCons (ring : BcmRing) (ringSize : Nat) : BcmRing × Option Nat :=
  if bcmRingIsEmpty ring then (ring, none)
  else ({ ring with read := (ring.read + 1) % ringSize }, some ring.read)

def bcmRingSyncRead (peer self : BcmRing) : BcmRing := { peer with read := self.read }

def bcmRingSyncWrite (peer self : BcmRing) : BcmRing := { peer with write := self.write }

def bcmRingProdAvail (ring : BcmRing) (ringSize : Nat) : Int :=
  if ring.write ≥ ring.read then (ringSize : Int) - ((ring.write : Int) - ring.read) - 1
  else (ring.read : Int) - (ring.write + 1)

def bcmRingConsAvail (ring : BcmRing) (ringSize : Nat) : Int :=
  if ring.read = ring.write then 0
  else if ring.read > ring.write then ((ringSize : Int) - ring.read) + ring.write
  else (ring.write : Int) - ring.read

/-- Two peers of `bcm_workq_t`: they share the buffer and the ring size. -/
structure BcmWorkqPair (Elem : Type u) where
  prod : BcmRing
  cons : BcmRing
  buffer : Nat → Elem
  ringSize : Nat

variable {Elem : Type u}

def bcmWorkqInit (buffer : Nat → Elem) (ringSize : Nat) : BcmWorkqPair Elem where
  prod := bcmRingInit
  cons := bcmRingInit
  buffer := buffer
  ringSize := ringSize

def bcmWorkqProdSync (workq : BcmWorkqPair Elem) : BcmWorkqPair Elem :=
  { workq with cons := bcmRingSyncWrite workq.cons workq.prod }

def bcmWorkqConsSync (workq : BcmWorkqPair Elem) : BcmWorkqPair Elem :=
  { workq with prod := bcmRingSyncRead workq.prod workq.cons }

def bcmWorkqProdRefresh (workq : BcmWorkqPair Elem) : BcmWorkqPair Elem :=
  { workq with prod := bcmRingSyncRead workq.prod workq.cons }

def bcmWorkqConsRefresh (workq : BcmWorkqPair Elem) : BcmWorkqPair Elem :=
  { workq with cons := bcmRingSyncWrite workq.cons workq.prod }

inductive WorkqCall (Elem : Type u) where
  | prod (elem : Elem)
  | cons
  | prodSync
  | consSync
  | prodRefresh
  | consRefresh

inductive WorkqAnswer (Elem : Type u) where
  | none
  | full
  | empty
  | produced (slot : Nat)
  | consumed (slot : Nat) (elem : Elem)
deriving DecidableEq

/-- The calls of the producer and of the consumer in any order. As in
`dhd_prot_txstatus_process`, the producer stores its element in the slot it was
given before it does anything else; `dhd_lb_tx_compl_handler` is the consumer. -/
def workqMachine (Elem : Type u) : Machine (BcmWorkqPair Elem) (WorkqCall Elem) (WorkqAnswer Elem) where
  step workq
    | .prod elem =>
      match bcmRingProd workq.prod workq.ringSize with
      | (_, none) => (workq, .full)
      | (ring, some slot) =>
        ({ workq with
            prod := ring
            buffer := Function.update workq.buffer slot elem }, .produced slot)
    | .cons =>
      match bcmRingCons workq.cons workq.ringSize with
      | (_, none) => (workq, .empty)
      | (ring, some slot) => ({ workq with cons := ring }, .consumed slot (workq.buffer slot))
    | .prodSync => (bcmWorkqProdSync workq, .none)
    | .consSync => (bcmWorkqConsSync workq, .none)
    | .prodRefresh => (bcmWorkqProdRefresh workq, .none)
    | .consRefresh => (bcmWorkqConsRefresh workq, .none)
  admits _ _ := True

section Counters

variable {ring : BcmRing} {ringSize produced taken : Nat}

section

variable (ordered : taken ≤ produced)
  (fits : produced < taken + ringSize)
  (write : ring.write = produced % ringSize)
  (read : ring.read = taken % ringSize)
include ordered fits write read

theorem bcmRingProd_of_counters : bcmRingProd ring ringSize =
      if produced + 1 = taken + ringSize then (ring, none)
      else ({ ring with write := (produced + 1) % ringSize }, some (produced % ringSize)) := by
  have next : bcmRingNextWrite ring ringSize = (produced + 1) % ringSize := by
    rw [bcmRingNextWrite, write, Nat.mod_add_mod]
  have full : bcmRingFull ring ((produced + 1) % ringSize) = true ↔ produced + 1 = taken + ringSize := by
    rw [bcmRingFull, decide_eq_true_iff, read]
    by_cases last : produced + 1 = taken + ringSize
    · simp [last]
    · rw [Circular.counters_eq_iff (by omega) (by omega)]
      omega
  rw [bcmRingProd, next]
  simp only [full, bcmRingProdDone, write]

theorem bcmRingCons_of_counters : bcmRingCons ring ringSize =
      if taken = produced then (ring, none)
      else ({ ring with read := (taken + 1) % ringSize }, some (taken % ringSize)) := by
  have empty : bcmRingIsEmpty ring = true ↔ taken = produced := by
    rw [bcmRingIsEmpty, decide_eq_true_iff, read, write, eq_comm,
      Circular.counters_eq_iff ordered fits, eq_comm]
  rw [bcmRingCons]
  simp only [empty, read, Nat.mod_add_mod]

theorem bcmRingConsAvail_of_counters : bcmRingConsAvail ring ringSize = produced - taken := by
  have apart := Circular.distance_counters ordered fits
  have inside := Nat.mod_lt taken (show 0 < ringSize by omega)
  rw [Circular.distance, ← write, ← read] at apart
  rw [← read] at inside
  rw [bcmRingConsAvail]
  split at apart <;> split <;> omega

end

theorem bcmRingProdAvail_add_consAvail (ring : BcmRing) (ringSize : Nat) :
    bcmRingProdAvail ring ringSize + bcmRingConsAvail ring ringSize = ringSize - 1 := by
  rw [bcmRingProdAvail, bcmRingConsAvail]
  split <;> split <;> omega

end Counters

end BcmDhd.Utils
