import BcmDhd.Lib.Chain
import BcmDhd.Lib.Machine
import BcmDhd.Utils.Xtlv

/-! Pools of packets of one size: a free list through the packets and 16-bit counters. No callback
is registered, and the mutex macros are those of a build without threads. -/

namespace BcmDhd.Utils

open BcmDhd.Lib Function

def bcmeError : Int := -1

def bcmeRange : Int := -29

def pktpoolLenMax : UInt16 := 40

structure Pktpool where
  freelist : Option Nat
  avail : UInt16
  len : UInt16
  maxlen : UInt16
  plen : UInt16
  deriving DecidableEq

/-- The pool, and for every packet its free list link and the length it was
allocated with. -/
structure PoolMemory where
  pool : Pktpool
  link : Nat → Option Nat
  pktLen : Nat → Int

/-- `PKTGET` handed out this packet. -/
def pktget (memory : PoolMemory) (p : Nat) (len : Int) : PoolMemory :=
  { memory with pktLen := update memory.pktLen p len }

def pktpoolEnq (memory : PoolMemory) (p : Nat) : PoolMemory :=
  { memory with
    link := update memory.link p memory.pool.freelist
    pool := { memory.pool with freelist := some p, avail := memory.pool.avail + 1 } }

def pktpoolDeq (memory : PoolMemory) : PoolMemory × Option Nat :=
  if memory.pool.avail = 0 then (memory, none)
  else
    match memory.pool.freelist with
    | none => (memory, none)
    | some p =>
      ({ memory with
          link := update memory.link p none
          pool := { memory.pool with freelist := memory.link p, avail := memory.pool.avail - 1 } },
        some p)

/-- The packets `PKTGET` has for the loop of `pktpool_init` are `packets`, and then
there is no more memory. Returns whether it ran out. -/
def pktpoolInitLoop (plen : Int) : Nat → List Nat → PoolMemory → PoolMemory × Bool
  | 0, _, memory => (memory, false)
  | _ + 1, [], memory => (memory, true)
  | count + 1, p :: packets, memory =>
    pktpoolInitLoop plen count packets (pktpoolEnq (pktget memory p plen) p)

/-- `registered` is whether the registry had a slot. `*pplen` becomes the pool's length. -/
def pktpoolInit (memory : PoolMemory) (registered : Bool) (pplen plen : Int) (packets : List Nat) :
    PoolMemory × Int :=
  let zeroed : Pktpool := { freelist := none, avail := 0, len := 0, maxlen := 0, plen := 0 }
  if registered then
    let named := { zeroed with plen := UInt16.ofInt plen, maxlen := pktpoolLenMax }
    let pktplen := if pplen > pktpoolLenMax.toNat then pktpoolLenMax.toNat else pplen.toNat
    let filled := pktpoolInitLoop plen pktplen packets { memory with pool := named }
    let err := if filled.2 ∧ filled.1.pool.freelist = none then bcmeNomem else bcmeOk
    ({ filled.1 with pool := { filled.1.pool with len := filled.1.pool.avail } }, err)
  else ({ memory with pool := zeroed }, bcmeError)

def pktpoolGet (memory : PoolMemory) : PoolMemory × Option Nat :=
  match pktpoolDeq memory with
  | (after, some p) => (after, some p)
  | (after, none) => pktpoolDeq after

def pktpoolFree (memory : PoolMemory) (p : Nat) : PoolMemory := pktpoolEnq memory p

def pktpoolAdd (memory : PoolMemory) (p : Nat) : PoolMemory × Int :=
  if memory.pool.len = memory.pool.maxlen then (memory, bcmeRange)
  else
    (pktpoolEnq { memory with pool := { memory.pool with len := memory.pool.len + 1 } } p, bcmeOk)

/-- The loop of `pktpool_fill`. Packets are asked for in the length of the pool. -/
def pktpoolFillLoop (psize : Nat) : Nat → List Nat → PoolMemory → PoolMemory × Int
  | len, [], memory => (memory, if len < psize then bcmeNomem else bcmeOk)
  | len, p :: packets, memory =>
    if len < psize then
      match pktpoolAdd (pktget memory p memory.pool.len.toNat) p with
      | (after, err) =>
        if err ≠ bcmeOk then (after, bcmeError) else pktpoolFillLoop psize (len + 1) packets after
    else (memory, bcmeOk)

def pktpoolFillSize (pool : Pktpool) (minimal : Bool) : Nat :=
  if minimal then pool.maxlen.toNat / 4 else pool.maxlen.toNat

def pktpoolFill (memory : PoolMemory) (minimal : Bool) (packets : List Nat) : PoolMemory × Int :=
  pktpoolFillLoop (pktpoolFillSize memory.pool minimal) memory.pool.len.toNat packets memory

def pktpoolSetmaxlen (memory : PoolMemory) (maxlen : UInt16) : PoolMemory × Int :=
  let capped := if maxlen > pktpoolLenMax then pktpoolLenMax else maxlen
  let limit := if memory.pool.len > capped then memory.pool.len else capped
  ({ memory with pool := { memory.pool with maxlen := limit } }, limit.toNat)

inductive PoolCall
  | init (registered : Bool) (pplen plen : Int) (packets : List Nat)
  | fill (minimal : Bool) (packets : List Nat)
  | get
  | add (p : Nat)
  | free (p : Nat)
  | setmaxlen (maxlen : UInt16)
  deriving DecidableEq

/-- What is on record beside the memory: the packets taken in since the pool was
made, and those of them that callers hold. -/
structure PoolState where
  memory : PoolMemory
  held : List Nat
  out : List Nat

/-- Packets come from `PKTGET` or a caller and are new to the pool; an added packet
has the size of the pool's packets, and a freed one was got from it. -/
def poolMachine : Machine PoolState PoolCall (Option Nat) where
  step state
    | .init registered pplen plen packets =>
      let after := (pktpoolInit state.memory registered pplen plen packets).1
      (⟨after, packets.take after.pool.len.toNat, []⟩, none)
    | .fill minimal packets =>
      let after := (pktpoolFill state.memory minimal packets).1
      (⟨after, packets.take (after.pool.len.toNat - state.memory.pool.len.toNat) ++ state.held,
        state.out⟩, none)
    | .get =>
      let taken := pktpoolGet state.memory
      (⟨taken.1, state.held, taken.2.toList ++ state.out⟩, taken.2)
    | .add p =>
      let added := pktpoolAdd state.memory p
      (⟨added.1, if added.2 = bcmeOk then p :: state.held else state.held, state.out⟩, none)
    | .free p => (⟨pktpoolFree state.memory p, state.held, state.out.erase p⟩, none)
    | .setmaxlen maxlen => (⟨(pktpoolSetmaxlen state.memory maxlen).1, state.held, state.out⟩, none)
  admits state
    | .init _ _ _ packets => packets.Nodup
    | .fill _ packets => packets.Nodup ∧ ∀ p ∈ packets, p ∉ state.held
    | .get => True
    | .add p => p ∉ state.held ∧ state.memory.pktLen p = state.memory.pool.plen.toNat
    | .free p => p ∈ state.out
    | .setmaxlen _ => True

instance (state : PoolState) (call : PoolCall) : Decidable (poolMachine.admits state call) :=
  match call with
  | .init _ _ _ packets => inferInstanceAs (Decidable packets.Nodup)
  | .fill _ packets => inferInstanceAs (Decidable (packets.Nodup ∧ ∀ p ∈ packets, p ∉ state.held))
  | .get => .isTrue trivial
  | .add p => inferInstanceAs (Decidable (p ∉ state.held ∧
      state.memory.pktLen p = state.memory.pool.plen.toNat))
  | .free p => inferInstanceAs (Decidable (p ∈ state.out))
  | .setmaxlen _ => .isTrue trivial

/-- Whether the packets a call takes in have the pool's size. `pktpool_fill` asks for
packets of the pool's length and then of one more each time, so it may take in at most
one. `pktpool_init` keeps the size it allocates with in 16 bits. -/
def KeepsPlen (state : PoolState) : PoolCall → Prop
  | .init registered pplen plen packets =>
    registered = false ∨ pplen ≤ 0 ∨ packets = [] ∨ (0 ≤ plen ∧ plen < 2 ^ 16)
  | .fill minimal packets =>
    let len := state.memory.pool.len.toNat
    let psize := pktpoolFillSize state.memory.pool minimal
    psize ≤ len ∨ packets = [] ∨
      (len = state.memory.pool.plen.toNat ∧ (psize = len + 1 ∨ packets.length = 1))
  | _ => True

instance (state : PoolState) (call : PoolCall) : Decidable (KeepsPlen state call) :=
  match call with
  | .init registered pplen plen packets => inferInstanceAs (Decidable (registered = false ∨
      pplen ≤ 0 ∨ packets = [] ∨ (0 ≤ plen ∧ plen < 2 ^ 16)))
  | .fill _ _ => inferInstanceAs (Decidable (_ ∨ _ ∨ (_ ∧ (_ ∨ _))))
  | .get => .isTrue trivial
  | .add _ => .isTrue trivial
  | .free _ => .isTrue trivial
  | .setmaxlen _ => .isTrue trivial

end BcmDhd.Utils
