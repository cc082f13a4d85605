import BcmDhd.Lib.Chain
import BcmDhd.Lib.Machine

/-! The multi-precedence packet queue of `hnd_pktq.c`. Packets are addresses,
`none` is `NULL`, and `link` is the link field that `PKTLINK` and `PKTSETLINK`
access. The mutex is a no-op in this build (`HND_PKTQ_THREAD_SAFE` unset). -/

namespace BcmDhd.PacketQueue

open BcmDhd.Lib

def pktqLenMax : Nat := 0xFFFF

def pktqMaxPrec : Nat := 16

structure PktqPrec where
  head : Option Nat
  tail : Option Nat
  len : Nat
  max : Nat
  deriving DecidableEq

structure Pktq where
  numPrec : Nat
  hiPrec : Nat
  max : Nat
  len : Nat
  q : Nat → PktqPrec

/-- The part of a single-precedence queue that a splice reads and writes. -/
structure Spktq where
  q : PktqPrec
  len : Nat
  deriving DecidableEq

/-- A queue and the link fields of all packets, queued or not. -/
structure PktqWorld where
  pq : Pktq
  link : Nat → Option Nat

/-- `len += count` and `len--` on a `uint16`. -/
def lenAdd (len count : Nat) : Nat := (len + count) % 2 ^ 16

def lenDec (len : Nat) : Nat := (len + (2 ^ 16 - 1)) % 2 ^ 16

/-- Writing through a null packet pointer does not happen on a well formed queue. -/
def pktSetLink (link : Nat → Option Nat) (p target : Option Nat) : Nat → Option Nat :=
  match p with
  | none => link
  | some packet => Function.update link packet target

def pktqFull (pq : Pktq) : Prop := pq.len ≥ pq.max

def pktqPfull (pq : Pktq) (prec : Nat) : Prop := (pq.q prec).len ≥ (pq.q prec).max

/-- `if (pq->hi_prec < prec) pq->hi_prec = (uint8)prec`. -/
def raiseHiPrec (hiPrec prec : Nat) : Nat := if hiPrec < prec then prec % 2 ^ 8 else hiPrec

/-- The world with one precedence, the total length and the links rewritten. -/
def PktqWorld.store (world : PktqWorld) (link : Nat → Option Nat) (prec : Nat) (q : PktqPrec)
    (len hiPrec : Nat) : PktqWorld where
  pq := { world.pq with q := Function.update world.pq.q prec q, len := len, hiPrec := hiPrec }
  link := link

/-- `fn == NULL || (*fn)(p, arg)`. -/
def fnMatches (fn : Option (Nat → Bool)) (p : Nat) : Bool :=
  match fn with
  | none => true
  | some pred => pred p

def precInBmp (precBmp : BitVec 32) (prec : Nat) : Bool := (precBmp &&& (1#32 <<< prec)) != 0#32

/-- A walk along a queue meets at most `PKTQ_LEN_MAX` packets and the end. -/
def walkFuel : Nat := pktqLenMax + 1

/-- Only the precedences in use are zeroed. -/
def pktqInit (world : PktqWorld) (numPrec maxLen : Nat) : PktqWorld where
  pq :=
    { numPrec := numPrec % 2 ^ 16
      hiPrec := 0
      max := maxLen % 2 ^ 16
      len := 0
      q := fun prec =>
        if prec < numPrec then { head := none, tail := none, len := 0, max := maxLen % 2 ^ 16 }
        else world.pq.q prec }
  link := world.link

def pktqPenq (world : PktqWorld) (prec p : Nat) : PktqWorld :=
  let q := world.pq.q prec
  let (link, head) :=
    if q.head.isSome then (pktSetLink world.link q.tail (some p), q.head)
    else (world.link, some p)
  world.store link prec { q with head := head, tail := some p, len := lenAdd q.len 1 }
    (lenAdd world.pq.len 1) (raiseHiPrec world.pq.hiPrec prec)

def pktqPenqHead (world : PktqWorld) (prec p : Nat) : PktqWorld :=
  let q := world.pq.q prec
  let tail := if q.head = none then some p else q.tail
  world.store (pktSetLink world.link (some p) q.head) prec
    { q with head := some p, tail := tail, len := lenAdd q.len 1 }
    (lenAdd world.pq.len 1) (raiseHiPrec world.pq.hiPrec prec)

/-- The list as a splice leaves it. -/
def Spktq.emptied (list : Spktq) : Spktq where
  q := { list.q with head := none, tail := none, len := 0 }
  len := 0

def pktqAppend (world : PktqWorld) (prec : Nat) (list : Spktq) : PktqWorld × Spktq :=
  if list.q.head = none then (world, list)
  else
    let q := world.pq.q prec
    let (link, head) :=
      if q.head.isSome then (pktSetLink world.link q.tail list.q.head, q.head)
      else (world.link, list.q.head)
    (world.store link prec
      { q with head := head, tail := list.q.tail, len := lenAdd q.len list.q.len }
      (lenAdd world.pq.len list.q.len) (raiseHiPrec world.pq.hiPrec prec), list.emptied)

def pktqPrepend (world : PktqWorld) (prec : Nat) (list : Spktq) : PktqWorld × Spktq :=
  if list.q.head = none then (world, list)
  else
    let q := world.pq.q prec
    let tail := if q.tail = none then list.q.tail else q.tail
    (world.store (pktSetLink world.link list.q.tail q.head) prec
      { q with head := list.q.head, tail := tail, len := lenAdd q.len list.q.len }
      (lenAdd world.pq.len list.q.len) (raiseHiPrec world.pq.hiPrec prec), list.emptied)

/-- The head `p` leaves its precedence. -/
def unlinkHead (world : PktqWorld) (prec p : Nat) : PktqWorld :=
  let q := world.pq.q prec
  let head := world.link p
  let tail := if head = none then none else q.tail
  world.store (pktSetLink world.link (some p) none) prec
    { q with head := head, tail := tail, len := lenDec q.len } (lenDec world.pq.len) world.pq.hiPrec

/-- The packet `p` behind `prev` leaves its precedence. -/
def unlinkAfter (world : PktqWorld) (prec prev p : Nat) : PktqWorld :=
  let q := world.pq.q prec
  let link := pktSetLink world.link (some prev) (world.link p)
  let tail := if q.tail = some p then some prev else q.tail
  world.store (pktSetLink link (some p) none) prec
    { q with tail := tail, len := lenDec q.len } (lenDec world.pq.len) world.pq.hiPrec

/-- The dequeue of a head that `pktq_pdeq`, `pktq_deq` and `pktq_mdeq` share. -/
def takeHead (world : PktqWorld) (prec : Nat) : PktqWorld × Option Nat :=
  match (world.pq.q prec).head with
  | none => (world, none)
  | some p => (unlinkHead world prec p, some p)

def pktqPdeq (world : PktqWorld) (prec : Nat) : PktqWorld × Option Nat := takeHead world prec

def pktqPdeqPrev (world : PktqWorld) (prec : Nat) (prevP : Option Nat) : PktqWorld × Option Nat :=
  let q := world.pq.q prec
  match prevP with
  | none => (world, none)
  | some prev =>
    match world.link prev with
    | none => (world, none)
    | some p =>
      let link := pktSetLink world.link (some prev) (world.link p)
      (world.store (pktSetLink link (some p) none) prec { q with len := lenDec q.len }
        (lenDec world.pq.len) world.pq.hiPrec, some p)

/-- `none` when the loop does not come to an end. -/
def pktqPdeqWithFn (world : PktqWorld) (prec : Nat) (fn : Option (Nat → Bool)) :
    Option (PktqWorld × Option Nat) :=
  let q := world.pq.q prec
  match walk world.link (fun p => p.elim true (fnMatches fn)) walkFuel none q.head with
  | none => none
  | some (_, none) => some (world, none)
  | some (none, some p) => some (unlinkHead world prec p, some p)
  | some (some prev, some p) => some (unlinkAfter world prec prev p, some p)

/-- The removal of a tail, up to the clearing of its link in `pktq_deq_tail`. -/
def takeTail (world : PktqWorld) (prec : Nat) : Option (PktqWorld × Option Nat) :=
  let q := world.pq.q prec
  if q.head = none then some (world, none)
  else
    match walk world.link (fun p => p = q.tail) walkFuel none q.head with
    | none => none
    | some (prev, p) =>
      let (link, head) :=
        if prev.isSome then (pktSetLink world.link prev none, q.head) else (world.link, none)
      some (world.store link prec { q with head := head, tail := prev, len := lenDec q.len }
        (lenDec world.pq.len) world.pq.hiPrec, p)

def pktqPdeqTail (world : PktqWorld) (prec : Nat) : Option (PktqWorld × Option Nat) :=
  takeTail world prec

def pktqPdel (world : PktqWorld) (pktbuf : Option Nat) (prec : Nat) : Option (PktqWorld × Bool) :=
  match pktbuf with
  | none => some (world, false)
  | some packet =>
    let q := world.pq.q prec
    if q.head = some packet then some (unlinkHead world prec packet, true)
    else
      match walk world.link (fun p => p.elim true fun node => world.link node = some packet)
          walkFuel none q.head with
      | none => none
      | some (_, none) => some (world, false)
      | some (_, some p) => some (unlinkAfter world prec p packet, true)

/-- `while ((prec = pq->hi_prec) > 0 && pq->q[prec].head == NULL) pq->hi_prec--`. -/
def lowerHiPrec (q : Nat → PktqPrec) : Nat → Nat
  | 0 => 0
  | prec + 1 => if (q (prec + 1)).head = none then lowerHiPrec q prec else prec + 1

def PktqWorld.withHiPrec (world : PktqWorld) (hiPrec : Nat) : PktqWorld :=
  { world with pq := { world.pq with hiPrec := hiPrec } }

/-- `for (prec = 0; prec < pq->hi_prec; prec++) if (pq->q[prec].head) break`. -/
def lowestPrec (pq : Pktq) : Nat :=
  ((List.range pq.hiPrec).find? fun prec => (pq.q prec).head.isSome).getD pq.hiPrec

/-- `while (!found(prec)) if (prec-- == 0) goto done`. -/
def scanDown (found : Nat → Bool) : Nat → Option Nat
  | 0 => if found 0 then some 0 else none
  | prec + 1 => if found (prec + 1) then some (prec + 1) else scanDown found prec

/-- The packet with the precedence written through `prec_out`. -/
def pktqDeq (world : PktqWorld) : PktqWorld × Option Nat × Option Nat :=
  if world.pq.len = 0 then (world, none, none)
  else
    let prec := lowerHiPrec world.pq.q world.pq.hiPrec
    let (after, p) := takeHead (world.withHiPrec prec) prec
    (after, p, if p.isSome then some prec else none)

def pktqDeqTail (world : PktqWorld) : Option (PktqWorld × Option Nat × Option Nat) :=
  if world.pq.len = 0 then some (world, none, none)
  else
    let prec := lowestPrec world.pq
    match takeTail world prec with
    | none => none
    | some (after, none) => some (after, none, none)
    | some (after, some p) =>
      some ({ after with link := pktSetLink after.link (some p) none }, some p, some prec)

def pktqPeek (world : PktqWorld) : PktqWorld × Option Nat × Option Nat :=
  if world.pq.len = 0 then (world, none, none)
  else
    let prec := lowerHiPrec world.pq.q world.pq.hiPrec
    (world.withHiPrec prec, (world.pq.q prec).head, some prec)

def pktqPeekTail (world : PktqWorld) : Option Nat × Option Nat :=
  if world.pq.len = 0 then (none, none)
  else
    let prec := lowestPrec world.pq
    ((world.pq.q prec).tail, some prec)

def pktqMlen (world : PktqWorld) (precBmp : BitVec 32) : Nat :=
  (((List.range (world.pq.hiPrec + 1)).filter (precInBmp precBmp)).map
    fun prec => (world.pq.q prec).len).sum

/-- The precedence a restricted scan settles on. -/
def scanBmp (pq : Pktq) (precBmp : BitVec 32) (prec : Nat) : Option Nat :=
  scanDown (fun prec => precInBmp precBmp prec && (pq.q prec).head.isSome) prec

def pktqMpeek (world : PktqWorld) (precBmp : BitVec 32) : PktqWorld × Option Nat × Option Nat :=
  if world.pq.len = 0 then (world, none, none)
  else
    let hiPrec := lowerHiPrec world.pq.q world.pq.hiPrec
    let lowered := world.withHiPrec hiPrec
    match scanBmp world.pq precBmp hiPrec with
    | none => (lowered, none, none)
    | some prec => (lowered, (world.pq.q prec).head, some prec)

def pktqMdeq (world : PktqWorld) (precBmp : BitVec 32) : PktqWorld × Option Nat × Option Nat :=
  if world.pq.len = 0 then (world, none, none)
  else
    let hiPrec := lowerHiPrec world.pq.q world.pq.hiPrec
    let lowered := world.withHiPrec hiPrec
    match scanBmp world.pq precBmp hiPrec with
    | none => (lowered, none, none)
    | some prec =>
      let (after, p) := takeHead lowered prec
      (after, p, if p.isSome then some prec else none)

/-- The variables of the loop of `pktq_pflush`, and the packets freed so far. -/
structure FlushState where
  head : Option Nat
  link : Nat → Option Nat
  len : Nat
  total : Nat
  prev : Option Nat
  p : Option Nat
  freed : List Nat

/-- The loop body for a matching packet. -/
def flushDrop (state : FlushState) (p : Nat) : FlushState :=
  let isHead := state.head = some p
  let head := if isHead then state.link p else state.head
  let link := if isHead then state.link else pktSetLink state.link state.prev (state.link p)
  let link := pktSetLink link (some p) none
  { state with
    head := head
    link := link
    len := lenDec state.len
    total := lenDec state.total
    freed := state.freed ++ [p]
    p := if isHead then head else state.prev.bind link }

/-- The loop body for any other packet. -/
def flushPass (state : FlushState) (p : Nat) : FlushState :=
  { state with prev := some p, p := state.link p }

def pflushLoop (fn : Option (Nat → Bool)) : Nat → FlushState → Option FlushState
  | 0, _ => none
  | fuel + 1, state =>
    match state.p with
    | none => some state
    | some p =>
      if fnMatches fn p then pflushLoop fn fuel (flushDrop state p)
      else pflushLoop fn fuel (flushPass state p)

/-- What the loop leaves behind is written back; only an emptied list loses its tail. -/
def flushStore (world : PktqWorld) (prec : Nat) (done : FlushState) : PktqWorld :=
  let q := world.pq.q prec
  let tail := if done.head = none then none else q.tail
  world.store done.link prec { q with head := done.head, tail := tail, len := done.len }
    done.total world.pq.hiPrec

def flushStart (world : PktqWorld) (prec : Nat) : FlushState :=
  let q := world.pq.q prec
  { head := q.head, link := world.link, len := q.len, total := world.pq.len, prev := none,
    p := q.head, freed := [] }

/-- The queue afterwards, with the packets given to `PKTFREE`. -/
def pktqPflush (world : PktqWorld) (prec : Nat) (fn : Option (Nat → Bool)) :
    Option (PktqWorld × List Nat) :=
  match pflushLoop fn walkFuel (flushStart world prec) with
  | none => none
  | some done => some (flushStore world prec done, done.freed)

def flushPrecs (fn : Option (Nat → Bool)) :
    List Nat → PktqWorld × List Nat → Option (PktqWorld × List Nat)
  | [], reached => some reached
  | prec :: precs, (world, freed) =>
    match pktqPflush world prec fn with
    | none => none
    | some (after, more) => flushPrecs fn precs (after, freed ++ more)

def pktqFlush (world : PktqWorld) (fn : Option (Nat → Bool)) : Option (PktqWorld × List Nat) :=
  if world.pq.len = 0 then some (world, [])
  else flushPrecs fn (List.range world.pq.numPrec) (world, [])

end BcmDhd.PacketQueue
