import BcmDhd.PacketQueue.Representation

namespace BcmDhd.PacketQueue

open BcmDhd.Lib

/-- The calls. A splice names the list that its argument spells. `setLink` is
other code, which owns the link fields of packets that are not queued. -/
inductive PktqCall where
  | setLink (p : Nat) (target : Option Nat)
  | penq (prec p : Nat)
  | penqHead (prec p : Nat)
  | append (prec : Nat) (list : Spktq) (packets : List Nat)
  | prepend (prec : Nat) (list : Spktq) (packets : List Nat)
  | pdeq (prec : Nat)
  | pdeqWithFn (prec : Nat) (fn : Option (Nat → Bool))
  | pdeqTail (prec : Nat)
  | pdel (pktbuf : Option Nat) (prec : Nat)
  | deq
  | deqTail
  | peek
  | peekTail
  | mlen (precBmp : BitVec 32)
  | mpeek (precBmp : BitVec 32)
  | mdeq (precBmp : BitVec 32)

/-- `packet` carries the precedence written through `prec_out`, if any. -/
inductive PktqAnswer where
  | done
  | packet (p : Option Nat) (precOut : Option Nat)
  | spliced (list : Spktq)
  | removed (ret : Bool)
  | length (len : Nat)
  | stuck
  deriving DecidableEq

/-- The result of a call whose loop may fail to end. -/
def orStuck (world : PktqWorld) : Option (PktqWorld × PktqAnswer) → PktqWorld × PktqAnswer
  | none => (world, .stuck)
  | some result => result

def pktqStep (world : PktqWorld) : PktqCall → PktqWorld × PktqAnswer
  | .setLink p target => ({ world with link := pktSetLink world.link (some p) target }, .done)
  | .penq prec p => (pktqPenq world prec p, .packet (some p) none)
  | .penqHead prec p => (pktqPenqHead world prec p, .packet (some p) none)
  | .append prec list _ => let (after, left) := pktqAppend world prec list; (after, .spliced left)
  | .prepend prec list _ => let (after, left) := pktqPrepend world prec list; (after, .spliced left)
  | .pdeq prec => let (after, p) := pktqPdeq world prec; (after, .packet p none)
  | .pdeqWithFn prec fn =>
    orStuck world ((pktqPdeqWithFn world prec fn).map fun (after, p) => (after, .packet p none))
  | .pdeqTail prec =>
    orStuck world ((pktqPdeqTail world prec).map fun (after, p) => (after, .packet p none))
  | .pdel pktbuf prec =>
    orStuck world ((pktqPdel world pktbuf prec).map fun (after, ret) => (after, .removed ret))
  | .deq => let (after, p, precOut) := pktqDeq world; (after, .packet p precOut)
  | .deqTail =>
    orStuck world ((pktqDeqTail world).map fun (after, p, precOut) => (after, .packet p precOut))
  | .peek => let (after, p, precOut) := pktqPeek world; (after, .packet p precOut)
  | .peekTail => let (p, precOut) := pktqPeekTail world; (world, .packet p precOut)
  | .mlen precBmp => (world, .length (pktqMlen world precBmp))
  | .mpeek precBmp => let (after, p, precOut) := pktqMpeek world precBmp; (after, .packet p precOut)
  | .mdeq precBmp => let (after, p, precOut) := pktqMdeq world precBmp; (after, .packet p precOut)

/-- The assertions of an enqueue: no chain is queued, and there is room. A
packet linked to itself passes. -/
def penqAsserts (world : PktqWorld) (prec p : Nat) : Prop :=
  prec < world.pq.numPrec ∧ ¬ (world.link p ≠ none ∧ world.link p ≠ some p) ∧
    ¬ pktqFull world.pq ∧ ¬ pktqPfull world.pq prec

/-- The assertions of a splice, which an empty list skips. -/
def spliceAsserts (world : PktqWorld) (prec : Nat) (list : Spktq) : Prop :=
  list.q.head = none ∨
    (prec < world.pq.numPrec ∧ list.q.tail.bind world.link = none ∧
      ¬ pktqFull world.pq ∧ ¬ pktqPfull world.pq prec)

/-- A single-precedence queue handed to a splice spells the packets named. -/
def SpellsList (world : PktqWorld) (list : Spktq) (packets : List Nat) : Prop :=
  Spells world.link list.q.head list.q.tail packets ∧ list.q.len = packets.length

/-- Calls as the source asserts them. -/
def pktqMachine : Machine PktqWorld PktqCall PktqAnswer where
  step := pktqStep
  admits world
    | .penq prec p | .penqHead prec p => penqAsserts world prec p
    | .append prec list packets | .prepend prec list packets =>
      spliceAsserts world prec list ∧ SpellsList world list packets
    | .pdeq prec | .pdeqWithFn prec _ | .pdeqTail prec | .pdel _ prec => prec < world.pq.numPrec
    | _ => True

instance (world : PktqWorld) (prec p : Nat) : Decidable (penqAsserts world prec p) :=
  inferInstanceAs (Decidable (_ ∧ ¬ (_ ∧ _) ∧ ¬ (_ ≥ _) ∧ ¬ (_ ≥ _)))

instance (world : PktqWorld) (prec : Nat) (list : Spktq) :
    Decidable (spliceAsserts world prec list) :=
  inferInstanceAs (Decidable (_ ∨ (_ ∧ _ ∧ ¬ (_ ≥ _) ∧ ¬ (_ ≥ _))))

instance (world : PktqWorld) (list : Spktq) (packets : List Nat) :
    Decidable (SpellsList world list packets) := inferInstanceAs (Decidable (_ ∧ _))

instance (world : PktqWorld) : (call : PktqCall) → Decidable (pktqMachine.admits world call)
  | .penq prec p | .penqHead prec p => inferInstanceAs (Decidable (penqAsserts world prec p))
  | .append prec list packets | .prepend prec list packets =>
    inferInstanceAs (Decidable (spliceAsserts world prec list ∧ SpellsList world list packets))
  | .pdeq prec | .pdeqWithFn prec _ | .pdeqTail prec | .pdel _ prec =>
    inferInstanceAs (Decidable (prec < world.pq.numPrec))
  | .setLink .. | .deq | .deqTail | .peek | .peekTail | .mlen _ | .mpeek _ | .mdeq _ => .isTrue trivial

/-- The abstract queue: one list of packets per precedence. -/
structure PktqSpec where
  numPrec : Nat
  lists : Nat → List Nat

namespace PktqSpec

def put (spec : PktqSpec) (prec : Nat) (packets : List Nat) : PktqSpec :=
  { spec with lists := Function.update spec.lists prec packets }

/-- The non-empty precedences among the allowed ones, in ascending order. -/
def occupied (spec : PktqSpec) (allowed : Nat → Bool) : List Nat :=
  (List.range spec.numPrec).filter fun prec => allowed prec && !(spec.lists prec).isEmpty

/-- The packet at one end of the chosen precedence, with that precedence. -/
def look (spec : PktqSpec) (prec : Option Nat) (pick : List Nat → Option Nat) : PktqAnswer :=
  .packet (prec.bind fun prec => pick (spec.lists prec)) prec

def keep (spec : PktqSpec) (prec : Option Nat) (rest : List Nat → List Nat) : PktqSpec :=
  match prec with
  | none => spec
  | some prec => spec.put prec (rest (spec.lists prec))

def highest (spec : PktqSpec) : Option Nat := (spec.occupied fun _ => true).getLast?

def lowest (spec : PktqSpec) : Option Nat := (spec.occupied fun _ => true).head?

def highestIn (spec : PktqSpec) (precBmp : BitVec 32) : Option Nat :=
  (spec.occupied (precInBmp precBmp)).getLast?

def step (spec : PktqSpec) : PktqCall → PktqSpec × PktqAnswer
  | .setLink _ _ => (spec, .done)
  | .penq prec p => (spec.put prec (spec.lists prec ++ [p]), .packet (some p) none)
  | .penqHead prec p => (spec.put prec (p :: spec.lists prec), .packet (some p) none)
  | .append prec list packets =>
    if packets = [] then (spec, .spliced list)
    else (spec.put prec (spec.lists prec ++ packets), .spliced list.emptied)
  | .prepend prec list packets =>
    if packets = [] then (spec, .spliced list)
    else (spec.put prec (packets ++ spec.lists prec), .spliced list.emptied)
  | .pdeq prec =>
    (spec.put prec (spec.lists prec).tail, .packet (spec.lists prec).head? none)
  | .pdeqWithFn prec fn =>
    (spec.put prec ((spec.lists prec).eraseP (fnMatches fn)),
      .packet ((spec.lists prec).find? (fnMatches fn)) none)
  | .pdeqTail prec =>
    (spec.put prec (spec.lists prec).dropLast, .packet (spec.lists prec).getLast? none)
  | .pdel none _ => (spec, .removed false)
  | .pdel (some packet) prec =>
    (spec.put prec ((spec.lists prec).erase packet), .removed (packet ∈ spec.lists prec))
  | .deq => (spec.keep spec.highest List.tail, spec.look spec.highest List.head?)
  | .deqTail => (spec.keep spec.lowest List.dropLast, spec.look spec.lowest List.getLast?)
  | .peek => (spec, spec.look spec.highest List.head?)
  | .peekTail => (spec, spec.look spec.lowest List.getLast?)
  | .mlen precBmp =>
    (spec, .length (((List.range spec.numPrec).filter (precInBmp precBmp)).map
      fun prec => (spec.lists prec).length).sum)
  | .mpeek precBmp => (spec, spec.look (spec.highestIn precBmp) List.head?)
  | .mdeq precBmp =>
    (spec.keep (spec.highestIn precBmp) List.tail, spec.look (spec.highestIn precBmp) List.head?)

/-- What the callers promise: nothing is queued twice, other code leaves queued
packets alone, and a splice does not exceed the largest queue. -/
def machine : Machine PktqSpec PktqCall PktqAnswer where
  step := step
  admits spec
    | .setLink p _ | .penq _ p | .penqHead _ p => Unqueued spec.numPrec spec.lists p
    | .append _ _ packets | .prepend _ _ packets =>
      (∀ p ∈ packets, Unqueued spec.numPrec spec.lists p) ∧
        total spec.numPrec spec.lists + packets.length ≤ pktqLenMax
    | _ => True

instance (numPrec : Nat) (lists : Nat → List Nat) (p : Nat) :
    Decidable (Unqueued numPrec lists p) :=
  inferInstanceAs (Decidable (∀ prec < numPrec, p ∉ lists prec))

instance (spec : PktqSpec) : (call : PktqCall) → Decidable (machine.admits spec call)
  | .setLink p _ | .penq _ p | .penqHead _ p =>
    inferInstanceAs (Decidable (Unqueued spec.numPrec spec.lists p))
  | .append _ _ packets | .prepend _ _ packets =>
    inferInstanceAs (Decidable ((∀ p ∈ packets, Unqueued spec.numPrec spec.lists p) ∧ _ ≤ pktqLenMax))
  | .pdeq _ | .pdeqWithFn .. | .pdeqTail _ | .pdel .. | .deq | .deqTail | .peek | .peekTail
  | .mlen _ | .mpeek _ | .mdeq _ => .isTrue trivial

def empty (numPrec : Nat) : PktqSpec := { numPrec, lists := fun _ => [] }

end PktqSpec

end BcmDhd.PacketQueue
