import Mathlib.Data.List.DropRight
import BcmDhd.Utils.BcmRing

namespace BcmDhd.Utils

open BcmDhd.Lib

universe u

/-- Everything ever produced; of it the consumer knows the first `synced` items
and has taken the first `taken`, and the producer knows that the first `returned`
are gone. -/
structure DelayedFifo (Item : Type u) where
  produced : List Item
  synced : Nat
  taken : Nat
  returned : Nat

namespace DelayedFifo

def empty (Item : Type u) : DelayedFifo Item where
  produced := []
  synced := 0
  taken := 0
  returned := 0

/-- Knowledge lags behind, and never more than `capacity` items are unreturned. -/
structure Ordered {Item : Type u} (capacity : Nat) (fifo : DelayedFifo Item) : Prop where
  returned : fifo.returned ≤ fifo.taken
  taken : fifo.taken ≤ fifo.synced
  synced : fifo.synced ≤ fifo.produced.length
  fits : fifo.produced.length ≤ fifo.returned + capacity

end DelayedFifo

variable {Elem : Type u}

/-- The FIFO of slots and elements. The slots are handed out in turn. -/
def fifoMachine (Elem : Type u) (ringSize : Nat) :
    Machine (DelayedFifo (Nat × Elem)) (WorkqCall Elem) (WorkqAnswer Elem) where
  step fifo
    | .prod elem =>
      if fifo.produced.length = fifo.returned + (ringSize - 1) then (fifo, .full)
      else
        let slot := fifo.produced.length % ringSize
        ({ fifo with produced := fifo.produced ++ [(slot, elem)] }, .produced slot)
    | .cons =>
      if fifo.taken = fifo.synced then (fifo, .empty)
      else
        match fifo.produced[fifo.taken]? with
        | none => (fifo, .empty)
        | some (slot, elem) => ({ fifo with taken := fifo.taken + 1 }, .consumed slot elem)
    | .prodSync => ({ fifo with synced := fifo.produced.length }, .none)
    | .consRefresh => ({ fifo with synced := fifo.produced.length }, .none)
    | .consSync => ({ fifo with returned := fifo.taken }, .none)
    | .prodRefresh => ({ fifo with returned := fifo.taken }, .none)
  admits _ _ := True

section Ordered

variable {fifo : DelayedFifo (Nat × Elem)} {ringSize : Nat}

theorem ordered_empty (capacity : Nat) :
    (DelayedFifo.empty (Nat × Elem)).Ordered capacity := by
  constructor <;> simp [DelayedFifo.empty]

theorem fifo_cons (ordered : fifo.Ordered (ringSize - 1)) :
    (fifo.taken = fifo.synced ∧
      (fifoMachine Elem ringSize).step fifo .cons = (fifo, .empty)) ∨
    ∃ slot elem, fifo.taken < fifo.synced ∧ fifo.produced[fifo.taken]? = some (slot, elem) ∧
      (fifoMachine Elem ringSize).step fifo .cons =
        ({ fifo with taken := fifo.taken + 1 }, .consumed slot elem) := by
  by_cases drained : fifo.taken = fifo.synced
  · exact Or.inl ⟨drained, if_pos drained⟩
  · have known := ordered.taken
    have inside : fifo.taken < fifo.produced.length := by
      have := ordered.synced
      omega
    refine Or.inr ⟨fifo.produced[fifo.taken].1, fifo.produced[fifo.taken].2, by omega, ?_, ?_⟩
    · rw [List.getElem?_eq_getElem inside]
    · simp only [fifoMachine, if_neg drained, List.getElem?_eq_getElem inside]

theorem ordered_step (ordered : fifo.Ordered (ringSize - 1)) (call : WorkqCall Elem) :
    ((fifoMachine Elem ringSize).next fifo call).Ordered (ringSize - 1) := by
  obtain ⟨returned, taken, synced, fits⟩ := ordered
  cases call with
  | prod elem =>
    simp only [fifoMachine, Machine.next]
    split
    · exact ⟨returned, taken, synced, fits⟩
    · refine ⟨returned, taken, ?_, ?_⟩
      · rw [List.length_append]
        exact Nat.le_add_right_of_le synced
      · simp only [List.length_append, List.length_singleton]
        omega
  | cons =>
    rcases fifo_cons ⟨returned, taken, synced, fits⟩ with ⟨-, drained⟩ | ⟨slot, elem, known, -, took⟩
    · rw [Machine.next, drained]
      exact ⟨returned, taken, synced, fits⟩
    · rw [Machine.next, took]
      exact ⟨Nat.le_succ_of_le returned, known, synced, fits⟩
  | prodSync => exact ⟨returned, taken.trans synced, le_rfl, fits⟩
  | consRefresh => exact ⟨returned, taken.trans synced, le_rfl, fits⟩
  | consSync => exact ⟨le_rfl, taken, synced, fits.trans (Nat.add_le_add_right returned _)⟩
  | prodRefresh => exact ⟨le_rfl, taken, synced, fits.trans (Nat.add_le_add_right returned _)⟩

end Ordered

section Refinement

/-- Both ring contexts are made of the four counters, modulo the ring size, and
the buffer holds what has not been taken. -/
structure WorkqRepresents (workq : BcmWorkqPair Elem) (fifo : DelayedFifo (Nat × Elem)) : Prop where
  prodWrite : workq.prod.write = fifo.produced.length % workq.ringSize
  prodRead : workq.prod.read = fifo.returned % workq.ringSize
  consWrite : workq.cons.write = fifo.synced % workq.ringSize
  consRead : workq.cons.read = fifo.taken % workq.ringSize
  slot : ∀ i item, fifo.produced[i]? = some item → item.1 = i % workq.ringSize
  stored : ∀ i item, fifo.taken ≤ i → fifo.produced[i]? = some item → workq.buffer item.1 = item.2

namespace WorkqRepresents

variable {workq : BcmWorkqPair Elem} {fifo : DelayedFifo (Nat × Elem)}

theorem init (buffer : Nat → Elem) (ringSize : Nat) :
    WorkqRepresents (bcmWorkqInit buffer ringSize) (DelayedFifo.empty (Nat × Elem)) := by
  constructor <;> simp [bcmWorkqInit, bcmRingInit, DelayedFifo.empty]

section

variable (represents : WorkqRepresents workq fifo)
  (positive : 0 < workq.ringSize)
  (ordered : fifo.Ordered (workq.ringSize - 1))
include represents positive ordered

theorem prod (elem : Elem) :
    WorkqRepresents ((workqMachine Elem).next workq (.prod elem))
        ((fifoMachine Elem workq.ringSize).next fifo (.prod elem)) ∧
      (workqMachine Elem).answer workq (.prod elem) =
        (fifoMachine Elem workq.ringSize).answer fifo (.prod elem) := by
  obtain ⟨returned, taken, synced, fits⟩ := ordered
  have outcome := bcmRingProd_of_counters (by omega) (by omega) represents.prodWrite
    represents.prodRead
  by_cases full : fifo.produced.length = fifo.returned + (workq.ringSize - 1)
  · rw [if_pos (by omega)] at outcome
    simp only [workqMachine, fifoMachine, Machine.next, Machine.answer, outcome, if_pos full]
    exact ⟨represents, trivial⟩
  · rw [if_neg (by omega)] at outcome
    simp only [workqMachine, fifoMachine, Machine.next, Machine.answer, outcome, if_neg full,
      and_true]
    refine ⟨?_, represents.prodRead, represents.consWrite, represents.consRead, ?_, ?_⟩
    · simp
    · intro i item found
      rcases getElem?_concat_cases found with ⟨-, old⟩ | ⟨rfl, rfl⟩
      · exact represents.slot i item old
      · rfl
    · intro i item untaken found
      have untaken : fifo.taken ≤ i := untaken
      rcases getElem?_concat_cases found with ⟨inside, old⟩ | ⟨rfl, rfl⟩
      · -- the new slot is less than a turn ahead of every slot still in use
        have place := represents.slot i item old
        have other : item.1 ≠ fifo.produced.length % workq.ringSize := by
          rw [place, ne_comm, ne_eq, Circular.counters_eq_iff inside.le (by omega)]
          omega
        dsimp only
        rw [Function.update_of_ne other]
        exact represents.stored i item untaken old
      · exact Function.update_self _ _ _

theorem cons : WorkqRepresents ((workqMachine Elem).next workq .cons)
        ((fifoMachine Elem workq.ringSize).next fifo .cons) ∧
      (workqMachine Elem).answer workq .cons =
        (fifoMachine Elem workq.ringSize).answer fifo .cons := by
  have lag := ordered
  obtain ⟨returned, taken, synced, fits⟩ := lag
  have outcome := bcmRingCons_of_counters taken (by omega) represents.consWrite represents.consRead
  rw [Machine.next, Machine.answer]
  rcases fifo_cons ordered with ⟨drained, step⟩ | ⟨slot, elem, known, found, step⟩
  · rw [if_pos drained] at outcome
    rw [Machine.next, Machine.answer, step]
    simp only [workqMachine, outcome]
    exact ⟨represents, trivial⟩
  · rw [if_neg known.ne] at outcome
    rw [Machine.next, Machine.answer, step]
    simp only [workqMachine, outcome]
    have place : slot = fifo.taken % workq.ringSize := represents.slot fifo.taken _ found
    have elem_eq : workq.buffer slot = elem := represents.stored fifo.taken _ le_rfl found
    refine ⟨⟨represents.prodWrite, represents.prodRead, represents.consWrite, rfl, represents.slot,
      ?_⟩, by rw [← place, elem_eq]⟩
    intro i item untaken
    exact represents.stored i item (Nat.le_of_succ_le untaken)

theorem drained (empty : (workqMachine Elem).answer workq .cons = .empty) : fifo.taken = fifo.synced := by
  rw [(represents.cons positive ordered).2] at empty
  rcases fifo_cons ordered with ⟨drained, -⟩ | ⟨slot, elem, -, -, step⟩
  · exact drained
  · rw [Machine.answer, step] at empty
    cases empty

theorem slot_returned {elem : Elem} {slot : Nat}
    (answer : (workqMachine Elem).answer workq (.prod elem) = .produced slot) {i : Nat}
    {item : Nat × Elem} (found : fifo.produced[i]? = some item) (same : item.1 = slot) :
    i < fifo.returned := by
  rw [(represents.prod positive ordered elem).2] at answer
  simp only [fifoMachine, Machine.answer] at answer
  split at answer
  · cases answer
  · rename_i room
    injection answer with next
    have place := represents.slot i item found
    obtain ⟨inside, -⟩ := List.getElem?_eq_some_iff.mp found
    by_contra kept
    have fits := ordered.fits
    have near : fifo.produced.length < i + workq.ringSize := by omega
    have here := (Circular.counters_eq_iff inside.le near).mp (by rw [next, ← same, place])
    omega

theorem prodAvail_eq : bcmRingProdAvail workq.prod workq.ringSize =
      (workq.ringSize : Int) - 1 - ((fifo.produced.length : Int) - fifo.returned) := by
  obtain ⟨returned, taken, synced, fits⟩ := ordered
  have used := bcmRingConsAvail_of_counters (by omega) (by omega) represents.prodWrite
    represents.prodRead
  have total := bcmRingProdAvail_add_consAvail workq.prod workq.ringSize
  omega

theorem consAvail_eq : bcmRingConsAvail workq.cons workq.ringSize = (fifo.synced : Int) - fifo.taken := by
  obtain ⟨returned, taken, synced, fits⟩ := ordered
  exact bcmRingConsAvail_of_counters taken (by omega) represents.consWrite represents.consRead

end

theorem prodSync (represents : WorkqRepresents workq fifo) :
    WorkqRepresents (bcmWorkqProdSync workq) { fifo with synced := fifo.produced.length } :=
  ⟨represents.prodWrite, represents.prodRead, represents.prodWrite, represents.consRead,
    represents.slot, represents.stored⟩

theorem consSync (represents : WorkqRepresents workq fifo) :
    WorkqRepresents (bcmWorkqConsSync workq) { fifo with returned := fifo.taken } :=
  ⟨represents.prodWrite, represents.consRead, represents.consWrite, represents.consRead,
    represents.slot, represents.stored⟩

end WorkqRepresents

theorem workqMachine_ringSize (workq : BcmWorkqPair Elem) (call : WorkqCall Elem) :
    ((workqMachine Elem).next workq call).ringSize = workq.ringSize := by
  cases call with
  | prod elem =>
    simp only [workqMachine, Machine.next]
    split <;> rfl
  | cons =>
    simp only [workqMachine, Machine.next]
    split <;> rfl
  | _ => rfl

theorem workq_refines_fifo {ringSize : Nat} (positive : 0 < ringSize) :
    (workqMachine Elem).Simulation (fifoMachine Elem ringSize) fun workq fifo =>
      workq.ringSize = ringSize ∧ fifo.Ordered (ringSize - 1) ∧ WorkqRepresents workq fifo := by
  intro workq fifo call related _ _
  obtain ⟨rfl, ordered, represents⟩ := related
  have kept : WorkqRepresents ((workqMachine Elem).next workq call)
        ((fifoMachine Elem workq.ringSize).next fifo call) ∧
      (workqMachine Elem).answer workq call = (fifoMachine Elem workq.ringSize).answer fifo call := by
    cases call with
    | prod elem => exact represents.prod positive ordered elem
    | cons => exact represents.cons positive ordered
    | prodSync => exact ⟨represents.prodSync, rfl⟩
    | consRefresh => exact ⟨represents.prodSync, rfl⟩
    | consSync => exact ⟨represents.consSync, rfl⟩
    | prodRefresh => exact ⟨represents.consSync, rfl⟩
  exact ⟨⟨workqMachine_ringSize workq call, ordered_step ordered call, kept.1⟩, kept.2⟩

end Refinement

section History

/-- Slot and element of a successful production. -/
def producedItem : WorkqCall Elem × WorkqAnswer Elem → Option (Nat × Elem)
  | (.prod elem, .produced slot) => some (slot, elem)
  | _ => none

/-- Slot and element of a successful consumption. -/
def consumedItem : WorkqCall Elem × WorkqAnswer Elem → Option (Nat × Elem)
  | (_, .consumed slot elem) => some (slot, elem)
  | _ => none

/-- The calls that hand the producer's write index to the consumer. -/
def syncsWrite : WorkqCall Elem → Bool
  | .prodSync => true
  | .consRefresh => true
  | _ => false

/-- The calls that hand the consumer's read index to the producer. -/
def syncsRead : WorkqCall Elem → Bool
  | .consSync => true
  | .prodRefresh => true
  | _ => false

/-- The history up to the last call of a kind. -/
def upTo (syncs : WorkqCall Elem → Bool) (history : List (WorkqCall Elem × WorkqAnswer Elem)) :
    List (WorkqCall Elem × WorkqAnswer Elem) :=
  history.rdropWhile fun entry => !syncs entry.1

/-- The four counters of the FIFO are what the history says they are. -/
structure Recorded (fifo : DelayedFifo (Nat × Elem))
    (history : List (WorkqCall Elem × WorkqAnswer Elem)) : Prop where
  produced : history.filterMap producedItem = fifo.produced
  consumed : history.filterMap consumedItem = fifo.produced.take fifo.taken
  synced : (upTo syncsWrite history).filterMap producedItem = fifo.produced.take fifo.synced
  returned : (upTo syncsRead history).filterMap consumedItem = fifo.produced.take fifo.returned

theorem recorded_empty : Recorded (DelayedFifo.empty (Nat × Elem)) [] := by
  constructor <;> simp [DelayedFifo.empty, upTo]

theorem upTo_concat (syncs : WorkqCall Elem → Bool)
    (history : List (WorkqCall Elem × WorkqAnswer Elem)) (call : WorkqCall Elem)
    (answer : WorkqAnswer Elem) :
    upTo syncs (history ++ [(call, answer)]) =
      if syncs call then history ++ [(call, answer)] else upTo syncs history := by
  rw [upTo, List.rdropWhile_concat]
  cases syncs call <;> simp [upTo]

namespace Recorded

variable {fifo : DelayedFifo (Nat × Elem)} {history : List (WorkqCall Elem × WorkqAnswer Elem)}

section

variable (recorded : Recorded fifo history)
include recorded

theorem idle {call : WorkqCall Elem} {answer : WorkqAnswer Elem}
    (noProd : producedItem (call, answer) = none) (noCons : consumedItem (call, answer) = none)
    (noWrite : syncsWrite call = false) (noRead : syncsRead call = false) :
    Recorded fifo (history ++ [(call, answer)]) := by
  constructor
  · simp [noProd, recorded.produced]
  · simp [noCons, recorded.consumed]
  · simp [upTo_concat, noWrite, recorded.synced]
  · simp [upTo_concat, noRead, recorded.returned]

theorem prod {capacity : Nat} (ordered : fifo.Ordered capacity)
    (slot : Nat) (elem : Elem) :
    Recorded { fifo with produced := fifo.produced ++ [(slot, elem)] }
      (history ++ [(.prod elem, .produced slot)]) := by
  obtain ⟨returned, taken, synced, -⟩ := ordered
  constructor
  · simp [producedItem, recorded.produced]
  · simp [consumedItem, recorded.consumed, List.take_append_of_le_length (taken.trans synced)]
  · simp [upTo_concat, syncsWrite, recorded.synced, List.take_append_of_le_length synced]
  · simp [upTo_concat, syncsRead, recorded.returned,
      List.take_append_of_le_length (returned.trans (taken.trans synced))]

theorem cons {slot : Nat} {elem : Elem}
    (found : fifo.produced[fifo.taken]? = some (slot, elem)) :
    Recorded { fifo with taken := fifo.taken + 1 } (history ++ [(.cons, .consumed slot elem)]) := by
  constructor
  · simp [producedItem, recorded.produced]
  · simp [consumedItem, recorded.consumed, List.take_add_one, found]
  · simp [upTo_concat, syncsWrite, recorded.synced]
  · simp [upTo_concat, syncsRead, recorded.returned]

theorem write_sync {call : WorkqCall Elem}
    (syncs : syncsWrite call = true) :
    Recorded { fifo with synced := fifo.produced.length } (history ++ [(call, .none)]) := by
  have noProd : producedItem (call, .none) = none := by cases call <;> rfl
  have noRead : syncsRead call = false := by cases call <;> first | rfl | cases syncs
  constructor
  · simp [noProd, recorded.produced]
  · simp [consumedItem, recorded.consumed]
  · simp [upTo_concat, syncs, noProd, recorded.produced]
  · simp [upTo_concat, noRead, recorded.returned]

theorem read_sync {call : WorkqCall Elem}
    (syncs : syncsRead call = true) :
    Recorded { fifo with returned := fifo.taken } (history ++ [(call, .none)]) := by
  have noProd : producedItem (call, .none) = none := by cases call <;> rfl
  have noWrite : syncsWrite call = false := by cases call <;> first | rfl | cases syncs
  constructor
  · simp [noProd, recorded.produced]
  · simp [consumedItem, recorded.consumed]
  · simp [upTo_concat, noWrite, recorded.synced]
  · simp [upTo_concat, syncs, consumedItem, recorded.consumed]

theorem step {ringSize : Nat}
    (ordered : fifo.Ordered (ringSize - 1)) (call : WorkqCall Elem) :
    Recorded ((fifoMachine Elem ringSize).next fifo call)
      (history ++ [(call, (fifoMachine Elem ringSize).answer fifo call)]) := by
  cases call with
  | prod elem =>
    simp only [fifoMachine, Machine.next, Machine.answer]
    split
    · exact recorded.idle rfl rfl rfl rfl
    · exact recorded.prod ordered _ elem
  | cons =>
    rw [Machine.next, Machine.answer]
    rcases fifo_cons ordered with ⟨-, drained⟩ | ⟨slot, elem, -, found, took⟩
    · rw [drained]
      exact recorded.idle rfl rfl rfl rfl
    · rw [took]
      exact recorded.cons found
  | prodSync => exact recorded.write_sync rfl
  | consRefresh => exact recorded.write_sync rfl
  | consSync => exact recorded.read_sync rfl
  | prodRefresh => exact recorded.read_sync rfl

end

end Recorded

/-- Every run of the pair of work queues is, call by call, a run of the FIFO. -/
theorem workq_run {ringSize : Nat} (positive : 0 < ringSize) (buffer : Nat → Elem)
    (calls : List (WorkqCall Elem)) :
    ∃ fifo : DelayedFifo (Nat × Elem), fifo.Ordered (ringSize - 1) ∧
      ((workqMachine Elem).run (bcmWorkqInit buffer ringSize) calls).ringSize = ringSize ∧
      WorkqRepresents ((workqMachine Elem).run (bcmWorkqInit buffer ringSize) calls) fifo ∧
      Recorded fifo ((workqMachine Elem).history (bcmWorkqInit buffer ringSize) calls) := by
  have free : (workqMachine Elem).Admitted (bcmWorkqInit buffer ringSize) calls :=
    Machine.admitted_of_forall _ fun _ _ => trivial
  have abstractFree : (fifoMachine Elem ringSize).Admitted (DelayedFifo.empty (Nat × Elem)) calls :=
    Machine.admitted_of_forall _ fun _ _ => trivial
  obtain ⟨⟨size, ordered, represents⟩, same⟩ := (workq_refines_fifo positive).run
    ⟨rfl, ordered_empty (ringSize - 1), WorkqRepresents.init buffer ringSize⟩ free abstractFree
  have preserved : ∀ (fifo : DelayedFifo (Nat × Elem)) past call,
      fifo.Ordered (ringSize - 1) ∧ Recorded fifo past → (fifoMachine Elem ringSize).admits fifo call →
      ((fifoMachine Elem ringSize).next fifo call).Ordered (ringSize - 1) ∧
        Recorded ((fifoMachine Elem ringSize).next fifo call)
          (past ++ [(call, (fifoMachine Elem ringSize).answer fifo call)]) :=
    fun _ _ call valid _ => ⟨ordered_step valid.1 call, valid.2.step valid.1 call⟩
  have recorded := (fifoMachine Elem ringSize).run_history_invariant preserved
    ⟨ordered_empty (ringSize - 1), recorded_empty⟩ abstractFree
  rw [List.nil_append, ← same] at recorded
  exact ⟨_, ordered, size, represents, recorded.2⟩

/-- In every interleaving of a producer and a consumer the consumer gets what was
produced, in order and once, as far as it was synchronised; a slot is produced
again only after the producer learned of its consumption; and each side's count
of what it may do is never too high. -/
theorem workq_delivers_in_order {ringSize : Nat} (sized : 2 ≤ ringSize) (buffer : Nat → Elem)
    (calls : List (WorkqCall Elem)) :
    let workq := (workqMachine Elem).run (bcmWorkqInit buffer ringSize) calls
    let history := (workqMachine Elem).history (bcmWorkqInit buffer ringSize) calls
    let produced := history.filterMap producedItem
    let consumed := history.filterMap consumedItem
    let synced := (upTo syncsWrite history).filterMap producedItem
    let returned := (upTo syncsRead history).filterMap consumedItem
    (consumed <+: produced ∧ consumed <+: synced ∧
      ((workqMachine Elem).answer workq .cons = .empty → consumed = synced)) ∧
    (∀ elem slot, (workqMachine Elem).answer workq (.prod elem) = .produced slot →
      ∀ i item, produced[i]? = some item → item.1 = slot → i < returned.length) ∧
    produced.length ≤ returned.length + (ringSize - 1) ∧
    bcmRingProdAvail workq.prod ringSize ≤
      (ringSize : Int) - 1 - ((produced.length : Int) - consumed.length) ∧
    bcmRingConsAvail workq.cons ringSize ≤ (produced.length : Int) - consumed.length ∧
    bcmRingProdAvail workq.prod ringSize + bcmRingConsAvail workq.prod ringSize = ringSize - 1 ∧
    bcmRingProdAvail workq.cons ringSize + bcmRingConsAvail workq.cons ringSize = ringSize - 1 := by
  intro workq history produced consumed synced returned
  obtain ⟨fifo, ordered, size, represents, recorded⟩ :=
    workq_run (show 0 < ringSize by omega) buffer calls
  have size : workq.ringSize = ringSize := size
  have positive : 0 < workq.ringSize := by omega
  have lag : fifo.Ordered (workq.ringSize - 1) := by rw [size]; exact ordered
  have prodAvail := represents.prodAvail_eq positive lag
  have consAvail := represents.consAvail_eq positive lag
  rw [size] at prodAvail consAvail
  have produced_eq : produced = fifo.produced := recorded.produced
  have consumed_eq : consumed = fifo.produced.take fifo.taken := recorded.consumed
  have synced_eq : synced = fifo.produced.take fifo.synced := recorded.synced
  have returned_eq : returned = fifo.produced.take fifo.returned := recorded.returned
  have taken : consumed.length = fifo.taken := by
    rw [consumed_eq, List.length_take]
    exact min_eq_left (ordered.taken.trans ordered.synced)
  have given : returned.length = fifo.returned := by
    rw [returned_eq, List.length_take]
    exact min_eq_left (ordered.returned.trans (ordered.taken.trans ordered.synced))
  have := ordered.returned
  have := ordered.synced
  refine ⟨⟨?_, ?_, ?_⟩, ?_, ?_, ?_, ?_, bcmRingProdAvail_add_consAvail _ _,
    bcmRingProdAvail_add_consAvail _ _⟩
  · rw [consumed_eq, produced_eq]
    exact List.take_prefix _ _
  · rw [consumed_eq, synced_eq]
    exact List.take_prefix_take_left ordered.taken
  · intro empty
    rw [consumed_eq, synced_eq, represents.drained positive lag empty]
  · intro elem slot answer i item found same
    rw [given]
    rw [produced_eq] at found
    exact represents.slot_returned positive lag answer found same
  · rw [produced_eq, given]
    exact ordered.fits
  · rw [prodAvail, produced_eq, taken]
    omega
  · rw [consAvail, produced_eq, taken]
    omega

/-- Two slots, one of them kept empty: the second element has to wait until the
consumption of the first is synchronised. -/
theorem workq_delivers_in_order_two_slots :
    let calls : List (WorkqCall Nat) := [.prod 7, .prodSync, .cons, .prod 8, .consSync, .prod 9]
    let history := (workqMachine Nat).history (bcmWorkqInit (fun _ => 0) 2) calls
    history.filterMap producedItem = [(0, 7), (1, 9)] ∧
      history.filterMap consumedItem = [(0, 7)] ∧
      history.filterMap consumedItem <+: (upTo syncsWrite history).filterMap producedItem := by
  intro calls history
  exact ⟨by decide, by decide, (workq_delivers_in_order le_rfl (fun _ => 0) calls).1.2.1⟩

end History

end BcmDhd.Utils
