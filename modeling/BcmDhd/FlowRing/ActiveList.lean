import BcmDhd.FlowRing.LookupSoundness

namespace BcmDhd.FlowRing

open BcmDhd.Lib BcmDhd.Utils

/-- The rings opened and not yet cleaned, latest first, and all rings ever opened. -/
structure ActiveRecord where
  opened : List Nat
  entered : List Nat

def noteCall (record : ActiveRecord) (call : FlowCall) : ActiveRecord :=
  match ringEvent call with
  | .none => record
  | .opened id => { opened := id :: record.opened, entered := id :: record.entered }
  | .cleaned id => { record with opened := record.opened.erase id }

/-- The flow rings, and which of them the responses so far have opened. -/
def activeMachine : Machine (FlowDhd × ActiveRecord) FlowCall FlowAnswer :=
  flowMachine.track noteCall

/-- The nodes of a well formed active list. -/
def activeNodes (record : ActiveRecord) : List FlowringListNode := record.opened.map .ring

/-- Rings are opened and cleaned inside the table. A ring is opened once, and one that
has left the list is cleaned again only where its stale neighbours already point past it. -/
def ListSafe (tracked : FlowDhd × ActiveRecord) (call : FlowCall) : Prop :=
  (ringEvent call).Inside tracked.1.numFlowRings ∧
    match ringEvent call with
    | .none => True
    | .opened id => id ∉ tracked.2.opened
    | .cleaned id => id ∈ tracked.2.entered → id ∈ tracked.2.opened ∨
        DllHarmless tracked.1.flowringList (· ∈ .constFlowring :: activeNodes tracked.2) (.ring id)

/-- The list after a call, by what the call means for it. -/
def listAfter (list : Dll FlowringListNode) : RingEvent → Dll FlowringListNode
  | .none => list
  | .opened id => dllPrepend list .constFlowring (.ring id)
  | .cleaned id => dllDelete list (.ring id)

theorem FlowEffect.list {dhd dhd' : FlowDhd} {call : FlowCall} (effect : FlowEffect dhd call dhd') :
    dhd'.flowringList = listAfter dhd.flowringList (ringEvent call) := by
  cases effect with
  | quiet event quiet => rw [event, quiet.list, listAfter]
  | allocated inside fresh later => rfl
  | freed ifindex id => exact (dhdFlowidFree_rest dhd ifindex id).2.2
  | opened event =>
    rw [event]
    rfl
  | cleaned event => rw [event, dhdBusCleanFlowRing_list, listAfter]

theorem flow_run_list {dhd : FlowDhd} (valid : LookupInvariant dhd) (calls : List FlowCall) :
    (flowMachine.run dhd calls).flowringList =
      (calls.map ringEvent).foldl listAfter dhd.flowringList := by
  induction calls generalizing dhd with
  | nil => rfl
  | cons call rest ih =>
    have effect := flowMachine_effect valid call
    rw [Machine.run_cons, ih (valid.effect effect), effect.list]
    rfl

/-- The head of the list or a ring that has been on it. -/
def Entered (record : ActiveRecord) (node : FlowringListNode) : Prop :=
  node = .constFlowring ∨ ∃ id ∈ record.entered, node = .ring id

structure ActiveInvariant (num : Nat) (tracked : FlowDhd × ActiveRecord) : Prop where
  lookup : LookupInvariant tracked.1
  size : tracked.1.numFlowRings = num
  table : tracked.1.outsideTable = false
  list : DllRing tracked.1.flowringList .constFlowring (activeNodes tracked.2)
  inside : ∀ id ∈ tracked.2.opened, id < num
  settled : DllSettled tracked.1.flowringList (Entered tracked.2)

namespace ActiveInvariant

variable {num : Nat} {dhd : FlowDhd} {record : ActiveRecord} {id : Nat}

theorem ring_injective : Function.Injective FlowringListNode.ring := fun _ _ same => by
  injection same

theorem clean_unentered (valid : ActiveInvariant num (dhd, record)) (outside : id ∉ record.entered) :
    dllDelete dhd.flowringList (.ring id) = dhd.flowringList := by
  apply valid.settled.delete_of_not_entered
  rintro (head | ⟨other, member, same⟩)
  · cases head
  · injection same with same
    exact outside (same ▸ member)

theorem list_cleaned (valid : ActiveInvariant num (dhd, record))
    (safe : id ∈ record.entered → id ∈ record.opened ∨
      DllHarmless dhd.flowringList (· ∈ .constFlowring :: activeNodes record) (.ring id)) :
    DllRing (dllDelete dhd.flowringList (.ring id)) .constFlowring
      ((record.opened.erase id).map .ring) := by
  by_cases member : id ∈ record.opened
  · rw [List.map_erase ring_injective]
    exact valid.list.delete (List.mem_map_of_mem member)
  · rw [List.erase_of_not_mem member]
    by_cases was : id ∈ record.entered
    · exact valid.list.delete_harmless ((safe was).resolve_left member)
    · rw [valid.clean_unentered was]
      exact valid.list

theorem list_opened (valid : ActiveInvariant num (dhd, record)) (absent : id ∉ record.opened) :
    DllRing (dllPrepend dhd.flowringList .constFlowring (.ring id)) .constFlowring
      ((id :: record.opened).map .ring) := by
  apply valid.list.prepend
  simpa [activeNodes] using absent

theorem settled_opened (valid : ActiveInvariant num (dhd, record)) :
    DllSettled (dllPrepend dhd.flowringList .constFlowring (.ring id))
      (Entered { opened := id :: record.opened, entered := id :: record.entered }) := by
  have headIn : Entered record .constFlowring := Or.inl rfl
  have different : FlowringListNode.ring id ≠ .constFlowring := by
    intro same
    cases same
  have grown := valid.settled.prepend headIn different
  have same : ∀ node, Entered { opened := id :: record.opened, entered := id :: record.entered } node ↔
      node = .ring id ∨ Entered record node := by
    intro node
    simp only [Entered, List.mem_cons, exists_eq_or_imp]
    tauto
  simpa only [funext fun node => propext (same node)] using grown

theorem of_list {list : Dll FlowringListNode} (lookup : LookupInvariant dhd)
    (size : dhd.numFlowRings = num) (table : dhd.outsideTable = false) (same : dhd.flowringList = list)
    (ring : DllRing list .constFlowring (activeNodes record))
    (inside : ∀ id ∈ record.opened, id < num) (settled : DllSettled list (Entered record)) :
    ActiveInvariant num (dhd, record) := by
  subst same
  exact ⟨lookup, size, table, ring, inside, settled⟩

theorem step (valid : ActiveInvariant num (dhd, record)) (call : FlowCall)
    (safe : ListSafe (dhd, record) call) :
    ActiveInvariant num (flowMachine.next dhd call, noteCall record call) := by
  have effect := flowMachine_effect valid.lookup call
  have lookup := valid.lookup.effect effect
  have size := effect.size.trans valid.size
  have list := effect.list
  have table := (effect.outside safe.1).trans valid.table
  obtain ⟨inside, safe⟩ := safe
  dsimp only at safe
  simp only [noteCall]
  cases event : ringEvent call with
  | none =>
    rw [event] at list
    exact of_list lookup size table list valid.list valid.inside valid.settled
  | opened id =>
    rw [event] at list safe inside
    refine of_list lookup size table list (valid.list_opened safe) ?_ valid.settled_opened
    intro other member
    rcases List.mem_cons.mp member with rfl | old
    · exact inside.trans_eq valid.size
    · exact valid.inside other old
  | cleaned id =>
    rw [event] at list safe
    refine of_list lookup size table list (valid.list_cleaned safe) ?_ valid.settled.delete
    intro other member
    exact valid.inside other (List.mem_of_mem_erase member)

end ActiveInvariant

section Runs

/-- No ring has been opened yet. -/
def noRings : ActiveRecord := { opened := [], entered := [] }

theorem active_init {num : Nat} (admissible : FlowRingsAdmissible num) :
    ActiveInvariant num (dhdFlowRingsInit num, noRings) := by
  refine ⟨flowRingsInit_valid admissible, rfl, rfl, ⟨⟨rfl, rfl⟩, List.nodup_singleton _⟩, ?_, ?_, ?_⟩
  · intro id member
    cases member
  · intro node outside
    exact ⟨rfl, rfl⟩
  · intro node inside
    exact ⟨inside, inside⟩

theorem activeMachine_preserves (num : Nat) :
    (activeMachine.restrict ListSafe).Preserves (ActiveInvariant num) := by
  intro ⟨dhd, record⟩ call valid admitted
  exact valid.step call admitted.2

end Runs

section Repetition

/-- Two flows of an access point interface, opened. -/
def openedFlows : List FlowCall :=
  [.interfaceFlowInfo 0 wlcEIfAdd 1, .flowidUpdate 0 0 stationAddr stationAddr true,
    .flowidUpdate 0 1 stationAddr stationAddr true, .flowRingCreateResponse 3 bcmeOk,
    .flowRingCreateResponse 2 bcmeOk]

end Repetition

end BcmDhd.FlowRing
