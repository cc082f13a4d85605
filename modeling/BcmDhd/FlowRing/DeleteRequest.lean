import BcmDhd.FlowRing.LifeCycle
import BcmDhd.Msgbuf.H2dRingSafety

/-! The delete requests of flow rings with the message they send: it takes a slot of the control
ring, which others fill too and the dongle empties. -/

namespace BcmDhd.FlowRing

open BcmDhd.Lib BcmDhd.Msgbuf

def bcmeError : Int := -1

def bcmeNomem : Int := -27

/-- `tx_flowring_delete_request_t`. -/
structure TxFlowringDeleteRequest where
  ifId : Nat
  requestId : Nat
  epoch : Nat
  flowRingId : Nat
  reason : Int

/-- `h2dring_ctrl_subn`, with its messages by their byte offset. Only delete requests are kept. -/
structure CtrlSubn where
  h2d : H2dSystem
  seqnum : Nat
  messages : Nat → Option TxFlowringDeleteRequest

structure FlowProt where
  dhd : FlowDhd
  ctrl : CtrlSubn

/-- A message is put into the slot and announced. -/
def CtrlSubn.send (ctrl : CtrlSubn) (message : Nat → Option TxFlowringDeleteRequest) : CtrlSubn × Int :=
  match h2dMachine.step ctrl.h2d (.allocRingSpace 1 false) with
  | (h2d, some (.space offset _)) =>
    ({ h2d := h2dMachine.next h2d .ringWriteComplete
       seqnum := (ctrl.seqnum + 1) % 2 ^ 32
       messages := Function.update ctrl.messages offset (message (ctrl.seqnum % h2dEpochModulo)) }, bcmeOk)
  | (h2d, _) => ({ ctrl with h2d }, bcmeNomem)

def dhdProtFlowRingDelete (ctrl : CtrlSubn) (flowid : Nat) (node : FlowRingNode) : CtrlSubn × Int :=
  ctrl.send fun epoch => some
    { ifId := node.flowInfo.ifindex
      requestId := 0
      epoch := epoch
      flowRingId := flowid
      reason := bcmeOk }

/-- The result of the sending is not looked at. -/
def FlowProt.dhdBusFlowRingDeleteRequest (prot : FlowProt) (flowid : Nat) : FlowProt × Int :=
  let node := prot.dhd.flowRingTable flowid
  if node.status = .deletePending then (prot, bcmeError)
  else
    let node := { node with status := .deletePending }
    ({ dhd := setFlowRing prot.dhd flowid node
       ctrl := (dhdProtFlowRingDelete prot.ctrl flowid node).1 }, bcmeOk)

/-- One turn of the loops over the table. -/
def FlowProt.deleteRing (selected : FlowRingNode → Bool) (prot : FlowProt) (id : Nat) : FlowProt :=
  if selected (prot.dhd.flowRingTable id) then (prot.dhdBusFlowRingDeleteRequest id).1 else prot

def FlowProt.deleteRings (prot : FlowProt) (selected : FlowRingNode → Bool) : FlowProt :=
  (List.range prot.dhd.numFlowRings).foldl (FlowProt.deleteRing selected) prot

def FlowProt.dhdFlowRingsDelete (prot : FlowProt) (ifindex : Nat) : FlowProt :=
  if dhdMaxIfs ≤ ifindex then prot
  else prot.deleteRings fun node => node.active && decide (node.flowInfo.ifindex = ifindex)

def FlowProt.dhdFlowRingsDeleteForPeer (prot : FlowProt) (ifindex : Nat) (addr : EtherAddr) : FlowProt :=
  if dhdMaxIfs ≤ ifindex then prot
  else prot.deleteRings fun node =>
    node.active && decide (node.flowInfo.ifindex = ifindex) && decide (node.flowInfo.da = addr) &&
      decide (node.status ≠ .deletePending)

/-- A peer that disconnects has its rings deleted. -/
def FlowProt.dhdTdlsUpdatePeerInfo (prot : FlowProt) (ifindex : Nat) (da : EtherAddr) (connect : Bool) :
    FlowProt :=
  if connect = false ∧ isTdlsDestination prot.dhd da = true then
    let prot := prot.dhdFlowRingsDeleteForPeer ifindex da
    { prot with
      dhd := { prot.dhd with
        peerTbl :=
          { node := prot.dhd.peerTbl.node.erase da, tdlsPeerCount := prot.dhd.peerTbl.tdlsPeerCount - 1 } } }
  else { prot with dhd := FlowRing.dhdTdlsUpdatePeerInfo prot.dhd ifindex da connect }

/-- What is done with the flow rings, the messages others send on the control ring, and what
the dongle reads of it. -/
inductive FlowProtCall where
  | flow (call : FlowCall)
  | ctrlMessage
  | dongleRead (count : Nat)

def flowProtStep (prot : FlowProt) : FlowProtCall → FlowProt × Int
  | .flow (.flowRingsDelete ifindex) => (prot.dhdFlowRingsDelete ifindex, bcmeOk)
  | .flow (.flowRingsDeleteForPeer ifindex addr) => (prot.dhdFlowRingsDeleteForPeer ifindex addr, bcmeOk)
  | .flow (.tdlsUpdatePeerInfo ifindex da connect) => (prot.dhdTdlsUpdatePeerInfo ifindex da connect, bcmeOk)
  | .flow call => ({ prot with dhd := (flowStep prot.dhd call).1 }, bcmeOk)
  | .ctrlMessage =>
    let (ctrl, sent) := prot.ctrl.send fun _ => none
    ({ prot with ctrl }, sent)
  | .dongleRead count =>
    ({ prot with ctrl := { prot.ctrl with h2d := h2dMachine.next prot.ctrl.h2d (.dongleRead count) } }, bcmeOk)

def flowProtMachine : Machine FlowProt FlowProtCall Int where
  step := flowProtStep
  admits prot
    | .flow call => flowMachine.admits prot.dhd call
    | .ctrlMessage => True
    | .dongleRead count => h2dMachine.admits prot.ctrl.h2d (.dongleRead count)

def flowProtInit (numFlowRings maxItems itemLen : Nat) : FlowProt where
  dhd := dhdFlowRingsInit numFlowRings
  ctrl := { h2d := h2dIdle maxItems itemLen 0, seqnum := h2dEpochInitVal, messages := fun _ => none }

/-- A request for the ring has to send its message, and finds no space for it. -/
def Unsent (prot : FlowProt) (flowid : Nat) : Prop :=
  (prot.dhd.flowRingTable flowid).status ≠ .deletePending ∧
    (dhdProtFlowRingDelete prot.ctrl flowid (prot.dhd.flowRingTable flowid)).2 ≠ bcmeOk

/-- After a request the ring is not left as one being deleted, and the next request is taken. -/
structure Retryable (prot : FlowProt) (flowid : Nat) : Prop where
  status : ((prot.dhdBusFlowRingDeleteRequest flowid).1.dhd.flowRingTable flowid).status ≠ .deletePending
  taken : ((prot.dhdBusFlowRingDeleteRequest flowid).1.dhdBusFlowRingDeleteRequest flowid).2 = bcmeOk

variable {prot : FlowProt} {flowid : Nat}

theorem send_result (ctrl : CtrlSubn) (message : Nat → Option TxFlowringDeleteRequest) :
    (ctrl.send message).2 = bcmeOk ∧
        (∃ offset alloced, (h2dMachine.step ctrl.h2d (.allocRingSpace 1 false)).2 = some (.space offset alloced)) ∧
        (ctrl.send message).1.h2d =
          h2dMachine.next (h2dMachine.next ctrl.h2d (.allocRingSpace 1 false)) .ringWriteComplete ∨
      (ctrl.send message).2 = bcmeNomem ∧
        (∀ offset alloced, (h2dMachine.step ctrl.h2d (.allocRingSpace 1 false)).2 ≠ some (.space offset alloced)) ∧
        (ctrl.send message).1.h2d = h2dMachine.next ctrl.h2d (.allocRingSpace 1 false) := by
  unfold CtrlSubn.send Machine.next
  split
  · rename_i h2d offset alloced step
    rw [step]
    exact .inl ⟨rfl, ⟨offset, alloced, rfl⟩, rfl⟩
  · rename_i h2d refusal other step
    rw [step]
    refine .inr ⟨rfl, fun offset alloced space => ?_, rfl⟩
    exact other offset alloced space

/-- A message finds space exactly if the dongle leaves more than the gap. -/
theorem send_iff {ctrl : CtrlSubn} (valid : H2dInvariant ctrl.h2d)
    (message : Nat → Option TxFlowringDeleteRequest) :
    (ctrl.send message).2 = bcmeOk ↔ ctrl.h2d.unread.length + 1 < ctrl.h2d.ring.maxItems := by
  have inside : ctrl.h2d.ring.wr < ctrl.h2d.ring.maxItems := valid.refreshed.wr_inside
  rcases h2dMachine_alloc_cases valid 1 false with ⟨refused, step⟩ | ⟨rd, stale, alloced, -, some_, -, step⟩
  · have full : ctrl.h2d.ring.maxItems ≤ ctrl.h2d.unread.length + 1 := by
      rcases refused with none_ | ⟨exact_, -⟩
      · unfold writable at none_
        omega
      · cases exact_
    rcases send_result ctrl message with ⟨-, ⟨offset, alloced, space⟩, -⟩ | ⟨failed, -, -⟩
    · rw [step] at space
      cases space
    · rw [failed]
      exact iff_of_false (by decide) (by omega)
  · rcases send_result ctrl message with ⟨sent, -, -⟩ | ⟨-, none_, -⟩
    · rw [sent]
      unfold writable at some_
      exact iff_of_true rfl (by omega)
    · rw [step] at none_
      exact absurd rfl (none_ _ _)

theorem unsent_iff (valid : H2dInvariant prot.ctrl.h2d) :
    Unsent prot flowid ↔ (prot.dhd.flowRingTable flowid).status ≠ .deletePending ∧
      prot.ctrl.h2d.ring.maxItems ≤ prot.ctrl.h2d.unread.length + 1 := by
  unfold Unsent dhdProtFlowRingDelete
  rw [ne_eq _ bcmeOk, send_iff valid, Nat.not_lt]

theorem status_deleteRequest (prot : FlowProt) (flowid : Nat) :
    ((prot.dhdBusFlowRingDeleteRequest flowid).1.dhd.flowRingTable flowid).status = .deletePending := by
  unfold FlowProt.dhdBusFlowRingDeleteRequest
  dsimp only
  split
  · assumption
  · simp [setFlowRing]

theorem not_retryable (prot : FlowProt) (flowid : Nat) : ¬ Retryable prot flowid :=
  fun retryable => retryable.status (status_deleteRequest prot flowid)

theorem send_valid {ctrl : CtrlSubn} (valid : H2dInvariant ctrl.h2d)
    (message : Nat → Option TxFlowringDeleteRequest) :
    H2dInvariant (ctrl.send message).1.h2d := by
  have allocated := h2dMachine_preserves ctrl.h2d (.allocRingSpace 1 false) valid (le_refl 1)
  rcases send_result ctrl message with ⟨-, -, sent⟩ | ⟨-, -, refused⟩
  · rw [sent]
    exact h2dMachine_preserves _ .ringWriteComplete allocated trivial
  · rw [refused]
    exact allocated

theorem deleteRequest_valid (valid : H2dInvariant prot.ctrl.h2d) (flowid : Nat) :
    H2dInvariant (prot.dhdBusFlowRingDeleteRequest flowid).1.ctrl.h2d := by
  unfold FlowProt.dhdBusFlowRingDeleteRequest
  dsimp only
  split
  · exact valid
  · exact send_valid valid _

theorem deleteRings_valid (valid : H2dInvariant prot.ctrl.h2d) (selected : FlowRingNode → Bool) :
    H2dInvariant (prot.deleteRings selected).ctrl.h2d := by
  unfold FlowProt.deleteRings
  generalize List.range prot.dhd.numFlowRings = ids
  induction ids generalizing prot with
  | nil => exact valid
  | cons id rest ih =>
    rw [List.foldl_cons]
    apply ih
    unfold FlowProt.deleteRing
    split
    · exact deleteRequest_valid valid id
    · exact valid

theorem deleteForPeer_valid (valid : H2dInvariant prot.ctrl.h2d) (ifindex : Nat) (addr : EtherAddr) :
    H2dInvariant (prot.dhdFlowRingsDeleteForPeer ifindex addr).ctrl.h2d := by
  unfold FlowProt.dhdFlowRingsDeleteForPeer
  split
  · exact valid
  · exact deleteRings_valid valid _

theorem flowProtMachine_preserves : flowProtMachine.Preserves fun prot => H2dInvariant prot.ctrl.h2d := by
  intro prot call valid admitted
  cases call with
  | flow call =>
    cases call with
    | flowRingsDelete ifindex =>
      change H2dInvariant (prot.dhdFlowRingsDelete ifindex).ctrl.h2d
      unfold FlowProt.dhdFlowRingsDelete
      split
      · exact valid
      · exact deleteRings_valid valid _
    | flowRingsDeleteForPeer ifindex addr => exact deleteForPeer_valid valid ifindex addr
    | tdlsUpdatePeerInfo ifindex da connect =>
      change H2dInvariant (prot.dhdTdlsUpdatePeerInfo ifindex da connect).ctrl.h2d
      unfold FlowProt.dhdTdlsUpdatePeerInfo
      split
      · exact deleteForPeer_valid valid ifindex da
      · exact valid
    | _ => exact valid
  | ctrlMessage =>
    have kept := send_valid valid fun _ => none
    exact kept
  | dongleRead count => exact h2dMachine_preserves _ (.dongleRead count) valid admitted

/-- In every run: a request that could not be sent can be tried again exactly if there is none, as
the ring is being deleted already or the dongle has left a slot of the control ring. -/
theorem run_retryable_iff {numFlowRings maxItems : Nat} (itemLen : Nat) (some_ : 0 < maxItems)
    (narrow : maxItems < 2 ^ 16) {calls : List FlowProtCall}
    (admitted : flowProtMachine.Admitted (flowProtInit numFlowRings maxItems itemLen) calls) (flowid : Nat) :
    let prot := flowProtMachine.run (flowProtInit numFlowRings maxItems itemLen) calls
    (Unsent prot flowid → Retryable prot flowid) ↔
      (prot.dhd.flowRingTable flowid).status = .deletePending ∨
        prot.ctrl.h2d.unread.length + 1 < prot.ctrl.h2d.ring.maxItems := by
  intro prot
  have valid : H2dInvariant prot.ctrl.h2d :=
    flowProtMachine.run_invariant flowProtMachine_preserves (h2dIdle_valid itemLen some_ narrow) admitted
  have unsent : Unsent prot flowid ↔ ¬ ((prot.dhd.flowRingTable flowid).status = .deletePending ∨
      prot.ctrl.h2d.unread.length + 1 < prot.ctrl.h2d.ring.maxItems) := by
    rw [unsent_iff valid, not_or, Nat.not_lt]
  constructor
  · intro retry
    by_contra other
    exact not_retryable prot flowid (retry (unsent.mpr other))
  · intro condition missing
    exact absurd condition (unsent.mp missing)

/-- A flow whose ring is open, and messages that fill the control ring. -/
def crowdedCalls : List FlowProtCall :=
  [.flow (.interfaceFlowInfo 0 wlcEIfAdd 1), .flow (.flowidUpdate 0 0 stationAddr stationAddr true),
    .flow (.flowRingCreateResponse 3 bcmeOk)] ++ List.replicate 63 .ctrlMessage

theorem messages_admitted (prot : FlowProt) (count : Nat) :
    flowProtMachine.Admitted prot (List.replicate count .ctrlMessage) := by
  induction count generalizing prot with
  | zero => trivial
  | succ count ih => exact ⟨trivial, ih _⟩

theorem crowdedCalls_admitted : flowProtMachine.Admitted (flowProtInit 4 64 40) crowdedCalls :=
  (flowProtMachine.admitted_append _ _ _).mpr
    ⟨⟨trivial, trivial, trivial, trivial⟩, messages_admitted _ 63⟩

/-- The dongle reads one of the messages, so that the request has room. -/
theorem run_retryable_drained :
    let prot := flowProtMachine.run (flowProtInit 4 64 40) (crowdedCalls ++ [.dongleRead 1])
    (prot.dhd.flowRingTable 3).status = .opened ∧ prot.ctrl.h2d.unread.length = 62 ∧
      (Unsent prot 3 → Retryable prot 3) := by
  have admitted : flowProtMachine.Admitted (flowProtInit 4 64 40) (crowdedCalls ++ [.dongleRead 1]) :=
    (flowProtMachine.admitted_append _ _ _).mpr
      ⟨crowdedCalls_admitted, show _ ≤ _ by decide +kernel, trivial⟩
  exact ⟨by decide +kernel, by decide +kernel,
    (@run_retryable_iff 4 64 40 (by decide) (by decide) _ admitted 3).mpr (.inr (by decide +kernel))⟩

/-- The request is not sent, and the ring is left as one being deleted. -/
theorem unsent_request_blocks :
    let prot := flowProtMachine.run (flowProtInit 4 64 40) crowdedCalls
    flowProtMachine.Admitted (flowProtInit 4 64 40) crowdedCalls ∧
      (prot.dhd.flowRingTable 3).active = true ∧ (prot.dhd.flowRingTable 3).status = .opened ∧
      Unsent prot 3 ∧ ¬ (Unsent prot 3 → Retryable prot 3) := by
  intro prot
  have unsent : Unsent prot 3 := ⟨by decide +kernel, by decide +kernel⟩
  exact ⟨crowdedCalls_admitted, by decide +kernel, by decide +kernel, unsent,
    fun retry => not_retryable prot 3 (retry unsent)⟩

theorem deleteRing_dhd (selected : FlowRingNode → Bool) (prot : FlowProt) (id : Nat) :
    (prot.deleteRing selected id).dhd = setFlowRing prot.dhd id
      (if selected (prot.dhd.flowRingTable id) then
        FlowRing.dhdBusFlowRingDeleteRequest (prot.dhd.flowRingTable id)
      else prot.dhd.flowRingTable id) := by
  have same : setFlowRing prot.dhd id (prot.dhd.flowRingTable id) = prot.dhd := by
    simp [setFlowRing]
  unfold FlowProt.deleteRing FlowProt.dhdBusFlowRingDeleteRequest FlowRing.dhdBusFlowRingDeleteRequest
  dsimp only
  split
  · split
    · exact same.symm
    · rfl
  · exact same.symm

/-- The loop over the table, as the rings see it. -/
theorem deleteRings_dhd (prot : FlowProt) (selected : FlowRingNode → Bool) :
    (prot.deleteRings selected).dhd = FlowRing.deleteRings prot.dhd selected := by
  have turns : ∀ count, ((List.range count).foldl (FlowProt.deleteRing selected) prot).dhd =
      { prot.dhd with
        flowRingTable := fill 0 count (fun id =>
          let node := prot.dhd.flowRingTable id
          if selected node then FlowRing.dhdBusFlowRingDeleteRequest node else node) prot.dhd.flowRingTable } := by
    intro count
    induction count with
    | zero => rfl
    | succ count ih =>
      rw [List.range_succ, List.foldl_append, List.foldl_cons, List.foldl_nil]
      generalize (List.range count).foldl (FlowProt.deleteRing selected) prot = before at ih
      have own : before.dhd.flowRingTable count = prot.dhd.flowRingTable count := by
        rw [ih]
        dsimp only
        rw [fill_apply, if_neg (by omega)]
      rw [deleteRing_dhd, own, ih]
      unfold setFlowRing fill
      rw [List.range'_concat, List.foldl_append]
      simp
  exact turns _

theorem deleteForPeer_dhd (prot : FlowProt) (ifindex : Nat) (addr : EtherAddr) :
    (prot.dhdFlowRingsDeleteForPeer ifindex addr).dhd =
      FlowRing.dhdFlowRingsDeleteForPeer prot.dhd ifindex addr := by
  unfold FlowProt.dhdFlowRingsDeleteForPeer FlowRing.dhdFlowRingsDeleteForPeer
  split
  · rfl
  · exact deleteRings_dhd prot _

theorem flow_dhd (prot : FlowProt) (call : FlowCall) :
    (flowProtMachine.next prot (.flow call)).dhd = (flowStep prot.dhd call).1 := by
  cases call with
  | flowRingsDelete ifindex =>
    change (prot.dhdFlowRingsDelete ifindex).dhd = FlowRing.dhdFlowRingsDelete prot.dhd ifindex
    unfold FlowProt.dhdFlowRingsDelete FlowRing.dhdFlowRingsDelete
    split
    · rfl
    · exact deleteRings_dhd prot _
  | flowRingsDeleteForPeer ifindex addr => exact deleteForPeer_dhd prot ifindex addr
  | tdlsUpdatePeerInfo ifindex da connect =>
    change (prot.dhdTdlsUpdatePeerInfo ifindex da connect).dhd =
      FlowRing.dhdTdlsUpdatePeerInfo prot.dhd ifindex da connect
    unfold FlowProt.dhdTdlsUpdatePeerInfo
    split
    · rename_i leaves
      unfold FlowRing.dhdTdlsUpdatePeerInfo
      rw [leaves.1, if_neg (by decide), if_pos leaves.2]
      dsimp only
      rw [deleteForPeer_dhd]
    · rfl
  | _ => rfl

/-- What is asked of the rings. -/
def flowCalls : List FlowProtCall → List FlowCall
  | [] => []
  | .flow call :: rest => call :: flowCalls rest
  | _ :: rest => flowCalls rest

theorem run_dhd (prot : FlowProt) (calls : List FlowProtCall) :
    (flowProtMachine.run prot calls).dhd = flowMachine.run prot.dhd (flowCalls calls) := by
  induction calls generalizing prot with
  | nil => rfl
  | cons call rest ih =>
    rw [Machine.run_cons, ih]
    cases call with
    | flow call => rw [flow_dhd]; rfl
    | ctrlMessage => rfl
    | dongleRead count => rfl

theorem flowCalls_append (first later : List FlowProtCall) :
    flowCalls (first ++ later) = flowCalls first ++ flowCalls later := by
  induction first with
  | nil => rfl
  | cons call rest ih =>
    cases call with
    | flow call => exact congrArg (call :: ·) ih
    | ctrlMessage => exact ih
    | dongleRead count => exact ih

/-- In every run: a ring that is being deleted stays so until the dongle has done it, even where the
request was never sent. It keeps its flow id, and every later request is refused. -/
theorem deleting_stuck {numFlowRings maxItems itemLen : Nat} (admissible : FlowRingsAdmissible numFlowRings)
    {first later : List FlowProtCall} (admitted : (lifeCycleMachine.restrict Uncrossed).Admitted
      (dhdFlowRingsInit numFlowRings) (flowCalls (first ++ later)))
    (deleting : ((flowProtMachine.run (flowProtInit numFlowRings maxItems itemLen) first).dhd.flowRingTable
      flowid).status = .deletePending)
    (unanswered : .flowRingDeleteResponse flowid bcmeOk ∉ flowCalls later) :
    let prot := flowProtMachine.run (flowProtInit numFlowRings maxItems itemLen) (first ++ later)
    FlowidHeld prot.dhd flowid ∧ prot.dhdBusFlowRingDeleteRequest flowid = (prot, bcmeError) := by
  intro prot
  have preserved : (lifeCycleMachine.restrict Uncrossed).Preserves LifeInvariant :=
    fun dhd call life admitted => lifeCycleMachine_preserves dhd call life admitted.1
  have reached := (lifeCycleMachine.restrict Uncrossed).run_invariant preserved (life_init admissible) admitted
  rw [flowCalls_append, (lifeCycleMachine.restrict Uncrossed).admitted_append, Machine.restrict_run] at admitted
  have life := (lifeCycleMachine.restrict Uncrossed).run_invariant preserved (life_init admissible) admitted.1
  rw [Machine.restrict_run] at life
  have before : lifeCycleMachine.run (dhdFlowRingsInit numFlowRings) (flowCalls first) =
      (flowProtMachine.run (flowProtInit numFlowRings maxItems itemLen) first).dhd := by
    rw [run_dhd, lifeCycleMachine, Machine.restrict_run]
    rfl
  have after : lifeCycleMachine.run (dhdFlowRingsInit numFlowRings) (flowCalls (first ++ later)) = prot.dhd := by
    rw [run_dhd, lifeCycleMachine, Machine.restrict_run]
    rfl
  rw [← before] at deleting
  have still := deleting_run life admitted.2 unanswered deleting
  rw [← Machine.run_append, ← flowCalls_append, after] at still
  rw [Machine.restrict_run, after] at reached
  exact ⟨reached.held flowid (reached.active flowid still), if_pos still⟩

/-- The control ring is full when the ring is deleted, and is empty again later. -/
theorem deleting_stuck_crowded :
    (flowProtMachine.run (flowProtInit 4 64 40)
      ((crowdedCalls ++ [.flow (.flowRingsDelete 0)]) ++ [.dongleRead 63])).dhdBusFlowRingDeleteRequest 3 =
        (flowProtMachine.run (flowProtInit 4 64 40)
          ((crowdedCalls ++ [.flow (.flowRingsDelete 0)]) ++ [.dongleRead 63]), bcmeError) := by
  have calls : flowCalls ((crowdedCalls ++ [.flow (.flowRingsDelete 0)]) ++ [.dongleRead 63]) =
      [.interfaceFlowInfo 0 wlcEIfAdd 1, .flowidUpdate 0 0 stationAddr stationAddr true,
        .flowRingCreateResponse 3 bcmeOk, .flowRingsDelete 0] := rfl
  have created : ((flowMachine.run (dhdFlowRingsInit 4) [.interfaceFlowInfo 0 wlcEIfAdd 1,
      .flowidUpdate 0 0 stationAddr stationAddr true]).flowRingTable 3).status ≠ .deletePending := by decide
  exact (deleting_stuck (by decide) (calls ▸ ⟨⟨⟨trivial, trivial⟩, trivial⟩, ⟨⟨trivial, trivial⟩, trivial⟩,
    ⟨⟨trivial, trivial⟩, created⟩, ⟨⟨trivial, trivial⟩, trivial⟩, trivial⟩) (by decide +kernel)
      List.not_mem_nil).2

end BcmDhd.FlowRing
