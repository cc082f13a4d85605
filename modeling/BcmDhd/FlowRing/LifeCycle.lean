import BcmDhd.FlowRing.LookupSoundness

namespace BcmDhd.FlowRing

open BcmDhd.Lib BcmDhd.Utils Function

/-- Everything but the direct clean-ups and frees of the driver's shutdown. -/
def LifeCycleCall : FlowCall → Prop
  | .flowidFree _ _ => False
  | .cleanFlowRing _ => False
  | _ => True

def lifeCycleMachine : Machine FlowDhd FlowCall FlowAnswer :=
  flowMachine.restrict (fun _ call => LifeCycleCall call)

/-- No create response, good or bad, arrives for a ring that is being deleted. -/
def Uncrossed (dhd : FlowDhd) : FlowCall → Prop
  | .flowRingCreateResponse flowid _ => (dhd.flowRingTable flowid).status ≠ .deletePending
  | _ => True

section Events

variable {call : FlowCall} {id : Nat}

theorem ringEvent_opened (event : ringEvent call = .opened id) :
    call = .flowRingCreateResponse id bcmeOk := by
  cases call with
  | flowRingCreateResponse flowid status =>
    by_cases ok : status = bcmeOk
    · simpa [ringEvent, ok] using event
    · simp [ringEvent, ok] at event
  | flowRingDeleteResponse flowid status =>
    by_cases ok : status = bcmeOk <;> simp [ringEvent, ok] at event
  | _ => cases event

theorem ringEvent_cleaned (event : ringEvent call = .cleaned id) :
    (∃ status, call = .flowRingCreateResponse id status) ∨
      call = .flowRingDeleteResponse id bcmeOk ∨ call = .cleanFlowRing id := by
  cases call with
  | flowRingCreateResponse flowid status =>
    by_cases ok : status = bcmeOk
    · simp [ringEvent, ok] at event
    · exact Or.inl ⟨status, by simpa [ringEvent, ok] using event⟩
  | flowRingDeleteResponse flowid status =>
    by_cases ok : status = bcmeOk
    · exact Or.inr (Or.inl (by simpa [ringEvent, ok] using event))
    · simp [ringEvent, ok] at event
  | cleanFlowRing flowid =>
    exact Or.inr (Or.inr (by simpa [ringEvent] using event))
  | _ => cases event

end Events

/-- An active ring keeps its flow id, and a ring being deleted is active. -/
structure LifeInvariant (dhd : FlowDhd) : Prop where
  lookup : LookupInvariant dhd
  held : ∀ id, (dhd.flowRingTable id).active = true → FlowidHeld dhd id
  active : ∀ id, (dhd.flowRingTable id).status = .deletePending →
    (dhd.flowRingTable id).active = true

namespace LifeInvariant

variable {dhd dhd' : FlowDhd} {call : FlowCall} {id : Nat}

theorem held_clean (valid : LookupInvariant dhd) {other : Nat} (different : other ≠ id)
    (held : FlowidHeld dhd other) : FlowidHeld (dhdBusCleanFlowRing dhd id) other := by
  have closed : LookupInvariant (ringClosed dhd id) := valid.frame rfl rfl ⟨rfl, rfl⟩
  have held : FlowidHeld (ringClosed dhd id) other := held
  rw [dhdBusCleanFlowRing_eq]
  rcases dhdFlowidFree_cases (ringClosed dhd id) (dhd.flowRingTable id).flowInfo.ifindex id with
    ⟨unchanged, -⟩ | ⟨hash, entry, member, rfl, freed⟩
  · rwa [unchanged]
  · rw [freed]
    exact ((closed.unlink member).2 other).mpr ⟨held, different⟩

theorem effect_held (life : LifeInvariant dhd) (effect : FlowEffect dhd call dhd')
    (lifeCycle : LifeCycleCall call) (active : (dhd'.flowRingTable id).active = true) :
    FlowidHeld dhd' id := by
  cases effect with
  | quiet event quiet =>
    have was : (dhd.flowRingTable id).active = true := by
      rcases quiet.rings id with same | ⟨-, was, -⟩
      · rwa [same] at active
      · exact was
    rw [FlowidHeld, quiet.chains]
    exact life.held id was
  | @allocated ifindex prio sa da created after fresh hash inside unheld later =>
    rw [FlowidHeld, flowAllocated_chains, held_append]
    by_cases new : id = fresh
    · exact Or.inr new
    · rw [flowAllocated_rings, update_of_ne new] at active
      exact Or.inl (life.held id active)
  | freed ifindex other => exact lifeCycle.elim
  | @opened _ other event =>
    rw [ringOpened_rings] at active
    have was : (dhd.flowRingTable id).active = true := by
      by_cases same : id = other
      · subst same
        rwa [update_self] at active
      · rwa [update_of_ne same] at active
    exact life.held id was
  | @cleaned _ other event =>
    rw [dhdBusCleanFlowRing_rings] at active
    by_cases same : id = other
    · subst same
      simp at active
    · rw [update_of_ne same] at active
      exact held_clean life.lookup same (life.held id active)

theorem effect_active (life : LifeInvariant dhd) (effect : FlowEffect dhd call dhd')
    (deleting : (dhd'.flowRingTable id).status = .deletePending) :
    (dhd'.flowRingTable id).active = true := by
  have change := effect.ring id
  generalize dhd'.flowRingTable id = ring at change deleting ⊢
  cases change with
  | same => exact life.active id deleting
  | deleted active => exact active
  | allocated fresh flowInfo => rfl
  | opened event => cases deleting
  | cleaned event => cases deleting

theorem effect (life : LifeInvariant dhd) (effect : FlowEffect dhd call dhd')
    (lifeCycle : LifeCycleCall call) : LifeInvariant dhd' :=
  ⟨life.lookup.effect effect, fun _ active => life.effect_held effect lifeCycle active,
    fun _ deleting => life.effect_active effect deleting⟩

/-- One call takes a ring out of the delete pending state only by its delete
response, unless a create response crosses. -/
theorem effect_deleting (life : LifeInvariant dhd) (effect : FlowEffect dhd call dhd')
    (lifeCycle : LifeCycleCall call) (uncrossed : Uncrossed dhd call)
    (unanswered : call ≠ .flowRingDeleteResponse id bcmeOk)
    (deleting : (dhd.flowRingTable id).status = .deletePending) :
    (dhd'.flowRingTable id).status = .deletePending := by
  have change := effect.ring id
  generalize dhd'.flowRingTable id = ring at change ⊢
  cases change with
  | same => exact deleting
  | deleted active => rfl
  | allocated fresh flowInfo =>
    -- the id of an active ring is not available
    exact absurd (life.held id (life.active id deleting)) fresh
  | opened event =>
    obtain rfl := ringEvent_opened event
    exact absurd deleting uncrossed
  | cleaned event =>
    rcases ringEvent_cleaned event with ⟨status, rfl⟩ | rfl | rfl
    · exact absurd deleting uncrossed
    · exact absurd rfl unanswered
    · exact lifeCycle.elim

end LifeInvariant

section Runs

theorem life_init {num : Nat} (admissible : FlowRingsAdmissible num) :
    LifeInvariant (dhdFlowRingsInit num) := by
  refine ⟨flowRingsInit_valid admissible, ?_, ?_⟩
  · intro id active
    cases active
  · intro id deleting
    cases deleting

theorem lifeCycleMachine_preserves : lifeCycleMachine.Preserves LifeInvariant := by
  intro dhd call life admitted
  exact life.effect (flowMachine_effect life.lookup call) admitted.2

/-- A stretch of calls without the ring's delete response and without crossing
create responses leaves the ring delete pending. -/
theorem deleting_run {dhd : FlowDhd} (life : LifeInvariant dhd) {calls : List FlowCall} {id : Nat}
    (admitted : (lifeCycleMachine.restrict Uncrossed).Admitted dhd calls)
    (unanswered : .flowRingDeleteResponse id bcmeOk ∉ calls)
    (deleting : (dhd.flowRingTable id).status = .deletePending) :
    ((lifeCycleMachine.run dhd calls).flowRingTable id).status = .deletePending := by
  induction calls generalizing dhd with
  | nil => exact deleting
  | cons call rest ih =>
    obtain ⟨⟨accepted, uncrossed⟩, remaining⟩ := admitted
    have effect := flowMachine_effect life.lookup call
    have now := life.effect_deleting effect accepted.2 uncrossed
      (fun same => unanswered (by simp [same])) deleting
    exact ih (life.effect effect accepted.2) remaining
      (fun later => unanswered (List.mem_cons_of_mem call later)) now

/-- A ring that is delete pending stays so until its delete response closes it,
in every run in which no create response arrives for a ring being deleted. -/
theorem flow_ring_deleting_until_response {num : Nat} (admissible : FlowRingsAdmissible num)
    {first more : List FlowCall} {id : Nat}
    (uncrossed : (lifeCycleMachine.restrict Uncrossed).Admitted (dhdFlowRingsInit num) (first ++ more))
    (deleting : ((lifeCycleMachine.run (dhdFlowRingsInit num) first).flowRingTable id).status =
      .deletePending)
    (unanswered : .flowRingDeleteResponse id bcmeOk ∉ more) :
    ((lifeCycleMachine.run (dhdFlowRingsInit num) (first ++ more)).flowRingTable id).status =
        .deletePending ∧
      ((lifeCycleMachine.run (dhdFlowRingsInit num)
          (first ++ more ++ [.flowRingDeleteResponse id bcmeOk])).flowRingTable id).status =
        .closed := by
  obtain ⟨before, after⟩ := ((lifeCycleMachine.restrict Uncrossed).admitted_append _ _ _).mp uncrossed
  rw [Machine.restrict_run] at after
  have reached : LifeInvariant (lifeCycleMachine.run (dhdFlowRingsInit num) first) := by
    have preserved : (lifeCycleMachine.restrict Uncrossed).Preserves LifeInvariant :=
      fun dhd call life admitted => lifeCycleMachine_preserves dhd call life admitted.1
    simpa using (lifeCycleMachine.restrict Uncrossed).run_invariant preserved
      (life_init admissible) before
  constructor
  · rw [Machine.run_append]
    exact deleting_run reached after unanswered deleting
  · rw [Machine.run_append, Machine.run_cons, Machine.run_nil]
    have closed := dhdBusCleanFlowRing_rings
      (lifeCycleMachine.run (dhdFlowRingsInit num) (first ++ more)) id
    have answered : lifeCycleMachine.next
        (lifeCycleMachine.run (dhdFlowRingsInit num) (first ++ more))
        (.flowRingDeleteResponse id bcmeOk) =
          dhdBusCleanFlowRing (lifeCycleMachine.run (dhdFlowRingsInit num) (first ++ more)) id := rfl
    rw [answered, closed, update_self]

end Runs

section Crossing

/-- One flow of an access point interface whose rings are then deleted. -/
def deletedFlow : List FlowCall :=
  [.interfaceFlowInfo 0 wlcEIfAdd 1, .flowidUpdate 0 0 stationAddr stationAddr true,
    .flowRingsDelete 0]

theorem flow_ring_deleting_until_response_failed :
    FlowRingsAdmissible 4 ∧
      ((lifeCycleMachine.run (dhdFlowRingsInit 4) deletedFlow).flowRingTable 3).status =
        .deletePending ∧
      ((lifeCycleMachine.run (dhdFlowRingsInit 4)
        (deletedFlow ++ [.flowRingDeleteResponse 3 (-1)])).flowRingTable 3).status =
          .deletePending := by
  have admissible : FlowRingsAdmissible 4 := by decide
  have deleting : ((lifeCycleMachine.run (dhdFlowRingsInit 4) deletedFlow).flowRingTable 3).status =
      .deletePending := by decide
  have uncrossed : (lifeCycleMachine.restrict Uncrossed).Admitted (dhdFlowRingsInit 4)
      (deletedFlow ++ [.flowRingDeleteResponse 3 (-1)]) :=
    ⟨⟨⟨trivial, trivial⟩, trivial⟩, ⟨⟨trivial, trivial⟩, trivial⟩, ⟨⟨trivial, trivial⟩, trivial⟩,
      ⟨⟨trivial, trivial⟩, trivial⟩, trivial⟩
  exact ⟨admissible, deleting,
    (flow_ring_deleting_until_response admissible uncrossed deleting (by decide)).1⟩

/-- The create response that arrives after the delete request opens the ring. -/
theorem flow_ring_reopened_by_late_create_response :
    lifeCycleMachine.Admitted (dhdFlowRingsInit 4)
        (deletedFlow ++ [.flowRingCreateResponse 3 bcmeOk]) ∧
      ((lifeCycleMachine.run (dhdFlowRingsInit 4) deletedFlow).flowRingTable 3).status =
        .deletePending ∧
      ((lifeCycleMachine.run (dhdFlowRingsInit 4)
        (deletedFlow ++ [.flowRingCreateResponse 3 bcmeOk])).flowRingTable 3).status = .opened :=
  ⟨⟨⟨trivial, trivial⟩, ⟨trivial, trivial⟩, ⟨trivial, trivial⟩, ⟨trivial, trivial⟩, trivial⟩,
    by decide, by decide⟩

end Crossing

end BcmDhd.FlowRing
