import Mathlib.Logic.Function.Basic

/-! Components seen from outside: a call takes the state to its successor and answers. -/

namespace BcmDhd.Lib

universe u v w

/-- A component together with the calls its environment may make. The guard
`admits` records what callers promise, or what the environment is able to do. -/
structure Machine (State : Type u) (Call : Type v) (Answer : Type w) where
  step : State → Call → State × Answer
  admits : State → Call → Prop

namespace Machine

variable {State : Type u} {Call : Type v} {Answer : Type w}
variable (machine : Machine State Call Answer)

def next (state : State) (call : Call) : State := (machine.step state call).1

def answer (state : State) (call : Call) : Answer := (machine.step state call).2

/-- The state after a finite call sequence. -/
def run (state : State) : List Call → State
  | [] => state
  | call :: rest => run (machine.next state call) rest

/-- The calls of a run, each with the answer it received. -/
def history (state : State) : List Call → List (Call × Answer)
  | [] => []
  | call :: rest => (call, machine.answer state call) :: history (machine.next state call) rest

/-- Every call of the sequence is admitted by the state it meets. -/
def Admitted (state : State) : List Call → Prop
  | [] => True
  | call :: rest => machine.admits state call ∧ Admitted (machine.next state call) rest

@[simp] theorem run_nil (state : State) : machine.run state [] = state := rfl

@[simp] theorem run_cons (state : State) (call : Call) (rest : List Call) :
    machine.run state (call :: rest) = machine.run (machine.next state call) rest := rfl

@[simp] theorem admitted_nil (state : State) : machine.Admitted state [] := trivial

@[simp] theorem admitted_cons (state : State) (call : Call) (rest : List Call) :
    machine.Admitted state (call :: rest) ↔
      machine.admits state call ∧ machine.Admitted (machine.next state call) rest := Iff.rfl

/-- Promises that can be checked call by call can be checked of a whole run. -/
instance decidableAdmitted [decided : ∀ state call, Decidable (machine.admits state call)]
    (state : State) : (calls : List Call) → Decidable (machine.Admitted state calls)
  | [] => .isTrue trivial
  | call :: rest =>
    @instDecidableAnd _ _ (decided state call) (decidableAdmitted (machine.next state call) rest)

theorem run_append (state : State) (first second : List Call) :
    machine.run state (first ++ second) = machine.run (machine.run state first) second := by
  induction first generalizing state with
  | nil => rfl
  | cons call rest ih => exact ih (machine.next state call)

theorem admitted_append (state : State) (first second : List Call) :
    machine.Admitted state (first ++ second) ↔
      machine.Admitted state first ∧ machine.Admitted (machine.run state first) second := by
  induction first generalizing state with
  | nil => simp
  | cons call rest ih => simp [ih, and_assoc]

/-- The induction over runs, for call sequences drawn from an allowed set: what
every admitted allowed call keeps, every such run keeps. -/
theorem run_invariant_of_allowed {invariant : State → Prop} {allowed : Call → Prop}
    (preserved : ∀ state call, allowed call → invariant state → machine.admits state call →
      invariant (machine.next state call))
    {state : State} {calls : List Call} (initial : invariant state)
    (drawn : ∀ call ∈ calls, allowed call) (admitted : machine.Admitted state calls) :
    invariant (machine.run state calls) := by
  induction calls generalizing state with
  | nil => exact initial
  | cons call rest ih =>
    obtain ⟨accepted, remaining⟩ := admitted
    exact ih (preserved state call (drawn call (by simp)) initial accepted)
      (fun other member => drawn other (by simp [member])) remaining

/-- One admitted call keeps the property. -/
def Preserves (invariant : State → Prop) : Prop :=
  ∀ state call, invariant state → machine.admits state call → invariant (machine.next state call)

theorem run_invariant {invariant : State → Prop} (preserved : machine.Preserves invariant)
    {state : State} {calls : List Call} (initial : invariant state)
    (admitted : machine.Admitted state calls) : invariant (machine.run state calls) := by
  have drawn : ∀ call ∈ calls, True := fun _ _ => trivial
  exact machine.run_invariant_of_allowed (fun state call _ => preserved state call)
    initial drawn admitted

theorem run_history_invariant {invariant : State → List (Call × Answer) → Prop}
    (preserved : ∀ state past call, invariant state past → machine.admits state call →
      invariant (machine.next state call) (past ++ [(call, machine.answer state call)]))
    {state : State} {past : List (Call × Answer)} {calls : List Call}
    (initial : invariant state past) (admitted : machine.Admitted state calls) :
    invariant (machine.run state calls) (past ++ machine.history state calls) := by
  induction calls generalizing state past with
  | nil => simpa [history] using initial
  | cons call rest ih =>
    obtain ⟨accepted, remaining⟩ := admitted
    have reached := ih (preserved state past call initial accepted) remaining
    simpa [history] using reached

theorem run_calls_invariant {invariant : State → List Call → Prop}
    (preserved : ∀ state past call, invariant state past → machine.admits state call →
      invariant (machine.next state call) (past ++ [call]))
    {state : State} {past calls : List Call} (initial : invariant state past)
    (admitted : machine.Admitted state calls) :
    invariant (machine.run state calls) (past ++ calls) := by
  induction calls generalizing state past with
  | nil => simpa using initial
  | cons call rest ih =>
    obtain ⟨accepted, remaining⟩ := admitted
    have reached := ih (preserved state past call initial accepted) remaining
    simpa using reached

theorem history_split {state : State} {calls : List Call} {past rest : List (Call × Answer)}
    {entry : Call × Answer} (split : machine.history state calls = past ++ entry :: rest) :
    ∃ before call after, calls = before ++ call :: after ∧ past = machine.history state before ∧
      entry = (call, machine.answer (machine.run state before) call) := by
  induction calls generalizing state past with
  | nil => simp [history] at split
  | cons head tail ih =>
    rcases List.cons_eq_append_iff.mp split with ⟨rfl, same⟩ | ⟨others, rfl, same⟩
    · cases same
      exact ⟨[], head, tail, rfl, rfl, rfl⟩
    · obtain ⟨before, call, after, rfl, rfl, rfl⟩ := ih same
      exact ⟨head :: before, call, after, rfl, rfl, rfl⟩

theorem admitted_of_forall {state : State} {calls : List Call}
    (free : ∀ state call, machine.admits state call) : machine.Admitted state calls := by
  induction calls generalizing state with
  | nil => trivial
  | cons call rest ih => exact ⟨free state call, ih⟩

/-- The same component in an environment that promises more. -/
def restrict (condition : State → Call → Prop) : Machine State Call Answer where
  step := machine.step
  admits state call := machine.admits state call ∧ condition state call

instance (condition : State → Call → Prop) (state : State) (call : Call)
    [Decidable (machine.admits state call)] [Decidable (condition state call)] :
    Decidable ((machine.restrict condition).admits state call) :=
  inferInstanceAs (Decidable (_ ∧ _))

variable {condition : State → Call → Prop}

@[simp] theorem restrict_next (state : State) (call : Call) :
    (machine.restrict condition).next state call = machine.next state call := rfl

@[simp] theorem restrict_answer (state : State) (call : Call) :
    (machine.restrict condition).answer state call = machine.answer state call := rfl

@[simp] theorem restrict_run (state : State) (calls : List Call) :
    (machine.restrict condition).run state calls = machine.run state calls := by
  induction calls generalizing state with
  | nil => rfl
  | cons call rest ih => exact ih (machine.next state call)

@[simp] theorem restrict_history (state : State) (calls : List Call) :
    (machine.restrict condition).history state calls = machine.history state calls := by
  induction calls generalizing state with
  | nil => rfl
  | cons call rest ih => simp [history, ih]

theorem admitted_restrict_iff (state : State) (calls : List Call) :
    (machine.restrict condition).Admitted state calls ↔
      machine.Admitted state calls ∧ ∀ past call rest, calls = past ++ call :: rest →
        condition (machine.run state past) call := by
  induction calls generalizing state with
  | nil => simp
  | cons head tail ih =>
    rw [admitted_cons, restrict_next, ih]
    constructor
    · intro ⟨⟨accepted, promised⟩, remaining, later⟩
      refine ⟨⟨accepted, remaining⟩, fun past call rest split => ?_⟩
      rcases List.cons_eq_append_iff.mp split with ⟨rfl, same⟩ | ⟨before, rfl, same⟩
      · cases same
        exact promised
      · exact later before call rest same
    · intro ⟨⟨accepted, remaining⟩, promised⟩
      refine ⟨⟨accepted, promised [] head tail rfl⟩, remaining, fun past call rest split => ?_⟩
      exact promised (head :: past) call rest (by rw [split, List.cons_append])

/-- Two promises that agree where an invariant holds allow the same runs, if the
invariant is kept by the calls that meet them. -/
theorem admitted_restrict_congr {other : State → Call → Prop} {invariant : State → Prop}
    (agree : ∀ state call, invariant state → machine.admits state call →
      (condition state call ↔ other state call))
    (preserved : (machine.restrict condition).Preserves invariant)
    {state : State} {calls : List Call} (initial : invariant state) :
    (machine.restrict condition).Admitted state calls ↔
      (machine.restrict other).Admitted state calls := by
  induction calls generalizing state with
  | nil => simp
  | cons call rest ih =>
    constructor
    · intro ⟨⟨accepted, promised⟩, remaining⟩
      have reached := preserved state call initial ⟨accepted, promised⟩
      exact ⟨⟨accepted, (agree state call initial accepted).mp promised⟩, (ih reached).mp remaining⟩
    · intro ⟨⟨accepted, promised⟩, remaining⟩
      have met := (agree state call initial accepted).mpr promised
      have reached := preserved state call initial ⟨accepted, met⟩
      exact ⟨⟨accepted, met⟩, (ih reached).mpr remaining⟩

/-- Where a property survives exactly the calls that meet a condition, it holds all
along an admitted run exactly if all of the run's calls meet it. -/
theorem always_iff {invariant good : State → Prop} (kept : machine.Preserves invariant)
    (exact_ : ∀ state call, invariant state → good state → machine.admits state call →
      (good (machine.next state call) ↔ condition state call))
    {state : State} {calls : List Call} (initial : invariant state) (begins : good state)
    (admitted : machine.Admitted state calls) :
    (∀ past rest, calls = past ++ rest → good (machine.run state past)) ↔
      ∀ past call rest, calls = past ++ call :: rest → condition (machine.run state past) call := by
  induction calls generalizing state with
  | nil =>
    constructor
    · intro _ past call rest split
      simp at split
    · intro _ past rest split
      obtain ⟨rfl, rfl⟩ := List.nil_eq_append_iff.mp split
      exact begins
  | cons head tail ih =>
    obtain ⟨accepted, remaining⟩ := admitted
    have step := exact_ state head initial begins accepted
    have later := fun met => ih (kept state head initial accepted) (step.mpr met) remaining
    constructor
    · intro always
      have met := step.mp (always [head] tail rfl)
      have rest := (later met).mp fun past rest split => always (head :: past) rest (by simp [split])
      intro past call rest_ split
      rcases List.cons_eq_append_iff.mp split with ⟨rfl, same⟩ | ⟨before, rfl, same⟩
      · cases same
        exact met
      · exact rest before call rest_ same
    · intro all
      have met := all [] head tail rfl
      have rest := (later met).mpr fun past call rest split => all (head :: past) call rest (by simp [split])
      intro past rest_ split
      rcases List.cons_eq_append_iff.mp split with ⟨rfl, same⟩ | ⟨before, rfl, same⟩
      · exact begins
      · exact rest before rest_ same

/-- Where every call that meets the condition is handled well and keeps the invariant,
a run of such calls is handled well all along. -/
theorem run_each {invariant : State → Prop} (good : State → Call → Prop)
    (step : ∀ state call, invariant state → machine.admits state call → condition state call →
      good state call ∧ invariant (machine.next state call))
    {state : State} {calls : List Call} (initial : invariant state)
    (admitted : machine.Admitted state calls)
    (met : ∀ past call rest, calls = past ++ call :: rest → condition (machine.run state past) call)
    (past : List Call) (call : Call) (rest : List Call) (split : calls = past ++ call :: rest) :
    good (machine.run state past) call := by
  have all := (machine.admitted_restrict_iff state calls).mpr ⟨admitted, met⟩
  rw [split, admitted_append, restrict_run] at all
  obtain ⟨before, ⟨accepted, promised⟩, _⟩ := all
  have preserved : (machine.restrict condition).Preserves invariant := by
    intro state call kept meets
    exact (step state call kept meets.1 meets.2).2
  have reached := (machine.restrict condition).run_invariant preserved initial before
  rw [restrict_run] at reached
  exact (step _ call reached accepted promised).1

/-- What is good exactly under a condition is good all along a run exactly if every
call of it meets the condition. -/
theorem each_iff (invariant : State → Prop) {good : State → Call → Prop}
    (exact_ : ∀ state call, invariant state → machine.admits state call →
      (good state call ↔ condition state call))
    (kept : ∀ state call, invariant state → machine.admits state call → good state call →
      invariant (machine.next state call))
    {state : State} (initial : invariant state) {calls : List Call}
    (admitted : machine.Admitted state calls) :
    (∀ past call rest, calls = past ++ call :: rest → good (machine.run state past) call) ↔
      ∀ past call rest, calls = past ++ call :: rest → condition (machine.run state past) call := by
  have preserved : (machine.restrict good).Preserves invariant := by
    intro state call within meets
    exact kept state call within meets.1 meets.2
  have same : (machine.restrict good).Admitted state calls ↔
      (machine.restrict condition).Admitted state calls :=
    machine.admitted_restrict_congr exact_ preserved initial
  rw [machine.admitted_restrict_iff, machine.admitted_restrict_iff] at same
  simpa only [admitted, true_and] using same

/-- The component together with what is on record about the calls so far. -/
def track {Record : Type*} (note : Record → Call → Record) :
    Machine (State × Record) Call Answer where
  step tracked call :=
    ((machine.next tracked.1 call, note tracked.2 call), machine.answer tracked.1 call)
  admits tracked call := machine.admits tracked.1 call

theorem track_run {Record : Type*} (note : Record → Call → Record) (state : State)
    (record : Record) (calls : List Call) :
    (machine.track note).run (state, record) calls =
      (machine.run state calls, calls.foldl note record) := by
  induction calls generalizing state record with
  | nil => rfl
  | cons call rest ih => exact ih (machine.next state call) (note record call)

theorem track_admitted {Record : Type*} (note : Record → Call → Record) (state : State)
    (record : Record) (calls : List Call) :
    (machine.track note).Admitted (state, record) calls ↔ machine.Admitted state calls := by
  induction calls generalizing state record with
  | nil => exact Iff.rfl
  | cons call rest ih => exact and_congr_right fun _ => ih (machine.next state call) (note record call)

/-- The same with a record for which the state counts that a call meets. -/
def observe {Record : Type*} (note : State → Record → Call → Record) :
    Machine (State × Record) Call Answer where
  step seen call := ((machine.next seen.1 call, note seen.1 seen.2 call), machine.answer seen.1 call)
  admits seen call := machine.admits seen.1 call

theorem observe_run {Record : Type*} (note : State → Record → Call → Record) (seen : State × Record)
    (calls : List Call) : ((machine.observe note).run seen calls).1 = machine.run seen.1 calls := by
  induction calls generalizing seen with
  | nil => rfl
  | cons call rest ih => exact ih ((machine.observe note).next seen call)

theorem observe_admitted {Record : Type*} (note : State → Record → Call → Record) (seen : State × Record)
    (calls : List Call) : (machine.observe note).Admitted seen calls ↔ machine.Admitted seen.1 calls := by
  induction calls generalizing seen with
  | nil => exact Iff.rfl
  | cons call rest ih => exact and_congr_right fun _ => ih ((machine.observe note).next seen call)

/-- A simulation of an abstract component: from related states a call admitted
on both sides answers the same and leads to related states. -/
def Simulation {Spec : Type*} (concrete : Machine State Call Answer)
    (abstract : Machine Spec Call Answer) (related : State → Spec → Prop) : Prop :=
  ∀ state spec call, related state spec → concrete.admits state call → abstract.admits spec call →
    related (concrete.next state call) (abstract.next spec call) ∧
      concrete.answer state call = abstract.answer spec call

theorem Simulation.run {Spec : Type*} {concrete : Machine State Call Answer}
    {abstract : Machine Spec Call Answer} {related : State → Spec → Prop}
    (simulation : Simulation concrete abstract related)
    {state : State} {spec : Spec} {calls : List Call} (initial : related state spec)
    (asserted : concrete.Admitted state calls) (promised : abstract.Admitted spec calls) :
    related (concrete.run state calls) (abstract.run spec calls) ∧
      concrete.history state calls = abstract.history spec calls := by
  induction calls generalizing state spec with
  | nil => exact ⟨initial, rfl⟩
  | cons call rest ih =>
    obtain ⟨asserts, assertedRest⟩ := asserted
    obtain ⟨promises, promisedRest⟩ := promised
    obtain ⟨next, answer⟩ := simulation state spec call initial asserts promises
    obtain ⟨reached, recorded⟩ := ih next assertedRest promisedRest
    refine ⟨reached, ?_⟩
    simp only [history, recorded, answer]

end Machine

theorem getElem?_concat_cases {Item : Type u} {items : List Item} {last item : Item} {i : Nat}
    (found : (items ++ [last])[i]? = some item) :
    (i < items.length ∧ items[i]? = some item) ∨ (i = items.length ∧ item = last) := by
  rcases Nat.lt_trichotomy i items.length with inside | rfl | outside
  · rw [List.getElem?_append_left inside] at found
    exact Or.inl ⟨inside, found⟩
  · rw [List.getElem?_concat_length] at found
    exact Or.inr ⟨rfl, (Option.some.inj found).symm⟩
  · rw [List.getElem?_eq_none (by simp; omega)] at found
    cases found

end BcmDhd.Lib
