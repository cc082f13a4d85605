import Mathlib.Tactic

/-! Loops that need not end: one turn as a function, and bounded runs of it. -/

namespace BcmDhd.Lib

/-- A turn of a loop goes on with another state or leaves with a result. -/
inductive Turn (State Result : Type*)
  | again (state : State)
  | leave (result : Result)
deriving DecidableEq

variable {State Result : Type*}

/-- At most `turns` turns of a loop; nothing while it has not left. -/
def loopFor (turn : State → Turn State Result) : Nat → State → Option Result
  | 0, _ => none
  | turns + 1, state => match turn state with
    | .again next => loopFor turn turns next
    | .leave result => some result

/-- The loop leaves with this result, after however many turns. -/
def Leaves (turn : State → Turn State Result) (state : State) (result : Result) : Prop :=
  ∃ turns, loopFor turn turns state = some result

namespace Loop

variable {turn : State → Turn State Result} {state next : State} {result other : Result}
  {turns more : Nat}

theorem loopFor_again (goesOn : turn state = .again next) :
    loopFor turn (turns + 1) state = loopFor turn turns next := by simp [loopFor, goesOn]

theorem loopFor_leave (left : turn state = .leave result) :
    loopFor turn (turns + 1) state = some result := by simp [loopFor, left]

theorem loopFor_mono (done : loopFor turn turns state = some result) (enough : turns ≤ more) :
    loopFor turn more state = some result := by
  induction turns generalizing state more with
  | zero => cases done
  | succ turns ih =>
    obtain ⟨more, rfl⟩ := Nat.exists_eq_add_of_le' enough
    rw [← Nat.add_assoc] at *
    cases one : turn state with
    | again next =>
      rw [loopFor_again one] at *
      exact ih done (by omega)
    | leave left =>
      rw [loopFor_leave one] at *
      exact done

theorem leaves_of_leave (left : turn state = .leave result) : Leaves turn state result :=
  ⟨1, loopFor_leave left⟩

theorem Leaves.back (left : Leaves turn next result) (goesOn : turn state = .again next) :
    Leaves turn state result := by
  obtain ⟨turns, done⟩ := left
  exact ⟨turns + 1, by rw [loopFor_again goesOn, done]⟩

theorem Leaves.unique (left : Leaves turn state result) (also : Leaves turn state other) :
    result = other := by
  obtain ⟨turns, done⟩ := left
  obtain ⟨more, finished⟩ := also
  have both := loopFor_mono done (Nat.le_max_left turns more)
  rw [loopFor_mono finished (Nat.le_max_right turns more)] at both
  exact (Option.some.inj both).symm

theorem leaves_of_measure (turn : State → Turn State Result) (invariant : State → Prop)
    (measure : State → Nat)
    (smaller : ∀ state next, invariant state → turn state = .again next →
      invariant next ∧ measure next < measure state)
    (state : State) (start : invariant state) : ∃ result, loopFor turn (measure state + 1) state = some result := by
  induction bound : measure state using Nat.strong_induction_on generalizing state with
  | _ size ih =>
    cases one : turn state with
    | leave result => exact ⟨result, loopFor_leave one⟩
    | again next =>
      obtain ⟨kept, less⟩ := smaller state next start one
      obtain ⟨result, done⟩ := ih (measure next) (bound ▸ less) next kept rfl
      rw [loopFor_again one]
      exact ⟨result, loopFor_mono done (by omega)⟩

theorem loopFor_none (stuck : State → Prop)
    (kept : ∀ state, stuck state → ∃ next, turn state = .again next ∧ stuck next)
    (here : stuck state) (turns : Nat) : loopFor turn turns state = none := by
  induction turns generalizing state with
  | zero => rfl
  | succ turns ih =>
    obtain ⟨next, goesOn, still⟩ := kept state here
    rw [loopFor_again goesOn]
    exact ih still

theorem loopFor_invariant {invariant : State → Prop} {post : Result → Prop}
    (kept : ∀ state next, invariant state → turn state = .again next → invariant next)
    (ends : ∀ state result, invariant state → turn state = .leave result → post result)
    (start : invariant state) (done : loopFor turn turns state = some result) : post result := by
  induction turns generalizing state with
  | zero => cases done
  | succ turns ih =>
    cases one : turn state with
    | again next =>
      rw [loopFor_again one] at done
      exact ih (kept state next start one) done
    | leave left =>
      rw [loopFor_leave one] at done
      exact Option.some.inj done ▸ ends state left start one

end Loop

/-- From some number of turns on, the run's outcome is this one. -/
def Settles {Outcome : Type*} (run : Nat → Outcome) (outcome : Outcome) : Prop :=
  ∃ enough, ∀ turns, enough ≤ turns → run turns = outcome

namespace Settles

universe u

variable {Outcome Image : Type*} {Error Value Final : Type u} {outcome other : Outcome}
  {run : Nat → Outcome}

theorem const (outcome : Outcome) : Settles (fun _ => outcome) outcome := ⟨0, fun _ _ => rfl⟩

theorem of_eq {value : Outcome} (same : value = outcome) : Settles (fun _ => value) outcome :=
  ⟨0, fun _ _ => same⟩

theorem unique (one : Settles run outcome) (two : Settles run other) : outcome = other := by
  obtain ⟨enough, same⟩ := one
  obtain ⟨more, also⟩ := two
  rw [← same _ (Nat.le_max_left enough more), also _ (Nat.le_max_right enough more)]

theorem map (settled : Settles run outcome) (f : Outcome → Image) :
    Settles (fun turns => f (run turns)) (f outcome) := by
  obtain ⟨enough, same⟩ := settled
  exact ⟨enough, fun turns more => congrArg f (same turns more)⟩

theorem bind {first : Nat → Except Error Value} {value : Value} {next : Nat → Value → Except Error Final}
    {final : Except Error Final} (one : Settles first (.ok value))
    (two : Settles (fun turns => next turns value) final) :
    Settles (fun turns => first turns >>= next turns) final := by
  obtain ⟨enough, same⟩ := one
  obtain ⟨more, also⟩ := two
  refine ⟨max enough more, fun turns large => ?_⟩
  have returned : (first turns >>= next turns) = next turns value := by
    rw [same turns (by omega)]
    rfl
  exact returned.trans (also turns (by omega))

theorem bind_error {first : Nat → Except Error Value} {next : Nat → Value → Except Error Final} {error : Error}
    (one : Settles first (.error error)) : Settles (fun turns => first turns >>= next turns) (.error error) := by
  obtain ⟨enough, same⟩ := one
  refine ⟨enough, fun turns more => ?_⟩
  dsimp only
  rw [same turns more]
  rfl

theorem of_bind {first : Nat → Except Error Value} {value : Value} {next : Nat → Value → Except Error Final}
    {final : Except Error Final} (one : Settles first (.ok value))
    (both : Settles (fun turns => first turns >>= next turns) final) :
    Settles (fun turns => next turns value) final := by
  obtain ⟨enough, same⟩ := one
  obtain ⟨more, also⟩ := both
  refine ⟨max enough more, fun turns large => ?_⟩
  have returned : (first turns >>= next turns) = next turns value := by
    rw [same turns (by omega)]
    rfl
  exact returned.symm.trans (also turns (by omega))

theorem loop {turn : State → Turn State Result} {state : State} {result : Result}
    (left : Leaves turn state result) :
    Settles (fun turns => loopFor turn turns state) (some result) := by
  obtain ⟨enough, done⟩ := left
  exact ⟨enough, fun _ more => Loop.loopFor_mono done more⟩

end Settles

end BcmDhd.Lib
