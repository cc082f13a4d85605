import BcmDhd.Lib.Loop

/-! Loops that walk from place to place, and stay for ever where they cannot go on. -/

namespace BcmDhd.Lib

variable {State Result Place : Type*}

/-- Step by step one comes to something bad. -/
inductive Comes (step : Place → Option Place) (bad : Place → Prop) : Place → Prop
  | here {place : Place} (found : bad place) : Comes step bad place
  | later {place next : Place} (stepped : step place = some next) (comes : Comes step bad next) :
    Comes step bad place

theorem Comes.or_iff {step : Place → Option Place} {bad worse : Place → Prop} {here : Place} :
    Comes step (fun place => bad place ∨ worse place) here ↔ Comes step bad here ∨ Comes step worse here := by
  constructor
  · intro comes
    induction comes with
    | here found => exact found.imp .here .here
    | later stepped _ ih => exact ih.imp (.later stepped) (.later stepped)
  · rintro (comes | comes)
    · induction comes with
      | here found => exact .here (Or.inl found)
      | later stepped _ ih => exact .later stepped ih
    · induction comes with
      | here found => exact .here (Or.inr found)
      | later stepped _ ih => exact .later stepped ih

/-- The states in which a loop makes its turns. -/
inductive Visits (turn : State → Turn State Result) (state : State) : State → Prop
  | start : Visits turn state state
  | again {visited next : State} (before : Visits turn state visited) (goesOn : turn visited = .again next) :
    Visits turn state next

theorem Leaves.visited {turn : State → Turn State Result} {state : State} {result : Result}
    (left : Leaves turn state result) : ∃ visited, Visits turn state visited ∧ turn visited = .leave result := by
  obtain ⟨turns, done⟩ := left
  have turn_ : ∀ visited next, Visits turn state visited → turn visited = .again next → Visits turn state next :=
    fun _ _ before goesOn => .again before goesOn
  have ends : ∀ visited left, Visits turn state visited → turn visited = .leave left →
      ∃ last, Visits turn state last ∧ turn last = .leave left :=
    fun visited _ visits left => ⟨visited, visits, left⟩
  have held := Loop.loopFor_invariant turn_ ends .start done
  exact held

theorem Visits.leaves {turn : State → Turn State Result} {state visited : State} {result : Result}
    (visits : Visits turn state visited) (left : turn visited = .leave result) : Leaves turn state result := by
  have here : Leaves turn visited result := Loop.leaves_of_leave left
  clear left
  induction visits with
  | start => exact here
  | again before goesOn ih => exact ih (Loop.Leaves.back here goesOn)

/-- The turns of a loop go from place to place, or stay at a place where they are stuck. -/
structure Follows (turn : State → Turn State Result) (place : State → Place) (step : Place → Option Place)
    (stuck : Place → Prop) : Prop where
  goes : ∀ state next, step (place state) = some next → ∃ after, turn state = .again after ∧ place after = next
  stays : ∀ state, stuck (place state) → ∃ after, turn state = .again after ∧ place after = place state
  stepped : ∀ state after, turn state = .again after → step (place state) = some (place after) ∨ stuck (place state)

namespace Follows

variable {turn : State → Turn State Result} {place : State → Place} {step : Place → Option Place}
  {stuck bad : Place → Prop}

theorem bounded (follows : Follows turn place step stuck) (measure : Place → Nat)
    (smaller : ∀ place next, step place = some next → measure next < measure place) (state : State)
    (free : ¬Comes step stuck (place state)) :
    ∃ result, loopFor turn (measure (place state) + 1) state = some result := by
  apply Loop.leaves_of_measure turn (fun state => ¬Comes step stuck (place state))
    (fun state => measure (place state)) _
    state free
  intro state next free goesOn
  rcases follows.stepped state next goesOn with stepped | here
  · exact ⟨fun comes => free (.later stepped comes), smaller _ _ stepped⟩
  · exact absurd (.here here) free

theorem endless (follows : Follows turn place step stuck) {state : State} (comes : Comes step stuck (place state))
    (turns : Nat) : loopFor turn turns state = none := by
  apply Loop.loopFor_none (fun state => Comes step stuck (place state)) _ comes
  intro state comes
  generalize here : place state = there at comes
  cases comes with
  | here found =>
    obtain ⟨after, goesOn, same⟩ := follows.stays state (here ▸ found)
    exact ⟨after, goesOn, .here (by rw [same, here]; exact found)⟩
  | later stepped comes =>
    obtain ⟨after, goesOn, same⟩ := follows.goes state _ (here ▸ stepped)
    exact ⟨after, goesOn, same ▸ comes⟩

/-- What is visited is what one comes to. -/
theorem visits_iff (follows : Follows turn place step stuck) (state : State) :
    (∀ visited, Visits turn state visited → ¬bad (place visited)) ↔ ¬Comes step bad (place state) := by
  constructor
  · intro never comes
    generalize here : place state = there at comes
    induction comes generalizing state with
    | here found => exact never state .start (here ▸ found)
    | later stepped comes ih =>
      obtain ⟨after, goesOn, same⟩ := follows.goes state _ (here ▸ stepped)
      refine ih after (fun visited visits => never visited ?_) same
      clear never
      induction visits with
      | start => exact .again .start goesOn
      | again before goesOn' still => exact .again still goesOn'
  · intro never visited visits found
    apply never
    have comes : Comes step bad (place visited) := .here found
    clear found never
    induction visits with
    | start => exact comes
    | @again visited next before goesOn ih =>
      apply ih
      rcases follows.stepped _ _ goesOn with stepped | here
      · exact .later stepped comes
      · obtain ⟨after, goesOn', same⟩ := follows.stays visited here
        cases goesOn.symm.trans goesOn'
        exact same ▸ comes

theorem comes_iff (follows : Follows turn place step stuck) (state : State) :
    Comes step bad (place state) ↔ ∃ visited, Visits turn state visited ∧ bad (place visited) := by
  rw [← not_iff_not, ← follows.visits_iff state, not_exists]
  exact forall_congr' fun visited => not_and.symm

end Follows

end BcmDhd.Lib
