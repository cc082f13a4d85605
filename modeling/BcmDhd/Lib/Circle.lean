import Mathlib.Tactic

/-! Circular lists that are linked both ways by pointers that may be NULL, as they are for
nodes outside of the list: starting elsewhere, inserting behind the last node, unlinking. -/

namespace BcmDhd.Lib

universe u

variable {Node : Type u}

/-- From `first` over `nodes` to `last`, linked both ways. -/
def Way (next prev : Node → Option Node) : Node → List Node → Node → Prop
  | first, [], last => next first = some last ∧ prev last = some first
  | first, node :: rest, last =>
    (next first = some node ∧ prev node = some first) ∧ Way next prev node rest last

namespace Way

variable {next prev next' prev' : Node → Option Node} {first last node : Node}
variable {nodes front back : List Node}

theorem append_cons : Way next prev first (front ++ node :: back) last ↔
    Way next prev first front node ∧ Way next prev node back last := by
  induction front generalizing first with
  | nil => simp [Way]
  | cons head rest ih => simp [Way, ih, and_assoc]

theorem frame (way : Way next prev first nodes last)
    (sameNext : ∀ node ∈ first :: nodes, next' node = next node)
    (samePrev : ∀ node ∈ nodes ++ [last], prev' node = prev node) :
    Way next' prev' first nodes last := by
  induction nodes generalizing first with
  | nil =>
    obtain ⟨forth, back⟩ := way
    exact ⟨(sameNext first (by simp)).trans forth, (samePrev last (by simp)).trans back⟩
  | cons node rest ih =>
    obtain ⟨⟨forth, back⟩, later⟩ := way
    refine ⟨⟨(sameNext first (by simp)).trans forth, (samePrev node (by simp)).trans back⟩, ?_⟩
    apply ih later
    · intro other member
      exact sameNext other (List.mem_cons_of_mem first member)
    · intro other member
      exact samePrev other (List.mem_cons_of_mem node member)

end Way

/-- Each node leads to the one behind it, the last one to the first, and back. -/
structure Circle (next prev : Node → Option Node) (nodes : List Node) : Prop where
  nodup : nodes.Nodup
  around : ∀ head rest, nodes = head :: rest → Way next prev head rest head
  next_off : ∀ node ∉ nodes, next node = none
  prev_off : ∀ node ∉ nodes, prev node = none

namespace Circle

variable {next prev : Node → Option Node} {nodes other front back rest : List Node}
variable {head node before after : Node}

theorem empty (noNext : ∀ node, next node = none) (noPrev : ∀ node, prev node = none) :
    Circle next prev [] :=
  ⟨List.nodup_nil, fun _ _ same => absurd same (by simp), fun node _ => noNext node,
    fun node _ => noPrev node⟩

theorem turn (circle : Circle next prev (head :: rest)) : Circle next prev (rest ++ [head]) := by
  have same : ∀ node, node ∈ rest ++ [head] ↔ node ∈ head :: rest := by
    intro node
    simp [or_comm]
  refine ⟨?_, ?_, ?_, ?_⟩
  · exact (List.perm_append_singleton head rest).nodup_iff.mpr circle.nodup
  · intro first more split
    have way := circle.around head rest rfl
    cases rest with
    | nil =>
      obtain ⟨rfl, rfl⟩ := List.cons.inj split
      exact way
    | cons second rest =>
      obtain ⟨rfl, rfl⟩ := List.cons.inj split
      obtain ⟨link, later⟩ := way
      exact Way.append_cons.mpr ⟨later, link⟩
  · intro node off
    exact circle.next_off node fun member => off ((same node).mpr member)
  · intro node off
    exact circle.prev_off node fun member => off ((same node).mpr member)

theorem rotated (circle : Circle next prev (front ++ back)) : Circle next prev (back ++ front) := by
  induction front generalizing back with
  | nil => simpa using circle
  | cons head front ih =>
    have turned : Circle next prev (front ++ (back ++ [head])) := by
      rw [← List.append_assoc]
      exact circle.turn
    have round := ih turned
    rwa [List.append_assoc] at round

theorem from_mem (circle : Circle next prev nodes) (member : node ∈ nodes) :
    ∃ front back, nodes = front ++ node :: back ∧ Circle next prev (node :: (back ++ front)) := by
  obtain ⟨front, back, rfl⟩ := List.append_of_mem member
  exact ⟨front, back, rfl, circle.rotated⟩

theorem next_head (circle : Circle next prev (head :: rest)) :
    next head = (rest ++ [head]).head? := by
  have way := circle.around head rest rfl
  cases rest with
  | nil => exact way.1
  | cons second rest => exact way.1.1

theorem prev_head (circle : Circle next prev (head :: rest)) :
    prev head = (head :: rest).getLast? := by
  have way := circle.around head rest rfl
  rcases List.eq_nil_or_concat rest with rfl | ⟨front, last, rfl⟩
  · exact way.2
  · rw [List.concat_eq_append] at way ⊢
    obtain ⟨-, final⟩ := Way.append_cons.mp way
    rw [final.2, ← List.cons_append, List.getLast?_concat]

theorem next_ne_none (circle : Circle next prev nodes) : next node ≠ none ↔ node ∈ nodes := by
  constructor
  · intro linked
    by_contra off
    exact linked (circle.next_off node off)
  · intro member
    obtain ⟨front, back, -, first⟩ := circle.from_mem member
    rw [first.next_head]
    simp

theorem prev_ne_none (circle : Circle next prev nodes) : prev node ≠ none ↔ node ∈ nodes := by
  constructor
  · intro linked
    by_contra off
    exact linked (circle.prev_off node off)
  · intro member
    obtain ⟨front, back, -, first⟩ := circle.from_mem member
    rw [first.prev_head]
    simp

/-- The two pointers are inverse to each other. -/
theorem next_eq_some_iff (circle : Circle next prev nodes) :
    next before = some after ↔ prev after = some before := by
  constructor
  · intro leads
    have member := circle.next_ne_none.mp (by rw [leads]; simp)
    obtain ⟨front, back, -, first⟩ := circle.from_mem member
    have way := first.around _ _ rfl
    cases split : back ++ front with
    | nil =>
      rw [split] at way
      obtain rfl := Option.some.inj (leads.symm.trans way.1)
      exact way.2
    | cons second more =>
      rw [split] at way
      obtain rfl := Option.some.inj (leads.symm.trans way.1.1)
      exact way.1.2
  · intro leads
    have member := circle.prev_ne_none.mp (by rw [leads]; simp)
    obtain ⟨front, back, -, first⟩ := circle.from_mem member
    have way := first.around _ _ rfl
    rcases List.eq_nil_or_concat (back ++ front) with split | ⟨more, last, split⟩
    · rw [split] at way
      obtain rfl := Option.some.inj (leads.symm.trans way.2)
      exact way.1
    · rw [split, List.concat_eq_append] at way
      obtain ⟨-, final⟩ := Way.append_cons.mp way
      obtain rfl := Option.some.inj (leads.symm.trans final.2)
      exact final.1

variable [DecidableEq Node]

open Function in
theorem alone (circle : Circle next prev []) (node : Node) :
    Circle (update next node (some node)) (update prev node (some node)) [node] := by
  refine ⟨List.nodup_singleton node, ?_, ?_, ?_⟩
  · intro head rest split
    obtain ⟨rfl, rfl⟩ := List.cons.inj split
    exact ⟨update_self _ _ _, update_self _ _ _⟩
  · intro other off
    rw [update_of_ne (by simpa using off)]
    exact circle.next_off other (by simp)
  · intro other off
    rw [update_of_ne (by simpa using off)]
    exact circle.prev_off other (by simp)

open Function in
/-- A node goes between the last one and the first one. -/
theorem insert (circle : Circle next prev (head :: rest)) (last : prev head = some before)
    (off : node ∉ head :: rest) :
    Circle (update (update next before (some node)) node (some head))
      (update (update prev node (some before)) head (some node)) (head :: rest ++ [node]) := by
  have ends : (head :: rest).getLast? = some before := circle.prev_head.symm.trans last
  have inside : before ∈ head :: rest := List.mem_of_getLast? ends
  have apart : node ≠ before := fun same => off (same ▸ inside)
  have notHead : node ≠ head := fun same => off (by simp [same])
  refine ⟨?_, ?_, ?_, ?_⟩
  · exact (List.perm_append_singleton node (head :: rest)).nodup_iff.mpr
      (List.nodup_cons.mpr ⟨off, circle.nodup⟩)
  · intro first more split
    obtain ⟨rfl, rfl⟩ := List.cons.inj split
    have way := circle.around head rest rfl
    have into : update (update next before (some node)) node (some head) before = some node := by
      rw [update_of_ne apart.symm, update_self]
    have back : update (update prev node (some before)) head (some node) node = some before := by
      rw [update_of_ne notHead, update_self]
    refine Way.append_cons.mpr ⟨?_, update_self _ _ _, update_self _ _ _⟩
    rcases List.eq_nil_or_concat rest with rfl | ⟨middle, last', rfl⟩
    · obtain rfl : head = before := by simpa using ends
      exact ⟨into, back⟩
    · rw [List.concat_eq_append] at *
      rw [← List.cons_append, List.getLast?_concat] at ends
      obtain rfl := Option.some.inj ends
      obtain ⟨early, -⟩ := Way.append_cons.mp way
      refine Way.append_cons.mpr ⟨early.frame ?_ ?_, into, back⟩
      · intro other member
        have fresh : other ≠ node := by
          rintro rfl
          exact off (by simp at member ⊢; tauto)
        have notLast : other ≠ last' := by
          rintro rfl
          have nodup := circle.nodup
          rw [← List.cons_append] at nodup
          exact (List.disjoint_of_nodup_append nodup) member (by simp)
        rw [update_of_ne fresh, update_of_ne notLast]
      · intro other member
        have fresh : other ≠ node := by
          rintro rfl
          exact off (by simp at member ⊢; tauto)
        have notFirst : other ≠ head := by
          rintro rfl
          exact (List.nodup_cons.mp circle.nodup).1 member
        rw [update_of_ne notFirst, update_of_ne fresh]
  · intro other outside
    have fresh : other ≠ node := fun same => outside (by simp [same])
    have notLast : other ≠ before := fun same =>
      outside (List.mem_append_left _ (same ▸ inside))
    rw [update_of_ne fresh, update_of_ne notLast]
    exact circle.next_off other fun member => outside (List.mem_append_left _ member)
  · intro other outside
    have fresh : other ≠ node := fun same => outside (by simp [same])
    have notFirst : other ≠ head := fun same => outside (by simp [same])
    rw [update_of_ne notFirst, update_of_ne fresh]
    exact circle.prev_off other fun member => outside (List.mem_append_left _ member)

open Function in
theorem clear (circle : Circle next prev [node]) :
    Circle (update next node none) (update prev node none) [] := by
  refine empty ?_ ?_
  · intro other
    by_cases same : other = node
    · rw [same, update_self]
    · rw [update_of_ne same]
      exact circle.next_off other (by simpa using same)
  · intro other
    by_cases same : other = node
    · rw [same, update_self]
    · rw [update_of_ne same]
      exact circle.prev_off other (by simpa using same)

open Function in
/-- The neighbours of the first node are joined. -/
theorem unlinkFirst {second : Node} (circle : Circle next prev (node :: second :: rest))
    (last : prev node = some before) :
    Circle (update (update next before (some second)) node none)
      (update (update prev second (some before)) node none) (second :: rest) := by
  have ends : (node :: second :: rest).getLast? = some before := circle.prev_head.symm.trans last
  have inside : before ∈ second :: rest := by
    rw [List.getLast?_cons_cons] at ends
    exact List.mem_of_getLast? ends
  obtain ⟨off, nodup⟩ := List.nodup_cons.mp circle.nodup
  have apart : before ≠ node := fun same => off (same ▸ inside)
  have notNode : second ≠ node := fun same => off (by simp [same])
  refine ⟨nodup, ?_, ?_, ?_⟩
  · intro first more split
    obtain ⟨rfl, rfl⟩ := List.cons.inj split
    obtain ⟨-, way⟩ := circle.around node (second :: rest) rfl
    have into : update (update next before (some second)) node none before = some second := by
      rw [update_of_ne apart, update_self]
    have back : update (update prev second (some before)) node none second = some before := by
      rw [update_of_ne notNode, update_self]
    rcases List.eq_nil_or_concat rest with rfl | ⟨middle, last', rfl⟩
    · obtain rfl : second = before := by simpa using ends
      exact ⟨into, back⟩
    · rw [List.concat_eq_append] at *
      rw [← List.cons_append, ← List.cons_append, List.getLast?_concat] at ends
      obtain rfl := Option.some.inj ends
      obtain ⟨early, -⟩ := Way.append_cons.mp way
      refine Way.append_cons.mpr ⟨early.frame ?_ ?_, into, back⟩
      · intro other member
        have stays : other ≠ node := by
          rintro rfl
          exact off (by simp at member ⊢; tauto)
        have notLast : other ≠ last' := by
          rintro rfl
          rw [← List.cons_append] at nodup
          exact (List.disjoint_of_nodup_append nodup) member (by simp)
        rw [update_of_ne stays, update_of_ne notLast]
      · intro other member
        have stays : other ≠ node := by
          rintro rfl
          exact off (List.mem_cons_of_mem second member)
        have notSecond : other ≠ second := by
          rintro rfl
          exact (List.nodup_cons.mp nodup).1 member
        rw [update_of_ne stays, update_of_ne notSecond]
  · intro other outside
    by_cases same : other = node
    · rw [same, update_self]
    · have notLast : other ≠ before := fun is => outside (is ▸ inside)
      rw [update_of_ne same, update_of_ne notLast]
      exact circle.next_off other (by simp at outside ⊢; tauto)
  · intro other outside
    by_cases same : other = node
    · rw [same, update_self]
    · have notSecond : other ≠ second := fun is => outside (by simp [is])
      rw [update_of_ne same, update_of_ne notSecond]
      exact circle.prev_off other (by simp at outside ⊢; tauto)

open Function in
theorem unlink (circle : Circle next prev (front ++ node :: back)) (others : front ++ back ≠ [])
    (last : prev node = some before) (second : next node = some after) :
    Circle (update (update next before (some after)) node none)
      (update (update prev after (some before)) node none) (front ++ back) := by
  have first : Circle next prev (node :: (back ++ front)) := circle.rotated
  cases split : back ++ front with
  | nil =>
    obtain ⟨rfl, rfl⟩ := List.append_eq_nil_iff.mp split
    exact absurd rfl others
  | cons head rest =>
    rw [split] at first
    obtain rfl : after = head := by simpa using second.symm.trans first.next_head
    have joined := first.unlinkFirst last
    rw [← split] at joined
    exact joined.rotated

end Circle

end BcmDhd.Lib
