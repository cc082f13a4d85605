import Mathlib.Tactic

/-! Arrays of slots: how many of the first `size` slots meet a condition, and how
writing one slot changes that number. -/

namespace BcmDhd.Lib

universe u

variable {Slot : Type u}

def slotCount (size : Nat) (slots : Nat → Slot) (counts : Slot → Bool) : Nat :=
  (List.range size).countP fun i => counts (slots i)

namespace SlotCount

variable {size i : Nat} {slots other : Nat → Slot} {counts : Slot → Bool}

theorem succ (size : Nat) (slots : Nat → Slot) (counts : Slot → Bool) :
    slotCount (size + 1) slots counts =
      slotCount size slots counts + if counts (slots size) then 1 else 0 := by
  rw [slotCount, List.range_succ, List.countP_append]
  simp [slotCount, List.countP_cons]

theorem congr (same : ∀ i < size, counts (slots i) = counts (other i)) :
    slotCount size slots counts = slotCount size other counts := by
  apply List.countP_congr
  intro i member
  rw [same i (List.mem_range.mp member)]

theorem update_outside (outside : size ≤ i) (slot : Slot) :
    slotCount size (Function.update slots i slot) counts = slotCount size slots counts := by
  apply congr
  intro j inside
  rw [Function.update_of_ne (by omega)]

theorem update (inside : i < size) (slots : Nat → Slot) (slot : Slot) (counts : Slot → Bool) :
    slotCount size (Function.update slots i slot) counts + (if counts (slots i) then 1 else 0) =
      slotCount size slots counts + if counts slot then 1 else 0 := by
  induction size with
  | zero => omega
  | succ size ih =>
    rw [succ, succ]
    rcases Nat.lt_or_ge i size with below | above
    · have before := ih below
      rw [Function.update_of_ne (by omega)]
      omega
    · obtain rfl : i = size := by omega
      rw [update_outside (Nat.le_refl i), Function.update_self]
      omega

theorem le_size : slotCount size slots counts ≤ size := by
  have bound := List.countP_le_length (p := fun i => counts (slots i)) (l := List.range size)
  simpa [slotCount] using bound

theorem eq_zero_iff : slotCount size slots counts = 0 ↔ ∀ i < size, counts (slots i) = false := by
  rw [slotCount, List.countP_eq_zero]
  simp

theorem ge_prefix {first : Nat} (fits : first ≤ size)
    (all : ∀ i < first, counts (slots i) = true) : first ≤ slotCount size slots counts := by
  induction size generalizing first with
  | zero => omega
  | succ size ih =>
    rw [succ]
    rcases Nat.lt_or_ge size first with full | short
    · have rest := ih (Nat.le_refl size) fun i below => all i (by omega)
      rw [if_pos (all size full)]
      omega
    · have rest := ih short all
      omega

theorem eq_one (inside : i < size) (here : counts (slots i) = true)
    (only : ∀ j < size, counts (slots j) = true → j = i) : slotCount size slots counts = 1 := by
  induction size with
  | zero => omega
  | succ size ih =>
    rw [succ]
    rcases Nat.lt_or_ge i size with below | last
    · have rest := ih below fun j before => only j (by omega)
      have off : ¬ counts (slots size) = true := fun counted => by
        have same := only size (by omega) counted
        omega
      rw [rest, if_neg off]
    · obtain rfl : i = size := by omega
      have rest : slotCount i slots counts = 0 := eq_zero_iff.mpr fun j before => by
        by_contra counted
        have same := only j (by omega) (by simpa using counted)
        omega
      rw [rest, if_pos here]

end SlotCount

/-- What lies in the first `size` slots. -/
def contents {Item : Type u} (size : Nat) (slots : Nat → Option Item) : List Item := (List.range size).filterMap slots

namespace Contents

variable {Item : Type u} {size i : Nat} {slots : Nat → Option Item} {taken : List Nat}

theorem succ (size : Nat) (slots : Nat → Option Item) :
    contents (size + 1) slots = contents size slots ++ (slots size).toList := by
  rw [contents, List.range_succ, List.filterMap_append]
  cases found : slots size with
  | none => simp [contents, found]
  | some item => simp [contents, found]

theorem length (size : Nat) (slots : Nat → Option Item) :
    (contents size slots).length = slotCount size slots Option.isSome := by
  induction size with
  | zero => rfl
  | succ size ih =>
    rw [succ, SlotCount.succ, List.length_append, ih]
    cases slots size with
    | none => rfl
    | some item => rfl

theorem of_same {other : Nat → Option Item} (same : ∀ i < size, slots i = other i) :
    contents size slots = contents size other :=
  List.filterMap_congr fun i member => same i (List.mem_range.mp member)

/-- Writing a slot takes out what lay there and puts in what is written. -/
theorem update (inside : i < size) (slots : Nat → Option Item) (slot : Option Item) :
    (contents size (Function.update slots i slot) ++ (slots i).toList).Perm (contents size slots ++ slot.toList) := by
  induction size with
  | zero => exact absurd inside (Nat.not_lt_zero i)
  | succ size ih =>
    rw [succ, succ]
    by_cases last : i = size
    · subst last
      have rest : contents i (Function.update slots i slot) = contents i slots :=
        of_same fun j before => Function.update_of_ne (show j ≠ i by omega) slot slots
      rw [rest, Function.update_self, List.append_assoc, List.append_assoc]
      exact List.perm_append_comm.append_left _
    · have here := ih (by omega)
      have other : Function.update slots i slot size = slots size := Function.update_of_ne (Ne.symm last) slot slots
      have swapped := (here.append_right (slots size).toList)
      rw [other]
      calc (contents size (Function.update slots i slot) ++ (slots size).toList ++ (slots i).toList).Perm
            (contents size (Function.update slots i slot) ++ (slots i).toList ++ (slots size).toList) := by
            rw [List.append_assoc, List.append_assoc]
            exact List.perm_append_comm.append_left _
        _ |>.Perm (contents size slots ++ slot.toList ++ (slots size).toList) := swapped
        _ |>.Perm (contents size slots ++ (slots size).toList ++ slot.toList) := by
            rw [List.append_assoc, List.append_assoc]
            exact List.perm_append_comm.append_left _

/-- Emptying slots takes out what lay there. -/
theorem clear (distinct : taken.Nodup) (inside : ∀ i ∈ taken, i < size) :
    (contents size (fun i => if i ∈ taken then none else slots i) ++
      taken.filterMap slots).Perm (contents size slots) := by
  induction taken with
  | nil => simp
  | cons head tail ih =>
    obtain ⟨fresh, distinct⟩ := List.nodup_cons.mp distinct
    have before := ih distinct fun i member => inside i (List.mem_cons_of_mem head member)
    have written : (fun i => if i ∈ head :: tail then none else slots i) =
        Function.update (fun i => if i ∈ tail then none else slots i) head none := by
      funext i
      by_cases same : i = head
      · simp [same]
      · simp [same]
    have here := update (inside head (by simp)) (fun i => if i ∈ tail then none else slots i) none
    rw [← written] at here
    simp only [fresh, if_false, Option.toList_none, List.append_nil] at here
    cases found : slots head with
    | none =>
      simp only [found, Option.toList_none, List.append_nil] at here
      rw [List.filterMap_cons_none found]
      exact (here.append_right _).trans before
    | some item =>
      simp only [found, Option.toList_some] at here
      rw [List.filterMap_cons_some found]
      have moved := here.append_right (tail.filterMap slots)
      rw [List.append_assoc] at moved
      exact moved.trans before

theorem clear_count (distinct : taken.Nodup) (inside : ∀ i ∈ taken, i < size) :
    slotCount size (fun i => if i ∈ taken then none else slots i) Option.isSome +
      (taken.filterMap slots).length = slotCount size slots Option.isSome := by
  rw [← length, ← length, ← List.length_append]
  exact (clear distinct inside).length_eq

end Contents

end BcmDhd.Lib
