import Mathlib.Data.Finset.Card

/-! A stack of free keys kept in an array: popping hands a key out, pushing takes it back. -/

namespace BcmDhd.Lib

open Function

universe u

variable {Key : Type u} {slot : Nat → Key} {count : Nat} {free : Key → Prop}

/-- The first `count` slots list the free keys, each once. -/
structure FreeStack (slot : Nat → Key) (count : Nat) (free : Key → Prop) : Prop where
  distinct : ∀ i < count, ∀ j < count, slot i = slot j → i = j
  lists : ∀ key, free key ↔ ∃ i < count, slot i = key

namespace FreeStack

theorem congr (valid : FreeStack slot count free) {other : Key → Prop}
    (same : ∀ key, other key ↔ free key) : FreeStack slot count other :=
  ⟨valid.distinct, fun key => (same key).trans (valid.lists key)⟩

theorem top_free (valid : FreeStack slot (count + 1) free) : free (slot count) :=
  (valid.lists _).mpr ⟨count, Nat.lt_succ_self count, rfl⟩

theorem pop (valid : FreeStack slot (count + 1) free) :
    FreeStack slot count (fun key => free key ∧ key ≠ slot count) := by
  constructor
  · intro i below j other same
    exact valid.distinct i (by omega) j (by omega) same
  · intro key
    constructor
    · rintro ⟨isFree, different⟩
      obtain ⟨i, below, found⟩ := (valid.lists key).mp isFree
      refine ⟨i, ?_, found⟩
      have notTop : i ≠ count := fun same => different (by rw [← found, same])
      omega
    · rintro ⟨i, below, found⟩
      refine ⟨(valid.lists key).mpr ⟨i, by omega, found⟩, ?_⟩
      intro top
      have same := valid.distinct i (by omega) count (by omega) (found.trans top)
      omega

/-- Pushing a key that is not free adds exactly this key. -/
theorem push (valid : FreeStack slot count free) {key : Key} (used : ¬ free key) :
    FreeStack (update slot count key) (count + 1)
      (fun other => free other ∨ other = key) := by
  have below : ∀ i < count, update slot count key i = slot i :=
    fun i inside => update_of_ne (by omega) _ _
  have absent : ∀ i < count, slot i ≠ key :=
    fun i inside same => used ((valid.lists key).mpr ⟨i, inside, same⟩)
  constructor
  · intro i iBound j jBound same
    rcases Nat.lt_succ_iff_lt_or_eq.mp iBound with iBelow | rfl <;>
      rcases Nat.lt_succ_iff_lt_or_eq.mp jBound with jBelow | rfl
    · rw [below i iBelow, below j jBelow] at same
      exact valid.distinct i iBelow j jBelow same
    · rw [below i iBelow, update_self] at same
      exact (absent i iBelow same).elim
    · rw [below j jBelow, update_self] at same
      exact (absent j jBelow same.symm).elim
    · rfl
  · intro other
    constructor
    · rintro (isFree | rfl)
      · obtain ⟨i, inside, found⟩ := (valid.lists other).mp isFree
        exact ⟨i, by omega, (below i inside).trans found⟩
      · exact ⟨count, Nat.lt_succ_self count, update_self _ _ _⟩
    · rintro ⟨i, bound, found⟩
      rcases Nat.lt_succ_iff_lt_or_eq.mp bound with inside | rfl
      · exact .inl ((valid.lists other).mpr ⟨i, inside, (below i inside).symm.trans found⟩)
      · rw [update_self] at found
        exact .inr found.symm

theorem count_eq_zero (valid : FreeStack slot count free) : count = 0 ↔ ∀ key, ¬ free key := by
  constructor
  · rintro rfl key isFree
    obtain ⟨i, below, _⟩ := (valid.lists key).mp isFree
    omega
  · intro none
    by_contra positive
    exact none (slot 0) ((valid.lists _).mpr ⟨0, by omega, rfl⟩)

theorem injOn (valid : FreeStack slot count free) : Set.InjOn slot (Finset.range count) := by
  intro i iBelow j jBelow same
  exact valid.distinct i (by simpa using iBelow) j (by simpa using jBelow) same

theorem count_le [DecidableEq Key] (valid : FreeStack slot count free) (keys : Finset Key)
    (inside : ∀ key, free key → key ∈ keys) : count ≤ keys.card := by
  have injective := valid.injOn
  calc count = (Finset.range count).card := (Finset.card_range count).symm
    _ = ((Finset.range count).image slot).card := (Finset.card_image_of_injOn injective).symm
    _ ≤ keys.card := by
      apply Finset.card_le_card
      intro key member
      obtain ⟨i, below, found⟩ := Finset.mem_image.mp member
      exact inside key ((valid.lists key).mpr ⟨i, Finset.mem_range.mp below, found⟩)

theorem card_eq [DecidableEq Key] (valid : FreeStack slot count free) {keys : Finset Key}
    (same : ∀ key, key ∈ keys ↔ free key) : keys.card = count := by
  have image : keys = (Finset.range count).image slot := by
    ext key
    rw [same, valid.lists, Finset.mem_image]
    simp only [Finset.mem_range]
  rw [image, Finset.card_image_of_injOn valid.injOn, Finset.card_range]

end FreeStack

end BcmDhd.Lib
