import Mathlib.Tactic

/-! Positions on a circle of `depth` slots: stretches of consecutive slots, how
they are cut, and how far one position is ahead of another. -/

namespace BcmDhd.Lib

/-- The `count` slots from `start` on, in circular order. -/
def slots (depth start count : Nat) : List Nat :=
  (List.range count).map fun i => (start + i) % depth

namespace Circular

variable {depth start count first second : Nat}

@[simp] theorem length_slots : (slots depth start count).length = count := by simp [slots]

theorem slots_one (inside : start < depth) : slots depth start 1 = [start] := by
  simp [slots, Nat.mod_eq_of_lt inside]

theorem slots_add (depth start first second : Nat) :
    slots depth start (first + second) =
      slots depth start first ++ slots depth ((start + first) % depth) second := by
  simp only [slots, List.range_add, List.map_append, List.map_map]
  congr 1
  apply List.map_congr_left
  intro i _
  simp [Nat.add_assoc]

theorem nodup_slots (start : Nat) (fits : count ≤ depth) : (slots depth start count).Nodup := by
  apply List.Nodup.map_on _ List.nodup_range
  intro i inI j inJ same
  have same : i ≡ j [MOD depth] := Nat.ModEq.add_left_cancel' start same
  have below : i < depth := lt_of_lt_of_le (List.mem_range.mp inI) fits
  have below' : j < depth := lt_of_lt_of_le (List.mem_range.mp inJ) fits
  exact same.eq_of_lt_of_lt below below'

theorem slots_eq_range (uncut : start + count ≤ depth) :
    slots depth start count = List.range' start count := by
  rw [List.range'_eq_map_range]
  apply List.map_congr_left
  intro i inside
  have := List.mem_range.mp inside
  exact Nat.mod_eq_of_lt (by omega)

theorem slots_disjoint (start : Nat) (fits : first + second ≤ depth) :
    (slots depth start first).Disjoint (slots depth ((start + first) % depth) second) := by
  have nodup := nodup_slots start fits
  rw [slots_add] at nodup
  exact List.disjoint_of_nodup_append nodup

theorem filter_slots_drop (start : Nat) (fits : first + second ≤ depth) :
    (slots depth start (first + second)).filter (fun slot => slot ∉ slots depth start first) =
      slots depth ((start + first) % depth) second := by
  rw [slots_add, List.filter_append]
  have gone : (slots depth start first).filter (fun slot => slot ∉ slots depth start first) = [] := by
    simp
  have kept : (slots depth ((start + first) % depth) second).filter
      (fun slot => slot ∉ slots depth start first) = slots depth ((start + first) % depth) second := by
    apply List.filter_eq_self.mpr
    intro slot member
    simpa using fun taken => slots_disjoint start fits taken member
  rw [gone, kept, List.nil_append]

/-- How far `ahead` is in front of `behind`, without a division. -/
def distance (depth behind ahead : Nat) : Nat :=
  if behind ≤ ahead then ahead - behind else depth - behind + ahead

theorem advance_cases (inside : start < depth) (short : count < depth) :
    (start + count < depth ∧ (start + count) % depth = start + count) ∨
      (depth ≤ start + count ∧ (start + count) % depth = start + count - depth) := by
  by_cases straight : start + count < depth
  · exact Or.inl ⟨straight, Nat.mod_eq_of_lt straight⟩
  · refine Or.inr ⟨by omega, ?_⟩
    rw [Nat.mod_eq_sub_mod (by omega), Nat.mod_eq_of_lt (by omega)]

theorem distance_add (inside : start < depth) (short : count < depth) :
    distance depth start ((start + count) % depth) = count := by
  unfold distance
  rcases advance_cases inside short with ⟨-, place⟩ | ⟨wraps, place⟩
  · simp [place]
  · rw [place, if_neg (by omega)]
    omega

theorem distance_counters {behind ahead : Nat} (ordered : behind ≤ ahead)
    (near : ahead < behind + depth) :
    distance depth (behind % depth) (ahead % depth) = ahead - behind := by
  have positive : 0 < depth := by omega
  have place : ahead % depth = (behind % depth + (ahead - behind)) % depth := by
    rw [Nat.mod_add_mod, Nat.add_sub_cancel' ordered]
  rw [place]
  exact distance_add (Nat.mod_lt behind positive) (by omega)

theorem counters_eq_iff {behind ahead : Nat} (ordered : behind ≤ ahead)
    (near : ahead < behind + depth) : ahead % depth = behind % depth ↔ ahead = behind := by
  constructor
  · intro same
    have apart := distance_counters ordered near
    rw [same, distance, if_pos le_rfl] at apart
    omega
  · intro same
    rw [same]

theorem counters_inj {a b : Nat} (windowA : start ≤ a ∧ a < start + depth)
    (windowB : start ≤ b ∧ b < start + depth) (same : a % depth = b % depth) : a = b := by
  rcases Nat.le_total a b with le | le
  · exact ((counters_eq_iff le (by omega)).mp same.symm).symm
  · exact (counters_eq_iff le (by omega)).mp same

theorem wrap_eq_mod (uncut : start + count ≤ depth) :
    (if start + count = depth then 0 else start + count) = (start + count) % depth := by
  by_cases full : start + count = depth
  · simp [full]
  · rw [if_neg full, Nat.mod_eq_of_lt (by omega)]

end Circular

end BcmDhd.Lib
