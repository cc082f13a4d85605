import Mathlib.Data.List.Nodup

/-! Chains of entries in buckets, where each identifier is held at most once:
over arbitrary buckets, entries and identifiers. -/

namespace BcmDhd.Lib

open Function

universe u v w

variable {Key : Type u} {Entry : Type v} {Id : Type w}

/-- Some bucket has an entry with the identifier. -/
def Held (ident : Entry → Id) (buckets : Key → List Entry) (id : Id) : Prop :=
  ∃ key, ∃ entry ∈ buckets key, ident entry = id

/-- No identifier occurs twice, neither in one bucket nor in two. -/
structure UniqueIds (ident : Entry → Id) (buckets : Key → List Entry) : Prop where
  nodup : ∀ key, ((buckets key).map ident).Nodup
  apart : ∀ {key key' entry entry'}, entry ∈ buckets key → entry' ∈ buckets key' →
    ident entry = ident entry' → key = key'

variable {ident : Entry → Id} {buckets : Key → List Entry}

theorem mem_eraseP_ident [DecidableEq Id] {entries : List Entry}
    (nodup : (entries.map ident).Nodup) {id : Id} {found : Entry} :
    found ∈ entries.eraseP (fun entry => ident entry = id) ↔ found ∈ entries ∧ ident found ≠ id := by
  induction entries with
  | nil => simp
  | cons entry rest ih =>
    obtain ⟨absent, later⟩ := List.nodup_cons.mp nodup
    by_cases here : ident entry = id
    · have removed : (entry :: rest).eraseP (fun entry => ident entry = id) = rest :=
        List.eraseP_cons_of_pos (by simpa using here)
      rw [removed, List.mem_cons]
      constructor
      · intro member
        have different : ident found ≠ id := by
          rintro rfl
          exact absent (here ▸ List.mem_map_of_mem member)
        exact ⟨Or.inr member, different⟩
      · rintro ⟨rfl | member, different⟩
        · exact absurd here different
        · exact member
    · have kept : (entry :: rest).eraseP (fun entry => ident entry = id) =
          entry :: rest.eraseP (fun entry => ident entry = id) :=
        List.eraseP_cons_of_neg (by simpa using here)
      rw [kept, List.mem_cons, ih later, List.mem_cons]
      constructor
      · rintro (rfl | ⟨member, different⟩)
        · exact ⟨Or.inl rfl, here⟩
        · exact ⟨Or.inr member, different⟩
      · rintro ⟨rfl | member, different⟩
        · exact Or.inl rfl
        · exact Or.inr ⟨member, different⟩

section Membership

variable [DecidableEq Key]

theorem mem_update_append {key other : Key} {entry found : Entry} :
    found ∈ update buckets key (buckets key ++ [entry]) other ↔
      found ∈ buckets other ∨ (other = key ∧ found = entry) := by
  by_cases here : other = key
  · subst other
    simp
  · simp [here]

theorem held_append {key : Key} {entry : Entry} {id : Id} :
    Held ident (update buckets key (buckets key ++ [entry])) id ↔
      Held ident buckets id ∨ id = ident entry := by
  simp only [Held, mem_update_append]
  constructor
  · rintro ⟨other, found, old | ⟨-, rfl⟩, rfl⟩
    · exact Or.inl ⟨other, found, old, rfl⟩
    · exact Or.inr rfl
  · rintro (⟨other, found, old, rfl⟩ | rfl)
    · exact ⟨other, found, Or.inl old, rfl⟩
    · exact ⟨key, entry, Or.inr ⟨rfl, rfl⟩, rfl⟩

end Membership

namespace UniqueIds

variable [DecidableEq Key]

theorem append (unique : UniqueIds ident buckets) {key : Key} {entry : Entry}
    (fresh : ¬ Held ident buckets (ident entry)) :
    UniqueIds ident (update buckets key (buckets key ++ [entry])) := by
  constructor
  · intro other
    by_cases here : other = key
    · subst here
      rw [update_self, List.map_append, List.map_singleton, List.nodup_append]
      refine ⟨unique.nodup other, List.nodup_singleton _, ?_⟩
      intro id present new only same
      obtain ⟨found, member, rfl⟩ := List.mem_map.mp present
      exact fresh ⟨other, found, member, same.trans (List.mem_singleton.mp only)⟩
    · rw [update_of_ne here]
      exact unique.nodup other
  · intro first second found found' member member' same
    rcases mem_update_append.mp member with old | ⟨rfl, rfl⟩ <;>
      rcases mem_update_append.mp member' with old' | ⟨rfl, rfl⟩
    · exact unique.apart old old' same
    · exact absurd ⟨first, found, old, same⟩ fresh
    · exact absurd ⟨second, found', old', same.symm⟩ fresh
    · rfl

variable [DecidableEq Id] {key : Key} {entry : Entry}

theorem mem_update_remove (unique : UniqueIds ident buckets) (member : entry ∈ buckets key)
    {other : Key} {found : Entry} :
    found ∈ update buckets key
        ((buckets key).eraseP (fun cur => ident cur = ident entry)) other ↔
      found ∈ buckets other ∧ ident found ≠ ident entry := by
  by_cases here : other = key
  · subst here
    rw [update_self]
    exact mem_eraseP_ident (unique.nodup other)
  · rw [update_of_ne here]
    constructor
    · intro present
      exact ⟨present, fun same => here (unique.apart present member same)⟩
    · exact And.left

theorem held_remove (unique : UniqueIds ident buckets) (member : entry ∈ buckets key) {id : Id} :
    Held ident (update buckets key
        ((buckets key).eraseP (fun cur => ident cur = ident entry))) id ↔
      Held ident buckets id ∧ id ≠ ident entry := by
  simp only [Held, unique.mem_update_remove member]
  constructor
  · rintro ⟨other, found, ⟨old, different⟩, rfl⟩
    exact ⟨⟨other, found, old, rfl⟩, different⟩
  · rintro ⟨⟨other, found, old, rfl⟩, different⟩
    exact ⟨other, found, ⟨old, different⟩, rfl⟩

theorem remove (unique : UniqueIds ident buckets) (member : entry ∈ buckets key) :
    UniqueIds ident (update buckets key
      ((buckets key).eraseP (fun cur => ident cur = ident entry))) := by
  constructor
  · intro other
    by_cases here : other = key
    · subst here
      rw [update_self]
      exact (unique.nodup other).sublist (List.eraseP_sublist.map ident)
    · rw [update_of_ne here]
      exact unique.nodup other
  · intro first second found found' present present' same
    have old := (unique.mem_update_remove member).mp present
    have old' := (unique.mem_update_remove member).mp present'
    exact unique.apart old.1 old'.1 same

end UniqueIds

end BcmDhd.Lib
