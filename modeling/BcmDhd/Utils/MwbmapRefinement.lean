import BcmDhd.Utils.MwbmapInvariant

namespace BcmDhd.Utils

open BcmDhd.Lib

inductive MwbmapCall where
  | alloc
  | force (bitix : Nat)
  | free (bitix : Nat)
  | isfree (bitix : Nat)
  | freeCnt
  deriving DecidableEq

inductive MwbmapAnswer where
  | index (value : Nat)
  | done
  | flag (value : Bool)
  | count (value : Nat)
  deriving DecidableEq

/-- The calls of the source, unguarded as they are in a release build. -/
def mwbmapMachine : Machine BcmMwbmap MwbmapCall MwbmapAnswer where
  step mwbmap
    | .alloc => let (after, index) := bcmMwbmapAlloc mwbmap; (after, .index index)
    | .force bitix => (bcmMwbmapForce mwbmap bitix, .done)
    | .free bitix => (bcmMwbmapFree mwbmap bitix, .done)
    | .isfree bitix => (mwbmap, .flag (bcmMwbmapIsfree mwbmap bitix))
    | .freeCnt => (mwbmap, .count (bcmMwbmapFreeCnt mwbmap))
  admits _ _ := True

/-- The least free id, when there is one. -/
def leastFree (free : Finset Nat) : Option Nat :=
  if inhabited : free.Nonempty then some (free.min' inhabited) else none

/-- An allocator over a set of free ids: it hands out the least one. An id may
be forced while it is free and released while it is in use. -/
def freeIds (itemsMax : Nat) : Machine (Finset Nat) MwbmapCall MwbmapAnswer where
  step free
    | .alloc =>
      match leastFree free with
      | some id => (free.erase id, .index id)
      | none => (free, .index bcmMwbmapInvalidIdx)
    | .force bitix => (free.erase bitix, .done)
    | .free bitix => (insert bitix free, .done)
    | .isfree bitix => (free, .flag (decide (bitix ∈ free)))
    | .freeCnt => (free, .count free.card)
  admits free
    | .alloc => True
    | .force bitix => bitix ∈ free
    | .free bitix => bitix < itemsMax ∧ bitix ∉ free
    | .isfree bitix => bitix < itemsMax
    | .freeCnt => True

theorem Represents.alloc {itemsMax : Nat} {mwbmap : BcmMwbmap} {free : Finset Nat}
    (valid : Represents itemsMax mwbmap free) :
    Represents itemsMax (bcmMwbmapAlloc mwbmap).1 ((freeIds itemsMax).next free .alloc) ∧
      (freeIds itemsMax).answer free .alloc = .index (bcmMwbmapAlloc mwbmap).2 := by
  by_cases inhabited : free.Nonempty
  · have member := free.min'_mem inhabited
    have least : ∀ other ∈ free, free.min' inhabited ≤ other := fun other present =>
      free.min'_le other present
    have chosen : leastFree free = some (free.min' inhabited) := dif_pos inhabited
    simp only [Machine.next, Machine.answer, freeIds, chosen, valid.alloc_least member least]
    exact ⟨valid.force member, trivial⟩
  · have empty := Finset.not_nonempty_iff_eq_empty.mp inhabited
    subst empty
    have none : leastFree ∅ = none := dif_neg inhabited
    simp only [Machine.next, Machine.answer, freeIds, none, valid.alloc_empty]
    exact ⟨valid, trivial⟩

theorem mwbmap_simulation {itemsMax : Nat} (bounded : itemsMax ≤ bcmMwbmapItemsMax) :
    Machine.Simulation mwbmapMachine (freeIds itemsMax) (Represents itemsMax) := by
  intro mwbmap free call valid _ admitted
  cases call with
  | alloc => exact ⟨valid.alloc.1, valid.alloc.2.symm⟩
  | force bitix => exact ⟨valid.force admitted, rfl⟩
  | free bitix => exact ⟨valid.release admitted.2 admitted.1, rfl⟩
  | isfree bitix => exact ⟨valid, congrArg MwbmapAnswer.flag (valid.isfree bitix)⟩
  | freeCnt => exact ⟨valid, congrArg MwbmapAnswer.count (valid.freeCnt bounded)⟩

namespace Represents

variable {itemsMax : Nat} {mwbmap : BcmMwbmap} {free : Finset Nat}

/-- The ids of the first `words` words, counted word by word. -/
private theorem card_below (valid : Represents itemsMax mwbmap free) (words : Nat) :
    (free.filter (· < 32 * words)).card =
      ((List.range words).map fun word => popcount (mwbmap.idBitmap word)).sum := by
  induction words with
  | zero => simp
  | succ previous ih =>
    have parts : free.filter (· < 32 * (previous + 1)) =
        free.filter (· < 32 * previous) ∪ (bits (mwbmap.idBitmap previous)).image (32 * previous + ·) := by
      ext id
      simp only [Finset.mem_filter, Finset.mem_union, Finset.mem_image, mem_bits]
      constructor
      · rintro ⟨member, below⟩
        by_cases earlier : id < 32 * previous
        · exact .inl ⟨member, earlier⟩
        · refine .inr ⟨id % 32, ?_, by omega⟩
          rw [valid.idBit _ _ (by omega)]
          have same : 32 * previous + id % 32 = id := by omega
          rwa [same]
      · rintro (⟨member, below⟩ | ⟨bit, raised, rfl⟩)
        · exact ⟨member, by omega⟩
        · have small : bit < 32 := BitVec.lt_of_getLsbD raised
          exact ⟨(valid.idBit _ _ small).mp raised, by omega⟩
    have apart : Disjoint (free.filter (· < 32 * previous))
        ((bits (mwbmap.idBitmap previous)).image (32 * previous + ·)) := by
      rw [Finset.disjoint_left]
      intro id earlier later
      obtain ⟨bit, _, rfl⟩ := Finset.mem_image.mp later
      have below := (Finset.mem_filter.mp earlier).2
      omega
    rw [parts, Finset.card_union_of_disjoint apart, ih,
      Finset.card_image_of_injective _ (fun _ _ same => Nat.add_left_cancel same)]
    simp [List.range_succ, popcount]

private theorem audit_fold (valid : Represents itemsMax mwbmap free) (places : List (Nat × Nat))
    (small : ∀ place ∈ places, place.2 < 32) (count : Int) :
    places.foldl (auditBit mwbmap) (true, count) = (true, count +
      ((places.map fun place => popcount (mwbmap.idBitmap (32 * place.1 + place.2))).sum : Nat)) := by
  induction places generalizing count with
  | nil => simp
  | cons place rest ih =>
    have bound : place.2 < 32 := small place (by simp)
    have announced := valid.wdBit place.1 place.2 bound
    have tested : mwbmap.wdBitmap place.1 &&& (1#32 <<< place.2) ≠ 0 ↔
        (mwbmap.wdBitmap place.1).getLsbD place.2 = true := and_twoPow_ne_zero bound
    have step : auditBit mwbmap (true, count) place =
        (true, count + popcount (mwbmap.idBitmap (32 * place.1 + place.2))) := by
      have position : bcmMwbmapMulop place.1 + place.2 = 32 * place.1 + place.2 := by
        simp only [bcmMwbmapMulop, bcmMwbmapBitsWord]
        omega
      unfold auditBit
      split_ifs with raised
      · have nonzero := mt popcount_eq_zero.mp (announced.mp (tested.mp raised))
        simp only [position, valid.wdCount, bcmCntsetbits_eq_popcount]
        simp [nonzero]
      · have zero : mwbmap.idBitmap (32 * place.1 + place.2) = 0 := by
          by_contra nonzero
          exact raised (tested.mpr (announced.mpr nonzero))
        simp [popcount_eq_zero.mpr zero]
    rw [List.foldl_cons, step, ih (fun other member => small other (by simp [member]))]
    simp [Int.add_assoc]

private theorem places_sum (weight : Nat → Nat) (words : Nat) :
    (((List.range words).flatMap fun word => (List.range 32).map fun bit => (word, bit)).map
      fun place : Nat × Nat => weight (32 * place.1 + place.2)).sum =
        ((List.range (32 * words)).map weight).sum := by
  induction words with
  | zero => simp
  | succ previous ih =>
    have rows : List.range (previous + 1) = List.range previous ++ [previous] := List.range_succ
    rw [rows, List.flatMap_append, List.map_append, List.sum_append, ih, Nat.mul_succ,
      List.range_add, List.map_append, List.sum_append]
    simp [Function.comp_def]

theorem audit (valid : Represents itemsMax mwbmap free) : bcmMwbmapAudit mwbmap = true := by
  have everything : free.filter (· < 32 * (32 * mwbmap.wmaps)) = free := by
    apply Finset.filter_true_of_mem
    intro id member
    have bound := valid.bounded id member
    rw [valid.wmaps, wordsFor_eq, wordsFor_eq]
    omega
  have small : ∀ place ∈ (List.range mwbmap.wmaps).flatMap fun wordix =>
      (List.range bcmMwbmapBitsWord).map fun bitix => (wordix, bitix), place.2 < 32 := by
    intro place member
    obtain ⟨wordix, _, inside⟩ := List.mem_flatMap.mp member
    obtain ⟨bitix, below, rfl⟩ := List.mem_map.mp inside
    simpa using below
  have counted := valid.card_below (32 * mwbmap.wmaps)
  rw [everything] at counted
  simp only [bcmMwbmapAudit, valid.audit_fold _ small]
  rw [places_sum (fun word => popcount (mwbmap.idBitmap word)), ← counted, valid.ifree]
  simp

theorem alloc_invalid_iff (valid : Represents itemsMax mwbmap free)
    (bounded : itemsMax ≤ bcmMwbmapItemsMax) :
    (bcmMwbmapAlloc mwbmap).2 = bcmMwbmapInvalidIdx ↔ free = ∅ := by
  constructor
  · intro invalid
    by_contra nonempty
    have inhabited := Finset.nonempty_iff_ne_empty.mpr nonempty
    have member := free.min'_mem inhabited
    rw [valid.alloc_least member (fun other present => free.min'_le other present)] at invalid
    have below := valid.bounded _ member
    simp only [bcmMwbmapInvalidIdx] at invalid
    simp only [bcmMwbmapItemsMax] at bounded
    omega
  · intro empty
    subst empty
    rw [valid.alloc_empty]

end Represents

/-- Every legal call sequence keeps both bitmap levels and all counters in
step with the set of free ids, answers as the set does, and passes the audit. -/
theorem mwbmap_refines_free_ids (itemsMax : Nat) (positive : 1 ≤ itemsMax)
    (below : itemsMax < 65536) (calls : List MwbmapCall)
    (legal : (freeIds itemsMax).Admitted (Finset.range itemsMax) calls) :
    let state := mwbmapMachine.run (bcmMwbmapInit itemsMax) calls
    let free := (freeIds itemsMax).run (Finset.range itemsMax) calls
    Represents itemsMax state free ∧
      mwbmapMachine.history (bcmMwbmapInit itemsMax) calls =
        (freeIds itemsMax).history (Finset.range itemsMax) calls ∧
      ((bcmMwbmapAlloc state).2 = bcmMwbmapInvalidIdx ↔ free = ∅) ∧
      bcmMwbmapAudit state = true := by
  intro state free
  have bounded : itemsMax ≤ bcmMwbmapItemsMax := by
    simp only [bcmMwbmapItemsMax]
    omega
  have unguarded : mwbmapMachine.Admitted (bcmMwbmapInit itemsMax) calls :=
    mwbmapMachine.admitted_of_forall fun _ _ => trivial
  obtain ⟨valid, recorded⟩ :=
    (mwbmap_simulation bounded).run (represents_init bounded) unguarded legal
  exact ⟨valid, recorded, valid.alloc_invalid_iff bounded, valid.audit⟩

/-- Two words, the second partial: its only id is forced, the least id is taken,
and the forced id is given back. -/
theorem mwbmap_refines_free_ids_partial_word :
    let calls := [MwbmapCall.force 32, .alloc, .free 32]
    Represents 33 (mwbmapMachine.run (bcmMwbmapInit 33) calls) ((Finset.range 33).erase 0) ∧
      bcmMwbmapAudit (mwbmapMachine.run (bcmMwbmapInit 33) calls) = true := by
  have legal : (freeIds 33).Admitted (Finset.range 33) [.force 32, .alloc, .free 32] := by
    refine ⟨?_, trivial, ⟨by decide, ?_⟩, trivial⟩
    · exact Finset.mem_range.mpr (by decide)
    · decide +kernel
  have reached : (freeIds 33).run (Finset.range 33) [.force 32, .alloc, .free 32] =
      (Finset.range 33).erase 0 := by
    decide +kernel
  obtain ⟨valid, -, -, audited⟩ := mwbmap_refines_free_ids 33 (by decide) (by decide) _ legal
  rw [reached] at valid
  exact ⟨valid, audited⟩

/-- The assertions of a call that every build has. -/
def MwbmapAsserts (mwbmap : BcmMwbmap) : MwbmapCall → Prop
  | .alloc => (List.range mwbmap.wmaps).find? (fun wordix => mwbmap.wdBitmap wordix != 0#32) = none →
      mwbmap.ifree = 0
  | .force bitix => bitix < mwbmap.total ∧
      mwbmap.idBitmap (bcmMwbmapDivop bitix) &&& (1#32 <<< bcmMwbmapModop bitix) =
        1#32 <<< bcmMwbmapModop bitix ∧
      0 ≤ mwbmap.ifree - 1
  | .free bitix => bitix < mwbmap.total ∧
      mwbmap.idBitmap (bcmMwbmapDivop bitix) &&& (1#32 <<< bcmMwbmapModop bitix) = 0 ∧
      mwbmap.ifree + 1 ≤ mwbmap.total
  | .isfree bitix => bitix < mwbmap.total
  | .freeCnt => 0 ≤ mwbmap.ifree

/-- No legal sequence of calls makes an assertion fail. -/
def MwbmapSafe (itemsMax : Nat) : Prop :=
  ∀ calls, (freeIds itemsMax).Admitted (Finset.range itemsMax) calls →
    ∀ past call rest, calls = past ++ call :: rest →
      MwbmapAsserts (mwbmapMachine.run (bcmMwbmapInit itemsMax) past) call

/-- While the total fits its field, what makes a call legal is what the call asserts. -/
theorem Represents.asserts {itemsMax : Nat} {mwbmap : BcmMwbmap} {free : Finset Nat} {call : MwbmapCall}
    (valid : Represents itemsMax mwbmap free) (small : itemsMax < 65536)
    (legal : (freeIds itemsMax).admits free call) : MwbmapAsserts mwbmap call := by
  have total : mwbmap.total = itemsMax := valid.total.trans (Nat.mod_eq_of_lt small)
  have counted := valid.ifree
  cases call with
  | alloc =>
    intro none
    by_contra some
    have inhabited : free.Nonempty := by
      rw [← Finset.card_pos]
      omega
    have taken := valid.alloc_least (free.min'_mem inhabited) fun other => free.min'_le other
    have failed : bcmMwbmapAlloc mwbmap = (mwbmap, bcmMwbmapInvalidIdx) := by
      simp only [bcmMwbmapAlloc, none]
    have below := valid.bounded _ (free.min'_mem inhabited)
    have same : bcmMwbmapInvalidIdx = free.min' inhabited := congrArg Prod.snd (failed.symm.trans taken)
    simp only [bcmMwbmapInvalidIdx] at same
    omega
  | force bitix =>
    have member : bitix ∈ free := legal
    have positive := Finset.card_pos.mpr ⟨bitix, member⟩
    refine ⟨total ▸ valid.bounded bitix member, ?_, by omega⟩
    rw [one_shiftLeft_eq_twoPow, BitVec.and_twoPow, if_pos (valid.bit_of_mem.mpr member)]
  | free bitix =>
    obtain ⟨below, absent⟩ := legal
    have room := (valid.release absent below).card_le
    rw [Finset.card_insert_of_notMem absent] at room
    refine ⟨total ▸ below, ?_, by omega⟩
    rw [one_shiftLeft_eq_twoPow, BitVec.and_twoPow, if_neg (mt valid.bit_of_mem.mp absent)]
    rfl
  | isfree bitix =>
    change bitix < mwbmap.total
    exact total ▸ legal
  | freeCnt =>
    change 0 ≤ mwbmap.ifree
    omega

/-- The total does not fit its field at the largest size alone. -/
theorem mwbmap_safe_iff {itemsMax : Nat} (accepted : itemsMax ≤ bcmMwbmapItemsMax) :
    MwbmapSafe itemsMax ↔ itemsMax < bcmMwbmapItemsMax := by
  constructor
  · intro safe
    by_contra large
    obtain rfl : itemsMax = 65536 := Nat.le_antisymm accepted (not_lt.mp large)
    have inside : 0 < (bcmMwbmapInit 65536).total :=
      safe [.isfree 0] ⟨Nat.zero_lt_succ 65535, trivial⟩ [] (.isfree 0) [] rfl
    exact absurd inside (by decide)
  · rintro small calls legal past call rest rfl
    obtain ⟨before, now⟩ := ((freeIds itemsMax).admitted_append _ past (call :: rest)).mp legal
    have unguarded : mwbmapMachine.Admitted (bcmMwbmapInit itemsMax) past :=
      mwbmapMachine.admitted_of_forall fun _ _ => trivial
    have valid := ((mwbmap_simulation accepted).run (represents_init accepted) unguarded before).1
    exact valid.asserts small now.1

theorem mwbmap_safe_iff_kilo : MwbmapSafe 1024 := (mwbmap_safe_iff (by decide)).mpr (by decide)

/-- The first id handed out of the largest map is refused when it comes back. -/
theorem mwbmap_full_size_fails :
    (freeIds bcmMwbmapItemsMax).Admitted (Finset.range bcmMwbmapItemsMax) [.alloc, .free 0] ∧
      ¬ MwbmapAsserts (mwbmapMachine.run (bcmMwbmapInit bcmMwbmapItemsMax) [.alloc]) (.free 0) := by
  have member : 0 ∈ Finset.range bcmMwbmapItemsMax := Finset.mem_range.mpr (by decide)
  have least : leastFree (Finset.range bcmMwbmapItemsMax) = some 0 := by
    rw [leastFree, dif_pos ⟨0, member⟩, Option.some.injEq]
    exact Nat.le_zero.mp (Finset.min'_le _ 0 member)
  have taken : ∀ free id, leastFree free = some id → (freeIds bcmMwbmapItemsMax).next free .alloc = free.erase id := by
    intro free id least
    simp [Machine.next, freeIds, least]
  refine ⟨⟨trivial, ⟨by decide, ?_⟩, trivial⟩, fun asserted => ?_⟩
  · rw [taken _ _ least]
    exact Finset.notMem_erase 0 _
  · have valid := (represents_init (le_refl bcmMwbmapItemsMax)).alloc.1
    have after : ∀ mwbmap, mwbmapMachine.run mwbmap [.alloc] = (bcmMwbmapAlloc mwbmap).1 := fun _ => rfl
    rw [after] at asserted
    have inside := asserted.1
    rw [valid.total] at inside
    exact absurd inside (by decide)

end BcmDhd.Utils
