import BcmDhd.Msgbuf.TxPostBatch

namespace BcmDhd.Msgbuf

open BcmDhd.Lib BcmDhd.Utils Function

/-- An id is marked allocated exactly if its locker is not free. -/
def AuditAgrees (map : DhdPktidMap) : Prop :=
  ∀ pktid ≤ map.items,
    bcmMwbmapIsfree map.pktidAudit pktid = false ↔ (map.lockers pktid).state ≠ .isFree

/-- The ids that the bitmap has as free: those of free lockers and the leaked ones. -/
def auditFree (map : DhdPktidMap) (leaked : Finset Nat) : Finset Nat :=
  {pktid ∈ Finset.range (maxPktidItems + 1) |
    (map.lockers pktid).state = .isFree ∨ pktid ∈ leaked}

/-- An id whose locker is in use. -/
def Posted (map : DhdPktidMap) (pktid : Nat) : Prop :=
  1 ≤ pktid ∧ pktid ≤ map.items ∧ (map.lockers pktid).state ≠ .isFree

instance (map : DhdPktidMap) (pktid : Nat) : Decidable (Posted map pktid) :=
  inferInstanceAs (Decidable (_ ∧ _ ∧ _))

/-- The ids in `leaked` are audited as free while their lockers are in use, and the
bitmap is right about all others. -/
structure AuditInvariant (leaked : Finset Nat) (map : DhdPktidMap) : Prop where
  valid : PktidMapInvariant map
  full : map.items = maxPktidItems
  reserved : (map.lockers dhdPktidInvalid).state ≠ .isFree
  leaks : ∀ pktid ∈ leaked, Posted map pktid
  audit : Represents (maxPktidItems + 1) map.pktidAudit (auditFree map leaked)

theorem mem_auditFree {map : DhdPktidMap} {leaked : Finset Nat} {pktid : Nat} :
    pktid ∈ auditFree map leaked ↔
      pktid ≤ maxPktidItems ∧ ((map.lockers pktid).state = .isFree ∨ pktid ∈ leaked) := by
  rw [auditFree, Finset.mem_filter, Finset.mem_range, Nat.lt_succ_iff]

namespace AuditInvariant

variable {map : DhdPktidMap} {leaked : Finset Nat}

theorem isfree_iff (valid : AuditInvariant leaked map) (pktid : Nat) :
    bcmMwbmapIsfree map.pktidAudit pktid = true ↔
      pktid ≤ maxPktidItems ∧ ((map.lockers pktid).state = .isFree ∨ pktid ∈ leaked) := by
  rw [valid.audit.isfree, decide_eq_true_iff, mem_auditFree]

theorem agrees_iff (valid : AuditInvariant leaked map) : AuditAgrees map ↔ leaked = ∅ := by
  constructor
  · intro agrees
    refine Finset.eq_empty_of_forall_notMem fun pktid leak => ?_
    obtain ⟨-, inside, used⟩ := valid.leaks pktid leak
    have marked := (agrees pktid inside).mpr used
    have free := (valid.isfree_iff pktid).mpr ⟨valid.full ▸ inside, .inr leak⟩
    rw [marked] at free
    cases free
  · rintro rfl pktid inside
    have free := valid.isfree_iff pktid
    rw [valid.full] at inside
    rw [← not_iff_not, Bool.not_eq_false, not_not, free]
    simp [inside]

theorem init : AuditInvariant ∅ (dhdPktidMapInit maxPktidItems) where
  valid := PktidMapInvariant.init (by decide) le_rfl
  full := rfl
  reserved := by simp [dhdPktidMapInit]
  leaks := by simp
  audit := by
    have every : Represents (maxPktidItems + 1) (bcmMwbmapInit (maxPktidItems + 1))
        (Finset.range (maxPktidItems + 1)) := represents_init (by decide)
    have present : dhdPktidInvalid ∈ Finset.range (maxPktidItems + 1) := by simp [dhdPktidInvalid]
    have forced := every.force present
    have same : auditFree (dhdPktidMapInit maxPktidItems) ∅ =
        (Finset.range (maxPktidItems + 1)).erase dhdPktidInvalid := by
      ext pktid
      rw [mem_auditFree, Finset.mem_erase, Finset.mem_range, Nat.lt_succ_iff]
      by_cases zero : pktid = dhdPktidInvalid
      · subst zero
        simp [dhdPktidMapInit]
      · have free : ((dhdPktidMapInit maxPktidItems).lockers pktid).state = .isFree := by
          simp only [dhdPktidMapInit, update_of_ne zero, fill_apply]
          split <;> rfl
        simp [free, zero]
    rw [same]
    exact forced

section

variable (valid : AuditInvariant leaked map)
include valid

theorem sameOccupancy {after : DhdPktidMap}
    (same : SameOccupancy map after) : AuditInvariant leaked after where
  valid := same.valid valid.valid
  full := same.items.trans valid.full
  reserved := by rw [same.states]; exact valid.reserved
  leaks := by
    intro pktid leak
    rw [Posted, same.items, same.states]
    exact valid.leaks pktid leak
  audit := by
    have marks : auditFree after leaked = auditFree map leaked := by
      ext pktid
      rw [mem_auditFree, mem_auditFree, same.states]
    rw [marks, same.pktidAudit]
    exact valid.audit

/-- A post takes the key on top and marks it. -/
theorem post_eq (some : 0 < map.avail) (params : PktParams) :
    (dhdPktidAudit (dhdPktidMapAlloc map params).1 (map.keys map.avail) .duplicateAlloc).1 =
      { map with
        avail := map.avail - 1
        pktidAudit := bcmMwbmapForce map.pktidAudit (map.keys map.avail)
        lockers := update map.lockers (map.keys map.avail) (savedLocker params) } := by
  obtain ⟨low, high, free⟩ := valid.valid.top_free some
  rw [valid.full] at high
  have unmarked := (valid.isfree_iff (map.keys map.avail)).mpr ⟨high, .inl free⟩
  rcases dhdPktidMapAlloc_cases valid.valid params with ⟨empty, -⟩ | ⟨-, taken⟩
  · omega
  · rw [taken]
    dsimp only
    generalize reserved : ({ map with
        avail := map.avail - 1
        lockers := update map.lockers (map.keys map.avail) (savedLocker params) } :
          DhdPktidMap) = taken
    have marks := (@dhdPktidAudit_inside taken _ low high).1
    obtain ⟨pktidAudit, same⟩ := dhdPktidAudit_map taken (map.keys map.avail) .duplicateAlloc
    rw [same] at marks ⊢
    subst reserved
    dsimp only at marks ⊢
    rw [marks, unmarked]
    rfl

theorem replaceLocker {after : DhdPktidMap} {nkey : Nat}
    {locker : DhdPktidItem} {left : Finset Nat} (kept : PktidMapInvariant after)
    (items : after.items = map.items) (low : 1 ≤ nkey)
    (lockers : after.lockers = update map.lockers nkey locker)
    (others : ∀ pktid ∈ left, pktid ≠ nkey ∧ pktid ∈ leaked)
    (audit : Represents (maxPktidItems + 1) after.pktidAudit (auditFree after left)) :
    AuditInvariant left after where
  valid := kept
  full := items.trans valid.full
  reserved := by
    have other : dhdPktidInvalid ≠ nkey := Nat.ne_of_lt low
    rw [lockers, update_of_ne other]
    exact valid.reserved
  leaks := by
    intro pktid member
    obtain ⟨other, leak⟩ := others pktid member
    rw [Posted, items, lockers, update_of_ne other]
    exact valid.leaks pktid leak
  audit := audit

theorem post (some : 0 < map.avail) (params : PktParams) :
    AuditInvariant leaked
      (dhdPktidAudit (dhdPktidMapAlloc map params).1 (map.keys map.avail) .duplicateAlloc).1 := by
  obtain ⟨low, high, free⟩ := valid.valid.top_free some
  rw [valid.full] at high
  have unleaked : map.keys map.avail ∉ leaked := fun leak => (valid.leaks _ leak).2.2 free
  have forced := valid.audit.force (mem_auditFree.mpr ⟨high, .inl free⟩)
  rw [valid.post_eq some]
  refine valid.replaceLocker ?_ rfl low rfl (fun pktid leak => ?_) ?_
  · exact valid.valid.take some rfl rfl rfl rfl (by simp [savedLocker])
  · exact ⟨fun same => unleaked (same ▸ leak), leak⟩
  · convert forced using 1
    ext pktid
    rw [mem_auditFree, Finset.mem_erase, mem_auditFree]
    by_cases same : pktid = map.keys map.avail
    · subst same
      simp [savedLocker, unleaked]
    · simp [same]

/-- Clearing the mark of an id in use leaks it. -/
theorem release {pktid : Nat} (posted : Posted map pktid)
    (unleaked : pktid ∉ leaked) :
    AuditInvariant (insert pktid leaked)
      { map with pktidAudit := bcmMwbmapFree map.pktidAudit pktid } := by
  have inside : pktid ≤ maxPktidItems := valid.full ▸ posted.2.1
  have marked : pktid ∉ auditFree map leaked := by
    rw [mem_auditFree]
    simp [unleaked, posted.2.2]
  have released := valid.audit.release marked (Nat.lt_succ_of_le inside)
  constructor
  case valid => exact ⟨valid.valid.positive, valid.valid.bounded, valid.valid.stack⟩
  case full => exact valid.full
  case reserved => exact valid.reserved
  case leaks =>
    intro other member
    rcases Finset.mem_insert.mp member with rfl | old
    · exact posted
    · exact valid.leaks other old
  case audit =>
    convert released using 1
    ext other
    simp only [mem_auditFree, Finset.mem_insert]
    by_cases same : other = pktid
    · subst same
      simp [inside]
    · simp [same]

/-- The audit of a returned id clears its mark, so it leaks the id of a locker in use. -/
theorem auditReturn (pktid : Nat) :
    AuditInvariant (if Posted map pktid then insert pktid leaked else leaked)
      (dhdPktidAudit map pktid .duplicateFree).1 := by
  by_cases inside : 1 ≤ pktid ∧ pktid ≤ maxPktidItems
  · have marks := (@dhdPktidAudit_inside map _ inside.1 inside.2).2
    obtain ⟨pktidAudit, same⟩ := dhdPktidAudit_map map pktid .duplicateFree
    rw [same] at marks ⊢
    dsimp only at marks
    subst marks
    by_cases unmarked : bcmMwbmapIsfree map.pktidAudit pktid = true
    · have unchanged : (if Posted map pktid then insert pktid leaked else leaked) = leaked := by
        split
        · rename_i posted
          obtain ⟨-, free | leak⟩ := (valid.isfree_iff pktid).mp unmarked
          · exact (posted.2.2 free).elim
          · exact Finset.insert_eq_of_mem leak
        · rfl
      rw [unchanged, if_pos unmarked]
      exact valid
    · have marked := mt (valid.isfree_iff pktid).mpr unmarked
      have posted : Posted map pktid :=
        ⟨inside.1, valid.full ▸ inside.2, fun free => marked ⟨inside.2, .inl free⟩⟩
      rw [if_pos posted, if_neg unmarked]
      exact valid.release posted fun leak => marked ⟨inside.2, .inr leak⟩
  · have absent : ¬ Posted map pktid := fun posted =>
      inside ⟨posted.1, valid.full ▸ posted.2.1⟩
    rw [if_neg absent, dhdPktidAudit_outside _ inside]
    exact valid

theorem give {pktid : Nat} {pkttype : DhdPkttype}
    (leak : pktid ∈ leaked) (own : (map.lockers pktid).pkttype = pkttype) :
    AuditInvariant (leaked.erase pktid) (dhdPktidMapFree map pktid pkttype false).1 := by
  obtain ⟨low, high, used⟩ := valid.leaks pktid leak
  rcases dhdPktidMapFree_cases map pktid pkttype false with ⟨refused, -⟩ | ⟨-, -, after⟩
  · rcases refused with free | ⟨-, other⟩
    · exact (used free).elim
    · exact (other own).elim
  · rw [after, if_pos rfl]
    refine valid.replaceLocker (valid.valid.give low high used rfl) rfl low rfl
      (fun other member => Finset.mem_erase.mp member) ?_
    convert valid.audit using 1
    ext other
    rw [mem_auditFree, mem_auditFree, Finset.mem_erase]
    by_cases same : other = pktid
    · subst same
      simp [leak]
    · simp [same]

end

end AuditInvariant

section Returns

variable {map : DhdPktidMap} {pktid : Nat} {pkttype : DhdPkttype}

theorem AuditInvariant.close (valid : AuditInvariant {pktid} map) (checked : pkttype ≠ .noCheck) :
    AuditInvariant (if (map.lockers pktid).pkttype = pkttype then ∅ else {pktid})
      (dhdPktidMapFree map pktid pkttype false).1 := by
  split
  · rename_i own
    have mended := valid.give (Finset.mem_singleton_self pktid) own
    rwa [Finset.erase_singleton] at mended
  · rename_i other
    rcases dhdPktidMapFree_cases map pktid pkttype false with ⟨-, refused⟩ | ⟨accepted, -⟩
    · rw [refused]
      exact valid
    · exact (accepted (.inr ⟨checked, other⟩)).elim

theorem AuditInvariant.opened_unaudited (valid : AuditInvariant ∅ map) (posted : Posted map pktid)
    (own : (map.lockers pktid).pkttype = pkttype) :
    ¬ AuditAgrees (dhdPktidMapFree map pktid pkttype false).1 := by
  have marked : bcmMwbmapIsfree map.pktidAudit pktid = false := by
    rw [← Bool.not_eq_true, valid.isfree_iff]
    simp [posted.2.2]
  rcases dhdPktidMapFree_cases map pktid pkttype false with ⟨refused, -⟩ | ⟨-, -, after⟩
  · rcases refused with free | ⟨-, other⟩
    · exact (posted.2.2 free).elim
    · exact (other own).elim
  · rw [after, if_pos rfl]
    intro agrees
    have used := (agrees pktid posted.2.1).mp marked
    simp at used

/-- The completion of an id names a locker of its own type, or a free one. -/
def OwnType (map : DhdPktidMap) (pktid : Nat) (pkttype : DhdPkttype) : Prop :=
  Posted map pktid → (map.lockers pktid).pkttype = pkttype

instance : Decidable (OwnType map pktid pkttype) := inferInstanceAs (Decidable (_ → _))

theorem AuditInvariant.returned (valid : AuditInvariant ∅ map) (low : 1 ≤ pktid)
    (high : pktid ≤ map.items) (checked : pkttype ≠ .noCheck) :
    ∃ leaked, AuditInvariant leaked
        (dhdPktidMapFree (dhdPktidAudit map pktid .duplicateFree).1 pktid pkttype false).1 ∧
      (leaked = ∅ ↔ OwnType map pktid pkttype) := by
  have audited := valid.auditReturn pktid
  obtain ⟨pktidAudit, same⟩ := dhdPktidAudit_map map pktid .duplicateFree
  by_cases posted : Posted map pktid
  · rw [if_pos posted, insert_empty_eq] at audited
    refine ⟨_, audited.close checked, ?_⟩
    rw [same]
    simp [OwnType, posted]
  · have free : (map.lockers pktid).state = .isFree := by
      by_contra used
      exact posted ⟨low, high, used⟩
    rw [if_neg posted] at audited
    rw [dhdPktidMapFree_free _ _ (by rw [same]; exact free)]
    exact ⟨∅, audited, by simp [OwnType, posted]⟩

end Returns

end BcmDhd.Msgbuf
