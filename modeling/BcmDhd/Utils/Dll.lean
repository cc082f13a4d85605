import Mathlib.Tactic

/-! The circular doubly linked lists of `bcmutils.h`, over any type of nodes:
which nodes a list head leads to, and what insertions and deletions do to them. -/

namespace BcmDhd.Utils

open Function

universe u

variable {Node : Type u}

/-- The fields `next_p` and `prev_p` of all nodes. -/
structure Dll (Node : Type u) where
  nextP : Node → Node
  prevP : Node → Node

section Operations

variable [DecidableEq Node]

/-- Inserts `newP` after `atP`, in the order of the four writes. -/
def dllInsert (dll : Dll Node) (newP atP : Node) : Dll Node :=
  let nextP := update dll.nextP newP (dll.nextP atP)
  let prevP := update dll.prevP newP atP
  let nextP := update nextP atP newP
  { nextP := nextP, prevP := update prevP (nextP newP) newP }

def dllPrepend (dll : Dll Node) (listP nodeP : Node) : Dll Node := dllInsert dll nodeP listP

/-- The removed node keeps its own pointers. -/
def dllDelete (dll : Dll Node) (nodeP : Node) : Dll Node :=
  let nextP := update dll.nextP (dll.prevP nodeP) (dll.nextP nodeP)
  { nextP := nextP, prevP := update dll.prevP (nextP nodeP) (dll.prevP nodeP) }

end Operations

/-- From `first` over `nodes` to `last`, linked both ways. -/
def Linked (dll : Dll Node) : Node → List Node → Node → Prop
  | first, [], last => dll.nextP first = last ∧ dll.prevP last = first
  | first, node :: rest, last =>
    (dll.nextP first = node ∧ dll.prevP node = first) ∧ Linked dll node rest last

namespace Linked

variable {dll dll' : Dll Node} {first last node : Node} {nodes front back : List Node}

theorem append_cons : Linked dll first (front ++ node :: back) last ↔
    Linked dll first front node ∧ Linked dll node back last := by
  induction front generalizing first with
  | nil => simp [Linked]
  | cons head rest ih => simp [Linked, ih, and_assoc]

theorem next_mem (linked : Linked dll first nodes last) : dll.nextP first ∈ nodes ++ [last] := by
  cases nodes with
  | nil => simp [linked.1]
  | cons node rest => simp [linked.1.1]

theorem prev_mem (linked : Linked dll first nodes last) : dll.prevP last ∈ first :: nodes := by
  induction nodes generalizing first with
  | nil => simp [linked.2]
  | cons node rest ih => exact List.mem_cons_of_mem first (ih linked.2)

theorem next_prev (linked : Linked dll first nodes last) : dll.nextP (dll.prevP last) = last := by
  induction nodes generalizing first with
  | nil => rw [linked.2, linked.1]
  | cons node rest ih => exact ih linked.2

theorem frame (linked : Linked dll first nodes last)
    (next : ∀ node ∈ first :: nodes, dll'.nextP node = dll.nextP node)
    (prev : ∀ node ∈ nodes ++ [last], dll'.prevP node = dll.prevP node) :
    Linked dll' first nodes last := by
  induction nodes generalizing first with
  | nil =>
    obtain ⟨forth, back⟩ := linked
    exact ⟨(next first (by simp)).trans forth, (prev last (by simp)).trans back⟩
  | cons node rest ih =>
    obtain ⟨⟨forth, back⟩, later⟩ := linked
    refine ⟨⟨(next first (by simp)).trans forth, (prev node (by simp)).trans back⟩, ?_⟩
    apply ih later
    · intro other member
      exact next other (List.mem_cons_of_mem first member)
    · intro other member
      exact prev other (List.mem_cons_of_mem node member)

variable [DecidableEq Node]

theorem delete_next_self (dll : Dll Node) (node : Node) :
    update dll.nextP (dll.prevP node) (dll.nextP node) node = dll.nextP node := by
  by_cases self : node = dll.prevP node
  · rw [← self, update_self]
  · rw [update_of_ne self]

/-- Deleting a node joins its two sides. The last node may be the first one. -/
theorem delete (before : Linked dll first front node) (after : Linked dll node back last)
    (nodup : (first :: front ++ node :: back).Nodup) (outside : last ∉ front ++ node :: back) :
    Linked (dllDelete dll node) first (front ++ back) last := by
  have nextEq : (dllDelete dll node).prevP =
      update dll.prevP (dll.nextP node) (dll.prevP node) := by
    simp only [dllDelete, delete_next_self]
  induction front generalizing first with
  | nil =>
    obtain ⟨forth, back'⟩ := before
    have joined : (dllDelete dll node).nextP first = dll.nextP node := by
      simp [dllDelete, back']
    cases back with
    | nil =>
      refine ⟨joined.trans after.1, ?_⟩
      rw [nextEq, after.1, update_self, back']
    | cons next rest =>
      obtain ⟨⟨forth', back''⟩, later⟩ := after
      refine ⟨⟨joined.trans forth', by rw [nextEq, forth', update_self, back']⟩, ?_⟩
      have apart : first ∉ node :: next :: rest ∧ (node :: next :: rest).Nodup := by
        simpa using nodup
      apply later.frame
      · intro other member
        have different : other ≠ first := fun same => apart.1 (by simp [← same, member])
        simp only [dllDelete, back', update_of_ne different]
      · intro other member
        have different : other ≠ next := by
          rintro rfl
          rcases List.mem_append.mp member with early | late
          · exact (List.nodup_cons.mp (List.nodup_cons.mp apart.2).2).1 early
          · exact outside (by simp [← List.mem_singleton.mp late])
        rw [nextEq, forth', update_of_ne different]
  | cons head rest ih =>
    obtain ⟨⟨forth, back'⟩, later⟩ := before
    have shorter : (head :: rest ++ node :: back).Nodup := (List.nodup_cons.mp nodup).2
    refine ⟨⟨?_, ?_⟩, ih later shorter (fun member => outside (List.mem_cons_of_mem head member))⟩
    · have notPrev : first ≠ dll.prevP node := by
        intro same
        have member := later.prev_mem
        rw [← same] at member
        have absent := (List.nodup_cons.mp nodup).1
        exact absent (List.mem_append_left _ member)
      simp only [dllDelete, update_of_ne notPrev]
      exact forth
    · have notNext : head ≠ dll.nextP node := by
        intro same
        have member := after.next_mem
        rw [← same] at member
        rcases List.mem_append.mp member with late | final
        · exact (List.nodup_cons.mp shorter).1 (by simp [late])
        · exact outside (by simp [List.mem_singleton.mp final])
      rw [nextEq, update_of_ne notNext]
      exact back'

end Linked

/-- A well formed circular list: the head and the nodes, each once, with
`next_p` and `prev_p` inverse to each other all the way round. -/
structure DllRing (dll : Dll Node) (head : Node) (nodes : List Node) : Prop where
  linked : Linked dll head nodes head
  nodup : (head :: nodes).Nodup

/-- The stored neighbours of a node that are on the list point past it already. -/
def DllHarmless (dll : Dll Node) (onList : Node → Prop) (node : Node) : Prop :=
  (onList (dll.prevP node) → dll.nextP (dll.prevP node) = dll.nextP node) ∧
    (onList (dll.nextP node) → dll.prevP (dll.nextP node) = dll.prevP node)

namespace DllRing

variable {dll : Dll Node} {head node : Node} {nodes : List Node} [DecidableEq Node]

theorem prepend (valid : DllRing dll head nodes) (absent : node ∉ head :: nodes) :
    DllRing (dllPrepend dll head node) head (node :: nodes) := by
  have different : node ≠ head := fun same => absent (by simp [same])
  have headFresh : head ∉ nodes := (List.nodup_cons.mp valid.nodup).1
  have nodeFresh : node ∉ nodes := fun member => absent (by simp [member])
  have next : (dllPrepend dll head node).nextP =
      update (update dll.nextP node (dll.nextP head)) head node := rfl
  have second : (dllPrepend dll head node).nextP node = dll.nextP head := by
    rw [next, update_of_ne different, update_self]
  have prev : (dllPrepend dll head node).prevP =
      update (update dll.prevP node head) (dll.nextP head) node := by
    rw [← second]
    rfl
  have nodeNotSecond : node ≠ dll.nextP head := by
    intro same
    have member := valid.linked.next_mem
    rw [← same] at member
    rcases List.mem_append.mp member with early | late
    · exact nodeFresh early
    · exact different (List.mem_singleton.mp late)
  have forth : (dllPrepend dll head node).nextP head = node := by
    rw [next, update_self]
  have back : (dllPrepend dll head node).prevP node = head := by
    rw [prev, update_of_ne nodeNotSecond, update_self]
  refine ⟨⟨⟨forth, back⟩, ?_⟩, ?_⟩
  · cases nodes with
    | nil =>
      refine ⟨second.trans valid.linked.1, ?_⟩
      rw [prev, valid.linked.1, update_self]
    | cons old rest =>
      obtain ⟨⟨was, -⟩, later⟩ := valid.linked
      refine ⟨⟨second.trans was, by rw [prev, was, update_self]⟩, ?_⟩
      apply later.frame
      · intro other member
        have notHead : other ≠ head := fun same => headFresh (same ▸ member)
        have notNode : other ≠ node := fun same => nodeFresh (same ▸ member)
        rw [next, update_of_ne notHead, update_of_ne notNode]
      · intro other member
        have notOld : other ≠ old := by
          rintro rfl
          rcases List.mem_append.mp member with early | late
          · exact (List.nodup_cons.mp (List.nodup_cons.mp valid.nodup).2).1 early
          · exact headFresh (by simp [← List.mem_singleton.mp late])
        have notNode : other ≠ node := by
          rintro rfl
          rcases List.mem_append.mp member with early | late
          · exact nodeFresh (List.mem_cons_of_mem _ early)
          · exact different (List.mem_singleton.mp late)
        rw [prev, was, update_of_ne notOld, update_of_ne notNode]
  · simp only [List.nodup_cons, List.mem_cons, not_or]
    exact ⟨⟨different.symm, headFresh⟩, nodeFresh, (List.nodup_cons.mp valid.nodup).2⟩

theorem delete (valid : DllRing dll head nodes) (member : node ∈ nodes) :
    DllRing (dllDelete dll node) head (nodes.erase node) := by
  obtain ⟨front, back, rfl⟩ := List.append_of_mem member
  obtain ⟨headFresh, nodup⟩ := List.nodup_cons.mp valid.nodup
  obtain ⟨before, after⟩ := Linked.append_cons.mp valid.linked
  have absent : node ∉ front := by
    have := List.nodup_append.mp nodup
    exact fun early => this.2.2 node early node (by simp) rfl
  have erased : (front ++ node :: back).erase node = front ++ back := by
    rw [List.erase_append_right _ absent, List.erase_cons_head]
  rw [erased]
  refine ⟨before.delete after valid.nodup headFresh, ?_⟩
  have sublist : (head :: (front ++ back)).Sublist (head :: (front ++ node :: back)) :=
    ((List.sublist_cons_self node back).append_left front).cons_cons head
  exact valid.nodup.sublist sublist

/-- Deleting a node that is not on the list. -/
theorem delete_harmless (valid : DllRing dll head nodes)
    (harmless : DllHarmless dll (· ∈ head :: nodes) node) :
    DllRing (dllDelete dll node) head nodes := by
  refine ⟨valid.linked.frame ?_ ?_, valid.nodup⟩
  · intro other member
    by_cases written : other = dll.prevP node
    · subst other
      simp only [dllDelete, update_self]
      exact (harmless.1 member).symm
    · simp only [dllDelete, update_of_ne written]
  · intro other member
    have onList : other ∈ head :: nodes := by
      rcases List.mem_append.mp member with early | late
      · exact List.mem_cons_of_mem head early
      · simp [List.mem_singleton.mp late]
    simp only [dllDelete, Linked.delete_next_self]
    by_cases written : other = dll.nextP node
    · subst other
      rw [update_self]
      exact (harmless.2 onList).symm
    · rw [update_of_ne written]

end DllRing

/-- Nodes that never entered the list are linked to themselves only, and no
pointer of the others leads to them. -/
structure DllSettled (dll : Dll Node) (entered : Node → Prop) : Prop where
  self : ∀ node, ¬ entered node → dll.nextP node = node ∧ dll.prevP node = node
  closed : ∀ node, entered node → entered (dll.nextP node) ∧ entered (dll.prevP node)

namespace DllSettled

variable {dll : Dll Node} {entered : Node → Prop} {head node : Node} [DecidableEq Node]

theorem delete_of_not_entered (settled : DllSettled dll entered) (outside : ¬ entered node) :
    dllDelete dll node = dll := by
  obtain ⟨next, prev⟩ := settled.self node outside
  have nextSame : update dll.nextP node node = dll.nextP := by
    rw [update_eq_self_iff]
    exact next.symm
  have prevSame : update dll.prevP node node = dll.prevP := by
    rw [update_eq_self_iff]
    exact prev.symm
  simp only [dllDelete, next, prev, nextSame, prevSame]

theorem delete (settled : DllSettled dll entered) : DllSettled (dllDelete dll node) entered := by
  by_cases inside : entered node
  · obtain ⟨nextIn, prevIn⟩ := settled.closed node inside
    constructor
    · intro other outside
      have notPrev : other ≠ dll.prevP node := fun same => outside (same ▸ prevIn)
      have notNext : other ≠ dll.nextP node := fun same => outside (same ▸ nextIn)
      simp only [dllDelete, Linked.delete_next_self, update_of_ne notPrev,
        update_of_ne notNext]
      exact settled.self other outside
    · intro other here
      simp only [dllDelete, Linked.delete_next_self]
      simp only [update_apply]
      refine ⟨?_, ?_⟩
      · split
        · exact nextIn
        · exact (settled.closed other here).1
      · split
        · exact prevIn
        · exact (settled.closed other here).2
  · rw [settled.delete_of_not_entered inside]
    exact settled

theorem prepend (settled : DllSettled dll entered) (headIn : entered head)
    (different : node ≠ head) :
    DllSettled (dllPrepend dll head node) (fun other => other = node ∨ entered other) := by
  have nextIn := (settled.closed head headIn).1
  have second : update (update dll.nextP node (dll.nextP head)) head node node =
      dll.nextP head := by
    rw [update_of_ne different, update_self]
  constructor
  · intro other outside
    obtain ⟨notNode, notEntered⟩ := not_or.mp outside
    have notHead : other ≠ head := fun same => notEntered (same ▸ headIn)
    have notSecond : other ≠ dll.nextP head := fun same => notEntered (same ▸ nextIn)
    simp only [dllPrepend, dllInsert, second, update_of_ne notHead,
      update_of_ne notNode, update_of_ne notSecond]
    exact settled.self other notEntered
  · intro other here
    simp only [dllPrepend, dllInsert, second, update_apply]
    refine ⟨?_, ?_⟩
    · by_cases isHead : other = head
      · simp [isHead]
      · by_cases isNode : other = node
        · simp [isNode, different, nextIn]
        · simp only [isHead, isNode, if_false]
          exact Or.inr (settled.closed other (here.resolve_left isNode)).1
    · by_cases isSecond : other = dll.nextP head
      · simp [isSecond]
      · by_cases isNode : other = node
        · simp only [isNode, if_true]
          split
          · exact Or.inl rfl
          · exact Or.inr headIn
        · simp only [isSecond, isNode, if_false]
          exact Or.inr (settled.closed other (here.resolve_left isNode)).2

end DllSettled

end BcmDhd.Utils
