import BcmDhd.Lib.Chain

/-! Linked lists that are only known by their head: the pointer to a node is the link of the
node before it, or the head. -/

namespace BcmDhd.Lib

open Function

universe u

variable {Node : Type u} [DecidableEq Node]

/-- What comes after `prev`, or first if there is no node before, is `target` now. -/
def relink (head : Option Node) (link : Node → Option Node) (prev target : Option Node) :
    Option Node × (Node → Option Node) :=
  match prev with
  | none => (target, link)
  | some node => (head, update link node target)

namespace Chain

variable {link : Node → Option Node} {head middle target : Option Node} {front rest nodes : List Node} {node : Node}

theorem relinked (chain : Chain link head front middle) (nodup : front.Nodup) (after : Chain link target rest none)
    (apart : front.Disjoint rest) :
    Chain (relink head link front.getLast? target).2 (relink head link front.getLast? target).1 (front ++
      rest) none := by
  rcases List.eq_nil_or_concat' front with rfl | ⟨before, last, rfl⟩
  · exact after
  · rw [List.getLast?_concat]
    have absent : last ∉ before := by
      intro member
      exact (List.nodup_append.mp nodup).2.2 last member last (by simp) rfl
    refine append_iff.mpr ⟨target, chain.redirect absent target, ?_⟩
    exact after.update_of_not_mem (fun member => apart (by simp) member) target

theorem relink_other (absent : node ∉ front) :
    (relink head link front.getLast? target).2 node = link node := by
  rcases List.eq_nil_or_concat' front with rfl | ⟨before, last, rfl⟩
  · rfl
  · rw [List.getLast?_concat]
    have apart : node ≠ last := fun same => absent (by simp [same])
    exact update_of_ne apart _ _

theorem remove (chain : Chain link head (front ++ node :: rest) none) (nodup : (front ++ node :: rest).Nodup) :
    Chain (relink head link front.getLast? (link node)).2 (relink head link front.getLast? (link node)).1
      (front ++ rest) none := by
  obtain ⟨middle, before, here, later⟩ := append_iff.mp chain
  obtain ⟨frontNodup, _, apart⟩ := List.nodup_append.mp nodup
  refine before.relinked frontNodup later ?_
  intro other member also
  exact apart other member other (by simp [also]) rfl

theorem insert (chain : Chain link head (front ++ rest) none) (nodup : (front ++ rest).Nodup)
    (absent : node ∉ front ++ rest) :
    Chain (relink head (update link node rest.head?) front.getLast? (some node)).2
      (relink head (update link node rest.head?) front.getLast? (some node)).1 (front ++ node :: rest) none := by
  rw [List.mem_append, not_or] at absent
  obtain ⟨middle, before, later⟩ := append_iff.mp chain
  obtain ⟨frontNodup, _, apart⟩ := List.nodup_append.mp nodup
  have moved : Chain (update link node rest.head?) (some node) (node :: rest) none := by
    refine ⟨rfl, ?_⟩
    rw [update_self, ← later.start_eq]
    exact later.update_of_not_mem absent.2 middle
  refine (before.update_of_not_mem absent.1 rest.head?).relinked frontNodup moved ?_
  intro other member also
  rcases List.mem_cons.mp also with same | deeper
  · exact absent.1 (same ▸ member)
  · exact apart other member other deeper rfl

end Chain

end BcmDhd.Lib
