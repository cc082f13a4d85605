import Mathlib.Tactic

/-! Singly linked lists through a link field: which nodes a pointer leads to,
queues with a head and a tail pointer, and loops that walk along the links. -/

namespace BcmDhd.Lib

open Function

universe u

variable {Node : Type u}

/-- Following `link` from `start` meets `nodes` in order and arrives at `stop`. -/
def Chain (link : Node → Option Node) : Option Node → List Node → Option Node → Prop
  | start, [], stop => start = stop
  | start, node :: rest, stop => start = some node ∧ Chain link (link node) rest stop

instance decidableChain [DecidableEq Node] (link : Node → Option Node) :
    (start : Option Node) → (nodes : List Node) → (stop : Option Node) →
      Decidable (Chain link start nodes stop)
  | start, [], stop => inferInstanceAs (Decidable (start = stop))
  | start, node :: rest, stop =>
    @instDecidableAnd (start = some node) _ _ (decidableChain link (link node) rest stop)

namespace Chain

variable {link link' : Node → Option Node} {start stop : Option Node} {nodes front rest : List Node}

theorem append_iff : Chain link start (front ++ rest) stop ↔
    ∃ middle, Chain link start front middle ∧ Chain link middle rest stop := by
  induction front generalizing start with
  | nil => simp [Chain]
  | cons node front ih => simp [Chain, ih, and_assoc]

theorem start_eq (chain : Chain link start nodes none) : start = nodes.head? := by
  cases nodes with
  | nil => exact chain
  | cons node rest => exact chain.1

theorem frame (chain : Chain link start nodes stop) (same : ∀ node ∈ nodes, link' node = link node) :
    Chain link' start nodes stop := by
  induction nodes generalizing start with
  | nil => exact chain
  | cons node rest ih =>
    obtain ⟨here, later⟩ := chain
    refine ⟨here, ?_⟩
    rw [same node (by simp)]
    exact ih later fun other member => same other (by simp [member])

theorem link_of_mem {node : Node} (chain : Chain link start nodes stop) (member : node ∈ nodes) :
    link node = stop ∨ ∃ next ∈ nodes, link node = some next := by
  induction nodes generalizing start with
  | nil => simp at member
  | cons first rest ih =>
    obtain ⟨-, later⟩ := chain
    rcases List.mem_cons.mp member with same | deeper
    · subst node
      cases rest with
      | nil => exact Or.inl later
      | cons next more => exact Or.inr ⟨next, by simp, later.1⟩
    · rcases ih later deeper with out | ⟨next, inside, leads⟩
      · exact Or.inl out
      · exact Or.inr ⟨next, by simp [inside], leads⟩

variable [DecidableEq Node]

theorem update_of_not_mem {node : Node} (chain : Chain link start nodes stop)
    (absent : node ∉ nodes) (target : Option Node) :
    Chain (update link node target) start nodes stop := by
  apply chain.frame
  intro other member
  have apart : other ≠ node := fun same => absent (same ▸ member)
  exact update_of_ne apart _ _

theorem redirect {last : Node} (chain : Chain link start (front ++ [last]) stop)
    (absent : last ∉ front) (target : Option Node) :
    Chain (update link last target) start (front ++ [last]) target := by
  obtain ⟨middle, before, here⟩ := append_iff.mp chain
  obtain ⟨arrived, -⟩ := here
  refine append_iff.mpr ⟨middle, before.update_of_not_mem absent target, arrived, ?_⟩
  simp [Chain]

theorem unlink {prev node : Node} (chain : Chain link start (front ++ prev :: node :: rest) stop)
    (nodup : (front ++ prev :: node :: rest).Nodup) :
    Chain (update link prev (link node)) start (front ++ prev :: rest) stop := by
  rw [List.nodup_append, List.nodup_cons] at nodup
  obtain ⟨-, ⟨prevAbsent, -⟩, apart⟩ := nodup
  obtain ⟨middle, before, here, -, later⟩ := append_iff.mp chain
  refine append_iff.mpr ⟨middle, ?_, here, ?_⟩
  · exact before.update_of_not_mem (fun member => apart prev member prev (by simp) rfl) _
  · rw [update_self]
    exact later.update_of_not_mem (fun member => prevAbsent (by simp [member])) _

end Chain

/-- `while (!stop(p)) { prev = p; p = link(p); }`, given up when the fuel runs
out or a null pointer is followed. -/
def walk (link : Node → Option Node) (stop : Option Node → Bool) :
    Nat → Option Node → Option Node → Option (Option Node × Option Node)
  | 0, _, _ => none
  | fuel + 1, prev, p =>
    if stop p then some (prev, p)
    else
      match p with
      | none => none
      | some node => walk link stop fuel (some node) (link node)

/-- A walk passes the nodes that do not stop it. -/
theorem walk_eq {link : Node → Option Node} (stop : Option Node → Bool) (prev : Option Node)
    {start : Option Node} {front rest : List Node} {fuel : Nat} (chain : Chain link start (front ++ rest) none)
    (passed : ∀ node ∈ front, stop (some node) = false) (stopped : stop rest.head? = true)
    (enough : front.length < fuel) :
    walk link stop fuel prev start = some (front.getLast?.or prev, rest.head?) := by
  induction front generalizing start prev fuel with
  | nil =>
    obtain ⟨more, rfl⟩ := Nat.exists_eq_add_of_lt enough
    have here : start = rest.head? := chain.start_eq
    simp [walk, here, stopped]
  | cons node front ih =>
    obtain ⟨here, later⟩ := chain
    cases fuel with
    | zero => simp at enough
    | succ fuel =>
      have shorter : front.length < fuel := by simpa using enough
      have onward : walk link stop fuel (some node) (link node) =
          some (front.getLast?.or (some node), rest.head?) :=
        ih (some node) later (fun other member => passed other (by simp [member])) shorter
      subst here
      simp only [walk, passed node (by simp), Bool.false_eq_true, if_false, onward,
        List.getLast?_cons]
      cases front.getLast? <;> rfl

/-- A queue: the chain from `head` holds the nodes, each once, and `tail` is
the last of them. -/
structure Spells (link : Node → Option Node) (head tail : Option Node) (nodes : List Node) : Prop where
  chain : Chain link head nodes none
  tail_eq : tail = nodes.getLast?
  nodup : nodes.Nodup

instance [DecidableEq Node] (link : Node → Option Node) (head tail : Option Node)
    (nodes : List Node) : Decidable (Spells link head tail nodes) :=
  decidable_of_iff (Chain link head nodes none ∧ tail = nodes.getLast? ∧ nodes.Nodup)
    ⟨fun ⟨chain, tail_eq, nodup⟩ => ⟨chain, tail_eq, nodup⟩,
      fun ⟨chain, tail_eq, nodup⟩ => ⟨chain, tail_eq, nodup⟩⟩

namespace Spells

variable {link link' : Node → Option Node} {head tail : Option Node} {nodes front rest : List Node}
variable {node : Node}

theorem empty : Spells link none none [] := ⟨rfl, rfl, List.nodup_nil⟩

theorem singleton (unlinked : link node = none) : Spells link (some node) (some node) [node] :=
  ⟨⟨rfl, unlinked⟩, rfl, List.nodup_singleton node⟩

theorem head_eq (spells : Spells link head tail nodes) : head = nodes.head? :=
  spells.chain.start_eq

theorem frame (spells : Spells link head tail nodes)
    (same : ∀ node ∈ nodes, link' node = link node) : Spells link' head tail nodes :=
  ⟨spells.chain.frame same, spells.tail_eq, spells.nodup⟩

theorem pop (spells : Spells link head tail (node :: rest)) :
    Spells link (link node) (if link node = none then none else tail) rest := by
  have after := spells.chain.2
  refine ⟨after, ?_, (List.nodup_cons.mp spells.nodup).2⟩
  cases rest with
  | nil => simp [show link node = none from after]
  | cons next more =>
    rw [after.1, if_neg (by simp), spells.tail_eq]
    simp

variable [DecidableEq Node]

theorem update_of_not_mem (spells : Spells link head tail nodes) (absent : node ∉ nodes)
    (target : Option Node) : Spells (update link node target) head tail nodes :=
  ⟨spells.chain.update_of_not_mem absent target, spells.tail_eq, spells.nodup⟩

theorem push (spells : Spells link head tail nodes) (absent : node ∉ nodes) :
    Spells (update link node head) (some node) (if head = none then some node else tail)
      (node :: nodes) := by
  refine ⟨⟨rfl, ?_⟩, ?_, List.nodup_cons.mpr ⟨absent, spells.nodup⟩⟩
  · rw [update_self]
    exact spells.chain.update_of_not_mem absent head
  · have here := spells.head_eq
    cases nodes with
    | nil => simp [here]
    | cons next more => simp [here, spells.tail_eq]

theorem join {last : Node} {head' tail' : Option Node} {others : List Node}
    (spells : Spells link head (some last) nodes) (after : Spells link head' tail' others)
    (disjoint : nodes.Disjoint others) :
    Spells (update link last head') head (if tail' = none then some last else tail')
      (nodes ++ others) := by
  obtain ⟨before, rfl⟩ : ∃ before, nodes = before ++ [last] :=
    List.getLast?_eq_some_iff.mp spells.tail_eq.symm
  have absent : last ∉ before := by
    have := List.nodup_append.mp spells.nodup
    exact fun member => this.2.2 last member last (by simp) rfl
  refine ⟨?_, ?_, ?_⟩
  · refine Chain.append_iff.mpr ⟨head', spells.chain.redirect absent head', ?_⟩
    exact after.chain.update_of_not_mem (fun member => disjoint (by simp) member) head'
  · rw [after.tail_eq, List.getLast?_append]
    cases others.getLast? <;> simp
  · exact List.Nodup.append spells.nodup after.nodup disjoint

/-- Unlinking the node after `prev`. -/
theorem unlink {prev : Node} (spells : Spells link head tail (front ++ prev :: node :: rest)) :
    Spells (update link prev (link node)) head (if tail = some node then some prev else tail)
      (front ++ prev :: rest) := by
  have nodup := spells.nodup
  rw [List.nodup_append, List.nodup_cons, List.nodup_cons] at nodup
  obtain ⟨frontNodup, ⟨prevAbsent, nodeAbsent, restNodup⟩, apart⟩ := nodup
  refine ⟨spells.chain.unlink spells.nodup, ?_, ?_⟩
  · rw [spells.tail_eq]
    cases rest with
    | nil => simp
    | cons third more =>
      have notLast : (front ++ prev :: node :: third :: more).getLast? ≠ some node := by
        intro last
        have member : node ∈ third :: more := by
          apply List.mem_of_getLast?
          simpa using last
        exact nodeAbsent member
      rw [if_neg notLast]
      simp
  · refine List.nodup_append.mpr ⟨frontNodup, ?_, ?_⟩
    · exact List.nodup_cons.mpr ⟨fun member => prevAbsent (by simp [member]), restNodup⟩
    · intro first member second present
      apply apart first member second
      rcases List.mem_cons.mp present with same | later
      · simp [same]
      · simp [later]

end Spells

end BcmDhd.Lib
