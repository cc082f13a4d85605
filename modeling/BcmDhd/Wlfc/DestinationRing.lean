import BcmDhd.Lib.Circle
import BcmDhd.Wlfc.DestinationLinks
import BcmDhd.Wlfc.StatusFrame

namespace BcmDhd.Wlfc

open BcmDhd.Lib Function

variable {e : Nat} {ctx : Ctx}

/-- Both lists are as they were. -/
structure SameLists (before after : Ctx) : Prop where
  actives : after.activeEntries = before.activeEntries
  requested : after.requestedEntries = before.requestedEntries

namespace SameLists

variable {before middle after : Ctx}

theorem refl (ctx : Ctx) : SameLists ctx ctx := ⟨rfl, rfl⟩

theorem trans (first : SameLists before middle) (second : SameLists middle after) :
    SameLists before after :=
  ⟨second.actives.trans first.actives, second.requested.trans first.requested⟩

theorem foldl {Item : Type} {step : Ctx → Item → Ctx} (items : List Item)
    (one : ∀ ctx item, SameLists ctx (step ctx item)) (ctx : Ctx) :
    SameLists ctx (items.foldl step ctx) := by
  induction items generalizing ctx with
  | nil => exact .refl ctx
  | cons item rest ih => exact (one ctx item).trans (ih _)

theorem findTableEntry (ctx : Ctx) (p : Nat) : SameLists ctx (dhdWlfcFindTableEntry ctx p).1 := by
  unfold dhdWlfcFindTableEntry
  dsimp only
  split
  · exact .refl ctx
  · exact ⟨rfl, rfl⟩

theorem removeReference (ctx : Ctx) (p : Nat) :
    SameLists ctx (dhdWlfcHangerRemoveReference ctx p) := by
  unfold dhdWlfcHangerRemoveReference
  dsimp only
  split
  · exact ⟨rfl, rfl⟩
  · exact .refl ctx

theorem returnImpliedCredit (ctx : Ctx) (p : Nat) :
    SameLists ctx (dhdWlfcReturnImpliedCredit ctx p) := by
  unfold dhdWlfcReturnImpliedCredit
  dsimp only
  split
  · split
    · exact ⟨rfl, rfl⟩
    · exact ⟨rfl, rfl⟩
  · exact .refl ctx

theorem setEntry (ctx : Ctx) (e : Nat) (entry : MacDescriptor) : SameLists ctx (ctx.setEntry e entry) :=
  ⟨rfl, rfl⟩

theorem leave (ctx : Ctx) (p i ac : Nat) : SameLists ctx ((ctx.countInDrv (-1) i ac).txcomplete p) :=
  ⟨rfl, rfl⟩

theorem cleanupTxq (ctx : Ctx) (fn : FlushFn) : SameLists ctx (dhdWlfcCleanupTxq ctx fn) := by
  unfold dhdWlfcCleanupTxq
  have kept : SameLists ctx { ctx with txq := ctx.txq.filter fun p => ¬ fn.takes (ctx.pkts p) } :=
    ⟨rfl, rfl⟩
  refine kept.trans (foldl _ (fun ctx p => ?_) _)
  have found := findTableEntry ctx p
  unfold cleanupTxqPkt
  dsimp only
  refine trans (trans (trans ?_ (setEntry _ _ _)) (returnImpliedCredit _ p)) (leave _ p _ _)
  split
  · exact found
  · exact found.trans (removeReference _ p)

theorem psqFlush (ctx : Ctx) (e : Nat) (fn : FlushFn) : SameLists ctx (dhdWlfcPsqFlush ctx e fn) := by
  unfold dhdWlfcPsqFlush
  refine foldl _ (fun ctx prec => ?_) _
  have kept : ∀ packets, SameLists ctx (ctx.setPsq e prec packets) := fun packets => ⟨rfl, rfl⟩
  refine (kept _).trans (foldl _ (fun ctx p => ?_) _)
  unfold flushPsqPkt
  dsimp only
  have counted : ∀ ctx : Ctx, SameLists ctx (ctx.countQueued (-1) p (prec / 2)) := fun _ => ⟨rfl, rfl⟩
  refine trans (trans ?_ (counted _)) (leave _ p _ _)
  split
  · exact removeReference ctx p
  · exact .refl ctx

theorem afqFlush (ctx : Ctx) (e : Nat) (fn : FlushFn) : SameLists ctx (dhdWlfcAfqFlush ctx e fn) := by
  unfold dhdWlfcAfqFlush
  refine foldl _ (fun ctx prec => ?_) _
  have kept : ∀ packets, SameLists ctx (ctx.setAfq e prec packets) := fun packets => ⟨rfl, rfl⟩
  refine (kept _).trans (foldl _ (fun ctx p => ?_) _)
  unfold flushAfqPkt
  dsimp only
  exact (((findTableEntry ctx p).trans (setEntry _ _ _)).trans (returnImpliedCredit _ p)).trans
    (leave _ p _ _)

theorem cleanupEntry (fn : FlushFn) (ctx : Ctx) (e : Nat) :
    SameLists ctx (Wlfc.cleanupEntry fn ctx e) := by
  have marked : ∀ drained : Ctx, SameLists ctx drained → SameLists ctx
      (if fn = .all ∧ e ≠ otherEntry then
        drained.setEntry e { drained.entries e with occupied := false } else drained) := by
    intro drained same
    split
    · exact same.trans (setEntry drained e _)
    · exact same
  unfold Wlfc.cleanupEntry
  split
  · apply marked
    split
    · exact (psqFlush ctx e fn).trans (afqFlush _ e fn)
    · exact psqFlush ctx e fn
  · exact .refl ctx

theorem cleanup (ctx : Ctx) (fn : FlushFn) : SameLists ctx (dhdWlfcCleanup ctx fn) := by
  unfold dhdWlfcCleanup
  have flushed := (cleanupTxq ctx fn).trans (foldl (List.range entryCount) (cleanupEntry fn) _)
  generalize (List.range entryCount).foldl (Wlfc.cleanupEntry fn) (dhdWlfcCleanupTxq ctx fn) =
    drained at flushed ⊢
  dsimp only
  split
  · exact flushed
  · exact flushed.trans ⟨rfl, rfl⟩

end SameLists

/-- The active entries, from the head on. -/
structure LinksRing (links : Links) (actives : List Nat) : Prop where
  circle : Circle links.next links.prev actives
  head : links.activeEntryHead = actives.head?
  count : links.activeEntryCount = actives.length

/-- The requested entries, without one twice, and only nodes. -/
structure LinksRequests (links : Links) (requested : List Nat) : Prop where
  nodup : requested.Nodup
  nodes : ∀ e ∈ requested, e < wlfcMacDescTableSize
  entries : ∀ i, links.requestedEntry i = requested[i]?
  count : links.requestedEntryCount = requested.length

theorem link_requested {links after : Links} (linked : links.link e = some after) :
    after.requestedEntry = links.requestedEntry ∧
      after.requestedEntryCount = links.requestedEntryCount := by
  unfold Links.link at linked
  split at linked
  · obtain rfl := Option.some.inj linked
    exact ⟨rfl, rfl⟩
  · obtain ⟨last, -, rfl⟩ := Option.map_eq_some_iff.mp linked
    exact ⟨rfl, rfl⟩
  · split at linked
    · obtain rfl := Option.some.inj linked
      exact ⟨rfl, rfl⟩
    · exact absurd linked (by simp)

theorem unlink_requested {links after : Links} (unlinked : links.unlink e = some after) :
    after.requestedEntry = links.requestedEntry ∧
      after.requestedEntryCount = links.requestedEntryCount := by
  unfold Links.unlink at unlinked
  split at unlinked
  · obtain rfl := Option.some.inj unlinked
    exact ⟨rfl, rfl⟩
  · split at unlinked
    · obtain rfl := Option.some.inj unlinked
      exact ⟨rfl, rfl⟩
    · obtain ⟨before, -, rfl⟩ := Option.map_eq_some_iff.mp unlinked
      exact ⟨rfl, rfl⟩

namespace LinksRing

variable {links : Links} {actives : List Nat}

theorem link (ring : LinksRing links actives) (e : Nat) :
    ∃ after, links.link e = some after ∧
      LinksRing after (if e ∉ actives then actives ++ [e] else actives) := by
  unfold Links.link
  by_cases member : e ∈ actives
  · rw [if_neg (not_not.mpr member)]
    obtain ⟨next, linked⟩ := Option.ne_none_iff_exists'.mp (ring.circle.next_ne_none.mpr member)
    rw [linked]
    exact ⟨links, rfl, ring⟩
  · rw [if_pos member, ring.circle.next_off e member]
    cases actives with
    | nil =>
      have count : links.activeEntryCount = 0 := ring.count
      rw [show links.activeEntryHead = none from ring.head]
      dsimp only
      rw [if_pos count]
      refine ⟨_, rfl, ring.circle.alone e, rfl, ?_⟩
      exact congrArg (· + 1) ring.count
    | cons head rest =>
      obtain ⟨last, linked⟩ := Option.ne_none_iff_exists'.mp
        (ring.circle.prev_ne_none.mpr (List.mem_cons_self (a := head)))
      rw [show links.activeEntryHead = some head from ring.head]
      dsimp only
      rw [linked]
      refine ⟨_, rfl, ring.circle.insert linked member, rfl, ?_⟩
      rw [List.length_append, ← ring.count]
      rfl

theorem unlink (ring : LinksRing links actives) (e : Nat) :
    ∃ after, links.unlink e = some after ∧ LinksRing after (actives.erase e) := by
  unfold Links.unlink
  by_cases member : e ∈ actives
  · obtain ⟨second, linked⟩ := Option.ne_none_iff_exists'.mp (ring.circle.next_ne_none.mpr member)
    obtain ⟨last, back_⟩ := Option.ne_none_iff_exists'.mp (ring.circle.prev_ne_none.mpr member)
    obtain ⟨front, back, rfl⟩ := List.append_of_mem member
    have fresh : e ∉ front := fun early =>
      (List.disjoint_of_nodup_append ring.circle.nodup) early (by simp)
    have erased : (front ++ e :: back).erase e = front ++ back := by
      rw [List.erase_append_right _ fresh, List.erase_cons_head]
    have counted : links.activeEntryCount = (front ++ back).length + 1 := by
      rw [ring.count, List.length_append, List.length_append, List.length_cons]
      omega
    rw [linked, erased]
    dsimp only
    by_cases alone : links.activeEntryCount ≤ 1
    · rw [if_pos alone]
      obtain ⟨rfl, rfl⟩ : front = [] ∧ back = [] :=
        List.append_eq_nil_iff.mp (List.eq_nil_of_length_eq_zero (by omega))
      exact ⟨_, rfl, ring.circle.clear, rfl, rfl⟩
    · rw [if_neg alone, back_]
      have others : front ++ back ≠ [] := fun none => by
        rw [none] at counted
        exact alone counted.le
      refine ⟨_, rfl, ring.circle.unlink others back_ linked, ?_, ?_⟩
      · dsimp only
        rw [ring.head]
        cases front with
        | nil =>
          cases back with
          | nil => exact absurd rfl others
          | cons head rest =>
            have first : some second = some head := linked.symm.trans ring.circle.next_head
            rw [List.nil_append, List.head?_cons, if_pos rfl]
            exact first
        | cons head rest =>
          have differs : head ≠ e := fun same => fresh (by simp [same])
          exact if_neg (by simpa using differs)
      · change links.activeEntryCount - 1 = _
        rw [counted]
        rfl
  · rw [List.erase_of_not_mem member, ring.circle.next_off e member]
    exact ⟨links, rfl, ring⟩

theorem moveHead {rest : List Nat} (ring : LinksRing links (e :: rest)) :
    LinksRing (links.moveHead e) (rest ++ [e]) := by
  refine ⟨ring.circle.turn, ring.circle.next_head, ?_⟩
  rw [List.length_append]
  exact ring.count

end LinksRing

/-- Taking an entry off the array changes the order of the others. -/
theorem removeRequestedEntry_perm (requested : List Nat) (e : Nat) :
    (dhdWlfcRemoveRequestedEntry requested e).Perm (requested.erase e) := by
  unfold dhdWlfcRemoveRequestedEntry
  by_cases member : e ∈ requested
  · obtain ⟨front, back, rfl, fresh⟩ := List.eq_append_cons_of_mem member
    have place : (front ++ e :: back).idxOf e = front.length := by
      rw [List.idxOf_append_of_notMem fresh, List.idxOf_cons_self, Nat.add_zero]
    rw [List.erase_append_right _ fresh, List.erase_cons_head]
    rcases List.eq_nil_or_concat back with rfl | ⟨middle, last, rfl⟩
    · rw [List.getLast?_concat]
      dsimp only
      rw [if_pos member, place]
      simp
    · rw [List.concat_eq_append] at *
      have whole : front ++ e :: (middle ++ [last]) = front ++ e :: middle ++ [last] := by simp
      have swapped : (front ++ e :: (middle ++ [last])).set front.length last =
          front ++ last :: middle ++ [last] := by simp
      rw [show (front ++ e :: (middle ++ [last])).getLast? = some last by
        rw [whole, List.getLast?_concat]]
      dsimp only
      rw [if_pos member, place, swapped, List.dropLast_concat]
      exact (List.perm_append_singleton last middle).symm.append_left front
  · rw [List.erase_of_not_mem member]
    split
    · rw [if_neg member]
    · exact List.Perm.refl _

namespace LinksRequests

variable {links : Links} {requested : List Nat}

section

variable (requests : LinksRequests links requested)
include requests

theorem of_same {after : Links}
    (same : after.requestedEntry = links.requestedEntry ∧
      after.requestedEntryCount = links.requestedEntryCount) : LinksRequests after requested :=
  ⟨requests.nodup, requests.nodes, by rw [same.1]; exact requests.entries, same.2.trans requests.count⟩

theorem entries_map : (List.range links.requestedEntryCount).map links.requestedEntry = requested.map some := by
  apply List.ext_getElem?
  intro i
  rw [requests.count, List.getElem?_map, List.getElem?_map]
  by_cases inside : i < requested.length
  · rw [List.getElem?_range inside, List.getElem?_eq_getElem inside]
    exact congrArg some ((requests.entries i).trans (List.getElem?_eq_getElem inside))
  · rw [List.getElem?_eq_none (by simpa using inside), List.getElem?_eq_none (by simpa using inside)]
    rfl

theorem requestedIndex (e : Nat) :
    links.requestedIndex e = requested.idxOf e := by
  have found := List.findIdx_map (List.range links.requestedEntryCount) links.requestedEntry
    fun entry => decide (entry = some e)
  rw [requests.entries_map, List.findIdx_map] at found
  refine found.symm.trans ?_
  unfold List.idxOf
  congr 1
  funext other
  simp [Bool.beq_eq_decide_eq]

theorem length_le : requested.length ≤ wlfcMacDescTableSize := by
  have inside : requested ⊆ List.range wlfcMacDescTableSize := fun e member =>
    List.mem_range.mpr (requests.nodes e member)
  have bound := (requests.nodup.subperm inside).length_le
  rwa [List.length_range] at bound

/-- Another node finds a place: the nodes are not all there yet. -/
theorem add (node : e < wlfcMacDescTableSize) :
    ∃ after, links.addRequestedEntry e = some after ∧
      LinksRequests after (dhdWlfcAddRequestedEntry requested e) ∧
      after.next = links.next ∧ after.prev = links.prev ∧
        after.activeEntryHead = links.activeEntryHead ∧
        after.activeEntryCount = links.activeEntryCount := by
  unfold Links.addRequestedEntry dhdWlfcAddRequestedEntry
  rw [requests.requestedIndex, requests.count]
  by_cases member : e ∈ requested
  · rw [if_pos member, if_neg (List.idxOf_lt_length_iff.mpr member).ne]
    exact ⟨links, rfl, requests, rfl, rfl, rfl, rfl⟩
  · rw [if_neg member, if_pos (List.idxOf_eq_length_iff.mpr member)]
    have added : LinksRequests
        { links with
          requestedEntry := update links.requestedEntry requested.length (some e)
          requestedEntryCount := requested.length + 1 } (requested ++ [e]) := by
      refine ⟨?_, ?_, ?_, by simp⟩
      · exact (List.perm_append_singleton e requested).nodup_iff.mpr
          (List.nodup_cons.mpr ⟨member, requests.nodup⟩)
      · intro other inside
        rcases List.mem_append.mp inside with old | new
        · exact requests.nodes other old
        · rw [List.mem_singleton.mp new]
          exact node
      · intro i
        dsimp only
        by_cases last : i = requested.length
        · rw [last, update_self, List.getElem?_concat_length]
        · rw [update_of_ne last, requests.entries, List.getElem?_append]
          split
          · rfl
          · rw [List.getElem?_eq_none (by omega), List.getElem?_eq_none (by simp; omega)]
    have bound : (e :: requested).length ≤ wlfcMacDescTableSize := by
      have shorter := added.length_le
      simpa using shorter
    rw [if_pos (Nat.le_sub_one_of_lt bound)]
    exact ⟨_, rfl, added, rfl, rfl, rfl, rfl⟩

theorem remove (e : Nat) :
    LinksRequests (links.removeRequestedEntry e) (dhdWlfcRemoveRequestedEntry requested e) := by
  have perm := removeRequestedEntry_perm requested e
  refine ⟨perm.nodup_iff.mpr (requests.nodup.erase e), ?_, ?_, ?_⟩
  · intro other member
    exact requests.nodes other (List.mem_of_mem_erase (perm.mem_iff.mp member))
  · intro i
    unfold Links.removeRequestedEntry dhdWlfcRemoveRequestedEntry
    rw [requests.requestedIndex, requests.count, List.getLast?_eq_getElem?]
    by_cases member : e ∈ requested
    · have inside := List.idxOf_lt_length_iff.mpr member
      have end_ : requested.length - 1 < requested.length := by omega
      rw [List.getElem?_eq_getElem end_]
      dsimp only
      rw [if_pos inside, if_pos member, List.getElem?_dropLast, List.length_set, List.getElem?_set]
      dsimp only
      by_cases last : i = requested.length - 1
      · rw [last, update_self, if_neg (Nat.lt_irrefl _)]
      · rw [update_of_ne last]
        by_cases here : i = requested.idxOf e
        · rw [if_pos (by omega), if_pos here.symm, if_pos inside, here, if_pos (by omega),
            update_self, requests.entries, List.getElem?_eq_getElem end_]
        · have kept : (if requested.idxOf e ≠ requested.length - 1 then
              update links.requestedEntry (requested.idxOf e)
                (links.requestedEntry (requested.length - 1))
              else links.requestedEntry) i = requested[i]? := by
            split
            · rw [update_of_ne here, requests.entries]
            · exact requests.entries i
          rw [kept]
          split
          · rw [if_neg (Ne.symm here)]
          · exact List.getElem?_eq_none (by omega)
    · rw [if_neg (by rw [List.idxOf_eq_length_iff.mpr member]; exact Nat.lt_irrefl _)]
      rw [requests.entries]
      split
      · rw [if_neg member]
      · rfl
  · unfold Links.removeRequestedEntry
    dsimp only
    rw [requests.requestedIndex, requests.count, perm.length_eq]
    by_cases member : e ∈ requested
    · rw [if_pos (List.idxOf_lt_length_iff.mpr member), List.length_erase_of_mem member]
    · rw [if_neg (by rw [List.idxOf_eq_length_iff.mpr member]; simp), List.erase_of_not_mem member]
      exact requests.count

end

end LinksRequests

theorem LinksRing.of_same {links after : Links} {actives : List Nat} (ring : LinksRing links actives)
    (next : after.next = links.next) (prev : after.prev = links.prev)
    (head : after.activeEntryHead = links.activeEntryHead)
    (count : after.activeEntryCount = links.activeEntryCount) : LinksRing after actives :=
  ⟨by rw [next, prev]; exact ring.circle, head.trans ring.head, count.trans ring.count⟩

theorem LinksRing.remove {links : Links} {actives : List Nat} (ring : LinksRing links actives)
    (e : Nat) : LinksRing (links.removeRequestedEntry e) actives := by
  unfold Links.removeRequestedEntry
  dsimp only
  split
  · exact ring.of_same rfl rfl rfl rfl
  · exact ring

/-- What is dequeued does not depend on the list of active entries. -/
theorem dequeFrom_turned (ctx : Ctx) (actives : List Nat) (prec e : Nat) :
    dequeFrom { ctx with activeEntries := actives } prec e =
      (dequeFrom ctx prec e).map fun found => ({ found.1 with activeEntries := actives }, found.2) := by
  have picked : ∀ sub p rest, pickUp { ctx with activeEntries := actives } e prec sub p rest =
      { pickUp ctx e prec sub p rest with activeEntries := actives } := by
    intro sub p rest
    unfold pickUp takeRequest
    dsimp only [Ctx.setPsq, Ctx.setEntry]
    split
    · rfl
    · split
      · rfl
      · rfl
  unfold dequeFrom
  dsimp only
  change (if eligible ctx e prec = true then _ else none) = _
  split
  · split
    · exact congrArg (fun after => some (after, _)) (picked _ _ _)
    · split
      · exact congrArg (fun after => some (after, _)) (picked _ _ _)
      · rfl
  · rfl

theorem dequeFrom_actives {after : Ctx} {prec : Nat} {info : CommitInfo}
    (dequeued : dequeFrom ctx prec e = some (after, info)) :
    after.activeEntries = ctx.activeEntries := by
  have turned := dequeFrom_turned ctx ctx.activeEntries prec e
  change dequeFrom ctx prec e = _ at turned
  rw [dequeued] at turned
  exact congrArg (fun found => found.1.activeEntries) (Option.some.inj turned)

theorem dequeRequested_actives (ctx : Ctx) (prec : Nat) (entries : List Nat) :
    (dequeRequested ctx prec entries).1.activeEntries = ctx.activeEntries := by
  rcases @dequeRequested_cases ctx prec entries with ⟨e, -, after, info, found, same⟩ | same
  · rw [same]
    exact dequeFrom_actives found
  · rw [same]

/-- What a search over some entries did: the ones looked at come first, and they are all of
them if nothing was found. -/
structure Searched (entries : List Nat) (links : Links) (search : Search) : Prop where
  first : search.visited <+: entries
  all : search.found = none → search.visited = entries
  requested : search.links.requestedEntry = links.requestedEntry ∧
    search.links.requestedEntryCount = links.requestedEntryCount

/-- The search over the ring is the one over the list, which turns with the head. -/
theorem searchActive_eq (ctx : Ctx) (prec left : Nat) {links : Links} {actives : List Nat}
    (ring : LinksRing links actives) (round : left ≤ actives.length) :
    ∃ search, searchActive ctx prec left links = some search ∧
      Searched (actives.take left) links search ∧
      LinksRing search.links
        (dequeActive prec left { ctx with activeEntries := actives }).1.activeEntries ∧
      (dequeActive prec left { ctx with activeEntries := actives }).2 = search.found.map Prod.snd := by
  induction left generalizing links actives with
  | zero => exact ⟨_, rfl, ⟨List.prefix_rfl, fun _ => rfl, rfl, rfl⟩, ring, rfl⟩
  | succ left ih =>
    cases actives with
    | nil => exact absurd round (by simp)
    | cons e rest =>
      have head : links.activeEntryHead = some e := ring.head
      have turned := ring.moveHead
      unfold searchActive dequeActive
      rw [head]
      dsimp only
      rw [dequeFrom_turned ctx (rest ++ [e])]
      cases found : dequeFrom ctx prec e with
      | some taken =>
        refine ⟨_, rfl, ⟨?_, fun none => absurd none (by simp), rfl, rfl⟩, turned, rfl⟩
        exact ⟨rest.take left, rfl⟩
      | none =>
        have short : left ≤ rest.length := Nat.le_of_succ_le_succ round
        obtain ⟨search, later, searched, ring', same⟩ := ih turned (by
          rw [List.length_append]
          omega)
        rw [List.take_append_of_le_length short] at searched
        rw [later]
        refine ⟨search.lookedAt e, rfl, ⟨?_, ?_, searched.requested⟩, ring', same⟩
        · exact List.prefix_cons_inj e |>.mpr searched.first
        · intro none
          exact congrArg (e :: ·) (searched.all none)

/-- The search over the array is the one over the list of requested entries. -/
theorem searchRequested_eq (ctx : Ctx) (prec : Nat) (links : Links) {indices entries : List Nat}
    (array : indices.map links.requestedEntry = entries.map some) :
    ∃ search, searchRequested ctx prec links indices = some search ∧
      Searched entries links search ∧ search.links = links ∧
      (dequeRequested ctx prec entries).2 = search.found.map Prod.snd := by
  induction indices generalizing entries with
  | nil =>
    obtain rfl := List.map_eq_nil_iff.mp array.symm
    exact ⟨_, rfl, ⟨List.prefix_rfl, fun _ => rfl, rfl, rfl⟩, rfl, rfl⟩
  | cons i indices ih =>
    cases entries with
    | nil => exact absurd array (by simp)
    | cons e rest =>
      obtain ⟨here, later⟩ := List.cons.inj array
      unfold searchRequested dequeRequested
      rw [here]
      dsimp only
      cases found : dequeFrom ctx prec e with
      | some taken =>
        refine ⟨_, rfl, ⟨?_, fun none => absurd none (by simp), rfl, rfl⟩, rfl, rfl⟩
        exact ⟨rest, rfl⟩
      | none =>
        obtain ⟨search, looked, searched, same, info⟩ := ih later
        rw [looked]
        refine ⟨search.lookedAt e, rfl, ⟨?_, ?_, searched.requested⟩, same, info⟩
        · exact List.prefix_cons_inj e |>.mpr searched.first
        · intro none
          exact congrArg (e :: ·) (searched.all none)

/-- The pointers and the lists of a state agree. -/
structure WellLinked (state : Destinations) : Prop where
  ring : LinksRing state.links state.ctx.activeEntries
  requests : LinksRequests state.links state.ctx.requestedEntries

theorem searchDelayedq_eq {state : Destinations} (well : WellLinked state) (prec : Nat)
    (onlyNoCredit : Bool) :
    ∃ search, searchDelayedq state.ctx state.links prec onlyNoCredit = some search ∧
      Searched (if onlyNoCredit then state.ctx.requestedEntries else state.ctx.activeEntries)
        state.links search ∧
      LinksRing search.links (dhdWlfcDequeDelayedq state.ctx prec onlyNoCredit).1.activeEntries ∧
      (dhdWlfcDequeDelayedq state.ctx prec onlyNoCredit).2 = search.found.map Prod.snd := by
  unfold searchDelayedq dhdWlfcDequeDelayedq
  cases onlyNoCredit with
  | true =>
    obtain ⟨search, done, searched, same, info⟩ :=
      searchRequested_eq state.ctx prec state.links well.requests.entries_map
    refine ⟨search, done, searched, ?_, info⟩
    rw [if_pos rfl, dequeRequested_actives, same]
    exact well.ring
  | false =>
    obtain ⟨search, done, searched, ring, info⟩ :=
      searchActive_eq state.ctx prec state.ctx.activeEntries.length well.ring le_rfl
    rw [List.take_length] at searched
    rw [← well.ring.count] at done
    exact ⟨search, done, searched, ring, info⟩

/-- What a call has to find to do its work, and what it leaves. -/
def CallLinked (state : Destinations) (call : DestinationCall) : Prop :=
  ∃ search, searchAfter state.ctx state.links call = some search ∧
    WellLinked ⟨ctxAfter state.ctx call, search.links⟩

section Steps

variable {state : Destinations}

theorem WellLinked.of_sameLists {after : Ctx} (well : WellLinked state)
    (same : SameLists state.ctx after) : WellLinked ⟨after, state.links⟩ :=
  ⟨by rw [same.actives]; exact well.ring, by rw [same.requested]; exact well.requests⟩

theorem WellLinked.add (well : WellLinked state) (e : Nat) (isAdd : Bool) (ifid iftype : Nat)
    (ea : Option (List UInt8)) :
    ∃ links, (if isAdd then state.links.link e else some state.links) = some links ∧
      WellLinked ⟨addMacEntry state.ctx e isAdd ifid iftype ea, links⟩ := by
  cases isAdd with
  | true =>
    obtain ⟨links, linked, ring⟩ := well.ring.link e
    refine ⟨links, linked, ?_, well.requests.of_same (link_requested linked)⟩
    simpa [addMacEntry] using ring
  | false =>
    refine ⟨state.links, rfl, ?_, well.requests⟩
    simpa [addMacEntry] using well.ring

theorem WellLinked.delete (well : WellLinked state) (e : Nat) (fn : FlushFn) :
    ∃ links, state.links.unlink e = some links ∧ WellLinked ⟨delMacEntry state.ctx e fn, links⟩ := by
  obtain ⟨links, unlinked, ring⟩ := well.ring.unlink e
  have same := SameLists.cleanup state.ctx fn
  unfold delMacEntry
  generalize dhdWlfcCleanup state.ctx fn = cleaned at same ⊢
  refine ⟨links, unlinked, ?_, ?_⟩
  · change LinksRing links (cleaned.activeEntries.erase e)
    rw [same.actives]
    exact ring
  · change LinksRequests links cleaned.requestedEntries
    rw [same.requested]
    exact well.requests.of_same (unlink_requested unlinked)

theorem WellLinked.removeRequest (well : WellLinked state) (e : Nat) :
    WellLinked ⟨{ state.ctx with
      requestedEntries := dhdWlfcRemoveRequestedEntry state.ctx.requestedEntries e },
      state.links.removeRequestedEntry e⟩ :=
  ⟨well.ring.remove e, well.requests.remove e⟩

theorem WellLinked.evict {links : Links} (well : WellLinked ⟨ctx, links⟩) (e : Nat) (ea : List UInt8) :
    ∃ after, links.evictExisting ctx e ea = some after ∧
      WellLinked ⟨evictExisting ctx e ea, after⟩ := by
  unfold Links.evictExisting evictExisting
  cases findMacDesc ctx ea with
  | some existing =>
    dsimp only
    split
    · exact well.delete existing (.entrypkt existing)
    · exact ⟨links, rfl, well⟩
  | none => exact ⟨links, rfl, well⟩

theorem WellLinked.macAdd {links : Links} (well : WellLinked ⟨ctx, links⟩) (e ifid : Nat)
    (macHandle : UInt8) (ea : List UInt8) :
    let evicted := evictExisting ctx e ea
    ∃ after, (if (evicted.entries e).occupied then links.evictExisting ctx e ea
      else (links.evictExisting ctx e ea).bind fun evicted => evicted.link e) = some after ∧
      WellLinked ⟨if (evicted.entries e).occupied then evicted else
        addMacEntry (evicted.setEntry e { evicted.entries e with macHandle := macHandle }) e true ifid
          (evicted.entries (interfaceEntry ifid)).iftype (some ea), after⟩ := by
  obtain ⟨unlinked, done, there⟩ := well.evict e ea
  rw [done]
  generalize evictExisting ctx e ea = evicted at there ⊢
  dsimp only
  split
  · exact ⟨unlinked, rfl, there⟩
  · have handled : ∀ entry, WellLinked ⟨evicted.setEntry e entry, unlinked⟩ :=
      fun entry => ⟨there.ring, there.requests⟩
    obtain ⟨linked, added, after⟩ := (handled { evicted.entries e with macHandle := macHandle }).add e
      true ifid (evicted.entries (interfaceEntry ifid)).iftype (some ea)
    exact ⟨linked, added, after⟩

theorem WellLinked.macDel {links : Links} (well : WellLinked ⟨ctx, links⟩) (e : Nat) :
    ∃ after, (if (ctx.entries e).occupied then links.unlink e else some links) = some after ∧
      WellLinked ⟨if (ctx.entries e).occupied then delMacEntry ctx e (.entrypkt e) else ctx, after⟩ := by
  split
  · exact well.delete e (.entrypkt e)
  · exact ⟨links, rfl, well⟩

theorem macTable_linked (well : WellLinked state) (macHandle : UInt8) (ifid : Nat) (ea : List UInt8)
    (isAdd : Bool) : CallLinked state (.macTable macHandle ifid ea isAdd) := by
  have removed := well.removeRequest (lookupIndex macHandle)
  unfold CallLinked searchAfter ctxAfter Links.macTableUpdate dhdWlfcMacTableUpdate
  cases isAdd with
  | true =>
    obtain ⟨links, done, after⟩ := removed.macAdd (lookupIndex macHandle) ifid macHandle ea
    exact ⟨_, congrArg (Option.map _) done, after⟩
  | false =>
    obtain ⟨links, done, after⟩ := removed.macDel (lookupIndex macHandle)
    exact ⟨_, congrArg (Option.map _) done, after⟩

theorem interfaceEntry_linked (well : WellLinked state) (action : EntryAction) (ifid iftype : Nat)
    (ea : Option (List UInt8)) : CallLinked state (.interfaceEntry action ifid iftype ea) := by
  unfold CallLinked searchAfter ctxAfter Links.interfaceEntryUpdate dhdWlfcInterfaceEntryUpdate
  dsimp only
  split
  · exact ⟨_, rfl, well⟩
  · cases action with
    | add =>
      obtain ⟨links, linked, added⟩ := well.add (interfaceEntry ifid) true ifid iftype ea
      exact ⟨_, congrArg (Option.map _) linked, added⟩
    | del =>
      obtain ⟨links, unlinked, deleted⟩ := well.delete (interfaceEntry ifid) (.ifpkt ifid)
      exact ⟨_, congrArg (Option.map _) unlinked, deleted⟩
    | update =>
      obtain ⟨links, linked, added⟩ := well.add (interfaceEntry ifid) false ifid iftype ea
      exact ⟨_, congrArg (Option.map _) linked, added⟩

theorem psmode_linked (well : WellLinked state) (macHandle : UInt8) (opens : Bool) :
    CallLinked state (.psmode macHandle opens) := by
  unfold CallLinked searchAfter ctxAfter Links.psmodeUpdate dhdWlfcPsmodeUpdate
  dsimp only
  refine ⟨_, rfl, ?_⟩
  cases occupied : (state.ctx.entries (lookupIndex macHandle)).occupied with
  | true =>
    rw [if_pos rfl]
    cases opens with
    | true =>
      rw [if_pos rfl, if_pos ⟨rfl, rfl⟩]
      have removed := well.removeRequest (lookupIndex macHandle)
      exact ⟨removed.ring, removed.requests⟩
    | false =>
      rw [if_neg (by simp), if_neg (by simp)]
      exact well.of_sameLists ((SameLists.setEntry state.ctx _ _).trans
        (.foldl _ (fun ctx prec => .setEntry ctx _ _) _))
  | false =>
    rw [if_neg (by simp), if_neg (by simp)]
    exact well

theorem noteRequest_linked (well : WellLinked state) (macHandle acBitmap : UInt8)
    (set : MacDescriptor → MacDescriptor) :
    ∃ links, state.links.noteRequest state.ctx macHandle = some links ∧
      WellLinked ⟨noteRequest state.ctx macHandle acBitmap set, links⟩ := by
  unfold Links.noteRequest noteRequest
  dsimp only
  split
  · obtain ⟨links, added, requests, next, prev, head, count⟩ :=
      well.requests.add (Nat.mod_lt macHandle.toNat (by decide))
    exact ⟨links, added, well.ring.of_same next prev head count, requests⟩
  · exact ⟨state.links, rfl, well⟩

theorem interface_linked (well : WellLinked state) (ifid : Nat) (opens : Bool) :
    CallLinked state (.interface ifid opens) := by
  refine ⟨_, rfl, well.of_sameLists ?_⟩
  unfold ctxAfter dhdWlfcInterfaceUpdate
  dsimp only
  split
  · exact .setEntry _ _ _
  · exact .refl _

theorem deque_linked (well : WellLinked state) (prec : Nat) (onlyNoCredit : Bool) :
    CallLinked state (.deque prec onlyNoCredit) := by
  obtain ⟨search, done, searched, ring, -⟩ := searchDelayedq_eq well prec onlyNoCredit
  refine ⟨search, done, ring, ?_⟩
  have requested : (dhdWlfcDequeDelayedq state.ctx prec onlyNoCredit).1.requestedEntries =
      state.ctx.requestedEntries := (Aging.dequeDelayedq state.ctx prec onlyNoCredit).requestedEntries
  change LinksRequests search.links
    (dhdWlfcDequeDelayedq state.ctx prec onlyNoCredit).1.requestedEntries
  rw [requested]
  exact well.requests.of_same searched.requested

theorem call_linked (well : WellLinked state) (call : DestinationCall) : CallLinked state call := by
  cases call with
  | macTable macHandle ifid ea isAdd => exact macTable_linked well macHandle ifid ea isAdd
  | interfaceEntry action ifid iftype ea => exact interfaceEntry_linked well action ifid iftype ea
  | interface ifid opens => exact interface_linked well ifid opens
  | psmode macHandle opens => exact psmode_linked well macHandle opens
  | requestCredit credit macHandle acBitmap =>
    obtain ⟨links, noted, after⟩ := noteRequest_linked well macHandle acBitmap
      fun desc => { desc with requestedCredit := credit }
    exact ⟨_, congrArg (Option.map _) noted, after⟩
  | requestPacket packetCount macHandle acBitmap =>
    obtain ⟨links, noted, after⟩ := noteRequest_linked well macHandle acBitmap
      fun desc => { desc with requestedPacket := packetCount }
    exact ⟨_, congrArg (Option.map _) noted, after⟩
  | deque prec onlyNoCredit => exact deque_linked well prec onlyNoCredit
  | cleanup fn => exact ⟨_, rfl, well.of_sameLists (.cleanup state.ctx fn)⟩
  | others after => exact ⟨_, rfl, well.of_sameLists ⟨rfl, rfl⟩⟩

end Steps

theorem destinationsStart_linked (mode : WlfcMode) (pkts : Nat → Pkt) :
    WellLinked (destinationsStart mode pkts) := by
  have none : LinksRing zeroedLinks [] := ⟨.empty (fun _ => rfl) fun _ => rfl, rfl, rfl⟩
  have nobody : LinksRequests zeroedLinks [] :=
    ⟨List.nodup_nil, fun _ member => absurd member (by simp), fun _ => rfl, rfl⟩
  obtain ⟨links, linked, ring⟩ := none.link otherEntry
  unfold destinationsStart
  rw [linked]
  exact ⟨ring, nobody.of_same (link_requested linked)⟩

theorem destinations_preserves : destinations.Preserves WellLinked := by
  intro state call well _
  obtain ⟨search, done, after⟩ := call_linked well call
  change WellLinked ⟨ctxAfter state.ctx call,
    ((searchAfter state.ctx state.links call).map Search.links).getD state.links⟩
  rw [done]
  exact after

/-- In every run the active entries are one circle from the head on, the requested ones are
distinct nodes, no call fails, and a pass over the active entries looks at each of them once. -/
theorem destinations_linked (mode : WlfcMode) (pkts : Nat → Pkt) (calls : List DestinationCall) :
    let state := destinations.run (destinationsStart mode pkts) calls
    let links := state.links
    let actives := state.ctx.activeEntries
    WellLinked state ∧
    (links.activeEntryHead = none ↔ links.activeEntryCount = 0) ∧
    (∀ e, links.next e ≠ none ↔ e ∈ actives) ∧
    (∀ e other, links.next e = some other ↔ links.prev other = some e) ∧
    links.requestedEntryCount ≤ wlfcMacDescTableSize ∧
    ∀ call, ∃ search, destinations.answer state call = some search ∧
      ∀ prec, call = .deque prec false →
        search.visited <+: actives ∧ (search.found = none → search.visited = actives) ∧
          (search.visited.length = links.activeEntryCount → search.visited = actives) := by
  have well : WellLinked (destinations.run (destinationsStart mode pkts) calls) :=
    destinations.run_invariant destinations_preserves (destinationsStart_linked mode pkts)
      (destinations.admitted_of_forall fun _ _ => trivial)
  refine ⟨well, ?_, fun e => well.ring.circle.next_ne_none,
    fun e other => well.ring.circle.next_eq_some_iff, ?_, ?_⟩
  · rw [well.ring.head, well.ring.count, List.head?_eq_none_iff, List.length_eq_zero_iff]
  · rw [well.requests.count]
    exact well.requests.length_le
  · intro call
    obtain ⟨search, done, -⟩ := call_linked well call
    refine ⟨search, done, ?_⟩
    rintro prec rfl
    obtain ⟨same, found, searched, -⟩ := searchDelayedq_eq well prec false
    obtain rfl := Option.some.inj (done.symm.trans found)
    refine ⟨searched.first, searched.all, fun round => ?_⟩
    exact searched.first.eq_of_length (round.trans well.ring.count)

end BcmDhd.Wlfc
