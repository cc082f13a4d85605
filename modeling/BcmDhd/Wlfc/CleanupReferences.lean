import BcmDhd.Wlfc.Driver

namespace BcmDhd.Wlfc

open Function

variable {ctx : Ctx}

/-- The clean-up takes the packet from the queue of the bus. -/
def TakenFromTxq (fn : FlushFn) (ctx : Ctx) (p : Nat) : Prop :=
  p ∈ ctx.txq ∧ fn.takes (ctx.pkts p) = true

/-- It takes the packet from a sub-queue of the given kind. -/
def TakenFromPsq (kind : Nat → Prop) (fn : FlushFn) (ctx : Ctx) (p : Nat) : Prop :=
  ∃ e < entryCount, (ctx.entries e).occupied = true ∧ ∃ prec < wlfcPsqPrecCount, kind prec ∧
    p ∈ (ctx.entries e).psq prec ∧ fn.takes (ctx.pkts p) = true

/-- The packets that are freed. -/
def FreedByCleanup (fn : FlushFn) (ctx : Ctx) (p : Nat) : Prop :=
  TakenFromTxq fn ctx p ∨ TakenFromPsq (fun _ => True) fn ctx p

/-- Those that the clean-up looks for in the hanger. -/
def LookedFor (fn : FlushFn) (ctx : Ctx) (p : Nat) : Prop :=
  TakenFromTxq fn ctx p ∨ TakenFromPsq (fun prec => prec % 2 = 1) fn ctx p

/-- A slot of its own packet, which is suppressed. -/
def OwnSuppressed (ctx : Ctx) (slot p : Nat) : Prop :=
  slot < wlfcHangerMaxitems ∧ (ctx.hanger.items slot).pkt = some p ∧
    (ctx.hanger.items slot).state = .inuseSuppressed ∧ (ctx.pkts p).h2dtag.hslot = slot

/-- No slot refers to one of the packets. -/
def NoReference (ctx : Ctx) (freed : Nat → Prop) : Prop :=
  ∀ slot < wlfcHangerMaxitems, ∀ p, (ctx.hanger.items slot).pkt = some p → ¬ freed p

/-- The packets were looked for in the hanger, and nothing else happened to it. -/
structure Unhung (looked : Nat → Prop) (before after : Ctx) : Prop where
  hslot : ∀ p, (after.pkts p).h2dtag.hslot = (before.pkts p).h2dtag.hslot
  gone : ∀ slot p, looked p → OwnSuppressed before slot p →
    after.hanger.items slot = freedItem (before.hanger.items slot)
  kept : ∀ slot, (∀ p, looked p → ¬ OwnSuppressed before slot p) →
    after.hanger.items slot = before.hanger.items slot

namespace Unhung

variable {first second looked : Nat → Prop} {before middle after : Ctx}

theorem of_same (hslot : ∀ p, (after.pkts p).h2dtag.hslot = (before.pkts p).h2dtag.hslot)
    (items : after.hanger.items = before.hanger.items) : Unhung (fun _ => False) before after :=
  ⟨hslot, fun _ _ none => none.elim, fun slot _ => congrFun items slot⟩

theorem congr (unhung : Unhung first before after)
    (same : ∀ slot p, OwnSuppressed before slot p → (second p ↔ first p)) :
    Unhung second before after := by
  refine ⟨unhung.hslot, ?_, ?_⟩
  · intro slot p looked own
    exact unhung.gone slot p ((same slot p own).mp looked) own
  · intro slot none
    exact unhung.kept slot fun p looked own => none p ((same slot p own).mpr looked) own

theorem ownSuppressed_iff (unhung : Unhung looked before after) (slot p : Nat) :
    OwnSuppressed after slot p ↔ OwnSuppressed before slot p ∧ ¬ looked p := by
  by_cases found : ∃ q, looked q ∧ OwnSuppressed before slot q
  · obtain ⟨q, lookedFor, own⟩ := found
    have freed := unhung.gone slot q lookedFor own
    constructor
    · rintro ⟨-, refers, -, -⟩
      rw [freed] at refers
      exact absurd refers (by simp [freedItem])
    · rintro ⟨ownP, notLooked⟩
      obtain rfl := Option.some.inj (own.2.1.symm.trans ownP.2.1)
      exact absurd lookedFor notLooked
  · have same := unhung.kept slot fun q lookedFor own => found ⟨q, lookedFor, own⟩
    unfold OwnSuppressed
    rw [same, unhung.hslot]
    constructor
    · intro own
      exact ⟨own, fun lookedFor => found ⟨p, lookedFor, own⟩⟩
    · exact And.left

theorem trans (one : Unhung first before middle) (two : Unhung second middle after) :
    Unhung (fun p => first p ∨ second p) before after := by
  refine ⟨fun p => (two.hslot p).trans (one.hslot p), ?_, ?_⟩
  · intro slot p looked own
    by_cases early : first p
    · have freed := one.gone slot p early own
      have none : ∀ q, second q → ¬ OwnSuppressed middle slot q := by
        rintro q - ownQ
        have refers := ownQ.2.1
        rw [freed] at refers
        exact absurd refers (by simp [freedItem])
      rw [two.kept slot none, freed]
    · have still := (one.ownSuppressed_iff slot p).mpr ⟨own, early⟩
      rw [two.gone slot p (looked.resolve_left early) still, one.kept slot]
      intro q lookedFor ownQ
      obtain rfl := Option.some.inj (own.2.1.symm.trans ownQ.2.1)
      exact early lookedFor
  · intro slot none
    rw [two.kept slot, one.kept slot]
    · exact fun p looked own => none p (Or.inl looked) own
    · intro p looked own
      exact none p (Or.inr looked) ((one.ownSuppressed_iff slot p).mp own).1

end Unhung

theorem Unhung.noReference_iff {looked : Nat → Prop} {before after : Ctx}
    (unhung : Unhung looked before after) (freed : Nat → Prop) :
    NoReference after freed ↔ ∀ slot < wlfcHangerMaxitems, ∀ p,
      (before.hanger.items slot).pkt = some p → freed p →
      looked p ∧ OwnSuppressed before slot p := by
  constructor
  · intro clean slot inside p refers isFreed
    by_contra stays
    have same := unhung.kept slot (by
      intro q lookedFor own
      obtain rfl := Option.some.inj (refers.symm.trans own.2.1)
      exact stays ⟨lookedFor, own⟩)
    exact clean slot inside p (by rw [same]; exact refers) isFreed
  · intro own slot inside p refers isFreed
    by_cases found : ∃ q, looked q ∧ OwnSuppressed before slot q
    · obtain ⟨q, lookedFor, ownQ⟩ := found
      rw [unhung.gone slot q lookedFor ownQ] at refers
      exact absurd refers (by simp [freedItem])
    · rw [unhung.kept slot fun q lookedFor ownQ => found ⟨q, lookedFor, ownQ⟩] at refers
      exact found ⟨p, own slot inside p refers isFreed⟩

theorem unhung_foldl (good : Ctx → Prop) {step : Ctx → Nat → Ctx} {looked : Nat → Nat → Prop}
    (packets : List Nat)
    (one : ∀ ctx, ∀ p ∈ packets, good ctx → Unhung (looked p) ctx (step ctx p) ∧ good (step ctx p))
    (begins : good ctx) :
    Unhung (fun q => ∃ p ∈ packets, looked p q) ctx (packets.foldl step ctx) ∧
      good (packets.foldl step ctx) := by
  induction packets generalizing ctx with
  | nil =>
    refine ⟨(Unhung.of_same (fun _ => rfl) rfl).congr fun _ _ _ => ?_, begins⟩
    simp
  | cons p rest ih =>
    obtain ⟨here, kept⟩ := one ctx p List.mem_cons_self begins
    obtain ⟨later, ends⟩ :=
      ih (fun ctx q member => one ctx q (List.mem_cons_of_mem p member)) kept
    refine ⟨(here.trans later).congr fun _ _ _ => ?_, ends⟩
    simp

/-- A loop over numbers whose rounds do not touch what the others take. -/
theorem unhung_range (good : Ctx → Prop) {step : Ctx → Nat → Ctx} {taken : Ctx → Nat → Nat → Prop}
    (one : ∀ ctx i, good ctx → Unhung (taken ctx i) ctx (step ctx i) ∧ good (step ctx i) ∧
      ∀ j, j ≠ i → taken (step ctx i) j = taken ctx j)
    (n : Nat) {ctx : Ctx} (begins : good ctx) :
    Unhung (fun q => ∃ i < n, taken ctx i q) ctx ((List.range n).foldl step ctx) ∧
      good ((List.range n).foldl step ctx) ∧
      ∀ j, n ≤ j → taken ((List.range n).foldl step ctx) j = taken ctx j := by
  induction n with
  | zero =>
    refine ⟨(Unhung.of_same (fun _ => rfl) rfl).congr fun _ _ _ => ?_, begins, fun _ _ => rfl⟩
    simp
  | succ n ih =>
    obtain ⟨early, kept, others⟩ := ih
    rw [List.range_succ, List.foldl_append]
    obtain ⟨here, ends, apart⟩ := one _ n kept
    refine ⟨(early.trans here).congr fun _ q _ => ?_, ends, ?_⟩
    · rw [others n le_rfl]
      constructor
      · rintro ⟨i, below, takes⟩
        by_cases last : i = n
        · exact Or.inr (last ▸ takes)
        · exact Or.inl ⟨i, by omega, takes⟩
      · rintro (⟨i, below, takes⟩ | takes)
        · exact ⟨i, by omega, takes⟩
        · exact ⟨n, by omega, takes⟩
    · intro j above
      change taken (step _ n) j = _
      rw [apart j (by omega), others j (by omega)]

theorem unhung_removeReference (ctx : Ctx) (p : Nat) :
    Unhung (fun q => q = p) ctx (dhdWlfcHangerRemoveReference ctx p) := by
  unfold dhdWlfcHangerRemoveReference
  dsimp only
  split
  · rename_i own
    obtain ⟨inside, refers, suppressed⟩ := own
    refine ⟨fun _ => rfl, ?_, ?_⟩
    · rintro slot q rfl ⟨-, -, -, hslot⟩
      subst hslot
      exact update_self _ _ _
    · intro slot none
      apply update_of_ne
      rintro rfl
      exact none p rfl ⟨inside, refers, suppressed, rfl⟩
  · rename_i other
    refine ⟨fun _ => rfl, ?_, fun _ _ => rfl⟩
    rintro slot q rfl ⟨inside, refers, suppressed, rfl⟩
    exact absurd ⟨inside, refers, suppressed⟩ other

/-- What a clean-up of the queue of the bus leaves as it is. -/
structure TxqFrame (taken : List Nat) (before after : Ctx) : Prop where
  mode : after.mode = before.mode
  occupied : ∀ e, (after.entries e).occupied = (before.entries e).occupied
  psq : ∀ e, (after.entries e).psq = (before.entries e).psq
  pkts : ∀ p ∉ taken, after.pkts p = before.pkts p

namespace TxqFrame

variable {taken : List Nat} {before middle after : Ctx}

theorem refl (ctx : Ctx) : TxqFrame taken ctx ctx := ⟨rfl, fun _ => rfl, fun _ => rfl, fun _ _ => rfl⟩

theorem trans (first : TxqFrame taken before middle) (second : TxqFrame taken middle after) :
    TxqFrame taken before after :=
  ⟨second.mode.trans first.mode, fun e => (second.occupied e).trans (first.occupied e),
    fun e => (second.psq e).trans (first.psq e),
    fun p out => (second.pkts p out).trans (first.pkts p out)⟩

theorem setEntry (ctx : Ctx) (e : Nat) : TxqFrame taken ctx (ctx.setEntry e (landed (ctx.entries e))) := by
  have same : ∀ other, ((ctx.setEntry e (landed (ctx.entries e))).entries other).occupied =
      (ctx.entries other).occupied ∧
      ((ctx.setEntry e (landed (ctx.entries e))).entries other).psq = (ctx.entries other).psq := by
    intro other
    by_cases is : other = e
    · subst is
      rw [Ctx.entries_setEntry, update_self]
      exact ⟨rfl, rfl⟩
    · rw [Ctx.entries_setEntry, update_of_ne is]
      exact ⟨rfl, rfl⟩
  exact ⟨rfl, fun other => (same other).1, fun other => (same other).2, fun _ _ => rfl⟩

theorem removeReference (ctx : Ctx) (p : Nat) :
    TxqFrame taken ctx (dhdWlfcHangerRemoveReference ctx p) := by
  unfold dhdWlfcHangerRemoveReference
  dsimp only
  split
  · exact ⟨rfl, fun _ => rfl, fun _ => rfl, fun _ _ => rfl⟩
  · exact refl ctx

theorem returnImpliedCredit (ctx : Ctx) (p : Nat) :
    TxqFrame taken ctx (dhdWlfcReturnImpliedCredit ctx p) ∧
      Unhung (fun _ => False) ctx (dhdWlfcReturnImpliedCredit ctx p) := by
  unfold dhdWlfcReturnImpliedCredit
  dsimp only
  split
  · split
    · exact ⟨⟨rfl, fun _ => rfl, fun _ => rfl, fun _ _ => rfl⟩, .of_same (fun _ => rfl) rfl⟩
    · exact ⟨⟨rfl, fun _ => rfl, fun _ => rfl, fun _ _ => rfl⟩, .of_same (fun _ => rfl) rfl⟩
  · exact ⟨refl ctx, .of_same (fun _ => rfl) rfl⟩

theorem findTableEntry (ctx : Ctx) {p : Nat} (member : p ∈ taken) :
    TxqFrame taken ctx (dhdWlfcFindTableEntry ctx p).1 ∧
      Unhung (fun _ => False) ctx (dhdWlfcFindTableEntry ctx p).1 := by
  have noted : ∀ pkt, pkt.h2dtag = (ctx.pkts p).h2dtag →
      TxqFrame taken ctx (ctx.setPkt p pkt) ∧ Unhung (fun _ => False) ctx (ctx.setPkt p pkt) := by
    intro pkt tag
    refine ⟨⟨rfl, fun _ => rfl, fun _ => rfl, ?_⟩, .of_same ?_ rfl⟩
    · intro q out
      exact update_of_ne (fun same => out (by rw [same]; exact member)) _ _
    · intro q
      change (update ctx.pkts p pkt q).h2dtag.hslot = _
      by_cases same : q = p
      · rw [same, update_self, tag]
      · rw [update_of_ne same]
  unfold dhdWlfcFindTableEntry
  dsimp only
  split
  · exact ⟨refl ctx, .of_same (fun _ => rfl) rfl⟩
  · exact noted _ rfl

theorem cleanupTxqPkt (hanger : ctx.mode.afq = false) {p : Nat} (member : p ∈ taken) :
    TxqFrame taken ctx (Wlfc.cleanupTxqPkt ctx p) ∧
      Unhung (fun q => q = p) ctx (Wlfc.cleanupTxqPkt ctx p) := by
  obtain ⟨found, same⟩ := findTableEntry ctx member
  have mode : ¬ (dhdWlfcFindTableEntry ctx p).1.mode.afq = true := by
    rw [found.mode, hanger]
    simp
  unfold Wlfc.cleanupTxqPkt
  dsimp only
  rw [if_neg mode]
  have unhung := unhung_removeReference (dhdWlfcFindTableEntry ctx p).1 p
  have removed := found.trans (removeReference (dhdWlfcFindTableEntry ctx p).1 p)
  generalize dhdWlfcHangerRemoveReference (dhdWlfcFindTableEntry ctx p).1 p = left at unhung removed ⊢
  have landed_ := removed.trans (setEntry left (dhdWlfcFindTableEntry ctx p).2)
  have off : Unhung (fun _ => False) left
      (left.setEntry (dhdWlfcFindTableEntry ctx p).2 (landed (left.entries (dhdWlfcFindTableEntry ctx p).2))) :=
    .of_same (fun _ => rfl) rfl
  obtain ⟨back, kept⟩ := @returnImpliedCredit taken
    (left.setEntry (dhdWlfcFindTableEntry ctx p).2 (landed (left.entries (dhdWlfcFindTableEntry ctx p).2))) p
  have leave : ∀ ctx : Ctx, ∀ i ac, TxqFrame taken ctx ((ctx.countInDrv (-1) i ac).txcomplete p) ∧
      Unhung (fun _ => False) ctx ((ctx.countInDrv (-1) i ac).txcomplete p) :=
    fun ctx i ac => ⟨⟨rfl, fun _ => rfl, fun _ => rfl, fun _ _ => rfl⟩, .of_same (fun _ => rfl) rfl⟩
  refine ⟨(landed_.trans back).trans (leave _ _ _).1, ?_⟩
  refine ((((same.trans unhung).trans off).trans kept).trans (leave _ _ _).2).congr fun _ _ _ => ?_
  simp

end TxqFrame

theorem cleanupTxq_unhung (fn : FlushFn) (hanger : ctx.mode.afq = false) :
    Unhung (TakenFromTxq fn ctx) ctx (dhdWlfcCleanupTxq ctx fn) ∧
      TxqFrame (ctx.txq.filter fun p => fn.takes (ctx.pkts p)) ctx (dhdWlfcCleanupTxq ctx fn) := by
  unfold dhdWlfcCleanupTxq
  dsimp only
  have begins : ∀ kept, TxqFrame (ctx.txq.filter fun p => fn.takes (ctx.pkts p)) ctx
      { ctx with txq := kept } ∧ Unhung (fun _ => False) ctx { ctx with txq := kept } := fun kept =>
    ⟨⟨rfl, fun _ => rfl, fun _ => rfl, fun _ _ => rfl⟩, .of_same (fun _ => rfl) rfl⟩
  obtain ⟨frame, same⟩ := begins (ctx.txq.filter fun p => ¬ fn.takes (ctx.pkts p))
  obtain ⟨unhung, ends⟩ := unhung_foldl (TxqFrame (ctx.txq.filter fun p => fn.takes (ctx.pkts p)) ctx)
    (ctx.txq.filter fun p => fn.takes (ctx.pkts p)) (fun now p member kept => by
      obtain ⟨more, off⟩ := TxqFrame.cleanupTxqPkt (kept.mode ▸ hanger) member
      exact ⟨off, kept.trans more⟩) frame
  refine ⟨(same.trans unhung).congr fun _ p _ => ?_, ends⟩
  simp [TakenFromTxq]

/-- Flushing a sub-queue moves no packet of another one. -/
structure PsqFrame (e : Nat) (before after : Ctx) : Prop where
  mode : after.mode = before.mode
  pkts : after.pkts = before.pkts
  entries : ∀ other, other ≠ e → after.entries other = before.entries other
  occupied : (after.entries e).occupied = (before.entries e).occupied

namespace PsqFrame

variable {e : Nat} {before middle after : Ctx}

theorem refl (e : Nat) (ctx : Ctx) : PsqFrame e ctx ctx := ⟨rfl, rfl, fun _ _ => rfl, rfl⟩

theorem trans (first : PsqFrame e before middle) (second : PsqFrame e middle after) :
    PsqFrame e before after :=
  ⟨second.mode.trans first.mode, second.pkts.trans first.pkts,
    fun other apart => (second.entries other apart).trans (first.entries other apart),
    second.occupied.trans first.occupied⟩

end PsqFrame

/-- Nothing but the slot of the packet, the counters and the packets held. -/
theorem flushPsqPkt_unhung (prec : Nat) (hanger : ctx.mode.afq = false) (p : Nat) :
    Unhung (fun q => prec % 2 = 1 ∧ q = p) ctx (flushPsqPkt prec ctx p) ∧
      (flushPsqPkt prec ctx p).mode = ctx.mode ∧ (flushPsqPkt prec ctx p).pkts = ctx.pkts ∧
      (flushPsqPkt prec ctx p).entries = ctx.entries := by
  have leave : ∀ ctx : Ctx, ∀ i, Unhung (fun _ => False) ctx
      (((ctx.countQueued (-1) p (prec / 2)).countInDrv (-1) i (prec / 2)).txcomplete p) :=
    fun ctx i => .of_same (fun _ => rfl) rfl
  unfold flushPsqPkt
  dsimp only
  split
  · rename_i odd
    have removed := unhung_removeReference ctx p
    refine ⟨(removed.trans (leave _ _)).congr fun _ q _ => by simp [odd.2], ?_⟩
    unfold dhdWlfcHangerRemoveReference
    dsimp only
    split
    · exact ⟨rfl, rfl, rfl⟩
    · exact ⟨rfl, rfl, rfl⟩
  · rename_i even
    have notOdd : prec % 2 ≠ 1 := fun odd => even ⟨by rw [hanger]; simp, odd⟩
    exact ⟨(leave ctx _).congr fun _ q _ => by simp [notOdd], rfl, rfl, rfl⟩

theorem flushPsqPrec_unhung (fn : FlushFn) (e : Nat) (hanger : ctx.mode.afq = false) (prec : Nat) :
    Unhung (fun p => prec % 2 = 1 ∧ p ∈ (ctx.entries e).psq prec ∧ fn.takes (ctx.pkts p) = true) ctx
      (flushPsqPrec fn e ctx prec) ∧ PsqFrame e ctx (flushPsqPrec fn e ctx prec) ∧
      ∀ other, other ≠ prec →
        ((flushPsqPrec fn e ctx prec).entries e).psq other = (ctx.entries e).psq other := by
  unfold flushPsqPrec
  dsimp only
  generalize ((ctx.entries e).psq prec).filter (fun p => ¬ fn.takes (ctx.pkts p)) = left
  have start : Unhung (fun _ => False) ctx (ctx.setPsq e prec left) := .of_same (fun _ => rfl) rfl
  obtain ⟨unhung, mode, pkts, entries⟩ := unhung_foldl
    (fun now => now.mode = ctx.mode ∧ now.pkts = ctx.pkts ∧
      now.entries = (ctx.setPsq e prec left).entries)
    (((ctx.entries e).psq prec).filter fun p => fn.takes (ctx.pkts p))
    (fun now p _ kept => by
      obtain ⟨off, mode, pkts, entries⟩ := flushPsqPkt_unhung prec (kept.1 ▸ hanger) p
      exact ⟨off, mode.trans kept.1, pkts.trans kept.2.1, entries.trans kept.2.2⟩)
    (show (ctx.setPsq e prec left).mode = ctx.mode ∧ (ctx.setPsq e prec left).pkts = ctx.pkts ∧ _
      from ⟨rfl, rfl, rfl⟩)
  refine ⟨(start.trans unhung).congr fun _ p _ => ?_, ⟨mode, pkts, ?_, ?_⟩, ?_⟩
  · simp only [List.mem_filter, false_or]
    constructor
    · rintro ⟨odd, member, takes⟩
      exact ⟨p, ⟨member, takes⟩, odd, rfl⟩
    · rintro ⟨_, ⟨member, takes⟩, odd, rfl⟩
      exact ⟨odd, member, takes⟩
  · intro other apart
    rw [entries]
    exact update_of_ne apart _ _
  · rw [entries, Ctx.setPsq, Ctx.entries_setEntry, update_self]
  · intro other apart
    rw [entries, psq_setPsq, if_neg fun both => apart both.2]

/-- A packet of one entry that the clean-up looks for in the hanger. -/
def TakenFromEntry (fn : FlushFn) (ctx : Ctx) (e p : Nat) : Prop :=
  (ctx.entries e).occupied = true ∧ ∃ prec < wlfcPsqPrecCount, prec % 2 = 1 ∧
    p ∈ (ctx.entries e).psq prec ∧ fn.takes (ctx.pkts p) = true

theorem psqFlush_unhung (fn : FlushFn) (e : Nat) (hanger : ctx.mode.afq = false) :
    Unhung (fun p => ∃ prec < wlfcPsqPrecCount, prec % 2 = 1 ∧ p ∈ (ctx.entries e).psq prec ∧
        fn.takes (ctx.pkts p) = true) ctx (dhdWlfcPsqFlush ctx e fn) ∧
      PsqFrame e ctx (dhdWlfcPsqFlush ctx e fn) := by
  unfold dhdWlfcPsqFlush
  obtain ⟨unhung, frame, -⟩ := @unhung_range (PsqFrame e ctx) (flushPsqPrec fn e)
    (fun now prec p => prec % 2 = 1 ∧ p ∈ (now.entries e).psq prec ∧ fn.takes (now.pkts p) = true)
    (fun now prec kept => by
      obtain ⟨off, frame, others⟩ := flushPsqPrec_unhung fn e (kept.mode ▸ hanger) prec
      refine ⟨off, kept.trans frame, fun other apart => ?_⟩
      rw [others other apart, frame.pkts]) wlfcPsqPrecCount ctx (.refl e ctx)
  exact ⟨unhung, frame⟩

theorem cleanupEntry_unhung (fn : FlushFn) (hanger : ctx.mode.afq = false) (e : Nat) :
    Unhung (TakenFromEntry fn ctx e) ctx (cleanupEntry fn ctx e) ∧
      (cleanupEntry fn ctx e).mode = ctx.mode ∧ (cleanupEntry fn ctx e).pkts = ctx.pkts ∧
      ∀ other, other ≠ e → (cleanupEntry fn ctx e).entries other = ctx.entries other := by
  unfold cleanupEntry
  split
  · rename_i occupied
    obtain ⟨unhung, frame⟩ := psqFlush_unhung fn e hanger
    have mode : ¬ (dhdWlfcPsqFlush ctx e fn).mode.afq = true := by
      rw [frame.mode, hanger]
      simp
    have taken : Unhung (TakenFromEntry fn ctx e) ctx (dhdWlfcPsqFlush ctx e fn) := by
      refine unhung.congr fun _ p _ => ?_
      unfold TakenFromEntry
      rw [occupied]
      simp
    dsimp only
    rw [if_neg mode]
    generalize dhdWlfcPsqFlush ctx e fn = flushed at frame taken ⊢
    have cleared : ∀ entry, Unhung (fun _ => False) flushed (flushed.setEntry e entry) :=
      fun entry => .of_same (fun _ => rfl) rfl
    split
    · refine ⟨(taken.trans (cleared _)).congr fun _ _ _ => by simp, frame.mode, frame.pkts, ?_⟩
      intro other apart
      rw [Ctx.entries_setEntry, update_of_ne apart]
      exact frame.entries other apart
    · exact ⟨taken, frame.mode, frame.pkts, frame.entries⟩
  · rename_i free
    refine ⟨(Unhung.of_same (fun _ => rfl) rfl).congr fun _ p _ => ?_, rfl, rfl, fun _ _ => rfl⟩
    unfold TakenFromEntry
    simp [free]

theorem entries_unhung (fn : FlushFn) (hanger : ctx.mode.afq = false) :
    Unhung (TakenFromPsq (fun prec => prec % 2 = 1) fn ctx) ctx
      ((List.range entryCount).foldl (cleanupEntry fn) ctx) ∧
      ((List.range entryCount).foldl (cleanupEntry fn) ctx).mode = ctx.mode := by
  obtain ⟨unhung, mode, -⟩ := @unhung_range (fun now => now.mode = ctx.mode) (cleanupEntry fn)
    (TakenFromEntry fn) (fun now e kept => by
      obtain ⟨off, mode, pkts, others⟩ := cleanupEntry_unhung fn (kept ▸ hanger) e
      refine ⟨off, mode.trans kept, fun other apart => ?_⟩
      unfold TakenFromEntry
      rw [others other apart, pkts]) entryCount ctx rfl
  exact ⟨unhung, mode⟩

theorem cleanup_unhung (fn : FlushFn) (hanger : ctx.mode.afq = false) :
    ∃ drained, dhdWlfcCleanup ctx fn = flushHanger drained fn ∧
      Unhung (LookedFor fn ctx) ctx drained := by
  obtain ⟨fromTxq, frame⟩ := cleanupTxq_unhung fn hanger
  obtain ⟨fromPsq, mode⟩ := entries_unhung fn (frame.mode ▸ hanger)
  refine ⟨_, ?_, (fromTxq.trans fromPsq).congr fun _ p _ => ?_⟩
  · unfold dhdWlfcCleanup
    have kept : ¬ ((List.range entryCount).foldl (cleanupEntry fn)
        (dhdWlfcCleanupTxq ctx fn)).mode.afq = true := by
      rw [mode, frame.mode, hanger]
      simp
    exact if_neg kept
  · unfold LookedFor
    refine or_congr_right' fun notTxq => ?_
    -- a packet that was not taken from the queue of the bus is as it was
    have same := frame.pkts p (by simpa [TakenFromTxq] using notTxq)
    unfold TakenFromPsq
    simp only [frame.occupied, frame.psq, same]

/-- After a clean-up no slot refers to a freed packet just if every slot that refers to one
is the packet's own and in the suppressed state, and the packet is in the queue of the bus or in
a sub-queue of suppressed packets. -/
theorem cleanup_noReference_iff {ctx : Ctx} (hanger : ctx.mode.afq = false) (fn : FlushFn) :
    (NoReference (dhdWlfcCleanupTxq ctx fn) (TakenFromTxq fn ctx) ↔
      ∀ slot < wlfcHangerMaxitems, ∀ p, (ctx.hanger.items slot).pkt = some p →
        TakenFromTxq fn ctx p → OwnSuppressed ctx slot p) ∧
    (NoReference (dhdWlfcCleanup ctx fn) (FreedByCleanup fn ctx) ↔
      ∀ slot < wlfcHangerMaxitems, ∀ p, (ctx.hanger.items slot).pkt = some p →
        FreedByCleanup fn ctx p → LookedFor fn ctx p ∧ OwnSuppressed ctx slot p) := by
  constructor
  · rw [(cleanupTxq_unhung fn hanger).1.noReference_iff]
    constructor
    · intro own slot inside p refers taken
      exact (own slot inside p refers taken).2
    · intro own slot inside p refers taken
      exact ⟨taken, own slot inside p refers taken⟩
  · obtain ⟨drained, same, unhung⟩ := cleanup_unhung fn hanger
    rw [same, ← unhung.noReference_iff]
    -- the marks of the last loop leave the references alone
    have refers : ∀ slot, ((flushHanger drained fn).hanger.items slot).pkt =
        (drained.hanger.items slot).pkt := by
      intro slot
      change (flushedItem drained fn slot).pkt = _
      unfold flushedItem
      dsimp only
      split
      · rfl
      · rfl
    unfold NoReference
    simp only [refers]

/-- One packet is given to the bus, which still has it in its queue. -/
def busQueueCalls : List DriverCall :=
  [.interfaceEntry .add 0 0 none, .creditmap fun _ => 4,
    .commitPackets 7 (freshPkt 0 1 [0, 0, 0, 0, 0, 0] [1, 2]),
    .transfer ⟨fun _ => ⟨bcmeOk, false⟩, fun _ => 1000, 0⟩]

def queuedAtBus : Ctx := driver.run (driverStart ⟨false, false, false⟩) busQueueCalls

theorem cleanup_noReference_iff_queuedAtBus :
    ¬ NoReference (dhdWlfcCleanup queuedAtBus .all) (FreedByCleanup .all queuedAtBus) := by
  have hanger : queuedAtBus.mode.afq = false := by decide +kernel
  rw [(cleanup_noReference_iff hanger .all).2]
  intro own
  have refers : (queuedAtBus.hanger.items 1).pkt = some 7 := by decide +kernel
  have queued : 7 ∈ queuedAtBus.txq := by decide +kernel
  obtain ⟨-, -, -, suppressed, -⟩ := own 1 (by decide) 7 refers (Or.inl ⟨queued, rfl⟩)
  exact absurd suppressed (by decide +kernel)

/-- The packet is freed, and its slot still refers to it. -/
theorem slot_of_freed_packet :
    driver.Admitted (driverStart ⟨false, false, false⟩) busQueueCalls ∧
      7 ∈ queuedAtBus.txq ∧ 7 ∉ (dhdWlfcCleanup queuedAtBus .all).held ∧
      ((dhdWlfcCleanup queuedAtBus .all).hanger.items 1).pkt = some 7 := by
  decide +kernel

end BcmDhd.Wlfc
