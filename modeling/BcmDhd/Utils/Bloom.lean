import BcmDhd.Lib.Machine
import BcmDhd.Lib.Word
import BcmDhd.Utils.Xtlv

/-! A Bloom filter with its hash functions in slots that can be filled and emptied at any time. -/

namespace BcmDhd.Utils

open BcmDhd.Lib Function

variable {result : Int} {bufLen : UInt32}

def bcmeNoresource : Int := -22

def bcmeUnsupported : Int := -23

def bcmeNotfound : Int := -30

/-- A hash function of a slot index and a tag. -/
abbrev BcmBloomHash := Nat → List UInt8 → UInt32

/-- `filter` is `NULL` for a filter that only validates. -/
structure BcmBloomFilter where
  maxHash : Nat
  hash : Nat → Option BcmBloomHash
  filterSize : UInt32
  filter : Option Memory

/-- `BLOOM_BIT_LEN`, in 32 bits. -/
def bloomBitLen (size : UInt32) : UInt32 := size <<< 3

def bloomMask (bit : Nat) : UInt8 := 1 <<< UInt8.ofNat (bit % 8)

def setbit (array : Memory) (bit : Nat) : Memory :=
  update array (bit / 8) (array (bit / 8) ||| bloomMask bit)

def isclr (array : Memory) (bit : Nat) : Bool := array (bit / 8) &&& bloomMask bit = 0

/-- The three allocations of `bcm_bloom_create`: the structure, the slots with what
their memory holds, and the filter. The slots are not cleared. -/
def bcmBloomCreate (allocated : Bool) (slots : Option (Nat → Option BcmBloomHash))
    (filterMemory : Bool) (maxHash : Nat) (filterSize : UInt32) : Option BcmBloomFilter × Int :=
  if maxHash = 0 then (none, bcmeBadarg)
  else if allocated then
    match slots with
    | none => (none, bcmeNomem)
    | some hash =>
      if filterSize > 0 then
        if filterMemory then (some ⟨maxHash, hash, filterSize, some fun _ => 0⟩, bcmeOk)
        else (none, bcmeNomem)
      else (some ⟨maxHash, hash, 0, none⟩, bcmeOk)
  else (none, bcmeNomem)

/-- `hash` may be `NULL`, and so may `idx`, the place for the slot that was found. -/
def bcmBloomAddHash (bp : BcmBloomFilter) (hash : Option BcmBloomHash) (idx : Bool) :
    BcmBloomFilter × (Int × Option Nat) :=
  match hash, idx with
  | some hash, true =>
    match (List.range bp.maxHash).find? fun i => (bp.hash i).isNone with
    | none => (bp, bcmeNoresource, none)
    | some i => ({ bp with hash := update bp.hash i (some hash) }, bcmeOk, some i)
  | _, _ => (bp, bcmeBadarg, none)

def bcmBloomRemoveHash (bp : BcmBloomFilter) (idx : Nat) : BcmBloomFilter × Int :=
  if idx ≥ bp.maxHash then (bp, bcmeNotfound)
  else ({ bp with hash := update bp.hash idx none }, bcmeOk)

/-- `pos % BLOOM_BIT_LEN(len)`. The 32-bit bit length of a size can be zero, and then
there is no remainder. -/
def bloomPos (pos len : UInt32) : Option Nat :=
  if bloomBitLen len = 0 then none else some (pos % bloomBitLen len).toNat

/-- The loop of `bcm_bloom_is_member` over the slots. -/
def isMemberLoop (bp : BcmBloomFilter) (tag : List UInt8) (buf : Memory) (bufLen : UInt32) :
    List Nat → Option Int
  | [] => some bcmeOk
  | i :: rest =>
    match bp.hash i with
    | none => isMemberLoop bp tag buf bufLen rest
    | some hash =>
      match bloomPos (hash i tag) bufLen with
      | none => none
      | some pos => if isclr buf pos then some bcmeNotfound else isMemberLoop bp tag buf bufLen rest

/-- The error code of `bcm_bloom_is_member`, with `BCME_OK` for a member; the tag and
the buffer may be `NULL`. The function has no result where it divides by zero. -/
def bcmBloomIsMember (bp : BcmBloomFilter) (tag : Option (List UInt8)) (buf : Option Memory)
    (bufLen : UInt32) : Option Int :=
  match tag with
  | none => some bcmeOk
  | some tag =>
    if tag = [] then some bcmeOk
    else
      match buf, decide (bufLen = 0) with
      | some buf, false => isMemberLoop bp tag buf bufLen (List.range bp.maxHash)
      | _, _ =>
        match bp.filter with
        | none => some bcmeOk
        | some filter => isMemberLoop bp tag filter bp.filterSize (List.range bp.maxHash)

/-- The loop of `bcm_bloom_add_member` over the slots. -/
def addMemberLoop (bp : BcmBloomFilter) (tag : List UInt8) : List Nat → Memory → Option Memory
  | [], filter => some filter
  | i :: rest, filter =>
    match bp.hash i with
    | none => addMemberLoop bp tag rest filter
    | some hash =>
      match bloomPos (hash i tag) bp.filterSize with
      | none => none
      | some pos => addMemberLoop bp tag rest (setbit filter pos)

def bcmBloomAddMember (bp : BcmBloomFilter) (tag : Option (List UInt8)) :
    Option (BcmBloomFilter × Int) :=
  match tag with
  | none => some (bp, bcmeBadarg)
  | some tag =>
    if tag = [] then some (bp, bcmeBadarg)
    else
      match bp.filter with
      | none => some (bp, bcmeUnsupported)
      | some filter => (addMemberLoop bp tag (List.range bp.maxHash) filter).map fun filter =>
          ({ bp with filter := some filter }, bcmeOk)

/-- The caller's buffer, `*buf_len` and the error code. -/
def bcmBloomGetFilterData (bp : BcmBloomFilter) (bufSize : UInt32) (buf : Memory) :
    (Memory × UInt32) × Int :=
  if bufSize < bp.filterSize then ((buf, bp.filterSize), bcmeBuftooshort)
  else
    match bp.filter with
    | some filter => ((store buf 0 (load filter 0 bp.filterSize.toNat), bp.filterSize), bcmeOk)
    | none => ((buf, bp.filterSize), bcmeOk)

inductive BloomCall
  | addHash (hash : Option BcmBloomHash) (idx : Bool)
  | removeHash (idx : Nat)
  | addMember (tag : Option (List UInt8))

/-- A division by zero has no successor, so `bcm_bloom_add_member` is a call of a run
only where it returns. -/
def bloomMachine : Machine BcmBloomFilter BloomCall Int where
  step bp
    | .addHash hash idx =>
      let added := bcmBloomAddHash bp hash idx
      (added.1, added.2.1)
    | .removeHash idx => bcmBloomRemoveHash bp idx
    | .addMember tag => (bcmBloomAddMember bp tag).getD (bp, bcmeOk)
  admits bp
    | .addMember tag => (bcmBloomAddMember bp tag).isSome
    | _ => True

/-- A call that may register a hash function. -/
def BloomCall.registers : BloomCall → Bool
  | .addHash _ _ => true
  | _ => false

/-- Every hash function registered finds its bit of the tag set in the bytes. -/
def BloomCovers (bp : BcmBloomFilter) (tag : List UInt8) (buf : Memory) (bufLen : UInt32) : Prop :=
  ∀ i < bp.maxHash, ∀ hash, bp.hash i = some hash →
    ∃ pos, bloomPos (hash i tag) bufLen = some pos ∧ isclr buf pos = false

section Bits

variable {array : Memory} {bit other : Nat}

theorem bloomMask_eq (bit : Nat) : (bloomMask bit).toBitVec = BitVec.twoPow 8 (bit % 8) := by
  have eight : ∀ k < 8, ((1 : UInt8) <<< UInt8.ofNat k).toBitVec = BitVec.twoPow 8 k := by decide
  exact eight (bit % 8) (Nat.mod_lt _ (by decide))

theorem isclr_eq_false : isclr array bit = false ↔ (array (bit / 8)).toBitVec.getLsbD (bit % 8) = true := by
  rw [← and_twoPow_ne_zero (Nat.mod_lt bit (by decide)), ← bloomMask_eq, ← UInt8.toBitVec_and]
  simp only [isclr, decide_eq_false_iff_not, ← UInt8.toBitVec_inj, ne_eq]
  rfl

theorem isclr_setbit_iff {set : Nat} :
    isclr (setbit array set) bit = false ↔ bit = set ∨ isclr array bit = false := by
  rw [isclr_eq_false, isclr_eq_false, setbit]
  by_cases here : bit / 8 = set / 8
  · rw [here, update_self, UInt8.toBitVec_or, BitVec.getLsbD_or, bloomMask_eq, BitVec.getLsbD_twoPow]
    have same : bit = set ↔ set % 8 = bit % 8 := by omega
    simp [same, or_comm, Nat.mod_lt]
  · rw [update_of_ne here]
    have other : bit ≠ set := by
      rintro rfl
      exact here rfl
    simp [other]

theorem isclr_setbit_self (array : Memory) (bit : Nat) : isclr (setbit array bit) bit = false :=
  isclr_setbit_iff.mpr (.inl rfl)

theorem isclr_setbit (bit : Nat) (set : isclr array other = false) : isclr (setbit array bit) other = false :=
  isclr_setbit_iff.mpr (.inr set)

end Bits

theorem bloomPos_lt {pos len : UInt32} {bit : Nat} (found : bloomPos pos len = some bit) :
    bit / 8 < len.toNat := by
  unfold bloomPos at found
  split at found
  · cases found
  · rename_i positive
    cases found
    have nonzero : 0 < (bloomBitLen len).toNat := by
      rw [← UInt32.toNat_zero, ← UInt32.lt_iff_toNat_lt]
      exact UInt32.pos_iff_ne_zero.mpr positive
    have bound := Nat.mod_lt pos.toNat nonzero
    have length : (bloomBitLen len).toNat ≤ 8 * len.toNat := by
      have shift : (3 : UInt32).toNat % 32 = 3 := rfl
      rw [bloomBitLen, UInt32.toNat_shiftLeft, shift, Nat.shiftLeft_eq]
      exact (Nat.mod_le _ _).trans (by omega)
    rw [UInt32.toNat_mod]
    omega

section Loops

variable {bp : BcmBloomFilter} {tag : List UInt8}

theorem isMemberLoop_ok {buf : Memory} {slots : List Nat}
    (covers : ∀ i ∈ slots, ∀ hash, bp.hash i = some hash →
      ∃ pos, bloomPos (hash i tag) bufLen = some pos ∧ isclr buf pos = false) :
    isMemberLoop bp tag buf bufLen slots = some bcmeOk := by
  induction slots with
  | nil => rfl
  | cons i rest ih =>
    have others := ih fun j member => covers j (List.mem_cons_of_mem i member)
    rw [isMemberLoop]
    cases registered : bp.hash i with
    | none => exact others
    | some hash =>
      obtain ⟨pos, found, set⟩ := covers i List.mem_cons_self hash registered
      simp only [found, set, Bool.false_eq_true, if_false]
      exact others

/-- The loop sets the bits of every slot it passes and clears none. -/
theorem addMemberLoop_spec {slots : List Nat} {filter after : Memory}
    (added : addMemberLoop bp tag slots filter = some after) :
    (∀ bit, isclr filter bit = false → isclr after bit = false) ∧
      ∀ i ∈ slots, ∀ hash, bp.hash i = some hash →
        ∃ pos, bloomPos (hash i tag) bp.filterSize = some pos ∧ isclr after pos = false := by
  induction slots generalizing filter with
  | nil =>
    cases added
    exact ⟨fun _ set => set, by simp⟩
  | cons i rest ih =>
    rw [addMemberLoop] at added
    cases registered : bp.hash i with
    | none =>
      rw [registered] at added
      obtain ⟨kept, covered⟩ := ih added
      refine ⟨kept, List.forall_mem_cons.mpr ⟨fun hash other => ?_, covered⟩⟩
      rw [registered] at other
      cases other
    | some hash =>
      rw [registered] at added
      cases found : bloomPos (hash i tag) bp.filterSize with
      | none =>
        simp only [found] at added
        cases added
      | some pos =>
        simp only [found] at added
        obtain ⟨kept, covered⟩ := ih added
        refine ⟨fun bit set => kept bit (isclr_setbit pos set),
          List.forall_mem_cons.mpr ⟨fun other same => ?_, covered⟩⟩
        rw [registered] at same
        cases same
        exact ⟨pos, found, kept pos (isclr_setbit_self filter pos)⟩

end Loops

theorem bloomMachine_addMember {bp after : BcmBloomFilter} {tag : Option (List UInt8)}
    (added : bcmBloomAddMember bp tag = some (after, result)) :
    bloomMachine.next bp (.addMember tag) = after := by
  simp only [Machine.next, bloomMachine, added, Option.getD_some]

/-- What is kept once no hash function is registered any more: filter and size stay,
bits are only set, and the hash functions are some of those there were. -/
structure BloomExtends (before after : BcmBloomFilter) : Prop where
  slots : after.maxHash = before.maxHash
  fewer : ∀ i hash, after.hash i = some hash → before.hash i = some hash
  size : after.filterSize = before.filterSize
  present : after.filter = none ↔ before.filter = none
  bits : ∀ old ∈ before.filter, ∀ new ∈ after.filter, ∀ bit,
    isclr old bit = false → isclr new bit = false

namespace BloomExtends

variable {bp middle after : BcmBloomFilter}

theorem refl (bp : BcmBloomFilter) : BloomExtends bp bp := by
  refine ⟨rfl, fun _ _ found => found, rfl, Iff.rfl, ?_⟩
  intro old before new same bit set
  cases Option.mem_unique before same
  exact set

theorem trans (first : BloomExtends bp middle) (second : BloomExtends middle after) :
    BloomExtends bp after := by
  refine ⟨second.slots.trans first.slots, fun i hash found => first.fewer i hash
    (second.fewer i hash found), second.size.trans first.size, second.present.trans first.present, ?_⟩
  intro old before new later bit set
  cases between : middle.filter with
  | none =>
    rw [first.present.mp between] at before
    cases before
  | some current =>
    exact second.bits current between new later bit (first.bits old before current between bit set)

theorem addMember {tag : Option (List UInt8)}
    (added : bcmBloomAddMember bp tag = some (after, result)) : BloomExtends bp after := by
  unfold bcmBloomAddMember at added
  cases tag with
  | none =>
    cases added
    exact refl bp
  | some tag =>
    by_cases empty : tag = []
    · simp only [empty, if_true] at added
      cases added
      exact refl bp
    · simp only [empty, if_false] at added
      cases present : bp.filter with
      | none =>
        simp only [present] at added
        cases added
        exact refl bp
      | some filter =>
        simp only [present] at added
        obtain ⟨written, loop, same⟩ := Option.map_eq_some_iff.mp added
        cases same
        refine ⟨rfl, fun _ _ found => found, rfl, by simp [present], ?_⟩
        intro old before new later bit set
        cases before.symm.trans present
        cases later
        exact (addMemberLoop_spec loop).1 bit set

theorem removeHash (idx : Nat) : BloomExtends bp (bcmBloomRemoveHash bp idx).1 := by
  unfold bcmBloomRemoveHash
  split
  · exact refl bp
  · refine { refl bp with slots := rfl, fewer := ?_ }
    intro i hash found
    by_cases same : i = idx
    · subst i
      simp only [update_self] at found
      cases found
    · simpa only [update_of_ne same] using found

theorem next {call : BloomCall} (admitted : bloomMachine.admits bp call)
    (registers : call.registers = false) : BloomExtends bp (bloomMachine.next bp call) := by
  cases call with
  | addHash hash idx => cases registers
  | removeHash idx => exact removeHash idx
  | addMember tag =>
    obtain ⟨⟨after, result⟩, added⟩ := Option.isSome_iff_exists.mp admitted
    rw [bloomMachine_addMember added]
    exact addMember added

theorem run {calls : List BloomCall} (admitted : bloomMachine.Admitted bp calls)
    (registers : ∀ call ∈ calls, call.registers = false) :
    BloomExtends bp (bloomMachine.run bp calls) :=
  bloomMachine.run_invariant_of_allowed (fun _ _ quiet reached accepted =>
    reached.trans (next accepted quiet)) (refl bp) registers admitted

theorem covers (later : BloomExtends bp after) {tag : List UInt8} {buf : Memory}
    (covered : BloomCovers bp tag buf bufLen) : BloomCovers after tag buf bufLen := by
  intro i inside hash found
  exact covered i (later.slots ▸ inside) hash (later.fewer i hash found)

theorem coversOwn (later : BloomExtends bp after) {tag : List UInt8}
    (covered : ∀ filter ∈ bp.filter, BloomCovers bp tag filter bp.filterSize) :
    ∀ filter ∈ after.filter, BloomCovers after tag filter after.filterSize := by
  intro new present
  cases before : bp.filter with
  | none =>
    rw [later.present.mpr before] at present
    cases present
  | some old =>
    intro i inside hash found
    obtain ⟨pos, place, set⟩ := later.covers (covered old before) i inside hash found
    exact ⟨pos, by rw [later.size]; exact place, later.bits old before new present pos set⟩

end BloomExtends

/-- A filter that was never allocated has no size. -/
def BloomSized (bp : BcmBloomFilter) : Prop := bp.filter = none → bp.filterSize = 0

theorem bcmBloomCreate_sized {allocated filterMemory : Bool}
    {slots : Option (Nat → Option BcmBloomHash)} {maxHash : Nat} {filterSize : UInt32}
    {bp : BcmBloomFilter}
    (created : bcmBloomCreate allocated slots filterMemory maxHash filterSize = (some bp, result)) :
    BloomSized bp := by
  unfold bcmBloomCreate at created
  split at created
  · cases created
  · split at created
    · split at created
      · cases created
      · split at created
        · split at created
          · cases created
            intro missing
            cases missing
          · cases created
        · cases created
          exact fun _ => rfl
    · cases created

theorem bloomSized_preserved : bloomMachine.Preserves BloomSized := by
  intro bp call sized admitted
  cases call with
  | addHash hash idx =>
    simp only [Machine.next, bloomMachine, bcmBloomAddHash]
    split
    · split
      · exact sized
      · exact sized
    · exact sized
  | removeHash idx =>
    have later := @BloomExtends.removeHash bp idx
    intro missing
    exact later.size.trans (sized (later.present.mp missing))
  | addMember tag =>
    have later := @BloomExtends.next bp (.addMember tag) admitted rfl
    intro missing
    exact later.size.trans (sized (later.present.mp missing))

section Members

variable {bp after : BcmBloomFilter} {tag : List UInt8}

theorem addMember_covers (nonempty : tag ≠ [])
    (added : bcmBloomAddMember bp (some tag) = some (after, result)) :
    ∀ filter ∈ after.filter, BloomCovers after tag filter after.filterSize := by
  simp only [bcmBloomAddMember, nonempty, if_false] at added
  cases present : bp.filter with
  | none =>
    simp only [present] at added
    cases added
    intro filter found
    rw [present] at found
    cases found
  | some filter =>
    simp only [present] at added
    obtain ⟨written, loop, same⟩ := Option.map_eq_some_iff.mp added
    cases same
    intro new found
    cases found
    intro i inside hash registered
    exact (addMemberLoop_spec loop).2 i (List.mem_range.mpr inside) hash registered

/-- A tag whose bits are all set in the bytes looked at is a member. -/
theorem bcmBloomIsMember_of_covers {buf : Option Memory}
    (foreign : ∀ bytes ∈ buf, bufLen ≠ 0 → BloomCovers bp tag bytes bufLen)
    (own : ∀ filter ∈ bp.filter, BloomCovers bp tag filter bp.filterSize) :
    bcmBloomIsMember bp (some tag) buf bufLen = some bcmeOk := by
  have internal : (match bp.filter with
      | none => some bcmeOk
      | some filter => isMemberLoop bp tag filter bp.filterSize (List.range bp.maxHash)) =
        some bcmeOk := by
    cases present : bp.filter with
    | none => rfl
    | some filter =>
      exact isMemberLoop_ok fun i member => own filter present i (List.mem_range.mp member)
  unfold bcmBloomIsMember
  dsimp only
  split
  · rfl
  · cases buf with
    | none => exact internal
    | some bytes =>
      by_cases empty : bufLen = 0
      · simp only [empty, decide_true]
        exact internal
      · simp only [empty, decide_false]
        exact isMemberLoop_ok fun i member =>
          foreign bytes rfl empty i (List.mem_range.mp member)

theorem export_covers {filter : Memory} (buf : Memory)
    (covered : BloomCovers bp tag filter bp.filterSize) :
    BloomCovers bp tag (store buf 0 (load filter 0 bp.filterSize.toNat)) bp.filterSize := by
  intro i inside hash found
  obtain ⟨pos, place, set⟩ := covered i inside hash found
  refine ⟨pos, place, ?_⟩
  have bound := bloomPos_lt place
  have same : store buf 0 (load filter 0 bp.filterSize.toNat) (pos / 8) = filter (pos / 8) := by
    simp [store, load, bound]
  rw [isclr, same]
  exact set

theorem run_covers {calls : List BloomCall} (nonempty : tag ≠ [])
    (admitted : bloomMachine.Admitted bp calls) (quiet : ∀ call ∈ calls, call.registers = false)
    (added : BloomCall.addMember (some tag) ∈ calls) :
    ∀ filter ∈ (bloomMachine.run bp calls).filter,
      BloomCovers (bloomMachine.run bp calls) tag filter (bloomMachine.run bp calls).filterSize := by
  obtain ⟨first, second, rfl⟩ := List.append_of_mem added
  obtain ⟨-, accepted, remaining⟩ := (bloomMachine.admitted_append bp first _).mp admitted
  obtain ⟨⟨reached, result⟩, adds⟩ := Option.isSome_iff_exists.mp accepted
  rw [bloomMachine.run_append, bloomMachine.run_cons, bloomMachine_addMember adds]
  rw [bloomMachine_addMember adds] at remaining
  exact (BloomExtends.run remaining fun call member => quiet call (by simp [member])).coversOwn
    (addMember_covers nonempty adds)

end Members

/-- A tag added since the last hash function was registered is a member: of the
filter itself, and in the bytes exported at any time since, whatever was added or
unregistered in between. -/
theorem bloom_no_false_negatives {allocated filterMemory : Bool}
    {slots : Option (Nat → Option BcmBloomHash)} {maxHash : Nat} {filterSize : UInt32}
    {created exporter queried : BcmBloomFilter} {before after later : List BloomCall}
    {tag : Option (List UInt8)}
    (start : bcmBloomCreate allocated slots filterMemory maxHash filterSize = (some created, bcmeOk))
    (admitted : bloomMachine.Admitted created ((before ++ after) ++ later))
    (quiet : ∀ call ∈ after ++ later, call.registers = false)
    (added : BloomCall.addMember tag ∈ after)
    (exporting : exporter = bloomMachine.run created (before ++ after))
    (querying : queried = bloomMachine.run created ((before ++ after) ++ later)) :
    (∀ buf bufLen, buf = none ∨ bufLen = 0 →
      bcmBloomIsMember queried tag buf bufLen = some bcmeOk) ∧
    ∀ (bufSize : UInt32) (buf : Memory), exporter.filterSize ≤ bufSize →
      (bcmBloomGetFilterData exporter bufSize buf).2 = bcmeOk ∧
      bcmBloomIsMember queried tag (some (bcmBloomGetFilterData exporter bufSize buf).1.1)
        (bcmBloomGetFilterData exporter bufSize buf).1.2 = some bcmeOk := by
  obtain ⟨earlier, rest⟩ := (bloomMachine.admitted_append created _ later).mp admitted
  obtain ⟨begun, middle⟩ := (bloomMachine.admitted_append created before after).mp earlier
  have exported : ∀ (bufSize : UInt32) (buf : Memory), exporter.filterSize ≤ bufSize →
      (bcmBloomGetFilterData exporter bufSize buf).2 = bcmeOk := by
    intro bufSize buf fits
    unfold bcmBloomGetFilterData
    rw [if_neg (UInt32.not_lt.mpr fits)]
    split <;> rfl
  -- an empty tag is always a member
  by_cases empty : tag = none ∨ tag = some []
  · have member : ∀ buf bufLen, bcmBloomIsMember queried tag buf bufLen = some bcmeOk := by
      intro buf bufLen
      rcases empty with rfl | rfl <;> rfl
    exact ⟨fun buf bufLen _ => member buf bufLen,
      fun bufSize buf fits => ⟨exported bufSize buf fits, member _ _⟩⟩
  · obtain ⟨bytes, rfl⟩ : ∃ bytes, tag = some bytes := by
      cases tag with
      | none => exact absurd (Or.inl rfl) empty
      | some bytes => exact ⟨bytes, rfl⟩
    have nonempty : bytes ≠ [] := fun none => empty (Or.inr (by rw [none]))
    rw [bloomMachine.run_append] at exporting querying
    rw [bloomMachine.run_append, ← exporting] at rest
    rw [bloomMachine.run_append, ← exporting] at querying
    have covered := run_covers nonempty middle (fun call member => quiet call (by simp [member])) added
    rw [← exporting] at covered
    have extended := BloomExtends.run rest fun call member => quiet call (by simp [member])
    rw [← querying] at extended
    have own := extended.coversOwn covered
    refine ⟨fun buf bufLen internal => bcmBloomIsMember_of_covers ?_ own, ?_⟩
    · intro bytes found nonzero
      rcases internal with rfl | zero
      · cases found
      · exact absurd zero nonzero
    · intro bufSize buf fits
      refine ⟨exported bufSize buf fits, bcmBloomIsMember_of_covers ?_ own⟩
      intro written found nonzero
      cases found
      unfold bcmBloomGetFilterData at nonzero ⊢
      rw [if_neg (UInt32.not_lt.mpr fits)] at nonzero ⊢
      cases present : exporter.filter with
      | none =>
        have sized : BloomSized exporter := by
          rw [exporting, ← bloomMachine.run_append]
          exact bloomMachine.run_invariant bloomSized_preserved (bcmBloomCreate_sized start) earlier
        rw [present] at nonzero
        exact absurd (sized present) nonzero
      | some filter => exact extended.covers (export_covers buf (covered filter present))

/-- Two hash functions, a tag, and one of the hash functions removed before the test. -/
theorem bloom_no_false_negatives_one_tag :
    bcmBloomIsMember (bloomMachine.run ⟨2, fun _ => none, 4, some fun _ => 0⟩
      [.addHash (some fun _ tag => tag.length.toUInt32) true, .addHash (some fun _ _ => 77) true,
        .addMember (some [1, 2, 3]), .removeHash 0]) (some [1, 2, 3]) none 0 = some bcmeOk :=
  (@bloom_no_false_negatives true true (some fun _ => none) 2 4 _ _ _
    [.addHash (some fun _ tag => tag.length.toUInt32) true, .addHash (some fun _ _ => 77) true]
    [.addMember (some [1, 2, 3])] [.removeHash 0] _ rfl ⟨trivial, trivial, rfl, trivial, trivial⟩
    (by decide) List.mem_cons_self rfl rfl).1 none 0 (Or.inl rfl)

end BcmDhd.Utils
