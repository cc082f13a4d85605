import BcmDhd.Utils.XtlvRoundTrip

namespace BcmDhd.Utils

open BcmDhd.Lib

variable {opts : UInt16} {mem : Memory} {buf endp : Nat} {records rest : List XtlvRecord} {first : XtlvRecord}

theorem room_shrinks (below : buf < endp) (dlen : Nat) (opts : UInt16) :
    endp - (buf + bcmXtlvSizeForData dlen opts) < endp - buf := by
  have room := bcmXtlvSizeForData_ge dlen opts
  omega

/-- The loop of `bcm_pack_xtlv_buf`: the memory, the pointer behind what is packed, the result. -/
def packBufLoop {Ctx : Type} (getNext : Ctx → Ctx × Bool × UInt16 × UInt16)
    (packNext : Ctx → UInt16 → UInt16 → Nat → Memory → Ctx × Memory) (opts : UInt16) (endp : Nat)
    (ctx : Ctx) (mem : Memory) (buf : Nat) : (Memory × Nat) × Int :=
  if buf < endp then
    match getNext ctx with
    | (ctx, more, tlvId, tlvLen) =>
      let size := bcmXtlvSizeForData tlvLen.toNat opts
      if buf + size ≥ endp then ((mem, buf), bcmeBuftooshort)
      else
        match packNext ctx tlvId tlvLen (buf + bcmXtlvHdrSize)
            (store16 (store16 mem buf tlvId) (buf + 2) tlvLen) with
        | (ctx, mem) =>
          if more then packBufLoop getNext packNext opts endp ctx mem (buf + size)
          else ((mem, buf + size), bcmeOk)
  else ((mem, buf), bcmeBuftooshort)
termination_by endp - buf
decreasing_by
  exact room_shrinks ‹_› _ _

def bcmPackXtlvBuf {Ctx : Type} (ctx : Ctx) (mem : Memory) (tlvBuf : Nat) (buflen opts : UInt16)
    (getNext : Ctx → Ctx × Bool × UInt16 × UInt16)
    (packNext : Ctx → UInt16 → UInt16 → Nat → Memory → Ctx × Memory) : (Memory × Nat) × Int :=
  packBufLoop getNext packNext opts (tlvBuf + buflen.toNat) ctx mem tlvBuf

/-- The items of `bcm_pack_xtlv_buf_from_mem`, which end with one of type zero. The result is that
of the comparison, not that of the packer. -/
def bcmPackXtlvBufFromMem (opts : UInt16) : List XtlvRecord → XtlvCursor → XtlvCursor × Int
  | [], cursor => (cursor, bcmeOk)
  | item :: items, cursor =>
    if item.id = 0 then (cursor, bcmeOk)
    else
      match bcmPackXtlvEntry cursor item.id item.len item.src opts with
      | (next, packed) =>
        let res : Int := if packed ≠ bcmeOk then 1 else 0
        if res ≠ 0 then (next, res) else bcmPackXtlvBufFromMem opts items next

/-- The record that is next, and those behind it. -/
abbrev RecordCtx := XtlvRecord × List XtlvRecord

def nextRecord (ctx : RecordCtx) : RecordCtx × Bool × UInt16 × UInt16 :=
  (ctx, ctx.2 ≠ [], ctx.1.id, ctx.1.len)

def packRecord (ctx : RecordCtx) (_ _ : UInt16) (place : Nat) (mem : Memory) : RecordCtx × Memory :=
  ((ctx.2.headD ctx.1, ctx.2.tail), store mem place ctx.1.data)

/-- The records packed, however large the buffer is. -/
def packedMemory (opts : UInt16) : List XtlvRecord → Memory → Nat → Memory
  | [], mem, _ => mem
  | record :: rest, mem, buf =>
    packedMemory opts rest (storeXtlv mem buf record.id record.len record.data) (buf + record.size opts)

/-- The last byte of the buffer stays free. -/
theorem packBufLoop_records :
    packBufLoop nextRecord packRecord opts endp (first, rest) mem buf =
        ((packedMemory opts (first :: rest) mem buf, buf + packedSize opts (first :: rest)), bcmeOk) ∧
      buf + packedSize opts (first :: rest) < endp ∨
    (packBufLoop nextRecord packRecord opts endp (first, rest) mem buf).2 = bcmeBuftooshort ∧
      endp ≤ buf + packedSize opts (first :: rest) := by
  induction rest generalizing first mem buf with
  | nil =>
    have room := first.size_ge opts
    have sized : bcmXtlvSizeForData first.len.toNat opts = first.size opts := rfl
    have single : packedSize opts [first] = first.size opts := List.sum_singleton
    rw [packBufLoop, single]
    by_cases full : buf + first.size opts ≥ endp
    · refine Or.inr ⟨?_, full⟩
      split
      · simp only [nextRecord, sized, if_pos full]
      · rfl
    · refine Or.inl ⟨?_, not_le.mp full⟩
      rw [if_pos (by omega)]
      simp only [nextRecord, sized, if_neg full]
      rfl
  | cons second others ih =>
    have room := first.size_ge opts
    have sized : bcmXtlvSizeForData first.len.toNat opts = first.size opts := rfl
    have total := packedSize_cons opts first (second :: others)
    rw [packBufLoop, total]
    by_cases full : buf + first.size opts ≥ endp
    · refine Or.inr ⟨?_, by omega⟩
      split
      · simp only [nextRecord, sized, if_pos full]
      · rfl
    · rw [if_pos (by omega)]
      simp only [nextRecord, sized, if_neg full]
      rw [← Nat.add_assoc]
      exact ih

theorem packEntries_eq (cursor : XtlvCursor) :
    (packEntries opts records cursor).map XtlvCursor.mem =
      if packedSize opts records ≤ cursor.buflen.toNat then
        some (packedMemory opts records cursor.mem cursor.tlvBuf) else none := by
  induction records generalizing cursor with
  | nil => simp [packEntries, packedSize, packedMemory]
  | cons record rest ih =>
    have total := packedSize_cons opts record rest
    rcases bcmPackXtlvEntry_cases cursor record opts with ⟨short, refused⟩ | ⟨fits, written⟩
    · rw [if_neg (by omega)]
      simp [packEntries, refused, bcmeBadlen, bcmeOk]
    · have remaining := buflen_sub fits
      simp only [packEntries, written, if_true, ih, remaining, packedMemory]
      have same : packedSize opts rest ≤ cursor.buflen.toNat - record.size opts ↔
          packedSize opts (record :: rest) ≤ cursor.buflen.toNat := by omega
      simp only [same]

/-- The items in front of the end of the table. -/
def itemsOf (records : List XtlvRecord) : List XtlvRecord := records.takeWhile (·.id ≠ 0)

theorem packFromMem_result (cursor : XtlvCursor) : (bcmPackXtlvBufFromMem opts records cursor).2 =
    if packedSize opts (itemsOf records) ≤ cursor.buflen.toNat then 0 else 1 := by
  induction records generalizing cursor with
  | nil => simp [bcmPackXtlvBufFromMem, itemsOf, packedSize, bcmeOk]
  | cons item items ih =>
    by_cases last : item.id = 0
    · simp [bcmPackXtlvBufFromMem, itemsOf, last, packedSize, bcmeOk]
    · have items_ : itemsOf (item :: items) = item :: itemsOf items := by simp [itemsOf, last]
      have total := packedSize_cons opts item (itemsOf items)
      rw [items_, bcmPackXtlvBufFromMem, if_neg last]
      rcases bcmPackXtlvEntry_cases cursor item opts with ⟨short, refused⟩ | ⟨fits, written⟩
      · rw [if_neg (by omega)]
        simp [refused, bcmeBadlen, bcmeOk]
      · have remaining := buflen_sub fits
        have same : packedSize opts (itemsOf items) ≤ cursor.buflen.toNat - item.size opts ↔
            packedSize opts (item :: itemsOf items) ≤ cursor.buflen.toNat := by omega
        simp [written, ih, remaining, same]

/-- What the packers are to make of records and a buffer: to pack them all exactly if the buffer
is large enough, in the same way, and to tell with a negative code that it is not. -/
structure PackersAgree (opts : UInt16) (mem : Memory) (tlvBuf : Nat) (buflen : UInt16) (first : XtlvRecord)
    (rest : List XtlvRecord) : Prop where
  capacity : (bcmPackXtlvBuf (first, rest) mem tlvBuf buflen opts nextRecord packRecord).2 = bcmeOk ↔
    packedSize opts (first :: rest) ≤ buflen.toNat
  entries : (bcmPackXtlvBuf (first, rest) mem tlvBuf buflen opts nextRecord packRecord).2 = bcmeOk ↔
    packEntries opts (first :: rest) ⟨mem, tlvBuf, buflen⟩ ≠ none
  bytes : ∀ final, packEntries opts (first :: rest) ⟨mem, tlvBuf, buflen⟩ = some final →
    (bcmPackXtlvBuf (first, rest) mem tlvBuf buflen opts nextRecord packRecord).1.1 = final.mem
  refused : buflen.toNat < packedSize opts (first :: rest) →
    (bcmPackXtlvBuf (first, rest) mem tlvBuf buflen opts nextRecord packRecord).2 < 0
  itemsRefused : buflen.toNat < packedSize opts (itemsOf (first :: rest)) →
    (bcmPackXtlvBufFromMem opts (first :: rest) ⟨mem, tlvBuf, buflen⟩).2 < 0

/-- One packer wants a byte more than the records take, and the other never returns an error
code. -/
theorem packers_agree_iff (opts : UInt16) (mem : Memory) (tlvBuf : Nat) (buflen : UInt16) (first : XtlvRecord)
    (rest : List XtlvRecord) : PackersAgree opts mem tlvBuf buflen first rest ↔
      packedSize opts (first :: rest) ≠ buflen.toNat ∧
        packedSize opts (itemsOf (first :: rest)) ≤ buflen.toNat := by
  have entries := @packEntries_eq opts (first :: rest) ⟨mem, tlvBuf, buflen⟩
  have items := @packFromMem_result opts (first :: rest) ⟨mem, tlvBuf, buflen⟩
  have looped := @packBufLoop_records opts mem tlvBuf (tlvBuf + buflen.toNat) rest first
  change bcmPackXtlvBuf (first, rest) mem tlvBuf buflen opts nextRecord packRecord = _ ∧ _ ∨
    (bcmPackXtlvBuf (first, rest) mem tlvBuf buflen opts nextRecord packRecord).2 = _ ∧ _ at looped
  have negative : bcmeBuftooshort ≠ bcmeOk ∧ bcmeBuftooshort < 0 := by decide
  dsimp only at entries items
  constructor
  · intro agree
    constructor
    · intro exact_
      rcases looped with ⟨-, more⟩ | ⟨short, -⟩
      · omega
      · rw [agree.capacity.mpr (by omega)] at short
        exact negative.1 short.symm
    · by_contra over_
      have refused := agree.itemsRefused (by omega)
      rw [items, if_neg over_] at refused
      omega
  · rintro ⟨inexact, fits⟩
    rcases looped with ⟨packed, less⟩ | ⟨short, full⟩
    · rw [if_pos (by omega)] at entries
      obtain ⟨final, done, same⟩ := Option.map_eq_some_iff.mp entries
      refine ⟨?_, ?_, fun other also => ?_, fun over_ => by omega, fun over_ => by omega⟩
      · rw [packed]
        exact iff_of_true rfl (by omega)
      · rw [packed, done]
        exact iff_of_true rfl (Option.some_ne_none final)
      · cases done.symm.trans also
        rw [packed, same]
    · rw [if_neg (by omega)] at entries
      have none_ := Option.map_eq_none_iff.mp entries
      refine ⟨?_, ?_, fun other also => ?_, fun _ => ?_, fun over_ => by omega⟩
      · rw [short]
        exact iff_of_false negative.1 (by omega)
      · rw [short]
        exact iff_of_false negative.1 (not_not.mpr none_)
      · cases none_.symm.trans also
      · rw [short]
        exact negative.2

/-- An empty record takes the four bytes of its buffer; with one byte less the result is 1. -/
theorem packers_exact_fit :
    let record : XtlvRecord := ⟨1, 0, fun _ => 0⟩
    packedSize 0 [record] = 4 ∧ ¬ PackersAgree 0 (fun _ => 0) 0 4 record [] ∧
      (bcmPackXtlvBufFromMem 0 [record] ⟨fun _ => 0, 0, 3⟩).2 = 1 := by
  intro record
  refine ⟨by decide, fun agree => ?_, by decide⟩
  exact absurd (agree.capacity.mpr (by decide)) (by decide +kernel)

end BcmDhd.Utils
