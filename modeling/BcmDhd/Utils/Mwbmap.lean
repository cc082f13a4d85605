import BcmDhd.Lib.Word

/-! The hierarchical multiword bitmap allocator of small ids. Debug-only assertions
(`MWBMAP_ASSERT`) are compiled out. -/

namespace BcmDhd.Utils

open BcmDhd.Lib Function

def bcmMwbmapItemsMax : Nat := 64 * 1024

abbrev bcmMwbmapBitsWord : Nat := 32

/-- `(uint32)(~0U)`. -/
def bcmMwbmapInvalidIdx : Nat := 2 ^ 32 - 1

abbrev bcmMwbmapModop (ix : Nat) : Nat := ix % bcmMwbmapBitsWord

abbrev bcmMwbmapDivop (ix : Nat) : Nat := ix / bcmMwbmapBitsWord

abbrev bcmMwbmapMulop (ix : Nat) : Nat := ix * bcmMwbmapBitsWord

/-- Arrays are indexed from zero and read as zero past their last cleared
word. `wd_count` is the variant built without `BCM_MWBMAP_USE_CNTSETBITS`. -/
structure BcmMwbmap where
  wmaps : Nat
  imaps : Nat
  ifree : Int
  total : Nat
  wdBitmap : Nat → BitVec 32
  wdCount : Nat → Int
  idBitmap : Nat → BitVec 32

/-- The rows `B2`, `B4` and `B6` that spell the table `_CSBTBL`. -/
def csbRow2 (n : Nat) : List Nat := [n, n + 1, n + 1, n + 2]

def csbRow4 (n : Nat) : List Nat :=
  csbRow2 n ++ csbRow2 (n + 1) ++ csbRow2 (n + 1) ++ csbRow2 (n + 2)

def csbRow6 (n : Nat) : List Nat :=
  csbRow4 n ++ csbRow4 (n + 1) ++ csbRow4 (n + 1) ++ csbRow4 (n + 2)

def csbTbl : List Nat := csbRow6 0 ++ csbRow6 (0 + 1) ++ csbRow6 (0 + 1) ++ csbRow6 (0 + 2)

/-- Byte `i` of a word; the order of the bytes in memory does not matter below. -/
def wordByte (word : BitVec 32) (i : Nat) : Nat := word.toNat / 256 ^ i % 256

def bcmCntsetbits (u32arg : BitVec 32) : Nat :=
  csbTbl.getD (wordByte u32arg 0) 0 + csbTbl.getD (wordByte u32arg 1) 0 +
    csbTbl.getD (wordByte u32arg 2) 0 + csbTbl.getD (wordByte u32arg 3) 0

/-- `while (u32arg) { shifts++; u32arg >>= 1; }`; 32 rounds clear every word. -/
def countShifts : Nat → BitVec 32 → Nat → Nat
  | 0, _, shifts => shifts
  | rounds + 1, u32arg, shifts =>
    if u32arg = 0 then shifts else countShifts rounds (u32arg >>> 1) (shifts + 1)

def bcmCountLeadingZeros (u32arg : BitVec 32) : Nat := 32 - countShifts 32 u32arg 0

/-- `(int)bitmap & -(int)bitmap`: clear all except the trailing one. -/
def trailingOne (bitmap : BitVec 32) : BitVec 32 := bitmap &&& -bitmap

/-- `(count == 0) << bitix`. -/
def exhaustedBit (count : Int) (bitix : Nat) : BitVec 32 :=
  (if count = 0 then 1#32 else 0#32) <<< bitix

/-- `*bmap_p ^= (uint32)(~0U << extra)` on the last word, when it is partial. -/
def fixupLast (bitmap : Nat → BitVec 32) (words extra : Nat) : Nat → BitVec 32 :=
  if extra ≠ 0 then
    update bitmap (words - 1)
      (bitmap (words - 1) ^^^ (BitVec.allOnes 32 <<< extra))
  else bitmap

def wordsFor (count : Nat) : Nat :=
  bcmMwbmapDivop count + (if bcmMwbmapModop count ≠ 0 then 1 else 0)

def bcmMwbmapInit (itemsMax : Nat) : BcmMwbmap :=
  let extra := bcmMwbmapModop itemsMax
  let imaps := wordsFor itemsMax % 2 ^ 16
  let wdCount := fill 0 imaps (fun _ => (bcmMwbmapBitsWord : Int)) (fun _ => 0)
  let wdCount := if extra ≠ 0 then update wdCount (imaps - 1) (extra : Int) else wdCount
  let wmaps := wordsFor imaps % 2 ^ 16
  { wmaps
    imaps
    ifree := itemsMax
    total := itemsMax % 2 ^ 16
    idBitmap := fixupLast (fill 0 imaps (fun _ => BitVec.allOnes 32) (fun _ => 0)) imaps extra
    wdCount
    wdBitmap := fixupLast (fill 0 wmaps (fun _ => BitVec.allOnes 32) (fun _ => 0)) wmaps
      (bcmMwbmapModop imaps) }

/-- Take the first free id of the word `wordix`, which bit `bitix` of the
first-level word `top` announces. -/
def takeFrom (mwbmap : BcmMwbmap) (top bitix : Nat) : BcmMwbmap × Nat :=
  let wordix := bcmMwbmapMulop top + bitix
  let count := mwbmap.wdCount wordix - 1
  let bitmap := trailingOne (mwbmap.idBitmap wordix)
  let index := bcmMwbmapMulop wordix + (bcmMwbmapBitsWord - 1) - bcmCountLeadingZeros bitmap
  ({ mwbmap with
      wdCount := update mwbmap.wdCount wordix count
      wdBitmap := update mwbmap.wdBitmap top
        (mwbmap.wdBitmap top ^^^ exhaustedBit count bitix)
      ifree := mwbmap.ifree - 1
      idBitmap := update mwbmap.idBitmap wordix
        (mwbmap.idBitmap wordix ^^^ bitmap) }, index)

/-- The loop leaves at the first non-zero first-level word. -/
def bcmMwbmapAlloc (mwbmap : BcmMwbmap) : BcmMwbmap × Nat :=
  match (List.range mwbmap.wmaps).find? (fun wordix => mwbmap.wdBitmap wordix != 0#32) with
  | none => (mwbmap, bcmMwbmapInvalidIdx)
  | some top =>
    let bitmap := trailingOne (mwbmap.wdBitmap top)
    takeFrom mwbmap top ((bcmMwbmapBitsWord - 1) - bcmCountLeadingZeros bitmap)

def bcmMwbmapForce (mwbmap : BcmMwbmap) (bitix : Nat) : BcmMwbmap :=
  let wordix := bcmMwbmapDivop bitix
  let count := mwbmap.wdCount wordix - 1
  let top := bcmMwbmapDivop wordix
  { mwbmap with
    ifree := mwbmap.ifree - 1
    idBitmap := update mwbmap.idBitmap wordix
      (mwbmap.idBitmap wordix ^^^ (1#32 <<< bcmMwbmapModop bitix))
    wdCount := update mwbmap.wdCount wordix count
    wdBitmap := update mwbmap.wdBitmap top
      (mwbmap.wdBitmap top ^^^ exhaustedBit count (bcmMwbmapModop wordix)) }

def bcmMwbmapFree (mwbmap : BcmMwbmap) (bitix : Nat) : BcmMwbmap :=
  let wordix := bcmMwbmapDivop bitix
  let top := bcmMwbmapDivop wordix
  { mwbmap with
    ifree := mwbmap.ifree + 1
    idBitmap := update mwbmap.idBitmap wordix
      (mwbmap.idBitmap wordix ||| (1#32 <<< bcmMwbmapModop bitix))
    wdCount := update mwbmap.wdCount wordix (mwbmap.wdCount wordix + 1)
    wdBitmap := update mwbmap.wdBitmap top
      (mwbmap.wdBitmap top ||| (1#32 <<< bcmMwbmapModop wordix)) }

/-- The signed counter as the `uint32` it is returned as. -/
def bcmMwbmapFreeCnt (mwbmap : BcmMwbmap) : Nat := (mwbmap.ifree % 2 ^ 32).toNat

def bcmMwbmapIsfree (mwbmap : BcmMwbmap) (bitix : Nat) : Bool :=
  (mwbmap.idBitmap (bcmMwbmapDivop bitix) &&& (1#32 <<< bcmMwbmapModop bitix)) != 0#32

/-- One round of the audit: no mismatch so far, and the ids counted so far. -/
def auditBit (mwbmap : BcmMwbmap) (found : Bool × Int) (place : Nat × Nat) : Bool × Int :=
  if mwbmap.wdBitmap place.1 &&& (1#32 <<< place.2) ≠ 0 then
    let idmapIx := bcmMwbmapMulop place.1 + place.2
    let count := mwbmap.wdCount idmapIx
    (found.1 && decide (count = bcmCntsetbits (mwbmap.idBitmap idmapIx)) && decide (count ≠ 0),
      found.2 + count)
  else found

/-- `true` when none of the assertions of the audit fires. -/
def bcmMwbmapAudit (mwbmap : BcmMwbmap) : Bool :=
  let places := (List.range mwbmap.wmaps).flatMap fun wordix =>
    (List.range bcmMwbmapBitsWord).map fun bitix => (wordix, bitix)
  let found := places.foldl (auditBit mwbmap) (true, 0)
  found.1 && decide (found.2 = mwbmap.ifree)

end BcmDhd.Utils
