import BcmDhd.Lib.Walk
import BcmDhd.Wps.EnrolleeSettings
import BcmDhd.Wps.FrontReading

namespace BcmDhd.Wps

open BcmDhd.Lib

variable {scan : CredentialScan} {start turns : Nat}

/-- Behind an attribute of this type, if one is here. -/
def BufferObj.behind (b : BufferObj) (theType : Nat) : BufferObj :=
  match b.header theType with
  | .found len => b.past len
  | _ => b

/-- Behind attributes of these types, each of which may be missing. -/
def BufferObj.behindAll (b : BufferObj) (types : List Nat) : BufferObj := types.foldl BufferObj.behind b

/-- The attribute at the place is longer than the buffer. -/
def CutOff (b : BufferObj) : Prop := b.remaining < 4 + b.ntohs 2

section

variable {b next : BufferObj} {theType : Nat}

theorem tlvDserializeByte_buf (old : UInt8) : (tlvDserializeByte old theType b).buf = b.behind theType := by
  unfold tlvDserializeByte BufferObj.behind
  cases b.header theType <;> rfl

theorem tlvDserializeShort_buf (old : Nat) : (tlvDserializeShort old theType b).buf = b.behind theType := by
  unfold tlvDserializeShort BufferObj.behind
  cases b.header theType <;> rfl

theorem tlvDserializeWord_buf (old : Nat) : (tlvDserializeWord old theType b).buf = b.behind theType := by
  unfold tlvDserializeWord BufferObj.behind
  cases b.header theType <;> rfl

theorem tlvDserializeCopy_buf (old : TlvCopy) (dataSize : Nat) :
    (tlvDserializeCopy old theType b dataSize).buf = b.behind theType := by
  unfold tlvDserializeCopy BufferObj.behind
  cases b.header theType <;> rfl

theorem behind_other (other : b.nextType ≠ theType) : b.behind theType = b := by
  unfold BufferObj.behind
  cases header : b.header theType with
  | refused => rfl
  | truncated len => rfl
  | found len =>
    obtain ⟨value, later, here, _, small, _⟩ := BufferObj.header_found header
    exact absurd (BufferObj.nextType_tlv here small) other

theorem copyParse_buf (old : TlvCopy) (dataSize : Nat) : (copyParse old theType b dataSize).buf = b.behind theType := by
  unfold copyParse
  split
  · exact tlvDserializeCopy_buf old dataSize
  · rename_i other
    exact (behind_other other).symm

theorem byteParse_buf (old : UInt8) : (byteParse old theType b).buf = b.behind theType := by
  unfold byteParse
  split
  · exact tlvDserializeByte_buf old
  · rename_i other
    exact (behind_other other).symm

theorem behind_cutOff (cut : CutOff b) : b.behind theType = b := by
  unfold CutOff at cut
  unfold BufferObj.behind BufferObj.header
  by_cases none_ : b.remaining = 0
  · rw [if_pos none_]
  · rw [if_neg none_]
    by_cases other : theType ≠ b.ntohs 0
    · rw [if_pos other]
    · rw [if_neg other, if_pos (by omega)]

theorem ntohs_of_nextType (some_ : theType ≠ 0) (type : b.nextType = theType) :
    4 ≤ b.remaining ∧ b.ntohs 0 = theType := by
  unfold BufferObj.nextType at type
  split at type
  · exact absurd type.symm some_
  · exact ⟨by omega, type⟩

theorem behind_whole (some_ : theType ≠ 0) (type : b.nextType = theType) (whole : ¬CutOff b) :
    b.behind theType = b.past (b.ntohs 2) := by
  unfold CutOff at whole
  obtain ⟨long, same⟩ := ntohs_of_nextType some_ type
  unfold BufferObj.behind BufferObj.header
  rw [if_neg (by omega), if_neg (not_not.mpr same.symm), if_neg (by omega)]

theorem advance_past (whole : ¬CutOff b) : b.advance (4 + b.ntohs 2) = some (b.past (b.ntohs 2)) := by
  unfold CutOff BufferObj.remaining at whole
  exact BufferObj.advance_isSome (by omega)

theorem advance_cutOff (cut : CutOff b) : b.advance (4 + b.ntohs 2) = none :=
  BufferObj.advance_eq_none.mpr cut

theorem behind_kept (b : BufferObj) (theType : Nat) : b.Kept (b.behind theType) := by
  unfold BufferObj.behind
  split
  · exact .past b _
  · exact .refl b

theorem behindAll_kept (types : List Nat) : b.Kept (b.behindAll types) := by
  induction types generalizing b with
  | nil => exact .refl b
  | cons theType types ih => exact (behind_kept b theType).trans ih

theorem past_remaining (whole : ¬CutOff b) : (b.past (b.ntohs 2)).remaining < b.remaining := by
  unfold CutOff at whole
  have shorter : (b.past (b.ntohs 2)).remaining = b.remaining - (4 + b.ntohs 2) := List.length_drop
  omega

theorem behind_remaining (b : BufferObj) (theType : Nat) : (b.behind theType).remaining ≤ b.remaining := by
  unfold BufferObj.behind
  split
  · rw [BufferObj.past, BufferObj.remaining, List.length_drop, BufferObj.remaining]
    omega
  · exact Nat.le_refl _

end

/-- The attributes that may stand in any order behind a network key. -/
def aKeyElements : List Nat :=
  [wpsIdKeyLifetime, wpsIdRekeyKey, wpsIdX509Cert, wpsIdWepTransmitKey, wpsIdVendorExt]

/-- Such an attribute that its reader refuses: it is cut off, or a vendor extension without
a vendor. -/
def AKeyBroken (b : BufferObj) : Prop :=
  b.nextType ∈ aKeyElements ∧ (CutOff b ∨ b.nextType = wpsIdVendorExt ∧ b.ntohs 2 < 3)

instance (b : BufferObj) : Decidable (CutOff b) := Nat.decLt _ _

instance (b : BufferObj) : Decidable (AKeyBroken b) := inferInstanceAs (Decidable (_ ∧ _))

/-- From one attribute to the next in the loop of `tlv_credentialParseAKey`: the end of the
credential is looked at only behind attributes that are not known. -/
def aKeyStep (stop : Nat) (b : BufferObj) : Option BufferObj :=
  if b.nextType = 0 ∨ b.nextType = wpsIdNwKeyIndex ∨ AKeyBroken b then none
  else (b.advance (4 + b.ntohs 2)).filter fun next => b.nextType ∈ aKeyElements ∨ next.pos < stop

section

variable {b : BufferObj}

theorem vendorExtParse_broken (broken : CutOff b ∨ b.ntohs 2 < 3) : tlvVendorExtParse b = none := by
  unfold CutOff at broken
  unfold tlvVendorExtParse cplxtlvParseHdr
  by_cases room : b.remaining < 4 + 3
  · rw [if_pos room]
  · rw [if_neg room]
    by_cases other : wpsIdVendorExt ≠ b.ntohs 0
    · rw [if_pos other]
    · rw [if_neg other]
      by_cases short : b.ntohs 2 < 3
      · rw [if_pos short]
      · rw [if_neg short, if_pos (by omega)]

theorem vendorExtParse_whole (type : b.nextType = wpsIdVendorExt) (whole : ¬CutOff b) (long : ¬b.ntohs 2 < 3) :
    tlvVendorExtParse b = some (⟨b.pos + 7, b.ntohs 2 - 3⟩, b.past (b.ntohs 2)) := by
  unfold CutOff at whole
  obtain ⟨_, same⟩ := ntohs_of_nextType (by decide) type
  unfold tlvVendorExtParse cplxtlvParseHdr
  rw [if_neg (by omega), if_neg (not_not.mpr same.symm), if_neg long, if_neg (by omega)]

theorem nwKeyShareableParse_broken (old : UInt8) (broken : CutOff b ∨ b.ntohs 2 < 3) :
    (nwKeyShareableParse old b).buf = b := by
  unfold nwKeyShareableParse
  rw [vendorExtParse_broken broken]

theorem nwKeyShareableParse_whole (old : UInt8) (type : b.nextType = wpsIdVendorExt) (whole : ¬CutOff b)
    (long : ¬b.ntohs 2 < 3) : (nwKeyShareableParse old b).buf = b.past (b.ntohs 2) := by
  unfold nwKeyShareableParse
  rw [vendorExtParse_whole type whole long]

/-- Where the reader of a known attribute leaves the buffer. -/
def aKeyBehind (b : BufferObj) : BufferObj := if AKeyBroken b then b else b.past (b.ntohs 2)

theorem behind_element {theType : Nat} (type : b.nextType = theType) (element : theType ∈ aKeyElements)
    (other : theType ≠ wpsIdVendorExt) : b.behind theType = aKeyBehind b := by
  have some_ : theType ≠ 0 := by
    rintro rfl
    exact absurd element (by decide)
  unfold aKeyBehind
  by_cases cut : CutOff b
  · rw [behind_cutOff cut, if_pos ⟨type ▸ element, Or.inl cut⟩]
  · rw [behind_whole some_ type cut, if_neg]
    rintro ⟨_, broken | ⟨vendor, _⟩⟩
    · exact cut broken
    · exact other (type.symm.trans vendor)

/-- A turn at a known attribute reads it, or stays if its reader refuses it. -/
theorem aKeyTurn_element {start len : Nat} {scan : CredentialScan} (element : scan.buf.nextType ∈ aKeyElements) :
    ∃ credential, aKeyTurn start len scan = .again ⟨credential, aKeyBehind scan.buf⟩ := by
  have known : scan.buf.nextType = wpsIdKeyLifetime ∨ scan.buf.nextType = wpsIdRekeyKey ∨
      scan.buf.nextType = wpsIdX509Cert ∨ scan.buf.nextType = wpsIdWepTransmitKey ∨
      scan.buf.nextType = wpsIdVendorExt := by simpa [aKeyElements] using element
  unfold aKeyTurn
  dsimp only
  rcases known with type | type | type | type | type
  · rw [if_neg (by rw [type]; decide), if_pos type, tlvDserializeWord_buf, behind_element type (by decide) (by decide)]
    exact ⟨_, rfl⟩
  · rw [if_neg (by rw [type]; decide), if_neg (by rw [type]; decide), if_pos type, tlvDserializeCopy_buf,
      behind_element type (by decide) (by decide)]
    exact ⟨_, rfl⟩
  · rw [if_neg (by rw [type]; decide), if_neg (by rw [type]; decide), if_neg (by rw [type]; decide), if_pos type,
      tlvDserializeCopy_buf, behind_element type (by decide) (by decide)]
    exact ⟨_, rfl⟩
  · rw [if_neg (by rw [type]; decide), if_neg (by rw [type]; decide), if_neg (by rw [type]; decide),
      if_neg (by rw [type]; decide), if_pos type, tlvDserializeByte_buf, behind_element type (by decide) (by decide)]
    exact ⟨_, rfl⟩
  · rw [if_neg (by rw [type]; decide), if_neg (by rw [type]; decide), if_neg (by rw [type]; decide),
      if_neg (by rw [type]; decide), if_neg (by rw [type]; decide), if_neg (by rw [type]; decide), if_pos type]
    have place : (nwKeyShareableParse scan.credential.nwKeyShareable scan.buf).buf = aKeyBehind scan.buf := by
      unfold aKeyBehind
      by_cases broken : AKeyBroken scan.buf
      · rw [if_pos broken]
        exact nwKeyShareableParse_broken _ (broken.2.imp_right And.right)
      · rw [if_neg broken]
        have whole := not_or.mp fun refused => broken ⟨element, refused⟩
        exact nwKeyShareableParse_whole _ type whole.1 fun short => whole.2 ⟨type, short⟩
    rw [place]
    exact ⟨_, rfl⟩

theorem aKeyTurn_other {len : Nat} (some_ : scan.buf.nextType ≠ 0)
    (index : scan.buf.nextType ≠ wpsIdNwKeyIndex) (other : scan.buf.nextType ∉ aKeyElements) :
    aKeyTurn start len scan = match scan.buf.advance (4 + scan.buf.ntohs 2) with
      | none => .leave scan
      | some next =>
        if start + len ≤ next.pos then .leave { scan with buf := next } else .again { scan with buf := next } := by
  simp only [aKeyElements, List.mem_cons, List.not_mem_nil, or_false, not_or] at other
  obtain ⟨lifetime, rekey, cert, wep, vendor⟩ := other
  unfold aKeyTurn
  dsimp only
  rewrite [if_neg some_, if_neg lifetime, if_neg rekey, if_neg cert, if_neg wep, if_neg index, if_neg vendor]
  rfl

theorem aKeyTurn_ends {len : Nat}
    (ends : scan.buf.nextType = 0 ∨ scan.buf.nextType = wpsIdNwKeyIndex) : aKeyTurn start len scan = .leave scan := by
  unfold aKeyTurn
  dsimp only
  rcases ends with none_ | index
  · rw [if_pos none_]
  · rw [if_neg (by rw [index]; decide), if_neg (by rw [index]; decide), if_neg (by rw [index]; decide),
      if_neg (by rw [index]; decide), if_neg (by rw [index]; decide), if_pos index]

theorem aKeyStep_element {stop : Nat} (element : b.nextType ∈ aKeyElements) (whole : ¬AKeyBroken b) :
    aKeyStep stop b = some (b.past (b.ntohs 2)) := by
  have notEnd : ¬(b.nextType = 0 ∨ b.nextType = wpsIdNwKeyIndex ∨ AKeyBroken b) := by
    rintro (none_ | index | broken)
    · rw [none_] at element
      exact absurd element (by decide)
    · rw [index] at element
      exact absurd element (by decide)
    · exact whole broken
  have fits : ¬CutOff b := fun cut => whole ⟨element, Or.inl cut⟩
  rw [aKeyStep, if_neg notEnd, advance_past fits, Option.filter_some, if_pos (by simp [element])]

theorem aKey_follows (start len : Nat) :
    Follows (aKeyTurn start len) CredentialScan.buf (aKeyStep (start + len)) AKeyBroken := by
  refine ⟨?_, ?_, ?_⟩
  · intro scan next stepped
    by_cases element : scan.buf.nextType ∈ aKeyElements
    · have whole : ¬AKeyBroken scan.buf := by
        intro broken
        rw [aKeyStep, if_pos (Or.inr (Or.inr broken))] at stepped
        cases stepped
      rw [aKeyStep_element element whole] at stepped
      cases stepped
      obtain ⟨credential, goesOn⟩ := @aKeyTurn_element start len _ element
      refine ⟨_, goesOn, ?_⟩
      rw [aKeyBehind, if_neg whole]
    · unfold aKeyStep at stepped
      split at stepped
      · cases stepped
      rename_i notEnd
      obtain ⟨some_, notEnd⟩ := not_or.mp notEnd
      obtain ⟨index, _⟩ := not_or.mp notEnd
      obtain ⟨moved, inside⟩ := Option.filter_eq_some_iff.mp stepped
      have before : next.pos < start + len := by simpa [element] using inside
      refine ⟨⟨scan.credential, next⟩, ?_, rfl⟩
      rw [aKeyTurn_other some_ index element, moved]
      exact if_neg (by omega)
  · intro scan broken
    obtain ⟨credential, goesOn⟩ := @aKeyTurn_element start len _ broken.1
    refine ⟨_, goesOn, ?_⟩
    rw [aKeyBehind, if_pos broken]
  · intro scan after goesOn
    by_cases element : scan.buf.nextType ∈ aKeyElements
    · by_cases broken : AKeyBroken scan.buf
      · exact Or.inr broken
      · left
        obtain ⟨credential, also⟩ := @aKeyTurn_element start len _ element
        cases goesOn.symm.trans also
        rw [aKeyStep_element element broken, aKeyBehind, if_neg broken]
    · left
      by_cases ends : scan.buf.nextType = 0 ∨ scan.buf.nextType = wpsIdNwKeyIndex
      · rw [aKeyTurn_ends ends] at goesOn
        cases goesOn
      obtain ⟨some_, index⟩ := not_or.mp ends
      rw [aKeyTurn_other some_ index element] at goesOn
      split at goesOn
      · cases goesOn
      rename_i next moved
      split at goesOn
      · cases goesOn
      rename_i inside
      cases goesOn
      have notEnd : ¬(scan.buf.nextType = 0 ∨ scan.buf.nextType = wpsIdNwKeyIndex ∨ AKeyBroken scan.buf) := by
        rintro (none_ | same | broken)
        · exact some_ none_
        · exact index same
        · exact element broken.1
      rw [aKeyStep, if_neg notEnd, moved, Option.filter_some, if_pos]
      rw [decide_eq_true_eq]
      exact Or.inr (by omega)

theorem aKeyStep_smaller {stop : Nat} {next : BufferObj} (stepped : aKeyStep stop b = some next) :
    next.remaining < b.remaining := by
  unfold aKeyStep at stepped
  split at stepped
  · cases stepped
  obtain ⟨moved, _⟩ := Option.filter_eq_some_iff.mp stepped
  have less := BufferObj.advance_remaining moved
  omega

/-- Where the loop leaves: at the end, at a key index, at an attribute that is cut off, or
behind the credential. -/
structure AKeyLeft (stop : Nat) (begun after : BufferObj) : Prop where
  kept : begun.Kept after
  reason : after.nextType = 0 ∨ after.nextType = wpsIdNwKeyIndex ∨ CutOff after ∨ stop ≤ after.pos

theorem aKey_left {len : Nat} {after : CredentialScan}
    (done : loopFor (aKeyTurn start len) turns scan = some after) : AKeyLeft (start + len) scan.buf after.buf := by
  have turn : ∀ state next : CredentialScan, scan.buf.Kept state.buf → aKeyTurn start len state = .again next →
      scan.buf.Kept next.buf := by
    intro state next kept goesOn
    rcases (aKey_follows start len).stepped state next goesOn with stepped | broken
    · unfold aKeyStep at stepped
      split at stepped
      · cases stepped
      · exact kept.trans (.advance (Option.filter_eq_some_iff.mp stepped).1)
    · obtain ⟨credential, also⟩ := @aKeyTurn_element start len _ broken.1
      cases goesOn.symm.trans also
      rw [aKeyBehind, if_pos broken]
      exact kept
  have ends : ∀ state result : CredentialScan, scan.buf.Kept state.buf → aKeyTurn start len state = .leave result →
      AKeyLeft (start + len) scan.buf result.buf := by
    intro state result kept left
    by_cases finished : state.buf.nextType = 0 ∨ state.buf.nextType = wpsIdNwKeyIndex
    · rw [aKeyTurn_ends finished] at left
      cases left
      exact ⟨kept, finished.imp_right Or.inl⟩
    by_cases element : state.buf.nextType ∈ aKeyElements
    · obtain ⟨credential, goesOn⟩ := @aKeyTurn_element start len _ element
      cases goesOn.symm.trans left
    obtain ⟨some_, index⟩ := not_or.mp finished
    rw [aKeyTurn_other some_ index element] at left
    split at left
    · rename_i cut
      cases left
      exact ⟨kept, Or.inr (Or.inr (Or.inl (BufferObj.advance_eq_none.mp cut)))⟩
    rename_i next moved
    split at left
    · rename_i beyond
      cases left
      exact ⟨kept.trans (.advance moved), Or.inr (Or.inr (Or.inr beyond))⟩
    · cases left
  have held := Loop.loopFor_invariant turn ends (BufferObj.Kept.refl _) done
  exact held

end

/-- What is read in order at the start of a credential. -/
def credentialInOrder : List Nat := [wpsIdNwIndex, wpsIdSsid, wpsIdAuthType, wpsIdEncrType]

/-- What is read in order at the start of a network key. -/
def aKeyInOrder : List Nat :=
  [wpsIdNwKey, wpsIdMacAddr, wpsIdEapType, wpsIdEapIdentity, wpsIdKeyProvidedAuto, wpsId8021xEnabled]

/-- The first network key, if its index is there. -/
def indexedBegin (scan : CredentialScan) : CredentialScan :=
  let index := tlvDserializeByte scan.credential.nwKeyIndex wpsIdNwKeyIndex scan.buf
  aKeyBegin ⟨{ scan.credential with nwKeyIndex := index.value }, index.buf⟩

/-- A network key without an index. -/
def plainBegin (scan : CredentialScan) : CredentialScan :=
  aKeyBegin ⟨{ scan.credential with nwKeyIndex := 1 }, scan.buf⟩

/-- Where the attributes in any order start, if a network key is read. -/
def aKeyStart (stop : Nat) (head : BufferObj) : Option BufferObj :=
  if head.nextType = wpsIdNwKeyIndex then some (head.behindAll (wpsIdNwKeyIndex :: aKeyInOrder))
  else if head.pos < stop ∧ head.nextType = wpsIdNwKey then some (head.behindAll aKeyInOrder)
  else none

section

variable {b place : BufferObj} {len : Nat}

theorem credentialHead_buf (b : BufferObj) : (credentialHead .unset b).buf = b.behindAll credentialInOrder := by
  unfold credentialHead
  dsimp only
  rw [tlvDserializeShort_buf, tlvDserializeShort_buf, tlvDserializeCopy_buf, tlvDserializeByte_buf]
  simp only [BufferObj.behindAll, credentialInOrder, List.foldl_cons, List.foldl_nil]

theorem aKeyBegin_buf (scan : CredentialScan) : (aKeyBegin scan).buf = scan.buf.behindAll aKeyInOrder := by
  unfold aKeyBegin
  dsimp only
  rw [byteParse_buf, byteParse_buf, copyParse_buf, copyParse_buf, tlvDserializeCopy_buf, tlvDserializeCopy_buf]
  simp only [BufferObj.behindAll, aKeyInOrder, List.foldl_cons, List.foldl_nil]

theorem indexedBegin_buf (scan : CredentialScan) :
    (indexedBegin scan).buf = scan.buf.behindAll (wpsIdNwKeyIndex :: aKeyInOrder) := by
  unfold indexedBegin
  dsimp only
  rw [aKeyBegin_buf, tlvDserializeByte_buf, BufferObj.behindAll, BufferObj.behindAll, List.foldl_cons]

theorem plainBegin_buf (scan : CredentialScan) : (plainBegin scan).buf = scan.buf.behindAll aKeyInOrder := by
  unfold plainBegin
  rw [aKeyBegin_buf]

theorem behindAll_cutOff (cut : CutOff b) (types : List Nat) : b.behindAll types = b := by
  induction types with
  | nil => rfl
  | cons theType types ih =>
    rw [BufferObj.behindAll, List.foldl_cons, behind_cutOff cut]
    exact ih

theorem indexedKeyParse_eq (turns start len : Nat) (scan : CredentialScan) : indexedKeyParse turns start len scan =
    if scan.buf.nextType = wpsIdNwKeyIndex then loopFor (aKeyTurn start len) turns (indexedBegin scan)
    else some scan := rfl

theorem tlvCredentialParse_eq (turns : Nat) (parsed : cplxtlvParseHdr wpsIdCredential b 0 = some (len, place)) :
    tlvCredentialParse turns b = (indexedKeyParse turns place.pos len (credentialHead .unset place)).bind fun scan =>
      (if scan.buf.pos < place.pos + len ∧ scan.buf.nextType = wpsIdNwKey then
        loopFor (aKeyTurn place.pos len) turns (plainBegin scan) else some scan).map fun scan =>
          ⟨scan.credential, scan.buf.set (place.pos + len)⟩ := by
  unfold tlvCredentialParse tlvCredentialParseInto
  rw [parsed]
  rfl

theorem second_key {turns stop start len : Nat} {begun : BufferObj} {after : CredentialScan}
    (left : AKeyLeft stop begun after.buf) (inside : after.buf.pos < stop) (type : after.buf.nextType = wpsIdNwKey) :
    (plainBegin after).buf = after.buf ∧
      loopFor (aKeyTurn start len) (turns + 1) (plainBegin after) = some (plainBegin after) := by
  have cut : CutOff after.buf := by
    rcases left.reason with none_ | index | cut | beyond
    · rw [type] at none_
      exact absurd none_ (by decide)
    · rw [type] at index
      exact absurd index (by decide)
    · exact cut
    · omega
  have same : (plainBegin after).buf = after.buf := by rw [plainBegin_buf, behindAll_cutOff cut]
  refine ⟨same, Loop.loopFor_leave ?_⟩
  rw [aKeyTurn_other (by rw [same, type]; decide) (by rw [same, type]; decide) (by rw [same, type]; decide), same,
    advance_cutOff cut]

/-- The header of a credential that can be parsed. -/
theorem credentialHdr_some (parsed : cplxtlvParseHdr wpsIdCredential b 0 = some (len, place)) :
    b.nextType = wpsIdCredential ∧ ¬CutOff b ∧ len = b.ntohs 2 ∧ b.Kept place ∧ place.pos = b.pos + 4 := by
  unfold cplxtlvParseHdr at parsed
  split at parsed
  · cases parsed
  rename_i long
  split at parsed
  · cases parsed
  rename_i type
  split at parsed
  · cases parsed
  split at parsed
  · cases parsed
  rename_i whole
  cases parsed
  refine ⟨?_, ?_, rfl, ⟨?_, rfl, rfl⟩, ?_⟩
  · rw [BufferObj.nextType, if_neg long]
    exact (not_not.mp type).symm
  · unfold CutOff
    omega
  · rw [BufferObj.bytes, BufferObj.bytes, List.append_assoc, List.take_append_drop]
  · unfold BufferObj.remaining at long
    rw [BufferObj.pos, List.length_append, List.length_take, BufferObj.pos]
    omega

theorem set_past {scan : BufferObj} (kept : b.Kept scan) :
    scan.set (b.pos + 4 + b.ntohs 2) = b.past (b.ntohs 2) := by
  have before : b.bytes.take (b.pos + 4 + b.ntohs 2) = b.before ++ b.rest.take (4 + b.ntohs 2) := by
    rw [BufferObj.bytes, Nat.add_assoc, BufferObj.pos, List.take_append]
    simp
  have behind : b.bytes.drop (b.pos + 4 + b.ntohs 2) = b.rest.drop (4 + b.ntohs 2) := by
    rw [BufferObj.bytes, Nat.add_assoc, BufferObj.pos, List.drop_append]
    simp
  obtain ⟨bytes, dataLength, around⟩ := kept
  cases scan
  dsimp only at dataLength around
  subst dataLength around
  rw [BufferObj.set, bytes, before, behind, BufferObj.past]

/-- A network key of the credential has an attribute at which the loop stays. -/
def CredentialEndless (b : BufferObj) : Prop :=
  ∃ len place start, cplxtlvParseHdr wpsIdCredential b 0 = some (len, place) ∧
    aKeyStart (place.pos + len) (place.behindAll credentialInOrder) = some start ∧
    Comes (aKeyStep (place.pos + len)) AKeyBroken start

theorem aKey_bounded {len : Nat} (kept : b.Kept scan.buf)
    (free : ¬Comes (aKeyStep (start + len)) AKeyBroken scan.buf) :
    ∃ after, (∀ turns, b.bytes.length + 1 ≤ turns → loopFor (aKeyTurn start len) turns scan = some after) ∧
      AKeyLeft (start + len) scan.buf after.buf := by
  obtain ⟨after, done⟩ := (aKey_follows start len).bounded BufferObj.remaining (fun _ _ => aKeyStep_smaller) scan free
  have few : scan.buf.remaining ≤ b.bytes.length := by
    rw [← kept.bytes, BufferObj.bytes, List.length_append]
    exact Nat.le_add_left _ _
  exact ⟨after, fun turns enough => Loop.loopFor_mono done (by omega), aKey_left done⟩

theorem credential_endless (endless : CredentialEndless b) (turns : Nat) : tlvCredentialParse turns b = none := by
  obtain ⟨len, place, start, parsed, begun, comes⟩ := endless
  have head := credentialHead_buf place
  rw [tlvCredentialParse_eq turns parsed, indexedKeyParse_eq]
  rw [← head] at begun
  unfold aKeyStart at begun
  by_cases index : (credentialHead .unset place).buf.nextType = wpsIdNwKeyIndex
  · rw [if_pos index, ← indexedBegin_buf] at begun
    rw [← Option.some.inj begun] at comes
    rw [if_pos index, (aKey_follows place.pos len).endless comes turns]
    rfl
  · rw [if_neg index] at begun
    by_cases plain : (credentialHead .unset place).buf.pos < place.pos + len ∧
      (credentialHead .unset place).buf.nextType = wpsIdNwKey
    · rw [if_pos plain, ← plainBegin_buf] at begun
      rw [← Option.some.inj begun] at comes
      rw [if_neg index, Option.bind_some, if_pos plain, (aKey_follows place.pos len).endless comes turns]
      rfl
    · rw [if_neg plain] at begun
      cases begun

theorem credential_ends (free : ¬CredentialEndless b) : ∃ scan,
    (∀ turns, b.bytes.length + 1 ≤ turns → tlvCredentialParse turns b = some scan) ∧
      scan.buf = match cplxtlvParseHdr wpsIdCredential b 0 with
        | none => b
        | some _ => b.past (b.ntohs 2) := by
  cases parsed : cplxtlvParseHdr wpsIdCredential b 0 with
  | none =>
    refine ⟨⟨.unset, b⟩, fun turns _ => ?_, rfl⟩
    unfold tlvCredentialParse tlvCredentialParseInto
    rw [parsed]
  | some header =>
    obtain ⟨len, place⟩ := header
    obtain ⟨_, _, rfl, kept, pos⟩ := credentialHdr_some parsed
    have head := credentialHead_buf place
    have headKept : b.Kept (credentialHead .unset place).buf := by
      rw [head]
      exact kept.trans (behindAll_kept _)
    have final : ∀ scan : CredentialScan, b.Kept scan.buf →
        scan.buf.set (place.pos + b.ntohs 2) = b.past (b.ntohs 2) := by
      intro scan still
      rw [pos]
      exact set_past still
    by_cases index : (credentialHead .unset place).buf.nextType = wpsIdNwKeyIndex
    · have begun : (indexedBegin (credentialHead .unset place)).buf =
          (place.behindAll credentialInOrder).behindAll (wpsIdNwKeyIndex :: aKeyInOrder) := by
        rw [indexedBegin_buf, head]
      have none_ : ¬Comes (aKeyStep (place.pos + b.ntohs 2)) AKeyBroken
          (indexedBegin (credentialHead .unset place)).buf := by
        rw [begun]
        intro comes
        exact free ⟨_, place, _, parsed, if_pos (head ▸ index), comes⟩
      have beginKept : b.Kept (indexedBegin (credentialHead .unset place)).buf := by
        rw [begun, ← head]
        exact headKept.trans (behindAll_kept _)
      obtain ⟨after, done, left⟩ := aKey_bounded beginKept none_
      have afterKept := beginKept.trans left.kept
      by_cases again : after.buf.pos < place.pos + b.ntohs 2 ∧ after.buf.nextType = wpsIdNwKey
      · have second := fun turns => @second_key turns _ place.pos (b.ntohs 2) _ _ left again.1 again.2
        refine ⟨⟨(plainBegin after).credential, (plainBegin after).buf.set (place.pos + b.ntohs 2)⟩,
          fun turns enough => ?_, ?_⟩
        · obtain ⟨more, rfl⟩ := Nat.exists_eq_add_of_le' (Nat.lt_of_lt_of_le (Nat.succ_pos _) enough)
          rw [tlvCredentialParse_eq _ parsed, indexedKeyParse_eq, if_pos index, done _ enough, Option.bind_some,
            if_pos again, (second more).2]
          rfl
        · refine final _ ?_
          rw [(second 0).1]
          exact afterKept
      · refine ⟨⟨after.credential, after.buf.set (place.pos + b.ntohs 2)⟩, fun turns enough => ?_, final _ afterKept⟩
        rw [tlvCredentialParse_eq _ parsed, indexedKeyParse_eq, if_pos index, done _ enough, Option.bind_some,
          if_neg again]
        rfl
    · by_cases plain : (credentialHead .unset place).buf.pos < place.pos + b.ntohs 2 ∧
          (credentialHead .unset place).buf.nextType = wpsIdNwKey
      · have begun : (plainBegin (credentialHead .unset place)).buf =
            (place.behindAll credentialInOrder).behindAll aKeyInOrder := by
          rw [plainBegin_buf, head]
        have none_ : ¬Comes (aKeyStep (place.pos + b.ntohs 2)) AKeyBroken
            (plainBegin (credentialHead .unset place)).buf := by
          rw [begun]
          intro comes
          refine free ⟨_, place, _, parsed, ?_, comes⟩
          rw [head] at index plain
          rw [aKeyStart, if_neg index, if_pos plain]
        have beginKept : b.Kept (plainBegin (credentialHead .unset place)).buf := by
          rw [begun, ← head]
          exact headKept.trans (behindAll_kept _)
        obtain ⟨after, done, left⟩ := aKey_bounded beginKept none_
        refine ⟨⟨after.credential, after.buf.set (place.pos + b.ntohs 2)⟩, fun turns enough => ?_,
          final _ (beginKept.trans left.kept)⟩
        rw [tlvCredentialParse_eq _ parsed, indexedKeyParse_eq, if_neg index, Option.bind_some, if_pos plain,
          done _ enough]
        rfl
      · refine ⟨⟨(credentialHead .unset place).credential,
          (credentialHead .unset place).buf.set (place.pos + b.ntohs 2)⟩,
          fun turns enough => ?_, final _ headKept⟩
        rw [tlvCredentialParse_eq _ parsed, indexedKeyParse_eq, if_neg index, Option.bind_some, if_neg plain]
        rfl

end

/-- A place where `tlv_credentialParse` looks for its next attribute, behind the header
whose credential has `len` bytes. -/
inductive CredentialAt (len : Nat) (place : BufferObj) : BufferObj → Prop
  | head : CredentialAt len place (credentialHead .unset place).buf
  | indexed {visited : CredentialScan} (index : (credentialHead .unset place).buf.nextType = wpsIdNwKeyIndex)
    (visits : Visits (aKeyTurn place.pos len) (indexedBegin (credentialHead .unset place)) visited) :
    CredentialAt len place visited.buf
  | plain {turns : Nat} {scan visited : CredentialScan}
    (parsed : indexedKeyParse turns place.pos len (credentialHead .unset place) = some scan)
    (inside : scan.buf.pos < place.pos + len) (type : scan.buf.nextType = wpsIdNwKey)
    (visits : Visits (aKeyTurn place.pos len) (plainBegin scan) visited) : CredentialAt len place visited.buf

/-- A credential is parsed to its end, from its own bytes. -/
structure CredentialParsed (b : BufferObj) : Prop where
  ends : ∃ scan, Settles (fun turns => tlvCredentialParse turns b) (some scan)
  inside : ∀ len place, cplxtlvParseHdr wpsIdCredential b 0 = some (len, place) →
    ∀ stands, CredentialAt len place stands → stands.pos ≤ place.pos + len

/-- The attributes of a credential are whole where they are read, and none of them is
behind its end. -/
def CredentialWhole (b : BufferObj) : Prop :=
  ∀ len place, cplxtlvParseHdr wpsIdCredential b 0 = some (len, place) →
    (place.behindAll credentialInOrder).pos ≤ place.pos + len ∧
    ∀ start, aKeyStart (place.pos + len) (place.behindAll credentialInOrder) = some start →
      ¬Comes (aKeyStep (place.pos + len)) (fun b => AKeyBroken b ∨ place.pos + len < b.pos) start

section

variable {b place : BufferObj} {len : Nat}

theorem credential_ends_iff :
    (∃ scan, Settles (fun turns => tlvCredentialParse turns b) (some scan)) ↔ ¬CredentialEndless b := by
  constructor
  · rintro ⟨scan, enough, settled⟩ endless
    have done := settled enough (Nat.le_refl _)
    dsimp only at done
    rw [credential_endless endless] at done
    cases done
  · intro free
    obtain ⟨scan, done, _⟩ := credential_ends free
    exact ⟨scan, _, done⟩

theorem visits_inside_iff {len : Nat} (scan : CredentialScan) :
    (∀ visited, Visits (aKeyTurn start len) scan visited → visited.buf.pos ≤ start + len) ↔
      ¬Comes (aKeyStep (start + len)) (fun b => start + len < b.pos) scan.buf := by
  rw [← (aKey_follows start len).visits_iff]
  exact forall_congr' fun visited => forall_congr' fun _ => Nat.not_lt.symm

theorem plain_inside_iff (scan : CredentialScan) :
    (∀ visited, Visits (aKeyTurn place.pos len) (plainBegin scan) visited → visited.buf.pos ≤ place.pos + len) ↔
      ¬Comes (aKeyStep (place.pos + len)) (fun b => place.pos + len < b.pos) (scan.buf.behindAll aKeyInOrder) := by
  rw [← plainBegin_buf]
  exact visits_inside_iff _

theorem indexed_inside_iff (scan : CredentialScan) :
    (∀ visited, Visits (aKeyTurn place.pos len) (indexedBegin scan) visited → visited.buf.pos ≤ place.pos + len) ↔
      ¬Comes (aKeyStep (place.pos + len)) (fun b => place.pos + len < b.pos)
        (scan.buf.behindAll (wpsIdNwKeyIndex :: aKeyInOrder)) := by
  rw [← indexedBegin_buf]
  exact visits_inside_iff _

/-- A second key is not read, so the place stays where it was. -/
theorem second_inside {visited : CredentialScan} (index : (credentialHead .unset place).buf.nextType = wpsIdNwKeyIndex)
    (parsed : indexedKeyParse turns place.pos len (credentialHead .unset place) = some scan)
    (inside : scan.buf.pos < place.pos + len) (type : scan.buf.nextType = wpsIdNwKey)
    (visits : Visits (aKeyTurn place.pos len) (plainBegin scan) visited) : visited.buf.pos ≤ place.pos + len := by
  rw [indexedKeyParse_eq, if_pos index] at parsed
  obtain ⟨same, leaves⟩ := @second_key 0 _ place.pos len _ _ (aKey_left parsed) inside type
  have left : aKeyTurn place.pos len (plainBegin scan) = .leave (plainBegin scan) := by
    cases turn : aKeyTurn place.pos len (plainBegin scan) with
    | again next =>
      rw [Loop.loopFor_again turn] at leaves
      cases leaves
    | leave result =>
      rw [Loop.loopFor_leave turn] at leaves
      exact congrArg Turn.leave (Option.some.inj leaves)
  have here : visited = plainBegin scan := by
    induction visits with
    | start => rfl
    | again before goesOn ih =>
      rw [ih] at goesOn
      cases goesOn.symm.trans left
  rw [here, same]
  exact inside.le

theorem credential_inside_iff : (∀ stands, CredentialAt len place stands → stands.pos ≤ place.pos + len) ↔
    (place.behindAll credentialInOrder).pos ≤ place.pos + len ∧
    ∀ start, aKeyStart (place.pos + len) (place.behindAll credentialInOrder) = some start →
      ¬Comes (aKeyStep (place.pos + len)) (fun b => place.pos + len < b.pos) start := by
  rw [← credentialHead_buf]
  constructor
  · intro inside
    refine ⟨inside _ .head, fun start begun => ?_⟩
    unfold aKeyStart at begun
    by_cases index : (credentialHead .unset place).buf.nextType = wpsIdNwKeyIndex
    · rw [if_pos index] at begun
      rw [← Option.some.inj begun, ← indexed_inside_iff]
      exact fun visited visits => inside _ (.indexed index visits)
    rw [if_neg index] at begun
    by_cases plain : (credentialHead .unset place).buf.pos < place.pos + len ∧
      (credentialHead .unset place).buf.nextType = wpsIdNwKey
    · rw [if_pos plain] at begun
      rw [← Option.some.inj begun, ← plain_inside_iff]
      intro visited visits
      refine inside _ (@CredentialAt.plain len place 0 _ _ ?_ plain.1 plain.2 visits)
      rw [indexedKeyParse_eq, if_neg index]
    · rw [if_neg plain] at begun
      cases begun
  · rintro ⟨head, starts⟩ stands at_
    cases at_ with
    | head => exact head
    | indexed index visits =>
      have free := starts _ (if_pos index)
      rw [← indexed_inside_iff] at free
      exact free _ visits
    | @plain turns scan visited parsed inside type visits =>
      by_cases index : (credentialHead .unset place).buf.nextType = wpsIdNwKeyIndex
      · exact second_inside index parsed inside type visits
      · rw [indexedKeyParse_eq, if_neg index] at parsed
        obtain rfl := Option.some.inj parsed
        have free := starts ((credentialHead .unset place).buf.behindAll aKeyInOrder) (by
          rw [aKeyStart, if_neg index, if_pos ⟨inside, type⟩])
        rw [← plain_inside_iff] at free
        exact free _ visits

theorem credentialParsed_iff : CredentialParsed b ↔ CredentialWhole b := by
  constructor
  · intro parsed len place header
    obtain ⟨head, inside⟩ := credential_inside_iff.mp (parsed.inside len place header)
    refine ⟨head, fun start begun comes => ?_⟩
    rcases Comes.or_iff.mp comes with broken | beyond
    · exact credential_ends_iff.mp parsed.ends ⟨len, place, start, header, begun, broken⟩
    · exact inside start begun beyond
  · intro whole
    constructor
    · refine credential_ends_iff.mpr ?_
      rintro ⟨len, place, start, header, begun, broken⟩
      exact (whole len place header).2 start begun (Comes.or_iff.mpr (Or.inl broken))
    · intro len place header
      obtain ⟨head, free⟩ := whole len place header
      exact credential_inside_iff.mpr ⟨head, fun start begun beyond =>
        free start begun (Comes.or_iff.mpr (Or.inr beyond))⟩

end

/-- A parser returns or crashes: its loops end. -/
def Ends {Value : Type} (run : Nat → Except Halt Value) : Prop :=
  ∃ outcome, Settles run outcome ∧ outcome ≠ .error .unfinished

namespace Ends

variable {Value Final : Type} {run first : Nat → Except Halt Value} {value : Value}
  {next : Nat → Value → Except Halt Final}

theorem of_finished {outcome : Except Halt Value} (finished : outcome ≠ .error .unfinished) : Ends fun _ => outcome :=
  ⟨outcome, .const _, finished⟩

theorem after_iff (settled : Settles first (.ok value)) :
    (Ends fun turns => first turns >>= next turns) ↔ Ends fun turns => next turns value := by
  constructor
  · rintro ⟨outcome, both, finished⟩
    exact ⟨outcome, settled.of_bind both, finished⟩
  · rintro ⟨outcome, rest, finished⟩
    exact ⟨outcome, settled.bind rest, finished⟩

theorem endless {Scan : Type} {loop : Nat → Option Scan} {next : Nat → Scan → Except Halt Final}
    (never : ∀ turns, loop turns = none) : ¬Ends fun turns => orUnfinished (loop turns) >>= next turns := by
  rintro ⟨outcome, done, finished⟩
  have unfinished : Settles (fun turns => orUnfinished (loop turns) >>= next turns) (.error .unfinished) := by
    refine ⟨0, fun turns _ => ?_⟩
    dsimp only
    rw [never]
    rfl
  exact finished (done.unique unfinished)

end Ends

theorem checkKeyWrapAuth_finished (hmac : Hmac) (authKey : Bytes) (b : BufferObj) :
    checkKeyWrapAuth hmac authKey b ≠ .error .unfinished := by
  unfold checkKeyWrapAuth
  dsimp only
  cases read : (tlvDserialize .unset wpsIdKeyWrapAuth b 8).buf.read
      (tlvDserialize .unset wpsIdKeyWrapAuth b 8).value.data 8 with
  | ok received =>
    intro same
    cases same
  | error halt =>
    unfold BufferObj.read at read
    split at read
    · split at read
      · cases read
      · cases read
        intro same
        cases same
    · cases read
    · cases read

theorem bind_finished {Value Final : Type} {first : Except Halt Value} {next : Value → Except Halt Final}
    (one : first ≠ .error .unfinished) (two : ∀ value, next value ≠ .error .unfinished) :
    first >>= next ≠ .error .unfinished := by
  cases first with
  | ok value => exact two value
  | error halt => exact fun same => one (congrArg Except.error (Except.error.inj same))

theorem skip_check_ends {Es : Type} (hmac : Hmac) (authKey : Bytes) (es : Es) (b : BufferObj) :
    Ends fun turns => orUnfinished (loopFor (skipTurn wpsIdKeyWrapAuth) turns b) >>= fun found =>
      match found with
      | none => .ok es
      | some b => checkKeyWrapAuth hmac authKey b >>= fun _ => .ok es := by
  obtain ⟨found, left⟩ := skip_leaves wpsIdKeyWrapAuth b
  refine (Ends.after_iff (Settles.map (Settles.loop left) orUnfinished)).mpr ?_
  cases found with
  | none => exact Ends.of_finished (by simp)
  | some b =>
    refine Ends.of_finished ?_
    dsimp only
    refine bind_finished (checkKeyWrapAuth_finished hmac authKey b) fun _ same => ?_
    cases same

/-- An index that is longer than the buffer. -/
def IndexCut (b : BufferObj) : Prop := b.nextType = wpsIdNwKeyIndex ∧ CutOff b

/-- From one pair of index and key to the next. -/
def keysStep (b : BufferObj) : Option BufferObj :=
  if b.nextType = wpsIdNwKeyIndex ∧ ¬CutOff b then some ((b.behind wpsIdNwKeyIndex).behind wpsIdNwKey) else none

/-- A WEP index that is longer than the buffer. -/
def WepCut (b : BufferObj) : Prop := b.nextType = wpsIdWepTransmitKey ∧ CutOff b

/-- From one attribute to the next on the way to the MAC. -/
def wepStep (b : BufferObj) : Option BufferObj :=
  if b.nextType = wpsIdKeyWrapAuth then none else b.advance (4 + b.ntohs 2)

/-- The keys come to an index that is cut off, or there is something wrong behind them. -/
def KeysStuck (later : BufferObj → Prop) (b : BufferObj) : Prop :=
  if b.nextType = wpsIdNwKey then later (b.behind wpsIdNwKey)
  else Comes keysStep (fun b => IndexCut b ∨ b.nextType ≠ wpsIdNwKeyIndex ∧ later b) b

section

variable {b : BufferObj}

theorem indexedKeyTurn_index {scan : KeyScan} (index : scan.buf.nextType = wpsIdNwKeyIndex) : ∃ failed keys,
    indexedKeyTurn scan = .again ⟨failed, keys, (scan.buf.behind wpsIdNwKeyIndex).behind wpsIdNwKey⟩ := by
  unfold indexedKeyTurn
  rw [if_neg (not_not.mpr index)]
  dsimp only
  rw [tlvDserializeCopy_buf, tlvDserializeByte_buf]
  exact ⟨_, _, rfl⟩

theorem keys_follow : Follows indexedKeyTurn KeyScan.buf keysStep IndexCut := by
  refine ⟨?_, ?_, ?_⟩
  · intro scan next stepped
    unfold keysStep at stepped
    split at stepped
    · rename_i whole
      obtain ⟨failed, keys, goesOn⟩ := indexedKeyTurn_index whole.1
      exact ⟨_, goesOn, Option.some.inj stepped⟩
    · cases stepped
  · rintro scan ⟨index, cut⟩
    obtain ⟨failed, keys, goesOn⟩ := indexedKeyTurn_index index
    refine ⟨_, goesOn, ?_⟩
    dsimp only
    rw [behind_cutOff cut, behind_cutOff cut]
  · intro scan after goesOn
    by_cases index : scan.buf.nextType = wpsIdNwKeyIndex
    · by_cases cut : CutOff scan.buf
      · exact Or.inr ⟨index, cut⟩
      · left
        obtain ⟨failed, keys, also⟩ := indexedKeyTurn_index index
        cases goesOn.symm.trans also
        exact if_pos ⟨index, cut⟩
    · unfold indexedKeyTurn at goesOn
      rw [if_pos index] at goesOn
      cases goesOn

theorem keysStep_smaller {next : BufferObj} (stepped : keysStep b = some next) : next.remaining < b.remaining := by
  unfold keysStep at stepped
  split at stepped
  · rename_i whole
    have same := Option.some.inj stepped
    have first := past_remaining whole.2
    rw [← behind_whole (by decide) whole.1 whole.2] at first
    have second := behind_remaining (b.behind wpsIdNwKeyIndex) wpsIdNwKey
    rw [← same]
    omega
  · cases stepped

theorem wep_follows : Follows wepSkipTurn Prod.snd wepStep WepCut := by
  have wepTurn : ∀ scan : UInt8 × BufferObj, scan.2.nextType = wpsIdWepTransmitKey →
      ∃ index, wepSkipTurn scan = .again (index, scan.2.behind wpsIdWepTransmitKey) := by
    intro scan type
    unfold wepSkipTurn
    rw [if_neg (by rw [type]; decide), if_pos type]
    dsimp only
    rw [tlvDserializeByte_buf]
    exact ⟨_, rfl⟩
  have otherTurn : ∀ scan : UInt8 × BufferObj, scan.2.nextType ≠ wpsIdKeyWrapAuth →
    scan.2.nextType ≠ wpsIdWepTransmitKey →
      (∀ next, scan.2.advance (4 + scan.2.ntohs 2) = some next → wepSkipTurn scan = .again (scan.1, next)) ∧
        (scan.2.advance (4 + scan.2.ntohs 2) = none → wepSkipTurn scan = .leave (scan.1, none)) := by
    intro scan auth wep
    unfold wepSkipTurn
    rw [if_neg auth, if_neg wep]
    exact ⟨fun next moved => by rw [moved], fun stays => by rw [stays]⟩
  refine ⟨?_, ?_, ?_⟩
  · intro scan next stepped
    unfold wepStep at stepped
    by_cases auth : scan.2.nextType = wpsIdKeyWrapAuth
    · rw [if_pos auth] at stepped
      cases stepped
    rw [if_neg auth] at stepped
    by_cases wep : scan.2.nextType = wpsIdWepTransmitKey
    · obtain ⟨index, goesOn⟩ := wepTurn scan wep
      refine ⟨_, goesOn, ?_⟩
      have whole : ¬CutOff scan.2 := by
        intro cut
        rw [advance_cutOff cut] at stepped
        cases stepped
      rw [advance_past whole] at stepped
      exact (behind_whole (by decide) wep whole).trans (Option.some.inj stepped)
    · exact ⟨(scan.1, next), (otherTurn scan auth wep).1 next stepped, rfl⟩
  · rintro scan ⟨wep, cut⟩
    obtain ⟨index, goesOn⟩ := wepTurn scan wep
    exact ⟨_, goesOn, behind_cutOff cut⟩
  · intro scan after goesOn
    by_cases auth : scan.2.nextType = wpsIdKeyWrapAuth
    · unfold wepSkipTurn at goesOn
      rw [if_pos auth] at goesOn
      cases goesOn
    rw [wepStep, if_neg auth]
    by_cases wep : scan.2.nextType = wpsIdWepTransmitKey
    · by_cases cut : CutOff scan.2
      · exact Or.inr ⟨wep, cut⟩
      · left
        obtain ⟨index, also⟩ := wepTurn scan wep
        cases goesOn.symm.trans also
        rw [advance_past cut]
        exact congrArg some (behind_whole (by decide) wep cut).symm
    · left
      cases moved : scan.2.advance (4 + scan.2.ntohs 2) with
      | some next =>
        cases goesOn.symm.trans ((otherTurn scan auth wep).1 next moved)
        rfl
      | none => cases goesOn.symm.trans ((otherTurn scan auth wep).2 moved)

theorem wepStep_smaller {next : BufferObj} (stepped : wepStep b = some next) : next.remaining < b.remaining := by
  unfold wepStep at stepped
  split at stepped
  · cases stepped
  · have less := BufferObj.advance_remaining stepped
    omega

/-- What follows the keys ends exactly if the keys end and what is behind them does. -/
theorem keys_then_iff {Final : Type} {next : Nat → KeyScan → Except Halt Final} {later : BufferObj → Prop}
    (rest : ∀ scan, (Ends fun turns => next turns scan) ↔ ¬later scan.buf) :
    (Ends fun turns => orUnfinished (nwKeysParse turns b) >>= next turns) ↔ ¬KeysStuck later b := by
  unfold KeysStuck
  by_cases plain : b.nextType = wpsIdNwKey
  · have settled : Settles (fun turns => orUnfinished (nwKeysParse turns b))
        (.ok { failed := !(tlvDserializeCopy .unset wpsIdNwKey b 64).ok
               keys := ⟨[], [(tlvDserializeCopy .unset wpsIdNwKey b 64).value]⟩
               buf := (tlvDserializeCopy .unset wpsIdNwKey b 64).buf }) := by
      refine ⟨0, fun turns _ => ?_⟩
      unfold nwKeysParse
      dsimp only
      rw [if_pos plain]
      rfl
    rw [if_pos plain, Ends.after_iff settled, rest, tlvDserializeCopy_buf]
  have parse : ∀ turns, nwKeysParse turns b = loopFor indexedKeyTurn turns ⟨false, ⟨[], []⟩, b⟩ := by
    intro turns
    unfold nwKeysParse
    rw [if_neg plain]
  simp only [parse]
  rw [if_neg plain]
  let start : KeyScan := ⟨false, ⟨[], []⟩, b⟩
  change _ ↔ ¬Comes keysStep _ start.buf
  rw [Comes.or_iff, not_or]
  by_cases stuck : Comes keysStep IndexCut start.buf
  · exact iff_of_false (Ends.endless fun turns => keys_follow.endless stuck turns) (fun free => free.1 stuck)
  obtain ⟨scan, done⟩ := keys_follow.bounded BufferObj.remaining (fun _ _ => keysStep_smaller) start stuck
  have left : Leaves indexedKeyTurn start scan := ⟨_, done⟩
  have settled : Settles (fun turns => orUnfinished (loopFor indexedKeyTurn turns start)) (.ok scan) :=
    Settles.map (Settles.loop left) orUnfinished
  rw [Ends.after_iff settled, rest]
  obtain ⟨last, visits, leaves⟩ := left.visited
  have same : scan = last ∧ last.buf.nextType ≠ wpsIdNwKeyIndex := by
    unfold indexedKeyTurn at leaves
    split at leaves
    · rename_i other
      cases leaves
      exact ⟨rfl, other⟩
    · cases leaves
  constructor
  · intro fine
    refine ⟨stuck, fun comes => ?_⟩
    obtain ⟨visited, reached, other, wrong⟩ := (keys_follow.comes_iff start).mp comes
    have leavesToo : indexedKeyTurn visited = .leave visited := if_pos other
    have one := Loop.Leaves.unique left (reached.leaves leavesToo)
    subst one
    exact fine wrong
  · rintro ⟨_, fine⟩ wrong
    exact fine ((keys_follow.comes_iff start).mpr ⟨last, visits, same.2, same.1 ▸ wrong⟩)

end

/-- What is read in order before the keys, in the settings of an M7. -/
def m7InOrder : List Nat := [wpsIdESnonce2, wpsIdSsid, wpsIdMacAddr, wpsIdAuthType, wpsIdEncrType]

/-- What is read in order before the keys, in the settings of an M8. -/
def m8InOrder : List Nat := [wpsIdNwIndex, wpsIdSsid, wpsIdAuthType, wpsIdEncrType]

section

variable (hmac : Hmac) (authKey : Bytes) (b : BufferObj)

theorem m7ap_ends_iff : (Ends fun turns => regMsgM7apParse hmac turns b authKey) ↔
    ¬KeysStuck (Comes wepStep WepCut) (b.behindAll m7InOrder) := by
  have place : (tlvDserializeShort 0 wpsIdEncrType (tlvDserializeShort 0 wpsIdAuthType
      (tlvDserializeCopy .unset wpsIdMacAddr (tlvDserializeCopy .unset wpsIdSsid
        (tlvDserializeCopy .unset wpsIdESnonce2 b 16).buf 32).buf 6).buf).buf).buf = b.behindAll m7InOrder := by
    rw [tlvDserializeShort_buf, tlvDserializeShort_buf, tlvDserializeCopy_buf, tlvDserializeCopy_buf,
      tlvDserializeCopy_buf]
    rfl
  unfold regMsgM7apParse
  dsimp only
  rw [place]
  refine keys_then_iff fun scan => ?_
  by_cases stuck : Comes wepStep WepCut scan.buf
  · refine iff_of_false (Ends.endless fun turns => ?_) (not_not.mpr stuck)
    exact wep_follows.endless stuck turns
  refine iff_of_true ?_ stuck
  obtain ⟨skipped, done⟩ := wep_follows.bounded BufferObj.remaining (fun _ _ => wepStep_smaller) (1, scan.buf) stuck
  refine (Ends.after_iff (Settles.map (Settles.loop ⟨_, done⟩) orUnfinished)).mpr (Ends.of_finished ?_)
  unfold checkSettings
  split
  · simp
  · refine bind_finished (checkKeyWrapAuth_finished hmac authKey _) fun auth => ?_
    split
    · simp
    · split <;> simp

theorem nwIndexParse_buf : (nwIndexParse b).buf = b.behind wpsIdNwIndex := by
  unfold nwIndexParse
  split
  · exact tlvDserializeByte_buf 0
  · rename_i other
    exact (behind_other other).symm

theorem m8ap_ends_iff : (Ends fun turns => regMsgM8apParse hmac turns b authKey) ↔
    ¬KeysStuck (fun _ => False) (b.behindAll m8InOrder) := by
  have place : (tlvDserializeShort 0 wpsIdEncrType (tlvDserializeShort 0 wpsIdAuthType
      (tlvDserializeCopy .unset wpsIdSsid (nwIndexParse b).buf 32).buf).buf).buf = b.behindAll m8InOrder := by
    rw [tlvDserializeShort_buf, tlvDserializeShort_buf, tlvDserializeCopy_buf, nwIndexParse_buf]
    rfl
  unfold regMsgM8apParse
  dsimp only
  rw [place]
  refine keys_then_iff fun scan => iff_of_true ?_ not_false
  exact skip_check_ends hmac authKey _ _

/-- From one credential to the next. -/
def credentialStep (b : BufferObj) : Option BufferObj :=
  if b.nextType = wpsIdCredential then b.advance (4 + b.ntohs 2) else none

/-- A credential that is longer than the buffer, or in which the parser stays. -/
def CredentialStuck (b : BufferObj) : Prop := b.nextType = wpsIdCredential ∧ (CutOff b ∨ CredentialEndless b)

variable {authKey b}

theorem credentialHdr_none (type : b.nextType = wpsIdCredential) :
    cplxtlvParseHdr wpsIdCredential b 0 = none ↔ CutOff b := by
  obtain ⟨long, same⟩ := ntohs_of_nextType (by decide) type
  unfold cplxtlvParseHdr CutOff
  rw [if_neg (by omega), if_neg (not_not.mpr same.symm), if_neg (Nat.not_lt_zero _)]
  split
  · rename_i cut
    exact iff_of_true rfl (by omega)
  · rename_i whole
    exact iff_of_false (by simp) (by omega)

theorem credentialHdr_other (other : b.nextType ≠ wpsIdCredential) : cplxtlvParseHdr wpsIdCredential b 0 = none := by
  cases parsed : cplxtlvParseHdr wpsIdCredential b 0 with
  | none => rfl
  | some header =>
    obtain ⟨len, place⟩ := header
    exact absurd (credentialHdr_some parsed).1 other

theorem credential_whole (type : b.nextType = wpsIdCredential) (free : ¬CredentialStuck b) :
    ∃ scan, (∀ turns, b.bytes.length + 1 ≤ turns → tlvCredentialParse turns b = some scan) ∧
      credentialStep b = some scan.buf := by
  have whole : ¬CutOff b := fun cut => free ⟨type, Or.inl cut⟩
  obtain ⟨scan, done, buf⟩ := credential_ends fun endless => free ⟨type, Or.inr endless⟩
  refine ⟨scan, done, ?_⟩
  rw [credentialStep, if_pos type, advance_past whole]
  cases parsed : cplxtlvParseHdr wpsIdCredential b 0 with
  | none => exact absurd ((credentialHdr_none type).mp parsed) whole
  | some header =>
    rw [parsed] at buf
    exact congrArg some buf.symm

theorem indexedKeyParse_mono {more len : Nat} {after : CredentialScan}
    (done : indexedKeyParse turns start len scan = some after) (enough : turns ≤ more) :
    indexedKeyParse more start len scan = some after := by
  rw [indexedKeyParse_eq] at done ⊢
  split at done
  · rename_i index
    rw [if_pos index, Loop.loopFor_mono done enough]
  · rename_i index
    rw [if_neg index, done]

theorem tlvCredentialParse_mono {more : Nat}
    (done : tlvCredentialParse turns b = some scan) (enough : turns ≤ more) :
    tlvCredentialParse more b = some scan := by
  cases parsed : cplxtlvParseHdr wpsIdCredential b 0 with
  | none =>
    unfold tlvCredentialParse tlvCredentialParseInto at done ⊢
    rw [parsed] at done ⊢
    exact done
  | some header =>
    obtain ⟨len, place⟩ := header
    rw [tlvCredentialParse_eq _ parsed] at done ⊢
    obtain ⟨first, indexed, rest⟩ := Option.bind_eq_some_iff.mp done
    rw [indexedKeyParse_mono indexed enough, Option.bind_some]
    obtain ⟨last, read, same⟩ := Option.map_eq_some_iff.mp rest
    split at read
    · rename_i again
      rw [if_pos again, Loop.loopFor_mono read enough]
      exact congrArg some same
    · rename_i again
      rw [if_neg again, read]
      exact congrArg some same

/-- The loop over further credentials ends if none is stuck. -/
theorem credentials_end (read : List Credential × BufferObj) (free : ¬Comes credentialStep CredentialStuck read.2) :
    ∃ result, ∀ turns fuel, read.2.bytes.length + 1 ≤ turns → read.2.remaining + 1 ≤ fuel →
      loopFor (credentialTurn turns) fuel read = some (some result) := by
  induction size : read.2.remaining using Nat.strong_induction_on generalizing read with
  | _ size ih =>
    by_cases type : read.2.nextType = wpsIdCredential
    · obtain ⟨scan, done, stepped⟩ := credential_whole type fun stuck => free (.here stuck)
      have moved : read.2.advance (4 + read.2.ntohs 2) = some scan.buf := by
        rw [← stepped, credentialStep, if_pos type]
      have less := BufferObj.advance_remaining moved
      have bytes := BufferObj.advance_bytes moved
      obtain ⟨result, rest⟩ := ih scan.buf.remaining (by omega) (read.1 ++ [scan.credential], scan.buf)
        (fun comes => free (.later stepped comes)) rfl
      refine ⟨result, fun turns fuel enough long => ?_⟩
      obtain ⟨fuel, rfl⟩ := Nat.exists_eq_add_of_le' (Nat.lt_of_lt_of_le (Nat.succ_pos _) long)
      have goesOn : credentialTurn turns read = .again (read.1 ++ [scan.credential], scan.buf) := by
        rw [credentialTurn, if_pos type, done turns enough]
      rw [Loop.loopFor_again goesOn]
      exact rest turns fuel (by rw [bytes]; exact enough) (by omega)
    · refine ⟨read, fun turns fuel _ long => ?_⟩
      obtain ⟨fuel, rfl⟩ := Nat.exists_eq_add_of_le' (Nat.lt_of_lt_of_le (Nat.succ_pos _) long)
      exact Loop.loopFor_leave (if_neg type)

theorem credentials_endless {b : BufferObj} (comes : Comes credentialStep CredentialStuck b) (turns fuel : Nat)
    (read : List Credential) : (loopFor (credentialTurn turns) fuel (read, b)).join = none := by
  induction fuel generalizing b read with
  | zero => rfl
  | succ fuel ih =>
    have type : b.nextType = wpsIdCredential := by
      cases comes with
      | here stuck => exact stuck.1
      | later stepped _ =>
        unfold credentialStep at stepped
        split at stepped
        · rename_i type
          exact type
        · cases stepped
    by_cases endless : CredentialEndless b
    · have leaves : credentialTurn turns (read, b) = .leave none := by
        rw [credentialTurn, if_pos type, credential_endless endless]
      rw [Loop.loopFor_leave leaves]
      rfl
    cases parsed : tlvCredentialParse turns b with
    | none =>
      have leaves : credentialTurn turns (read, b) = .leave none := by
        rw [credentialTurn, if_pos type, parsed]
      rw [Loop.loopFor_leave leaves]
      rfl
    | some scan =>
      have goesOn : credentialTurn turns (read, b) = .again (read ++ [scan.credential], scan.buf) := by
        rw [credentialTurn, if_pos type, parsed]
      rw [Loop.loopFor_again goesOn]
      refine ih ?_ _
      cases comes with
      | here stuck =>
        have cut := stuck.2.resolve_right endless
        have same : tlvCredentialParse turns b = some ⟨.unset, b⟩ := by
          unfold tlvCredentialParse tlvCredentialParseInto
          rw [(credentialHdr_none type).mpr cut]
        cases parsed.symm.trans same
        exact .here stuck
      | later stepped comes =>
        have whole : ¬CutOff b := by
          intro cut
          rw [credentialStep, if_pos type, advance_cutOff cut] at stepped
          cases stepped
        obtain ⟨settled, done, step⟩ := credential_whole type fun stuck => stuck.2.elim whole endless
        have same := done _ (Nat.le_max_right turns _)
        rw [tlvCredentialParse_mono parsed (Nat.le_max_left _ _)] at same
        cases Option.some.inj same
        cases step.symm.trans stepped
        exact comes

theorem credentialsParse_endless (comes : Comes credentialStep CredentialStuck b) (turns : Nat) :
    credentialsParse turns b = none := by
  have looped := credentials_endless comes turns (turns + 1) []
  have type : b.nextType = wpsIdCredential := by
    cases comes with
    | here stuck => exact stuck.1
    | later stepped _ =>
      unfold credentialStep at stepped
      split at stepped
      · rename_i type
        exact type
      · cases stepped
  unfold credentialsParse
  cases parsed : tlvCredentialParse turns b with
  | none => rfl
  | some scan =>
    have goesOn : credentialTurn turns ([], b) = .again ([scan.credential], scan.buf) := by
      rw [credentialTurn, if_pos type, parsed]
      rfl
    rw [Loop.loopFor_again goesOn] at looped
    exact looped

theorem credentialsParse_ends (free : ¬Comes credentialStep CredentialStuck b) :
    ∃ read, Settles (fun turns => credentialsParse turns b) (some read) := by
  by_cases type : b.nextType = wpsIdCredential
  · obtain ⟨scan, done, stepped⟩ := credential_whole type fun stuck => free (.here stuck)
    obtain ⟨result, rest⟩ := credentials_end ([scan.credential], scan.buf) fun comes => free (.later stepped comes)
    refine ⟨result, max (b.bytes.length + 1) (max (scan.buf.bytes.length + 1) (scan.buf.remaining + 1)),
      fun turns enough => ?_⟩
    unfold credentialsParse
    dsimp only
    rw [done turns (by omega), Option.bind_some, rest turns turns (by dsimp only; omega) (by dsimp only; omega)]
    rfl
  · obtain ⟨result, rest⟩ := credentials_end ([Credential.unset], b) fun comes => free comes
    refine ⟨result, max (b.bytes.length + 1) (b.remaining + 1), fun turns enough => ?_⟩
    have first : tlvCredentialParse turns b = some ⟨.unset, b⟩ := by
      unfold tlvCredentialParse tlvCredentialParseInto
      rw [credentialHdr_other type]
    unfold credentialsParse
    dsimp only
    rw [first, Option.bind_some, rest turns turns (by dsimp only; omega) (by dsimp only; omega)]
    rfl

theorem m8sta_ends_iff : (Ends fun turns => regMsgM8staParse hmac turns b authKey) ↔
    ¬Comes credentialStep CredentialStuck b := by
  unfold regMsgM8staParse
  by_cases stuck : Comes credentialStep CredentialStuck b
  · exact iff_of_false (Ends.endless fun turns => credentialsParse_endless stuck turns) (not_not.mpr stuck)
  obtain ⟨read, settled⟩ := credentialsParse_ends stuck
  refine iff_of_true ((Ends.after_iff (Settles.map settled orUnfinished)).mpr ?_) stuck
  exact skip_check_ends hmac authKey _ _

end

/-- Parsing settings ends exactly if the loops come to no attribute that is cut off where
it would be read; a credential is read from its own bytes exactly if besides none is read
behind its end. -/
theorem settings_parsed_iff (hmac : Hmac) (authKey : Bytes) (b : BufferObj) :
    (CredentialParsed b ↔ CredentialWhole b) ∧
      ((Ends fun turns => regMsgM7apParse hmac turns b authKey) ↔
        ¬KeysStuck (Comes wepStep WepCut) (b.behindAll m7InOrder)) ∧
      ((Ends fun turns => regMsgM8apParse hmac turns b authKey) ↔
        ¬KeysStuck (fun _ => False) (b.behindAll m8InOrder)) ∧
      ((Ends fun turns => regMsgM8staParse hmac turns b authKey) ↔ ¬Comes credentialStep CredentialStuck b) :=
  ⟨credentialParsed_iff, m7ap_ends_iff hmac authKey b, m8ap_ends_iff hmac authKey b, m8sta_ends_iff hmac⟩

/-- A credential with a key whose lifetime is cut off. -/
def cutLifetime : BufferObj :=
  BufferObj.dserial (tlv wpsIdCredential (tlv wpsIdNwKey [1] ++ wpsHtons wpsIdKeyLifetime ++ [0xFF, 0xFF]))
    ⟨fun _ => 0, fun _ => 0⟩

/-- A credential with a key, and the lifetime of another key behind it. -/
def strayLifetime : BufferObj :=
  BufferObj.dserial (tlv wpsIdCredential (tlv wpsIdNwKey [1]) ++ tlv wpsIdKeyLifetime [0, 0, 0, 9])
    ⟨fun _ => 0, fun _ => 0⟩

theorem cutLifetime_broken : CredentialEndless cutLifetime := by
  have seen : (cplxtlvParseHdr wpsIdCredential cutLifetime 0).bind (fun header =>
      (aKeyStart (header.2.pos + header.1) (header.2.behindAll credentialInOrder)).map fun start =>
        decide (AKeyBroken start)) = some true := by decide +kernel
  obtain ⟨header, parsed, started⟩ := Option.bind_eq_some_iff.mp seen
  obtain ⟨start, begun, broken⟩ := Option.map_eq_some_iff.mp started
  exact ⟨header.1, header.2, start, parsed, begun, .here (of_decide_eq_true broken)⟩

theorem strayLifetime_strays : ¬CredentialWhole strayLifetime := by
  have seen : (cplxtlvParseHdr wpsIdCredential strayLifetime 0).bind (fun header =>
      (aKeyStart (header.2.pos + header.1) (header.2.behindAll credentialInOrder)).bind fun start =>
        (aKeyStep (header.2.pos + header.1) start).map fun next =>
          decide (header.2.pos + header.1 < next.pos)) = some true := by decide +kernel
  obtain ⟨header, parsed, started⟩ := Option.bind_eq_some_iff.mp seen
  obtain ⟨start, begun, moved⟩ := Option.bind_eq_some_iff.mp started
  obtain ⟨next, stepped, beyond⟩ := Option.map_eq_some_iff.mp moved
  intro whole
  exact (whole header.1 header.2 parsed).2 start begun (.later stepped (.here (Or.inr (of_decide_eq_true beyond))))

/-- The first credential is parsed for ever, and to the second the lifetime behind it is
given. -/
theorem cutLifetime_endless : ¬CredentialParsed cutLifetime ∧
    (∀ turns, tlvCredentialParse turns cutLifetime = none) ∧
    (tlvCredentialParse 3 strayLifetime).map (fun scan => scan.credential.keyLifetime) = some 9 ∧
    ¬CredentialParsed strayLifetime :=
  ⟨fun parsed => credential_ends_iff.mp parsed.ends cutLifetime_broken, credential_endless cutLifetime_broken,
    by decide +kernel, fun parsed => strayLifetime_strays (credentialParsed_iff.mp parsed)⟩

end BcmDhd.Wps
