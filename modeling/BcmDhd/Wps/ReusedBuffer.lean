import BcmDhd.Wps.RejectedM2
import BcmDhd.Wps.MessageAuthentication

namespace BcmDhd.Wps

open BcmDhd.Lib

/-- What was read has the bytes of the message, at a place behind its vendor extension. -/
structure FrontPlaced (msg : BufferObj) (front : Front) : Prop where
  kept : msg.Kept front.buf
  behind : ∀ ext, front.vendorExt = some ext → ext.vendorData + ext.dataLength ≤ front.buf.pos

section

variable {turns : Nat} {regInfo : RegData} {msg b : BufferObj} {front : Front}

theorem search_skipStart {version2 : UInt8} {vendor : Option VendorExt × BufferObj}
    (searched : orUnfinished (vendorExtSearch turns version2 b) = .ok vendor) : vendor = skipStart version2 b := by
  obtain ⟨enough, settled⟩ := vendorExtSearch_settles version2 b
  have more : orUnfinished (vendorExtSearch (max turns enough) version2 b) = .ok (skipStart version2 b) :=
    settled _ (Nat.le_max_right _ _)
  unfold vendorExtSearch at searched more
  split at searched
  · rename_i first
    rw [if_pos first] at more
    exact Except.ok.inj (searched.symm.trans more)
  rename_i first
  rw [if_neg first] at more
  unfold tlvFindVendorExtParse tlvFindVendorExtParseImp at searched more
  split at searched
  · rename_i nothing
    rw [if_pos nothing] at more
    exact Except.ok.inj (searched.symm.trans more)
  rename_i something
  rw [if_neg something] at more
  cases found : loopFor (findVendorIdTurn wfaVendorId) turns b.rewind with
  | none =>
    rw [found] at searched
    cases searched
  | some place =>
    rw [Loop.loopFor_mono found (Nat.le_max_left turns enough)] at more
    rw [found] at searched
    exact Except.ok.inj (searched.symm.trans more)

theorem skipTo_placed {read : Front} (kept : msg.Kept read.buf)
    (behind : ∀ ext, read.vendorExt = some ext → ext.vendorData + ext.dataLength ≤ read.buf.pos)
    (reached : skipToAuthenticator turns read = .ok (.ok front)) : FrontPlaced msg front := by
  obtain ⟨found, skipped, left⟩ := bind_ok reached
  cases found with
  | none => cases left
  | some after =>
    cases left
    cases done : loopFor (skipTurn wpsIdAuthenticator) turns read.buf with
    | none =>
      rw [done] at skipped
      cases skipped
    | some found =>
      rw [done] at skipped
      cases skipped
      exact ⟨kept.trans (.skip done), fun ext there => (behind ext there).trans (skip_pos done)⟩

/-- A message whose authenticator is checked with all its bytes, and the nonce that is
confirmed first. -/
inductive Reads (turns : Nat) (regInfo : RegData) (msg : BufferObj) (front : Front) : Nonce → Prop
  | m3 (reached : m3Front turns regInfo msg = .ok (.ok front)) : Reads turns regInfo msg front regInfo.registrarNonce
  | m5 (reached : m5Front turns regInfo msg = .ok (.ok front)) : Reads turns regInfo msg front regInfo.registrarNonce
  | m7 (reached : m7Front turns regInfo msg = .ok (.ok front)) : Reads turns regInfo msg front regInfo.registrarNonce
  | m8 (reached : m8Front turns regInfo msg = .ok (.ok front)) : Reads turns regInfo msg front regInfo.enrolleeNonce

theorem m5Front_placed (reached : m5Front turns regInfo msg = .ok (.ok front)) : FrontPlaced msg front := by
  unfold m5Front at reached
  split at reached
  · cases reached
  rename_i b checked
  obtain ⟨vendor, searched, left⟩ := bind_ok reached
  obtain ⟨skipped, looped, left⟩ := bind_ok left
  cases left
  cases search_skipStart searched
  cases done : loopFor m5SkipTurn turns
      (skipStart regInfo.registrarVersion2
        (tlvEncrSettingsParse .unset (tlvDserialize .unset wpsIdRegistrarNonce b 16).buf).buf).2 with
  | none =>
    rw [done] at looped
    cases looped
  | some after =>
    rw [done] at looped
    cases looped
    have kept := (BufferObj.Kept.versionCheck checked).trans
      ((BufferObj.Kept.dserialize .unset wpsIdRegistrarNonce b 16).trans
        ((BufferObj.Kept.encrSettingsParse .unset _).trans
          (BufferObj.Kept.skipStart regInfo.registrarVersion2 _)))
    exact ⟨kept.trans (.m5Skip done), fun ext there => (skipStart_behind there).trans (m5Skip_pos done)⟩

theorem Reads.placed {nonce : Nonce} (reads : Reads turns regInfo msg front nonce) : FrontPlaced msg front := by
  cases reads with
  | m3 reached =>
    unfold m3Front at reached
    split at reached
    · cases reached
    rename_i b checked
    obtain ⟨vendor, searched, left⟩ := bind_ok reached
    cases search_skipStart searched
    exact skipTo_placed ((BufferObj.Kept.versionCheck checked).trans
      ((BufferObj.Kept.dserialize .unset wpsIdRegistrarNonce b 16).trans
        ((BufferObj.Kept.dserialize .unset wpsIdEHash1 _ 32).trans
          ((BufferObj.Kept.dserialize .unset wpsIdEHash2 _ 32).trans
            (BufferObj.Kept.skipStart regInfo.registrarVersion2 _)))))
      (fun _ there => skipStart_behind there) left
  | m5 reached => exact m5Front_placed reached
  | m7 reached =>
    unfold m7Front at reached
    split at reached
    · cases reached
    rename_i b checked
    obtain ⟨vendor, searched, left⟩ := bind_ok reached
    cases search_skipStart searched
    exact skipTo_placed ((BufferObj.Kept.versionCheck checked).trans
      ((BufferObj.Kept.dserialize .unset wpsIdRegistrarNonce b 16).trans
        ((BufferObj.Kept.encrSettingsParse .unset _).trans
          ((BufferObj.Kept.x509Parse wpsIdX509CertReq _).trans
            (BufferObj.Kept.skipStart regInfo.registrarVersion2 _)))))
      (fun _ there => skipStart_behind there) left
  | m8 reached =>
    unfold m8Front at reached
    split at reached
    · cases reached
    rename_i b checked
    dsimp only at reached
    split at reached
    · cases reached
    obtain ⟨vendor, searched, left⟩ := bind_ok reached
    cases search_skipStart searched
    exact skipTo_placed ((BufferObj.Kept.versionCheck checked).trans
      ((BufferObj.Kept.dserialize .unset wpsIdEnrolleeNonce b 16).trans
        ((BufferObj.Kept.encrSettingsParse .unset _).trans
          ((BufferObj.Kept.x509Parse wpsIdX509Cert _).trans
            (BufferObj.Kept.skipStart regInfo.enrolleeVersion2 _)))))
      (fun _ there => skipStart_behind there) left

theorem m2SkipTurn_kept {scan next : M2Scan} (goesOn : m2SkipTurn scan = .again next) :
    scan.buf.Kept next.buf ∧ scan.buf.pos ≤ next.buf.pos := by
  unfold m2SkipTurn at goesOn
  split at goesOn
  · cases goesOn
  split at goesOn
  · cases goesOn
    refine ⟨BufferObj.Kept.encrSettingsParse _ _, ?_⟩
    dsimp only
    unfold tlvEncrSettingsParse
    split
    · exact Nat.le_refl _
    · rw [BufferObj.pos, BufferObj.pos, BufferObj.past, List.length_append]
      exact Nat.le_add_right _ _
  split at goesOn
  · rename_i moved
    cases goesOn
    exact ⟨.advance moved, advance_pos moved⟩
  · cases goesOn

theorem m2Skip_kept {scan after : M2Scan} (done : loopFor m2SkipTurn turns scan = some (some after)) :
    scan.buf.Kept after.buf ∧ scan.buf.pos ≤ after.buf.pos := by
  have turn : ∀ state next : M2Scan, scan.buf.Kept state.buf ∧ scan.buf.pos ≤ state.buf.pos →
      m2SkipTurn state = .again next → scan.buf.Kept next.buf ∧ scan.buf.pos ≤ next.buf.pos := by
    intro state next before goesOn
    obtain ⟨kept, ahead⟩ := m2SkipTurn_kept goesOn
    exact ⟨before.1.trans kept, before.2.trans ahead⟩
  have ends : ∀ (state : M2Scan) result, scan.buf.Kept state.buf ∧ scan.buf.pos ≤ state.buf.pos →
      m2SkipTurn state = .leave result →
      ∀ found, result = some found → scan.buf.Kept found.buf ∧ scan.buf.pos ≤ found.buf.pos := by
    intro state result before left found same
    unfold m2SkipTurn at left
    split at left
    · cases left
      cases same
      exact before
    split at left
    · cases left
    split at left
    · cases left
    · cases left
      cases same
  exact Loop.loopFor_invariant turn ends ⟨.refl _, Nat.le_refl _⟩ done after rfl

theorem tlvDserializeAll_kept (types : List Nat) (b : BufferObj) : b.Kept (tlvDserializeAll types b).2 := by
  unfold tlvDserializeAll
  generalize true = ok
  induction types generalizing b ok with
  | nil => exact .refl b
  | cons theType types later =>
    rw [List.foldl_cons]
    dsimp only
    split
    · exact (BufferObj.Kept.past b _).trans (later _ _)
    · exact later _ _

theorem tlvPrimDeviceTypeParse_kept (b : BufferObj) : b.Kept (tlvPrimDeviceTypeParse b).2 := by
  unfold tlvPrimDeviceTypeParse
  split
  · exact .past _ _
  · exact .refl _

theorem dserializeShort_kept (old theType : Nat) (b : BufferObj) : b.Kept (tlvDserializeShort old theType b).buf := by
  unfold tlvDserializeShort
  split
  · exact .past _ _
  · exact .refl _

theorem m2Head_kept (b : BufferObj) : b.Kept (m2Head b).buf := by
  unfold m2Head
  dsimp only
  refine .trans ?_ (tlvDserializeAll_kept _ _)
  refine .trans ?_ (tlvPrimDeviceTypeParse_kept _)
  refine .trans ?_ (tlvDserializeAll_kept _ _)
  refine .trans ?_ (dserializeShort_kept _ _ _)
  refine .trans ?_ (dserializeShort_kept _ _ _)
  refine .trans ?_ (BufferObj.Kept.dserialize _ _ _ _)
  refine .trans ?_ (BufferObj.Kept.dserialize _ _ _ _)
  refine .trans ?_ (BufferObj.Kept.dserialize _ _ _ _)
  exact BufferObj.Kept.dserialize _ _ _ _

theorem m2Front_placed (reached : m2Front turns regInfo msg = .ok (.ok front)) : FrontPlaced msg front := by
  unfold m2Front at reached
  split at reached
  · cases reached
  rename_i b checked
  obtain ⟨vendor, searched, left⟩ := bind_ok reached
  obtain ⟨_, _, left⟩ := bind_ok left
  cases search_skipStart searched
  unfold m2Skip at left
  dsimp only at left
  split at left
  · cases left
  obtain ⟨multiple, _, left⟩ := bind_ok left
  split at left
  · cases left
  split at left
  · cases left
  obtain ⟨found, looped, left⟩ := bind_ok left
  cases found with
  | none => cases left
  | some after =>
    cases left
    cases done : loopFor m2SkipTurn turns ⟨.unset, false, (skipStart regInfo.enrolleeVersion2 (m2Head b).buf).2⟩ with
    | none =>
      rw [done] at looped
      cases looped
    | some found =>
      rw [done] at looped
      cases looped
      obtain ⟨kept, ahead⟩ := m2Skip_kept done
      exact ⟨(BufferObj.Kept.versionCheck checked).trans
        ((m2Head_kept b).trans ((BufferObj.Kept.skipStart regInfo.enrolleeVersion2 _).trans kept)),
        fun ext there => (skipStart_behind there).trans ahead⟩

end

/-- The data of a vendor extension. -/
def BufferObj.extData (b : BufferObj) (ext : VendorExt) : Bytes := (b.bytes.drop ext.vendorData).take ext.dataLength

/-- The buffer is a place in a message: what was written, and what is left behind it. -/
structure Scratch.Holds (scratch : Scratch) (ext : VendorExt) (before written free after : Bytes) : Prop where
  place : scratch.place = some ext
  used : scratch.used = written.length
  bytes : scratch.msg.bytes = before ++ (written ++ free) ++ after
  start : before.length = ext.vendorData
  room : written.length + free.length = ext.dataLength

namespace Scratch

variable {scratch : Scratch} {ext : VendorExt} {before written free after bytes : Bytes}

theorem Holds.reset (holds : scratch.Holds ext before written free after) :
    scratch.reset.Holds ext before [] (written ++ free) after :=
  ⟨holds.place, rfl, holds.bytes, holds.start, by rw [List.length_append, List.length_nil, Nat.zero_add, holds.room]⟩

/-- What fits is written behind what was written before. -/
theorem Holds.append (holds : scratch.Holds ext before written free after) (bytes : Bytes)
    (fits : bytes.length ≤ free.length) :
    (scratch.append bytes).Holds ext before (written ++ bytes) (free.drop bytes.length) after := by
  have room := holds.room
  have used := holds.used
  have there : ¬ext.dataLength - scratch.used < bytes.length := by omega
  have done : scratch.append bytes = { scratch with
      used := scratch.used + bytes.length
      msg := scratch.msg.store (ext.vendorData + scratch.used) bytes } := by
    unfold Scratch.append
    rw [holds.place]
    exact if_neg there
  rw [done]
  refine ⟨holds.place, ?_, ?_, holds.start, ?_⟩
  · rw [List.length_append, ← used]
  · dsimp only
    rw [store_bytes, holds.bytes, ← holds.start, used]
    have front : (before ++ (written ++ free) ++ after).take (before.length + written.length) = before ++ written := by
      rw [← List.append_assoc, List.append_assoc _ free, ← List.length_append, List.take_left]
    have back : (before ++ (written ++ free) ++ after).drop (before.length + written.length + bytes.length) =
        free.drop bytes.length ++ after := by
      rw [← List.append_assoc, List.append_assoc _ free, ← List.length_append, ← List.drop_drop, List.drop_left,
        List.drop_append_of_le_length fits]
    rw [front, back]
    simp only [List.append_assoc]
  · rw [List.length_append, List.length_drop]
    omega

theorem Holds.append_full (holds : scratch.Holds ext before written free after) (full : free.length < bytes.length) :
    scratch.append bytes = { scratch with place := none } := by
  have room := holds.room
  have used := holds.used
  unfold Scratch.append
  rw [holds.place]
  exact if_pos (by omega)

theorem append_elsewhere (elsewhere : scratch.place = none) (bytes : Bytes) : scratch.append bytes = scratch := by
  unfold Scratch.append
  rw [elsewhere]

end Scratch

/-- What key derivation and the last message sent put over the data of a vendor extension of
`room` bytes in an M2. -/
def m2Written (regInfo : RegData) (keys : DerivedKeys) (room : Nat) : Bytes :=
  if room < 16 then []
  else if room < 22 then regInfo.enrolleeNonce.val
  else if room < 38 then regInfo.enrolleeNonce.val ++ regInfo.macAddr.val
  else if room < 80 then regInfo.enrolleeNonce.val ++ regInfo.macAddr.val ++ regInfo.registrarNonce.val
  else if room < regInfo.outMsg.length then keys.val
  else regInfo.outMsg ++ keys.val.drop regInfo.outMsg.length

/-- What the last message sent puts over the data of a vendor extension in another message. -/
def lastMsgWritten (outMsg : Bytes) (room : Nat) : Bytes := if room < outMsg.length then [] else outMsg

/-- A message with the start of its vendor extension written over. -/
structure WrittenOver (msg left : BufferObj) (ext : VendorExt) (written : Bytes) : Prop where
  dataLength : left.dataLength = msg.dataLength
  around : left.around = msg.around
  bytes : ∃ before data after, msg.bytes = before ++ data ++ after ∧ before.length = ext.vendorData ∧
    data.length = ext.dataLength ∧ written.length ≤ data.length ∧
    left.bytes = before ++ (written ++ data.drop written.length) ++ after

@[simp] theorem Scratch.append_dataLength (scratch : Scratch) (bytes : Bytes) :
    (scratch.append bytes).msg.dataLength = scratch.msg.dataLength := by
  unfold Scratch.append
  split
  · rfl
  · split <;> rfl

@[simp] theorem Scratch.append_around (scratch : Scratch) (bytes : Bytes) :
    (scratch.append bytes).msg.around = scratch.msg.around := by
  unfold Scratch.append
  split
  · rfl
  · split <;> rfl

theorem appendOutMsg_scratch (front : Front) (outMsg : Bytes) :
    front.appendOutMsg outMsg = ((Scratch.mk front.vendorExt 0 front.buf).append outMsg).msg := by
  unfold Front.appendOutMsg Scratch.append
  cases front.vendorExt with
  | none => rfl
  | some ext =>
    dsimp only
    by_cases fits : outMsg.length ≤ ext.dataLength
    · rw [if_pos fits, if_neg (by omega)]
      rfl
    · rw [if_neg fits, if_pos (by omega)]

section

variable {msg left : BufferObj} {front : Front} {ext : VendorExt}

theorem FrontPlaced.holds (placed : FrontPlaced msg front) (there : front.vendorExt = some ext) :
    ∃ before data after, msg.bytes = before ++ data ++ after ∧
      (Scratch.mk front.vendorExt 0 front.buf).Holds ext before [] data after := by
  have behind := placed.behind ext there
  have fits : front.buf.pos ≤ msg.bytes.length := by
    rw [← placed.kept.bytes, BufferObj.pos, BufferObj.bytes, List.length_append]
    exact Nat.le_add_right _ _
  have split : msg.bytes = msg.bytes.take ext.vendorData ++ (msg.bytes.drop ext.vendorData).take ext.dataLength ++
      (msg.bytes.drop ext.vendorData).drop ext.dataLength := by
    rw [List.append_assoc, List.take_append_drop, List.take_append_drop]
  refine ⟨_, _, _, split, there, rfl, ?_, ?_, ?_⟩
  · rw [List.nil_append, ← split]
    exact placed.kept.bytes
  · rw [List.length_take]
    omega
  · rw [List.length_nil, List.length_take, List.length_drop]
    omega

theorem appendOutMsg_written (placed : FrontPlaced msg front) (there : front.vendorExt = some ext) (outMsg : Bytes) :
    WrittenOver msg (front.appendOutMsg outMsg) ext (lastMsgWritten outMsg ext.dataLength) := by
  obtain ⟨before, data, after, was, holds⟩ := placed.holds there
  have room := holds.room
  rw [List.length_nil, Nat.zero_add] at room
  rw [appendOutMsg_scratch]
  refine ⟨?_, ?_, before, data, after, was, holds.start, room, ?_⟩
  · exact (Scratch.append_dataLength _ _).trans placed.kept.dataLength
  · exact (Scratch.append_around _ _).trans placed.kept.around
  unfold lastMsgWritten
  by_cases full : ext.dataLength < outMsg.length
  · rw [if_pos full, holds.append_full (by omega)]
    exact ⟨Nat.zero_le _, holds.bytes⟩
  · rw [if_neg full]
    exact ⟨by omega, (holds.append _ (by omega)).bytes⟩

theorem Scratch.last_elsewhere {scratch : Scratch} (elsewhere : scratch.place = none) (keys outMsg : Bytes) :
    ((scratch.reset.append keys).reset.append outMsg).msg = scratch.msg := by
  have first : scratch.reset.append keys = scratch.reset := @Scratch.append_elsewhere scratch.reset elsewhere keys
  have second : scratch.reset.reset.append outMsg = scratch.reset.reset :=
    @Scratch.append_elsewhere scratch.reset.reset elsewhere outMsg
  rw [first, second]
  rfl

/-- What key derivation leaves in an M2, and then the last message sent. -/
theorem m2Scratch_bytes {regInfo : RegData} {keys : DerivedKeys} {before data after : Bytes}
    (holds : (Scratch.mk front.vendorExt 0 front.buf).Holds ext before [] data after) :
    (m2Written regInfo keys ext.dataLength).length ≤ data.length ∧
      (m2Scratch regInfo front keys).bytes = before ++ (m2Written regInfo keys ext.dataLength ++
        data.drop (m2Written regInfo keys ext.dataLength).length) ++ after := by
  have room := holds.room
  rw [List.length_nil, Nat.zero_add] at room
  have sizes : regInfo.enrolleeNonce.val.length = 16 ∧ regInfo.macAddr.val.length = 6 ∧
      regInfo.registrarNonce.val.length = 16 ∧ keys.val.length = 80 :=
    ⟨regInfo.enrolleeNonce.property, regInfo.macAddr.property, regInfo.registrarNonce.property, keys.property⟩
  unfold m2Written m2Scratch
  dsimp only
  by_cases nonce : ext.dataLength < 16
  · rw [if_pos nonce, holds.append_full (by omega), Scratch.append_elsewhere rfl regInfo.macAddr.val,
      Scratch.append_elsewhere rfl regInfo.registrarNonce.val, Scratch.last_elsewhere rfl]
    exact ⟨Nat.zero_le _, holds.bytes⟩
  have one := holds.append regInfo.enrolleeNonce.val (by omega)
  rw [if_neg nonce]
  by_cases mac : ext.dataLength < 22
  · rw [if_pos mac, one.append_full (by rw [List.length_drop]; omega),
      Scratch.append_elsewhere rfl regInfo.registrarNonce.val, Scratch.last_elsewhere rfl]
    exact ⟨by omega, one.bytes⟩
  have two := one.append regInfo.macAddr.val (by rw [List.length_drop]; omega)
  rw [if_neg mac]
  rw [List.drop_drop, List.nil_append, ← List.length_append] at two
  by_cases other : ext.dataLength < 38
  · rw [if_pos other, two.append_full (by rw [List.length_drop, List.length_append]; omega), Scratch.last_elsewhere rfl]
    exact ⟨by rw [List.length_append]; omega, two.bytes⟩
  have three := two.append regInfo.registrarNonce.val (by rw [List.length_drop, List.length_append]; omega)
  rw [if_neg other]
  rw [List.drop_drop, ← List.length_append] at three
  have nonces : (regInfo.enrolleeNonce.val ++ regInfo.macAddr.val ++ regInfo.registrarNonce.val).length = 38 := by
    rw [List.length_append, List.length_append]
    omega
  have started := three.reset
  have whole : (regInfo.enrolleeNonce.val ++ regInfo.macAddr.val ++ regInfo.registrarNonce.val ++
      data.drop (regInfo.enrolleeNonce.val ++ regInfo.macAddr.val ++ regInfo.registrarNonce.val).length).length =
        ext.dataLength := by
    rw [List.length_append, List.length_drop]
    omega
  by_cases keyed : ext.dataLength < 80
  · rw [if_pos keyed, started.append_full (by omega), Scratch.append_elsewhere rfl regInfo.outMsg]
    exact ⟨by omega, three.bytes⟩
  have derived := started.append keys.val (by omega)
  rw [if_neg keyed]
  have hidden : (regInfo.enrolleeNonce.val ++ regInfo.macAddr.val ++ regInfo.registrarNonce.val ++
      data.drop (regInfo.enrolleeNonce.val ++ regInfo.macAddr.val ++ regInfo.registrarNonce.val).length).drop
        keys.val.length = data.drop keys.val.length := by
    rw [List.drop_append, List.drop_of_length_le (by omega), List.nil_append, List.drop_drop]
    congr 1
    omega
  rw [List.nil_append, hidden] at derived
  by_cases last : ext.dataLength < regInfo.outMsg.length
  · rw [if_pos last, derived.reset.append_full (by rw [List.length_append, List.length_drop]; omega)]
    exact ⟨by omega, derived.bytes⟩
  have final := derived.reset.append regInfo.outMsg (by rw [List.length_append, List.length_drop]; omega)
  rw [if_neg last]
  refine ⟨by rw [List.length_append, List.length_drop]; omega, final.bytes.trans ?_⟩
  rw [List.nil_append, List.drop_append, List.drop_drop, List.append_assoc, List.length_append, List.length_drop]
  have longer : keys.val.length + (regInfo.outMsg.length - keys.val.length) =
      regInfo.outMsg.length + (keys.val.length - regInfo.outMsg.length) := by omega
  rw [longer]
  simp only [List.append_assoc]

theorem m2Scratch_written (placed : FrontPlaced msg front) (there : front.vendorExt = some ext) (regInfo : RegData)
    (keys : DerivedKeys) :
    WrittenOver msg (m2Scratch regInfo front keys) ext (m2Written regInfo keys ext.dataLength) := by
  obtain ⟨before, data, after, was, holds⟩ := placed.holds there
  have room := holds.room
  rw [List.length_nil, Nat.zero_add] at room
  obtain ⟨fits, bytes⟩ := @m2Scratch_bytes _ _ regInfo keys _ _ _ holds
  refine ⟨?_, ?_, before, data, after, was, holds.start, room, fits, bytes⟩
  · unfold m2Scratch
    simp only [Scratch.append_dataLength, Scratch.reset]
    exact placed.kept.dataLength
  · unfold m2Scratch
    simp only [Scratch.append_around, Scratch.reset]
    exact placed.kept.around

/-- The authenticator of a message is checked against what was received, and a right one
is found right. -/
structure ReceivedChecked (known : RegData) (authenticator : TlvPtr) (msg left : BufferObj) : Prop where
  hashed : hmacData known.outMsg left authenticator.len = hmacData known.outMsg msg authenticator.len
  accepted : ∀ hmac, checkMac hmac known authenticator msg = .ok true →
    checkMac hmac known authenticator left = .ok true

theorem received_of_kept {known : RegData} {authenticator : TlvPtr} (kept : msg.Kept left) :
    ReceivedChecked known authenticator msg left := by
  have read : left.read authenticator.data 8 = msg.read authenticator.data 8 := by
    unfold BufferObj.read BufferObj.load
    rw [kept.bytes, kept.around]
  have hashed : hmacData known.outMsg left authenticator.len = hmacData known.outMsg msg authenticator.len := by
    unfold hmacData
    rw [kept.bytes, kept.dataLength]
  refine ⟨hashed, fun hmac right => ?_⟩
  unfold checkMac at right ⊢
  rw [hashed, kept.dataLength, read]
  exact right

/-- A vendor extension in front of the authenticator is hashed: it must be left as it was. -/
theorem WrittenOver.received_iff {known : RegData} {authenticator : TlvPtr} {written : Bytes}
    (covered : WrittenOver msg left ext written)
    (covers : ext.vendorData + ext.dataLength ≤ msg.dataLength - (4 + authenticator.len)) :
    ReceivedChecked known authenticator msg left ↔ written <+: msg.extData ext := by
  obtain ⟨before, data, after, was, start, room, fits, is⟩ := covered.bytes
  have data_eq : msg.extData ext = data := by
    rw [BufferObj.extData, was, List.append_assoc, ← start, List.drop_left, ← room, List.take_left]
  rw [data_eq]
  constructor
  · intro received
    have hashed := List.append_cancel_left received.hashed
    rw [covered.dataLength, was, is] at hashed
    have front := congrArg (List.take (before.length + data.length)) hashed
    rw [List.take_take, List.take_take, Nat.min_eq_left (by omega)] at front
    have sized : before.length + data.length = (before ++ (written ++ data.drop written.length)).length := by
      rw [List.length_append, List.length_append, List.length_drop]
      omega
    rw [← List.length_append, List.take_left, List.length_append, sized, List.take_left] at front
    exact ⟨_, List.append_cancel_left front⟩
  · rintro ⟨rest, same⟩
    refine received_of_kept ⟨?_, covered.dataLength, covered.around⟩
    rw [is, was, ← same, List.drop_left]

theorem FrontPlaced.covers (placed : FrontPlaced msg front) (whole : msg.dataLength = msg.bytes.length)
    (ok : front.authenticator.ok = true) :
    front.buf.pos ≤ msg.dataLength - (4 + front.authenticator.value.len) := by
  obtain ⟨value, later, here, _, found⟩ := authenticator_found ok
  have short := limited_le value.length 8
  rw [whole, ← placed.kept.bytes, BufferObj.bytes, here, found, List.length_append, List.length_append, length_tlv,
    BufferObj.pos]
  dsimp only
  omega

theorem FrontPlaced.received_iff {known : RegData} {written : Nat → Bytes} (placed : FrontPlaced msg front)
    (whole : msg.dataLength = msg.bytes.length) (ok : front.authenticator.ok = true)
    (plain : front.vendorExt = none → msg.Kept left)
    (covered : ∀ ext, front.vendorExt = some ext → WrittenOver msg left ext (written ext.dataLength)) :
    ReceivedChecked known front.authenticator.value msg left ↔
      ∀ ext, front.vendorExt = some ext → written ext.dataLength <+: msg.extData ext := by
  cases there : front.vendorExt with
  | none => exact iff_of_true (received_of_kept (plain there)) (fun _ some_ => absurd some_ (by simp))
  | some ext =>
    have covers := (placed.behind ext there).trans (placed.covers whole ok)
    rw [(covered ext there).received_iff covers]
    constructor
    · intro kept other same
      cases same
      exact kept
    · intro kept
      exact kept ext rfl

end

theorem checkMessage_mac {hmac : Hmac} {regInfo : RegData} {nonce : Nonce} {front : Front} {valid : Bool}
    {left : BufferObj}
    (checked : checkMessage hmac regInfo nonce front = .ok (.ok (valid, left))) :
    left = front.appendOutMsg regInfo.outMsg ∧ checkMac hmac regInfo front.authenticator.value left = .ok valid := by
  unfold checkMessage at checked
  obtain ⟨same, _, left'⟩ := bind_ok checked
  dsimp only at left'
  split at left'
  · cases left'
  split at left'
  · cases left'
  rename_i room
  obtain ⟨received, read, final⟩ := bind_ok left'
  cases final
  refine ⟨rfl, ?_⟩
  unfold checkMac
  rw [if_neg room, read]
  rfl

/-- The authenticator of a message is checked against what was received exactly if the last
message sent, or what key derivation wrote in M2 before, was in the vendor extension at its
places anyway: so if there is no extension, or its data is too short for the first of it. -/
theorem received_checked_iff (turns : Nat) (regInfo : RegData) (bytes : Bytes) (around : Surroundings) :
    let msg := BufferObj.dserial bytes around
    (∀ nonce front hmac valid left, Reads turns regInfo msg front nonce →
      checkMessage hmac regInfo nonce front = .ok (.ok (valid, left)) →
      (ReceivedChecked regInfo front.authenticator.value msg left ↔
        ∀ ext, front.vendorExt = some ext → lastMsgWritten regInfo.outMsg ext.dataLength <+: msg.extData ext)) ∧
      ∀ front b nonce known, ∀ exchange : KeyExchange, ∀ keys, m2Front turns regInfo msg = .ok (.ok front) →
        ¬(front.tlvErr = true ∨ front.authenticator.ok = false) → Learns regInfo msg b nonce known →
        exchange known msg = .ok keys →
        (ReceivedChecked (known.withKeys keys) front.authenticator.value msg (m2Scratch known front keys) ↔
          ∀ ext, front.vendorExt = some ext → m2Written known keys ext.dataLength <+: msg.extData ext) := by
  intro msg
  constructor
  · intro nonce front hmac valid left reads checked
    have placed := reads.placed
    have checkable := checkable_of_ok checked
    rw [(checkMessage_mac checked).1]
    refine placed.received_iff rfl checkable.authenticator (fun none_ => ?_)
      (fun ext there => appendOutMsg_written placed there regInfo.outMsg)
    unfold Front.appendOutMsg
    rw [none_]
    exact placed.kept
  · intro front b nonce known exchange keys reached complete learns derived
    have placed := m2Front_placed reached
    have ok : front.authenticator.ok = true := by
      cases ok : front.authenticator.ok with
      | true => rfl
      | false => exact absurd (Or.inr ok) complete
    refine placed.received_iff rfl ok (fun none_ => ?_) (fun ext there => m2Scratch_written placed there known keys)
    unfold m2Scratch
    rw [none_]
    exact placed.kept

/-- A code that is the end of the data, backwards. -/
def mirrorCrypto : M2Crypto :=
  { plainCrypto with hmac := fun _ data => ⟨(data.reverse ++ List.replicate 32 0).take 32, by simp⟩ }

/-- An M2 with the right authenticator behind an extension of 16 bytes. -/
def roomyM2 : Delivery :=
  noncedM2 1 ([0, 1, 0x20] ++ [1, 2, 3, 4, 5, 6, 7, 8, 9, 10, 11, 12, 13]) [] [13, 12, 11, 10, 9, 8, 7, 6]

def roomyKnown : RegData :=
  { waitingForM2.regInfo with
    registrarNonce := repeated 16 1, pkr := repeated 192 1 }

def roomyKeys : DerivedKeys := repeated 80 1

theorem roomyM2_learns : ∃ b, Learns waitingForM2.regInfo roomyM2.buf b (List.replicate 16 1) roomyKnown := by
  have seen : (regMsgVersionCheck .m2 roomyM2.buf).map (fun b =>
      (roomyM2.buf.read (m2Head b).registrarNonce.data (m2Head b).registrarNonce.len,
        (roomyM2.buf.readKey (m2Head b).publicKey.data).map fun key => key.val)) =
        .ok (.ok (List.replicate 16 1), .ok (List.replicate 192 1)) := by decide +kernel
  obtain ⟨b, checked, same⟩ := ok_of_map seen
  simp only [Prod.mk.injEq] at same
  obtain ⟨pkr, readKey, key⟩ := ok_of_map same.2
  refine ⟨b, checked, same.1, pkr, readKey, ?_⟩
  have one : pkr = repeated 192 1 := Subtype.ext key
  have two : overlay waitingForM2.regInfo.registrarNonce (List.replicate 16 1) = repeated 16 1 := by
    apply Subtype.ext
    decide +kernel
  rw [one, two]
  rfl

theorem roomyM2_read : ∃ front, m2Front roomyM2.turns waitingForM2.regInfo roomyM2.buf = .ok (.ok front) ∧
    front.tlvErr = false ∧ front.authenticator.ok = true ∧ front.vendorExt = some ⟨364, 16⟩ ∧
    checkMac mirrorCrypto.hmac (roomyKnown.withKeys roomyKeys) front.authenticator.value roomyM2.buf = .ok true ∧
    checkMac mirrorCrypto.hmac (roomyKnown.withKeys roomyKeys) front.authenticator.value
      (m2Scratch roomyKnown front roomyKeys) = .ok false := by
  have seen : (m2Front roomyM2.turns waitingForM2.regInfo roomyM2.buf).map (fun read => read.map fun front =>
      (front.tlvErr, front.authenticator.ok, front.vendorExt.map fun ext => (ext.vendorData, ext.dataLength))) =
        .ok (.ok (false, true, some (364, 16))) := by decide +kernel
  have checks : (m2Front roomyM2.turns waitingForM2.regInfo roomyM2.buf).map (fun read => read.map fun front =>
      (checkMac mirrorCrypto.hmac (roomyKnown.withKeys roomyKeys) front.authenticator.value roomyM2.buf,
        checkMac mirrorCrypto.hmac (roomyKnown.withKeys roomyKeys) front.authenticator.value
          (m2Scratch roomyKnown front roomyKeys))) = .ok (.ok (.ok true, .ok false)) := by decide +kernel
  obtain ⟨read, reached, same⟩ := ok_of_map seen
  obtain ⟨front, here, facts⟩ := ok_of_map same
  subst here
  rw [reached] at checks
  have both := Except.ok.inj (Except.ok.inj checks)
  simp only [Prod.mk.injEq] at facts both
  obtain ⟨noErr, ok, place⟩ := facts
  refine ⟨front, reached, noErr, ok, ?_, both⟩
  obtain ⟨ext, there, same⟩ := Option.map_eq_some_iff.mp place
  rw [there]
  cases ext
  cases same
  rfl

/-- An M2 with the right authenticator is refused, because the enrollee's nonce has been
written over its vendor extension. -/
theorem roomyM2_refused : ∃ front b nonce known keys,
    m2Front roomyM2.turns waitingForM2.regInfo roomyM2.buf = .ok (.ok front) ∧
      Learns waitingForM2.regInfo roomyM2.buf b nonce known ∧
      mirrorCrypto.exchange known roomyM2.buf = .ok keys ∧
      checkMac mirrorCrypto.hmac (known.withKeys keys) front.authenticator.value roomyM2.buf = .ok true ∧
      (processM2 mirrorCrypto waitingForM2.regInfo roomyM2).map (fun read => read.1) = .ok rprotErrCrypto ∧
      ¬ReceivedChecked (known.withKeys keys) front.authenticator.value roomyM2.buf (m2Scratch known front keys) := by
  obtain ⟨b, learns⟩ := roomyM2_learns
  obtain ⟨front, reached, _, _, _, right, wrong⟩ := roomyM2_read
  refine ⟨front, b, _, roomyKnown, roomyKeys, reached, learns, rfl, right, by decide +kernel, fun received => ?_⟩
  cases wrong.symm.trans (received.accepted _ right)

/-- The enrollee's nonce is not in that extension. -/
theorem roomyM2_written : ∃ ext : VendorExt,
    ¬m2Written roomyKnown roomyKeys ext.dataLength <+: roomyM2.buf.extData ext := by
  obtain ⟨b, learns⟩ := roomyM2_learns
  obtain ⟨front, reached, noErr, ok, there, right, wrong⟩ := roomyM2_read
  have checked := (received_checked_iff roomyM2.turns waitingForM2.regInfo roomyM2.msg roomyM2.around).2
    front b _ roomyKnown
    mirrorCrypto.exchange roomyKeys reached (by rw [noErr, ok]; simp) learns rfl
  refine ⟨⟨364, 16⟩, fun same => ?_⟩
  have received := checked.mpr fun ext also => by
    cases there.symm.trans also
    exact same
  cases wrong.symm.trans (received.accepted _ right)

end BcmDhd.Wps
