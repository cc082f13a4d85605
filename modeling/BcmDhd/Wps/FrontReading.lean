import BcmDhd.Wps.ProcessMessage
import BcmDhd.Wps.SkipLoops

namespace BcmDhd.Wps

open BcmDhd.Lib

variable {turns : Nat}

/-- What advancing keeps holds where skipping ends. -/
theorem skip_invariant {invariant : BufferObj → Prop} {theType : Nat} {b after : BufferObj}
    (moves : ∀ state next offset, invariant state → state.advance offset = some next → invariant next)
    (start : invariant b) (done : loopFor (skipTurn theType) turns b = some (some after)) :
    invariant after := by
  have turn : ∀ state next, invariant state → skipTurn theType state = .again next → invariant next := by
    intro state next kept goesOn
    unfold skipTurn at goesOn
    split at goesOn
    · cases goesOn
    · split at goesOn
      · rename_i moved
        cases goesOn
        exact moves _ _ _ kept moved
      · cases goesOn
  have ends : ∀ state result, invariant state → skipTurn theType state = .leave result →
      ∀ next, result = some next → invariant next := by
    intro state result kept left next same
    unfold skipTurn at left
    split at left
    · cases left
      cases same
      exact kept
    · split at left
      · cases left
      · cases left
        cases same
  exact Loop.loopFor_invariant turn ends start done after rfl

theorem m5Skip_invariant {invariant : BufferObj → Prop} {b after : BufferObj}
    (moves : ∀ state next offset, invariant state → state.advance offset = some next → invariant next)
    (start : invariant b) (done : loopFor m5SkipTurn turns b = some after) : invariant after := by
  have turn : ∀ state next, invariant state → m5SkipTurn state = .again next → invariant next := by
    intro state next kept goesOn
    unfold m5SkipTurn at goesOn
    split at goesOn
    · cases goesOn
    · cases goesOn
      cases moved : state.advance (4 + state.ntohs 2) with
      | none => exact kept
      | some next => exact moves _ _ _ kept moved
  have ends : ∀ state result, invariant state → m5SkipTurn state = .leave result → invariant result := by
    intro state result kept left
    unfold m5SkipTurn at left
    split at left
    · cases left
      exact kept
    · cases left
  exact Loop.loopFor_invariant turn ends start done

theorem advance_pos {b after : BufferObj} {offset : Nat} (moved : b.advance offset = some after) :
    b.pos ≤ after.pos := by
  obtain ⟨_, before, _⟩ := BufferObj.advance_spec moved
  rw [BufferObj.pos, BufferObj.pos, before, List.length_append]
  omega

theorem skip_pos {theType : Nat} {b after : BufferObj}
    (done : loopFor (skipTurn theType) turns b = some (some after)) : b.pos ≤ after.pos :=
  skip_invariant (fun _ _ _ before moved => Nat.le_trans before (advance_pos moved)) (Nat.le_refl b.pos) done

theorem m5Skip_pos {b after : BufferObj} (done : loopFor m5SkipTurn turns b = some after) :
    b.pos ≤ after.pos :=
  m5Skip_invariant (fun _ _ _ before moved => Nat.le_trans before (advance_pos moved)) (Nat.le_refl b.pos)
    done

/-- The same buffer at another place. -/
structure BufferObj.Kept (b after : BufferObj) : Prop where
  bytes : after.bytes = b.bytes
  dataLength : after.dataLength = b.dataLength
  around : after.around = b.around

namespace BufferObj.Kept

variable {b next after : BufferObj} {theType len dataSize : Nat}

theorem refl (b : BufferObj) : b.Kept b := ⟨rfl, rfl, rfl⟩

theorem trans (one : b.Kept next) (two : next.Kept after) : b.Kept after :=
  ⟨two.bytes.trans one.bytes, two.dataLength.trans one.dataLength, two.around.trans one.around⟩

theorem past (b : BufferObj) (len : Nat) : b.Kept (b.past len) := by
  refine ⟨?_, rfl, rfl⟩
  rw [BufferObj.past, BufferObj.bytes, BufferObj.bytes, List.append_assoc, List.take_append_drop]

theorem rewind (b : BufferObj) : b.Kept b.rewind := ⟨rfl, rfl, rfl⟩

theorem advance {offset : Nat} (moved : b.advance offset = some after) : b.Kept after := by
  obtain ⟨_, _, _, dataLength, around⟩ := BufferObj.advance_spec moved
  exact ⟨BufferObj.advance_bytes moved, dataLength, around⟩

theorem dserialize (old : TlvPtr) (theType : Nat) (b : BufferObj) (dataSize : Nat) :
    b.Kept (tlvDserialize old theType b dataSize).buf := by
  unfold tlvDserialize
  split
  · exact refl b
  · exact refl b
  · exact past b _

theorem dserializeByte (old : UInt8) (theType : Nat) (b : BufferObj) :
    b.Kept (tlvDserializeByte old theType b).buf := by
  unfold tlvDserializeByte
  split
  · exact past b _
  · exact refl b

theorem encrSettingsParse (old : EncrSettings) (b : BufferObj) :
    b.Kept (tlvEncrSettingsParse old b).buf := by
  unfold tlvEncrSettingsParse
  split
  · exact refl b
  · exact past b _

theorem x509Parse (theType : Nat) (b : BufferObj) : b.Kept (x509Parse theType b).buf := by
  unfold Wps.x509Parse
  split
  · exact dserialize _ _ b _
  · exact refl b

theorem versionCheck {msgId : Message} (checked : regMsgVersionCheck msgId b = .ok after) :
    b.Kept after := by
  unfold regMsgVersionCheck at checked
  dsimp only at checked
  split at checked
  · cases checked
  split at checked
  · cases checked
  split at checked
  · cases checked
  · cases checked
    exact (dserializeByte 0 wpsIdVersion b).trans (dserializeByte 0 wpsIdMsgType _)

theorem skip (done : loopFor (skipTurn theType) turns b = some (some after)) :
    b.Kept after :=
  skip_invariant (fun _ _ _ kept moved => kept.trans (advance moved)) (refl b) done

theorem m5Skip (done : loopFor m5SkipTurn turns b = some after) : b.Kept after :=
  m5Skip_invariant (fun _ _ _ kept moved => kept.trans (advance moved)) (refl b) done

theorem findVendorId {vendorId : VendorId} {found : Option BufferObj}
    (done : loopFor (findVendorIdTurn vendorId) turns b = some found) : ∀ next, found = some next → b.Kept next := by
  have turn : ∀ state next, b.Kept state → findVendorIdTurn vendorId state = .again next → b.Kept next := by
    intro state next kept goesOn
    unfold findVendorIdTurn at goesOn
    split at goesOn
    · cases goesOn
    split at goesOn
    · cases goesOn
    split at goesOn
    · cases goesOn
    split at goesOn
    · cases goesOn
    · cases goesOn
      exact kept.trans (past state _)
  have ends : ∀ state result, b.Kept state → findVendorIdTurn vendorId state = .leave result →
      ∀ next, result = some next → b.Kept next := by
    intro state result kept left next same
    unfold findVendorIdTurn at left
    split at left
    · cases left
      cases same
    split at left
    · cases left
      cases same
    split at left
    · cases left
      cases same
      exact kept
    split at left
    · cases left
      cases same
    · cases left
  exact Loop.loopFor_invariant turn ends (refl b) done

theorem vendorExtPlace_some {found : VendorExt × BufferObj} (place : vendorExtPlace b = some found) :
    ∃ start, b.rewind.Kept start ∧ tlvVendorExtParse start = some found := by
  unfold vendorExtPlace tlvFindVendorExtParse tlvFindVendorExtParseImp at place
  split at place
  · cases place
  · cases searched : loopFor (findVendorIdTurn wfaVendorId) (b.bytes.length + 1) b.rewind with
    | none =>
      rw [searched] at place
      cases place
    | some ext =>
      rw [searched] at place
      cases ext with
      | none => cases place
      | some ext => exact ⟨ext, findVendorId searched ext rfl, place⟩

theorem skipStart (version2 : UInt8) (b : BufferObj) : b.Kept (skipStart version2 b).2 := by
  unfold Wps.skipStart
  split
  · exact refl b
  cases place : vendorExtPlace b with
  | none => exact rewind b
  | some found =>
    obtain ⟨start, kept, parsed⟩ := vendorExtPlace_some place
    unfold tlvVendorExtParse at parsed
    split at parsed
    · cases parsed
    · cases parsed
      exact (rewind b).trans (kept.trans (past start _))

end BufferObj.Kept

/-- Skipping starts behind the data of the vendor extension. -/
theorem skipStart_behind {version2 : UInt8} {b : BufferObj} {ext : VendorExt}
    (found : (skipStart version2 b).1 = some ext) :
    ext.vendorData + ext.dataLength ≤ (skipStart version2 b).2.pos := by
  unfold skipStart at found ⊢
  split at found
  · cases found
  rename_i second
  rw [if_neg second]
  cases place : vendorExtPlace b with
  | none =>
    rw [place] at found
    cases found
  | some parsed =>
    rw [place] at found
    obtain ⟨start, _, here⟩ := BufferObj.Kept.vendorExtPlace_some place
    unfold tlvVendorExtParse at here
    split at here
    · cases here
    · rename_i header
      obtain ⟨long, fits⟩ := cplxtlvParseHdr_some header
      cases here
      cases found
      unfold BufferObj.remaining at fits
      simp only [behindVendorExt, BufferObj.past, BufferObj.pos, List.length_append, List.length_take]
      omega

/-- A front whose nonce was read behind the message type and whose buffer is the message,
at its authenticator. -/
structure Reached (msgId : Message) (nonceType : Nat) (msg : BufferObj) (front : Front) : Prop where
  nonce : ∃ b, regMsgVersionCheck msgId msg = .ok b ∧
    front.nonce = (tlvDserialize .unset nonceType b 16).value
  kept : msg.Kept front.buf
  authenticator : front.buf.nextType = wpsIdAuthenticator
  behind : ∀ ext, front.vendorExt = some ext → ext.vendorData + ext.dataLength ≤ front.buf.pos

/-- What taking a message apart comes to. -/
inductive FrontOutcome (msgId : Message) (nonceType : Nat) (msg : BufferObj) :
    Except Halt (Except Nat Front) → Prop
  | halted (halt : Halt) : FrontOutcome msgId nonceType msg (.error halt)
  | refused {code : Nat} (failed : code ≠ wpsSuccess) : FrontOutcome msgId nonceType msg (.ok (.error code))
  | reached {front : Front} (found : Reached msgId nonceType msg front) :
    FrontOutcome msgId nonceType msg (.ok (.ok front))

theorem versionCheck_error {msgId : Message} {msg : BufferObj} {code : Nat}
    (checked : regMsgVersionCheck msgId msg = .error code) : code ≠ wpsSuccess := by
  unfold regMsgVersionCheck at checked
  dsimp only at checked
  split at checked
  · cases checked
    decide
  split at checked
  · cases checked
    decide
  split at checked
  · cases checked
    decide
  · cases checked

section

variable {msgId : Message} {nonceType : Nat} {msg b : BufferObj}

theorem skipToAuthenticator_outcome (front : Front) (checked : regMsgVersionCheck msgId msg = .ok b)
    (nonce : front.nonce = (tlvDserialize .unset nonceType b 16).value) (kept : msg.Kept front.buf)
    (behind : ∀ ext, front.vendorExt = some ext → ext.vendorData + ext.dataLength ≤ front.buf.pos) :
    ∃ outcome, Settles (fun turns => skipToAuthenticator turns front) outcome ∧
      FrontOutcome msgId nonceType msg outcome := by
  obtain ⟨found, turns, done⟩ := skip_leaves wpsIdAuthenticator front.buf
  have left := Settles.map (Settles.loop ⟨turns, done⟩) orUnfinished
  cases found with
  | none =>
    exact ⟨_, Settles.bind left (Settles.const _), .refused (show rprotErrReqdTlvMissing ≠ wpsSuccess by decide)⟩
  | some next =>
    exact ⟨_, Settles.bind left (Settles.const _),
      .reached ⟨⟨b, checked, nonce⟩, kept.trans (.skip done), skip_found done,
        fun ext same => (behind ext same).trans (skip_pos done)⟩⟩

end

section

variable (regInfo : RegData) (msg : BufferObj)

theorem m3Front_outcome : ∃ outcome, Settles (fun turns => m3Front turns regInfo msg) outcome ∧
    FrontOutcome .m3 wpsIdRegistrarNonce msg outcome := by
  unfold m3Front
  cases checked : regMsgVersionCheck .m3 msg with
  | error code => exact ⟨_, Settles.const _, .refused (versionCheck_error checked)⟩
  | ok b =>
    have kept := (BufferObj.Kept.versionCheck checked).trans
      ((BufferObj.Kept.dserialize .unset wpsIdRegistrarNonce b 16).trans
        ((BufferObj.Kept.dserialize .unset wpsIdEHash1 _ 32).trans
          ((BufferObj.Kept.dserialize .unset wpsIdEHash2 _ 32).trans
            (BufferObj.Kept.skipStart regInfo.registrarVersion2 _))))
    obtain ⟨outcome, settled, as⟩ := skipToAuthenticator_outcome
      { nonce := _, hash1 := _, hash2 := _, encrSettings := .unset, vendorExt := _, tlvErr := false
        buf := _ } checked rfl kept fun _ same => skipStart_behind same
    exact ⟨outcome, Settles.bind (vendorExtSearch_settles _ _) settled, as⟩

theorem m7Front_outcome : ∃ outcome, Settles (fun turns => m7Front turns regInfo msg) outcome ∧
    FrontOutcome .m7 wpsIdRegistrarNonce msg outcome := by
  unfold m7Front
  cases checked : regMsgVersionCheck .m7 msg with
  | error code => exact ⟨_, Settles.const _, .refused (versionCheck_error checked)⟩
  | ok b =>
    have kept := (BufferObj.Kept.versionCheck checked).trans
      ((BufferObj.Kept.dserialize .unset wpsIdRegistrarNonce b 16).trans
        ((BufferObj.Kept.encrSettingsParse .unset _).trans
          ((BufferObj.Kept.x509Parse wpsIdX509CertReq _).trans
            (BufferObj.Kept.skipStart regInfo.registrarVersion2 _))))
    obtain ⟨outcome, settled, as⟩ := skipToAuthenticator_outcome
      { nonce := _, hash1 := .unset, hash2 := .unset, encrSettings := _, vendorExt := _, tlvErr := false
        buf := _ } checked rfl kept fun _ same => skipStart_behind same
    exact ⟨outcome, Settles.bind (vendorExtSearch_settles _ _) settled, as⟩

/-- The loop of M5 may run for ever: then the front comes to nothing else. -/
theorem m5Front_outcome : ∃ outcome, Settles (fun turns => m5Front turns regInfo msg) outcome ∧
    FrontOutcome .m5 wpsIdRegistrarNonce msg outcome := by
  unfold m5Front
  cases checked : regMsgVersionCheck .m5 msg with
  | error code => exact ⟨_, Settles.const _, .refused (versionCheck_error checked)⟩
  | ok b =>
    have kept := (BufferObj.Kept.versionCheck checked).trans
      ((BufferObj.Kept.dserialize .unset wpsIdRegistrarNonce b 16).trans
        ((BufferObj.Kept.encrSettingsParse .unset _).trans
          (BufferObj.Kept.skipStart regInfo.registrarVersion2 _)))
    by_cases ahead : Ahead wpsIdAuthenticator (skipStart regInfo.registrarVersion2
        (tlvEncrSettingsParse .unset (tlvDserialize .unset wpsIdRegistrarNonce b 16).buf).buf).2
    · obtain ⟨found, left, type⟩ := m5Skip_leaves ahead
      obtain ⟨turns, done⟩ := left
      have skipped := Settles.map (Settles.loop ⟨turns, done⟩) orUnfinished
      exact ⟨_, Settles.bind (vendorExtSearch_settles _ _) (Settles.bind skipped (Settles.const _)),
        .reached ⟨⟨b, checked, rfl⟩, kept.trans (.m5Skip done), type,
          fun _ same => (skipStart_behind same).trans (m5Skip_pos done)⟩⟩
    · refine ⟨.error .unfinished, Settles.bind (vendorExtSearch_settles _ _) ⟨0, fun turns _ => ?_⟩,
        .halted _⟩
      dsimp only
      rw [m5Skip_stuck ahead]
      rfl

end

section

variable {before later : Bytes} {dataLength : Nat} {around : Surroundings}

def versionBytes (msgId : Message) : Bytes :=
  tlv wpsIdVersion [wpsVersion] ++ tlv wpsIdMsgType [UInt8.ofNat msgId.id]

theorem versionCheck_at (msgId : Message) :
    regMsgVersionCheck msgId ⟨before, versionBytes msgId ++ later, dataLength, around⟩ =
      .ok ⟨before ++ versionBytes msgId, later, dataLength, around⟩ := by
  have type : msgId.id = (UInt8.ofNat msgId.id).toNat := by cases msgId <;> rfl
  rw [versionBytes, List.append_assoc, regMsgVersionCheck, tlvDserializeByte_at _ _ (by decide)]
  dsimp only
  rw [tlvDserializeByte_at _ _ (by decide), if_neg (by simp), if_neg (by simp),
    if_neg (not_not.mpr type), List.append_assoc]

theorem encrSettingsParse_at (old : EncrSettings) {settings : Bytes} (long : 32 ≤ settings.length)
    (fits : settings.length < 65536) :
    tlvEncrSettingsParse old ⟨before, tlv wpsIdEncrSettings settings ++ later, dataLength, around⟩ =
      ⟨true, ⟨some (before.length + 4), settings.length - 16⟩,
        ⟨before ++ tlv wpsIdEncrSettings settings, later, dataLength, around⟩⟩ := by
  have room : BufferObj.remaining ⟨before, tlv wpsIdEncrSettings settings ++ later, dataLength, around⟩ =
      4 + settings.length + later.length := BufferObj.remaining_tlv rfl
  have type : BufferObj.ntohs ⟨before, tlv wpsIdEncrSettings settings ++ later, dataLength, around⟩ 0 =
      wpsIdEncrSettings := BufferObj.ntohs_tlv rfl (by decide)
  have len : BufferObj.ntohs ⟨before, tlv wpsIdEncrSettings settings ++ later, dataLength, around⟩ 2 =
      settings.length := BufferObj.ntohs_tlv_len rfl fits
  rw [tlvEncrSettingsParse, cplxtlvParseHdr, room, type, len, if_neg (by omega), if_neg (not_not.mpr rfl),
    if_neg (by omega), if_neg (by omega)]
  dsimp only
  rw [BufferObj.past_tlv rfl]
  rfl

/-- An M7 with its nonce, its encrypted settings and its authenticator. -/
def m7Message (nonce settings auth : Bytes) : Bytes :=
  versionBytes .m7 ++ (tlv wpsIdRegistrarNonce nonce ++ (tlv wpsIdEncrSettings settings ++
    tlv wpsIdAuthenticator auth))

theorem m7Front_at {regInfo : RegData} (first : regInfo.registrarVersion2 < wpsVersion2)
    {nonce settings auth : Bytes} (sized : nonce.length = 16) (long : 32 ≤ settings.length)
    (fits : settings.length < 65536) :
    Settles (fun turns => m7Front turns regInfo
        ⟨[], m7Message nonce settings auth ++ later, dataLength, around⟩)
      (.ok (.ok
        { nonce := ⟨16, .inside 14⟩, hash1 := .unset, hash2 := .unset
          encrSettings := ⟨some 34, settings.length - 16⟩, vendorExt := none, tlvErr := false
          buf := ⟨versionBytes .m7 ++ tlv wpsIdRegistrarNonce nonce ++ tlv wpsIdEncrSettings settings,
            tlv wpsIdAuthenticator auth ++ later, dataLength, around⟩ })) := by
  have whole : m7Message nonce settings auth ++ later = versionBytes .m7 ++
      (tlv wpsIdRegistrarNonce nonce ++ (tlv wpsIdEncrSettings settings ++
        (tlv wpsIdAuthenticator auth ++ later))) := by
    simp [m7Message]
  have other : ∀ before, x509Parse wpsIdX509CertReq
      ⟨before, tlv wpsIdAuthenticator auth ++ later, dataLength, around⟩ =
      ⟨true, .unset, ⟨before, tlv wpsIdAuthenticator auth ++ later, dataLength, around⟩⟩ := by
    intro before
    rw [x509Parse, nextType_at (by decide), if_neg (by decide)]
  have places : (versionBytes .m7).length = 10 ∧
      (versionBytes .m7 ++ tlv wpsIdRegistrarNonce nonce).length = 30 := by
    simp [versionBytes, sized]
  rw [whole]
  unfold m7Front
  rw [versionCheck_at]
  dsimp only
  rw [List.nil_append, tlvDserialize_at _ (by decide) (by omega) (Or.inr (by omega))
    (List.ne_nil_of_length_pos (by omega)), encrSettingsParse_at _ long fits, other, places.1, places.2, sized]
  simp only [vendorExtSearch, if_pos first]
  refine Settles.bind (Settles.of_eq rfl) ?_
  exact Settles.bind (Settles.map (Settles.loop (skip_here (by decide) auth)) orUnfinished) (Settles.const _)

end

end BcmDhd.Wps
