import BcmDhd.Wps.FrontReading

namespace BcmDhd.Wps

open BcmDhd.Lib

variable {msgId : Message} {nonceType : Nat}

/-- The nonce is right as far as it goes, and there is an authenticator to compare. -/
structure Checkable (nonce : Nonce) (front : Front) : Prop where
  nonce : confirmNonce nonce front.buf front.nonce = .ok true
  authenticator : front.authenticator.ok = true

/-- What the authenticator is taken to be about. -/
def Front.hashed (front : Front) (outMsg : Bytes) : Bytes :=
  hmacData outMsg (front.appendOutMsg outMsg) front.authenticator.value.len

/-- The eight bytes at the authenticator's value are those of the MAC. -/
def Front.Valid (front : Front) (hmac : Hmac) (regInfo : RegData) : Prop :=
  (front.appendOutMsg regInfo.outMsg).read front.authenticator.value.data 8 =
    .ok ((hmac regInfo.authKey (front.hashed regInfo.outMsg)).val.take 8)

section

variable {front : Front} {nonce : Nonce}

theorem authenticator_found (ok : front.authenticator.ok = true) : ∃ value later,
    front.buf.rest = tlv wpsIdAuthenticator value ++ later ∧ value.length < 65536 ∧
      front.authenticator.value = ⟨limited value.length 8,
        if limited value.length 8 = 0 then .empty else .inside (front.buf.pos + 4)⟩ := by
  unfold Front.authenticator tlvDserialize at ok ⊢
  split at ok
  · cases ok
  · cases ok
  · rename_i len found
    obtain ⟨value, later, here, sized, _, small⟩ := BufferObj.header_found found
    subst sized
    exact ⟨value, later, here, small, rfl⟩

theorem limited_le (len dataSize : Nat) : limited len dataSize ≤ len := by
  unfold limited
  split
  · omega
  · exact Nat.le_refl len

theorem appendOutMsg_dataLength (front : Front) (outMsg : Bytes) :
    (front.appendOutMsg outMsg).dataLength = front.buf.dataLength := by
  unfold Front.appendOutMsg
  split
  · split <;> rfl
  · rfl

theorem received_of_ok (ok : front.authenticator.ok = true) (msg : BufferObj) :
    ∃ received, msg.read front.authenticator.value.data 8 = .ok received := read_of_ok ok

theorem checkMessage_of (checkable : Checkable nonce front)
    (whole : front.buf.dataLength = front.buf.bytes.length) (hmac : Hmac) (regInfo : RegData) :
    ∃ valid : Bool, (valid = true ↔ front.Valid hmac regInfo) ∧
      checkMessage hmac regInfo nonce front = .ok (.ok (valid, front.appendOutMsg regInfo.outMsg)) := by
  obtain ⟨value, later, here, _, found⟩ := authenticator_found checkable.authenticator
  obtain ⟨received, read⟩ := received_of_ok checkable.authenticator (front.appendOutMsg regInfo.outMsg)
  have room : ¬(front.appendOutMsg regInfo.outMsg).dataLength < 4 + front.authenticator.value.len := by
    have short := limited_le value.length 8
    rw [appendOutMsg_dataLength, whole, BufferObj.bytes, here, found, List.length_append,
      List.length_append, length_tlv]
    dsimp only
    omega
  refine ⟨decide ((hmac regInfo.authKey (front.hashed regInfo.outMsg)).val.take 8 = received), ?_, ?_⟩
  · rw [decide_eq_true_iff, Front.Valid, read, Except.ok.injEq]
    exact eq_comm
  · unfold checkMessage
    rw [checkable.nonce]
    simp only [bind, Except.bind, Bool.true_eq_false, if_false, if_neg room, read]
    rfl

/-- Only a message that can be checked passes the check. -/
theorem checkable_of_ok {hmac : Hmac} {regInfo : RegData} {valid : Bool} {msg : BufferObj}
    (checked : checkMessage hmac regInfo nonce front = .ok (.ok (valid, msg))) : Checkable nonce front := by
  unfold checkMessage at checked
  cases same : confirmNonce nonce front.buf front.nonce with
  | error halt =>
    rw [same] at checked
    cases checked
  | ok right =>
    rw [same] at checked
    cases right with
    | false => cases checked
    | true =>
      refine ⟨same, ?_⟩
      by_contra failed
      have missing : front.authenticator.value.data = .null := by
        unfold Front.authenticator tlvDserialize at failed ⊢
        split
        · rfl
        · rfl
        · rename_i len found
          rw [found] at failed
          exact absurd rfl failed
      simp only [bind, Except.bind, Bool.true_eq_false, if_false, missing, BufferObj.read] at checked
      split at checked
      · cases checked
      · cases checked

theorem checkMessage_error {hmac : Hmac} {regInfo : RegData} {code : Nat}
    (checked : checkMessage hmac regInfo nonce front = .ok (.error code)) : code ≠ wpsSuccess := by
  unfold checkMessage at checked
  cases same : confirmNonce nonce front.buf front.nonce with
  | error halt =>
    rw [same] at checked
    cases checked
  | ok right =>
    rw [same] at checked
    cases right with
    | false =>
      cases checked
      decide
    | true =>
      simp only [bind, Except.bind, Bool.true_eq_false, if_false] at checked
      split at checked
      · cases checked
      · split at checked
        · cases checked
        · cases checked

theorem reached_of_settles {msg : BufferObj} {run : Nat → Except Halt (Except Nat Front)}
    (comes : ∃ outcome, Settles run outcome ∧ FrontOutcome msgId nonceType msg outcome)
    (settled : Settles run (.ok (.ok front))) : Reached msgId nonceType msg front := by
  obtain ⟨outcome, also, as⟩ := comes
  cases also.unique settled
  cases as with
  | reached found => exact found

theorem Reached.whole {msg : BufferObj}
    (found : Reached msgId nonceType msg front) (whole : msg.dataLength = msg.bytes.length) :
    front.buf.dataLength = front.buf.bytes.length := by
  rw [found.kept.dataLength, found.kept.bytes, whole]

theorem accepted_reached {After : Type} {msg : BufferObj}
    {run : Nat → Except Halt (Except Nat Front)} {rest : Nat → Except Nat Front → Except Halt (Nat × After)}
    {after : After} (comes : ∃ outcome, Settles run outcome ∧ FrontOutcome msgId nonceType msg outcome)
    (refusal : ∀ turns code, ∃ a, rest turns (.error code) = .ok (code, a))
    (accepted : Settles (fun turns => run turns >>= rest turns) (.ok (wpsSuccess, after))) :
    ∃ found, Settles run (.ok (.ok found)) ∧ Reached msgId nonceType msg found ∧
      Settles (fun turns => rest turns (.ok found)) (.ok (wpsSuccess, after)) := by
  obtain ⟨outcome, settled, as⟩ := comes
  cases as with
  | halted halt =>
    have same := (Settles.bind_error settled).unique accepted
    cases same
  | refused failed =>
    obtain ⟨enough, same⟩ := Settles.of_bind settled accepted
    obtain ⟨a, other⟩ := refusal enough _
    have code := (Prod.mk.inj (Except.ok.inj (other.symm.trans (same enough (Nat.le_refl enough))))).1
    exact absurd code failed
  | reached found => exact ⟨_, settled, found, Settles.of_bind settled accepted⟩

end

theorem bind_ok {Value Final : Type} {first : Except Halt Value} {next : Value → Except Halt Final}
    {final : Final} (both : first >>= next = .ok final) :
    ∃ value, first = .ok value ∧ next value = .ok final := by
  cases first with
  | error halt => cases both
  | ok value => exact ⟨value, rfl, both⟩

/-- An M3 whose checks come to the authenticator and whose hashes are there. -/
structure M3Passes (regInfo : RegData) (front : Front) : Prop where
  checkable : Checkable regInfo.registrarNonce front
  hash1 : front.hash1.data ≠ .null
  hash2 : front.hash2.data ≠ .null

theorem readMac_ok {b : BufferObj} {data : Ptr} (some_ : data ≠ .null) : ∃ mac, b.readMac data = .ok mac := by
  cases data with
  | null => exact absurd rfl some_
  | empty => exact ⟨_, rfl⟩
  | inside offset => exact ⟨_, rfl⟩

theorem readMac_some {b : BufferObj} {data : Ptr} {mac : Mac} (read : b.readMac data = .ok mac) :
    data ≠ .null := by
  rintro rfl
  cases read

theorem checked_valid {front : Front} {nonce : Nonce} {hmac : Hmac} {regInfo : RegData} {valid : Bool}
    {msg : BufferObj} (whole : front.buf.dataLength = front.buf.bytes.length)
    (checked : checkMessage hmac regInfo nonce front = .ok (.ok (valid, msg))) :
    Checkable nonce front ∧ (valid = true ↔ front.Valid hmac regInfo) := by
  have checkable := checkable_of_ok checked
  obtain ⟨other, same, checks⟩ := checkMessage_of checkable whole hmac regInfo
  rw [checks] at checked
  cases checked
  exact ⟨checkable, same⟩

theorem m3_accepted_iff {msg : BufferObj} (whole : msg.dataLength = msg.bytes.length) (hmac : Hmac)
    (regInfo : RegData) :
    (∃ after, Settles (fun turns => regProtoProcessM3 hmac turns regInfo msg) (.ok (wpsSuccess, after))) ↔
      ∃ front, Settles (fun turns => m3Front turns regInfo msg) (.ok (.ok front)) ∧
        M3Passes regInfo front ∧ front.Valid hmac regInfo := by
  constructor
  · rintro ⟨after, accepted⟩
    obtain ⟨front, settled, found, rest⟩ := accepted_reached (m3Front_outcome regInfo msg)
      (fun _ _ => ⟨regInfo, rfl⟩) accepted
    refine ⟨front, settled, ?_⟩
    have still := found.whole whole
    obtain ⟨enough, same⟩ := rest
    obtain ⟨checked, here, final⟩ := bind_ok (same enough (Nat.le_refl enough))
    rcases checked with code | ⟨valid, left⟩
    · cases final
      exact absurd rfl (checkMessage_error here)
    · obtain ⟨checkable, iff⟩ := checked_valid still here
      cases valid with
      | false => cases final
      | true =>
        obtain ⟨eHash1, one, final⟩ := bind_ok final
        obtain ⟨eHash2, two, final⟩ := bind_ok final
        exact ⟨⟨checkable, readMac_some one, readMac_some two⟩, iff.mp rfl⟩
  · rintro ⟨front, settled, passes, valid⟩
    have still := (reached_of_settles (m3Front_outcome regInfo msg) settled).whole whole
    obtain ⟨checked, iff, here⟩ := checkMessage_of passes.checkable still hmac regInfo
    obtain ⟨eHash1, one⟩ := readMac_ok (b := front.appendOutMsg regInfo.outMsg) passes.hash1
    obtain ⟨eHash2, two⟩ := readMac_ok (b := front.appendOutMsg regInfo.outMsg) passes.hash2
    refine ⟨{ regInfo with
      eHash1 := eHash1, eHash2 := eHash2, inMsg := (front.appendOutMsg regInfo.outMsg).bytes },
      Settles.bind settled ⟨0, fun _ _ => ?_⟩⟩
    dsimp only
    rw [here, iff.mpr valid]
    simp only [bind, Except.bind, one, two]

/-- Encrypted settings that were read and whose length can be decrypted. -/
structure EncrSettings.Whole (encr : EncrSettings) : Prop where
  iv : encr.iv ≠ none
  blocks : encr.encrDataLength % 16 = 0
  some_ : 16 ≤ encr.encrDataLength
  fits : encr.encrDataLength ≤ 1024

/-- A message whose checks come to the authenticator and whose settings can be decrypted. -/
structure EncrPasses (regInfo : RegData) (front : Front) : Prop where
  checkable : Checkable regInfo.registrarNonce front
  encrSettings : front.encrSettings.Whole

theorem whole_of_decrypted {decrypt : Decrypt} {regInfo : RegData} {msg plainText : BufferObj}
    {encr : EncrSettings} {stale : Bytes}
    (decrypted : regProtoDecryptData decrypt regInfo msg encr stale = .ok plainText) : encr.Whole := by
  unfold regProtoDecryptData at decrypted
  split at decrypted
  · cases decrypted
  rename_i iv there
  split at decrypted
  · cases decrypted
  · rename_i able
    obtain ⟨blocks, able⟩ := not_or.mp able
    obtain ⟨some_, fits⟩ := not_or.mp able
    exact ⟨by simp [there], not_not.mp blocks, Nat.not_lt.mp some_, Nat.not_lt.mp fits⟩

section

variable {msg : BufferObj} {hmac : Hmac} {decrypt : Decrypt} {stale : Bytes} {regInfo : RegData}

theorem m5_accepted (whole : msg.dataLength = msg.bytes.length) {after : RegData}
    (accepted : Settles (fun turns => regProtoProcessM5 hmac decrypt turns stale regInfo msg)
      (.ok (wpsSuccess, after))) :
    ∃ front, Settles (fun turns => m5Front turns regInfo msg) (.ok (.ok front)) ∧
      EncrPasses regInfo front ∧ front.Valid hmac regInfo := by
  obtain ⟨front, settled, found, rest⟩ := accepted_reached (m5Front_outcome regInfo msg)
    (fun _ _ => ⟨regInfo, rfl⟩) accepted
  refine ⟨front, settled, ?_⟩
  obtain ⟨enough, same⟩ := rest
  obtain ⟨checked, here, final⟩ := bind_ok (same enough (Nat.le_refl enough))
  rcases checked with code | ⟨valid, left⟩
  · cases final
    exact absurd rfl (checkMessage_error here)
  · obtain ⟨checkable, iff⟩ := checked_valid (found.whole whole) here
    cases valid with
    | false => cases final
    | true =>
      obtain ⟨plainText, decrypted, final⟩ := bind_ok final
      exact ⟨⟨checkable, whole_of_decrypted decrypted⟩, iff.mp rfl⟩

theorem m7_accepted {after : RegData × Option EsM7}
    (accepted : Settles (fun turns => regProtoProcessM7 hmac decrypt turns stale regInfo msg)
      (.ok (wpsSuccess, after))) :
    ∃ front, Settles (fun turns => m7Front turns regInfo msg) (.ok (.ok front)) ∧
      EncrPasses regInfo front := by
  obtain ⟨front, settled, found, rest⟩ := accepted_reached (m7Front_outcome regInfo msg)
    (fun _ _ => ⟨(regInfo, none), rfl⟩) accepted
  refine ⟨front, settled, ?_⟩
  obtain ⟨enough, same⟩ := rest
  obtain ⟨checked, here, final⟩ := bind_ok (same enough (Nat.le_refl enough))
  rcases checked with code | ⟨valid, left⟩
  · cases final
    exact absurd rfl (checkMessage_error here)
  · obtain ⟨plainText, decrypted, final⟩ := bind_ok final
    exact ⟨checkable_of_ok here, whole_of_decrypted decrypted⟩

end

end BcmDhd.Wps
