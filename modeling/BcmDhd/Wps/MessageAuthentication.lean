import BcmDhd.Wps.BareSettings

namespace BcmDhd.Wps

open BcmDhd.Lib

/-- The authenticator at a place of the message is the MAC, as far as it goes, of the last
message sent and the message without it. -/
def Authentic (hmac : Hmac) (regInfo : RegData) (msg : Bytes) (place : Nat) : Prop :=
  ∃ value later, msg = msg.take place ++ (tlv wpsIdAuthenticator value ++ later) ∧
    value = (hmac regInfo.authKey (regInfo.outMsg ++ (msg.take place ++ later))).val.take 8

/-- The authenticator has eight bytes, and what is hashed of the message, with the last
message sent perhaps written into it, is the message without its authenticator. -/
def Covered (regInfo : RegData) (msg : Bytes) (front : Front) : Prop :=
  ∃ value later, msg = msg.take front.buf.pos ++ (tlv wpsIdAuthenticator value ++ later) ∧
    value.length = 8 ∧
    (front.appendOutMsg regInfo.outMsg).bytes.take (msg.length - 12) = msg.take front.buf.pos ++ later

section

variable {b : BufferObj} {offset : Nat} {bytes : Bytes}

theorem store_bytes : (b.store offset bytes).bytes =
    b.bytes.take offset ++ bytes ++ b.bytes.drop (offset + bytes.length) := by
  rw [BufferObj.store, BufferObj.bytes]
  exact List.take_append_drop _ _

theorem store_drop {place : Nat} (inside : offset ≤ b.bytes.length) (behind : offset + bytes.length ≤ place) :
    (b.store offset bytes).bytes.drop place = b.bytes.drop place := by
  have sized : (b.bytes.take offset ++ bytes).length = offset + bytes.length := by
    rw [List.length_append, List.length_take, Nat.min_eq_left inside]
  rw [store_bytes, List.drop_append, sized, List.drop_of_length_le (by omega), List.nil_append,
    List.drop_drop]
  congr 1
  omega

end

section

variable {msgId : Message} {nonceType : Nat} {msg : BufferObj} {front : Front} {value later : Bytes}

section

variable (found : Reached msgId nonceType msg front)
include found

theorem appendOutMsg_drop (outMsg : Bytes) {place : Nat}
    (behind : front.buf.pos ≤ place) :
    (front.appendOutMsg outMsg).bytes.drop place = front.buf.bytes.drop place := by
  unfold Front.appendOutMsg
  split
  · rename_i ext there
    have before := found.behind ext there
    have pos : front.buf.pos ≤ front.buf.bytes.length := by
      rw [BufferObj.bytes, List.length_append]
      exact Nat.le_add_right _ _
    split
    · exact store_drop (by omega) (by omega)
    · rfl
  · rfl

theorem received_value (here : front.buf.rest = tlv wpsIdAuthenticator value ++ later) (sized : value.length = 8)
    (outMsg : Bytes) :
    front.authenticator.value = ⟨8, .inside (front.buf.pos + 4)⟩ ∧
      (front.appendOutMsg outMsg).read front.authenticator.value.data 8 = .ok value := by
  have header : front.buf.header wpsIdAuthenticator = .found value.length :=
    BufferObj.header_tlv here (by decide) (by omega)
  have read : front.authenticator.value = ⟨8, .inside (front.buf.pos + 4)⟩ := by
    rw [Front.authenticator, tlvDserialize, header, sized]
    rfl
  have bytes : front.buf.bytes.drop (front.buf.pos + 4) = value ++ later := by
    rw [BufferObj.bytes, BufferObj.pos, List.drop_append, List.drop_of_length_le (by omega), here, tlv]
    simp [wpsHtons]
  have still := appendOutMsg_drop found outMsg (Nat.le_add_right front.buf.pos 4)
  rw [bytes] at still
  refine ⟨read, ?_⟩
  have room : front.buf.pos + 4 + 8 ≤ (front.appendOutMsg outMsg).bytes.length := by
    have lengths := congrArg List.length still
    rw [List.length_drop, List.length_append, sized] at lengths
    omega
  rw [read, BufferObj.read, BufferObj.load_inside room, still, List.take_left' sized]

theorem authentic_of_valid (whole : msg.dataLength = msg.bytes.length) {hmac : Hmac} {regInfo : RegData}
    (covered : Covered regInfo msg.bytes front) (valid : front.Valid hmac regInfo) :
    Authentic hmac regInfo msg.bytes front.buf.pos := by
  obtain ⟨value, later, split, sized, same⟩ := covered
  refine ⟨value, later, split, ?_⟩
  have here : front.buf.rest = tlv wpsIdAuthenticator value ++ later := by
    have taken : msg.bytes.take front.buf.pos = front.buf.before := by
      rw [← found.kept.bytes, BufferObj.bytes, BufferObj.pos, List.take_left]
    rw [taken, ← found.kept.bytes, BufferObj.bytes] at split
    exact List.append_cancel_left split
  obtain ⟨read, compared⟩ := received_value found here sized regInfo.outMsg
  rw [Front.Valid, compared] at valid
  rw [Except.ok.inj valid, Front.hashed, hmacData, read, appendOutMsg_dataLength, found.kept.dataLength, whole]
  dsimp only
  rw [same]

theorem covered_of_hashed (whole : msg.dataLength = msg.bytes.length) {regInfo : RegData}
    (here : front.buf.rest = tlv wpsIdAuthenticator value ++ later) (sized : value.length = 8)
    (same : regInfo.outMsg ++ (msg.bytes.take front.buf.pos ++ later) = front.hashed regInfo.outMsg) :
    Covered regInfo msg.bytes front := by
  obtain ⟨read, _⟩ := received_value found here sized regInfo.outMsg
  have taken : msg.bytes.take front.buf.pos = front.buf.before := by
    rw [← found.kept.bytes, BufferObj.bytes, BufferObj.pos, List.take_left]
  refine ⟨value, later, ?_, sized, ?_⟩
  · rw [taken, ← here, ← found.kept.bytes, BufferObj.bytes]
  · rw [Front.hashed, hmacData, read, appendOutMsg_dataLength, found.kept.dataLength, whole] at same
    exact (List.append_cancel_left same).symm

theorem mac_of_authentic {hmac : Hmac} {regInfo : RegData}
    (here : front.buf.rest = tlv wpsIdAuthenticator value ++ later) (small : value.length < 65536)
    (authentic : Authentic hmac regInfo msg.bytes front.buf.pos) : value =
      (hmac regInfo.authKey (regInfo.outMsg ++ (msg.bytes.take front.buf.pos ++ later))).val.take 8 := by
  obtain ⟨other, after, split, mac⟩ := authentic
  have sized : other.length = 8 := by
    rw [mac]
    exact length_take_eight _
  have taken : msg.bytes.take front.buf.pos = front.buf.before := by
    rw [← found.kept.bytes, BufferObj.bytes, BufferObj.pos, List.take_left]
  have same : tlv wpsIdAuthenticator value ++ later = tlv wpsIdAuthenticator other ++ after := by
    rw [taken, ← found.kept.bytes, BufferObj.bytes, here] at split
    exact List.append_cancel_left split
  obtain ⟨_, rfl, rfl⟩ := tlv_inj (by decide) (by decide) small (by omega) same
  exact mac

/-- An authenticator that is right although the MAC of all but the hashed bytes does not
start with it covers the message. -/
theorem covered_of_authentic (whole : msg.dataLength = msg.bytes.length) {hmac : Hmac} {regInfo : RegData}
    (here : front.buf.rest = tlv wpsIdAuthenticator value ++ later) (small : value.length < 65536)
    (others : regInfo.outMsg ++ (msg.bytes.take front.buf.pos ++ later) ≠ front.hashed regInfo.outMsg →
      (hmac regInfo.authKey (regInfo.outMsg ++ (msg.bytes.take front.buf.pos ++ later))).val.take 8 ≠ value)
    (authentic : Authentic hmac regInfo msg.bytes front.buf.pos) : Covered regInfo msg.bytes front := by
  have mac := mac_of_authentic found here small authentic
  refine covered_of_hashed found whole here (by rw [mac]; exact length_take_eight _) ?_
  by_contra differs
  exact others differs mac.symm

end

end

section

variable {msg : BufferObj} (whole : msg.dataLength = msg.bytes.length) (regInfo : RegData)
include whole

theorem m3_authentic_iff :
    (∀ hmac after, Settles (fun turns => regProtoProcessM3 hmac turns regInfo msg) (.ok (wpsSuccess, after)) →
      ∃ front, Settles (fun turns => m3Front turns regInfo msg) (.ok (.ok front)) ∧
        Authentic hmac regInfo msg.bytes front.buf.pos) ↔
      ∀ front, Settles (fun turns => m3Front turns regInfo msg) (.ok (.ok front)) →
        M3Passes regInfo front → Covered regInfo msg.bytes front := by
  constructor
  · intro authentic front settled passes
    have found := reached_of_settles (m3Front_outcome regInfo msg) settled
    obtain ⟨value, later, here, small, _⟩ := authenticator_found passes.checkable.authenticator
    obtain ⟨hmac, ⟨after, accepted⟩, others⟩ := m3_acceptable whole settled passes
      (regInfo.outMsg ++ (msg.bytes.take front.buf.pos ++ later)) value
    obtain ⟨other, also, right⟩ := authentic hmac after accepted
    cases settled.unique also
    exact covered_of_authentic found whole here small others right
  · intro covered hmac after accepted
    obtain ⟨front, settled, passes, valid⟩ := (m3_accepted_iff whole hmac regInfo).mp ⟨after, accepted⟩
    have found := reached_of_settles (m3Front_outcome regInfo msg) settled
    exact ⟨front, settled, authentic_of_valid found whole (covered front settled passes) valid⟩

variable (stale : Bytes)

theorem m5_authentic_iff :
    (∀ hmac decrypt after,
      Settles (fun turns => regProtoProcessM5 hmac decrypt turns stale regInfo msg) (.ok (wpsSuccess, after)) →
      ∃ front, Settles (fun turns => m5Front turns regInfo msg) (.ok (.ok front)) ∧
        Authentic hmac regInfo msg.bytes front.buf.pos) ↔
      ∀ front, Settles (fun turns => m5Front turns regInfo msg) (.ok (.ok front)) →
        EncrPasses regInfo front → Covered regInfo msg.bytes front := by
  constructor
  · intro authentic front settled passes
    have found := reached_of_settles (m5Front_outcome regInfo msg) settled
    obtain ⟨value, later, here, small, _⟩ := authenticator_found passes.checkable.authenticator
    obtain ⟨hmac, decrypt, ⟨after, accepted⟩, others⟩ := m5_acceptable whole settled passes stale
      (regInfo.outMsg ++ (msg.bytes.take front.buf.pos ++ later)) value
    obtain ⟨other, also, right⟩ := authentic hmac decrypt after accepted
    cases settled.unique also
    exact covered_of_authentic found whole here small others right
  · intro covered hmac decrypt after accepted
    obtain ⟨front, settled, passes, valid⟩ := m5_accepted whole accepted
    have found := reached_of_settles (m5Front_outcome regInfo msg) settled
    exact ⟨front, settled, authentic_of_valid found whole (covered front settled passes) valid⟩

theorem m7_authentic_iff :
    (∀ hmac decrypt after,
      Settles (fun turns => regProtoProcessM7 hmac decrypt turns stale regInfo msg) (.ok (wpsSuccess, after)) →
      ∃ front, Settles (fun turns => m7Front turns regInfo msg) (.ok (.ok front)) ∧
        Authentic hmac regInfo msg.bytes front.buf.pos) ↔
      ∀ front, Settles (fun turns => m7Front turns regInfo msg) (.ok (.ok front)) →
        ¬EncrPasses regInfo front := by
  constructor
  · intro authentic front settled passes
    have found := reached_of_settles (m7Front_outcome regInfo msg) settled
    obtain ⟨value, later, here, small, _⟩ := authenticator_found passes.checkable.authenticator
    obtain ⟨hmac, decrypt, ⟨after, accepted⟩, others⟩ := m7_acceptable whole settled passes stale
      (regInfo.outMsg ++ (msg.bytes.take front.buf.pos ++ later)) value
    obtain ⟨other, also, right⟩ := authentic hmac decrypt after accepted
    cases settled.unique also
    exact others (mac_of_authentic found here small right).symm
  · intro refused hmac decrypt after accepted
    obtain ⟨front, settled, passes⟩ := m7_accepted accepted
    exact absurd passes (refused front settled)

end

end BcmDhd.Wps
