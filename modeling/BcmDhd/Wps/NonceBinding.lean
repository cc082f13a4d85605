import BcmDhd.Wps.BareSettings

namespace BcmDhd.Wps

open BcmDhd.Lib

/-- The value is that of an attribute of this type, reached from attribute to attribute. -/
inductive Carries (theType : Nat) (value : Bytes) : Bytes → Prop
  | here (later : Bytes) : Carries theType value (tlv theType value ++ later)
  | behind {other : Nat} {skipped later : Bytes} (small : other < 65536) (fits : skipped.length < 65536)
    (carried : Carries theType value later) : Carries theType value (tlv other skipped ++ later)

/-- The value is that of an attribute behind the first one. -/
def CarriesBehind (theType : Nat) (value bytes : Bytes) : Prop :=
  ∃ other skipped later, bytes = tlv other skipped ++ later ∧ other < 65536 ∧ skipped.length < 65536 ∧
    Carries theType value later

/-- The bytes start with an attribute of this type that has 16 bytes. -/
def StartsFull (theType : Nat) (bytes : Bytes) : Prop :=
  ∃ value later, bytes = tlv theType value ++ later ∧ value.length = 16

/-- The bytes start with a full nonce, or this nonce comes later in them. -/
def NonceThere (theType : Nat) (nonce : Nonce) (bytes : Bytes) : Prop :=
  StartsFull theType bytes ∨ CarriesBehind theType nonce.val bytes

section

variable {theType other : Nat} {value skipped later bytes : Bytes}

theorem carries_iff : Carries theType value bytes ↔
    (∃ later, bytes = tlv theType value ++ later) ∨ CarriesBehind theType value bytes := by
  constructor
  · intro carried
    cases carried with
    | here later => exact Or.inl ⟨later, rfl⟩
    | behind small fits carried => exact Or.inr ⟨_, _, _, rfl, small, fits, carried⟩
  · intro either
    rcases either with ⟨later, rfl⟩ | ⟨other, skipped, later, rfl, small, fits, carried⟩
    · exact Carries.here later
    · exact Carries.behind small fits carried

theorem not_carries_nil : ¬Carries theType value [] := by
  intro carried
  rcases carries_iff.mp carried with ⟨later, same⟩ | ⟨_, _, _, same, _⟩
  · exact absurd (congrArg List.length same) (by simp; omega)
  · exact absurd (congrArg List.length same) (by simp; omega)

theorem carries_other (type : theType < 65536) (sized : value.length < 65536) (small : other < 65536)
    (fits : skipped.length < 65536) (differs : other ≠ theType) :
    Carries theType value (tlv other skipped ++ later) ↔ Carries theType value later := by
  constructor
  · intro carried
    rcases carries_iff.mp carried with ⟨after, same⟩ | ⟨_, _, after, same, also, short, carried⟩
    · exact absurd (tlv_inj small type fits sized same).1 differs
    · obtain ⟨_, _, rfl⟩ := tlv_inj small also fits short same
      exact carried
  · exact Carries.behind small fits

end

section

variable {theType : Nat} {b msg : BufferObj} {nonce : Nonce}

/-- A nonce that is confirmed where it is read is there in full, or not at all where the
attribute does not have 16 bytes. -/
theorem carries_iff_there (small : theType < 65536) (same : msg.bytes = b.bytes)
    (confirmed : confirmNonce nonce msg (tlvDserialize .unset theType b 16).value = .ok true) :
    Carries theType nonce.val b.rest ↔ NonceThere theType nonce b.rest := by
  rw [carries_iff, NonceThere]
  apply or_congr_left
  constructor
  · intro first
    obtain ⟨later, here⟩ := first
    exact ⟨nonce.val, later, here, nonce.property⟩
  · intro full
    obtain ⟨value, later, here, sized⟩ := full
    refine ⟨later, ?_⟩
    have read : (tlvDserialize .unset theType b 16).value = ⟨16, .inside (b.pos + 4)⟩ := by
      rw [tlvDserialize, BufferObj.header_tlv here small (by omega), sized]
      rfl
    have bytes : msg.bytes.drop (b.pos + 4) = value ++ later := by
      rw [same, BufferObj.bytes, BufferObj.pos, List.drop_append, List.drop_of_length_le (by omega), here, tlv]
      simp [wpsHtons]
    have room : b.pos + 4 + 16 ≤ msg.bytes.length := by
      have lengths := congrArg List.length bytes
      rw [List.length_drop, List.length_append, sized] at lengths
      omega
    rw [read, confirmNonce, BufferObj.read, BufferObj.load_inside room, bytes, List.take_left' sized] at confirmed
    have equal := of_decide_eq_true (Except.ok.inj confirmed)
    rw [List.take_of_length_le (Nat.le_of_eq nonce.property)] at equal
    rw [equal, here]

theorem carries_behind_reading {other dataSize : Nat} (old : TlvPtr) (small : theType < 65536)
    (differs : other ≠ theType) :
    Carries theType nonce.val (tlvDserialize old other b dataSize).buf.rest ↔ Carries theType nonce.val b.rest := by
  unfold tlvDserialize
  split
  · exact Iff.rfl
  · exact Iff.rfl
  · rename_i len found
    obtain ⟨value, later, here, sized, type, fits⟩ := BufferObj.header_found found
    have left : (b.past len).rest = later := by
      rw [← sized, BufferObj.past_tlv here]
    rw [left, here, carries_other small (by rw [nonce.property]; decide) type (sized ▸ fits) differs]

theorem tlvDserializeByte_rest {other : Nat} (old : UInt8) (ok : (tlvDserializeByte old other b).ok = true) :
    ∃ value, b.rest = tlv other value ++ (tlvDserializeByte old other b).buf.rest ∧ value.length < 65536 := by
  unfold tlvDserializeByte at ok ⊢
  split
  · rename_i len found
    obtain ⟨value, later, here, sized, _, fits⟩ := BufferObj.header_found found
    refine ⟨value, ?_, sized ▸ fits⟩
    dsimp only
    rw [← sized, BufferObj.past_tlv here, here]
  · rename_i other
    split at ok
    · rename_i len found
      exact absurd found (other len)
    · cases ok

/-- The version and the type stand in front of the nonces. -/
theorem carries_behind_type {msgId : Message} (small : theType < 65536) (version : wpsIdVersion ≠ theType)
    (type : wpsIdMsgType ≠ theType) (checked : regMsgVersionCheck msgId msg = .ok b) :
    Carries theType nonce.val msg.rest ↔ Carries theType nonce.val b.rest := by
  unfold regMsgVersionCheck at checked
  dsimp only at checked
  split at checked
  · cases checked
  rename_i there
  split at checked
  · cases checked
  split at checked
  · cases checked
  cases checked
  obtain ⟨first, second⟩ := not_or.mp there
  obtain ⟨one, here, short⟩ := tlvDserializeByte_rest 0 (Bool.of_not_eq_false first)
  obtain ⟨two, also, brief⟩ := tlvDserializeByte_rest 0 (Bool.of_not_eq_false second)
  have sized : nonce.val.length < 65536 := by
    rw [nonce.property]
    decide
  rw [here, carries_other small sized (by decide) short version, also,
    carries_other small sized (by decide) brief type]

end

/-- Behind the message type is a full nonce, or this nonce comes later. -/
def NonceBehindType (msgId : Message) (theType : Nat) (nonce : Nonce) (msg : BufferObj) : Prop :=
  ∀ b, regMsgVersionCheck msgId msg = .ok b → NonceThere theType nonce b.rest

theorem nonceBehindType_iff {msgId : Message} {theType : Nat} {nonce : Nonce} {msg b : BufferObj}
    (checked : regMsgVersionCheck msgId msg = .ok b) :
    NonceBehindType msgId theType nonce msg ↔ NonceThere theType nonce b.rest := by
  constructor
  · intro there
    exact there b checked
  · intro there other also
    cases checked.symm.trans also
    exact there

section

variable {msg : BufferObj} {regInfo : RegData} {front : Front}

theorem reached_carries_iff {msgId : Message} (start : msg.before = [])
    (found : Reached msgId wpsIdRegistrarNonce msg front) (checkable : Checkable regInfo.registrarNonce front) :
    Carries wpsIdRegistrarNonce regInfo.registrarNonce.val msg.bytes ↔
      NonceBehindType msgId wpsIdRegistrarNonce regInfo.registrarNonce msg := by
  obtain ⟨b, checked, read⟩ := found.nonce
  have same : front.buf.bytes = b.bytes :=
    found.kept.bytes.trans (BufferObj.Kept.versionCheck checked).bytes.symm
  have confirmed := checkable.nonce
  rw [read] at confirmed
  rw [BufferObj.bytes, start, List.nil_append,
    carries_behind_type (by decide) (by decide) (by decide) checked,
    carries_iff_there (by decide) same confirmed, nonceBehindType_iff checked]

end

section

variable {msg : BufferObj} (start : msg.before = []) (whole : msg.dataLength = msg.bytes.length)
  (regInfo : RegData) (stale : Bytes)
include start whole

theorem m3_bound_iff :
    (∀ hmac after, Settles (fun turns => regProtoProcessM3 hmac turns regInfo msg) (.ok (wpsSuccess, after)) →
      Carries wpsIdRegistrarNonce regInfo.registrarNonce.val msg.bytes) ↔
      ∀ front, Settles (fun turns => m3Front turns regInfo msg) (.ok (.ok front)) →
        M3Passes regInfo front → NonceBehindType .m3 wpsIdRegistrarNonce regInfo.registrarNonce msg := by
  constructor
  · intro bound front settled passes
    obtain ⟨hmac, ⟨after, accepted⟩, _⟩ := m3_acceptable whole settled passes [] []
    exact (reached_carries_iff start (reached_of_settles (m3Front_outcome regInfo msg) settled)
      passes.checkable).mp (bound hmac after accepted)
  · intro there hmac after accepted
    obtain ⟨front, settled, passes, _⟩ := (m3_accepted_iff whole hmac regInfo).mp ⟨after, accepted⟩
    exact (reached_carries_iff start (reached_of_settles (m3Front_outcome regInfo msg) settled)
      passes.checkable).mpr (there front settled passes)

theorem m5_bound_iff :
    (∀ hmac decrypt after,
      Settles (fun turns => regProtoProcessM5 hmac decrypt turns stale regInfo msg) (.ok (wpsSuccess, after)) →
      Carries wpsIdRegistrarNonce regInfo.registrarNonce.val msg.bytes) ↔
      ∀ front, Settles (fun turns => m5Front turns regInfo msg) (.ok (.ok front)) →
        EncrPasses regInfo front → NonceBehindType .m5 wpsIdRegistrarNonce regInfo.registrarNonce msg := by
  constructor
  · intro bound front settled passes
    obtain ⟨hmac, decrypt, ⟨after, accepted⟩, _⟩ := m5_acceptable whole settled passes stale [] []
    exact (reached_carries_iff start (reached_of_settles (m5Front_outcome regInfo msg) settled)
      passes.checkable).mp (bound hmac decrypt after accepted)
  · intro there hmac decrypt after accepted
    obtain ⟨front, settled, passes, _⟩ := m5_accepted whole accepted
    exact (reached_carries_iff start (reached_of_settles (m5Front_outcome regInfo msg) settled)
      passes.checkable).mpr (there front settled passes)

theorem m7_bound_iff :
    (∀ hmac decrypt after,
      Settles (fun turns => regProtoProcessM7 hmac decrypt turns stale regInfo msg) (.ok (wpsSuccess, after)) →
      Carries wpsIdRegistrarNonce regInfo.registrarNonce.val msg.bytes) ↔
      ∀ front, Settles (fun turns => m7Front turns regInfo msg) (.ok (.ok front)) →
        EncrPasses regInfo front → NonceBehindType .m7 wpsIdRegistrarNonce regInfo.registrarNonce msg := by
  constructor
  · intro bound front settled passes
    obtain ⟨hmac, decrypt, ⟨after, accepted⟩, _⟩ := m7_acceptable whole settled passes stale [] []
    exact (reached_carries_iff start (reached_of_settles (m7Front_outcome regInfo msg) settled)
      passes.checkable).mp (bound hmac decrypt after accepted)
  · intro there hmac decrypt after accepted
    obtain ⟨front, settled, passes⟩ := m7_accepted accepted
    exact (reached_carries_iff start (reached_of_settles (m7Front_outcome regInfo msg) settled)
      passes.checkable).mpr (there front settled passes)

end

/-- Both nonces are right as far as they go. -/
structure NoncesConfirmed (regInfo : RegData) (msg : BufferObj) (nonces : TlvPtr × TlvPtr) : Prop where
  enrollee : confirmNonce regInfo.enrolleeNonce msg nonces.1 = .ok true
  registrar : confirmNonce regInfo.registrarNonce msg nonces.2 = .ok true

/-- A message of this type whose nonces are right as far as they go. -/
def Confirmed (msgId : Message) (regInfo : RegData) (msg : BufferObj) : Prop :=
  ∃ nonces, bothNonces msgId msg = .ok nonces ∧ NoncesConfirmed regInfo msg (nonces.1, nonces.2.value)

section

variable {regInfo : RegData} {msg : BufferObj}

theorem confirmNonces_settles (regInfo : RegData) (msg : BufferObj) (nonces : TlvPtr × TlvPtr) :
    ∃ outcome, Settles (fun turns => confirmNonces turns regInfo msg nonces) outcome ∧
      (outcome = .ok wpsSuccess ↔ NoncesConfirmed regInfo msg nonces) := by
  refine ⟨_, Settles.bind (vendorExtSearch_settles _ _) (Settles.const _), ?_⟩
  constructor
  · intro done
    obtain ⟨enrollee, one, rest⟩ := bind_ok done
    cases enrollee with
    | false => cases rest
    | true =>
      obtain ⟨registrar, two, rest⟩ := bind_ok rest
      cases registrar with
      | false => cases rest
      | true => exact ⟨one, two⟩
  · intro confirmed
    rw [confirmed.enrollee]
    simp only [bind, Except.bind, Bool.true_eq_false, if_false, confirmed.registrar, if_true]

theorem bothNonces_error {msgId : Message} {code : Nat} (read : bothNonces msgId msg = .error code) :
    code ≠ wpsSuccess := by
  unfold bothNonces at read
  cases checked : regMsgVersionCheck msgId msg with
  | error other =>
    rw [checked] at read
    cases read
    exact versionCheck_error checked
  | ok b =>
    rw [checked] at read
    cases read

theorem confirmed_iff {msgId : Message} : Settles (fun turns => match bothNonces msgId msg with
      | .error code => (.ok code : Except Halt Nat)
      | .ok nonces => confirmNonces turns regInfo msg (nonces.1, nonces.2.value)) (.ok wpsSuccess) ↔
    Confirmed msgId regInfo msg := by
  cases read : bothNonces msgId msg with
  | error code =>
    constructor
    · intro done
      exact absurd (Except.ok.inj ((Settles.const _).unique done)) (bothNonces_error read)
    · intro confirmed
      obtain ⟨nonces, same, _⟩ := confirmed
      cases read.symm.trans same
  | ok nonces =>
    obtain ⟨outcome, settled, as⟩ := confirmNonces_settles regInfo msg (nonces.1, nonces.2.value)
    constructor
    · intro done
      exact ⟨nonces, read, as.mp (settled.unique done)⟩
    · intro confirmed
      obtain ⟨other, same, right⟩ := confirmed
      cases read.symm.trans same
      exact as.mpr right ▸ settled

theorem done_accepted_iff : Settles (fun turns => regProtoProcessDone turns regInfo msg) (.ok wpsSuccess) ↔
    Confirmed .done regInfo msg := confirmed_iff

theorem ack_accepted_iff : Settles (fun turns => regProtoProcessAck turns regInfo msg) (.ok wpsSuccess) ↔
    Confirmed .ack regInfo msg := confirmed_iff

theorem nack_accepted_iff :
    (∃ configError, Settles (fun turns => regProtoProcessNack turns regInfo msg)
      (.ok (wpsSuccess, configError))) ↔ Confirmed .nack regInfo msg := by
  unfold regProtoProcessNack
  cases read : bothNonces .nack msg with
  | error code =>
    constructor
    · intro accepted
      obtain ⟨configError, done⟩ := accepted
      have same := Except.ok.inj ((Settles.const _).unique done)
      exact absurd (congrArg Prod.fst same) (bothNonces_error read)
    · intro confirmed
      obtain ⟨nonces, same, _⟩ := confirmed
      cases read.symm.trans same
  | ok nonces =>
    obtain ⟨outcome, settled, as⟩ := confirmNonces_settles regInfo msg (nonces.1, nonces.2.value)
    constructor
    · intro accepted
      obtain ⟨configError, done⟩ := accepted
      refine ⟨nonces, read, as.mp ?_⟩
      cases outcome with
      | error halt =>
        cases (Settles.bind_error settled).unique done
      | ok code =>
        have final := (Settles.of_bind settled done)
        obtain ⟨enough, same⟩ := final
        cases same enough (Nat.le_refl enough)
        rfl
    · intro confirmed
      obtain ⟨other, same, right⟩ := confirmed
      cases read.symm.trans same
      exact ⟨_, Settles.bind (as.mpr right ▸ settled) (Settles.const _)⟩

theorem confirmed_places {msgId : Message} (confirmed : Confirmed msgId regInfo msg) :
    ∃ b, regMsgVersionCheck msgId msg = .ok b ∧
      confirmNonce regInfo.enrolleeNonce msg (tlvDserialize .unset wpsIdEnrolleeNonce b 16).value = .ok true ∧
      confirmNonce regInfo.registrarNonce msg (tlvDserialize .unset wpsIdRegistrarNonce
        (tlvDserialize .unset wpsIdEnrolleeNonce b 16).buf 16).value = .ok true := by
  obtain ⟨nonces, read, right⟩ := confirmed
  unfold bothNonces at read
  cases checked : regMsgVersionCheck msgId msg with
  | error code =>
    rw [checked] at read
    cases read
  | ok b =>
    rw [checked] at read
    cases read
    exact ⟨b, rfl, right.enrollee, right.registrar⟩

end

/-- Behind the enrollee nonce is a full registrar nonce, or this one comes later. -/
def RegistrarNonceBehind (msgId : Message) (nonce : Nonce) (msg : BufferObj) : Prop :=
  ∀ b, regMsgVersionCheck msgId msg = .ok b →
    NonceThere wpsIdRegistrarNonce nonce (tlvDserialize .unset wpsIdEnrolleeNonce b 16).buf.rest

section

variable {msgId : Message} {regInfo : RegData} {msg : BufferObj} (start : msg.before = [])
include start

/-- A message that is accepted exactly if both nonces are right as far as they go carries
one of them, exactly if it is there in full where it is read. -/
theorem both_bound_iff {accepted : Prop} (iff : accepted ↔ Confirmed msgId regInfo msg) :
    ((accepted → Carries wpsIdEnrolleeNonce regInfo.enrolleeNonce.val msg.bytes) ↔
        (Confirmed msgId regInfo msg →
          NonceBehindType msgId wpsIdEnrolleeNonce regInfo.enrolleeNonce msg)) ∧
      ((accepted → Carries wpsIdRegistrarNonce regInfo.registrarNonce.val msg.bytes) ↔
        (Confirmed msgId regInfo msg → RegistrarNonceBehind msgId regInfo.registrarNonce msg)) := by
  rw [iff]
  refine ⟨forall_congr' fun confirmed => ?_, forall_congr' fun confirmed => ?_⟩
  · obtain ⟨b, checked, enrollee, _⟩ := confirmed_places confirmed
    rw [BufferObj.bytes, start, List.nil_append,
      carries_behind_type (by decide) (by decide) (by decide) checked,
      carries_iff_there (by decide) (BufferObj.Kept.versionCheck checked).bytes.symm enrollee,
      nonceBehindType_iff checked]
  · obtain ⟨b, checked, _, registrar⟩ := confirmed_places confirmed
    have same := ((BufferObj.Kept.versionCheck checked).trans
      (BufferObj.Kept.dserialize .unset wpsIdEnrolleeNonce b 16)).bytes.symm
    rw [BufferObj.bytes, start, List.nil_append,
      carries_behind_type (by decide) (by decide) (by decide) checked,
      ← carries_behind_reading .unset (by decide) (show wpsIdEnrolleeNonce ≠ wpsIdRegistrarNonce by decide),
      carries_iff_there (by decide) same registrar]
    constructor
    · intro there other also
      cases checked.symm.trans also
      exact there
    · intro there
      exact there b checked

end

end BcmDhd.Wps
