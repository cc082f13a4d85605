import BcmDhd.Wps.SettingsReading

namespace BcmDhd.Wps

open BcmDhd.Lib

/-- A buffer that received these bytes, with room behind them. -/
def written (bytes slack : Bytes) (around : Surroundings) : BufferObj :=
  ⟨[], bytes ++ slack, bytes.length, around⟩

/-- The settings of an M7 come back, with a WEP index of 1 for none, whatever the MAC is. -/
def M7ApRecovered (settings : NetworkSettings) (nonce : Nonce) (authKey : Bytes) : Prop :=
  ∀ hmac slack around, Settles
    (fun turns => regMsgM7apParse hmac turns
      (written (regMsgM7apWrite hmac (settings.m7 nonce) [] authKey) slack around) authKey)
    (.ok (wpsSuccess, { settings.m7 nonce with wepIdx := some (settings.wepIdx.getD 1) }))

def M7EnrRecovered (nonce : Nonce) (idProof : IdentityProof) (authKey : Bytes) : Prop :=
  ∀ hmac slack around, Settles
    (fun turns => regMsgM7enrParse hmac turns
      (written (regMsgM7enrWrite hmac (m7Enr nonce idProof) [] authKey) slack around) authKey)
    (.ok (wpsSuccess, m7Enr nonce idProof))

/-- What was written of the settings of an M8: the second version writes no network
index, and an identifier goes with a new password only. -/
def m8Written (settings : NetworkSettings) (nwIndex : Option UInt8) (newPwd : NewPassword)
    (pwdId : UInt16) (version2 : Bool) : EsM8Ap :=
  { settings.m8 (if version2 then none else nwIndex) newPwd pwdId with
    pwdId := if newPwd.val = [] then 0 else pwdId.toNat
    wepIdx := some (settings.wepIdx.getD 1) }

def M8ApRecovered (settings : NetworkSettings) (nwIndex : Option UInt8) (newPwd : NewPassword)
    (pwdId : UInt16) (version2 : Bool) (authKey : Bytes) : Prop :=
  ∀ hmac slack around, Settles
    (fun turns => regMsgM8apParse hmac turns
      (written (regMsgM8apWrite hmac (settings.m8 nwIndex newPwd pwdId) [] authKey version2) slack around)
      authKey)
    (.ok (m8Written settings nwIndex newPwd pwdId version2))

/-- The number of bytes that the settings of an M7 take in front of the authenticator. -/
def NetworkSettings.size (settings : NetworkSettings) : Nat :=
  46 + settings.ssid.val.length + (settings.nwKey.map fun key => 4 + key.val.length).sum +
    5 * settings.nwKeyIndex.length + if settings.wepIdx.getD 1 = 1 then 0 else 5

theorem length_pairBytes (indices : List UInt8) (keys : List NwKey) (paired : indices.length = keys.length) :
    (pairBytes indices keys).length =
      (keys.map fun key => 4 + key.val.length).sum + 5 * indices.length := by
  induction indices generalizing keys with
  | nil =>
    have none_ : keys = [] := List.length_eq_zero_iff.mp paired.symm
    simp [pairBytes, none_]
  | cons index indices ih =>
    cases keys with
    | nil => cases paired
    | cons key keys =>
      have rest := ih keys (Nat.succ.inj paired)
      simp only [pairBytes, List.length_append, length_tlv, rest, List.map_cons, List.sum_cons,
        List.length_cons, List.length_nil]
      omega

theorem length_keyBytes {settings : NetworkSettings} (listed : settings.Listed) :
    (keyBytes settings.nwKeyIndex settings.nwKey).length =
      (settings.nwKey.map fun key => 4 + key.val.length).sum + 5 * settings.nwKeyIndex.length := by
  rcases listed with ⟨noIndex, one⟩ | ⟨some_, paired⟩
  · obtain ⟨key, only⟩ := List.length_eq_one_iff.mp one
    simp [noIndex, only, keyBytes]
  · obtain ⟨index, indices, here⟩ := List.exists_cons_of_ne_nil some_
    rw [here] at paired ⊢
    exact length_pairBytes (index :: indices) settings.nwKey paired

theorem length_wepBytes (wepIdx : Option UInt8) :
    (wepBytes wepIdx).length = if wepIdx.getD 1 = 1 then 0 else 5 := by
  cases wepIdx with
  | none => rfl
  | some index =>
    by_cases default_ : index = 1
    · simp [wepBytes, wepIdxWrite, default_]
    · simp [wepBytes, wepIdxWrite, default_, tlvWriteByte]

theorem length_m7Bytes {settings : NetworkSettings} (listed : settings.Listed) (nonce : Nonce) :
    (m7Bytes settings nonce).length = settings.size := by
  have nonceFits := nonce.property
  have macFits := settings.macAddr.property
  simp only [m7Bytes, m7Head, List.length_append, length_tlv, length_keyBytes listed, length_wepBytes,
    length_wpsHtons, NetworkSettings.size]
  omega

theorem length_m7EnrBytes (nonce : Nonce) (idProof : IdentityProof) :
    (m7EnrBytes nonce idProof).length < 256 ↔ idProof.val.length ≤ 231 := by
  have nonceFits := nonce.property
  by_cases none_ : idProof.val = []
  · simp [m7EnrBytes, idProofBytes, none_, nonceFits]
  · simp only [m7EnrBytes, idProofBytes, none_, if_false, List.length_append, length_tlv]
    omega

/-- All keys are written exactly if there is one without an index, or one for each. -/
theorem listed_iff (settings : NetworkSettings) : settings.Listed ↔
    writesOn settings.nwKeyIndex settings.nwKey = true ∧
      keysWritten settings.nwKeyIndex settings.nwKey = settings.keys := by
  unfold NetworkSettings.Listed NetworkSettings.keys
  cases noted : settings.nwKeyIndex with
  | nil =>
    cases settings.nwKey with
    | nil => simp [writesOn]
    | cons key keys =>
      cases keys with
      | nil => simp [writesOn, keysWritten]
      | cons other keys => simp [writesOn, keysWritten]
  | cons index indices =>
    have taken : ((settings.nwKey.take (index :: indices).length).map fun key => TlvCopy.of key.val) =
        (settings.nwKey.map fun key => TlvCopy.of key.val) ↔
          settings.nwKey.length ≤ (index :: indices).length := by
      rw [List.map_take, List.take_eq_self_iff, List.length_map]
    simp only [writesOn, keysWritten, NwKeys.mk.injEq, taken, List.take_eq_self_iff, decide_eq_true_eq]
    constructor
    · rintro (⟨absent, _⟩ | ⟨_, paired⟩)
      · cases absent
      · have some_ : settings.nwKey ≠ [] := by
          apply List.ne_nil_of_length_pos
          rw [← paired]
          simp
        exact ⟨⟨some_, by omega⟩, by omega, by omega⟩
    · rintro ⟨⟨_, enough⟩, _, all⟩
      exact Or.inr ⟨by simp, by omega⟩

/-- A MAC that tells more than 255 bytes from fewer. -/
def lengthMac : Hmac := fun _ data =>
  if data.length < 256 then repeated 32 0
    else repeated 32 1

theorem authResult_small {settings : Bytes} (small : settings.length < 256) (hmac : Hmac) (authKey : Bytes) :
    authResult hmac authKey settings ((hmac authKey settings).val.take 8) = wpsSuccess := by
  have whole : settings.take (settings.length % 256) = settings := by
    rw [Nat.mod_eq_of_lt small, List.take_length]
  rw [authResult, whole, if_pos rfl]

theorem authResult_large {settings : Bytes} (large : 256 ≤ settings.length) (authKey : Bytes) :
    authResult lengthMac authKey settings ((lengthMac authKey settings).val.take 8) = rprotErrCrypto := by
  have short : (settings.take (settings.length % 256)).length < 256 := by
    rw [List.length_take]
    omega
  have long : ¬settings.length < 256 := Nat.not_lt.mpr large
  rw [authResult, lengthMac, if_pos short, lengthMac, if_neg long]
  rfl

theorem m7Enr_recovered_iff (nonce : Nonce) (idProof : IdentityProof) (authKey : Bytes) :
    M7EnrRecovered nonce idProof authKey ↔ idProof.val.length ≤ 231 := by
  rw [← length_m7EnrBytes nonce idProof]
  have parsed : ∀ (hmac : Hmac) slack around, Settles
      (fun turns => regMsgM7enrParse hmac turns
        (written (regMsgM7enrWrite hmac (m7Enr nonce idProof) [] authKey) slack around) authKey)
      (.ok (authResult hmac authKey (m7EnrBytes nonce idProof)
        ((hmac authKey (m7EnrBytes nonce idProof)).val.take 8), m7Enr nonce idProof)) := by
    intro hmac slack around
    rw [m7EnrWrite_eq, written, writeKeyWrapAuth, List.append_assoc (m7EnrBytes nonce idProof)]
    exact m7EnrParse_written hmac nonce idProof authKey _ slack _ around (length_take_eight _)
  constructor
  · intro recovered
    by_contra large
    have same := (parsed lengthMac [] ⟨fun _ => 0, fun _ => 0⟩).unique (recovered _ _ _)
    rw [authResult_large (Nat.not_lt.mp large)] at same
    cases same
  · intro small hmac slack around
    rw [← authResult_small small hmac authKey]
    exact parsed hmac slack around

section

variable (settings : NetworkSettings) (nonce : Nonce) (authKey : Bytes)

theorem m7Ap_parsed (on : writesOn settings.nwKeyIndex settings.nwKey = true) (hmac : Hmac) (slack : Bytes)
    (around : Surroundings) : Settles
      (fun turns => regMsgM7apParse hmac turns
        (written (regMsgM7apWrite hmac (settings.m7 nonce) [] authKey) slack around) authKey)
      (.ok (authResult hmac authKey (m7Bytes settings nonce)
        ((hmac authKey (m7Bytes settings nonce)).val.take 8),
        m7Read settings nonce (settings.wepIdx.getD 1))) := by
  rw [m7Write_eq, if_pos on, written, writeKeyWrapAuth, List.append_assoc (m7Bytes settings nonce)]
  exact m7Parse_written hmac settings nonce authKey _ around _ slack (length_take_eight _)

theorem m7Ap_listed (recovered : M7ApRecovered settings nonce authKey) : settings.Listed := by
  have atEnd := recovered lengthMac [] ⟨fun _ => 0, fun _ => 0⟩
  rw [listed_iff]
  by_cases on : writesOn settings.nwKeyIndex settings.nwKey = true
  · have same := (m7Ap_parsed settings nonce authKey on lengthMac [] _).unique atEnd
    exact ⟨on, congrArg (fun es => es.keys) (Prod.mk.inj (Except.ok.inj same)).2⟩
  · rw [m7Write_eq, if_neg on, written, List.append_nil] at atEnd
    have same := (m7Parse_head lengthMac settings nonce authKey _ _).unique atEnd
    cases (Prod.mk.inj (Except.ok.inj same)).1

theorem m7Ap_recovered_iff : M7ApRecovered settings nonce authKey ↔
    settings.Listed ∧ settings.size < 256 := by
  constructor
  · intro recovered
    have listed := m7Ap_listed settings nonce authKey recovered
    refine ⟨listed, ?_⟩
    rw [← length_m7Bytes listed nonce]
    by_contra large
    have same := (m7Ap_parsed settings nonce authKey ((listed_iff settings).mp listed).1 lengthMac []
      ⟨fun _ => 0, fun _ => 0⟩).unique (recovered _ _ _)
    rw [authResult_large (Nat.not_lt.mp large)] at same
    cases (Prod.mk.inj (Except.ok.inj same)).1
  · rintro ⟨listed, small⟩ hmac slack around
    obtain ⟨on, all⟩ := (listed_iff settings).mp listed
    have parsed := m7Ap_parsed settings nonce authKey on hmac slack around
    rw [authResult_small ((length_m7Bytes listed nonce).symm ▸ small), m7Read, all] at parsed
    exact parsed

end

theorem m8Ap_recovered_iff (settings : NetworkSettings) (nwIndex : Option UInt8) (newPwd : NewPassword)
    (pwdId : UInt16) (version2 : Bool) (authKey : Bytes) :
    M8ApRecovered settings nwIndex newPwd pwdId version2 authKey ↔
      settings.Listed ∧ wepIdxClamp (settings.wepIdx.getD 1) = settings.wepIdx.getD 1 := by
  have parsed : writesOn settings.nwKeyIndex settings.nwKey = true → ∀ (hmac : Hmac) slack around, Settles
      (fun turns => regMsgM8apParse hmac turns
        (written (regMsgM8apWrite hmac (settings.m8 nwIndex newPwd pwdId) [] authKey version2) slack around)
        authKey) (.ok (m8Read settings nwIndex newPwd pwdId version2)) := by
    intro on hmac slack around
    rw [m8Write_eq, if_pos on, written, writeKeyWrapAuth, List.append_assoc (_ ++ _)]
    exact m8Parse_written hmac settings nwIndex newPwd pwdId version2 authKey _ around _ slack
      (length_take_eight _)
  rw [listed_iff]
  constructor
  · intro recovered
    have atEnd := recovered lengthMac [] ⟨fun _ => 0, fun _ => 0⟩
    by_cases on : writesOn settings.nwKeyIndex settings.nwKey = true
    · have same := Except.ok.inj ((parsed on lengthMac [] _).unique atEnd)
      exact ⟨⟨on, congrArg (fun es => es.keys) same⟩,
        Option.some.inj (congrArg (fun es => es.wepIdx) same)⟩
    · rw [m8Write_eq, if_neg on, written, List.append_nil] at atEnd
      obtain ⟨es, noAddr, settled⟩ := m8Parse_head lengthMac settings nwIndex version2 authKey
        (m8Head settings nwIndex version2).length ⟨fun _ => 0, fun _ => 0⟩
      have same := Except.ok.inj (settled.unique atEnd)
      have addr := settings.macAddr.property
      rw [same] at noAddr
      have none_ : settings.macAddr.val.length = 0 := congrArg (fun copy => copy.len) noAddr
      omega
  · rintro ⟨⟨on, all⟩, index⟩ hmac slack around
    have read : m8Read settings nwIndex newPwd pwdId version2 =
        m8Written settings nwIndex newPwd pwdId version2 := by
      rw [m8Read, m8KeysRead, all, index]
      rfl
    rw [← read]
    exact parsed on hmac slack around

/-- Encrypted settings come back exactly if every key is listed and they take less than
256 bytes in front of the authenticator; those of an M8 at any length, as their
authenticator is not acted on, with a WEP index from 1 to 4. -/
theorem encryptedSettings_recovered_iff (settings : NetworkSettings) (nonce : Nonce)
    (idProof : IdentityProof) (nwIndex : Option UInt8) (newPwd : NewPassword) (pwdId : UInt16)
    (version2 : Bool) (authKey : Bytes) :
    (M7ApRecovered settings nonce authKey ↔ settings.Listed ∧ settings.size < 256) ∧
      (M7EnrRecovered nonce idProof authKey ↔ idProof.val.length ≤ 231) ∧
      (M8ApRecovered settings nwIndex newPwd pwdId version2 authKey ↔
        settings.Listed ∧ wepIdxClamp (settings.wepIdx.getD 1) = settings.wepIdx.getD 1) :=
  ⟨m7Ap_recovered_iff settings nonce authKey, m7Enr_recovered_iff nonce idProof authKey,
    m8Ap_recovered_iff settings nwIndex newPwd pwdId version2 authKey⟩

/-- Settings with four keys of full length. -/
def fourKeys : NetworkSettings :=
  { ssid := ⟨[], by simp⟩, macAddr := ⟨List.replicate 6 0, by simp⟩, authType := 0, encrType := 0
    nwKeyIndex := [1, 2, 3, 4], nwKey := List.replicate 4 ⟨List.replicate 64 0, by simp⟩
    wepIdx := none }

theorem fourKeys_not_recovered : fourKeys.Listed ∧
    ¬M7ApRecovered fourKeys (repeated 16 0) (List.replicate 32 0) := by
  refine ⟨Or.inr ⟨by decide, by decide⟩, ?_⟩
  rw [m7Ap_recovered_iff]
  rintro ⟨_, small⟩
  exact absurd small (by decide)

end BcmDhd.Wps
