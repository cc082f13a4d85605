import BcmDhd.Wps.ConfirmedSuccess

namespace BcmDhd.Wps

open BcmDhd.Lib

variable {known final after : RegData} {nonce : Bytes} {settings : Option EsM8} {keys : DerivedKeys}

/-- What an M2 fails in a build for NFC. -/
inductive OobFault
  | devPwId
  | pubKeyHash
  | crypto

def OobFault.code : OobFault → Nat
  | .devPwId => rprotErrDevPwIdMismatch
  | .pubKeyHash => rprotErrPubKeyHashMismatch
  | .crypto => rprotErrCrypto

/-- The cryptography of an M2: the checks against what was received out of band, and the keys
from the shared secret, both nonces and the enrollee's address. -/
structure M2Crypto where
  hmac : Hmac
  decrypt : Decrypt
  outOfBand : BufferObj → PublicKey → Option OobFault
  derive : (pkr : PublicKey) → (enrolleeNonce : Nonce) → (macAddr : Bytes) → (registrarNonce : Nonce) →
    Option DerivedKeys

def M2Crypto.exchange (crypto : M2Crypto) : KeyExchange := fun regInfo msg =>
  match crypto.outOfBand msg regInfo.pkr with
  | some fault => .error fault.code
  | none =>
    match crypto.derive regInfo.pkr regInfo.enrolleeNonce regInfo.macAddr.val regInfo.registrarNonce with
    | some keys => .ok keys
    | none => .error rprotErrCrypto

/-- An enrollee; `reg_proto_create_nack` reads the session and tells whether there was memory. -/
def M2Crypto.proto (crypto : M2Crypto) (create : Message → RegData → Nat × RegData) (nack : RegData → UInt16 → Nat)
    (nfcDevice : Bool) : EnrProto where
  hmac := crypto.hmac
  decrypt := crypto.decrypt
  exchange := crypto.exchange
  create := create
  createNack regInfo configError := (nack regInfo configError, regInfo)
  nfcDevice := nfcDevice

def processM2 (crypto : M2Crypto) (regInfo : RegData) (d : Delivery) : Except Halt (Nat × RegData × Option EsM8) :=
  regProtoProcessM2 crypto.hmac crypto.decrypt crypto.exchange d.turns d.stale regInfo d.buf

/-- The session knows the nonce and the key of a message. -/
structure Learns (regInfo : RegData) (msg b : BufferObj) (nonce : Bytes) (known : RegData) : Prop where
  checked : regMsgVersionCheck .m2 msg = .ok b
  read : msg.read (m2Head b).registrarNonce.data (m2Head b).registrarNonce.len = .ok nonce
  known : ∃ pkr, msg.readKey (m2Head b).publicKey.data = .ok pkr ∧
    known = { regInfo with registrarNonce := overlay regInfo.registrarNonce nonce, pkr := pkr }

/-- An M2 from another registrar than the one that is known. -/
def FromAnother (regInfo : RegData) (msg : BufferObj) : Prop :=
  ∃ b, regMsgVersionCheck .m2 msg = .ok b ∧ multipleM2 regInfo msg (m2Head b).uuid = .ok true

/-- The registrar that an accepted authenticator vouches for. -/
def notedUuid (regInfo : RegData) (bytes : Bytes) : Nonce :=
  overlay (regInfo.registrarUuid.getD (repeated 16 0)) bytes

/-- What the checks of an M2 came to. -/
inductive Verdict (crypto : M2Crypto) (regInfo : RegData) (d : Delivery) : Nat × RegData × Option EsM8 → Prop
  | early (code : Nat) (refused : m2Front d.turns regInfo d.buf = .ok (.error code)) :
      Verdict crypto regInfo d (code, regInfo, none)
  | missing : Verdict crypto regInfo d (rprotErrReqdTlvMissing, regInfo, none)
  | mismatch : Verdict crypto regInfo d (rprotErrNonceMismatch, regInfo, none)
  | refused (front : Front) (b : BufferObj) (nonce : Bytes) (known : RegData) (code : Nat)
      (reached : m2Front d.turns regInfo d.buf = .ok (.ok front)) (learns : Learns regInfo d.buf b nonce known)
      (failed : crypto.exchange known d.buf = .error code) : Verdict crypto regInfo d (code, known, none)
  | invalid (known : RegData) : Verdict crypto regInfo d (rprotErrCrypto, known, none)
  | valid (front : Front) (b : BufferObj) (nonce : Bytes) (known : RegData) (keys : DerivedKeys)
      (result : Nat × RegData × Option EsM8)
      (reached : m2Front d.turns regInfo d.buf = .ok (.ok front)) (learns : Learns regInfo d.buf b nonce known)
      (complete : ¬(front.tlvErr = true ∨ front.authenticator.ok = false))
      (confirmed : confirmNonce regInfo.enrolleeNonce front.buf front.nonce = .ok true)
      (derived : crypto.exchange known d.buf = .ok keys)
      (mac : checkMac crypto.hmac (known.withKeys keys) front.authenticator.value
        (m2Scratch known front keys) = .ok true)
      (accepted : m2Accepted crypto.hmac crypto.decrypt d.turns d.stale (known.withKeys keys) front (m2Head b).uuid
        (m2Scratch known front keys) = .ok result) : Verdict crypto regInfo d result

section

variable {crypto : M2Crypto} {regInfo : RegData} {d : Delivery} {result : Nat × RegData × Option EsM8}

theorem processM2_verdict (done : processM2 crypto regInfo d = .ok result) : Verdict crypto regInfo d result := by
  obtain ⟨read, reached, left⟩ := bind_ok done
  cases read with
  | error code =>
    cases left
    exact .early code reached
  | ok front =>
    dsimp only at left
    by_cases complete : front.tlvErr = true ∨ front.authenticator.ok = false
    · rw [if_pos complete] at left
      cases left
      exact .missing
    rw [if_neg complete] at left
    obtain ⟨same, confirmed, left⟩ := bind_ok left
    cases same with
    | false =>
      cases left
      exact .mismatch
    | true =>
      rw [if_neg (by decide)] at left
      cases checked : regMsgVersionCheck .m2 d.buf with
      | error code =>
        -- the message has been read already
        unfold m2Front at reached
        rw [checked] at reached
        cases reached
      | ok b =>
        rw [checked] at left
        obtain ⟨nonce, readNonce, left⟩ := bind_ok left
        obtain ⟨pkr, readKey, left⟩ := bind_ok left
        have learns : Learns regInfo d.buf b nonce _ := ⟨checked, readNonce, pkr, readKey, rfl⟩
        generalize { regInfo with registrarNonce := overlay regInfo.registrarNonce nonce, pkr := pkr } = known
          at left learns
        cases exchanged : crypto.exchange known d.buf with
        | error code =>
          rw [exchanged] at left
          cases left
          exact .refused front b nonce known code reached learns exchanged
        | ok keys =>
          rw [exchanged] at left
          obtain ⟨valid, mac, left⟩ := bind_ok left
          cases valid with
          | false =>
            cases left
            exact .invalid _
          | true => exact .valid front b nonce known keys result reached learns complete confirmed exchanged mac left

end

/-- A session with what an M2 may change of it. -/
def RegData.marked (regInfo : RegData) (registrarNonce : Nonce) (pkr : PublicKey) (authKey keyWrapKey : Bytes)
    (uuid : Option Nonce) (version2 : UInt8) : RegData :=
  { regInfo with
    registrarNonce := registrarNonce, pkr := pkr, authKey := authKey, keyWrapKey := keyWrapKey
    registrarUuid := uuid, registrarVersion2 := version2 }

/-- The errors after which M2 is still awaited. -/
def StaysInM1 (code : Nat) : Prop :=
  code = rprotErrMultipleM2 ∨ code = rprotErrRogueSuspected ∨ code = rprotErrPubKeyHashMismatch ∨
    code = rprotErrDevPwIdMismatch

section

variable {crypto : M2Crypto} {regInfo : RegData} {d : Delivery} {msg b : BufferObj} {turns : Nat} {front : Front}
  {registrarNonce : Nonce} {pkr : PublicKey} {authKey keyWrapKey : Bytes} {uuid : Option Nonce} {version2 : UInt8}

theorem multipleM2_marked (received : TlvPtr) :
    multipleM2 (regInfo.marked registrarNonce pkr authKey keyWrapKey uuid version2) msg received =
      multipleM2 { regInfo with registrarUuid := uuid } msg received := rfl

/-- The front of an M2 that comes from the known registrar, if there is one. -/
theorem m2Front_marked (reached : m2Front turns regInfo msg = .ok (.ok front))
    (checked : regMsgVersionCheck .m2 msg = .ok b)
    (single : multipleM2 { regInfo with registrarUuid := uuid } msg (m2Head b).uuid = .ok false) :
    m2Front turns (regInfo.marked registrarNonce pkr authKey keyWrapKey uuid version2) msg = .ok (.ok front) := by
  unfold m2Front at reached ⊢
  rw [checked] at reached ⊢
  obtain ⟨vendor, searched, left⟩ := bind_ok reached
  obtain ⟨nonce, read, left⟩ := bind_ok left
  have searches : orUnfinished (vendorExtSearch turns
      (regInfo.marked registrarNonce pkr authKey keyWrapKey uuid version2).enrolleeVersion2
        (m2Head b).buf) = .ok vendor :=
    searched
  dsimp only
  rw [searches, read]
  change m2Skip turns (regInfo.marked registrarNonce pkr authKey keyWrapKey uuid version2) msg (m2Head b) vendor = _
  unfold m2Skip at left ⊢
  dsimp only at left ⊢
  by_cases flags : (m2Head b).authTypeFlags &&& regInfo.authTypeFlags.toNat = 0 ∨
      (m2Head b).encrTypeFlags &&& regInfo.encrTypeFlags.toNat = 0
  · rw [if_pos flags] at left
    cases left
  · rw [if_neg flags] at left
    obtain ⟨multiple, compared, left⟩ := bind_ok left
    cases multiple with
    | true => cases left
    | false =>
      rw [multipleM2_marked, single]
      exact (if_neg flags).trans left

theorem bind_of_ok {Value Final : Type} {first : Except Halt Value} {next : Value → Except Halt Final} {value : Value}
    (done : first = .ok value) : first >>= next = next value := by
  rw [done]
  rfl

/-- Two sessions with the same registrar nonce, public key, AuthKey and KeyWrapKey. -/
structure SameSession (first second : RegData) : Prop where
  registrarNonce : first.registrarNonce = second.registrarNonce
  pkr : first.pkr = second.pkr
  authKey : first.authKey = second.authKey
  keyWrapKey : first.keyWrapKey = second.keyWrapKey

/-- An M2 whose authenticator is valid: what is noted, and that an earlier registrar does not
matter any more. -/
theorem m2Accepted_noted {received : TlvPtr} {stale : Bytes} {result : Nat × RegData × Option EsM8}
    (accepted : m2Accepted crypto.hmac crypto.decrypt turns stale regInfo front received msg = .ok result) :
    SameSession result.2.1 regInfo ∧
    (∃ bytes noted, msg.read received.data received.len = .ok bytes ∧ (result.1 ≠ wpsSuccess → result.2.1 =
      { regInfo with registrarUuid := some (notedUuid regInfo bytes), registrarVersion2 := noted })) ∧
    ∀ uuid version2, ∃ final, SameSession final regInfo ∧
      m2Accepted crypto.hmac crypto.decrypt turns stale
        { regInfo with registrarUuid := uuid, registrarVersion2 := version2 } front received msg =
          .ok (result.1, final, result.2.2) := by
  obtain ⟨bytes, read, left⟩ := bind_ok accepted
  dsimp only at left
  by_cases plain : front.encrSettings.encrDataLength = 0
  · rw [if_pos plain] at left
    cases left
    refine ⟨⟨rfl, rfl, rfl, rfl⟩, ⟨bytes, 0, read, fun failed => absurd rfl failed⟩, fun uuid version2 => ?_⟩
    have same : m2Accepted crypto.hmac crypto.decrypt turns stale
        { regInfo with registrarUuid := uuid, registrarVersion2 := version2 } front received msg =
          .ok (wpsSuccess, { regInfo with
            registrarUuid := some (notedUuid { regInfo with registrarUuid := uuid } bytes)
            registrarVersion2 := (front.vendorExt.map (version2Of front.buf)).getD 0, inMsg := msg.bytes }, none) := by
      unfold m2Accepted
      rw [bind_of_ok read]
      dsimp only [notedUuid]
      rw [if_pos plain]
    refine ⟨_, ?_, same⟩
    exact ⟨rfl, rfl, rfl, rfl⟩
  · rw [if_neg plain] at left
    obtain ⟨plainText, decrypted, left⟩ := bind_ok left
    obtain ⟨settings, parsed, left⟩ := bind_ok left
    have same : ∀ uuid version2, m2Accepted crypto.hmac crypto.decrypt turns stale
        { regInfo with registrarUuid := uuid, registrarVersion2 := version2 } front received msg =
          .ok (settings.1, if settings.1 = wpsSuccess then
            { regInfo with
              registrarUuid := some (notedUuid { regInfo with registrarUuid := uuid } bytes)
              registrarVersion2 := (front.vendorExt.map (version2Of front.buf)).getD 0, inMsg := msg.bytes }
            else { regInfo with
              registrarUuid := some (notedUuid { regInfo with registrarUuid := uuid } bytes)
              registrarVersion2 := (front.vendorExt.map (version2Of front.buf)).getD 0 }, settings.2) := by
      intro uuid version2
      have decrypts : regProtoDecryptData crypto.decrypt { regInfo with
          registrarUuid := some (notedUuid { regInfo with registrarUuid := uuid } bytes)
          registrarVersion2 := (front.vendorExt.map (version2Of front.buf)).getD 0 } msg front.encrSettings stale =
            .ok plainText := decrypted
      have parses : m2Settings crypto.hmac turns { regInfo with
          registrarUuid := some (notedUuid { regInfo with registrarUuid := uuid } bytes)
          registrarVersion2 := (front.vendorExt.map (version2Of front.buf)).getD 0 } plainText = .ok settings := parsed
      unfold m2Accepted
      rw [bind_of_ok read]
      dsimp only [notedUuid] at decrypts parses ⊢
      rw [if_neg plain, bind_of_ok decrypts, bind_of_ok parses]
    cases left
    refine ⟨?_, ⟨bytes, _, read, fun failed => if_neg failed⟩, fun uuid version2 => ⟨_, ?_, same uuid version2⟩⟩
    · dsimp only
      split <;> exact ⟨rfl, rfl, rfl, rfl⟩
    · split <;> exact ⟨rfl, rfl, rfl, rfl⟩

theorem m2Front_single (reached : m2Front turns regInfo msg = .ok (.ok front))
    (checked : regMsgVersionCheck .m2 msg = .ok b) : multipleM2 regInfo msg (m2Head b).uuid = .ok false := by
  unfold m2Front at reached
  rw [checked] at reached
  obtain ⟨vendor, _, left⟩ := bind_ok reached
  obtain ⟨nonce, _, left⟩ := bind_ok left
  unfold m2Skip at left
  dsimp only at left
  split at left
  · cases left
  obtain ⟨multiple, compared, left⟩ := bind_ok left
  cases multiple with
  | true => cases left
  | false => exact compared

theorem Learns.marked (learns : Learns regInfo msg b nonce known) (full : nonce.length = 16) :
    Learns (regInfo.marked registrarNonce pkr authKey keyWrapKey uuid version2) msg b nonce
      (regInfo.marked known.registrarNonce known.pkr authKey keyWrapKey uuid version2) := by
  obtain ⟨key, readKey, rfl⟩ := learns.known
  have whole : ∀ old : Nonce, (overlay old nonce).val = nonce := by
    intro old
    unfold overlay
    dsimp only
    rw [List.drop_of_length_le (by rw [old.property, full]), List.append_nil, List.take_of_length_le (by rw [full])]
  have same : overlay registrarNonce nonce = overlay regInfo.registrarNonce nonce :=
    Subtype.ext ((whole registrarNonce).trans (whole regInfo.registrarNonce).symm)
  refine ⟨learns.checked, learns.read, key, readKey, ?_⟩
  unfold RegData.marked
  dsimp only
  rw [same]

theorem Learns.unique {nonce' : Bytes} {b' : BufferObj} {known' : RegData} (learns : Learns regInfo msg b nonce known)
    (also : Learns regInfo msg b' nonce' known') : b = b' ∧ nonce = nonce' ∧ known = known' := by
  have same := Except.ok.inj (learns.checked.symm.trans also.checked)
  subst same
  have nonces := Except.ok.inj (learns.read.symm.trans also.read)
  subst nonces
  obtain ⟨key, readKey, rfl⟩ := learns.known
  obtain ⟨key', readKey', rfl⟩ := also.known
  have keys := Except.ok.inj (readKey.symm.trans readKey')
  subst keys
  exact ⟨rfl, rfl, rfl⟩

theorem OobFault.code_ne (fault : OobFault) : fault.code ≠ wpsSuccess := by cases fault <;> decide

theorem exchange_failed {code : Nat} (failed : crypto.exchange known msg = .error code) :
    code ≠ wpsSuccess := by
  unfold M2Crypto.exchange at failed
  split at failed
  · cases failed
    exact OobFault.code_ne _
  · split at failed
    · cases failed
    · cases failed
      decide

theorem accepted_valid (done : processM2 crypto regInfo d = .ok (wpsSuccess, final, settings)) :
    ∃ front b nonce known keys, m2Front d.turns regInfo d.buf = .ok (.ok front) ∧ Learns regInfo d.buf b nonce known ∧
      ¬(front.tlvErr = true ∨ front.authenticator.ok = false) ∧
      confirmNonce regInfo.enrolleeNonce front.buf front.nonce = .ok true ∧
      crypto.exchange known d.buf = .ok keys ∧
      checkMac crypto.hmac (known.withKeys keys) front.authenticator.value (m2Scratch known front keys) = .ok true ∧
      m2Accepted crypto.hmac crypto.decrypt d.turns d.stale (known.withKeys keys) front (m2Head b).uuid
        (m2Scratch known front keys) = .ok (wpsSuccess, final, settings) := by
  cases processM2_verdict done with
  | early _ refused => exact absurd rfl ((m2Front_typed.refused _ refused))
  | refused front b nonce known _ reached learns failed => exact absurd rfl (exchange_failed failed)
  | valid front b nonce known keys _ reached learns complete confirmed derived mac accepted =>
    exact ⟨front, b, nonce, known, keys, reached, learns, complete, confirmed, derived, mac, accepted⟩

end

/-- The keys of a second M2 are not hidden by those of a first one. -/
def SameKeys (regInfo : RegData) (first second : DerivedKeys) : Prop :=
  ((regInfo.withKeys first).withKeys second).authKey = (regInfo.withKeys second).authKey ∧
    ((regInfo.withKeys first).withKeys second).keyWrapKey = (regInfo.withKeys second).keyWrapKey

/-- An M2 brings keys, and the UUID of a registrar. -/
structure Brings (crypto : M2Crypto) (regInfo : RegData) (d : Delivery) (keys : DerivedKeys) (uuid : Nonce) : Prop where
  single : ¬FromAnother regInfo d.buf
  brings : ∃ front b nonce known bytes, m2Front d.turns regInfo d.buf = .ok (.ok front) ∧
    Learns regInfo d.buf b nonce known ∧ crypto.exchange known d.buf = .ok keys ∧
    (m2Scratch known front keys).read (m2Head b).uuid.data (m2Head b).uuid.len = .ok bytes ∧
    uuid = notedUuid regInfo bytes

/-- A rejected M2 does not hinder a genuine one: it was refused before there were keys, or
both are from one registrar and have the same keys. -/
inductive Traceless (crypto : M2Crypto) (regInfo : RegData) (rejected genuine : Delivery) : Prop
  | another (other : FromAnother regInfo rejected.buf)
  | refused (b : BufferObj) (nonce : Bytes) (known : RegData) (code : Nat)
      (learns : Learns regInfo rejected.buf b nonce known) (failed : crypto.exchange known rejected.buf = .error code)
  | sameKeys (keys keys' : DerivedKeys) (uuid uuid' : Nonce) (brings : Brings crypto regInfo rejected keys uuid)
      (brings' : Brings crypto regInfo genuine keys' uuid') (same : SameKeys regInfo keys keys')
      (single : ¬FromAnother { regInfo with registrarUuid := some uuid } genuine.buf)

/-- The session as a rejected M2 leaves it. -/
inductive Left (crypto : M2Crypto) (regInfo : RegData) (d : Delivery) : RegData → Prop
  | another (other : FromAnother regInfo d.buf) : Left crypto regInfo d regInfo
  | refused (b : BufferObj) (nonce : Bytes) (known : RegData) (code : Nat) (learns : Learns regInfo d.buf b nonce known)
      (failed : crypto.exchange known d.buf = .error code) : Left crypto regInfo d known
  | rogue (b : BufferObj) (nonce : Bytes) (known : RegData) (keys : DerivedKeys) (uuid : Nonce) (version2 : UInt8)
      (learns : Learns regInfo d.buf b nonce known) (derived : crypto.exchange known d.buf = .ok keys)
      (brings : Brings crypto regInfo d keys uuid) :
      Left crypto regInfo d { known.withKeys keys with registrarUuid := some uuid, registrarVersion2 := version2 }

instance (code : Nat) : Decidable (StaysInM1 code) := inferInstanceAs (Decidable (_ ∨ _))

section

variable {crypto : M2Crypto} {regInfo : RegData} {d : Delivery} {msg b : BufferObj} {turns code : Nat} {front : Front}

theorem single_of_front (reached : m2Front turns regInfo msg = .ok (.ok front)) : ¬FromAnother regInfo msg := by
  rintro ⟨b, checked, multiple⟩
  have single := m2Front_single reached checked
  rw [multiple] at single
  cases single

/-- M2 goes on to be awaited after the front only for another registrar. -/
theorem early_another (stays : StaysInM1 code) (refused : m2Front turns regInfo msg = .ok (.error code)) :
    FromAnother regInfo msg := by
  unfold m2Front at refused
  cases checked : regMsgVersionCheck .m2 msg with
  | error other =>
    rw [checked] at refused
    cases refused
    unfold regMsgVersionCheck at checked
    dsimp only at checked
    split at checked
    · cases checked
      exact absurd stays (by decide)
    split at checked
    · cases checked
      exact absurd stays (by decide)
    split at checked
    · cases checked
      exact absurd stays (by decide)
    · cases checked
  | ok b =>
    rw [checked] at refused
    obtain ⟨vendor, _, left⟩ := bind_ok refused
    obtain ⟨nonce, _, left⟩ := bind_ok left
    unfold m2Skip at left
    dsimp only at left
    split at left
    · cases left
      exact absurd stays (by decide)
    obtain ⟨multiple, compared, left⟩ := bind_ok left
    cases multiple with
    | true => exact ⟨b, checked, compared⟩
    | false =>
      split at left
      · contradiction
      split at left
      · cases left
        exact absurd stays (by decide)
      obtain ⟨found, _, last⟩ := bind_ok left
      cases found with
      | none =>
        cases last
        exact absurd stays (by decide)
      | some scan => cases last

theorem rejected_left {given : Option EsM8} (stays : StaysInM1 code)
    (done : processM2 crypto regInfo d = .ok (code, after, given)) : Left crypto regInfo d after := by
  cases processM2_verdict done with
  | early _ refused => exact .another (early_another stays refused)
  | missing => exact absurd stays (by decide)
  | mismatch => exact absurd stays (by decide)
  | refused front b nonce known _ reached learns failed => exact .refused b nonce after code learns failed
  | invalid known => exact absurd stays (by decide)
  | valid front b nonce known keys _ reached learns complete confirmed derived mac accepted =>
    obtain ⟨_, ⟨bytes, version2, read, noted⟩, _⟩ := m2Accepted_noted accepted
    have failed : code ≠ wpsSuccess := by
      intro success
      subst success
      exact absurd stays (by decide)
    rw [show after = _ from noted failed]
    obtain ⟨key, readKey, rfl⟩ := learns.known
    exact .rogue b nonce _ keys (notedUuid regInfo bytes) version2 learns derived
      ⟨single_of_front reached, front, b, nonce, _, bytes, reached, learns, derived, read, rfl⟩

theorem processM2_of
    (reached : m2Front d.turns regInfo d.buf = .ok (.ok front)) (learns : Learns regInfo d.buf b nonce known)
    (complete : ¬(front.tlvErr = true ∨ front.authenticator.ok = false))
    (confirmed : confirmNonce regInfo.enrolleeNonce front.buf front.nonce = .ok true)
    (derived : crypto.exchange known d.buf = .ok keys)
    (mac : checkMac crypto.hmac (known.withKeys keys) front.authenticator.value
      (m2Scratch known front keys) = .ok true) :
    processM2 crypto regInfo d = m2Accepted crypto.hmac crypto.decrypt d.turns d.stale (known.withKeys keys) front
      (m2Head b).uuid (m2Scratch known front keys) := by
  obtain ⟨key, readKey, rfl⟩ := learns.known
  unfold processM2 regProtoProcessM2
  rw [bind_of_ok reached]
  dsimp only
  rw [if_neg complete, bind_of_ok confirmed, if_neg (by decide), learns.checked]
  dsimp only
  rw [bind_of_ok learns.read, bind_of_ok readKey, derived]
  dsimp only
  rw [bind_of_ok mac, if_neg (by decide)]

theorem read_elsewhere (other : BufferObj) {data : Ptr} {count : Nat} {bytes : Bytes}
    (done : msg.read data count = .ok bytes) :
    ∃ bytes, other.read data count = .ok bytes := by
  cases data with
  | null =>
    by_cases zero : count = 0
    · exact ⟨[], if_pos zero⟩
    · have crashes : msg.read .null count = .error .crash := if_neg zero
      rw [crashes] at done
      cases done
  | empty => exact ⟨_, rfl⟩
  | inside offset => exact ⟨_, rfl⟩

theorem multipleM2_answers (regInfo : RegData) {received : TlvPtr} {bytes : Bytes}
    (read : msg.read received.data received.len = .ok bytes) :
    ∃ multiple, multipleM2 regInfo msg received = .ok multiple := by
  unfold multipleM2
  split
  · exact ⟨false, rfl⟩
  · split
    · exact ⟨false, rfl⟩
    · exact ⟨_, bind_of_ok read⟩

/-- A genuine M2 after another one: it is accepted as if it came first. -/
theorem accepted_again (registrarNonce : Nonce) (pkr : PublicKey) (authKey keyWrapKey : Bytes)
    (uuid : Option Nonce) (version2 : UInt8)
    (done : processM2 crypto regInfo d = .ok (wpsSuccess, final, settings))
    (learns : Learns regInfo d.buf b nonce known) (full : nonce.length = 16)
    (derived : crypto.exchange known d.buf = .ok keys)
    (single : ¬FromAnother { regInfo with registrarUuid := uuid } d.buf)
    (sameAuth : (authKey ++ keys.val.take 32).take 32 = (regInfo.withKeys keys).authKey)
    (sameWrap : (keyWrapKey ++ (keys.val.drop 32).take 16).take 16 = (regInfo.withKeys keys).keyWrapKey) :
    ∃ final', processM2 crypto (regInfo.marked registrarNonce pkr authKey keyWrapKey uuid version2) d =
      .ok (wpsSuccess, final', settings) ∧ SameSession final' final := by
  obtain ⟨front, b₂, nonce₂, known₂, keys₂, reached, learns₂, complete, confirmed, derived₂, mac, accepted⟩ :=
    accepted_valid done
  obtain ⟨rfl, rfl, rfl⟩ := learns.unique learns₂
  cases derived.symm.trans derived₂
  obtain ⟨session, ⟨bytes, _, read, _⟩, again⟩ := m2Accepted_noted accepted
  have one : multipleM2 { regInfo with registrarUuid := uuid } d.buf (m2Head b).uuid = .ok false := by
    obtain ⟨_, readable⟩ := read_elsewhere d.buf read
    obtain ⟨multiple, compared⟩ := multipleM2_answers { regInfo with registrarUuid := uuid } readable
    cases multiple with
    | false => exact compared
    | true => exact absurd ⟨b, learns.checked, compared⟩ single
  have front' : m2Front d.turns (regInfo.marked registrarNonce pkr authKey keyWrapKey uuid version2) d.buf =
      .ok (.ok front) := m2Front_marked reached learns.checked one
  have learns' : Learns (regInfo.marked registrarNonce pkr authKey keyWrapKey uuid version2) d.buf b nonce
      (regInfo.marked known.registrarNonce known.pkr authKey keyWrapKey uuid version2) := learns.marked full
  obtain ⟨key, readKey, rfl⟩ := learns.known
  have record : (regInfo.marked (overlay regInfo.registrarNonce nonce) key authKey keyWrapKey uuid
    version2).withKeys keys =
      { RegData.withKeys { regInfo with registrarNonce := overlay regInfo.registrarNonce nonce, pkr := key } keys with
        registrarUuid := uuid, registrarVersion2 := version2 } := by
    unfold RegData.withKeys at sameAuth sameWrap ⊢
    unfold RegData.marked
    dsimp only at sameAuth sameWrap ⊢
    rw [sameAuth, sameWrap]
  obtain ⟨final', still, accepts⟩ := again uuid version2
  refine ⟨final', ?_, still.registrarNonce.trans session.registrarNonce.symm, still.pkr.trans session.pkr.symm,
    still.authKey.trans session.authKey.symm, still.keyWrapKey.trans session.keyWrapKey.symm⟩
  rw [processM2_of front' learns' complete confirmed derived, record]
  · exact accepts
  · rw [record]
    exact mac

theorem Brings.unique {keys' : DerivedKeys} {uuid uuid' : Nonce} (brings : Brings crypto regInfo d keys uuid)
    (also : Brings crypto regInfo d keys' uuid') : keys = keys' ∧ uuid = uuid' := by
  obtain ⟨front, b, nonce, known, bytes, reached, learns, derived, read, rfl⟩ := brings.brings
  obtain ⟨front', b', nonce', known', bytes', reached', learns', derived', read', rfl⟩ := also.brings
  cases Except.ok.inj (Except.ok.inj (reached.symm.trans reached'))
  obtain ⟨rfl, rfl, rfl⟩ := learns.unique learns'
  cases Except.ok.inj (derived.symm.trans derived')
  cases Except.ok.inj (read.symm.trans read')
  exact ⟨rfl, rfl⟩

theorem brings_of_accepted (done : processM2 crypto regInfo d = .ok (wpsSuccess, final, settings)) :
    ∃ b nonce known keys uuid, Learns regInfo d.buf b nonce known ∧ crypto.exchange known d.buf = .ok keys ∧
      Brings crypto regInfo d keys uuid ∧ final.authKey = (regInfo.withKeys keys).authKey ∧
      final.keyWrapKey = (regInfo.withKeys keys).keyWrapKey := by
  obtain ⟨front, b, nonce, known, keys, reached, learns, complete, confirmed, derived, mac, accepted⟩ :=
    accepted_valid done
  obtain ⟨session, ⟨bytes, _, read, _⟩, _⟩ := m2Accepted_noted accepted
  refine ⟨b, nonce, known, keys, notedUuid regInfo bytes, learns, derived,
    ⟨single_of_front reached, front, b, nonce, known, bytes, reached, learns, derived, ?_, rfl⟩, ?_, ?_⟩
  · exact read
  · obtain ⟨key, readKey, rfl⟩ := learns.known
    exact session.authKey
  · obtain ⟨key, readKey, rfl⟩ := learns.known
    exact session.keyWrapKey

/-- What a genuine M2 finds after a rejected one. -/
theorem left_traceless_iff {rejected : Delivery} (left : Left crypto regInfo rejected after)
    (accepted : processM2 crypto regInfo d = .ok (wpsSuccess, final, settings))
    (checked : regMsgVersionCheck .m2 d.buf = .ok b) (full : (m2Head b).registrarNonce.len = 16) :
    (∃ final', processM2 crypto after d = .ok (wpsSuccess, final', settings) ∧ SameSession final' final) ↔
      Traceless crypto regInfo rejected d := by
  obtain ⟨b₂, nonce, known, keys, uuid, learns, derived, brings, auth, wrap⟩ := brings_of_accepted accepted
  cases Except.ok.inj (checked.symm.trans learns.checked)
  have sized : nonce.length = 16 := (BufferObj.length_read learns.read).trans full
  cases left with
  | another other => exact iff_of_true ⟨final, accepted, rfl, rfl, rfl, rfl⟩ (.another other)
  | refused b' nonce' known' code learns' failed =>
    refine iff_of_true ?_ (.refused b' nonce' after code learns' failed)
    obtain ⟨key, readKey, rfl⟩ := learns'.known
    exact accepted_again (overlay regInfo.registrarNonce nonce') key regInfo.authKey regInfo.keyWrapKey
      regInfo.registrarUuid regInfo.registrarVersion2 accepted learns sized derived brings.single rfl rfl
  | rogue b' nonce' known' keys' uuid' version2 learns' derived' brings' =>
    obtain ⟨key, readKey, rfl⟩ := learns'.known
    have session : ({ ({ regInfo with registrarNonce := overlay regInfo.registrarNonce nonce', pkr := key } :
        RegData).withKeys keys' with registrarUuid := some uuid', registrarVersion2 := version2 } : RegData) =
        regInfo.marked (overlay regInfo.registrarNonce nonce') key (regInfo.withKeys keys').authKey
          (regInfo.withKeys keys').keyWrapKey (some uuid') version2 := rfl
    rw [session]
    constructor
    · rintro ⟨final', again, same⟩
      obtain ⟨b₃, nonce₃, known₃, keys₃, uuid₃, learns₃, derived₃, brings₃, auth₃, wrap₃⟩ := brings_of_accepted again
      have learnt : Learns (regInfo.marked (overlay regInfo.registrarNonce nonce') key (regInfo.withKeys keys').authKey
          (regInfo.withKeys keys').keyWrapKey (some uuid') version2) d.buf b nonce
            (regInfo.marked known.registrarNonce known.pkr (regInfo.withKeys keys').authKey
          (regInfo.withKeys keys').keyWrapKey (some uuid') version2) := learns.marked sized
      obtain ⟨rfl, rfl, rfl⟩ := learnt.unique learns₃
      -- the keys are the same ones, since they do not depend on what was known before
      have derives : crypto.exchange (regInfo.marked known.registrarNonce known.pkr (regInfo.withKeys keys').authKey
          (regInfo.withKeys keys').keyWrapKey (some uuid') version2) d.buf = .ok keys := by
        obtain ⟨key₂, _, rfl⟩ := learns.known
        exact derived
      cases derives.symm.trans derived₃
      refine .sameKeys keys' keys uuid' uuid brings' brings ⟨?_, ?_⟩ brings₃.single
      · exact (auth₃.symm.trans same.authKey).trans auth
      · exact (wrap₃.symm.trans same.keyWrapKey).trans wrap
    · intro traceless
      cases traceless with
      | another other => exact absurd other brings'.single
      | refused b₃ nonce₃ known₃ code learns₃ failed =>
        obtain ⟨rfl, rfl, rfl⟩ := learns₃.unique learns'
        rw [derived'] at failed
        cases failed
      | sameKeys first second uuid₃ uuid₄ brings₃ brings₄ same single =>
        obtain ⟨rfl, rfl⟩ := brings'.unique brings₃
        obtain ⟨rfl, rfl⟩ := brings.unique brings₄
        exact accepted_again _ key _ _ (some uuid') version2 accepted learns sized derived single same.1 same.2

/-- What the enrollee does with an M2 that was refused, if it goes on waiting for M2. -/
theorem refused_stays {proto : EnrProto} {e next : EnrSm} {answer : Nat} {given : Option EsM8}
    (quiet : ∀ regInfo configError, (proto.createNack regInfo configError).2 = regInfo)
    (handled : enrM2 proto e d = .ok (next, answer))
    (refused : regProtoProcessM2 proto.hmac proto.decrypt proto.exchange d.turns d.stale e.regInfo d.buf =
      .ok (code, after, given))
    (failed : code ≠ wpsSuccess) (stays : next.lastMsgSent = .m1) : StaysInM1 code ∧ next.regInfo = after := by
  unfold enrM2 at handled
  rw [bind_of_ok refused] at handled
  dsimp only at handled
  rw [if_pos failed] at handled
  have same := congrArg Prod.fst (Except.ok.inj handled)
  dsimp only at same
  subst same
  have restarted : ∀ (between : EnrSm) configError restart,
      (enrNackRestart proto between configError restart).1.lastMsgSent ≠ .m1 := by
    intro between configError restart
    exact (show EMsg.mnone ≠ .m1 by decide)
  unfold enrM2Refused at stays ⊢
  split at stays
  · exact absurd stays (restarted _ _ _)
  rename_i flags
  rw [if_neg flags]
  split at stays
  · rename_i multiple
    rw [if_pos multiple]
    exact ⟨Or.inl multiple, quiet _ _⟩
  rename_i multiple
  rw [if_neg multiple]
  split at stays
  · rename_i rogue
    rw [if_pos rogue]
    exact ⟨Or.inr (Or.inl rogue), quiet _ _⟩
  rename_i rogue
  rw [if_neg rogue]
  split at stays
  · rename_i hash
    rw [if_pos hash]
    exact ⟨Or.inr (Or.inr (Or.inl hash)), quiet _ _⟩
  rename_i hash
  rw [if_neg hash]
  split at stays
  · rename_i password
    rw [if_pos password]
    exact ⟨Or.inr (Or.inr (Or.inr password)), quiet _ _⟩
  · exact absurd stays (restarted _ _ _)

end

/-- An M2 that is rejected while the enrollee goes on waiting leaves no trace for a genuine
one, with a whole registrar nonce, exactly if it was refused before its keys were derived, or
has the keys and the registrar of the genuine one. -/
theorem rejected_m2_traceless_iff (crypto : M2Crypto) (create : Message → RegData → Nat × RegData)
    (nack : RegData → UInt16 → Nat) (nfcDevice : Bool) (e next : EnrSm) (rejected genuine : Delivery)
    (answer code : Nat)
    (after final : RegData) (given settings : Option EsM8) (b : BufferObj)
    (handled : enrM2 (crypto.proto create nack nfcDevice) e rejected = .ok (next, answer))
    (refused : processM2 crypto e.regInfo rejected = .ok (code, after, given)) (failed : code ≠ wpsSuccess)
    (stays : next.lastMsgSent = .m1)
    (accepted : processM2 crypto e.regInfo genuine = .ok (wpsSuccess, final, settings))
    (checked : regMsgVersionCheck .m2 genuine.buf = .ok b) (full : (m2Head b).registrarNonce.len = 16) :
    (∃ final', processM2 crypto next.regInfo genuine = .ok (wpsSuccess, final', settings) ∧ SameSession final' final) ↔
      Traceless crypto e.regInfo rejected genuine := by
  obtain ⟨waits, same⟩ := refused_stays (fun _ _ => rfl) handled refused failed stays
  rw [same]
  exact left_traceless_iff (rejected_left waits refused) accepted checked full

/-- Keys that are a registrar's nonce over and over, and an authenticator that is its key. -/
def plainCrypto : M2Crypto where
  hmac key _ := ⟨(key ++ List.replicate 32 0).take 32, by simp⟩
  decrypt := unencrypted
  outOfBand _ _ := none
  derive _ _ _ registrarNonce := some (repeated 80 (registrarNonce.val.headD 0))

def plainProto : EnrProto :=
  plainCrypto.proto (fun _ regInfo => (wpsSuccess, regInfo)) (fun _ _ => wpsSuccess) false

/-- An access point of the second version that has sent M1. -/
def waitingForM2 : EnrSm :=
  (enrollee plainProto).run (enrSmStart { accessPoint with enrolleeVersion2 := wpsVersion2 })
    [.message (delivered .done [])]

/-- An M2 of a registrar of the second version. -/
def noncedM2 (byte : UInt8) (extData : Bytes) (settings : List Bytes) (authenticator : Bytes) :
    Delivery := delivered .m2 <|
  [tlv wpsIdEnrolleeNonce (List.replicate 16 0), tlv wpsIdRegistrarNonce (List.replicate 16 byte),
    tlv wpsIdUuidR (List.replicate 16 7), tlv wpsIdPublicKey (List.replicate 192 byte),
    tlv wpsIdAuthTypeFlags [0, 1], tlv wpsIdEncrTypeFlags [0, 1], tlv wpsIdConnTypeFlags [1],
    tlv wpsIdConfigMethods [0, 0], tlv wpsIdManufacturer [0], tlv wpsIdModelName [0],
    tlv wpsIdModelNumber [0], tlv wpsIdSerialNum [0], tlv wpsIdPrimDevType (List.replicate 8 0),
    tlv wpsIdDeviceName [0], tlv wpsIdRfBand [1], tlv wpsIdAssocState [0, 0], tlv wpsIdConfigError [0, 0],
    tlv wpsIdDevicePwdId [0, 0], tlv wpsIdOsVersion [0, 0, 0, 0],
    tlv wpsIdVendorExt (wfaVendorExtId ++ extData)] ++ settings ++ [tlv wpsIdAuthenticator authenticator]

/-- Settings that are not for this device. -/
def strayM2 : Delivery :=
  noncedM2 1 [0, 1, 0x20] [tlv wpsIdEncrSettings (List.replicate 31 0 ++ [16])] (List.replicate 8 1)

def genuineM2 : Delivery := noncedM2 2 [0, 1, 0x20] [] (List.replicate 8 2)

theorem ok_of_map {Error Value Seen : Type} {run : Except Error Value} {see : Value → Seen} {seen : Seen}
    (done : run.map see = .ok seen) : ∃ value, run = .ok value ∧ see value = seen := by
  cases run with
  | error halt => cases done
  | ok value => exact ⟨value, rfl, Except.ok.inj done⟩

theorem strayM2_handled : ∃ next answer, enrM2 plainProto waitingForM2 strayM2 = .ok (next, answer) ∧
    next.lastMsgSent = .m1 ∧
    (processM2 plainCrypto next.regInfo genuineM2).map (fun read => read.1) = .ok rprotErrCrypto := by
  have seen : (enrM2 plainProto waitingForM2 strayM2).map (fun handled => (handled.1.lastMsgSent,
      (processM2 plainCrypto handled.1.regInfo genuineM2).map (fun read => read.1))) =
        .ok (.m1, .ok rprotErrCrypto) := by decide +kernel
  obtain ⟨handled, done, same⟩ := ok_of_map seen
  simp only [Prod.mk.injEq] at same
  exact ⟨handled.1, handled.2, done, same⟩

theorem strayM2_refused : ∃ after given,
    processM2 plainCrypto waitingForM2.regInfo strayM2 = .ok (rprotErrRogueSuspected, after, given) := by
  have seen : (processM2 plainCrypto waitingForM2.regInfo strayM2).map (fun read => read.1) =
      .ok rprotErrRogueSuspected := by decide +kernel
  obtain ⟨read, done, same⟩ := ok_of_map seen
  exact ⟨read.2.1, read.2.2, by rw [done, ← same]⟩

theorem genuineM2_accepted : ∃ final settings,
    processM2 plainCrypto waitingForM2.regInfo genuineM2 = .ok (wpsSuccess, final, settings) := by
  have seen : (processM2 plainCrypto waitingForM2.regInfo genuineM2).map (fun read => read.1) =
      .ok wpsSuccess := by decide +kernel
  obtain ⟨read, done, same⟩ := ok_of_map seen
  exact ⟨read.2.1, read.2.2, by rw [done, ← same]⟩

theorem genuineM2_checked : ∃ b, regMsgVersionCheck .m2 genuineM2.buf = .ok b ∧ (m2Head b).registrarNonce.len = 16 := by
  have seen : (regMsgVersionCheck .m2 genuineM2.buf).map (fun b => (m2Head b).registrarNonce.len) = .ok 16 := by
    decide +kernel
  exact ok_of_map seen

/-- After settings for another device, the M2 of the same registrar that would have been
accepted is refused. -/
theorem strayM2_hides_genuine : ∃ next answer after given final settings,
    enrM2 plainProto waitingForM2 strayM2 = .ok (next, answer) ∧
      processM2 plainCrypto waitingForM2.regInfo strayM2 = .ok (rprotErrRogueSuspected, after, given) ∧
      next.lastMsgSent = .m1 ∧
      processM2 plainCrypto waitingForM2.regInfo genuineM2 = .ok (wpsSuccess, final, settings) ∧
      ¬∃ final', processM2 plainCrypto next.regInfo genuineM2 = .ok (wpsSuccess, final', settings) ∧
        SameSession final' final := by
  obtain ⟨next, answer, handled, stays, later⟩ := strayM2_handled
  obtain ⟨after, given, refused⟩ := strayM2_refused
  obtain ⟨final, settings, accepted⟩ := genuineM2_accepted
  refine ⟨next, answer, after, given, final, settings, handled, refused, stays, accepted, ?_⟩
  rintro ⟨final', again, _⟩
  rw [again] at later
  exact absurd (Except.ok.inj later) (show wpsSuccess ≠ rprotErrCrypto by decide)

/-- So the stray M2 has left keys behind. -/
theorem strayM2_leaves_trace : ¬Traceless plainCrypto waitingForM2.regInfo strayM2 genuineM2 := by
  obtain ⟨next, answer, handled, stays, later⟩ := strayM2_handled
  obtain ⟨after, given, refused⟩ := strayM2_refused
  obtain ⟨final, settings, accepted⟩ := genuineM2_accepted
  obtain ⟨b, checked, full⟩ := genuineM2_checked
  have traceless := rejected_m2_traceless_iff plainCrypto _ _ false waitingForM2 next strayM2 genuineM2 answer _
    after final given settings b handled refused (by decide) stays accepted checked full
  refine fun wrong => ?_
  obtain ⟨final', again, _⟩ := traceless.mpr wrong
  rw [again] at later
  exact absurd (Except.ok.inj later) (show wpsSuccess ≠ rprotErrCrypto by decide)

end BcmDhd.Wps
