import BcmDhd.Wps.NonceBinding
import BcmDhd.Wps.SecretsInOrder

namespace BcmDhd.Wps

open BcmDhd.Lib

/-- A message of this type with a nonce that differs from the session's where it is read. -/
def Mismatches (msgId : Message) (regInfo : RegData) (msg : BufferObj) : Prop :=
  ∃ nonces, bothNonces msgId msg = .ok nonces ∧
    (confirmNonce regInfo.enrolleeNonce msg nonces.1 = .ok false ∨
      confirmNonce regInfo.registrarNonce msg nonces.2.value = .ok false)

/-- The next message ends the exchange only if the registrar of the session confirms it. -/
structure EndsConfirmed (proto : EnrProto) (e : EnrSm) (d : Delivery) : Prop where
  /-- In DONE it is an ACK that carries both nonces of the session. -/
  ack : ∀ handled, enrSmHandleMessage proto e d = .ok handled → e.lastMsgSent = .done →
    handled.1.smState = .success → regProtoGetMsgType d.buf = (wpsSuccess, Message.ack.id) ∧
      Carries wpsIdEnrolleeNonce e.regInfo.enrolleeNonce.val d.msg ∧
      Carries wpsIdRegistrarNonce e.regInfo.registrarNonce.val d.msg
  /-- In M7 it is a NACK that is accepted. -/
  nack : ∀ handled, enrSmHandleMessage proto e d = .ok handled → e.lastMsgSent = .m7 →
    handled.1.smState = .success →
      ∃ configError, regProtoProcessNack d.turns e.regInfo d.buf = .ok (wpsSuccess, configError)
  /-- With another nonce the exchange goes on. -/
  goesOn : ∀ handled, enrSmHandleMessage proto e d = .ok handled →
    e.lastMsgSent = .done ∧ Mismatches .ack e.regInfo d.buf ∨
      e.lastMsgSent = .m7 ∧ Mismatches .nack e.regInfo d.buf → handled.1.smState = .continue_

/-- In DONE, an ACK has both nonces in full where they are read, and they are right; in M7,
a NACK has the right nonces, as far as they go. -/
structure ConfirmsInFull (e : EnrSm) (d : Delivery) : Prop where
  same : e.lastMsgSent = .done → ¬Mismatches .ack e.regInfo d.buf
  full : e.lastMsgSent = .done → Confirmed .ack e.regInfo d.buf →
    NonceBehindType .ack wpsIdEnrolleeNonce e.regInfo.enrolleeNonce d.buf ∧
      RegistrarNonceBehind .ack e.regInfo.registrarNonce d.buf
  nack : e.lastMsgSent = .m7 → (regProtoGetMsgType d.buf).2 = Message.nack.id →
    Confirmed .nack e.regInfo d.buf

section

variable {msgId : Message} {turns : Nat} {regInfo : RegData} {msg : BufferObj}

theorem bothNonces_checked {nonces : TlvPtr × Reading TlvPtr} (read : bothNonces msgId msg = .ok nonces) :
    regProtoGetMsgType msg = (wpsSuccess, msgId.id) := by
  unfold bothNonces at read
  cases checked : regMsgVersionCheck msgId msg with
  | error code =>
    rw [checked] at read
    cases read
  | ok b => exact getMsgType_of_check checked

theorem bothNonces_refused {code : Nat} (read : bothNonces msgId msg = .error code) :
    code ≠ wpsSuccess ∧ code ≠ rprotErrNonceMismatch := by
  refine ⟨bothNonces_error read, ?_⟩
  unfold bothNonces at read
  cases checked : regMsgVersionCheck msgId msg with
  | ok b =>
    rw [checked] at read
    cases read
  | error other =>
    rw [checked] at read
    cases read
    unfold regMsgVersionCheck at checked
    dsimp only at checked
    split at checked
    · cases checked
      decide
    split at checked
    · cases checked
      decide
    split at checked
    · cases checked
      decide
    · cases checked

theorem confirmNonces_cases {nonces : TlvPtr × TlvPtr} {code : Nat}
    (done : confirmNonces turns regInfo msg nonces = .ok code) :
    code = wpsSuccess ∧ NoncesConfirmed regInfo msg nonces ∨
      code = rprotErrNonceMismatch ∧ (confirmNonce regInfo.enrolleeNonce msg nonces.1 = .ok false ∨
        confirmNonce regInfo.registrarNonce msg nonces.2 = .ok false) := by
  obtain ⟨_, _, left⟩ := bind_ok done
  obtain ⟨enrollee, one, left⟩ := bind_ok left
  cases enrollee with
  | false =>
    cases left
    exact Or.inr ⟨rfl, Or.inl one⟩
  | true =>
    obtain ⟨registrar, two, left⟩ := bind_ok left
    cases registrar with
    | false =>
      cases left
      exact Or.inr ⟨rfl, Or.inr two⟩
    | true =>
      cases left
      exact Or.inl ⟨rfl, one, two⟩

theorem not_confirmed_of_mismatches (mismatch : Mismatches msgId regInfo msg) : ¬Confirmed msgId regInfo msg := by
  intro confirmed
  obtain ⟨nonces, read, wrong⟩ := mismatch
  obtain ⟨others, also, right⟩ := confirmed
  cases read.symm.trans also
  rcases wrong with one | two
  · cases one.symm.trans right.enrollee
  · cases two.symm.trans right.registrar

/-- What processing an ACK comes to, if it returns. -/
theorem ack_returned {code : Nat} (done : regProtoProcessAck turns regInfo msg = .ok code) :
    (code = wpsSuccess ↔ Confirmed .ack regInfo msg) ∧
      (code = rprotErrNonceMismatch ↔ Mismatches .ack regInfo msg) := by
  unfold regProtoProcessAck at done
  cases read : bothNonces .ack msg with
  | error other =>
    rw [read] at done
    cases done
    obtain ⟨failed, differs⟩ := bothNonces_refused read
    refine ⟨⟨fun success => absurd success failed, fun confirmed => ?_⟩,
      ⟨fun mismatch => absurd mismatch differs, fun mismatch => ?_⟩⟩
    · obtain ⟨nonces, same, _⟩ := confirmed
      cases read.symm.trans same
    · obtain ⟨nonces, same, _⟩ := mismatch
      cases read.symm.trans same
  | ok nonces =>
    rw [read] at done
    rcases confirmNonces_cases done with ⟨rfl, right⟩ | ⟨rfl, wrong⟩
    · have confirmed : Confirmed .ack regInfo msg := ⟨nonces, read, right⟩
      exact ⟨iff_of_true rfl confirmed, iff_of_false (by decide) fun mismatch =>
        not_confirmed_of_mismatches mismatch confirmed⟩
    · have mismatch : Mismatches .ack regInfo msg := ⟨nonces, read, wrong⟩
      exact ⟨iff_of_false (by decide) (not_confirmed_of_mismatches mismatch), iff_of_true rfl mismatch⟩

theorem nack_returned {answer : Nat × Option Nat} (done : regProtoProcessNack turns regInfo msg = .ok answer) :
    answer.1 = wpsSuccess ↔ Confirmed .nack regInfo msg := by
  unfold regProtoProcessNack at done
  cases read : bothNonces .nack msg with
  | error other =>
    rw [read] at done
    cases done
    refine iff_of_false (bothNonces_error read) fun confirmed => ?_
    obtain ⟨nonces, same, _⟩ := confirmed
    cases read.symm.trans same
  | ok nonces =>
    rw [read] at done
    obtain ⟨code, confirming, left⟩ := bind_ok done
    cases left
    rcases confirmNonces_cases confirming with ⟨rfl, right⟩ | ⟨rfl, wrong⟩
    · exact iff_of_true rfl ⟨nonces, read, right⟩
    · exact iff_of_false (show ¬rprotErrNonceMismatch = wpsSuccess by decide)
        (not_confirmed_of_mismatches ⟨nonces, read, wrong⟩)

end

theorem start_unfinished : SmState.start ≠ .success := by decide

section

variable {proto : EnrProto} {e : EnrSm} {d : Delivery} {handled : EnrSm × Nat}

theorem type_of_confirmed {msgId : Message} (confirmed : Confirmed msgId e.regInfo d.buf) :
    regProtoGetMsgType d.buf = (wpsSuccess, msgId.id) := by
  obtain ⟨nonces, read, _⟩ := confirmed
  exact bothNonces_checked read

theorem type_of_mismatches {msgId : Message} (mismatch : Mismatches msgId e.regInfo d.buf) :
    regProtoGetMsgType d.buf = (wpsSuccess, msgId.id) := by
  obtain ⟨nonces, read, _⟩ := mismatch
  exact bothNonces_checked read

/-- In DONE, a late M2D is only acknowledged, and everything else is taken for an ACK. -/
theorem handled_in_done (last : e.lastMsgSent = .done) (done : enrSmHandleMessage proto e d = .ok handled) :
    (regProtoGetMsgType d.buf).2 = Message.m2d.id ∧ handled.1.smState = e.smState ∨
      ∃ err, regProtoProcessAck d.turns e.regInfo d.buf = .ok err ∧
        handled.1.smState =
          if err = rprotErrNonceMismatch ∨ err = wpsSuccess then .success else e.smState := by
  unfold enrSmHandleMessage at done
  dsimp only at done
  split at done
  · rename_i late
    cases done
    exact Or.inl ⟨late.2.2, rfl⟩
  rw [last] at done
  obtain ⟨err, processed, left⟩ := bind_ok done
  refine Or.inr ⟨err, processed, ?_⟩
  split at left
  · rename_i mismatch
    cases left
    rw [if_pos (Or.inl mismatch)]
  rename_i same
  split at left
  · rename_i failed
    cases left
    rw [if_neg (not_or.mpr ⟨same, failed⟩)]
  · rename_i success
    cases left
    rw [if_pos (Or.inr (not_not.mp success))]

theorem processM8_bAp {hmac : Hmac} {decrypt : Decrypt} {turns : Nat} {stale : Bytes} {regInfo : RegData}
    {msg : BufferObj} {answer : Nat × RegData × Option EsM8}
    (done : regProtoProcessM8 hmac decrypt turns stale regInfo msg = .ok answer) :
    answer.2.1.bAp = regInfo.bAp := by
  obtain ⟨found, _, left⟩ := bind_ok done
  split at left
  · cases left
    rfl
  split at left
  · cases left
    rfl
  obtain ⟨checked, _, left⟩ := bind_ok left
  split at left
  · cases left
    rfl
  · cases left
    rfl
  · obtain ⟨_, _, left⟩ := bind_ok left
    obtain ⟨settings, _, left⟩ := bind_ok left
    cases left
    dsimp only
    split
    · rfl
    · rfl

/-- In M7, an access point over EAP ends with success exactly on a NACK. -/
theorem handled_in_m7 (last : e.lastMsgSent = .m7) (ap : e.regInfo.bAp = true) (eap : e.transportType = .eap)
    (unfinished : e.smState ≠ .success) (done : enrSmHandleMessage proto e d = .ok handled) :
    (handled.1.smState = .success ↔ (regProtoGetMsgType d.buf).2 = Message.nack.id) ∧
      ((regProtoGetMsgType d.buf).2 = Message.nack.id →
        ∃ answer, regProtoProcessNack d.turns e.regInfo d.buf = .ok answer) := by
  unfold enrSmHandleMessage at done
  dsimp only at done
  split at done
  · rename_i late
    cases done
    rw [late.2.2]
    exact ⟨iff_of_false unfinished (by decide), fun same => absurd same (by decide)⟩
  rw [last] at done
  change enrM7 proto e d (regProtoGetMsgType d.buf).2 = .ok handled at done
  unfold enrM7 at done
  split at done
  · rename_i refused
    obtain ⟨answer, processed, left⟩ := bind_ok done
    cases left
    exact ⟨iff_of_true rfl refused.2, fun _ => ⟨answer, processed⟩⟩
  rename_i other
  have type : ¬(regProtoGetMsgType d.buf).2 = Message.nack.id := fun same => other ⟨ap, same⟩
  refine ⟨iff_of_false ?_ type, fun same => absurd same type⟩
  obtain ⟨m8, processed, left⟩ := bind_ok done
  split at left
  · cases left
    exact start_unfinished
  · cases left
    have waits : m8.2.1.bAp = true := (processM8_bAp processed).trans ap
    change (if m8.2.1.bAp = true ∧ e.transportType = .eap then SmState.continue_ else .success) ≠ .success
    rw [if_pos ⟨waits, eap⟩]
    decide

/-- A message is answered as it should be exactly if what confirms is there in full. -/
theorem endsConfirmed_iff (unfinished : e.smState ≠ .success) (ap : e.regInfo.bAp = true)
    (eap : e.transportType = .eap) (returns : enrSmHandleMessage proto e d = .ok handled) :
    EndsConfirmed proto e d ↔ ConfirmsInFull e d := by
  obtain ⟨enrollee, registrar⟩ := @both_bound_iff .ack e.regInfo d.buf rfl _ (Iff.refl (Confirmed .ack e.regInfo d.buf))
  constructor
  · intro ends
    refine ⟨fun last mismatch => ?_, fun last confirmed => ?_, fun last type => ?_⟩
    · rcases handled_in_done last returns with ⟨late, _⟩ | ⟨err, processed, state⟩
      · rw [type_of_mismatches mismatch] at late
        exact absurd late (by decide)
      · rw [if_pos (Or.inl ((ack_returned processed).2.mpr mismatch)),
          ends.goesOn handled returns (Or.inl ⟨last, mismatch⟩)] at state
        cases state
    · rcases handled_in_done last returns with ⟨late, _⟩ | ⟨err, processed, state⟩
      · rw [type_of_confirmed confirmed] at late
        exact absurd late (by decide)
      · rw [if_pos (Or.inr ((ack_returned processed).1.mpr confirmed))] at state
        obtain ⟨_, one, two⟩ := ends.ack handled returns last state
        exact ⟨enrollee.mp (fun _ => one) confirmed, registrar.mp (fun _ => two) confirmed⟩
    · obtain ⟨success, _⟩ := handled_in_m7 last ap eap unfinished returns
      obtain ⟨configError, accepted⟩ := ends.nack handled returns last (success.mpr type)
      exact (nack_returned accepted).mp rfl
  · intro confirms
    refine ⟨fun other also last success => ?_, fun other also last success => ?_, fun other also wrong => ?_⟩
    · rcases handled_in_done last also with ⟨_, same⟩ | ⟨err, processed, state⟩
      · exact absurd (same.symm.trans success) unfinished
      · have confirmed : Confirmed .ack e.regInfo d.buf := by
          by_contra refused
          have neither : ¬(err = rprotErrNonceMismatch ∨ err = wpsSuccess) := not_or.mpr
            ⟨fun same => confirms.same last ((ack_returned processed).2.mp same),
              fun same => refused ((ack_returned processed).1.mp same)⟩
          rw [if_neg neither] at state
          exact unfinished (state.symm.trans success)
        obtain ⟨one, two⟩ := confirms.full last confirmed
        exact ⟨type_of_confirmed confirmed, enrollee.mpr (fun _ => one) confirmed,
          registrar.mpr (fun _ => two) confirmed⟩
    · obtain ⟨ends, processed⟩ := handled_in_m7 last ap eap unfinished also
      have type := ends.mp success
      obtain ⟨answer, processed⟩ := processed type
      have accepted := (nack_returned processed).mpr (confirms.nack last type)
      exact ⟨answer.2, processed.trans (congrArg Except.ok (Prod.ext accepted rfl))⟩
    · rcases wrong with ⟨last, mismatch⟩ | ⟨last, mismatch⟩
      · exact absurd mismatch (confirms.same last)
      · have type := congrArg Prod.snd (type_of_mismatches mismatch)
        exact absurd (confirms.nack last type) (not_confirmed_of_mismatches mismatch)

end

theorem enrActOnState_unfinished (handled : EnrSm × Nat) (restart : Bool) :
    (enrActOnState handled restart).1.smState ≠ .success := by
  unfold enrActOnState
  split
  · exact start_unfinished
  · exact start_unfinished
  · rename_i goesOn _
    exact goesOn

theorem enrSmStep_unfinished {proto : EnrProto} {e : EnrSm} {d : Delivery} {handled : EnrSm × Nat}
    (unfinished : e.smState ≠ .success) (done : enrSmStep proto e d = .ok handled) :
    handled.1.smState ≠ .success := by
  unfold enrSmStep at done
  split at done
  · cases done
    exact unfinished
  split at done
  · unfold enrResend at done
    split at done
    · cases done
      exact unfinished
    split at done
    · cases done
      exact (show SmState.failure ≠ .success by decide)
    · cases done
      exact unfinished
  split at done
  · cases done
    exact unfinished
  · cases handling : enrSmHandleMessage proto e d with
    | error halt =>
      rw [handling] at done
      cases done
    | ok between =>
      rw [handling] at done
      cases done
      exact enrActOnState_unfinished between d.memory.restart

theorem enrollee_unfinished (proto : EnrProto) : (enrollee proto).Preserves fun e => e.smState ≠ .success := by
  intro e call unfinished _
  cases call with
  | message d =>
    change (enrCallStep proto e (.message d)).1.smState ≠ .success
    cases done : enrSmStep proto e d with
    | ok handled =>
      simp only [enrCallStep, done]
      exact enrSmStep_unfinished unfinished done
    | error halt =>
      simp only [enrCallStep, done]
      exact unfinished
  | transport transportType => exact unfinished
  | prebuild preNonce =>
    change (e.prebuild proto preNonce).smState ≠ .success
    unfold EnrSm.prebuild
    split
    · exact unfinished
    · exact (show SmState.continue_ ≠ .success by decide)
  | restart allocated => exact start_unfinished

/-- An access point that is enrolled over EAP is given a message and comes back. -/
structure HearsOverEap (proto : EnrProto) (e : EnrSm) (d : Delivery) : Prop where
  ap : e.regInfo.bAp = true
  eap : e.transportType = .eap
  returns : ∃ handled, enrSmHandleMessage proto e d = .ok handled

/-- In a run, success is confirmed by the registrar of the session at every message,
exactly if every ACK in DONE and every NACK in M7 confirms in full. -/
theorem success_confirmed_iff (proto : EnrProto) (regInfo : RegData) (calls : List EnrCall) :
    let reached := (enrollee proto).run (enrSmStart regInfo)
    (∀ past d rest, calls = past ++ .message d :: rest → HearsOverEap proto (reached past) d →
        EndsConfirmed proto (reached past) d) ↔
      ∀ past d rest, calls = past ++ .message d :: rest → HearsOverEap proto (reached past) d →
        ConfirmsInFull (reached past) d := by
  intro reached
  refine forall_congr' fun past => forall_congr' fun d => forall_congr' fun rest =>
    forall_congr' fun _ => forall_congr' fun hears => ?_
  obtain ⟨handled, returns⟩ := hears.returns
  have unfinished : (reached past).smState ≠ .success :=
    (enrollee proto).run_invariant (enrollee_unfinished proto) start_unfinished
      ((enrollee proto).admitted_of_forall fun _ _ => trivial)
  exact endsConfirmed_iff unfinished hears.ap hears.eap returns

/-- An access point, and an M2 that gives it settings. -/
def accessPoint : RegData := { blankReg with bAp := true, authTypeFlags := 1, encrTypeFlags := 1 }

def settingsM2 : Delivery := delivered .m2
  [tlv wpsIdEnrolleeNonce (List.replicate 16 0), tlv wpsIdRegistrarNonce (List.replicate 16 0),
    tlv wpsIdUuidR (List.replicate 16 0), tlv wpsIdPublicKey (List.replicate 192 0),
    tlv wpsIdAuthTypeFlags [0, 1], tlv wpsIdEncrTypeFlags [0, 1], tlv wpsIdConnTypeFlags [1],
    tlv wpsIdConfigMethods [0, 0], tlv wpsIdManufacturer [0], tlv wpsIdModelName [0],
    tlv wpsIdModelNumber [0], tlv wpsIdSerialNum [0], tlv wpsIdPrimDevType (List.replicate 8 0),
    tlv wpsIdDeviceName [0], tlv wpsIdRfBand [1], tlv wpsIdAssocState [0, 0], tlv wpsIdConfigError [0, 0],
    tlv wpsIdDevicePwdId [0, 0], tlv wpsIdOsVersion [0, 0, 0, 0],
    tlv wpsIdEncrSettings (List.replicate 31 0 ++ [16]), tlv wpsIdAuthenticator (List.replicate 8 0)]

/-- An ACK for another session. -/
def strangeAck : Delivery := delivered .ack
  [tlv wpsIdEnrolleeNonce (List.replicate 16 1), tlv wpsIdRegistrarNonce (List.replicate 16 1)]

/-- DONE has been sent, and the ACK of another session ends the exchange with success. -/
theorem strange_ack_succeeds :
    let e := (enrollee obliging).run (enrSmStart accessPoint)
      [.transport .eap, .message (delivered .done []), .message settingsM2]
    e.lastMsgSent = .done ∧ HearsOverEap obliging e strangeAck ∧
      Mismatches .ack e.regInfo strangeAck.buf ∧ ¬EndsConfirmed obliging e strangeAck := by
  intro e
  have last : e.lastMsgSent = .done := by decide +kernel
  have ap : e.regInfo.bAp = true := by decide +kernel
  have eap : e.transportType = .eap := by decide +kernel
  have ends : (enrSmHandleMessage obliging e strangeAck).map (fun handled => handled.1.smState) =
      .ok .success := by decide +kernel
  have mismatch : Mismatches .ack e.regInfo strangeAck.buf := by
    refine ⟨_, rfl, Or.inl ?_⟩
    decide +kernel
  cases returns : enrSmHandleMessage obliging e strangeAck with
  | error halt =>
    rw [returns] at ends
    cases ends
  | ok handled =>
    rw [returns] at ends
    refine ⟨last, ⟨ap, eap, handled, returns⟩, mismatch, fun confirmed => ?_⟩
    have goesOn := confirmed.goesOn handled returns (Or.inl ⟨last, mismatch⟩)
    cases goesOn.symm.trans (Except.ok.inj ends)

end BcmDhd.Wps
