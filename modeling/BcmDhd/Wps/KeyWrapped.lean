import BcmDhd.Wps.ConfirmedSuccess

namespace BcmDhd.Wps

open BcmDhd.Lib

/-- Settings with the MAC of the bytes before it, of which 8 bytes are kept. -/
def KeyWrapped (hmac : Hmac) (authKey data : Bytes) : Prop :=
  ∃ before later, data = before ++ tlv wpsIdKeyWrapAuth ((hmac authKey before).val.take 8) ++ later

/-- Settings as `reg_proto_decrypt_data` leaves them: `stale` is what the buffer held before. -/
def decrypted (data stale : Bytes) (around : Surroundings) : BufferObj := ⟨[], data ++ stale, data.length, around⟩

/-- Success with settings needs the authenticator; without it there is an error, and no
settings. -/
structure UsesWrapped (wrapped : Prop) (run : Nat → Except Halt (Nat × Option EsM8)) : Prop where
  used : ∀ es, Settles run (.ok (wpsSuccess, some es)) → wrapped
  refused : ¬wrapped → ∃ code, code ≠ wpsSuccess ∧ Settles run (.ok (code, none))

section

variable {hmac : Hmac} {turns : Nat} {regInfo : RegData} {plainText : BufferObj} {answer : Nat × Option EsM8}

theorem m8Settings_given (done : m8Settings hmac turns regInfo plainText = .ok answer) :
    answer.2.isSome = true := by
  obtain ⟨es, _, left⟩ := bind_ok done
  split at left
  · cases left
    rfl
  split at left
  · cases left
  · cases left
    rfl

theorem m2Settings_given (done : m2Settings hmac turns regInfo plainText = .ok answer) :
    answer.2.isSome = true := by
  obtain ⟨es, _, left⟩ := bind_ok done
  cases left
  rfl

theorem usesWrapped_iff {wrapped : Prop} {run : Nat → Except Halt (Nat × Option EsM8)}
    (given : ∀ turns answer, run turns = .ok answer → answer.2.isSome = true) :
    UsesWrapped wrapped run ↔ wrapped := by
  constructor
  · intro uses
    by_contra unwrapped
    obtain ⟨code, _, enough, settled⟩ := uses.refused unwrapped
    have none_ := given enough _ (settled enough (Nat.le_refl enough))
    cases none_
  · intro right
    exact ⟨fun _ _ => right, fun unwrapped => absurd right unwrapped⟩

end

/-- No settings are refused: the authenticator decides about their use only where it is
there and is right. -/
theorem settings_wrapped_iff (hmac : Hmac) (regInfo : RegData) (data stale : Bytes) (around : Surroundings) :
    let wrapped := KeyWrapped hmac regInfo.authKey data
    let plainText := decrypted data stale around
    (UsesWrapped wrapped (fun turns => m8Settings hmac turns regInfo plainText) ↔ wrapped) ∧
      (UsesWrapped wrapped (fun turns => m2Settings hmac turns regInfo plainText) ↔ wrapped) :=
  ⟨usesWrapped_iff fun _ _ => m8Settings_given, usesWrapped_iff fun _ _ => m2Settings_given⟩

/-- Settings of which nothing is left are used, in both messages; an M2 that brings them
is accepted. -/
theorem empty_settings_used :
    let plainText := decrypted [] [] ⟨fun _ => 0, fun _ => 0⟩
    let given := fun answer : Nat × Option EsM8 => (answer.1, answer.2.isSome)
    ¬KeyWrapped obliging.hmac accessPoint.authKey [] ∧
      (m8Settings obliging.hmac 1 accessPoint plainText).map given = .ok (wpsSuccess, true) ∧
      (m2Settings obliging.hmac 1 accessPoint plainText).map given = .ok (wpsSuccess, true) ∧
      (regProtoProcessM2 obliging.hmac obliging.decrypt obliging.exchange settingsM2.turns settingsM2.stale
        accessPoint settingsM2.buf).map (fun answer => given (answer.1, answer.2.2)) = .ok (wpsSuccess, true) := by
  refine ⟨?_, by decide +kernel, by decide +kernel, by decide +kernel⟩
  intro wrapped
  obtain ⟨before, later, whole⟩ := wrapped
  have lengths := congrArg List.length whole
  rw [List.length_append, List.length_append, length_tlv] at lengths
  have empty : ([] : Bytes).length = 0 := rfl
  omega

end BcmDhd.Wps
