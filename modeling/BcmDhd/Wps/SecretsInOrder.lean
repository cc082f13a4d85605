import BcmDhd.Wps.Acceptance
import BcmDhd.Wps.EnrSm

namespace BcmDhd.Wps

open BcmDhd.Lib

variable {code : Nat} {between : EnrSm}

/-- What processing a message with success means, by its type. -/
def EnrProto.Accepts (proto : EnrProto) (d : Delivery) (before after : RegData) (settings : Option EsM8) :
    Message → Prop
  | .m2 => regProtoProcessM2 proto.hmac proto.decrypt proto.exchange d.turns d.stale before d.buf =
      .ok (wpsSuccess, after, settings)
  | .m4 => regProtoProcessM4 proto.hmac proto.decrypt d.turns d.stale before d.buf = .ok (wpsSuccess, after)
  | .m6 => regProtoProcessM6 proto.hmac proto.decrypt d.turns d.stale before d.buf = .ok (wpsSuccess, after)
  | .m8 => regProtoProcessM8 proto.hmac proto.decrypt d.turns d.stale before d.buf =
      .ok (wpsSuccess, after, settings)
  | _ => False

/-- Taking a message apart either fails with an error, or finds a message of its type. -/
structure Typed (msgId : Message) (msg : BufferObj) (run : Except Halt (Except Nat Front)) : Prop where
  refused : ∀ code, run = .ok (.error code) → code ≠ wpsSuccess
  taken : ∀ front, run = .ok (.ok front) → regProtoGetMsgType msg = (wpsSuccess, msgId.id)

section

variable {msgId : Message} {msg b : BufferObj} {regInfo : RegData} {turns : Nat}

theorem getMsgType_of_check (checked : regMsgVersionCheck msgId msg = .ok b) :
    regProtoGetMsgType msg = (wpsSuccess, msgId.id) := by
  unfold regMsgVersionCheck at checked
  dsimp only at checked
  split at checked
  · cases checked
  rename_i there
  split at checked
  · cases checked
  split at checked
  · cases checked
  rename_i type
  obtain ⟨first, second⟩ := not_or.mp there
  rw [regProtoGetMsgType, Bool.of_not_eq_false first, Bool.of_not_eq_false second, not_not.mp type]
  rfl

theorem typed_of_check {read : BufferObj → Except Halt (Except Nat Front)}
    (reading : ∀ b code, read b = .ok (.error code) → code ≠ wpsSuccess) :
    Typed msgId msg (match regMsgVersionCheck msgId msg with
      | Except.error code => Except.ok (Except.error code)
      | Except.ok b => read b) := by
  cases checked : regMsgVersionCheck msgId msg with
  | error code =>
    refine ⟨fun other refused => ?_, fun front taken => ?_⟩
    · cases refused
      exact versionCheck_error checked
    · cases taken
  | ok b => exact ⟨reading b, fun _ _ => getMsgType_of_check checked⟩

theorem skipToAuthenticator_refused {front : Front}
    (refused : skipToAuthenticator turns front = .ok (.error code)) : code ≠ wpsSuccess := by
  obtain ⟨found, _, left⟩ := bind_ok refused
  cases found with
  | none =>
    cases left
    decide
  | some b => cases left

theorem m2Skip_refused {head : M2Head} {vendor : Option VendorExt × BufferObj}
    (refused : m2Skip turns regInfo msg head vendor = .ok (.error code)) : code ≠ wpsSuccess := by
  unfold m2Skip at refused
  dsimp only at refused
  split at refused
  · cases refused
    decide
  obtain ⟨multiple, _, left⟩ := bind_ok refused
  split at left
  · cases left
    decide
  split at left
  · cases left
    decide
  obtain ⟨found, _, last⟩ := bind_ok left
  cases found with
  | none =>
    cases last
    decide
  | some scan => cases last

theorem m2Front_typed : Typed .m2 msg (m2Front turns regInfo msg) := by
  refine typed_of_check fun b code refused => ?_
  obtain ⟨_, _, searched⟩ := bind_ok refused
  obtain ⟨_, _, read⟩ := bind_ok searched
  exact m2Skip_refused read

theorem searched_refused {missing : Prop} [Decidable missing] {search : Except Halt (Option VendorExt × BufferObj)}
    {front : Option VendorExt × BufferObj → Front}
    (refused : (if missing then Except.ok (Except.error rprotErrReqdTlvMissing)
      else search >>= fun vendor => skipToAuthenticator turns (front vendor)) = .ok (.error code)) :
    code ≠ wpsSuccess := by
  split at refused
  · cases refused
    decide
  · obtain ⟨_, _, searched⟩ := bind_ok refused
    exact skipToAuthenticator_refused searched

theorem m4Front_typed : Typed .m4 msg (m4Front turns regInfo msg) :=
  typed_of_check fun _ _ refused => searched_refused refused

theorem m6Front_typed : Typed .m6 msg (m6Front turns regInfo msg) :=
  typed_of_check fun _ _ refused => searched_refused refused

theorem m8Front_typed : Typed .m8 msg (m8Front turns regInfo msg) :=
  typed_of_check fun _ _ refused => searched_refused refused

theorem accepted_typed {After : Type} {after : After} {run : Except Halt (Except Nat Front)}
    {rest : Except Nat Front → Except Halt (Nat × After)} (typed : Typed msgId msg run)
    (refusal : ∀ code, ∃ a, rest (.error code) = .ok (code, a))
    (accepted : run >>= rest = .ok (wpsSuccess, after)) :
    regProtoGetMsgType msg = (wpsSuccess, msgId.id) := by
  obtain ⟨found, taken, left⟩ := bind_ok accepted
  cases found with
  | error code =>
    obtain ⟨a, same⟩ := refusal code
    rw [same] at left
    cases left
    exact absurd rfl (typed.refused _ taken)
  | ok front => exact typed.taken front taken

end

variable {proto : EnrProto} {d : Delivery} {before after : RegData} {settings : Option EsM8}

theorem accepts_type {message : Message} (accepted : proto.Accepts d before after settings message) :
    regProtoGetMsgType d.buf = (wpsSuccess, message.id) := by
  cases message with
  | m2 => exact accepted_typed m2Front_typed (fun _ => ⟨_, rfl⟩) accepted
  | m4 => exact accepted_typed m4Front_typed (fun _ => ⟨_, rfl⟩) accepted
  | m6 => exact accepted_typed m6Front_typed (fun _ => ⟨_, rfl⟩) accepted
  | m8 => exact accepted_typed m8Front_typed (fun _ => ⟨_, rfl⟩) accepted
  | _ => cases accepted

/-- The hash that the registrar gave in M4 is that of the nonce it now reveals. -/
theorem accepted_m4_hash (accepted : proto.Accepts d before after settings .m4) :
    nonceHash proto.hmac before after.rs1 before.psk1 = after.rHash1 := by
  obtain ⟨found, taken, left⟩ := bind_ok accepted
  cases found with
  | error code =>
    cases left
    exact absurd rfl (m4Front_typed.refused _ taken)
  | ok front =>
    simp only at left
    split at left
    · cases left
    obtain ⟨checked, _, next⟩ := bind_ok left
    split at next
    · rename_i refused
      cases next
      exact absurd rfl (checkMessage_error (by assumption))
    · cases next
    · obtain ⟨_, _, next⟩ := bind_ok next
      obtain ⟨_, _, next⟩ := bind_ok next
      obtain ⟨_, _, next⟩ := bind_ok next
      obtain ⟨_, _, next⟩ := bind_ok next
      split at next
      · rename_i same
        cases next
        exact same
      · cases next

/-- Which message answers which, by what was sent before. -/
inductive EnrAnswers : EMsg → Message → Message → EMsg → Prop
  | m3 : EnrAnswers .m1 .m2 .m3 .m3
  | m5 : EnrAnswers .m3 .m4 .m5 .m5
  | m7 : EnrAnswers .m5 .m6 .m7 .m7

/-- After which messages DONE goes out: M8, and an M2 that carries settings. -/
inductive EnrFinishes : EMsg → Message → Option EsM8 → Prop
  | m8 (settings : Option EsM8) : EnrFinishes .m7 .m8 settings
  | m2 (settings : EsM8) : EnrFinishes .m1 .m2 (some settings)

/-- Everything that handling a message does to what has been sent and done. -/
inductive EnrOutcome (proto : EnrProto) (e : EnrSm) (d : Delivery) : EnrSm → Prop
  | stays (after : EnrSm) (sent : after.lastMsgSent = e.lastMsgSent) (events : after.events = e.events) :
    EnrOutcome proto e d after
  | unanswered (after : EnrSm) (message : Message) (info : RegData) (settings : Option EsM8)
    (accepted : proto.Accepts d e.regInfo info settings message)
    (sent : after.lastMsgSent = e.lastMsgSent)
    (events : after.events = e.events ++ [.processed message e.regInfo info settings]) :
    EnrOutcome proto e d after
  | restarts (after : EnrSm) (sent : after.lastMsgSent = .mnone) (events : after.events = []) :
    EnrOutcome proto e d after
  | starts (after : EnrSm) (first : e.lastMsgSent = .mnone) (sent : after.lastMsgSent = .m1)
    (events : after.events = e.events ++ [.built .m1]) : EnrOutcome proto e d after
  | answers (after : EnrSm) (inbound outbound : Message) (info : RegData) (settings : Option EsM8)
    (answer : EnrAnswers e.lastMsgSent inbound outbound after.lastMsgSent)
    (accepted : proto.Accepts d e.regInfo info settings inbound)
    (events : after.events = e.events ++ [.processed inbound e.regInfo info settings, .built outbound]) :
    EnrOutcome proto e d after
  | finishes (after : EnrSm) (inbound : Message) (info : RegData) (settings : Option EsM8)
    (finish : EnrFinishes e.lastMsgSent inbound settings) (sent : after.lastMsgSent = .done)
    (accepted : proto.Accepts d e.regInfo info settings inbound)
    (events : after.events = e.events ++ [.processed inbound e.regInfo info settings]) :
    EnrOutcome proto e d after

section

variable {e : EnrSm} {msgType : Nat} {handled : EnrSm × Nat}

theorem enrNackRestart_restarts (after : EnrSm) (configError : UInt16) (restart : Bool) :
    EnrOutcome proto e d (enrNackRestart proto after configError restart).1 :=
  .restarts _ rfl rfl

theorem enrMnone_outcome (first : e.lastMsgSent = .mnone) (msgType : Nat) :
    EnrOutcome proto e d (enrMnone proto e msgType).1 := by
  unfold enrMnone
  split
  · exact .stays _ rfl rfl
  dsimp only
  split
  · exact .stays _ rfl rfl
  · exact .starts _ first rfl rfl

theorem enrAnswer_outcome {inbound outbound : Message} {sent : EMsg} {info : RegData}
    (same : between.lastMsgSent = e.lastMsgSent) (answer : EnrAnswers e.lastMsgSent inbound outbound sent)
    (accepted : proto.Accepts d e.regInfo info settings inbound)
    (events : between.events = e.events ++ [.processed inbound e.regInfo info settings]) :
    EnrOutcome proto e d (enrAnswer proto between outbound sent).1 := by
  unfold enrAnswer
  dsimp only
  split
  · exact .unanswered _ inbound info settings accepted same events
  · refine .answers _ inbound outbound info settings answer accepted ?_
    change between.events ++ [.built outbound] = _
    rw [events, List.append_assoc]
    rfl

theorem answeredM2d_outcome {answer : Nat × RegData}
    (sent : between.lastMsgSent = e.lastMsgSent) (events : between.events = e.events)
    (done : (if answer.1 = wpsSendMsgCont ∧ (between.withInfo answer.2).m2dStatus = .awaitM2 then
        Except.ok ({ between.withInfo answer.2 with m2dStatus := .recvdM2d, smState := .continue_ }, answer.1)
      else (Except.ok (between.withInfo answer.2, answer.1) : Except Halt (EnrSm × Nat))) = .ok handled) :
    EnrOutcome proto e d handled.1 := by
  split at done
  · cases done
    exact .stays _ sent events
  · cases done
    exact .stays _ sent events

theorem enrM2d_outcome (done : enrM2d proto e d = .ok handled) : EnrOutcome proto e d handled.1 := by
  obtain ⟨m2d, _, left⟩ := bind_ok done
  split at left
  · cases left
    exact .stays _ rfl rfl
  · refine answeredM2d_outcome ?_ ?_ left
    · split
      · rfl
      · rfl
    · split
      · rfl
      · rfl

theorem enrM2Refused_outcome (sent : between.lastMsgSent = e.lastMsgSent)
    (events : between.events = e.events) (err : Nat) (restart : Bool) :
    EnrOutcome proto e d (enrM2Refused proto between err restart).1 := by
  unfold enrM2Refused
  split
  · exact enrNackRestart_restarts between wpsErrorNwAuthFail restart
  split
  · exact .stays _ sent events
  split
  · exact .stays _ sent events
  split
  · exact .stays _ sent events
  split
  · exact .stays _ sent events
  · exact enrNackRestart_restarts between wpsErrorDecryptCrcFail restart

theorem enrM2_outcome (last : e.lastMsgSent = .m1) (done : enrM2 proto e d = .ok handled) :
    EnrOutcome proto e d handled.1 := by
  obtain ⟨m2, processed, left⟩ := bind_ok done
  split at left
  · cases left
    refine enrM2Refused_outcome ?_ ?_ _ _
    · rfl
    · rfl
  rename_i success
  have accepted : proto.Accepts d e.regInfo m2.2.1 m2.2.2 .m2 :=
    processed.trans (congrArg Except.ok (Prod.ext (not_not.mp success) rfl))
  dsimp only at left
  split at left
  · rename_i es settings
    cases left
    exact .finishes _ .m2 _ _ (last ▸ settings ▸ .m2 es) rfl accepted rfl
  · cases left
    exact enrAnswer_outcome rfl (last ▸ .m3) accepted rfl

theorem enrM1_outcome (last : e.lastMsgSent = .m1) (done : enrM1 proto e d msgType = .ok handled) :
    EnrOutcome proto e d handled.1 := by
  unfold enrM1 at done
  split at done
  · obtain ⟨_, _, left⟩ := bind_ok done
    cases left
    exact .restarts _ rfl rfl
  split at done
  · exact enrM2d_outcome done
  split at done
  · cases done
    exact .stays _ rfl rfl
  · exact enrM2_outcome last done

theorem enrSecretRefused_outcome (sent : between.lastMsgSent = e.lastMsgSent)
    (events : between.events = e.events) (err msgType : Nat) (restart : Bool) :
    EnrOutcome proto e d (enrSecretRefused proto between err msgType restart).1 := by
  unfold enrSecretRefused
  split
  · exact enrNackRestart_restarts between wpsErrorDevPwdAuthFail restart
  split
  · exact .stays _ sent events
  · exact enrNackRestart_restarts between wpsErrorDeviceBusy restart

theorem enrM3_outcome (last : e.lastMsgSent = .m3) (done : enrM3 proto e d msgType = .ok handled) :
    EnrOutcome proto e d handled.1 := by
  obtain ⟨m4, processed, left⟩ := bind_ok done
  split at left
  · split at left
    · cases left
      exact .stays _ rfl rfl
    · cases left
      refine enrSecretRefused_outcome ?_ ?_ _ _ _
      · rfl
      · rfl
  rename_i success
  have accepted : proto.Accepts d e.regInfo m4.2 none .m4 :=
    processed.trans (congrArg Except.ok (Prod.ext (not_not.mp success) rfl))
  cases left
  exact enrAnswer_outcome rfl (last ▸ .m5) accepted rfl

theorem enrM5_outcome (last : e.lastMsgSent = .m5) (done : enrM5 proto e d msgType = .ok handled) :
    EnrOutcome proto e d handled.1 := by
  obtain ⟨m6, processed, left⟩ := bind_ok done
  split at left
  · cases left
    refine enrSecretRefused_outcome ?_ ?_ _ _ _
    · rfl
    · rfl
  rename_i success
  have accepted : proto.Accepts d e.regInfo m6.2 none .m6 :=
    processed.trans (congrArg Except.ok (Prod.ext (not_not.mp success) rfl))
  cases left
  exact enrAnswer_outcome rfl (last ▸ .m7) accepted rfl

theorem enrM7_outcome (last : e.lastMsgSent = .m7) (done : enrM7 proto e d msgType = .ok handled) :
    EnrOutcome proto e d handled.1 := by
  unfold enrM7 at done
  split at done
  · obtain ⟨_, _, left⟩ := bind_ok done
    cases left
    exact .stays _ rfl rfl
  obtain ⟨m8, processed, left⟩ := bind_ok done
  split at left
  · cases left
    exact enrNackRestart_restarts _ _ _
  rename_i success
  have accepted : proto.Accepts d e.regInfo m8.2.1 m8.2.2 .m8 :=
    processed.trans (congrArg Except.ok (Prod.ext (not_not.mp success) rfl))
  cases left
  exact .finishes _ .m8 _ _ (last ▸ .m8 _) rfl accepted rfl

theorem enrDone_outcome (done : enrDone e d = .ok handled) : EnrOutcome proto e d handled.1 := by
  obtain ⟨err, _, left⟩ := bind_ok done
  split at left
  · cases left
    exact .stays _ rfl rfl
  split at left
  · cases left
    exact .stays _ rfl rfl
  · cases left
    exact .stays _ rfl rfl

theorem enrSmHandleMessage_outcome (done : enrSmHandleMessage proto e d = .ok handled) :
    EnrOutcome proto e d handled.1 := by
  unfold enrSmHandleMessage at done
  dsimp only at done
  split at done
  · cases done
    exact .stays _ rfl rfl
  split at done
  · rename_i first
    cases done
    exact enrMnone_outcome first _
  · rename_i last
    exact enrM1_outcome last done
  · rename_i last
    exact enrM3_outcome last done
  · rename_i last
    exact enrM5_outcome last done
  · rename_i last
    exact enrM7_outcome last done
  · exact enrDone_outcome done
  · cases done
    exact .stays _ rfl rfl

end

/-- What must have been done, in this order, before `sent` was sent. -/
def enrRequired : EMsg → List Event
  | .m3 => [.processed .m2, .built .m3]
  | .m5 => [.processed .m2, .built .m3, .processed .m4, .built .m5]
  | .m7 => [.processed .m2, .built .m3, .processed .m4, .built .m5, .processed .m6, .built .m7]
  | .done => [.processed .m2, .built .m3, .processed .m4, .built .m5, .processed .m6, .built .m7,
      .processed .m8]
  | _ => []

/-- A message noted as processed was delivered and processed with success. -/
def EnrProto.Sound (proto : EnrProto) : EnrEvent → Prop
  | .processed message before after settings => ∃ d, proto.Accepts d before after settings message
  | .built _ => True

/-- What has been sent last has been earned by messages that were processed before, all
with success. DONE may also follow an M2 with settings. -/
structure Earns (proto : EnrProto) (e : EnrSm) : Prop where
  order : (enrRequired e.lastMsgSent).Sublist (e.events.map EnrEvent.kind) ∨
    e.lastMsgSent = .done ∧ ∃ before after es, .processed .m2 before after (some es) ∈ e.events
  sound : ∀ event ∈ e.events, proto.Sound event

section

variable {e after : EnrSm} {event : EnrEvent}

theorem Earns.unchanged (earned : Earns proto e) (sent : after.lastMsgSent = e.lastMsgSent)
    (events : after.events = e.events) : Earns proto after := by
  refine ⟨?_, ?_⟩
  · rw [sent, events]
    exact earned.order
  · rw [events]
    exact earned.sound

theorem Earns.mnone (sent : after.lastMsgSent = .mnone) (sound : ∀ event ∈ after.events, proto.Sound event) :
    Earns proto after := by
  refine ⟨Or.inl ?_, sound⟩
  rw [sent]
  exact List.nil_sublist _

theorem EnrAnswers.required {sent next : EMsg} {inbound outbound : Message}
    (answer : EnrAnswers sent inbound outbound next) :
    enrRequired next = enrRequired sent ++ [.processed inbound, .built outbound] ∧ sent ≠ .done := by
  cases answer with
  | m3 => exact ⟨rfl, by decide⟩
  | m5 => exact ⟨rfl, by decide⟩
  | m7 => exact ⟨rfl, by decide⟩

theorem Earns.sound_append (earned : Earns proto e) {more : List EnrEvent}
    (sound : ∀ event ∈ more, proto.Sound event) : ∀ event ∈ e.events ++ more, proto.Sound event := by
  intro event member
  rcases List.mem_append.mp member with old | new
  · exact earned.sound event old
  · exact sound event new

theorem EnrOutcome.earns (outcome : EnrOutcome proto e d after) (earned : Earns proto e) :
    Earns proto after := by
  cases outcome with
  | stays sent events => exact earned.unchanged sent events
  | unanswered message info settings accepted sent events =>
    refine ⟨?_, ?_⟩
    · rw [sent, events, List.map_append]
      rcases earned.order with chain | ⟨done, before, info, es, given⟩
      · exact Or.inl (chain.trans (List.sublist_append_left _ _))
      · exact Or.inr ⟨done, before, info, es, List.mem_append_left _ given⟩
    · rw [events]
      refine earned.sound_append fun event member => ?_
      rw [List.mem_singleton.mp member]
      exact ⟨d, accepted⟩
  | restarts sent events =>
    refine .mnone sent ?_
    rw [events]
    exact fun _ member => absurd member List.not_mem_nil
  | starts first sent events =>
    refine ⟨Or.inl ?_, ?_⟩
    · rw [sent]
      exact List.nil_sublist _
    · rw [events]
      refine earned.sound_append fun event member => ?_
      rw [List.mem_singleton.mp member]
      trivial
  | answers inbound outbound info settings answer accepted events =>
    obtain ⟨required, notDone⟩ := answer.required
    refine ⟨Or.inl ?_, ?_⟩
    · rw [required, events, List.map_append]
      rcases earned.order with chain | ⟨done, _⟩
      · exact chain.append (List.Sublist.refl _)
      · exact absurd done notDone
    · rw [events]
      refine earned.sound_append fun event member => ?_
      rcases List.mem_cons.mp member with rfl | last
      · exact ⟨d, accepted⟩
      · rw [List.mem_singleton.mp last]
        trivial
  | finishes inbound info settings finish sent accepted events =>
    refine ⟨?_, ?_⟩
    · rw [sent, events]
      generalize last : e.lastMsgSent = sentBefore at finish
      cases finish with
      | m8 settings =>
        rcases earned.order with chain | ⟨done, _⟩
        · rw [List.map_append]
          rw [last] at chain
          exact Or.inl (chain.append (List.Sublist.refl [Event.processed .m8]))
        · rw [done] at last
          cases last
      | m2 es => exact Or.inr ⟨rfl, e.regInfo, info, es, List.mem_append_right _ (List.mem_singleton.mpr rfl)⟩
    · rw [events]
      refine earned.sound_append fun event member => ?_
      rw [List.mem_singleton.mp member]
      exact ⟨d, accepted⟩

/-- What a message may do to `e_lastMsgSent`: nothing, a restart, the first M1, or the
answer to a message of the right type that was processed with success. -/
def EnrMoves (proto : EnrProto) (e : EnrSm) (d : Delivery) (next : EMsg) : Prop :=
  next = e.lastMsgSent ∨ next = .mnone ∨ e.lastMsgSent = .mnone ∧ next = .m1 ∨
    ∃ inbound info settings, regProtoGetMsgType d.buf = (wpsSuccess, inbound.id) ∧
      proto.Accepts d e.regInfo info settings inbound ∧
      ((∃ outbound, EnrAnswers e.lastMsgSent inbound outbound next) ∨
        EnrFinishes e.lastMsgSent inbound settings ∧ next = .done)

theorem EnrOutcome.moves (outcome : EnrOutcome proto e d after) : EnrMoves proto e d after.lastMsgSent := by
  cases outcome with
  | stays sent events => exact Or.inl sent
  | unanswered message info settings accepted sent events => exact Or.inl sent
  | restarts sent events => exact Or.inr (Or.inl sent)
  | starts first sent events => exact Or.inr (Or.inr (Or.inl ⟨first, sent⟩))
  | answers inbound outbound info settings answer accepted events =>
    exact Or.inr (Or.inr (Or.inr ⟨inbound, info, settings, accepts_type accepted, accepted,
      Or.inl ⟨outbound, answer⟩⟩))
  | finishes inbound info settings finish sent accepted events =>
    exact Or.inr (Or.inr (Or.inr ⟨inbound, info, settings, accepts_type accepted, accepted,
      Or.inr ⟨finish, sent⟩⟩))

theorem enrActOnState_cases (handled : EnrSm × Nat) (restart : Bool) :
    (enrActOnState handled restart).1 = handled.1 ∨
      (enrActOnState handled restart).1.lastMsgSent = .mnone ∧
        (enrActOnState handled restart).1.events = [] := by
  unfold enrActOnState
  split
  · exact Or.inr ⟨rfl, rfl⟩
  · exact Or.inr ⟨rfl, rfl⟩
  · exact Or.inl rfl

/-- A step keeps what has been sent and done, or handles the message and may restart. -/
theorem enrSmStep_cases (done : enrSmStep proto e d = .ok (after, code)) :
    after.lastMsgSent = e.lastMsgSent ∧ after.events = e.events ∨
      ∃ handled, enrSmHandleMessage proto e d = .ok handled ∧
        after = (enrActOnState handled d.memory.restart).1 := by
  unfold enrSmStep at done
  split at done
  · cases done
    exact Or.inl ⟨rfl, rfl⟩
  split at done
  · unfold enrResend at done
    split at done
    · cases done
      exact Or.inl ⟨rfl, rfl⟩
    split at done
    · cases done
      exact Or.inl ⟨rfl, rfl⟩
    · cases done
      exact Or.inl ⟨rfl, rfl⟩
  split at done
  · cases done
    exact Or.inl ⟨rfl, rfl⟩
  · cases handling : enrSmHandleMessage proto e d with
    | error halt =>
      rw [handling] at done
      cases done
    | ok handled =>
      rw [handling] at done
      exact Or.inr ⟨handled, rfl, (congrArg Prod.fst (Except.ok.inj done)).symm⟩

theorem enrSmStep_earns (done : enrSmStep proto e d = .ok (after, code)) (earned : Earns proto e) :
    Earns proto after := by
  rcases enrSmStep_cases done with ⟨sent, events⟩ | ⟨handled, handling, rfl⟩
  · exact earned.unchanged sent events
  · have kept := (enrSmHandleMessage_outcome handling).earns earned
    rcases enrActOnState_cases handled d.memory.restart with same | ⟨sent, events⟩
    · rw [same]
      exact kept
    · refine .mnone sent ?_
      rw [events]
      exact fun _ member => absurd member List.not_mem_nil

theorem enrSmStep_moves (done : enrSmStep proto e d = .ok (after, code)) :
    EnrMoves proto e d after.lastMsgSent := by
  rcases enrSmStep_cases done with ⟨sent, _⟩ | ⟨handled, handling, rfl⟩
  · exact Or.inl sent
  · rcases enrActOnState_cases handled d.memory.restart with same | ⟨sent, _⟩
    · rw [same]
      exact (enrSmHandleMessage_outcome handling).moves
    · exact Or.inr (Or.inl sent)

theorem enrollee_earns (proto : EnrProto) : (enrollee proto).Preserves (Earns proto) := by
  intro e call earned _
  cases call with
  | message d =>
    change Earns proto (enrCallStep proto e (.message d)).1
    cases done : enrSmStep proto e d with
    | ok handled =>
      simp only [enrCallStep, done]
      exact enrSmStep_earns done earned
    | error halt =>
      simp only [enrCallStep, done]
      exact earned
  | transport transportType => exact earned.unchanged rfl rfl
  | prebuild preNonce =>
    change Earns proto (e.prebuild proto preNonce)
    unfold EnrSm.prebuild
    split
    · exact earned
    · exact ⟨Or.inl (List.nil_sublist _), earned.sound⟩
  | restart allocated => exact .mnone rfl fun _ member => absurd member List.not_mem_nil

end

/-- In state `e` no secret has been given away too early, and the next message cannot make
it so. -/
structure SecretsInOrder (proto : EnrProto) (e : EnrSm) : Prop where
  sent : Earns proto e
  /-- The registrar has shown the nonce behind its first hash. -/
  revealed : ∀ before after settings, .processed .m4 before after settings ∈ e.events →
    nonceHash proto.hmac before after.rs1 before.psk1 = after.rHash1
  /-- Also where the exchange ends with the message, and a restart follows. -/
  handled : ∀ d after code, enrSmHandleMessage proto e d = .ok (after, code) → Earns proto after
  moves : ∀ d after code, enrSmStep proto e d = .ok (after, code) → EnrMoves proto e d after.lastMsgSent

/-- In every run, whatever has been sent last was earned by the messages before it, in
order; and only the first M1 goes out without a processed message of the right type. -/
theorem enrollee_secrets_in_order (proto : EnrProto) (regInfo : RegData) (calls : List EnrCall) :
    SecretsInOrder proto ((enrollee proto).run (enrSmStart regInfo) calls) := by
  have begins : Earns proto (enrSmStart regInfo) := .mnone rfl fun _ member => absurd member List.not_mem_nil
  have earned : Earns proto ((enrollee proto).run (enrSmStart regInfo) calls) :=
    (enrollee proto).run_invariant (enrollee_earns proto) begins
      ((enrollee proto).admitted_of_forall fun _ _ => trivial)
  refine ⟨earned, ?_, ?_, ?_⟩
  · intro before after settings member
    obtain ⟨d, accepted⟩ := earned.sound _ member
    exact accepted_m4_hash accepted
  · intro d after code done
    exact (enrSmHandleMessage_outcome done).earns earned
  · intro d after code done
    exact enrSmStep_moves done

/-- Nothing was encrypted. -/
abbrev unencrypted : Decrypt := fun _ _ cipherText => ⟨cipherText, rfl⟩

/-- Everything can be built, and all keys are 0. -/
def obliging : EnrProto where
  hmac _ _ := repeated 32 0
  decrypt := unencrypted
  exchange _ _ := .ok (repeated 80 0)
  create _ regInfo := (wpsSuccess, regInfo)
  createNack regInfo _ := (wpsSuccess, regInfo)
  nfcDevice := false

/-- The version and the type of a message, and its other attributes. -/
def delivered (msgId : Message) (attributes : List Bytes) : Delivery :=
  { msg := tlv wpsIdVersion [0x10] ++ tlv wpsIdMsgType [UInt8.ofNat msgId.id] ++ attributes.flatten
    around := ⟨fun _ => 0, fun _ => 0⟩, stale := [], outLen := 0, memory := ⟨true, true, true⟩, turns := 40 }

/-- Before anything has been sent, even a DONE is answered with M1. -/
theorem done_answered_with_m1 :
    regProtoGetMsgType (delivered .done []).buf = (wpsSuccess, Message.done.id) ∧
      (enrSmStart blankReg).lastMsgSent = .mnone ∧
      ((enrollee obliging).run (enrSmStart blankReg) [.message (delivered .done [])]).lastMsgSent = .m1 :=
  ⟨rfl, rfl, rfl⟩

end BcmDhd.Wps
