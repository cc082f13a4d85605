import BcmDhd.Wps.RegSm

namespace BcmDhd.Wps

open BcmDhd.Lib

variable {Keys : Type}

/-- What the registrar hears, and what its surroundings do to it. -/
inductive Call
  | message (msg : Bytes) (memory : Memory)
  | restart (allocated : Bool)
  | configure (devInfo : DevInfo) (transportType : TransportType)

def callStep (proto : RegProto Keys) (nfcDevice : Bool) (r : RegSm Keys) : Call → RegSm Keys × Nat
  | .message msg memory =>
    if r.initialized then regSmLocalRegStep proto nfcDevice r msg memory
    else (r, wpsErrNotInitialized)
  | .restart allocated => (regSmRestartsm proto r allocated, wpsCont)
  | .configure devInfo transportType =>
    (r.withSession { r.session with devInfo := devInfo, transportType := transportType }, wpsCont)

def registrar (proto : RegProto Keys) (nfcDevice : Bool) : Machine (RegSm Keys) Call Nat where
  step := callStep proto nfcDevice
  admits _ _ := True

/-- The machine as `reg_sm_initsm` sets it up. -/
def regSmStart (proto : RegProto Keys) (devInfo : DevInfo) : RegSm Keys :=
  { smState := .start, lastMsgRecd := .mnone, lastMsgSent := .mnone, initialized := true
    session := { transportType := .unset, enrollee := none, devInfo := devInfo, keys := proto.freshKeys }
    sentM2 := false, errCode := 0, peerEncrSettings := none, events := [] }

/-- What must have been done, in this order, before `sent` was sent. -/
def required : EMsg → List Event
  | .m2 => [.processed .m1, .built .m2]
  | .m4 => [.processed .m1, .built .m2, .processed .m3, .built .m4]
  | .m6 => [.processed .m1, .built .m2, .processed .m3, .built .m4, .processed .m5, .built .m6]
  | .m8 => [.processed .m1, .built .m2, .processed .m3, .built .m4, .processed .m5, .built .m6,
      .processed .m7, .built .m8]
  | _ => []

/-- `msg` is of the given type and is processed with success. -/
def Processes (proto : RegProto Keys) (session : Session Keys) (msg : Bytes) (message : Message) :
    Prop :=
  proto.getMsgType msg = (wpsSuccess, message.id) ∧ (proto.process message session msg).1 = wpsSuccess

/-- The exchange may end here: DONE after M8 or after an out-of-band M2, or the
settings of an access point that is not to be configured. -/
def Finishes (proto : RegProto Keys) (r : RegSm Keys) (msg : Bytes) : Prop :=
  (r.lastMsgSent = .m8 ∨ r.lastMsgSent = .m2 ∧ r.session.devInfo.bOobM2 = true) ∧
      Processes proto r.session msg .done ∨
    r.lastMsgSent = .m6 ∧ Processes proto r.session msg .m7 ∧
      (proto.process .m7 r.session msg).2.enrolleeAp = true ∧
      (proto.process .m7 r.session msg).2.devInfo.configap = false

/-- An M1 that does not match the out-of-band data, in a build for NFC. -/
def Mismatched (proto : RegProto Keys) (nfcDevice : Bool) (session : Session Keys) (msg : Bytes) :
    Prop :=
  nfcDevice = true ∧ proto.getMsgType msg = (wpsSuccess, Message.m1.id) ∧
    ((proto.process .m1 session msg).1 = rprotErrDevPwIdMismatch ∨
      (proto.process .m1 session msg).1 = rprotErrPubKeyHashMismatch)

/-- Which message answers which, by what was sent before. -/
inductive Answers : EMsg → Message → Message → EMsg → Prop
  | m2 : Answers .mstart .m1 .m2 .m2
  | m2d : Answers .mstart .m1 .m2d .m2d
  | m4 : Answers .m2 .m3 .m4 .m4
  | m6 : Answers .m4 .m5 .m6 .m6
  | m8 : Answers .m6 .m7 .m8 .m8

/-- Everything that handling a message does to the state machine. -/
inductive Outcome (proto : RegProto Keys) (nfcDevice : Bool) (r : RegSm Keys) (msg : Bytes) :
    RegSm Keys → Prop
  | stays (after : RegSm Keys) (sent : after.lastMsgSent = r.lastMsgSent)
    (grown : r.events <+: after.events)
    (state : after.smState = r.smState ∨ after.smState = .continue_ ∨ after.smState = .failure) :
    Outcome proto nfcDevice r msg after
  | answers (after : RegSm Keys) (inbound outbound : Message)
    (answer : Answers r.lastMsgSent inbound outbound after.lastMsgSent)
    (processed : Processes proto r.session msg inbound)
    (events : after.events = r.events ++ [.processed inbound, .built outbound])
    (state : after.smState = .continue_) : Outcome proto nfcDevice r msg after
  | declines (after : RegSm Keys) (started : r.lastMsgSent = .mstart)
    (sent : after.lastMsgSent = .m2d) (mismatched : Mismatched proto nfcDevice r.session msg)
    (grown : r.events <+: after.events) (state : after.smState = .continue_) :
    Outcome proto nfcDevice r msg after
  | finishes (after : RegSm Keys) (state : after.smState = .success)
    (finished : Finishes proto r msg) : Outcome proto nfcDevice r msg after

section

variable {proto : RegProto Keys} {nfcDevice : Bool} {r : RegSm Keys} {msg : Bytes} {msgType : Nat}

theorem grown_note (r : RegSm Keys) (event : Event) : r.events <+: (r.note event).events :=
  List.prefix_append _ _

/-- The answer to an M1 that was processed. -/
theorem answerM1_outcome {before : RegSm Keys} {matched : Bool} (started : before.lastMsgSent = .mstart)
    (sent : r.lastMsgSent = before.lastMsgSent) (state : r.smState = before.smState)
    (cause : r.events = before.events ++ [.processed .m1] ∧ Processes proto before.session msg .m1 ∨
      r.events = before.events ∧ matched = false ∧ Mismatched proto nfcDevice before.session msg) :
    Outcome proto nfcDevice before msg (answerM1 proto r matched).1 := by
  have grown : before.events <+: r.events := by
    rcases cause with ⟨events, _⟩ | ⟨events, _⟩
    · rw [events]
      exact List.prefix_append _ _
    · exact events ▸ List.prefix_refl _
  unfold answerM1
  dsimp only
  split
  · rename_i pairs
    split
    · exact .stays _ sent grown (Or.inl state)
    · rcases cause with ⟨events, processed⟩ | ⟨_, unmatched, _⟩
      · refine .answers _ .m1 .m2 ?_ processed ?_ rfl
        · rw [started]
          exact .m2
        · change r.events ++ [.built .m2] = _
          rw [events, List.append_assoc]
          rfl
      · rw [unmatched] at pairs
        simp at pairs
  · split
    · exact .stays _ sent grown (Or.inl state)
    · rcases cause with ⟨events, processed⟩ | ⟨_, _, mismatched⟩
      · refine .answers _ .m1 .m2d ?_ processed ?_ rfl
        · rw [started]
          exact .m2d
        · change r.events ++ [.built .m2d] = _
          rw [events, List.append_assoc]
          rfl
      · exact .declines _ started rfl mismatched (grown.trans (grown_note _ _)) rfl

theorem handleMstart_outcome (type : proto.getMsgType msg = (wpsSuccess, msgType))
    (started : r.lastMsgSent = .mstart) :
    Outcome proto nfcDevice r msg (handleMstart proto nfcDevice r msg msgType).1 := by
  unfold handleMstart
  split
  · exact .stays _ rfl (List.prefix_refl _) (Or.inl rfl)
  rename_i expected
  have m1 : proto.getMsgType msg = (wpsSuccess, Message.m1.id) := by
    rw [type, not_not.mp expected]
  dsimp only
  split
  · split
    · rename_i nfc
      split
      · rename_i mismatch
        exact answerM1_outcome started rfl rfl (Or.inr ⟨rfl, rfl, nfc, m1, mismatch⟩)
      · exact .stays _ rfl (List.prefix_refl _) (Or.inl rfl)
    · exact .stays _ rfl (List.prefix_refl _) (Or.inl rfl)
  · rename_i success
    exact answerM1_outcome started rfl rfl (Or.inl ⟨rfl, m1, not_not.mp success⟩)

theorem handleDone_outcome (type : proto.getMsgType msg = (wpsSuccess, Message.done.id))
    (last : r.lastMsgSent = .m8 ∨ r.lastMsgSent = .m2 ∧ r.session.devInfo.bOobM2 = true) :
    Outcome proto nfcDevice r msg (handleDone proto r msg).1 := by
  unfold handleDone
  dsimp only
  split
  · exact .stays _ rfl (List.prefix_refl _) (Or.inl rfl)
  · rename_i success
    have finished : Finishes proto r msg := Or.inl ⟨last, type, not_not.mp success⟩
    split
    · exact .finishes _ rfl finished
    · exact .finishes _ rfl finished

theorem handleOobM2_outcome (type : proto.getMsgType msg = (wpsSuccess, msgType))
    (sent : r.lastMsgSent = .m2) (oob : r.session.devInfo.bOobM2 = true) :
    Outcome proto nfcDevice r msg (handleOobM2 proto nfcDevice r msg msgType).1 := by
  unfold handleOobM2
  split
  · split
    · dsimp only
      split
      · exact .stays _ rfl (List.prefix_refl _) (Or.inr (Or.inr rfl))
      · exact .stays _ rfl (List.prefix_refl _) (Or.inr (Or.inr rfl))
    · exact .stays _ rfl (List.prefix_refl _) (Or.inr (Or.inr rfl))
  · rename_i expected
    exact handleDone_outcome (by rw [type, not_not.mp expected]) (Or.inr ⟨sent, oob⟩)

theorem handleM3_outcome (type : proto.getMsgType msg = (wpsSuccess, msgType))
    (sent : r.lastMsgSent = .m2) : Outcome proto nfcDevice r msg (handleM3 proto r msg msgType).1 := by
  unfold handleM3
  split
  · exact .stays _ rfl (List.prefix_refl _) (Or.inl rfl)
  rename_i expected
  dsimp only
  split
  · exact .stays _ rfl (List.prefix_refl _) (Or.inl rfl)
  rename_i success
  split
  · exact .stays _ rfl (grown_note _ _) (Or.inl rfl)
  · refine .answers _ .m3 .m4 (by rw [sent]; exact .m4)
      ⟨by rw [type, not_not.mp expected], not_not.mp success⟩ ?_ rfl
    exact List.append_assoc _ _ _

theorem handleM2d_outcome : Outcome proto nfcDevice r msg (handleM2d proto r msg msgType).1 := by
  unfold handleM2d
  split
  · dsimp only
    split
    · exact .stays _ rfl (List.prefix_refl _) (Or.inl rfl)
    · exact .stays _ rfl (grown_note _ _) (Or.inr (Or.inl rfl))
  · split
    · exact .stays _ rfl (List.prefix_refl _) (Or.inr (Or.inl rfl))
    · exact .stays _ rfl (List.prefix_refl _) (Or.inr (Or.inl rfl))

theorem pinfailUnexpected_outcome :
    Outcome proto nfcDevice r msg (pinfailUnexpected proto r msg msgType).1 := by
  unfold pinfailUnexpected
  split
  · exact .stays _ rfl (List.prefix_refl _) (Or.inl rfl)
  · exact .stays _ rfl (List.prefix_refl _) (Or.inl rfl)

theorem handleM4_outcome (type : proto.getMsgType msg = (wpsSuccess, msgType))
    (sent : r.lastMsgSent = .m4) : Outcome proto nfcDevice r msg (handleM4 proto r msg msgType).1 := by
  unfold handleM4
  split
  · exact pinfailUnexpected_outcome
  rename_i expected
  dsimp only
  split
  · split
    · exact .stays _ rfl (List.prefix_refl _) (Or.inl rfl)
    · exact .stays _ rfl (List.prefix_refl _) (Or.inl rfl)
  rename_i success
  split
  · exact .stays _ rfl (grown_note _ _) (Or.inl rfl)
  · refine .answers _ .m5 .m6 (by rw [sent]; exact .m6)
      ⟨by rw [type, not_not.mp expected], not_not.mp success⟩ ?_ rfl
    exact List.append_assoc _ _ _

theorem handleM6_outcome (type : proto.getMsgType msg = (wpsSuccess, msgType))
    (sent : r.lastMsgSent = .m6) : Outcome proto nfcDevice r msg (handleM6 proto r msg msgType).1 := by
  unfold handleM6
  split
  · exact pinfailUnexpected_outcome
  rename_i expected
  dsimp only
  split
  · split
    · exact .stays _ rfl (List.prefix_refl _) (Or.inl rfl)
    · exact .stays _ rfl (List.prefix_refl _) (Or.inl rfl)
  rename_i success
  have processed : Processes proto r.session msg .m7 :=
    ⟨by rw [type, not_not.mp expected], not_not.mp success⟩
  split
  · rename_i settings
    split
    · exact .stays _ rfl (grown_note _ _) (Or.inr (Or.inr rfl))
    · exact .finishes _ rfl (Or.inr ⟨sent, processed, settings⟩)
  · split
    · exact .stays _ rfl (grown_note _ _) (Or.inl rfl)
    · refine .answers _ .m7 .m8 (by rw [sent]; exact .m8) processed ?_ rfl
      exact List.append_assoc _ _ _

theorem handleM8_outcome (type : proto.getMsgType msg = (wpsSuccess, msgType))
    (sent : r.lastMsgSent = .m8) : Outcome proto nfcDevice r msg (handleM8 proto r msg msgType).1 := by
  unfold handleM8
  split
  · split
    · exact .stays _ rfl (List.prefix_refl _) (Or.inr (Or.inr rfl))
    · exact .stays _ rfl (List.prefix_refl _) (Or.inr (Or.inr rfl))
  · rename_i expected
    exact handleDone_outcome (by rw [type, not_not.mp expected]) (Or.inl sent)

theorem handleOther_outcome : Outcome proto nfcDevice r msg (handleOther proto r msg msgType).1 := by
  unfold handleOther
  split
  · dsimp only
    split
    · exact .stays _ rfl (List.prefix_refl _) (Or.inl rfl)
    · exact .stays _ rfl (List.prefix_refl _) (Or.inr (Or.inr rfl))
  · exact .stays _ rfl (List.prefix_refl _) (Or.inl rfl)

theorem regSmHandleMessage_outcome (proto : RegProto Keys) (nfcDevice : Bool) (r : RegSm Keys)
    (msg : Bytes) : Outcome proto nfcDevice r msg (regSmHandleMessage proto nfcDevice r msg).1 := by
  unfold regSmHandleMessage
  dsimp only
  split
  · exact .stays _ rfl (List.prefix_refl _) (Or.inl rfl)
  rename_i read
  have type : proto.getMsgType msg = (wpsSuccess, (proto.getMsgType msg).2) :=
    Prod.ext (not_not.mp read) rfl
  split
  · rename_i sent
    exact handleMstart_outcome type sent
  · rename_i sent
    split
    · rename_i oob
      exact handleOobM2_outcome type sent oob
    · exact handleM3_outcome type sent
  · exact handleM2d_outcome
  · rename_i sent
    exact handleM4_outcome type sent
  · rename_i sent
    exact handleM6_outcome type sent
  · rename_i sent
    exact handleM8_outcome type sent
  · exact handleOther_outcome

end

/-- Where the registrar stands between two calls. -/
structure Earned (r : RegSm Keys) : Prop where
  sent : (required r.lastMsgSent).Sublist r.events
  state : r.smState = .start ∨ r.smState = .continue_

theorem regSmRestartsm_mnone (proto : RegProto Keys) (r : RegSm Keys) (allocated : Bool) :
    (regSmRestartsm proto r allocated).lastMsgSent = .mnone := by
  unfold regSmRestartsm
  dsimp only
  split
  · rfl
  · rfl

theorem regSmRestartsm_earned (proto : RegProto Keys) (r : RegSm Keys) (allocated : Bool) :
    Earned (regSmRestartsm proto r allocated) := by
  refine ⟨?_, ?_⟩
  · rw [regSmRestartsm_mnone]
    exact List.nil_sublist _
  · unfold regSmRestartsm
    dsimp only
    split
    · exact Or.inl rfl
    · exact Or.inl rfl

theorem regSmStart_earned (proto : RegProto Keys) (devInfo : DevInfo) :
    Earned (regSmStart proto devInfo) :=
  ⟨List.nil_sublist _, Or.inl rfl⟩

theorem markStarted_earned {r : RegSm Keys} (earned : Earned r) (msg : Bytes) :
    Earned (markStarted r msg) := by
  unfold markStarted
  split
  · exact ⟨List.nil_sublist _, earned.state⟩
  · exact earned

theorem Answers.required_sublist {sent after : EMsg} {inbound outbound : Message}
    (answer : Answers sent inbound outbound after) :
    (required after).Sublist (required sent ++ [.processed inbound, .built outbound]) := by
  cases answer with
  | m2 => exact List.Sublist.refl _
  | m2d => exact List.nil_sublist _
  | m4 => exact List.Sublist.refl _
  | m6 => exact List.Sublist.refl _
  | m8 => exact List.Sublist.refl _

theorem Outcome.sent {proto : RegProto Keys} {nfcDevice : Bool} {r after : RegSm Keys} {msg : Bytes}
    (outcome : Outcome proto nfcDevice r msg after) (earned : Earned r)
    (goesOn : after.smState ≠ .success) : (required after.lastMsgSent).Sublist after.events := by
  cases outcome with
  | stays sent grown state =>
    rw [sent]
    exact earned.sent.trans grown.sublist
  | answers inbound outbound answer processed events state =>
    rw [events]
    exact answer.required_sublist.trans (earned.sent.append (List.Sublist.refl _))
  | declines started sent mismatched grown state =>
    rw [sent]
    exact List.nil_sublist _
  | finishes state finished => exact absurd state goesOn

theorem actOnState_earned {proto : RegProto Keys} {nfcDevice : Bool} {r : RegSm Keys} {msg : Bytes}
    {handled : RegSm Keys × Nat} (outcome : Outcome proto nfcDevice r msg handled.1)
    (earned : Earned r) (restart : Bool) : Earned (actOnState proto handled restart).1 := by
  unfold actOnState
  split
  · rename_i state
    exact ⟨outcome.sent earned (by simp [state]), Or.inl state⟩
  · rename_i state
    exact ⟨outcome.sent earned (by simp [state]), Or.inr state⟩
  · exact regSmRestartsm_earned proto _ restart
  · exact regSmRestartsm_earned proto _ restart
  · exact regSmRestartsm_earned proto _ restart

theorem regSmLocalRegStep_earned (proto : RegProto Keys) (nfcDevice : Bool) {r : RegSm Keys}
    (earned : Earned r) (msg : Bytes) (memory : Memory) :
    Earned (regSmLocalRegStep proto nfcDevice r msg memory).1 := by
  unfold regSmLocalRegStep
  dsimp only
  have marked := markStarted_earned earned msg
  split
  · exact regSmRestartsm_earned proto r memory.restart
  split
  · exact marked
  split
  · exact marked
  split
  · exact marked
  · exact actOnState_earned (regSmHandleMessage_outcome proto nfcDevice _ msg) marked memory.restart

theorem registrar_earned (proto : RegProto Keys) (nfcDevice : Bool) :
    (registrar proto nfcDevice).Preserves Earned := by
  intro r call earned _
  cases call with
  | message msg memory =>
    change Earned (callStep proto nfcDevice r (.message msg memory)).1
    unfold callStep
    dsimp only
    split
    · exact regSmLocalRegStep_earned proto nfcDevice earned msg memory
    · exact earned
  | restart allocated => exact regSmRestartsm_earned proto r allocated
  | configure devInfo transportType => exact ⟨earned.sent, earned.state⟩

/-- What a message may do to `e_lastMsgSent`: nothing, a restart, marking that the
enrollee began, declining with M2D, or the answer to what it was processed as. -/
def Moves (proto : RegProto Keys) (nfcDevice : Bool) (r : RegSm Keys) (msg : Bytes) (after : EMsg) :
    Prop :=
  after = r.lastMsgSent ∨ after = .mnone ∨ r.lastMsgSent = .mnone ∧ after = .mstart ∨
    Mismatched proto nfcDevice r.session msg ∧ after = .m2d ∨
    ∃ inbound outbound, Answers (markStarted r msg).lastMsgSent inbound outbound after ∧
      Processes proto r.session msg inbound

theorem markStarted_session (r : RegSm Keys) (msg : Bytes) :
    (markStarted r msg).session = r.session := by
  unfold markStarted
  split
  · rfl
  · rfl

theorem markStarted_moves (proto : RegProto Keys) (nfcDevice : Bool) (r : RegSm Keys) (msg : Bytes) :
    Moves proto nfcDevice r msg (markStarted r msg).lastMsgSent := by
  unfold markStarted
  split
  · rename_i first
    exact Or.inr (Or.inr (Or.inl ⟨first.1, rfl⟩))
  · exact Or.inl rfl

theorem actOnState_moves {proto : RegProto Keys} {nfcDevice : Bool} {r : RegSm Keys} {msg : Bytes}
    {handled : RegSm Keys × Nat}
    (outcome : Outcome proto nfcDevice (markStarted r msg) msg handled.1) (restart : Bool) :
    Moves proto nfcDevice r msg (actOnState proto handled restart).1.lastMsgSent := by
  have goesOn : handled.1.smState ≠ .success → Moves proto nfcDevice r msg handled.1.lastMsgSent := by
    intro goesOn
    cases outcome with
    | stays sent grown state =>
      rw [sent]
      exact markStarted_moves proto nfcDevice r msg
    | answers inbound outbound answer processed events state =>
      rw [markStarted_session] at processed
      exact Or.inr (Or.inr (Or.inr (Or.inr ⟨inbound, outbound, answer, processed⟩)))
    | declines started sent mismatched grown state =>
      rw [markStarted_session] at mismatched
      exact Or.inr (Or.inr (Or.inr (Or.inl ⟨mismatched, sent⟩)))
    | finishes state finished => exact absurd state goesOn
  unfold actOnState
  split
  · rename_i state
    exact goesOn (by simp [state])
  · rename_i state
    exact goesOn (by simp [state])
  · exact Or.inr (Or.inl (regSmRestartsm_mnone proto _ restart))
  · exact Or.inr (Or.inl (regSmRestartsm_mnone proto _ restart))
  · exact Or.inr (Or.inl (regSmRestartsm_mnone proto _ restart))

theorem regSmLocalRegStep_moves (proto : RegProto Keys) (nfcDevice : Bool) (r : RegSm Keys)
    (msg : Bytes) (memory : Memory) :
    Moves proto nfcDevice r msg (regSmLocalRegStep proto nfcDevice r msg memory).1.lastMsgSent := by
  unfold regSmLocalRegStep
  dsimp only
  have marked := markStarted_moves proto nfcDevice r msg
  split
  · exact Or.inr (Or.inl (regSmRestartsm_mnone proto r memory.restart))
  split
  · exact marked
  split
  · exact marked
  split
  · exact marked
  · exact actOnState_moves (regSmHandleMessage_outcome proto nfcDevice _ msg) memory.restart

/-- In state `r` the registrar has skipped no step, and the next message cannot
make it skip one. -/
structure SkipsNoStep (proto : RegProto Keys) (nfcDevice : Bool) (r : RegSm Keys) : Prop where
  sent : (required r.lastMsgSent).Sublist r.events
  success : ∀ msg, (regSmHandleMessage proto nfcDevice (markStarted r msg) msg).1.smState = .success →
    Finishes proto (markStarted r msg) msg
  moves : ∀ msg memory,
    Moves proto nfcDevice r msg (regSmLocalRegStep proto nfcDevice r msg memory).1.lastMsgSent

theorem Outcome.finished {proto : RegProto Keys} {nfcDevice : Bool} {r after : RegSm Keys}
    {msg : Bytes} (outcome : Outcome proto nfcDevice r msg after)
    (state : r.smState = .start ∨ r.smState = .continue_) (success : after.smState = .success) :
    Finishes proto r msg := by
  cases outcome with
  | stays sent grown same =>
    rw [success] at same
    rcases same with same | same | same
    · rcases state with state | state
      · rw [state] at same
        cases same
      · rw [state] at same
        cases same
    · cases same
    · cases same
  | answers inbound outbound answer processed events goesOn =>
    rw [success] at goesOn
    cases goesOn
  | declines started sent mismatched grown goesOn =>
    rw [success] at goesOn
    cases goesOn
  | finishes state finished => exact finished

/-- In every run, each answer has been earned by the messages before it since the
last restart, in order; success comes only from an exchange that may end; and
only marking the start and declining move the state without a processed message. -/
theorem registrar_skipsNoStep (proto : RegProto Keys) (nfcDevice : Bool) (devInfo : DevInfo)
    (calls : List Call) :
    SkipsNoStep proto nfcDevice ((registrar proto nfcDevice).run (regSmStart proto devInfo) calls) := by
  have earned : Earned ((registrar proto nfcDevice).run (regSmStart proto devInfo) calls) :=
    (registrar proto nfcDevice).run_invariant (registrar_earned proto nfcDevice)
      (regSmStart_earned proto devInfo) ((registrar proto nfcDevice).admitted_of_forall
        (fun _ _ => trivial))
  refine ⟨earned.sent, ?_, ?_⟩
  · intro msg success
    exact (regSmHandleMessage_outcome proto nfcDevice _ msg).finished
      (markStarted_earned earned msg).state success
  · intro msg memory
    exact regSmLocalRegStep_moves proto nfcDevice _ msg memory

/-- A peer whose M1 never matches the device password. -/
def mismatching : RegProto Unit where
  checkNonce _ _ := wpsSuccess
  getMsgType _ := (wpsSuccess, Message.m1.id)
  process _ session _ := (rprotErrDevPwIdMismatch, session)
  m7EncrSettings _ _ := none
  nackConfigError _ _ := none
  create _ session := (wpsSuccess, session)
  createNack session _ := (wpsSuccess, session)
  freshKeys := ()

def pinDevice : DevInfo :=
  { uuid := [1], devPwdId := 0, configError := 0, bAp := false, version2 := wpsVersion2
    bOobM2 := false, configap := false, pin := [49], pbcUuids := [] }

/-- An M1 that is not processed with success still marks the start and, in a build
for NFC, is still answered with M2D. -/
theorem unprocessed_m1_advances :
    let m1 := Call.message [4] ⟨true, true, true⟩
    let plain := (registrar mismatching false).run (regSmStart mismatching pinDevice) [m1]
    let nfc := (registrar mismatching true).run (regSmStart mismatching pinDevice) [m1]
    (mismatching.process .m1 (regSmStart mismatching pinDevice).session [4]).1 ≠ wpsSuccess ∧
      (regSmStart mismatching pinDevice).lastMsgSent = .mnone ∧
      plain.lastMsgSent = .mstart ∧ plain.events = [] ∧
      nfc.lastMsgSent = .m2d ∧ nfc.events = [.built .m2d] := by
  decide +kernel

end BcmDhd.Wps
