import BcmDhd.Wps.FragmentedExchange

namespace BcmDhd.Wps

open BcmDhd.Lib

variable {Mc Sm : Type}

inductive ApCall
  | staMsg (msg : Lib.Memory) (eapol : Option Lib.Memory)
  | sendMsg (data : Source) (dataLen : Nat)
  | sendWpsStart
  | startWpsReg (staMac apMac : EtherAddr)
  | failure

/-- Any sequence of calls may come. What the caller does on a code, sending the answer
or ending the exchange, is a call of its own. -/
def apMachine (api : WpsApi Mc) : Machine (EapWpsApState Mc) ApCall Int where
  step s
    | .staMsg msg eapol =>
      let processed := apEapSmProcessStaMsg api s msg eapol
      (processed.1, processed.2)
    | .sendMsg data dataLen =>
      let sent := apEapSmSendMsg s data dataLen
      (sent.1, sent.2)
    | .sendWpsStart =>
      let sent := apEapSmSendWpsStart s
      (sent.1, sent.2)
    | .startWpsReg staMac apMac => apEapSmStartWpsReg api s staMac apMac
    | .failure => (apEapSmFailure s, wpsSuccess)
  admits _ _ := True

/-- While fragments go out, an acknowledgement and an early message are not looked into. -/
def apLooksInto (s : EapWpsApState Mc) (eapMsg : Lib.Memory) : Bool :=
  apIsEapTypeWps eapMsg ∧ s.reassembly.reassembling eapMsg ∧
    ¬ (s.out.fragmenting ∧ (eapOpcode eapMsg 0 = opWpsFragAck ∨
      eapOpcode eapMsg 0 = opWpsMsg ∧ (s.out.eapFragThreshold : Int) ≤ s.out.fragSize))

/-- The state in which a frame is looked at, if it passes the checks in front. -/
def apAdmitted (s : EapWpsApState Mc) (eapol : Lib.Memory) : Option (EapWpsApState Mc) :=
  let valid := apEapSmStaValidate s eapol
  let checked := apEapSmStaRetrans { valid.1 with resentCount := 0 } eapol
  if valid.2 = wpsSuccess ∧ checked.2 = wpsCont then some checked.1 else none

/-- The packet of a frame, if it is given to reassembly. -/
def apGathers (s : EapWpsApState Mc) (eapol : Option Lib.Memory) : Option Lib.Memory :=
  match eapol with
  | none => none
  | some eapol =>
    let eapMsg : Lib.Memory := fun place => eapol (eapolHeaderLen + place)
    match apAdmitted s eapol with
    | none => none
    | some s => if apLooksInto s eapMsg then some eapMsg else none

/-- What the checks in front of a frame leave alone. -/
structure Untouched (s s' : EapWpsApState Mc) : Prop where
  reassembly : s'.reassembly = s.reassembly
  out : s'.out = s.out
  sentData : s'.sentData = s.sentData

theorem cleanUpSta_kept (s : EapWpsApState Mc) : Untouched s (cleanUpSta s) := by
  unfold cleanUpSta
  split
  · exact ⟨rfl, rfl, rfl⟩
  · exact ⟨rfl, rfl, rfl⟩

theorem lookupSta_kept (s : EapWpsApState Mc) (staMac : EtherAddr) (mode : StaLookupMode) :
    Untouched s (lookupSta s staMac mode).1 := by
  unfold lookupSta
  split
  · exact ⟨rfl, rfl, rfl⟩
  · split
    · exact ⟨rfl, rfl, rfl⟩
    · exact ⟨rfl, rfl, rfl⟩

theorem staValidate_kept (s : EapWpsApState Mc) (eapol : Lib.Memory) :
    Untouched s (apEapSmStaValidate s eapol).1 := by
  have found := lookupSta_kept s (etherAddrAt eapol 6) .searchEnter
  unfold apEapSmStaValidate
  dsimp only
  split
  · exact ⟨rfl, rfl, rfl⟩
  · split
    · exact ⟨rfl, rfl, rfl⟩
    · split
      · exact ⟨rfl, rfl, rfl⟩
      · split
        · exact found
        · exact found

theorem staRetrans_kept (s : EapWpsApState Mc) (eapol : Lib.Memory) :
    Untouched s (apEapSmStaRetrans s eapol).1 := by
  have cleaned := cleanUpSta_kept s
  unfold apEapSmStaRetrans
  dsimp only
  split
  · exact ⟨rfl, rfl, rfl⟩
  · split
    · split
      · exact ⟨rfl, rfl, rfl⟩
      · split
        · exact cleaned
        · exact ⟨rfl, rfl, rfl⟩
    · split
      · exact cleaned
      · split
        · exact ⟨rfl, rfl, rfl⟩
        · split
          · exact ⟨rfl, rfl, rfl⟩
          · exact cleaned
    · split
      · exact cleaned
      · split
        · exact ⟨rfl, rfl, rfl⟩
        · split
          · exact ⟨rfl, rfl, rfl⟩
          · exact cleaned
    · exact ⟨rfl, rfl, rfl⟩

theorem apEapSmHandle_reassembly (api : WpsApi Mc) (s : EapWpsApState Mc) (eapMsg : Lib.Memory) :
    (apEapSmHandle api s eapMsg).1.reassembly = s.reassembly := by
  unfold apEapSmHandle
  cases s.state with
  | init => rfl
  | eapStartSend | processingProtocol =>
    unfold apEapSmProcessProtocol
    dsimp only
    split
    · rfl
    · rfl
  | _ => rfl

theorem apEapSmReassemble_reassembly (api : WpsApi Mc) (s : EapWpsApState Mc) (eapMsg : Lib.Memory) :
    (apEapSmReassemble api s eapMsg).1.reassembly =
      if apIsEapTypeWps eapMsg ∧ s.reassembly.reassembling eapMsg then
        (s.reassembly.receive apExceeds eapMsg).1 else s.reassembly := by
  unfold apEapSmReassemble
  split
  · dsimp only
    split
    · exact (apEapSmGather_receive s eapMsg).reassembly
    · rw [apEapSmHandle_reassembly]
      exact (apEapSmGather_receive s eapMsg).reassembly
  · exact apEapSmHandle_reassembly api s eapMsg

/-- Where a packet goes in both state machines, and what becomes of the reassembly there. -/
theorem routed_reassembly {State : Type} (f : State → Reassembly) {wps reassembling fragmenting ack message : Prop}
    [Decidable wps] [Decidable reassembling] [Decidable fragmenting] [Decidable ack] [Decidable message]
    {size threshold : Int} {acked begun untouched plain : State} {kept received : Reassembly}
    (ackedKept : f acked = kept) (untouchedKept : f untouched = kept)
    (begunTo : f begun = if wps ∧ reassembling then received else kept)
    (plainTo : f plain = if wps ∧ reassembling then received else kept) :
    f (if wps ∧ fragmenting then
        if ack then acked else if message then if size < threshold then begun else untouched else plain
      else plain) =
      if decide (wps ∧ reassembling ∧ ¬ (fragmenting ∧ (ack ∨ message ∧ threshold ≤ size))) then received
        else kept := by
  by_cases sending : wps ∧ fragmenting
  · rw [if_pos sending]
    by_cases isAck : ack
    · simp [isAck, sending, ackedKept]
    · by_cases isMessage : message
      · by_cases done : size < threshold
        · simp [isAck, isMessage, done, begunTo, Int.not_le.mpr done]
        · simp [isAck, isMessage, done, untouchedKept, sending, Int.not_lt.mp done]
      · simp [isAck, isMessage, plainTo]
  · rw [if_neg sending, plainTo]
    by_cases type : wps
    · have apart : ¬ fragmenting := fun out => sending ⟨type, out⟩
      simp [apart]
    · simp [type]

theorem apEapSmFragments_reassembly (api : WpsApi Mc) (s : EapWpsApState Mc) (eapMsg : Lib.Memory) :
    (apEapSmFragments api s eapMsg).1.reassembly =
      if apLooksInto s eapMsg then (s.reassembly.receive apExceeds eapMsg).1 else s.reassembly :=
  routed_reassembly (fun result : EapWpsApState Mc × Nat => result.1.reassembly) rfl rfl
    (apEapSmReassemble_reassembly api _ eapMsg)
    (apEapSmReassemble_reassembly api s eapMsg)

theorem apEapSmIdentityAgain_reassembly {api : WpsApi Mc} {s : EapWpsApState Mc} {msg : Lib.Memory}
    {result : EapWpsApState Mc × Nat} (again : apEapSmIdentityAgain api s msg = some result) :
    result.1.reassembly = s.reassembly := by
  unfold apEapSmIdentityAgain at again
  split at again
  · cases again
    rfl
  · cases again
    rfl
  · split at again
    · cases again
      rfl
    · cases again
  · cases again
    rfl
  · split at again
    · cases again
      rfl
    · cases again
  · cases again

theorem identity_not_wps {eapMsg : Lib.Memory} (identity : eapType eapMsg 0 = eapTypeIdentity) :
    ¬ apIsEapTypeWps eapMsg = true := by
  intro wps
  have type := (of_decide_eq_true wps).2
  rw [identity] at type
  exact absurd type (by decide)

theorem apEapSmTakeMsg_cases (api : WpsApi Mc) (s : EapWpsApState Mc) (eapol : Lib.Memory) :
    if (apEapSmStaRetrans s eapol).2 = wpsCont then
      apEapSmTakeMsg api s eapol =
        apEapSmFragments api (apEapSmStaRetrans s eapol).1 fun place => eapol (eapolHeaderLen + place)
    else Untouched s (apEapSmTakeMsg api s eapol).1 := by
  have kept := staRetrans_kept s eapol
  unfold apEapSmTakeMsg
  dsimp only
  by_cases ignored : (apEapSmStaRetrans s eapol).2 = wpsIgnoreMsgCont
  · have stopped : (apEapSmStaRetrans s eapol).2 ≠ wpsCont := by
      rw [ignored]
      decide
    rw [if_neg stopped, if_pos ignored]
    exact kept
  · by_cases going : (apEapSmStaRetrans s eapol).2 = wpsCont
    · rw [if_pos going, if_neg ignored, if_neg (not_not.mpr going)]
    · rw [if_neg going, if_neg ignored, if_pos going]
      exact kept

/-- So is a WPS packet. -/
theorem apEapSmProcessStaMsg_wps (api : WpsApi Mc) (s : EapWpsApState Mc) (msg eapol : Lib.Memory)
    (wps : apIsEapTypeWps (fun place => eapol (eapolHeaderLen + place)) = true) :
    match apAdmitted s eapol with
    | none => Untouched s (apEapSmProcessStaMsg api s msg (some eapol)).1
    | some s' => Untouched s s' ∧ apEapSmProcessStaMsg api s msg (some eapol) =
        apEapSmFragments api s' fun place => eapol (eapolHeaderLen + place) := by
  have validated := staValidate_kept s eapol
  have method : ¬ eapType (fun place => eapol (eapolHeaderLen + place)) 0 = eapTypeIdentity :=
    fun identity => identity_not_wps identity wps
  obtain ⟨v, valid⟩ : ∃ v : EapWpsApState Mc,
      v = { (apEapSmStaValidate s eapol).1 with resentCount := 0 } := ⟨_, rfl⟩
  have same : Untouched s v := by
    rw [valid]
    exact ⟨validated.reassembly, validated.out, validated.sentData⟩
  have checked := staRetrans_kept v eapol
  have taken := apEapSmTakeMsg_cases api v eapol
  unfold apEapSmProcessStaMsg apAdmitted
  dsimp only at valid ⊢
  rw [if_neg method, ← valid]
  dsimp only
  by_cases invalid : (apEapSmStaValidate s eapol).2 ≠ wpsSuccess
  · rw [if_pos invalid, if_neg (fun admitted => invalid admitted.1)]
    exact validated
  · rw [if_neg invalid]
    by_cases going : (apEapSmStaRetrans v eapol).2 = wpsCont
    · rw [if_pos going] at taken
      rw [if_pos ⟨not_not.mp invalid, going⟩]
      refine ⟨⟨?_, ?_, ?_⟩, taken⟩
      · exact checked.reassembly.trans same.reassembly
      · exact checked.out.trans same.out
      · exact checked.sentData.trans same.sentData
    · rw [if_neg going] at taken
      rw [if_neg (fun admitted => going admitted.2)]
      exact ⟨taken.reassembly.trans same.reassembly, taken.out.trans same.out,
        taken.sentData.trans same.sentData⟩

theorem looksInto_wps {s : EapWpsApState Mc} {eapMsg : Lib.Memory}
    (looked : apLooksInto s eapMsg = true) : apIsEapTypeWps eapMsg = true :=
  (of_decide_eq_true looked).1

/-- Only a WPS packet has to do with reassembly. -/
theorem apEapSmProcessStaMsg_other (api : WpsApi Mc) (s : EapWpsApState Mc) (msg eapol : Lib.Memory)
    (other : ¬ apIsEapTypeWps (fun place => eapol (eapolHeaderLen + place)) = true) :
    (apEapSmProcessStaMsg api s msg (some eapol)).1.reassembly = s.reassembly := by
  have validated := (staValidate_kept s eapol).reassembly
  have unseen : ∀ s' : EapWpsApState Mc,
      apLooksInto s' (fun place => eapol (eapolHeaderLen + place)) ≠ true :=
    fun s' looked => other (looksInto_wps looked)
  have taken : ∀ v : EapWpsApState Mc, (apEapSmTakeMsg api v eapol).1.reassembly = v.reassembly := by
    intro v
    have cases_ := apEapSmTakeMsg_cases api v eapol
    split at cases_
    · rw [cases_, apEapSmFragments_reassembly, if_neg (unseen _)]
      exact (staRetrans_kept v eapol).reassembly
    · exact cases_.reassembly
  unfold apEapSmProcessStaMsg
  dsimp only
  split
  · exact validated
  · split
    · rename_i result again
      split at again
      · rw [apEapSmIdentityAgain_reassembly again]
        exact validated
      · cases again
    · rw [taken]
      exact validated

/-- What a frame does to reassembly. -/
theorem apEapSmProcessStaMsg_reassembly (api : WpsApi Mc) (s : EapWpsApState Mc) (msg : Lib.Memory)
    (eapol : Option Lib.Memory) :
    (apEapSmProcessStaMsg api s msg eapol).1.reassembly =
      match apGathers s eapol with
      | none => s.reassembly
      | some eapMsg => (s.reassembly.receive apExceeds eapMsg).1 := by
  cases eapol with
  | none => rfl
  | some eapol =>
    unfold apGathers
    dsimp only
    by_cases wps : apIsEapTypeWps (fun place => eapol (eapolHeaderLen + place)) = true
    · have processed := apEapSmProcessStaMsg_wps api s msg eapol wps
      cases admitted : apAdmitted s eapol with
      | none =>
        rw [admitted] at processed
        exact processed.reassembly
      | some s' =>
        rw [admitted] at processed
        obtain ⟨same, taken⟩ := processed
        rw [taken, apEapSmFragments_reassembly, same.reassembly]
        dsimp only
        split
        · rfl
        · rfl
    · rw [apEapSmProcessStaMsg_other api s msg eapol wps]
      have unseen : ∀ s' : EapWpsApState Mc,
          apLooksInto s' (fun place => eapol (eapolHeaderLen + place)) ≠ true :=
        fun s' looked => wps (looksInto_wps looked)
      cases apAdmitted s eapol with
      | none => rfl
      | some s' =>
        dsimp only
        rw [if_neg (unseen s')]

theorem apEapSmFailure_reassembly (s : EapWpsApState Mc) : (apEapSmFailure s).reassembly = s.reassembly :=
  (cleanUpSta_kept _).reassembly

theorem apEapSmSendMsg_reassembly (s : EapWpsApState Mc) (data : Source) (dataLen : Nat) :
    (apEapSmSendMsg s data dataLen).1.reassembly = s.reassembly := by
  have created : (apEapSmCreatePkt s data dataLen eapCodeRequest).1.reassembly = s.reassembly := by
    unfold apEapSmCreatePkt
    dsimp only
    split
    · rfl
    · rfl
  unfold apEapSmSendMsg
  dsimp only
  split
  · exact created
  · rw [apEapSmFailure_reassembly]
    exact created

/-- No other call has to do with reassembly. -/
theorem apMachine_reassembly (api : WpsApi Mc) (s : EapWpsApState Mc) {call : ApCall}
    (other : ∀ msg eapol, call ≠ .staMsg msg eapol) :
    ((apMachine api).next s call).reassembly = s.reassembly := by
  cases call with
  | staMsg msg eapol => exact absurd rfl (other msg eapol)
  | sendMsg data dataLen => exact apEapSmSendMsg_reassembly s data dataLen
  | sendWpsStart =>
    change (apEapSmSendWpsStart s).1.reassembly = _
    unfold apEapSmSendWpsStart
    split
    · rfl
    · rfl
  | startWpsReg staMac apMac =>
    change (apEapSmStartWpsReg api s staMac apMac).1.reassembly = _
    have found := (lookupSta_kept s staMac .searchEnter).reassembly
    unfold apEapSmStartWpsReg
    dsimp only
    split
    · exact found
    · exact found
  | failure => exact apEapSmFailure_reassembly s

inductive StaCall
  | apMsg (eapolMsg : Lib.Memory) (eapolLen : Nat)
  | getMsgToSend
  | getEapolMsgToSend

/-- Any sequence of calls may come; the caller fetches what there is to send. -/
def staMachine (steps : WpsSteps Sm) : Machine (EapWpsStaState Sm) StaCall Nat where
  step s
    | .apMsg eapolMsg eapolLen => wpsProcessApMsg steps s eapolMsg eapolLen
    | .getMsgToSend => wpsGetMsgToSend s
    | .getEapolMsgToSend => ((wpsGetEapolMsgToSend s).1, wpsSuccess)
  admits _ _ := True

def staLooksInto (s : EapWpsStaState Sm) (eapMsg : Lib.Memory) : Bool :=
  staIsEapTypeWps eapMsg ∧ s.reassembly.reassembling eapMsg ∧
    ¬ (s.out.fragmenting ∧ (eapOpcode eapMsg 0 = opWpsFragAck ∨
      eapOpcode eapMsg 0 = opWpsMsg ∧ (s.out.eapFragThreshold : Int) ≤ s.out.fragSize))

/-- The state in which a frame is looked at, if it passes the checks in front. -/
def staAdmitted (s : EapWpsStaState Sm) (eapolMsg : Lib.Memory) (eapolLen : Nat) :
    Option (EapWpsStaState Sm) :=
  let eapMsg : Lib.Memory := fun place => eapolMsg (eapMsgOffset + place)
  let checked := wpsEapApRetrans s eapMsg eapolLen
  if eapCode eapMsg 0 = eapCodeRequest ∧ eapLength eapMsg 0 + eapMsgOffset ≤ eapolLen ∧
      ¬ (checked.2 = wpsSendRetMsgCont ∨ checked.2 = regFailure)
  then some (wpsRecvMsgIdUpd checked.1 eapMsg) else none

/-- The packet of a frame, if it is given to reassembly. -/
def staGathers (s : EapWpsStaState Sm) (eapolMsg : Lib.Memory) (eapolLen : Nat) : Option Lib.Memory :=
  let eapMsg : Lib.Memory := fun place => eapolMsg (eapMsgOffset + place)
  match staAdmitted s eapolMsg eapolLen with
  | none => none
  | some s => if staLooksInto s eapMsg then some eapMsg else none

theorem wpsEapApRetrans_kept (s : EapWpsStaState Sm) (eapMsg : Lib.Memory) (eapolLen : Nat) :
    (wpsEapApRetrans s eapMsg eapolLen).1.reassembly = s.reassembly ∧
      (wpsEapApRetrans s eapMsg eapolLen).1.out = s.out := by
  unfold wpsEapApRetrans
  dsimp only
  split
  · split
    · exact ⟨rfl, rfl⟩
    · split
      · exact ⟨rfl, rfl⟩
      · exact ⟨rfl, rfl⟩
  · split
    · split
      · exact ⟨rfl, rfl⟩
      · exact ⟨rfl, rfl⟩
      · split
        · exact ⟨rfl, rfl⟩
        · exact ⟨rfl, rfl⟩
      · exact ⟨rfl, rfl⟩
    · split
      · exact ⟨rfl, rfl⟩
      · exact ⟨rfl, rfl⟩

theorem wpsRecvMsgIdUpd_kept (s : EapWpsStaState Sm) (eapMsg : Lib.Memory) :
    (wpsRecvMsgIdUpd s eapMsg).reassembly = s.reassembly ∧ (wpsRecvMsgIdUpd s eapMsg).out = s.out := by
  unfold wpsRecvMsgIdUpd
  split
  · exact ⟨rfl, rfl⟩
  · split
    · exact ⟨rfl, rfl⟩
    · split
      · exact ⟨rfl, rfl⟩
      · exact ⟨rfl, rfl⟩

section

variable (steps : WpsSteps Sm) (s : EapWpsStaState Sm)
include steps s

theorem wpsEapEnrProcessProtocol_reassembly (eapMsg : Lib.Memory) (eapLen : Nat) :
    (wpsEapEnrProcessProtocol steps s eapMsg eapLen).1.reassembly = s.reassembly := by
  unfold wpsEapEnrProcessProtocol
  dsimp only
  split
  · split
    · rfl
    · rfl
  · split
    · rfl
    · rfl

theorem wpsApMsgHandle_reassembly (eapMsg : Lib.Memory)
    (eapLen : Nat) : (wpsApMsgHandle steps s eapMsg eapLen).1.reassembly = s.reassembly := by
  have processed := wpsEapEnrProcessProtocol_reassembly steps s eapMsg eapLen
  unfold wpsApMsgHandle
  cases s.state with
  | eapolStartSent =>
    dsimp only
    split
    · rfl
    · rfl
  | eapIdentitySent | processingProtocol =>
    dsimp only
    split
    · exact processed
    · exact processed
  | _ => rfl

theorem wpsApMsgReassemble_reassembly (eapMsg : Lib.Memory) :
    (wpsApMsgReassemble steps s eapMsg).1.reassembly =
      if staIsEapTypeWps eapMsg ∧ s.reassembly.reassembling eapMsg then
        (s.reassembly.receive staExceeds eapMsg).1 else s.reassembly := by
  unfold wpsApMsgReassemble
  split
  · dsimp only
    split
    · exact (wpsApMsgGather_receive s eapMsg).1
    · rw [wpsApMsgHandle_reassembly]
      exact (wpsApMsgGather_receive s eapMsg).1
  · exact wpsApMsgHandle_reassembly steps s eapMsg _

theorem wpsApMsgFragments_reassembly (eapMsg : Lib.Memory) :
    (wpsApMsgFragments steps s eapMsg).1.reassembly =
      if staLooksInto s eapMsg then (s.reassembly.receive staExceeds eapMsg).1 else s.reassembly :=
  routed_reassembly (fun result : EapWpsStaState Sm × Nat => result.1.reassembly) rfl rfl
    (wpsApMsgReassemble_reassembly steps _ eapMsg)
    (wpsApMsgReassemble_reassembly steps s eapMsg)

/-- A frame that is admitted is looked at; any other leaves what there is to send and
to receive alone. -/
theorem wpsProcessApMsg_cases (eapolMsg : Lib.Memory)
    (eapolLen : Nat) :
    match staAdmitted s eapolMsg eapolLen with
    | none =>
      (wpsProcessApMsg steps s eapolMsg eapolLen).1.reassembly = s.reassembly ∧
        (wpsProcessApMsg steps s eapolMsg eapolLen).1.out = s.out ∧
          sendsFragment (wpsProcessApMsg steps s eapolMsg eapolLen).2 = false
    | some s' => (s'.reassembly = s.reassembly ∧ s'.out = s.out) ∧
        wpsProcessApMsg steps s eapolMsg eapolLen =
          wpsApMsgFragments steps s' fun place => eapolMsg (eapMsgOffset + place) := by
  obtain ⟨eapMsg, packet⟩ : ∃ eapMsg : Lib.Memory, eapMsg = fun place => eapolMsg (eapMsgOffset + place) :=
    ⟨_, rfl⟩
  have kept := wpsEapApRetrans_kept s eapMsg eapolLen
  unfold wpsProcessApMsg staAdmitted
  dsimp only
  rw [← packet]
  by_cases request : eapCode eapMsg 0 = eapCodeRequest
  · rw [if_neg (not_not.mpr request)]
    by_cases short : eapolLen < eapLength eapMsg 0 + eapMsgOffset
    · rw [if_pos short, if_neg (fun given => Nat.not_le.mpr short given.2.1)]
      exact ⟨rfl, rfl, rfl⟩
    · rw [if_neg short]
      by_cases answered : (wpsEapApRetrans s eapMsg eapolLen).2 = wpsSendRetMsgCont ∨
          (wpsEapApRetrans s eapMsg eapolLen).2 = regFailure
      · rw [if_pos answered, if_neg (fun given => given.2.2 answered)]
        refine ⟨kept.1, kept.2, ?_⟩
        rcases answered with again | failed
        · rw [again]
          decide
        · rw [failed]
          decide
      · have updated := wpsRecvMsgIdUpd_kept (wpsEapApRetrans s eapMsg eapolLen).1 eapMsg
        rw [if_neg answered, if_pos ⟨request, Nat.not_lt.mp short, answered⟩]
        exact ⟨⟨updated.1.trans kept.1, updated.2.trans kept.2⟩, rfl⟩
  · rw [if_pos request]
    simp only [request, false_and, if_false]
    split
    · refine ⟨rfl, rfl, ?_⟩
      split
      · rfl
      · rfl
    · exact ⟨rfl, rfl, rfl⟩

theorem wpsProcessApMsg_reassembly (eapolMsg : Lib.Memory) (eapolLen : Nat) :
    (wpsProcessApMsg steps s eapolMsg eapolLen).1.reassembly =
      match staGathers s eapolMsg eapolLen with
      | none => s.reassembly
      | some eapMsg => (s.reassembly.receive staExceeds eapMsg).1 := by
  have processed := wpsProcessApMsg_cases steps s eapolMsg eapolLen
  unfold staGathers
  dsimp only
  cases admitted : staAdmitted s eapolMsg eapolLen with
  | none =>
    rw [admitted] at processed
    exact processed.1
  | some s' =>
    rw [admitted] at processed
    obtain ⟨same, taken⟩ := processed
    rw [taken, wpsApMsgFragments_reassembly, same.1]
    dsimp only
    split
    · rfl
    · rfl

end

theorem wpsGetEapolMsgToSend_reassembly (s : EapWpsStaState Sm) :
    (wpsGetEapolMsgToSend s).1.reassembly = s.reassembly := by
  have created : ∀ s : EapWpsStaState Sm, ∀ dataBuffer dataLen code,
      (wpsEapCreatePkt s dataBuffer dataLen code).1.reassembly = s.reassembly := by
    intro s dataBuffer dataLen code
    unfold wpsEapCreatePkt
    dsimp only
    split
    · rfl
    · rfl
  have fetched : (wpsGetMsgToSend s).1.reassembly = s.reassembly := rfl
  have packed : ∀ (s : EapWpsStaState Sm) eapData eapLen,
      (wpsEapolCreatePkt s eapData eapLen).reassembly = s.reassembly := fun _ _ _ => rfl
  unfold wpsGetEapolMsgToSend
  dsimp only
  split
  · rw [created, fetched]
  · rw [packed, created, fetched]

theorem staMachine_reassembly (steps : WpsSteps Sm) (s : EapWpsStaState Sm) {call : StaCall}
    (other : ∀ eapolMsg eapolLen, call ≠ .apMsg eapolMsg eapolLen) :
    ((staMachine steps).next s call).reassembly = s.reassembly := by
  cases call with
  | apMsg eapolMsg eapolLen => exact absurd rfl (other eapolMsg eapolLen)
  | getMsgToSend => rfl
  | getEapolMsgToSend => exact wpsGetEapolMsgToSend_reassembly s

end BcmDhd.Wps
