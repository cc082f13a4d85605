import BcmDhd.Wps.FragmentRoundTrip
import BcmDhd.Wps.StaEapSm

namespace BcmDhd.Wps

open BcmDhd.Lib

variable {Mc Sm : Type}

def apResult : FragResult → Nat
  | .refused => eapFailure
  | .more => wpsCont
  | .whole => wpsSuccess

theorem apEapSmSendFack_reassembly (s : EapWpsApState Mc) :
    (apEapSmSendFack s).1.reassembly = s.reassembly := by
  unfold apEapSmSendFack
  split
  · rfl
  · rfl

theorem apEapSmSendFack_active {s : EapWpsApState Mc} (active : s.staActive = true) :
    (apEapSmSendFack s).2 = wpsSuccess := by
  unfold apEapSmSendFack
  rw [if_pos active]

/-- The station stays the one that it is. -/
def SameStation (s s' : EapWpsApState Mc) : Prop := s'.staMac = s.staMac ∧ s'.bssid = s.bssid

theorem apEapSmSendFack_station (s : EapWpsApState Mc) : SameStation s (apEapSmSendFack s).1 := by
  unfold apEapSmSendFack
  split
  · exact ⟨rfl, rfl⟩
  · exact ⟨rfl, rfl⟩

theorem SameStation.link {s s' : EapWpsApState Mc} (same : SameStation s s') : s'.link = s.link := by
  unfold EapWpsApState.link
  simp only [same.1, same.2]

theorem SameStation.active {s s' : EapWpsApState Mc} (same : SameStation s s') :
    s'.staActive = s.staActive := by
  rw [EapWpsApState.staActive, same.1]
  rfl

/-- The total is announced by the first fragment. -/
def Reassembly.announce (r : Reassembly) (eapMsg : Lib.Memory) : Reassembly :=
  if r.totalBytesToRecv = 0 then { r with totalBytesToRecv := wpsNtohs eapMsg sizeofWpsEapHdr } else r

theorem receive_eq (exceeds : Int → Int → Int → Bool) (r : Reassembly) (eapMsg : Lib.Memory) :
    r.receive exceeds eapMsg =
      if r.totalBytesToRecv = 0 ∧ eapFlags eapMsg 0 &&& eapWpsFlagsLf = 0 then (r, .refused)
      else match (r.announce eapMsg).processFrag exceeds eapMsg with
        | none => (r.announce eapMsg, .refused)
        | some taken =>
          if eapFlags eapMsg 0 &&& eapWpsFlagsMf ≠ 0 then (taken, .more)
          else ({ taken with totalReceived := 0, totalBytesToRecv := 0 }, .whole) := rfl

/-- What the access point makes of a packet, given what reassembly makes of it. -/
structure ApGathers (s : EapWpsApState Mc) (gathered : EapWpsApState Mc × Nat)
    (received : Reassembly × FragResult) : Prop where
  reassembly : gathered.1.reassembly = received.1
  station : SameStation s gathered.1
  result : s.staActive = true → gathered.2 = apResult received.2
  acked : received.2 = .more → gathered.1.eapId = s.eapId + 1

theorem apEapSmSendFack_eapId (s : EapWpsApState Mc) : (apEapSmSendFack s).1.eapId = s.eapId := by
  unfold apEapSmSendFack
  split
  · rfl
  · rfl

theorem apEapSmGather_eq (s : EapWpsApState Mc) (eapMsg : Lib.Memory) :
    apEapSmGather s eapMsg =
      if s.reassembly.totalBytesToRecv = 0 ∧ eapFlags eapMsg 0 &&& eapWpsFlagsLf = 0 then (s, eapFailure)
      else
        let processed := apEapSmProcessFrag { s with reassembly := s.reassembly.announce eapMsg } eapMsg
        if processed.2 ≠ wpsSuccess then processed
        else
          let s := processed.1
          ({ s with reassembly := { s.reassembly with totalReceived := 0, totalBytesToRecv := 0 } },
            wpsSuccess) := by
  have begun : (if s.reassembly.totalBytesToRecv = 0 then { s with reassembly := { s.reassembly with
      totalBytesToRecv := wpsNtohs eapMsg sizeofWpsEapHdr } } else s) =
        { s with reassembly := s.reassembly.announce eapMsg } := by
    unfold Reassembly.announce
    split
    · rfl
    · rfl
  unfold apEapSmGather
  rw [begun]

theorem apEapSmGather_receive (s : EapWpsApState Mc) (eapMsg : Lib.Memory) :
    ApGathers s (apEapSmGather s eapMsg) (s.reassembly.receive apExceeds eapMsg) := by
  rw [receive_eq, apEapSmGather_eq]
  by_cases unannounced : s.reassembly.totalBytesToRecv = 0 ∧ eapFlags eapMsg 0 &&& eapWpsFlagsLf = 0
  · rw [if_pos unannounced, if_pos unannounced]
    exact ⟨rfl, ⟨rfl, rfl⟩, fun _ => rfl, fun more => by cases more⟩
  · rw [if_neg unannounced, if_neg unannounced]
    obtain ⟨processed, processing⟩ : ∃ processed, processed =
        apEapSmProcessFrag { s with reassembly := s.reassembly.announce eapMsg } eapMsg := ⟨_, rfl⟩
    dsimp only
    rw [← processing]
    unfold apEapSmProcessFrag at processing
    dsimp only at processing
    cases taken : (s.reassembly.announce eapMsg).processFrag apExceeds eapMsg with
    | none =>
      rw [taken] at processing
      subst processing
      exact ⟨rfl, ⟨rfl, rfl⟩, fun _ => rfl, fun more => by cases more⟩
    | some r =>
      rw [taken] at processing
      dsimp only at processing ⊢
      by_cases more : eapFlags eapMsg 0 &&& eapWpsFlagsMf ≠ 0
      · rw [if_pos more] at processing
        rw [if_pos more]
        let s' : EapWpsApState Mc := { s with reassembly := r, eapId := s.eapId + 1 }
        have unfinished : (if (apEapSmSendFack s').2 = wpsSuccess then wpsCont
            else (apEapSmSendFack s').2) ≠ wpsSuccess := by
          split
          · decide
          · assumption
        subst processing
        rw [if_pos unfinished]
        refine ⟨apEapSmSendFack_reassembly s', apEapSmSendFack_station s', ?_, ?_⟩
        · intro active
          exact if_pos (apEapSmSendFack_active (s := s') active)
        · intro _
          exact apEapSmSendFack_eapId s'
      · rw [if_neg more] at processing
        rw [if_neg more]
        subst processing
        exact ⟨rfl, ⟨rfl, rfl⟩, fun _ => rfl, fun more => by cases more⟩

def staResult : FragResult → Nat
  | .refused => staEapFailure
  | .more => wpsSendFragAckCont
  | .whole => wpsSuccess

theorem wpsApMsgGather_eq (s : EapWpsStaState Sm) (eapMsg : Lib.Memory) :
    wpsApMsgGather s eapMsg =
      if s.reassembly.totalBytesToRecv = 0 ∧ eapFlags eapMsg 0 &&& eapWpsFlagsLf = 0 then (s, staEapFailure)
      else
        let processed := wpsEapProcessFrag { s with reassembly := s.reassembly.announce eapMsg } eapMsg
        if processed.2 ≠ wpsSuccess then processed
        else
          let s := processed.1
          ({ s with reassembly := { s.reassembly with totalReceived := 0, totalBytesToRecv := 0 } },
            wpsSuccess) := by
  have begun : (if s.reassembly.totalBytesToRecv = 0 then { s with reassembly := { s.reassembly with
      totalBytesToRecv := wpsNtohs eapMsg sizeofWpsEapHdr } } else s) =
        { s with reassembly := s.reassembly.announce eapMsg } := by
    unfold Reassembly.announce
    split
    · rfl
    · rfl
  unfold wpsApMsgGather
  rw [begun]

theorem wpsApMsgGather_receive (s : EapWpsStaState Sm) (eapMsg : Lib.Memory) :
    (wpsApMsgGather s eapMsg).1.reassembly = (s.reassembly.receive staExceeds eapMsg).1 ∧
      (wpsApMsgGather s eapMsg).2 = staResult (s.reassembly.receive staExceeds eapMsg).2 := by
  rw [receive_eq, wpsApMsgGather_eq]
  by_cases unannounced : s.reassembly.totalBytesToRecv = 0 ∧ eapFlags eapMsg 0 &&& eapWpsFlagsLf = 0
  · rw [if_pos unannounced, if_pos unannounced]
    exact ⟨rfl, rfl⟩
  · rw [if_neg unannounced, if_neg unannounced]
    obtain ⟨processed, processing⟩ : ∃ processed, processed =
        wpsEapProcessFrag { s with reassembly := s.reassembly.announce eapMsg } eapMsg := ⟨_, rfl⟩
    dsimp only
    rw [← processing]
    unfold wpsEapProcessFrag at processing
    dsimp only at processing
    cases taken : (s.reassembly.announce eapMsg).processFrag staExceeds eapMsg with
    | none =>
      rw [taken] at processing
      subst processing
      exact ⟨rfl, rfl⟩
    | some r =>
      rw [taken] at processing
      dsimp only at processing ⊢
      by_cases more : eapFlags eapMsg 0 &&& eapWpsFlagsMf ≠ 0
      · rw [if_pos more] at processing
        rw [if_pos more]
        subst processing
        exact ⟨rfl, rfl⟩
      · rw [if_neg more] at processing
        rw [if_neg more]
        subst processing
        exact ⟨rfl, rfl⟩

theorem maxToSend_le (out : Outgoing) :
    (if out.fragSize < out.eapFragThreshold then out.fragSize else (out.eapFragThreshold : Int)) ≤
      out.fragSize := by
  split
  · exact Int.le_refl _
  · omega

/-- The station's fragments are those of the access point, but for the link header. -/
theorem wpsEapNextFrag_eq (s : EapWpsStaState Sm) :
    wpsEapNextFrag s = { s with out := (s.out.sendNextFrag staLink s.eapId).1 } ∧
      wpsGetFragMsgToSend (wpsEapNextFrag s) = (s.out.sendNextFrag staLink s.eapId).2 := by
  have most := maxToSend_le s.out
  unfold wpsEapNextFrag Outgoing.sendNextFrag
  dsimp only
  generalize (if s.out.fragSize < s.out.eapFragThreshold then s.out.fragSize
    else (s.out.eapFragThreshold : Int)) = maxToSend at most ⊢
  have flags : (if s.out.fragSize - maxToSend ≠ 0 then eapWpsFlagsMf else 0) =
      if maxToSend < s.out.fragSize then eapWpsFlagsMf else 0 := by
    have same : s.out.fragSize - maxToSend ≠ 0 ↔ maxToSend < s.out.fragSize := by omega
    simp only [same]
  have small : ((sizeofWpsEapHdr + maxToSend) % 65536).toNat < 65536 := by omega
  rw [flags]
  have shown := @createFragHdr_length s.out.msgToSend (s.out.nextFragToSend - wpsDataOffset + eapMsgOffset)
    eapMsgOffset _ s.eapId (if maxToSend < s.out.fragSize then eapWpsFlagsMf else 0) small
  have place : s.out.nextFragToSend - (staLink.size + sizeofWpsEapHdr) =
      s.out.nextFragToSend - wpsDataOffset := rfl
  rw [place, sendPacket_inside]
  change _ ∧ load _ _ _ = _
  dsimp only
  simp only [show staLink.size = eapMsgOffset from rfl]
  rw [shown]
  exact ⟨rfl, rfl⟩

def EapWpsApState.lastFrame (s : EapWpsApState Mc) : Bytes := s.sentData.getLastD []

/-- A frame of the access point's is taken in by the station, and acknowledged as long
as there are more. -/
def apToSta : Nat → EapWpsApState Mc → EapWpsStaState Sm → Bytes → Exchange
  | 0, ap, sta, frame => ⟨[frame], none, ap.out, sta.reassembly⟩
  | fuel + 1, ap, sta, frame =>
    let packet := eapPacket ap.link frame
    if sta.reassembly.reassembling packet then
      let gathered := wpsApMsgGather sta packet
      if gathered.2 = wpsSuccess then
        let whole := gathered.1.reassembly
        ⟨[frame], some (messageOf whole.fragsReceived.memory), ap.out, whole⟩
      else if gathered.2 = wpsSendFragAckCont then
        let ap := apEapSmFragAck ap
        let rest := apToSta fuel ap gathered.1 ap.lastFrame
        { rest with frames := frame :: rest.frames }
      else ⟨[frame], none, ap.out, gathered.1.reassembly⟩
    else ⟨[frame], some (messageOf packet), ap.out, sta.reassembly⟩

/-- The access point sends the message it has in place. -/
def apTransfer (fuel : Nat) (ap : EapWpsApState Mc) (sta : EapWpsStaState Sm) (dataLen : Nat) :
    Option Exchange :=
  let sent := apEapSmSendMsg ap (.inside (eapolHeaderLen + sizeofWpsEapHdr + eapWpsLfOffset)) dataLen
  if sent.2 = wpsSuccess then some (apToSta fuel sent.1 sta sent.1.lastFrame) else none

/-- The other way round. An acknowledgement brings the access point's identifier. -/
def staToAp : Nat → EapWpsStaState Sm → EapWpsApState Mc → Bytes → Exchange
  | 0, sta, ap, frame => ⟨[frame], none, sta.out, ap.reassembly⟩
  | fuel + 1, sta, ap, frame =>
    let packet := eapPacket staLink frame
    if ap.reassembly.reassembling packet then
      let gathered := apEapSmGather ap packet
      if gathered.2 = wpsSuccess then
        let whole := gathered.1.reassembly
        ⟨[frame], some (messageOf whole.fragsReceived.memory), sta.out, whole⟩
      else if gathered.2 = wpsCont then
        let sta := (wpsApMsgFragAck { sta with eapId := gathered.1.eapId }).1
        let rest := staToAp fuel sta gathered.1 (wpsGetFragMsgToSend sta)
        { rest with frames := frame :: rest.frames }
      else ⟨[frame], none, sta.out, gathered.1.reassembly⟩
    else ⟨[frame], some (messageOf packet), sta.out, ap.reassembly⟩

/-- The station sends the message it has in place. -/
def staTransfer (fuel : Nat) (sta : EapWpsStaState Sm) (ap : EapWpsApState Mc) : Option Exchange :=
  let sent := wpsGetEapolMsgToSend sta
  sent.2.map fun frame => staToAp fuel sent.1 ap frame

/-- The identifiers of the fragments after the first. -/
def laterIds (eapId : UInt8) (index : Nat) : UInt8 := eapId + UInt8.ofNat (index + 1)

theorem laterIds_succ (eapId : UInt8) (index : Nat) :
    laterIds eapId (index + 1) = laterIds (eapId + 1) index := by
  unfold laterIds
  rw [UInt8.ofNat_add, UInt8.add_comm (UInt8.ofNat (index + 1)), ← UInt8.add_assoc]
  rfl

theorem exchange_succ_index (link : LinkHeader) (exceeds : Int → Int → Int → Bool) (eapId : UInt8)
    (fuel index : Nat) (out : Outgoing) (r : Reassembly) (frame : Bytes) :
    exchange link exceeds (laterIds eapId) fuel (index + 1) out r frame =
      exchange link exceeds (laterIds (eapId + 1)) fuel index out r frame := by
  induction fuel generalizing index out r frame with
  | zero => rfl
  | succ fuel ih =>
    rw [exchange, exchange]
    simp only [laterIds_succ, ih]

theorem apEapSmFragAck_out (s : EapWpsApState Mc) :
    (apEapSmFragAck s).out = ((s.out.advance s.link).sendNextFrag s.link (laterIds s.eapId 0)).1 ∧
      (apEapSmFragAck s).lastFrame =
        ((s.out.advance s.link).sendNextFrag s.link (laterIds s.eapId 0)).2 := by
  refine ⟨rfl, ?_⟩
  exact List.getLastD_concat

/-- The two ends together are an exchange of fragments. -/
theorem apToSta_eq (fuel : Nat) (ap : EapWpsApState Mc) (sta : EapWpsStaState Sm) (frame : Bytes) :
    apToSta fuel ap sta frame =
      exchange ap.link staExceeds (laterIds ap.eapId) fuel 0 ap.out sta.reassembly frame := by
  induction fuel generalizing ap sta frame with
  | zero => rfl
  | succ fuel ih =>
    obtain ⟨kept, result⟩ := wpsApMsgGather_receive sta (eapPacket ap.link frame)
    rw [apToSta, exchange]
    dsimp only
    split
    · cases received : (sta.reassembly.receive staExceeds (eapPacket ap.link frame)).2 with
      | refused =>
        rw [received] at result
        rw [result, kept]
        rfl
      | more =>
        have code : (wpsApMsgGather sta (eapPacket ap.link frame)).2 = wpsSendFragAckCont := by
          rw [result, received]
          rfl
        obtain ⟨sent, last⟩ := apEapSmFragAck_out ap
        rw [code, if_neg (by decide), if_pos rfl, ih, kept, sent, last]
        dsimp only
        rw [exchange_succ_index]
        rfl
      | whole =>
        rw [received] at result
        rw [result, kept]
        rfl
    · rfl

theorem staToAp_eq (fuel : Nat) (sta : EapWpsStaState Sm) (ap : EapWpsApState Mc) (frame : Bytes)
    (active : ap.staActive = true) :
    staToAp fuel sta ap frame =
      exchange staLink apExceeds (laterIds ap.eapId) fuel 0 sta.out ap.reassembly frame := by
  induction fuel generalizing sta ap frame with
  | zero => rfl
  | succ fuel ih =>
    have gathers := apEapSmGather_receive ap (eapPacket staLink frame)
    have result := gathers.result active
    rw [staToAp, exchange]
    dsimp only
    split
    · cases received : (ap.reassembly.receive apExceeds (eapPacket staLink frame)).2 with
      | refused =>
        rw [result, received, gathers.reassembly]
        rfl
      | more =>
        have code : (apEapSmGather ap (eapPacket staLink frame)).2 = wpsCont := by
          rw [result, received]
          rfl
        obtain ⟨sent, last⟩ := wpsEapNextFrag_eq
          { sta with out := sta.out.advance staLink, eapId := ap.eapId + 1 }
        rw [code, if_neg (by decide), if_pos rfl, ih _ _ _ (gathers.station.active.trans active),
          gathers.reassembly, gathers.acked received, wpsApMsgFragAck, last, sent]
        dsimp only
        rw [exchange_succ_index]
        rfl
      | whole =>
        rw [result, received, gathers.reassembly]
        rfl
    · rfl

/-- What the access point has sent for a message, and last. -/
structure ApSent (ap sent : EapWpsApState Mc) (out : Outgoing) (frame : Bytes) : Prop where
  out : sent.out = out
  frame : sent.lastFrame = frame
  station : SameStation ap sent
  eapId : sent.eapId = ap.eapId

theorem apEapSmSendMsg_sent {ap : EapWpsApState Mc} {data : Source} {dataLen : Nat} {out : Outgoing}
    {msgType : UInt8} {frame : Bytes}
    (sending : ap.out.sendMsg ap.link data dataLen eapCodeRequest ap.eapId = (out, some (msgType, frame))) :
    (apEapSmSendMsg ap data dataLen).2 = wpsSuccess ∧ ApSent ap (apEapSmSendMsg ap data dataLen).1 out frame := by
  unfold Outgoing.sendMsg at sending
  unfold apEapSmSendMsg apEapSmCreatePkt
  dsimp only at sending ⊢
  generalize ap.out.createPkt ap.link data dataLen eapCodeRequest ap.eapId = created at sending ⊢
  obtain ⟨headed, known⟩ := created
  cases known with
  | none => cases sending
  | some type =>
    dsimp only at sending ⊢
    cases sending
    exact ⟨rfl, rfl, List.getLastD_concat, ⟨rfl, rfl⟩, rfl⟩

theorem apEapSmSendMsg_refused {ap : EapWpsApState Mc} {data : Source} {dataLen : Nat}
    (refused : (ap.out.sendMsg ap.link data dataLen eapCodeRequest ap.eapId).2 = none) :
    (apEapSmSendMsg ap data dataLen).2 = treapErrSendrecv := by
  unfold Outgoing.sendMsg at refused
  unfold apEapSmSendMsg apEapSmCreatePkt
  dsimp only at refused ⊢
  generalize ap.out.createPkt ap.link data dataLen eapCodeRequest ap.eapId = created at refused ⊢
  obtain ⟨headed, known⟩ := created
  cases known with
  | none => rfl
  | some type => cases refused

theorem apTransfer_eq (fuel : Nat) (ap : EapWpsApState Mc) (sta : EapWpsStaState Sm) (dataLen : Nat) :
    apTransfer fuel ap sta dataLen = transfer ap.link staExceeds (laterIds ap.eapId) fuel ap.out
      sta.reassembly (.inside (ap.link.size + 16)) dataLen eapCodeRequest ap.eapId := by
  have place : ap.link.size + 16 = eapolHeaderLen + sizeofWpsEapHdr + eapWpsLfOffset := rfl
  rw [place]
  unfold apTransfer transfer
  dsimp only
  cases sending : ap.out.sendMsg ap.link (.inside (eapolHeaderLen + sizeofWpsEapHdr + eapWpsLfOffset))
      dataLen eapCodeRequest ap.eapId with
  | mk out first =>
    cases first with
    | none =>
      rw [apEapSmSendMsg_refused (by rw [sending])]
      rfl
    | some first =>
      obtain ⟨done, sent⟩ := apEapSmSendMsg_sent (show _ = (out, some (first.1, first.2)) from sending)
      rw [if_pos done, apToSta_eq, sent.station.link, sent.eapId, sent.frame, sent.out]
      rfl

theorem wpsEapolCreatePkt_frame (s : EapWpsStaState Sm) (eapAt eapLen : Nat) :
    wpsGetFragMsgToSend (wpsEapolCreatePkt s eapAt eapLen) = (s.out.sendEap staLink eapAt eapLen).2 := by
  unfold wpsGetFragMsgToSend wpsEapolCreatePkt Outgoing.sendEap
  dsimp only
  split
  · rfl
  · rfl

/-- What the station sends of the message it has in place. -/
theorem wpsGetEapolMsgToSend_sent (sta : EapWpsStaState Sm) (building : 3 ≤ sta.state.number) :
    let sending := (wpsGetMsgToSend sta).1.out.sendMsg staLink (.inside (staLink.size + 16))
      sta.msgLen.toNat eapCodeResponse sta.eapId
    (wpsGetEapolMsgToSend sta).2 = sending.2.map Prod.snd ∧ (sending.2 ≠ none →
      (wpsGetEapolMsgToSend sta).1.out = sending.1 ∧
        (wpsGetEapolMsgToSend sta).2 = some (wpsGetFragMsgToSend (wpsGetEapolMsgToSend sta).1)) := by
  have place : (wpsGetMsgToSend sta).2 = staLink.size + 16 := if_pos building
  have same : (wpsGetMsgToSend sta).1.eapId = sta.eapId ∧ (wpsGetMsgToSend sta).1.msgLen = sta.msgLen :=
    ⟨rfl, rfl⟩
  intro sending
  have sent : sending = (wpsGetMsgToSend sta).1.out.sendMsg staLink (.inside (staLink.size + 16))
      sta.msgLen.toNat eapCodeResponse sta.eapId := rfl
  clear_value sending
  unfold Outgoing.sendMsg at sent
  unfold wpsGetEapolMsgToSend wpsEapCreatePkt
  dsimp only at sent ⊢
  rw [place, same.1, same.2]
  generalize (wpsGetMsgToSend sta).1.out.createPkt staLink (.inside (staLink.size + 16))
    sta.msgLen.toNat eapCodeResponse sta.eapId = created at sent ⊢
  obtain ⟨out, known⟩ := created
  cases known with
  | none =>
    rw [sent]
    exact ⟨rfl, fun some_ => absurd rfl some_⟩
  | some msgType =>
    dsimp only at sent ⊢
    rw [if_neg (by decide), sent, wpsEapolCreatePkt_frame]
    exact ⟨rfl, fun _ => ⟨rfl, rfl⟩⟩

theorem staTransfer_eq (fuel : Nat) (sta : EapWpsStaState Sm) (ap : EapWpsApState Mc)
    (active : ap.staActive = true) (building : 3 ≤ sta.state.number) :
    staTransfer fuel sta ap = transfer staLink apExceeds (laterIds ap.eapId) fuel
      (wpsGetMsgToSend sta).1.out ap.reassembly (.inside (staLink.size + 16)) sta.msgLen.toNat
        eapCodeResponse sta.eapId := by
  obtain ⟨frame, state⟩ := wpsGetEapolMsgToSend_sent sta building
  unfold staTransfer transfer
  dsimp only
  cases sending : (wpsGetMsgToSend sta).1.out.sendMsg staLink (.inside (staLink.size + 16))
      sta.msgLen.toNat eapCodeResponse sta.eapId with
  | mk out first =>
    rw [sending] at frame state
    cases first with
    | none =>
      rw [frame]
      rfl
    | some first =>
      rw [frame]
      simp only [Option.map_some, staToAp_eq _ _ _ _ active]
      rw [(state (by simp)).1]

theorem compares_ap : Compares apExceeds := by
  intro total received len _ _ _ _ _ _
  unfold apExceeds toUint32
  rw [Int.emod_eq_of_lt (by omega) (by omega), Int.emod_eq_of_lt (by omega) (by omega)]

theorem compares_sta : Compares staExceeds := by
  intro total received len _ _ _ _ _ _
  have short : toInt32 len = len := by
    unfold toInt32
    omega
  have sum : toInt32 (received + len) = received + len := by
    unfold toInt32
    omega
  unfold staExceeds
  rw [short, sum]

/-- A message is built in place, and the receiver has nothing under way. -/
structure ReadyToSend (link : LinkHeader) (out : Outgoing) (r : Reassembly) (msg : Bytes) : Prop where
  threshold : 100 ≤ out.eapFragThreshold ∧ out.eapFragThreshold ≤ eapWpsFragMax
  placed : Placed link out msg
  idle : Idle r
  nonempty : msg ≠ []

/-- A message with a type that is known goes through in both directions, unless it is
exactly as long as the threshold. -/
theorem transfers_lossless_iff (ap : EapWpsApState Mc) (sta : EapWpsStaState Sm) (msg : Bytes) :
    (ReadyToSend ap.link ap.out sta.reassembly msg →
      ((∃ fuel e, apTransfer fuel ap sta msg.length = some e ∧
          Lossless ap.link ap.out.eapFragThreshold msg e) ↔
        msg.length ≠ ap.out.eapFragThreshold ∧
          (messageOpcode (ap.out.byteAt (.inside (ap.link.size + 16)) wpsMsgtypeOffset)).isSome = true)) ∧
    (ReadyToSend staLink sta.out ap.reassembly msg → ap.staActive = true → 3 ≤ sta.state.number →
      sta.msgLen = msg.length →
      ((∃ fuel e, staTransfer fuel sta ap = some e ∧
          Lossless staLink sta.out.eapFragThreshold msg e) ↔
        msg.length ≠ sta.out.eapFragThreshold ∧
          (messageOpcode (sta.out.byteAt (.inside (staLink.size + 16)) wpsMsgtypeOffset)).isSome = true)) := by
  constructor
  · intro ready
    simp only [apTransfer_eq]
    exact transfer_lossless_iff compares_sta ready.threshold.1 ready.placed ready.idle
  · intro ready active building length
    have fetched : sta.msgLen.toNat = msg.length := by omega
    have placed : Placed staLink (wpsGetMsgToSend sta).1.out msg :=
      ⟨ready.placed.carried, ready.placed.intact, ready.placed.room⟩
    simp only [staTransfer_eq _ _ _ active building, fetched]
    have low : 100 ≤ (wpsGetMsgToSend sta).1.out.eapFragThreshold := ready.threshold.1
    exact transfer_lossless_iff compares_ap low placed ready.idle

theorem placed_write {link : LinkHeader} {out : Outgoing} {msg : Bytes}
    (intact : out.msgToSend.intact = true) (room : link.size + 16 + msg.length ≤ wpsEapDataMaxLength) :
    Placed link { out with msgToSend := out.msgToSend.write (link.size + 16) msg } msg := by
  refine ⟨?_, FixedBuffer.write_intact.mpr ⟨intact, room⟩, room⟩
  intro i inside
  simp only [FixedBuffer.write_memory]
  rw [store_apply, if_pos (by omega), Nat.add_sub_cancel_left]

/-- An M1 of which only the first two attributes matter here. -/
def m1Of (padding : Nat) : Bytes :=
  [0x10, 0x4A, 0, 1, 0x10, 0x10, 0x22, 0, 1, 4] ++ List.replicate padding 0

theorem length_m1Of (padding : Nat) : (m1Of padding).length = 10 + padding := by
  simp [m1Of]
  omega

def apWith (msg : Bytes) : EapWpsApState Unit :=
  let started := apEapSmInit () (Vector.replicate 6 2) 100
  { started with
    state := .processingProtocol
    out := { started.out with msgToSend := started.out.msgToSend.write 34 msg } }

def staWith (msg : Bytes) : EapWpsStaState Unit :=
  let started := wpsEapStaInit () .staEnrollee 100
  { started with
    state := .processingProtocol, msgLen := msg.length
    out := { started.out with msgToSend := started.out.msgToSend.write 20 msg } }

theorem apWith_ready (msg : Bytes) (nonempty : 0 < msg.length) (room : 34 + msg.length ≤ 2048) :
    ReadyToSend (apWith msg).link (apWith msg).out (staWith []).reassembly msg :=
  have threshold : 100 ≤ eapWpsFragMax := by decide
  ⟨⟨Nat.le_refl 100, threshold⟩, placed_write rfl room, ⟨rfl, rfl, rfl⟩,
    List.ne_nil_of_length_pos nonempty⟩

theorem staWith_ready (msg : Bytes) (nonempty : 0 < msg.length) (room : 34 + msg.length ≤ 2048) :
    ReadyToSend staLink (staWith msg).out (apWith []).reassembly msg :=
  have threshold : 100 ≤ eapWpsFragMax := by decide
  have room : 20 + msg.length ≤ 2048 := by omega
  ⟨⟨Nat.le_refl 100, threshold⟩, placed_write rfl room, ⟨rfl, rfl, rfl⟩,
    List.ne_nil_of_length_pos nonempty⟩

theorem transfers_lossless_above_threshold :
    (∃ fuel e, apTransfer fuel (apWith (m1Of 240)) (staWith []) 250 = some e ∧
      Lossless (apWith (m1Of 240)).link 100 (m1Of 240) e) ∧
    (∃ fuel e, staTransfer fuel (staWith (m1Of 240)) (apWith []) = some e ∧
      Lossless staLink 100 (m1Of 240) e) := by
  have length := length_m1Of 240
  have fromAp := (transfers_lossless_iff (apWith (m1Of 240)) (staWith []) (m1Of 240)).1
    (apWith_ready _ (by omega) (by omega))
  have fromSta := (transfers_lossless_iff (apWith []) (staWith (m1Of 240)) (m1Of 240)).2
    (staWith_ready _ (by omega) (by omega)) (by decide +kernel) (by decide) rfl
  rw [length] at fromAp
  exact ⟨fromAp.mpr ⟨by decide, by decide +kernel⟩,
    fromSta.mpr ⟨by rw [length]; decide, by decide +kernel⟩⟩

/-- A message of exactly the threshold is moved by two bytes, onto itself. -/
theorem transfer_lossy_at_threshold :
    ReadyToSend (apWith (m1Of 90)).link (apWith (m1Of 90)).out (staWith []).reassembly (m1Of 90) ∧
      (messageOpcode ((apWith (m1Of 90)).out.byteAt (.inside 34) wpsMsgtypeOffset)).isSome = true ∧
      ¬ ∃ fuel e, apTransfer fuel (apWith (m1Of 90)) (staWith []) (m1Of 90).length = some e ∧
        Lossless (apWith (m1Of 90)).link (apWith (m1Of 90)).out.eapFragThreshold (m1Of 90) e := by
  have length := length_m1Of 90
  have ready := apWith_ready (m1Of 90) (by omega) (by omega)
  refine ⟨ready, by decide +kernel, ?_⟩
  simp only [apTransfer_eq]
  rw [transfer_lossless_iff compares_sta ready.threshold.1 ready.placed ready.idle]
  rintro ⟨different, _⟩
  exact different length

end BcmDhd.Wps
