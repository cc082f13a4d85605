import BcmDhd.Wps.EapMachines

namespace BcmDhd.Wps

open BcmDhd.Lib BcmDhd.Lib.Bytes

variable {padding : Nat}

section

variable {link link' : LinkHeader} {out : Outgoing} {msg last : Bytes}

/-- The length of the headers of a frame. -/
def LinkHeader.headers (link : LinkHeader) : Nat := link.size + sizeofWpsEapHdr

/-- A fragmented message is being sent; `last` is the frame that went out last. -/
structure InFlight (link : LinkHeader) (out : Outgoing) (msg last : Bytes) : Prop where
  large : 100 ≤ out.eapFragThreshold
  more : HasMore link last ↔ (out.eapFragThreshold : Int) < out.fragSize
  phase : (Begun link out msg (out.eapFragThreshold - eapWpsLfOffset) ∧
      out.eapFragThreshold < msg.length) ∨
    ∃ sent, 12 ≤ sent ∧ sent < msg.length ∧ Pending link out msg sent

theorem Pending.relink {sent : Nat} (same : link'.size = link.size)
    (pending : Pending link out msg sent) : Pending link' out msg sent := by
  obtain ⟨next, left, carried, intact, room⟩ := pending
  rw [← same] at next carried room
  exact ⟨next, left, carried, intact, room⟩

theorem Begun.relink {sent : Nat} (same : link'.size = link.size)
    (begun : Begun link out msg sent) : Begun link' out msg sent := by
  obtain ⟨next, left, carried, intact, room, threshold⟩ := begun
  rw [← same] at next carried room
  exact ⟨next, left, carried, intact, room, threshold⟩

theorem InFlight.relink (same : link'.size = link.size)
    (flight : InFlight link out msg last) : InFlight link' out msg last := by
  refine ⟨flight.large, ?_, ?_⟩
  · rw [← flight.more, HasMore, HasMore, eapPacket, eapPacket, same]
  · rcases flight.phase with ⟨begun, long⟩ | ⟨sent, first, inside, pending⟩
    · exact Or.inl ⟨begun.relink same, long⟩
    · exact Or.inr ⟨sent, first, inside, pending.relink same⟩

theorem InFlight.inside (flight : InFlight link out msg last) :
    out.nextFragToSend < wpsEapDataMaxLength := by
  rcases flight.phase with ⟨begun, long⟩ | ⟨sent, first, inside, pending⟩
  · have room := begun.room
    rw [begun.next]
    omega
  · have room := pending.room
    rw [pending.next]
    omega

theorem advance_threshold : (out.advance link).eapFragThreshold = out.eapFragThreshold := by
  unfold Outgoing.advance
  split
  · rfl
  · rfl

theorem sendNextFrag_length (id : UInt8) (bounded : out.eapFragThreshold ≤ 65000)
    (left : 0 ≤ out.fragSize) :
    link.headers ≤ (out.sendNextFrag link id).2.length ∧
      (out.sendNextFrag link id).2.length ≤ link.headers + out.eapFragThreshold := by
  have header : sizeofWpsEapHdr = 14 := rfl
  unfold Outgoing.sendNextFrag Outgoing.sendPacket LinkHeader.headers
  dsimp only
  rw [length_load, createFragHdr_length (by omega)]
  split
  · omega
  · omega

/-- An acknowledgement that comes while there are fragments left brings the next one. -/
theorem InFlight.next (flight : InFlight link out msg last)
    (left : (out.eapFragThreshold : Int) < out.fragSize) (id : UInt8) :
    let next := (out.advance link).sendNextFrag link id
    InFlight link next.1 msg next.2 ∧ next.1.eapFragThreshold = out.eapFragThreshold ∧
      link.headers ≤ next.2.length ∧ next.2.length ≤ link.headers + out.eapFragThreshold := by
  intro next
  have large := flight.large
  have offset : eapWpsLfOffset = 2 := rfl
  have limit : wpsEapDataMaxLength = 2048 := rfl
  have advanced : out.eapFragThreshold < msg.length ∧
      ∃ sent, 12 ≤ sent ∧ sent < msg.length ∧ Pending link (out.advance link) msg sent := by
    rcases flight.phase with ⟨begun, long⟩ | ⟨sent, first, inside, pending⟩
    · exact ⟨long, out.eapFragThreshold - eapWpsLfOffset, by omega, by omega, begun.advance⟩
    · have rest := pending.left
      exact ⟨by omega, sent + out.eapFragThreshold, by omega, by omega, pending.advance⟩
  obtain ⟨long, sent, first, inside, pending⟩ := advanced
  have room := pending.room
  obtain ⟨fragment, flags, after, threshold⟩ := sendNextFrag_fragment id pending inside first
  have same : next.1.eapFragThreshold = out.eapFragThreshold := threshold.trans advance_threshold
  have rest := pending.left
  have after' : Pending link next.1 msg sent := after
  refine ⟨⟨by omega, ?_, Or.inr ⟨sent, first, inside, after⟩⟩, same, ?_⟩
  · rw [HasMore, flags, after'.left, same, advance_threshold]
    split
    · rename_i more
      refine ⟨fun _ => by omega, fun _ => by decide⟩
    · rename_i done
      refine ⟨fun absurd_ => absurd (by decide) absurd_, fun more => by omega⟩
  · have bounded : (out.advance link).eapFragThreshold ≤ 65000 := by
      rw [advance_threshold]
      omega
    have length : _ ∧ ((out.advance link).sendNextFrag link id).2.length ≤ _ :=
      sendNextFrag_length id bounded (by omega)
    rwa [advance_threshold] at length

theorem InFlight.fragmenting (flight : InFlight link out msg last) (some_ : 0 < link.size) :
    out.fragmenting = true := by
  have position : out.nextFragToSend ≠ 0 := by
    rcases flight.phase with ⟨begun, long⟩ | ⟨sent, first, inside, pending⟩
    · rw [begun.next]
      omega
    · rw [pending.next]
      omega
  exact decide_eq_true position

/-- What is done with a frame of the peer while fragments are sent: an acknowledgement and a message
that comes too early both find fragments left. -/
theorem InFlight.taken {α : Type} {acked gathered silent other idle next : α} {wps : Bool} {opcode : UInt8}
    (flight : InFlight link out msg last) (some_ : 0 < link.size)
    (peer : wps = true ∧ (opcode = opWpsFragAck ∨ opcode = opWpsMsg))
    (prompt : (opcode = opWpsFragAck → (out.eapFragThreshold : Int) < out.fragSize) ∧
      (opcode = opWpsMsg → out.fragSize ≠ out.eapFragThreshold))
    (taken : next = if wps = true ∧ out.fragmenting = true then
      if opcode = opWpsFragAck then acked
      else if opcode = opWpsMsg then if out.fragSize < out.eapFragThreshold then gathered else silent
      else other else idle) :
    (out.eapFragThreshold : Int) < out.fragSize ∧ (next = acked ∨ next = silent) ∨ next = gathered := by
  rw [if_pos ⟨peer.1, flight.fragmenting some_⟩] at taken
  rcases peer.2 with ack | message
  · rw [if_pos ack] at taken
    exact .inl ⟨prompt.1 ack, .inl taken⟩
  · have different : opcode ≠ opWpsFragAck := by
      rw [message]
      decide
    rw [if_neg different, if_pos message] at taken
    by_cases done : out.fragSize < out.eapFragThreshold
    · rw [if_pos done] at taken
      exact .inr taken
    · rw [if_neg done] at taken
      have uneven := prompt.2 message
      have more : (out.eapFragThreshold : Int) < out.fragSize := by omega
      exact .inl ⟨more, .inr taken⟩

end

variable {Mc Sm : Type}

/-- A frame that acknowledges a fragment. -/
def IsFragAck (link : LinkHeader) (frame : Bytes) : Prop :=
  frame.length = link.headers ∧ eapOpcode (eapPacket link frame) 0 = opWpsFragAck

/-- Nothing but acknowledgements has been sent, and no fragment is under way. -/
structure AcksOnly (s s' : EapWpsApState Mc) : Prop where
  next : s'.out.nextFragToSend = s.out.nextFragToSend
  size : s'.out.fragSize = s.out.fragSize
  threshold : s'.out.eapFragThreshold = s.out.eapFragThreshold
  sent : ∃ fresh, s'.sentData = s.sentData ++ fresh ∧ ∀ frame ∈ fresh, IsFragAck s.link frame

theorem apEapSmSendFack_acks (s : EapWpsApState Mc) : AcksOnly s (apEapSmSendFack s).1 := by
  unfold apEapSmSendFack
  split
  · refine ⟨rfl, rfl, rfl, _, rfl, ?_⟩
    intro frame member
    have same := List.mem_singleton.mp member
    have size : s.link.size = 18 := rfl
    have header : sizeofWpsEapHdr = 14 := rfl
    have hdr : (eapHdr eapCodeRequest s.eapId sizeofWpsEapHdr opWpsFragAck 0).length = 14 := rfl
    rw [same]
    constructor
    · exact length_load
    · rw [eapOpcode, eapPacket, ofBytes_drop]
      dsimp only [Outgoing.sendPacket]
      rw [ofBytes_load _ _ _ (by omega), FixedBuffer.touch_memory, FixedBuffer.copy_outside,
        FixedBuffer.write_memory, store_apply, length_load, if_pos (by omega)]
      rfl
  · exact ⟨rfl, rfl, rfl, [], (List.append_nil _).symm, by simp⟩

theorem AcksOnly.refl (s : EapWpsApState Mc) : AcksOnly s s :=
  ⟨rfl, rfl, rfl, [], (List.append_nil _).symm, by simp⟩

theorem AcksOnly.then {s s' s'' : EapWpsApState Mc} (acks : AcksOnly s s')
    (next : s''.out.nextFragToSend = s'.out.nextFragToSend) (size : s''.out.fragSize = s'.out.fragSize)
    (threshold : s''.out.eapFragThreshold = s'.out.eapFragThreshold)
    (sent : s''.sentData = s'.sentData) : AcksOnly s s'' :=
  ⟨next.trans acks.next, size.trans acks.size, threshold.trans acks.threshold, by rw [sent]; exact acks.sent⟩

theorem apEapSmProcessFrag_acks (s : EapWpsApState Mc) (eapMsg : Lib.Memory) :
    AcksOnly s (apEapSmProcessFrag s eapMsg).1 := by
  unfold apEapSmProcessFrag
  split
  · exact AcksOnly.refl s
  · rename_i taken _
    dsimp only
    split
    · have acks := apEapSmSendFack_acks { s with reassembly := taken, eapId := s.eapId + 1 }
      exact ⟨acks.next, acks.size, acks.threshold, acks.sent⟩
    · exact (AcksOnly.refl s).then rfl rfl rfl rfl

theorem apEapSmGather_acks (s : EapWpsApState Mc) (eapMsg : Lib.Memory) :
    AcksOnly s (apEapSmGather s eapMsg).1 := by
  have acks := apEapSmProcessFrag_acks { s with reassembly := s.reassembly.announce eapMsg } eapMsg
  have processed : AcksOnly s (apEapSmProcessFrag
      { s with reassembly := s.reassembly.announce eapMsg } eapMsg).1 :=
    ⟨acks.next, acks.size, acks.threshold, acks.sent⟩
  rw [apEapSmGather_eq]
  split
  · exact AcksOnly.refl s
  · dsimp only
    split
    · exact processed
    · exact processed.then rfl rfl rfl rfl

theorem apEapSmHandle_acks (api : WpsApi Mc) (s : EapWpsApState Mc) (eapMsg : Lib.Memory) :
    AcksOnly s (apEapSmHandle api s eapMsg).1 := by
  unfold apEapSmHandle
  cases s.state with
  | init => exact (AcksOnly.refl s).then rfl rfl rfl rfl
  | eapStartSend | processingProtocol =>
    unfold apEapSmProcessProtocol
    dsimp only
    split
    · exact (AcksOnly.refl s).then rfl rfl rfl rfl
    · exact (AcksOnly.refl s).then rfl rfl rfl rfl
  | _ => exact AcksOnly.refl s

theorem apEapSmReassemble_acks (api : WpsApi Mc) (s : EapWpsApState Mc) (eapMsg : Lib.Memory) :
    AcksOnly s (apEapSmReassemble api s eapMsg).1 := by
  have gathered := apEapSmGather_acks s eapMsg
  unfold apEapSmReassemble
  split
  · dsimp only
    split
    · exact gathered
    · have handled := apEapSmHandle_acks api (apEapSmGather s eapMsg).1
        (apEapSmGather s eapMsg).1.reassembly.fragsReceived.memory
      obtain ⟨first, sent, acks⟩ := gathered.sent
      obtain ⟨second, sent', acks'⟩ := handled.sent
      have station := (apEapSmGather_receive s eapMsg).station
      refine ⟨handled.next.trans gathered.next, handled.size.trans gathered.size,
        handled.threshold.trans gathered.threshold,
        first ++ second, ?_, ?_⟩
      · rw [sent', sent, List.append_assoc]
      · intro frame member
        rcases List.mem_append.mp member with earlier | later
        · exact acks frame earlier
        · have ack := acks' frame later
          rwa [station.link] at ack
  · exact apEapSmHandle_acks api s eapMsg

/-- The peer's frames that have to do with fragments: acknowledgements and messages. -/
def apFromPeer (eapol : Lib.Memory) : Prop :=
  let eapMsg : Lib.Memory := fun place => eapol (eapolHeaderLen + place)
  apIsEapTypeWps eapMsg = true ∧ (eapOpcode eapMsg 0 = opWpsFragAck ∨ eapOpcode eapMsg 0 = opWpsMsg)

/-- What the access point may send for such a frame: no longer frame than its threshold
allows, and after the last fragment nothing but acknowledgements. -/
def ApFrames (s next : EapWpsApState Mc) : Prop :=
  ∃ fresh, next.sentData = s.sentData ++ fresh ∧
    (∀ frame ∈ fresh, s.link.headers ≤ frame.length ∧
      frame.length ≤ s.link.headers + s.out.eapFragThreshold) ∧
    (¬ (s.out.fragmenting = true ∧ HasMore s.link s.lastFrame) → ∀ frame ∈ fresh, IsFragAck s.link frame)

/-- How the access point is to take such a frame. -/
structure ApSendsWell (api : WpsApi Mc) (s : EapWpsApState Mc) (msg eapol : Lib.Memory) : Prop where
  inside : (apEapSmProcessStaMsg api s msg (some eapol)).1.out.nextFragToSend < wpsEapDataMaxLength
  frames : ApFrames s (apEapSmProcessStaMsg api s msg (some eapol)).1
  heard : s.out.fragmenting = true → ¬ HasMore s.link s.lastFrame → ∀ s', apAdmitted s eapol = some s' →
    eapOpcode (fun place => eapol (eapolHeaderLen + place)) 0 = opWpsMsg →
      apEapSmProcessStaMsg api s msg (some eapol) = apEapSmReassemble api
        { s' with out := { s'.out with nextFragToSend := 0, fragSize := 0 } }
          fun place => eapol (eapolHeaderLen + place)

/-- A frame that is admitted is an acknowledgement only while there are fragments left,
and a message only if the last fragment was not as long as the threshold. -/
def apPrompt (s : EapWpsApState Mc) (eapol : Lib.Memory) : Prop :=
  let opcode := eapOpcode (fun place => eapol (eapolHeaderLen + place)) 0
  s.out.fragmenting = true → (apAdmitted s eapol).isSome = true →
    (opcode = opWpsFragAck → (s.out.eapFragThreshold : Int) < s.out.fragSize) ∧
    (opcode = opWpsMsg → s.out.fragSize ≠ s.out.eapFragThreshold)

/-- A message is in flight, or its last fragment has been answered. -/
inductive ApSending (msg : Bytes) (s : EapWpsApState Mc) : Prop
  | underWay (flight : InFlight s.link s.out msg s.lastFrame)
  | done (finished : s.out.nextFragToSend = 0)

theorem linkSize_eq (s s' : EapWpsApState Mc) : s'.link.size = s.link.size := rfl

theorem untouched_lastFrame {s s' : EapWpsApState Mc} (same : Untouched s s') : s'.lastFrame = s.lastFrame := by
  rw [EapWpsApState.lastFrame, same.sentData]
  rfl

theorem ApSending.untouched {msg : Bytes} {s s' : EapWpsApState Mc} (sending : ApSending msg s)
    (same : Untouched s s') : ApSending msg s' := by
  cases sending with
  | underWay flight =>
    refine .underWay ?_
    rw [same.out, untouched_lastFrame same]
    exact flight.relink (linkSize_eq s s')
  | done finished =>
    refine .done ?_
    rw [same.out]
    exact finished

theorem AcksOnly.frames {s s' next : EapWpsApState Mc} (acks : AcksOnly s' next)
    (same : s'.sentData = s.sentData) : ApFrames s next := by
  obtain ⟨fresh, sent, each⟩ := acks.sent
  rw [same] at sent
  refine ⟨fresh, sent, ?_, fun _ => each⟩
  intro frame member
  have length := (each frame member).1
  have headers : s'.link.headers = s.link.headers := rfl
  omega

theorem Untouched.frames {s next : EapWpsApState Mc} (same : Untouched s next) : ApFrames s next :=
  ⟨[], by rw [same.sentData, List.append_nil], by simp, by simp⟩

variable {api : WpsApi Mc} {s s' : EapWpsApState Mc} {msg : Bytes} {raw eapol : Lib.Memory}

theorem ApSending.inside (sending : ApSending msg s) : s.out.nextFragToSend < wpsEapDataMaxLength := by
  cases sending with
  | underWay flight => exact flight.inside
  | done finished =>
    rw [finished]
    decide

theorem apEapSmFragAck_flight (flight : InFlight s.link s.out msg s.lastFrame) (same : Untouched s s')
    (left : (s.out.eapFragThreshold : Int) < s.out.fragSize) :
    ApSending msg (apEapSmFragAck s') ∧ ApFrames s (apEapSmFragAck s') := by
  obtain ⟨out, last⟩ := apEapSmFragAck_out s'
  rw [same.out] at out last
  obtain ⟨next, threshold, low, high⟩ := (flight.relink (linkSize_eq s s')).next left (laterIds s'.eapId 0)
  rw [← last] at low high
  constructor
  · refine .underWay ?_
    rw [out, last]
    exact next.relink (linkSize_eq s' (apEapSmFragAck s'))
  · refine ⟨[(apEapSmFragAck s').lastFrame], ?_, ?_, ?_⟩
    · rw [← same.sentData, last, ← same.out]
      rfl
    · intro frame member
      rw [List.mem_singleton.mp member]
      exact ⟨low, high⟩
    · intro last_
      have some_ : 0 < s.link.size := Nat.zero_lt_succ 17
      exact absurd ⟨flight.fragmenting some_, flight.more.mpr left⟩ last_

/-- One of the peer's frames is taken as it should be, and leaves a sender in order. -/
theorem apSending_step (sending : ApSending msg s) (peer : apFromPeer eapol) (prompt : apPrompt s eapol) :
    ApSendsWell api s raw eapol ∧ ApSending msg (apEapSmProcessStaMsg api s raw (some eapol)).1 := by
  have processed := apEapSmProcessStaMsg_wps api s raw eapol peer.1
  cases admitted : apAdmitted s eapol with
  | none =>
    rw [admitted] at processed
    have after := sending.untouched processed
    refine ⟨⟨after.inside, processed.frames, ?_⟩, after⟩
    intro _ _ s' other
    rw [admitted] at other
    cases other
  | some s' =>
    rw [admitted] at processed
    obtain ⟨same, taken⟩ := processed
    cases sending with
    | underWay flight =>
      have some_ : 0 < s.link.size := Nat.zero_lt_succ 17
      have asked := prompt (flight.fragmenting some_) (by rw [admitted]; rfl)
      have flight' : InFlight s.link s'.out msg s.lastFrame := by
        rw [same.out]
        exact flight
      rw [← same.out] at asked
      rcases flight'.taken some_ peer asked taken with ⟨left, taken | taken⟩ | taken
      · obtain ⟨after, frames⟩ := apEapSmFragAck_flight flight same (same.out ▸ left)
        refine ⟨⟨taken ▸ after.inside, taken ▸ frames, ?_⟩, taken ▸ after⟩
        intro _ last
        exact absurd (flight'.more.mpr left) last
      · have after := (ApSending.underWay flight).untouched same
        refine ⟨⟨taken ▸ after.inside, taken ▸ same.frames, ?_⟩, taken ▸ after⟩
        intro _ last
        exact absurd (flight'.more.mpr left) last
      · have acks := apEapSmReassemble_acks api
          { s' with out := { s'.out with nextFragToSend := 0, fragSize := 0 } }
            fun place => eapol (eapolHeaderLen + place)
        have after : ApSending msg _ := .done acks.next
        refine ⟨⟨taken ▸ after.inside, taken ▸ acks.frames same.sentData, ?_⟩, taken ▸ after⟩
        intro _ _ other given _
        cases admitted.symm.trans given
        exact taken
    | done finished =>
      have idle : ¬ (apIsEapTypeWps (fun place => eapol (eapolHeaderLen + place)) = true ∧
          s'.out.fragmenting = true) := by
        rintro ⟨_, fragmenting⟩
        exact of_decide_eq_true fragmenting (by rw [same.out]; exact finished)
      rw [apEapSmFragments, if_neg idle] at taken
      have acks := apEapSmReassemble_acks api s' fun place => eapol (eapolHeaderLen + place)
      have next := acks.next
      rw [same.out] at next
      have after : ApSending msg _ := .done (next.trans finished)
      refine ⟨⟨taken ▸ after.inside, taken ▸ acks.frames same.sentData, ?_⟩, taken ▸ after⟩
      intro fragmenting
      exact absurd finished (of_decide_eq_true fragmenting)

/-- Nothing but an acknowledgement is there to be sent, and no fragment is under way. -/
structure StaAcksOnly (s : EapWpsStaState Sm) (next : EapWpsStaState Sm × Nat) : Prop where
  position : next.1.out.nextFragToSend = s.out.nextFragToSend
  acks : sendsFragment next.2 = true → IsFragAck staLink (wpsGetFragMsgToSend next.1)

theorem wpsEapFragAck_ack (s : EapWpsStaState Sm) : IsFragAck staLink (wpsGetFragMsgToSend (wpsEapFragAck s).1) := by
  have hdr : (eapHdr eapCodeResponse s.eapId sizeofWpsEapHdr opWpsFragAck 0).length = 14 := rfl
  have size : staLink.size = 4 := rfl
  have framed : (staLink.bytes sizeofWpsEapHdr).length = 4 := rfl
  constructor
  · exact length_load
  · rw [eapOpcode, eapPacket, ofBytes_drop, size]
    unfold wpsGetFragMsgToSend wpsEapFragAck
    dsimp only
    rw [ofBytes_load _ _ _ (by decide), FixedBuffer.write_memory, store_outside (by rw [framed]; omega),
      FixedBuffer.write_memory, store_apply, hdr, if_pos (by decide)]
    rfl

theorem wpsEapProcessFrag_acks (s : EapWpsStaState Sm) (eapMsg : Lib.Memory) :
    StaAcksOnly s (wpsEapProcessFrag s eapMsg) := by
  unfold wpsEapProcessFrag
  split
  · exact ⟨rfl, fun ack => by cases ack⟩
  · rename_i taken _
    dsimp only
    split
    · exact ⟨rfl, fun _ => wpsEapFragAck_ack { s with reassembly := taken }⟩
    · exact ⟨rfl, fun ack => by cases ack⟩

theorem wpsApMsgGather_acks (s : EapWpsStaState Sm) (eapMsg : Lib.Memory) :
    StaAcksOnly s (wpsApMsgGather s eapMsg) := by
  have acks := wpsEapProcessFrag_acks { s with reassembly := s.reassembly.announce eapMsg } eapMsg
  rw [wpsApMsgGather_eq]
  split
  · exact ⟨rfl, fun ack => by cases ack⟩
  · dsimp only
    split
    · exact ⟨acks.position, acks.acks⟩
    · exact ⟨acks.position, fun ack => by cases ack⟩

theorem wpsEapEnrProcessProtocol_plain (steps : WpsSteps Sm) (s : EapWpsStaState Sm)
    (eapMsg : Lib.Memory) (eapLen : Nat) :
    (wpsEapEnrProcessProtocol steps s eapMsg eapLen).1.out.nextFragToSend = s.out.nextFragToSend ∧
      sendsFragment (wpsEapEnrProcessProtocol steps s eapMsg eapLen).2 = false := by
  have plain : ∀ (mode : ScMode) sm msg len, sendsFragment
      ((if mode = .staRegistrar then steps.regSmStep else steps.enrSmStep) sm msg len).code = false := by
    intro mode sm msg len
    split
    · exact steps.regSmPlain sm msg len
    · exact steps.enrSmPlain sm msg len
  have kept : ∀ id : UInt8, (if eapOpcode eapMsg 0 ≠ opWpsStart then { s with recvMsgId := id }
      else s).out.nextFragToSend = s.out.nextFragToSend := by
    intro id
    split
    · rfl
    · rfl
  unfold wpsEapEnrProcessProtocol
  dsimp only
  by_cases long : 14 ≤ eapLen
  · rw [if_pos long]
    exact ⟨kept _, plain _ _ _ _⟩
  · rw [if_neg long]
    exact ⟨kept _, rfl⟩

theorem wpsApMsgHandle_acks (steps : WpsSteps Sm) (s : EapWpsStaState Sm) (eapMsg : Lib.Memory)
    (eapLen : Nat) : StaAcksOnly s (wpsApMsgHandle steps s eapMsg eapLen) := by
  obtain ⟨position, plain⟩ := wpsEapEnrProcessProtocol_plain steps s eapMsg eapLen
  unfold wpsApMsgHandle
  cases s.state with
  | eapolStartSent =>
    dsimp only
    split
    · exact ⟨rfl, fun ack => by cases ack⟩
    · exact ⟨rfl, fun ack => by cases ack⟩
  | eapIdentitySent | processingProtocol =>
    dsimp only
    split
    · refine ⟨position, ?_⟩
      dsimp only
      split
      · intro ack
        cases ack
      · intro ack
        cases ack
    · refine ⟨position, ?_⟩
      rw [plain]
      intro ack
      cases ack
  | _ => exact ⟨rfl, fun ack => by cases ack⟩

theorem wpsApMsgReassemble_acks (steps : WpsSteps Sm) (s : EapWpsStaState Sm) (eapMsg : Lib.Memory) :
    StaAcksOnly s (wpsApMsgReassemble steps s eapMsg) := by
  have gathered := wpsApMsgGather_acks s eapMsg
  unfold wpsApMsgReassemble
  split
  · dsimp only
    split
    · exact gathered
    · have handled := wpsApMsgHandle_acks steps (wpsApMsgGather s eapMsg).1
        (wpsApMsgGather s eapMsg).1.reassembly.fragsReceived.memory
        (eapLength (wpsApMsgGather s eapMsg).1.reassembly.fragsReceived.memory 0)
      exact ⟨handled.position.trans gathered.position, handled.acks⟩
  · exact wpsApMsgHandle_acks steps s eapMsg _

def staFromPeer (eapolMsg : Lib.Memory) : Prop :=
  let eapMsg : Lib.Memory := fun place => eapolMsg (eapMsgOffset + place)
  staIsEapTypeWps eapMsg = true ∧ (eapOpcode eapMsg 0 = opWpsFragAck ∨ eapOpcode eapMsg 0 = opWpsMsg)

/-- What the station may send for such a frame: no longer frame than its threshold
allows, and after the last fragment nothing but acknowledgements. -/
def StaFrames (s : EapWpsStaState Sm) (next : EapWpsStaState Sm × Nat) : Prop :=
  sendsFragment next.2 = true →
    let frame := wpsGetFragMsgToSend next.1
    (staLink.headers ≤ frame.length ∧ frame.length ≤ staLink.headers + s.out.eapFragThreshold) ∧
      (¬ (s.out.fragmenting = true ∧ HasMore staLink (wpsGetFragMsgToSend s)) → IsFragAck staLink frame)

/-- How the station is to take such a frame. -/
structure StaSendsWell (steps : WpsSteps Sm) (s : EapWpsStaState Sm) (eapolMsg : Lib.Memory)
    (eapolLen : Nat) : Prop where
  inside : (wpsProcessApMsg steps s eapolMsg eapolLen).1.out.nextFragToSend < wpsEapDataMaxLength
  frames : StaFrames s (wpsProcessApMsg steps s eapolMsg eapolLen)
  heard : s.out.fragmenting = true → ¬ HasMore staLink (wpsGetFragMsgToSend s) →
    ∀ s', staAdmitted s eapolMsg eapolLen = some s' →
      eapOpcode (fun place => eapolMsg (eapMsgOffset + place)) 0 = opWpsMsg →
        wpsProcessApMsg steps s eapolMsg eapolLen = wpsApMsgReassemble steps
          { s' with out := { s'.out with nextFragToSend := 0, fragSize := 0 } }
            fun place => eapolMsg (eapMsgOffset + place)

def staPrompt (s : EapWpsStaState Sm) (eapolMsg : Lib.Memory) (eapolLen : Nat) : Prop :=
  let opcode := eapOpcode (fun place => eapolMsg (eapMsgOffset + place)) 0
  s.out.fragmenting = true → (staAdmitted s eapolMsg eapolLen).isSome = true →
    (opcode = opWpsFragAck → (s.out.eapFragThreshold : Int) < s.out.fragSize) ∧
    (opcode = opWpsMsg → s.out.fragSize ≠ s.out.eapFragThreshold)

inductive StaSending (msg : Bytes) (s : EapWpsStaState Sm) : Prop
  | underWay (flight : InFlight staLink s.out msg (wpsGetFragMsgToSend s))
  | done (finished : s.out.nextFragToSend = 0)

section

variable {steps : WpsSteps Sm} {s s' : EapWpsStaState Sm} {msg : Bytes} {eapolMsg : Lib.Memory}
  {eapolLen : Nat}

theorem StaSending.inside (sending : StaSending msg s) : s.out.nextFragToSend < wpsEapDataMaxLength := by
  cases sending with
  | underWay flight => exact flight.inside
  | done finished =>
    rw [finished]
    exact Nat.zero_lt_succ 2047

theorem StaSending.untouched (sending : StaSending msg s) (same : s'.out = s.out) : StaSending msg s' := by
  have frame : wpsGetFragMsgToSend s' = wpsGetFragMsgToSend s := by
    unfold wpsGetFragMsgToSend
    rw [same]
  cases sending with
  | underWay flight =>
    refine .underWay ?_
    rw [same, frame]
    exact flight
  | done finished =>
    refine .done ?_
    rw [same]
    exact finished

theorem StaAcksOnly.frames {next : EapWpsStaState Sm × Nat} (acks : StaAcksOnly s' next) :
    StaFrames s next := by
  intro sends
  have ack := acks.acks sends
  have length := ack.1
  exact ⟨by omega, fun _ => ack⟩

theorem wpsApMsgFragAck_flight (flight : InFlight staLink s.out msg (wpsGetFragMsgToSend s))
    (same : s'.out = s.out) (left : (s.out.eapFragThreshold : Int) < s.out.fragSize) :
    StaSending msg (wpsApMsgFragAck s').1 ∧ StaFrames s (wpsApMsgFragAck s') := by
  obtain ⟨next, frame⟩ := wpsEapNextFrag_eq { s' with out := s'.out.advance staLink }
  have state : (wpsApMsgFragAck s').1.out = ((s.out.advance staLink).sendNextFrag staLink s'.eapId).1 := by
    rw [wpsApMsgFragAck, next, same]
  have last : wpsGetFragMsgToSend (wpsApMsgFragAck s').1 =
      ((s.out.advance staLink).sendNextFrag staLink s'.eapId).2 := by
    rw [← same]
    exact frame
  obtain ⟨after, threshold, low, high⟩ := flight.next left s'.eapId
  constructor
  · refine .underWay ?_
    rw [state, last]
    exact after
  · intro _
    dsimp only
    rw [last]
    refine ⟨⟨low, high⟩, fun last_ => ?_⟩
    have some_ : 0 < staLink.size := Nat.zero_lt_succ 3
    exact absurd ⟨flight.fragmenting some_, flight.more.mpr left⟩ last_

/-- One of the peer's frames is taken as it should be, and leaves a sender in order. -/
theorem staSending_step (sending : StaSending msg s) (peer : staFromPeer eapolMsg)
    (prompt : staPrompt s eapolMsg eapolLen) :
    StaSendsWell steps s eapolMsg eapolLen ∧
      StaSending msg (wpsProcessApMsg steps s eapolMsg eapolLen).1 := by
  have processed := wpsProcessApMsg_cases steps s eapolMsg eapolLen
  cases admitted : staAdmitted s eapolMsg eapolLen with
  | none =>
    rw [admitted] at processed
    obtain ⟨_, out, silent⟩ := processed
    have after := sending.untouched out
    refine ⟨⟨after.inside, ?_, ?_⟩, after⟩
    · intro sends
      rw [silent] at sends
      cases sends
    · intro _ _ s' other
      rw [admitted] at other
      cases other
  | some s' =>
    rw [admitted] at processed
    obtain ⟨⟨_, same⟩, taken⟩ := processed
    cases sending with
    | underWay flight =>
      have some_ : 0 < staLink.size := Nat.zero_lt_succ 3
      have asked := prompt (flight.fragmenting some_) (by rw [admitted]; rfl)
      have flight' : InFlight staLink s'.out msg (wpsGetFragMsgToSend s) := by
        rw [same]
        exact flight
      rw [← same] at asked
      rcases flight'.taken some_ peer asked taken with ⟨left, taken | taken⟩ | taken
      · obtain ⟨after, frames⟩ := wpsApMsgFragAck_flight flight same (same ▸ left)
        refine ⟨⟨taken ▸ after.inside, taken ▸ frames, ?_⟩, taken ▸ after⟩
        intro _ last
        exact absurd (flight'.more.mpr left) last
      · have after := (StaSending.underWay flight).untouched same
        refine ⟨⟨taken ▸ after.inside, ?_, ?_⟩, taken ▸ after⟩
        · rw [taken]
          intro sends
          cases sends
        · intro _ last
          exact absurd (flight'.more.mpr left) last
      · have acks := wpsApMsgReassemble_acks steps
          { s' with out := { s'.out with nextFragToSend := 0, fragSize := 0 } }
            fun place => eapolMsg (eapMsgOffset + place)
        have after : StaSending msg _ := .done acks.position
        refine ⟨⟨taken ▸ after.inside, taken ▸ acks.frames, ?_⟩, taken ▸ after⟩
        intro _ _ other given _
        cases admitted.symm.trans given
        exact taken
    | done finished =>
      have idle : ¬ (staIsEapTypeWps (fun place => eapolMsg (eapMsgOffset + place)) = true ∧
          s'.out.fragmenting = true) := by
        rintro ⟨_, fragmenting⟩
        exact of_decide_eq_true fragmenting (by rw [same]; exact finished)
      rw [wpsApMsgFragments, if_neg idle] at taken
      have acks := wpsApMsgReassemble_acks steps s' fun place => eapolMsg (eapMsgOffset + place)
      have next := acks.position
      rw [same] at next
      have after : StaSending msg _ := .done (next.trans finished)
      refine ⟨⟨taken ▸ after.inside, taken ▸ acks.frames, ?_⟩, taken ▸ after⟩
      intro fragmenting
      exact absurd finished (of_decide_eq_true fragmenting)

end

instance (eapol : Lib.Memory) : Decidable (apFromPeer eapol) := by
  unfold apFromPeer
  infer_instance

instance (s : EapWpsApState Mc) (eapol : Lib.Memory) : Decidable (apPrompt s eapol) := by
  unfold apPrompt
  infer_instance

instance (eapolMsg : Lib.Memory) : Decidable (staFromPeer eapolMsg) := by
  unfold staFromPeer
  infer_instance

instance (s : EapWpsStaState Sm) (eapolMsg : Lib.Memory) (eapolLen : Nat) :
    Decidable (staPrompt s eapolMsg eapolLen) := by
  unfold staPrompt
  infer_instance

/-- The access point under its peer: a frame as it came, and where its EAPOL header is. -/
def apPeerMachine (api : WpsApi Mc) : Machine (EapWpsApState Mc) (Lib.Memory × Lib.Memory) Nat where
  step s frame := apEapSmProcessStaMsg api s frame.1 (some frame.2)
  admits _ frame := apFromPeer frame.2

instance (api : WpsApi Mc) (s : EapWpsApState Mc) (frame : Lib.Memory × Lib.Memory) :
    Decidable ((apPeerMachine api).admits s frame) := inferInstanceAs (Decidable (apFromPeer frame.2))

/-- The station under its peer: a frame and its length. -/
def staPeerMachine (steps : WpsSteps Sm) : Machine (EapWpsStaState Sm) (Lib.Memory × Nat) Nat where
  step s frame := wpsProcessApMsg steps s frame.1 frame.2
  admits _ frame := staFromPeer frame.1

instance (steps : WpsSteps Sm) (s : EapWpsStaState Sm) (frame : Lib.Memory × Nat) :
    Decidable ((staPeerMachine steps).admits s frame) := inferInstanceAs (Decidable (staFromPeer frame.1))

/-- A message that is sent in fragments. -/
structure LongMessage (link : LinkHeader) (out : Outgoing) (msg : Bytes) : Prop where
  threshold : 100 ≤ out.eapFragThreshold ∧ out.eapFragThreshold ≤ eapWpsFragMax
  placed : Placed link out msg
  long : out.eapFragThreshold < msg.length
  known : (messageOpcode (out.byteAt (.inside (link.size + 16)) wpsMsgtypeOffset)).isSome = true

theorem LongMessage.flight {link : LinkHeader} {out : Outgoing} {msg : Bytes} (code id : UInt8)
    (message : LongMessage link out msg) :
    ∃ sent msgType frame, out.sendMsg link (.inside (link.size + 16)) msg.length code id =
      (sent, some (msgType, frame)) ∧ InFlight link sent msg frame := by
  have low := message.threshold.1
  have offset : eapWpsLfOffset = 2 := rfl
  obtain ⟨sent, frame, sending, begun, first⟩ := sendMsg_long code id message.placed message.known
    message.long (by omega)
  have threshold := begun.threshold
  have same : sent.eapFragThreshold = out.eapFragThreshold := by omega
  refine ⟨sent, _, frame, sending, ⟨by omega, ?_, Or.inl ⟨by rw [same]; exact begun, ?_⟩⟩⟩
  · have long := message.long
    have left := begun.left
    rw [HasMore, first.flags]
    refine ⟨fun _ => by omega, fun _ => by decide⟩
  · rw [same]
    exact message.long

/-- In every run of acknowledgements and messages that are prompt, at either end, the
fragments of a message are sent as they should be. -/
theorem fragments_sent_well {Mc Sm : Type} (api : WpsApi Mc) (ap : EapWpsApState Mc) (steps : WpsSteps Sm)
    (sta : EapWpsStaState Sm) (msg : Bytes) :
    (LongMessage ap.link ap.out msg →
      let start := (apEapSmSendMsg ap (.inside (ap.link.size + 16)) msg.length).1
      ∀ frames, ((apPeerMachine api).restrict fun s frame => apPrompt s frame.2).Admitted start frames →
        ∀ past frame rest, frames = past ++ frame :: rest →
          ApSendsWell api ((apPeerMachine api).run start past) frame.1 frame.2) ∧
    (LongMessage staLink sta.out msg → 3 ≤ sta.state.number → sta.msgLen = msg.length →
      let start := (wpsGetEapolMsgToSend sta).1
      ∀ frames, ((staPeerMachine steps).restrict fun s frame =>
          staPrompt s frame.1 frame.2).Admitted start frames →
        ∀ past frame rest, frames = past ++ frame :: rest →
          StaSendsWell steps ((staPeerMachine steps).run start past) frame.1 frame.2) := by
  constructor
  · intro message start frames prompt
    obtain ⟨out, msgType, frame, sending, flight⟩ := message.flight eapCodeRequest ap.eapId
    obtain ⟨_, sent⟩ := apEapSmSendMsg_sent sending
    have initial : ApSending msg start := by
      refine .underWay ?_
      rw [sent.out, sent.frame, sent.station.link]
      exact flight
    obtain ⟨admitted, met⟩ := ((apPeerMachine api).admitted_restrict_iff start frames).mp prompt
    exact (apPeerMachine api).run_each (fun s frame => ApSendsWell api s frame.1 frame.2)
      (fun s frame sending peer prompt => apSending_step sending peer prompt) initial admitted met
  · intro message building length start frames prompt
    have fetched : sta.msgLen.toNat = msg.length := by omega
    have same : LongMessage staLink (wpsGetMsgToSend sta).1.out msg :=
      ⟨message.threshold, ⟨message.placed.carried, message.placed.intact, message.placed.room⟩,
        message.long, message.known⟩
    obtain ⟨out, msgType, frame, sending, flight⟩ := same.flight eapCodeResponse sta.eapId
    obtain ⟨packet, state⟩ := wpsGetEapolMsgToSend_sent sta building
    rw [fetched, sending] at packet state
    obtain ⟨reached, last⟩ := state (by simp)
    have initial : StaSending msg start := by
      refine .underWay ?_
      have lastFrame : wpsGetFragMsgToSend start = frame := Option.some.inj (last.symm.trans packet)
      rw [reached, lastFrame]
      exact flight
    obtain ⟨admitted, met⟩ := ((staPeerMachine steps).admitted_restrict_iff start frames).mp prompt
    exact (staPeerMachine steps).run_each (fun s frame => StaSendsWell steps s frame.1 frame.2)
      (fun s frame sending peer prompt => staSending_step sending peer prompt) initial admitted met

/-- A packet of the station's without data, by its opcode. -/
def apPeerFrame (opcode : UInt8) : Lib.Memory × Lib.Memory :=
  let frame := ofBytes (List.replicate 6 0 ++ List.replicate 6 2 ++ [0x88, 0x8e, 1, 0, 0, 14] ++
    eapHdr eapCodeResponse 7 sizeofWpsEapHdr opcode 0)
  (frame, frame)

/-- A packet of the access point's without data. -/
def staPeerFrame (id opcode : UInt8) : Lib.Memory × Nat :=
  (ofBytes ([1, 0, 0, 14] ++ eapHdr eapCodeRequest id sizeofWpsEapHdr opcode 0), 18)

def silentApi : WpsApi Unit where
  getMode _ := .apRegistrar
  processMsg _ _ := ⟨wpsCont, [], 0, ()⟩

def silentSteps : WpsSteps Unit where
  regSmStep _ _ _ := ⟨wpsCont, [], 0, ()⟩
  enrSmStep _ _ _ := ⟨wpsCont, [], 0, ()⟩
  regSmPlain _ _ _ := rfl
  enrSmPlain _ _ _ := rfl

theorem m1Of_known {link : LinkHeader} {out : Outgoing} (placed : Placed link out (m1Of padding)) :
    (messageOpcode (out.byteAt (.inside (link.size + 16)) wpsMsgtypeOffset)).isSome = true := by
  have length := length_m1Of padding
  have type : out.byteAt (.inside (link.size + 16)) wpsMsgtypeOffset = 4 :=
    (placed.carried 9 (by omega)).trans rfl
  rw [type]
  decide

theorem apWith_long (long : 90 < padding) (room : padding ≤ 2004) :
    LongMessage (apWith (m1Of padding)).link (apWith (m1Of padding)).out (m1Of padding) := by
  have length := length_m1Of padding
  have ready := apWith_ready (m1Of padding) (by omega) (by omega)
  have threshold : (apWith (m1Of padding)).out.eapFragThreshold = 100 := rfl
  exact ⟨ready.threshold, ready.placed, by omega, m1Of_known ready.placed⟩

theorem staWith_long (long : 90 < padding) (room : padding ≤ 2004) :
    LongMessage staLink (staWith (m1Of padding)).out (m1Of padding) := by
  have length := length_m1Of padding
  have ready := staWith_ready (m1Of padding) (by omega) (by omega)
  have threshold : (staWith (m1Of padding)).out.eapFragThreshold = 100 := rfl
  exact ⟨ready.threshold, ready.placed, by omega, m1Of_known ready.placed⟩

/-- 250 bytes are three fragments. -/
theorem fragments_sent_well_three :
    let ack := apPeerFrame opWpsFragAck
    let message := apPeerFrame opWpsMsg
    let ap := (apEapSmSendMsg (apWith (m1Of 240)) (.inside 34) (m1Of 240).length).1
    let sta := (wpsGetEapolMsgToSend (staWith (m1Of 240))).1
    ApSendsWell silentApi ((apPeerMachine silentApi).run ap [ack, ack]) message.1 message.2 ∧
      StaSendsWell silentSteps ((staPeerMachine silentSteps).run sta
        [staPeerFrame 1 opWpsFragAck, staPeerFrame 2 opWpsFragAck]) (staPeerFrame 3 opWpsMsg).1 18 := by
  intro ack message ap sta
  have sends := fragments_sent_well silentApi (apWith (m1Of 240)) silentSteps (staWith (m1Of 240)) (m1Of 240)
  have fromAp := sends.1 (apWith_long (by decide) (by decide)) [ack, ack, message] (by decide +kernel)
    [ack, ack] message .nil rfl
  have fromSta := sends.2 (staWith_long (by decide) (by decide)) (by decide) rfl
    [staPeerFrame 1 opWpsFragAck, staPeerFrame 2 opWpsFragAck, staPeerFrame 3 opWpsMsg]
    (by decide +kernel) [staPeerFrame 1 opWpsFragAck, staPeerFrame 2 opWpsFragAck]
    (staPeerFrame 3 opWpsMsg) .nil rfl
  exact ⟨fromAp, fromSta⟩

/-- Of 198 bytes the last fragment has the threshold's 100: the answer is not heard. -/
theorem last_fragment_unheard :
    let start := (apEapSmSendMsg (apWith (m1Of 188)) (.inside 34) 198).1
    let sent := (apPeerMachine silentApi).run start [apPeerFrame opWpsFragAck]
    let message := apPeerFrame opWpsMsg
    ¬ HasMore sent.link sent.lastFrame ∧ (apAdmitted sent message.2).isSome = true ∧
      ¬ ApSendsWell silentApi sent message.1 message.2 := by
  intro start sent message
  have last : ¬ HasMore sent.link sent.lastFrame := by
    unfold HasMore
    decide +kernel
  have admitted : (apAdmitted sent message.2).isSome = true := by decide +kernel
  have fragmenting : sent.out.fragmenting = true := by decide +kernel
  have unheard : (apEapSmProcessStaMsg silentApi sent message.1 (some message.2)).1.out.nextFragToSend = 132 := by
    decide +kernel
  refine ⟨last, admitted, fun well => ?_⟩
  obtain ⟨s', given⟩ := Option.isSome_iff_exists.mp admitted
  have heard := well.heard fragmenting last s' given (by decide +kernel)
  rw [heard, (apEapSmReassemble_acks silentApi _ _).next] at unheard
  cases unheard

end BcmDhd.Wps
