import BcmDhd.Wps.EapMachines

namespace BcmDhd.Wps

open BcmDhd.Lib BcmDhd.Lib.Bytes

section

variable {exceeds : Int → Int → Int → Bool} {r : Reassembly} {eapMsg : Lib.Memory}

/-- Where the data of the next packet goes. -/
def Reassembly.place (r : Reassembly) : Int :=
  if r.totalReceived = 0 then sizeofWpsEapHdr else r.totalReceived

/-- The length of a packet's data by its header. -/
def Reassembly.dataLen (r : Reassembly) (eapMsg : Lib.Memory) : Int :=
  eapLength eapMsg 0 - sizeofWpsEapHdr - r.lfBytes

/-- The code's own checks let the packet pass. -/
def Reassembly.Passes (exceeds : Int → Int → Int → Bool) (r : Reassembly) (eapMsg : Lib.Memory) : Prop :=
  ¬ (r.totalBytesToRecv = 0 ∧ eapFlags eapMsg 0 &&& eapWpsFlagsLf = 0) ∧
    exceeds (r.announce eapMsg).totalBytesToRecv (r.totalReceived - sizeofWpsEapHdr) (wpsLen eapMsg) = false

instance : Decidable (r.Passes exceeds eapMsg) := inferInstanceAs (Decidable (_ ∧ _))

/-- A packet that passes has a length field that covers its header, fits behind what
is there, and if it is the last completes the announced total. -/
def Reassembly.Fits (exceeds : Int → Int → Int → Bool) (r : Reassembly) (eapMsg : Lib.Memory) : Prop :=
  r.Passes exceeds eapMsg → 0 ≤ r.dataLen eapMsg ∧ r.place + r.dataLen eapMsg ≤ wpsEapDataMaxLength ∧
    (eapFlags eapMsg 0 &&& eapWpsFlagsMf = 0 →
      r.place + r.dataLen eapMsg = sizeofWpsEapHdr + (r.announce eapMsg).totalBytesToRecv)

structure WithinBounds (r : Reassembly) : Prop where
  received : 0 ≤ r.totalReceived ∧ r.totalReceived ≤ wpsEapDataMaxLength
  intact : r.fragsReceived.intact = true

/-- The packet is taken in, or refused, as it should be: nothing is written outside
`frags_received`, the length that is copied is the packet's, and what is complete has
as many bytes as were announced. -/
structure TakenSafely (exceeds : Int → Int → Int → Bool) (r : Reassembly) (eapMsg : Lib.Memory) : Prop where
  bounds : WithinBounds (r.receive exceeds eapMsg).1
  copied : (r.receive exceeds eapMsg).2 ≠ .refused → r.copied eapMsg = r.dataLen eapMsg
  complete : (r.receive exceeds eapMsg).2 = .whole →
    r.place + r.copied eapMsg = sizeofWpsEapHdr + (r.announce eapMsg).totalBytesToRecv

theorem announce_received : (r.announce eapMsg).totalReceived = r.totalReceived ∧
    (r.announce eapMsg).fragsReceived = r.fragsReceived := by
  unfold Reassembly.announce
  split
  · exact ⟨rfl, rfl⟩
  · exact ⟨rfl, rfl⟩

theorem receive_refused (blocked : ¬ r.Passes exceeds eapMsg) :
    (r.receive exceeds eapMsg).2 = .refused ∧
      (r.receive exceeds eapMsg).1.totalReceived = r.totalReceived ∧
        (r.receive exceeds eapMsg).1.fragsReceived = r.fragsReceived := by
  rw [receive_eq]
  by_cases unannounced : r.totalBytesToRecv = 0 ∧ eapFlags eapMsg 0 &&& eapWpsFlagsLf = 0
  · rw [if_pos unannounced]
    exact ⟨rfl, rfl, rfl⟩
  · rw [if_neg unannounced]
    have excess : exceeds (r.announce eapMsg).totalBytesToRecv
        ((r.announce eapMsg).totalReceived - sizeofWpsEapHdr) (wpsLen eapMsg) = true := by
      rw [announce_received.1]
      by_contra within
      exact blocked ⟨unannounced, Bool.eq_false_of_not_eq_true within⟩
    unfold Reassembly.processFrag
    rw [if_pos excess]
    exact ⟨rfl, announce_received⟩

/-- What is there once the data of a packet has been taken. -/
def Reassembly.taken (r : Reassembly) (eapMsg : Lib.Memory) : Reassembly :=
  (r.announce eapMsg).takeData eapMsg

theorem receive_passes (passes : r.Passes exceeds eapMsg) :
    r.receive exceeds eapMsg =
      if eapFlags eapMsg 0 &&& eapWpsFlagsMf ≠ 0 then (r.taken eapMsg, .more)
      else ({ (r.taken eapMsg).adjustHdr with totalReceived := 0, totalBytesToRecv := 0 }, .whole) := by
  obtain ⟨announced, within⟩ := passes
  rw [receive_eq, if_neg announced]
  unfold Reassembly.processFrag
  rw [announce_received.1, within]
  by_cases more : eapFlags eapMsg 0 &&& eapWpsFlagsMf ≠ 0
  · rw [if_neg Bool.false_ne_true, if_pos more, if_pos more]
    exact if_pos more
  · rw [if_neg Bool.false_ne_true, if_neg more, if_neg more]
    exact if_neg more

theorem copyFrag_intact {buffer : FixedBuffer wpsEapDataMaxLength} {place count : Int} {start : Nat}
    (counted : 0 ≤ count) : (copyFrag buffer place eapMsg start count).intact = true ↔
      buffer.intact = true ∧ 0 ≤ place ∧ place + count ≤ wpsEapDataMaxLength := by
  unfold copyFrag
  split
  · rename_i room
    rw [FixedBuffer.write_intact, length_load]
    constructor
    · rintro ⟨intact, _⟩
      exact ⟨intact, room⟩
    · rintro ⟨intact, _⟩
      exact ⟨intact, by omega⟩
  · rename_i outside
    constructor
    · intro impossible
      cases impossible
    · rintro ⟨_, room⟩
      exact absurd room outside

theorem takeHdr_announced : ((r.announce eapMsg).takeHdr eapMsg).totalReceived = r.place ∧
    (((r.announce eapMsg).takeHdr eapMsg).fragsReceived.intact = true ↔ r.fragsReceived.intact = true) := by
  unfold Reassembly.takeHdr Reassembly.place
  rw [announce_received.1]
  split
  · refine ⟨rfl, ?_⟩
    rw [FixedBuffer.write_intact, announce_received.2, length_load]
    exact and_iff_left (by decide)
  · rw [announce_received.1, announce_received.2]
    exact ⟨rfl, Iff.rfl⟩

theorem copied_announce : (r.announce eapMsg).copied eapMsg = r.copied eapMsg := by
  unfold Reassembly.copied Reassembly.lfBytes
  rw [announce_received.1]

theorem copied_nonneg : 0 ≤ r.copied eapMsg := by
  unfold Reassembly.copied toUint32
  omega

theorem taken_received : (r.taken eapMsg).totalReceived = toInt32 (r.place + r.copied eapMsg) := by
  unfold Reassembly.taken Reassembly.takeData
  dsimp only
  rw [takeHdr_announced.1, copied_announce]

theorem taken_intact : (r.taken eapMsg).fragsReceived.intact = true ↔ r.fragsReceived.intact = true ∧
    0 ≤ r.place ∧ r.place + r.copied eapMsg ≤ wpsEapDataMaxLength := by
  unfold Reassembly.taken Reassembly.takeData
  dsimp only
  rw [takeHdr_announced.1, copied_announce, copyFrag_intact copied_nonneg, takeHdr_announced.2]

theorem copied_eq_dataLen_iff : r.copied eapMsg = r.dataLen eapMsg ↔ 0 ≤ r.dataLen eapMsg := by
  have high : (eapMsg (0 + 2)).toNat < 256 := UInt8.toNat_lt _
  have low : (eapMsg (0 + 2 + 1)).toNat < 256 := UInt8.toNat_lt _
  unfold Reassembly.copied Reassembly.dataLen wpsLen eapLength wpsNtohs toUint32
  omega

/-- What is taken in safely had to fit. -/
theorem TakenSafely.fits (safe : TakenSafely exceeds r eapMsg) : r.Fits exceeds eapMsg := by
  intro passes
  have received := receive_passes passes
  have bounds := safe.bounds
  by_cases more : eapFlags eapMsg 0 &&& eapWpsFlagsMf ≠ 0
  · rw [if_pos more] at received
    have accepted : (r.receive exceeds eapMsg).2 ≠ .refused := by
      rw [received]
      intro refused
      cases refused
    have copied := safe.copied accepted
    rw [received] at bounds
    have room := (taken_intact.mp bounds.intact).2.2
    rw [copied] at room
    exact ⟨copied_eq_dataLen_iff.mp copied, room, fun last => absurd last more⟩
  · rw [if_neg more] at received
    have whole : (r.receive exceeds eapMsg).2 = .whole := by rw [received]
    have accepted : (r.receive exceeds eapMsg).2 ≠ .refused := by
      rw [whole]
      decide
    have copied := safe.copied accepted
    have complete := safe.complete whole
    rw [received] at bounds
    have intact : (r.taken eapMsg).adjustHdr.fragsReceived.intact = true := bounds.intact
    rw [Reassembly.adjustHdr, FixedBuffer.write_intact] at intact
    have room := (taken_intact.mp intact.1).2.2
    rw [copied] at room complete
    exact ⟨copied_eq_dataLen_iff.mp copied, room, fun _ => complete⟩

theorem place_nonneg (bounded : WithinBounds r) : 0 ≤ r.place := by
  have received := bounded.received.1
  unfold Reassembly.place
  split
  · exact Int.natCast_nonneg _
  · exact received

/-- What fits is taken in safely. -/
theorem takenSafely_of_fits (bounded : WithinBounds r) (fits : r.Fits exceeds eapMsg) :
    TakenSafely exceeds r eapMsg := by
  have limit : wpsEapDataMaxLength = 2048 := rfl
  have low := place_nonneg bounded
  by_cases passes : r.Passes exceeds eapMsg
  · obtain ⟨covered, room, completes⟩ := fits passes
    have copied := copied_eq_dataLen_iff.mpr covered
    have received := receive_passes passes
    have intact : (r.taken eapMsg).fragsReceived.intact = true :=
      taken_intact.mpr ⟨bounded.intact, low, by rw [copied]; exact room⟩
    by_cases more : eapFlags eapMsg 0 &&& eapWpsFlagsMf ≠ 0
    · rw [if_pos more] at received
      refine ⟨?_, fun _ => copied, ?_⟩
      · rw [received]
        refine ⟨?_, intact⟩
        rw [taken_received, copied, toInt32]
        omega
      · rw [received]
        intro impossible
        cases impossible
    · rw [if_neg more] at received
      refine ⟨?_, fun _ => copied, fun _ => ?_⟩
      · rw [received]
        refine ⟨⟨Int.le_refl 0, Int.natCast_nonneg _⟩, ?_⟩
        change (r.taken eapMsg).adjustHdr.fragsReceived.intact = true
        rw [Reassembly.adjustHdr, FixedBuffer.write_intact, length_wpsHtons]
        exact ⟨intact, by omega⟩
      · rw [copied]
        exact completes (not_not.mp more)
  · obtain ⟨refused, received, array⟩ := receive_refused passes
    refine ⟨⟨by rw [received]; exact bounded.received, by rw [array]; exact bounded.intact⟩, ?_, ?_⟩
    · intro accepted
      exact absurd refused accepted
    · intro whole
      rw [refused] at whole
      cases whole

end

variable {Mc Sm : Type}

/-- At this call the access point's reassembly stays in bounds, and takes in safely
what it is given. -/
structure ApSafe (api : WpsApi Mc) (s : EapWpsApState Mc) (call : ApCall) : Prop where
  bounds : WithinBounds ((apMachine api).next s call).reassembly
  taken : ∀ msg eapol eapMsg, call = .staMsg msg eapol → apGathers s eapol = some eapMsg →
    TakenSafely apExceeds s.reassembly eapMsg

def ApFits (s : EapWpsApState Mc) (call : ApCall) : Prop :=
  ∀ msg eapol eapMsg, call = .staMsg msg eapol → apGathers s eapol = some eapMsg →
    s.reassembly.Fits apExceeds eapMsg

structure StaSafe (steps : WpsSteps Sm) (s : EapWpsStaState Sm) (call : StaCall) : Prop where
  bounds : WithinBounds ((staMachine steps).next s call).reassembly
  taken : ∀ eapolMsg eapolLen eapMsg, call = .apMsg eapolMsg eapolLen →
    staGathers s eapolMsg eapolLen = some eapMsg → TakenSafely staExceeds s.reassembly eapMsg

def StaFits (s : EapWpsStaState Sm) (call : StaCall) : Prop :=
  ∀ eapolMsg eapolLen eapMsg, call = .apMsg eapolMsg eapolLen →
    staGathers s eapolMsg eapolLen = some eapMsg → s.reassembly.Fits staExceeds eapMsg

theorem apSafe_iff (api : WpsApi Mc) {s : EapWpsApState Mc} (bounded : WithinBounds s.reassembly)
    (call : ApCall) : ApSafe api s call ↔ ApFits s call := by
  constructor
  · intro safe msg eapol eapMsg frame given
    exact (safe.taken msg eapol eapMsg frame given).fits
  · intro fits
    have taken : ∀ msg eapol eapMsg, call = .staMsg msg eapol → apGathers s eapol = some eapMsg →
        TakenSafely apExceeds s.reassembly eapMsg := fun msg eapol eapMsg frame given =>
      takenSafely_of_fits bounded (fits msg eapol eapMsg frame given)
    refine ⟨?_, taken⟩
    by_cases frame : ∃ msg eapol, call = .staMsg msg eapol
    · obtain ⟨msg, eapol, rfl⟩ := frame
      have reassembly := apEapSmProcessStaMsg_reassembly api s msg eapol
      change WithinBounds (apEapSmProcessStaMsg api s msg eapol).1.reassembly
      rw [reassembly]
      cases given : apGathers s eapol with
      | none => exact bounded
      | some eapMsg => exact (taken msg eapol eapMsg rfl given).bounds
    · rw [apMachine_reassembly api s fun msg eapol same => frame ⟨msg, eapol, same⟩]
      exact bounded

theorem staSafe_iff (steps : WpsSteps Sm) {s : EapWpsStaState Sm} (bounded : WithinBounds s.reassembly)
    (call : StaCall) : StaSafe steps s call ↔ StaFits s call := by
  constructor
  · intro safe eapolMsg eapolLen eapMsg frame given
    exact (safe.taken eapolMsg eapolLen eapMsg frame given).fits
  · intro fits
    have taken : ∀ eapolMsg eapolLen eapMsg, call = .apMsg eapolMsg eapolLen →
        staGathers s eapolMsg eapolLen = some eapMsg → TakenSafely staExceeds s.reassembly eapMsg :=
      fun eapolMsg eapolLen eapMsg frame given =>
        takenSafely_of_fits bounded (fits eapolMsg eapolLen eapMsg frame given)
    refine ⟨?_, taken⟩
    by_cases frame : ∃ eapolMsg eapolLen, call = .apMsg eapolMsg eapolLen
    · obtain ⟨eapolMsg, eapolLen, rfl⟩ := frame
      have reassembly := wpsProcessApMsg_reassembly steps s eapolMsg eapolLen
      change WithinBounds (wpsProcessApMsg steps s eapolMsg eapolLen).1.reassembly
      rw [reassembly]
      cases given : staGathers s eapolMsg eapolLen with
      | none => exact bounded
      | some eapMsg => exact (taken eapolMsg eapolLen eapMsg rfl given).bounds
    · rw [staMachine_reassembly steps s fun eapolMsg eapolLen same => frame ⟨eapolMsg, eapolLen, same⟩]
      exact bounded

/-- Reassembly is safe all along a run, at both ends, exactly if every packet that
passes its checks fits. -/
theorem reassembly_safe_iff {Mc Sm : Type} (api : WpsApi Mc) (mcDev : Mc) (macSta : EtherAddr)
    (apThreshold : Int) (apCalls : List ApCall) (steps : WpsSteps Sm) (smHdle : Sm) (eMode : ScMode)
    (staThreshold : Nat) (staCalls : List StaCall) :
    (let reached := (apMachine api).run (apEapSmInit mcDev macSta apThreshold);
      (∀ past call rest, apCalls = past ++ call :: rest → ApSafe api (reached past) call) ↔
        ∀ past call rest, apCalls = past ++ call :: rest → ApFits (reached past) call) ∧
    (let reached := (staMachine steps).run (wpsEapStaInit smHdle eMode staThreshold);
      (∀ past call rest, staCalls = past ++ call :: rest → StaSafe steps (reached past) call) ↔
        ∀ past call rest, staCalls = past ++ call :: rest → StaFits (reached past) call) := by
  constructor
  · exact (apMachine api).each_iff (fun s => WithinBounds s.reassembly)
      (fun s call bounded _ => apSafe_iff api bounded call) (fun _ _ _ _ safe => safe.bounds)
      ⟨⟨Int.le_refl 0, Int.natCast_nonneg _⟩, rfl⟩ ((apMachine api).admitted_of_forall fun _ _ => trivial)
  · exact (staMachine steps).each_iff (fun s => WithinBounds s.reassembly)
      (fun s call bounded _ => staSafe_iff steps bounded call) (fun _ _ _ _ safe => safe.bounds)
      ⟨⟨Int.le_refl 0, Int.natCast_nonneg _⟩, rfl⟩ ((staMachine steps).admitted_of_forall fun _ _ => trivial)

/-- A frame from a station to the access point: one fragment, by its length field, its
flags and the total it announces. -/
def fragmentFrame (staMac : EtherAddr) (length : Nat) (flags : UInt8) (announced : Nat) : Lib.Memory :=
  ofBytes (List.replicate 6 0 ++ staMac.toList ++ [0x88, 0x8e, 1, 0, 0, 100] ++
    eapHdr eapCodeResponse 7 length opWpsMsg flags ++ wpsHtons announced)

theorem ApSafe.intact {api : WpsApi Mc} {s : EapWpsApState Mc} {msg : Lib.Memory}
    {eapol : Option Lib.Memory} (safe : ApSafe api s (.staMsg msg eapol)) :
    (apEapSmProcessStaMsg api s msg eapol).1.reassembly.fragsReceived.intact = true := safe.bounds.intact

/-- A first fragment of 3000 bytes that announces 4000 leaves the array. -/
theorem reassembly_overrun :
    let mac : EtherAddr := Vector.replicate 6 2
    let api : WpsApi Unit := { getMode := fun _ => .apRegistrar, processMsg := fun _ _ => ⟨wpsCont, [], 0, ()⟩ }
    let frame := fragmentFrame mac 3000 (eapWpsFlagsMf ||| eapWpsFlagsLf) 4000
    ¬ ApSafe api (apEapSmInit () mac 1398) (.staMsg frame (some frame)) := by
  intro mac api frame safe
  have outside : ((apEapSmProcessStaMsg api (apEapSmInit () mac 1398) frame (some frame)).1.reassembly
      ).fragsReceived.intact = false := by decide +kernel
  exact Bool.false_ne_true (outside.symm.trans safe.intact)

end BcmDhd.Wps
