import BcmDhd.Wps.FragmentSender

namespace BcmDhd.Wps

open BcmDhd.Lib

variable {Mc : Type}

/-- Nothing is under way, as in the initial state. -/
structure Fresh (s : EapWpsApState Mc) : Prop where
  totalBytesToRecv : s.reassembly.totalBytesToRecv = 0
  totalReceived : s.reassembly.totalReceived = 0
  fragSize : s.out.fragSize = 0
  nextFragToSend : s.out.nextFragToSend = 0

/-- A message goes out in fragments, or one comes in. -/
def UnderWay (s : EapWpsApState Mc) : Prop :=
  s.out.fragmenting = true ∨ s.reassembly.totalBytesToRecv ≠ 0 ∨ s.reassembly.totalReceived ≠ 0

instance (s : EapWpsApState Mc) : Decidable (UnderWay s) := inferInstanceAs (Decidable (_ ∨ _))

/-- What both directions have under way is left as it was. -/
structure Kept (s s' : EapWpsApState Mc) : Prop where
  reassembly : s'.reassembly = s.reassembly
  next : s'.out.nextFragToSend = s.out.nextFragToSend
  size : s'.out.fragSize = s.out.fragSize

theorem Untouched.kept {s s' : EapWpsApState Mc} (same : Untouched s s') : Kept s s' :=
  ⟨same.reassembly, by rw [same.out], by rw [same.out]⟩

theorem Kept.trans {s s' s'' : EapWpsApState Mc} (first : Kept s s') (second : Kept s' s'') : Kept s s'' :=
  ⟨second.reassembly.trans first.reassembly, second.next.trans first.next, second.size.trans first.size⟩

/-- The pointer and the size tell the same: both are reset together. -/
def Sized (s : EapWpsApState Mc) : Prop := s.out.nextFragToSend = 0 → s.out.fragSize = 0

theorem Kept.sized {s s' : EapWpsApState Mc} (kept : Kept s s') (sized : Sized s) : Sized s' := by
  intro start
  rw [kept.next] at start
  rw [kept.size]
  exact sized start

theorem fresh_iff {s : EapWpsApState Mc} (sized : Sized s) : Fresh s ↔ ¬ UnderWay s := by
  constructor
  · rintro fresh (sending | total | received)
    · exact of_decide_eq_true sending fresh.nextFragToSend
    · exact total fresh.totalBytesToRecv
    · exact received fresh.totalReceived
  · intro idle
    have start : s.out.nextFragToSend = 0 := by
      by_contra sending
      exact idle (Or.inl (decide_eq_true sending))
    have total : s.reassembly.totalBytesToRecv = 0 := by
      by_contra announced
      exact idle (Or.inr (Or.inl announced))
    have received : s.reassembly.totalReceived = 0 := by
      by_contra some_
      exact idle (Or.inr (Or.inr some_))
    exact ⟨total, received, sized start, start⟩

theorem Kept.fresh_iff {s s' : EapWpsApState Mc} (kept : Kept s s') : Fresh s' ↔ Fresh s := by
  constructor
  · rintro ⟨total, received, size, next⟩
    rw [kept.reassembly] at total received
    rw [kept.size] at size
    rw [kept.next] at next
    exact ⟨total, received, size, next⟩
  · rintro ⟨total, received, size, next⟩
    refine ⟨?_, ?_, kept.size.trans size, kept.next.trans next⟩
    · rw [kept.reassembly]
      exact total
    · rw [kept.reassembly]
      exact received

theorem apEapSmFailure_kept (s : EapWpsApState Mc) : Kept s (apEapSmFailure s) := by
  have cleaned := (cleanUpSta_kept (apEapSmSendFailure { s with state := .eapFailured })).kept
  exact ⟨cleaned.reassembly, cleaned.next, cleaned.size⟩

section

variable (api : WpsApi Mc) (s : EapWpsApState Mc) (eapMsg : Lib.Memory)
include api s eapMsg

theorem apEapSmHandle_kept : Kept s (apEapSmHandle api s eapMsg).1 := by
  have acks := apEapSmHandle_acks api s eapMsg
  exact ⟨apEapSmHandle_reassembly api s eapMsg, acks.next, acks.size⟩

theorem apEapSmHandle_station : (apEapSmHandle api s eapMsg).1.staMac = s.staMac := by
  unfold apEapSmHandle
  cases s.state with
  | init => rfl
  | eapStartSend | processingProtocol =>
    unfold apEapSmProcessProtocol
    dsimp only
    split
    · rfl
    · rfl
  | _ => rfl

theorem apEapSmReassemble_station : (apEapSmReassemble api s eapMsg).1.staMac = s.staMac := by
  have gathered := (apEapSmGather_receive s eapMsg).station.1
  unfold apEapSmReassemble
  split
  · dsimp only
    split
    · exact gathered
    · rw [apEapSmHandle_station]
      exact gathered
  · exact apEapSmHandle_station api s eapMsg

theorem apEapSmFragments_station : (apEapSmFragments api s eapMsg).1.staMac = s.staMac := by
  unfold apEapSmFragments
  split
  · split
    · rfl
    · split
      · split
        · rw [apEapSmReassemble_station]
        · rfl
      · exact apEapSmReassemble_station api s eapMsg
  · exact apEapSmReassemble_station api s eapMsg

end

theorem apEapSmFragments_other (api : WpsApi Mc) {s : EapWpsApState Mc} {eapMsg : Lib.Memory}
    (other : ¬ apIsEapTypeWps eapMsg = true) : Kept s (apEapSmFragments api s eapMsg).1 := by
  unfold apEapSmFragments apEapSmReassemble
  rw [if_neg (fun wps => other wps.1), if_neg (fun wps => other wps.1)]
  exact apEapSmHandle_kept api s eapMsg

theorem identityAgain_kept {api : WpsApi Mc} {s : EapWpsApState Mc} {msg : Lib.Memory}
    {result : EapWpsApState Mc × Nat} (again : apEapSmIdentityAgain api s msg = some result) :
    Kept s result.1 := by
  unfold apEapSmIdentityAgain at again
  split at again
  · cases again
    exact ⟨rfl, rfl, rfl⟩
  · cases again
    exact ⟨rfl, rfl, rfl⟩
  · split at again
    · cases again
      exact ⟨rfl, rfl, rfl⟩
    · cases again
  · cases again
    exact ⟨rfl, rfl, rfl⟩
  · split at again
    · cases again
      exact ⟨rfl, rfl, rfl⟩
    · cases again
  · cases again

theorem processStaMsg_other_kept (api : WpsApi Mc) (s : EapWpsApState Mc) (msg eapol : Lib.Memory)
    (other : ¬ apIsEapTypeWps (fun place => eapol (eapolHeaderLen + place)) = true) :
    Kept s (apEapSmProcessStaMsg api s msg (some eapol)).1 := by
  have validated := (staValidate_kept s eapol).kept
  have same : Kept s { (apEapSmStaValidate s eapol).1 with resentCount := 0 } :=
    ⟨validated.reassembly, validated.next, validated.size⟩
  have taken : ∀ v : EapWpsApState Mc, Kept v (apEapSmTakeMsg api v eapol).1 := by
    intro v
    have cases_ := apEapSmTakeMsg_cases api v eapol
    split at cases_
    · rw [cases_]
      exact (staRetrans_kept v eapol).kept.trans (apEapSmFragments_other api other)
    · exact cases_.kept
  unfold apEapSmProcessStaMsg
  dsimp only
  split
  · exact validated
  · split
    · rename_i result again
      split at again
      · exact same.trans (identityAgain_kept again)
      · cases again
    · exact same.trans (taken _)

/-- A frame is admitted only from the station there is, if there is one. -/
theorem apAdmitted_station {s s' : EapWpsApState Mc} {eapol : Lib.Memory}
    (active : s.staActive = true) (admitted : apAdmitted s eapol = some s') : s'.staMac = s.staMac := by
  have validated : (apEapSmStaValidate s eapol).1.staMac = s.staMac := by
    have found : (lookupSta s (etherAddrAt eapol 6) .searchEnter).1.staMac = s.staMac := by
      unfold lookupSta
      rw [active]
      split
      · rfl
      · rfl
    unfold apEapSmStaValidate
    dsimp only
    split
    · rfl
    · split
      · rfl
      · split
        · rfl
        · split
          · exact found
          · exact found
  have going : ∀ v : EapWpsApState Mc, (apEapSmStaRetrans v eapol).2 = wpsCont →
      (apEapSmStaRetrans v eapol).1.staMac = v.staMac := by
    intro v
    unfold apEapSmStaRetrans
    dsimp only
    split
    · intro _
      rfl
    · split
      · split
        · intro _
          rfl
        · split
          · intro impossible
            cases impossible
          · intro _
            rfl
      · split
        · intro impossible
          cases impossible
        · split
          · intro _
            rfl
          · split
            · intro impossible
              cases impossible
            · intro impossible
              cases impossible
      · split
        · intro impossible
          cases impossible
        · split
          · intro _
            rfl
          · split
            · intro impossible
              cases impossible
            · intro impossible
              cases impossible
      · intro _
        rfl
  unfold apAdmitted at admitted
  dsimp only at admitted
  split at admitted
  · rename_i checks
    cases admitted
    rw [going _ checks.2]
    exact validated
  · cases admitted

theorem processStaMsg_kept_or_active (api : WpsApi Mc) {s : EapWpsApState Mc} (active : s.staActive = true)
    (msg : Lib.Memory) (eapol : Option Lib.Memory) :
    Kept s (apEapSmProcessStaMsg api s msg eapol).1 ∨
      (apEapSmProcessStaMsg api s msg eapol).1.staActive = true := by
  cases eapol with
  | none => exact Or.inl ⟨rfl, rfl, rfl⟩
  | some eapol =>
    by_cases wps : apIsEapTypeWps (fun place => eapol (eapolHeaderLen + place)) = true
    · have processed := apEapSmProcessStaMsg_wps api s msg eapol wps
      cases admitted : apAdmitted s eapol with
      | none =>
        rw [admitted] at processed
        exact Or.inl processed.kept
      | some s' =>
        rw [admitted] at processed
        right
        rw [processed.2, EapWpsApState.staActive, apEapSmFragments_station,
          apAdmitted_station active admitted]
        exact active
    · exact Or.inl (processStaMsg_other_kept api s msg eapol wps)

theorem createPkt_progress (link : LinkHeader) (out : Outgoing) (data : Source) (dataLen : Nat)
    (code id : UInt8) :
    (out.createPkt link data dataLen code id).1.nextFragToSend = out.nextFragToSend ∧
      (out.createPkt link data dataLen code id).1.fragSize = out.fragSize := by
  unfold Outgoing.createPkt
  dsimp only
  split
  · exact ⟨rfl, rfl⟩
  · exact ⟨rfl, rfl⟩

theorem sendMsg_kept_or_active {s : EapWpsApState Mc} (active : s.staActive = true) (data : Source)
    (dataLen : Nat) :
    Kept s (apEapSmSendMsg s data dataLen).1 ∨ (apEapSmSendMsg s data dataLen).1.staActive = true := by
  obtain ⟨next, size⟩ := createPkt_progress s.link s.out data dataLen eapCodeRequest s.eapId
  unfold apEapSmSendMsg apEapSmCreatePkt
  dsimp only
  generalize s.out.createPkt s.link data dataLen eapCodeRequest s.eapId = created at next size ⊢
  obtain ⟨out, first⟩ := created
  cases first with
  | none =>
    left
    have failed := apEapSmFailure_kept { s with out := out }
    exact ⟨failed.reassembly, failed.next.trans next, failed.size.trans size⟩
  | some msgType =>
    right
    exact active

theorem lookupSta_active {s : EapWpsApState Mc} (active : s.staActive = true) (staMac : EtherAddr)
    (mode : StaLookupMode) : (lookupSta s staMac mode).1 = s := by
  unfold lookupSta
  rw [active]
  split
  · rfl
  · rw [if_neg (fun enters => Bool.noConfusion enters.2)]

/-- So with every call: one that drops the station does nothing else. -/
theorem next_kept_or_active (api : WpsApi Mc) {s : EapWpsApState Mc} (active : s.staActive = true)
    (call : ApCall) :
    Kept s ((apMachine api).next s call) ∨ ((apMachine api).next s call).staActive = true := by
  cases call with
  | staMsg msg eapol => exact processStaMsg_kept_or_active api active msg eapol
  | sendMsg data dataLen => exact sendMsg_kept_or_active active data dataLen
  | sendWpsStart =>
    right
    change (apEapSmSendWpsStart s).1.staActive = true
    unfold apEapSmSendWpsStart
    rw [if_pos active]
    exact active
  | startWpsReg staMac apMac =>
    right
    change (apEapSmStartWpsReg api s staMac apMac).1.staActive = true
    unfold apEapSmStartWpsReg
    dsimp only
    rw [lookupSta_active active]
    split
    · exact active
    · exact active
  | failure => exact Or.inl (apEapSmFailure_kept s)

theorem apEapSmFragments_sized (api : WpsApi Mc) {s : EapWpsApState Mc} (sized : Sized s)
    (eapMsg : Lib.Memory) : Sized (apEapSmFragments api s eapMsg).1 := by
  have reassembled : ∀ v : EapWpsApState Mc, Sized v → Sized (apEapSmReassemble api v eapMsg).1 := by
    intro v known start
    have acks := apEapSmReassemble_acks api v eapMsg
    rw [acks.next] at start
    rw [acks.size]
    exact known start
  unfold apEapSmFragments
  split
  · rename_i sending
    split
    · intro start
      have later : (s.out.advance s.link).nextFragToSend = 0 := start
      have here := of_decide_eq_true sending.2
      unfold Outgoing.advance at later
      split at later
      · exact absurd (Nat.eq_zero_of_add_eq_zero_right later) here
      · exact absurd (Nat.eq_zero_of_add_eq_zero_right later) here
    · split
      · split
        · exact reassembled _ fun _ => rfl
        · exact sized
      · exact reassembled s sized
  · exact reassembled s sized

theorem sendMsg_sized {s : EapWpsApState Mc} (sized : Sized s) (data : Source) (dataLen : Nat) :
    Sized (apEapSmSendMsg s data dataLen).1 := by
  obtain ⟨next, size⟩ := createPkt_progress s.link s.out data dataLen eapCodeRequest s.eapId
  unfold apEapSmSendMsg apEapSmCreatePkt
  dsimp only
  generalize s.out.createPkt s.link data dataLen eapCodeRequest s.eapId = created at next size ⊢
  obtain ⟨out, first⟩ := created
  cases first with
  | none =>
    have kept := apEapSmFailure_kept { s with out := out }
    intro start
    exact (kept.size.trans size).trans (sized (next.symm.trans (kept.next.symm.trans start)))
  | some msgType =>
    dsimp only
    rw [if_pos rfl]
    unfold apEapSmSendEap Outgoing.sendEap
    dsimp only
    split
    · intro start
      exact size.trans (sized (next.symm.trans start))
    · intro start
      cases start

/-- Every call leaves pointer and size in step. -/
theorem sized_preserved (api : WpsApi Mc) : (apMachine api).Preserves Sized := by
  intro s call sized _
  cases call with
  | staMsg msg eapol =>
    change Sized (apEapSmProcessStaMsg api s msg eapol).1
    cases eapol with
    | none => exact sized
    | some eapol =>
      by_cases wps : apIsEapTypeWps (fun place => eapol (eapolHeaderLen + place)) = true
      · have processed := apEapSmProcessStaMsg_wps api s msg eapol wps
        cases admitted : apAdmitted s eapol with
        | none =>
          rw [admitted] at processed
          exact processed.kept.sized sized
        | some s' =>
          rw [admitted] at processed
          rw [processed.2]
          exact apEapSmFragments_sized api (processed.1.kept.sized sized) _
      · exact (processStaMsg_other_kept api s msg eapol wps).sized sized
  | sendMsg data dataLen => exact sendMsg_sized sized data dataLen
  | sendWpsStart =>
    change Sized (apEapSmSendWpsStart s).1
    unfold apEapSmSendWpsStart
    split
    · exact sized
    · exact sized
  | startWpsReg staMac apMac =>
    change Sized (apEapSmStartWpsReg api s staMac apMac).1
    have found := (lookupSta_kept s staMac .searchEnter).kept.sized sized
    unfold apEapSmStartWpsReg
    dsimp only
    split
    · exact found
    · exact found
  | failure => exact (apEapSmFailure_kept s).sized sized

/-- In every run that ends with the station being dropped, what is left is fresh
exactly if nothing was under way. -/
theorem dropped_fresh_iff (api : WpsApi Mc) (mcDev : Mc) (macSta : EtherAddr) (threshold : Int)
    (calls : List ApCall) (call : ApCall)
    (active : ((apMachine api).run (apEapSmInit mcDev macSta threshold) calls).staActive = true)
    (dropped : ((apMachine api).run (apEapSmInit mcDev macSta threshold) (calls ++ [call])).staActive = false) :
    Fresh ((apMachine api).run (apEapSmInit mcDev macSta threshold) (calls ++ [call])) ↔
      ¬ UnderWay ((apMachine api).run (apEapSmInit mcDev macSta threshold) calls) := by
  have initial : Sized (apEapSmInit mcDev macSta threshold) := fun _ => rfl
  have admitted : (apMachine api).Admitted (apEapSmInit mcDev macSta threshold) calls :=
    (apMachine api).admitted_of_forall fun _ _ => trivial
  have sized := (apMachine api).run_invariant (sized_preserved api) initial admitted
  have last : (apMachine api).run (apEapSmInit mcDev macSta threshold) (calls ++ [call]) =
      (apMachine api).next ((apMachine api).run (apEapSmInit mcDev macSta threshold) calls) call :=
    (apMachine api).run_append _ calls [call]
  rw [last] at dropped ⊢
  rcases next_kept_or_active api active call with kept | still
  · exact kept.fresh_iff.trans (fresh_iff sized)
  · rw [still] at dropped
    cases dropped

/-- A station is dropped after its message has come in whole, in two fragments. -/
theorem dropped_fresh_reassembled :
    let mac : EtherAddr := Vector.replicate 6 2
    let frame (flags : UInt8) : Lib.Memory :=
      ofBytes (List.replicate 6 0 ++ mac.toList ++ [0x88, 0x8e, 1, 0, 0, 100] ++
        eapHdr eapCodeResponse 7 114 opWpsMsg flags ++ wpsHtons 200)
    let first := frame (eapWpsFlagsMf ||| eapWpsFlagsLf)
    let last := frame 0
    let start := apEapSmInit () mac 1398
    let calls := [ApCall.staMsg first (some first), .staMsg last (some last)]
    ((apMachine silentApi).run start [.staMsg first (some first)]).reassembly.totalReceived = 112 ∧
      Fresh ((apMachine silentApi).run start (calls ++ [.failure])) := by
  intro mac frame first last start calls
  exact ⟨by decide +kernel, (dropped_fresh_iff silentApi () mac 1398 calls .failure (by decide +kernel)
    (by decide +kernel)).mpr (by decide +kernel)⟩

/-- A station is dropped for a fragment that exceeds the announced total, and the total
and what has been received stay behind. -/
theorem dropped_with_leftovers :
    let mac : EtherAddr := Vector.replicate 6 2
    let frame (length : Nat) (flags : UInt8) : Lib.Memory :=
      ofBytes (List.replicate 6 0 ++ mac.toList ++ [0x88, 0x8e, 1, 0, 0, 100] ++
        eapHdr eapCodeResponse 7 length opWpsMsg flags ++ wpsHtons 200)
    let first := frame 114 (eapWpsFlagsMf ||| eapWpsFlagsLf)
    let second := frame 300 0
    let begun := (apMachine silentApi).run (apEapSmInit () mac 1398) [.staMsg first (some first)]
    let refused := (apMachine silentApi).run begun [.staMsg second (some second)]
    let dropped := (apMachine silentApi).run refused [.failure]
    (apMachine silentApi).answer begun (.staMsg second (some second)) = eapFailure ∧
      refused.staActive = true ∧ dropped.staActive = false ∧ ¬ Fresh dropped := by
  intro mac frame first second begun refused dropped
  refine ⟨by decide +kernel, by decide +kernel, by decide +kernel, ?_⟩
  intro fresh
  have total : dropped.reassembly.totalBytesToRecv = 200 := by decide +kernel
  rw [fresh.totalBytesToRecv] at total
  cases total

end BcmDhd.Wps
