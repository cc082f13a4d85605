import BcmDhd.Msgbuf.Ioctl

namespace BcmDhd.Msgbuf

open BcmDhd.Lib

variable {ioctResp : IoctlCompResp}

/-- `ioctl_state` is zero. -/
def IoctlProt.Clear (prot : IoctlProt) : Prop :=
  prot.ackPending = false ∧ prot.respPending = false

theorem dhdFillupIoctReqst_busy_iff (prot : IoctlProt) (space : Bool) :
    (dhdFillupIoctReqst prot space).2 = .busy ↔ ¬ prot.Clear := by
  rw [dhdFillupIoctReqst, IoctlProt.Clear]
  cases prot.ackPending <;> cases prot.respPending <;> cases space <;> simp

theorem dhdProtIoctcmpltProcess_gate {prot : IoctlProt}
    {pkt : Nat → BitVec 8} (buffer : ioctResp.pkt = some pkt) (noAck : prot.ackPending = false)
    (due : prot.respPending = true) :
    (dhdProtIoctcmpltProcess prot ioctResp).ackPending = false ∧
      (dhdProtIoctcmpltProcess prot ioctResp).respPending = true := by
  simp only [dhdProtIoctcmpltProcess, noAck, due, buffer]
  by_cases mismatch : ioctResp.transId = prot.ioctlTransId
  · simp [mismatch]
  · simp [mismatch]

section Timeout

/-- Whether the last request found room on the control ring and no message of the
dongle has been handled since. -/
def noteUnanswered (unanswered : Bool) : IoctlCall → Bool
  | .issue space => space
  | .ack => false
  | .cmplt _ _ => false
  | .wait _ _ _ _ => unanswered

/-- Nothing is pending between two IOCTLs, and the acknowledgement is pending
exactly while the dongle has said nothing. -/
structure PendingInvariant (tracked : IoctlSystem × Bool) : Prop where
  ack : tracked.1.prot.ackPending = tracked.2
  resp : tracked.2 = true → tracked.1.prot.respPending = true
  idle : tracked.1.waiting = none → tracked.1.prot.Clear

/-- The wait that ends leaves `ioctl_state` zero. -/
def WaitClears (tracked : IoctlSystem × Bool) : IoctlCall → Prop
  | .wait len buf reset trap =>
    (ioctlMachine.next tracked.1 (.wait len buf reset trap)).prot.Clear
  | _ => True

/-- The dongle has said something about the request whose wait ends. -/
def WaitAnswered (tracked : IoctlSystem × Bool) : IoctlCall → Prop
  | .wait _ _ _ _ => tracked.2 = false
  | _ => True

namespace PendingInvariant

variable {tracked : IoctlSystem × Bool}

theorem waitClears_iff (valid : PendingInvariant tracked) (call : IoctlCall) :
    WaitClears tracked call ↔ WaitAnswered tracked call := by
  cases call with
  | wait len buf reset trap =>
    rw [WaitAnswered, ← valid.ack]
    exact ⟨fun clear => clear.1, fun noAck => ⟨noAck, rfl⟩⟩
  | _ => exact Iff.rfl

theorem issue (valid : PendingInvariant tracked) (nobody : tracked.1.waiting = none) (space : Bool) :
    PendingInvariant (ioctlMachine.next tracked.1 (.issue space), space) := by
  obtain ⟨noAck, noResp⟩ := valid.idle nobody
  cases space with
  | true =>
    have sent : dhdFillupIoctReqst tracked.1.prot true =
        ({ tracked.1.prot with
            ackPending := true
            respPending := true
            ioctlTransId := tracked.1.prot.ioctlTransId + 1 }, .sent) := by
      simp [dhdFillupIoctReqst, noAck, noResp]
    simp only [ioctlMachine, Machine.next, sent]
    exact ⟨rfl, fun _ => rfl, fun nobody => absurd nobody (Option.some_ne_none _)⟩
  | false =>
    have unsent : dhdFillupIoctReqst tracked.1.prot false =
        ({ tracked.1.prot with ackPending := false, respPending := false }, .noSpace) := by
      simp [dhdFillupIoctReqst, noAck, noResp]
    simp only [ioctlMachine, Machine.next, unsent]
    exact ⟨rfl, fun noted => absurd noted Bool.false_ne_true, fun _ => ⟨rfl, rfl⟩⟩

theorem ack_step (valid : PendingInvariant tracked) :
    PendingInvariant (ioctlMachine.next tracked.1 .ack, false) := by
  simp only [ioctlMachine, Machine.next, dhdProtIoctackProcess]
  split
  · refine ⟨rfl, fun noted => absurd noted Bool.false_ne_true, fun nobody => ?_⟩
    exact ⟨rfl, (valid.idle nobody).2⟩
  · rename_i ignored
    have noAck : tracked.1.prot.ackPending = false := by
      by_contra pending
      have pending : tracked.1.prot.ackPending = true := by simpa using pending
      exact ignored ⟨pending, valid.resp (valid.ack ▸ pending)⟩
    exact ⟨noAck, fun noted => absurd noted Bool.false_ne_true, valid.idle⟩

theorem cmplt (valid : PendingInvariant tracked) (request : Nat) (ioctResp : IoctlCompResp) :
    PendingInvariant (ioctlMachine.next tracked.1 (.cmplt request ioctResp), false) := by
  simp only [ioctlMachine, Machine.next]
  rcases dhdProtIoctcmpltProcess_cases tracked.1.prot ioctResp with
    ⟨-, dropped⟩ | ⟨pkt, buffer, noAck, due, -⟩
  · rw [dropped]
    exact ⟨rfl, fun noted => absurd noted Bool.false_ne_true, fun _ => ⟨rfl, rfl⟩⟩
  · refine ⟨?_, fun noted => absurd noted Bool.false_ne_true, fun nobody => ?_⟩
    · exact (dhdProtIoctcmpltProcess_gate buffer noAck due).1
    · have clear := (valid.idle nobody).2
      rw [due] at clear
      cases clear

theorem wait (valid : PendingInvariant tracked) {len : Nat} {buf reset trap : Bool}
    (clears : WaitClears tracked (.wait len buf reset trap)) :
    PendingInvariant (ioctlMachine.next tracked.1 (.wait len buf reset trap), tracked.2) := by
  have answered : tracked.2 = false := (valid.waitClears_iff _).mp clears
  refine ⟨valid.ack, ?_, fun _ => clears⟩
  rw [answered]
  exact nofun

end PendingInvariant

theorem pendingInvariant_preserved :
    ((ioctlMachine.track noteUnanswered).restrict WaitClears).Preserves PendingInvariant := by
  intro tracked call valid admitted
  obtain ⟨accepted, clears⟩ := admitted
  cases call with
  | issue space => exact valid.issue accepted space
  | ack => exact valid.ack_step
  | cmplt request ioctResp => exact valid.cmplt request ioctResp
  | wait len buf reset trap => exact valid.wait clears

theorem pendingInvariant_initial : PendingInvariant (ioctlIdle, false) :=
  ⟨rfl, nofun, fun _ => ⟨rfl, rfl⟩⟩

/-- Every wait of a run leaves `ioctl_state` zero, and the next request is not
refused as busy, exactly when between every request that went out and the end of
its wait an acknowledgement or a completion was handled. -/
theorem ioctl_wait_clears_state_iff {calls : List IoctlCall}
    (admitted : ioctlMachine.Admitted ioctlIdle calls) :
    (∀ past len buf reset trap rest, calls = past ++ .wait len buf reset trap :: rest →
      let left := (ioctlMachine.run ioctlIdle (past ++ [.wait len buf reset trap])).prot
      left.Clear ∧ ∀ space, (dhdFillupIoctReqst left space).2 ≠ .busy) ↔
    ∀ past len buf reset trap rest, calls = past ++ .wait len buf reset trap :: rest →
      past.foldl noteUnanswered false = false := by
  have same : ((ioctlMachine.track noteUnanswered).restrict WaitClears).Admitted (ioctlIdle, false) calls ↔
      ((ioctlMachine.track noteUnanswered).restrict WaitAnswered).Admitted (ioctlIdle, false) calls :=
    (ioctlMachine.track noteUnanswered).admitted_restrict_congr
      (fun _ call valid _ => valid.waitClears_iff call) pendingInvariant_preserved
      pendingInvariant_initial
  rw [Machine.admitted_restrict_iff, Machine.admitted_restrict_iff, Machine.track_admitted] at same
  simp only [admitted, true_and, Machine.track_run] at same
  constructor
  · intro clears past len buf reset trap rest split
    refine same.mp (fun past call rest split => ?_) past (.wait len buf reset trap) rest split
    cases call with
    | wait len buf reset trap =>
      have clear := (clears past len buf reset trap rest split).1
      rw [Machine.run_append] at clear
      exact clear
    | _ => trivial
  · intro answered past len buf reset trap rest split
    have clear : WaitClears (ioctlMachine.run ioctlIdle past, past.foldl noteUnanswered false)
        (.wait len buf reset trap) := by
      refine same.mpr (fun past call rest split => ?_) past (.wait len buf reset trap) rest split
      cases call with
      | wait len buf reset trap => exact answered past len buf reset trap rest split
      | _ => trivial
    rw [Machine.run_append]
    refine ⟨clear, fun space busy => ?_⟩
    exact (dhdFillupIoctReqst_busy_iff _ space).mp busy clear

/-- A request that is acknowledged and then times out. -/
theorem ioctl_wait_clears_state_after_ack :
    let calls : List IoctlCall := [.issue true, .ack, .wait 8 true false false]
    ioctlMachine.Admitted ioctlIdle calls ∧
      ioctlMachine.answer (ioctlMachine.run ioctlIdle [.issue true, .ack])
        (.wait 8 true false false) = .timedOut ∧
      (ioctlMachine.run ioctlIdle calls).prot.Clear := by
  intro calls
  have admitted : ioctlMachine.Admitted ioctlIdle calls :=
    ⟨rfl, trivial, Option.some_ne_none _, trivial⟩
  have answered : ∀ past len buf reset trap rest,
      calls = past ++ .wait len buf reset trap :: rest → past.foldl noteUnanswered false = false := by
    intro past len buf reset trap rest split
    rcases past with _ | ⟨first, _ | ⟨second, _ | ⟨third, more⟩⟩⟩
    · simp [calls] at split
    · simp [calls] at split
    · obtain ⟨rfl, rfl, -⟩ : first = .issue true ∧ second = .ack ∧ rest = [] := by
        simp [calls] at split
        simp [split]
      rfl
    · simp [calls] at split
  have clears := (ioctl_wait_clears_state_iff admitted).mpr answered [.issue true, .ack] 8 true false
    false [] rfl
  exact ⟨admitted, by decide, clears.1⟩

/-- The dongle says nothing before the wait of the first request times out: the
second request is refused as busy, although nobody waits for the first. -/
theorem ioctl_busy_after_silent_timeout :
    let calls : List IoctlCall := [.issue true, .wait 8 true false false]
    ioctlMachine.Admitted ioctlIdle (calls ++ [.issue true]) ∧
      ioctlMachine.answer (ioctlMachine.run ioctlIdle [.issue true])
        (.wait 8 true false false) = .timedOut ∧
      (ioctlMachine.run ioctlIdle calls).waiting = none ∧
      ¬ (ioctlMachine.run ioctlIdle calls).prot.Clear ∧
      ioctlMachine.answer (ioctlMachine.run ioctlIdle calls) (.issue true) = .busy := by
  intro calls
  refine ⟨⟨rfl, Option.some_ne_none _, rfl, trivial⟩, by decide, rfl, ?_, by decide⟩
  intro clear
  cases clear.1

end Timeout

section Late

/-- What can arrive while the request with index `own` is pending, before its own
completion. -/
def BeforeOwn (own : Nat) : IoctlCall → Prop
  | .ack => True
  | .cmplt request _ => request < own
  | _ => False

def noteAck (acked : Bool) : IoctlCall → Bool
  | .ack => true
  | _ => acked

/-- The two bits of `ioctl_state`. -/
def IoctlProt.ioctlState (prot : IoctlProt) : Bool × Bool := (prot.ackPending, prot.respPending)

/-- The request with index `own` is pending, and acknowledged or not. -/
structure OwnPending (own : Nat) (tracked : IoctlSystem × Bool) : Prop where
  state : tracked.1.prot.ioctlState = (!tracked.2, true)
  transId : tracked.1.requests[own]? = some tracked.1.prot.ioctlTransId

/-- A completion leaves `ioctl_state` as it is. -/
def KeepsState (tracked : IoctlSystem × Bool) : IoctlCall → Prop
  | .cmplt request ioctResp =>
    (ioctlMachine.next tracked.1 (.cmplt request ioctResp)).prot.ioctlState =
      tracked.1.prot.ioctlState
  | _ => True

/-- A completion comes after the acknowledgement, with a response buffer. -/
def AckedWithBuffer (tracked : IoctlSystem × Bool) : IoctlCall → Prop
  | .cmplt _ ioctResp => tracked.2 = true ∧ ioctResp.pkt ≠ none
  | _ => True

/-- The IOCTL system with `own` pending, and whether an acknowledgement was handled. -/
def pendingMachine (own : Nat) : Machine (IoctlSystem × Bool) IoctlCall IoctlAnswer :=
  (ioctlMachine.restrict fun _ call => BeforeOwn own call).track noteAck

theorem dhdProtIoctcmpltProcess_transId (prot : IoctlProt) (ioctResp : IoctlCompResp) :
    (dhdProtIoctcmpltProcess prot ioctResp).ioctlTransId = prot.ioctlTransId := by
  rcases dhdProtIoctcmpltProcess_cases prot ioctResp with
    ⟨-, dropped⟩ | ⟨pkt, -, -, -, ⟨-, noted⟩ | ⟨-, same, -⟩⟩
  · rw [dropped]
  · rw [noted]
  · exact same

namespace OwnPending

variable {own : Nat} {tracked : IoctlSystem × Bool}

theorem keepsState_iff (valid : OwnPending own tracked) (call : IoctlCall) :
    KeepsState tracked call ↔ AckedWithBuffer tracked call := by
  cases call with
  | cmplt request ioctResp =>
    obtain ⟨ackBit, respBit⟩ := Prod.mk.inj valid.state
    simp only [KeepsState, AckedWithBuffer, valid.state]
    simp only [ioctlMachine, Machine.next, IoctlProt.ioctlState]
    rcases dhdProtIoctcmpltProcess_cases tracked.1.prot ioctResp with
      ⟨gate, dropped⟩ | ⟨pkt, buffer, noAck, due, -⟩
    · rw [dropped]
      constructor
      · intro kept
        cases (Prod.mk.inj kept).2
      · rintro ⟨acked, buffer⟩
        rw [ackBit, respBit, acked] at gate
        simp [buffer] at gate
    · obtain ⟨keptAck, keptResp⟩ := dhdProtIoctcmpltProcess_gate buffer noAck due
      rw [keptAck, keptResp, ← ackBit, noAck, buffer]
      rw [noAck] at ackBit
      simpa using ackBit.symm
  | _ => exact Iff.rfl

theorem ack (valid : OwnPending own tracked) :
    OwnPending own (ioctlMachine.next tracked.1 .ack, true) := by
  obtain ⟨ackBit, respBit⟩ := Prod.mk.inj valid.state
  simp only [ioctlMachine, Machine.next, dhdProtIoctackProcess]
  split
  · refine ⟨?_, valid.transId⟩
    rw [IoctlProt.ioctlState, respBit]
    rfl
  · rename_i ignored
    refine ⟨?_, valid.transId⟩
    have acked : tracked.1.prot.ackPending = false := by
      by_contra pending
      exact ignored ⟨by simpa using pending, respBit⟩
    rw [IoctlProt.ioctlState, acked, respBit]
    rfl

theorem cmplt (valid : OwnPending own tracked) {request : Nat}
    (kept : KeepsState tracked (.cmplt request ioctResp)) :
    OwnPending own (ioctlMachine.next tracked.1 (.cmplt request ioctResp), tracked.2) := by
  refine ⟨kept.trans valid.state, ?_⟩
  have transId := dhdProtIoctcmpltProcess_transId tracked.1.prot ioctResp
  simp only [ioctlMachine, Machine.next, transId]
  exact valid.transId

theorem preserved (own : Nat) :
    ((pendingMachine own).restrict KeepsState).Preserves (OwnPending own) := by
  intro tracked call valid admitted
  obtain ⟨⟨-, pending⟩, kept⟩ := admitted
  cases call with
  | ack => exact valid.ack
  | cmplt request ioctResp => exact valid.cmplt kept
  | _ => cases pending

theorem sent {system : IoctlSystem} {space : Bool}
    (answer : ioctlMachine.answer system (.issue space) = .sent) :
    OwnPending system.requests.length (ioctlMachine.next system (.issue space), false) := by
  rcases dhdFillupIoctReqst_cases system.prot space with ⟨result, unsent, refused⟩ | sent
  · have same : ioctlMachine.answer system (.issue space) = result := by
      simp only [ioctlMachine, Machine.answer, refused]
    exact absurd (same.symm.trans answer) unsent
  · simp only [ioctlMachine, Machine.next, sent]
    exact ⟨rfl, by simp⟩

theorem ack_accepted (valid : OwnPending own tracked) :
    (ioctlMachine.next tracked.1 .ack).prot.ioctlState = (false, true) := valid.ack.state

theorem cmplt_delivered {system : IoctlSystem} (valid : OwnPending own (system, true))
    {pkt : Nat → BitVec 8} (buffer : ioctResp.pkt = some pkt)
    (answers : system.requests[own]? = some ioctResp.transId) (len : Nat) (buf : Bool) :
    ioctlMachine.answer (ioctlMachine.next system (.cmplt own ioctResp)) (.wait len buf false false) =
      .response ioctResp.status.toInt
        (if buf then (List.range (min ioctResp.respLen.toNat len)).map pkt else []) := by
  obtain ⟨noAck, due⟩ := Prod.mk.inj valid.state
  have noAck : system.prot.ackPending = false := noAck
  have due : system.prot.respPending = true := due
  have matched : ioctResp.transId = system.prot.ioctlTransId :=
    Option.some.inj (answers.symm.trans valid.transId)
  rcases dhdProtIoctcmpltProcess_cases system.prot ioctResp with
    ⟨gate, -⟩ | ⟨other, found, -, -, ⟨mismatch, -⟩ | ⟨-, -, stored⟩⟩
  · simp [noAck, due, buffer] at gate
  · exact absurd matched mismatch
  · obtain rfl : pkt = other := Option.some.inj (buffer.symm.trans found)
    have received : (dhdProtIoctcmpltProcess system.prot ioctResp).ioctlReceived = true := by
      simp [dhdProtIoctcmpltProcess, noAck, due, buffer, matched]
    exact stored.waitResult received len buf

end OwnPending

theorem foldl_noteAck (calls : List IoctlCall) (acked : Bool) :
    calls.foldl noteAck acked = true ↔ acked = true ∨ .ack ∈ calls := by
  induction calls generalizing acked with
  | nil => simp
  | cons call rest ih =>
    rw [List.foldl_cons, ih]
    cases call <;> simp [noteAck]

section Promises

variable {own : Nat} {system : IoctlSystem} {middle : List IoctlCall}

theorem pendingMachine_run (own : Nat) (system : IoctlSystem) (calls : List IoctlCall) :
    (pendingMachine own).run (system, false) calls =
      (ioctlMachine.run system calls, calls.foldl noteAck false) := by
  rw [pendingMachine, Machine.track_run, Machine.restrict_run]

theorem admitted_keepsState_iff (accepted : (pendingMachine own).Admitted (system, false) middle) :
    ((pendingMachine own).restrict KeepsState).Admitted (system, false) middle ↔
      ∀ before request ioctResp rest, middle = before ++ .cmplt request ioctResp :: rest →
        (ioctlMachine.run system (before ++ [.cmplt request ioctResp])).prot.ioctlState =
          (ioctlMachine.run system before).prot.ioctlState := by
  simp only [Machine.admitted_restrict_iff, accepted, true_and, pendingMachine_run,
    Machine.run_append]
  constructor
  · intro kept before request ioctResp rest split
    exact kept before (.cmplt request ioctResp) rest split
  · intro kept before call rest split
    cases call with
    | cmplt request ioctResp => exact kept before request ioctResp rest split
    | _ => trivial

theorem admitted_ackedWithBuffer_iff
    (accepted : (pendingMachine own).Admitted (system, false) middle) :
    ((pendingMachine own).restrict AckedWithBuffer).Admitted (system, false) middle ↔
      ∀ before request ioctResp rest, middle = before ++ .cmplt request ioctResp :: rest →
        .ack ∈ before ∧ ioctResp.pkt ≠ none := by
  simp only [Machine.admitted_restrict_iff, accepted, true_and, pendingMachine_run]
  have acked : ∀ calls : List IoctlCall, calls.foldl noteAck false = true ↔ IoctlCall.ack ∈ calls := by
    intro calls
    simp [foldl_noteAck]
  constructor
  · intro undisturbed before request ioctResp rest split
    obtain ⟨noted, buffer⟩ := undisturbed before (.cmplt request ioctResp) rest split
    exact ⟨(acked before).mp noted, buffer⟩
  · intro undisturbed before call rest split
    cases call with
    | cmplt request ioctResp =>
      obtain ⟨member, buffer⟩ := undisturbed before request ioctResp rest split
      exact ⟨(acked before).mpr member, buffer⟩
    | _ => trivial

end Promises

/-- While a request that was sent is pending, completions of earlier requests
leave `ioctl_state` alone exactly when they come after the acknowledgement and
with a response buffer; then the request's own acknowledgement is accepted and
its own completion is what the wait returns. -/
theorem late_completions_keep_state_iff {past middle : List IoctlCall} {space : Bool}
    (admitted : ioctlMachine.Admitted ioctlIdle (past ++ .issue space :: middle))
    (sent : ioctlMachine.answer (ioctlMachine.run ioctlIdle past) (.issue space) = .sent)
    (pending : ∀ call ∈ middle,
      BeforeOwn (ioctlMachine.run ioctlIdle past).requests.length call) :
    let own := (ioctlMachine.run ioctlIdle past).requests.length
    let after := fun calls => ioctlMachine.run ioctlIdle (past ++ .issue space :: calls)
    let undisturbed := ∀ before request ioctResp rest,
      middle = before ++ .cmplt request ioctResp :: rest →
      .ack ∈ before ∧ ioctResp.pkt ≠ none
    ((∀ before request ioctResp rest, middle = before ++ .cmplt request ioctResp :: rest →
      (after (before ++ [.cmplt request ioctResp])).prot.ioctlState =
        (after before).prot.ioctlState) ↔ undisturbed) ∧
    (undisturbed →
      (after (middle ++ [.ack])).prot.ioctlState = (false, true) ∧
      (.ack ∈ middle → ∀ ioctResp pkt len buf, ioctResp.pkt = some pkt →
        (after middle).requests[own]? = some ioctResp.transId →
        ioctlMachine.answer (after (middle ++ [.cmplt own ioctResp])) (.wait len buf false false) =
          .response ioctResp.status.toInt
            (if buf then (List.range (min ioctResp.respLen.toNat len)).map pkt else []))) := by
  intro own after undisturbed
  obtain ⟨-, -, remaining⟩ := (ioctlMachine.admitted_append _ _ _).mp admitted
  have after_eq : ∀ calls, after calls = ioctlMachine.run
      (ioctlMachine.next (ioctlMachine.run ioctlIdle past) (.issue space)) calls := by
    intro calls
    exact ioctlMachine.run_append _ _ _
  generalize issued : ioctlMachine.next (ioctlMachine.run ioctlIdle past) (.issue space) = system
    at remaining after_eq
  have initial : OwnPending own (system, false) := issued ▸ OwnPending.sent sent
  have accepted : (pendingMachine own).Admitted (system, false) middle := by
    rw [pendingMachine, Machine.track_admitted, Machine.admitted_restrict_iff]
    refine ⟨remaining, fun before call rest split => pending call ?_⟩
    rw [split]
    simp
  have same : ((pendingMachine own).restrict KeepsState).Admitted (system, false) middle ↔
      ((pendingMachine own).restrict AckedWithBuffer).Admitted (system, false) middle :=
    (pendingMachine own).admitted_restrict_congr (fun _ call valid _ => valid.keepsState_iff call)
      (OwnPending.preserved own) initial
  rw [admitted_keepsState_iff accepted] at same
  simp only [after_eq]
  refine ⟨same.trans (admitted_ackedWithBuffer_iff accepted), fun harmless => ?_⟩
  have kept : ((pendingMachine own).restrict KeepsState).Admitted (system, false) middle := by
    rw [admitted_keepsState_iff accepted, same, admitted_ackedWithBuffer_iff accepted]
    exact harmless
  have reached := Machine.run_invariant _ (OwnPending.preserved own) initial kept
  rw [Machine.restrict_run, pendingMachine_run] at reached
  simp only [Machine.run_append]
  refine ⟨reached.ack_accepted, fun acked ioctResp pkt len buf buffer answers => ?_⟩
  have noted : middle.foldl noteAck false = true := by
    rw [foldl_noteAck]
    exact Or.inr acked
  rw [noted] at reached
  exact reached.cmplt_delivered buffer answers len buf

/-- A request that is acknowledged and times out. -/
def firstRequest : List IoctlCall := [.issue true, .ack, .wait 8 true false false]

theorem late_completion_after_ack_keeps_state :
    let middle : List IoctlCall := [.ack, .cmplt 0 lateCompletion]
    ioctlMachine.Admitted ioctlIdle (firstRequest ++ .issue true :: middle) ∧
      ioctlMachine.answer
        (ioctlMachine.run ioctlIdle (firstRequest ++ .issue true :: (middle ++ [.cmplt 1 ownCompletion])))
        (.wait 8 true false false) = .response 0 [9, 9] := by
  intro middle
  have admitted : ioctlMachine.Admitted ioctlIdle (firstRequest ++ .issue true :: middle) :=
    ⟨rfl, trivial, Option.some_ne_none _, rfl, trivial, rfl, trivial⟩
  have pending : ∀ call ∈ middle,
      BeforeOwn (ioctlMachine.run ioctlIdle firstRequest).requests.length call := by
    intro call member
    rcases List.mem_pair.mp member with rfl | rfl
    · trivial
    · exact Nat.zero_lt_one
  have undisturbed : ∀ before request ioctResp rest,
      middle = before ++ .cmplt request ioctResp :: rest → .ack ∈ before ∧ ioctResp.pkt ≠ none := by
    intro before request ioctResp rest split
    rcases before with _ | ⟨first, _ | ⟨second, more⟩⟩
    · simp [middle] at split
    · obtain ⟨rfl, rfl⟩ : first = .ack ∧ ioctResp = lateCompletion := by
        simp [middle] at split
        simp [split]
      exact ⟨by simp, Option.some_ne_none _⟩
    · simp [middle] at split
  obtain ⟨-, delivered⟩ := (late_completions_keep_state_iff admitted (by decide) pending).2 undisturbed
  exact ⟨admitted, delivered (by simp [middle]) ownCompletion (fun _ => 9) 8 true rfl rfl⟩

/-- The completion of the first request comes before the acknowledgement of the
second: it resets `ioctl_state`, the acknowledgement and the completion of the
second request are dropped, and its caller times out. -/
theorem late_completion_resets_state :
    let issued := firstRequest ++ [.issue true]
    let late := issued ++ [.cmplt 0 lateCompletion]
    let calls := late ++ [.ack, .cmplt 1 ownCompletion]
    ioctlMachine.Admitted ioctlIdle calls ∧
      (ioctlMachine.run ioctlIdle issued).waiting = some (some 1) ∧
      (ioctlMachine.run ioctlIdle issued).prot.ioctlState = (true, true) ∧
      (ioctlMachine.run ioctlIdle late).prot.ioctlState = (false, false) ∧
      (ioctlMachine.run ioctlIdle calls).prot.ioctlReceived = false ∧
      ioctlMachine.answer (ioctlMachine.run ioctlIdle calls) (.wait 8 true false false) = .timedOut := by
  intro issued late calls
  exact ⟨⟨rfl, trivial, Option.some_ne_none _, rfl, rfl, trivial, rfl, trivial⟩, rfl, by decide,
    by decide, by decide, by decide⟩

end Late

end BcmDhd.Msgbuf
