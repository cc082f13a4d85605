import Mathlib.Data.List.Basic
import BcmDhd.Lib.Machine

/-! IOCTL transactions over the message buffer: one request at a time, its
acknowledgement, its completion, and the wait of the caller.

`curr_ioctl_cmd`, which is only printed, and the counters of timeouts are left out. -/

namespace BcmDhd.Msgbuf

open BcmDhd.Lib

variable {pkt : Nat → BitVec 8}

/-- The part of `dhd_prot_t` that an IOCTL uses; `ackPending` and `respPending`
are the two bits of `ioctl_state`. -/
structure IoctlProt where
  ackPending : Bool
  respPending : Bool
  ioctlStatus : BitVec 16
  ioctlResplen : Nat
  ioctlReceived : Bool
  ioctlTransId : BitVec 16
  retbuf : Nat → BitVec 8

/-- `ioctl_comp_resp_msg_t`; `pkt` is the response buffer that its request id
stands for, `none` when there is no such buffer. -/
structure IoctlCompResp where
  pkt : Option (Nat → BitVec 8)
  respLen : BitVec 16
  status : BitVec 16
  transId : BitVec 16

variable {ioctResp : IoctlCompResp}

inductive IoctlAnswer
  | none
  | busy
  | noSpace
  | sent
  | ioError
  | timedOut
  | remoteIo
  | response (status : Int) (data : List (BitVec 8))
deriving DecidableEq

/-- The request goes out with the next transaction id; `space` is whether the
control ring has room for it. -/
def dhdFillupIoctReqst (prot : IoctlProt) (space : Bool) : IoctlProt × IoctlAnswer :=
  if prot.ackPending ∨ prot.respPending then (prot, .busy)
  else if space then
    ({ prot with
        ackPending := true
        respPending := true
        ioctlTransId := prot.ioctlTransId + 1 }, .sent)
  else ({ prot with ackPending := false, respPending := false }, .noSpace)

def dhdProtIoctackProcess (prot : IoctlProt) : IoctlProt :=
  if prot.ackPending ∧ prot.respPending then { prot with ackPending := false } else prot

/-- The handler where nobody else runs in between; length and status are stored before the
transaction id is compared. -/
def dhdProtIoctcmpltProcess (prot : IoctlProt) (ioctResp : IoctlCompResp) : IoctlProt :=
  if prot.ackPending ∨ ¬ prot.respPending then { prot with ackPending := false, respPending := false }
  else
    match ioctResp.pkt with
    | none => { prot with ackPending := false, respPending := false }
    | some pkt =>
      let prot :=
        { prot with ioctlResplen := ioctResp.respLen.toNat, ioctlStatus := ioctResp.status }
      if ioctResp.transId ≠ prot.ioctlTransId then prot
      else
        { prot with
          retbuf := fun offset => if offset < prot.ioctlResplen then pkt offset else prot.retbuf offset
          ioctlReceived := true }

/-- What the caller gets when the wait ends: it ends without a response only on
timeout. `buf` is whether the caller passed a buffer, of `len` bytes. -/
def ioctlWaitResult (prot : IoctlProt) (len : Nat) (buf reset trap : Bool) : IoctlAnswer :=
  if reset then .ioError
  else if prot.ioctlReceived = false then .timedOut
  else if trap then .remoteIo
  else
    let resplen := if prot.ioctlResplen > len then len else prot.ioctlResplen
    .response prot.ioctlStatus.toInt (if buf then (List.range resplen).map prot.retbuf else [])

def dhdMsgbufWaitIoctlCmplt (prot : IoctlProt) (len : Nat) (buf reset trap : Bool) :
    IoctlProt × IoctlAnswer :=
  ({ prot with respPending := false, ioctlResplen := 0, ioctlReceived := false },
    ioctlWaitResult prot len buf reset trap)

/-- The protocol state, the transaction ids of the requests that have reached the
dongle, and the caller that is waiting with the index of its request, if it was
sent at all: the callers ignore the result of `dhd_fillup_ioct_reqst`. -/
structure IoctlSystem where
  prot : IoctlProt
  requests : List (BitVec 16)
  waiting : Option (Option Nat)

/-- `dhd_msgbuf_query_ioctl` and `dhd_msgbuf_set_ioctl` are an `issue` followed by
a `wait`; the other two are messages of the dongle. -/
inductive IoctlCall
  | issue (space : Bool)
  | ack
  | cmplt (request : Nat) (ioctResp : IoctlCompResp)
  | wait (len : Nat) (buf reset trap : Bool)

/-- One caller at a time, as `dhd_os_proto_block` sees to, and the dongle
completes only requests it received, with their transaction id, as often and as
late as it likes. -/
def ioctlMachine : Machine IoctlSystem IoctlCall IoctlAnswer where
  step system
    | .issue space =>
      match dhdFillupIoctReqst system.prot space with
      | (prot, .sent) =>
        ({ prot := prot
           requests := system.requests ++ [prot.ioctlTransId]
           waiting := some (some system.requests.length) }, .sent)
      | (prot, result) => ({ system with prot := prot, waiting := some none }, result)
    | .ack => ({ system with prot := dhdProtIoctackProcess system.prot }, .none)
    | .cmplt _ ioctResp =>
      ({ system with prot := dhdProtIoctcmpltProcess system.prot ioctResp }, .none)
    | .wait len buf reset trap =>
      let (prot, result) := dhdMsgbufWaitIoctlCmplt system.prot len buf reset trap
      ({ system with prot := prot, waiting := none }, result)
  admits system
    | .issue _ => system.waiting = none
    | .ack => True
    | .cmplt request ioctResp => system.requests[request]? = some ioctResp.transId
    | .wait _ _ _ _ => system.waiting ≠ none

def ioctlIdle : IoctlSystem where
  prot :=
    { ackPending := false
      respPending := false
      ioctlStatus := 0
      ioctlResplen := 0
      ioctlReceived := false
      ioctlTransId := 0
      retbuf := fun _ => 0 }
  requests := []
  waiting := none

/-- The response of the completion is what the protocol state holds. -/
structure Stored (prot : IoctlProt) (ioctResp : IoctlCompResp) (pkt : Nat → BitVec 8) : Prop where
  buffer : ioctResp.pkt = some pkt
  matched : ioctResp.transId = prot.ioctlTransId
  status : prot.ioctlStatus = ioctResp.status
  resplen : prot.ioctlResplen = ioctResp.respLen.toNat
  data : ∀ offset < ioctResp.respLen.toNat, prot.retbuf offset = pkt offset

theorem Stored.waitResult {prot : IoctlProt}
    (stored : Stored prot ioctResp pkt) (received : prot.ioctlReceived = true) (len : Nat)
    (buf : Bool) :
    ioctlWaitResult prot len buf false false = .response ioctResp.status.toInt
      (if buf then (List.range (min ioctResp.respLen.toNat len)).map pkt else []) := by
  have copied : (if prot.ioctlResplen > len then len else prot.ioctlResplen) =
      min ioctResp.respLen.toNat len := by
    rw [stored.resplen]
    split <;> omega
  have data : (List.range (min ioctResp.respLen.toNat len)).map prot.retbuf =
      (List.range (min ioctResp.respLen.toNat len)).map pkt := by
    apply List.map_congr_left
    intro offset inside
    have below := List.mem_range.mp inside
    exact stored.data offset (by omega)
  simp only [ioctlWaitResult, received, copied, data, stored.status]
  simp

theorem dhdFillupIoctReqst_cases (prot : IoctlProt) (space : Bool) :
    (∃ result, result ≠ .sent ∧
      dhdFillupIoctReqst prot space = (prot, result)) ∨
    dhdFillupIoctReqst prot space =
      ({ prot with
          ackPending := true
          respPending := true
          ioctlTransId := prot.ioctlTransId + 1 }, .sent) := by
  rw [dhdFillupIoctReqst]
  by_cases pending : prot.ackPending = true ∨ prot.respPending = true
  · rw [if_pos pending]
    exact Or.inl ⟨.busy, by decide, rfl⟩
  · rw [if_neg pending]
    obtain ⟨noAck, noResp⟩ := not_or.mp pending
    cases space with
    | true => exact Or.inr rfl
    | false =>
      have same : { prot with ackPending := false, respPending := false } = prot := by
        cases prot
        simp only [Bool.not_eq_true] at noAck noResp
        subst noAck noResp
        rfl
      refine Or.inl ⟨.noSpace, by decide, ?_⟩
      rw [if_neg Bool.false_ne_true, same]

/-- A completion is dropped, or is stored without a match, or is received. -/
theorem dhdProtIoctcmpltProcess_cases (prot : IoctlProt) (ioctResp : IoctlCompResp) :
    ((prot.ackPending = true ∨ prot.respPending = false ∨ ioctResp.pkt = none) ∧
      dhdProtIoctcmpltProcess prot ioctResp = { prot with ackPending := false, respPending := false }) ∨
    ∃ pkt, ioctResp.pkt = some pkt ∧ prot.ackPending = false ∧ prot.respPending = true ∧
      ((ioctResp.transId ≠ prot.ioctlTransId ∧ dhdProtIoctcmpltProcess prot ioctResp =
          { prot with
            ioctlResplen := ioctResp.respLen.toNat
            ioctlStatus := ioctResp.status }) ∨
        (ioctResp.transId = prot.ioctlTransId ∧
          (dhdProtIoctcmpltProcess prot ioctResp).ioctlTransId = prot.ioctlTransId ∧
          Stored (dhdProtIoctcmpltProcess prot ioctResp) ioctResp pkt)) := by
  by_cases dropped : prot.ackPending = true ∨ ¬ prot.respPending = true
  · refine Or.inl ⟨?_, by rw [dhdProtIoctcmpltProcess, if_pos dropped]⟩
    rcases dropped with ack | resp
    · exact Or.inl ack
    · exact Or.inr (Or.inl (by simpa using resp))
  · obtain ⟨noAck, due⟩ := not_or.mp dropped
    cases buffer : ioctResp.pkt with
    | none =>
      refine Or.inl ⟨Or.inr (Or.inr rfl), ?_⟩
      rw [dhdProtIoctcmpltProcess, if_neg dropped]
      simp only [buffer]
    | some pkt =>
      refine Or.inr ⟨pkt, rfl, by simpa using noAck, not_not.mp due, ?_⟩
      by_cases matched : ioctResp.transId = prot.ioctlTransId
      · right
        have stored : dhdProtIoctcmpltProcess prot ioctResp =
            { prot with
              ioctlResplen := ioctResp.respLen.toNat
              ioctlStatus := ioctResp.status
              retbuf := fun offset =>
                if offset < ioctResp.respLen.toNat then pkt offset else prot.retbuf offset
              ioctlReceived := true } := by
          rw [dhdProtIoctcmpltProcess, if_neg dropped]
          simp only [buffer, matched, ne_eq, not_true_eq_false, if_false]
        rw [stored]
        refine ⟨matched, rfl, buffer, matched, rfl, rfl, ?_⟩
        intro offset below
        exact if_pos below
      · refine Or.inl ⟨matched, ?_⟩
        rw [dhdProtIoctcmpltProcess, if_neg dropped]
        simp only [buffer, ne_eq, matched, not_false_eq_true, if_true]

/-- The completion of a first request, which timed out. -/
def lateCompletion : IoctlCompResp where
  pkt := some (fun _ => 7)
  respLen := 4
  status := -1
  transId := 1

/-- The completion of the request after it. -/
def ownCompletion : IoctlCompResp where
  pkt := some (fun _ => 9)
  respLen := 2
  status := 0
  transId := 2

end BcmDhd.Msgbuf
