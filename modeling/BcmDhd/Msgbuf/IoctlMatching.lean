import BcmDhd.Msgbuf.Ioctl

/-! IOCTL transactions with their handlers cut into statements: the completion handler gives the
general lock back before it stores anything, and the caller reads the response without it. -/

namespace BcmDhd.Msgbuf

open BcmDhd.Lib

/-- The statements of `dhd_prot_ioctcmplt_process` behind its lock. -/
inductive CmpltStage
  | resplen
  | status
  | compare
  | copy
  | receive
deriving DecidableEq

/-- What the completion handler does under the lock, and the response buffer if it goes on. -/
def ioctcmpltLocked (prot : IoctlProt) (ioctResp : IoctlCompResp) :
    IoctlProt × Option (Nat → BitVec 8) :=
  if prot.ackPending ∨ ¬ prot.respPending then
    ({ prot with ackPending := false, respPending := false }, none)
  else
    match ioctResp.pkt with
    | none => ({ prot with ackPending := false, respPending := false }, none)
    | some pkt => (prot, some pkt)

/-- One statement behind the lock, and the one after it. -/
def ioctcmpltStatement (prot : IoctlProt) (ioctResp : IoctlCompResp) (pkt : Nat → BitVec 8) :
    CmpltStage → IoctlProt × Option CmpltStage
  | .resplen => ({ prot with ioctlResplen := ioctResp.respLen.toNat }, some .status)
  | .status => ({ prot with ioctlStatus := ioctResp.status }, some .compare)
  | .compare => (prot, if ioctResp.transId ≠ prot.ioctlTransId then none else some .copy)
  | .copy =>
    ({ prot with
        retbuf := fun offset =>
          if offset < prot.ioctlResplen then pkt offset else prot.retbuf offset }, some .receive)
  | .receive => ({ prot with ioctlReceived := true }, none)

/-- How far `dhd_msgbuf_wait_ioctl_cmplt` has come: it sleeps, reads the response statement by
statement, or is about to leave with its result. -/
inductive WaitStage
  | sleeps
  | clamps (len : Nat) (buf : Bool)
  | copies (len : Nat) (buf : Bool)
  | readsStatus (len : Nat) (buf : Bool) (data : List (BitVec 8))
  | leaves (len : Nat) (buf : Bool) (answer : IoctlAnswer)
deriving DecidableEq

def WaitStage.answer : WaitStage → Option IoctlAnswer
  | .leaves _ _ answer => some answer
  | _ => none

/-- Where the wait goes when it ends; without a response it does so on timeout. -/
def ioctlResumed (prot : IoctlProt) (len : Nat) (buf reset trap : Bool) : WaitStage :=
  if reset then .leaves len buf .ioError
  else if prot.ioctlReceived = false then .leaves len buf .timedOut
  else if trap then .leaves len buf .remoteIo
  else .clamps len buf

def ioctlRead (prot : IoctlProt) : WaitStage → IoctlProt × WaitStage
  | .clamps len buf =>
    ({ prot with ioctlResplen := if prot.ioctlResplen > len then len else prot.ioctlResplen },
      .copies len buf)
  | .copies len buf =>
    (prot, .readsStatus len buf
      (if buf then (List.range prot.ioctlResplen).map prot.retbuf else []))
  | .readsStatus len buf data =>
    (prot, .leaves len buf (.response prot.ioctlStatus.toInt data))
  | stage => (prot, stage)

/-- A caller, with the index of its request if that was sent. -/
structure IoctlCaller where
  own : Option Nat
  stage : WaitStage
deriving DecidableEq

/-- A completion whose handler is behind the lock. -/
structure Handling where
  request : Nat
  ioctResp : IoctlCompResp
  pkt : Nat → BitVec 8
  stage : CmpltStage

/-- One caller at a time and, as the messages of a ring are handled one after another, one
completion at a time. -/
structure IoctlThreads where
  prot : IoctlProt
  requests : List (BitVec 16)
  caller : Option IoctlCaller
  handler : Option Handling

inductive IoctlStep
  | issue (space : Bool)
  | ack
  | cmplt (request : Nat) (ioctResp : IoctlCompResp)
  /-- The next statement of the completion handler. -/
  | statement
  | resume (len : Nat) (buf reset trap : Bool)
  /-- The next statement of the caller that reads the response. -/
  | read
  | leave

def ioctlThreads : Machine IoctlThreads IoctlStep IoctlAnswer where
  step threads
    | .issue space =>
      match dhdFillupIoctReqst threads.prot space with
      | (prot, .sent) =>
        ({ threads with
            prot := prot
            requests := threads.requests ++ [prot.ioctlTransId]
            caller := some ⟨some threads.requests.length, .sleeps⟩ }, .sent)
      | (prot, result) => ({ threads with prot := prot, caller := some ⟨none, .sleeps⟩ }, result)
    | .ack => ({ threads with prot := dhdProtIoctackProcess threads.prot }, .none)
    | .cmplt request ioctResp =>
      let locked := ioctcmpltLocked threads.prot ioctResp
      ({ threads with
          prot := locked.1
          handler := locked.2.map fun pkt => ⟨request, ioctResp, pkt, .resplen⟩ }, .none)
    | .statement =>
      match threads.handler with
      | none => (threads, .none)
      | some handling =>
        let stored := ioctcmpltStatement threads.prot handling.ioctResp handling.pkt handling.stage
        ({ threads with
            prot := stored.1
            handler := stored.2.map fun stage => { handling with stage := stage } }, .none)
    | .resume len buf reset trap =>
      ({ threads with
          caller := threads.caller.map fun caller =>
            { caller with stage := ioctlResumed threads.prot len buf reset trap } }, .none)
    | .read =>
      match threads.caller with
      | none => (threads, .none)
      | some caller =>
        let taken := ioctlRead threads.prot caller.stage
        ({ threads with prot := taken.1, caller := some { caller with stage := taken.2 } }, .none)
    | .leave =>
      ({ threads with
          prot := { threads.prot with
            respPending := false
            ioctlResplen := 0
            ioctlReceived := false }
          caller := none },
        (threads.caller.bind (·.stage.answer)).getD .none)
  admits threads
    | .issue _ => threads.caller = none
    | .ack => threads.handler.isNone = true
    | .cmplt request ioctResp =>
      threads.handler.isNone = true ∧ threads.requests[request]? = some ioctResp.transId
    | .statement => threads.handler.isSome = true
    | .resume _ _ _ _ => ∃ caller ∈ threads.caller, caller.stage = .sleeps
    | .read => ∃ caller ∈ threads.caller, caller.stage ≠ .sleeps ∧ caller.stage.answer = none
    | .leave => (threads.caller.bind (·.stage.answer)).isSome = true

instance (threads : IoctlThreads) (step : IoctlStep) : Decidable (ioctlThreads.admits threads step) := by
  cases step <;> dsimp only [ioctlThreads] <;> infer_instance

/-- Nobody is on the way: the state between the calls of the IOCTL system. -/
def IoctlSystem.threads (system : IoctlSystem) : IoctlThreads :=
  ⟨system.prot, system.requests, system.waiting.map (⟨·, .sleeps⟩), none⟩

def CmpltStage.Matched (stage : CmpltStage) : Prop := stage = .copy ∨ stage = .receive

instance (stage : CmpltStage) : Decidable stage.Matched := inferInstanceAs (Decidable (_ ∨ _))

/-- A handler stores length and status only while nothing has been received, or over a response
to its own request, for which the caller still sleeps; and it matches only for the caller there is. -/
def StatementInTurn (threads : IoctlThreads) (handling : Handling) : Prop :=
  match handling.stage with
  | .resplen | .status => threads.prot.ioctlReceived = false ∨
      threads.caller = some ⟨some handling.request, .sleeps⟩
  | .compare => handling.ioctResp.transId = threads.prot.ioctlTransId →
      ∀ caller ∈ threads.caller, caller.own = some handling.request
  | .copy | .receive => True

instance (threads : IoctlThreads) (handling : Handling) :
    Decidable (StatementInTurn threads handling) := by
  unfold StatementInTurn
  split <;> infer_instance

/-- A request goes out only when no response is stored and no handler is about to store one, and a
caller finds no response half stored. -/
def InTurn (threads : IoctlThreads) : IoctlStep → Prop
  | .issue _ => threads.prot.ioctlReceived = false ∧
      ∀ handling ∈ threads.handler, ¬ handling.stage.Matched
  | .statement => ∀ handling ∈ threads.handler, StatementInTurn threads handling
  | .resume _ _ reset trap => reset = false → trap = false → threads.prot.ioctlReceived = true →
      ∀ handling ∈ threads.handler, handling.stage = .resplen
  | _ => True

instance (threads : IoctlThreads) (step : IoctlStep) : Decidable (InTurn threads step) := by
  cases step <;> dsimp only [InTurn] <;> infer_instance

section Invariant

variable {threads : IoctlThreads} {steps : List IoctlStep} {caller : IoctlCaller}
  {handling : Handling} {ioctResp : IoctlCompResp}

/-- What the handler has stored so far. -/
def Handling.Stores (handling : Handling) (prot : IoctlProt) : Prop :=
  (handling.stage ≠ .resplen → prot.ioctlResplen = handling.ioctResp.respLen.toNat) ∧
  (handling.stage ≠ .resplen → handling.stage ≠ .status →
    prot.ioctlStatus = handling.ioctResp.status) ∧
  (handling.stage = .receive → ∀ offset < handling.ioctResp.respLen.toNat,
    prot.retbuf offset = handling.pkt offset)

/-- A completion of the caller's own request, with the transaction id that was sent, is such. -/
def OfOwn (threads : IoctlThreads) (steps : List IoctlStep) (caller : IoctlCaller)
    (such : IoctlCompResp → (Nat → BitVec 8) → Prop) : Prop :=
  ∃ own ioctResp pkt, caller.own = some own ∧ .cmplt own ioctResp ∈ steps ∧
    threads.requests[own]? = some ioctResp.transId ∧ ioctResp.pkt = some pkt ∧ such ioctResp pkt

/-- The response of the completion is stored. -/
def Response (prot : IoctlProt) (ioctResp : IoctlCompResp) (pkt : Nat → BitVec 8) : Prop :=
  prot.ioctlResplen = ioctResp.respLen.toNat ∧ prot.ioctlStatus = ioctResp.status ∧
    ∀ offset < ioctResp.respLen.toNat, prot.retbuf offset = pkt offset

/-- What `len` bytes of buffer take of it. -/
def taken (ioctResp : IoctlCompResp) (pkt : Nat → BitVec 8) (len : Nat) (buf : Bool) :
    List (BitVec 8) :=
  if buf then (List.range (min ioctResp.respLen.toNat len)).map pkt else []

/-- No handler has begun to store. -/
def Undisturbed (threads : IoctlThreads) : Prop :=
  ∀ handling, threads.handler = some handling → handling.stage = .resplen

/-- A caller that reads does so undisturbed, from a completion of its own request. -/
def Reads (threads : IoctlThreads) (steps : List IoctlStep) (caller : IoctlCaller) : Prop :=
  match caller.stage with
  | .sleeps => threads.prot.ioctlReceived = true → Undisturbed threads →
      OfOwn threads steps caller (Response threads.prot)
  | .clamps _ _ => threads.prot.ioctlReceived = true ∧ Undisturbed threads ∧
      OfOwn threads steps caller (Response threads.prot)
  | .copies len _ => threads.prot.ioctlReceived = true ∧ Undisturbed threads ∧
      OfOwn threads steps caller fun ioctResp pkt =>
        threads.prot.ioctlResplen = min ioctResp.respLen.toNat len ∧
          threads.prot.ioctlStatus = ioctResp.status ∧
          ∀ offset < ioctResp.respLen.toNat, threads.prot.retbuf offset = pkt offset
  | .readsStatus len buf data => threads.prot.ioctlReceived = true ∧ Undisturbed threads ∧
      OfOwn threads steps caller fun ioctResp pkt =>
        threads.prot.ioctlStatus = ioctResp.status ∧ data = taken ioctResp pkt len buf
  | .leaves len buf (.response status data) =>
      OfOwn threads steps caller fun ioctResp pkt =>
        status = ioctResp.status.toInt ∧ data = taken ioctResp pkt len buf
  | .leaves _ _ _ => True

structure Matching (threads : IoctlThreads) (steps : List IoctlStep) : Prop where
  pending : threads.prot.respPending = true → ∃ own stage, threads.caller = some ⟨some own, stage⟩
  sent : ∀ caller, threads.caller = some caller → ∀ own, caller.own = some own →
    threads.requests[own]? = some threads.prot.ioctlTransId
  behind : ∀ handling, threads.handler = some handling →
    .cmplt handling.request handling.ioctResp ∈ steps ∧
      threads.requests[handling.request]? = some handling.ioctResp.transId ∧
      handling.ioctResp.pkt = some handling.pkt
  stores : ∀ handling, threads.handler = some handling →
    threads.caller = some ⟨some handling.request, .sleeps⟩ → handling.Stores threads.prot
  matched : ∀ handling, threads.handler = some handling → handling.stage.Matched →
    ∀ caller, threads.caller = some caller → caller.own = some handling.request
  /-- A handler that stores over a response does so for the same request. -/
  again : ∀ handling, threads.handler = some handling → handling.stage ≠ .resplen →
    threads.prot.ioctlReceived = true → ∀ caller, threads.caller = some caller →
      caller.stage = .sleeps → caller.own = some handling.request
  reads : ∀ caller, threads.caller = some caller → Reads threads steps caller

theorem OfOwn.imp {after : IoctlThreads} {such other : IoctlCompResp → (Nat → BitVec 8) → Prop}
    {caller' : IoctlCaller} (found : OfOwn threads steps caller such)
    (sameRequests : after.requests = threads.requests) (sameOwn : caller'.own = caller.own)
    (step : IoctlStep) (weaker : ∀ ioctResp pkt, such ioctResp pkt → other ioctResp pkt) :
    OfOwn after (steps ++ [step]) caller' other := by
  obtain ⟨own, ioctResp, pkt, mine, member, request, buffer, holds⟩ := found
  exact ⟨own, ioctResp, pkt, by rw [sameOwn, mine], List.mem_append_left _ member,
    by rw [sameRequests, request], buffer, weaker ioctResp pkt holds⟩

/-- The wait is not touched: only flags change, and at most a handler that has stored nothing. -/
theorem Reads.keep {after : IoctlThreads} (reads : Reads threads steps caller)
    (sameRequests : after.requests = threads.requests)
    (sameReceived : after.prot.ioctlReceived = threads.prot.ioctlReceived)
    (sameResplen : after.prot.ioctlResplen = threads.prot.ioctlResplen)
    (sameStatus : after.prot.ioctlStatus = threads.prot.ioctlStatus)
    (sameRetbuf : after.prot.retbuf = threads.prot.retbuf)
    (before : Undisturbed threads) (undisturbed : Undisturbed after) (step : IoctlStep) :
    Reads after (steps ++ [step]) caller := by
  unfold Reads at reads ⊢
  split
  · rename_i asleep
    rw [asleep] at reads
    intro received _
    rw [sameReceived] at received
    refine (reads received before).imp sameRequests rfl step fun ioctResp pkt holds => ?_
    rwa [Response, sameResplen, sameStatus, sameRetbuf]
  · rename_i clamping
    rw [clamping] at reads
    refine ⟨sameReceived.trans reads.1, undisturbed,
      reads.2.2.imp sameRequests rfl step fun ioctResp pkt holds => ?_⟩
    rwa [Response, sameResplen, sameStatus, sameRetbuf]
  · rename_i copying
    rw [copying] at reads
    refine ⟨sameReceived.trans reads.1, undisturbed,
      reads.2.2.imp sameRequests rfl step fun ioctResp pkt holds => ?_⟩
    rwa [sameResplen, sameStatus, sameRetbuf]
  · rename_i reading
    rw [reading] at reads
    refine ⟨sameReceived.trans reads.1, undisturbed,
      reads.2.2.imp sameRequests rfl step fun ioctResp pkt holds => ?_⟩
    rwa [sameStatus]
  · rename_i leaving
    rw [leaving] at reads
    exact reads.imp sameRequests rfl step fun _ _ holds => holds
  · trivial

/-- Where a handler takes a statement in turn, the caller sleeps or is leaving. -/
theorem Reads.statement {after : IoctlThreads} (reads : Reads threads steps caller)
    (present : threads.caller = some caller) (handles : threads.handler = some handling)
    (inTurn : StatementInTurn threads handling) (sameRequests : after.requests = threads.requests)
    (step : IoctlStep) (asleep : caller.stage = .sleeps → Reads after (steps ++ [step]) caller) :
    Reads after (steps ++ [step]) caller := by
  have away : ∀ stage, caller.stage = stage → stage ≠ .sleeps →
      ¬ (threads.prot.ioctlReceived = true ∧ Undisturbed threads) := by
    rintro stage here awake ⟨received, undisturbed⟩
    have first := undisturbed handling handles
    unfold StatementInTurn at inTurn
    rw [first] at inTurn
    rcases inTurn with nothing | sleeping
    · rw [received] at nothing
      cases nothing
    · rw [present] at sleeping
      cases Option.some.inj sleeping
      exact awake here.symm
  cases stage : caller.stage with
  | sleeps => exact asleep stage
  | leaves len buf answer =>
    unfold Reads at reads ⊢
    rw [stage] at reads ⊢
    cases answer with
    | response status data => exact OfOwn.imp reads sameRequests rfl step fun _ _ holds => holds
    | _ => trivial
  | _ =>
    unfold Reads at reads
    rw [stage] at reads
    exact absurd ⟨reads.1, reads.2.1⟩ (away _ stage (by simp))

namespace Matching

theorem issue (valid : Matching threads steps) (nobody : threads.caller = none) {space : Bool}
    (inTurn : InTurn threads (.issue space)) :
    Matching (ioctlThreads.next threads (.issue space)) (steps ++ [.issue space]) := by
  obtain ⟨nothing, unmatched⟩ := inTurn
  have noResp : threads.prot.respPending = false := by
    by_contra due
    obtain ⟨own, stage, waits⟩ := valid.pending (by simpa using due)
    rw [nobody] at waits
    cases waits
  have behind : ∀ handling, threads.handler = some handling → ∀ more : List (BitVec 16),
      .cmplt handling.request handling.ioctResp ∈ steps ++ [.issue space] ∧
        (threads.requests ++ more)[handling.request]? = some handling.ioctResp.transId ∧
        handling.ioctResp.pkt = some handling.pkt := by
    intro handling handles more
    obtain ⟨member, request, buffer⟩ := valid.behind handling handles
    have inside := (List.getElem?_eq_some_iff.mp request).1
    exact ⟨List.mem_append_left _ member, by rw [List.getElem?_append_left inside, request], buffer⟩
  rcases dhdFillupIoctReqst_cases threads.prot space with ⟨result, unsent, refused⟩ | sent
  · have next : ioctlThreads.next threads (.issue space) =
        { threads with caller := some ⟨none, .sleeps⟩ } := by
      simp only [ioctlThreads, Machine.next, refused]
    rw [next]
    refine ⟨fun due => ?_, fun caller same own mine => ?_, fun handling handles => ?_,
      fun handling _ same => ?_, fun handling handles copying => ?_, fun _ _ _ received => ?_,
      fun caller same => ?_⟩
    · exact absurd due (by simp [noResp])
    · cases Option.some.inj same
      cases mine
    · simpa using behind handling handles []
    · cases same
    · exact absurd copying (unmatched handling handles)
    · exact absurd received (by simp [nothing])
    · cases Option.some.inj same
      exact fun received => absurd received (by simp [nothing])
  · have next : ioctlThreads.next threads (.issue space) =
        { threads with
          prot := { threads.prot with
            ackPending := true
            respPending := true
            ioctlTransId := threads.prot.ioctlTransId + 1 }
          requests := threads.requests ++ [threads.prot.ioctlTransId + 1]
          caller := some ⟨some threads.requests.length, .sleeps⟩ } := by
      simp only [ioctlThreads, Machine.next, sent]
    rw [next]
    refine ⟨fun _ => ⟨_, _, rfl⟩, fun caller same own mine => ?_, fun handling handles => ?_,
      fun handling handles same => ?_, fun handling handles copying => ?_, fun _ _ _ received => ?_,
      fun caller same => ?_⟩
    · cases Option.some.inj same
      cases Option.some.inj mine
      simp
    · exact behind handling handles _
    · -- the handler's request is an older one
      have inside := (List.getElem?_eq_some_iff.mp (valid.behind handling handles).2.1).1
      have mine := Option.some.inj (IoctlCaller.mk.inj (Option.some.inj same)).1
      omega
    · exact absurd copying (unmatched handling handles)
    · exact absurd received (by simp [nothing])
    · cases Option.some.inj same
      exact fun received => absurd received (by simp [nothing])

/-- A step that changes the two bits of `ioctl_state` at most, and leaves a handler that has
stored nothing. -/
theorem flags (valid : Matching threads steps) (none_ : threads.handler = none)
    {ack resp : Bool} (due : resp = true → threads.prot.respPending = true)
    {handler : Option Handling} {step : IoctlStep}
    (fresh : ∀ handling, handler = some handling → handling.stage = .resplen ∧
      step = .cmplt handling.request handling.ioctResp ∧
      threads.requests[handling.request]? = some handling.ioctResp.transId ∧
      handling.ioctResp.pkt = some handling.pkt) :
    Matching { threads with
      prot := { threads.prot with ackPending := ack, respPending := resp }
      handler := handler } (steps ++ [step]) := by
  have undisturbed : Undisturbed threads := by
    intro handling handles
    rw [none_] at handles
    cases handles
  refine ⟨fun pending => valid.pending (due pending), valid.sent, fun handling handles => ?_,
    fun handling handles _ => ?_, fun handling handles copying => ?_, fun handling handles other => ?_,
    fun caller present => ?_⟩
  · obtain ⟨-, rfl, request, buffer⟩ := fresh handling handles
    exact ⟨by simp, request, buffer⟩
  · have first := (fresh handling handles).1
    simp [Handling.Stores, first]
  · rw [CmpltStage.Matched, (fresh handling handles).1] at copying
    simp at copying
  · exact absurd (fresh handling handles).1 other
  · refine (valid.reads caller present).keep ?_ ?_ ?_ ?_ ?_ undisturbed ?_ step
    case refine_6 => exact fun handling handles => (fresh handling handles).1
    all_goals rfl

theorem ack (valid : Matching threads steps) (none_ : threads.handler = none) :
    Matching (ioctlThreads.next threads .ack) (steps ++ [.ack]) := by
  have same : ioctlThreads.next threads .ack = { threads with
      prot := { threads.prot with
        ackPending := (dhdProtIoctackProcess threads.prot).ackPending
        respPending := threads.prot.respPending }
      handler := none } := by
    cases threads
    cases none_
    simp only [ioctlThreads, Machine.next, dhdProtIoctackProcess]
    split <;> rfl
  rw [same]
  exact valid.flags none_ id fun _ handles => by cases handles

theorem cmplt (valid : Matching threads steps) (none_ : threads.handler = none) {request : Nat}
    (answers : threads.requests[request]? = some ioctResp.transId) :
    Matching (ioctlThreads.next threads (.cmplt request ioctResp))
      (steps ++ [.cmplt request ioctResp]) := by
  simp only [ioctlThreads, Machine.next, ioctcmpltLocked]
  split
  · exact valid.flags none_ (by simp) fun _ handles => by cases handles
  · cases buffer : ioctResp.pkt with
    | none => exact valid.flags none_ (by simp) fun _ handles => by cases handles
    | some pkt =>
      refine valid.flags none_ id fun handling handles => ?_
      cases Option.some.inj handles
      exact ⟨rfl, rfl, answers, buffer⟩

theorem statement (valid : Matching threads steps) (handles : threads.handler = some handling)
    (inTurn : StatementInTurn threads handling) :
    Matching (ioctlThreads.next threads .statement) (steps ++ [.statement]) := by
  obtain ⟨member, request, buffer⟩ := valid.behind handling handles
  have behind : .cmplt handling.request handling.ioctResp ∈ steps ++ [IoctlStep.statement] :=
    List.mem_append_left _ member
  have reads : ∀ (after : IoctlThreads) caller, after.requests = threads.requests →
      threads.caller = some caller →
      (caller.stage = .sleeps → Reads after (steps ++ [.statement]) caller) →
      Reads after (steps ++ [.statement]) caller := fun after caller same present asleep =>
    (valid.reads caller present).statement present handles inTurn same .statement asleep
  -- while a handler is at work no sleeping caller relies on what is stored
  have busy : ∀ {after : IoctlThreads} {caller}, caller.stage = .sleeps →
      (∃ handling, after.handler = some handling ∧ handling.stage ≠ .resplen) →
      Reads after (steps ++ [.statement]) caller := by
    intro after caller asleep ⟨other, handles, apart⟩
    unfold Reads
    rw [asleep]
    exact fun _ undisturbed => absurd (undisturbed other handles) apart
  have stores := valid.stores handling handles
  have matched := valid.matched handling handles
  have again := valid.again handling handles
  unfold StatementInTurn at inTurn
  simp only [ioctlThreads, Machine.next, handles]
  cases stage : handling.stage with
  | resplen =>
    rw [stage] at inTurn
    refine ⟨valid.pending, valid.sent, fun other same => ?_, fun other same _ => ?_,
      fun other same copying => ?_, fun other same _ received caller present _ => ?_,
      fun caller present => reads _ caller rfl present fun asleep => busy asleep ⟨_, rfl, by simp⟩⟩
    all_goals cases Option.some.inj same
    · exact ⟨behind, request, buffer⟩
    · simp [Handling.Stores, ioctcmpltStatement]
    · simp [CmpltStage.Matched] at copying
    · rcases inTurn with nothing | sleeping
      · exact absurd received (by simp [ioctcmpltStatement, nothing])
      · cases Option.some.inj (present.symm.trans sleeping)
        rfl
  | status =>
    rw [stage] at inTurn
    refine ⟨valid.pending, valid.sent, fun other same => ?_, fun other same sleeping => ?_,
      fun other same copying => ?_, fun other same _ received caller present _ => ?_,
      fun caller present => reads _ caller rfl present fun asleep => busy asleep ⟨_, rfl, by simp⟩⟩
    all_goals cases Option.some.inj same
    · exact ⟨behind, request, buffer⟩
    · have length := (stores sleeping).1 (by simp [stage])
      simpa [Handling.Stores, ioctcmpltStatement] using length
    · simp [CmpltStage.Matched] at copying
    · rcases inTurn with nothing | sleeping
      · exact absurd received (by simp [ioctcmpltStatement, nothing])
      · cases Option.some.inj (present.symm.trans sleeping)
        rfl
  | compare =>
    rw [stage] at inTurn
    by_cases same : handling.ioctResp.transId = threads.prot.ioctlTransId
    · simp only [ioctcmpltStatement, same, ne_eq, not_true_eq_false, if_false, Option.map_some]
      refine ⟨valid.pending, valid.sent, fun other here => ?_, fun other here sleeping => ?_,
        fun other here _ caller present => ?_, fun other here _ received caller present _ => ?_,
        fun caller present => reads _ caller rfl present fun asleep => busy asleep ⟨_, rfl, by simp⟩⟩
      all_goals cases Option.some.inj here
      · exact ⟨behind, request, buffer⟩
      · obtain ⟨length, noted, -⟩ := stores sleeping
        exact ⟨fun _ => length (by simp [stage]), fun _ _ => noted (by simp [stage]) (by simp [stage]),
          by simp⟩
      · exact inTurn same caller present
      · exact inTurn same caller present
    · simp only [ioctcmpltStatement, same, ne_eq, not_false_eq_true, if_true, Option.map_none]
      refine ⟨valid.pending, valid.sent, fun _ none_ => (by cases none_), fun _ none_ => (by cases none_),
        fun _ none_ => (by cases none_), fun _ none_ => (by cases none_),
        fun caller present => reads _ caller rfl present fun asleep => ?_⟩
      -- a response that is there already is to the same request, and that has another id
      unfold Reads
      rw [asleep]
      intro received _
      have own := again (by simp [stage]) received caller present asleep
      have sent := valid.sent caller present handling.request own
      rw [request] at sent
      exact absurd (Option.some.inj sent) same
  | copy =>
    refine ⟨valid.pending, valid.sent, fun other same => ?_, fun other same sleeping => ?_,
      fun other same _ => ?_, fun other same _ received => ?_,
      fun caller present => reads _ caller rfl present fun asleep => busy asleep ⟨_, rfl, by simp⟩⟩
    all_goals cases Option.some.inj same
    · exact ⟨behind, request, buffer⟩
    · obtain ⟨length, noted, -⟩ := stores sleeping
      have whole := length (by simp [stage])
      refine ⟨fun _ => whole, fun _ _ => noted (by simp [stage]) (by simp [stage]), fun _ offset below => ?_⟩
      exact if_pos (by rw [whole]; exact below)
    · exact matched (Or.inl stage)
    · exact again (by simp [stage]) received
  | receive =>
    refine ⟨valid.pending, valid.sent, fun _ none_ => (by cases none_), fun _ none_ => (by cases none_),
      fun _ none_ => (by cases none_), fun _ none_ => (by cases none_),
      fun caller present => reads _ caller rfl present fun asleep => ?_⟩
    unfold Reads
    rw [asleep]
    intro _ _
    have own := matched (Or.inr stage) caller present
    obtain ⟨length, noted, copied⟩ := stores (by
      rw [present, ← own, ← asleep])
    exact ⟨handling.request, handling.ioctResp, handling.pkt, own, behind, request, buffer,
      length (by simp [stage]), noted (by simp [stage]) (by simp [stage]), copied stage⟩

/-- A step of the caller, who does not sleep behind it, with the handler where it was. -/
theorem callerStep (valid : Matching threads steps) (present : threads.caller = some caller)
    {prot : IoctlProt} {stage : WaitStage} (sameResp : prot.respPending = threads.prot.respPending)
    (sameId : prot.ioctlTransId = threads.prot.ioctlTransId) (awake : stage ≠ .sleeps)
    {step : IoctlStep}
    (reads : Reads { threads with prot := prot, caller := some { caller with stage := stage } }
      (steps ++ [step]) { caller with stage := stage }) :
    Matching { threads with prot := prot, caller := some { caller with stage := stage } }
      (steps ++ [step]) := by
  refine ⟨fun due => ?_, fun other same own mine => ?_, fun handling handles => ?_,
    fun handling _ sleeping => ?_, fun handling handles copying other same => ?_,
    fun handling _ _ _ other same asleep => ?_, fun other same => ?_⟩
  · obtain ⟨own, _, waits⟩ := valid.pending (sameResp.symm.trans due)
    cases Option.some.inj (present.symm.trans waits)
    exact ⟨own, stage, rfl⟩
  · cases Option.some.inj same
    exact (valid.sent caller present own mine).trans (by rw [sameId])
  · obtain ⟨member, request, buffer⟩ := valid.behind handling handles
    exact ⟨List.mem_append_left _ member, request, buffer⟩
  · exact absurd (IoctlCaller.mk.inj (Option.some.inj sleeping)).2 awake
  · cases Option.some.inj same
    exact valid.matched handling handles copying caller present
  · cases Option.some.inj same
    exact absurd asleep awake
  · cases Option.some.inj same
    exact reads

theorem resume (valid : Matching threads steps) (present : threads.caller = some caller)
    (asleep : caller.stage = .sleeps) {len : Nat} {buf reset trap : Bool}
    (inTurn : InTurn threads (.resume len buf reset trap)) :
    Matching (ioctlThreads.next threads (.resume len buf reset trap))
      (steps ++ [.resume len buf reset trap]) := by
  simp only [ioctlThreads, Machine.next, present, Option.map_some]
  refine valid.callerStep present rfl rfl ?_ ?_
  · unfold ioctlResumed
    repeat' split
    all_goals simp
  unfold Reads ioctlResumed
  split_ifs with isReset missing trapped
  · trivial
  · trivial
  · trivial
  have received : threads.prot.ioctlReceived = true := by simpa using missing
  have undisturbed : Undisturbed threads :=
    inTurn (by simpa using isReset) (by simpa using trapped) received
  have reads := valid.reads caller present
  unfold Reads at reads
  rw [asleep] at reads
  exact ⟨received, undisturbed, (reads received undisturbed).imp rfl rfl _ fun _ _ holds => holds⟩

theorem read (valid : Matching threads steps) (present : threads.caller = some caller)
    (awake : caller.stage ≠ .sleeps) (reading : caller.stage.answer = none) :
    Matching (ioctlThreads.next threads .read) (steps ++ [.read]) := by
  have reads := valid.reads caller present
  simp only [ioctlThreads, Machine.next, present]
  unfold Reads at reads
  cases stage : caller.stage with
  | sleeps => exact absurd stage awake
  | leaves len buf answer =>
    rw [stage] at reading
    cases reading
  | clamps len buf =>
    rw [stage] at reads
    obtain ⟨received, undisturbed, found⟩ := reads
    refine valid.callerStep present (by rfl) (by rfl) (by simp [ioctlRead]) ?_
    refine ⟨received, undisturbed, ?_⟩
    refine found.imp rfl rfl _ fun ioctResp pkt ⟨length, noted, data⟩ => ⟨?_, noted, data⟩
    change (if threads.prot.ioctlResplen > len then len else threads.prot.ioctlResplen) = _
    rw [length]
    split <;> omega
  | copies len buf =>
    rw [stage] at reads
    obtain ⟨received, undisturbed, found⟩ := reads
    refine valid.callerStep present rfl rfl (by simp [ioctlRead]) ?_
    refine ⟨received, undisturbed, ?_⟩
    refine found.imp rfl rfl _ fun ioctResp pkt ⟨length, noted, data⟩ => ⟨noted, ?_⟩
    unfold taken
    rw [length]
    split
    · apply List.map_congr_left
      intro offset inside
      have below := List.mem_range.mp inside
      exact data offset (by omega)
    · rfl
  | readsStatus len buf data =>
    rw [stage] at reads
    obtain ⟨received, undisturbed, found⟩ := reads
    refine valid.callerStep present rfl rfl (by simp [ioctlRead]) ?_
    exact found.imp rfl rfl _ fun ioctResp pkt ⟨noted, data⟩ => ⟨by rw [noted], data⟩

theorem leave (valid : Matching threads steps) :
    Matching (ioctlThreads.next threads .leave) (steps ++ [.leave]) := by
  refine ⟨fun due => (by cases due), fun _ none_ => (by cases none_), fun handling handles => ?_,
    fun _ _ none_ => (by cases none_), fun _ _ _ _ none_ => (by cases none_),
    fun _ _ _ _ _ none_ => (by cases none_), fun _ none_ => (by cases none_)⟩
  obtain ⟨member, request, buffer⟩ := valid.behind handling handles
  exact ⟨List.mem_append_left _ member, request, buffer⟩

theorem step (valid : Matching threads steps) {step : IoctlStep}
    (admitted : ioctlThreads.admits threads step) (inTurn : InTurn threads step) :
    Matching (ioctlThreads.next threads step) (steps ++ [step]) := by
  cases step with
  | issue space => exact valid.issue admitted inTurn
  | ack => exact valid.ack (Option.isNone_iff_eq_none.mp admitted)
  | cmplt request ioctResp => exact valid.cmplt (Option.isNone_iff_eq_none.mp admitted.1) admitted.2
  | statement =>
    obtain ⟨handling, handles⟩ := Option.isSome_iff_exists.mp admitted
    exact valid.statement handles (inTurn handling handles)
  | resume len buf reset trap =>
    obtain ⟨caller, present, asleep⟩ := admitted
    exact valid.resume present asleep inTurn
  | read =>
    obtain ⟨caller, present, awake, reading⟩ := admitted
    exact valid.read present awake reading
  | leave => exact valid.leave

end Matching

theorem ioctlIdle_matching : Matching ioctlIdle.threads [] := by
  refine ⟨fun due => (by cases due), fun _ none_ => (by cases none_), fun _ none_ => (by cases none_),
    fun _ none_ => (by cases none_), fun _ none_ => (by cases none_),
    fun _ none_ => (by cases none_), fun _ none_ => (by cases none_)⟩

/-- In every run whose steps come in turn, whatever runs between the statements of the completion
handler and of the wait, status and data that a wait returns are those of a completion of the
caller's own request. -/
theorem ioctl_response_is_own {steps : List IoctlStep}
    (inTurn : (ioctlThreads.restrict InTurn).Admitted ioctlIdle.threads (steps ++ [.leave]))
    {status : Int} {data : List (BitVec 8)}
    (answer : ioctlThreads.answer (ioctlThreads.run ioctlIdle.threads steps) .leave =
      .response status data) :
    ∃ own ioctResp pkt len buf,
      (ioctlThreads.run ioctlIdle.threads steps).caller =
        some ⟨some own, .leaves len buf (.response status data)⟩ ∧
      .cmplt own ioctResp ∈ steps ∧
      (ioctlThreads.run ioctlIdle.threads steps).requests[own]? = some ioctResp.transId ∧
      ioctResp.pkt = some pkt ∧ status = ioctResp.status.toInt ∧
      data = if buf then (List.range (min ioctResp.respLen.toNat len)).map pkt else [] := by
  obtain ⟨before, ⟨leaving, -⟩, -⟩ :=
    ((ioctlThreads.restrict InTurn).admitted_append _ _ _).mp inTurn
  rw [Machine.restrict_run] at leaving
  have preserved : ∀ threads past step, Matching threads past →
      (ioctlThreads.restrict InTurn).admits threads step →
      Matching ((ioctlThreads.restrict InTurn).next threads step) (past ++ [step]) :=
    fun _ _ _ valid admitted => valid.step admitted.1 admitted.2
  have reached := (ioctlThreads.restrict InTurn).run_calls_invariant preserved
    ioctlIdle_matching before
  rw [Machine.restrict_run, List.nil_append] at reached
  generalize ioctlThreads.run ioctlIdle.threads steps = threads at *
  obtain ⟨returned, bound⟩ := Option.isSome_iff_exists.mp leaving
  obtain ⟨caller, present, found⟩ := Option.bind_eq_some_iff.mp bound
  have same : returned = .response status data := by
    have same : ioctlThreads.answer threads .leave = returned := by
      change (threads.caller.bind (·.stage.answer)).getD .none = returned
      rw [bound]
      rfl
    exact same.symm.trans answer
  have reads := reached.reads caller present
  obtain ⟨own?, stage⟩ := caller
  cases stage with
  | leaves len buf result =>
    cases Option.some.inj found
    subst same
    obtain ⟨own, ioctResp, pkt, mine, member, request, buffer, sameStatus, sameData⟩ := reads
    have mine : own? = some own := mine
    exact ⟨own, ioctResp, pkt, len, buf, by rw [present, mine], member, request, buffer, sameStatus,
      sameData⟩
  | _ => cases found

end Invariant

/-- A request that times out, and a second one that is acknowledged. -/
def secondRequest : List IoctlStep :=
  [.issue true, .ack, .resume 8 true false false, .leave, .issue true, .ack]

/-- The caller of the second request takes its response. -/
def takeResponse : List IoctlStep := [.resume 8 true false false, .read, .read, .read]

theorem ioctl_response_is_own_after_timeout :
    let steps := secondRequest ++ .cmplt 0 lateCompletion :: List.replicate 3 .statement ++
      .cmplt 1 ownCompletion :: List.replicate 5 .statement ++ takeResponse
    (ioctlThreads.restrict InTurn).Admitted ioctlIdle.threads (steps ++ [.leave]) ∧
      ioctlThreads.answer (ioctlThreads.run ioctlIdle.threads steps) .leave = .response 0 [9, 9] ∧
      ∃ own ioctResp, .cmplt own ioctResp ∈ steps ∧ (0 : Int) = ioctResp.status.toInt := by
  intro steps
  have inTurn : (ioctlThreads.restrict InTurn).Admitted ioctlIdle.threads (steps ++ [.leave]) := by
    decide +kernel
  have answer : ioctlThreads.answer (ioctlThreads.run ioctlIdle.threads steps) .leave =
      .response 0 [9, 9] := by decide +kernel
  obtain ⟨own, ioctResp, -, -, -, -, member, -, -, status, -⟩ := ioctl_response_is_own inTurn answer
  exact ⟨inTurn, answer, own, ioctResp, member, status⟩

/-- The late completion arrives between the caller's own completion and the end of its wait. -/
def lateSteps : List IoctlStep :=
  secondRequest ++ .cmplt 1 ownCompletion :: List.replicate 5 .statement ++
    .cmplt 0 lateCompletion :: List.replicate 3 .statement ++ takeResponse

/-- The wait of the first request ends while its completion is being handled, and the second
request goes out between the comparison of the transaction id and the note of the response. -/
def crossedSteps : List IoctlStep :=
  [.issue true, .ack, .cmplt 0 lateCompletion, .resume 8 true false false, .leave] ++
    List.replicate 3 .statement ++ .issue true :: List.replicate 2 .statement ++ takeResponse

/-- The caller of the second request gets status and length of the late completion, or the whole
response of the first request. -/
theorem ioctl_status_of_late_completion :
    ioctlThreads.Admitted ioctlIdle.threads (lateSteps ++ [.leave]) ∧
      (ioctlThreads.run ioctlIdle.threads lateSteps).caller.bind (·.own) = some 1 ∧
      ioctlThreads.answer (ioctlThreads.run ioctlIdle.threads lateSteps) .leave =
        .response (-1) [9, 9, 0, 0] ∧
      (∀ ioctResp, .cmplt 1 ioctResp ∈ lateSteps → ioctResp.status.toInt ≠ -1) ∧
    ioctlThreads.Admitted ioctlIdle.threads (crossedSteps ++ [.leave]) ∧
      (ioctlThreads.run ioctlIdle.threads crossedSteps).caller.bind (·.own) = some 1 ∧
      ioctlThreads.answer (ioctlThreads.run ioctlIdle.threads crossedSteps) .leave =
        .response (-1) [7, 7, 7, 7] ∧
      ∀ ioctResp, .cmplt 1 ioctResp ∉ crossedSteps := by
  refine ⟨by decide +kernel, by decide +kernel, by decide +kernel, fun ioctResp member => ?_,
    by decide +kernel, by decide +kernel, by decide +kernel, fun ioctResp member => ?_⟩
  · have same : ioctResp = ownCompletion := by
      simpa [lateSteps, secondRequest, takeResponse] using member
    rw [same]
    decide
  · simp [crossedSteps, takeResponse] at member

section Uninterrupted

variable {system : IoctlSystem}

/-- A completion whose handler nobody interrupts. -/
theorem cmplt_uninterrupted {request : Nat} {ioctResp : IoctlCompResp}
    (answers : system.requests[request]? = some ioctResp.transId) :
    ∃ steps, ioctlThreads.Admitted system.threads steps ∧ ioctlThreads.run system.threads steps =
      (ioctlMachine.next system (.cmplt request ioctResp)).threads := by
  rcases dhdProtIoctcmpltProcess_cases system.prot ioctResp with
    ⟨gate, dropped⟩ | ⟨pkt, buffer, noAck, due, matching⟩
  · refine ⟨[.cmplt request ioctResp], ⟨⟨rfl, answers⟩, trivial⟩, ?_⟩
    have locked : ioctcmpltLocked system.prot ioctResp =
        ({ system.prot with ackPending := false, respPending := false }, none) := by
      unfold ioctcmpltLocked
      split
      · rfl
      · rename_i expected
        obtain ⟨noAck, due⟩ := not_or.mp expected
        rcases gate with ack | resp | nobuf
        · exact absurd ack noAck
        · exact absurd resp (by simpa using due)
        · rw [nobuf]
    simp only [ioctlMachine, Machine.next, dropped, Machine.run, ioctlThreads, IoctlSystem.threads,
      locked, Option.map_none]
  · have locked : ioctcmpltLocked system.prot ioctResp = (system.prot, some pkt) := by
      simp [ioctcmpltLocked, noAck, due, buffer]
    by_cases same : ioctResp.transId = system.prot.ioctlTransId
    · refine ⟨.cmplt request ioctResp :: List.replicate 5 .statement, ?_, ?_⟩
      all_goals simp [ioctlThreads, Machine.Admitted, Machine.run, Machine.next, List.replicate,
        IoctlSystem.threads, locked, ioctcmpltStatement, same, ioctlMachine, dhdProtIoctcmpltProcess,
        noAck, due, buffer, answers]
    · refine ⟨.cmplt request ioctResp :: List.replicate 3 .statement, ?_, ?_⟩
      all_goals simp [ioctlThreads, Machine.Admitted, Machine.run, Machine.next, List.replicate,
        IoctlSystem.threads, locked, ioctcmpltStatement, same, ioctlMachine, dhdProtIoctcmpltProcess,
        noAck, due, buffer, answers]

/-- A wait that nothing else interrupts, with its result. -/
theorem wait_uninterrupted (waits : system.waiting ≠ none) (len : Nat) (buf reset trap : Bool) :
    ∃ steps, ioctlThreads.Admitted system.threads (steps ++ [.leave]) ∧
      ioctlThreads.run system.threads (steps ++ [.leave]) =
        (ioctlMachine.next system (.wait len buf reset trap)).threads ∧
      ioctlThreads.answer (ioctlThreads.run system.threads steps) .leave =
        ioctlMachine.answer system (.wait len buf reset trap) := by
  obtain ⟨own, waiting⟩ := Option.ne_none_iff_exists'.mp waits
  by_cases reads : reset = false ∧ system.prot.ioctlReceived = true ∧ trap = false
  · refine ⟨[.resume len buf reset trap, .read, .read, .read], ?_, ?_, ?_⟩
    all_goals simp [ioctlThreads, Machine.Admitted, Machine.run, Machine.next, Machine.answer,
      IoctlSystem.threads, waiting, ioctlResumed, reads, ioctlRead, WaitStage.answer, ioctlMachine,
      dhdMsgbufWaitIoctlCmplt, ioctlWaitResult]
  · have resumed : ioctlResumed system.prot len buf reset trap =
        .leaves len buf (ioctlWaitResult system.prot len buf reset trap) := by
      unfold ioctlResumed ioctlWaitResult
      split
      · rfl
      · split
        · rfl
        · split
          · rfl
          · exact absurd ⟨by simp_all, by simp_all, by simp_all⟩ reads
    refine ⟨[.resume len buf reset trap], ?_, ?_, ?_⟩
    all_goals simp [ioctlThreads, Machine.Admitted, Machine.run, Machine.next, Machine.answer,
      IoctlSystem.threads, waiting, resumed, WaitStage.answer, ioctlMachine, dhdMsgbufWaitIoctlCmplt]

/-- The runs of the IOCTL system are those in which handlers and waits are not interrupted. -/
theorem ioctlMachine_uninterrupted {calls : List IoctlCall}
    (admitted : ioctlMachine.Admitted system calls) :
    ∃ steps, ioctlThreads.Admitted system.threads steps ∧
      ioctlThreads.run system.threads steps = (ioctlMachine.run system calls).threads := by
  induction calls generalizing system with
  | nil => exact ⟨[], trivial, rfl⟩
  | cons call rest ih =>
    obtain ⟨accepted, remaining⟩ := admitted
    obtain ⟨later, allowed, reached⟩ := ih remaining
    have first : ∃ steps, ioctlThreads.Admitted system.threads steps ∧
        ioctlThreads.run system.threads steps = (ioctlMachine.next system call).threads := by
      cases call with
      | issue space =>
        have nobody : system.waiting = none := accepted
        refine ⟨[.issue space], ⟨?_, trivial⟩, ?_⟩
        · simp [ioctlThreads, IoctlSystem.threads, nobody]
        · rcases dhdFillupIoctReqst_cases system.prot space with ⟨result, unsent, refused⟩ | sent
          · simp [ioctlThreads, ioctlMachine, Machine.next, IoctlSystem.threads, refused]
          · simp [ioctlThreads, ioctlMachine, Machine.next, IoctlSystem.threads, sent]
      | ack => exact ⟨[.ack], ⟨rfl, trivial⟩, rfl⟩
      | cmplt request ioctResp => exact cmplt_uninterrupted accepted
      | wait len buf reset trap =>
        obtain ⟨steps, taken, left, -⟩ := wait_uninterrupted accepted len buf reset trap
        exact ⟨_, taken, left⟩
    obtain ⟨steps, taken, next⟩ := first
    refine ⟨steps ++ later, ?_, ?_⟩
    · exact (ioctlThreads.admitted_append _ _ _).mpr ⟨taken, by rwa [next]⟩
    · rw [Machine.run_append, next, reached]
      rfl

end Uninterrupted

end BcmDhd.Msgbuf
